import Mathlib.Data.List.Basic

set_option autoImplicit false

namespace MicroWorkflow.Lib

inductive Json where
  | null
  | bool (value : Bool)
  | number (literal : String)
  | string (value : String)
  | array (items : List Json)
  | object (members : List (String × Json))

namespace Json

section Writing

def hexDigits (code : Nat) : List Char :=
  [Nat.digitChar (code / 4096 % 16), Nat.digitChar (code / 256 % 16), Nat.digitChar (code / 16 % 16), Nat.digitChar (code % 16)]

def escapeChar (c : Char) : List Char :=
  if c = '"' then ['\\', '"']
  else if c = '\\' then ['\\', '\\']
  else if c = '\n' then ['\\', 'n']
  else if c = '\r' then ['\\', 'r']
  else if c = '\t' then ['\\', 't']
  else if c = '\x08' then ['\\', 'b']
  else if c = '\x0c' then ['\\', 'f']
  else if c.toNat < 32 then '\\' :: 'u' :: hexDigits c.toNat
  else [c]

variable (escape : Char → List Char)

def quoted (text : List Char) : List Char := '"' :: (text.flatMap escape ++ ['"'])

mutual

def dumps : Json → List Char
  | .null => "null".toList
  | .bool true => "true".toList
  | .bool false => "false".toList
  | .number literal => literal.toList
  | .string value => quoted escape value.toList
  | .array items => '[' :: (dumpsItems items ++ [']'])
  | .object members => '\x7b' :: (dumpsMembers members ++ ['\x7d'])

def dumpsItems : List Json → List Char
  | [] => []
  | [item] => dumps item
  | item :: next :: rest => dumps item ++ ',' :: dumpsItems (next :: rest)

def dumpsMembers : List (String × Json) → List Char
  | [] => []
  | [(key, value)] => quoted escape key.toList ++ ':' :: dumps value
  | (key, value) :: next :: rest =>
      quoted escape key.toList ++ ':' :: (dumps value ++ ',' :: dumpsMembers (next :: rest))

end

end Writing

section Reading

def isSpace (c : Char) : Bool := c = ' ' || c = '\t' || c = '\n' || c = '\r'

def skipSpace (text : List Char) : List Char := text.dropWhile isSpace

def hexValue (c : Char) : Option Nat :=
  if '0' ≤ c ∧ c ≤ '9' then some (c.toNat - 48)
  else if 'a' ≤ c ∧ c ≤ 'f' then some (c.toNat - 87)
  else if 'A' ≤ c ∧ c ≤ 'F' then some (c.toNat - 55)
  else none

def fourHex (a b c d : Char) : Option Nat :=
  match hexValue a, hexValue b, hexValue c, hexValue d with
  | some a, some b, some c, some d => some (((a * 16 + b) * 16 + c) * 16 + d)
  | _, _, _, _ => none

def simpleEscape (c : Char) : Option Char :=
  if c = '"' then some '"'
  else if c = '\\' then some '\\'
  else if c = '/' then some '/'
  else if c = 'b' then some '\x08'
  else if c = 'f' then some '\x0c'
  else if c = 'n' then some '\n'
  else if c = 'r' then some '\r'
  else if c = 't' then some '\t'
  else none

def lowSurrogate (code : Nat) : Bool := 0xdc00 ≤ code && code ≤ 0xdfff

def highSurrogate (code : Nat) : Bool := 0xd800 ≤ code && code ≤ 0xdbff

def joinSurrogates (high low : Nat) : Char := Char.ofNat (0x10000 + ((high - 0xd800) * 1024 + (low - 0xdc00)))

def prepend (c : Char) : List Char × List Char → List Char × List Char := fun scanned => (c :: scanned.1, scanned.2)

-- What stands between an opening quote and its closing one. An escaped surrogate without its partner has no
-- character here and is refused.
def scanString : List Char → Option (List Char × List Char)
  | [] => none
  | c :: text =>
      if c = '"' then some ([], text)
      else if c = '\\' then
        match text with
        | [] => none
        | escaped :: rest =>
            if escaped = 'u' then
              match rest with
              | p :: q :: r :: s :: later =>
                  match fourHex p q r s with
                  | none => none
                  | some code =>
                      if highSurrogate code then
                        match later with
                        | slash :: u :: p :: q :: r :: s :: last =>
                            match fourHex p q r s with
                            | none => none
                            | some low =>
                                if slash = '\\' ∧ u = 'u' ∧ lowSurrogate low then
                                  (scanString last).map (prepend (joinSurrogates code low))
                                else none
                        | _ => none
                      else if lowSurrogate code then none
                      else (scanString later).map (prepend (Char.ofNat code))
              | _ => none
            else
              match simpleEscape escaped with
              | none => none
              | some c => (scanString rest).map (prepend c)
      else if c.toNat < 32 then none
      else (scanString text).map (prepend c)

def isDigit (c : Char) : Bool := '0' ≤ c && c ≤ '9'

def scanInteger : List Char → Option (List Char × List Char)
  | '0' :: rest => some (['0'], rest)
  | c :: rest => if isDigit c then some (c :: rest.takeWhile isDigit, rest.dropWhile isDigit) else none
  | [] => none

def scanFraction : List Char → List Char × List Char
  | '.' :: c :: rest =>
      if isDigit c then ('.' :: c :: rest.takeWhile isDigit, rest.dropWhile isDigit) else ([], '.' :: c :: rest)
  | text => ([], text)

def scanExponent (text : List Char) : List Char × List Char :=
  match text with
  | e :: rest =>
      if e = 'e' ∨ e = 'E' then
        let sign := rest.take 1 |>.filter fun c => c = '-' || c = '+'
        let digits := (rest.drop sign.length).takeWhile isDigit
        if digits = [] then ([], text) else (e :: (sign ++ digits), (rest.drop sign.length).dropWhile isDigit)
      else ([], text)
  | [] => ([], text)

def scanNumber (text : List Char) : Option (Json × List Char) :=
  let sign := text.take 1 |>.filter fun c => c = '-'
  match scanInteger (text.drop sign.length) with
  | none => none
  | some (digits, rest) =>
      let fraction := scanFraction rest
      let exponent := scanExponent fraction.2
      some (.number (String.ofList (sign ++ digits ++ fraction.1 ++ exponent.1)), exponent.2)

def keywords : List (String × Json) :=
  [("null", .null), ("true", .bool true), ("false", .bool false), ("NaN", .number "NaN"), ("Infinity", .number "Infinity"),
    ("-Infinity", .number "-Infinity")]

def scanKeyword (text : List Char) : List (String × Json) → Option (Json × List Char)
  | [] => none
  | (word, value) :: others =>
      if word.toList.isPrefixOf text then some (value, text.drop word.toList.length) else scanKeyword text others

def scanPlain (text : List Char) : Option (Json × List Char) :=
  match scanKeyword text keywords with
  | some found => some found
  | none => scanNumber text

-- Each call spends one unit of fuel; two for each character of the text always last, since between two
-- calls on one text a bracket or an item is read.
mutual

def scanOnce : Nat → List Char → Option (Json × List Char)
  | 0, _ => none
  | fuel + 1, text =>
      match text with
      | [] => none
      | c :: rest =>
          if c = '"' then
            (scanString rest).map fun scanned => (.string (String.ofList scanned.1), scanned.2)
          else if c = '[' then
            match skipSpace rest with
            | [] => none
            | next :: later =>
                if next = ']' then some (.array [], later)
                else (scanItems fuel (next :: later)).map fun scanned => (.array scanned.1, scanned.2)
          else if c = '\x7b' then
            match skipSpace rest with
            | [] => none
            | next :: later =>
                if next = '\x7d' then some (.object [], later)
                else (scanMembers fuel (next :: later)).map fun scanned => (.object scanned.1, scanned.2)
          else scanPlain text

def scanItems : Nat → List Char → Option (List Json × List Char)
  | 0, _ => none
  | fuel + 1, text =>
      match scanOnce fuel text with
      | none => none
      | some (item, rest) =>
          match skipSpace rest with
          | [] => none
          | next :: later =>
              if next = ']' then some ([item], later)
              else if next = ',' then (scanItems fuel (skipSpace later)).map fun scanned => (item :: scanned.1, scanned.2)
              else none

def scanMembers : Nat → List Char → Option (List (String × Json) × List Char)
  | 0, _ => none
  | fuel + 1, text =>
      match text with
      | [] => none
      | c :: rest =>
          if c ≠ '"' then none
          else
            match scanString rest with
            | none => none
            | some (key, rest) =>
                match skipSpace rest with
                | [] => none
                | colon :: rest =>
                    if colon ≠ ':' then none
                    else
                      match scanOnce fuel (skipSpace rest) with
                      | none => none
                      | some (value, rest) =>
                          match skipSpace rest with
                          | [] => none
                          | next :: later =>
                              if next = '\x7d' then some ([(String.ofList key, value)], later)
                              else if next = ',' then
                                (scanMembers fuel (skipSpace later)).map fun scanned =>
                                  ((String.ofList key, value) :: scanned.1, scanned.2)
                              else none

end

def loads (text : List Char) : Option Json :=
  match scanOnce (2 * text.length + 2) (skipSpace text) with
  | some (value, rest) => if skipSpace rest = [] then some value else none
  | none => none

end Reading

section Strings

theorem slash_quote : ('\\' = '"') = False := by decide

theorem scan_string_plain {c : Char} {text : List Char} (quote : c ≠ '"') (escape : c ≠ '\\') (control : ¬c.toNat < 32) :
    scanString (c :: text) = (scanString text).map (prepend c) := by
  rw [scanString.eq_def]
  simp only [if_neg quote, if_neg escape, if_neg control]

theorem scan_string_simple {e c : Char} {text : List Char} (plain : e ≠ 'u') (named : simpleEscape e = some c) :
    scanString ('\\' :: e :: text) = (scanString text).map (prepend c) := by
  rw [scanString.eq_def]
  simp only [slash_quote, if_false, if_true, if_neg plain, named]

theorem hex_value_digit : ∀ digit < 16, hexValue (Nat.digitChar digit) = some digit := by decide

theorem four_hex_digits {code : Nat} (small : code < 65536) :
    fourHex (Nat.digitChar (code / 4096 % 16)) (Nat.digitChar (code / 256 % 16)) (Nat.digitChar (code / 16 % 16))
      (Nat.digitChar (code % 16)) = some code := by
  have part : ∀ natural : Nat, hexValue (Nat.digitChar (natural % 16)) = some (natural % 16) :=
    fun natural => hex_value_digit _ (Nat.mod_lt _ (by decide))
  simp only [fourHex, part, Option.some.injEq]
  omega

theorem scan_string_plain_code {code : Nat} {text : List Char} (small : code < 65536) (low : code < 0xd800 ∨ 0xdfff < code) :
    scanString ('\\' :: 'u' :: (hexDigits code ++ text)) = (scanString text).map (prepend (Char.ofNat code)) := by
  have high : highSurrogate code = false := by
    simp only [highSurrogate, Bool.and_eq_false_iff, decide_eq_false_iff_not]
    omega
  have lower : lowSurrogate code = false := by
    simp only [lowSurrogate, Bool.and_eq_false_iff, decide_eq_false_iff_not]
    omega
  rw [scanString.eq_def]
  simp only [hexDigits, List.cons_append, List.nil_append, slash_quote, if_true, four_hex_digits small, high, lower,
    Bool.false_eq_true, if_false]

theorem scan_string_escape (c : Char) (text : List Char) :
    scanString (escapeChar c ++ text) = (scanString text).map (prepend c) := by
  unfold escapeChar
  by_cases quote : c = '"'
  · subst quote
    exact scan_string_simple (by decide) rfl
  rw [if_neg quote]
  by_cases escape : c = '\\'
  · subst escape
    exact scan_string_simple (by decide) rfl
  rw [if_neg escape]
  by_cases newline : c = '\n'
  · subst newline
    exact scan_string_simple (by decide) rfl
  rw [if_neg newline]
  by_cases carriage : c = '\r'
  · subst carriage
    exact scan_string_simple (by decide) rfl
  rw [if_neg carriage]
  by_cases tab : c = '\t'
  · subst tab
    exact scan_string_simple (by decide) rfl
  rw [if_neg tab]
  by_cases back : c = '\x08'
  · subst back
    exact scan_string_simple (by decide) rfl
  rw [if_neg back]
  by_cases feed : c = '\x0c'
  · subst feed
    exact scan_string_simple (by decide) rfl
  rw [if_neg feed]
  by_cases control : c.toNat < 32
  · rw [if_pos control]
    exact (scan_string_plain_code (by omega) (by omega)).trans (by rw [Char.ofNat_toNat])
  · rw [if_neg control]
    exact scan_string_plain quote escape control

mutual

def need : Json → Nat
  | .array items => 1 + needItems items
  | .object members => 1 + needMembers members
  | _ => 1

def needItems : List Json → Nat
  | [] => 0
  | item :: rest => 1 + need item + needItems rest

def needMembers : List (String × Json) → Nat
  | [] => 0
  | (_, value) :: rest => 1 + need value + needMembers rest

end

theorem skip_space_stays {c : Char} {text : List Char} (visible : isSpace c = false) : skipSpace (c :: text) = c :: text := by
  rw [skipSpace, List.dropWhile_cons_of_neg (by rw [visible]; decide)]

end Strings

end Json

end MicroWorkflow.Lib

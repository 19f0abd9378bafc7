import MicroWorkflow.Lib.Json

set_option autoImplicit false

namespace MicroWorkflow.Lib.Json

section Integers

def integerText : Int → List Char
  | .ofNat natural => Nat.toDigits 10 natural
  | .negSucc natural => '-' :: Nat.toDigits 10 (natural + 1)

def integer (amount : Int) : Json := .number (String.ofList (integerText amount))

def digitsValue (digits : List Char) : Option Int :=
  if digits ≠ [] ∧ digits.all isDigit = true then some (Nat.ofDigitChars 10 digits 0) else none

def asInteger : Json → Option Int
  | .number literal =>
      match literal.toList with
      | '-' :: digits => (digitsValue digits).map fun amount => -amount
      | digits => digitsValue digits
  | _ => none

def member (members : List (String × Json)) (field : String) : Option Json :=
  (members.reverse.find? fun entry => entry.1 = field).map Prod.snd

theorem is_digit_of_core {c : Char} (digit : c.isDigit = true) : isDigit c = true := by
  simp only [Char.isDigit, Bool.and_eq_true, decide_eq_true_eq] at digit
  simp only [isDigit, Bool.and_eq_true, decide_eq_true_eq]
  exact digit

theorem to_digits_digits (natural : Nat) : (Nat.toDigits 10 natural).all isDigit = true :=
  List.all_eq_true.mpr fun c member => is_digit_of_core (Nat.isDigit_of_mem_toDigits (by decide) (by decide) member)

theorem to_digits_start : ∀ natural : Nat, 0 < natural → ∃ first rest, Nat.toDigits 10 natural = first :: rest ∧ first ≠ '0' := by
  intro natural
  induction natural using Nat.strongRecOn with
  | ind natural ih =>
      intro positive
      by_cases small : natural < 10
      · refine ⟨_, _, Nat.toDigits_of_lt_base small, ?_⟩
        have table : ∀ digit < 10, 0 < digit → Nat.digitChar digit ≠ '0' := by decide
        exact table natural small positive
      · have split := Nat.toDigits_of_base_le (by decide : 1 < 10) (by omega : 10 ≤ natural)
        obtain ⟨first, rest, shape, visible⟩ := ih (natural / 10) (by omega) (by omega)
        refine ⟨first, rest ++ [Nat.digitChar (natural % 10)], ?_, visible⟩
        rw [split, shape]
        rfl

theorem digits_value_digits (natural : Nat) : digitsValue (Nat.toDigits 10 natural) = some (natural : Int) := by
  rw [digitsValue, if_pos ⟨Nat.toDigits_ne_nil, to_digits_digits natural⟩, Nat.ofDigitChars_ten_toDigits]

theorem digits_not_minus (natural : Nat) : ∀ rest, Nat.toDigits 10 natural ≠ '-' :: rest := by
  intro rest same
  have digits := to_digits_digits natural
  rw [same] at digits
  simp [isDigit] at digits

@[simp] theorem as_integer_integer (amount : Int) : asInteger (integer amount) = some amount := by
  cases amount with
  | ofNat natural =>
      simp only [asInteger, integer, integerText, String.toList_ofList]
      split
      · next digits shape => exact absurd shape (digits_not_minus natural digits)
      · exact digits_value_digits natural
  | negSucc natural =>
      simp only [asInteger, integer, integerText, String.toList_ofList, digits_value_digits, Option.map_some]
      rfl

end Integers

section Scanning

def Stops (rest : List Char) : Prop := ∀ c, rest.head? = some c → isDigit c = false ∧ c ≠ '.' ∧ c ≠ 'e' ∧ c ≠ 'E'

variable {rest : List Char}

theorem scan_integer_digits (natural : Nat) (stops : Stops rest) :
    scanInteger (Nat.toDigits 10 natural ++ rest) = some (Nat.toDigits 10 natural, rest) := by
  have quiet : rest.takeWhile isDigit = [] ∧ rest.dropWhile isDigit = rest := by
    cases rest with
    | nil => exact ⟨rfl, rfl⟩
    | cons c later =>
        have plain := (stops c rfl).1
        simp [plain]
  by_cases zero : natural = 0
  · subst zero
    rw [Nat.toDigits_zero]
    rfl
  · obtain ⟨first, later, shape, visible⟩ := to_digits_start natural (by omega)
    have digits := to_digits_digits natural
    rw [shape, List.all_cons, Bool.and_eq_true] at digits
    have all : ∀ c ∈ later, isDigit c = true := List.all_eq_true.mp digits.2
    rw [shape, List.cons_append]
    unfold scanInteger
    split
    · next same => exact absurd (List.cons.inj same).1 visible
    · next same =>
        obtain ⟨rfl, rfl⟩ := List.cons.inj same
        rw [if_pos digits.1, List.takeWhile_append_of_pos all, List.dropWhile_append_of_pos all,
          quiet.1, quiet.2, List.append_nil]
    · next same => cases same

theorem scan_fraction_stops (stops : Stops rest) : scanFraction rest = ([], rest) := by
  unfold scanFraction
  split
  · next c later => exact absurd rfl (stops '.' rfl).2.1
  · rfl

theorem scan_exponent_stops (stops : Stops rest) : scanExponent rest = ([], rest) := by
  cases rest with
  | nil => rfl
  | cons c later =>
      have ⟨_, _, lower, upper⟩ := stops c rfl
      rw [scanExponent]
      exact if_neg (by simp [lower, upper])

theorem scan_number_integer (amount : Int) (stops : Stops rest) :
    scanNumber (integerText amount ++ rest) = some (integer amount, rest) := by
  have minus : decide ('-' = '-') = true := rfl
  cases amount with
  | ofNat natural =>
      have sign : ((Nat.toDigits 10 natural ++ rest).take 1).filter (fun c => c = '-') = [] := by
        obtain ⟨first, later, shape⟩ := List.exists_cons_of_ne_nil (Nat.toDigits_ne_nil : Nat.toDigits 10 natural ≠ [])
        have unsigned : first ≠ '-' := fun same => digits_not_minus natural later (by rw [shape, same])
        simp [shape, unsigned]
      simp only [scanNumber, integerText, sign, List.length_nil, List.drop_zero, scan_integer_digits natural stops,
        scan_fraction_stops stops, scan_exponent_stops stops, List.nil_append, List.append_nil]
      rfl
  | negSucc natural =>
      have sign : (('-' :: (Nat.toDigits 10 (natural + 1) ++ rest)).take 1).filter (fun c => c = '-') = ['-'] := rfl
      simp only [scanNumber, integerText, List.cons_append, sign, List.length_singleton, List.drop_succ_cons, List.drop_zero,
        scan_integer_digits _ stops, scan_fraction_stops stops, scan_exponent_stops stops, List.nil_append, List.append_nil]
      rfl

theorem scan_keyword_none {text : List Char} : ∀ {words : List (String × Json)},
    (∀ entry ∈ words, entry.1.toList.isPrefixOf text = false) → scanKeyword text words = none := by
  intro words
  induction words with
  | nil => exact fun _ => rfl
  | cons entry others ih =>
      intro absent
      rw [scanKeyword, absent entry List.mem_cons_self]
      exact ih fun other member => absent other (List.mem_cons_of_mem _ member)

theorem keyword_starts : ∀ entry ∈ keywords, ∃ first second rest, entry.1.toList = first :: second :: rest ∧
    isDigit first = false ∧ isDigit second = false := by
  intro entry member
  simp only [keywords, List.mem_cons, List.not_mem_nil, or_false] at member
  rcases member with rfl | rfl | rfl | rfl | rfl | rfl <;> exact ⟨_, _, _, rfl, rfl, rfl⟩

theorem digits_start (natural : Nat) : ∃ first later, Nat.toDigits 10 natural = first :: later ∧ isDigit first = true := by
  obtain ⟨first, later, shape⟩ := List.exists_cons_of_ne_nil (Nat.toDigits_ne_nil : Nat.toDigits 10 natural ≠ [])
  have digits := to_digits_digits natural
  rw [shape, List.all_cons, Bool.and_eq_true] at digits
  exact ⟨first, later, shape, digits.1⟩

theorem scan_plain_integer (amount : Int) (stops : Stops rest) :
    scanPlain (integerText amount ++ rest) = some (integer amount, rest) := by
  have differ : ∀ {plain digit : Char}, isDigit plain = false → isDigit digit = true → (plain == digit) = false :=
    fun plain digit => beq_false_of_ne fun same => by rw [same, digit] at plain; cases plain
  have none : scanKeyword (integerText amount ++ rest) keywords = none := by
    refine scan_keyword_none fun entry member => ?_
    obtain ⟨first, second, more, word, plain, next⟩ := keyword_starts entry member
    cases amount with
    | ofNat natural =>
        obtain ⟨digit, later, shape, read⟩ := digits_start natural
        rw [word, integerText, shape, List.cons_append, List.isPrefixOf, differ plain read, Bool.false_and]
    | negSucc natural =>
        obtain ⟨digit, later, shape, read⟩ := digits_start (natural + 1)
        rw [word, integerText, shape, List.cons_append, List.cons_append, List.isPrefixOf, List.isPrefixOf, differ next read,
          Bool.false_and, Bool.and_false]
  rw [scanPlain, none]
  exact scan_number_integer amount stops

end Scanning

section Escapes

def escapeAscii (c : Char) : List Char :=
  if c.toNat < 127 then escapeChar c
  else if c.toNat < 0x10000 then '\\' :: 'u' :: hexDigits c.toNat
  else
    let offset := c.toNat - 0x10000
    '\\' :: 'u' :: (hexDigits (0xd800 + offset / 1024) ++ '\\' :: 'u' :: hexDigits (0xdc00 + offset % 1024))

theorem scan_string_pair {high low : Nat} {text : List Char} (first : highSurrogate high = true)
    (second : lowSurrogate low = true) :
    scanString ('\\' :: 'u' :: (hexDigits high ++ '\\' :: 'u' :: (hexDigits low ++ text))) =
      (scanString text).map (prepend (joinSurrogates high low)) := by
  have small : high < 65536 ∧ low < 65536 := by
    simp only [highSurrogate, lowSurrogate, Bool.and_eq_true, decide_eq_true_eq] at first second
    omega
  rw [scanString.eq_def]
  simp only [hexDigits, List.cons_append, List.nil_append, slash_quote, if_true, four_hex_digits small.1,
    four_hex_digits small.2, first, second, and_self, if_false]

theorem scan_string_ascii (c : Char) (text : List Char) :
    scanString (escapeAscii c ++ text) = (scanString text).map (prepend c) := by
  have valid : c.toNat < 0xd800 ∨ (0xdfff < c.toNat ∧ c.toNat < 0x110000) := c.valid
  unfold escapeAscii
  by_cases ascii : c.toNat < 127
  · rw [if_pos ascii]
    exact scan_string_escape c text
  rw [if_neg ascii]
  by_cases basic : c.toNat < 0x10000
  · rw [if_pos basic]
    exact (scan_string_plain_code basic (by omega)).trans (by rw [Char.ofNat_toNat])
  · rw [if_neg basic]
    have first : highSurrogate (0xd800 + (c.toNat - 0x10000) / 1024) = true := by
      simp only [highSurrogate, Bool.and_eq_true, decide_eq_true_eq]
      omega
    have second : lowSurrogate (0xdc00 + (c.toNat - 0x10000) % 1024) = true := by
      simp only [lowSurrogate, Bool.and_eq_true, decide_eq_true_eq]
      omega
    have whole : joinSurrogates (0xd800 + (c.toNat - 0x10000) / 1024) (0xdc00 + (c.toNat - 0x10000) % 1024) = c := by
      have code : 0x10000 + ((0xd800 + (c.toNat - 0x10000) / 1024 - 0xd800) * 1024 +
          (0xdc00 + (c.toNat - 0x10000) % 1024 - 0xdc00)) = c.toNat := by omega
      rw [joinSurrogates, code, Char.ofNat_toNat]
    simp only [List.cons_append, List.append_assoc, scan_string_pair first second, whole]

end Escapes

section Writer

mutual

def Integral : Json → Prop
  | .number literal => ∃ amount : Int, literal = String.ofList (integerText amount)
  | .array items => IntegralItems items
  | .object members => IntegralMembers members
  | _ => True

def IntegralItems : List Json → Prop
  | [] => True
  | item :: rest => Integral item ∧ IntegralItems rest

def IntegralMembers : List (String × Json) → Prop
  | [] => True
  | (_, value) :: rest => Integral value ∧ IntegralMembers rest

end

end Writer

section WriterRoundTrip

variable {escape : Char → List Char}

def Reads (escape : Char → List Char) : Prop :=
  ∀ (c : Char) (text : List Char), scanString (escape c ++ text) = (scanString text).map (prepend c)

theorem scan_string_quoted (reads : Reads escape) (text rest : List Char) :
    scanString (text.flatMap escape ++ '"' :: rest) = some (text, rest) := by
  induction text with
  | nil =>
      rw [scanString.eq_def]
      rfl
  | cons c later ih =>
      rw [List.flatMap_cons, List.append_assoc, reads, ih]
      rfl

theorem stops_at {c : Char} {rest : List Char} (plain : isDigit c = false ∧ c ≠ '.' ∧ c ≠ 'e' ∧ c ≠ 'E') : Stops (c :: rest) := by
  intro first same
  rw [← Option.some.inj same]
  exact plain

theorem stops_comma (rest : List Char) : Stops (',' :: rest) := stops_at (by decide)

theorem stops_bracket (rest : List Char) : Stops (']' :: rest) := stops_at (by decide)

theorem stops_brace (rest : List Char) : Stops ('\x7d' :: rest) := stops_at (by decide)

theorem integer_text_head (amount : Int) : ∃ c text, integerText amount = c :: text ∧ c ≠ '"' ∧ c ≠ '[' ∧ c ≠ '\x7b' ∧
    c ≠ ']' ∧ isSpace c = false := by
  have plain : ∀ digit : Char, isDigit digit = true →
    digit ≠ '"' ∧ digit ≠ '[' ∧ digit ≠ '\x7b' ∧ digit ≠ ']' ∧ isSpace digit = false := by
    intro digit read
    refine ⟨fun same => ?_, fun same => ?_, fun same => ?_, fun same => ?_, Bool.eq_false_iff.mpr fun same => ?_⟩
    · rw [same] at read; cases read
    · rw [same] at read; cases read
    · rw [same] at read; cases read
    · rw [same] at read; cases read
    · simp only [isSpace, Bool.or_eq_true, decide_eq_true_eq] at same
      rcases same with ((rfl | rfl) | rfl) | rfl <;> cases read
  cases amount with
  | ofNat natural =>
      obtain ⟨digit, later, shape, read⟩ := digits_start natural
      exact ⟨digit, later, shape, plain digit read⟩
  | negSucc natural => exact ⟨'-', _, rfl, by decide⟩

theorem dumps_head (escape : Char → List Char) {value : Json} (whole : Integral value) :
    ∃ c text, dumps escape value = c :: text ∧ c ≠ ']' ∧ isSpace c = false := by
  cases value with
  | null => exact ⟨_, _, rfl, by decide, by decide⟩
  | bool value => cases value <;> exact ⟨_, _, rfl, by decide, by decide⟩
  | number literal =>
      obtain ⟨amount, rfl⟩ := whole
      obtain ⟨c, text, shape, _, _, _, bracket, visible⟩ := integer_text_head amount
      exact ⟨c, text, by rw [dumps, String.toList_ofList, shape], bracket, visible⟩
  | string value => exact ⟨_, _, rfl, by decide, by decide⟩
  | array items => exact ⟨_, _, rfl, by decide, by decide⟩
  | object members => exact ⟨_, _, rfl, by decide, by decide⟩

theorem dumps_items_head (escape : Char → List Char) {item : Json} (rest : List Json) (whole : Integral item) :
    ∃ c text, dumpsItems escape (item :: rest) = c :: text ∧ c ≠ ']' ∧ isSpace c = false := by
  obtain ⟨c, text, shape, bracket, visible⟩ := dumps_head escape whole
  cases rest with
  | nil => exact ⟨c, text, shape, bracket, visible⟩
  | cons next later =>
      refine ⟨c, text ++ ',' :: dumpsItems escape (next :: later), ?_, bracket, visible⟩
      rw [dumpsItems, shape]
      rfl

theorem dumps_members_head (escape : Char → List Char) (key : String) (value : Json) (rest : List (String × Json)) :
    ∃ text, dumpsMembers escape ((key, value) :: rest) =
        '"' :: (key.toList.flatMap escape ++ '"' :: ':' :: (dumps escape value ++ text)) ∧
      ∀ last, text ++ last = match rest with
        | [] => last
        | next :: later => ',' :: (dumpsMembers escape (next :: later) ++ last) := by
  cases rest with
  | nil =>
      refine ⟨[], ?_, fun last => rfl⟩
      simp [dumpsMembers, quoted]
  | cons next later =>
      refine ⟨',' :: dumpsMembers escape (next :: later), ?_, fun last => ?_⟩
      · simp [dumpsMembers, quoted]
      · simp

mutual

theorem scan_dumps (reads : Reads escape) : ∀ (value : Json) (fuel : Nat) (rest : List Char), Integral value →
    Stops rest → need value ≤ fuel → scanOnce fuel (dumps escape value ++ rest) = some (value, rest)
  | value, 0, rest, _, _, enough => by cases value <;> simp [need] at enough
  | .null, _ + 1, rest, _, _, _ => by simp [scanOnce, dumps, scanPlain, scanKeyword, keywords]
  | .bool true, _ + 1, rest, _, _, _ => by simp [scanOnce, dumps, scanPlain, scanKeyword, keywords]
  | .bool false, _ + 1, rest, _, _, _ => by simp [scanOnce, dumps, scanPlain, scanKeyword, keywords]
  | .number literal, fuel + 1, rest, whole, stops, _ => by
      obtain ⟨amount, rfl⟩ := whole
      obtain ⟨c, text, shape, quote, bracket, brace, _⟩ := integer_text_head amount
      have plain : scanOnce (fuel + 1) (integerText amount ++ rest) = scanPlain (integerText amount ++ rest) := by
        rw [shape, List.cons_append, scanOnce]
        simp only [if_neg quote, if_neg bracket, if_neg brace]
      rw [dumps, String.toList_ofList, plain]
      exact scan_plain_integer amount stops
  | .string value, fuel + 1, rest, _, _, _ => by
      have text : dumps escape (.string value) ++ rest = '"' :: (value.toList.flatMap escape ++ '"' :: rest) := by
        simp [dumps, quoted]
      rw [text, scanOnce]
      simp only [if_true, scan_string_quoted reads, Option.map_some, String.ofList_toList]
  | .array [], _ + 1, rest, _, _, _ => by simp [scanOnce, dumps, dumpsItems, skipSpace, isSpace]
  | .array (item :: items), fuel + 1, rest, whole, _, enough => by
      have room : needItems (item :: items) ≤ fuel := by
        simp only [need] at enough
        omega
      have read := scan_dumps_items reads (item :: items) fuel rest (by simp) whole room
      obtain ⟨c, text, shape, bracket, visible⟩ := dumps_items_head escape items whole.1
      have start : dumps escape (.array (item :: items)) ++ rest = '[' :: (c :: (text ++ ']' :: rest)) := by
        rw [dumps, shape]
        simp
      rw [shape, List.cons_append] at read
      rw [start, scanOnce, skip_space_stays visible]
      simp only [if_neg bracket, read, Option.map_some]
      rfl
  | .object [], _ + 1, rest, _, _, _ => by simp [scanOnce, dumps, dumpsMembers, skipSpace, isSpace]
  | .object (member :: members), fuel + 1, rest, whole, _, enough => by
      have room : needMembers (member :: members) ≤ fuel := by
        simp only [need] at enough
        omega
      have read := scan_dumps_members reads (member :: members) fuel rest (by simp) whole room
      obtain ⟨text, shape, _⟩ := dumps_members_head escape member.1 member.2 members
      have start : dumps escape (.object (member :: members)) ++ rest =
          '\x7b' :: (dumpsMembers escape (member :: members) ++ '\x7d' :: rest) := by
        rw [dumps]
        simp
      rw [start, scanOnce]
      rw [shape, List.cons_append] at read ⊢
      rw [skip_space_stays (by decide)]
      simp only [read, Option.map_some]
      rfl

theorem scan_dumps_items (reads : Reads escape) : ∀ (items : List Json) (fuel : Nat) (rest : List Char),
    items ≠ [] → IntegralItems items → needItems items ≤ fuel →
      scanItems fuel (dumpsItems escape items ++ ']' :: rest) = some (items, rest)
  | [], _, _, listed, _, _ => absurd rfl listed
  | item :: items, 0, _, _, _, enough => by simp [needItems] at enough
  | [item], fuel + 1, rest, _, whole, enough => by
      have room : need item ≤ fuel := by
        simp only [needItems] at enough
        omega
      have read := scan_dumps reads item fuel (']' :: rest) whole.1 (stops_bracket rest) room
      have closing : skipSpace (']' :: rest) = ']' :: rest := skip_space_stays (by decide)
      simp only [scanItems, dumpsItems, read, closing, if_true]
  | item :: next :: later, fuel + 1, rest, _, whole, enough => by
      have room : need item ≤ fuel ∧ needItems (next :: later) ≤ fuel := by
        rw [needItems] at enough
        omega
      have read := scan_dumps reads item fuel (',' :: (dumpsItems escape (next :: later) ++ ']' :: rest))
        whole.1 (stops_comma _) room.1
      have others := scan_dumps_items reads (next :: later) fuel rest (by simp) whole.2 room.2
      obtain ⟨c, text, shape, _, visible⟩ := dumps_items_head escape later whole.2.1
      have comma : ∀ text, skipSpace (',' :: text) = ',' :: text := fun text => skip_space_stays (by decide)
      have start : dumpsItems escape (item :: next :: later) ++ ']' :: rest =
          dumps escape item ++ ',' :: (dumpsItems escape (next :: later) ++ ']' :: rest) := by
        rw [dumpsItems]
        simp
      rw [start, scanItems, read]
      simp only [comma, if_true]
      rw [shape, List.cons_append] at others ⊢
      rw [if_neg (by decide), skip_space_stays visible, others]
      rfl

theorem scan_dumps_members (reads : Reads escape) : ∀ (members : List (String × Json)) (fuel : Nat)
    (rest : List Char), members ≠ [] → IntegralMembers members → needMembers members ≤ fuel →
      scanMembers fuel (dumpsMembers escape members ++ '\x7d' :: rest) = some (members, rest)
  | [], _, _, listed, _, _ => absurd rfl listed
  | member :: members, 0, _, _, _, enough => by simp [needMembers] at enough
  | (key, value) :: members, fuel + 1, rest, _, whole, enough => by
      have room : need value ≤ fuel ∧ needMembers members ≤ fuel := by
        rw [needMembers] at enough
        omega
      obtain ⟨text, shape, continued⟩ := dumps_members_head escape key value members
      have stops : Stops (text ++ '\x7d' :: rest) := by
        rw [continued]
        cases members with
        | nil => exact stops_brace rest
        | cons next later => exact stops_comma _
      have read := scan_dumps reads value fuel (text ++ '\x7d' :: rest) whole.1 stops room.1
      obtain ⟨c, spelled, first, _, visible⟩ := dumps_head escape whole.1
      have colon : ∀ text, skipSpace (':' :: text) = ':' :: text := fun text => skip_space_stays (by decide)
      have start : dumpsMembers escape ((key, value) :: members) ++ '\x7d' :: rest =
          '"' :: (key.toList.flatMap escape ++ '"' :: ':' :: (dumps escape value ++ (text ++ '\x7d' :: rest))) := by
        rw [shape]
        simp
      have spaceless : skipSpace (dumps escape value ++ (text ++ '\x7d' :: rest)) =
          dumps escape value ++ (text ++ '\x7d' :: rest) := by
        rw [first, List.cons_append]
        exact skip_space_stays visible
      rw [start, scanMembers]
      simp only [ne_eq, not_true_eq_false, if_false, scan_string_quoted reads, colon, spaceless, read]
      rw [continued]
      cases members with
      | nil =>
          have closing : skipSpace ('\x7d' :: rest) = '\x7d' :: rest := skip_space_stays (by decide)
          simp only [closing, if_true, String.ofList_toList]
      | cons next later =>
          have others := scan_dumps_members reads (next :: later) fuel rest (by simp) whole.2 room.2
          have comma : ∀ text, skipSpace (',' :: text) = ',' :: text := fun text => skip_space_stays (by decide)
          obtain ⟨more, shape, _⟩ := dumps_members_head escape next.1 next.2 later
          simp only [comma]
          rw [shape, List.cons_append] at others ⊢
          rw [if_neg (by decide), if_true, skip_space_stays (by decide), others]
          simp only [Option.map_some, String.ofList_toList]

end

mutual

theorem need_bound : ∀ value : Json, Integral value → need value ≤ 2 * (dumps escape value).length
  | .null, _ => by simp [need, dumps]
  | .bool true, _ => by simp [need, dumps]
  | .bool false, _ => by simp [need, dumps]
  | .number literal, whole => by
      obtain ⟨c, text, shape, _⟩ := dumps_head escape whole
      have one : need (.number literal) = 1 := by simp [need]
      rw [shape, List.length_cons, one]
      omega
  | .string value, _ => by
      simp only [need, dumps, quoted, List.length_cons, List.length_append]
      omega
  | .array items, whole => by
      have inner := need_items_bound items whole
      simp only [need, dumps, List.length_cons, List.length_append, List.length_nil]
      omega
  | .object members, whole => by
      have inner := need_members_bound members whole
      simp only [need, dumps, List.length_cons, List.length_append, List.length_nil]
      omega

theorem need_items_bound : ∀ items : List Json, IntegralItems items → needItems items ≤ 2 * (dumpsItems escape items).length + 1
  | [], _ => by simp [needItems]
  | [item], whole => by
      have inner := need_bound item whole.1
      simp only [needItems, dumpsItems]
      omega
  | item :: next :: later, whole => by
      have inner := need_bound item whole.1
      have others := need_items_bound (next :: later) whole.2
      rw [needItems, dumpsItems, List.length_append, List.length_cons]
      omega

theorem need_members_bound : ∀ members : List (String × Json), IntegralMembers members →
    needMembers members ≤ 2 * (dumpsMembers escape members).length + 1
  | [], _ => by simp [needMembers]
  | [(key, value)], whole => by
      have inner := need_bound value whole.1
      simp only [needMembers, dumpsMembers, List.length_append, List.length_cons]
      omega
  | (key, value) :: next :: later, whole => by
      have inner := need_bound value whole.1
      have others := need_members_bound (next :: later) whole.2
      rw [needMembers, dumpsMembers]
      simp only [List.length_append, List.length_cons]
      omega

end

theorem loads_dumps (reads : Reads escape) {value : Json} (whole : Integral value) :
    loads (dumps escape value) = some value := by
  obtain ⟨c, text, shape, _, visible⟩ := dumps_head escape whole
  have start : skipSpace (dumps escape value) = dumps escape value := by
    rw [shape]
    exact skip_space_stays visible
  have enough : need value ≤ 2 * (dumps escape value).length + 2 := Nat.le_add_right_of_le (need_bound value whole)
  have stops : Stops [] := by
    intro c same
    cases same
  have read := scan_dumps reads value (2 * (dumps escape value).length + 2) [] whole stops enough
  rw [List.append_nil] at read
  rw [loads, start, read]
  rfl

end WriterRoundTrip

end MicroWorkflow.Lib.Json

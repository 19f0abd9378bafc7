import Mathlib.Data.List.Basic

set_option autoImplicit false

namespace MicroWorkflow.Lib.Glob

inductive Token where
  | many
  | one
  | members (negated : Bool) (ranges : List (Char × Char))
  | literal (c : Char)
deriving DecidableEq, Repr

section Reading

def ranges : List Char → List (Char × Char)
  | low :: '-' :: high :: rest => (low, high) :: ranges rest
  | c :: rest => (c, c) :: ranges rest
  | [] => []

def untilBracket : List Char → Option (List Char × List Char)
  | [] => none
  | c :: rest => if c = ']' then some ([], rest) else (untilBracket rest).map fun found => (c :: found.1, found.2)

def setBody : List Char → Option (List Char × List Char)
  | '!' :: ']' :: rest => (untilBracket rest).map fun found => ('!' :: ']' :: found.1, found.2)
  | ']' :: rest => (untilBracket rest).map fun found => (']' :: found.1, found.2)
  | text => untilBracket text

def setToken : List Char → Token
  | '!' :: body => .members true (ranges body)
  | body => .members false (ranges body)

def read : Nat → List Char → List Token
  | 0, _ => []
  | _ + 1, [] => []
  | fuel + 1, c :: rest =>
      if c = '*' then .many :: read fuel rest
      else if c = '?' then .one :: read fuel rest
      else if c = '[' then
        match setBody rest with
        | none => .literal c :: read fuel rest
        | some (body, later) => setToken body :: read fuel later
      else .literal c :: read fuel rest

def parse (pattern : List Char) : List Token := read pattern.length pattern

end Reading

section Matching

def Token.admits : Token → Char → Bool
  | .members negated ranges, c => (ranges.any fun range => range.1 ≤ c && c ≤ range.2) != negated
  | .literal expected, c => c = expected
  | _, _ => true

def accepts : List Token → List Char → Bool
  | [], text => text.isEmpty
  | .many :: rest, text => text.tails.any (accepts rest)
  | _ :: _, [] => false
  | token :: rest, c :: text => token.admits c && accepts rest text

end Matching

end MicroWorkflow.Lib.Glob

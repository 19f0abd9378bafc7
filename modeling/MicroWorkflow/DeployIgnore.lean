import Mathlib.Data.List.DropRight
import MicroWorkflow.Lib.Glob
import MicroWorkflow.Lib.LastMatch
import MicroWorkflow.Values

set_option autoImplicit false

namespace MicroWorkflow

abbrev EntryName : Type := { name : List Char // name ≠ [] ∧ '/' ∉ name ∧ name ≠ ['.'] ∧ name ≠ ['.', '.'] }

abbrev RelativePath := List EntryName

def joinSlash (parts : List (List Char)) : List Char := ['/'].intercalate parts

def asPosix (path : RelativePath) : List Char :=
  if path.isEmpty then ['.'] else joinSlash (path.map Subtype.val)

def stripSlash (text : List Char) : List Char := (text.dropWhile (· == '/')).rdropWhile (· == '/')

def fnmatchcase (name pattern : List Char) : Bool := Lib.Glob.accepts (Lib.Glob.parse pattern) name

structure IgnoreRule where
  pattern : List Char
  negated : Bool
  directoryOnly : Bool
  anchored : Bool
deriving DecidableEq, Repr

def directoryPrefixMatch (path pattern : List Char) : Bool :=
  let parts := path.splitOn '/'
  (List.range' 1 parts.length).any fun length => fnmatchcase (joinSlash (parts.take length)) pattern

namespace IgnoreRule

def slashed (rule : IgnoreRule) : Bool := rule.anchored || (stripSlash rule.pattern).contains '/'

def covering (rule : IgnoreRule) : Bool := !rule.slashed || rule.directoryOnly

def matchesPath (rule : IgnoreRule) (relativePath : List Char) (isDir : Bool) : Bool :=
  let path := stripSlash relativePath
  let pattern := stripSlash rule.pattern
  if path.isEmpty then false
  else if pattern.isEmpty then false
  else if rule.slashed then
    let matched := fnmatchcase path pattern
    let matched := if rule.directoryOnly && !rule.negated then matched || directoryPrefixMatch path pattern else matched
    matched && (isDir || !rule.directoryOnly || !rule.negated)
  else
    let parts := path.splitOn '/'
    let last := parts.getLastD []
    if rule.directoryOnly then
      -- A re-included directory does not bring its files back.
      if rule.negated then isDir && fnmatchcase last pattern
      else (parts.dropLast ++ if isDir then [last] else []).any (fnmatchcase · pattern)
    else parts.any (fnmatchcase · pattern)

end IgnoreRule

section Reading

def lineEnd (c : Char) : Bool :=
  let n := c.toNat
  (10 ≤ n && n ≤ 13) || (28 ≤ n && n ≤ 30) || n == 133 || n == 8232 || n == 8233

def splitLines : List Char → List (List Char)
  | [] => []
  | '\r' :: '\n' :: rest => [] :: splitLines rest
  | c :: rest =>
      if lineEnd c then [] :: splitLines rest
      else
        match splitLines rest with
        | [] => [[c]]
        | line :: later => (c :: line) :: later

def stripBlank (text : List Char) : List Char := (text.dropWhile blank).rdropWhile blank

def ruleOfLine (rawLine : List Char) : Option IgnoreRule :=
  let line := stripBlank rawLine
  if line.isEmpty || line.head? == some '#' then none
  else
    let negated := line.head? == some '!'
    let line := if negated then line.drop 1 else line
    if line.isEmpty then none
    else
      let line := line.map fun c => if c == '\\' then '/' else c
      some { pattern := stripSlash line, negated := negated, directoryOnly := line.getLast? == some '/',
             anchored := line.head? == some '/' }

end Reading

abbrev MWFIgnore := List IgnoreRule

namespace MWFIgnore

def fromText (text : List Char) : MWFIgnore := (splitLines text).filterMap ruleOfLine

def dropDotSlash : List Char → List Char
  | '.' :: '/' :: rest => dropDotSlash rest
  | text => text

def isIgnored (rules : MWFIgnore) (relativePath : RelativePath) (isDir : Bool) : Bool :=
  let path := (dropDotSlash (asPosix relativePath)).dropWhile (· == '/')
  Lib.lastMatch (fun rule => rule.matchesPath path isDir) (fun rule => !rule.negated) rules

end MWFIgnore

section Paths

variable {path : RelativePath}

theorem join_slash_cons (first next : List Char) (rest : List (List Char)) :
    joinSlash (first :: next :: rest) = first ++ '/' :: joinSlash (next :: rest) := by
  simp [joinSlash]

theorem as_posix_join (listed : path ≠ []) : asPosix path = joinSlash (path.map Subtype.val) :=
  if_neg (by simpa using listed)

theorem join_slash_end : ∀ path : RelativePath, path ≠ [] →
    ∃ front last, joinSlash (path.map Subtype.val) = front ++ [last] ∧ last ≠ '/' := by
  intro path
  induction path with
  | nil => exact fun none => absurd rfl none
  | cons name rest ih =>
      intro _
      cases rest with
      | nil =>
          have ⟨nonempty, slashless, _⟩ := name.property
          refine ⟨name.val.dropLast, name.val.getLast nonempty, ?_, fun same => ?_⟩
          · simp [joinSlash, List.dropLast_append_getLast nonempty]
          · have inside := List.getLast_mem nonempty
            rw [same] at inside
            exact slashless inside
      | cons next later =>
          obtain ⟨front, last, joined, visible⟩ := ih (List.cons_ne_nil _ _)
          refine ⟨name.val ++ '/' :: front, last, ?_, visible⟩
          rw [List.map_cons, List.map_cons, join_slash_cons, ← List.map_cons, joined]
          simp

theorem join_slash_start (listed : path ≠ []) : ∃ first rest, joinSlash (path.map Subtype.val) = first :: rest ∧
    first ≠ '/' ∧ (first = '.' → rest.head? ≠ some '/') := by
  cases path with
  | nil => exact absurd rfl listed
  | cons name rest =>
      have ⟨nonempty, slashless, notDot, _⟩ := name.property
      obtain ⟨first, tail, spelled⟩ := List.exists_cons_of_ne_nil nonempty
      have joined : ∃ later, joinSlash ((name :: rest).map Subtype.val) = first :: (tail ++ later) := by
        cases rest with
        | nil => exact ⟨[], by simp [joinSlash, spelled]⟩
        | cons next more =>
            refine ⟨'/' :: joinSlash ((next :: more).map Subtype.val), ?_⟩
            rw [List.map_cons, List.map_cons, join_slash_cons, spelled]
            simp
      obtain ⟨later, joined⟩ := joined
      rw [spelled] at slashless notDot
      refine ⟨first, tail ++ later, joined, fun same => slashless (same ▸ List.mem_cons_self), fun dot => ?_⟩
      cases tail with
      | nil => exact absurd (by rw [dot]) notDot
      | cons second more =>
          intro slash
          have same : second = '/' := by simpa using slash
          exact slashless (by simp [same])

theorem strip_posix (listed : path ≠ []) : stripSlash (asPosix path) = asPosix path := by
  obtain ⟨first, rest, started, visible, _⟩ := join_slash_start listed
  obtain ⟨front, last, ended, solid⟩ := join_slash_end path listed
  rw [as_posix_join listed, stripSlash]
  have kept : (joinSlash (path.map Subtype.val)).dropWhile (· == '/') = joinSlash (path.map Subtype.val) := by
    rw [started, List.dropWhile_cons_of_neg (by simpa using visible)]
  rw [kept, ended, List.rdropWhile_concat_neg _ _ _ (by simpa using solid)]

theorem split_posix (listed : path ≠ []) : (asPosix path).splitOn '/' = path.map Subtype.val := by
  rw [as_posix_join listed]
  apply List.splitOn_intercalate
  · intro name member
    obtain ⟨entry, _, rfl⟩ := List.mem_map.mp member
    exact entry.property.2.1
  · exact fun none => listed (List.map_eq_nil_iff.mp none)

theorem posix_injective {other : RelativePath} (listed : path ≠ []) (others : other ≠ [])
    (same : asPosix path = asPosix other) : path = other := by
  have parts := congrArg (fun text => text.splitOn '/') same
  simp only [split_posix listed, split_posix others] at parts
  exact List.map_injective_iff.mpr Subtype.val_injective parts

theorem drop_posix (listed : path ≠ []) :
    (MWFIgnore.dropDotSlash (asPosix path)).dropWhile (· == '/') = asPosix path := by
  obtain ⟨first, rest, started, visible, dotted⟩ := join_slash_start listed
  rw [as_posix_join listed, started]
  have kept : MWFIgnore.dropDotSlash (first :: rest) = first :: rest := by
    unfold MWFIgnore.dropDotSlash
    split
    · next later shape =>
        cases shape
        exact absurd rfl (dotted rfl)
    · rfl
  rw [kept, List.dropWhile_cons_of_neg (by simpa using visible)]

theorem posix_nonempty (listed : path ≠ []) : (asPosix path).isEmpty = false := by
  obtain ⟨first, rest, started, _⟩ := join_slash_start listed
  rw [as_posix_join listed, started]
  rfl

end Paths

section Matching

variable {rule : IgnoreRule} {path directory below : RelativePath} {isDir : Bool}

theorem directory_prefix_posix {pattern : List Char} (listed : path ≠ []) :
    directoryPrefixMatch (asPosix path) pattern = true ↔
      ∃ length, 0 < length ∧ length ≤ path.length ∧ fnmatchcase (asPosix (path.take length)) pattern = true := by
  simp only [directoryPrefixMatch, split_posix listed, List.any_eq_true, List.mem_range'_1, List.length_map, ← List.map_take]
  constructor
  · intro ⟨length, ⟨low, high⟩, matched⟩
    have filled : path.take length ≠ [] := by simp [listed]; omega
    exact ⟨length, by omega, by omega, by rwa [as_posix_join filled]⟩
  · intro ⟨length, low, high, matched⟩
    have filled : path.take length ≠ [] := by simp [listed]; omega
    exact ⟨length, ⟨by omega, by omega⟩, by rwa [as_posix_join filled] at matched⟩

theorem matches_slashed (listed : path ≠ []) (filled : stripSlash rule.pattern ≠ []) (slashed : rule.slashed = true)
    (positive : rule.negated = false) :
    rule.matchesPath (asPosix path) isDir = (fnmatchcase (asPosix path) (stripSlash rule.pattern) ||
      (rule.directoryOnly && directoryPrefixMatch (asPosix path) (stripSlash rule.pattern))) := by
  have some : (stripSlash rule.pattern).isEmpty = false := by simpa using filled
  simp only [IgnoreRule.matchesPath, strip_posix listed, posix_nonempty listed, some, slashed, positive]
  cases rule.directoryOnly <;> simp

theorem matches_name (listed : path ≠ []) (filled : stripSlash rule.pattern ≠ []) (slashless : rule.slashed = false)
    (positive : rule.negated = false) :
    rule.matchesPath (asPosix path) isDir = true ↔
      ∃ name ∈ (if rule.directoryOnly && !isDir then path.dropLast else path),
        fnmatchcase name.val (stripSlash rule.pattern) = true := by
  have some : (stripSlash rule.pattern).isEmpty = false := by simpa using filled
  have parts := split_posix listed
  obtain ⟨front, last, rfl⟩ : ∃ front last, path = front ++ [last] :=
    ⟨path.dropLast, path.getLast listed, (List.dropLast_append_getLast listed).symm⟩
  simp only [IgnoreRule.matchesPath, strip_posix listed, posix_nonempty listed, some, slashless, positive, parts]
  cases rule.directoryOnly <;> cases isDir <;> simp

theorem matches_filled {text : List Char} (matched : rule.matchesPath text isDir = true) : stripSlash rule.pattern ≠ [] := by
  intro none
  simp [IgnoreRule.matchesPath, none] at matched

theorem covering_below (covering : rule.covering = true) (positive : rule.negated = false) (listed : directory ≠ [])
    (deeper : below ≠ []) (matched : rule.matchesPath (asPosix directory) true = true) :
    rule.matchesPath (asPosix (directory ++ below)) isDir = true := by
  have filled := matches_filled matched
  have whole : directory ++ below ≠ [] := List.append_ne_nil_of_left_ne_nil listed below
  cases slashed : rule.slashed with
  | false =>
      rw [matches_name listed filled slashed positive] at matched
      rw [matches_name whole filled slashed positive]
      obtain ⟨name, member, named⟩ := matched
      have inside : name ∈ directory := by simpa using member
      refine ⟨name, ?_, named⟩
      by_cases last : (rule.directoryOnly && !isDir) = true
      · rw [if_pos last, List.dropLast_append_of_ne_nil deeper]
        exact List.mem_append_left _ inside
      · rw [if_neg last]
        exact List.mem_append_left _ inside
  | true =>
      have trailing : rule.directoryOnly = true := by simpa [IgnoreRule.covering, slashed] using covering
      rw [matches_slashed listed filled slashed positive, trailing, Bool.true_and, Bool.or_eq_true,
        directory_prefix_posix listed] at matched
      rw [matches_slashed whole filled slashed positive, trailing, Bool.true_and, Bool.or_eq_true,
        directory_prefix_posix whole]
      have shorter : ∃ length, 0 < length ∧ length ≤ directory.length ∧
          fnmatchcase (asPosix (directory.take length)) (stripSlash rule.pattern) = true := by
        rcases matched with exactly | within
        · have one : 0 < directory.length := List.length_pos_iff.mpr listed
          exact ⟨directory.length, one, Nat.le_refl _, by rwa [List.take_length]⟩
        · exact within
      obtain ⟨length, low, high, matched⟩ := shorter
      refine .inr ⟨length, low, by rw [List.length_append]; omega, ?_⟩
      rwa [List.take_append_of_le_length high]

theorem uncovering_below (narrow : rule.covering = false) (positive : rule.negated = false) (listed : path ≠ [])
    (filled : stripSlash rule.pattern ≠ []) :
    rule.matchesPath (asPosix path) isDir = fnmatchcase (asPosix path) (stripSlash rule.pattern) := by
  simp only [IgnoreRule.covering, Bool.or_eq_false_iff, Bool.not_eq_false'] at narrow
  rw [matches_slashed listed filled narrow.1 positive, narrow.2, Bool.false_and, Bool.or_false]

theorem prefix_match_whole {text pattern : List Char} (matched : fnmatchcase text pattern = true) :
    directoryPrefixMatch text pattern = true := by
  have whole : joinSlash (text.splitOn '/') = text := List.intercalate_splitOn '/'
  have one : 0 < (text.splitOn '/').length := List.length_pos_iff.mpr (List.splitOn_ne_nil _ _)
  refine List.any_eq_true.mpr ⟨(text.splitOn '/').length, ?_, ?_⟩
  · exact List.mem_range'_1.mpr ⟨one, by omega⟩
  · rwa [List.take_length, whole]

theorem split_slashless {text : List Char} (free : '/' ∉ text) : text.splitOn '/' = [text] := by
  have split : (joinSlash [text]).splitOn '/' = [text] :=
    List.splitOn_intercalate '/' (by simpa using free) (List.cons_ne_nil _ _)
  simpa [joinSlash] using split

theorem trailing_slash_file (trailing : rule.directoryOnly = true) (filled : stripSlash rule.pattern ≠ []) {text : List Char}
    (spelled : stripSlash text = stripSlash rule.pattern) :
    rule.matchesPath text false = (!rule.negated && rule.slashed &&
      directoryPrefixMatch (stripSlash rule.pattern) (stripSlash rule.pattern)) := by
  have some : (stripSlash rule.pattern).isEmpty = false := by simpa using filled
  simp only [IgnoreRule.matchesPath, spelled, some, trailing]
  cases slashed : rule.slashed with
  | false =>
      have free : '/' ∉ stripSlash rule.pattern := by
        simp only [IgnoreRule.slashed, Bool.or_eq_false_iff] at slashed
        simpa using slashed.2
      simp [split_slashless free]
  | true =>
      cases rule.negated with
      | true => simp
      | false =>
          have whole : fnmatchcase (stripSlash rule.pattern) (stripSlash rule.pattern) = true →
            directoryPrefixMatch (stripSlash rule.pattern) (stripSlash rule.pattern) = true := prefix_match_whole
          simpa using whole

end Matching

section Verdicts

variable {rules before after : MWFIgnore} {rule : IgnoreRule} {path directory below : RelativePath} {isDir : Bool}

def MWFIgnore.Excluded (rules : MWFIgnore) (path : RelativePath) (isDir : Bool) : Prop :=
  Lib.Upheld (fun rule : IgnoreRule => rule.matchesPath (asPosix path) isDir) (fun rule => !rule.negated) rules

theorem is_ignored_last (listed : path ≠ []) : rules.isIgnored path isDir =
    Lib.lastMatch (fun rule : IgnoreRule => rule.matchesPath (asPosix path) isDir) (fun rule => !rule.negated) rules := by
  rw [MWFIgnore.isIgnored, drop_posix listed]

theorem is_ignored_excluded (listed : path ≠ []) : rules.isIgnored path isDir = true ↔ rules.Excluded path isDir := by
  rw [is_ignored_last listed]
  exact Lib.last_match_upheld

theorem later_rule_decides (listed : path ≠ []) (matched : rule.matchesPath (asPosix path) isDir = true)
    (quiet : ∀ later ∈ after, later.matchesPath (asPosix path) isDir = false) :
    MWFIgnore.isIgnored (before ++ rule :: after) path isDir = !rule.negated := by
  rw [is_ignored_last listed]
  exact Lib.last_match_decides matched quiet

theorem ignored_by (listed : directory ≠ []) (ignored : rules.isIgnored directory true = true) :
    ∃ before rule after, rules = before ++ rule :: after ∧ rule.matchesPath (asPosix directory) true = true ∧
      rule.negated = false ∧ ∀ later ∈ after, later.matchesPath (asPosix directory) true = false := by
  rw [is_ignored_last listed] at ignored
  obtain ⟨before, rule, after, shape, matched, positive, quiet⟩ := Lib.last_match_exists ignored
  exact ⟨before, rule, after, shape, matched, by simpa using positive, quiet⟩

theorem ignored_below_iff (listed : directory ≠ []) (deeper : below ≠ [])
    (matched : rule.matchesPath (asPosix directory) true = true)
    (positive : rule.negated = false)
    (kept : ∀ later ∈ after, later.negated = true → later.matchesPath (asPosix (directory ++ below)) isDir = false) :
    MWFIgnore.isIgnored (before ++ rule :: after) (directory ++ below) isDir = true ↔
      rule.covering = true ∨ fnmatchcase (asPosix (directory ++ below)) (stripSlash rule.pattern) = true ∨
        MWFIgnore.Excluded (before ++ after) (directory ++ below) isDir := by
  have whole : directory ++ below ≠ [] := List.append_ne_nil_of_left_ne_nil listed below
  have taken : rule.matchesPath (asPosix (directory ++ below)) isDir = true →
      MWFIgnore.isIgnored (before ++ rule :: after) (directory ++ below) isDir = true := by
    intro reached
    have upheld : ∀ later ∈ after, later.matchesPath (asPosix (directory ++ below)) isDir = true → (!later.negated) = true := by
      intro later member applied
      cases negated : later.negated with
      | false => rfl
      | true => exact absurd (applied.symm.trans (kept later member negated)) (by decide)
    exact (is_ignored_excluded whole).mpr ⟨before, rule, after, rfl, reached, by simp [positive], upheld⟩
  cases covering : rule.covering with
  | true => exact iff_of_true (taken (covering_below covering positive listed deeper matched)) (.inl rfl)
  | false =>
      have exactly : rule.matchesPath (asPosix (directory ++ below)) isDir = _ :=
        uncovering_below covering positive whole (matches_filled matched)
      cases reached : rule.matchesPath (asPosix (directory ++ below)) isDir with
      | true =>
          rw [exactly] at reached
          exact iff_of_true (taken (exactly.trans reached)) (.inr (.inl reached))
      | false =>
          have skipped : MWFIgnore.isIgnored (before ++ rule :: after) (directory ++ below) isDir =
              MWFIgnore.isIgnored (before ++ after) (directory ++ below) isDir := by
            rw [is_ignored_last whole, is_ignored_last whole]
            exact Lib.last_match_skips reached
          rw [skipped, is_ignored_excluded whole]
          rw [exactly] at reached
          simp [reached]

end Verdicts

end MicroWorkflow

import Mathlib.Data.List.Dedup
import Mathlib.Data.List.Sort
import Mathlib.Algebra.GroupWithZero.Nat
import Mathlib.Data.List.Lex
import Mathlib.Data.String.Basic
import MicroWorkflow.Lib.Guarded

set_option autoImplicit false

namespace MicroWorkflow

abbrev Component := List String

def componentKey (members : List String) : Component :=
  members.dedup.insertionSort (· ≤ ·)

def encodeComponentKey (members : List String) : Component := componentKey members

inductive JobStatus where
  | queued | running | done | failed | cancelled | skipped
deriving DecidableEq, Repr

namespace JobStatus

def text : JobStatus → String
  | queued => "queued"
  | running => "running"
  | done => "done"
  | failed => "failed"
  | cancelled => "cancelled"
  | skipped => "skipped"

def terminal : JobStatus → Bool
  | done | failed | cancelled | skipped => true
  | queued | running => false

end JobStatus

inductive Lifecycle where
  | queued | running | sampled | done | failed
deriving DecidableEq, Repr

inductive Stability where
  | stable | unstable
deriving DecidableEq, Repr

-- One JSON value of an event or a status record; `json` keeps the text of a value no reader looks into.
inductive Value where
  | null
  | int (number : Nat)
  | text (content : String)
  | list (items : List String)
  | json (encoded : String)
deriving DecidableEq, Repr

abbrev Details := List (String × Value)

namespace Details

def get (data : Details) (field : String) : Value :=
  match data.find? fun entry => entry.1 = field with
  | some entry => entry.2
  | none => .null

def set (data : Details) (field : String) (value : Value) : Details :=
  if data.any fun entry => entry.1 = field then
    data.map fun entry => if entry.1 = field then (field, value) else entry
  else data ++ [(field, value)]

def merge (data extra : Details) : Details :=
  extra.foldl (fun current entry => set current entry.1 entry.2) data

end Details

def Value.ofOption : Option String → Value
  | some content => .text content
  | none => .null

inductive Error where
  | runtime (text : String)
  | value (text : String)
  | key (text : String)
  | type (text : String)
  | integrity (text : String)
  | fileNotFound (text : String)
  | fileExists (text : String)
  | restartClaimChanged (text : String)
  | interruptAdmissionPaused (children : List String)
  | componentExecutionIncomplete (text : String)
  | executionSessionHasActiveJobs (text : String)
  | componentReservationConflict (conflicts : List (Component × String))
  | apiPermitState (text : String)
  | jobRestarted (text : String)
deriving DecidableEq, Repr

def Error.runtimeOrValue : Error → Bool
  | .key _ | .type _ | .integrity _ | .fileNotFound _ | .fileExists _ | .jobRestarted _ => false
  | _ => true

def reprText (content : String) : String := "'" ++ content ++ "'"

def reprMembers : Component → String
  | [] => "()"
  | [single] => "(" ++ reprText single ++ ",)"
  | members => "(" ++ ", ".intercalate (members.map reprText) ++ ")"

def address (node : String) (jobId : Nat) : String := node ++ "/" ++ toString jobId

def blank (c : Char) : Bool :=
  let n := c.toNat
  (9 ≤ n && n ≤ 13) || (28 ≤ n && n ≤ 32) || n == 133 || n == 160 || n == 5760
    || (8192 ≤ n && n ≤ 8202) || n == 8232 || n == 8233 || n == 8239 || n == 8287 || n == 12288

def hasText (content : String) : Bool := content.toList.any fun c => !blank c

def doubleDot : List Char → Bool
  | '.' :: '.' :: _ => true
  | _ :: rest => doubleDot rest
  | [] => false

def validNodeName (name : String) : Bool :=
  let chars := name.toList
  !chars.isEmpty && name != "." && !chars.contains '/' && !chars.contains '\\' && !doubleDot chars

def validateNodeName (name : String) : Except Error Unit :=
  Lib.require (validNodeName name) (.value ("Unsafe node name: " ++ name))

def lowerHex (c : Char) : Bool := ('0' ≤ c && c ≤ '9') || ('a' ≤ c && c ≤ 'f')

def validInstance (identity : String) : Bool :=
  let chars := identity.toList
  chars.length == 32 && chars.all lowerHex

theorem component_key_nodup (members : List String) : (componentKey members).Nodup :=
  (List.perm_insertionSort _ _).nodup_iff.mpr (List.nodup_dedup _)

theorem mem_component_key {members : List String} {node : String} :
    node ∈ componentKey members ↔ node ∈ members := by
  rw [componentKey, (List.perm_insertionSort _ _).mem_iff, List.mem_dedup]

theorem component_key_sorted (members : List String) : (componentKey members).Pairwise (· ≤ ·) :=
  List.pairwise_insertionSort _ _

theorem component_key_idem (members : List String) : componentKey (componentKey members) = componentKey members := by
  have plain : (componentKey members).dedup = componentKey members :=
    List.dedup_eq_self.mpr (component_key_nodup members)
  conv_lhs => rw [componentKey, plain]
  exact (component_key_sorted members).insertionSort_eq

end MicroWorkflow

import MicroWorkflow.InterruptCommon
import MicroWorkflow.Lib.Statement
import MicroWorkflow.ThreadOverrides

set_option autoImplicit false

namespace MicroWorkflow

open Lib (require refuse orRaise collect thread Table)

def pendingValue (db : Database) (node : String) : Option Nat :=
  (db.pendingNodeThreadOverrides.find node).map PendingNodeThreadOverride.value

def ownedValue (db : Database) (node sessionId : String) : Option Nat :=
  (db.nodeThreadOverrides.find (node, sessionId)).map NodeThreadOverride.value

def readThreadOverrideForSession (db : Database) (probe : Probe) (node : String) (sessionId : Option String) :
    Result (Option Nat) := do
  validateNodeName node
  match sessionId with
  | none => return none
  | some sessionId =>
      let observed ← readThreadOverrideObservation db probe node false
      return if observed.sessionId = some sessionId then observed.value else none

def storeOverride (db : Database) (node : String) (owner : Option String) (value : Nat) : Database :=
  match owner with
  | none => { db with
      pendingNodeThreadOverrides := db.pendingNodeThreadOverrides.upsert ⟨node, value⟩
        fun row => { row with value := value } }
  | some sessionId => { db with
      nodeThreadOverrides := db.nodeThreadOverrides.upsert ⟨node, sessionId, value⟩
        fun row => { row with value := value } }

def setThreadOverride (db : Database) (probe : Probe) (node : String) (value : Nat)
    (expected : ThreadOverrideObservation) : Result Database := do
  validateNodeName node
  validatePositiveInt "max_threads" value
  let current ← readThreadOverrideObservation db probe node false
  require (current == expected) (.runtime ("Thread ownership changed before the update: " ++ node))
  let next := storeOverride db node current.sessionId value
  let recorded ← readThreadOverrideObservation next probe node false
  require (recorded == ⟨node, some value, current.sessionId⟩)
    (.runtime ("Native thread override readback failed: " ++ node))
  return next

def removeOverride (db : Database) (node : String) (owner : Option String) (value : Nat) : Result Database := do
  let changed := Error.runtime ("Native thread override changed before reset: " ++ node)
  match owner with
  | none =>
      let pending ← db.pendingNodeThreadOverrides.removeOne node (fun row => row.value == value) changed
      return { db with pendingNodeThreadOverrides := pending }
  | some sessionId =>
      let owned ← db.nodeThreadOverrides.removeOne (node, sessionId) (fun row => row.value == value) changed
      return { db with nodeThreadOverrides := owned }

def clearThreadOverride (db : Database) (probe : Probe) (node : String) (expected : ThreadOverrideObservation) :
    Result (Bool × Database) := do
  validateNodeName node
  let current ← readThreadOverrideObservation db probe node false
  require (current == expected) (.runtime ("Thread ownership changed before reset: " ++ node))
  match current.value with
  | none => return (false, db)
  | some value =>
      let next ← removeOverride db node current.sessionId value
      let recorded ← readThreadOverrideObservation next probe node false
      require (recorded == ⟨node, none, current.sessionId⟩)
        (.runtime ("Native thread override reset readback failed: " ++ node))
      return (true, next)

def movePending (db : Database) (node sessionId : String) (value : Nat) : Result Database := do
  validatePositiveInt ("pending thread override for " ++ node) value
  let owned ← orRaise (db.nodeThreadOverrides.insert ⟨node, sessionId, value⟩)
    (.runtime ("Pending thread override was not bound: " ++ node))
  let pending ← db.pendingNodeThreadOverrides.removeOne node (fun row => row.value == value)
    (.runtime "Pending thread override changed during admission")
  return { db with
    nodeThreadOverrides := owned
    pendingNodeThreadOverrides := pending }

def moveWaiting (db : Database) (node sessionId : String) : Option Nat → Result Database
  | none => .ok db
  | some value => movePending db node sessionId value

def bindPendingThreadOverride (probe : Probe) (sessionId : String) (db : Database) (node : String) :
    Result Database := do
  let pending := pendingValue db node
  refuse ((ownedValue db node sessionId).isSome && pending.isSome)
    (.runtime ("Session has both pending and owned thread overrides: " ++ node))
  let next ← moveWaiting db node sessionId pending
  let observed ← readThreadOverrideObservation next probe node true
  require (observed.sessionId == some sessionId)
    (.runtime ("Thread ownership did not bind during admission: " ++ node))
  require (pending.isNone || observed.value == pending)
    (.runtime ("Thread override value changed during admission: " ++ node))
  return next

def bindPendingThreadOverrides (probe : Probe) (sessionId : String) (nodes : List String) (db : Database) :
    Result Database :=
  thread (bindPendingThreadOverride probe sessionId) db (sortedDistinct nodes)

def overrideRows (db : Database) (sessionId : String) (members : Component) : List (String × Nat) :=
  ((db.nodeThreadOverrides.select fun row => row.sessionId = sessionId && row.nodeName ∈ members).insertionSort
    fun left right => left.nodeName ≤ right.nodeName).map fun row => (row.nodeName, row.value)

def readOverrideRows (db : Database) (sessionId : String) (members : Component) : Result (List (String × Nat)) :=
  collect (fun (entry : String × Nat) => do
    validatePositiveInt ("thread override for " ++ entry.1) entry.2
    return entry) (overrideRows db sessionId members)

def copyOverrides (db : Database) (child : String) (rows : List (String × Nat)) : Result Database := do
  let owned ← orRaise (db.nodeThreadOverrides.insertAll (rows.map fun entry => ⟨entry.1, child, entry.2⟩))
    (.runtime "Thread overrides were not transferred completely")
  return { db with nodeThreadOverrides := owned }

def copyMissing (db : Database) (child : String) (childRows sourceRows : List (String × Nat)) : Result Database :=
  if childRows.isEmpty then copyOverrides db child sourceRows else .ok db

def transferThreadOverrides (db : Database) (probe : Probe) (source child : String) (component : Component) :
    Result Database := do
  require (!component.isEmpty && componentKey component == component)
    (.value "Thread override transfer requires one canonical component")
  let (sourceSession, sourceLive) ← overrideSession db probe source false
  let (childSession, childLive) ← overrideSession db probe child false
  require (sourceLive && childLive) (.runtime "Thread override transfer requires two live sessions")
  require (component ∈ sourceSession.selectedComponents && component ∈ childSession.selectedComponents)
    (.runtime "Thread override transfer is outside session selection")
  refuse (component.any fun node => db.pendingNodeThreadOverrides.contains node)
    (.runtime "Owned component has an unbound pending thread override")
  let sourceRows ← readOverrideRows db source component
  let childRows ← readOverrideRows db child component
  refuse (!childRows.isEmpty && childRows != sourceRows)
    (.runtime "Interrupt child has conflicting thread override rows")
  let next ← copyMissing db child childRows sourceRows
  require (overrideRows next child component == sourceRows) (.runtime "Transferred thread override readback failed")
  return next

def anyRunning (db : Database) : Bool := db.executionSessions.rows.any fun row => row.status = .running

def clearThreadOverridesForSession (db : Database) (sessionId : String) : Database :=
  { db with
    nodeThreadOverrides := db.nodeThreadOverrides.delete fun row => row.sessionId = sessionId
    apiThreadLimit := if anyRunning db then db.apiThreadLimit else none }

def readApiTotalLimit (db : Database) : Result (Option Nat) :=
  match db.apiThreadLimit with
  | none => .ok none
  | some value => do
      validatePositiveInt "api_total_limit" value
      return some value

def updateApiTotalLimit (db : Database) (value : Int) (relative : Bool) : Result Database := do
  require (relative || decide (1 ≤ value)) (.value "api_total_limit must be an integer >= 1")
  let recorded ← readApiTotalLimit db
  let requested := if relative then (recorded.getD 1 : Int) + value else value
  require (decide (1 ≤ requested)) (.value "effective max_threads must remain at least 1")
  return { db with apiThreadLimit := some requested.toNat }

def clearApiTotalLimit (db : Database) : Bool × Database :=
  (db.apiThreadLimit.isSome, { db with apiThreadLimit := none })

end MicroWorkflow

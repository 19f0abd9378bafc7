import MicroWorkflow.Lib.JsonWriter
import MicroWorkflow.PendingExecution

set_option autoImplicit false

namespace MicroWorkflow

open Lib (require refuse orRaise each Table)

def admittedRunning (db : Database) (sessionId : String) : Bool :=
  match db.executionSessions.find sessionId with
  | some session => session.status == .running && session.scopeAdmitted
  | none => false

def carriesTransfer (db : Database) (source : String) (key : Component) (transfer : InterruptScopeTransfer) : Bool :=
  transfer.sourceSessionId == source && transfer.componentKey == key && transfer.state == .active
    && admittedRunning db transfer.childSessionId
    && db.sessionComponents.contains (transfer.childSessionId, transfer.componentKey)
    && db.interruptAdmissions.contains transfer.childSessionId

def transferChildren (db : Database) (source : String) (key : Component) : List String :=
  (db.interruptScopeTransfers.select (carriesTransfer db source key)).map InterruptScopeTransfer.childSessionId

-- The walk visits no session twice, so the transfer rows bound it.
def reservationDescendsFrom (db : Database) (key : Component) (owner : String) : Nat → List String → String → Result Bool
  | 0, _, current =>
      if current = owner then .ok true
      else .error (.runtime "Interrupt reservation transfer chain contains a cycle")
  | fuel + 1, seen, current =>
      if current = owner then .ok true else do
      refuse (current ∈ seen) (.runtime "Interrupt reservation transfer chain contains a cycle")
      match transferChildren db current key with
      | [child] => reservationDescendsFrom db key owner fuel (current :: seen) child
      | _ => return false

def descendsFrom (db : Database) (source : String) (key : Component) (owner : String) : Result Bool :=
  reservationDescendsFrom db key owner (db.interruptScopeTransfers.rows.length + 1) [] source

def reservedKeys (db : Database) (sessionId : String) : List Component :=
  (db.componentReservations.select fun row => row.sessionId = sessionId).map ComponentReservation.componentKey

def transferredKeys (db : Database) (sessionId : String) : List Component :=
  (db.interruptScopeTransfers.select fun row => row.sourceSessionId = sessionId && row.state = .active).map
    InterruptScopeTransfer.componentKey

def selectedKeys (db : Database) (sessionId : String) : List Component :=
  (selectionRows db sessionId).map SessionComponent.componentKey

def componentKeyText (key : Component) : String :=
  "[" ++ ", ".intercalate (key.map fun name => String.ofList (Lib.Json.quoted Lib.Json.escapeAscii name.toList)) ++ "]"

def requireTransferChain (db : Database) (sessionId : String) (key : Component) : Result Unit := do
  let lost := Error.runtime
    ("Execution session reservation cleanup lost its admitted transfer chain: " ++ componentKeyText key)
  let owner ← orRaise (reservationOwner db key) lost
  let reached ← descendsFrom db sessionId key owner
  require reached lost

def requireAdmittedReservationScope (db : Database) (sessionId : String) : Result Bool := do
  let invalid := Error.runtime "Execution session has invalid reservation admission state"
  let session ← orRaise (db.executionSessions.find sessionId) invalid
  require (session.status == .running) invalid
  let selected := selectedKeys db sessionId
  refuse selected.isEmpty (.runtime "Execution session has no selected reservation scope")
  let covered := reservedKeys db sessionId ++ transferredKeys db sessionId
  if session.scopeAdmitted then
    require (decide covered.Nodup && sameElements covered selected)
      (.runtime ("Execution session reservation cleanup differs from its admitted scope: expected " ++
        toString selected.length ++ " component reservations"))
    each (requireTransferChain db sessionId) selected
    return true
  else
    require covered.isEmpty (.runtime "Unadmitted execution session unexpectedly owns component scope")
    return false

end MicroWorkflow

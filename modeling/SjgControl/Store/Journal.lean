import SjgControl.Store.Schema

/-! Store methods on the broker and governance journals, the audit log and the
supervisor's own values. -/
namespace SjgControl
open Relational

/-- The operations whose failed requests may be forgotten, in the order of the `DELETE`. -/
def readOperations : List String :=
  ["read.issue.get","read.issue.list","read.issue.children","read.issue.comments",
    "read.pr.get","read.pr.list","read.pr.files","read.pr.checks","read.workflow.runs","repo.status"]

def responseSchema : String := "sjg.response/v1"

namespace Journal

def reserveRequest (db : Journal) (sessions : Table WakeSession)
    (sessionId key operation argumentsHash argumentsJson : String) (now : Instant) :
    Except StoreError (Option Response × Journal) :=
  match db.requests.get key with
  | some row => do
    require ((row.sessionId,row.operation,row.argumentsHash,row.argumentsJson) =
        (sessionId,operation,argumentsHash,argumentsJson))
      (.stateError "idempotency key reused with different request")
    return (some (row.response.getD
      ⟨none,"indeterminate",some "request is already in progress",none⟩),db)
  | none => do
    require (sessions.get sessionId ≠ none) .integrityError
    let requests ← fetch (db.requests.insert ⟨key,sessionId,operation,argumentsHash,argumentsJson,
      .reserved,none,now.isoText,now.isoText⟩) .integrityError
    return (none,{db with requests})

def priorRequest (db : Journal) (sessionId key operation argumentsHash : String) :
    Except StoreError (Option Response) :=
  match db.requests.get key with
  | none => return none
  | some row => do
    require ((row.sessionId,row.operation,row.argumentsHash) = (sessionId,operation,argumentsHash))
      (.stateError "idempotency key reused with different request")
    return some (row.response.getD ⟨some responseSchema,"indeterminate",
      some "request is already in progress or its outcome is unknown",none⟩)

def markRequestApplying (db : Journal) (key : String) (now : Instant) :
    Except StoreError (Unit × Journal) := do
  require ((db.requests.get key).map BrokerRequest.state = some .reserved)
    (.stateError "request is not reserved")
  return ((),{db with
    requests := db.requests.update (fun r => r.idempotencyKey = key)
      (fun r => {r with state := .applying,updatedAt := now.isoText}) (fun _ => rfl)})

def abandonReadRequest (db : Journal) (key : String) : Journal :=
  {db with
    requests := db.requests.delete
      (fun r => r.idempotencyKey = key ∧ r.operation ∈ readOperations)}

def finishRequest (db : Journal) (key : String) (state : RequestState) (response : Response)
    (now : Instant) : Except StoreError (Unit × Journal) := do
  require (state = .succeeded ∨ state = .failed ∨ state = .verifyPending)
    (.stateError "invalid request terminal state")
  return ((),{db with
    requests := db.requests.update (fun r => r.idempotencyKey = key)
      (fun r => {r with state,response := some response,updatedAt := now.isoText}) (fun _ => rfl)})

def audit (db : Journal) (entry : AuditEntry) : Journal := {db with audits := db.audits ++ [entry]}

def supervisorValue (db : Journal) (name : String) (default : Json) : Json :=
  ((db.supervisor.get name).map SupervisorValue.value).getD default

def setSupervisorValue (db : Journal) (name : String) (value : Json) (now : Instant) :
    Except StoreError (Unit × Journal) := do
  require (¬ (name = "" ∨ 100 < name.length)) (.stateError "supervisor-state key is invalid")
  return ((),{db with
    supervisor := (db.supervisor.insertOrIgnore ⟨name,value,now.isoText⟩).update
      (fun r => r.name = name) (fun r => {r with value,updatedAt := now.isoText}) (fun _ => rfl)})

def reserveReconcile (db : Journal)
    (operationId idempotencyKey sourceKey operation preconditionJson : String) (now : Instant) :
    Except StoreError (ReconcileOperation × Journal) := do
  require (operation ∈ ["create","move","close"])
    (.stateError "unsupported reconciliation operation")
  match db.reconciliations.first (fun r => r.idempotencyKey = idempotencyKey) with
  | some existing =>
    require ((existing.sourceKey,existing.operation,existing.preconditionJson) =
        (sourceKey,operation,preconditionJson))
      (.stateError "reconciliation idempotency key was reused")
    return (existing,db)
  | none =>
    let row : ReconcileOperation := ⟨operationId,idempotencyKey,sourceKey,operation,
      preconditionJson,.planned,none,now.isoText,now.isoText⟩
    let reconciliations ← fetch (db.reconciliations.insert row) .integrityError
    return (row,{db with reconciliations})

def markReconcileApplying (db : Journal) (operationId : String) (now : Instant) :
    Except StoreError (Unit × Journal) := do
  require ((db.reconciliations.get operationId).map ReconcileOperation.state = some .planned)
    (.stateError "reconciliation operation is not applicable")
  return ((),{db with
    reconciliations := db.reconciliations.update (fun r => r.operationId = operationId)
      (fun r => {r with state := .applying,updatedAt := now.isoText}) (fun _ => rfl)})

def reconcileAllowed : ReconcileState → List ReconcileState
  | .applying => [.verifyPending,.succeeded,.deadLetter]
  | .verifyPending => [.succeeded,.deadLetter]
  | _ => []

def finishReconcile (db : Journal) (operationId : String) (state : ReconcileState)
    (result : Option Json) (now : Instant) : Except StoreError (Unit × Journal) := do
  require (state ∈ [ReconcileState.verifyPending,.succeeded,.deadLetter])
    (.stateError "invalid reconciliation terminal state")
  require (∃ row ∈ db.reconciliations.get operationId, state ∈ reconcileAllowed row.state)
    (.stateError "reconciliation operation cannot transition from its current state")
  return ((),{db with
    reconciliations := db.reconciliations.update (fun r => r.operationId = operationId)
      (fun r => {r with state,externalResult := result,updatedAt := now.isoText}) (fun _ => rfl)})

/-! What a method found and wrote where it returned. -/

section Effects

variable {db next : Journal} {now : Instant} {u : Unit}

/-- The answer is the one on record, or there is none and the row is new. -/
theorem reserveRequest_effect {sessions : Table WakeSession} {sessionId key operation argumentsHash argumentsJson : String}
    {prior : Option Response}
    (ok : db.reserveRequest sessions sessionId key operation argumentsHash argumentsJson now = .ok (prior,next)) :
    (∃ row, db.requests.get key = some row ∧ (row.sessionId,row.operation,row.argumentsHash,row.argumentsJson) =
          (sessionId,operation,argumentsHash,argumentsJson) ∧
        prior = some (row.response.getD ⟨none,"indeterminate",some "request is already in progress",none⟩) ∧ next = db) ∨
      db.requests.get key = none ∧ sessions.get sessionId ≠ none ∧
        ∃ requests, db.requests.insert ⟨key,sessionId,operation,argumentsHash,argumentsJson,.reserved,none,now.isoText,
            now.isoText⟩ = some requests ∧ prior = none ∧ next = {db with requests} := by
  unfold reserveRequest at ok
  split at ok
  next row found =>
    rw [require_bind_ok,pure_ok] at ok
    obtain ⟨same,equal⟩ := ok
    cases equal
    exact .inl ⟨row,found,same,rfl,rfl⟩
  next fresh =>
    simp only [require_bind_ok,fetch_bind_ok,pure_ok] at ok
    obtain ⟨known,requests,inserted,equal⟩ := ok
    cases equal
    exact .inr ⟨fresh,known,requests,inserted,rfl,rfl⟩

theorem markRequestApplying_effect {key : String} (ok : db.markRequestApplying key now = .ok (u,next)) :
    (db.requests.get key).map BrokerRequest.state = some .reserved ∧ next = {db with
      requests := db.requests.update (fun r => r.idempotencyKey = key)
        (fun r => {r with state := .applying,updatedAt := now.isoText}) (fun _ => rfl)} := by
  simp only [markRequestApplying,require_bind_ok,pure_ok] at ok
  obtain ⟨reserved,equal⟩ := ok
  cases equal
  exact ⟨reserved,rfl⟩

theorem finishRequest_effect {key : String} {state : RequestState} {response : Response}
    (ok : db.finishRequest key state response now = .ok (u,next)) :
    (state = .succeeded ∨ state = .failed ∨ state = .verifyPending) ∧ next = {db with
      requests := db.requests.update (fun r => r.idempotencyKey = key)
        (fun r => {r with state,response := some response,updatedAt := now.isoText}) (fun _ => rfl)} := by
  simp only [finishRequest,require_bind_ok,pure_ok] at ok
  obtain ⟨terminal,equal⟩ := ok
  cases equal
  exact ⟨terminal,rfl⟩

/-- The row is the one of the key, as it stands, or a new one. -/
theorem reserveReconcile_effect {operationId idempotencyKey sourceKey operation preconditionJson : String}
    {row : ReconcileOperation}
    (ok : db.reserveReconcile operationId idempotencyKey sourceKey operation preconditionJson now = .ok (row,next)) :
    operation ∈ ["create","move","close"] ∧
      (db.reconciliations.first (fun r => r.idempotencyKey = idempotencyKey) = some row ∧
          (row.sourceKey,row.operation,row.preconditionJson) = (sourceKey,operation,preconditionJson) ∧ next = db ∨
        db.reconciliations.first (fun r => r.idempotencyKey = idempotencyKey) = none ∧
          row = ⟨operationId,idempotencyKey,sourceKey,operation,preconditionJson,.planned,none,now.isoText,now.isoText⟩ ∧
          ∃ reconciliations, db.reconciliations.insert row = some reconciliations ∧ next = {db with reconciliations}) := by
  simp only [reserveReconcile,require_bind_ok] at ok
  obtain ⟨named,ok⟩ := ok
  split at ok
  next existing found =>
    simp only [require_bind_ok,pure_ok,Prod.mk.injEq] at ok
    obtain ⟨same,rfl,rfl⟩ := ok
    exact ⟨named,.inl ⟨found,Prod.ext same.1 (Prod.ext same.2.1 same.2.2),rfl⟩⟩
  next fresh =>
    simp only [fetch_bind_ok,pure_ok,Prod.mk.injEq] at ok
    obtain ⟨reconciliations,inserted,rfl,rfl⟩ := ok
    exact ⟨named,.inr ⟨fresh,rfl,reconciliations,inserted,rfl⟩⟩

theorem markReconcileApplying_effect {operationId : String} (ok : db.markReconcileApplying operationId now = .ok (u,next)) :
    (db.reconciliations.get operationId).map ReconcileOperation.state = some .planned ∧ next = {db with
      reconciliations := db.reconciliations.update (fun r => r.operationId = operationId)
        (fun r => {r with state := .applying,updatedAt := now.isoText}) (fun _ => rfl)} := by
  simp only [markReconcileApplying,require_bind_ok,pure_ok] at ok
  obtain ⟨planned,equal⟩ := ok
  cases equal
  exact ⟨planned,rfl⟩

theorem finishReconcile_effect {operationId : String} {state : ReconcileState} {result : Option Json}
    (ok : db.finishReconcile operationId state result now = .ok (u,next)) :
    state ∈ [ReconcileState.verifyPending,.succeeded,.deadLetter] ∧
      (∃ row ∈ db.reconciliations.get operationId, state ∈ reconcileAllowed row.state) ∧ next = {db with
        reconciliations := db.reconciliations.update (fun r => r.operationId = operationId)
          (fun r => {r with state,externalResult := result,updatedAt := now.isoText}) (fun _ => rfl)} := by
  simp only [finishReconcile,require_bind_ok,pure_ok] at ok
  obtain ⟨terminal,allowed,equal⟩ := ok
  cases equal
  exact ⟨terminal,allowed,rfl⟩

end Effects

end Journal
end SjgControl

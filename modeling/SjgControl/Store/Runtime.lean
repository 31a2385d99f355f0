import Mathlib.Data.List.Sort
import SjgControl.Store.Schema

/-! Store methods on sessions, workers, budgets, wakes and processes. Each is the
body of its transaction; identifiers that the source draws with `uuid4` and the
clock readings are arguments, so a repeated identifier meets the key constraint. -/
namespace SjgControl
open Relational

/-- The dataclass `Session` that the store hands out. -/
structure Session where
  sessionId : String
  wakeId : String
  orgId : String
  role : String
  policyDigest : String
  workspaceAliases : List String
  expiresAt : String
  deriving DecidableEq

def WakeSession.toSession (r : WakeSession) : Session :=
  ⟨r.sessionId,r.wakeId,r.orgId,r.role,r.policyDigest,r.workspaceAliases,r.expiresAt⟩

namespace Runtime

def orgOf (db : Runtime) (sessionId : String) : Option String :=
  (db.sessions.get sessionId).map WakeSession.orgId

def parents (db : Runtime) (orgId : String) : Nat :=
  db.sessions.count (fun r => r.orgId = orgId ∧ r.state = .active)

def workers (db : Runtime) (orgId : String) : Nat :=
  db.attempts.count (fun r => db.orgOf r.sessionId = some orgId ∧ r.state.live)

def activeWorkers (db : Runtime) (sessionId : String) : Nat :=
  db.attempts.count (fun r => r.sessionId = sessionId ∧ r.state.live)

def createSession (db : Runtime) (sessionId wakeId orgId role policyDigest : String)
    (workspaceAliases : List String) (now : Instant) (ttlSeconds globalCap : Int) :
    Except StoreError (Session × Runtime) := do
  require (¬ (globalCap ≤ 0 ∨ ttlSeconds ≤ 0))
    (.stateError "global agent cap and session TTL must be positive")
  let expires ← fetch (now.later ttlSeconds) .overflowError
  let row : WakeSession := ⟨sessionId,wakeId,orgId,role,policyDigest,workspaceAliases,
    now.isoText,expires.isoText,.active⟩
  require (db.sessions.count (fun r => r.orgId = orgId ∧ r.role = role ∧ r.state = .active) = 0)
    (.stateError "role already has an active parent wake")
  require (((db.parents orgId + db.workers orgId : Nat) : Int) < globalCap)
    (.stateError "global active-agent cap reached")
  require (db.sessions.count (fun r => r.wakeId = wakeId) = 0) .integrityError
  let sessions ← fetch (db.sessions.insert row) .integrityError
  return (row.toSession,{db with sessions})

def session (db : Runtime) (sessionId : String) (now : Instant) : Except StoreError Session := do
  let row ← fetch ((db.sessions.get sessionId).filter (fun r => r.state = .active))
    (.stateError "wake session is absent or inactive")
  require (¬ row.expiresAt ≤ now.isoText) (.stateError "wake session expired")
  return row.toSession

def endSession (db : Runtime) (sessionId : String) (state : SessionState) : Table WakeSession :=
  db.sessions.update (fun r => r.sessionId = sessionId ∧ r.state = .active)
    (fun r => {r with state}) (fun _ => rfl)

def sessionActive (db : Runtime) (sessionId : String) : Prop :=
  (db.sessions.get sessionId).map WakeSession.state = some .active

instance (db : Runtime) (sessionId : String) : Decidable (db.sessionActive sessionId) :=
  inferInstanceAs (Decidable (_ = _))

def revokeSession (db : Runtime) (sessionId : String) : Except StoreError (Unit × Runtime) := do
  require (db.activeWorkers sessionId = 0)
    (.stateError "cannot revoke a wake while its workers are active")
  require (db.sessionActive sessionId) (.stateError "wake session is absent or inactive")
  return ((),{db with sessions := db.endSession sessionId .revoked})

def finishSession (db : Runtime) (sessionId : String) : Except StoreError (Unit × Runtime) := do
  require (db.activeWorkers sessionId = 0 ∧
      db.reservations.count (fun r => r.sessionId = sessionId ∧ r.state = .active) = 0)
    (.stateError "cannot finish a wake with active workers or budget")
  require (db.sessionActive sessionId) (.stateError "wake session is absent or inactive")
  return ((),{db with sessions := db.endSession sessionId .finished})

def failWorkers (db : Runtime) (sessionId : String) (now : Instant) : Table WorkerAttempt :=
  db.attempts.update (fun r => r.sessionId = sessionId ∧ r.state.live)
    (fun r => {r with state := .failed,finishedAt := some now.isoText}) (fun _ => rfl)

def holdReservations (db : Runtime) (sessionId : String) : Table BudgetReservation :=
  db.reservations.update (fun r => r.sessionId = sessionId ∧ r.state = .active)
    (fun r => {r with state := .uncertain}) (fun _ => rfl)

def forceTerminateSession (db : Runtime) (sessionId : String) (expired : Bool) (now : Instant) :
    Except StoreError (Unit × Runtime) := do
  require (db.sessionActive sessionId) (.stateError "wake session is absent or inactive")
  return ((),{db with
    attempts := db.failWorkers sessionId now
    reservations := db.holdReservations sessionId
    sessions := db.endSession sessionId (if expired then .expired else .revoked)
    wakes := db.wakes.update (fun r => r.sessionId = sessionId ∧ r.state.live)
      (fun r => {r with
        state := .terminated
        finishedAt := some now.isoText
        errorDetail := some (r.errorDetail.getD "terminated by supervisor")}) (fun _ => rfl)})

def reapExpiredSession (db : Runtime) (sessionId : String) (now : Instant) :
    Except StoreError (Unit × Runtime) := do
  let row ← fetch ((db.sessions.get sessionId).filter
      (fun r => r.state = .active ∧ ¬ now.isoText < r.expiresAt))
    (.stateError "wake session is absent, inactive, or not expired")
  return ((),{db with
    attempts := db.failWorkers row.sessionId now
    reservations := db.holdReservations row.sessionId
    sessions := db.endSession row.sessionId .expired})

def reserveWorker (db : Runtime) (attemptId sessionId workerType : String)
    (cumulativeCap concurrentCap globalCap : Int) (now : Instant) :
    Except StoreError (String × Runtime) := do
  let row ← fetch ((db.sessions.get sessionId).filter
      (fun r => r.state = .active ∧ now.isoText < r.expiresAt))
    (.stateError "worker requires an active parent session")
  let total := db.attempts.count (fun r => r.sessionId = sessionId)
  require ((total : Int) < cumulativeCap) (.stateError "cumulative worker cap reached")
  require ((db.activeWorkers sessionId : Int) < concurrentCap)
    (.stateError "concurrent worker cap reached")
  require (((db.parents row.orgId + db.workers row.orgId : Nat) : Int) < globalCap)
    (.stateError "global active-agent cap reached")
  require (db.attempts.count (fun r => r.sessionId = sessionId ∧ r.sequence = total + 1) = 0)
    .integrityError
  let attempts ← fetch (db.attempts.insert
    ⟨attemptId,sessionId,total + 1,workerType,.accepted,now.isoText,none,none⟩) .integrityError
  return (attemptId,{db with attempts})

/-! The two buckets of a session: its organization's and its role's. -/

def bucketKeys (row : WakeSession) (epoch : String) : List (String × String × String) :=
  [("org",row.orgId,epoch),("role",row.role,epoch)]

def charge (buckets : Table BudgetBucket) (key : String × String × String)
    (reserved consumed : Int) : Table BudgetBucket :=
  buckets.update (fun r => (r.scope,r.subject,r.epoch) = key)
    (fun r => {r with
      reservedTokens := r.reservedTokens + reserved
      consumedTokens := r.consumedTokens + consumed}) (fun _ => rfl)

def openBucket (epoch : String) (requestedTokens : Int) (buckets : Table BudgetBucket)
    (bucket : String × String × Int) : Except StoreError (Table BudgetBucket) := do
  require (0 < bucket.2.2) (.stateError "budget bucket limit must be positive")
  let buckets := buckets.insertOrIgnore ⟨bucket.1,bucket.2.1,epoch,bucket.2.2,0,0⟩
  let row ← fetch (buckets.get (bucket.1,bucket.2.1,epoch)) .typeError
  require (row.tokenLimit = bucket.2.2)
    (.stateError ("budget policy changed during epoch: " ++ bucket.1 ++ "/" ++ bucket.2.1))
  require (¬ row.tokenLimit < row.consumedTokens + row.reservedTokens + requestedTokens)
    (.stateError ("budget hold: " ++ bucket.1 ++ "/" ++ bucket.2.1))
  return buckets

def reserveBudget (db : Runtime) (reservationId sessionId epoch : String) (requestedTokens : Int)
    (buckets : List (String × String × Int)) (now : Instant) :
    Except StoreError (String × Runtime) := do
  require (0 < requestedTokens) (.stateError "budget reservation must be positive")
  let row ← fetch ((db.sessions.get sessionId).filter
      (fun r => r.state = .active ∧ now.isoText < r.expiresAt))
    (.stateError "budget reservation requires an active session")
  let names := buckets.map (fun bucket => (bucket.1,bucket.2.1))
  require (buckets.length = 2 ∧ names.Nodup)
    (.stateError "budget reservation requires exactly one organization and role bucket")
  let bound := [("org",row.orgId),("role",row.role)]
  require ((∀ name ∈ names, name ∈ bound) ∧ ∀ name ∈ bound, name ∈ names)
    (.stateError "budget buckets do not match the bound session")
  let opened ← buckets.foldlM (openBucket epoch requestedTokens) db.buckets
  let charged := buckets.foldl
    (fun table bucket => charge table (bucket.1,bucket.2.1,epoch) requestedTokens 0) opened
  require (db.reservations.count (fun r => r.sessionId = sessionId) = 0) .integrityError
  let reservations ← fetch (db.reservations.insert
    ⟨reservationId,sessionId,epoch,requestedTokens,.active⟩) .integrityError
  return (reservationId,{db with buckets := charged,reservations})

/-- The transaction of `settle_budget`; its value says whether a boundary was crossed. -/
def settleBody (db : Runtime) (reservationId : String) (consumedTokens : Int) :
    Except StoreError (Bool × Runtime) := do
  require (¬ consumedTokens < 0) (.stateError "consumed token count must not be negative")
  let reservation ← fetch ((db.reservations.get reservationId).filter (fun r => r.state = .active))
    (.stateError "budget reservation is absent or inactive")
  let row ← fetch (db.sessions.get reservation.sessionId)
    (.stateError "budget reservation session is absent")
  let keys := bucketKeys row reservation.epoch
  require (∀ key ∈ keys, ∃ bucket ∈ db.buckets.get key, ¬ bucket.reservedTokens < reservation.reservedTokens)
    (.stateError "budget bucket does not cover the reservation")
  let uncertain := decide (reservation.reservedTokens < consumedTokens ∨
    ∃ key ∈ keys, ∃ bucket ∈ db.buckets.get key,
      bucket.tokenLimit < bucket.consumedTokens + consumedTokens)
  return (uncertain,{db with
    buckets := keys.foldl
      (fun table key => charge table key (-reservation.reservedTokens) consumedTokens) db.buckets
    reservations := db.reservations.update (fun r => r.reservationId = reservationId)
      (fun r => {r with state := if uncertain then .uncertain else .settled}) (fun _ => rfl)})

/-- The overage is raised after the commit: the charge stands. -/
def settleBudget (db : Runtime) (reservationId : String) (consumedTokens : Int) :
    Outcome Runtime StoreError Unit :=
  match db.settleBody reservationId consumedTokens with
  | .error e => ⟨.error e,db⟩
  | .ok (true,next) =>
    ⟨.error (.stateError "actual usage exceeded a budget boundary; manual review required"),next⟩
  | .ok (false,next) => ⟨.ok (),next⟩

def markBudgetUncertain (db : Runtime) (reservationId : String) :
    Except StoreError (Unit × Runtime) := do
  require ((db.reservations.get reservationId).map BudgetReservation.state = some .active)
    (.stateError "budget reservation is absent or inactive")
  return ((),{db with
    reservations := db.reservations.update
      (fun r => r.reservationId = reservationId ∧ r.state = .active)
      (fun r => {r with state := .uncertain}) (fun _ => rfl)})

/-- One guarded subtraction of a release; `message` is what a missed row raises. -/
def discharge (message : String) (reserved : Int) (buckets : Table BudgetBucket)
    (key : String × String × String) : Except StoreError (Table BudgetBucket) := do
  require (∃ bucket ∈ buckets.get key, reserved ≤ bucket.reservedTokens) (.stateError message)
  return charge buckets key (-reserved) 0

def release (db : Runtime) (message : String) (reservation : BudgetReservation)
    (row : WakeSession) : Except StoreError Runtime := do
  let buckets ← (bucketKeys row reservation.epoch).foldlM
    (discharge message reservation.reservedTokens) db.buckets
  return {db with
    buckets
    reservations := db.reservations.update
      (fun r => r.reservationId = reservation.reservationId)
      (fun r => {r with state := .released}) (fun _ => rfl)}

def releaseBudget (db : Runtime) (reservationId : String) : Except StoreError (Unit × Runtime) := do
  let reservation ← fetch ((db.reservations.get reservationId).filter (fun r => r.state = .active))
    (.stateError "budget reservation is absent or inactive")
  let row ← fetch (db.sessions.get reservation.sessionId)
    (.stateError "budget reservation session is absent")
  let next ← db.release "budget bucket does not cover the reservation" reservation row
  return ((),next)

def releaseReservationFor (db : Runtime) (sessionId : String) : Except StoreError Runtime :=
  match db.reservations.first (fun r => r.sessionId = sessionId) with
  | none => return db
  | some reservation => do
    require (reservation.state = .active) (.stateError "unstarted session budget is not active")
    let row ← fetch (db.sessions.get sessionId) .typeError
    db.release "unstarted session budget bucket is inconsistent" reservation row

def processCount (db : Runtime) (sessionId : String) : Nat :=
  db.processes.count (fun r => r.sessionId = sessionId)

def workerCount (db : Runtime) (sessionId : String) : Nat :=
  db.attempts.count (fun r => r.sessionId = sessionId)

/-! Wake and process records. -/

def insertWake (db : Runtime) (row : WakeRuntime) : Except StoreError Runtime := do
  require (db.sessions.get row.sessionId ≠ none ∧ db.reservations.get row.reservationId ≠ none ∧
      db.wakes.count (fun r => r.sessionId = row.sessionId ∨ r.reservationId = row.reservationId ∨
        r.socketPath = row.socketPath) = 0) .integrityError
  let wakes ← fetch (db.wakes.insert row) .integrityError
  return {db with wakes}

def markWakeRunning (db : Runtime) (wakeId : String) : Except StoreError (Unit × Runtime) := do
  require ((db.wakes.get wakeId).map WakeRuntime.state = some .prepared)
    (.stateError "wake runtime is not prepared")
  return ((),{db with
    wakes := db.wakes.update (fun r => r.wakeId = wakeId ∧ r.state = .prepared)
      (fun r => {r with state := .running}) (fun _ => rfl)})

def finishWake (db : Runtime) (wakeId : String) (state : WakeState) (outputSha256 error : Option String)
    (now : Instant) : Except StoreError (Unit × Runtime) := do
  require (¬ state.live) (.stateError "wake runtime terminal state is invalid")
  require (∃ wake ∈ db.wakes.get wakeId, wake.state.live) (.stateError "wake runtime is not active")
  return ((),{db with
    wakes := db.wakes.update (fun r => r.wakeId = wakeId ∧ r.state.live)
      (fun r => {r with state,finishedAt := some now.isoText,outputSha256,errorDetail := error})
      (fun _ => rfl)})

def recordProcess (db : Runtime) (processKey sessionId : String) (workerAttemptId : Option String)
    (kind : ProcessKind) (pid pgid : Int) (birthToken : String) (now : Instant) :
    Except StoreError (Unit × Runtime) := do
  require (¬ (pid ≤ 0 ∨ pgid ≤ 0 ∨ birthToken = ""))
    (.stateError "process runtime identity is invalid")
  require (db.sessions.get sessionId ≠ none ∧
      (∀ attempt ∈ workerAttemptId, db.attempts.get attempt ≠ none) ∧
      db.processes.count (fun r => r.pid = pid ∧ r.birthToken = birthToken) = 0) .integrityError
  let processes ← fetch (db.processes.insert
    ⟨processKey,sessionId,workerAttemptId,kind,pid,pgid,birthToken,.running,now.isoText,none,none⟩)
    .integrityError
  return ((),{db with processes})

def finishProcess (db : Runtime) (processKey : String) (state : ProcessState)
    (exitCode : Option Int) (now : Instant) : Except StoreError (Unit × Runtime) := do
  require (state ≠ .running) (.stateError "process runtime terminal state is invalid")
  require ((db.processes.get processKey).map ProcessRuntime.state = some .running)
    (.stateError "process runtime is absent or inactive")
  return ((),{db with
    processes := db.processes.update (fun r => r.processKey = processKey ∧ r.state = .running)
      (fun r => {r with state,finishedAt := some now.isoText,exitCode}) (fun _ => rfl)})

/-! What the supervisor reads. -/

/-- `ORDER BY kind DESC,started_at`. -/
def workersFirst (a b : ProcessRuntime) : Prop :=
  a.kind = .worker ∧ b.kind = .parent ∨ a.kind = b.kind ∧ a.startedAt ≤ b.startedAt

instance : DecidableRel workersFirst := fun a b =>
  inferInstanceAs (Decidable (a.kind = .worker ∧ b.kind = .parent ∨
    a.kind = b.kind ∧ a.startedAt ≤ b.startedAt))

def activeProcesses (db : Runtime) (sessionId : String) : List ProcessRuntime :=
  (db.processes.select (fun r => r.state = .running ∧ r.sessionId = sessionId)).insertionSort workersFirst

def activeWakes (db : Runtime) : List WakeRuntime :=
  (db.wakes.select (fun r => r.state.live ∧ db.sessions.get r.sessionId ≠ none)).insertionSort
    (fun a b => a.startedAt ≤ b.startedAt)

def orphanSessions (db : Runtime) : List WakeSession :=
  (db.sessions.select (fun r => r.state = .active ∧
      db.wakes.count (fun w => w.sessionId = r.sessionId) = 0)).insertionSort
    (fun a b => a.issuedAt ≤ b.issuedAt)

/-! Writes that the supervisor and its worker threads make past the store's methods. -/

def quarantineWake (db : Runtime) (sessionId : String) (now : Instant) : Runtime :=
  {db with
    wakes := db.wakes.update (fun r => r.sessionId = sessionId ∧ r.state.live)
      (fun r => {r with
        state := .uncertain
        finishedAt := some now.isoText
        errorDetail := some "process identity changed; manual host inspection required"})
      (fun _ => rfl)}

def setAttempt (db : Runtime) (attemptId : String) (state : AttemptState)
    (finishedAt artifactSha256 : Option String) : Runtime :=
  {db with
    attempts := db.attempts.update (fun r => r.attemptId = attemptId)
      (fun r => {r with
        state
        finishedAt := finishedAt.orElse (fun _ => r.finishedAt)
        artifactSha256 := artifactSha256.orElse (fun _ => r.artifactSha256)}) (fun _ => rfl)}

/-! What each method found and wrote where it returned. -/

section Effects

variable {db next : Runtime} {sessionId wakeId : String} {now : Instant} {u : Unit}

theorem createSession_effect {orgId role policyDigest : String} {workspaceAliases : List String}
    {ttlSeconds globalCap : Int} {session : Session}
    (ok : db.createSession sessionId wakeId orgId role policyDigest workspaceAliases now ttlSeconds globalCap =
      .ok (session,next)) :
    ¬ (globalCap ≤ 0 ∨ ttlSeconds ≤ 0) ∧ ∃ expires, now.later ttlSeconds = some expires ∧
      db.sessions.count (fun r => r.orgId = orgId ∧ r.role = role ∧ r.state = .active) = 0 ∧
      ((db.parents orgId + db.workers orgId : Nat) : Int) < globalCap ∧
      db.sessions.count (fun r => r.wakeId = wakeId) = 0 ∧
      ∃ sessions, db.sessions.insert ⟨sessionId,wakeId,orgId,role,policyDigest,workspaceAliases,now.isoText,
          expires.isoText,.active⟩ = some sessions ∧
        session = ⟨sessionId,wakeId,orgId,role,policyDigest,workspaceAliases,expires.isoText⟩ ∧
        next = {db with sessions} := by
  simp only [createSession,require_bind_ok,fetch_bind_ok,pure_ok] at ok
  obtain ⟨limits,expires,later,single,room,unwoken,sessions,inserted,equal⟩ := ok
  cases equal
  exact ⟨limits,expires,later,single,room,unwoken,sessions,inserted,rfl,rfl⟩

theorem revokeSession_effect (ok : db.revokeSession sessionId = .ok (u,next)) :
    db.activeWorkers sessionId = 0 ∧ db.sessionActive sessionId ∧
      next = {db with sessions := db.endSession sessionId .revoked} := by
  simp only [revokeSession,require_bind_ok,pure_ok] at ok
  obtain ⟨alone,active,equal⟩ := ok
  cases equal
  exact ⟨alone,active,rfl⟩

theorem finishSession_effect (ok : db.finishSession sessionId = .ok (u,next)) :
    (db.activeWorkers sessionId = 0 ∧ db.reservations.count (fun r => r.sessionId = sessionId ∧ r.state = .active) = 0) ∧
      db.sessionActive sessionId ∧ next = {db with sessions := db.endSession sessionId .finished} := by
  simp only [finishSession,require_bind_ok,pure_ok] at ok
  obtain ⟨free,active,equal⟩ := ok
  cases equal
  exact ⟨free,active,rfl⟩

theorem forceTerminateSession_effect {expired : Bool}
    (ok : db.forceTerminateSession sessionId expired now = .ok (u,next)) :
    db.sessionActive sessionId ∧ next = {db with
      attempts := db.failWorkers sessionId now
      reservations := db.holdReservations sessionId
      sessions := db.endSession sessionId (if expired then .expired else .revoked)
      wakes := db.wakes.update (fun r => r.sessionId = sessionId ∧ r.state.live)
        (fun r => {r with
          state := .terminated
          finishedAt := some now.isoText
          errorDetail := some (r.errorDetail.getD "terminated by supervisor")}) (fun _ => rfl)} := by
  simp only [forceTerminateSession,require_bind_ok,pure_ok] at ok
  obtain ⟨active,equal⟩ := ok
  cases equal
  exact ⟨active,rfl⟩

theorem reapExpiredSession_effect (ok : db.reapExpiredSession sessionId now = .ok (u,next)) :
    ∃ row, (db.sessions.get sessionId = some row ∧ row.state = .active ∧ ¬ now.isoText < row.expiresAt) ∧
      next = {db with
        attempts := db.failWorkers row.sessionId now
        reservations := db.holdReservations row.sessionId
        sessions := db.endSession row.sessionId .expired} := by
  simp only [reapExpiredSession,fetch_bind_ok,pure_ok,Option.filter_eq_some_iff,decide_eq_true_eq] at ok
  obtain ⟨row,standing,equal⟩ := ok
  cases equal
  exact ⟨row,standing,rfl⟩

theorem reserveWorker_effect {attemptId workerType value : String} {cumulativeCap concurrentCap globalCap : Int}
    (ok : db.reserveWorker attemptId sessionId workerType cumulativeCap concurrentCap globalCap now = .ok (value,next)) :
    ∃ row, (db.sessions.get sessionId = some row ∧ row.state = .active ∧ now.isoText < row.expiresAt) ∧
      ((db.attempts.count (fun r => r.sessionId = sessionId) : Nat) : Int) < cumulativeCap ∧
      (db.activeWorkers sessionId : Int) < concurrentCap ∧
      ((db.parents row.orgId + db.workers row.orgId : Nat) : Int) < globalCap ∧
      db.attempts.count (fun r => r.sessionId = sessionId ∧
        r.sequence = db.attempts.count (fun r => r.sessionId = sessionId) + 1) = 0 ∧
      ∃ attempts, db.attempts.insert ⟨attemptId,sessionId,db.attempts.count (fun r => r.sessionId = sessionId) + 1,
          workerType,.accepted,now.isoText,none,none⟩ = some attempts ∧
        value = attemptId ∧ next = {db with attempts} := by
  simp only [reserveWorker,require_bind_ok,fetch_bind_ok,pure_ok,Option.filter_eq_some_iff,decide_eq_true_eq] at ok
  obtain ⟨row,standing,total,below,room,numbered,attempts,inserted,equal⟩ := ok
  cases equal
  exact ⟨row,standing,total,below,room,numbered,attempts,inserted,rfl,rfl⟩

theorem reserveBudget_effect {reservationId epoch value : String} {requestedTokens : Int}
    {buckets : List (String × String × Int)}
    (ok : db.reserveBudget reservationId sessionId epoch requestedTokens buckets now = .ok (value,next)) :
    0 < requestedTokens ∧
      ∃ row, (db.sessions.get sessionId = some row ∧ row.state = .active ∧ now.isoText < row.expiresAt) ∧
        (buckets.length = 2 ∧ (buckets.map (fun bucket => (bucket.1,bucket.2.1))).Nodup) ∧
        ((∀ name ∈ buckets.map (fun bucket => (bucket.1,bucket.2.1)), name ∈ [("org",row.orgId),("role",row.role)]) ∧
          ∀ name ∈ [("org",row.orgId),("role",row.role)], name ∈ buckets.map (fun bucket => (bucket.1,bucket.2.1))) ∧
        ∃ opened, buckets.foldlM (openBucket epoch requestedTokens) db.buckets = .ok opened ∧
          db.reservations.count (fun r => r.sessionId = sessionId) = 0 ∧
          ∃ reservations, db.reservations.insert ⟨reservationId,sessionId,epoch,requestedTokens,.active⟩ =
              some reservations ∧
            value = reservationId ∧ next = {db with
              buckets := buckets.foldl
                (fun table bucket => charge table (bucket.1,bucket.2.1,epoch) requestedTokens 0) opened
              reservations} := by
  simp only [reserveBudget,require_bind_ok,fetch_bind_ok,Option.filter_eq_some_iff,decide_eq_true_eq] at ok
  obtain ⟨positive,row,standing,two,bound,ok⟩ := ok
  obtain ⟨opened,opening,ok⟩ := bind_ok.mp ok
  simp only [require_bind_ok,fetch_bind_ok,pure_ok] at ok
  obtain ⟨first,reservations,inserted,equal⟩ := ok
  cases equal
  exact ⟨positive,row,standing,two,bound,opened,opening,first,reservations,inserted,rfl,rfl⟩

theorem settleBody_effect {reservationId : String} {consumedTokens : Int} {uncertain : Bool}
    (ok : db.settleBody reservationId consumedTokens = .ok (uncertain,next)) :
    ¬ consumedTokens < 0 ∧
      ∃ reservation, (db.reservations.get reservationId = some reservation ∧ reservation.state = .active) ∧
      ∃ row, db.sessions.get reservation.sessionId = some row ∧
        (∀ key ∈ bucketKeys row reservation.epoch, ∃ bucket ∈ db.buckets.get key,
          ¬ bucket.reservedTokens < reservation.reservedTokens) ∧
        uncertain = decide (reservation.reservedTokens < consumedTokens ∨
          ∃ key ∈ bucketKeys row reservation.epoch, ∃ bucket ∈ db.buckets.get key,
            bucket.tokenLimit < bucket.consumedTokens + consumedTokens) ∧
        next = {db with
          buckets := (bucketKeys row reservation.epoch).foldl
            (fun table key => charge table key (-reservation.reservedTokens) consumedTokens) db.buckets
          reservations := db.reservations.update (fun r => r.reservationId = reservationId)
            (fun r => {r with state := if uncertain then .uncertain else .settled}) (fun _ => rfl)} := by
  simp only [settleBody,require_bind_ok,fetch_bind_ok,pure_ok,Option.filter_eq_some_iff] at ok
  obtain ⟨counted,reservation,⟨found,active⟩,row,session,covered,equal⟩ := ok
  cases equal
  exact ⟨counted,reservation,⟨found,of_decide_eq_true active⟩,row,session,covered,rfl,rfl⟩

theorem markBudgetUncertain_effect {reservationId : String} (ok : db.markBudgetUncertain reservationId = .ok (u,next)) :
    (db.reservations.get reservationId).map BudgetReservation.state = some .active ∧ next = {db with
      reservations := db.reservations.update
        (fun r => r.reservationId = reservationId ∧ r.state = .active)
        (fun r => {r with state := .uncertain}) (fun _ => rfl)} := by
  simp only [markBudgetUncertain,require_bind_ok,pure_ok] at ok
  obtain ⟨active,equal⟩ := ok
  cases equal
  exact ⟨active,rfl⟩

theorem release_effect {message : String} {reservation : BudgetReservation} {row : WakeSession}
    (ok : db.release message reservation row = .ok next) :
    ∃ buckets, (bucketKeys row reservation.epoch).foldlM (discharge message reservation.reservedTokens) db.buckets =
        .ok buckets ∧
      next = {db with
        buckets
        reservations := db.reservations.update (fun r => r.reservationId = reservation.reservationId)
          (fun r => {r with state := .released}) (fun _ => rfl)} := by
  obtain ⟨buckets,discharged,equal⟩ := bind_ok.mp ok
  cases pure_ok.mp equal
  exact ⟨buckets,discharged,rfl⟩

theorem releaseBudget_effect {reservationId : String} (ok : db.releaseBudget reservationId = .ok (u,next)) :
    ∃ reservation, (db.reservations.get reservationId = some reservation ∧ reservation.state = .active) ∧
      ∃ row, db.sessions.get reservation.sessionId = some row ∧
        db.release "budget bucket does not cover the reservation" reservation row = .ok next := by
  simp only [releaseBudget,fetch_bind_ok,Option.filter_eq_some_iff,decide_eq_true_eq] at ok
  obtain ⟨reservation,active,row,session,ok⟩ := ok
  obtain ⟨_,released,equal⟩ := bind_ok.mp ok
  cases pure_ok.mp equal
  exact ⟨reservation,active,row,session,released⟩

theorem releaseReservationFor_effect (ok : db.releaseReservationFor sessionId = .ok next) :
    db.reservations.first (fun r => r.sessionId = sessionId) = none ∧ next = db ∨
      ∃ reservation, db.reservations.first (fun r => r.sessionId = sessionId) = some reservation ∧
        reservation.state = .active ∧ ∃ row, db.sessions.get sessionId = some row ∧
          db.release "unstarted session budget bucket is inconsistent" reservation row = .ok next := by
  unfold releaseReservationFor at ok
  split at ok
  next unbooked => exact .inl ⟨unbooked,(pure_ok.mp ok).symm⟩
  next reservation booked =>
    simp only [require_bind_ok,fetch_bind_ok] at ok
    obtain ⟨active,row,session,released⟩ := ok
    exact .inr ⟨reservation,booked,active,row,session,released⟩

theorem insertWake_effect {row : WakeRuntime} (ok : db.insertWake row = .ok next) :
    (db.sessions.get row.sessionId ≠ none ∧ db.reservations.get row.reservationId ≠ none ∧
        db.wakes.count (fun r => r.sessionId = row.sessionId ∨ r.reservationId = row.reservationId ∨
          r.socketPath = row.socketPath) = 0) ∧
      ∃ wakes, db.wakes.insert row = some wakes ∧ next = {db with wakes} := by
  simp only [insertWake,require_bind_ok,fetch_bind_ok,pure_ok] at ok
  obtain ⟨bound,wakes,inserted,rfl⟩ := ok
  exact ⟨bound,wakes,inserted,rfl⟩

theorem markWakeRunning_effect (ok : db.markWakeRunning wakeId = .ok (u,next)) :
    (db.wakes.get wakeId).map WakeRuntime.state = some .prepared ∧ next = {db with
      wakes := db.wakes.update (fun r => r.wakeId = wakeId ∧ r.state = .prepared)
        (fun r => {r with state := .running}) (fun _ => rfl)} := by
  simp only [markWakeRunning,require_bind_ok,pure_ok] at ok
  obtain ⟨prepared,equal⟩ := ok
  cases equal
  exact ⟨prepared,rfl⟩

theorem finishWake_effect {state : WakeState} {outputSha256 error : Option String}
    (ok : db.finishWake wakeId state outputSha256 error now = .ok (u,next)) :
    ¬ state.live ∧ (∃ wake ∈ db.wakes.get wakeId, wake.state.live) ∧ next = {db with
      wakes := db.wakes.update (fun r => r.wakeId = wakeId ∧ r.state.live)
        (fun r => {r with state,finishedAt := some now.isoText,outputSha256,errorDetail := error})
        (fun _ => rfl)} := by
  simp only [finishWake,require_bind_ok,pure_ok] at ok
  obtain ⟨terminal,live,equal⟩ := ok
  cases equal
  exact ⟨terminal,live,rfl⟩

theorem recordProcess_effect {processKey birthToken : String} {workerAttemptId : Option String} {kind : ProcessKind}
    {pid pgid : Int}
    (ok : db.recordProcess processKey sessionId workerAttemptId kind pid pgid birthToken now = .ok (u,next)) :
    ¬ (pid ≤ 0 ∨ pgid ≤ 0 ∨ birthToken = "") ∧
      (db.sessions.get sessionId ≠ none ∧ (∀ attempt ∈ workerAttemptId, db.attempts.get attempt ≠ none) ∧
        db.processes.count (fun r => r.pid = pid ∧ r.birthToken = birthToken) = 0) ∧
      ∃ processes, db.processes.insert ⟨processKey,sessionId,workerAttemptId,kind,pid,pgid,birthToken,.running,
        now.isoText,none,none⟩ = some processes ∧ next = {db with processes} := by
  simp only [recordProcess,require_bind_ok,fetch_bind_ok,pure_ok] at ok
  obtain ⟨identified,bound,processes,inserted,equal⟩ := ok
  cases equal
  exact ⟨identified,bound,processes,inserted,rfl⟩

theorem finishProcess_effect {processKey : String} {state : ProcessState} {exitCode : Option Int}
    (ok : db.finishProcess processKey state exitCode now = .ok (u,next)) :
    state ≠ .running ∧ (db.processes.get processKey).map ProcessRuntime.state = some .running ∧ next = {db with
      processes := db.processes.update (fun r => r.processKey = processKey ∧ r.state = .running)
        (fun r => {r with state,finishedAt := some now.isoText,exitCode}) (fun _ => rfl)} := by
  simp only [finishProcess,require_bind_ok,pure_ok] at ok
  obtain ⟨terminal,running,equal⟩ := ok
  cases equal
  exact ⟨terminal,running,rfl⟩

end Effects

end Runtime
end SjgControl

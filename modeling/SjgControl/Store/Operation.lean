import SjgControl.Store.Runtime
import SjgControl.Store.Queue
import SjgControl.Store.Journal
import SjgControl.Machine

/-! The store as a machine: every public method that writes is an operation, grouped
by the tables it writes. Three methods write or check tables of two groups. -/
namespace SjgControl
open Relational

inductive RuntimeOp where
  | createSession (sessionId wakeId orgId role policyDigest : String) (workspaceAliases : List String)
      (now : Instant) (ttlSeconds globalCap : Int)
  | revokeSession (sessionId : String)
  | finishSession (sessionId : String)
  | forceTerminateSession (sessionId : String) (expired : Bool) (now : Instant)
  | reapExpiredSession (sessionId : String) (now : Instant)
  | reserveWorker (attemptId sessionId workerType : String)
      (cumulativeCap concurrentCap globalCap : Int) (now : Instant)
  | reserveBudget (reservationId sessionId epoch : String) (requestedTokens : Int)
      (buckets : List (String × String × Int)) (now : Instant)
  | settleBudget (reservationId : String) (consumedTokens : Int)
  | markBudgetUncertain (reservationId : String)
  | releaseBudget (reservationId : String)
  | markWakeRunning (wakeId : String)
  | finishWake (wakeId : String) (state : WakeState) (outputSha256 error : Option String)
      (now : Instant)
  | recordProcess (processKey sessionId : String) (workerAttemptId : Option String)
      (kind : ProcessKind) (pid pgid : Int) (birthToken : String) (now : Instant)
  | finishProcess (processKey : String) (state : ProcessState) (exitCode : Option Int) (now : Instant)

inductive QueueOp where
  | checkpoint (sourceId initialWatermark : String)
  | beginSnapshot (snapshotId sourceId : String) (now : Instant)
  | stageObservation (snapshotId eventId sourceId externalId versionKey occurredAt : String)
      (payload : Json)
  | finishSnapshot (snapshotId : String) (complete : Bool) (pageCount : Int)
      (maximumEventTime nextWatermark queryFingerprint etag error : Option String) (now : Instant)
  | finishEventRouting (eventId : String) (role : Option String)
  | addRoute (eventId role : String)
  | enqueueDelivery (deliveryId role : String) (eventIds : List String) (idempotencyKey : String)
      (eligibleAt : Option String) (now : Instant)
  | leaseDelivery (owner : String) (instant : Instant) (leaseSeconds maxAttempts : Int)
  | startDelivery (deliveryId owner timestamp : String)
  | finishDelivery (deliveryId owner : String) (outcome : DeliveryOutcome)
      (error eligibleAt : Option String) (now : Instant)
  | releaseBudgetHold (deliveryId : String) (eligibleAt : Option String) (now : Instant)
  | forceDeliveryUncertain (deliveryId error : String)

inductive JournalOp where
  | markRequestApplying (key : String) (now : Instant)
  | abandonReadRequest (key : String)
  | finishRequest (key : String) (state : RequestState) (response : Response) (now : Instant)
  | audit (entry : AuditEntry)
  | setSupervisorValue (name : String) (value : Json) (now : Instant)
  | reserveReconcile (operationId idempotencyKey sourceKey operation preconditionJson : String)
      (now : Instant)
  | markReconcileApplying (operationId : String) (now : Instant)
  | finishReconcile (operationId : String) (state : ReconcileState) (result : Option Json)
      (now : Instant)

inductive Op where
  | runtime (op : RuntimeOp)
  | queue (op : QueueOp)
  | journal (op : JournalOp)
  | reserveRequest (sessionId key operation argumentsHash argumentsJson : String) (now : Instant)
  | prepareWake (session : Session) (deliveryId : Option String)
      (reservationId socketPath reason : String) (now : Instant)
  | recoverOrphanSession (sessionId : String) (deliveryId eligibleAt : Option String)
      (error : String)
  | recoverPreparedWake (wakeId eligibleAt error : String) (now : Instant)

def discard {α S : Type} (body : Except StoreError (α × S)) : Except StoreError (Unit × S) :=
  body.map (fun p => ((),p.2))

theorem discard_ok {α S : Type} {body : Except StoreError (α × S)} {u : Unit} {next : S} :
    discard body = .ok (u,next) ↔ ∃ value, body = .ok (value,next) := by
  rcases body with e | ⟨value,state⟩
  · simp [discard,Except.map]
  · simp [discard,Except.map]

namespace Runtime

def body (db : Runtime) : RuntimeOp → Except StoreError (Unit × Runtime)
  | .createSession sessionId wakeId orgId role policyDigest aliases now ttl cap =>
    discard (db.createSession sessionId wakeId orgId role policyDigest aliases now ttl cap)
  | .revokeSession sessionId => db.revokeSession sessionId
  | .finishSession sessionId => db.finishSession sessionId
  | .forceTerminateSession sessionId expired now => db.forceTerminateSession sessionId expired now
  | .reapExpiredSession sessionId now => db.reapExpiredSession sessionId now
  | .reserveWorker attemptId sessionId workerType cumulative concurrent cap now =>
    discard (db.reserveWorker attemptId sessionId workerType cumulative concurrent cap now)
  | .reserveBudget reservationId sessionId epoch requested buckets now =>
    discard (db.reserveBudget reservationId sessionId epoch requested buckets now)
  | .settleBudget reservationId consumed => discard (db.settleBody reservationId consumed)
  | .markBudgetUncertain reservationId => db.markBudgetUncertain reservationId
  | .releaseBudget reservationId => db.releaseBudget reservationId
  | .markWakeRunning wakeId => db.markWakeRunning wakeId
  | .finishWake wakeId state output error now => db.finishWake wakeId state output error now
  | .recordProcess processKey sessionId attempt kind pid pgid birth now =>
    db.recordProcess processKey sessionId attempt kind pid pgid birth now
  | .finishProcess processKey state exitCode now => db.finishProcess processKey state exitCode now

def apply (db : Runtime) (op : RuntimeOp) : Outcome Runtime StoreError Unit :=
  match op with
  | .settleBudget reservationId consumed => db.settleBudget reservationId consumed
  | op => atomically db (db.body op)

end Runtime

namespace Queue

def body (db : Queue) : QueueOp → Except StoreError (Unit × Queue)
  | .checkpoint sourceId watermark => .ok ((),db.checkpoint sourceId watermark)
  | .beginSnapshot snapshotId sourceId now => discard (db.beginSnapshot snapshotId sourceId now)
  | .stageObservation snapshotId eventId sourceId externalId versionKey occurredAt payload =>
    discard (db.stageObservation snapshotId eventId sourceId externalId versionKey occurredAt payload)
  | .finishSnapshot snapshotId complete pages maximum watermark fingerprint etag error now =>
    discard (db.finishSnapshot snapshotId complete pages maximum watermark fingerprint etag error now)
  | .finishEventRouting eventId role => db.finishEventRouting eventId role
  | .addRoute eventId role => db.addRoute eventId role
  | .enqueueDelivery deliveryId role eventIds key eligibleAt now =>
    discard (db.enqueueDelivery deliveryId role eventIds key eligibleAt now)
  | .leaseDelivery owner instant seconds attempts =>
    discard (db.leaseDelivery owner instant seconds attempts)
  | .startDelivery deliveryId owner timestamp => db.startDelivery deliveryId owner timestamp
  | .finishDelivery deliveryId owner outcome error eligibleAt now =>
    db.finishDelivery deliveryId owner outcome error eligibleAt now
  | .releaseBudgetHold deliveryId eligibleAt now => db.releaseBudgetHold deliveryId eligibleAt now
  | .forceDeliveryUncertain deliveryId error => db.forceDeliveryUncertain deliveryId error

end Queue

namespace Journal

def body (db : Journal) : JournalOp → Except StoreError (Unit × Journal)
  | .markRequestApplying key now => db.markRequestApplying key now
  | .abandonReadRequest key => .ok ((),db.abandonReadRequest key)
  | .finishRequest key state response now => db.finishRequest key state response now
  | .audit entry => .ok ((),db.audit entry)
  | .setSupervisorValue name value now => db.setSupervisorValue name value now
  | .reserveReconcile operationId key sourceKey operation precondition now =>
    discard (db.reserveReconcile operationId key sourceKey operation precondition now)
  | .markReconcileApplying operationId now => db.markReconcileApplying operationId now
  | .finishReconcile operationId state result now => db.finishReconcile operationId state result now

end Journal

namespace Store

/-- An absolute path starts at the root. -/
def absolutePath (path : String) : Prop := path.toList.head? = some '/'

instance : DecidablePred absolutePath := fun path =>
  inferInstanceAs (Decidable (path.toList.head? = some '/'))

def prepareWake (db : Store) (session : Session) (deliveryId : Option String)
    (reservationId socketPath reason : String) (now : Instant) : Except StoreError (Unit × Store) := do
  require (¬ (reason = "" ∨ ¬ absolutePath socketPath))
    (.stateError "wake runtime requires a reason and absolute socket path")
  require (∀ delivery ∈ deliveryId, db.queue.deliveries.get delivery ≠ none) .integrityError
  let runtime ← db.runtime.insertWake ⟨session.wakeId,session.sessionId,deliveryId,reservationId,
    session.role,reason,socketPath,.prepared,now.isoText,none,none,none⟩
  return ((),{db with runtime})

def recoverOrphanSession (db : Store) (sessionId : String) (deliveryId eligibleAt : Option String)
    (error : String) : Except StoreError (Unit × Store) := do
  require (db.runtime.sessionActive sessionId ∧
      db.runtime.wakes.count (fun r => r.sessionId = sessionId) = 0 ∧
      db.runtime.processCount sessionId = 0 ∧ db.runtime.workerCount sessionId = 0)
    (.stateError "session is not a recoverable pre-wake orphan")
  let runtime ← db.runtime.releaseReservationFor sessionId
  let queue ← match deliveryId with
    | none => pure db.queue
    | some delivery => do
      let eligible ← fetch eligibleAt
        (.stateError "orphan delivery recovery requires an eligibility time")
      db.queue.retryLeasedDelivery delivery eligible error
  return ((),{db with
    runtime := {runtime with sessions := runtime.endSession sessionId .revoked}
    queue})

def recoverPreparedWake (db : Store) (wakeId eligibleAt error : String) (now : Instant) :
    Except StoreError (Unit × Store) := do
  let wake ← fetch ((db.runtime.wakes.get wakeId).filter (fun r => r.state = .prepared))
    (.stateError "wake is not prepared for safe recovery")
  require (db.runtime.sessionActive wake.sessionId ∧
      db.runtime.processCount wake.sessionId = 0 ∧ db.runtime.workerCount wake.sessionId = 0)
    (.stateError "prepared wake is not proved process-free")
  let runtime ← db.runtime.releaseReservationFor wake.sessionId
  let queue ← match wake.deliveryId with
    | none => pure db.queue
    | some delivery =>
      if delivery = "" then pure db.queue
      else db.queue.retryLeasedDelivery delivery eligibleAt error
  return ((),{db with
    runtime := {runtime with
      wakes := runtime.wakes.update (fun r => r.wakeId = wakeId)
        (fun r => {r with
          state := .failed
          finishedAt := some now.isoText
          errorDetail := some error}) (fun _ => rfl)
      sessions := runtime.endSession wake.sessionId .revoked}
    queue})

def lift {S : Type} (put : S → Store) (outcome : Outcome S StoreError Unit) :
    Outcome Store StoreError Unit := ⟨outcome.result,put outcome.state⟩

def apply (db : Store) : Op → Outcome Store StoreError Unit
  | .runtime op => lift (fun runtime => {db with runtime}) (db.runtime.apply op)
  | .queue op => lift (fun queue => {db with queue}) (atomically db.queue (db.queue.body op))
  | .journal op => lift (fun journal => {db with journal}) (atomically db.journal (db.journal.body op))
  | .reserveRequest sessionId key operation hash json now =>
    lift (fun journal => {db with journal}) (atomically db.journal (discard
      (db.journal.reserveRequest db.runtime.sessions sessionId key operation hash json now)))
  | .prepareWake session deliveryId reservationId socketPath reason now =>
    atomically db (db.prepareWake session deliveryId reservationId socketPath reason now)
  | .recoverOrphanSession sessionId deliveryId eligibleAt error =>
    atomically db (db.recoverOrphanSession sessionId deliveryId eligibleAt error)
  | .recoverPreparedWake wakeId eligibleAt error now =>
    atomically db (db.recoverPreparedWake wakeId eligibleAt error now)

def step (db : Store) (op : Op) : Store := (db.apply op).state

theorem prepareWake_effect {db next : Store} {session : Session} {deliveryId : Option String}
    {reservationId socketPath reason : String} {now : Instant} {value : Unit}
    (ok : db.prepareWake session deliveryId reservationId socketPath reason now = .ok (value,next)) :
    ¬ (reason = "" ∨ ¬ absolutePath socketPath) ∧ (∀ delivery ∈ deliveryId, db.queue.deliveries.get delivery ≠ none) ∧
      ∃ runtime, db.runtime.insertWake ⟨session.wakeId,session.sessionId,deliveryId,reservationId,session.role,reason,
        socketPath,.prepared,now.isoText,none,none,none⟩ = .ok runtime ∧ next = {db with runtime} := by
  simp only [prepareWake,require_bind_ok] at ok
  obtain ⟨given,listed,ok⟩ := ok
  obtain ⟨runtime,inserted,equal⟩ := bind_ok.mp ok
  cases pure_ok.mp equal
  exact ⟨given,listed,runtime,inserted,rfl⟩

/-- The delivery that is named goes back to the queue with it. -/
theorem recoverOrphanSession_effect {db next : Store} {sessionId error : String} {deliveryId eligibleAt : Option String}
    {value : Unit} (ok : db.recoverOrphanSession sessionId deliveryId eligibleAt error = .ok (value,next)) :
    (db.runtime.sessionActive sessionId ∧ db.runtime.wakes.count (fun r => r.sessionId = sessionId) = 0 ∧
        db.runtime.processCount sessionId = 0 ∧ db.runtime.workerCount sessionId = 0) ∧
      ∃ runtime, db.runtime.releaseReservationFor sessionId = .ok runtime ∧
      ∃ queue, (deliveryId = none ∧ queue = db.queue ∨
          ∃ delivery eligible, deliveryId = some delivery ∧ eligibleAt = some eligible ∧
            db.queue.retryLeasedDelivery delivery eligible error = .ok queue) ∧
        next = {db with
          runtime := {runtime with sessions := runtime.endSession sessionId .revoked}
          queue} := by
  simp only [recoverOrphanSession,require_bind_ok] at ok
  obtain ⟨orphan,ok⟩ := ok
  obtain ⟨runtime,released,ok⟩ := bind_ok.mp ok
  cases deliveryId with
  | none =>
    simp only [pure_bind,pure_ok] at ok
    cases ok
    exact ⟨orphan,runtime,released,_,.inl ⟨rfl,rfl⟩,rfl⟩
  | some delivery =>
    simp only [fetch_bind_ok] at ok
    obtain ⟨eligible,given,ok⟩ := ok
    obtain ⟨queue,retried,equal⟩ := bind_ok.mp ok
    cases pure_ok.mp equal
    exact ⟨orphan,runtime,released,queue,.inr ⟨delivery,eligible,rfl,given,retried⟩,rfl⟩

theorem recoverPreparedWake_effect {db next : Store} {wakeId eligibleAt error : String} {now : Instant} {value : Unit}
    (ok : db.recoverPreparedWake wakeId eligibleAt error now = .ok (value,next)) :
    ∃ wake, (db.runtime.wakes.get wakeId = some wake ∧ wake.state = .prepared) ∧
      (db.runtime.sessionActive wake.sessionId ∧ db.runtime.processCount wake.sessionId = 0 ∧
        db.runtime.workerCount wake.sessionId = 0) ∧
      ∃ runtime, db.runtime.releaseReservationFor wake.sessionId = .ok runtime ∧
      ∃ queue, ((∀ delivery, wake.deliveryId = some delivery → delivery = "") ∧ queue = db.queue ∨
          ∃ delivery, wake.deliveryId = some delivery ∧ delivery ≠ "" ∧
            db.queue.retryLeasedDelivery delivery eligibleAt error = .ok queue) ∧
        next = {db with
          runtime := {runtime with
            wakes := runtime.wakes.update (fun r => r.wakeId = wakeId)
              (fun r => {r with
                state := .failed
                finishedAt := some now.isoText
                errorDetail := some error}) (fun _ => rfl)
            sessions := runtime.endSession wake.sessionId .revoked}
          queue} := by
  simp only [recoverPreparedWake,fetch_bind_ok,require_bind_ok,Option.filter_eq_some_iff,decide_eq_true_eq] at ok
  obtain ⟨wake,prepared,free,ok⟩ := ok
  obtain ⟨runtime,released,ok⟩ := bind_ok.mp ok
  refine ⟨wake,prepared,free,runtime,released,?_⟩
  cases target : wake.deliveryId with
  | none =>
    simp only [target,pure_bind,pure_ok] at ok
    cases ok
    exact ⟨_,.inl ⟨by simp,rfl⟩,rfl⟩
  | some delivery =>
    simp only [target] at ok
    split at ok
    next empty =>
      simp only [pure_bind,pure_ok] at ok
      cases ok
      exact ⟨_,.inl ⟨by simpa using empty,rfl⟩,rfl⟩
    next some_ =>
      obtain ⟨queue,retried,equal⟩ := bind_ok.mp ok
      cases pure_ok.mp equal
      exact ⟨queue,.inr ⟨delivery,rfl,some_,retried⟩,rfl⟩

theorem recoverOrphanSession_queue {db next : Store} {sessionId error : String}
    {deliveryId eligibleAt : Option String} {value : Unit}
    (ok : db.recoverOrphanSession sessionId deliveryId eligibleAt error = .ok (value,next)) :
    next.queue = db.queue ∨ ∃ delivery eligible, deliveryId = some delivery ∧
      db.queue.retryLeasedDelivery delivery eligible error = .ok next.queue := by
  obtain ⟨_,runtime,_,queue,⟨_,rfl⟩ | ⟨delivery,eligible,named,_,retried⟩,rfl⟩ := recoverOrphanSession_effect ok
  · exact .inl rfl
  · exact .inr ⟨delivery,eligible,named,retried⟩

theorem recoverPreparedWake_queue {db next : Store} {wakeId eligibleAt error : String}
    {now : Instant} {value : Unit}
    (ok : db.recoverPreparedWake wakeId eligibleAt error now = .ok (value,next)) :
    next.queue = db.queue ∨ ∃ delivery eligible,
      (∃ wake ∈ db.runtime.wakes.get wakeId, wake.deliveryId = some delivery) ∧
      db.queue.retryLeasedDelivery delivery eligible error = .ok next.queue := by
  obtain ⟨wake,⟨found,_⟩,_,runtime,_,queue,⟨_,rfl⟩ | ⟨delivery,target,_,retried⟩,rfl⟩ := recoverPreparedWake_effect ok
  · exact .inl rfl
  · exact .inr ⟨delivery,eligibleAt,⟨wake,found,target⟩,retried⟩

end Store

inductive QueueEffect (db : Queue) : Op → Queue → Prop
  | unchanged {op : Op} (other : ∀ q, op ≠ .queue q) : QueueEffect db op db
  | failed (q : QueueOp) (e : StoreError) (failed : db.body q = .error e) : QueueEffect db (.queue q) db
  | committed (q : QueueOp) (next : Queue) (ok : db.body q = .ok ((),next)) :
      QueueEffect db (.queue q) next
  | retried {op : Op} (delivery eligibleAt error : String) (next : Queue) (other : ∀ q, op ≠ .queue q)
      (ok : db.retryLeasedDelivery delivery eligibleAt error = .ok next) : QueueEffect db op next

namespace Store

theorem prepareWake_queue {db next : Store} {session : Session} {deliveryId : Option String}
    {reservationId socketPath reason : String} {now : Instant} {value : Unit}
    (ok : db.prepareWake session deliveryId reservationId socketPath reason now = .ok (value,next)) :
    next.queue = db.queue := by
  obtain ⟨_,_,runtime,_,rfl⟩ := prepareWake_effect ok
  rfl

theorem step_queue (db : Store) (op : Op) : QueueEffect db.queue op (db.step op).queue := by
  -- a call of two groups either rolled back or is described by its own lemma
  have crossing {body : Except StoreError (Unit × Store)} (applied : db.step op = (atomically db body).state)
      (other : ∀ q, op ≠ .queue q)
      (effect : ∀ value next, body = .ok (value,next) → next.queue = db.queue ∨
        ∃ delivery eligible error, db.queue.retryLeasedDelivery delivery eligible error = .ok next.queue) :
      QueueEffect db.queue op (db.step op).queue := by
    rw [applied]
    rcases atomically_cases db body with same | ⟨value,ok⟩
    · rw [same]
      exact .unchanged other
    · rcases effect value _ ok with same | ⟨delivery,eligible,error,retried⟩
      · rw [same]
        exact .unchanged other
      · exact .retried delivery eligible error _ other retried
  cases op with
  | runtime op => exact .unchanged (by simp)
  | journal op => exact .unchanged (by simp)
  | reserveRequest => exact .unchanged (by simp)
  | queue op =>
    change QueueEffect db.queue _ (atomically db.queue (db.queue.body op)).state
    cases result : db.queue.body op with
    | error e => exact .failed op e result
    | ok value => exact .committed op value.2 result
  | prepareWake =>
    refine crossing rfl (by simp) ?_
    intro value next ok
    exact .inl (prepareWake_queue ok)
  | recoverOrphanSession sessionId deliveryId eligibleAt error =>
    refine crossing rfl (by simp) ?_
    intro value next ok
    rcases recoverOrphanSession_queue ok with same | ⟨delivery,eligible,_,retried⟩
    · exact .inl same
    · exact .inr ⟨delivery,eligible,error,retried⟩
  | recoverPreparedWake wakeId eligibleAt error now =>
    refine crossing rfl (by simp) ?_
    intro value next ok
    rcases recoverPreparedWake_queue ok with same | ⟨delivery,eligible,_,retried⟩
    · exact .inl same
    · exact .inr ⟨delivery,eligible,error,retried⟩

end Store

theorem Runtime.apply_state (db : Runtime) (op : RuntimeOp) :
    (db.apply op).state = (atomically db (db.body op)).state := by
  cases op with
  | settleBudget reservationId consumed =>
    simp only [Runtime.apply,Runtime.settleBudget,Runtime.body,discard]
    rcases db.settleBody reservationId consumed with e | ⟨uncertain,next⟩
    · rfl
    · cases uncertain <;> rfl
  | _ => rfl

inductive RuntimeEffect (db : Store) : Op → Runtime → Prop
  | unchanged {op : Op} (idle : ∀ r u next, op = .runtime r → db.runtime.body r ≠ .ok (u,next)) :
      RuntimeEffect db op db.runtime
  | committed (r : RuntimeOp) (next : Runtime) (ok : db.runtime.body r = .ok ((),next)) :
      RuntimeEffect db (.runtime r) next
  | prepared {session : Session} {deliveryId : Option String} {reservationId socketPath reason : String}
      {now : Instant} (next : Runtime)
      (ok : db.runtime.insertWake ⟨session.wakeId,session.sessionId,deliveryId,reservationId,session.role,
        reason,socketPath,.prepared,now.isoText,none,none,none⟩ = .ok next) :
      RuntimeEffect db (.prepareWake session deliveryId reservationId socketPath reason now) next
  | orphaned {deliveryId eligibleAt : Option String} {error : String} (sessionId : String)
      (guard : db.runtime.sessionActive sessionId ∧
        db.runtime.wakes.count (fun r => r.sessionId = sessionId) = 0 ∧
        db.runtime.processCount sessionId = 0 ∧ db.runtime.workerCount sessionId = 0)
      (middle : Runtime) (ok : db.runtime.releaseReservationFor sessionId = .ok middle) :
      RuntimeEffect db (.recoverOrphanSession sessionId deliveryId eligibleAt error)
        {middle with sessions := middle.endSession sessionId .revoked}
  | recovered {eligibleAt : String} (wakeId error : String) (now : Instant) (wake : WakeRuntime)
      (found : db.runtime.wakes.get wakeId = some wake) (prepared : wake.state = .prepared)
      (guard : db.runtime.sessionActive wake.sessionId ∧
        db.runtime.processCount wake.sessionId = 0 ∧ db.runtime.workerCount wake.sessionId = 0)
      (middle : Runtime)
      (ok : db.runtime.releaseReservationFor wake.sessionId = .ok middle) :
      RuntimeEffect db (.recoverPreparedWake wakeId eligibleAt error now)
        {middle with
          wakes := middle.wakes.update (fun r => r.wakeId = wakeId)
            (fun r => {r with
              state := .failed
              finishedAt := some now.isoText
              errorDetail := some error}) (fun _ => rfl)
          sessions := middle.endSession wake.sessionId .revoked}

namespace Store

theorem step_runtime (db : Store) (op : Op) : RuntimeEffect db op (db.step op).runtime := by
  cases op with
  | queue op => exact .unchanged (by simp)
  | journal op => exact .unchanged (by simp)
  | reserveRequest => exact .unchanged (by simp)
  | runtime op =>
    change RuntimeEffect db _ (db.runtime.apply op).state
    rw [Runtime.apply_state]
    cases result : db.runtime.body op with
    | error e =>
      apply RuntimeEffect.unchanged
      intro r u next same
      cases same
      simp [result]
    | ok value => exact .committed op value.2 result
  | prepareWake session deliveryId reservationId socketPath reason now =>
    change RuntimeEffect db _ (atomically db (db.prepareWake _ _ _ _ _ _)).state.runtime
    cases result : db.prepareWake session deliveryId reservationId socketPath reason now with
    | error e => exact .unchanged (by simp)
    | ok value =>
      obtain ⟨_,next⟩ := value
      obtain ⟨_,_,runtime,inserted,rfl⟩ := prepareWake_effect result
      exact .prepared _ inserted
  | recoverOrphanSession sessionId deliveryId eligibleAt error =>
    change RuntimeEffect db _ (atomically db (db.recoverOrphanSession _ _ _ _)).state.runtime
    cases result : db.recoverOrphanSession sessionId deliveryId eligibleAt error with
    | error e => exact .unchanged (by simp)
    | ok value =>
      obtain ⟨_,next⟩ := value
      obtain ⟨guard,middle,released,_,_,rfl⟩ := recoverOrphanSession_effect result
      exact .orphaned sessionId guard middle released
  | recoverPreparedWake wakeId eligibleAt error now =>
    change RuntimeEffect db _ (atomically db (db.recoverPreparedWake _ _ _ _)).state.runtime
    cases result : db.recoverPreparedWake wakeId eligibleAt error now with
    | error e => exact .unchanged (by simp)
    | ok value =>
      obtain ⟨_,next⟩ := value
      obtain ⟨wake,⟨found,prepared⟩,guard,middle,released,_,_,rfl⟩ := recoverPreparedWake_effect result
      exact .recovered wakeId error now wake found prepared guard middle released

end Store
end SjgControl

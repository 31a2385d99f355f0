import SjgControl.Instant
import SjgControl.Json
import SjgControl.Relational.Table
import SjgControl.Relational.Transaction

/-! The controller's database: one row type for each table, with the primary key
its table declares and every state column restricted to the values its `CHECK`
admits. Rows keep the column order of the schema. -/
namespace SjgControl
open Relational

inductive SessionState where
  | active | revoked | finished | expired
  deriving DecidableEq, Repr

inductive RequestState where
  | reserved | applying | verifyPending | succeeded | failed
  deriving DecidableEq, Repr

inductive AttemptState where
  | accepted | running | succeeded | failed | rejected
  deriving DecidableEq, Repr

inductive ReservationState where
  | active | settled | released | uncertain
  deriving DecidableEq, Repr

inductive SnapshotState where
  | collecting | complete | incomplete
  deriving DecidableEq, Repr

inductive EnrichmentState where
  | pending | routed | ignored
  deriving DecidableEq, Repr

inductive DeliveryState where
  | queued | leased | running | retryWait | budgetHold | succeeded | deadLetter | uncertain
  deriving DecidableEq, Repr

inductive RouteState where
  | pending | queued | leased | delivered | manualReview | deadLetter
  deriving DecidableEq, Repr

inductive ReconcileState where
  | planned | applying | verifyPending | succeeded | deadLetter
  deriving DecidableEq, Repr

inductive WakeState where
  | prepared | running | succeeded | failed | uncertain | terminated
  deriving DecidableEq, Repr

inductive ProcessState where
  | running | exited | terminated | uncertain
  deriving DecidableEq, Repr

inductive ProcessKind where
  | parent | worker
  deriving DecidableEq, Repr

/-- `state IN ('accepted','running')`. -/
def AttemptState.live (state : AttemptState) : Prop := state = .accepted ∨ state = .running

/-- `state IN ('prepared','running')`. -/
def WakeState.live (state : WakeState) : Prop := state = .prepared ∨ state = .running

/-- `state IN ('queued','retry_wait')`. -/
def DeliveryState.leasable (state : DeliveryState) : Prop := state = .queued ∨ state = .retryWait

/-- `state IN ('leased','running')`. -/
def DeliveryState.held (state : DeliveryState) : Prop := state = .leased ∨ state = .running

instance : DecidablePred AttemptState.live := fun state =>
  inferInstanceAs (Decidable (state = .accepted ∨ state = .running))
instance : DecidablePred WakeState.live := fun state =>
  inferInstanceAs (Decidable (state = .prepared ∨ state = .running))
instance : DecidablePred DeliveryState.leasable := fun state =>
  inferInstanceAs (Decidable (state = .queued ∨ state = .retryWait))
instance : DecidablePred DeliveryState.held := fun state =>
  inferInstanceAs (Decidable (state = .leased ∨ state = .running))

structure WakeSession where
  sessionId : String
  wakeId : String
  orgId : String
  role : String
  policyDigest : String
  workspaceAliases : List String
  issuedAt : String
  expiresAt : String
  state : SessionState
  deriving DecidableEq

/-- A broker answer. The journal keeps the value its JSON text decodes to. -/
structure Response where
  schema : Option String
  status : String
  error : Option String
  result : Option Json

structure BrokerRequest where
  idempotencyKey : String
  sessionId : String
  operation : String
  argumentsHash : String
  argumentsJson : String
  state : RequestState
  response : Option Response
  createdAt : String
  updatedAt : String

structure WorkerAttempt where
  attemptId : String
  sessionId : String
  sequence : Nat
  workerType : String
  state : AttemptState
  startedAt : String
  finishedAt : Option String
  artifactSha256 : Option String
  deriving DecidableEq

structure BudgetBucket where
  scope : String
  subject : String
  epoch : String
  tokenLimit : Int
  consumedTokens : Int
  reservedTokens : Int
  deriving DecidableEq

structure BudgetReservation where
  reservationId : String
  sessionId : String
  epoch : String
  reservedTokens : Int
  state : ReservationState
  deriving DecidableEq

structure SourceCheckpoint where
  sourceId : String
  watermark : String
  queryFingerprint : Option String
  etag : Option String
  lastCompleteSnapshotId : Option String
  deriving DecidableEq

structure SourceSnapshot where
  snapshotId : String
  sourceId : String
  state : SnapshotState
  startedAt : String
  completedAt : Option String
  pageCount : Int
  maximumEventTime : Option String
  errorDetail : Option String
  deriving DecidableEq

structure SnapshotEvent where
  snapshotId : String
  eventId : String
  sourceId : String
  externalId : String
  versionKey : String
  occurredAt : String
  payload : Json

structure ObservedEvent where
  eventId : String
  sourceId : String
  externalId : String
  versionKey : String
  occurredAt : String
  payload : Json
  enrichmentState : EnrichmentState

structure Delivery where
  deliveryId : String
  idempotencyKey : String
  role : String
  state : DeliveryState
  attempt : Int
  eligibleAt : String
  leaseOwner : Option String
  leaseUntil : Option String
  lastError : Option String
  deriving DecidableEq

structure RouteTarget where
  eventId : String
  role : String
  state : RouteState
  deliveryId : Option String
  deriving DecidableEq

structure DeliveryEvent where
  deliveryId : String
  eventId : String
  role : String
  deriving DecidableEq

structure ReconcileOperation where
  operationId : String
  idempotencyKey : String
  sourceKey : String
  operation : String
  preconditionJson : String
  state : ReconcileState
  externalResult : Option Json
  createdAt : String
  updatedAt : String

structure SupervisorValue where
  name : String
  value : Json
  updatedAt : String

structure WakeRuntime where
  wakeId : String
  sessionId : String
  deliveryId : Option String
  reservationId : String
  role : String
  reason : String
  socketPath : String
  state : WakeState
  startedAt : String
  finishedAt : Option String
  outputSha256 : Option String
  errorDetail : Option String
  deriving DecidableEq

structure ProcessRuntime where
  processKey : String
  sessionId : String
  workerAttemptId : Option String
  kind : ProcessKind
  pid : Int
  pgid : Int
  birthToken : String
  state : ProcessState
  startedAt : String
  finishedAt : Option String
  exitCode : Option Int
  deriving DecidableEq

structure AuditEntry where
  recordedAt : String
  sessionId : Option String
  role : Option String
  policyDigest : Option String
  operation : String
  requestHash : Option String
  decision : String
  detail : Json

instance : Keyed WakeSession String := ⟨WakeSession.sessionId⟩
instance : Keyed BrokerRequest String := ⟨BrokerRequest.idempotencyKey⟩
instance : Keyed WorkerAttempt String := ⟨WorkerAttempt.attemptId⟩
instance : Keyed BudgetBucket (String × String × String) := ⟨fun r => (r.scope,r.subject,r.epoch)⟩
instance : Keyed BudgetReservation String := ⟨BudgetReservation.reservationId⟩
instance : Keyed SourceCheckpoint String := ⟨SourceCheckpoint.sourceId⟩
instance : Keyed SourceSnapshot String := ⟨SourceSnapshot.snapshotId⟩
instance : Keyed SnapshotEvent (String × String) := ⟨fun r => (r.snapshotId,r.eventId)⟩
instance : Keyed ObservedEvent String := ⟨ObservedEvent.eventId⟩
instance : Keyed Delivery String := ⟨Delivery.deliveryId⟩
instance : Keyed RouteTarget (String × String) := ⟨fun r => (r.eventId,r.role)⟩
instance : Keyed DeliveryEvent (String × String × String) :=
  ⟨fun r => (r.deliveryId,r.eventId,r.role)⟩
instance : Keyed ReconcileOperation String := ⟨ReconcileOperation.operationId⟩
instance : Keyed SupervisorValue String := ⟨SupervisorValue.name⟩
instance : Keyed WakeRuntime String := ⟨WakeRuntime.wakeId⟩
instance : Keyed ProcessRuntime String := ⟨ProcessRuntime.processKey⟩

/-- What a store call raises: `StateError` with its text, or the error of the
database or the standard library that the call lets through. -/
inductive StoreError where
  | stateError (message : String)
  | integrityError
  | overflowError
  | typeError
  deriving DecidableEq, Repr

structure Runtime where
  sessions : Table WakeSession
  attempts : Table WorkerAttempt
  buckets : Table BudgetBucket
  reservations : Table BudgetReservation
  wakes : Table WakeRuntime
  processes : Table ProcessRuntime

structure Queue where
  checkpoints : Table SourceCheckpoint
  snapshots : Table SourceSnapshot
  snapshotEvents : Table SnapshotEvent
  observed : Table ObservedEvent
  deliveries : Table Delivery
  routes : Table RouteTarget
  deliveryEvents : Table DeliveryEvent

structure Journal where
  requests : Table BrokerRequest
  reconciliations : Table ReconcileOperation
  supervisor : Table SupervisorValue
  audits : List AuditEntry

structure Store where
  runtime : Runtime
  queue : Queue
  journal : Journal

def Runtime.empty : Runtime := ⟨.empty,.empty,.empty,.empty,.empty,.empty⟩
def Queue.empty : Queue := ⟨.empty,.empty,.empty,.empty,.empty,.empty,.empty⟩
def Journal.empty : Journal := ⟨.empty,.empty,.empty,[]⟩

/-- A database just created from the schema. -/
def Store.empty : Store := ⟨.empty,.empty,.empty⟩

end SjgControl

import SjgControl.Delivery
import SjgControl.JsonText

/-! The intake of a live tick: after the polls, events are routed, unassigned routes are
batched by role and each batch is bound to a new delivery. The tick may end after any
of its calls, and whatever else the host does to its store comes in between. -/
namespace SjgControl
open Relational Machine

def maxEventsPerWake : Int := 50

def routeText (role : String) (eventIds : List String) : String :=
  String.ofList ('[' :: (JsonText.text role ++ (',' :: (JsonText.texts (eventIds.insertionSort (· ≤ ·)) ++ [']']))))

def routeKey (sha256 : String → String) (role : String) (eventIds : List String) : String :=
  sha256 (routeText role eventIds)

structure Batch where
  role : String
  eventIds : List String

inductive IntakePoint where
  | idle
  | polling
  | routing (events : List ObservedEvent)
  | gathering (roles : List String) (batches : List Batch)
  | enqueuing (batches : List Batch)

structure Intake where
  db : Store
  point : IntakePoint

/-- The operations by which `tick` itself routes and binds. `add_route` is not called. -/
def Op.intake : Op → Bool
  | .queue (.finishEventRouting _ _) | .queue (.addRoute _ _) | .queue (.enqueueDelivery _ _ _ _ _ _) => true
  | _ => false

/-- `role` is the answer of `route_event`, none where it raises a `RoutingError`. A tick that
is over leaves by `stop`, and so does one that raises or dies. Every other call, those of
the polls among them, is an `other`. -/
inductive IntakeAction where
  | begin
  | read
  | route (role : Option String)
  | policy (roles : List String)
  | gather
  | enqueue (deliveryId : String) (now : Instant)
  | stop
  | other (op : Op) (outside : op.intake = false)

namespace Intake

def start : Intake := ⟨.empty,.idle⟩

def paused (db : Store) : Bool := (db.journal.supervisorValue "paused" (.bool false)).truthy

/-- The point after a call: the next one, or none if the call raised. -/
def onward {α : Type} (result : Except StoreError α) (next : α → IntakePoint) : IntakePoint :=
  match result with
  | .ok value => next value
  | .error _ => .idle

def call {α : Type} (s : Intake) (body : Except StoreError (α × Queue)) (next : IntakePoint) : Intake :=
  let outcome := atomically s.db.queue body
  ⟨{s.db with queue := outcome.state},onward outcome.result (fun _ => next)⟩

variable (sha256 : String → String)

/-- `store.enqueue_delivery(role, event_ids, idempotency_key=route_key(role, events))`. -/
def enqueueBody (db : Queue) (deliveryId : String) (batch : Batch) (now : Instant) :
    Except StoreError (String × Queue) :=
  db.enqueueDelivery deliveryId batch.role batch.eventIds (routeKey sha256 batch.role batch.eventIds) none now

def step (s : Intake) : IntakeAction → Intake
  | .begin =>
    match s.point with
    | .idle => if paused s.db then s else {s with point := .polling}
    | _ => s
  | .read =>
    match s.point with
    | .polling => {s with point := onward (s.db.queue.unroutedEvents 500) .routing}
    | _ => s
  | .route role =>
    match s.point with
    | .routing (event::rest) => s.call (s.db.queue.finishEventRouting event.eventId role) (.routing rest)
    | _ => s
  | .policy roles =>
    match s.point with
    | .routing [] => {s with point := .gathering (roles.dedup.insertionSort (· ≤ ·)) []}
    | _ => s
  | .gather =>
    match s.point with
    | .gathering (role::rest) batches =>
      {s with point := onward (s.db.queue.pendingRoutes role maxEventsPerWake) (fun values =>
        .gathering rest (if values = [] then batches
          else batches ++ [⟨role,values.map (fun row => row.1.eventId)⟩]))}
    | .gathering [] batches => {s with point := .enqueuing batches}
    | _ => s
  | .enqueue deliveryId now =>
    match s.point with
    | .enqueuing (batch::rest) => s.call (enqueueBody sha256 s.db.queue deliveryId batch now) (.enqueuing rest)
    | _ => s
  | .stop => {s with point := .idle}
  | .other op _ => {s with db := s.db.step op}

def digested (s : Intake) (action : IntakeAction) : Option String :=
  match action,s.point with
  | .enqueue _ _,.enqueuing (batch::_) => some (routeText batch.role batch.eventIds)
  | _,_ => none

/-- A drawn id is of no delivery. -/
def draws (s : Intake) : IntakeAction → Prop
  | .enqueue deliveryId _ => s.db.queue.deliveries.get deliveryId = none
  | _ => True

instance : ∀ s action, Decidable (draws s action)
  | s,.enqueue deliveryId _ =>
    decidable_of_iff ((s.db.queue.deliveries.get deliveryId).isNone) Option.isNone_iff_eq_none
  | _,.begin | _,.read | _,.route _ | _,.policy _ | _,.gather | _,.stop | _,.other _ _ => isTrue trivial

end Intake

/-! What the other operations leave of the way from an event to its delivery. -/

/-- A bound route may change its state, to one that is not `pending`. -/
def RouteTarget.Advanced (r next : RouteTarget) : Prop :=
  next = r ∨ r.deliveryId ≠ none ∧ ∃ state, state ≠ .pending ∧ next = {r with state}

namespace RouteTarget

theorem Advanced.trans {a b c : RouteTarget} (first : Advanced a b) (second : Advanced b c) : Advanced a c := by
  rcases first with rfl | ⟨bound,state,known,rfl⟩
  · exact second
  · rcases second with rfl | ⟨_,last,final,rfl⟩
    · exact .inr ⟨bound,state,known,rfl⟩
    · exact .inr ⟨bound,last,final,rfl⟩

theorem Advanced.same {r next : RouteTarget} (moves : Advanced r next) :
    next.eventId = r.eventId ∧ next.role = r.role ∧ next.deliveryId = r.deliveryId := by
  rcases moves with rfl | ⟨_,_,_,rfl⟩
  · exact ⟨rfl,rfl,rfl⟩
  · exact ⟨rfl,rfl,rfl⟩

end RouteTarget

namespace Queue

/-- What says which batch a delivery was made from. -/
def origin (row : Delivery) : String × String := (row.idempotencyKey,row.role)

/-- The observed events are still there, and the new ones are pending. -/
structure Arrives (observed next : Table ObservedEvent) : Prop where
  stays : ∀ e ∈ observed.rows, e ∈ next.rows
  arrived : ∀ e ∈ next.rows, e ∈ observed.rows ∨ e.enrichmentState = .pending ∧ observed.get e.eventId = none

theorem Arrives.refl (observed : Table ObservedEvent) : Arrives observed observed :=
  ⟨fun _ member => member,fun _ member => .inl member⟩

theorem Arrives.trans {a b c : Table ObservedEvent} (first : Arrives a b) (second : Arrives b c) : Arrives a c := by
  refine ⟨fun e member => second.stays e (first.stays e member),?_⟩
  intro e member
  rcases second.arrived e member with here | ⟨pending,absent⟩
  · exact first.arrived e here
  · refine .inr ⟨pending,?_⟩
    rw [Table.get_eq_none] at absent ⊢
    exact fun old present => absent old (first.stays old present)

theorem publish_arrives (observed : Table ObservedEvent) (event : SnapshotEvent) :
    Arrives observed (publish observed event) := by
  unfold publish
  split
  next =>
    constructor
    · intro e member
      exact Table.mem_insertOrIgnore.mpr (.inl member)
    · intro e member
      rcases Table.mem_insertOrIgnore.mp member with old | ⟨rfl,absent⟩
      · exact .inl old
      · exact .inr ⟨rfl,absent⟩
  next => exact .refl _

theorem publishAll_arrives (events : List SnapshotEvent) (observed : Table ObservedEvent) :
    Arrives observed (events.foldl publish observed) := by
  induction events generalizing observed with
  | nil => exact .refl _
  | cons event rest ih => exact (publish_arrives observed event).trans (ih _)

structure Carried (db next : Queue) : Prop where
  kept : Table.Kept RouteTarget.Advanced db.routes next.routes
  keys : next.routes.rows.map Keyed.key = db.routes.rows.map Keyed.key
  deliveryEvents : next.deliveryEvents = db.deliveryEvents
  origins : ∀ d, (next.deliveries.get d).map origin = (db.deliveries.get d).map origin
  arrives : Arrives db.observed next.observed

theorem routes_kept (routes : Table RouteTarget) : Table.Kept RouteTarget.Advanced routes routes :=
  Table.Kept.refl (fun _ => .inl rfl) routes

theorem Carried.of_eq {db next : Queue} (routes : next.routes = db.routes)
    (deliveryEvents : next.deliveryEvents = db.deliveryEvents) (deliveries : next.deliveries = db.deliveries)
    (arrives : Arrives db.observed next.observed) : Carried db next := by
  refine ⟨?_,by rw [routes],deliveryEvents,by simp [deliveries],arrives⟩
  rw [routes]
  exact routes_kept _

theorem Carried.refl (db : Queue) : Carried db db := .of_eq rfl rfl rfl (.refl _)

theorem Carried.drawn {db next : Queue} (carried : Carried db next) :
    ∀ r ∈ next.routes.rows, ∃ old ∈ db.routes.rows, old.Advanced r := by
  apply carried.kept.drawn carried.keys
  intro a b moves
  obtain ⟨event,role,_⟩ := moves.same
  exact Prod.ext event role

theorem Carried.trans {a b c : Queue} (first : Carried a b) (second : Carried b c) : Carried a c :=
  ⟨first.kept.trans (fun _ _ _ => RouteTarget.Advanced.trans) second.kept,second.keys.trans first.keys,
    second.deliveryEvents.trans first.deliveryEvents,fun d => (second.origins d).trans (first.origins d),
    first.arrives.trans second.arrives⟩

theorem setRoutes_kept (routes : Table RouteTarget) (deliveries : List String) {state : RouteState}
    (known : state ≠ .pending) : Table.Kept RouteTarget.Advanced routes (setRoutes routes deliveries state) := by
  apply Table.kept_update (fun _ => .inl rfl)
  intro r selected
  obtain ⟨delivery,bound,_⟩ := selected
  refine .inr ⟨?_,state,known,rfl⟩
  rw [Option.mem_def.mp bound]
  exact Option.some_ne_none _

theorem setDeliveries_carried (db : Queue) (deliveries : List String) {f : Delivery → Delivery}
    {keeps : ∀ r, (f r).deliveryId = r.deliveryId} (same : ∀ r, origin (f r) = origin r) {state : RouteState}
    (known : state ≠ .pending) : Carried db (db.setDeliveries deliveries f keeps state) := by
  refine ⟨setRoutes_kept _ _ known,?_,rfl,?_,.refl _⟩
  · simp only [setDeliveries,setRoutes,Table.update_keys]
  · intro d
    rw [get_setDeliveries,Option.map_map]
    congr 1
    ext r : 1
    by_cases inside : r.deliveryId ∈ deliveries <;> simp [inside,same]

theorem updateDeliveries_carried (db : Queue) {p : Delivery → Prop} [DecidablePred p] {f : Delivery → Delivery}
    {keeps : ∀ r, (f r).deliveryId = r.deliveryId} (same : ∀ r, origin (f r) = origin r) :
    Carried db {db with deliveries := db.deliveries.update p f keeps} := by
  refine ⟨routes_kept _,rfl,rfl,?_,.refl _⟩
  intro d
  dsimp only
  rw [Table.get_update,Option.map_map]
  congr 1
  ext r : 1
  by_cases selected : p r <;> simp [selected,same]

theorem swept_carried (db : Queue) (timestamp : String) (maxAttempts : Int) :
    Carried db (db.swept timestamp maxAttempts) := by
  have quarantined : Carried db (db.quarantineExpired timestamp) :=
    setDeliveries_carried _ _ (by intro; rfl) (by simp)
  have reclaimed : Carried _ ((db.quarantineExpired timestamp).reclaimExpired timestamp) :=
    updateDeliveries_carried _ (by intro; rfl)
  exact (quarantined.trans reclaimed).trans (setDeliveries_carried _ _ (by intro; rfl) (by simp))

theorem leaseDelivery_carried {db next : Queue} {owner : String} {instant : Instant}
    {leaseSeconds maxAttempts : Int} {found : Option Delivery}
    (ok : db.leaseDelivery owner instant leaseSeconds maxAttempts = .ok (found,next)) : Carried db next := by
  have swept := swept_carried db instant.isoText maxAttempts
  obtain ⟨_,⟨_,_,rfl⟩ | ⟨row,expiry,_,rfl,_⟩⟩ := leaseDelivery_ok ok
  · exact swept
  · exact swept.trans (setDeliveries_carried _ _ (by intro; rfl) (by simp))

theorem finishSnapshot_carried {db next : Queue} {snapshotId : String} {complete : Bool} {pages : Int}
    {maximum watermark fingerprint etag error : Option String} {now : Instant} {value : Nat}
    (ok : db.finishSnapshot snapshotId complete pages maximum watermark fingerprint etag error now =
      .ok (value,next)) : Carried db next := by
  obtain ⟨_,_,_,_,_,⟨_,rfl⟩ | ⟨_,_,_,_,rfl⟩⟩ := finishSnapshot_effect ok
  · exact .of_eq rfl rfl rfl (.refl _)
  · exact .of_eq rfl rfl rfl (publishAll_arrives _ _)

theorem body_carried {db next : Queue} {op : QueueOp} (outside : (Op.queue op).intake = false)
    (ok : db.body op = .ok ((),next)) : Carried db next := by
  cases op with
  | finishEventRouting => contradiction
  | addRoute => contradiction
  | enqueueDelivery => contradiction
  | checkpoint =>
    cases ok
    exact .of_eq rfl rfl rfl (.refl _)
  | beginSnapshot =>
    obtain ⟨_,ok⟩ := discard_ok.mp ok
    obtain ⟨_,_,_,rfl⟩ := beginSnapshot_effect ok
    exact .of_eq rfl rfl rfl (.refl _)
  | stageObservation =>
    obtain ⟨_,ok⟩ := discard_ok.mp ok
    obtain ⟨_,_,_,rfl,rfl⟩ := stageObservation_effect ok
    exact .of_eq rfl rfl rfl (.refl _)
  | finishSnapshot =>
    obtain ⟨_,ok⟩ := discard_ok.mp ok
    exact finishSnapshot_carried ok
  | leaseDelivery =>
    obtain ⟨_,ok⟩ := discard_ok.mp ok
    exact leaseDelivery_carried ok
  | startDelivery =>
    obtain ⟨_,rfl⟩ := startDelivery_effect ok
    exact updateDeliveries_carried _ (by intro; rfl)
  | finishDelivery delivery owner outcome =>
    obtain ⟨_,_,_,rfl⟩ := finishDelivery_effect ok
    refine setDeliveries_carried _ _ (by intro; rfl) ?_
    cases outcome <;> simp [DeliveryOutcome.targets]
  | releaseBudgetHold =>
    obtain ⟨_,rfl⟩ := releaseBudgetHold_effect ok
    exact setDeliveries_carried _ _ (by intro; rfl) (by simp)
  | forceDeliveryUncertain =>
    obtain ⟨_,rfl⟩ := forceDeliveryUncertain_effect ok
    exact setDeliveries_carried _ _ (by intro; rfl) (by simp)

theorem retryLeasedDelivery_carried {db next : Queue} {delivery eligibleAt error : String}
    (ok : db.retryLeasedDelivery delivery eligibleAt error = .ok next) : Carried db next := by
  obtain ⟨_,rfl⟩ := retryLeasedDelivery_effect ok
  exact setDeliveries_carried _ _ (by intro; rfl) (by simp)

end Queue

theorem Store.step_carried (db : Store) {op : Op} (outside : op.intake = false) :
    db.queue.Carried (db.step op).queue := by
  have effect := db.step_queue op
  generalize (db.step op).queue = after at effect ⊢
  cases effect with
  | unchanged => exact .refl _
  | failed => exact .refl _
  | committed q next ok => exact Queue.body_carried outside ok
  | retried delivery eligibleAt error next other ok => exact Queue.retryLeasedDelivery_carried ok

end SjgControl

import Mathlib.Data.List.Sort
import Mathlib.Data.Prod.Lex
import Mathlib.Data.String.Basic
import SjgControl.Store.Schema

/-! Store methods on event sources, routes and deliveries. -/
namespace SjgControl
open Relational

/-- The outcomes `finish_delivery` accepts. -/
inductive DeliveryOutcome where
  | succeeded | retry | budgetHold | deadLetter | uncertain
  deriving DecidableEq, Repr

def DeliveryState.text : DeliveryState → String
  | .queued => "queued"
  | .leased => "leased"
  | .running => "running"
  | .retryWait => "retry_wait"
  | .budgetHold => "budget_hold"
  | .succeeded => "succeeded"
  | .deadLetter => "dead_letter"
  | .uncertain => "uncertain"

namespace DeliveryOutcome

def text : DeliveryOutcome → String
  | .succeeded => "succeeded"
  | .retry => "retry"
  | .budgetHold => "budget_hold"
  | .deadLetter => "dead_letter"
  | .uncertain => "uncertain"

def targets : DeliveryOutcome → DeliveryState × RouteState
  | .succeeded => (.succeeded,.delivered)
  | .retry => (.retryWait,.queued)
  | .budgetHold => (.budgetHold,.queued)
  | .deadLetter => (.deadLetter,.deadLetter)
  | .uncertain => (.uncertain,.manualReview)

def allowed (state : DeliveryState) : List DeliveryOutcome :=
  if state = .leased then [.retry,.budgetHold,.deadLetter,.uncertain]
  else [.succeeded,.deadLetter,.uncertain]

end DeliveryOutcome

namespace Queue

def checkpoint (db : Queue) (sourceId initialWatermark : String) : Queue :=
  {db with checkpoints := db.checkpoints.insertOrIgnore ⟨sourceId,initialWatermark,none,none,none⟩}

def beginSnapshot (db : Queue) (snapshotId sourceId : String) (now : Instant) :
    Except StoreError (String × Queue) := do
  let snapshots ← fetch (db.snapshots.insert
    ⟨snapshotId,sourceId,.collecting,now.isoText,none,0,none,none⟩) .integrityError
  return (snapshotId,{db with snapshots})

/-- `eventId` is the UUIDv5 of `source:external:version`. -/
def stageObservation (db : Queue) (snapshotId eventId sourceId externalId versionKey occurredAt : String)
    (payload : Json) : Except StoreError (Bool × Queue) := do
  let snapshot ← fetch ((db.snapshots.get snapshotId).filter (fun r => r.state = .collecting))
    (.stateError "observation requires a collecting snapshot")
  require (snapshot.sourceId = sourceId)
    (.stateError "observation source does not match its snapshot")
  let row : SnapshotEvent := ⟨snapshotId,eventId,sourceId,externalId,versionKey,occurredAt,payload⟩
  return ((db.snapshotEvents.get (snapshotId,eventId)).isNone,
    {db with snapshotEvents := db.snapshotEvents.insertOrIgnore row})

/-- `INSERT OR IGNORE` of one staged event, under both keys of the table. -/
def publish (observed : Table ObservedEvent) (event : SnapshotEvent) : Table ObservedEvent :=
  if observed.count (fun r => (r.sourceId,r.externalId,r.versionKey) =
      (event.sourceId,event.externalId,event.versionKey)) = 0 then
    observed.insertOrIgnore ⟨event.eventId,event.sourceId,event.externalId,event.versionKey,
      event.occurredAt,event.payload,.pending⟩
  else observed

def finishSnapshot (db : Queue) (snapshotId : String) (complete : Bool) (pageCount : Int)
    (maximumEventTime nextWatermark queryFingerprint etag error : Option String) (now : Instant) :
    Except StoreError (Nat × Queue) := do
  let row ← fetch (db.snapshots.get snapshotId) (.stateError "unknown source snapshot")
  require (row.state = .collecting) (.stateError "source snapshot is already finalized")
  let closed := db.snapshots.update (fun r => r.snapshotId = snapshotId)
    (fun r => {r with
      state := if complete then .complete else .incomplete
      completedAt := some now.isoText
      pageCount
      maximumEventTime
      errorDetail := error}) (fun _ => rfl)
  if complete then
    let watermark ← fetch nextWatermark (.stateError "complete snapshot requires a next watermark")
    let observed := (db.snapshotEvents.select (fun r => r.snapshotId = snapshotId)).foldl
      publish db.observed
    require (db.checkpoints.get row.sourceId ≠ none)
      (.stateError "complete snapshot has no source checkpoint")
    let checkpoints := db.checkpoints.update (fun r => r.sourceId = row.sourceId)
      (fun r => {r with
        watermark
        queryFingerprint
        etag
        lastCompleteSnapshotId := some snapshotId}) (fun _ => rfl)
    return (observed.rows.length - db.observed.rows.length,
      {db with snapshots := closed,observed,checkpoints})
  else return (0,{db with snapshots := closed})

def finishEventRouting (db : Queue) (eventId : String) (role : Option String) :
    Except StoreError (Unit × Queue) := do
  require ((db.observed.get eventId).map ObservedEvent.enrichmentState = some .pending)
    (.stateError "event is absent or already routed")
  let routes ← match role with
    | some role => fetch (db.routes.insert ⟨eventId,role,.pending,none⟩) .integrityError
    | none => pure db.routes
  return ((),{db with
    routes
    observed := db.observed.update (fun r => r.eventId = eventId)
      (fun r => {r with enrichmentState := if role.isSome then .routed else .ignored})
      (fun _ => rfl)})

/-- `ORDER BY occurred_at,event_id LIMIT ?`, where `at_` gives the two columns. -/
def oldestFirst {Row : Type} (at_ : Row → String × String) (limit : Int) (rows : List Row) : List Row :=
  (rows.insertionSort (fun r s => toLex (at_ r) ≤ toLex (at_ s))).take limit.toNat

def unroutedEvents (db : Queue) (limit : Int) : Except StoreError (List ObservedEvent) := do
  require (1 ≤ limit ∧ limit ≤ 5000) (.stateError "event routing batch limit is invalid")
  return oldestFirst (fun r => (r.occurredAt,r.eventId)) limit
    (db.observed.select (fun r => r.enrichmentState = .pending))

/-- `route_target JOIN observed_event`, restricted to the unassigned routes of the role. -/
def pendingRoutes (db : Queue) (role : String) (limit : Int) : Except StoreError (List (RouteTarget × String)) := do
  require (¬ (role = "" ∨ ¬ (1 ≤ limit ∧ limit ≤ 5000))) (.stateError "pending-route batch limit is invalid")
  let routes := db.routes.select (fun r => r.state = .pending ∧ r.deliveryId = none ∧ r.role = role)
  let joined := routes.filterMap (fun r => (db.observed.get r.eventId).map (fun e => (r,e.occurredAt)))
  return oldestFirst (fun row => (row.2,row.1.eventId)) limit joined

def addRoute (db : Queue) (eventId role : String) : Except StoreError (Unit × Queue) := do
  require (db.observed.get eventId ≠ none)
    (.stateError "route references an unknown observed event")
  return ((),{db with routes := db.routes.insertOrIgnore ⟨eventId,role,.pending,none⟩})

/-! Deliveries. -/

/-- `UPDATE route_target SET state=? WHERE delivery_id=?`, for each of the deliveries. -/
def setRoutes (routes : Table RouteTarget) (deliveries : List String) (state : RouteState) :
    Table RouteTarget :=
  routes.update (fun r => ∃ delivery ∈ r.deliveryId, delivery ∈ deliveries)
    (fun r => {r with state}) (fun _ => rfl)

def bindRoute (deliveryId role : String) (db : Queue) (eventId : String) :
    Except StoreError Queue := do
  require (db.observed.get eventId ≠ none) .integrityError
  let deliveryEvents ← fetch (db.deliveryEvents.insert ⟨deliveryId,eventId,role⟩) .integrityError
  return {db with
    deliveryEvents
    routes := db.routes.update (fun r => r.eventId = eventId ∧ r.role = role)
      (fun r => {r with state := .queued,deliveryId := some deliveryId}) (fun _ => rfl)}

def enqueueDelivery (db : Queue) (deliveryId role : String) (eventIds : List String)
    (idempotencyKey : String) (eligibleAt : Option String) (now : Instant) :
    Except StoreError (String × Queue) := do
  let unique := eventIds.dedup.insertionSort (· ≤ ·)
  require (¬ (role = "" ∨ unique = [] ∨ idempotencyKey = ""))
    (.stateError "delivery requires a role, events, and idempotency key")
  match db.deliveries.first (fun r => r.idempotencyKey = idempotencyKey) with
  | some existing =>
    require (existing.role = role)
      (.stateError "delivery idempotency key is bound to another role")
    let bound := ((db.deliveryEvents.select (fun r => r.deliveryId = existing.deliveryId)).map
      DeliveryEvent.eventId).insertionSort (· ≤ ·)
    require (bound = unique)
      (.stateError "delivery idempotency key is bound to different events")
    return (existing.deliveryId,db)
  | none =>
    require (∀ eventId ∈ unique, ∃ route ∈ db.routes.get (eventId,role),
        route.state = .pending ∧ route.deliveryId = none)
      (.stateError "route is absent or already assigned")
    let deliveries ← fetch (db.deliveries.insert
      ⟨deliveryId,idempotencyKey,role,.queued,0,(eligibleAt.filter (· ≠ "")).getD now.isoText,
        none,none,none⟩) .integrityError
    let bound ← unique.foldlM (bindRoute deliveryId role) {db with deliveries}
    return (deliveryId,bound)

def leaseExpired (timestamp : String) (r : Delivery) : Prop :=
  ∃ lease ∈ r.leaseUntil, lease ≤ timestamp

instance (timestamp : String) : DecidablePred (leaseExpired timestamp) := fun r =>
  inferInstanceAs (Decidable (∃ lease ∈ r.leaseUntil, lease ≤ timestamp))

def ids (rows : List Delivery) : List String := rows.map Delivery.deliveryId

def setDeliveries (db : Queue) (deliveries : List String) (f : Delivery → Delivery)
    (keeps : ∀ r, (f r).deliveryId = r.deliveryId) (route : RouteState) : Queue :=
  {db with
    deliveries := db.deliveries.update (fun r => r.deliveryId ∈ deliveries) f keeps
    routes := setRoutes db.routes deliveries route}

def quarantineExpired (db : Queue) (timestamp : String) : Queue :=
  db.setDeliveries (ids (db.deliveries.select (fun r => r.state = .running ∧ leaseExpired timestamp r)))
    (fun r => {r with
      state := .uncertain
      lastError := some "running lease expired"
      leaseOwner := none
      leaseUntil := none}) (fun _ => rfl) .manualReview

/-- The one transition of `lease_delivery` that writes no route. -/
def reclaimExpired (db : Queue) (timestamp : String) : Queue :=
  {db with
    deliveries := db.deliveries.update (fun r => r.state = .leased ∧ leaseExpired timestamp r)
      (fun r => {r with
        state := .retryWait
        lastError := some "lease expired"
        leaseOwner := none
        leaseUntil := none}) (fun _ => rfl)}

def buryExhausted (db : Queue) (maxAttempts : Int) : Queue :=
  db.setDeliveries (ids (db.deliveries.select (fun r => r.state.leasable ∧ maxAttempts ≤ r.attempt)))
    (fun r => {r with state := .deadLetter,lastError := some "retry ceiling reached"})
    (fun _ => rfl) .deadLetter

/-- `ORDER BY eligible_at,delivery_id LIMIT 1`. -/
def earliest : List Delivery → Option Delivery
  | [] => none
  | r::rest =>
    match earliest rest with
    | none => some r
    | some least =>
      if least.eligibleAt < r.eligibleAt ∨
          least.eligibleAt = r.eligibleAt ∧ least.deliveryId < r.deliveryId
      then some least else some r

def nextEligible (db : Queue) (timestamp : String) : Option Delivery :=
  earliest (db.deliveries.select (fun r => r.state.leasable ∧ r.eligibleAt ≤ timestamp))

def leaseTo (db : Queue) (row : Delivery) (owner leaseUntil : String) : Queue :=
  db.setDeliveries [row.deliveryId]
    (fun r => {r with
      state := .leased
      attempt := r.attempt + 1
      leaseOwner := some owner
      leaseUntil := some leaseUntil}) (fun _ => rfl) .leased

def leaseDelivery (db : Queue) (owner : String) (instant : Instant) (leaseSeconds maxAttempts : Int) :
    Except StoreError (Option Delivery × Queue) := do
  require (¬ (owner = "" ∨ leaseSeconds ≤ 0 ∨ maxAttempts ≤ 0))
    (.stateError "delivery lease requires an owner and positive limits")
  let timestamp := instant.isoText
  let leaseUntil ← fetch (instant.later leaseSeconds) .overflowError
  let swept := ((db.quarantineExpired timestamp).reclaimExpired timestamp).buryExhausted maxAttempts
  match swept.nextEligible timestamp with
  | none => return (none,swept)
  | some row =>
    let leased := swept.leaseTo row owner leaseUntil.isoText
    return (leased.deliveries.get row.deliveryId,leased)

def startDelivery (db : Queue) (deliveryId owner timestamp : String) :
    Except StoreError (Unit × Queue) := do
  require (∃ row ∈ db.deliveries.get deliveryId, row.state = .leased ∧ row.leaseOwner = some owner ∧
      ∃ lease ∈ row.leaseUntil, timestamp < lease)
    (.stateError "delivery lease is absent, expired, or owned elsewhere")
  return ((),{db with
    deliveries := db.deliveries.update (fun r => r.deliveryId = deliveryId)
      (fun r => {r with state := .running}) (fun _ => rfl)})

def finishDelivery (db : Queue) (deliveryId owner : String) (outcome : DeliveryOutcome)
    (error eligibleAt : Option String) (now : Instant) : Except StoreError (Unit × Queue) := do
  let row ← fetch ((db.deliveries.get deliveryId).filter
      (fun r => r.state.held ∧ r.leaseOwner = some owner))
    (.stateError "delivery is not held by this owner")
  require (outcome ∈ DeliveryOutcome.allowed row.state)
    (.stateError ("delivery outcome '" ++ outcome.text ++ "' is unsafe from " ++ row.state.text))
  let adjustment : Int := if row.state = .leased ∧ outcome = .budgetHold then -1 else 0
  return ((),db.setDeliveries [deliveryId]
    (fun r => {r with
      state := outcome.targets.1
      eligibleAt := (eligibleAt.filter (· ≠ "")).getD now.isoText
      leaseOwner := none
      leaseUntil := none
      lastError := error
      attempt := r.attempt + adjustment}) (fun _ => rfl) outcome.targets.2)

def releaseBudgetHold (db : Queue) (deliveryId : String) (eligibleAt : Option String) (now : Instant) :
    Except StoreError (Unit × Queue) := do
  require ((db.deliveries.get deliveryId).map Delivery.state = some .budgetHold)
    (.stateError "delivery is not budget-held")
  return ((),db.setDeliveries [deliveryId]
    (fun r => {r with
      state := .retryWait
      eligibleAt := (eligibleAt.filter (· ≠ "")).getD now.isoText
      lastError := none}) (fun _ => rfl) .queued)

def forceDeliveryUncertain (db : Queue) (deliveryId error : String) :
    Except StoreError (Unit × Queue) := do
  require (∃ row ∈ db.deliveries.get deliveryId, row.state.held)
    (.stateError "delivery is absent or not active")
  return ((),db.setDeliveries [deliveryId]
    (fun r => {r with
      state := .uncertain
      leaseOwner := none
      leaseUntil := none
      lastError := some error}) (fun _ => rfl) .manualReview)

def retryLeasedDelivery (db : Queue) (deliveryId eligibleAt error : String) :
    Except StoreError Queue := do
  require ((db.deliveries.get deliveryId).map Delivery.state = some .leased)
    (.stateError "unstarted delivery is not safely leased")
  return db.setDeliveries [deliveryId]
    (fun r => {r with
      state := .retryWait
      eligibleAt
      leaseOwner := none
      leaseUntil := none
      lastError := some error}) (fun _ => rfl) .queued

/-! What a method found and wrote where it returned. -/

section Effects

variable {db next : Queue} {deliveryId : String} {now : Instant} {u : Unit}

theorem beginSnapshot_effect {snapshotId sourceId value : String}
    (ok : db.beginSnapshot snapshotId sourceId now = .ok (value,next)) :
    ∃ snapshots, db.snapshots.insert ⟨snapshotId,sourceId,.collecting,now.isoText,none,0,none,none⟩ = some snapshots ∧
      value = snapshotId ∧ next = {db with snapshots} := by
  simp only [beginSnapshot,fetch_bind_ok,pure_ok] at ok
  obtain ⟨snapshots,inserted,equal⟩ := ok
  cases equal
  exact ⟨snapshots,inserted,rfl,rfl⟩

theorem stageObservation_effect {snapshotId eventId sourceId externalId versionKey occurredAt : String} {payload : Json}
    {fresh : Bool}
    (ok : db.stageObservation snapshotId eventId sourceId externalId versionKey occurredAt payload = .ok (fresh,next)) :
    ∃ snapshot, (db.snapshots.get snapshotId = some snapshot ∧ snapshot.state = .collecting) ∧
      snapshot.sourceId = sourceId ∧ fresh = (db.snapshotEvents.get (snapshotId,eventId)).isNone ∧
      next = {db with
        snapshotEvents := db.snapshotEvents.insertOrIgnore
          ⟨snapshotId,eventId,sourceId,externalId,versionKey,occurredAt,payload⟩} := by
  simp only [stageObservation,fetch_bind_ok,require_bind_ok,pure_ok,Option.filter_eq_some_iff,decide_eq_true_eq] at ok
  obtain ⟨snapshot,collecting,own,equal⟩ := ok
  cases equal
  exact ⟨snapshot,collecting,own,rfl,rfl⟩

/-- Only a complete snapshot publishes its events and moves the checkpoint of its source. -/
theorem finishSnapshot_effect {snapshotId : String} {complete : Bool} {pageCount : Int}
    {maximumEventTime nextWatermark queryFingerprint etag error : Option String} {n : Nat}
    (ok : db.finishSnapshot snapshotId complete pageCount maximumEventTime nextWatermark queryFingerprint etag error now =
      .ok (n,next)) :
    ∃ row, db.snapshots.get snapshotId = some row ∧ row.state = .collecting ∧
      ∃ closed, closed = db.snapshots.update (fun r => r.snapshotId = snapshotId)
          (fun r => {r with
            state := if complete then .complete else .incomplete
            completedAt := some now.isoText
            pageCount
            maximumEventTime
            errorDetail := error}) (fun _ => rfl) ∧
        (complete = false ∧ next = {db with snapshots := closed} ∨
          complete = true ∧ ∃ watermark, nextWatermark = some watermark ∧ db.checkpoints.get row.sourceId ≠ none ∧
            next = {db with
              snapshots := closed
              observed := (db.snapshotEvents.select (fun r => r.snapshotId = snapshotId)).foldl publish db.observed
              checkpoints := db.checkpoints.update (fun r => r.sourceId = row.sourceId)
                (fun r => {r with
                  watermark
                  queryFingerprint
                  etag
                  lastCompleteSnapshotId := some snapshotId}) (fun _ => rfl)}) := by
  simp only [finishSnapshot,fetch_bind_ok,require_bind_ok] at ok
  obtain ⟨row,found,collecting,ok⟩ := ok
  refine ⟨row,found,collecting,_,rfl,?_⟩
  cases complete with
  | false =>
    cases pure_ok.mp ok
    exact .inl ⟨rfl,rfl⟩
  | true =>
    simp only [if_true,fetch_bind_ok,require_bind_ok,pure_ok] at ok
    obtain ⟨watermark,reached,listed,equal⟩ := ok
    cases equal
    exact .inr ⟨rfl,watermark,reached,listed,rfl⟩

theorem finishEventRouting_effect {eventId : String} {role : Option String}
    (ok : db.finishEventRouting eventId role = .ok (u,next)) :
    (db.observed.get eventId).map ObservedEvent.enrichmentState = some .pending ∧
      ∃ routes, (role = none ∧ routes = db.routes ∨
          ∃ target, role = some target ∧ db.routes.insert ⟨eventId,target,.pending,none⟩ = some routes) ∧
        next = {db with
          routes
          observed := db.observed.update (fun r => r.eventId = eventId)
            (fun r => {r with enrichmentState := if role.isSome then .routed else .ignored}) (fun _ => rfl)} := by
  simp only [finishEventRouting,require_bind_ok] at ok
  obtain ⟨pending,ok⟩ := ok
  cases role with
  | none =>
    simp only [pure_bind,pure_ok] at ok
    cases ok
    exact ⟨pending,_,.inl ⟨rfl,rfl⟩,rfl⟩
  | some target =>
    simp only [fetch_bind_ok,pure_ok] at ok
    obtain ⟨routes,inserted,equal⟩ := ok
    cases equal
    exact ⟨pending,routes,.inr ⟨target,rfl,inserted⟩,rfl⟩

theorem leaseDelivery_effect {owner : String} {instant : Instant} {leaseSeconds maxAttempts : Int}
    {found : Option Delivery} (ok : db.leaseDelivery owner instant leaseSeconds maxAttempts = .ok (found,next)) :
    ¬ (owner = "" ∨ leaseSeconds ≤ 0 ∨ maxAttempts ≤ 0) ∧
      ∃ leaseUntil, instant.later leaseSeconds = some leaseUntil ∧
      ∃ swept, swept = ((db.quarantineExpired instant.isoText).reclaimExpired instant.isoText).buryExhausted maxAttempts ∧
        (swept.nextEligible instant.isoText = none ∧ found = none ∧ next = swept ∨
          ∃ row, swept.nextEligible instant.isoText = some row ∧ next = swept.leaseTo row owner leaseUntil.isoText ∧
            found = next.deliveries.get row.deliveryId) := by
  simp only [leaseDelivery,require_bind_ok,fetch_bind_ok] at ok
  obtain ⟨limits,leaseUntil,later,ok⟩ := ok
  refine ⟨limits,leaseUntil,later,_,rfl,?_⟩
  split at ok
  next idle =>
    cases pure_ok.mp ok
    exact .inl ⟨idle,rfl,rfl⟩
  next row chosen =>
    cases pure_ok.mp ok
    exact .inr ⟨row,chosen,rfl,rfl⟩

theorem bindRoute_effect {role eventId : String} (ok : bindRoute deliveryId role db eventId = .ok next) :
    db.observed.get eventId ≠ none ∧
      ∃ deliveryEvents, db.deliveryEvents.insert ⟨deliveryId,eventId,role⟩ = some deliveryEvents ∧ next = {db with
        deliveryEvents
        routes := db.routes.update (fun r => r.eventId = eventId ∧ r.role = role)
          (fun r => {r with state := .queued,deliveryId := some deliveryId}) (fun _ => rfl)} := by
  simp only [bindRoute,require_bind_ok,fetch_bind_ok,pure_ok] at ok
  obtain ⟨observed,deliveryEvents,inserted,rfl⟩ := ok
  exact ⟨observed,deliveryEvents,inserted,rfl⟩

theorem startDelivery_effect {owner timestamp : String} (ok : db.startDelivery deliveryId owner timestamp = .ok (u,next)) :
    (∃ row ∈ db.deliveries.get deliveryId, row.state = .leased ∧ row.leaseOwner = some owner ∧
        ∃ lease ∈ row.leaseUntil, timestamp < lease) ∧
      next = {db with
        deliveries := db.deliveries.update (fun r => r.deliveryId = deliveryId)
          (fun r => {r with state := .running}) (fun _ => rfl)} := by
  simp only [startDelivery,require_bind_ok,pure_ok] at ok
  obtain ⟨leased,equal⟩ := ok
  cases equal
  exact ⟨leased,rfl⟩

theorem finishDelivery_effect {owner : String} {outcome : DeliveryOutcome} {error eligibleAt : Option String}
    (ok : db.finishDelivery deliveryId owner outcome error eligibleAt now = .ok (u,next)) :
    ∃ row, (db.deliveries.get deliveryId = some row ∧ row.state.held ∧ row.leaseOwner = some owner) ∧
      outcome ∈ DeliveryOutcome.allowed row.state ∧
      next = db.setDeliveries [deliveryId]
        (fun r => {r with
          state := outcome.targets.1
          eligibleAt := (eligibleAt.filter (· ≠ "")).getD now.isoText
          leaseOwner := none
          leaseUntil := none
          lastError := error
          attempt := r.attempt + if row.state = .leased ∧ outcome = .budgetHold then -1 else 0}) (fun _ => rfl)
        outcome.targets.2 := by
  simp only [finishDelivery,fetch_bind_ok,require_bind_ok,pure_ok,Option.filter_eq_some_iff,decide_eq_true_eq] at ok
  obtain ⟨row,held,allowed,equal⟩ := ok
  cases equal
  exact ⟨row,held,allowed,rfl⟩

theorem releaseBudgetHold_effect {eligibleAt : Option String}
    (ok : db.releaseBudgetHold deliveryId eligibleAt now = .ok (u,next)) :
    (db.deliveries.get deliveryId).map Delivery.state = some .budgetHold ∧
      next = db.setDeliveries [deliveryId]
        (fun r => {r with
          state := .retryWait
          eligibleAt := (eligibleAt.filter (· ≠ "")).getD now.isoText
          lastError := none}) (fun _ => rfl) .queued := by
  simp only [releaseBudgetHold,require_bind_ok,pure_ok] at ok
  obtain ⟨held,equal⟩ := ok
  cases equal
  exact ⟨held,rfl⟩

theorem forceDeliveryUncertain_effect {error : String} (ok : db.forceDeliveryUncertain deliveryId error = .ok (u,next)) :
    (∃ row ∈ db.deliveries.get deliveryId, row.state.held) ∧
      next = db.setDeliveries [deliveryId]
        (fun r => {r with
          state := .uncertain
          leaseOwner := none
          leaseUntil := none
          lastError := some error}) (fun _ => rfl) .manualReview := by
  simp only [forceDeliveryUncertain,require_bind_ok,pure_ok] at ok
  obtain ⟨held,equal⟩ := ok
  cases equal
  exact ⟨held,rfl⟩

theorem retryLeasedDelivery_effect {eligibleAt error : String}
    (ok : db.retryLeasedDelivery deliveryId eligibleAt error = .ok next) :
    (db.deliveries.get deliveryId).map Delivery.state = some .leased ∧
      next = db.setDeliveries [deliveryId]
        (fun r => {r with
          state := .retryWait
          eligibleAt
          leaseOwner := none
          leaseUntil := none
          lastError := some error}) (fun _ => rfl) .queued := by
  simp only [retryLeasedDelivery,require_bind_ok,pure_ok] at ok
  obtain ⟨leased,rfl⟩ := ok
  exact ⟨leased,rfl⟩

end Effects

end Queue
end SjgControl

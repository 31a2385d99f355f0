import SjgControl.Store.Operation

/-! The life of a delivery over whole runs of the store. One lemma says what a
single operation can do to one delivery; the lifecycle follows by induction. -/
namespace SjgControl
open Relational Machine

namespace Queue

/-! What a sweep of `lease_delivery` does to one row. -/

def quarantineRow (timestamp : String) (r : Delivery) : Delivery :=
  if r.state = .running ∧ leaseExpired timestamp r then
    {r with
      state := .uncertain
      lastError := some "running lease expired"
      leaseOwner := none
      leaseUntil := none}
  else r

def reclaimRow (timestamp : String) (r : Delivery) : Delivery :=
  if r.state = .leased ∧ leaseExpired timestamp r then
    {r with
      state := .retryWait
      lastError := some "lease expired"
      leaseOwner := none
      leaseUntil := none}
  else r

def buryRow (maxAttempts : Int) (r : Delivery) : Delivery :=
  if r.state.leasable ∧ maxAttempts ≤ r.attempt then
    {r with state := .deadLetter,lastError := some "retry ceiling reached"}
  else r

def sweepRow (timestamp : String) (maxAttempts : Int) (r : Delivery) : Delivery :=
  buryRow maxAttempts (reclaimRow timestamp (quarantineRow timestamp r))

def swept (db : Queue) (timestamp : String) (maxAttempts : Int) : Queue :=
  ((db.quarantineExpired timestamp).reclaimExpired timestamp).buryExhausted maxAttempts

theorem get_setDeliveries (db : Queue) (deliveries : List String) (f : Delivery → Delivery)
    (keeps : ∀ r, (f r).deliveryId = r.deliveryId) (route : RouteState) (d : String) :
    (db.setDeliveries deliveries f keeps route).deliveries.get d =
      (db.deliveries.get d).map (fun r => if r.deliveryId ∈ deliveries then f r else r) :=
  Table.get_update _ _ _ keeps _

theorem get_setSelected (db : Queue) (p : Delivery → Prop) [DecidablePred p] (f : Delivery → Delivery)
    (keeps : ∀ r, (f r).deliveryId = r.deliveryId) (route : RouteState) (d : String) :
    (db.setDeliveries (ids (db.deliveries.select p)) f keeps route).deliveries.get d =
      (db.deliveries.get d).map (fun r => if p r then f r else r) := by
  rw [get_setDeliveries]
  cases found : db.deliveries.get d with
  | none => rfl
  | some r =>
    have member := (Table.get_eq_some.mp found).1
    have selected : r.deliveryId ∈ ids (db.deliveries.select p) ↔ p r := Table.key_mem_select member
    simp only [Option.map_some,selected]

theorem get_quarantineExpired (db : Queue) (timestamp d : String) :
    (db.quarantineExpired timestamp).deliveries.get d =
      (db.deliveries.get d).map (quarantineRow timestamp) :=
  get_setSelected _ _ _ _ _ _

theorem get_reclaimExpired (db : Queue) (timestamp d : String) :
    (db.reclaimExpired timestamp).deliveries.get d =
      (db.deliveries.get d).map (reclaimRow timestamp) := by
  simp only [reclaimExpired,Table.get_update]
  rfl

theorem get_buryExhausted (db : Queue) (maxAttempts : Int) (d : String) :
    (db.buryExhausted maxAttempts).deliveries.get d =
      (db.deliveries.get d).map (buryRow maxAttempts) :=
  get_setSelected _ _ _ _ _ _

theorem get_swept (db : Queue) (timestamp : String) (maxAttempts : Int) (d : String) :
    (db.swept timestamp maxAttempts).deliveries.get d =
      (db.deliveries.get d).map (sweepRow timestamp maxAttempts) := by
  rw [swept,get_buryExhausted,get_reclaimExpired,get_quarantineExpired,Option.map_map,Option.map_map]
  rfl

theorem earliest_mem {rows : List Delivery} {r : Delivery} (found : earliest rows = some r) :
    r ∈ rows := by
  induction rows generalizing r with
  | nil => cases found
  | cons head rest ih =>
    unfold earliest at found
    cases tail : earliest rest with
    | none =>
      rw [tail] at found
      cases Option.some.inj found
      exact List.mem_cons_self
    | some least =>
      rw [tail] at found
      dsimp only at found
      split at found
      · cases Option.some.inj found
        exact List.mem_cons_of_mem _ (ih tail)
      · cases Option.some.inj found
        exact List.mem_cons_self

/-- The call sweeps, then leases the least eligible delivery if there is one. -/
theorem leaseDelivery_ok {db next : Queue} {owner : String} {instant : Instant}
    {leaseSeconds maxAttempts : Int} {found : Option Delivery}
    (ok : db.leaseDelivery owner instant leaseSeconds maxAttempts = .ok (found,next)) :
    (0 < maxAttempts) ∧
      ((db.swept instant.isoText maxAttempts).nextEligible instant.isoText = none ∧ found = none ∧
          next = db.swept instant.isoText maxAttempts ∨
        ∃ row leaseUntil, (db.swept instant.isoText maxAttempts).nextEligible instant.isoText = some row ∧
          next = (db.swept instant.isoText maxAttempts).leaseTo row owner leaseUntil ∧
          found = next.deliveries.get row.deliveryId) := by
  obtain ⟨limits,expiry,_,_,rfl,leased⟩ := leaseDelivery_effect ok
  have positive : 0 < maxAttempts := by
    simp only [not_or,not_le] at limits
    exact limits.2.2
  refine ⟨positive,?_⟩
  rcases leased with idle | ⟨row,chosen,after,read⟩
  · exact .inl idle
  · exact .inr ⟨row,expiry.isoText,chosen,after,read⟩

@[simp] theorem sweepRow_id (timestamp : String) (maxAttempts : Int) (r : Delivery) :
    (sweepRow timestamp maxAttempts r).deliveryId = r.deliveryId := by
  unfold sweepRow buryRow reclaimRow quarantineRow
  split <;> split <;> split <;> rfl

theorem sweepRow_attempt (timestamp : String) (maxAttempts : Int) (r : Delivery) :
    (sweepRow timestamp maxAttempts r).attempt = r.attempt := by
  unfold sweepRow buryRow reclaimRow quarantineRow
  split <;> split <;> split <;> rfl

theorem sweepRow_eligibleAt (timestamp : String) (maxAttempts : Int) (r : Delivery) :
    (sweepRow timestamp maxAttempts r).eligibleAt = r.eligibleAt := by
  unfold sweepRow buryRow reclaimRow quarantineRow
  split <;> split <;> split <;> rfl

end Queue

/-! One operation on one delivery. `Turn` is what the operation counts as for it. -/

inductive Turn where
  | idle | lease | hold
  deriving DecidableEq

inductive Move (ceiling : Int) : Turn → DeliveryState → Int → DeliveryState → Int → Prop
  | stay (s a) : Move ceiling .idle s a s a
  | quarantine (a) : Move ceiling .idle .running a .uncertain a
  | reclaim (a) : Move ceiling .idle .leased a .retryWait a
  | bury (s a) (free : s.leasable ∨ s = .leased) (spent : ceiling ≤ a) :
      Move ceiling .idle s a .deadLetter a
  | lease (s a) (free : s.leasable ∨ s = .leased) (below : a < ceiling) :
      Move ceiling .lease s a .leased (a + 1)
  | start (a) : Move ceiling .idle .leased a .running a
  | finish (s a) (outcome : DeliveryOutcome) (held : s.held)
      (allowed : outcome ∈ DeliveryOutcome.allowed s) (kept : outcome ≠ .budgetHold) :
      Move ceiling .idle s a outcome.targets.1 a
  | hold (a) : Move ceiling .hold .leased a .budgetHold (a - 1)
  | unhold (a) : Move ceiling .idle .budgetHold a .retryWait a
  | force (s a) (held : s.held) : Move ceiling .idle s a .uncertain a

namespace Queue

theorem sweepRow_move (timestamp : String) (maxAttempts : Int) (r : Delivery) :
    Move maxAttempts .idle r.state r.attempt (sweepRow timestamp maxAttempts r).state
      (sweepRow timestamp maxAttempts r).attempt := by
  unfold sweepRow quarantineRow
  split
  next running =>
    rw [running.1]
    simp only [reclaimRow,buryRow,DeliveryState.leasable,reduceCtorEq,false_and,if_false,or_self]
    exact .quarantine _
  next =>
    unfold reclaimRow
    split
    next leased =>
      rw [leased.1]
      unfold buryRow
      split
      next spent => exact .bury _ _ (.inr rfl) spent.2
      next => exact .reclaim _
    next =>
      unfold buryRow
      split
      next spent => exact .bury _ _ (.inl spent.1) spent.2
      next => exact .stay _ _

theorem sweepRow_leasable (timestamp : String) (maxAttempts : Int) (r : Delivery) :
    (sweepRow timestamp maxAttempts r).state.leasable ↔
      (r.state.leasable ∨ r.state = .leased ∧ leaseExpired timestamp r) ∧ r.attempt < maxAttempts := by
  by_cases expired : leaseExpired timestamp r <;> by_cases spent : maxAttempts ≤ r.attempt <;>
    cases state : r.state <;>
    simp [sweepRow,quarantineRow,reclaimRow,buryRow,state,expired,spent,DeliveryState.leasable,
      not_lt.mpr,not_le.mp]

/-- What a call of `lease_delivery` that returned `found` is for delivery `d`. -/
def leaseTurn (found : Option Delivery) (d : String) : Turn :=
  if found.map Delivery.deliveryId = some d then .lease else .idle

def turn (db : Queue) (op : QueueOp) (d : String) : Turn :=
  match op with
  | .leaseDelivery owner instant seconds attempts =>
    match db.leaseDelivery owner instant seconds attempts with
    | .ok (found,_) => leaseTurn found d
    | .error _ => .idle
  | .finishDelivery delivery owner outcome error eligibleAt now =>
    match db.finishDelivery delivery owner outcome error eligibleAt now with
    | .ok _ => if outcome = .budgetHold ∧ delivery = d then .hold else .idle
    | .error _ => .idle
  | _ => .idle

end Queue

def QueueOp.ceiling (op : QueueOp) (ceiling : Int) : Prop :=
  match op with
  | .leaseDelivery _ _ _ maxAttempts => maxAttempts = ceiling
  | _ => True

inductive Life (ceiling : Int) : Turn → Option Delivery → Option Delivery → Prop
  | absent : Life ceiling .idle none none
  | born (r : Delivery) (queued : r.state = .queued) (unused : r.attempt = 0) :
      Life ceiling .idle none (some r)
  | moved {turn : Turn} (r next : Delivery)
      (move : Move ceiling turn r.state r.attempt next.state next.attempt) :
      Life ceiling turn (some r) (some next)

theorem Life.same (ceiling : Int) (before : Option Delivery) : Life ceiling .idle before before := by
  cases before with
  | none => exact .absent
  | some r => exact .moved r r (.stay _ _)

theorem Life.map {ceiling : Int} (before : Option Delivery) (f : Delivery → Delivery)
    (moves : ∀ r ∈ before, Move ceiling .idle r.state r.attempt (f r).state (f r).attempt) :
    Life ceiling .idle before (before.map f) := by
  cases before with
  | none => exact .absent
  | some r => exact .moved r _ (moves r rfl)

namespace Queue

theorem bindRoute_deliveries {deliveryId role eventId : String} {db next : Queue}
    (ok : bindRoute deliveryId role db eventId = .ok next) : next.deliveries = db.deliveries := by
  obtain ⟨_,_,_,rfl⟩ := bindRoute_effect ok
  rfl

theorem bindRoute_routes {deliveryId role eventId : String} {db next : Queue}
    (ok : bindRoute deliveryId role db eventId = .ok next) (key : String × String) :
    next.routes.get key = (db.routes.get key).map (fun r => if r.eventId = eventId ∧ r.role = role
      then {r with state := .queued,deliveryId := some deliveryId} else r) := by
  obtain ⟨_,_,_,rfl⟩ := bindRoute_effect ok
  simp only [Table.get_update]

theorem bindRoutes_routes {deliveryId role : String} {events : List String} {db next : Queue}
    (ok : events.foldlM (bindRoute deliveryId role) db = .ok next) (key : String × String) :
    next.routes.get key = (db.routes.get key).map (fun r => if r.eventId ∈ events ∧ r.role = role
      then {r with state := .queued,deliveryId := some deliveryId} else r) := by
  induction events generalizing db with
  | nil =>
    cases pure_ok.mp ok
    simp
  | cons event rest ih =>
    obtain ⟨middle,first,later⟩ := bind_ok.mp ok
    rw [ih later,bindRoute_routes first,Option.map_map]
    congr 1
    funext r
    by_cases here : r.eventId = event <;> by_cases inside : r.eventId ∈ rest <;>
      by_cases same : r.role = role <;> simp [here,inside,same]

/-- A new delivery enters queued and takes routes that nothing was bound to. -/
theorem enqueueDelivery_ok {db next : Queue} {deliveryId role key value : String}
    {eventIds : List String} {eligibleAt : Option String} {now : Instant}
    (ok : db.enqueueDelivery deliveryId role eventIds key eligibleAt now = .ok (value,next)) :
    next = db ∨ ∃ row events, row.deliveryId = deliveryId ∧ row.state = .queued ∧ row.attempt = 0 ∧
      db.deliveries.insert row = some next.deliveries ∧ events ≠ [] ∧
      (∀ event ∈ events, ∃ route ∈ db.routes.get (event,role), route.deliveryId = none) ∧
      ∀ k, next.routes.get k = (db.routes.get k).map (fun r => if r.eventId ∈ events ∧ r.role = role
        then {r with state := .queued,deliveryId := some deliveryId} else r) := by
  simp only [enqueueDelivery,require_bind_ok] at ok
  obtain ⟨given,ok⟩ := ok
  split at ok
  next existing =>
    simp only [require_bind_ok,pure_ok] at ok
    obtain ⟨_,_,equal⟩ := ok
    cases equal
    exact .inl rfl
  next =>
    simp only [require_bind_ok,fetch_bind_ok] at ok
    obtain ⟨free,deliveries,inserted,ok⟩ := ok
    obtain ⟨bound,folded,equal⟩ := bind_ok.mp ok
    cases pure_ok.mp equal
    have kept : next.deliveries = deliveries := by
      refine @foldlM_ok _ _ _ _ (fun q : Queue => q.deliveries = deliveries) ?_ _ _ _ rfl folded
      intro q eventId after same step
      exact (bindRoute_deliveries step).trans same
    refine .inr ⟨_,_,rfl,rfl,rfl,kept ▸ inserted,?_,?_,fun k => bindRoutes_routes folded k⟩
    · intro none_
      exact given (.inr (.inl none_))
    · intro event member
      obtain ⟨route,found,_,unbound⟩ := free event member
      exact ⟨route,found,unbound⟩

theorem setOne_life {ceiling : Int} (db : Queue) (delivery : String) (f : Delivery → Delivery)
    (keeps : ∀ r, (f r).deliveryId = r.deliveryId) (route : RouteState) (d : String)
    (moves : ∀ r ∈ db.deliveries.get delivery,
      Move ceiling .idle r.state r.attempt (f r).state (f r).attempt) :
    Life ceiling .idle (db.deliveries.get d)
      ((db.setDeliveries [delivery] f keeps route).deliveries.get d) := by
  rw [get_setDeliveries]
  apply Life.map
  intro r found
  by_cases here : r.deliveryId = delivery
  · rw [if_pos (by simp [here])]
    have same : d = delivery := by rw [← here]; exact (Table.get_eq_some.mp found).2.symm
    exact moves r (same ▸ found)
  · rw [if_neg (by simp [here])]
    exact .stay _ _

theorem finishDelivery_life {db next : Queue} {delivery owner : String} {outcome : DeliveryOutcome}
    {error eligibleAt : Option String} {now : Instant} (ceiling : Int)
    (ok : db.finishDelivery delivery owner outcome error eligibleAt now = .ok ((),next)) (d : String) :
    Life ceiling (if outcome = .budgetHold ∧ delivery = d then .hold else .idle)
      (db.deliveries.get d) (next.deliveries.get d) := by
  obtain ⟨row,⟨found,held,_⟩,allowed,rfl⟩ := finishDelivery_effect ok
  rw [get_setDeliveries]
  by_cases here : delivery = d
  · subst here
    rw [found]
    have same : row.deliveryId = delivery := (Table.get_eq_some.mp found).2
    have inside : row.deliveryId ∈ [delivery] := by simp [same]
    rw [Option.map_some,if_pos inside]
    apply Life.moved
    by_cases holding : outcome = .budgetHold
    · subst holding
      have leased : row.state = .leased := by
        by_contra other
        simp [DeliveryOutcome.allowed,other] at allowed
      simp only [leased,and_self,if_true,DeliveryOutcome.targets]
      exact .hold _
    · simp only [holding,and_false,false_and,if_false,add_zero]
      exact .finish _ _ _ held allowed holding
  · rw [if_neg (fun both => here both.2)]
    apply Life.map
    intro r elsewhere
    have away : r.deliveryId ∉ [delivery] := by
      rw [List.mem_singleton]
      intro same
      exact here (same.symm.trans (Table.get_eq_some.mp elsewhere).2)
    rw [if_neg away]
    exact .stay _ _

theorem leaseDelivery_life {db next : Queue} {owner : String} {instant : Instant}
    {leaseSeconds maxAttempts : Int} {found : Option Delivery}
    (ok : db.leaseDelivery owner instant leaseSeconds maxAttempts = .ok (found,next)) (d : String) :
    Life maxAttempts (leaseTurn found d) (db.deliveries.get d) (next.deliveries.get d) := by
  obtain ⟨_,⟨_,rfl,rfl⟩ | ⟨row,expiry,chosen,rfl,rfl⟩⟩ := leaseDelivery_ok ok
  · rw [get_swept]
    exact Life.map _ _ (fun r _ => sweepRow_move _ _ r)
  · obtain ⟨member,free,_⟩ := Table.mem_select.mp (earliest_mem chosen)
    have present : (db.swept instant.isoText maxAttempts).deliveries.get row.deliveryId = some row :=
      Table.get_key member
    simp only [leaseTurn,leaseTo,get_setDeliveries,present,Option.map_some,List.mem_singleton,if_true]
    by_cases here : row.deliveryId = d
    · subst here
      rw [if_pos rfl,present,Option.map_some,if_pos rfl]
      rw [get_swept] at present
      obtain ⟨old,before,rfl⟩ := Option.map_eq_some_iff.mp present
      rw [before]
      obtain ⟨open_,below⟩ := (sweepRow_leasable _ _ _).mp free
      apply Life.moved
      simp only [sweepRow_attempt]
      exact .lease _ _ (open_.imp_right And.left) below
    · rw [if_neg (by simpa using here),get_swept]
      cases before : db.deliveries.get d with
      | none => exact .absent
      | some old =>
        have other : (sweepRow instant.isoText maxAttempts old).deliveryId ≠ row.deliveryId := by
          rw [sweepRow_id]
          intro same
          have own : old.deliveryId = d := (Table.get_eq_some.mp before).2
          exact here (same.symm.trans own)
        rw [Option.map_some,Option.map_some,if_neg other]
        exact .moved _ _ (sweepRow_move _ _ old)

/-- From `db` to `next` no delivery changes, and every new route is unbound. -/
def Quiet (db next : Queue) : Prop :=
  next.deliveries = db.deliveries ∧ ∀ k, next.routes.get k = db.routes.get k ∨
    db.routes.get k = none ∧ ∃ route, next.routes.get k = some route ∧ route.deliveryId = none

theorem beginSnapshot_quiet {db next : Queue} {snapshotId sourceId value : String} {now : Instant}
    (ok : db.beginSnapshot snapshotId sourceId now = .ok (value,next)) : Quiet db next := by
  obtain ⟨_,_,_,rfl⟩ := beginSnapshot_effect ok
  exact ⟨rfl,fun _ => .inl rfl⟩

theorem stageObservation_quiet {db next : Queue}
    {snapshotId eventId sourceId externalId versionKey occurredAt : String} {payload : Json} {value : Bool}
    (ok : db.stageObservation snapshotId eventId sourceId externalId versionKey occurredAt payload =
      .ok (value,next)) : Quiet db next := by
  obtain ⟨_,_,_,rfl,rfl⟩ := stageObservation_effect ok
  exact ⟨rfl,fun _ => .inl rfl⟩

theorem finishSnapshot_quiet {db next : Queue} {snapshotId : String} {complete : Bool} {pages : Int}
    {maximum watermark fingerprint etag error : Option String} {now : Instant} {value : Nat}
    (ok : db.finishSnapshot snapshotId complete pages maximum watermark fingerprint etag error now =
      .ok (value,next)) : Quiet db next := by
  obtain ⟨_,_,_,_,_,⟨_,rfl⟩ | ⟨_,_,_,_,rfl⟩⟩ := finishSnapshot_effect ok
  · exact ⟨rfl,fun _ => .inl rfl⟩
  · exact ⟨rfl,fun _ => .inl rfl⟩

theorem finishEventRouting_quiet {db next : Queue} {eventId : String} {role : Option String}
    (ok : db.finishEventRouting eventId role = .ok ((),next)) : Quiet db next := by
  obtain ⟨_,_,⟨_,rfl⟩ | ⟨_,_,inserted⟩,rfl⟩ := finishEventRouting_effect ok
  · exact ⟨rfl,fun _ => .inl rfl⟩
  · refine ⟨rfl,?_⟩
    intro k
    have fresh := Table.insert_fresh inserted
    rw [Table.get_insert inserted]
    split
    next here => exact .inr ⟨here ▸ fresh,_,rfl,rfl⟩
    next => exact .inl rfl

theorem addRoute_quiet {db next : Queue} {eventId role : String}
    (ok : db.addRoute eventId role = .ok ((),next)) : Quiet db next := by
  simp only [addRoute,require_bind_ok,pure_ok] at ok
  obtain ⟨_,equal⟩ := ok
  cases equal
  refine ⟨rfl,?_⟩
  intro k
  rw [Table.get_insertOrIgnore]
  split
  next here =>
    cases before : db.routes.get k with
    | none => exact .inr ⟨rfl,_,rfl,rfl⟩
    | some route => exact .inl rfl
  next => exact .inl rfl

theorem Quiet.life {db next : Queue} (quiet : Quiet db next) (ceiling : Int) (d : String) :
    Life ceiling .idle (db.deliveries.get d) (next.deliveries.get d) := by
  rw [quiet.1]
  exact .same _ _

theorem body_life {db next : Queue} {op : QueueOp} {ceiling : Int} (same : op.ceiling ceiling)
    (ok : db.body op = .ok ((),next)) (d : String) :
    Life ceiling (db.turn op d) (db.deliveries.get d) (next.deliveries.get d) := by
  cases op with
  | checkpoint => cases ok; exact .same _ _
  | beginSnapshot =>
    obtain ⟨_,ok⟩ := discard_ok.mp ok
    exact (beginSnapshot_quiet ok).life _ d
  | stageObservation =>
    obtain ⟨_,ok⟩ := discard_ok.mp ok
    exact (stageObservation_quiet ok).life _ d
  | finishSnapshot =>
    obtain ⟨_,ok⟩ := discard_ok.mp ok
    exact (finishSnapshot_quiet ok).life _ d
  | finishEventRouting => exact (finishEventRouting_quiet ok).life _ d
  | addRoute => exact (addRoute_quiet ok).life _ d
  | enqueueDelivery =>
    obtain ⟨_,ok⟩ := discard_ok.mp ok
    obtain rfl | ⟨row,_,_,queued,unused,inserted,_⟩ := enqueueDelivery_ok ok
    · exact .same _ _
    · rw [Table.get_insert inserted]
      split
      next here =>
        subst here
        rw [Table.insert_fresh inserted]
        exact .born row queued unused
      next => exact .same _ _
  | leaseDelivery =>
    obtain ⟨_,ok⟩ := discard_ok.mp ok
    cases same
    simp only [turn,ok]
    exact leaseDelivery_life ok d
  | startDelivery =>
    obtain ⟨⟨row,found,leased,_⟩,rfl⟩ := startDelivery_effect ok
    simp only [turn,Table.get_update]
    apply Life.map
    intro r present
    split
    next here =>
      have own : r = row := by
        rw [Option.mem_def] at present found
        have place : r.deliveryId = d := (Table.get_eq_some.mp present).2
        rw [← here,place,present] at found
        exact Option.some.inj found
      rw [own,leased]
      exact .start _
    next => exact .stay _ _
  | finishDelivery =>
    change db.finishDelivery _ _ _ _ _ _ = _ at ok
    simp only [turn,ok]
    exact finishDelivery_life ceiling ok d
  | releaseBudgetHold =>
    obtain ⟨held,rfl⟩ := releaseBudgetHold_effect ok
    apply setOne_life
    intro r found
    rw [Option.mem_def.mp found] at held
    rw [Option.some.inj held]
    exact .unhold _
  | forceDeliveryUncertain =>
    obtain ⟨⟨row,found,held⟩,rfl⟩ := forceDeliveryUncertain_effect ok
    apply setOne_life
    intro r present
    cases Option.some.inj ((Option.mem_def.mp found).symm.trans present)
    exact .force _ _ held

theorem turn_error {db : Queue} {op : QueueOp} {e : StoreError} (failed : db.body op = .error e)
    (d : String) : db.turn op d = .idle := by
  cases op with
  | leaseDelivery owner instant seconds attempts =>
    cases result : db.leaseDelivery owner instant seconds attempts with
    | error => simp [turn,result]
    | ok value => simp [body,result,discard,Except.map] at failed
  | finishDelivery delivery owner outcome error eligibleAt now =>
    change db.finishDelivery _ _ _ _ _ _ = _ at failed
    simp [turn,failed]
  | _ => rfl

theorem retryLeasedDelivery_life {db next : Queue} {delivery eligibleAt error : String} (ceiling : Int)
    (ok : db.retryLeasedDelivery delivery eligibleAt error = .ok next) (d : String) :
    Life ceiling .idle (db.deliveries.get d) (next.deliveries.get d) := by
  obtain ⟨leased,rfl⟩ := retryLeasedDelivery_effect ok
  apply setOne_life
  intro r found
  rw [Option.mem_def.mp found] at leased
  rw [Option.some.inj leased]
  exact .reclaim _

end Queue

namespace Store

def turn (db : Store) (op : Op) (d : String) : Turn :=
  match op with
  | .queue op => db.queue.turn op d
  | _ => .idle

end Store

/-- Every `lease_delivery` call uses `ceiling` as its `max_attempts`. -/
def Op.ceiling (op : Op) (ceiling : Int) : Prop :=
  match op with
  | .queue op => op.ceiling ceiling
  | _ => True

theorem Op.ceiling_exists (op : Op) : ∃ ceiling, op.ceiling ceiling := by
  cases op with
  | queue op =>
    cases op with
    | leaseDelivery owner instant seconds maxAttempts => exact ⟨maxAttempts,rfl⟩
    | _ => exact ⟨0,trivial⟩
  | _ => exact ⟨0,trivial⟩

namespace Store

/-- What one operation, successful or not, can do to one delivery. -/
theorem step_life (db : Store) {op : Op} {ceiling : Int} (same : op.ceiling ceiling) (d : String) :
    Life ceiling (db.turn op d) (db.queue.deliveries.get d)
      ((db.step op).queue.deliveries.get d) := by
  have idle (other : ∀ q, op ≠ .queue q) : db.turn op d = .idle := by
    cases op with
    | queue q => exact absurd rfl (other q)
    | _ => rfl
  have effect := db.step_queue op
  generalize (db.step op).queue = after at effect ⊢
  cases effect with
  | unchanged other =>
    rw [idle other]
    exact .same _ _
  | failed q e failed =>
    rw [show db.turn (.queue q) d = .idle from Queue.turn_error failed d]
    exact .same _ _
  | committed q next ok => exact Queue.body_life same ok d
  | retried delivery eligibleAt error next other ok =>
    rw [idle other]
    exact Queue.retryLeasedDelivery_life ceiling ok d

end Store

/-! The lifecycle. -/

def DeliveryState.terminal (state : DeliveryState) : Prop :=
  state = .succeeded ∨ state = .deadLetter ∨ state = .uncertain

theorem Move.terminal {ceiling : Int} {turn : Turn} {s t : DeliveryState} {a b : Int}
    (move : Move ceiling turn s a t b) (ended : s.terminal) : t = s := by
  cases move with
  | stay => rfl
  | bury s a free | lease s a free =>
    rcases ended with rfl | rfl | rfl <;> simp [DeliveryState.leasable] at free
  | finish s a outcome held | force s a held =>
    rcases ended with rfl | rfl | rfl <;> simp [DeliveryState.held] at held
  | _ => simp [DeliveryState.terminal] at ended

/-- What a delivery's row owes to its past: how often it entered `running`, was leased
and was put on hold. -/
structure Fate (ceiling : Int) (entered leases holds : Nat) (state : DeliveryState) (attempt : Int) :
    Prop where
  counted : attempt = leases - holds
  nonneg : 0 ≤ attempt
  bounded : attempt ≤ ceiling
  owned : state.held → 1 ≤ attempt
  once : entered ≤ 1
  past : 0 < entered → state = .running ∨ state.terminal

theorem Fate.rest {ceiling : Int} {entered leases holds : Nat} {s t : DeliveryState} {a : Int}
    (fate : Fate ceiling entered leases holds s a) (free : ¬ t.held)
    (ends : s = .running ∨ s.terminal → t.terminal) :
    Fate ceiling (entered + if s ≠ .running ∧ t = .running then 1 else 0) leases holds t a := by
  have resting : ¬ (s ≠ .running ∧ t = .running) := fun both => free (.inr both.2)
  rw [if_neg resting]
  exact ⟨fate.counted,fate.nonneg,fate.bounded,fun held => absurd held free,fate.once,
    fun entered => .inr (ends (fate.past entered))⟩

theorem Fate.move {ceiling : Int} {entered leases holds : Nat} {turn : Turn} {s t : DeliveryState}
    {a b : Int} (fate : Fate ceiling entered leases holds s a) (move : Move ceiling turn s a t b) :
    Fate ceiling (entered + if s ≠ .running ∧ t = .running then 1 else 0)
      (leases + if turn = .lease then 1 else 0) (holds + if turn = .hold then 1 else 0) t b := by
  -- a delivery that is still open has never run
  have unrun (waiting : ¬ (s = .running ∨ s.terminal)) : entered = 0 :=
    Nat.eq_zero_of_not_pos (fun positive => waiting (fate.past positive))
  have counted := fate.counted
  have nonneg := fate.nonneg
  cases move with
  | stay =>
    have same : ¬ (s ≠ .running ∧ s = .running) := fun both => both.1 both.2
    rw [if_neg same]
    exact fate
  | quarantine =>
    exact fate.rest (by simp [DeliveryState.held]) (fun _ => .inr (.inr rfl))
  | reclaim =>
    exact fate.rest (by simp [DeliveryState.held]) (by simp [DeliveryState.terminal])
  | bury s a free spent =>
    exact fate.rest (by simp [DeliveryState.held]) (fun _ => .inr (.inl rfl))
  | lease s a free below =>
    have fresh : entered = 0 := by
      apply unrun
      rcases free with (rfl | rfl) | rfl <;> simp [DeliveryState.terminal]
    subst fresh
    refine ⟨?_,by omega,by omega,fun _ => by omega,by simp,by simp⟩
    simp only [reduceCtorEq,if_true,if_false]
    omega
  | start a =>
    have fresh : entered = 0 := unrun (by simp [DeliveryState.terminal])
    have owned := fate.owned (.inl rfl)
    subst fresh
    exact ⟨by simpa using counted,nonneg,fate.bounded,fun _ => owned,by simp,fun _ => .inl rfl⟩
  | finish s a outcome held allowed kept =>
    apply fate.rest
    · cases outcome <;> simp [DeliveryOutcome.targets,DeliveryState.held] at *
    · intro ran
      have running : s = .running := by
        rcases held with rfl | rfl
        · simp [DeliveryState.terminal] at ran
        · rfl
      subst running
      simp only [DeliveryOutcome.allowed,reduceCtorEq,if_false,List.mem_cons,List.not_mem_nil,or_false]
        at allowed
      rcases allowed with rfl | rfl | rfl <;> simp [DeliveryOutcome.targets,DeliveryState.terminal]
  | hold a =>
    have fresh : entered = 0 := unrun (by simp [DeliveryState.terminal])
    have owned := fate.owned (.inl rfl)
    have bounded := fate.bounded
    subst fresh
    refine ⟨?_,by omega,by omega,by simp [DeliveryState.held],by simp,by simp⟩
    simp only [reduceCtorEq,if_true,if_false]
    omega
  | unhold a =>
    exact fate.rest (by simp [DeliveryState.held]) (by simp [DeliveryState.terminal])
  | force s a held =>
    exact fate.rest (by simp [DeliveryState.held]) (fun _ => .inr (.inr rfl))

/-- A delivery not yet enqueued has no past. -/
def Destined (ceiling : Int) (entered leases holds : Nat) : Option Delivery → Prop
  | none => entered = 0 ∧ leases = 0 ∧ holds = 0
  | some r => Fate ceiling entered leases holds r.state r.attempt

/-- From one row to the next, the delivery starts to run. -/
def startsRunning (before after : Option Delivery) : Prop :=
  before.map Delivery.state ≠ some .running ∧ after.map Delivery.state = some .running

instance (before after : Option Delivery) : Decidable (startsRunning before after) :=
  inferInstanceAs (Decidable (_ ∧ _))

theorem Destined.life {ceiling : Int} (nonneg : 0 ≤ ceiling) {entered leases holds : Nat} {turn : Turn}
    {before after : Option Delivery} (destined : Destined ceiling entered leases holds before)
    (life : Life ceiling turn before after) :
    Destined ceiling (entered + if startsRunning before after then 1 else 0)
      (leases + if turn = .lease then 1 else 0) (holds + if turn = .hold then 1 else 0) after := by
  cases life with
  | absent => simpa [Destined,startsRunning] using destined
  | born r queued unused =>
    obtain ⟨rfl,rfl,rfl⟩ := destined
    have waiting : ¬ startsRunning none (some r) := by simp [startsRunning,queued]
    rw [if_neg waiting]
    refine ⟨by simp [unused],by simp [unused],by simpa [unused] using nonneg,?_,by simp,by simp⟩
    simp [queued,DeliveryState.held]
  | moved r next move =>
    have fate := Fate.move destined move
    simpa [Destined,startsRunning] using fate

namespace Store

def entersRunning (d : String) (t : Transition Store Op) : Bool :=
  startsRunning (t.before.queue.deliveries.get d) (t.after.queue.deliveries.get d)

def leases (history : List (Transition Store Op)) (d : String) : Nat :=
  history.countP (fun t => t.before.turn t.action d = .lease)

def holds (history : List (Transition Store Op)) (d : String) : Nat :=
  history.countP (fun t => t.before.turn t.action d = .hold)

theorem destined_run {M : Nat} {ops : List Op} (same : ∀ op ∈ ops, op.ceiling M) (d : String) :
    Destined M ((trace step empty ops).countP (entersRunning d)) (leases (trace step empty ops) d)
      (holds (trace step empty ops) d) ((run step empty ops).queue.deliveries.get d) := by
  refine @invariant_history_along _ _ step _ (fun history db =>
    Destined M (history.countP (entersRunning d)) (leases history d) (holds history d)
      (db.queue.deliveries.get d)) empty ⟨rfl,rfl,rfl⟩ ?_ _ (along_of_forall step same)
  intro history db op destined same
  have life := Destined.life (Int.natCast_nonneg M) destined (db.step_life same d)
  simpa [leases,holds,List.countP_append,List.countP_singleton,entersRunning] using life

theorem terminal_step {db : Store} {op : Op} {d : String} {row : Delivery}
    (found : db.queue.deliveries.get d = some row) (ended : row.state.terminal) :
    ((db.step op).queue.deliveries.get d).map Delivery.state = some row.state := by
  obtain ⟨ceiling,same⟩ := op.ceiling_exists
  have life := db.step_life same d
  rw [found] at life
  generalize (db.step op).queue.deliveries.get d = after at life ⊢
  generalize db.turn op d = turn at life
  cases life with
  | moved r next move => rw [Option.map_some,move.terminal ended]

/-- Whatever the operations, owners and instants: a delivery runs at most once, an ended
delivery stays as it ended, and `attempt` is the leases less the budget holds, never
below zero or above the ceiling. -/
theorem delivery_lifecycle (M : Nat) (ops : List Op) (same : ∀ op ∈ ops, op.ceiling M) (d : String) :
    (trace step empty ops).countP (entersRunning d) ≤ 1 ∧
      (∀ t ∈ trace step empty ops, ∀ row ∈ t.before.queue.deliveries.get d, row.state.terminal →
        (t.after.queue.deliveries.get d).map Delivery.state = some row.state) ∧
      ∀ row ∈ (run step empty ops).queue.deliveries.get d,
        row.attempt = leases (trace step empty ops) d - holds (trace step empty ops) d ∧
          0 ≤ row.attempt ∧ row.attempt ≤ M := by
  have destined := destined_run same d
  refine ⟨?_,?_,?_⟩
  · cases found : (run step empty ops).queue.deliveries.get d with
    | none =>
      rw [found] at destined
      simp [destined.1]
    | some row =>
      rw [found] at destined
      exact destined.once
  · intro t member row found ended
    rw [trace_step step member]
    exact terminal_step found ended
  · intro row found
    rw [Option.mem_def.mp found] at destined
    exact ⟨destined.counted,destined.nonneg,destined.bounded⟩

/-- Two events of one source, each routed and enqueued on its own. -/
def intake (now : Instant) : List Op :=
  [.queue (.checkpoint "source" ""),
    .queue (.beginSnapshot "snapshot" "source" now),
    .queue (.stageObservation "snapshot" "event-1" "source" "1" "v1" "" .null),
    .queue (.stageObservation "snapshot" "event-2" "source" "2" "v1" "" .null),
    .queue (.finishSnapshot "snapshot" true 1 none (some "next") none none none now),
    .queue (.addRoute "event-1" "po"),
    .queue (.addRoute "event-2" "po"),
    .queue (.enqueueDelivery "delivery-1" "po" ["event-1"] "key-1" none now),
    .queue (.enqueueDelivery "delivery-2" "po" ["event-2"] "key-2" none now)]

def heldThenRun : List Op :=
  intake ⟨0,Instant.zero_bounded⟩ ++
    [.queue (.leaseDelivery "host" ⟨0,Instant.zero_bounded⟩ 60 3),
      .queue (.finishDelivery "delivery-1" "host" .budgetHold none none ⟨0,Instant.zero_bounded⟩),
      .queue (.releaseBudgetHold "delivery-1" none ⟨0,Instant.zero_bounded⟩),
      .queue (.leaseDelivery "host" ⟨1000000,by decide⟩ 60 3),
      .queue (.startDelivery "delivery-1" "host" "0001-01-01T00:00:02Z")]

theorem delivery_lifecycle_heldThenRun :
    ((run step empty heldThenRun).queue.deliveries.get "delivery-1").map Delivery.state = some .running ∧
      (trace step empty heldThenRun).countP (entersRunning "delivery-1") ≤ 1 ∧
      ∀ row ∈ (run step empty heldThenRun).queue.deliveries.get "delivery-1", row.attempt ≤ 3 := by
  have same : ∀ op ∈ heldThenRun, op.ceiling (3 : Nat) := by
    simp [heldThenRun,intake,Op.ceiling,QueueOp.ceiling]
  obtain ⟨once,_,bounds⟩ := delivery_lifecycle 3 heldThenRun same "delivery-1"
  exact ⟨by decide,once,fun row found => (bounds row found).2.2⟩

end Store
end SjgControl

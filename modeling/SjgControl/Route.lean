import Mathlib.Data.Prod.Lex
import Mathlib.Data.String.Basic
import SjgControl.Delivery

/-! Routes and the deliveries they are bound to. Every write to a delivery's state
but one carries its routes along; `lease_delivery` reclaims expired leases in bulk
without them, and only the delivery it leases again in the same call catches up. -/
namespace SjgControl
open Relational Machine

def DeliveryState.mirror : DeliveryState → RouteState
  | .queued | .retryWait | .budgetHold => .queued
  | .leased | .running => .leased
  | .succeeded => .delivered
  | .uncertain => .manualReview
  | .deadLetter => .deadLetter

namespace Queue

/-- Routes agree with their deliveries, those in `off` apart. -/
def MirroredOff (off : String → Prop) (db : Queue) : Prop :=
  ∀ key route, db.routes.get key = some route → ∀ d, route.deliveryId = some d →
    ∀ row, db.deliveries.get d = some row → off d ∨ route.state = row.state.mirror

def Mirrored (db : Queue) : Prop :=
  ∀ key route, db.routes.get key = some route → ∀ d, route.deliveryId = some d →
    ∀ row, db.deliveries.get d = some row → route.state = row.state.mirror

/-- A bound route names a delivery, and every delivery has a bound route. -/
structure Linked (db : Queue) : Prop where
  target : ∀ key route, db.routes.get key = some route → ∀ d, route.deliveryId = some d →
    db.deliveries.get d ≠ none
  source : ∀ d, db.deliveries.get d ≠ none →
    ∃ key route, db.routes.get key = some route ∧ route.deliveryId = some d

theorem mirroredOff_none {db : Queue} : MirroredOff (fun _ => False) db ↔ Mirrored db := by
  simp [MirroredOff,Mirrored]

theorem get_setRoutes (routes : Table RouteTarget) (deliveries : List String) (state : RouteState)
    (key : String × String) :
    (setRoutes routes deliveries state).get key = (routes.get key).map
      (fun r => if ∃ delivery ∈ r.deliveryId, delivery ∈ deliveries then {r with state} else r) := by
  simp only [setRoutes,Table.get_update]

theorem setDeliveries_mirroredOff {off : String → Prop} {db : Queue} (mirrored : MirroredOff off db)
    (deliveries : List String) {f : Delivery → Delivery} (state : DeliveryState)
    (keeps : ∀ r, (f r).deliveryId = r.deliveryId) (sets : ∀ r, (f r).state = state) :
    MirroredOff (fun d => off d ∧ d ∉ deliveries)
      (db.setDeliveries deliveries f keeps state.mirror) := by
  intro key route found d bound row present
  change (setRoutes db.routes deliveries state.mirror).get key = some route at found
  rw [get_setRoutes] at found
  rw [get_setDeliveries] at present
  obtain ⟨old,before,rfl⟩ := Option.map_eq_some_iff.mp found
  obtain ⟨was,there,rfl⟩ := Option.map_eq_some_iff.mp present
  have own : was.deliveryId = d := (Table.get_eq_some.mp there).2
  have kept : old.deliveryId = some d := by
    split at bound <;> exact bound
  by_cases inside : d ∈ deliveries
  · right
    rw [if_pos ⟨d,kept,inside⟩,if_pos (own ▸ inside),sets]
  · have outside : ¬ ∃ delivery ∈ old.deliveryId, delivery ∈ deliveries := by
      rintro ⟨delivery,same,member⟩
      rw [kept] at same
      cases Option.some.inj same
      exact inside member
    rw [if_neg outside,if_neg (own ▸ inside)]
    rcases mirrored key old before d kept was there with excused | agrees
    · exact .inl ⟨excused,inside⟩
    · exact .inr agrees

theorem setDeliveries_mirrored {db : Queue} (mirrored : Mirrored db) (deliveries : List String)
    {f : Delivery → Delivery} (state : DeliveryState) (keeps : ∀ r, (f r).deliveryId = r.deliveryId)
    (sets : ∀ r, (f r).state = state) :
    Mirrored (db.setDeliveries deliveries f keeps state.mirror) := by
  have off := setDeliveries_mirroredOff (mirroredOff_none.mpr mirrored) deliveries state keeps sets
  intro key route found d bound row present
  rcases off key route found d bound row present with none_ | agrees
  · exact none_.1.elim
  · exact agrees

theorem setDeliveries_linked {db : Queue} (linked : Linked db) (deliveries : List String)
    {f : Delivery → Delivery} (keeps : ∀ r, (f r).deliveryId = r.deliveryId) (state : RouteState) :
    Linked (db.setDeliveries deliveries f keeps state) := by
  constructor
  · intro key route found d bound
    change (setRoutes db.routes deliveries state).get key = some route at found
    rw [get_setRoutes] at found
    obtain ⟨old,before,rfl⟩ := Option.map_eq_some_iff.mp found
    have kept : old.deliveryId = some d := by
      split at bound <;> exact bound
    rw [get_setDeliveries]
    simpa using linked.target key old before d kept
  · intro d present
    rw [get_setDeliveries] at present
    obtain ⟨key,old,before,bound⟩ := linked.source d (by simpa using present)
    refine ⟨key,_,(get_setRoutes _ _ _ _).trans (congrArg _ before),?_⟩
    dsimp only
    split <;> exact bound

/-! The lease call. -/

/-- `ORDER BY eligible_at,delivery_id`. -/
def precedes (r other : Delivery) : Prop :=
  r.eligibleAt < other.eligibleAt ∨ r.eligibleAt = other.eligibleAt ∧ r.deliveryId < other.deliveryId

/-- The call takes the delivery back from an expired lease and leaves it a further attempt. -/
def reclaims (timestamp : String) (maxAttempts : Int) (r : Delivery) : Prop :=
  (r.state = .leased ∧ leaseExpired timestamp r) ∧ r.attempt < maxAttempts

def competes (timestamp : String) (maxAttempts : Int) (r : Delivery) : Prop :=
  ((r.state.leasable ∨ r.state = .leased ∧ leaseExpired timestamp r) ∧ r.attempt < maxAttempts) ∧
    r.eligibleAt ≤ timestamp

/-- At most one lease is reclaimed, and it is the first in line for the next one. -/
def ReclaimsFirst (timestamp : String) (maxAttempts : Int) (db : Queue) : Prop :=
  ∀ r ∈ db.deliveries.rows, reclaims timestamp maxAttempts r → r.eligibleAt ≤ timestamp ∧
    ∀ other ∈ db.deliveries.rows, competes timestamp maxAttempts other → other = r ∨ precedes r other

def rank (r : Delivery) : String ×ₗ String := toLex (r.eligibleAt,r.deliveryId)

theorem precedes_iff {r other : Delivery} : precedes r other ↔ rank r < rank other := by
  unfold precedes rank
  rw [Prod.Lex.toLex_lt_toLex]

theorem earliest_none {rows : List Delivery} (found : earliest rows = none) : rows = [] := by
  cases rows with
  | nil => rfl
  | cons head rest =>
    unfold earliest at found
    split at found
    next => contradiction
    next =>
      split at found <;> contradiction

theorem earliest_least {rows : List Delivery} {least r : Delivery} (found : earliest rows = some least)
    (member : r ∈ rows) : rank least ≤ rank r := by
  induction rows generalizing least r with
  | nil => cases found
  | cons head rest ih =>
    unfold earliest at found
    split at found
    next tail =>
      cases Option.some.inj found
      rw [earliest_none tail,List.mem_singleton] at member
      rw [member]
    next second tail =>
      split at found
      next less =>
        cases Option.some.inj found
        rcases List.mem_cons.mp member with rfl | inside
        · exact (precedes_iff.mp less).le
        · exact ih tail inside
      next notLess =>
        cases Option.some.inj found
        have first : rank head ≤ rank second := not_lt.mp (fun less => notLess (precedes_iff.mpr less))
        rcases List.mem_cons.mp member with rfl | inside
        · exact le_rfl
        · exact first.trans (ih tail inside)

theorem rank_sweepRow (timestamp : String) (maxAttempts : Int) (r : Delivery) :
    rank (sweepRow timestamp maxAttempts r) = rank r := by
  simp only [rank,sweepRow_eligibleAt,sweepRow_id]

theorem mem_eligible {db : Queue} {timestamp : String} {maxAttempts : Int} {r : Delivery} :
    r ∈ (db.swept timestamp maxAttempts).deliveries.select
        (fun r => r.state.leasable ∧ r.eligibleAt ≤ timestamp) ↔
      ∃ old ∈ db.deliveries.rows, sweepRow timestamp maxAttempts old = r ∧
        competes timestamp maxAttempts old := by
  have rows : r ∈ (db.swept timestamp maxAttempts).deliveries.rows ↔
      ∃ old ∈ db.deliveries.rows, sweepRow timestamp maxAttempts old = r := by
    constructor
    · intro member
      have found := Table.get_key member
      rw [get_swept] at found
      obtain ⟨old,before,equal⟩ := Option.map_eq_some_iff.mp found
      exact ⟨old,(Table.get_eq_some.mp before).1,equal⟩
    · rintro ⟨old,member,rfl⟩
      have found := get_swept db timestamp maxAttempts old.deliveryId
      have before : db.deliveries.get old.deliveryId = some old := Table.get_key member
      rw [before] at found
      exact (Table.get_eq_some.mp found).1
  rw [Table.mem_select,rows]
  constructor
  · rintro ⟨⟨old,member,rfl⟩,open_,due⟩
    rw [sweepRow_leasable] at open_
    rw [sweepRow_eligibleAt] at due
    exact ⟨old,member,rfl,open_,due⟩
  · rintro ⟨old,member,rfl,open_,due⟩
    refine ⟨⟨old,member,rfl⟩,(sweepRow_leasable _ _ _).mpr open_,?_⟩
    rw [sweepRow_eligibleAt]
    exact due

/-- The condition says exactly that a reclaimed delivery is the one leased again. -/
theorem reclaimsFirst_iff {db : Queue} {timestamp : String} {maxAttempts : Int} :
    ReclaimsFirst timestamp maxAttempts db ↔
      ∀ r ∈ db.deliveries.rows, reclaims timestamp maxAttempts r →
        (db.swept timestamp maxAttempts).nextEligible timestamp =
          some (sweepRow timestamp maxAttempts r) := by
  constructor
  · intro first r member reclaimed
    obtain ⟨due,leads⟩ := first r member reclaimed
    have competing : competes timestamp maxAttempts r := ⟨⟨.inr reclaimed.1,reclaimed.2⟩,due⟩
    have eligible := mem_eligible.mpr ⟨r,member,rfl,competing⟩
    cases chosen : (db.swept timestamp maxAttempts).nextEligible timestamp with
    | none =>
      rw [earliest_none chosen] at eligible
      cases eligible
    | some least =>
      obtain ⟨old,present,rfl,competing⟩ := mem_eligible.mp (earliest_mem chosen)
      rcases leads old present competing with rfl | less
      · rfl
      · have least := earliest_least chosen eligible
        rw [rank_sweepRow,rank_sweepRow] at least
        exact absurd (precedes_iff.mp less) (not_lt.mpr least)
  · intro chosen r member reclaimed
    have found := chosen r member reclaimed
    obtain ⟨old,present,equal,competing⟩ := mem_eligible.mp (earliest_mem found)
    have same : old = r := by
      apply Table.mem_unique present member
      have ids := congrArg Delivery.deliveryId equal
      rwa [sweepRow_id,sweepRow_id] at ids
    subst same
    refine ⟨competing.2,?_⟩
    intro other inside competing
    have least := earliest_least found (mem_eligible.mpr ⟨other,inside,rfl,competing⟩)
    rw [rank_sweepRow,rank_sweepRow] at least
    rcases least.lt_or_eq with less | equal
    · exact .inr (precedes_iff.mpr less)
    · left
      apply Table.mem_unique inside present
      exact (congrArg (fun p => (ofLex p).2) equal).symm

theorem setSelected_mirroredOff {off : String → Prop} {db : Queue} (mirrored : MirroredOff off db)
    {p : Delivery → Prop} [DecidablePred p] {f : Delivery → Delivery} (state : DeliveryState)
    (keeps : ∀ r, (f r).deliveryId = r.deliveryId) (sets : ∀ r, (f r).state = state) :
    MirroredOff (fun d => off d ∧ ∀ row, db.deliveries.get d = some row → ¬ p row)
      (db.setDeliveries (ids (db.deliveries.select p)) f keeps state.mirror) := by
  intro key route found d bound row present
  rcases setDeliveries_mirroredOff mirrored _ state keeps sets key route found d bound row present
    with ⟨excused,outside⟩ | agrees
  · refine .inl ⟨excused,?_⟩
    intro row there holds
    obtain ⟨member,own⟩ := Table.get_eq_some.mp there
    exact outside (own ▸ (Table.key_mem_select member).mpr holds)
  · exact .inr agrees

/-- Of a mirrored queue the sweep spoils the reclaimed deliveries and no others. -/
theorem swept_mirroredOff {db : Queue} (mirrored : Mirrored db) (timestamp : String) (maxAttempts : Int) :
    MirroredOff (fun d => ∃ row, db.deliveries.get d = some row ∧ reclaims timestamp maxAttempts row)
      (db.swept timestamp maxAttempts) := by
  have quarantined : MirroredOff (fun _ => False) (db.quarantineExpired timestamp) := by
    have off : MirroredOff _ (db.quarantineExpired timestamp) :=
      setSelected_mirroredOff (mirroredOff_none.mpr mirrored) .uncertain _ (by intro; rfl)
    simp only [false_and] at off
    exact off
  have reclaimed : MirroredOff
      (fun d => ∃ row, db.deliveries.get d = some row ∧ row.state = .leased ∧ leaseExpired timestamp row)
      ((db.quarantineExpired timestamp).reclaimExpired timestamp) := by
    intro key route found d bound row present
    rw [get_reclaimExpired] at present
    obtain ⟨middle,there,rfl⟩ := Option.map_eq_some_iff.mp present
    unfold reclaimRow
    split
    next expired =>
      rw [get_quarantineExpired] at there
      obtain ⟨old,before,rfl⟩ := Option.map_eq_some_iff.mp there
      refine .inl ⟨old,before,?_⟩
      unfold quarantineRow at expired
      split at expired
      next => simp at expired
      next => exact expired
    next =>
      exact .inr ((quarantined key route found d bound middle there).resolve_left id)
  have buried : MirroredOff _ (db.swept timestamp maxAttempts) :=
    setSelected_mirroredOff reclaimed .deadLetter _ (by intro; rfl)
  intro key route found d bound row present
  rcases buried key route found d bound row present with ⟨⟨old,before,expired⟩,spared⟩ | agrees
  · refine .inl ⟨old,before,expired,?_⟩
    by_contra spent
    -- at the ceiling it would have been buried
    have middle := get_reclaimExpired (db.quarantineExpired timestamp) timestamp d
    rw [get_quarantineExpired,before] at middle
    apply spared _ middle
    simp [quarantineRow,reclaimRow,expired,DeliveryState.leasable,not_lt.mp spent]
  · exact .inr agrees

theorem swept_linked {db : Queue} (linked : Linked db) (timestamp : String) (maxAttempts : Int) :
    Linked (db.swept timestamp maxAttempts) := by
  have reclaimed : Linked ((db.quarantineExpired timestamp).reclaimExpired timestamp) := by
    have quarantined : Linked (db.quarantineExpired timestamp) := setDeliveries_linked linked _ _ _
    constructor
    · intro key route found d bound
      rw [get_reclaimExpired]
      simpa using quarantined.target key route found d bound
    · intro d present
      rw [get_reclaimExpired] at present
      exact quarantined.source d (by simpa using present)
  exact setDeliveries_linked reclaimed _ _ _

theorem get_swept_route {db : Queue} {timestamp d : String} {maxAttempts : Int} {key : String × String}
    {route : RouteTarget} {row : Delivery} (found : db.routes.get key = some route)
    (bound : route.deliveryId = some d) (present : db.deliveries.get d = some row)
    (reclaimed : reclaims timestamp maxAttempts row) :
    (db.swept timestamp maxAttempts).routes.get key = some route := by
  -- a route is passed over by a write to selected deliveries when its own is not selected
  have passed {q : Queue} {p : Delivery → Prop} [DecidablePred p] {state : RouteState} {r : Delivery}
      (there : q.deliveries.get d = some r) (spared : ¬ p r) (before : q.routes.get key = some route) :
      (setRoutes q.routes (ids (q.deliveries.select p)) state).get key = some route := by
    rw [get_setRoutes,before,Option.map_some,if_neg]
    rintro ⟨delivery,same,inside⟩
    rw [bound] at same
    cases Option.some.inj same
    obtain ⟨member,own⟩ := Table.get_eq_some.mp there
    exact spared ((Table.key_mem_select member).mp (own.symm ▸ inside))
  obtain ⟨⟨leased,expired⟩,below⟩ := reclaimed
  have middle := get_reclaimExpired (db.quarantineExpired timestamp) timestamp d
  rw [get_quarantineExpired,present] at middle
  refine passed middle ?_ (passed present ?_ found)
  · simp [quarantineRow,reclaimRow,leased,expired,not_le.mpr below]
  · simp [leased]

theorem leaseDelivery_mirrored {db next : Queue} (linked : Linked db) (mirrored : Mirrored db)
    {owner : String} {instant : Instant} {leaseSeconds maxAttempts : Int} {found : Option Delivery}
    (ok : db.leaseDelivery owner instant leaseSeconds maxAttempts = .ok (found,next)) :
    Mirrored next ↔ ReclaimsFirst instant.isoText maxAttempts db := by
  rw [reclaimsFirst_iff]
  constructor
  · intro agrees r member reclaimed
    have present : db.deliveries.get r.deliveryId = some r := Table.get_key member
    obtain ⟨key,route,there,bound⟩ := linked.source r.deliveryId (by simp [present])
    have leased : route.state = .leased := by
      rw [mirrored key route there _ bound r present,reclaimed.1.1]
      rfl
    have routeAfter := get_swept_route there bound present reclaimed
    have rowAfter := get_swept db instant.isoText maxAttempts r.deliveryId
    rw [present,Option.map_some] at rowAfter
    have waiting : (sweepRow instant.isoText maxAttempts r).state = .retryWait := by
      obtain ⟨⟨leased,expired⟩,below⟩ := reclaimed
      simp [sweepRow,quarantineRow,reclaimRow,buryRow,leased,expired,not_le.mpr below]
    obtain ⟨_,⟨_,rfl,rfl⟩ | ⟨row,expiry,chosen,rfl,rfl⟩⟩ := leaseDelivery_ok ok
    · have same := agrees key route routeAfter _ bound _ rowAfter
      rw [leased,waiting] at same
      cases same
    · rw [chosen]
      by_cases here : row.deliveryId = r.deliveryId
      · have own : (db.swept instant.isoText maxAttempts).deliveries.get row.deliveryId = some row :=
          Table.get_key (Table.mem_select.mp (earliest_mem chosen)).1
        rw [here,rowAfter] at own
        exact own.symm
      · have routeSame : ((db.swept instant.isoText maxAttempts).leaseTo row owner expiry).routes.get key =
            some route := by
          refine (get_setRoutes _ _ _ _).trans ?_
          rw [routeAfter,Option.map_some,if_neg]
          simp [bound,Ne.symm here]
        have rowSame : ((db.swept instant.isoText maxAttempts).leaseTo row owner expiry).deliveries.get
            r.deliveryId = some (sweepRow instant.isoText maxAttempts r) := by
          refine (get_setDeliveries _ _ _ _ _ _).trans ?_
          rw [rowAfter,Option.map_some,if_neg]
          simp [sweepRow_id,Ne.symm here]
        have same := agrees key route routeSame _ bound _ rowSame
        rw [leased,waiting] at same
        cases same
  · intro chosen
    have off := swept_mirroredOff mirrored instant.isoText maxAttempts
    obtain ⟨_,⟨empty,rfl,rfl⟩ | ⟨row,expiry,leased,rfl,rfl⟩⟩ := leaseDelivery_ok ok
    · intro key route there d bound r present
      rcases off key route there d bound r present with ⟨old,before,reclaimed⟩ | agrees
      · have again := chosen old (Table.get_eq_some.mp before).1 reclaimed
        rw [empty] at again
        cases again
      · exact agrees
    · have off : MirroredOff _ ((db.swept instant.isoText maxAttempts).leaseTo row owner expiry) :=
        setDeliveries_mirroredOff off _ .leased _ (by intro; rfl)
      intro key route there d bound r present
      rcases off key route there d bound r present with ⟨⟨old,before,reclaimed⟩,other⟩ | agrees
      · have again := chosen old (Table.get_eq_some.mp before).1 reclaimed
        rw [leased] at again
        cases Option.some.inj again
        have own : old.deliveryId = d := (Table.get_eq_some.mp before).2
        simp [sweepRow_id,own] at other
      · exact agrees

theorem enqueueDelivery_mirrored {db next : Queue} (linked : Linked db) (mirrored : Mirrored db)
    {deliveryId role key value : String} {eventIds : List String} {eligibleAt : Option String}
    {now : Instant}
    (ok : db.enqueueDelivery deliveryId role eventIds key eligibleAt now = .ok (value,next)) :
    Mirrored next ∧ Linked next := by
  obtain rfl | ⟨row,events,rfl,queued,_,inserted,some_,free,routes⟩ := enqueueDelivery_ok ok
  · exact ⟨mirrored,linked⟩
  have fresh : db.deliveries.get row.deliveryId = none := Table.insert_fresh inserted
  have deliveries (d : String) : next.deliveries.get d =
      if row.deliveryId = d then some row else db.deliveries.get d := Table.get_insert inserted d
  -- a route of the new delivery was just bound, any other is as it was
  have cases_ {k : String × String} {route : RouteTarget} (found : next.routes.get k = some route) :
      (route.deliveryId = some row.deliveryId ∧ route.state = .queued) ∨
        db.routes.get k = some route := by
    rw [routes] at found
    obtain ⟨old,before,rfl⟩ := Option.map_eq_some_iff.mp found
    by_cases taken : old.eventId ∈ events ∧ old.role = role
    · rw [if_pos taken]
      exact .inl ⟨rfl,rfl⟩
    · rw [if_neg taken]
      exact .inr before
  refine ⟨?_,?_,?_⟩
  · intro k route found d bound r present
    rw [deliveries] at present
    rcases cases_ found with ⟨own,state⟩ | before
    · rw [own] at bound
      rw [if_pos (Option.some.inj bound)] at present
      cases Option.some.inj present
      rw [state,queued]
      rfl
    · have other : row.deliveryId ≠ d := by
        rintro rfl
        exact linked.target k route before _ bound fresh
      rw [if_neg other] at present
      exact mirrored k route before d bound r present
  · intro k route found d bound
    rw [deliveries]
    split
    next => simp
    next other =>
      rcases cases_ found with ⟨own,_⟩ | before
      · rw [own] at bound
        exact absurd (Option.some.inj bound) other
      · exact linked.target k route before d bound
  · intro d present
    rw [deliveries] at present
    by_cases own : row.deliveryId = d
    · obtain ⟨event,rest,rfl⟩ := List.exists_cons_of_ne_nil some_
      obtain ⟨route,found,_⟩ := free event List.mem_cons_self
      obtain ⟨_,place⟩ := Table.get_eq_some.mp (Option.mem_def.mp found)
      have eventSame : route.eventId = event := congrArg Prod.fst place
      have roleSame : route.role = role := congrArg Prod.snd place
      refine ⟨(event,role),{route with state := .queued,deliveryId := some row.deliveryId},?_,?_⟩
      · rw [routes,Option.mem_def.mp found,Option.map_some,if_pos]
        simp [eventSame,roleSame]
      · exact congrArg some own
    · rw [if_neg own] at present
      obtain ⟨k,route,before,bound⟩ := linked.source d present
      refine ⟨k,route,?_,bound⟩
      rw [routes,before,Option.map_some,if_neg]
      -- a bound route is not among those taken
      rintro ⟨inside,same⟩
      obtain ⟨other,found,unbound⟩ := free route.eventId inside
      have place : db.routes.get (route.eventId,role) = some route := by
        rw [← same]
        exact Table.get_key (Table.get_eq_some.mp before).1
      rw [place] at found
      cases Option.some.inj (Option.mem_def.mp found)
      rw [unbound] at bound
      cases bound

theorem Quiet.mirrored {db next : Queue} (quiet : Quiet db next) (linked : Linked db)
    (mirrored : Mirrored db) : Mirrored next ∧ Linked next := by
  obtain ⟨deliveries,routes⟩ := quiet
  have before {k : String × String} {route : RouteTarget} {d : String}
      (found : next.routes.get k = some route) (bound : route.deliveryId = some d) :
      db.routes.get k = some route := by
    rcases routes k with same | ⟨_,fresh,here,unbound⟩
    · rwa [← same]
    · rw [found] at here
      cases Option.some.inj here
      rw [unbound] at bound
      cases bound
  refine ⟨?_,?_,?_⟩
  · intro k route found d bound row present
    rw [deliveries] at present
    exact mirrored k route (before found bound) d bound row present
  · intro k route found d bound
    rw [deliveries]
    exact linked.target k route (before found bound) d bound
  · intro d present
    rw [deliveries] at present
    obtain ⟨k,route,found,bound⟩ := linked.source d present
    refine ⟨k,route,?_,bound⟩
    rcases routes k with same | ⟨absent,_⟩
    · rwa [same]
    · rw [absent] at found
      cases found

theorem startDelivery_mirrored {db next : Queue} (linked : Linked db) (mirrored : Mirrored db)
    {delivery owner timestamp : String}
    (ok : db.startDelivery delivery owner timestamp = .ok ((),next)) : Mirrored next ∧ Linked next := by
  obtain ⟨⟨row,found,leased,_⟩,rfl⟩ := startDelivery_effect ok
  refine ⟨?_,?_,?_⟩
  · intro k route there d bound r present
    simp only [Table.get_update] at present
    obtain ⟨old,before,rfl⟩ := Option.map_eq_some_iff.mp present
    rw [mirrored k route there d bound old before]
    split
    next here =>
      have own : old.deliveryId = d := (Table.get_eq_some.mp before).2
      rw [← here,own,before] at found
      cases Option.some.inj (Option.mem_def.mp found)
      rw [leased]
      rfl
    next => rfl
  · intro k route there d bound
    simp only [Table.get_update]
    simpa using linked.target k route there d bound
  · intro d present
    simp only [Table.get_update] at present
    exact linked.source d (by simpa using present)

theorem DeliveryOutcome.targets_mirror (outcome : DeliveryOutcome) :
    outcome.targets.2 = outcome.targets.1.mirror := by
  cases outcome <;> rfl

/-- The arguments with which `lease_delivery` does not raise. -/
def leaseAccepts (owner : String) (instant : Instant) (leaseSeconds maxAttempts : Int) : Prop :=
  ¬ (owner = "" ∨ leaseSeconds ≤ 0 ∨ maxAttempts ≤ 0) ∧ instant.later leaseSeconds ≠ none

theorem leaseDelivery_error {db : Queue} {owner : String} {instant : Instant}
    {leaseSeconds maxAttempts : Int} {e : StoreError}
    (failed : db.leaseDelivery owner instant leaseSeconds maxAttempts = .error e) :
    ¬ leaseAccepts owner instant leaseSeconds maxAttempts := by
  rintro ⟨limits,inside⟩
  obtain ⟨expiry,later⟩ := Option.ne_none_iff_exists'.mp inside
  simp only [leaseDelivery,require,limits,not_false_eq_true,if_true,later,fetch,bind,Except.bind]
    at failed
  split at failed <;> cases failed

theorem leaseDelivery_accepts {db next : Queue} {owner : String} {instant : Instant}
    {leaseSeconds maxAttempts : Int} {found : Option Delivery}
    (ok : db.leaseDelivery owner instant leaseSeconds maxAttempts = .ok (found,next)) :
    leaseAccepts owner instant leaseSeconds maxAttempts := by
  obtain ⟨limits,_,later,_⟩ := leaseDelivery_effect ok
  exact ⟨limits,by simp [later]⟩

end Queue

/-- The steps that keep routes and deliveries together. -/
def QueueOp.keepsRoutes (db : Queue) : QueueOp → Prop
  | .leaseDelivery owner instant leaseSeconds maxAttempts =>
    Queue.leaseAccepts owner instant leaseSeconds maxAttempts →
      Queue.ReclaimsFirst instant.isoText maxAttempts db
  | _ => True

namespace Queue

theorem body_mirrored {db next : Queue} {op : QueueOp} (linked : Linked db) (mirrored : Mirrored db)
    (ok : db.body op = .ok ((),next)) : (Mirrored next ↔ op.keepsRoutes db) ∧ Linked next := by
  have kept (both : Mirrored next ∧ Linked next) : (Mirrored next ↔ True) ∧ Linked next :=
    ⟨iff_of_true both.1 trivial,both.2⟩
  cases op with
  | checkpoint =>
    have quiet : Quiet db next := by
      cases ok
      exact ⟨rfl,fun _ => .inl rfl⟩
    exact kept (quiet.mirrored linked mirrored)
  | beginSnapshot =>
    obtain ⟨_,ok⟩ := discard_ok.mp ok
    exact kept ((beginSnapshot_quiet ok).mirrored linked mirrored)
  | stageObservation =>
    obtain ⟨_,ok⟩ := discard_ok.mp ok
    exact kept ((stageObservation_quiet ok).mirrored linked mirrored)
  | finishSnapshot =>
    obtain ⟨_,ok⟩ := discard_ok.mp ok
    exact kept ((finishSnapshot_quiet ok).mirrored linked mirrored)
  | finishEventRouting => exact kept ((finishEventRouting_quiet ok).mirrored linked mirrored)
  | addRoute => exact kept ((addRoute_quiet ok).mirrored linked mirrored)
  | enqueueDelivery =>
    obtain ⟨_,ok⟩ := discard_ok.mp ok
    exact kept (enqueueDelivery_mirrored linked mirrored ok)
  | leaseDelivery =>
    obtain ⟨_,ok⟩ := discard_ok.mp ok
    have accepts := leaseDelivery_accepts ok
    refine ⟨?_,?_⟩
    · rw [leaseDelivery_mirrored linked mirrored ok]
      exact ⟨fun first _ => first,fun first => first accepts⟩
    · obtain ⟨_,⟨_,_,rfl⟩ | ⟨row,expiry,_,rfl,_⟩⟩ := leaseDelivery_ok ok
      · exact swept_linked linked _ _
      · exact setDeliveries_linked (swept_linked linked _ _) _ _ _
  | startDelivery => exact kept (startDelivery_mirrored linked mirrored ok)
  | finishDelivery =>
    obtain ⟨_,_,_,rfl⟩ := finishDelivery_effect ok
    refine kept ⟨?_,setDeliveries_linked linked _ _ _⟩
    rw [DeliveryOutcome.targets_mirror]
    exact setDeliveries_mirrored mirrored _ _ _ (fun _ => rfl)
  | releaseBudgetHold =>
    obtain ⟨_,rfl⟩ := releaseBudgetHold_effect ok
    exact kept ⟨setDeliveries_mirrored mirrored _ .retryWait _ (by intro; rfl),
      setDeliveries_linked linked _ _ _⟩
  | forceDeliveryUncertain =>
    obtain ⟨_,rfl⟩ := forceDeliveryUncertain_effect ok
    exact kept ⟨setDeliveries_mirrored mirrored _ .uncertain _ (by intro; rfl),
      setDeliveries_linked linked _ _ _⟩

theorem retryLeasedDelivery_mirrored {db next : Queue} (linked : Linked db) (mirrored : Mirrored db)
    {delivery eligibleAt error : String}
    (ok : db.retryLeasedDelivery delivery eligibleAt error = .ok next) : Mirrored next ∧ Linked next := by
  obtain ⟨_,rfl⟩ := retryLeasedDelivery_effect ok
  exact ⟨setDeliveries_mirrored mirrored _ .retryWait _ (by intro; rfl),setDeliveries_linked linked _ _ _⟩

end Queue

/-- A lease step takes back no lease, or only one that it grants again. -/
def Op.keepsRoutes (db : Store) : Op → Prop
  | .queue op => op.keepsRoutes db.queue
  | _ => True

namespace Store

theorem step_mirrored (db : Store) (op : Op) (linked : db.queue.Linked) (mirrored : db.queue.Mirrored) :
    ((db.step op).queue.Mirrored ↔ op.keepsRoutes db) ∧ (db.step op).queue.Linked := by
  have other (away : ∀ q, op ≠ .queue q) : op.keepsRoutes db := by
    cases op with
    | queue q => exact absurd rfl (away q)
    | _ => trivial
  have effect := db.step_queue op
  generalize (db.step op).queue = after at effect ⊢
  cases effect with
  | unchanged away => exact ⟨iff_of_true mirrored (other away),linked⟩
  | failed q e failed =>
    refine ⟨iff_of_true mirrored ?_,linked⟩
    cases q with
    | leaseDelivery owner instant seconds attempts =>
      intro accepts
      cases result : db.queue.leaseDelivery owner instant seconds attempts with
      | error e => exact absurd accepts (Queue.leaseDelivery_error result)
      | ok value => simp [Queue.body,result,discard,Except.map] at failed
    | _ => trivial
  | committed q next ok => exact Queue.body_mirrored linked mirrored ok
  | retried delivery eligibleAt error next away ok =>
    obtain ⟨kept,joined⟩ := Queue.retryLeasedDelivery_mirrored linked mirrored ok
    exact ⟨iff_of_true kept (other away),joined⟩

theorem empty_linked : empty.queue.Linked := by
  constructor
  · intro key route found
    cases found
  · intro d present
    exact absurd rfl present

/-- Every state of a run is mirrored exactly when no lease step takes back a lease
that it does not grant again. -/
theorem mirrored_run_iff (ops : List Op) :
    (∀ t ∈ trace step empty ops, t.after.queue.Mirrored) ↔
      Along step (fun db op => op.keepsRoutes db) empty ops := by
  refine @promise_iff_along _ _ step (fun s => s.queue.Linked ∧ s.queue.Mirrored) (fun _ => True)
    (fun t => t.after.queue.Mirrored) (fun db op => op.keepsRoutes db) ?_ empty ⟨empty_linked,?_⟩ ops (fun _ _ => trivial)
  · rintro s op ⟨linked,mirrored⟩ _
    obtain ⟨exact_,joined⟩ := s.step_mirrored op linked mirrored
    exact ⟨exact_,fun keeps => ⟨joined,exact_.mpr keeps⟩⟩
  · intro key route found
    cases found

/-- Two leases expire together; the next call grants only one of them again. -/
def twoExpire : List Op :=
  intake ⟨0,Instant.zero_bounded⟩ ++
    [.queue (.leaseDelivery "host" ⟨0,Instant.zero_bounded⟩ 10 3),
      .queue (.leaseDelivery "host" ⟨0,Instant.zero_bounded⟩ 10 3),
      .queue (.leaseDelivery "host" ⟨20000000,by decide⟩ 10 3)]

theorem twoExpire_unmirrored : ¬ (run step empty twoExpire).queue.Mirrored := by
  have stale : ∃ route ∈ (run step empty twoExpire).queue.routes.get ("event-2","po"),
      ∃ row ∈ (run step empty twoExpire).queue.deliveries.get "delivery-2",
        route.deliveryId = some "delivery-2" ∧ row.state = .retryWait ∧ route.state = .leased := by
    decide
  obtain ⟨route,found,row,present,bound,waiting,leased⟩ := stale
  intro mirrored
  have same := mirrored _ route found _ bound row present
  rw [waiting,leased] at same
  cases same

end Store
end SjgControl

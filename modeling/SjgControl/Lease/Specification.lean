import SjgControl.Lease
import SjgControl.Route

/-! What one call of `lease_delivery` makes of every delivery in the store. The four phases
read what the earlier ones wrote, so a row's fate is settled by the composite `sweepRow`. -/
namespace SjgControl
open Relational

namespace Delivery

/-- Its lease ran out while it was being worked on. -/
def lost (timestamp : String) (r : Delivery) : Prop := r.state = .running ∧ Queue.leaseExpired timestamp r

/-- Queued or waiting for a retry, counting a lease that ran out before the work began. -/
def candidate (timestamp : String) (r : Delivery) : Prop :=
  r.state.leasable ∨ r.state = .leased ∧ Queue.leaseExpired timestamp r

end Delivery

namespace LeaseCall

def timestamp (c : LeaseCall) : String := c.now.isoText

/-- `next` and `result` are what the call may make of `db`. -/
structure Specified (c : LeaseCall) (expiry : Instant) (db next : Queue) (result : Option Delivery) : Prop where
  keys : next.deliveries.rows.map Delivery.deliveryId = db.deliveries.rows.map Delivery.deliveryId
  lost : ∀ r ∈ db.deliveries.rows, r.lost c.timestamp →
    next.deliveries.get r.deliveryId = some {r with
      state := .uncertain
      lastError := some "running lease expired"
      leaseOwner := none
      leaseUntil := none} ∧
    ∀ route ∈ next.routes.rows, route.deliveryId = some r.deliveryId → route.state = .manualReview
  spent : ∀ r ∈ db.deliveries.rows, r.candidate c.timestamp → c.maxAttempts ≤ r.attempt →
    next.deliveries.get r.deliveryId = some {Queue.reclaimRow c.timestamp r with
      state := .deadLetter
      lastError := some "retry ceiling reached"} ∧
    ∀ route ∈ next.routes.rows, route.deliveryId = some r.deliveryId → route.state = .deadLetter
  nothing : result = none ↔ ∀ r ∈ db.deliveries.rows, ¬ Queue.competes c.timestamp c.maxAttempts r
  leased : ∀ row, result = some row → ∃ r ∈ db.deliveries.rows, Queue.competes c.timestamp c.maxAttempts r ∧
    (∀ other ∈ db.deliveries.rows, Queue.competes c.timestamp c.maxAttempts other → Queue.rank r ≤ Queue.rank other) ∧
    row = {Queue.reclaimRow c.timestamp r with
      state := .leased
      attempt := r.attempt + 1
      leaseOwner := some c.owner
      leaseUntil := some expiry.isoText} ∧
    next.deliveries.get r.deliveryId = some row ∧
    ∀ route ∈ next.routes.rows, route.deliveryId = some r.deliveryId → route.state = .leased
  waiting : ∀ r ∈ db.deliveries.rows, r.candidate c.timestamp → r.attempt < c.maxAttempts →
    result.map Delivery.deliveryId ≠ some r.deliveryId →
    next.deliveries.get r.deliveryId = some (Queue.reclaimRow c.timestamp r)
  untouched : ∀ r ∈ db.deliveries.rows, ¬ r.lost c.timestamp → ¬ r.candidate c.timestamp →
    next.deliveries.get r.deliveryId = some r

end LeaseCall

namespace Queue
variable {c : LeaseCall} {db : Queue} {row : Delivery} {T : String} {M : Int}

/-! The fate of one row. -/

theorem quarantineRow_candidate (candidate : row.candidate T) : quarantineRow T row = row := by
  apply if_neg
  rintro ⟨running,_⟩
  rcases candidate with (queued | retry) | ⟨leased,_⟩
  · rw [queued] at running
    cases running
  · rw [retry] at running
    cases running
  · rw [leased] at running
    cases running

theorem sweepRow_lost (lost : row.lost T) : sweepRow T M row = {row with
    state := .uncertain
    lastError := some "running lease expired"
    leaseOwner := none
    leaseUntil := none} := by
  have moved : quarantineRow T row = {row with
      state := .uncertain
      lastError := some "running lease expired"
      leaseOwner := none
      leaseUntil := none} := if_pos lost
  rw [sweepRow,moved]
  simp [reclaimRow,buryRow,DeliveryState.leasable]

theorem reclaimRow_leasable (candidate : row.candidate T) : (reclaimRow T row).state.leasable := by
  unfold reclaimRow
  split
  next => exact .inr rfl
  next kept => exact candidate.resolve_right kept

theorem reclaimRow_attempt : (reclaimRow T row).attempt = row.attempt := by
  unfold reclaimRow
  split <;> rfl

theorem reclaimRow_id : (reclaimRow T row).deliveryId = row.deliveryId := by
  unfold reclaimRow
  split <;> rfl

theorem sweepRow_spent (candidate : row.candidate T) (spent : M ≤ row.attempt) : sweepRow T M row =
    {reclaimRow T row with
      state := .deadLetter
      lastError := some "retry ceiling reached"} := by
  rw [sweepRow,quarantineRow_candidate candidate,buryRow,if_pos]
  refine ⟨reclaimRow_leasable candidate,?_⟩
  rwa [reclaimRow_attempt]

theorem sweepRow_waits (candidate : row.candidate T) (below : row.attempt < M) :
    sweepRow T M row = reclaimRow T row := by
  rw [sweepRow,quarantineRow_candidate candidate,buryRow,if_neg]
  rintro ⟨_,spent⟩
  rw [reclaimRow_attempt] at spent
  omega

theorem sweepRow_untouched (held : ¬ row.lost T) (closed : ¬ row.candidate T) : sweepRow T M row = row := by
  have kept : quarantineRow T row = row := if_neg held
  have own : reclaimRow T row = row := if_neg (fun both => closed (.inr both))
  rw [sweepRow,kept,own,buryRow,if_neg]
  rintro ⟨leasable,_⟩
  exact closed (.inl leasable)

theorem nextEligible_none : (db.swept c.timestamp c.maxAttempts).nextEligible c.timestamp = none ↔
    ∀ r ∈ db.deliveries.rows, ¬ competes c.timestamp c.maxAttempts r := by
  constructor
  · intro none_ r member competing
    have listed := mem_eligible.mpr ⟨r,member,rfl,competing⟩
    unfold nextEligible at none_
    rw [earliest_none none_] at listed
    cases listed
  · intro idle
    cases found : (db.swept c.timestamp c.maxAttempts).nextEligible c.timestamp with
    | none => rfl
    | some row =>
      obtain ⟨r,member,_,competing⟩ := mem_eligible.mp (earliest_mem found)
      exact absurd competing (idle r member)

/-- The selected row is that of a competitor, and the least of them. -/
theorem nextEligible_least
    (found : (db.swept c.timestamp c.maxAttempts).nextEligible c.timestamp = some row) :
    ∃ r ∈ db.deliveries.rows, competes c.timestamp c.maxAttempts r ∧ row = reclaimRow c.timestamp r ∧
      ∀ other ∈ db.deliveries.rows, competes c.timestamp c.maxAttempts other → rank r ≤ rank other := by
  obtain ⟨r,member,rfl,competing⟩ := mem_eligible.mp (earliest_mem found)
  refine ⟨r,member,competing,sweepRow_waits competing.1.1 competing.1.2,?_⟩
  intro other inside also
  have least := earliest_least found (mem_eligible.mpr ⟨other,inside,rfl,also⟩)
  rwa [rank_sweepRow,rank_sweepRow] at least

/-! The routes. Each phase writes the routes of the deliveries it moved. -/

theorem setRoutes_mem {routes : Table RouteTarget} {deliveries : List String} {state : RouteState}
    {route : RouteTarget} (member : route ∈ (setRoutes routes deliveries state).rows) :
    ∃ old ∈ routes.rows, route.deliveryId = old.deliveryId ∧
      (∀ d, route.deliveryId = some d →
        d ∈ deliveries ∧ route.state = state ∨ d ∉ deliveries ∧ route.state = old.state) := by
  obtain ⟨old,present,⟨⟨d,own,inside⟩,rfl⟩ | ⟨outside,rfl⟩⟩ := Table.mem_update_cases member
  · refine ⟨old,present,rfl,?_⟩
    intro other same
    rw [Option.mem_def.mp own] at same
    exact .inl ⟨Option.some.inj same ▸ inside,rfl⟩
  · refine ⟨route,present,rfl,?_⟩
    intro d own
    exact .inr ⟨fun inside => outside ⟨d,own,inside⟩,rfl⟩

theorem mem_ids_select {deliveries : Table Delivery} {p : Delivery → Prop} [DecidablePred p]
    (member : row ∈ deliveries.rows) : row.deliveryId ∈ ids (deliveries.select p) ↔ p row :=
  Table.key_mem_select member

theorem reclaimed_rows : ((db.quarantineExpired T).reclaimExpired T).deliveries.rows =
    db.deliveries.rows.map (reclaimRow T ∘ quarantineRow T) := by
  apply Table.rows_of_get
  · simp only [quarantineExpired,reclaimExpired,setDeliveries,Table.update_keys]
  · intro k
    rw [get_reclaimExpired,get_quarantineExpired,Option.map_map]

theorem swept_route {route : RouteTarget} (member : row ∈ db.deliveries.rows)
    (inside : route ∈ (db.swept T M).routes.rows) (own : route.deliveryId = some row.deliveryId) :
    (row.lost T → route.state = .manualReview) ∧
      (row.candidate T → M ≤ row.attempt → route.state = .deadLetter) := by
  obtain ⟨middle,earlier,same,buried⟩ := setRoutes_mem inside
  obtain ⟨old,_,_,quarantined⟩ := setRoutes_mem earlier
  have named : (reclaimRow T (quarantineRow T row)).deliveryId = row.deliveryId := by
    unfold reclaimRow quarantineRow
    split <;> split <;> rfl
  have present : reclaimRow T (quarantineRow T row) ∈
      ((db.quarantineExpired T).reclaimExpired T).deliveries.rows := by
    rw [reclaimed_rows]
    exact List.mem_map_of_mem member
  have second := buried _ own
  rw [← named,mem_ids_select present] at second
  constructor
  · intro lost
    have moved : quarantineRow T row = {row with
        state := .uncertain
        lastError := some "running lease expired"
        leaseOwner := none
        leaseUntil := none} := if_pos lost
    have first := quarantined _ (same.symm.trans own)
    rw [mem_ids_select member] at first
    rcases second with ⟨⟨leasable,_⟩,_⟩ | ⟨_,kept⟩
    · rw [moved] at leasable
      simp [reclaimRow,DeliveryState.leasable] at leasable
    · rcases first with ⟨_,state⟩ | ⟨held,_⟩
      · exact kept.trans state
      · exact absurd lost held
  · intro candidate spent
    rcases second with ⟨_,state⟩ | ⟨kept,_⟩
    · exact state
    · rw [quarantineRow_candidate candidate] at kept
      exact absurd ⟨reclaimRow_leasable candidate,reclaimRow_attempt.symm ▸ spent⟩ kept

/-! The call. -/

theorem lost_not_candidate (lost : row.lost T) : ¬ row.candidate T := by
  intro candidate
  have same := quarantineRow_candidate candidate
  have moved : quarantineRow T row = {row with
      state := .uncertain
      lastError := some "running lease expired"
      leaseOwner := none
      leaseUntil := none} := if_pos lost
  have states := congrArg Delivery.state (moved.symm.trans same)
  rw [lost.1] at states
  cases states

theorem swept_found (member : row ∈ db.deliveries.rows) :
    (db.swept T M).deliveries.get row.deliveryId = some (sweepRow T M row) := by
  have found : db.deliveries.get row.deliveryId = some row := Table.get_key member
  rw [get_swept,found,Option.map_some]

theorem leaseTo_found {chosen : Delivery} (owner leaseUntil : String) (member : row ∈ db.deliveries.rows)
    (apart : row.deliveryId ≠ chosen.deliveryId) :
    ((db.swept T M).leaseTo chosen owner leaseUntil).deliveries.get row.deliveryId = some (sweepRow T M row) := by
  rw [get_leaseTo,swept_found member,Option.map_some,if_neg]
  rwa [sweepRow_id]

theorem leaseTo_route {chosen : Delivery} {owner leaseUntil : String} {route : RouteTarget}
    (inside : route ∈ ((db.swept T M).leaseTo chosen owner leaseUntil).routes.rows)
    (own : route.deliveryId = some row.deliveryId) (apart : row.deliveryId ≠ chosen.deliveryId) :
    ∃ old ∈ (db.swept T M).routes.rows, old.deliveryId = some row.deliveryId ∧ route.state = old.state := by
  obtain ⟨old,present,same,states⟩ := setRoutes_mem inside
  rcases states _ own with ⟨here,_⟩ | ⟨_,kept⟩
  · exact absurd (List.mem_singleton.mp here) apart
  · exact ⟨old,present,same.symm.trans own,kept⟩

theorem swept_specified (nothing : (db.swept c.timestamp c.maxAttempts).nextEligible c.timestamp = none)
    (expiry : Instant) : c.Specified expiry db (db.swept c.timestamp c.maxAttempts) none where
  keys := by
    rw [swept_rows,List.map_map]
    exact List.map_congr_left (fun r _ => sweepRow_id _ _ r)
  lost := by
    intro r member lost
    refine ⟨(swept_found member).trans (congrArg some (sweepRow_lost lost)),?_⟩
    intro route inside own
    exact (swept_route member inside own).1 lost
  spent := by
    intro r member candidate spent
    refine ⟨(swept_found member).trans (congrArg some (sweepRow_spent candidate spent)),?_⟩
    intro route inside own
    exact (swept_route member inside own).2 candidate spent
  nothing := iff_of_true rfl (nextEligible_none.mp nothing)
  leased := by simp
  waiting := by
    intro r member candidate below _
    exact (swept_found member).trans (congrArg some (sweepRow_waits candidate below))
  untouched := by
    intro r member held closed
    exact (swept_found member).trans (congrArg some (sweepRow_untouched held closed))

theorem leaseTo_specified {chosen : Delivery} {expiry : Instant}
    (found : (db.swept c.timestamp c.maxAttempts).nextEligible c.timestamp = some chosen) :
    c.Specified expiry db ((db.swept c.timestamp c.maxAttempts).leaseTo chosen c.owner expiry.isoText)
      (((db.swept c.timestamp c.maxAttempts).leaseTo chosen c.owner expiry.isoText).deliveries.get
        chosen.deliveryId) := by
  obtain ⟨r,member,contends,rfl,least⟩ := nextEligible_least found
  have named : (reclaimRow c.timestamp r).deliveryId = r.deliveryId := reclaimRow_id
  -- the other deliveries, told apart by what became of them
  have apart {other : Delivery} (inside : other ∈ db.deliveries.rows) (different : ¬ competes c.timestamp c.maxAttempts other) :
      other.deliveryId ≠ (reclaimRow c.timestamp r).deliveryId := by
    intro same
    rw [named] at same
    rw [Table.mem_unique inside member same] at different
    exact different contends
  have leased : ((db.swept c.timestamp c.maxAttempts).leaseTo (reclaimRow c.timestamp r) c.owner
      expiry.isoText).deliveries.get r.deliveryId = some {reclaimRow c.timestamp r with
        state := .leased
        attempt := r.attempt + 1
        leaseOwner := some c.owner
        leaseUntil := some expiry.isoText} := by
    rw [get_leaseTo,swept_found member,Option.map_some,sweepRow_waits contends.1.1 contends.1.2,if_pos rfl,
      leaseRow,reclaimRow_attempt]
  rw [named,leased]
  refine ⟨?_,?_,?_,?_,?_,?_,?_⟩
  · rw [leaseTo_rows,swept_rows,List.map_map,List.map_map]
    apply List.map_congr_left
    intro other _
    simp only [Function.comp]
    split <;> exact sweepRow_id _ _ other
  · intro other inside lost
    have away := apart inside (fun contends => lost_not_candidate lost contends.1.1)
    refine ⟨(leaseTo_found _ _ inside away).trans (congrArg some (sweepRow_lost lost)),?_⟩
    intro route present own
    obtain ⟨old,before,same,state⟩ := leaseTo_route present own away
    exact state.trans ((swept_route inside before same).1 lost)
  · intro other inside candidate spent
    have away := apart inside (fun contends => absurd contends.1.2 (not_lt.mpr spent))
    refine ⟨(leaseTo_found _ _ inside away).trans (congrArg some (sweepRow_spent candidate spent)),?_⟩
    intro route present own
    obtain ⟨old,before,same,state⟩ := leaseTo_route present own away
    exact state.trans ((swept_route inside before same).2 candidate spent)
  · exact iff_of_false (by simp) (fun none_ => none_ r member contends)
  · intro row result
    cases Option.some.inj result
    refine ⟨r,member,contends,least,rfl,leased,?_⟩
    intro route present own
    obtain ⟨old,_,_,states⟩ := setRoutes_mem present
    rcases states _ own with ⟨_,state⟩ | ⟨away,_⟩
    · exact state
    · rw [named,List.mem_singleton] at away
      exact absurd rfl away
  · intro other inside candidate below different
    have away : other.deliveryId ≠ (reclaimRow c.timestamp r).deliveryId := by
      intro same
      exact different (congrArg some same.symm)
    exact (leaseTo_found _ _ inside away).trans (congrArg some (sweepRow_waits candidate below))
  · intro other inside held closed
    have away := apart inside (fun contends => closed contends.1.1)
    exact (leaseTo_found _ _ inside away).trans (congrArg some (sweepRow_untouched held closed))

/-- A lease that ran out at the start of year 1, before its work began. -/
def lapsed : Queue :=
  {Queue.empty with
    deliveries := Table.empty.insertOrIgnore ⟨"delivery","key","builder",.leased,1,"0001-01-01T00:00:00Z",
      some "host",some "0001-01-01T00:00:00Z",none⟩}

def dawn : LeaseCall := ⟨"host",⟨0,Instant.zero_bounded⟩,60,3⟩

example : ((lapsed.lease dawn).result.toOption.join).map (fun r => (r.state,r.attempt,r.leaseUntil)) =
    some (.leased,2,some "0001-01-01T00:01:00Z") := by decide +kernel

end Queue
end SjgControl

import SjgControl.Headroom
import SjgControl.Lease.Specification
import SjgControl.Selection

/-! The deliveries that one tick leases: `lease_delivery` in a loop, one delivery for each
role. While nothing falls due in the meantime, the loop selects from the line of waiting
deliveries the first of each role, and puts back every further one that it meets. -/
namespace SjgControl
open Relational

/-- The readings of the clock in one round: by `lease_delivery`, and for the next try. -/
structure TickRound where
  now : Instant
  later : Instant

/-- `_retry_time`; in the last minute of the year 9999 the source raises an `OverflowError`. -/
def TickRound.retryTime (round : TickRound) : String := ((round.later.later 60).getD round.later).isoText

/-- The place of a delivery in the line, and the role it is for. -/
abbrev Ticket := String ×ₗ String ×ₗ String

def Ticket.role (t : Ticket) : String := (ofLex (ofLex t).2).2

def Delivery.ticket (r : Delivery) : Ticket := toLex (r.eligibleAt,toLex (r.deliveryId,r.role))

theorem Delivery.ticket_role (r : Delivery) : r.ticket.role = r.role := rfl

namespace Queue

instance (timestamp : String) (maxAttempts : Int) : DecidablePred (competes timestamp maxAttempts) := fun r =>
  inferInstanceAs (Decidable (((r.state.leasable ∨ r.state = .leased ∧ leaseExpired timestamp r) ∧
    r.attempt < maxAttempts) ∧ r.eligibleAt ≤ timestamp))

/-- The rounds of the loop, from those selected so far. -/
def leaseForTick (c : LeaseCall) (limit : Nat) :
    List TickRound → List Delivery → Queue → Outcome Queue StoreError (List Delivery)
  | [],selected,db => ⟨.ok selected,db⟩
  | round::rest,selected,db =>
    let call := db.lease {c with now := round.now}
    match call.result with
    | .error e => ⟨.error e,call.state⟩
    | .ok none => ⟨.ok selected,call.state⟩
    | .ok (some leased) =>
      if leased.role ∈ selected.map Delivery.role then
        let finish := atomically call.state (call.state.finishDelivery leased.deliveryId c.owner .retry
          (some "role already selected for this tick") (some round.retryTime) round.later)
        match finish.result with
        | .error e => ⟨.error e,finish.state⟩
        | .ok _ => leaseForTick c limit rest selected finish.state
      else if limit ≤ selected.length + 1 then ⟨.ok (selected ++ [leased]),call.state⟩
      else leaseForTick c limit rest (selected ++ [leased]) call.state

/-- The deliveries that may be leased, in the order in which they are. -/
def line (db : Queue) (timestamp : String) (maxAttempts : Int) : List Ticket :=
  ((db.deliveries.select (competes timestamp maxAttempts)).map Delivery.ticket).insertionSort (· ≤ ·)

/-- A reading of the clock finds the same deliveries due and the same leases expired. -/
def Steady (reading timestamp : String) (r : Delivery) : Prop :=
  (r.eligibleAt ≤ reading ↔ r.eligibleAt ≤ timestamp) ∧ ∀ lease ∈ r.leaseUntil, lease ≤ reading ↔ lease ≤ timestamp

instance (reading timestamp : String) : DecidablePred (Steady reading timestamp) := fun r =>
  inferInstanceAs (Decidable ((r.eligibleAt ≤ reading ↔ r.eligibleAt ≤ timestamp) ∧
    ∀ lease ∈ r.leaseUntil, lease ≤ reading ↔ lease ≤ timestamp))

/-- The loop ends before anything falls due, and before its own leases and retries do. -/
structure Timely (c : LeaseCall) (timestamp : String) (rounds : List TickRound) (db : Queue) : Prop where
  steady : ∀ round ∈ rounds, ∀ r ∈ db.deliveries.rows, Steady round.now.isoText timestamp r
  leases : ∀ round ∈ rounds, ∃ expiry, round.now.later c.leaseSeconds = some expiry ∧ timestamp < expiry.isoText ∧
    ∀ other ∈ rounds, other.now.isoText < expiry.isoText
  retries : ∀ round ∈ rounds, timestamp < round.retryTime ∧ ∀ other ∈ rounds, other.now.isoText < round.retryTime

def returnedRow (retry : String) (r : Delivery) : Delivery :=
  {r with
    state := .retryWait
    attempt := r.attempt + 1
    eligibleAt := retry
    leaseOwner := none
    leaseUntil := none
    lastError := some "role already selected for this tick"}

variable {c : LeaseCall} {db next : Queue} {r chosen : Delivery} {T reading : String} {M : Int}

theorem leaseExpired_steady (steady : Steady reading T r) : leaseExpired reading r ↔ leaseExpired T r := by
  constructor
  · rintro ⟨lease,held,past⟩
    exact ⟨lease,held,(steady.2 lease held).mp past⟩
  · rintro ⟨lease,held,past⟩
    exact ⟨lease,held,(steady.2 lease held).mpr past⟩

theorem competes_steady (steady : Steady reading T r) : competes reading M r ↔ competes T M r := by
  unfold competes
  rw [leaseExpired_steady steady,steady.1]

theorem reclaimRow_steady (steady : Steady reading T r) : reclaimRow reading r = reclaimRow T r := by
  unfold reclaimRow
  simp only [leaseExpired_steady steady]

theorem sweepRow_steady (steady : Steady reading T r) : sweepRow reading M r = sweepRow T M r := by
  have quarantined : quarantineRow reading r = quarantineRow T r := by
    unfold quarantineRow
    simp only [leaseExpired_steady steady]
  have still : Steady reading T (quarantineRow T r) := by
    unfold quarantineRow
    split
    next => exact ⟨steady.1,by simp⟩
    next => exact steady
  rw [sweepRow,sweepRow,quarantined,reclaimRow_steady still]

theorem sweepRow_role : (sweepRow T M r).role = r.role := by
  unfold sweepRow buryRow reclaimRow quarantineRow
  split <;> split <;> split <;> rfl

theorem sweepRow_ticket : (sweepRow T M r).ticket = r.ticket := by
  simp only [Delivery.ticket,sweepRow_eligibleAt,sweepRow_id,sweepRow_role]

theorem sweepRow_leaseUntil : (sweepRow T M r).leaseUntil = r.leaseUntil ∨ (sweepRow T M r).leaseUntil = none := by
  unfold sweepRow buryRow reclaimRow quarantineRow
  split <;> split <;> split <;> first | exact .inl rfl | exact .inr rfl

theorem sweepRow_stays (steady : Steady reading T r) : Steady reading T (sweepRow T M r) := by
  refine ⟨by rw [sweepRow_eligibleAt]; exact steady.1,?_⟩
  intro lease held
  rcases @sweepRow_leaseUntil r T M with same | none_
  · exact steady.2 lease (same ▸ held)
  · rw [none_] at held
    cases held

theorem reclaimRow_twice : reclaimRow T (reclaimRow T r) = reclaimRow T r := by
  by_cases expired : r.state = .leased ∧ leaseExpired T r
  · have moved : reclaimRow T r = {r with
        state := .retryWait
        lastError := some "lease expired"
        leaseOwner := none
        leaseUntil := none} := if_pos expired
    rw [moved]
    exact if_neg (by simp)
  · have kept : reclaimRow T r = r := if_neg expired
    rw [kept,kept]

theorem sweepRow_twice : sweepRow T M (sweepRow T M r) = sweepRow T M r := by
  by_cases lost : r.lost T
  · rw [sweepRow_lost lost]
    exact sweepRow_untouched (by simp [Delivery.lost]) (by simp [Delivery.candidate,DeliveryState.leasable])
  · by_cases candidate : r.candidate T
    · by_cases spent : M ≤ r.attempt
      · rw [sweepRow_spent candidate spent]
        exact sweepRow_untouched (by simp [Delivery.lost]) (by simp [Delivery.candidate,DeliveryState.leasable])
      · rw [sweepRow_waits candidate (by omega),sweepRow_waits (.inl (reclaimRow_leasable candidate)),reclaimRow_twice]
        rw [reclaimRow_attempt]
        omega
    · rw [sweepRow_untouched lost candidate,sweepRow_untouched lost candidate]

theorem competes_sweepRow : competes T M (sweepRow T M r) ↔ competes T M r := by
  unfold competes
  rw [← sweepRow_leasable,sweepRow_twice,sweepRow_leasable,sweepRow_eligibleAt]

/-! The line behind the delivery that a round takes. -/

theorem insertionSort_next {first : Ticket} {tickets rest : List Ticket} (whole : tickets.Perm (first::rest))
    (least : ∀ t ∈ rest, first ≤ t) : tickets.insertionSort (· ≤ ·) = first::rest.insertionSort (· ≤ ·) := by
  have reordered : (tickets.insertionSort (· ≤ ·)).Perm (first::rest.insertionSort (· ≤ ·)) :=
    (List.perm_insertionSort _ _).trans (whole.trans ((List.perm_insertionSort _ rest).symm.cons first))
  refine reordered.eq_of_pairwise' (List.pairwise_insertionSort _ _) ?_
  refine List.pairwise_cons.mpr ⟨?_,List.pairwise_insertionSort _ _⟩
  intro t member
  exact least t ((List.mem_insertionSort _).mp member)

/-- A round that takes the first competitor out of the race and sweeps the others. -/
structure Takes (T : String) (M : Int) (chosen : Delivery) (f : Delivery → Delivery) (db next : Queue) : Prop where
  rows : next.deliveries.rows = db.deliveries.rows.map (fun r => if r.deliveryId = chosen.deliveryId then f r else sweepRow T M r)
  member : chosen ∈ db.deliveries.rows
  contends : competes T M chosen
  least : ∀ other ∈ db.deliveries.rows, competes T M other → rank chosen ≤ rank other
  named : ∀ r, (f r).deliveryId = r.deliveryId
  out : ¬ competes T M (f chosen)

theorem ticket_le (member : r ∈ db.deliveries.rows) (inside : chosen ∈ db.deliveries.rows) (before : rank chosen ≤ rank r) :
    chosen.ticket ≤ r.ticket := by
  have order : chosen.ticket < r.ticket ↔ chosen.eligibleAt < r.eligibleAt ∨ chosen.eligibleAt = r.eligibleAt ∧
      (chosen.deliveryId < r.deliveryId ∨ chosen.deliveryId = r.deliveryId ∧ chosen.role < r.role) := by
    rw [Delivery.ticket,Delivery.ticket,Prod.Lex.toLex_lt_toLex,Prod.Lex.toLex_lt_toLex]
  rcases before.lt_or_eq with less | same
  · rcases precedes_iff.mpr less with first | ⟨equal,second⟩
    · exact (order.mpr (.inl first)).le
    · exact (order.mpr (.inr ⟨equal,.inl second⟩)).le
  · have ids : chosen.deliveryId = r.deliveryId := congrArg (fun rank : String ×ₗ String => (ofLex rank).2) same
    rw [Table.mem_unique inside member ids]

theorem Takes.perm {f : Delivery → Delivery} (takes : Takes T M chosen f db next) :
    (db.deliveries.select (competes T M)).Perm (chosen::db.deliveries.rows.filter (fun r => competes T M r ∧
      r.deliveryId ≠ chosen.deliveryId)) := by
  have single : db.deliveries.rows.Nodup := db.deliveries.distinct.of_map _
  have behind : chosen ∉ db.deliveries.rows.filter (fun r => competes T M r ∧ r.deliveryId ≠ chosen.deliveryId) := by
    simp
  refine (List.perm_ext_iff_of_nodup (single.filter _) (List.nodup_cons.mpr ⟨behind,single.filter _⟩)).mpr ?_
  intro r
  rw [List.mem_filter,decide_eq_true_eq,List.mem_cons,List.mem_filter,decide_eq_true_eq]
  constructor
  · rintro ⟨member,contends⟩
    by_cases own : r.deliveryId = chosen.deliveryId
    · exact .inl (Table.mem_unique member takes.member own)
    · exact .inr ⟨member,contends,own⟩
  · rintro (rfl | ⟨member,contends,_⟩)
    · exact ⟨takes.member,takes.contends⟩
    · exact ⟨member,contends⟩

theorem line_next {f : Delivery → Delivery} (takes : Takes T M chosen f db next) :
    db.line T M = chosen.ticket::next.line T M := by
  have left : (next.deliveries.select (competes T M)).map Delivery.ticket =
      (db.deliveries.rows.filter (fun r => competes T M r ∧ r.deliveryId ≠ chosen.deliveryId)).map Delivery.ticket := by
    rw [Table.select,takes.rows,List.filter_map,List.map_map]
    have same : db.deliveries.rows.filter ((fun r => decide (competes T M r)) ∘ fun r =>
        if r.deliveryId = chosen.deliveryId then f r else sweepRow T M r) =
        db.deliveries.rows.filter (fun r => competes T M r ∧ r.deliveryId ≠ chosen.deliveryId) := by
      apply List.filter_congr
      intro r member
      rw [Function.comp,decide_eq_decide]
      by_cases own : r.deliveryId = chosen.deliveryId
      · rw [if_pos own,Table.mem_unique member takes.member own]
        exact iff_of_false takes.out (fun both => both.2 rfl)
      · rw [if_neg own,competes_sweepRow]
        exact (and_iff_left own).symm
    rw [same]
    apply List.map_congr_left
    intro r member
    have other := (of_decide_eq_true (List.mem_filter.mp member).2).2
    rw [Function.comp,if_neg other,sweepRow_ticket]
  unfold line
  rw [left]
  apply insertionSort_next (takes.perm.map Delivery.ticket)
  intro t listed
  obtain ⟨r,inside,rfl⟩ := List.mem_map.mp listed
  obtain ⟨member,both⟩ := List.mem_filter.mp inside
  exact ticket_le member takes.member (takes.least r member (of_decide_eq_true both).1)

theorem line_nil (none_ : ∀ r ∈ db.deliveries.rows, ¬ competes T M r) : db.line T M = [] := by
  have empty : db.deliveries.select (competes T M) = [] := by
    apply List.filter_eq_nil_iff.mpr
    intro r member
    simpa using none_ r member
  rw [line,empty]
  rfl

/-! One round. -/

theorem round_cases (valid : c.valid) {round : TickRound} {rounds : List TickRound} (timely : Timely c T (round::rounds) db) :
    (∀ r ∈ db.deliveries.rows, ¬ competes T c.maxAttempts r) ∧
        (db.lease {c with now := round.now}).result = .ok none ∧
        (db.lease {c with now := round.now}).state.deliveries.rows = db.deliveries.rows.map (sweepRow T c.maxAttempts) ∨
      ∃ chosen expiry, round.now.later c.leaseSeconds = some expiry ∧
        Takes T c.maxAttempts chosen (fun r => leaseRow c.owner expiry.isoText (sweepRow T c.maxAttempts r)) db
          (db.lease {c with now := round.now}).state ∧
        (db.lease {c with now := round.now}).result =
          .ok (some (leaseRow c.owner expiry.isoText (sweepRow T c.maxAttempts chosen))) := by
  have steady := timely.steady round List.mem_cons_self
  obtain ⟨expiry,later,unexpired,_⟩ := timely.leases round List.mem_cons_self
  have sweeps : (db.swept round.now.isoText c.maxAttempts).deliveries.rows =
      db.deliveries.rows.map (sweepRow T c.maxAttempts) := by
    rw [swept_rows]
    exact List.map_congr_left (fun r member => sweepRow_steady (steady r member))
  have valid' : LeaseCall.valid {c with now := round.now} := valid
  rcases @lease_cases {c with now := round.now} db valid' with ⟨overflow,_⟩ | ⟨expiry',later',⟨nothing,call⟩ | ⟨row,found,call⟩⟩
  · cases later.symm.trans overflow
  · refine .inl ⟨?_,by rw [call],by rw [call]; exact sweeps⟩
    intro r member contends
    have none_ := (@nextEligible_none {c with now := round.now} db).mp nothing r member
    exact none_ ((competes_steady (steady r member)).mpr contends)
  · obtain ⟨chosen,member,contends,own,least⟩ := @nextEligible_least {c with now := round.now} db row found
    have named : row.deliveryId = chosen.deliveryId := by rw [own]; exact reclaimRow_id
    cases Option.some.inj (later.symm.trans later')
    have rows : (db.lease {c with now := round.now}).state.deliveries.rows = db.deliveries.rows.map (fun r =>
        if r.deliveryId = chosen.deliveryId then leaseRow c.owner expiry.isoText (sweepRow T c.maxAttempts r)
        else sweepRow T c.maxAttempts r) := by
      rw [call]
      dsimp only
      rw [leaseTo_rows,sweeps,List.map_map]
      apply List.map_congr_left
      intro r _
      rw [Function.comp,sweepRow_id,named]
    refine .inr ⟨chosen,expiry,later,⟨rows,member,(competes_steady (steady chosen member)).mp contends,?_,?_,?_⟩,?_⟩
    · intro other inside also
      exact least other inside ((competes_steady (steady other inside)).mpr also)
    · exact fun r => sweepRow_id _ _ r
    · rintro ⟨⟨open_ | ⟨_,lease,held,past⟩,_⟩,_⟩
      · simp [leaseRow,DeliveryState.leasable] at open_
      · cases held
        exact absurd past (not_le.mpr unexpired)
    · have before : db.deliveries.get chosen.deliveryId = some chosen := Table.get_key member
      rw [call]
      dsimp only
      rw [get_leaseTo,named,get_swept,before,Option.map_some,Option.map_some,sweepRow_steady (steady chosen member),
        sweepRow_id,if_pos rfl]

/-- What the later rounds find is as timely as what the earlier ones did. -/
theorem timely_next {f : Delivery → Delivery} {round : TickRound} {rounds : List TickRound}
    (timely : Timely c T (round::rounds) db) (takes : Takes T M chosen f db next)
    (still : ∀ other ∈ rounds, Steady other.now.isoText T (f chosen)) : Timely c T rounds next where
  steady other member r inside := by
    rw [takes.rows] at inside
    obtain ⟨old,present,rfl⟩ := List.mem_map.mp inside
    by_cases own : old.deliveryId = chosen.deliveryId
    · rw [if_pos own,Table.mem_unique present takes.member own]
      exact still other member
    · rw [if_neg own]
      exact sweepRow_stays (timely.steady other (List.mem_cons_of_mem _ member) old present)
  leases other member := by
    obtain ⟨expiry,later,future,beyond⟩ := timely.leases other (List.mem_cons_of_mem _ member)
    exact ⟨expiry,later,future,fun third inside => beyond third (List.mem_cons_of_mem _ inside)⟩
  retries other member := by
    obtain ⟨future,beyond⟩ := timely.retries other (List.mem_cons_of_mem _ member)
    exact ⟨future,fun third inside => beyond third (List.mem_cons_of_mem _ inside)⟩

theorem put_back {owner expiry retry : String} {now : Instant}
    (takes : Takes T M chosen (fun r => leaseRow owner expiry (sweepRow T M r)) db next) (future : T < retry) :
    ∃ last, next.finishDelivery chosen.deliveryId owner .retry (some "role already selected for this tick") (some retry) now =
        .ok ((),last) ∧ Takes T M chosen (fun r => returnedRow retry (sweepRow T M r)) db last := by
  have some_ : retry ≠ "" := by
    rintro rfl
    exact List.not_lt_nil _ (String.lt_iff_toList_lt.mp future)
  have found : next.deliveries.get chosen.deliveryId = some (leaseRow owner expiry (sweepRow T M chosen)) := by
    refine Table.get_eq_some.mpr ⟨?_,takes.named chosen⟩
    rw [takes.rows]
    exact List.mem_map.mpr ⟨chosen,takes.member,if_pos rfl⟩
  have filtered : (some (leaseRow owner expiry (sweepRow T M chosen))).filter
      (fun r => r.state.held ∧ r.leaseOwner = some owner) = some (leaseRow owner expiry (sweepRow T M chosen)) := by
    simp [leaseRow,DeliveryState.held]
  unfold finishDelivery
  rw [found]
  refine ⟨_,fetch_bind_ok.mpr ⟨_,filtered,require_bind_ok.mpr ⟨by simp [leaseRow,DeliveryOutcome.allowed],rfl⟩⟩,?_⟩
  refine ⟨?_,takes.member,takes.contends,takes.least,fun r => sweepRow_id _ _ r,?_⟩
  · simp only [setDeliveries,Table.update,takes.rows,List.map_map]
    apply List.map_congr_left
    intro r _
    by_cases own : r.deliveryId = chosen.deliveryId
    · simp [own,leaseRow,returnedRow,sweepRow_id,some_,Option.filter,DeliveryOutcome.targets]
    · simp [own,sweepRow_id]
  · rintro ⟨_,due⟩
    exact absurd due (not_le.mpr future)

/-! The whole loop. -/

/-- What becomes of a delivery, by what the selection takes of the line. -/
structure Fate (c : LeaseCall) (T : String) (rounds : List TickRound) (taken : Selection.Taken Ticket) (selected : List Delivery)
    (last : Queue) (r : Delivery) : Prop where
  leased : competes T c.maxAttempts r → r.ticket ∈ taken.kept →
    ∃ round ∈ rounds, ∃ expiry, round.now.later c.leaseSeconds = some expiry ∧
      last.deliveries.get r.deliveryId = some (leaseRow c.owner expiry.isoText (reclaimRow T r)) ∧
      leaseRow c.owner expiry.isoText (reclaimRow T r) ∈ selected
  returned : competes T c.maxAttempts r → r.ticket ∈ taken.passed →
    ∃ round ∈ rounds, last.deliveries.get r.deliveryId = some (returnedRow round.retryTime (reclaimRow T r)) ∨
      last.deliveries.get r.deliveryId = some (sweepRow T c.maxAttempts (returnedRow round.retryTime (reclaimRow T r)))
  left : ¬ (competes T c.maxAttempts r ∧ (r.ticket ∈ taken.kept ∨ r.ticket ∈ taken.passed)) →
    last.deliveries.get r.deliveryId = some (sweepRow T c.maxAttempts r) ∨
      rounds = [] ∧ last.deliveries.get r.deliveryId = some r

theorem mem_line {t : Ticket} : t ∈ db.line T M ↔ ∃ r ∈ db.deliveries.rows, competes T M r ∧ r.ticket = t := by
  rw [line,List.mem_insertionSort,List.mem_map]
  constructor
  · rintro ⟨r,member,same⟩
    obtain ⟨present,contends⟩ := Table.mem_select.mp member
    exact ⟨r,present,contends,same⟩
  · rintro ⟨r,present,contends,same⟩
    exact ⟨r,Table.mem_select.mpr ⟨present,contends⟩,same⟩

theorem Takes.behind {f : Delivery → Delivery} (takes : Takes T M chosen f db next) : chosen.ticket ∉ next.line T M := by
  intro again
  obtain ⟨r,member,contends,same⟩ := mem_line.mp again
  have ids : r.deliveryId = chosen.deliveryId := congrArg (fun t : Ticket => (ofLex (ofLex t).2).1) same
  rw [takes.rows] at member
  obtain ⟨old,present,rfl⟩ := List.mem_map.mp member
  by_cases own : old.deliveryId = chosen.deliveryId
  · rw [if_pos own,Table.mem_unique present takes.member own] at contends
    exact takes.out contends
  · rw [if_neg own,sweepRow_id] at ids
    exact own ids

theorem Takes.chosen_mem {f : Delivery → Delivery} (takes : Takes T M chosen f db next) : f chosen ∈ next.deliveries.rows := by
  rw [takes.rows]
  exact List.mem_map.mpr ⟨chosen,takes.member,if_pos rfl⟩

theorem Takes.other_mem {f : Delivery → Delivery} (takes : Takes T M chosen f db next) (member : r ∈ db.deliveries.rows)
    (apart : r.deliveryId ≠ chosen.deliveryId) : sweepRow T M r ∈ next.deliveries.rows := by
  rw [takes.rows]
  exact List.mem_map.mpr ⟨r,member,if_neg apart⟩

/-- The fate of the deliveries behind the one that a round takes is settled in the rounds after it. -/
theorem fate_behind {round : TickRound} {rounds behind : List TickRound} {taken whole : Selection.Taken Ticket}
    {selected all : List Delivery} {last : Queue} (kept : ∀ t, t ≠ chosen.ticket → (t ∈ whole.kept ↔ t ∈ taken.kept))
    (passed : ∀ t, t ≠ chosen.ticket → (t ∈ whole.passed ↔ t ∈ taken.passed)) (more : selected ⊆ all)
    (within : behind ⊆ rounds) (apart : r.deliveryId ≠ chosen.deliveryId) (fate : Fate c T behind taken selected last (sweepRow T c.maxAttempts r)) :
    Fate c T (round::rounds) whole all last r := by
  have away : r.ticket ≠ chosen.ticket := fun same => apart (congrArg (fun t : Ticket => (ofLex (ofLex t).2).1) same)
  obtain ⟨leased,returned,left⟩ := fate
  rw [competes_sweepRow,sweepRow_ticket,sweepRow_id] at leased returned left
  refine ⟨?_,?_,?_⟩
  · intro contends listed
    obtain ⟨later,inside,expiry,until_,found,selected_⟩ := leased contends ((kept _ away).mp listed)
    rw [sweepRow_waits contends.1.1 contends.1.2,reclaimRow_twice] at found selected_
    exact ⟨later,List.mem_cons_of_mem _ (within inside),expiry,until_,found,more selected_⟩
  · intro contends listed
    obtain ⟨later,inside,found⟩ := returned contends ((passed _ away).mp listed)
    rw [sweepRow_waits contends.1.1 contends.1.2,reclaimRow_twice] at found
    exact ⟨later,List.mem_cons_of_mem _ (within inside),found⟩
  · intro free
    rw [kept _ away,passed _ away] at free
    rw [sweepRow_twice] at left
    rcases left free with found | ⟨_,found⟩
    · exact .inl found
    · exact .inl found

theorem fate_kept {round : TickRound} {rounds : List TickRound} {whole : Selection.Taken Ticket} {all : List Delivery} {last : Queue}
    {expiry : Instant} (contends : competes T c.maxAttempts chosen) (listed : chosen.ticket ∈ whole.kept)
    (unpassed : chosen.ticket ∉ whole.passed) (until_ : round.now.later c.leaseSeconds = some expiry)
    (found : last.deliveries.get chosen.deliveryId = some (leaseRow c.owner expiry.isoText (reclaimRow T chosen)))
    (inside : leaseRow c.owner expiry.isoText (reclaimRow T chosen) ∈ all) : Fate c T (round::rounds) whole all last chosen where
  leased _ _ := ⟨round,List.mem_cons_self,expiry,until_,found,inside⟩
  returned _ passed := absurd passed unpassed
  left free := absurd ⟨contends,.inl listed⟩ free

theorem fate_passed {round : TickRound} {rounds : List TickRound} {whole : Selection.Taken Ticket} {all : List Delivery} {last : Queue}
    (contends : competes T c.maxAttempts chosen) (listed : chosen.ticket ∈ whole.passed) (unkept : chosen.ticket ∉ whole.kept)
    (found : last.deliveries.get chosen.deliveryId = some (returnedRow round.retryTime (reclaimRow T chosen)) ∨
      last.deliveries.get chosen.deliveryId = some (sweepRow T c.maxAttempts (returnedRow round.retryTime (reclaimRow T chosen)))) :
    Fate c T (round::rounds) whole all last chosen where
  leased _ kept := absurd kept unkept
  returned _ _ := ⟨round,List.mem_cons_self,found⟩
  left free := absurd ⟨contends,.inr listed⟩ free

theorem leaseRow_settled {owner expiry : String} (unexpired : T < expiry) : sweepRow T M (leaseRow owner expiry r) = leaseRow owner expiry r := by
  apply sweepRow_untouched
  · simp [Delivery.lost,leaseRow]
  · rintro (open_ | ⟨_,lease,held,past⟩)
    · simp [leaseRow,DeliveryState.leasable] at open_
    · cases held
      exact absurd past (not_le.mpr unexpired)

/-- The loop returns, and what it selects and passes over is what a selection from the line
of waiting deliveries takes. By induction on the rounds, each of which takes the first. -/
theorem leaseForTick_selects (valid : c.valid) {limit : Nat} {rounds : List TickRound} {selected : List Delivery} {seen : List String}
    (timely : Timely c T rounds db) (kinds : ∀ role, role ∈ seen ↔ role ∈ selected.map Delivery.role)
    (count : seen.length = selected.length) :
    ∃ chosen, (db.leaseForTick c limit rounds selected).result = .ok (selected ++ chosen) ∧
      chosen.map Delivery.ticket = (Selection.select Ticket.role limit rounds.length seen (db.line T c.maxAttempts)).kept ∧
      ∀ r ∈ db.deliveries.rows, Fate c T rounds (Selection.select Ticket.role limit rounds.length seen (db.line T c.maxAttempts))
        chosen (db.leaseForTick c limit rounds selected).state r := by
  induction rounds generalizing db selected seen with
  | nil =>
    refine ⟨[],by rw [leaseForTick,List.append_nil],rfl,?_⟩
    intro r member
    exact ⟨by simp [Selection.select],by simp [Selection.select],fun _ => .inr ⟨rfl,Table.get_key member⟩⟩
  | cons round rounds ih =>
    rw [List.length_cons]
    rcases round_cases valid timely with ⟨nobody,result,rows⟩ | ⟨first,expiry,until_,takes,result⟩
    · rw [line_nil nobody,leaseForTick]
      simp only [result]
      refine ⟨[],by rw [List.append_nil],rfl,?_⟩
      intro r member
      refine ⟨by simp [Selection.select],by simp [Selection.select],fun _ => .inl ?_⟩
      refine Table.get_eq_some.mpr ⟨?_,sweepRow_id _ _ r⟩
      rw [rows]
      exact List.mem_map_of_mem member
    · have unexpired : T < expiry.isoText := by
        obtain ⟨other,same,future,_⟩ := timely.leases round List.mem_cons_self
        cases Option.some.inj (until_.symm.trans same)
        exact future
      have beyond : ∀ other ∈ rounds, other.now.isoText < expiry.isoText := by
        obtain ⟨other,same,_,beyond⟩ := timely.leases round List.mem_cons_self
        cases Option.some.inj (until_.symm.trans same)
        exact fun third inside => beyond third (List.mem_cons_of_mem _ inside)
      have due := timely.steady
      have swept : sweepRow T c.maxAttempts first = reclaimRow T first := sweepRow_waits takes.contends.1.1 takes.contends.1.2
      have role : (leaseRow c.owner expiry.isoText (sweepRow T c.maxAttempts first)).role = first.role := sweepRow_role
      have ticket : (leaseRow c.owner expiry.isoText (sweepRow T c.maxAttempts first)).ticket = first.ticket := sweepRow_ticket
      have settled := @leaseRow_settled (sweepRow T c.maxAttempts first) T c.maxAttempts c.owner _ unexpired
      have still : ∀ other ∈ rounds, Steady other.now.isoText T (leaseRow c.owner expiry.isoText (sweepRow T c.maxAttempts first)) := by
        intro other inside
        refine ⟨?_,?_⟩
        · have old := (due other (List.mem_cons_of_mem _ inside) first takes.member).1
          rw [← sweepRow_eligibleAt T c.maxAttempts first] at old
          exact old
        · intro lease held
          cases held
          exact iff_of_false (not_le.mpr (beyond other inside)) (not_le.mpr unexpired)
      have same_row (r : Delivery) (member : r ∈ db.deliveries.rows) (own : r.deliveryId = first.deliveryId) : r = first :=
        Table.mem_unique member takes.member own
      rw [leaseForTick]
      simp only [result,role]
      by_cases old : first.role ∈ selected.map Delivery.role
      · -- another delivery for the role is selected already
        obtain ⟨last,finish,returns⟩ := @put_back db _ first T c.maxAttempts c.owner expiry.isoText round.retryTime round.later takes
          (timely.retries round List.mem_cons_self).1
        have named : (leaseRow c.owner expiry.isoText (sweepRow T c.maxAttempts first)).deliveryId = first.deliveryId := sweepRow_id _ _ first
        have later : ∀ other ∈ rounds, Steady other.now.isoText T (returnedRow round.retryTime (sweepRow T c.maxAttempts first)) := by
          obtain ⟨future,beyond⟩ := timely.retries round List.mem_cons_self
          intro other inside
          exact ⟨iff_of_false (not_le.mpr (beyond other (List.mem_cons_of_mem _ inside))) (not_le.mpr future),by simp [returnedRow]⟩
        obtain ⟨chosen,ends,tickets,fates⟩ := ih (timely_next timely returns later) kinds count
        rw [if_pos old,named,finish]
        dsimp only [atomically]
        rw [line_next returns,Selection.select,Delivery.ticket_role,if_pos ((kinds first.role).mpr old)]
        have outside : first.ticket ∉ (Selection.select Ticket.role limit rounds.length seen (last.line T c.maxAttempts)).kept :=
          fun kept => returns.behind (Selection.mem_line (.inl kept))
        refine ⟨chosen,ends,tickets,?_⟩
        intro r member
        by_cases own : r.deliveryId = first.deliveryId
        · rw [same_row r member own]
          have free := (fates _ returns.chosen_mem).left (fun both => returns.out both.1)
          rw [show (returnedRow round.retryTime (sweepRow T c.maxAttempts first)).deliveryId = first.deliveryId from returns.named first,
            swept] at free
          refine fate_passed takes.contends List.mem_cons_self outside ?_
          rcases free with found | ⟨_,found⟩
          · exact .inr found
          · exact .inl found
        · refine fate_behind ?_ ?_ (List.Subset.refl chosen) (List.Subset.refl rounds) own (fates _ (returns.other_mem member own))
          · exact fun t _ => Iff.rfl
          · exact fun t other => List.mem_cons.trans (or_iff_right other)
      · rw [if_neg old,line_next takes,Selection.select,Delivery.ticket_role,if_neg (fun again => old ((kinds first.role).mp again)),count]
        have present : (db.lease {c with now := round.now}).state.deliveries.get first.deliveryId =
            some (leaseRow c.owner expiry.isoText (sweepRow T c.maxAttempts first)) :=
          Table.get_eq_some.mpr ⟨takes.chosen_mem,sweepRow_id _ _ first⟩
        by_cases full : limit ≤ selected.length + 1
        · rw [if_pos full,if_pos full]
          refine ⟨_,rfl,by rw [List.map_singleton,ticket],?_⟩
          intro r member
          by_cases own : r.deliveryId = first.deliveryId
          · rw [same_row r member own]
            rw [swept] at present
            exact fate_kept takes.contends (List.mem_singleton_self _) List.not_mem_nil until_ present (by rw [swept]; exact List.mem_singleton_self _)
          · have final : Fate c T [] ⟨[],[]⟩ [] (db.lease {c with now := round.now}).state (sweepRow T c.maxAttempts r) :=
              ⟨by simp,by simp,fun _ => .inr ⟨rfl,Table.get_key (takes.other_mem member own)⟩⟩
            refine fate_behind ?_ ?_ (List.nil_subset _) (List.nil_subset rounds) own final
            · exact fun t other => List.mem_cons.trans (or_iff_right other)
            · exact fun t _ => Iff.rfl
        · rw [if_neg full,if_neg full]
          have kinds' : ∀ role, role ∈ first.role::seen ↔
              role ∈ (selected ++ [leaseRow c.owner expiry.isoText (sweepRow T c.maxAttempts first)]).map Delivery.role := by
            intro other
            rw [List.map_append,List.mem_append,List.mem_cons,kinds,List.map_singleton,List.mem_singleton,role,or_comm]
          have count' : (first.role::seen).length =
              (selected ++ [leaseRow c.owner expiry.isoText (sweepRow T c.maxAttempts first)]).length := by
            rw [List.length_append,List.length_cons,List.length_singleton,count]
          obtain ⟨chosen,ends,tickets,fates⟩ := ih (timely_next timely takes still) kinds' count'
          refine ⟨leaseRow c.owner expiry.isoText (sweepRow T c.maxAttempts first)::chosen,?_,?_,?_⟩
          · rw [ends,List.append_assoc,List.singleton_append]
          · rw [List.map_cons,ticket,tickets,Selection.Taken.keep_kept]
          have outside : first.ticket ∉ (Selection.select Ticket.role limit rounds.length (first.role::seen)
              ((db.lease {c with now := round.now}).state.line T c.maxAttempts)).passed :=
            fun passed => takes.behind (Selection.mem_line (.inr passed))
          intro r member
          by_cases own : r.deliveryId = first.deliveryId
          · rw [same_row r member own]
            have free := (fates _ takes.chosen_mem).left (fun both => takes.out both.1)
            rw [settled,show (leaseRow c.owner expiry.isoText (sweepRow T c.maxAttempts first)).deliveryId = first.deliveryId from
              takes.named first] at free
            have found := (free.elim id And.right).trans (congrArg (fun r => some (leaseRow c.owner expiry.isoText r)) swept)
            exact fate_kept takes.contends List.mem_cons_self outside until_ found (by rw [swept]; exact List.mem_cons_self)
          · refine fate_behind ?_ ?_ (List.subset_cons_self _ _) (List.Subset.refl rounds) own (fates _ (takes.other_mem member own))
            · exact fun t other => List.mem_cons.trans (or_iff_right other)
            · exact fun t _ => Iff.rfl

/-- The loop of a tick returns, and it selects from the line just what `Selection.select` takes:
the first delivery of each role, in the order of the line, up to the limit. -/
theorem tick_selects (db : Queue) (c : LeaseCall) (valid : c.valid) (limit : Nat) (T : String) (rounds : List TickRound)
    (timely : Timely c T rounds db) :
    ∃ chosen, (db.leaseForTick c limit rounds []).result = .ok chosen ∧
      chosen.map Delivery.ticket = (Selection.select Ticket.role limit rounds.length [] (db.line T c.maxAttempts)).kept ∧
      ∀ r ∈ db.deliveries.rows, Fate c T rounds (Selection.select Ticket.role limit rounds.length [] (db.line T c.maxAttempts))
        chosen (db.leaseForTick c limit rounds []).state r :=
  leaseForTick_selects valid timely (by simp) rfl

/-- `min(max_wakes, global_max_agents, len(roles))`. -/
def tickLimit (policy : CompiledPolicy) (maxWakes : Nat) : Nat :=
  (min (maxWakes : Int) (min policy.globalMaxAgents policy.roles.length)).toNat

theorem line_ordered : (db.line T M).Pairwise (· ≤ ·) := List.pairwise_insertionSort _ _

/-- A tick with a round for every delivery that waits starts a wake for every role that one
waits for, none of them twice, each for the delivery that stands first in line. -/
theorem tick_serves_roles (lib : TextLibrary) (data : Json) (sourceCommit : String) (policy : CompiledPolicy)
    (compiled : Policy.compilePolicy lib data sourceCommit = .ok policy) (db : Queue) (c : LeaseCall) (valid : c.valid)
    (T : String) (rounds : List TickRound) (timely : Timely c T rounds db)
    (known : ∀ r ∈ db.deliveries.rows, competes T c.maxAttempts r → r.role ∈ policy.roles.map Prod.fst)
    (enough : (db.line T c.maxAttempts).length ≤ rounds.length) :
    ∃ chosen, (db.leaseForTick c (tickLimit policy rounds.length) rounds []).result = .ok chosen ∧
      (chosen.map Delivery.role).Nodup ∧ chosen.length ≤ policy.roles.length ∧
      ∀ r ∈ db.deliveries.rows, competes T c.maxAttempts r →
        ∃ first ∈ db.deliveries.rows, competes T c.maxAttempts first ∧ first.role = r.role ∧ first.ticket ≤ r.ticket ∧
          ∃ leased ∈ chosen, leased.ticket = first.ticket ∧
            (db.leaseForTick c (tickLimit policy rounds.length) rounds []).state.deliveries.get first.deliveryId = some leased ∧
            leased.state = .leased ∧ leased.leaseOwner = some c.owner ∧ leased.attempt = first.attempt + 1 := by
  obtain ⟨sound,cap⟩ := Policy.compilePolicy_ok compiled
  obtain ⟨chosen,result,tickets,fates⟩ := tick_selects db c valid (tickLimit policy rounds.length) T rounds timely
  have roles : chosen.map Delivery.role =
      (Selection.select Ticket.role (tickLimit policy rounds.length) rounds.length [] (db.line T c.maxAttempts)).kept.map Ticket.role := by
    rw [← tickets,List.map_map]
    rfl
  have single : (chosen.map Delivery.role).Nodup := roles ▸ Selection.kept_new.1
  have lined (t : Ticket) (member : t ∈ db.line T c.maxAttempts) : t.role ∈ policy.roles.map Prod.fst := by
    obtain ⟨r,present,contends,rfl⟩ := mem_line.mp member
    exact known r present contends
  have within : chosen.map Delivery.role ⊆ policy.roles.map Prod.fst := by
    rw [roles]
    intro role listed
    obtain ⟨t,kept,rfl⟩ := List.mem_map.mp listed
    exact lined t (Selection.mem_line (.inl kept))
  refine ⟨chosen,result,single,?_,?_⟩
  · have short := (single.subperm within).length_le
    rwa [List.length_map,List.length_map] at short
  intro r member contends
  have waiting : r.ticket ∈ db.line T c.maxAttempts := mem_line.mpr ⟨r,member,contends,rfl⟩
  have room : (((db.line T c.maxAttempts).map Ticket.role).dedup).length ≤ tickLimit policy rounds.length := by
    have few := (List.dedup_sublist ((db.line T c.maxAttempts).map Ticket.role)).length_le
    have named : ((db.line T c.maxAttempts).map Ticket.role).dedup ⊆ policy.roles.map Prod.fst := by
      intro role listed
      obtain ⟨t,inside,rfl⟩ := List.mem_map.mp (List.mem_dedup.mp listed)
      exact lined t inside
    have distinct := ((List.nodup_dedup _).subperm named).length_le
    have caps : 0 ≤ (policy.roles.map (fun entry => entry.2.maxWorkersConcurrent)).sum := by
      apply List.sum_nonneg
      intro n listed
      obtain ⟨entry,inside,rfl⟩ := List.mem_map.mp listed
      exact (sound.2 entry inside).1
    rw [List.length_map] at few distinct
    unfold tickLimit
    rw [cap,Policy.expectedGlobal]
    omega
  -- the role is selected, and what is selected for it stands in front of this delivery
  have served := Selection.select_covers (fun t inside => List.mem_dedup.mpr (List.mem_map_of_mem inside)) room enough waiting
  obtain ⟨t,kept,same⟩ := List.mem_map.mp served
  obtain ⟨first,present,due,ticket⟩ := mem_line.mp (Selection.mem_line (.inl kept))
  obtain ⟨front,rest,whole,others⟩ := Selection.kept_first kept
  have before : t ≤ r.ticket := by
    rw [whole] at waiting
    rcases List.mem_append.mp waiting with early | late
    · exact absurd same.symm (others _ early)
    · have ordered := @line_ordered db T c.maxAttempts
      rw [whole,List.pairwise_append] at ordered
      rcases List.mem_cons.mp late with here | behind
      · exact here.ge
      · exact (List.pairwise_cons.mp ordered.2.1).1 _ behind
  obtain ⟨round,_,expiry,_,found,inside⟩ := (fates first present).leased due (ticket ▸ kept)
  refine ⟨first,present,due,?_,ticket ▸ before,_,inside,?_,found,rfl,rfl,?_⟩
  · rw [← Delivery.ticket_role,ticket,same,Delivery.ticket_role]
  · rw [← @sweepRow_waits first T c.maxAttempts due.1.1 due.1.2]
    exact sweepRow_ticket
  · rw [leaseRow,reclaimRow_attempt]

/-- Two deliveries for the implementer, the later one behind one for the planner. -/
def busyQueue : Queue :=
  {Queue.empty with
    deliveries := ((Table.empty.insertOrIgnore (⟨"delivery-1","key-1","software-implementer",.queued,0,"0001-01-01T00:00:00Z",
        none,none,none⟩ : Delivery)).insertOrIgnore ⟨"delivery-2","key-2","software-implementer",.queued,0,"0001-01-01T00:00:00Z",
        none,none,none⟩).insertOrIgnore ⟨"delivery-0","key-0","commercial-planner",.queued,0,"0001-01-01T00:00:00Z",none,none,none⟩}

def dawnRounds : List TickRound := List.replicate 3 ⟨dawn.now,dawn.now⟩

theorem dawn_timely : Timely dawn "0001-01-01T00:00:00Z" dawnRounds busyQueue where
  steady := by decide +kernel
  leases round member := by
    rw [List.eq_of_mem_replicate member]
    exact ⟨_,rfl,by decide +kernel,by decide +kernel⟩
  retries := by decide +kernel

theorem tick_selects_busy : ∃ chosen, (busyQueue.leaseForTick dawn 2 dawnRounds []).result = .ok chosen ∧
    chosen.map Delivery.ticket =
      (Selection.select Ticket.role 2 3 [] (busyQueue.line "0001-01-01T00:00:00Z" dawn.maxAttempts)).kept := by
  obtain ⟨chosen,result,tickets,_⟩ := tick_selects busyQueue dawn ⟨by decide,by decide,by decide⟩ 2 "0001-01-01T00:00:00Z" dawnRounds dawn_timely
  exact ⟨chosen,result,tickets⟩

theorem tick_serves_roles_busy : ∃ chosen, (busyQueue.leaseForTick dawn (tickLimit CompiledPolicy.documented 3) dawnRounds []).result =
    .ok chosen ∧ (chosen.map Delivery.role).Nodup ∧ chosen.length ≤ 4 := by
  obtain ⟨chosen,result,single,few,_⟩ := tick_serves_roles Served.quietLibrary CompiledPolicy.document "0" CompiledPolicy.documented
    (by decide +kernel) busyQueue dawn ⟨by decide,by decide,by decide⟩ "0001-01-01T00:00:00Z" dawnRounds dawn_timely (by decide +kernel) (by decide +kernel)
  exact ⟨chosen,result,single,few⟩

end Queue
end SjgControl

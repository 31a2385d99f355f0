import SjgControl.Chronology
import SjgControl.Route

/-! The comparisons of the store with the clock. Expiries, leases and eligibilities are stored as
texts, and a comparison of texts is one of instants unless the two are in one second and just one
of them has a fraction. -/
namespace SjgControl
open Relational

namespace Instant

/-- In one second, both instants have a fraction or neither has. -/
def Alike (a b : Instant) : Prop := a.seconds = b.seconds → (a.fraction = 0 ↔ b.fraction = 0)

instance (a b : Instant) : Decidable (Alike a b) :=
  inferInstanceAs (Decidable (a.seconds = b.seconds → (a.fraction = 0 ↔ b.fraction = 0)))

variable {a b : Instant}

theorem Alike.symm (alike : Alike a b) : Alike b a := fun same => (alike same.symm).symm

theorem isoText_agrees_iff : (a.isoText < b.isoText ↔ a.micros < b.micros) ↔ Alike a b := by
  rw [isoText_lt_iff,micros_lt_iff]
  unfold Alike
  omega

theorem isoText_le_iff (alike : Alike a b) : a.isoText ≤ b.isoText ↔ a.micros ≤ b.micros := by
  rw [← not_lt,isoText_agrees_iff.mpr alike.symm,not_lt]

end Instant

/-- A stored instant and the clock are compared as instants are. -/
structure AgreesWithClock (stored now : Instant) : Prop where
  before : stored.isoText < now.isoText ↔ stored.micros < now.micros
  behind : now.isoText < stored.isoText ↔ now.micros < stored.micros
  session : ∀ (db : Runtime) id row, db.sessions.get id = some row → row.state = .active →
    row.expiresAt = stored.isoText → ((∃ s, db.session id now = .ok s) ↔ now.micros < stored.micros)
  reapExpiredSession : ∀ (db : Runtime) id row, db.sessions.get id = some row → row.state = .active →
    row.expiresAt = stored.isoText →
    ((∃ next, db.reapExpiredSession id now = .ok ((),next)) ↔ stored.micros ≤ now.micros)
  reserveWorker : ∀ (db : Runtime) attempt id row worker cumulative concurrent global, db.sessions.get id = some row →
    row.state = .active → row.expiresAt = stored.isoText →
    (db.reserveWorker attempt id worker cumulative concurrent global now =
      .error (.stateError "worker requires an active parent session") ↔ stored.micros ≤ now.micros)
  reserveBudget : ∀ (db : Runtime) reservation id row epoch (requested : Int) buckets, db.sessions.get id = some row →
    row.state = .active → row.expiresAt = stored.isoText → 0 < requested →
    (db.reserveBudget reservation id epoch requested buckets now =
      .error (.stateError "budget reservation requires an active session") ↔ stored.micros ≤ now.micros)
  running : ∀ r : Delivery, r.state = .running → r.leaseUntil = some stored.isoText → ∀ attempts,
    ((Queue.sweepRow now.isoText attempts r).state = .uncertain ↔ stored.micros ≤ now.micros)
  leased : ∀ r : Delivery, r.state = .leased → r.leaseUntil = some stored.isoText → ∀ attempts,
    ((Queue.sweepRow now.isoText attempts r).state = .leased ↔ now.micros < stored.micros)
  eligible : ∀ r : Delivery, r.state.leasable → r.eligibleAt = stored.isoText → ∀ attempts, r.attempt < attempts →
    (Queue.competes now.isoText attempts r ↔ stored.micros ≤ now.micros)
  ordered : ∀ r s : Delivery, r.eligibleAt = stored.isoText → s.eligibleAt = now.isoText → stored ≠ now →
    (Queue.precedes r s ↔ stored.micros < now.micros)
  startDelivery : ∀ (db : Queue) id owner row, db.deliveries.get id = some row → row.state = .leased →
    row.leaseOwner = some owner → row.leaseUntil = some stored.isoText →
    ((∃ next, db.startDelivery id owner now.isoText = .ok ((),next)) ↔ now.micros < stored.micros)

section
variable {stored now : Instant} {db : Runtime} {id : String} {row : WakeSession}

theorem ext_micros (same : stored.micros = now.micros) : stored = now := by
  cases stored
  cases now
  cases same
  rfl

theorem session_clock (alike : stored.Alike now) (found : db.sessions.get id = some row) (active : row.state = .active)
    (expiry : row.expiresAt = stored.isoText) : (∃ s, db.session id now = .ok s) ↔ now.micros < stored.micros := by
  have known : (db.sessions.get id).filter (fun r => r.state = .active) = some row := by simp [found,active]
  simp only [Runtime.session,known,fetch_bind_ok,require_bind_ok,pure_ok]
  rw [← not_le,← Instant.isoText_le_iff alike,← expiry]
  constructor
  · rintro ⟨s,r,same,later,_⟩
    cases same
    exact later
  · intro later
    exact ⟨_,row,rfl,later,rfl⟩

theorem live_clock (alike : stored.Alike now) (found : db.sessions.get id = some row) (active : row.state = .active)
    (expiry : row.expiresAt = stored.isoText) :
    (db.sessions.get id).filter (fun r => r.state = .active ∧ now.isoText < r.expiresAt) = none ↔
      stored.micros ≤ now.micros := by
  rw [← Instant.isoText_le_iff alike,← expiry,found]
  simp [active,Option.filter_eq_none_iff,-String.lt_iff_ltb]

theorem reap_clock (alike : stored.Alike now) (found : db.sessions.get id = some row) (active : row.state = .active)
    (expiry : row.expiresAt = stored.isoText) :
    (∃ next, db.reapExpiredSession id now = .ok ((),next)) ↔ stored.micros ≤ now.micros := by
  rw [← Instant.isoText_le_iff alike,← expiry,← not_lt]
  simp only [Runtime.reapExpiredSession,fetch_bind_ok,pure_ok]
  constructor
  · rintro ⟨_,r,known,_⟩
    rw [found,Option.filter_eq_some_iff] at known
    cases known.1
    simpa [active] using known.2
  · intro over_
    exact ⟨_,row,by simp [found,active,not_lt.mp over_,-String.lt_iff_ltb],rfl⟩

theorem reserveWorker_clock (alike : stored.Alike now) (found : db.sessions.get id = some row)
    (active : row.state = .active) (expiry : row.expiresAt = stored.isoText) {attempt worker : String}
    {cumulative concurrent global : Int} :
    db.reserveWorker attempt id worker cumulative concurrent global now =
      .error (.stateError "worker requires an active parent session") ↔ stored.micros ≤ now.micros := by
  rw [← live_clock alike found active expiry]
  simp only [Runtime.reserveWorker,fetch_bind_error,require_bind_error,pure_error,and_true]
  constructor
  · rintro (none_ | ⟨_,_,other⟩)
    · exact none_
    · simp at other
  · exact .inl

theorem text_apart {front rest text : String} (apart : ¬ front.toList <+: text.toList) : front ++ rest ≠ text := by
  rintro rfl
  rw [String.toList_append] at apart
  exact apart (List.prefix_append _ _)

theorem openBucket_error {epoch : String} {requested : Int} {buckets : Table BudgetBucket}
    {bucket : String × String × Int} {e : StoreError}
    (failed : Runtime.openBucket epoch requested buckets bucket = .error e) :
    e ≠ .stateError "budget reservation requires an active session" := by
  simp only [Runtime.openBucket,fetch_bind_error,require_bind_error,pure_error,and_false,or_false] at failed
  rcases failed with ⟨_,rfl⟩ | ⟨_,⟨_,rfl⟩ | ⟨_,_,⟨_,rfl⟩ | ⟨_,_,rfl⟩⟩⟩
  · simp
  · simp
  · rw [ne_eq,StoreError.stateError.injEq,String.append_assoc,String.append_assoc]
    exact text_apart (by decide)
  · rw [ne_eq,StoreError.stateError.injEq,String.append_assoc,String.append_assoc]
    exact text_apart (by decide)

theorem reserveBudget_clock (alike : stored.Alike now) (found : db.sessions.get id = some row)
    (active : row.state = .active) (expiry : row.expiresAt = stored.isoText) {reservation epoch : String}
    {requested : Int} {buckets : List (String × String × Int)} (positive : 0 < requested) :
    db.reserveBudget reservation id epoch requested buckets now =
      .error (.stateError "budget reservation requires an active session") ↔ stored.micros ≤ now.micros := by
  rw [← live_clock alike found active expiry]
  simp only [Runtime.reserveBudget,fetch_bind_error,require_bind_error,and_true]
  constructor
  · rintro (⟨none_,_⟩ | ⟨_,none_ | ⟨_,_,other⟩⟩)
    · exact absurd positive none_
    · exact none_
    · exfalso
      rcases other with ⟨_,names⟩ | ⟨_,⟨_,bound⟩ | ⟨_,other⟩⟩
      · simp at names
      · simp at bound
      rcases bind_error.mp other with failed | ⟨_,_,other⟩
      · exact foldlM_error (fun _ _ _ => openBucket_error) failed rfl
      rcases require_bind_error.mp other with ⟨_,twice⟩ | ⟨_,other⟩
      · cases twice
      rcases fetch_bind_error.mp other with ⟨_,taken⟩ | ⟨_,_,done⟩
      · cases taken
      · cases done
  · exact fun none_ => .inr ⟨positive,.inl none_⟩

variable {r : Delivery} {attempts : Int}

theorem expired_clock (alike : stored.Alike now) (lease : r.leaseUntil = some stored.isoText) :
    Queue.leaseExpired now.isoText r ↔ stored.micros ≤ now.micros := by
  unfold Queue.leaseExpired
  rw [lease,← Instant.isoText_le_iff alike]
  simp [-String.lt_iff_ltb]

theorem running_clock (alike : stored.Alike now) (running : r.state = .running)
    (lease : r.leaseUntil = some stored.isoText) :
    (Queue.sweepRow now.isoText attempts r).state = .uncertain ↔ stored.micros ≤ now.micros := by
  rw [← expired_clock alike lease]
  by_cases expired : Queue.leaseExpired now.isoText r
  · simp [Queue.sweepRow,Queue.quarantineRow,Queue.reclaimRow,Queue.buryRow,running,expired,DeliveryState.leasable]
  · simp [Queue.sweepRow,Queue.quarantineRow,Queue.reclaimRow,Queue.buryRow,running,expired,DeliveryState.leasable]

theorem leased_clock (alike : stored.Alike now) (held : r.state = .leased) (lease : r.leaseUntil = some stored.isoText) :
    (Queue.sweepRow now.isoText attempts r).state = .leased ↔ now.micros < stored.micros := by
  rw [← not_le,← expired_clock alike lease]
  by_cases expired : Queue.leaseExpired now.isoText r
  · by_cases spent : attempts ≤ r.attempt
    · simp [Queue.sweepRow,Queue.quarantineRow,Queue.reclaimRow,Queue.buryRow,held,expired,spent,DeliveryState.leasable]
    · simp [Queue.sweepRow,Queue.quarantineRow,Queue.reclaimRow,Queue.buryRow,held,expired,spent,DeliveryState.leasable]
  · simp [Queue.sweepRow,Queue.quarantineRow,Queue.reclaimRow,Queue.buryRow,held,expired,DeliveryState.leasable]

theorem eligible_clock (alike : stored.Alike now) (leasable : r.state.leasable) (eligible : r.eligibleAt = stored.isoText)
    (below : r.attempt < attempts) : Queue.competes now.isoText attempts r ↔ stored.micros ≤ now.micros := by
  rw [← Instant.isoText_le_iff alike,← eligible]
  exact and_iff_right ⟨.inl leasable,below⟩

theorem ordered_clock (alike : stored.Alike now) {s : Delivery} (one : r.eligibleAt = stored.isoText)
    (other : s.eligibleAt = now.isoText) (apart : stored ≠ now) :
    Queue.precedes r s ↔ stored.micros < now.micros := by
  have texts : r.eligibleAt ≠ s.eligibleAt := by
    rw [one,other]
    intro same
    apply apart
    have first := (Instant.isoText_le_iff alike).mp (le_of_eq same)
    have second := (Instant.isoText_le_iff alike.symm).mp (le_of_eq same.symm)
    exact ext_micros (le_antisymm first second)
  rw [← Instant.isoText_agrees_iff.mpr alike,← one,← other]
  exact or_iff_left (fun both => texts both.1)

theorem start_clock (alike : stored.Alike now) {db : Queue} {owner : String} (found : db.deliveries.get id = some r)
    (held : r.state = .leased) (own : r.leaseOwner = some owner) (lease : r.leaseUntil = some stored.isoText) :
    (∃ next, db.startDelivery id owner now.isoText = .ok ((),next)) ↔ now.micros < stored.micros := by
  rw [← Instant.isoText_agrees_iff.mpr alike.symm]
  simp only [Queue.startDelivery,require_bind_ok,pure_ok]
  constructor
  · rintro ⟨_,⟨row,known,_,_,until_,some_,later⟩,_⟩
    cases Option.some.inj (found.symm.trans known)
    cases Option.some.inj (lease.symm.trans some_)
    exact later
  · intro later
    exact ⟨_,⟨r,found,held,own,_,lease,later⟩,rfl⟩

end

/-- The store decides by the clock exactly where the texts can be compared as instants. -/
theorem agreesWithClock_iff (stored now : Instant) : AgreesWithClock stored now ↔ stored.Alike now := by
  constructor
  · intro agrees
    exact Instant.isoText_agrees_iff.mp agrees.before
  · intro alike
    exact {
      before := Instant.isoText_agrees_iff.mpr alike
      behind := Instant.isoText_agrees_iff.mpr alike.symm
      session := fun _ _ _ found active expiry => session_clock alike found active expiry
      reapExpiredSession := fun _ _ _ found active expiry => reap_clock alike found active expiry
      reserveWorker := fun _ _ _ _ _ _ _ _ found active expiry => reserveWorker_clock alike found active expiry
      reserveBudget := fun _ _ _ _ _ _ _ found active expiry positive =>
        reserveBudget_clock alike found active expiry positive
      running := fun _ running lease _ => running_clock alike running lease
      leased := fun _ held lease _ => leased_clock alike held lease
      eligible := fun _ leasable eligible _ below => eligible_clock alike leasable eligible below
      ordered := fun _ _ one other apart => ordered_clock alike one other apart
      startDelivery := fun _ _ _ _ found held own lease => start_clock alike found held own lease }

/-- A budget hold ends at midnight. -/
def newDay : Instant := ⟨63902908800 * 1000000,by decide⟩

def halfSecondLater : Instant := ⟨63902908800 * 1000000 + 500000,by decide⟩

/-- Half a second into the day the delivery is not yet eligible. -/
theorem newDay_after_half_second :
    newDay.isoText = "2026-01-02T00:00:00Z" ∧ halfSecondLater.isoText = "2026-01-02T00:00:00.500000Z" ∧
      newDay.micros < halfSecondLater.micros ∧ halfSecondLater.isoText < newDay.isoText ∧
      ¬ AgreesWithClock newDay halfSecondLater := by
  have texts : newDay.isoText = "2026-01-02T00:00:00Z" ∧ halfSecondLater.isoText = "2026-01-02T00:00:00.500000Z" := by
    decide +kernel
  have order : halfSecondLater.isoText < newDay.isoText := by
    rw [texts.1,texts.2]
    decide
  refine ⟨texts.1,texts.2,by decide,order,?_⟩
  intro agrees
  exact absurd (agrees.behind.mp order) (by decide)

end SjgControl

import SjgControl.Capacity
import SjgControl.Host.Discipline

/-! What a session that ended still owns. Six operations end a session, and each closes its
own share of the attempts, the reservation and the wake; admission of a wake does not ask
whether its session is still active. -/
namespace SjgControl
open Relational Machine

namespace Runtime

/-- The session has no attempt, no reservation and no wake that is not closed. -/
structure NothingLive (db : Runtime) (x : String) : Prop where
  attempts : ∀ a ∈ db.attempts.rows, a.sessionId = x → ¬ a.state.live
  reservations : ∀ r ∈ db.reservations.rows, r.sessionId = x → r.state ≠ .active
  wakes : ∀ w ∈ db.wakes.rows, w.sessionId = x → ¬ w.state.live

def EndedClear (db : Runtime) : Prop :=
  ∀ s ∈ db.sessions.rows, s.state ≠ .active → db.NothingLive s.sessionId

def unbooked (db : Runtime) (x : String) : Prop := ∀ r ∈ db.reservations.rows, r.sessionId = x → r.state ≠ .active

def unwoken (db : Runtime) (x : String) : Prop := ∀ w ∈ db.wakes.rows, w.sessionId = x → ¬ w.state.live

instance (db : Runtime) (x : String) : Decidable (db.unbooked x) :=
  inferInstanceAs (Decidable (∀ r ∈ db.reservations.rows, r.sessionId = x → r.state ≠ .active))

instance (db : Runtime) (x : String) : Decidable (db.unwoken x) :=
  inferInstanceAs (Decidable (∀ w ∈ db.wakes.rows, w.sessionId = x → ¬ w.state.live))

end Runtime

/-- The calls that close less than the session owns find the rest closed already. -/
def RuntimeOp.clears (db : Runtime) : RuntimeOp → Prop
  | .revokeSession sessionId => db.sessionActive sessionId → db.activeWorkers sessionId = 0 →
      db.unbooked sessionId ∧ db.unwoken sessionId
  | .finishSession sessionId => db.sessionActive sessionId → db.activeWorkers sessionId = 0 →
      db.unbooked sessionId → db.unwoken sessionId
  | .reapExpiredSession sessionId now => db.sessionActive sessionId →
      (∀ s ∈ db.sessions.get sessionId, ¬ now.isoText < s.expiresAt) → db.unwoken sessionId
  | _ => True

def Runtime.wakeFits (db : Runtime) (row : WakeRuntime) : Prop :=
  db.sessions.get row.sessionId ≠ none ∧ db.reservations.get row.reservationId ≠ none ∧
    (∀ w ∈ db.wakes.rows, w.sessionId ≠ row.sessionId ∧ w.reservationId ≠ row.reservationId ∧
      w.socketPath ≠ row.socketPath) ∧ db.wakes.get row.wakeId = none

/-- A wake is put on record for an active session only. -/
def Op.clears (db : Store) : Op → Prop
  | .runtime op => op.clears db.runtime
  | .prepareWake session deliveryId reservationId socketPath reason now =>
    reason ≠ "" → Store.absolutePath socketPath →
      (∀ delivery ∈ deliveryId, db.queue.deliveries.get delivery ≠ none) →
      db.runtime.wakeFits ⟨session.wakeId,session.sessionId,deliveryId,reservationId,session.role,reason,
        socketPath,.prepared,now.isoText,none,none,none⟩ → db.runtime.sessionActive session.sessionId
  | _ => True

namespace Runtime
open Table

/-- What the rows of one session keep to whatever is called. -/
structure Rooted (x : String) (db : Runtime) : Prop where
  oneReservation : ∀ r ∈ db.reservations.rows, ∀ q ∈ db.reservations.rows,
    r.sessionId = x → q.sessionId = x → r = q
  oneWake : ∀ w ∈ db.wakes.rows, ∀ v ∈ db.wakes.rows, w.sessionId = x → v.sessionId = x → w = v
  booked : ∀ r ∈ db.reservations.rows, r.sessionId = x → ∃ s ∈ db.sessions.rows, s.sessionId = x
  woken : ∀ w ∈ db.wakes.rows, w.sessionId = x → ∃ s ∈ db.sessions.rows, s.sessionId = x

/-- Whatever a session holds is held by an active session. -/
structure Held (x : String) (db : Runtime) : Prop where
  backed : ¬ db.sessionActive x → db.unbooked x
  manned : ¬ db.sessionActive x → db.unwoken x

section Frame
variable {x y : String} {db next : Runtime}

theorem Rooted.apart (rooted : Rooted x db) (shift : Shift y db next) (other : x ≠ y) : Rooted x next where
  oneReservation r member q present own same := rooted.oneReservation
    r ((shift.reservations r (own ▸ other)).mp member) q ((shift.reservations q (same ▸ other)).mp present) own same
  oneWake w member v present own same := rooted.oneWake
    w ((shift.wakes w (own ▸ other)).mp member) v ((shift.wakes v (same ▸ other)).mp present) own same
  booked r member own := by
    obtain ⟨s,found,same⟩ := rooted.booked r ((shift.reservations r (own ▸ other)).mp member) own
    exact ⟨s,(shift.sessions s (same ▸ other)).mpr found,same⟩
  woken w member own := by
    obtain ⟨s,found,same⟩ := rooted.woken w ((shift.wakes w (own ▸ other)).mp member) own
    exact ⟨s,(shift.sessions s (same ▸ other)).mpr found,same⟩

theorem Held.apart (held : Held x db) (shift : Shift y db next) (other : x ≠ y) : Held x next where
  backed ended r member own := held.backed (fun active => ended ((shift.active_iff other).mpr active))
    r ((shift.reservations r (own ▸ other)).mp member) own
  manned ended w member own := held.manned (fun active => ended ((shift.active_iff other).mpr active))
    w ((shift.wakes w (own ▸ other)).mp member) own

theorem Shift.recorded (shift : Shift y db next) (found : ∃ s ∈ db.sessions.rows, s.sessionId = x) :
    ∃ s ∈ next.sessions.rows, s.sessionId = x := by
  obtain ⟨s,member,own⟩ := found
  obtain ⟨t,present,moves⟩ := shift.keptSessions s member
  exact ⟨t,present,moves.1.trans own⟩

/-- A change that adds neither a reservation nor a wake. -/
structure Steady (db next : Runtime) : Prop where
  reservations : next.reservations.rows.map Keyed.key = db.reservations.rows.map Keyed.key
  wakes : next.wakes.rows.map Keyed.key = db.wakes.rows.map Keyed.key

theorem Rooted.steady (rooted : Rooted x db) (shift : Shift y db next) (steady : Steady db next) : Rooted x next := by
  have reservations := shift.keptReservations.drawn steady.reservations (fun _ _ moves => moves.1)
  have wakes := shift.keptWakes.drawn steady.wakes (fun _ _ moves => moves.1)
  refine ⟨?_,?_,?_,?_⟩
  · intro r member q present own same
    obtain ⟨r₀,rowR,movesR⟩ := reservations r member
    obtain ⟨q₀,rowQ,movesQ⟩ := reservations q present
    have equal := rooted.oneReservation r₀ rowR q₀ rowQ (movesR.2.1.symm.trans own) (movesQ.2.1.symm.trans same)
    subst equal
    exact mem_unique member present (movesR.1.trans movesQ.1.symm)
  · intro w member v present own same
    obtain ⟨w₀,rowW,movesW⟩ := wakes w member
    obtain ⟨v₀,rowV,movesV⟩ := wakes v present
    have equal := rooted.oneWake w₀ rowW v₀ rowV (movesW.2.1.symm.trans own) (movesV.2.1.symm.trans same)
    subst equal
    exact mem_unique member present (movesW.1.trans movesV.1.symm)
  · intro r member own
    obtain ⟨r₀,row,moves⟩ := reservations r member
    exact shift.recorded (rooted.booked r₀ row (moves.2.1.symm.trans own))
  · intro w member own
    obtain ⟨w₀,row,moves⟩ := wakes w member
    exact shift.recorded (rooted.woken w₀ row (moves.2.1.symm.trans own))

theorem Shift.unbooked (shift : Shift y db next) (steady : Steady db next) (free : db.unbooked x) :
    next.unbooked x := by
  intro r member own active
  obtain ⟨r₀,row,moves⟩ := shift.keptReservations.drawn steady.reservations (fun _ _ moves => moves.1) r member
  exact free r₀ row (moves.2.1.symm.trans own) (moves.2.2 active)

theorem Shift.unwoken (shift : Shift y db next) (steady : Steady db next) (idle : db.unwoken x) :
    next.unwoken x := by
  intro w member own live
  obtain ⟨w₀,row,moves⟩ := shift.keptWakes.drawn steady.wakes (fun _ _ moves => moves.1) w member
  exact idle w₀ row (moves.2.1.symm.trans own) (moves.2.2.2.2 live)

theorem Held.steady (held : Held x db) (shift : Shift y db next) (steady : Steady db next)
    (sessions : next.sessionActive x ↔ db.sessionActive x) : Held x next where
  backed ended := shift.unbooked steady (held.backed (fun active => ended (sessions.mpr active)))
  manned ended := shift.unwoken steady (held.manned (fun active => ended (sessions.mpr active)))

end Frame

/-! What a call changes for the session it concerns. -/

/-- `clear` is the condition under which a session that the call ends, or a wake that it
admits, leaves nothing live behind. -/
inductive Change (y : String) (clear : Prop) (db next : Runtime) : Prop
  | steady (clears : clear) (steady : Steady db next) (sessions : next.sessions = db.sessions)
  | opened (clears : clear) (steady : Steady db next) (active : next.sessionActive y)
  | booked (clears : clear) (r : BudgetReservation) (inserted : db.reservations.insert r = some next.reservations)
      (own : r.sessionId = y) (first : ∀ q ∈ db.reservations.rows, q.sessionId ≠ y)
      (sessions : next.sessions = db.sessions) (wakes : next.wakes = db.wakes) (active : db.sessionActive y)
  | launched (w : WakeRuntime) (inserted : db.wakes.insert w = some next.wakes) (own : w.sessionId = y)
      (live : w.state.live) (first : ∀ v ∈ db.wakes.rows, v.sessionId ≠ y) (sessions : next.sessions = db.sessions)
      (reservations : next.reservations = db.reservations) (recorded : db.sessions.get y ≠ none)
      (exact_ : db.sessionActive y ↔ clear)
  | ended (steady : Steady db next) (inactive : ¬ next.sessionActive y)
      (exact_ : next.unbooked y ∧ next.unwoken y ↔ clear)

section Change
variable {x y : String} {clear : Prop} {db next : Runtime}

theorem recorded_of_active (active : db.sessionActive y) : ∃ s ∈ db.sessions.rows, s.sessionId = y := by
  obtain ⟨s,member,own,_⟩ := sessionActive_iff.mp active
  exact ⟨s,member,own⟩

theorem Change.rooted (change : Change y clear db next) (shift : Shift y db next) (rooted : Rooted y db) :
    Rooted y next := by
  cases change with
  | steady _ steady => exact rooted.steady shift steady
  | opened _ steady => exact rooted.steady shift steady
  | ended steady => exact rooted.steady shift steady
  | booked _ r inserted own first sessions wakes active =>
    have sole {q : BudgetReservation} (member : q ∈ next.reservations.rows) (same : q.sessionId = y) : q = r :=
      ((mem_insert inserted).mp member).resolve_left (fun old => first q old same)
    refine ⟨?_,?_,?_,?_⟩
    · intro q member t present same also
      rw [sole member same,sole present also]
    · rw [wakes]
      exact rooted.oneWake
    · intro _ _ _
      exact shift.recorded (recorded_of_active active)
    · intro w member same
      exact shift.recorded (rooted.woken w (wakes ▸ member) same)
  | launched w inserted own live first sessions reservations recorded =>
    have sole {v : WakeRuntime} (member : v ∈ next.wakes.rows) (same : v.sessionId = y) : v = w :=
      ((mem_insert inserted).mp member).resolve_left (fun old => first v old same)
    obtain ⟨s,found⟩ := Option.ne_none_iff_exists'.mp recorded
    obtain ⟨member,named⟩ := get_eq_some.mp found
    refine ⟨?_,?_,?_,?_⟩
    · rw [reservations]
      exact rooted.oneReservation
    · intro v member t present same also
      rw [sole member same,sole present also]
    · intro r member same
      exact shift.recorded (rooted.booked r (reservations ▸ member) same)
    · intro _ _ _
      exact shift.recorded ⟨s,member,named⟩

theorem Change.held_iff (change : Change y clear db next) (shift : Shift y db next) (held : Held y db) :
    Held y next ↔ clear := by
  cases change with
  | steady clears steady sessions =>
    refine iff_of_true (held.steady shift steady ?_) clears
    unfold sessionActive
    rw [sessions]
  | opened clears _ active => exact iff_of_true ⟨fun ended => absurd active ended,fun ended => absurd active ended⟩ clears
  | booked clears r inserted own first sessions wakes active =>
    have still : next.sessionActive y := by
      unfold sessionActive
      rw [sessions]
      exact active
    exact iff_of_true ⟨fun ended => absurd still ended,fun ended => absurd still ended⟩ clears
  | launched w inserted own live first sessions reservations recorded exact_ =>
    have same : next.sessionActive y ↔ db.sessionActive y := by
      unfold sessionActive
      rw [sessions]
    rw [← exact_]
    constructor
    · intro kept
      by_contra ended
      exact kept.manned (fun active => ended (same.mp active)) w ((mem_insert inserted).mpr (.inr rfl)) own live
    · intro active
      exact ⟨fun ended => absurd (same.mpr active) ended,fun ended => absurd (same.mpr active) ended⟩
  | ended steady inactive exact_ =>
    rw [← exact_]
    exact ⟨fun kept => ⟨kept.backed inactive,kept.manned inactive⟩,fun both => ⟨fun _ => both.1,fun _ => both.2⟩⟩

end Change

theorem Steady.refl (db : Runtime) : Steady db db := ⟨rfl,rfl⟩

theorem body_change {y : String} {db next : Runtime} {op : RuntimeOp} (concerns : op.concerns db y)
    (ok : db.body op = .ok ((),next)) : Change y (op.clears db) db next := by
  cases op with
  | createSession =>
    obtain ⟨_,ok⟩ := discard_ok.mp ok
    obtain ⟨_,_,_,_,_,_,sessions,inserted,rfl,rfl⟩ := createSession_effect ok
    cases concerns
    refine .opened trivial ⟨rfl,rfl⟩ ?_
    unfold sessionActive
    rw [get_insert inserted]
    exact congrArg _ (if_pos rfl)
  | revokeSession =>
    obtain ⟨alone,active,rfl⟩ := revokeSession_effect ok
    cases concerns
    exact .ended ⟨rfl,rfl⟩ (not_active_endSession (by simp) rfl) ⟨fun both _ _ => both,fun clears => clears active alone⟩
  | finishSession =>
    obtain ⟨⟨alone,unheld⟩,active,rfl⟩ := finishSession_effect ok
    cases concerns
    have free : db.unbooked y := fun r member own state => count_eq_zero.mp unheld r member ⟨own,state⟩
    exact .ended ⟨rfl,rfl⟩ (not_active_endSession (by simp) rfl)
      ⟨fun both _ _ _ => both.2,fun clears => ⟨free,clears active alone free⟩⟩
  | forceTerminateSession _ expired =>
    obtain ⟨_,rfl⟩ := forceTerminateSession_effect ok
    cases concerns
    refine .ended ⟨update_keys (by intro; rfl),update_keys (by intro; rfl)⟩
      (not_active_endSession (by cases expired <;> simp) rfl) (iff_of_true ⟨held_of_holdReservations,?_⟩ trivial)
    intro w member own live
    obtain ⟨old,_,⟨_,rfl⟩ | ⟨other,rfl⟩⟩ := mem_update_cases member
    · simp [WakeState.live] at live
    · exact other ⟨own,live⟩
  | reapExpiredSession sessionId now =>
    obtain ⟨s,⟨found,active,past⟩,rfl⟩ := reapExpiredSession_effect ok
    cases concerns
    obtain ⟨member,own⟩ := get_eq_some.mp found
    change s.sessionId = y at own
    rw [own]
    refine .ended ⟨update_keys (by intro; rfl),rfl⟩ (not_active_endSession (by simp) rfl) ?_
    constructor
    · intro both _ _
      exact both.2
    · intro clears
      refine ⟨held_of_holdReservations,clears (sessionActive_iff.mpr ⟨s,member,own,active⟩) ?_⟩
      intro other same
      rw [found] at same
      cases Option.mem_some_iff.mp same
      exact past
  | reserveWorker =>
    obtain ⟨_,ok⟩ := discard_ok.mp ok
    obtain ⟨_,_,_,_,_,_,attempts,inserted,rfl,rfl⟩ := reserveWorker_effect ok
    exact .steady trivial ⟨rfl,rfl⟩ rfl
  | reserveBudget =>
    obtain ⟨_,ok⟩ := discard_ok.mp ok
    obtain ⟨_,row,⟨found,active,_⟩,_,_,_,_,first,reservations,inserted,_,rfl⟩ := reserveBudget_effect ok
    cases concerns
    obtain ⟨member,own⟩ := get_eq_some.mp found
    exact .booked trivial _ inserted rfl (count_eq_zero.mp first) rfl rfl (sessionActive_iff.mpr ⟨row,member,own,active⟩)
  | settleBudget =>
    obtain ⟨_,ok⟩ := discard_ok.mp ok
    obtain ⟨_,_,_,_,_,_,rfl,rfl⟩ := settleBody_effect ok
    exact .steady trivial ⟨update_keys (by intro; rfl),rfl⟩ rfl
  | markBudgetUncertain =>
    obtain ⟨_,rfl⟩ := markBudgetUncertain_effect ok
    exact .steady trivial ⟨update_keys (by intro; rfl),rfl⟩ rfl
  | releaseBudget =>
    obtain ⟨_,_,_,_,released⟩ := releaseBudget_effect ok
    obtain ⟨_,_,rfl⟩ := release_effect released
    exact .steady trivial ⟨update_keys (by intro; rfl),rfl⟩ rfl
  | markWakeRunning =>
    obtain ⟨_,rfl⟩ := markWakeRunning_effect ok
    exact .steady trivial ⟨rfl,update_keys (by intro; rfl)⟩ rfl
  | finishWake =>
    obtain ⟨_,_,rfl⟩ := finishWake_effect ok
    exact .steady trivial ⟨rfl,update_keys (by intro; rfl)⟩ rfl
  | recordProcess =>
    obtain ⟨_,_,_,_,rfl⟩ := recordProcess_effect ok
    exact .steady trivial ⟨rfl,rfl⟩ rfl
  | finishProcess =>
    obtain ⟨_,_,rfl⟩ := finishProcess_effect ok
    exact .steady trivial ⟨rfl,rfl⟩ rfl

theorem clears_of_refused {db : Runtime} {op : RuntimeOp} (refused : ∀ u next, db.body op ≠ .ok (u,next)) :
    op.clears db := by
  cases op with
  | revokeSession sessionId =>
    intro active alone
    exact absurd (by simp [body,revokeSession,require,alone,active,bind,Except.bind,pure,Except.pure])
      (refused () {db with sessions := db.endSession sessionId .revoked})
  | finishSession sessionId =>
    intro active alone free
    have unheld : db.reservations.count (fun r => r.sessionId = sessionId ∧ r.state = .active) = 0 :=
      count_eq_zero.mpr (fun r member both => free r member both.1 both.2)
    exact absurd (by simp [body,finishSession,require,alone,unheld,active,bind,Except.bind,pure,Except.pure])
      (refused () {db with sessions := db.endSession sessionId .finished})
  | reapExpiredSession sessionId now =>
    intro active past
    obtain ⟨s,found,state⟩ := Option.map_eq_some_iff.mp active
    have own : s.sessionId = sessionId := (get_eq_some.mp found).2
    exact absurd (by
        simp [body,reapExpiredSession,fetch,found,Option.filter,state,past s found,bind,Except.bind,pure,Except.pure,own])
      (refused () {db with
        attempts := db.failWorkers sessionId now
        reservations := db.holdReservations sessionId
        sessions := db.endSession sessionId .expired})
  | _ => trivial

theorem insertWake_of_fits {db : Runtime} {row : WakeRuntime} (fits : db.wakeFits row) :
    ∃ next, db.insertWake row = .ok next := by
  obtain ⟨session,reservation,apart,fresh⟩ := fits
  obtain ⟨wakes,inserted⟩ := insert_of_fresh fresh
  have unique : db.wakes.count (fun r => r.sessionId = row.sessionId ∨ r.reservationId = row.reservationId ∨
      r.socketPath = row.socketPath) = 0 := by
    apply count_eq_zero.mpr
    rintro w member (same | same | same)
    · exact (apart w member).1 same
    · exact (apart w member).2.1 same
    · exact (apart w member).2.2 same
  refine ⟨{db with wakes},?_⟩
  simp [insertWake,require,session,reservation,unique,inserted,fetch,bind,Except.bind,pure,Except.pure]

theorem fits_of_insertWake {db next : Runtime} {row : WakeRuntime} (ok : db.insertWake row = .ok next) :
    db.wakeFits row ∧ db.wakes.insert row = some next.wakes ∧ next.sessions = db.sessions ∧
      next.reservations = db.reservations := by
  obtain ⟨⟨session,reservation,unique⟩,wakes,inserted,rfl⟩ := insertWake_effect ok
  refine ⟨⟨session,reservation,?_,insert_fresh inserted⟩,inserted,rfl,rfl⟩
  intro w member
  have apart := count_eq_zero.mp unique w member
  exact ⟨fun same => apart (.inl same),fun same => apart (.inr (.inl same)),fun same => apart (.inr (.inr same))⟩

end Runtime

namespace Store
open Table

theorem prepareWake_change {db : Store} {session : Session} {deliveryId : Option String}
    {reservationId socketPath reason : String} {now : Instant} :
    Runtime.Change session.sessionId (Op.clears db (.prepareWake session deliveryId reservationId socketPath reason now))
      db.runtime (db.step (.prepareWake session deliveryId reservationId socketPath reason now)).runtime := by
  change Runtime.Change _ _ db.runtime
    (atomically db (db.prepareWake session deliveryId reservationId socketPath reason now)).state.runtime
  cases result : db.prepareWake session deliveryId reservationId socketPath reason now with
  | error e =>
    refine .steady ?_ (.refl _) rfl
    intro named absolute listed fits
    obtain ⟨next,inserted⟩ := Runtime.insertWake_of_fits fits
    have limits : ¬ (reason = "" ∨ ¬ absolutePath socketPath) := fun bad => bad.elim named (fun relative => relative absolute)
    have accepted : db.prepareWake session deliveryId reservationId socketPath reason now =
        .ok ((),{db with runtime := next}) := by
      unfold prepareWake require
      rw [if_pos limits,if_pos listed,inserted]
      rfl
    rw [accepted] at result
    cases result
  | ok value =>
    obtain ⟨_,next⟩ := value
    obtain ⟨guard,listed,runtime,inserted,rfl⟩ := prepareWake_effect result
    obtain ⟨fits,wakes,sessions,reservations⟩ := Runtime.fits_of_insertWake inserted
    simp only [not_or,not_not] at guard
    refine .launched _ wakes rfl (.inl rfl) (fun w member => (fits.2.2.1 w member).1) sessions reservations fits.1 ?_
    exact ⟨fun active _ _ _ _ => active,fun clears => clears guard.1 guard.2 listed fits⟩

theorem exists_concerns (db : Store) (op : Op) : ∃ y, op.concerns db y := by
  have named {Row : Type} (found : Option Row) (session : Row → String) : ∃ y, ∀ r ∈ found, session r = y := by
    cases found with
    | none => exact ⟨"",by simp⟩
    | some r => exact ⟨session r,by simp⟩
  cases op with
  | runtime r =>
    cases r with
    | settleBudget | markBudgetUncertain | releaseBudget => exact named _ BudgetReservation.sessionId
    | markWakeRunning | finishWake => exact named _ WakeRuntime.sessionId
    | finishProcess => exact named _ ProcessRuntime.sessionId
    | _ => exact ⟨_,rfl⟩
  | recoverPreparedWake => exact named _ WakeRuntime.sessionId
  | prepareWake => exact ⟨_,rfl⟩
  | recoverOrphanSession => exact ⟨_,rfl⟩
  | _ => exact ⟨"",trivial⟩

theorem step_change {y : String} {db : Store} {op : Op} (rooted : Runtime.Rooted y db.runtime)
    (concerns : op.concerns db y) : Runtime.Change y (op.clears db) db.runtime (db.step op).runtime := by
  have effect := db.step_runtime op
  generalize after_ : (db.step op).runtime = after at effect ⊢
  cases effect with
  | unchanged idle =>
    cases op with
    | runtime r => exact .steady (Runtime.clears_of_refused (fun u next => idle r u next rfl)) (.refl _) rfl
    | prepareWake session deliveryId reservationId socketPath reason now =>
      cases concerns
      have change := @prepareWake_change db session deliveryId reservationId socketPath reason now
      rwa [after_] at change
    | _ => exact .steady trivial (.refl _) rfl
  | committed r next ok => exact Runtime.body_change concerns ok
  | @prepared session deliveryId reservationId socketPath reason now next ok =>
    cases concerns
    have change := @prepareWake_change db session deliveryId reservationId socketPath reason now
    rwa [after_] at change
  | orphaned sessionId guard middle ok =>
    cases concerns
    have free := Runtime.free_of_release rooted.oneReservation ok
    obtain ⟨keys,wakes⟩ := Runtime.sameKeys_of_release ok
    refine .ended ⟨keys.reservations,keys.wakes⟩ (Runtime.not_active_endSession (by simp) rfl) (iff_of_true ⟨free,?_⟩ trivial)
    · intro w member own
      rw [wakes] at member
      exact absurd own (count_eq_zero.mp guard.2.1 w member)
  | recovered wakeId error now wake found prepared guard middle ok =>
    have own := concerns wake found
    subst own
    have free := Runtime.free_of_release rooted.oneReservation ok
    obtain ⟨keys,wakes⟩ := Runtime.sameKeys_of_release ok
    refine .ended ⟨keys.reservations,(update_keys (by intro; rfl)).trans keys.wakes⟩
      (Runtime.not_active_endSession (by simp) rfl) (iff_of_true ⟨free,?_⟩ trivial)
    · intro w member own live
      obtain ⟨row,name⟩ := get_eq_some.mp found
      obtain ⟨old,present,⟨_,rfl⟩ | ⟨other,rfl⟩⟩ := mem_update_cases member
      · simp [WakeState.live] at live
      · have equal := rooted.oneWake w (wakes ▸ present) wake row own rfl
        exact other (equal ▸ name)

/-- What every run keeps, and what it keeps if the calls clear. -/
structure Closing (db : Store) : Prop where
  rooted : ∀ x, Runtime.Rooted x db.runtime
  employed : db.runtime.Employed
  staffed : db.runtime.Staffed
  held : ∀ x, Runtime.Held x db.runtime

theorem endedClear_of_held {db : Runtime} (staffed : db.Staffed) (held : ∀ x, Runtime.Held x db) : db.EndedClear := by
  intro s member ended
  have inactive : ¬ db.sessionActive s.sessionId := by
    intro active
    obtain ⟨t,present,own,state⟩ := Runtime.sessionActive_iff.mp active
    have same : s = t := mem_unique member present own.symm
    exact ended (same ▸ state)
  refine ⟨?_,(held s.sessionId).backed inactive,(held s.sessionId).manned inactive⟩
  intro a row own live
  exact inactive (own ▸ staffed a row live)

theorem held_of_endedClear {db : Runtime} (rooted : ∀ x, Runtime.Rooted x db) (clear : db.EndedClear) (x : String) :
    Runtime.Held x db := by
  -- a session on record that is not active is one that ended
  have ended (recorded : ∃ s ∈ db.sessions.rows, s.sessionId = x) (inactive : ¬ db.sessionActive x) :
      db.NothingLive x := by
    obtain ⟨s,member,rfl⟩ := recorded
    exact clear s member (fun state => inactive (Runtime.sessionActive_iff.mpr ⟨s,member,rfl,state⟩))
  constructor
  · intro inactive r member own
    exact (ended ((rooted x).booked r member own) inactive).reservations r member own
  · intro inactive w member own
    exact (ended ((rooted x).woken w member own) inactive).wakes w member own

/-- The step keeps ended sessions clear exactly if it clears what it ends. -/
theorem step_closing {db : Store} (closing : db.Closing) (op : Op) :
    ((db.step op).runtime.EndedClear ↔ op.clears db) ∧ (op.clears db → (db.step op).Closing) := by
  obtain ⟨y,concerns⟩ := db.exists_concerns op
  have shift := step_shift concerns
  have change := step_change (closing.rooted y) concerns
  obtain ⟨_,effect⟩ := (db.step_staffing op).some_effect
  have employed := effect.employed closing.employed
  have staffed := effect.staffed closing.staffed
  have rooted (x : String) : Runtime.Rooted x (db.step op).runtime := by
    by_cases other : x = y
    · exact other ▸ change.rooted shift (closing.rooted y)
    · exact (closing.rooted x).apart shift other
  have held : (∀ x, Runtime.Held x (db.step op).runtime) ↔ op.clears db := by
    rw [← change.held_iff shift (closing.held y)]
    constructor
    · intro every
      exact every y
    · intro own x
      by_cases other : x = y
      · exact other ▸ own
      · exact (closing.held x).apart shift other
  refine ⟨?_,fun clears => ⟨rooted,employed,staffed,held.mpr clears⟩⟩
  rw [← held]
  exact ⟨held_of_endedClear rooted,endedClear_of_held staffed⟩

theorem empty_closing : empty.Closing where
  rooted _ := ⟨fun _ member => (by cases member),fun _ member => (by cases member),fun _ member => (by cases member),
    fun _ member => (by cases member)⟩
  employed _ member := by cases member
  staffed _ member := by cases member
  held _ := ⟨fun _ _ member => (by cases member),fun _ _ member => (by cases member)⟩

/-- Every ended session is clear in every state of a run exactly if every call that ends a
session, or puts a wake on record, clears what it does not close itself. -/
theorem endedClear_iff (ops : List Op) :
    (∀ t ∈ trace step empty ops, t.after.runtime.EndedClear) ↔
      Along step (fun db op => op.clears db) empty ops :=
  @promise_iff_along _ _ step Closing (fun _ => True) (fun t => t.after.runtime.EndedClear)
    (fun db op => op.clears db) (fun _ op closing _ => step_closing closing op) empty empty_closing ops (fun _ _ => trivial)

/-- A session that is revoked with its budget still reserved. -/
def revokedReserved : List Op :=
  [.runtime (.createSession "session-1" "wake-1" "org" "po" "" [] ⟨0,Instant.zero_bounded⟩ 600 2),
    .runtime (.reserveBudget "reservation-1" "session-1" "epoch" 10 [("org","org",100),("role","po",100)] ⟨0,Instant.zero_bounded⟩),
    .runtime (.revokeSession "session-1")]

theorem revokedReserved_unclear : ¬ (run step empty revokedReserved).runtime.EndedClear := by
  intro clear
  have left : ∃ s ∈ (run step empty revokedReserved).runtime.sessions.rows, s.state ≠ .active ∧
      ∃ r ∈ (run step empty revokedReserved).runtime.reservations.rows, r.sessionId = s.sessionId ∧ r.state = .active := by
    decide
  obtain ⟨s,member,ended,r,row,own,active⟩ := left
  exact (clear s member ended).reservations r row own active

end Store
end SjgControl

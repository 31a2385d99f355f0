import SjgControl.Store.Operation

/-! What the store's tables say about one session, and that the operations of the host keep
it. An operation concerns one session; the rows of every other session stay as they are, so
an invariant of each session needs care at one session only. -/
namespace SjgControl
open Relational

/-! How a row may change: its identity stays, and what has ended does not come back. -/

def WakeSession.Moves (a b : WakeSession) : Prop :=
  b.sessionId = a.sessionId ∧ b.wakeId = a.wakeId ∧ b.orgId = a.orgId ∧ b.role = a.role ∧
    (b.state = .active → a.state = .active)

def BudgetReservation.Moves (a b : BudgetReservation) : Prop :=
  b.reservationId = a.reservationId ∧ b.sessionId = a.sessionId ∧ (b.state = .active → a.state = .active)

def WakeRuntime.Moves (a b : WakeRuntime) : Prop :=
  b.wakeId = a.wakeId ∧ b.sessionId = a.sessionId ∧ b.deliveryId = a.deliveryId ∧ b.role = a.role ∧
    (b.state.live → a.state.live)

def WorkerAttempt.Moves (a b : WorkerAttempt) : Prop :=
  b.attemptId = a.attemptId ∧ b.sessionId = a.sessionId

def ProcessRuntime.Moves (a b : ProcessRuntime) : Prop :=
  b.processKey = a.processKey ∧ b.sessionId = a.sessionId ∧ b.pid = a.pid ∧ b.birthToken = a.birthToken ∧
    (b.state = .running → a.state = .running)

theorem WakeSession.Moves.refl (a : WakeSession) : a.Moves a := by simp [Moves]

theorem BudgetReservation.Moves.refl (a : BudgetReservation) : a.Moves a := by simp [Moves]

theorem WakeRuntime.Moves.refl (a : WakeRuntime) : a.Moves a := by simp [Moves]

theorem WorkerAttempt.Moves.refl (a : WorkerAttempt) : a.Moves a := by simp [Moves]

theorem ProcessRuntime.Moves.refl (a : ProcessRuntime) : a.Moves a := by simp [Moves]

namespace Runtime
open Table

/-- A change of the tables that concerns the session `y` alone. -/
structure Shift (y : String) (db next : Runtime) : Prop where
  sessions : Apart WakeSession.sessionId y db.sessions next.sessions
  reservations : Apart BudgetReservation.sessionId y db.reservations next.reservations
  wakes : Apart WakeRuntime.sessionId y db.wakes next.wakes
  attempts : Apart WorkerAttempt.sessionId y db.attempts next.attempts
  processes : Apart ProcessRuntime.sessionId y db.processes next.processes
  keptSessions : Kept WakeSession.Moves db.sessions next.sessions
  keptReservations : Kept BudgetReservation.Moves db.reservations next.reservations
  keptWakes : Kept WakeRuntime.Moves db.wakes next.wakes
  keptAttempts : Kept WorkerAttempt.Moves db.attempts next.attempts
  keptProcesses : Kept ProcessRuntime.Moves db.processes next.processes

namespace Shift

theorem refl (y : String) (db : Runtime) : Shift y db db :=
  ⟨.refl _,.refl _,.refl _,.refl _,.refl _,.refl .refl _,.refl .refl _,.refl .refl _,.refl .refl _,.refl .refl _⟩

theorem trans {y : String} {a b c : Runtime} (first : Shift y a b) (second : Shift y b c) : Shift y a c where
  sessions := first.sessions.trans second.sessions
  reservations := first.reservations.trans second.reservations
  wakes := first.wakes.trans second.wakes
  attempts := first.attempts.trans second.attempts
  processes := first.processes.trans second.processes
  keptSessions := first.keptSessions.trans (by
    intro a b c one two
    unfold WakeSession.Moves at *
    grind) second.keptSessions
  keptReservations := first.keptReservations.trans (by
    intro a b c one two
    unfold BudgetReservation.Moves at *
    grind) second.keptReservations
  keptWakes := first.keptWakes.trans (by
    intro a b c one two
    unfold WakeRuntime.Moves at *
    grind) second.keptWakes
  keptAttempts := first.keptAttempts.trans (by
    intro a b c one two
    unfold WorkerAttempt.Moves at *
    grind) second.keptAttempts
  keptProcesses := first.keptProcesses.trans (by
    intro a b c one two
    unfold ProcessRuntime.Moves at *
    grind) second.keptProcesses

/-! Changes of one table. -/
section Single
variable {y : String} {db : Runtime}

theorem ofSessions {u : Table WakeSession} (apart : Apart WakeSession.sessionId y db.sessions u)
    (kept : Kept WakeSession.Moves db.sessions u) : Shift y db {db with sessions := u} :=
  {refl y db with sessions := apart,keptSessions := kept}

theorem ofReservations {u : Table BudgetReservation} {buckets : Table BudgetBucket}
    (apart : Apart BudgetReservation.sessionId y db.reservations u)
    (kept : Kept BudgetReservation.Moves db.reservations u) :
    Shift y db {db with buckets,reservations := u} :=
  {refl y db with reservations := apart,keptReservations := kept}

theorem ofWakes {u : Table WakeRuntime} (apart : Apart WakeRuntime.sessionId y db.wakes u)
    (kept : Kept WakeRuntime.Moves db.wakes u) : Shift y db {db with wakes := u} :=
  {refl y db with wakes := apart,keptWakes := kept}

theorem ofAttempts {u : Table WorkerAttempt} (apart : Apart WorkerAttempt.sessionId y db.attempts u)
    (kept : Kept WorkerAttempt.Moves db.attempts u) : Shift y db {db with attempts := u} :=
  {refl y db with attempts := apart,keptAttempts := kept}

theorem ofProcesses {u : Table ProcessRuntime} (apart : Apart ProcessRuntime.sessionId y db.processes u)
    (kept : Kept ProcessRuntime.Moves db.processes u) : Shift y db {db with processes := u} :=
  {refl y db with processes := apart,keptProcesses := kept}

theorem endSession (state : SessionState) : Shift y db {db with sessions := db.endSession y state} :=
  ofSessions (apart_update (fun _ _ selected => selected.1) (fun _ => rfl))
    (kept_update .refl (fun _ selected => ⟨rfl,rfl,rfl,rfl,fun _ => selected.2⟩))

theorem holdReservations : Shift y db {db with reservations := db.holdReservations y} :=
  ofReservations (apart_update (fun _ _ selected => selected.1) (fun _ => rfl))
    (kept_update .refl (fun _ selected => ⟨rfl,rfl,fun _ => selected.2⟩))

theorem failWorkers (now : Instant) : Shift y db {db with attempts := db.failWorkers y now} :=
  ofAttempts (apart_update (fun _ _ selected => selected.1) (fun _ => rfl))
    (kept_update .refl (fun _ _ => ⟨rfl,rfl⟩))

end Single
end Shift

end Runtime

/-- The operation is about the session `y`, directly or through the row it names. -/
def RuntimeOp.concerns (db : Runtime) (y : String) : RuntimeOp → Prop
  | .createSession sessionId _ _ _ _ _ _ _ _ => sessionId = y
  | .revokeSession sessionId => sessionId = y
  | .finishSession sessionId => sessionId = y
  | .forceTerminateSession sessionId _ _ => sessionId = y
  | .reapExpiredSession sessionId _ => sessionId = y
  | .reserveWorker _ sessionId _ _ _ _ _ => sessionId = y
  | .reserveBudget _ sessionId _ _ _ _ => sessionId = y
  | .settleBudget reservationId _ => ∀ r ∈ db.reservations.get reservationId, r.sessionId = y
  | .markBudgetUncertain reservationId => ∀ r ∈ db.reservations.get reservationId, r.sessionId = y
  | .releaseBudget reservationId => ∀ r ∈ db.reservations.get reservationId, r.sessionId = y
  | .markWakeRunning wakeId => ∀ r ∈ db.wakes.get wakeId, r.sessionId = y
  | .finishWake wakeId _ _ _ _ => ∀ r ∈ db.wakes.get wakeId, r.sessionId = y
  | .recordProcess _ sessionId _ _ _ _ _ _ => sessionId = y
  | .finishProcess processKey _ _ _ => ∀ r ∈ db.processes.get processKey, r.sessionId = y

def Op.concerns (db : Store) (y : String) : Op → Prop
  | .runtime op => op.concerns db.runtime y
  | .prepareWake session _ _ _ _ _ => session.sessionId = y
  | .recoverOrphanSession sessionId _ _ _ => sessionId = y
  | .recoverPreparedWake wakeId _ _ _ => ∀ r ∈ db.runtime.wakes.get wakeId, r.sessionId = y
  | _ => True

namespace Runtime
open Table

section Moves
variable {y : String} {db : Runtime}

theorem shift_reservation {p : BudgetReservation → Prop} [DecidablePred p] {state : ReservationState}
    {buckets : Table BudgetBucket} (selects : ∀ r ∈ db.reservations.rows, p r → r.sessionId = y ∧ r.state = .active)
    {keeps : ∀ r : BudgetReservation, Keyed.key {r with state} = Keyed.key r} :
    Shift y db {db with
      buckets
      reservations := db.reservations.update p (fun r => {r with state}) keeps} := by
  refine .ofReservations (apart_update ?_ (fun _ => rfl)) ?_
  · intro r member selected
    exact (selects r member selected).1
  · intro r member
    refine ⟨_,mem_update.mpr ⟨r,member,rfl⟩,?_⟩
    split
    next selected => exact ⟨rfl,rfl,fun _ => (selects r member selected).2⟩
    next => exact .refl r

theorem shift_wake {id : String} {p : WakeRuntime → Prop} [DecidablePred p] {f : WakeRuntime → WakeRuntime}
    {keeps : ∀ r, Keyed.key (f r) = Keyed.key r} (own : ∀ r ∈ db.wakes.get id, r.sessionId = y)
    (selects : ∀ r, p r → r.wakeId = id) (moves : ∀ r, p r → r.Moves (f r)) (stays : ∀ r, (f r).sessionId = r.sessionId) :
    Shift y db {db with wakes := db.wakes.update p f keeps} := by
  refine .ofWakes (apart_update ?_ stays) (kept_update .refl moves)
  intro r member selected
  exact own r (get_eq_some.mpr ⟨member,selects r selected⟩)

theorem releaseReservationFor_ok {next : Runtime} (ok : db.releaseReservationFor y = .ok next) :
    (next = db ∧ ∀ r ∈ db.reservations.rows, r.sessionId ≠ y) ∨
      ∃ r ∈ db.reservations.rows, r.sessionId = y ∧ r.state = .active ∧ ∃ buckets, next = {db with
        buckets
        reservations := db.reservations.update (fun x => x.reservationId = r.reservationId)
          (fun x => {x with state := .released}) (fun _ => rfl)} := by
  rcases releaseReservationFor_effect ok with ⟨none_,rfl⟩ | ⟨r,found,active,_,_,released⟩
  · exact .inl ⟨rfl,first_none.mp none_⟩
  · obtain ⟨member,own⟩ := first_some found
    obtain ⟨buckets,_,equal⟩ := release_effect released
    exact .inr ⟨r,member,own,active,buckets,equal⟩

theorem shift_release {r : BudgetReservation} {buckets : Table BudgetBucket} (member : r ∈ db.reservations.rows)
    (own : r.sessionId = y) (active : r.state = .active) :
    Shift y db {db with
      buckets
      reservations := db.reservations.update (fun x => x.reservationId = r.reservationId)
        (fun x => {x with state := .released}) (fun _ => rfl)} := by
  apply shift_reservation
  intro x present same
  have equal : x = r := mem_unique present member same
  exact equal ▸ ⟨own,active⟩

theorem shift_releaseReservationFor {next : Runtime} (ok : db.releaseReservationFor y = .ok next) :
    Shift y db next := by
  rcases releaseReservationFor_ok ok with ⟨rfl,_⟩ | ⟨r,member,own,active,buckets,rfl⟩
  · exact .refl y _
  · exact shift_release member own active

end Moves

theorem body_shift {y : String} {db next : Runtime} {op : RuntimeOp} (concerns : op.concerns db y)
    (ok : db.body op = .ok ((),next)) : Shift y db next := by
  cases op with
  | createSession =>
    obtain ⟨_,ok⟩ := discard_ok.mp ok
    obtain ⟨_,_,_,_,_,_,sessions,inserted,rfl,rfl⟩ := createSession_effect ok
    exact .ofSessions (apart_insert inserted concerns) (kept_insert .refl inserted)
  | revokeSession =>
    obtain ⟨_,_,rfl⟩ := revokeSession_effect ok
    cases concerns
    exact .endSession _
  | finishSession =>
    obtain ⟨_,_,rfl⟩ := finishSession_effect ok
    cases concerns
    exact .endSession _
  | forceTerminateSession _ expired now =>
    obtain ⟨_,rfl⟩ := forceTerminateSession_effect ok
    cases concerns
    refine ((Shift.failWorkers now).trans .holdReservations).trans
      ((Shift.endSession (if expired then .expired else .revoked)).trans ?_)
    exact .ofWakes (apart_update (fun _ _ selected => selected.1) (fun _ => rfl))
      (kept_update .refl (fun _ selected => ⟨rfl,rfl,rfl,rfl,fun _ => selected.2⟩))
  | reapExpiredSession _ now =>
    obtain ⟨row,⟨found,_⟩,rfl⟩ := reapExpiredSession_effect ok
    have own : row.sessionId = y := (get_eq_some.mp found).2.trans concerns
    rw [own]
    exact ((Shift.failWorkers now).trans .holdReservations).trans (.endSession .expired)
  | reserveWorker =>
    obtain ⟨_,ok⟩ := discard_ok.mp ok
    obtain ⟨_,_,_,_,_,_,attempts,inserted,rfl,rfl⟩ := reserveWorker_effect ok
    exact .ofAttempts (apart_insert inserted concerns) (kept_insert .refl inserted)
  | reserveBudget =>
    obtain ⟨_,ok⟩ := discard_ok.mp ok
    obtain ⟨_,_,_,_,_,_,_,_,reservations,inserted,_,rfl⟩ := reserveBudget_effect ok
    exact .ofReservations (apart_insert inserted concerns) (kept_insert .refl inserted)
  | settleBudget =>
    obtain ⟨_,ok⟩ := discard_ok.mp ok
    obtain ⟨_,r,⟨found,active⟩,_,_,_,rfl,rfl⟩ := settleBody_effect ok
    apply shift_reservation
    intro x member same
    have equal : x = r := mem_unique member (get_eq_some.mp found).1 (same.trans (get_eq_some.mp found).2.symm)
    exact equal ▸ ⟨concerns r found,by simpa using active⟩
  | markBudgetUncertain =>
    obtain ⟨_,rfl⟩ := markBudgetUncertain_effect ok
    apply shift_reservation
    intro r member selected
    exact ⟨concerns r (get_eq_some.mpr ⟨member,selected.1⟩),selected.2⟩
  | releaseBudget =>
    obtain ⟨r,⟨found,active⟩,_,_,released⟩ := releaseBudget_effect ok
    obtain ⟨_,_,rfl⟩ := release_effect released
    exact shift_release (get_eq_some.mp found).1 (concerns r found) active
  | markWakeRunning =>
    obtain ⟨_,rfl⟩ := markWakeRunning_effect ok
    exact shift_wake concerns (fun _ selected => selected.1)
      (fun _ selected => ⟨rfl,rfl,rfl,rfl,fun _ => .inl selected.2⟩) (fun _ => rfl)
  | finishWake =>
    obtain ⟨_,_,rfl⟩ := finishWake_effect ok
    exact shift_wake concerns (fun _ selected => selected.1)
      (fun _ selected => ⟨rfl,rfl,rfl,rfl,fun _ => selected.2⟩) (fun _ => rfl)
  | recordProcess =>
    obtain ⟨_,_,processes,inserted,rfl⟩ := recordProcess_effect ok
    exact .ofProcesses (apart_insert inserted concerns) (kept_insert .refl inserted)
  | finishProcess =>
    obtain ⟨_,_,rfl⟩ := finishProcess_effect ok
    refine .ofProcesses (apart_update ?_ (fun _ => rfl))
      (kept_update .refl (fun _ selected => ⟨rfl,rfl,rfl,rfl,fun _ => selected.2⟩))
    intro r member selected
    exact concerns r (get_eq_some.mpr ⟨member,selected.1⟩)

end Runtime

namespace Store
open Table

theorem step_shift {y : String} {db : Store} {op : Op} (concerns : op.concerns db y) :
    Runtime.Shift y db.runtime (db.step op).runtime := by
  have effect := db.step_runtime op
  generalize (db.step op).runtime = after at effect ⊢
  cases effect with
  | unchanged => exact .refl y _
  | committed r next ok => exact Runtime.body_shift concerns ok
  | prepared next ok =>
    obtain ⟨_,wakes,inserted,rfl⟩ := Runtime.insertWake_effect ok
    exact .ofWakes (apart_insert inserted concerns) (kept_insert .refl inserted)
  | orphaned sessionId guard middle ok =>
    cases concerns
    exact (Runtime.shift_releaseReservationFor ok).trans (.endSession .revoked)
  | recovered wakeId error now wake found prepared guard middle ok =>
    have own := concerns wake found
    subst own
    have wakes : middle.wakes = db.runtime.wakes := by
      rcases Runtime.releaseReservationFor_ok ok with ⟨rfl,_⟩ | ⟨r,_,_,_,buckets,rfl⟩ <;> rfl
    refine (Runtime.shift_releaseReservationFor ok).trans ((Runtime.Shift.endSession .revoked).trans ?_)
    refine .ofWakes (apart_update ?_ (fun _ => rfl)) ?_
    · intro r member same
      exact concerns r (get_eq_some.mpr ⟨wakes ▸ member,same⟩)
    · intro r member
      refine ⟨_,mem_update.mpr ⟨r,member,rfl⟩,?_⟩
      split
      next => exact ⟨rfl,rfl,rfl,rfl,by simp [WakeState.live]⟩
      next => exact .refl r

end Store

namespace Runtime
open Table

theorem sessionActive_iff {db : Runtime} {x : String} :
    db.sessionActive x ↔ ∃ s ∈ db.sessions.rows, s.sessionId = x ∧ s.state = .active := by
  constructor
  · intro active
    obtain ⟨s,found,state⟩ := Option.map_eq_some_iff.mp active
    obtain ⟨member,own⟩ := get_eq_some.mp found
    exact ⟨s,member,own,state⟩
  · rintro ⟨s,member,own,state⟩
    exact Option.map_eq_some_iff.mpr ⟨s,get_eq_some.mpr ⟨member,own⟩,state⟩

def hasWake (db : Runtime) (x : String) : Prop := ∃ w ∈ db.wakes.rows, w.sessionId = x

/-- The rows of one session agree with each other. Work is done for a session only once its
wake is on record; a wake in progress and an active reservation belong to an active session;
a reservation is spent only by a wake, or together with its session. -/
structure Orderly (x : String) (db : Runtime) : Prop where
  oneReservation : ∀ r ∈ db.reservations.rows, ∀ q ∈ db.reservations.rows,
    r.sessionId = x → q.sessionId = x → r = q
  oneWake : ∀ w ∈ db.wakes.rows, ∀ v ∈ db.wakes.rows, w.sessionId = x → v.sessionId = x → w = v
  entered : ∀ r ∈ db.reservations.rows, r.sessionId = x → ∃ s ∈ db.sessions.rows, s.sessionId = x
  named : ∀ w ∈ db.wakes.rows, w.sessionId = x →
    ∃ s ∈ db.sessions.rows, s.sessionId = x ∧ s.wakeId = w.wakeId ∧ s.role = w.role
  attended : ∀ a ∈ db.attempts.rows, a.sessionId = x → db.hasWake x
  recorded : ∀ p ∈ db.processes.rows, p.sessionId = x → db.hasWake x
  spent : ∀ r ∈ db.reservations.rows, r.sessionId = x → r.state ≠ .active →
    db.hasWake x ∨ ¬ db.sessionActive x
  manned : ∀ w ∈ db.wakes.rows, w.sessionId = x → w.state.live → db.sessionActive x
  backed : ∀ r ∈ db.reservations.rows, r.sessionId = x → r.state = .active → db.sessionActive x

section Frame
variable {x y : String} {db next : Runtime}

theorem Shift.active_iff (shift : Shift y db next) (other : x ≠ y) :
    next.sessionActive x ↔ db.sessionActive x := by
  rw [sessionActive_iff,sessionActive_iff]
  constructor
  · rintro ⟨s,member,own,state⟩
    exact ⟨s,(shift.sessions s (own ▸ other)).mp member,own,state⟩
  · rintro ⟨s,member,own,state⟩
    exact ⟨s,(shift.sessions s (own ▸ other)).mpr member,own,state⟩

theorem Shift.hasWake_iff (shift : Shift y db next) (other : x ≠ y) : next.hasWake x ↔ db.hasWake x := by
  constructor
  · rintro ⟨w,member,own⟩
    exact ⟨w,(shift.wakes w (own ▸ other)).mp member,own⟩
  · rintro ⟨w,member,own⟩
    exact ⟨w,(shift.wakes w (own ▸ other)).mpr member,own⟩

theorem Shift.hasWake (shift : Shift y db next) (wake : db.hasWake x) : next.hasWake x := by
  obtain ⟨w,member,own⟩ := wake
  obtain ⟨v,present,moves⟩ := shift.keptWakes w member
  exact ⟨v,present,moves.2.1.trans own⟩

theorem Shift.active (shift : Shift y db next) {s : WakeSession} (member : s ∈ db.sessions.rows)
    (active : next.sessionActive s.sessionId) : db.sessionActive s.sessionId := by
  obtain ⟨t,present,own,state⟩ := sessionActive_iff.mp active
  obtain ⟨v,final,moves⟩ := shift.keptSessions s member
  have same : t = v := mem_unique present final (own.trans moves.1.symm)
  exact sessionActive_iff.mpr ⟨s,member,rfl,moves.2.2.2.2 (same ▸ state)⟩

theorem Orderly.apart (orderly : Orderly x db) (shift : Shift y db next) (other : x ≠ y) : Orderly x next where
  oneReservation r member q present own same := orderly.oneReservation
    r ((shift.reservations r (own ▸ other)).mp member) q ((shift.reservations q (same ▸ other)).mp present) own same
  oneWake w member v present own same := orderly.oneWake
    w ((shift.wakes w (own ▸ other)).mp member) v ((shift.wakes v (same ▸ other)).mp present) own same
  entered r member own := by
    obtain ⟨s,found,same⟩ := orderly.entered r ((shift.reservations r (own ▸ other)).mp member) own
    exact ⟨s,(shift.sessions s (same ▸ other)).mpr found,same⟩
  named w member own := by
    obtain ⟨s,found,same,name⟩ := orderly.named w ((shift.wakes w (own ▸ other)).mp member) own
    exact ⟨s,(shift.sessions s (same ▸ other)).mpr found,same,name⟩
  attended a member own := (shift.hasWake_iff other).mpr
    (orderly.attended a ((shift.attempts a (own ▸ other)).mp member) own)
  recorded p member own := (shift.hasWake_iff other).mpr
    (orderly.recorded p ((shift.processes p (own ▸ other)).mp member) own)
  spent r member own state := by
    rw [shift.hasWake_iff other,shift.active_iff other]
    exact orderly.spent r ((shift.reservations r (own ▸ other)).mp member) own state
  manned w member own live := (shift.active_iff other).mpr
    (orderly.manned w ((shift.wakes w (own ▸ other)).mp member) own live)
  backed r member own state := (shift.active_iff other).mpr
    (orderly.backed r ((shift.reservations r (own ▸ other)).mp member) own state)

end Frame

structure SameKeys (db next : Runtime) : Prop where
  reservations : next.reservations.rows.map Keyed.key = db.reservations.rows.map Keyed.key
  wakes : next.wakes.rows.map Keyed.key = db.wakes.rows.map Keyed.key
  attempts : next.attempts.rows.map Keyed.key = db.attempts.rows.map Keyed.key
  processes : next.processes.rows.map Keyed.key = db.processes.rows.map Keyed.key

section Concerned
variable {y : String} {db next : Runtime}

/-- The parts of the invariant that only adding a row can break. -/
theorem Orderly.revised (orderly : Orderly y db) (shift : Shift y db next) (keys : SameKeys db next)
    (spent : ∀ r ∈ next.reservations.rows, r.sessionId = y → r.state ≠ .active →
      next.hasWake y ∨ ¬ next.sessionActive y)
    (manned : ∀ w ∈ next.wakes.rows, w.sessionId = y → w.state.live → next.sessionActive y)
    (backed : ∀ r ∈ next.reservations.rows, r.sessionId = y → r.state = .active → next.sessionActive y) :
    Orderly y next := by
  have reservations := shift.keptReservations.drawn keys.reservations (fun _ _ moves => moves.1)
  have wakes := shift.keptWakes.drawn keys.wakes (fun _ _ moves => moves.1)
  have attempts := shift.keptAttempts.drawn keys.attempts (fun _ _ moves => moves.1)
  have processes := shift.keptProcesses.drawn keys.processes (fun _ _ moves => moves.1)
  refine ⟨?_,?_,?_,?_,?_,?_,spent,manned,backed⟩
  · intro r member q present own same
    obtain ⟨r₀,rowR,movesR⟩ := reservations r member
    obtain ⟨q₀,rowQ,movesQ⟩ := reservations q present
    have equal := orderly.oneReservation r₀ rowR q₀ rowQ (movesR.2.1.symm.trans own) (movesQ.2.1.symm.trans same)
    subst equal
    exact mem_unique member present (movesR.1.trans movesQ.1.symm)
  · intro w member v present own same
    obtain ⟨w₀,rowW,movesW⟩ := wakes w member
    obtain ⟨v₀,rowV,movesV⟩ := wakes v present
    have equal := orderly.oneWake w₀ rowW v₀ rowV (movesW.2.1.symm.trans own) (movesV.2.1.symm.trans same)
    subst equal
    exact mem_unique member present (movesW.1.trans movesV.1.symm)
  · intro r member own
    obtain ⟨r₀,row,moves⟩ := reservations r member
    obtain ⟨s,found,same⟩ := orderly.entered r₀ row (moves.2.1.symm.trans own)
    obtain ⟨t,present,kept⟩ := shift.keptSessions s found
    exact ⟨t,present,kept.1.trans same⟩
  · intro w member own
    obtain ⟨w₀,row,moves⟩ := wakes w member
    obtain ⟨s,found,same,wakeId,role⟩ := orderly.named w₀ row (moves.2.1.symm.trans own)
    obtain ⟨t,present,kept⟩ := shift.keptSessions s found
    exact ⟨t,present,kept.1.trans same,kept.2.1.trans (wakeId.trans moves.1.symm),
      kept.2.2.2.1.trans (role.trans moves.2.2.2.1.symm)⟩
  · intro a member own
    obtain ⟨a₀,row,moves⟩ := attempts a member
    exact shift.hasWake (orderly.attended a₀ row (moves.2.symm.trans own))
  · intro p member own
    obtain ⟨p₀,row,moves⟩ := processes p member
    exact shift.hasWake (orderly.recorded p₀ row (moves.2.1.symm.trans own))

/-- A change that leaves the sessions alone may spend the reservation of a wake on record. -/
theorem Orderly.worked (orderly : Orderly y db) (shift : Shift y db next) (keys : SameKeys db next)
    (sessions : next.sessions = db.sessions) (wake : db.hasWake y ∨ next.reservations = db.reservations) :
    Orderly y next := by
  have active : next.sessionActive y ↔ db.sessionActive y := by
    unfold sessionActive
    rw [sessions]
  have reservations := shift.keptReservations.drawn keys.reservations (fun _ _ moves => moves.1)
  have wakes := shift.keptWakes.drawn keys.wakes (fun _ _ moves => moves.1)
  refine orderly.revised shift keys ?_ ?_ ?_
  · intro r member own state
    rcases wake with wake | same
    · exact .inl (shift.hasWake wake)
    · rw [same] at member
      rw [active]
      exact (orderly.spent r member own state).imp_left shift.hasWake
  · intro w member own live
    obtain ⟨w₀,row,moves⟩ := wakes w member
    exact active.mpr (orderly.manned w₀ row (moves.2.1.symm.trans own) (moves.2.2.2.2 live))
  · intro r member own state
    obtain ⟨r₀,row,moves⟩ := reservations r member
    exact active.mpr (orderly.backed r₀ row (moves.2.1.symm.trans own) (moves.2.2 state))

theorem Orderly.ended (orderly : Orderly y db) (shift : Shift y db next) (keys : SameKeys db next)
    (inactive : ¬ next.sessionActive y)
    (idle : ∀ w ∈ next.wakes.rows, w.sessionId = y → ¬ w.state.live)
    (free : ∀ r ∈ next.reservations.rows, r.sessionId = y → r.state ≠ .active) : Orderly y next :=
  orderly.revised shift keys (fun _ _ _ _ => .inr inactive)
    (fun w member own live => absurd live (idle w member own))
    (fun r member own state => absurd state (free r member own))

end Concerned

theorem not_active_endSession {db next : Runtime} {y : String} {state : SessionState} (inactive : state ≠ .active)
    (sessions : next.sessions = db.endSession y state) : ¬ next.sessionActive y := by
  intro active
  obtain ⟨s,member,own,held⟩ := sessionActive_iff.mp active
  rw [sessions] at member
  obtain ⟨old,_,⟨_,rfl⟩ | ⟨other,rfl⟩⟩ := mem_update_cases member
  · exact inactive held
  · exact other ⟨own,held⟩

theorem held_of_holdReservations {db : Runtime} {y : String} :
    ∀ r ∈ (db.holdReservations y).rows, r.sessionId = y → r.state ≠ .active := by
  intro r member own active
  obtain ⟨old,_,⟨_,rfl⟩ | ⟨other,rfl⟩⟩ := mem_update_cases member
  · simp at active
  · exact other ⟨own,active⟩

theorem released_reservations {db : Runtime} {y : String} {r : BudgetReservation}
    (one : ∀ r ∈ db.reservations.rows, ∀ q ∈ db.reservations.rows, r.sessionId = y → q.sessionId = y → r = q)
    (row : r ∈ db.reservations.rows) (own : r.sessionId = y) :
    ∀ x ∈ (db.reservations.update (fun x => x.reservationId = r.reservationId)
      (fun x => {x with state := .released}) (fun _ => rfl)).rows, x.sessionId = y → x.state ≠ .active := by
  intro x member same
  obtain ⟨old,present,⟨_,rfl⟩ | ⟨other,rfl⟩⟩ := mem_update_cases member
  · simp
  · have equal := one x present r row same own
    exact absurd (congrArg BudgetReservation.reservationId equal) other

theorem free_of_release {db middle : Runtime} {y : String}
    (one : ∀ r ∈ db.reservations.rows, ∀ q ∈ db.reservations.rows, r.sessionId = y → q.sessionId = y → r = q)
    (ok : db.releaseReservationFor y = .ok middle) :
    ∀ r ∈ middle.reservations.rows, r.sessionId = y → r.state ≠ .active := by
  rcases releaseReservationFor_ok ok with ⟨rfl,none_⟩ | ⟨r,row,own,_,buckets,rfl⟩
  · exact fun x member same => absurd same (none_ x member)
  · exact released_reservations one row own

theorem sameKeys_of_release {db middle : Runtime} {y : String} (ok : db.releaseReservationFor y = .ok middle) :
    SameKeys db middle ∧ middle.wakes = db.wakes := by
  rcases releaseReservationFor_ok ok with ⟨rfl,_⟩ | ⟨r,_,_,_,buckets,rfl⟩
  · exact ⟨⟨rfl,rfl,rfl,rfl⟩,rfl⟩
  · exact ⟨⟨update_keys (by intro; rfl),rfl,rfl,rfl⟩,rfl⟩

end Runtime

/-- What the host sees to before it calls the operation. -/
def RuntimeOp.proper (db : Runtime) (y : String) : RuntimeOp → Prop
  | .revokeSession _ => (∀ w ∈ db.wakes.rows, w.sessionId = y → ¬ w.state.live) ∧
      ∀ r ∈ db.reservations.rows, r.sessionId = y → r.state ≠ .active
  | .finishSession _ => ∀ w ∈ db.wakes.rows, w.sessionId = y → ¬ w.state.live
  | .reserveWorker _ _ _ _ _ _ _ => db.hasWake y
  | .settleBudget _ _ => db.hasWake y
  | .markBudgetUncertain _ => db.hasWake y
  | .recordProcess _ _ _ _ _ _ _ _ => db.hasWake y
  | .reapExpiredSession _ _ => False
  | .releaseBudget _ => False
  | _ => True

def Op.proper (db : Store) (y : String) : Op → Prop
  | .runtime op => op.proper db.runtime y
  | .prepareWake session _ _ _ _ _ => db.runtime.sessionActive y ∧
      ∃ s ∈ db.runtime.sessions.rows, s.sessionId = y ∧ s.wakeId = session.wakeId ∧ s.role = session.role
  | _ => True

namespace Runtime
open Table

theorem body_orderly {y : String} {db next : Runtime} {op : RuntimeOp} (orderly : Orderly y db)
    (concerns : op.concerns db y) (proper : op.proper db y) (ok : db.body op = .ok ((),next)) : Orderly y next := by
  have shift := body_shift concerns ok
  cases op with
  | createSession =>
    obtain ⟨_,ok⟩ := discard_ok.mp ok
    obtain ⟨_,_,_,_,_,_,sessions,inserted,rfl,rfl⟩ := createSession_effect ok
    cases concerns
    have absent : ∀ s ∈ db.sessions.rows, s.sessionId ≠ y := get_eq_none.mp (insert_fresh inserted)
    have unbooked : ∀ r ∈ db.reservations.rows, r.sessionId ≠ y := by
      intro r member own
      obtain ⟨s,found,same⟩ := orderly.entered r member own
      exact absent s found same
    have unwoken : ∀ w ∈ db.wakes.rows, w.sessionId ≠ y := by
      intro w member own
      obtain ⟨s,found,same,_⟩ := orderly.named w member own
      exact absent s found same
    exact ⟨orderly.oneReservation,orderly.oneWake,fun r member own => absurd own (unbooked r member),
      fun w member own => absurd own (unwoken w member),orderly.attended,orderly.recorded,
      fun r member own => absurd own (unbooked r member),fun w member own => absurd own (unwoken w member),
      fun r member own => absurd own (unbooked r member)⟩
  | revokeSession =>
    obtain ⟨_,_,rfl⟩ := revokeSession_effect ok
    cases concerns
    exact orderly.ended shift ⟨rfl,rfl,rfl,rfl⟩ (not_active_endSession (by simp) rfl) proper.1 proper.2
  | finishSession =>
    obtain ⟨⟨_,unheld⟩,_,rfl⟩ := finishSession_effect ok
    cases concerns
    refine orderly.ended shift ⟨rfl,rfl,rfl,rfl⟩ (not_active_endSession (by simp) rfl) proper ?_
    intro r member own active
    exact count_eq_zero.mp unheld r member ⟨own,active⟩
  | forceTerminateSession _ expired =>
    obtain ⟨_,rfl⟩ := forceTerminateSession_effect ok
    cases concerns
    refine orderly.ended shift ⟨update_keys (by intro; rfl),update_keys (by intro; rfl),update_keys (by intro; rfl),rfl⟩
      (not_active_endSession (by cases expired <;> simp) rfl) ?_ held_of_holdReservations
    intro w member own live
    obtain ⟨old,_,⟨_,rfl⟩ | ⟨other,rfl⟩⟩ := mem_update_cases member
    · simp [WakeState.live] at live
    · exact other ⟨own,live⟩
  | reserveWorker =>
    obtain ⟨_,ok⟩ := discard_ok.mp ok
    obtain ⟨_,_,_,_,_,_,attempts,inserted,rfl,rfl⟩ := reserveWorker_effect ok
    exact {orderly with attended := fun _ _ _ => proper}
  | reserveBudget =>
    obtain ⟨_,ok⟩ := discard_ok.mp ok
    obtain ⟨_,row,⟨found,standing,_⟩,_,_,_,_,first,reservations,inserted,_,rfl⟩ := reserveBudget_effect ok
    cases concerns
    have unbooked := count_eq_zero.mp first
    obtain ⟨member,own⟩ := get_eq_some.mp found
    have active : db.sessionActive y := sessionActive_iff.mpr ⟨row,member,own,standing⟩
    have old {r : BudgetReservation} (present : r ∈ reservations.rows) (same : r.sessionId = y) :
        r.state = .active := by
      rcases (mem_insert inserted).mp present with before | equal
      · exact absurd same (unbooked r before)
      · rw [equal]
    refine {orderly with
      oneReservation := ?_
      entered := fun _ _ _ => ⟨row,member,own⟩
      spent := fun r present same spent => absurd (old present same) spent
      backed := fun _ _ _ _ => active}
    intro r present q other same also
    rcases (mem_insert inserted).mp present with before | equal
    · exact absurd same (unbooked r before)
    · rcases (mem_insert inserted).mp other with before | equal'
      · exact absurd also (unbooked q before)
      · rw [equal,equal']
  | settleBudget =>
    obtain ⟨_,ok⟩ := discard_ok.mp ok
    obtain ⟨_,r,⟨found,active⟩,_,_,_,rfl,rfl⟩ := settleBody_effect ok
    exact orderly.worked shift ⟨update_keys (by intro; rfl),rfl,rfl,rfl⟩ rfl (.inl proper)
  | markBudgetUncertain =>
    obtain ⟨_,rfl⟩ := markBudgetUncertain_effect ok
    exact orderly.worked shift ⟨update_keys (by intro; rfl),rfl,rfl,rfl⟩ rfl (.inl proper)
  | markWakeRunning =>
    obtain ⟨_,rfl⟩ := markWakeRunning_effect ok
    exact orderly.worked shift ⟨rfl,update_keys (by intro; rfl),rfl,rfl⟩ rfl (.inr rfl)
  | finishWake =>
    obtain ⟨_,_,rfl⟩ := finishWake_effect ok
    exact orderly.worked shift ⟨rfl,update_keys (by intro; rfl),rfl,rfl⟩ rfl (.inr rfl)
  | recordProcess =>
    obtain ⟨_,_,processes,inserted,rfl⟩ := recordProcess_effect ok
    exact {orderly with recorded := fun _ _ _ => proper}
  | finishProcess =>
    obtain ⟨_,_,rfl⟩ := finishProcess_effect ok
    exact orderly.worked shift ⟨rfl,rfl,rfl,update_keys (by intro; rfl)⟩ rfl (.inr rfl)
  | reapExpiredSession => exact proper.elim
  | releaseBudget => exact proper.elim

end Runtime

namespace Store
open Table

/-- A proper operation keeps the invariant of every session. -/
theorem step_orderly {y : String} {db : Store} {op : Op} (orderly : ∀ x, Runtime.Orderly x db.runtime)
    (concerns : op.concerns db y) (proper : op.proper db y) (x : String) :
    Runtime.Orderly x (db.step op).runtime := by
  have shift := step_shift concerns
  by_cases other : x = y
  · subst other
    have effect := db.step_runtime op
    generalize (db.step op).runtime = after at effect shift ⊢
    cases effect with
    | unchanged => exact orderly x
    | committed r next ok => exact Runtime.body_orderly (orderly x) concerns proper ok
    | @prepared session _ _ _ _ _ next ok =>
      obtain ⟨⟨_,_,first⟩,wakes,inserted,rfl⟩ := Runtime.insertWake_effect ok
      obtain ⟨active,s,member,own,wakeId,role⟩ := proper
      cases concerns
      have unwoken (w : WakeRuntime) (row : w ∈ db.runtime.wakes.rows) : w.sessionId ≠ session.sessionId :=
        fun same => count_eq_zero.mp first w row (.inl same)
      have old := orderly session.sessionId
      refine {old with
        oneWake := ?_
        named := ?_
        attended := fun a row same => shift.hasWake (old.attended a row same)
        recorded := fun p row same => shift.hasWake (old.recorded p row same)
        spent := fun r row same spent => (old.spent r row same spent).imp_left shift.hasWake
        manned := fun _ _ _ _ => active}
      · intro w row v also same too
        rcases (mem_insert inserted).mp row with before | equal
        · exact absurd same (unwoken w before)
        · rcases (mem_insert inserted).mp also with before | equal'
          · exact absurd too (unwoken v before)
          · rw [equal,equal']
      · intro w row same
        rcases (mem_insert inserted).mp row with before | equal
        · exact absurd same (unwoken w before)
        · rw [equal]
          exact ⟨s,member,own,wakeId,role⟩
    | orphaned sessionId guard middle ok =>
      cases concerns
      have free := Runtime.free_of_release (orderly x).oneReservation ok
      obtain ⟨keys,wakes⟩ := Runtime.sameKeys_of_release ok
      refine (orderly x).ended shift ⟨keys.reservations,keys.wakes,keys.attempts,keys.processes⟩
        (Runtime.not_active_endSession (by simp) rfl) ?_ free
      intro w member own
      rw [wakes] at member
      exact absurd own (count_eq_zero.mp guard.2.1 w member)
    | recovered wakeId error now wake found prepared guard middle ok =>
      have own := concerns wake found
      subst own
      have free := Runtime.free_of_release (orderly wake.sessionId).oneReservation ok
      obtain ⟨keys,wakes⟩ := Runtime.sameKeys_of_release ok
      refine (orderly wake.sessionId).ended shift
        ⟨keys.reservations,(update_keys (by intro; rfl)).trans keys.wakes,keys.attempts,keys.processes⟩
        (Runtime.not_active_endSession (by simp) rfl) ?_ free
      intro w member own live
      obtain ⟨row,name⟩ := get_eq_some.mp found
      obtain ⟨old,present,⟨_,rfl⟩ | ⟨other,rfl⟩⟩ := mem_update_cases member
      · simp [WakeState.live] at live
      · have equal := (orderly wake.sessionId).oneWake w (wakes ▸ present) wake row own rfl
        exact other (equal ▸ name)
  · exact (orderly x).apart shift other

end Store
end SjgControl

import SjgControl.Host.Discipline
import SjgControl.Host.System

/-! How the threads of the host use the store. Each access concerns one session, meets what
the discipline asks of it there, and leaves the thread where the tables bear out what its
program point says. -/
namespace SjgControl
open Relational Machine

namespace Store

theorem apply_runtime_ok {db : Store} {op : RuntimeOp} {u : Unit} (ok : (db.apply (.runtime op)).result = .ok u) :
    db.runtime.body op = .ok ((),(db.step (.runtime op)).runtime) := by
  cases op with
  | settleBudget reservationId consumed =>
    simp only [step,apply,lift,Runtime.apply,Runtime.settleBudget,Runtime.body,discard] at ok ⊢
    split at ok
    next => cases ok
    next => cases ok
    next result =>
      rw [result]
      rfl
  | _ => exact atomically_ok ok

theorem step_of_error {db : Store} {op : RuntimeOp} {e : StoreError}
    (other : ∀ reservationId consumed, op ≠ .settleBudget reservationId consumed)
    (failed : (db.apply (.runtime op)).result = .error e) : db.step (.runtime op) = db := by
  have fails : (atomically db.runtime (db.runtime.body op)).result = .error e := by
    cases op with
    | settleBudget reservationId consumed => exact absurd rfl (other reservationId consumed)
    | _ => exact failed
  have state := db.runtime.apply_state op
  unfold atomically at fails state
  split at fails
  next => cases fails
  next e result =>
    rw [result] at state
    simp only [step,apply,lift,state]

end Store

namespace Access
variable {P : Type}

/-- The access is about the session `y`, and proper there. -/
def decent (w : World) (y : String) : Access P → Prop
  | .create sessionId _ _ _ _ _ _ _ _ _ => sessionId = y
  | .call op _ => op.concerns w.store y ∧ op.proper w.store y
  | .setAttempt attemptId _ _ _ _ => ∀ a ∈ w.store.runtime.attempts.get attemptId, a.sessionId = y
  | .quarantine sessionId _ _ => sessionId = y
  | _ => True

/-- The access leaves sessions and what they own alone. -/
def quiet : Access P → Bool
  | .call (.queue _) _ | .call (.journal _) _ | .call (.reserveRequest _ _ _ _ _ _) _ => true
  | .create _ _ _ _ _ _ _ _ _ _ | .call _ _ | .setAttempt _ _ _ _ _ | .quarantine _ _ _ => false
  | _ => true

end Access

namespace World
variable {P : Type} {w : World} {y : String} {a : Access P}
open SjgControl.Runtime Table

theorem perform_create (sessionId wakeId orgId role digest : String) (aliases : List String) (now : Instant)
    (ttl cap : Int) (next : Except StoreError Session → P) :
    (w.perform (.create sessionId wakeId orgId role digest aliases now ttl cap next)).1.store =
      w.store.step (.runtime (.createSession sessionId wakeId orgId role digest aliases now ttl cap)) := by
  simp only [perform,Store.step,Store.apply,Store.lift,Runtime.apply,Runtime.body,discard]
  cases w.store.runtime.createSession sessionId wakeId orgId role digest aliases now ttl cap <;> rfl

theorem shift_setAttempt {db : Runtime} {attemptId : String} {state : AttemptState}
    {finishedAt artifact : Option String} (own : ∀ a ∈ db.attempts.get attemptId, a.sessionId = y) :
    Shift y db (db.setAttempt attemptId state finishedAt artifact) := by
  refine .ofAttempts (apart_update ?_ (fun _ => rfl)) (kept_update .refl (fun _ _ => ⟨rfl,rfl⟩))
  intro r member selected
  exact own r (get_eq_some.mpr ⟨member,selected⟩)

theorem shift_quarantineWake {db : Runtime} {now : Instant} : Shift y db (db.quarantineWake y now) :=
  .ofWakes (apart_update (fun _ _ selected => selected.1) (fun _ => rfl))
    (kept_update .refl (fun _ selected => ⟨rfl,rfl,rfl,rfl,fun _ => selected.2⟩))

theorem perform_quiet (quiet : a.quiet) : (w.perform a).1.store.runtime = w.store.runtime := by
  cases a with
  | call op next =>
    cases op with
    | queue => rfl
    | journal => rfl
    | reserveRequest => rfl
    | _ => simp [Access.quiet] at quiet
  | spawn p stay next =>
    simp only [perform]
    split <;> rfl
  | report _ _ _ tokens =>
    simp only [perform]
    cases tokens <;> rfl
  | create => simp [Access.quiet] at quiet
  | setAttempt => simp [Access.quiet] at quiet
  | quarantine => simp [Access.quiet] at quiet
  | _ => rfl

theorem perform_shift (decent : a.decent w y) :
    Shift y w.store.runtime (w.perform a).1.store.runtime := by
  cases a with
  | create =>
    rw [perform_create]
    exact Store.step_shift decent
  | call op next => exact Store.step_shift decent.1
  | setAttempt => exact shift_setAttempt decent
  | quarantine =>
    cases decent
    exact shift_quarantineWake
  | spawn p stay next =>
    simp only [perform]
    split <;> exact .refl y _
  | report _ _ _ tokens =>
    simp only [perform]
    cases tokens <;> exact .refl y _
  | _ => exact .refl y _

theorem perform_orderly (orderly : ∀ x, Orderly x w.store.runtime) (decent : a.decent w y) (x : String) :
    Orderly x (w.perform a).1.store.runtime := by
  have shift := perform_shift decent
  by_cases other : x = y
  · subst other
    cases a with
    | create sessionId wakeId orgId role digest aliases now ttl cap next =>
      rw [perform_create]
      exact @Store.step_orderly x _ (.runtime (.createSession sessionId wakeId orgId role digest aliases now ttl cap))
        orderly decent trivial x
    | call op next => exact Store.step_orderly orderly decent.1 decent.2 x
    | setAttempt => exact (orderly x).worked shift ⟨rfl,rfl,update_keys (by intro; rfl),rfl⟩ rfl (.inr rfl)
    | quarantine => exact (orderly x).worked shift ⟨rfl,update_keys (by intro; rfl),rfl,rfl⟩ rfl (.inr rfl)
    | spawn p stay next =>
      simp only [perform]
      split <;> exact orderly x
    | report _ _ _ tokens =>
      simp only [perform]
      cases tokens <;> exact orderly x
    | _ => exact orderly x
  · exact (orderly x).apart shift other

end World

/-! What a program point says about the tables. -/

namespace WakePoint

/-- Between `create_session` and `prepare_wake`. -/
def early : WakePoint → Bool
  | .sessioned _ | .refused _ _ | .budgeted _ => true
  | _ => false

/-- Before `reserve_budget`. -/
def unbooked : WakePoint → Bool
  | .sessioned _ | .refused _ _ => true
  | _ => false

def reserved : WakePoint → Option Grant
  | .budgeted g => some g
  | point => point.grant

/-- Between `finish_wake` and `finish_session`. -/
def shut : WakePoint → Bool
  | .closed _ _ _ | .delivered _ _ _ => true
  | _ => false

end WakePoint

def Terminate.rows : Terminate → List ProcessRuntime
  | .listing => []
  | .killing rows _ => rows
  | .closing row _ rows _ => row::rows

def WakePoint.rows : WakePoint → List ProcessRuntime
  | .terminating _ stage _ => stage.rows
  | _ => []

/-- The second point claims no more than the first. -/
structure WakePoint.leads (before after : WakePoint) : Prop where
  session : after.session = before.session ∨ after.session = none
  grant : after.grant = before.grant ∨ after.grant = none
  reserved : after.reserved = before.reserved ∨ after.reserved = none
  late : after.early = false
  shut : after.shut = false ∨ before.shut = true
  rows : after.rows ⊆ before.rows

namespace WakePoint

/-- What a point says of the session, its grant and its reservation. -/
def claims (point : WakePoint) : Option Session × Option Grant × Option Grant := (point.session,point.grant,point.reserved)

/-- It says nothing else. -/
def plain (point : WakePoint) : Bool := !point.early && !point.shut && point.rows.isEmpty

variable {before after : WakePoint}

theorem plain_iff : after.plain = true ↔ after.early = false ∧ after.shut = false ∧ after.rows = [] := by
  simp [plain,and_assoc]

theorem leads.on (same : after.claims = before.claims) (plain : after.plain = true) : before.leads after := by
  obtain ⟨session,grant,reserved⟩ : _ ∧ _ ∧ _ := ⟨congrArg Prod.fst same,congrArg (fun c => c.2.1) same,congrArg (fun c => c.2.2) same⟩
  obtain ⟨late,open_,rows⟩ := plain_iff.mp plain
  exact ⟨.inl session,.inl grant,.inl reserved,late,.inl open_,rows ▸ List.nil_subset _⟩

theorem leads.off (session : after.session = before.session ∨ after.session = none)
    (gone : after.claims.2 = (none,none)) (plain : after.plain = true) : before.leads after := by
  obtain ⟨late,open_,rows⟩ := plain_iff.mp plain
  exact ⟨session,.inr (congrArg Prod.fst gone),.inr (congrArg Prod.snd gone),late,.inl open_,rows ▸ List.nil_subset _⟩

/-- Before there is a process. -/
def opening : WakePoint → Bool
  | .entered | .paused _ | .sessioned _ | .refused _ _ | .overdrawn _ _ _ | .budgeted _ | .prepared _ => true
  | _ => false

/-- From the process on, while nothing goes wrong. -/
def serving : WakePoint → Bool
  | .spawned _ _ | .recorded _ _ | .marked _ _ | .running _ _ | .overdue _ _ _ | .lapsed _ _ _ | .exited _ _ _ | .collected _ _
  | .totalled _ _ _ | .settled _ _ _ | .closed _ _ _ | .delivered _ _ _ => true
  | _ => false

end WakePoint

namespace Runtime

def Bound (db : Runtime) (s : Session) : Prop :=
  ∃ row ∈ db.sessions.rows, row.sessionId = s.sessionId ∧ row.wakeId = s.wakeId ∧ row.role = s.role

def Listed (db : Runtime) (x : String) (row : ProcessRuntime) : Prop :=
  ∃ p ∈ db.processes.rows, p.processKey = row.processKey ∧ p.sessionId = x ∧ p.pid = row.pid ∧
    p.birthToken = row.birthToken

section Persistence
variable {y : String} {db next : Runtime} (shift : Shift y db next)
include shift

theorem Shift.bound {s : Session} (bound : db.Bound s) : next.Bound s := by
  obtain ⟨row,member,own,wakeId,role⟩ := bound
  obtain ⟨after,present,moves⟩ := shift.keptSessions row member
  exact ⟨after,present,moves.1.trans own,moves.2.1.trans wakeId,moves.2.2.2.1.trans role⟩

theorem Shift.listed {x : String} {row : ProcessRuntime} (listed : db.Listed x row) : next.Listed x row := by
  obtain ⟨p,member,key,own,pid,birth⟩ := listed
  obtain ⟨after,present,moves⟩ := shift.keptProcesses p member
  exact ⟨after,present,moves.1.trans key,moves.2.1.trans own,moves.2.2.1.trans pid,moves.2.2.2.1.trans birth⟩

theorem Shift.reserved {id x : String} (reserved : ∃ r ∈ db.reservations.rows, r.reservationId = id ∧ r.sessionId = x) :
    ∃ r ∈ next.reservations.rows, r.reservationId = id ∧ r.sessionId = x := by
  obtain ⟨r,member,name,own⟩ := reserved
  obtain ⟨after,present,moves⟩ := shift.keptReservations r member
  exact ⟨after,present,moves.1.trans name,moves.2.1.trans own⟩

theorem Shift.launched {id x : String} (launched : ∃ w ∈ db.wakes.rows, w.wakeId = id ∧ w.sessionId = x) :
    ∃ w ∈ next.wakes.rows, w.wakeId = id ∧ w.sessionId = x := by
  obtain ⟨w,member,name,own⟩ := launched
  obtain ⟨after,present,moves⟩ := shift.keptWakes w member
  exact ⟨after,present,moves.1.trans name,moves.2.1.trans own⟩

theorem Shift.shut {x : String} (shut : ∃ w ∈ db.wakes.rows, w.sessionId = x ∧ ¬ w.state.live) :
    ∃ w ∈ next.wakes.rows, w.sessionId = x ∧ ¬ w.state.live := by
  obtain ⟨w,member,own,dead⟩ := shut
  obtain ⟨after,present,moves⟩ := shift.keptWakes w member
  exact ⟨after,present,moves.2.1.trans own,fun live => dead (moves.2.2.2.2 live)⟩

end Persistence
end Runtime

/-- The tables bear out a wake's program point. -/
structure WakeThread.Placed (db : Runtime) (t : WakeThread) : Prop where
  bound : ∀ s ∈ t.point.session, db.Bound s ∧ s.role = t.role
  early : t.point.early → ∀ s ∈ t.point.session, db.sessionActive s.sessionId ∧ ¬ db.hasWake s.sessionId
  unbooked : t.point.unbooked → ∀ s ∈ t.point.session, ∀ r ∈ db.reservations.rows, r.sessionId ≠ s.sessionId
  reserved : ∀ g ∈ t.point.reserved,
    ∃ r ∈ db.reservations.rows, r.reservationId = g.reservation ∧ r.sessionId = g.session.sessionId
  launched : ∀ g ∈ t.point.grant,
    ∃ w ∈ db.wakes.rows, w.wakeId = g.session.wakeId ∧ w.sessionId = g.session.sessionId
  shut : t.point.shut → ∀ g ∈ t.point.grant, ∃ w ∈ db.wakes.rows, w.sessionId = g.session.sessionId ∧ ¬ w.state.live
  listed : ∀ row ∈ t.point.rows, ∀ s ∈ t.point.session, db.Listed s.sessionId row

namespace WakeThread
open SjgControl.Runtime

theorem placed_idle {db : Runtime} {t : WakeThread} (session : t.point.session = none) (grant : t.point.grant = none)
    (reserved : t.point.reserved = none) : Placed db t where
  bound s own := by simp [session] at own
  early _ s own := by simp [session] at own
  unbooked _ s own := by simp [session] at own
  reserved g own := by simp [reserved] at own
  launched g own := by simp [grant] at own
  shut _ g own := by simp [grant] at own
  listed _ _ s own := by simp [session] at own

section Keeping
variable {y : String} {db next : Runtime} {t : WakeThread}

theorem Placed.kept (placed : Placed db t) (shift : Shift y db next)
    (other : t.point.early → ∀ s ∈ t.point.session, s.sessionId ≠ y) : Placed next t where
  bound s own := ⟨shift.bound (placed.bound s own).1,(placed.bound s own).2⟩
  early soon s own := by
    rw [shift.active_iff (other soon s own),shift.hasWake_iff (other soon s own)]
    exact placed.early soon s own
  unbooked before s own r member same := by
    have soon : t.point.early = true := by
      cases point : t.point <;> simp_all [WakePoint.unbooked,WakePoint.early]
    exact placed.unbooked before s own r ((shift.reservations r (same ▸ other soon s own)).mp member) same
  reserved g own := shift.reserved (placed.reserved g own)
  launched g own := shift.launched (placed.launched g own)
  shut late g own := shift.shut (placed.shut late g own)
  listed row member s named := shift.listed (placed.listed row member s named)

theorem Placed.onward (placed : Placed db t) (shift : Shift y db next) {point : WakePoint}
    (leads : t.point.leads point) : Placed next (t.at_ point) := by
  have inherit {α : Type} {before after : Option α} (same : after = before ∨ after = none) {a : α}
      (own : a ∈ after) : a ∈ before := by
    rcases same with same | none_
    · exact same ▸ own
    · rw [none_] at own
      cases own
  refine ⟨?_,?_,?_,?_,?_,?_,?_⟩
  · intro s own
    have own := inherit leads.session own
    exact ⟨shift.bound (placed.bound s own).1,(placed.bound s own).2⟩
  · intro soon
    exact absurd (leads.late.symm.trans soon) (by simp)
  · intro before
    have soon : point.early = true := by
      cases point <;> simp_all [WakePoint.unbooked,WakePoint.early,at_]
    exact absurd (leads.late.symm.trans soon) (by simp)
  · intro g own
    exact shift.reserved (placed.reserved g (inherit leads.reserved own))
  · intro g own
    exact shift.launched (placed.launched g (inherit leads.grant own))
  · intro closing g own
    have shut : t.point.shut = true := leads.shut.resolve_left (fun open_ => by simp [at_,open_] at closing)
    exact shift.shut (placed.shut shut g (inherit leads.grant own))
  · intro row member s named
    exact shift.listed (placed.listed row (leads.rows member) s (inherit leads.session named))

end Keeping
end WakeThread

/-! Each access is decent. -/

section Decent
variable {P : Type} {w : World} (orderly : ∀ x, Runtime.Orderly x w.store.runtime)
include orderly
open Table

/-- The session that an access is about has a wake on record. -/
def Access.attended (w : World) (a : Access P) : Prop := ∃ y, a.decent w y ∧ w.store.runtime.hasWake y

theorem attended_finishProcess {key x : String} {state : ProcessState} {exitCode : Option Int} {now : Instant}
    {next : Except StoreError Unit → P} (wake : w.store.runtime.hasWake x) :
    (Access.call (.runtime (.finishProcess key state exitCode now)) next).attended w := by
  cases found : w.store.runtime.processes.get key with
  | none =>
    refine ⟨x,⟨?_,trivial⟩,wake⟩
    intro r member
    rw [found] at member
    cases member
  | some p =>
    refine ⟨p.sessionId,⟨?_,trivial⟩,(orderly p.sessionId).recorded p (get_eq_some.mp found).1 rfl⟩
    intro r member
    rw [found] at member
    cases member
    rfl

theorem Terminate.decent {t : Terminate} {x : String} {input : Input} {more : Terminate → P} {done : Bool → P}
    (wake : w.store.runtime.hasWake x) :
    (t.access x input more done).quiet ∨ (t.access x input more done).attended w := by
  unfold access
  split
  next => exact .inl rfl
  next => exact .inl rfl
  next => exact .inl rfl
  next => exact .inr (attended_finishProcess orderly wake)

theorem Sweep.decent {s : Sweep} {x reason : String} {input : Input} {more : Sweep → P}
    {done : Except StoreError Bool → P} (wake : w.store.runtime.hasWake x) :
    (s.access x reason input more done).quiet ∨ (s.access x reason input more done).attended w := by
  unfold access
  split
  next => exact Terminate.decent orderly wake
  next => exact .inl rfl
  next => split <;> exact .inl rfl
  next => exact .inr ⟨x,⟨rfl,trivial⟩,wake⟩
  next => exact .inr ⟨x,rfl,wake⟩

omit orderly in
theorem attended_wake {g : Grant} {op : Op} {next : Except StoreError Unit → P}
    (launched : ∃ w' ∈ w.store.runtime.wakes.rows, w'.wakeId = g.session.wakeId ∧ w'.sessionId = g.session.sessionId)
    (concerns : (∀ r ∈ w.store.runtime.wakes.get g.session.wakeId, r.sessionId = g.session.sessionId) →
      op.concerns w.store g.session.sessionId) (proper : op.proper w.store g.session.sessionId) :
    (Access.call op next).attended w := by
  obtain ⟨wake,member,name,own⟩ := launched
  refine ⟨g.session.sessionId,⟨concerns ?_,proper⟩,wake,member,own⟩
  intro r found
  obtain ⟨present,same⟩ := get_eq_some.mp found
  have equal : r = wake := mem_unique present member (same.trans name.symm)
  exact equal ▸ own

omit orderly in
theorem attended_reservation {g : Grant} {op : Op} {next : Except StoreError Unit → P}
    (reserved : ∃ r ∈ w.store.runtime.reservations.rows,
      r.reservationId = g.reservation ∧ r.sessionId = g.session.sessionId)
    (wake : w.store.runtime.hasWake g.session.sessionId)
    (concerns : (∀ r ∈ w.store.runtime.reservations.get g.reservation, r.sessionId = g.session.sessionId) →
      op.concerns w.store g.session.sessionId) (proper : op.proper w.store g.session.sessionId) :
    (Access.call op next).attended w := by
  obtain ⟨row,member,name,own⟩ := reserved
  refine ⟨g.session.sessionId,⟨concerns ?_,proper⟩,wake⟩
  intro r found
  obtain ⟨present,same⟩ := get_eq_some.mp found
  have equal : r = row := mem_unique present member (same.trans name.symm)
  exact equal ▸ own

/-- But for the creation of its session, a wake accesses its own session or one with a wake. -/
theorem WakeThread.decent {cfg : Settings} {t : WakeThread} {input : Input}
    (placed : t.Placed w.store.runtime) (created : t.point ≠ .unpaused) :
    (t.access cfg input).quiet ∨ (t.access cfg input).attended w ∨
      ∃ s ∈ t.point.session, (t.access cfg input).decent w s.sessionId := by
  obtain ⟨role,delivery,reason,point⟩ := t
  have served (g : Grant) (own : point.grant = some g) : w.store.runtime.hasWake g.session.sessionId := by
    obtain ⟨wake,member,_,same⟩ := placed.launched g own
    exact ⟨wake,member,same⟩
  cases point with
  | unpaused => exact absurd rfl created
  | sessioned s => exact .inr (.inr ⟨s,rfl,rfl,trivial⟩)
  | refused s message =>
    have early := placed.early rfl s rfl
    have unbooked := placed.unbooked rfl s rfl
    refine .inr (.inr ⟨s,rfl,rfl,?_,?_⟩)
    · intro wake member own
      exact absurd ⟨wake,member,own⟩ early.2
    · intro r member own
      exact absurd own (unbooked r member)
  | budgeted g =>
    exact .inr (.inr ⟨g.session,rfl,rfl,(placed.early rfl g.session rfl).1,(placed.bound g.session rfl).1⟩)
  | prepared g =>
    simp only [access]
    split <;> exact .inl rfl
  | spawned g h =>
    simp only [access]
    split
    next => exact .inl rfl
    next => exact .inr (.inl ⟨g.session.sessionId,⟨rfl,served g rfl⟩,served g rfl⟩)
  | recorded g h => exact .inr (.inl (attended_wake (placed.launched g rfl) id trivial))
  | marked g h =>
    simp only [access]
    split <;> exact .inl rfl
  | running g h =>
    simp only [access]
    split <;> exact .inl rfl
  | lapsed g h terminated => exact .inr (.inl (attended_finishProcess orderly (served g rfl)))
  | exited g h result => exact .inr (.inl (attended_finishProcess orderly (served g rfl)))
  | collected g result =>
    simp only [access]
    split <;> exact .inl rfl
  | totalled g result tokens =>
    exact .inr (.inl (attended_reservation (placed.reserved g rfl) (served g rfl) id (served g rfl)))
  | settled g result tokens =>
    refine .inr (.inl (attended_wake (placed.launched g rfl) ?_ ?_))
    · intro own
      split <;> exact own
    · split <;> trivial
  | closed g result tokens =>
    simp only [access]
    split
    next => exact .inl rfl
    next =>
      left
      by_cases failed : result.returncode = 0 <;> simp [failed,finishDelivery,Access.quiet]
  | delivered g result tokens =>
    obtain ⟨wake,member,own,dead⟩ := placed.shut rfl g rfl
    refine .inr (.inl ⟨g.session.sessionId,⟨rfl,?_⟩,served g rfl⟩)
    intro other present same live
    have equal := (orderly g.session.sessionId).oneWake other present wake member same own
    exact dead (equal ▸ live)
  | reaped g h error => exact .inr (.inl (attended_finishProcess orderly (served g rfl)))
  | terminating g stage error =>
    simp only [access]
    exact (Terminate.decent orderly (served g rfl)).imp_right .inl
  | doubting g terminated error =>
    exact .inr (.inl (attended_reservation (placed.reserved g rfl) (served g rfl) id (served g rfl)))
  | abandoning g terminated error =>
    simp only [access]
    split <;> exact .inl rfl
  | burying g terminated error => exact .inr (.inl (attended_wake (placed.launched g rfl) id trivial))
  | expelling g error => exact .inr (.inl ⟨g.session.sessionId,⟨rfl,trivial⟩,served g rfl⟩)
  | orphaned s error => exact .inr (.inr ⟨s,rfl,rfl,trivial⟩)
  | unlaunched s error =>
    cases found : w.store.runtime.wakes.get s.wakeId with
    | none =>
      refine .inr (.inr ⟨s,rfl,?_,trivial⟩)
      intro r member
      rw [found] at member
      cases member
    | some wake =>
      refine .inr (.inl ⟨wake.sessionId,⟨?_,trivial⟩,wake,(get_eq_some.mp found).1,rfl⟩)
      intro r member
      rw [found] at member
      cases member
      rfl
  | declining error =>
    simp only [access]
    split <;> exact .inl rfl
  | _ => exact .inl rfl

end Decent

section Next
variable {w : World} {cfg : Settings} {t : WakeThread} {input : Input}
open SjgControl.Runtime Table

theorem perform_shift_exists {P : Type} {a : Access P} {s : Option Session}
    (decent : a.quiet ∨ a.attended w ∨ ∃ x ∈ s, a.decent w x.sessionId) :
    ∃ y, Shift y w.store.runtime (w.perform a).1.store.runtime := by
  rcases decent with quiet | ⟨y,decent,_⟩ | ⟨x,_,decent⟩
  · rw [World.perform_quiet quiet]
    exact ⟨"",.refl _ _⟩
  · exact ⟨y,World.perform_shift decent⟩
  · exact ⟨x.sessionId,World.perform_shift decent⟩

theorem reserveBudget_apply {reservationId x epoch : String} {tokens : Int} {buckets : List (String × String × Int)}
    {now : Instant} {u : Unit}
    (ok : (w.store.apply (.runtime (.reserveBudget reservationId x epoch tokens buckets now))).result = .ok u) :
    (∃ r ∈ (w.store.step (.runtime (.reserveBudget reservationId x epoch tokens buckets now))).runtime.reservations.rows,
      r.reservationId = reservationId ∧ r.sessionId = x) ∧
    (w.store.step (.runtime (.reserveBudget reservationId x epoch tokens buckets now))).runtime.sessions =
      w.store.runtime.sessions ∧
    (w.store.step (.runtime (.reserveBudget reservationId x epoch tokens buckets now))).runtime.wakes =
      w.store.runtime.wakes := by
  have body := Store.apply_runtime_ok ok
  generalize (w.store.step _).runtime = next at body ⊢
  obtain ⟨_,ok⟩ := discard_ok.mp body
  obtain ⟨_,_,_,_,_,_,_,_,reservations,inserted,_,rfl⟩ := reserveBudget_effect ok
  exact ⟨⟨_,(mem_insert inserted).mpr (.inr rfl),rfl,rfl⟩,rfl,rfl⟩

theorem prepareWake_apply {session : Session} {delivery : Option String} {reservationId socketPath reason : String}
    {now : Instant} {u : Unit}
    (ok : (w.store.apply (.prepareWake session delivery reservationId socketPath reason now)).result = .ok u) :
    ∃ row ∈ (w.store.step (.prepareWake session delivery reservationId socketPath reason now)).runtime.wakes.rows,
      row.wakeId = session.wakeId ∧ row.sessionId = session.sessionId := by
  have body := atomically_ok ok
  change ∃ row ∈ (atomically w.store (w.store.prepareWake session delivery reservationId socketPath reason now)).state.runtime.wakes.rows,_
  generalize (atomically w.store _).state = next at body ⊢
  obtain ⟨_,_,runtime,entry,rfl⟩ := Store.prepareWake_effect body
  obtain ⟨_,wakes,inserted,rfl⟩ := Runtime.insertWake_effect entry
  exact ⟨_,(mem_insert inserted).mpr (.inr rfl),rfl,rfl⟩

theorem finishWake_apply {wakeId x : String} {state : WakeState} {output error : Option String} {now : Instant}
    {u : Unit} (launched : ∃ row ∈ w.store.runtime.wakes.rows, row.wakeId = wakeId ∧ row.sessionId = x)
    (ok : (w.store.apply (.runtime (.finishWake wakeId state output error now))).result = .ok u) :
    ∃ row ∈ (w.store.step (.runtime (.finishWake wakeId state output error now))).runtime.wakes.rows,
      row.sessionId = x ∧ ¬ row.state.live := by
  have body := Store.apply_runtime_ok ok
  generalize (w.store.step _).runtime = next at body ⊢
  obtain ⟨terminal,_,rfl⟩ := finishWake_effect body
  obtain ⟨row,member,name,own⟩ := launched
  refine ⟨_,List.mem_map.mpr ⟨row,member,rfl⟩,?_,?_⟩
  · split <;> exact own
  · split
    next => exact terminal
    next other => exact fun live => other ⟨name,live⟩

theorem listed_activeProcesses {db : Runtime} {x : String} :
    ∀ row ∈ db.activeProcesses x, db.Listed x row := by
  intro row member
  obtain ⟨present,_,own⟩ := mem_select.mp ((List.mem_insertionSort workersFirst).mp member)
  exact ⟨row,present,rfl,own,rfl,rfl⟩

namespace WakeThread
variable {y : String}

theorem Placed.next_opening (placed : t.Placed w.store.runtime) (opening : t.point.opening = true)
    (shift : Shift y w.store.runtime (w.perform (t.access cfg input)).1.store.runtime) :
    (w.perform (t.access cfg input)).2.Placed (w.perform (t.access cfg input)).1.store.runtime := by
  obtain ⟨role,delivery,reason,point⟩ := t
  have onward {next : Runtime} (shift : Shift y w.store.runtime next) (after : WakePoint) (leads : point.leads after) :
      Placed next ⟨role,delivery,reason,after⟩ := placed.onward shift leads
  cases point with
  | entered =>
    simp only [access,World.perform] at shift ⊢
    split
    next => split <;> exact onward shift _ (.on rfl rfl)
    next => exact onward shift _ (.on rfl rfl)
  | paused delivery =>
    simp only [access,World.perform,proceed] at shift ⊢
    split <;> exact onward shift _ (.on rfl rfl)
  | sessioned s =>
    have soon := placed.early rfl s rfl
    simp only [access,World.perform] at shift ⊢
    split
    next ok =>
      obtain ⟨booked,sessions,wakes⟩ := reserveBudget_apply ok
      refine ⟨?_,?_,by rintro ⟨⟩,?_,by rintro _ ⟨⟩,by rintro ⟨⟩,by rintro _ ⟨⟩⟩
      · intro x own
        cases own
        exact ⟨shift.bound (placed.bound s rfl).1,(placed.bound s rfl).2⟩
      · intro _ x own
        cases own
        unfold sessionActive hasWake
        rw [sessions,wakes]
        exact soon
      · intro g own
        cases own
        exact booked
    next message failed =>
      rw [Store.step_of_error (by simp) failed]
      exact ⟨placed.bound,placed.early,placed.unbooked,by rintro _ ⟨⟩,by rintro _ ⟨⟩,by rintro ⟨⟩,by rintro _ ⟨⟩⟩
    next => exact onward shift _ (.on rfl rfl)
  | refused s message =>
    simp only [access,World.perform] at shift ⊢
    split
    next =>
      split
      next => split <;> exact onward shift _ (.on rfl rfl)
      next => exact onward shift _ (.on rfl rfl)
    next => exact onward shift _ (.on rfl rfl)
  | overdrawn s delivery message =>
    simp only [access,World.perform,proceed] at shift ⊢
    split
    next => exact onward shift _ (.off (.inr rfl) rfl rfl)
    next => exact onward shift _ (.on rfl rfl)
  | budgeted g =>
    simp only [access,World.perform,proceed] at shift ⊢
    split
    next ok =>
      have launched := prepareWake_apply ok
      refine ⟨?_,by rintro ⟨⟩,by rintro ⟨⟩,?_,?_,by rintro ⟨⟩,by rintro _ ⟨⟩⟩
      · intro s own
        exact ⟨shift.bound (placed.bound s own).1,(placed.bound s own).2⟩
      · intro x own
        cases own
        exact shift.reserved (placed.reserved g rfl)
      · intro x own
        cases own
        exact launched
    next => exact onward shift _ (.off (.inl rfl) rfl rfl)
  | prepared g =>
    cases fault : input.fault with
    | some fault =>
      simp only [access,fault,World.perform] at shift ⊢
      exact onward shift _ (.off (.inl rfl) rfl rfl)
    | none =>
      simp only [access,fault,World.perform] at shift ⊢
      split
      next fresh =>
        rw [if_pos fresh] at shift
        exact onward shift _ (.on rfl rfl)
      next => exact placed
  | _ => cases opening

theorem Placed.next_serving (placed : t.Placed w.store.runtime) (serving : t.point.serving = true)
    (shift : Shift y w.store.runtime (w.perform (t.access cfg input)).1.store.runtime) :
    (w.perform (t.access cfg input)).2.Placed (w.perform (t.access cfg input)).1.store.runtime := by
  obtain ⟨role,delivery,reason,point⟩ := t
  have onward {next : Runtime} (shift : Shift y w.store.runtime next) (after : WakePoint) (leads : point.leads after) :
      Placed next ⟨role,delivery,reason,after⟩ := placed.onward shift leads
  cases point with
  | spawned g h =>
    cases fault : input.fault with
    | some fault =>
      simp only [access,fault,World.perform] at shift ⊢
      exact onward shift _ (.on rfl rfl)
    | none =>
      simp only [access,fault,World.perform,proceed] at shift ⊢
      split <;> exact onward shift _ (.on rfl rfl)
  | recorded g h =>
    simp only [access,World.perform,proceed] at shift ⊢
    split <;> exact onward shift _ (.on rfl rfl)
  | marked g h =>
    cases delivery with
    | none => exact onward (.refl y _) _ (.on rfl rfl)
    | some delivery =>
      simp only [access,World.perform,proceed] at shift ⊢
      split <;> exact onward shift _ (.on rfl rfl)
  | running g h =>
    simp only [access]
    split
    next => exact onward (.refl y _) _ (.on rfl rfl)
    next => exact onward (.refl y _) _ (.on rfl rfl)
    next =>
      simp only [World.perform]
      split
      next => exact onward (.refl y _) _ (.on rfl rfl)
      next => exact placed
  | overdue g h terminated =>
    simp only [access,World.perform]
    split
    next => exact onward (.refl y _) _ (.on rfl rfl)
    next => exact placed
  | lapsed g h terminated =>
    simp only [access,World.perform] at shift ⊢
    generalize finishProcess h _ _ input = op at shift ⊢
    split <;> exact onward shift _ (.on rfl rfl)
  | exited g h result =>
    simp only [access,World.perform,proceed] at shift ⊢
    split <;> exact onward shift _ (.on rfl rfl)
  | collected g result =>
    simp only [access]
    split
    next => exact onward (.refl y _) _ (.on rfl rfl)
    next =>
      simp only [World.perform]
      split <;> exact onward (.refl y _) _ (.on rfl rfl)
  | totalled g result tokens =>
    simp only [access,World.perform,proceed] at shift ⊢
    split <;> exact onward shift _ (.on rfl rfl)
  | settled g result tokens =>
    simp only [access,World.perform,proceed] at shift ⊢
    generalize chosen : ite (result.returncode ≠ 0) _ _ = op at shift ⊢
    split
    next ok =>
      have same := onward shift (.settled g result tokens) (.on rfl rfl)
      refine ⟨same.bound,by rintro ⟨⟩,by rintro ⟨⟩,same.reserved,same.launched,?_,by rintro _ ⟨⟩⟩
      intro _ x own
      cases own
      split at chosen <;> (subst chosen; exact finishWake_apply (placed.launched g rfl) ok)
    next => exact onward shift _ (.on rfl rfl)
  | closed g result tokens =>
    cases delivery with
    | none => exact onward (.refl y _) _ ⟨.inl rfl,.inl rfl,.inl rfl,rfl,.inr rfl,List.nil_subset _⟩
    | some delivery =>
      simp only [access,World.perform,proceed] at shift ⊢
      generalize ite (result.returncode ≠ 0) _ _ = op at shift ⊢
      split
      next => exact onward shift _ ⟨.inl rfl,.inl rfl,.inl rfl,rfl,.inr rfl,List.nil_subset _⟩
      next => exact onward shift _ (.on rfl rfl)
  | delivered g result tokens =>
    simp only [access,World.perform,proceed] at shift ⊢
    split
    next => exact onward shift _ (.off (.inr rfl) rfl rfl)
    next => exact onward shift _ (.on rfl rfl)
  | _ => cases serving

theorem Placed.next_failing (placed : t.Placed w.store.runtime) (created : t.point ≠ .unpaused)
    (opening : t.point.opening = false) (serving : t.point.serving = false)
    (shift : Shift y w.store.runtime (w.perform (t.access cfg input)).1.store.runtime) :
    (w.perform (t.access cfg input)).2.Placed (w.perform (t.access cfg input)).1.store.runtime := by
  obtain ⟨role,delivery,reason,point⟩ := t
  have onward {next : Runtime} (shift : Shift y w.store.runtime next) (after : WakePoint) (leads : point.leads after) :
      Placed next ⟨role,delivery,reason,after⟩ := placed.onward shift leads
  cases point with
  | failing g h error => exact onward (.refl y _) _ (.on rfl rfl)
  | reaping g h error =>
    simp only [access,World.perform]
    split
    next => exact onward (.refl y _) _ (.on rfl rfl)
    next => exact placed
  | reaped g h error => exact onward shift _ (.on rfl rfl)
  | terminating g stage error =>
    cases stage with
    | listing =>
      have same := onward (.refl y _) (.terminating g .listing error) (.on rfl rfl)
      refine {same with listed := ?_}
      intro row member s own
      cases own
      exact listed_activeProcesses row member
    | killing rows complete =>
      cases rows with
      | nil => exact onward (.refl y _) _ (.on rfl rfl)
      | cons row rows => exact onward (.refl y _) _ ⟨.inl rfl,.inl rfl,.inl rfl,rfl,.inl rfl,List.Subset.refl _⟩
    | closing row terminated rows complete =>
      exact onward shift _ ⟨.inl rfl,.inl rfl,.inl rfl,rfl,.inl rfl,List.subset_cons_self _ _⟩
  | doubting g terminated error => exact onward shift _ (.on rfl rfl)
  | abandoning g terminated error =>
    cases delivery with
    | none => exact onward (.refl y _) _ (.on rfl rfl)
    | some delivery => exact onward shift _ (.on rfl rfl)
  | burying g terminated error =>
    cases terminated with
    | true => exact onward shift _ (.on rfl rfl)
    | false => exact onward shift _ (.off (.inr rfl) rfl rfl)
  | expelling g error => exact onward shift _ (.off (.inr rfl) rfl rfl)
  | withdrawing s error =>
    simp only [access,World.perform]
    split <;> exact onward (.refl y _) _ (.on rfl rfl)
  | orphaned s error =>
    simp only [access,World.perform,proceed] at shift ⊢
    split <;> exact onward shift _ (.off (.inr rfl) rfl rfl)
  | unlaunched s error =>
    simp only [access,World.perform,proceed] at shift ⊢
    split <;> exact onward shift _ (.off (.inr rfl) rfl rfl)
  | declining error =>
    cases delivery with
    | none => exact onward (.refl y _) _ (.on rfl rfl)
    | some delivery => exact onward shift _ (.on rfl rfl)
  | returned status tokens => exact placed
  | raised error => exact placed
  | unpaused => exact absurd rfl created
  | entered => cases opening
  | paused delivery => cases opening
  | sessioned s => cases opening
  | refused s message => cases opening
  | overdrawn s delivery message => cases opening
  | budgeted g => cases opening
  | prepared g => cases opening
  | _ => cases serving

/-- Every step leaves the wake at a point that the tables bear out. -/
theorem Placed.next (orderly : ∀ x, Orderly x w.store.runtime) (placed : t.Placed w.store.runtime)
    (created : t.point ≠ .unpaused) :
    (w.perform (t.access cfg input)).2.Placed (w.perform (t.access cfg input)).1.store.runtime := by
  obtain ⟨y,shift⟩ := perform_shift_exists (@WakeThread.decent w orderly cfg t input placed created)
  cases opening : t.point.opening with
  | true => exact placed.next_opening opening shift
  | false =>
    cases serving : t.point.serving with
    | true => exact placed.next_serving serving shift
    | false => exact placed.next_failing created opening serving shift

end WakeThread
end Next
end SjgControl

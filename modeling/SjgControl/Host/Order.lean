import SjgControl.Host.Conduct

/-! Every reachable state of the host is in order: the tables keep the discipline, each
thread stands where they bear it out, no two wakes share a session, and a recovery is alone. -/
namespace SjgControl
open Relational Machine

/-! A worker's thread. -/

def WorkerPoint.attempt : WorkerPoint → Option String
  | .requested | .ended => none
  | .reserved attempt | .staged attempt | .begun attempt | .spawned attempt _ | .running attempt _
  | .overdue attempt _ _ | .lapsed attempt _ _ | .exited attempt _ _ | .reported attempt _ _
  | .failing attempt _ _ | .reaping attempt _ _ | .reaped attempt _ _ | .doubting attempt
  | .importing attempt | .failed attempt => some attempt

namespace WorkerThread
open SjgControl.Runtime Table

/-- The worker's session has a wake, and its attempt is on record there. -/
structure Employed (db : Runtime) (t : WorkerThread) : Prop where
  wake : db.hasWake t.session.sessionId
  attempt : ∀ a ∈ t.point.attempt, ∃ row ∈ db.attempts.rows, row.attemptId = a ∧ row.sessionId = t.session.sessionId

theorem Employed.kept {y : String} {db next : Runtime} {t : WorkerThread} (employed : Employed db t)
    (shift : Shift y db next) : Employed next t where
  wake := shift.hasWake employed.wake
  attempt a own := by
    obtain ⟨row,member,name,place⟩ := employed.attempt a own
    obtain ⟨after,present,moves⟩ := shift.keptAttempts row member
    exact ⟨after,present,moves.1.trans name,moves.2.trans place⟩

section Step
variable {w : World} {cfg : Settings} {t : WorkerThread} {input : Input}

theorem attended_setAttempt {P : Type} {attempt : String} {state : AttemptState} {finishedAt artifact : Option String}
    {next : P} (employed : Employed w.store.runtime t) (own : attempt ∈ t.point.attempt) :
    (Access.setAttempt attempt state finishedAt artifact next).attended w := by
  refine ⟨t.session.sessionId,?_,employed.wake⟩
  intro a found
  obtain ⟨row,member,name,place⟩ := employed.attempt attempt own
  obtain ⟨present,same⟩ := get_eq_some.mp found
  have equal : a = row := mem_unique present member (same.trans name.symm)
  exact equal ▸ place

theorem decent (orderly : ∀ x, Orderly x w.store.runtime) (employed : Employed w.store.runtime t) :
    (t.access cfg input).quiet ∨ (t.access cfg input).attended w := by
  obtain ⟨session,workerType,point⟩ := t
  have wake := employed.wake
  cases point with
  | requested =>
    simp only [access]
    split
    next => exact .inl rfl
    next => exact .inr ⟨session.sessionId,⟨rfl,wake⟩,wake⟩
  | reserved attempt =>
    simp only [access]
    split <;> exact .inl rfl
  | staged attempt =>
    simp only [access]
    split
    next => exact .inl rfl
    next => exact .inr (attended_setAttempt employed rfl)
  | begun attempt =>
    simp only [access]
    split <;> exact .inl rfl
  | spawned attempt h =>
    simp only [access]
    split
    next => exact .inl rfl
    next => exact .inr ⟨session.sessionId,⟨rfl,wake⟩,wake⟩
  | running attempt h =>
    simp only [access]
    split <;> exact .inl rfl
  | lapsed attempt h terminated => exact .inr (attended_finishProcess orderly wake)
  | exited attempt h result => exact .inr (attended_finishProcess orderly wake)
  | reaped attempt h fault => exact .inr (attended_finishProcess orderly wake)
  | importing attempt =>
    simp only [access]
    split
    next => exact .inl rfl
    next => exact .inr (attended_setAttempt employed rfl)
  | failed attempt => exact .inr (attended_setAttempt employed rfl)
  | _ => exact .inl rfl

theorem reserveWorker_apply {attempt x workerType : String} {cumulative concurrent cap : Int} {now : Instant} {u : Unit}
    (ok : (w.store.apply (.runtime (.reserveWorker attempt x workerType cumulative concurrent cap now))).result = .ok u) :
    ∃ row ∈ (w.store.step (.runtime (.reserveWorker attempt x workerType cumulative concurrent cap now))).runtime.attempts.rows,
      row.attemptId = attempt ∧ row.sessionId = x := by
  have body := Store.apply_runtime_ok ok
  generalize (w.store.step _).runtime = next at body ⊢
  obtain ⟨_,entry⟩ := discard_ok.mp body
  obtain ⟨_,_,_,_,_,_,attempts,inserted,rfl,rfl⟩ := reserveWorker_effect entry
  exact ⟨_,(mem_insert inserted).mpr (.inr rfl),rfl,rfl⟩

theorem next_attempt :
    (w.perform (t.access cfg input)).2.session = t.session ∧
      ((w.perform (t.access cfg input)).2.point.attempt = t.point.attempt ∨
        (w.perform (t.access cfg input)).2.point.attempt = none ∨
        t.point = .requested ∧ ∃ attempt, (w.perform (t.access cfg input)).2.point.attempt = some attempt ∧
          ∃ row ∈ (w.perform (t.access cfg input)).1.store.runtime.attempts.rows,
            row.attemptId = attempt ∧ row.sessionId = t.session.sessionId) := by
  obtain ⟨session,workerType,point⟩ := t
  cases point with
  | requested =>
    simp only [access]
    split
    next => exact ⟨rfl,.inl rfl⟩
    next =>
      simp only [World.perform]
      split
      next ok => exact ⟨rfl,.inr (.inr ⟨trivial,_,rfl,reserveWorker_apply ok⟩)⟩
      next => exact ⟨rfl,.inl rfl⟩
  | reserved attempt =>
    simp only [access]
    split
    next => exact ⟨rfl,.inr (.inl rfl)⟩
    next => exact ⟨rfl,.inl rfl⟩
  | staged attempt =>
    simp only [access]
    split <;> exact ⟨rfl,.inl rfl⟩
  | begun attempt =>
    simp only [access]
    split
    next fault _ => cases fault <;> exact ⟨rfl,.inl rfl⟩
    next =>
      simp only [World.perform]
      split <;> exact ⟨rfl,.inl rfl⟩
  | spawned attempt h =>
    simp only [access]
    split
    next => exact ⟨rfl,.inl rfl⟩
    next =>
      simp only [World.perform]
      split <;> exact ⟨rfl,.inl rfl⟩
  | running attempt h =>
    simp only [access]
    split
    next => exact ⟨rfl,.inl rfl⟩
    next fault _ _ => cases fault <;> exact ⟨rfl,.inl rfl⟩
    next =>
      simp only [World.perform]
      split <;> exact ⟨rfl,.inl rfl⟩
  | overdue attempt h terminated =>
    simp only [access,World.perform]
    split <;> exact ⟨rfl,.inl rfl⟩
  | lapsed attempt h terminated =>
    simp only [access,World.perform]
    generalize finishProcess h _ _ input = op
    split <;> exact ⟨rfl,.inl rfl⟩
  | exited attempt h result =>
    simp only [access,World.perform]
    split <;> exact ⟨rfl,.inl rfl⟩
  | reported attempt h result =>
    simp only [access,World.perform]
    generalize result.tokens = tokens
    cases tokens
    · exact ⟨rfl,.inl rfl⟩
    · simp only [reduceCtorEq,false_or]
      split <;> exact ⟨rfl,.inl rfl⟩
  | reaping attempt h fault =>
    simp only [access,World.perform]
    split <;> exact ⟨rfl,.inl rfl⟩
  | reaped attempt h fault => cases fault <;> exact ⟨rfl,.inl rfl⟩
  | importing attempt =>
    simp only [access]
    split
    next => exact ⟨rfl,.inl rfl⟩
    next => exact ⟨rfl,.inr (.inl rfl)⟩
  | failed attempt => exact ⟨rfl,.inr (.inl rfl)⟩
  | failing attempt h fault => exact ⟨rfl,.inl rfl⟩
  | doubting attempt => exact ⟨rfl,.inl rfl⟩
  | ended => exact ⟨rfl,.inl rfl⟩

theorem Employed.next (orderly : ∀ x, Orderly x w.store.runtime) (employed : Employed w.store.runtime t) :
    Employed (w.perform (t.access cfg input)).1.store.runtime (w.perform (t.access cfg input)).2 := by
  obtain ⟨y,shift⟩ := perform_shift_exists (s := none)
    ((@decent w cfg t input orderly employed).imp_right .inl)
  have kept := employed.kept shift
  obtain ⟨session,steps⟩ := @next_attempt w cfg t input
  refine ⟨session ▸ kept.wake,?_⟩
  intro a own
  rw [session]
  rcases steps with same | none_ | ⟨_,attempt,now,row⟩
  · exact kept.attempt a (same ▸ own)
  · rw [none_] at own
    cases own
  · rw [now] at own
    cases own
    exact row

end Step
end WorkerThread

/-! The pause and the recovery. -/

def PausePoint.sessions : PausePoint → List String
  | .sweeping session _ rest _ _ => session::rest
  | _ => []

def RecoverPoint.sessions : RecoverPoint → List String
  | .orphans _ listed _ => listed.map WakeRuntime.sessionId
  | .wakes listed _ _ => listed.map WakeRuntime.sessionId
  | .preparing wake rest _ _ => wake.sessionId::rest.map WakeRuntime.sessionId
  | .sweeping wake _ rest _ _ => wake.sessionId::rest.map WakeRuntime.sessionId
  | _ => []

section Supervising
variable {w : World} {input : Input}
open SjgControl.Runtime Table

theorem hasWake_activeWakes {db : Runtime} {x : String} (member : x ∈ db.activeWakes.map WakeRuntime.sessionId) :
    db.hasWake x := by
  obtain ⟨wake,listed,rfl⟩ := List.mem_map.mp member
  exact ⟨wake,(mem_select.mp ((List.mem_insertionSort _).mp listed)).1,rfl⟩

theorem PausePoint.decent (orderly : ∀ x, Orderly x w.store.runtime) {point : PausePoint}
    (woken : ∀ x ∈ point.sessions, w.store.runtime.hasWake x) :
    (point.access input).quiet ∨ (point.access input).attended w := by
  cases point with
  | sweeping session sweep rest terminated uncertain =>
    simp only [access]
    exact Sweep.decent orderly (woken session List.mem_cons_self)
  | _ => exact .inl rfl

theorem RecoverPoint.decent (orderly : ∀ x, Orderly x w.store.runtime) {point : RecoverPoint}
    (woken : ∀ x ∈ point.sessions, w.store.runtime.hasWake x) :
    (point.access input).quiet ∨ ∃ y, (point.access input).decent w y := by
  cases point with
  | orphans sessions listed recovered =>
    cases sessions with
    | nil => exact .inl rfl
    | cons session rest => exact .inr ⟨session,rfl,trivial⟩
  | wakes listed recovered uncertain => cases listed <;> exact .inl rfl
  | preparing wake rest recovered uncertain =>
    cases found : w.store.runtime.wakes.get wake.wakeId with
    | none =>
      refine .inr ⟨"",?_,trivial⟩
      intro r member
      rw [found] at member
      cases member
    | some row =>
      refine .inr ⟨row.sessionId,?_,trivial⟩
      intro r member
      rw [found] at member
      cases member
      rfl
  | sweeping wake sweep rest recovered uncertain =>
    simp only [access]
    rcases Sweep.decent orderly (woken wake.sessionId List.mem_cons_self) with quiet | ⟨y,decent,_⟩
    · exact .inl quiet
    · exact .inr ⟨y,decent⟩
  | _ => exact .inl rfl

theorem Terminate.goes {P : Type} {t : Terminate} {x : String} {more : Terminate → P} {done : Bool → P} :
    (∃ t', (w.perform (t.access x input more done)).2 = more t') ∨
      ∃ complete, (w.perform (t.access x input more done)).2 = done complete := by
  unfold access
  split
  next => exact .inl ⟨_,rfl⟩
  next => exact .inr ⟨_,rfl⟩
  next => exact .inl ⟨_,rfl⟩
  next => exact .inl ⟨_,rfl⟩

theorem Sweep.goes {P : Type} {s : Sweep} {x reason : String} {more : Sweep → P} {done : Except StoreError Bool → P} :
    (∃ s', (w.perform (s.access x reason input more done)).2 = more s') ∨
      ∃ result, (w.perform (s.access x reason input more done)).2 = done result := by
  unfold access
  split
  next t =>
    rcases @Terminate.goes w input P t x (fun t => more (.terminating t)) (fun done => more (.reading done)) with
      ⟨t',same⟩ | ⟨complete,same⟩
    · exact .inl ⟨_,same⟩
    · exact .inl ⟨_,same⟩
  next terminated =>
    simp only [World.perform]
    split
    next => exact .inr ⟨_,rfl⟩
    next => split <;> exact .inl ⟨_,rfl⟩
  next => split <;> exact .inl ⟨_,rfl⟩
  next => exact .inr ⟨_,rfl⟩
  next => exact .inr ⟨_,rfl⟩

theorem PausePoint.nextSession_sessions (rest : List String) (terminated uncertain : Nat) :
    (nextSession rest terminated uncertain).sessions = rest := by
  cases rest <;> rfl

/-- A pause adds to its list only when it reads the active wakes. -/
theorem PausePoint.next_sessions {point : PausePoint} {x : String}
    (member : x ∈ (w.perform (point.access input)).2.sessions) :
    x ∈ point.sessions ∨ w.store.runtime.hasWake x := by
  cases point with
  | called =>
    simp only [access,World.perform] at member
    split at member <;> cases member
  | flagged =>
    simp only [access,World.perform,nextSession_sessions] at member
    exact .inr (hasWake_activeWakes member)
  | sweeping session sweep rest terminated uncertain =>
    simp only [access] at member
    rcases Sweep.goes with ⟨sweep',same⟩ | ⟨result,same⟩
    · rw [same] at member
      exact .inl member
    · rw [same] at member
      rcases result with e | _ | _
      · cases member
      · rw [nextSession_sessions] at member
        exact .inl (List.mem_cons_of_mem _ member)
      · rw [nextSession_sessions] at member
        exact .inl (List.mem_cons_of_mem _ member)
  | _ => cases member

theorem RecoverPoint.next_sessions {point : RecoverPoint} {x : String}
    (member : x ∈ (w.perform (point.access input)).2.sessions) :
    x ∈ point.sessions ∨ w.store.runtime.hasWake x := by
  cases point with
  | called => exact .inr (hasWake_activeWakes member)
  | orphans sessions listed recovered =>
    cases sessions with
    | nil => exact .inl member
    | cons session rest =>
      simp only [access,World.perform] at member
      split at member
      next => exact .inl member
      next => cases member
  | wakes listed recovered uncertain =>
    cases listed with
    | nil => cases member
    | cons wake rest =>
      simp only [access,World.perform] at member
      split at member <;> exact .inl member
  | preparing wake rest recovered uncertain =>
    simp only [access,World.perform] at member
    split at member
    next => exact .inl (List.mem_cons_of_mem _ member)
    next => cases member
  | sweeping wake sweep rest recovered uncertain =>
    simp only [access] at member
    rcases Sweep.goes with ⟨sweep',same⟩ | ⟨result,same⟩
    · rw [same] at member
      exact .inl member
    · rw [same] at member
      rcases result with e | _ | _
      · cases member
      · exact .inl (List.mem_cons_of_mem _ member)
      · exact .inl (List.mem_cons_of_mem _ member)
  | _ => cases member

end Supervising

/-! A new session. -/

section Creation
variable {w : World} {cfg : Settings} {t : WakeThread} {input : Input}
open SjgControl.Runtime Table

/-- `create_session` refuses and changes nothing, or the session is new. -/
theorem WakeThread.create_cases (point : t.point = .unpaused) :
    (∃ error, (w.perform (t.access cfg input)).2 = t.at_ (.declining error) ∧
        (w.perform (t.access cfg input)).1 = w) ∨
      ∃ row : WakeSession, (w.perform (t.access cfg input)).2 = t.at_ (.sessioned row.toSession) ∧
        row.sessionId = input.uuid ∧ row.wakeId = input.wakeUuid ∧ row.orgId = cfg.orgId ∧ row.role = t.role ∧
        row.state = .active ∧
        (∀ s ∈ w.store.runtime.sessions.rows, s.orgId = cfg.orgId → s.role = t.role → s.state ≠ .active) ∧
        ∃ sessions, w.store.runtime.sessions.insert row = some sessions ∧
          (w.perform (t.access cfg input)).1 = {w with store := {w.store with runtime := {w.store.runtime with sessions}}} := by
  unfold access
  rw [point]
  simp only [World.perform]
  cases result : w.store.runtime.createSession input.uuid input.wakeUuid cfg.orgId t.role cfg.policyDigest
      (cfg.repositories t.role) input.now cfg.sessionTtlSeconds cfg.globalMaxAgents with
  | error e => exact .inl ⟨_,rfl,rfl⟩
  | ok value =>
    obtain ⟨session,next⟩ := value
    have entry := result
    obtain ⟨_,expires,_,alone,_,_,sessions,inserted,rfl,rfl⟩ := createSession_effect entry
    refine .inr ⟨_,rfl,rfl,rfl,rfl,rfl,rfl,?_,sessions,inserted,rfl⟩
    intro s member org role active
    exact count_eq_zero.mp alone s member ⟨org,role,active⟩

end Creation

theorem PausePoint.next_resting {w : World} {point : PausePoint} {input : Input} (resting : point.resting = true) :
    (w.perform (point.access input)).2.resting = true := by
  cases point <;> first | exact resting | cases resting

theorem RecoverPoint.rests {w : World} {point : RecoverPoint} {input : Input} (resting : point.resting = true) :
    w.perform (point.access input) = (w,point) := by
  cases point <;> first | rfl | cases resting

/-- A step moves the wake to another point. It keeps its session there or gives it up, once it has one. -/
theorem WakeThread.next_at (w : World) (cfg : Settings) (t : WakeThread) (input : Input) :
    ∃ point, (w.perform (t.access cfg input)).2 = t.at_ point ∧
      (t.point ≠ .unpaused → point.session = t.point.session ∨ point.session = none) := by
  obtain ⟨role,delivery,reason,point⟩ := t
  cases point with
  | unpaused =>
    simp only [access]
    repeat' (first | exact ⟨_,rfl,fun created => absurd rfl created⟩ | split | simp only [World.perform])
  | terminating g stage error =>
    simp only [access]
    rcases Terminate.goes with ⟨stage',same⟩ | ⟨complete,same⟩ <;> (rw [same]; exact ⟨_,rfl,fun _ => .inl rfl⟩)
  | lapsed g h terminated =>
    simp only [access,World.perform]
    generalize finishProcess h _ _ input = op
    split <;> exact ⟨_,rfl,fun _ => .inl rfl⟩
  | settled g result tokens =>
    simp only [access,World.perform,proceed]
    generalize ite (result.returncode ≠ 0) _ _ = op
    split <;> exact ⟨_,rfl,fun _ => .inl rfl⟩
  | closed g result tokens =>
    cases delivery with
    | none => exact ⟨_,rfl,fun _ => .inl rfl⟩
    | some delivery =>
      simp only [access,World.perform,proceed]
      generalize ite (result.returncode ≠ 0) _ _ = op
      split <;> exact ⟨_,rfl,fun _ => .inl rfl⟩
  | _ =>
    simp only [access]
    repeat' (first | exact ⟨_,rfl,fun _ => .inl rfl⟩ | exact ⟨_,rfl,fun _ => .inr rfl⟩ | split |
      simp only [World.perform,proceed])

theorem WakeThread.next_session {w : World} {cfg : Settings} {t : WakeThread} {input : Input}
    (created : t.point ≠ .unpaused) :
    (w.perform (t.access cfg input)).2.point.session = t.point.session ∨
      (w.perform (t.access cfg input)).2.point.session = none := by
  obtain ⟨point,same,keeps⟩ := t.next_at w cfg input
  rw [same]
  exact keeps created

theorem orderly_empty (x : String) : Runtime.Orderly x Runtime.empty := by
  refine ⟨?_,?_,?_,?_,?_,?_,?_,?_,?_⟩
  · intro r member
    cases member
  · intro w member
    cases member
  · intro r member
    cases member
  · intro w member
    cases member
  · intro a member
    cases member
  · intro p member
    cases member
  · intro r member
    cases member
  · intro w member
    cases member
  · intro r member
    cases member

namespace Host
open SjgControl.Runtime Table

/-- What stands at `j` once the entry at `i` is replaced. -/
theorem set_cases {α : Type} {l : List α} {i j : Nat} {a b : α} (found : (l.set i a)[j]? = some b) :
    i = j ∧ b = a ∨ i ≠ j ∧ l[j]? = some b := by
  rw [List.getElem?_set] at found
  split at found
  next here =>
    split at found
    next => exact .inl ⟨here,(Option.some.inj found).symm⟩
    next => cases found
  next apart => exact .inr ⟨apart,found⟩

/-- What stands at `j` once an entry is added behind the others. -/
theorem concat_cases {α : Type} {l : List α} {j : Nat} {a b : α} (found : (l ++ [a])[j]? = some b) :
    l[j]? = some b ∨ b = a := by
  rw [List.getElem?_append] at found
  split at found
  next => exact .inl found
  next =>
    obtain ⟨_,equal⟩ := List.getElem?_eq_some_iff.mp found
    rw [List.getElem_singleton] at equal
    exact .inr equal.symm

theorem stopped_iff {s : Host} :
    s.stopped = true ↔ s.wakes.isEmpty = true ∧ s.workers.isEmpty = true ∧ s.pause.resting = true := by
  simp [stopped,and_assoc]

structure Regular (s : Host) : Prop where
  orderly : ∀ x, Orderly x s.world.store.runtime
  placed : ∀ t ∈ s.wakes, t.Placed s.world.store.runtime
  distinct : ∀ (i j : Nat) (t u : WakeThread), s.wakes[i]? = some t → s.wakes[j]? = some u → i ≠ j →
    ∀ a ∈ t.point.session, ∀ b ∈ u.point.session, a.sessionId ≠ b.sessionId
  employed : ∀ t ∈ s.workers, t.Employed s.world.store.runtime
  pausing : ∀ x ∈ s.pause.sessions, s.world.store.runtime.hasWake x
  recovering : ∀ x ∈ s.recovery.sessions, s.world.store.runtime.hasWake x
  exclusive : s.recovery.resting = false → s.stopped = true

namespace Regular
variable {cfg : Settings} {s : Host}

/-- A change about one session leaves the host in order unless that session is one of a wake
that is not on record yet. -/
theorem shifted (regular : s.Regular) {y : String} {world : World} (shift : Shift y s.world.store.runtime world.store.runtime)
    (orderly : ∀ x, Orderly x world.store.runtime)
    (other : ∀ t ∈ s.wakes, t.point.early → ∀ a ∈ t.point.session, a.sessionId ≠ y) :
    Regular {s with world} where
  orderly := orderly
  placed t member := (regular.placed t member).kept shift (other t member)
  distinct := regular.distinct
  employed t member := (regular.employed t member).kept shift
  pausing x member := shift.hasWake (regular.pausing x member)
  recovering x member := shift.hasWake (regular.recovering x member)
  exclusive := regular.exclusive

theorem still (regular : s.Regular) {world : World} (same : world.store.runtime = s.world.store.runtime) :
    Regular {s with world} where
  orderly := same ▸ regular.orderly
  placed := same ▸ regular.placed
  distinct := regular.distinct
  employed := same ▸ regular.employed
  pausing := same ▸ regular.pausing
  recovering := same ▸ regular.recovering
  exclusive := regular.exclusive

theorem attended_other (regular : s.Regular) {y : String} (wake : s.world.store.runtime.hasWake y) :
    ∀ t ∈ s.wakes, t.point.early → ∀ a ∈ t.point.session, a.sessionId ≠ y := by
  intro t member soon a own same
  exact ((regular.placed t member).early soon a own).2 (same ▸ wake)

theorem performed (regular : s.Regular) {P : Type} {a : Access P} (decent : a.quiet ∨ a.attended s.world) :
    Regular {s with world := (s.world.perform a).1} := by
  rcases decent with quiet | ⟨y,decent,wake⟩
  · exact regular.still (World.perform_quiet quiet)
  · exact regular.shifted (World.perform_shift decent) (World.perform_orderly regular.orderly decent)
      (regular.attended_other wake)

theorem mem_set {α : Type} {l : List α} {i : Nat} {a b : α} (member : b ∈ l.set i a) :
    b = a ∨ ∃ j, j ≠ i ∧ l[j]? = some b := by
  obtain ⟨j,bound,equal⟩ := List.mem_iff_getElem.mp member
  by_cases here : i = j
  · subst here
    simp only [List.getElem_set_self] at equal
    exact .inl equal.symm
  · rw [List.getElem_set_ne here] at equal
    have bound' : j < l.length := by simpa using bound
    exact .inr ⟨j,fun same => here same.symm,List.getElem?_eq_some_iff.mpr ⟨bound',equal⟩⟩

theorem distinct_set (regular : s.Regular) {i : Nat} {t' : WakeThread}
    (session : ∀ a ∈ t'.point.session, ∀ u ∈ s.wakes, ∀ j : Nat, s.wakes[j]? = some u → j ≠ i →
      ∀ b ∈ u.point.session, a.sessionId ≠ b.sessionId) :
    ∀ (j k : Nat) (u v : WakeThread), (s.wakes.set i t')[j]? = some u → (s.wakes.set i t')[k]? = some v → j ≠ k →
      ∀ a ∈ u.point.session, ∀ b ∈ v.point.session, a.sessionId ≠ b.sessionId := by
  intro j k u v first second apart a own b other
  rcases set_cases first with ⟨rfl,rfl⟩ | ⟨away,before⟩
  · rcases set_cases second with ⟨same,_⟩ | ⟨away,there⟩
    · exact absurd same apart
    · exact session a own v (List.mem_of_getElem? there) k there away.symm b other
  · rcases set_cases second with ⟨rfl,rfl⟩ | ⟨_,there⟩
    · exact (session b other u (List.mem_of_getElem? before) j before away.symm a own).symm
    · exact regular.distinct j k u v before there apart a own b other

theorem other_wakes (regular : s.Regular) {i : Nat} {t : WakeThread} (found : s.wakes[i]? = some t) {y : String}
    (focus : s.world.store.runtime.hasWake y ∨ ∃ a ∈ t.point.session, a.sessionId = y) :
    ∀ (j : Nat) (u : WakeThread), j ≠ i → s.wakes[j]? = some u → u.point.early →
      ∀ b ∈ u.point.session, b.sessionId ≠ y := by
  intro j u apart there soon b own
  rcases focus with wake | ⟨a,held,rfl⟩
  · exact regular.attended_other wake u (List.mem_of_getElem? there) soon b own
  · exact regular.distinct j i u t there found apart b own a held

theorem resting_of_wakes (regular : s.Regular) {t : WakeThread} (member : t ∈ s.wakes) : s.recovery.resting = true := by
  by_contra busy
  have stopped := regular.exclusive (by simpa using busy)
  simp only [stopped_iff,List.isEmpty_iff] at stopped
  rw [stopped.1] at member
  cases member

theorem resting_of_workers (regular : s.Regular) {t : WorkerThread} (member : t ∈ s.workers) :
    s.recovery.resting = true := by
  by_contra busy
  have stopped := regular.exclusive (by simpa using busy)
  simp only [stopped_iff,List.isEmpty_iff] at stopped
  rw [stopped.2.1] at member
  cases member

theorem wakeStep_onward (regular : s.Regular) {i : Nat} {t : WakeThread} {input : Input} (found : s.wakes[i]? = some t)
    (created : t.point ≠ .unpaused) :
    Regular {s with
      world := (s.world.perform (t.access cfg input)).1
      wakes := s.wakes.set i (s.world.perform (t.access cfg input)).2} := by
  have present := List.mem_of_getElem? found
  have placed := regular.placed t present
  have next := @WakeThread.Placed.next s.world cfg t input regular.orderly placed created
  have session := @WakeThread.next_session s.world cfg t input created
  -- the access is about the wake's own session, one with a wake on record, or none at all
  have focused : ∃ y, Shift y s.world.store.runtime (s.world.perform (t.access cfg input)).1.store.runtime ∧
      (∀ x, Orderly x (s.world.perform (t.access cfg input)).1.store.runtime) ∧
      ∀ (j : Nat) (u : WakeThread), j ≠ i → s.wakes[j]? = some u →
        u.Placed (s.world.perform (t.access cfg input)).1.store.runtime := by
    rcases @WakeThread.decent s.world regular.orderly cfg t input placed created with quiet | ⟨y,decent,wake⟩ |
      ⟨a,own,decent⟩
    · rw [World.perform_quiet quiet]
      exact ⟨"",.refl _ _,regular.orderly,fun _ u _ there => regular.placed u (List.mem_of_getElem? there)⟩
    · refine ⟨y,World.perform_shift decent,World.perform_orderly regular.orderly decent,?_⟩
      intro j u apart there
      exact (regular.placed u (List.mem_of_getElem? there)).kept (World.perform_shift decent)
        (regular.other_wakes found (.inl wake) j u apart there)
    · refine ⟨a.sessionId,World.perform_shift decent,World.perform_orderly regular.orderly decent,?_⟩
      intro j u apart there
      exact (regular.placed u (List.mem_of_getElem? there)).kept (World.perform_shift decent)
        (regular.other_wakes found (.inr ⟨a,own,rfl⟩) j u apart there)
  obtain ⟨y,shift,orderly,others⟩ := focused
  refine ⟨orderly,?_,regular.distinct_set ?_,fun u member => (regular.employed u member).kept shift,
    fun x member => shift.hasWake (regular.pausing x member),
    fun x member => shift.hasWake (regular.recovering x member),?_⟩
  · intro u member
    rcases mem_set member with rfl | ⟨j,apart,there⟩
    · exact next
    · exact others j u apart there
  · intro a own u member j there apart b other
    rcases session with same | none_
    · exact regular.distinct i j t u found there (fun equal => apart equal.symm) a (same ▸ own) b other
    · rw [none_] at own
      cases own
  · intro busy
    exact absurd (regular.resting_of_wakes present) (by simpa using busy)

theorem wakeStep (regular : s.Regular) {i : Nat} {t : WakeThread} {input : Input} (found : s.wakes[i]? = some t) :
    Regular {s with
      world := (s.world.perform (t.access cfg input)).1
      wakes := s.wakes.set i (s.world.perform (t.access cfg input)).2} := by
  by_cases created : t.point = .unpaused
  · have present := List.mem_of_getElem? found
    have idle (busy : s.recovery.resting = false) : False :=
      absurd (regular.resting_of_wakes present) (by simpa using busy)
    rcases @WakeThread.create_cases s.world cfg t input created with ⟨error,point,world⟩ |
      ⟨row,point,id,wakeId,_,role,active,_,sessions,inserted,world⟩
    · rw [point,world]
      refine {regular with
        placed := ?_
        distinct := regular.distinct_set (by rintro _ ⟨⟩)
        exclusive := fun busy => (idle busy).elim}
      intro u member
      rcases mem_set member with rfl | ⟨j,_,there⟩
      · exact WakeThread.placed_idle rfl rfl rfl
      · exact regular.placed u (List.mem_of_getElem? there)
    · have absent : ∀ r ∈ s.world.store.runtime.sessions.rows, r.sessionId ≠ row.sessionId :=
        get_eq_none.mp (insert_fresh inserted)
      have decent : (t.access cfg input).decent s.world input.uuid := by
        unfold WakeThread.access
        rw [created]
        rfl
      have shift := World.perform_shift decent
      have orderly := World.perform_orderly regular.orderly decent
      have apart (u : WakeThread) (member : u ∈ s.wakes) : ∀ b ∈ u.point.session, b.sessionId ≠ row.sessionId := by
        intro b own same
        obtain ⟨r,known,name,_⟩ := ((regular.placed u member).bound b own).1
        exact absent r known (name.trans same)
      rw [← id] at shift
      refine ⟨orderly,?_,regular.distinct_set ?_,fun u member => (regular.employed u member).kept shift,
        fun x member => shift.hasWake (regular.pausing x member),
        fun x member => shift.hasWake (regular.recovering x member),fun busy => (idle busy).elim⟩
      · intro u member
        rcases mem_set member with rfl | ⟨j,_,there⟩
        · rw [point,world]
          have old := regular.orderly row.sessionId
          refine ⟨?_,?_,?_,by rintro _ ⟨⟩,by rintro _ ⟨⟩,by rintro ⟨⟩,by rintro _ ⟨⟩⟩
          · intro a own
            cases own
            exact ⟨⟨row,(mem_insert inserted).mpr (.inr rfl),rfl,rfl,rfl⟩,role⟩
          · intro _ a own
            cases own
            refine ⟨sessionActive_iff.mpr ⟨row,(mem_insert inserted).mpr (.inr rfl),rfl,active⟩,?_⟩
            rintro ⟨wake,member,same⟩
            obtain ⟨r,known,name,_⟩ := old.named wake member same
            exact absent r known name
          · intro _ a own r member same
            cases own
            obtain ⟨r,known,name⟩ := old.entered r member same
            exact absent r known name
        · exact (regular.placed u (List.mem_of_getElem? there)).kept shift
            (fun _ b own => apart u (List.mem_of_getElem? there) b own)
      · intro a own u member j there _ b other
        rw [point] at own
        cases own
        exact fun same => apart u member b other same.symm
  · exact regular.wakeStep_onward found created

theorem workerStep (regular : s.Regular) {i : Nat} {t : WorkerThread} {input : Input} (found : s.workers[i]? = some t) :
    Regular {s with
      world := (s.world.perform (t.access cfg input)).1
      workers := s.workers.set i (s.world.perform (t.access cfg input)).2} := by
  have present := List.mem_of_getElem? found
  have employed := regular.employed t present
  have moved := regular.performed (@WorkerThread.decent s.world cfg t input regular.orderly employed)
  refine {moved with employed := ?_,exclusive := ?_}
  · intro u member
    rcases mem_set member with rfl | ⟨j,_,there⟩
    · exact employed.next regular.orderly
    · exact moved.employed u (List.mem_of_getElem? there)
  · intro busy
    exact absurd (regular.resting_of_workers present) (by simpa using busy)

theorem pauseStep (regular : s.Regular) (input : Input) :
    Regular {s with
      world := (s.world.perform (s.pause.access input)).1
      pause := (s.world.perform (s.pause.access input)).2} := by
  have decent := @PausePoint.decent s.world input regular.orderly s.pause regular.pausing
  have moved := regular.performed decent
  obtain ⟨y,shift⟩ := perform_shift_exists (s := none) (decent.imp_right .inl)
  refine {moved with pausing := ?_,exclusive := ?_}
  · intro x member
    rcases PausePoint.next_sessions member with before | wake
    · exact moved.pausing x before
    · exact shift.hasWake wake
  · intro busy
    have stopped := regular.exclusive busy
    simp only [stopped_iff] at stopped ⊢
    exact ⟨stopped.1,stopped.2.1,PausePoint.next_resting stopped.2.2⟩

theorem recoverStep (regular : s.Regular) (input : Input) :
    Regular {s with
      world := (s.world.perform (s.recovery.access input)).1
      recovery := (s.world.perform (s.recovery.access input)).2} := by
  by_cases resting : s.recovery.resting = true
  · have same : s.world.perform (s.recovery.access input) = (s.world,s.recovery) := RecoverPoint.rests resting
    rw [same]
    exact regular
  · have busy : s.recovery.resting = false := by simpa using resting
    have stopped := regular.exclusive busy
    have alone := stopped_iff.mp stopped
    have empty : s.wakes = [] := List.isEmpty_iff.mp alone.1
    have moved : Regular {s with world := (s.world.perform (s.recovery.access input)).1} := by
      rcases @RecoverPoint.decent s.world input regular.orderly s.recovery regular.recovering with quiet | ⟨y,decent⟩
      · exact regular.still (World.perform_quiet quiet)
      · refine regular.shifted (World.perform_shift decent) (World.perform_orderly regular.orderly decent) ?_
        rw [empty]
        intro t member
        cases member
    refine {moved with recovering := ?_,exclusive := fun _ => stopped}
    intro x member
    rcases RecoverPoint.next_sessions member with before | wake
    · exact moved.recovering x before
    · rcases @RecoverPoint.decent s.world input regular.orderly s.recovery regular.recovering with quiet | ⟨y,decent⟩
      · change ((s.world.perform (s.recovery.access input)).1.store.runtime).hasWake x
        rw [World.perform_quiet quiet]
        exact wake
      · exact (World.perform_shift decent).hasWake wake

theorem step (regular : s.Regular) (action : HostAction) : (s.step cfg action).Regular := by
  cases action with
  | store op =>
    simp only [Host.step]
    split
    next outside =>
      have quiet : (Access.call op (fun _ => ())).quiet = true := by
        cases op <;> first | rfl | (simp [Op.outside] at outside)
      exact regular.still (World.perform_quiet quiet)
    next => exact regular
  | exit pid birthToken => exact regular.still rfl
  | wake role delivery reason =>
    simp only [Host.step]
    split
    next enabled =>
      refine {regular with placed := ?_,distinct := ?_,exclusive := ?_}
      · intro t member
        rcases List.mem_append.mp member with before | new
        · exact regular.placed t before
        · cases List.mem_singleton.mp new
          exact WakeThread.placed_idle rfl rfl rfl
      · intro i j t u first second apart a own b other
        rcases concat_cases first with first | rfl
        · rcases concat_cases second with second | rfl
          · exact regular.distinct i j t u first second apart a own b other
          · cases other
        · cases own
      · intro busy
        exact absurd enabled.1 (by simpa using busy)
    next => exact regular
  | request wake workerType =>
    simp only [Host.step]
    split
    next session served =>
      obtain ⟨found,counted⟩ := Option.filter_eq_some_iff.mp served
      obtain ⟨t,there,own⟩ := Option.bind_eq_some_iff.mp found
      have woken : s.world.store.runtime.hasWake session.sessionId := by
        by_contra none_
        have zero : s.world.store.runtime.wakes.count (fun r => r.sessionId = session.sessionId) = 0 :=
          count_eq_zero.mpr (fun r member same => none_ ⟨r,member,same⟩)
        simp [zero] at counted
      refine {regular with employed := ?_,exclusive := ?_}
      · intro u member
        rcases List.mem_append.mp member with before | new
        · exact regular.employed u before
        · cases List.mem_singleton.mp new
          exact ⟨woken,by rintro _ ⟨⟩⟩
      · intro busy
        exact absurd (regular.resting_of_wakes (List.mem_of_getElem? there)) (by simpa using busy)
    next => exact regular
  | wakeStep i input =>
    simp only [Host.step]
    split
    next t found => exact regular.wakeStep found
    next => exact regular
  | workerStep i input =>
    simp only [Host.step]
    split
    next t found => exact regular.workerStep found
    next => exact regular
  | pause =>
    simp only [Host.step]
    split
    next _ resting =>
      refine {regular with pausing := by rintro _ ⟨⟩,exclusive := ?_}
      intro busy
      exact absurd resting (by simpa using busy)
    next => exact regular
  | pauseStep input => exact regular.pauseStep input
  | resume now =>
    simp only [Host.step]
    split
    next enabled =>
      refine {regular.still rfl with pausing := by rintro _ ⟨⟩,exclusive := ?_}
      intro busy
      exact absurd enabled.1 (by simpa using busy)
    next => exact regular
  | crash =>
    refine ⟨regular.orderly,?_,?_,?_,?_,?_,by rintro ⟨⟩⟩
    · intro t member
      cases member
    · intro i j t u first
      cases first
    · intro t member
      cases member
    · intro x member
      simp only [Host.step] at member
      cases point : s.pause <;> rw [point] at member <;> cases member
    · intro x member
      cases member
  | recover =>
    simp only [Host.step]
    split
    next enabled => exact {regular with recovering := by rintro _ ⟨⟩,exclusive := fun _ => enabled.1}
    next => exact regular
  | recoverStep input => exact regular.recoverStep input

end Regular

theorem regular_initial : initial.Regular := by
  refine ⟨orderly_empty,?_,?_,?_,?_,?_,by rintro ⟨⟩⟩
  · intro t member
    cases member
  · intro i j t u first
    cases first
  · intro t member
    cases member
  · intro x member
    cases member
  · intro x member
    cases member

theorem regular_run (cfg : Settings) (actions : List HostAction) : (run (step cfg) initial actions).Regular :=
  invariant_run (step cfg) (fun _ action regular => regular.step action) regular_initial actions

end Host
end SjgControl

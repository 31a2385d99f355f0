import SjgControl.Host.Order
import SjgControl.Host.Backlog

/-! How one step of the host changes the world. It makes at most one access, which concerns
one session and adds at most one row to one table; a process is created by a wake that is
prepared or by a worker that has begun, and no process leaves the list again. -/
namespace SjgControl
open Relational Machine

/-! Which table gains a row. -/

inductive RuntimeTable where
  | session | reservation | wake | attempt | process
  deriving DecidableEq

def RuntimeOp.inserts : RuntimeOp → Option RuntimeTable
  | .createSession _ _ _ _ _ _ _ _ _ => some .session
  | .reserveBudget _ _ _ _ _ _ => some .reservation
  | .reserveWorker _ _ _ _ _ _ _ => some .attempt
  | .recordProcess _ _ _ _ _ _ _ _ => some .process
  | _ => none

def Op.inserts : Op → Option RuntimeTable
  | .runtime op => op.inserts
  | .prepareWake _ _ _ _ _ _ => some .wake
  | _ => none

def Access.inserts {P : Type} : Access P → Option RuntimeTable
  | .create _ _ _ _ _ _ _ _ _ _ => some .session
  | .call op _ => op.inserts
  | _ => none

theorem Op.inserts_outside {op : Op} (outside : op.outside) : op.inserts = none := by
  cases op <;> first | rfl | (simp [Op.outside] at outside)

namespace Runtime
open Table

/-- Rows are added to the table `k` alone. -/
structure Keys (k : Option RuntimeTable) (db next : Runtime) : Prop where
  sessions : k ≠ some .session → next.sessions.rows.map Keyed.key = db.sessions.rows.map Keyed.key
  reservations : k ≠ some .reservation → next.reservations.rows.map Keyed.key = db.reservations.rows.map Keyed.key
  wakes : k ≠ some .wake → next.wakes.rows.map Keyed.key = db.wakes.rows.map Keyed.key
  attempts : k ≠ some .attempt → next.attempts.rows.map Keyed.key = db.attempts.rows.map Keyed.key
  processes : k ≠ some .process → next.processes.rows.map Keyed.key = db.processes.rows.map Keyed.key

theorem Keys.refl (k : Option RuntimeTable) (db : Runtime) : Keys k db db :=
  ⟨fun _ => rfl,fun _ => rfl,fun _ => rfl,fun _ => rfl,fun _ => rfl⟩

theorem Keys.updated {k : Option RuntimeTable} {db next : Runtime}
    (sessions : next.sessions.rows.map Keyed.key = db.sessions.rows.map Keyed.key) (keys : SameKeys db next) :
    Keys k db next :=
  ⟨fun _ => sessions,fun _ => keys.reservations,fun _ => keys.wakes,fun _ => keys.attempts,fun _ => keys.processes⟩

theorem keys_endSession (db : Runtime) (x : String) (state : SessionState) :
    (db.endSession x state).rows.map Keyed.key = db.sessions.rows.map Keyed.key := update_keys (by intro; rfl)

theorem keys_releaseReservationFor {db middle : Runtime} {x : String} (ok : db.releaseReservationFor x = .ok middle) :
    middle.sessions = db.sessions ∧ SameKeys db middle := by
  refine ⟨?_,(sameKeys_of_release ok).1⟩
  rcases releaseReservationFor_ok ok with ⟨rfl,_⟩ | ⟨r,_,_,_,buckets,rfl⟩ <;> rfl

theorem body_keys {db next : Runtime} {op : RuntimeOp} (ok : db.body op = .ok ((),next)) :
    Keys op.inserts db next := by
  cases op with
  | createSession =>
    obtain ⟨_,ok⟩ := discard_ok.mp ok
    obtain ⟨_,_,_,_,_,_,sessions,_,rfl,rfl⟩ := createSession_effect ok
    exact ⟨fun other => absurd rfl other,fun _ => rfl,fun _ => rfl,fun _ => rfl,fun _ => rfl⟩
  | revokeSession =>
    obtain ⟨_,_,rfl⟩ := revokeSession_effect ok
    exact .updated (keys_endSession ..) ⟨rfl,rfl,rfl,rfl⟩
  | finishSession =>
    obtain ⟨_,_,rfl⟩ := finishSession_effect ok
    exact .updated (keys_endSession ..) ⟨rfl,rfl,rfl,rfl⟩
  | forceTerminateSession =>
    obtain ⟨_,rfl⟩ := forceTerminateSession_effect ok
    exact .updated (keys_endSession ..)
      ⟨update_keys (by intro; rfl),update_keys (by intro; rfl),update_keys (by intro; rfl),rfl⟩
  | reapExpiredSession =>
    obtain ⟨_,_,rfl⟩ := reapExpiredSession_effect ok
    exact .updated (keys_endSession ..) ⟨update_keys (by intro; rfl),rfl,update_keys (by intro; rfl),rfl⟩
  | reserveWorker =>
    obtain ⟨_,ok⟩ := discard_ok.mp ok
    obtain ⟨_,_,_,_,_,_,attempts,_,rfl,rfl⟩ := reserveWorker_effect ok
    exact ⟨fun _ => rfl,fun _ => rfl,fun _ => rfl,fun other => absurd rfl other,fun _ => rfl⟩
  | reserveBudget =>
    obtain ⟨_,ok⟩ := discard_ok.mp ok
    obtain ⟨_,_,_,_,_,_,_,_,_,_,_,rfl⟩ := reserveBudget_effect ok
    exact ⟨fun _ => rfl,fun other => absurd rfl other,fun _ => rfl,fun _ => rfl,fun _ => rfl⟩
  | settleBudget =>
    obtain ⟨_,ok⟩ := discard_ok.mp ok
    obtain ⟨_,_,_,_,_,_,rfl,rfl⟩ := settleBody_effect ok
    exact .updated rfl ⟨update_keys (by intro; rfl),rfl,rfl,rfl⟩
  | markBudgetUncertain =>
    obtain ⟨_,rfl⟩ := markBudgetUncertain_effect ok
    exact .updated rfl ⟨update_keys (by intro; rfl),rfl,rfl,rfl⟩
  | releaseBudget =>
    obtain ⟨_,_,_,_,released⟩ := releaseBudget_effect ok
    obtain ⟨_,_,rfl⟩ := release_effect released
    exact .updated rfl ⟨update_keys (by intro; rfl),rfl,rfl,rfl⟩
  | markWakeRunning =>
    obtain ⟨_,rfl⟩ := markWakeRunning_effect ok
    exact .updated rfl ⟨rfl,update_keys (by intro; rfl),rfl,rfl⟩
  | finishWake =>
    obtain ⟨_,_,rfl⟩ := finishWake_effect ok
    exact .updated rfl ⟨rfl,update_keys (by intro; rfl),rfl,rfl⟩
  | recordProcess =>
    obtain ⟨_,_,processes,_,rfl⟩ := recordProcess_effect ok
    exact ⟨fun _ => rfl,fun _ => rfl,fun _ => rfl,fun _ => rfl,fun other => absurd rfl other⟩
  | finishProcess =>
    obtain ⟨_,_,rfl⟩ := finishProcess_effect ok
    exact .updated rfl ⟨rfl,rfl,rfl,update_keys (by intro; rfl)⟩

end Runtime

namespace Store
open Table

theorem step_keys (db : Store) (op : Op) : Runtime.Keys op.inserts db.runtime (db.step op).runtime := by
  have effect := db.step_runtime op
  generalize (db.step op).runtime = after at effect ⊢
  cases effect with
  | unchanged => exact .refl _ _
  | committed r next ok => exact Runtime.body_keys ok
  | prepared next ok =>
    obtain ⟨_,wakes,_,rfl⟩ := Runtime.insertWake_effect ok
    exact ⟨fun _ => rfl,fun _ => rfl,fun other => absurd rfl other,fun _ => rfl,fun _ => rfl⟩
  | orphaned sessionId guard middle ok =>
    obtain ⟨sessions,keys⟩ := Runtime.keys_releaseReservationFor ok
    exact .updated ((middle.keys_endSession ..).trans (by rw [sessions]))
      ⟨keys.reservations,keys.wakes,keys.attempts,keys.processes⟩
  | recovered wakeId error now wake found prepared guard middle ok =>
    obtain ⟨sessions,keys⟩ := Runtime.keys_releaseReservationFor ok
    exact .updated ((middle.keys_endSession ..).trans (by rw [sessions]))
      ⟨keys.reservations,(update_keys (by intro; rfl)).trans keys.wakes,keys.attempts,keys.processes⟩

end Store

theorem World.perform_keys {P : Type} (w : World) (a : Access P) :
    Runtime.Keys a.inserts w.store.runtime (w.perform a).1.store.runtime := by
  cases a with
  | create sessionId wakeId orgId role digest aliases now ttl cap next =>
    rw [perform_create]
    exact w.store.step_keys (.runtime (.createSession sessionId wakeId orgId role digest aliases now ttl cap))
  | call op next => exact w.store.step_keys op
  | setAttempt => exact .updated rfl ⟨rfl,rfl,Table.update_keys (by intro; rfl),rfl⟩
  | quarantine => exact .updated rfl ⟨rfl,Table.update_keys (by intro; rfl),rfl,rfl⟩
  | spawn p stay next =>
    simp only [perform]
    split <;> exact .refl _ _
  | report _ _ _ tokens =>
    cases tokens <;> exact .refl _ _
  | _ => exact .refl _ _

/-! The processes. -/

/-- A process stays what it is; only its status changes, and it may be charged. -/
def Provider.Moves (a b : Provider) : Prop :=
  b.key = a.key ∧ b.sessionId = a.sessionId ∧ b.kind = a.kind ∧ b.pid = a.pid ∧ b.birthToken = a.birthToken ∧
    b.tokens = a.tokens ∧ (a.charged → b.charged) ∧ (a.status = .gone → b.status = .gone)

theorem Provider.Moves.refl (a : Provider) : a.Moves a := ⟨rfl,rfl,rfl,rfl,rfl,rfl,id,id⟩

def Access.spawned {P : Type} : Access P → Option Provider
  | .spawn p _ _ => some p
  | _ => none

namespace World

/-- Every process was there before, or is the one that is created. -/
structure Peopled (before after : List Provider) (new : Option Provider) : Prop where
  kept : ∀ p ∈ before, ∃ q ∈ after, p.Moves q
  drawn : ∀ q ∈ after, (∃ p ∈ before, p.Moves q) ∨ new = some q

theorem peopled_map {before : List Provider} {new : Option Provider} {f : Provider → Provider}
    (moves : ∀ p : Provider, p.Moves (f p)) : Peopled before (before.map f) new where
  kept p member := ⟨f p,List.mem_map_of_mem member,moves p⟩
  drawn q member := by
    obtain ⟨p,present,rfl⟩ := List.mem_map.mp member
    exact .inl ⟨p,present,moves p⟩

theorem peopled_refl (before : List Provider) (new : Option Provider) : Peopled before before new where
  kept p member := ⟨p,member,.refl p⟩
  drawn p member := .inl ⟨p,member,.refl p⟩

theorem peopled_setStatus (w : World) {pid : Int} {birthToken : String} {status : ProviderStatus}
    {new : Option Provider} : Peopled w.providers (w.setStatus pid birthToken status).providers new := by
  apply peopled_map
  intro p
  split
  next living => exact ⟨rfl,rfl,rfl,rfl,rfl,rfl,id,fun gone => absurd gone living.2⟩
  next => exact .refl p

theorem perform_peopled {P : Type} (w : World) (a : Access P) :
    Peopled w.providers (w.perform a).1.providers a.spawned := by
  cases a with
  | spawn p stay next =>
    simp only [perform]
    split
    next =>
      refine ⟨fun q member => ⟨q,List.mem_append_left _ member,.refl q⟩,?_⟩
      intro q member
      rcases List.mem_append.mp member with before | new
      · exact .inl ⟨q,before,.refl q⟩
      · exact .inr (congrArg some (List.mem_singleton.mp new).symm)
    next => exact peopled_refl _ _
  | signal => exact w.peopled_setStatus
  | report pid birthToken sessionId tokens =>
    cases tokens with
    | none => exact peopled_refl _ _
    | some n =>
      apply peopled_map
      intro p
      split
      next => exact ⟨rfl,rfl,rfl,rfl,rfl,rfl,fun _ => rfl,id⟩
      next => exact .refl p
  | _ => exact peopled_refl _ _

end World

namespace Host

/-- The access that an action makes. -/
inductive Makes (cfg : Settings) (s : Host) : HostAction → {P : Type} → Access P → Prop
  | store {op : Op} (outside : op.outside) : Makes cfg s (.store op) (.call op (fun _ => ()))
  | wake {i : Nat} {t : WakeThread} (input : Input) (found : s.wakes[i]? = some t) :
      Makes cfg s (.wakeStep i input) (t.access cfg input)
  | worker {i : Nat} {t : WorkerThread} (input : Input) (found : s.workers[i]? = some t) :
      Makes cfg s (.workerStep i input) (t.access cfg input)
  | pause (input : Input) : Makes cfg s (.pauseStep input) (s.pause.access input)
  | resume (now : Instant) :
      Makes cfg s (.resume now) (.call (.journal (.setSupervisorValue "paused" (.bool false) now)) (fun _ => ()))
  | recovery (input : Input) : Makes cfg s (.recoverStep input) (s.recovery.access input)

/-- What an action does to the world. -/
inductive WorldEffect (cfg : Settings) (s : Host) : HostAction → World → Prop
  | accessed {action : HostAction} {P : Type} {a : Access P} (makes : Makes cfg s action a) :
      WorldEffect cfg s action (s.world.perform a).1
  | same {action : HostAction} : WorldEffect cfg s action s.world
  | exited (pid : Int) (birthToken : String) :
      WorldEffect cfg s (.exit pid birthToken) (s.world.setStatus pid birthToken .gone)
  | crashed : WorldEffect cfg s .crash {s.world with usage := fun _ => 0,uncertainUsage := fun _ => false}

theorem step_effect (cfg : Settings) (s : Host) (action : HostAction) :
    WorldEffect cfg s action (s.step cfg action).world := by
  cases action with
  | store op =>
    simp only [step]
    split
    next outside => exact .accessed (.store outside)
    next => exact .same
  | exit pid birthToken => exact .exited pid birthToken
  | wake | recover =>
    simp only [step]
    split <;> exact .same
  | request wake workerType =>
    simp only [step]
    split <;> exact .same
  | wakeStep i input =>
    simp only [step]
    split
    next t found => exact .accessed (.wake input found)
    next => exact .same
  | workerStep i input =>
    simp only [step]
    split
    next t found => exact .accessed (.worker input found)
    next => exact .same
  | pause =>
    simp only [step]
    split <;> exact .same
  | pauseStep input => exact .accessed (.pause input)
  | resume now =>
    simp only [step]
    split
    next => exact .accessed (.resume now)
    next => exact .same
  | crash => exact .crashed
  | recoverStep input => exact .accessed (.recovery input)

/-- What an action does to the threads. -/
inductive ThreadsEffect (cfg : Settings) (s : Host) (action : HostAction) (next : Host) : Prop
  | same (wakes : next.wakes = s.wakes) (workers : next.workers = s.workers)
      (noWake : ∀ i input, action = .wakeStep i input → s.wakes[i]? = none)
      (noWorker : ∀ i input, action = .workerStep i input → s.workers[i]? = none)
  | wake {i : Nat} {input : Input} {t : WakeThread} (is : action = .wakeStep i input) (found : s.wakes[i]? = some t)
      (wakes : next.wakes = s.wakes.set i (s.world.perform (t.access cfg input)).2) (workers : next.workers = s.workers)
  | worker {i : Nat} {input : Input} {t : WorkerThread} (is : action = .workerStep i input)
      (found : s.workers[i]? = some t) (wakes : next.wakes = s.wakes)
      (workers : next.workers = s.workers.set i (s.world.perform (t.access cfg input)).2)
  | woken {t : WakeThread} (is : action = .wake t.role t.delivery t.reason) (assigned : s.assigned t.role t.delivery)
      (entered : t.point = .entered) (wakes : next.wakes = s.wakes ++ [t]) (workers : next.workers = s.workers)
  | requested {i : Nat} {t : WorkerThread} (is : action = .request i t.workerType) (served : s.served i = some t.session)
      (requested : t.point = .requested) (wakes : next.wakes = s.wakes) (workers : next.workers = s.workers ++ [t])
  | crashed (is : action = .crash) (wakes : next.wakes = []) (workers : next.workers = [])

theorem step_threads (cfg : Settings) (s : Host) (action : HostAction) :
    ThreadsEffect cfg s action (s.step cfg action) := by
  cases action with
  | wakeStep i input =>
    simp only [step]
    split
    next t found => exact .wake rfl found rfl rfl
    next none_ => exact .same rfl rfl (by rintro _ _ ⟨⟩; exact none_) (by rintro _ _ ⟨⟩)
  | workerStep i input =>
    simp only [step]
    split
    next t found => exact .worker rfl found rfl rfl
    next none_ => exact .same rfl rfl (by rintro _ _ ⟨⟩) (by rintro _ _ ⟨⟩; exact none_)
  | wake role delivery reason =>
    simp only [step]
    split
    next enabled => exact @ThreadsEffect.woken _ _ _ _ ⟨role,delivery,reason,.entered⟩ rfl enabled.2 rfl rfl rfl
    next => exact .same rfl rfl (by rintro _ _ ⟨⟩) (by rintro _ _ ⟨⟩)
  | request i workerType =>
    simp only [step]
    split
    next session served => exact @ThreadsEffect.requested _ _ _ _ i ⟨session,workerType,.requested⟩ rfl served rfl rfl rfl
    next => exact .same rfl rfl (by rintro _ _ ⟨⟩) (by rintro _ _ ⟨⟩)
  | store op | pause | resume now | recover =>
    simp only [step]
    split <;> exact .same rfl rfl (by rintro _ _ ⟨⟩) (by rintro _ _ ⟨⟩)
  | crash => exact .crashed rfl rfl rfl
  | exit pid birthToken | pauseStep input | recoverStep input => exact .same rfl rfl (by rintro _ _ ⟨⟩) (by rintro _ _ ⟨⟩)

section Step
variable {cfg : Settings} {s : Host} {action : HostAction}
open SjgControl.Runtime

theorem Makes.decent {P : Type} {a : Access P} (regular : s.Regular) (makes : Makes cfg s action a) :
    a.quiet ∨ ∃ y, a.decent s.world y := by
  cases makes with
  | store outside =>
    left
    rename_i op
    cases op <;> first | rfl | (simp [Op.outside] at outside)
  | @wake i t input found =>
    by_cases created : t.point = .unpaused
    · refine .inr ⟨input.uuid,?_⟩
      unfold WakeThread.access
      rw [created]
      rfl
    · have placed := regular.placed t (List.mem_of_getElem? found)
      rcases @WakeThread.decent s.world regular.orderly cfg t input placed created with quiet | ⟨y,decent,_⟩ |
        ⟨x,_,decent⟩
      · exact .inl quiet
      · exact .inr ⟨y,decent⟩
      · exact .inr ⟨x.sessionId,decent⟩
  | @worker i t input found =>
    have employed := regular.employed t (List.mem_of_getElem? found)
    rcases @WorkerThread.decent s.world cfg t input regular.orderly employed with quiet | ⟨y,decent,_⟩
    · exact .inl quiet
    · exact .inr ⟨y,decent⟩
  | pause input =>
    rcases @PausePoint.decent s.world input regular.orderly s.pause regular.pausing with quiet | ⟨y,decent,_⟩
    · exact .inl quiet
    · exact .inr ⟨y,decent⟩
  | resume => exact .inl rfl
  | recovery input => exact @RecoverPoint.decent s.world input regular.orderly s.recovery regular.recovering

/-- Every step concerns one session. -/
theorem Regular.step_shift (regular : s.Regular) (cfg : Settings) (action : HostAction) :
    ∃ y, Shift y s.world.store.runtime (s.step cfg action).world.store.runtime := by
  have effect := step_effect cfg s action
  generalize (s.step cfg action).world = world at effect ⊢
  cases effect with
  | accessed makes =>
    rcases makes.decent regular with quiet | ⟨y,decent⟩
    · rw [World.perform_quiet quiet]
      exact ⟨"",.refl _ _⟩
    · exact ⟨y,World.perform_shift decent⟩
  | same | exited | crashed => exact ⟨"",.refl _ _⟩

def inserts (cfg : Settings) (s : Host) : HostAction → Option RuntimeTable
  | .wakeStep i input => s.wakes[i]?.bind (fun t => (t.access cfg input).inserts)
  | .workerStep i input => s.workers[i]?.bind (fun t => (t.access cfg input).inserts)
  | .pauseStep input => (s.pause.access input).inserts
  | .recoverStep input => (s.recovery.access input).inserts
  | _ => none

theorem step_keys (cfg : Settings) (s : Host) (action : HostAction) :
    Keys (s.inserts cfg action) s.world.store.runtime (s.step cfg action).world.store.runtime := by
  have effect := step_effect cfg s action
  generalize (s.step cfg action).world = world at effect ⊢
  cases effect with
  | @accessed _ P a makes =>
    have keys := s.world.perform_keys a
    cases makes with
    | wake input found => simpa only [inserts,found,Option.bind_some] using keys
    | worker input found => simpa only [inserts,found,Option.bind_some] using keys
    | store outside => simpa only [inserts,Access.inserts,Op.inserts_outside outside] using keys
    | _ => exact keys
  | same | exited | crashed => exact .refl _ _

def spawned (cfg : Settings) (s : Host) : HostAction → Option Provider
  | .wakeStep i input => s.wakes[i]?.bind (fun t => (t.access cfg input).spawned)
  | .workerStep i input => s.workers[i]?.bind (fun t => (t.access cfg input).spawned)
  | _ => none

end Step
end Host

/-! Who creates processes, and who adds rows. -/

section Which
variable {cfg : Settings} {input : Input}

theorem WakeThread.spawned_cases {t : WakeThread} {p : Provider} (spawns : (t.access cfg input).spawned = some p) :
    ∃ g, t.point = .prepared g ∧ input.fault = none ∧
      p = input.provider (parentKey g.session.sessionId) g.session.sessionId .parent := by
  obtain ⟨role,delivery,reason,point⟩ := t
  cases point with
  | prepared g =>
    simp only [access] at spawns
    split at spawns
    next => cases spawns
    next none_ => exact ⟨g,rfl,none_,(Option.some.inj spawns).symm⟩
  | terminating g stage error =>
    simp only [access] at spawns
    cases stage with
    | killing rows complete => cases rows <;> cases spawns
    | _ => cases spawns
  | _ =>
    simp only [access] at spawns
    repeat' (first | cases spawns | split at spawns)

theorem WorkerThread.spawned_cases {t : WorkerThread} {p : Provider} (spawns : (t.access cfg input).spawned = some p) :
    ∃ attempt, t.point = .begun attempt ∧ input.fault = none ∧
      p = input.provider (workerKey attempt) t.session.sessionId .worker := by
  obtain ⟨session,workerType,point⟩ := t
  cases point with
  | begun attempt =>
    simp only [access] at spawns
    split at spawns
    next => cases spawns
    next none_ => exact ⟨attempt,rfl,none_,(Option.some.inj spawns).symm⟩
  | _ =>
    simp only [access] at spawns
    repeat' (first | cases spawns | split at spawns)

theorem Sweep.spawned {P : Type} {sweep : Sweep} {x reason : String} {more : Sweep → P} {done : Except StoreError Bool → P} :
    (sweep.access x reason input more done).spawned = none := by
  cases sweep with
  | terminating stage =>
    cases stage with
    | killing rows complete => cases rows <;> rfl
    | _ => rfl
  | forcing wake =>
    simp only [access]
    split <;> rfl
  | _ => rfl

theorem WakeThread.inserts_cases {t : WakeThread} {k : RuntimeTable} (inserts : (t.access cfg input).inserts = some k) :
    k = .session ∧ t.point = .unpaused ∨ k = .reservation ∧ (∃ x, t.point = .sessioned x) ∨
      k = .wake ∧ (∃ g, t.point = .budgeted g) ∨
      k = .process ∧ ∃ g h, t.point = .spawned g h ∧ input.fault = none := by
  obtain ⟨role,delivery,reason,point⟩ := t
  cases point with
  | unpaused => exact .inl ⟨(Option.some.inj inserts).symm,rfl⟩
  | sessioned x => exact .inr (.inl ⟨(Option.some.inj inserts).symm,x,rfl⟩)
  | budgeted g => exact .inr (.inr (.inl ⟨(Option.some.inj inserts).symm,g,rfl⟩))
  | spawned g h =>
    simp only [access] at inserts
    split at inserts
    next => cases inserts
    next none_ => exact .inr (.inr (.inr ⟨(Option.some.inj inserts).symm,g,h,rfl,none_⟩))
  | terminating g stage error =>
    simp only [access] at inserts
    cases stage with
    | killing rows complete => cases rows <;> cases inserts
    | _ => cases inserts
  | settled g result tokens =>
    by_cases failed : result.returncode = 0 <;> simp [access,failed,Access.inserts,Op.inserts,RuntimeOp.inserts] at inserts
  | closed g result tokens =>
    cases delivery with
    | none => cases inserts
    | some delivery =>
      by_cases failed : result.returncode = 0 <;>
        simp [access,failed,Access.inserts,Op.inserts,finishDelivery] at inserts
  | _ =>
    simp only [access] at inserts
    repeat' (first | cases inserts | split at inserts)

theorem WorkerThread.inserts_cases {t : WorkerThread} {k : RuntimeTable} (inserts : (t.access cfg input).inserts = some k) :
    k = .attempt ∧ t.point = .requested ∨
      k = .process ∧ ∃ attempt h, t.point = .spawned attempt h ∧ input.fault = none := by
  obtain ⟨session,workerType,point⟩ := t
  cases point with
  | requested =>
    simp only [access] at inserts
    split at inserts
    next => cases inserts
    next => exact .inl ⟨(Option.some.inj inserts).symm,rfl⟩
  | spawned attempt h =>
    simp only [access] at inserts
    split at inserts
    next => cases inserts
    next none_ => exact .inr ⟨(Option.some.inj inserts).symm,attempt,h,rfl,none_⟩
  | _ =>
    simp only [access] at inserts
    repeat' (first | cases inserts | split at inserts)

theorem Sweep.inserts {P : Type} {sweep : Sweep} {x reason : String} {more : Sweep → P} {done : Except StoreError Bool → P} :
    (sweep.access x reason input more done).inserts = none := by
  cases sweep with
  | terminating stage =>
    cases stage with
    | killing rows complete => cases rows <;> rfl
    | _ => rfl
  | forcing wake =>
    simp only [access]
    split <;> rfl
  | _ => rfl

theorem PausePoint.inserts {point : PausePoint} : (point.access input).inserts = none := by
  cases point with
  | sweeping session sweep rest terminated uncertain =>
    simp only [access]
    exact Sweep.inserts
  | _ => rfl

theorem RecoverPoint.inserts {point : RecoverPoint} : (point.access input).inserts = none := by
  cases point with
  | orphans sessions listed recovered => cases sessions <;> rfl
  | wakes listed recovered uncertain => cases listed <;> rfl
  | sweeping wake sweep rest recovered uncertain =>
    simp only [access]
    exact Sweep.inserts
  | _ => rfl

theorem WakeThread.next_call (w : World) (cfg : Settings) (t : WakeThread) (input : Input) :
    (w.perform (t.access cfg input)).2.role = t.role ∧ (w.perform (t.access cfg input)).2.delivery = t.delivery := by
  obtain ⟨point,same,_⟩ := t.next_at w cfg input
  rw [same]
  exact ⟨rfl,rfl⟩

end Which

namespace Host
variable {cfg : Settings} {s : Host} {action : HostAction}

theorem spawned_cases {p : Provider} (spawns : s.spawned cfg action = some p) :
    (∃ i input t g, action = .wakeStep i input ∧ s.wakes[i]? = some t ∧ t.point = .prepared g ∧ input.fault = none ∧
        p = input.provider (parentKey g.session.sessionId) g.session.sessionId .parent) ∨
      ∃ i input t attempt, action = .workerStep i input ∧ s.workers[i]? = some t ∧ t.point = .begun attempt ∧
        input.fault = none ∧ p = input.provider (workerKey attempt) t.session.sessionId .worker := by
  cases action with
  | wakeStep i input =>
    obtain ⟨t,found,spawns⟩ := Option.bind_eq_some_iff.mp spawns
    obtain ⟨g,point,none_,equal⟩ := WakeThread.spawned_cases spawns
    exact .inl ⟨i,input,t,g,rfl,found,point,none_,equal⟩
  | workerStep i input =>
    obtain ⟨t,found,spawns⟩ := Option.bind_eq_some_iff.mp spawns
    obtain ⟨attempt,point,none_,equal⟩ := WorkerThread.spawned_cases spawns
    exact .inr ⟨i,input,t,attempt,rfl,found,point,none_,equal⟩
  | _ => cases spawns

theorem step_peopled (cfg : Settings) (s : Host) (action : HostAction) :
    World.Peopled s.world.providers (s.step cfg action).world.providers (s.spawned cfg action) := by
  have effect := step_effect cfg s action
  generalize (s.step cfg action).world = world at effect ⊢
  cases effect with
  | @accessed _ P a makes =>
    have peopled := s.world.perform_peopled a
    cases makes with
    | wake input found => simpa only [spawned,found,Option.bind_some] using peopled
    | worker input found => simpa only [spawned,found,Option.bind_some] using peopled
    | store => exact peopled
    | resume => exact peopled
    | pause input =>
      have silent : (s.pause.access input).spawned = none := by
        generalize s.pause = point
        cases point with
        | sweeping =>
          simp only [PausePoint.access]
          exact Sweep.spawned
        | _ => rfl
      simpa only [spawned,silent] using peopled
    | recovery input =>
      have silent : (s.recovery.access input).spawned = none := by
        generalize s.recovery = point
        cases point with
        | orphans sessions => cases sessions <;> rfl
        | wakes listed => cases listed <;> rfl
        | sweeping =>
          simp only [RecoverPoint.access]
          exact Sweep.spawned
        | _ => rfl
      simpa only [spawned,silent] using peopled
  | same => exact World.peopled_refl _ _
  | exited => exact s.world.peopled_setStatus
  | crashed => exact World.peopled_refl _ _

theorem inserts_cases {k : RuntimeTable} (inserts : s.inserts cfg action = some k) :
    (∃ i input t, action = .wakeStep i input ∧ s.wakes[i]? = some t ∧ (t.access cfg input).inserts = some k) ∨
      ∃ i input t, action = .workerStep i input ∧ s.workers[i]? = some t ∧ (t.access cfg input).inserts = some k := by
  cases action with
  | wakeStep i input =>
    obtain ⟨t,found,inserts⟩ := Option.bind_eq_some_iff.mp inserts
    exact .inl ⟨i,input,t,rfl,found,inserts⟩
  | workerStep i input =>
    obtain ⟨t,found,inserts⟩ := Option.bind_eq_some_iff.mp inserts
    exact .inr ⟨i,input,t,rfl,found,inserts⟩
  | pauseStep input => cases (@PausePoint.inserts input s.pause).symm.trans inserts
  | recoverStep input => cases (@RecoverPoint.inserts input s.recovery).symm.trans inserts
  | _ => cases inserts

end Host

/-! A delivery keeps its role. -/

def Delivery.Lasts (a b : Delivery) : Prop := b.deliveryId = a.deliveryId ∧ b.role = a.role

namespace Queue
open Table

theorem Lasts.refl (a : Delivery) : a.Lasts a := ⟨rfl,rfl⟩

theorem Lasts.trans (a b c : Delivery) (first : a.Lasts b) (second : b.Lasts c) : a.Lasts c :=
  ⟨second.1.trans first.1,second.2.trans first.2⟩

theorem lasts_map {t u : Table Delivery} {p : Delivery → Prop} [DecidablePred p] {f : Delivery → Delivery}
    (rows : u.rows = t.rows.map (fun r => if p r then f r else r)) (lasts : ∀ r : Delivery, r.Lasts (f r)) :
    Kept Delivery.Lasts t u := by
  intro r member
  refine ⟨_,rows ▸ List.mem_map_of_mem member,?_⟩
  split
  next => exact lasts r
  next => exact Lasts.refl r

theorem leaseDelivery_lasts {db next : Queue} {owner : String} {instant : Instant} {leaseSeconds maxAttempts : Int}
    {found : Option Delivery} (ok : db.leaseDelivery owner instant leaseSeconds maxAttempts = .ok (found,next)) :
    Kept Delivery.Lasts db.deliveries next.deliveries := by
  have quarantined (q : Queue) : Kept Delivery.Lasts q.deliveries (q.quarantineExpired instant.isoText).deliveries :=
    lasts_map rfl (fun _ => ⟨rfl,rfl⟩)
  have reclaimed (q : Queue) : Kept Delivery.Lasts q.deliveries (q.reclaimExpired instant.isoText).deliveries :=
    lasts_map rfl (fun _ => ⟨rfl,rfl⟩)
  have buried (q : Queue) : Kept Delivery.Lasts q.deliveries (q.buryExhausted maxAttempts).deliveries :=
    lasts_map rfl (fun _ => ⟨rfl,rfl⟩)
  have swept := ((quarantined db).trans Lasts.trans (reclaimed _)).trans Lasts.trans (buried _)
  obtain ⟨_,_,_,_,rfl,⟨_,_,rfl⟩ | ⟨_,_,rfl,_⟩⟩ := leaseDelivery_effect ok
  · exact swept
  · exact swept.trans Lasts.trans (lasts_map rfl (fun _ => ⟨rfl,rfl⟩))

theorem body_lasts {db next : Queue} {op : QueueOp} (ok : db.body op = .ok ((),next)) :
    Kept Delivery.Lasts db.deliveries next.deliveries := by
  have quiet (same : Quiet db next) : Kept Delivery.Lasts db.deliveries next.deliveries := by
    rw [same.1]
    exact .refl Lasts.refl _
  cases op with
  | checkpoint =>
    cases ok
    exact .refl Lasts.refl _
  | beginSnapshot =>
    obtain ⟨_,ok⟩ := discard_ok.mp ok
    exact quiet (beginSnapshot_quiet ok)
  | stageObservation =>
    obtain ⟨_,ok⟩ := discard_ok.mp ok
    exact quiet (stageObservation_quiet ok)
  | finishSnapshot =>
    obtain ⟨_,ok⟩ := discard_ok.mp ok
    exact quiet (finishSnapshot_quiet ok)
  | finishEventRouting => exact quiet (finishEventRouting_quiet ok)
  | addRoute => exact quiet (addRoute_quiet ok)
  | enqueueDelivery =>
    obtain ⟨_,ok⟩ := discard_ok.mp ok
    obtain rfl | ⟨_,_,_,_,_,inserted,_⟩ := enqueueDelivery_ok ok
    · exact .refl Lasts.refl _
    · exact kept_insert Lasts.refl inserted
  | leaseDelivery =>
    obtain ⟨_,ok⟩ := discard_ok.mp ok
    exact leaseDelivery_lasts ok
  | startDelivery =>
    obtain ⟨_,rfl⟩ := startDelivery_effect ok
    exact lasts_map rfl (fun _ => ⟨rfl,rfl⟩)
  | finishDelivery =>
    obtain ⟨_,_,_,rfl⟩ := finishDelivery_effect ok
    exact lasts_map rfl (fun _ => ⟨rfl,rfl⟩)
  | releaseBudgetHold =>
    obtain ⟨_,rfl⟩ := releaseBudgetHold_effect ok
    exact lasts_map rfl (fun _ => ⟨rfl,rfl⟩)
  | forceDeliveryUncertain =>
    obtain ⟨_,rfl⟩ := forceDeliveryUncertain_effect ok
    exact lasts_map rfl (fun _ => ⟨rfl,rfl⟩)

theorem retryLeasedDelivery_lasts {db next : Queue} {delivery eligibleAt error : String}
    (ok : db.retryLeasedDelivery delivery eligibleAt error = .ok next) :
    Kept Delivery.Lasts db.deliveries next.deliveries := by
  obtain ⟨_,rfl⟩ := retryLeasedDelivery_effect ok
  exact lasts_map rfl (fun _ => ⟨rfl,rfl⟩)

end Queue

theorem Store.step_lasts (db : Store) (op : Op) :
    Table.Kept Delivery.Lasts db.queue.deliveries (db.step op).queue.deliveries := by
  have effect := db.step_queue op
  generalize (db.step op).queue = next at effect ⊢
  cases effect with
  | unchanged | failed => exact .refl Queue.Lasts.refl _
  | committed q next ok => exact Queue.body_lasts ok
  | retried delivery eligibleAt error next other ok => exact Queue.retryLeasedDelivery_lasts ok

theorem Host.step_lasts (cfg : Settings) (s : Host) (action : HostAction) :
    Table.Kept Delivery.Lasts s.world.store.queue.deliveries (s.step cfg action).world.store.queue.deliveries := by
  rw [Host.step_queue]
  cases s.operation cfg action with
  | none => exact .refl Queue.Lasts.refl _
  | some op => exact s.world.store.step_lasts op

/-! What the host's rows say about its roles. -/

namespace Queue
open Table

def Addressed (db : Queue) (role d : String) : Prop := ∃ row ∈ db.deliveries.rows, row.deliveryId = d ∧ row.role = role

theorem Addressed.kept {db next : Queue} {role d : String} (addressed : db.Addressed role d)
    (lasts : Kept Delivery.Lasts db.deliveries next.deliveries) : next.Addressed role d := by
  obtain ⟨row,member,name,own⟩ := addressed
  obtain ⟨after,present,same,stays⟩ := lasts row member
  exact ⟨after,present,same.trans name,stays.trans own⟩

end Queue

namespace Host
open SjgControl.Runtime Table

/-- One organization, one active session for a role, and every wake has a delivery of its role. -/
structure Posted (cfg : Settings) (s : Host) : Prop where
  org : ∀ r ∈ s.world.store.runtime.sessions.rows, r.orgId = cfg.orgId
  lone : ∀ r ∈ s.world.store.runtime.sessions.rows, ∀ q ∈ s.world.store.runtime.sessions.rows,
    r.state = .active → q.state = .active → r.role = q.role → r.sessionId = q.sessionId
  called : ∀ t ∈ s.wakes, ∀ d ∈ t.delivery, s.world.store.queue.Addressed t.role d
  carried : ∀ w ∈ s.world.store.runtime.wakes.rows, ∀ d ∈ w.deliveryId, s.world.store.queue.Addressed w.role d

section Step
variable {cfg : Settings} {s : Host} {action : HostAction}

/-- The session a step adds is of this organization and alone in its role. -/
theorem step_session (regular : s.Regular) :
    (∀ r ∈ (s.step cfg action).world.store.runtime.sessions.rows,
        ∃ old ∈ s.world.store.runtime.sessions.rows, old.Moves r) ∨
      ∃ row : WakeSession, row.orgId = cfg.orgId ∧
        (∀ r ∈ s.world.store.runtime.sessions.rows, r.orgId = cfg.orgId → r.role = row.role → r.state ≠ .active) ∧
        s.world.store.runtime.sessions.insert row = some (s.step cfg action).world.store.runtime.sessions := by
  obtain ⟨y,shift⟩ := regular.step_shift cfg action
  have keys := (step_keys cfg s action).sessions
  by_cases creates : s.inserts cfg action = some .session
  · rcases inserts_cases creates with ⟨i,input,t,rfl,found,inserts⟩ | ⟨i,input,t,rfl,found,inserts⟩
    · obtain ⟨_,created⟩ | ⟨other,_⟩ | ⟨other,_⟩ | ⟨other,_⟩ := WakeThread.inserts_cases inserts
      · have world : (s.step cfg (.wakeStep i input)).world = (s.world.perform (t.access cfg input)).1 := by
          simp only [step,found]
        rcases @WakeThread.create_cases s.world cfg t input created with ⟨_,_,same⟩ |
          ⟨row,_,_,_,org,role,_,alone,sessions,inserted,after⟩
        · rw [world,same]
          exact .inl (fun r member => ⟨r,member,.refl r⟩)
        · rw [world,after]
          exact .inr ⟨row,org,fun r member own same => alone r member own (same.trans role),inserted⟩
      all_goals cases other
    · obtain ⟨other,_⟩ | ⟨other,_⟩ := WorkerThread.inserts_cases inserts <;> cases other
  · exact .inl (shift.keptSessions.drawn (keys creates) (fun _ _ moves => moves.1))

theorem step_wakeRow (regular : s.Regular) :
    ∀ w ∈ (s.step cfg action).world.store.runtime.wakes.rows,
      (∃ old ∈ s.world.store.runtime.wakes.rows, old.Moves w) ∨
        ∃ t ∈ s.wakes, w.deliveryId = t.delivery ∧ w.role = t.role := by
  obtain ⟨y,shift⟩ := regular.step_shift cfg action
  have keys := (step_keys cfg s action).wakes
  intro w member
  by_cases prepares : s.inserts cfg action = some .wake
  · rcases inserts_cases prepares with ⟨i,input,t,rfl,found,inserts⟩ | ⟨i,input,t,rfl,found,inserts⟩
    · obtain ⟨other,_⟩ | ⟨other,_⟩ | ⟨_,g,point⟩ | ⟨other,_⟩ := WakeThread.inserts_cases inserts
      · cases other
      · cases other
      · have present := List.mem_of_getElem? found
        have role := ((regular.placed t present).bound g.session (by rw [point]; rfl)).2
        have effect := s.world.store.step_runtime (.prepareWake g.session t.delivery g.reservation
          (WakeThread.socketPath cfg g.session.wakeId) t.reason input.now)
        have world : (s.step cfg (.wakeStep i input)).world.store = s.world.store.step (.prepareWake g.session t.delivery
            g.reservation (WakeThread.socketPath cfg g.session.wakeId) t.reason input.now) := by
          simp only [step,found,WakeThread.access,point,World.perform]
        rw [world] at member
        generalize (s.world.store.step _).runtime = next at effect member
        cases effect with
        | unchanged => exact .inl ⟨w,member,.refl w⟩
        | prepared next ok =>
          obtain ⟨_,wakes,inserted,rfl⟩ := Runtime.insertWake_effect ok
          rcases (mem_insert inserted).mp member with before | rfl
          · exact .inl ⟨w,before,.refl w⟩
          · exact .inr ⟨t,present,rfl,role⟩
      · cases other
    · obtain ⟨other,_⟩ | ⟨other,_⟩ := WorkerThread.inserts_cases inserts <;> cases other
  · exact .inl (shift.keptWakes.drawn (keys prepares) (fun _ _ moves => moves.1) w member)

theorem step_wakes (cfg : Settings) (s : Host) (action : HostAction) :
    ∀ t ∈ (s.step cfg action).wakes, (∃ u ∈ s.wakes, t.role = u.role ∧ t.delivery = u.delivery) ∨
      s.assigned t.role t.delivery ∧ (s.step cfg action).world = s.world := by
  intro t member
  have kept (present : t ∈ s.wakes) : (∃ u ∈ s.wakes, t.role = u.role ∧ t.delivery = u.delivery) ∨
      s.assigned t.role t.delivery ∧ (s.step cfg action).world = s.world := .inl ⟨t,present,rfl,rfl⟩
  cases step_threads cfg s action with
  | same wakes => exact kept (wakes ▸ member)
  | wake is found wakes =>
    rw [wakes] at member
    rcases Regular.mem_set member with rfl | ⟨j,_,there⟩
    · exact .inl ⟨_,List.mem_of_getElem? found,WakeThread.next_call s.world cfg _ _⟩
    · exact kept (List.mem_of_getElem? there)
  | worker is found wakes => exact kept (wakes ▸ member)
  | woken is assigned entered wakes =>
    rw [wakes] at member
    rcases List.mem_append.mp member with before | new
    · exact kept before
    · cases List.mem_singleton.mp new
      refine .inr ⟨assigned,?_⟩
      subst is
      simp only [step]
      split <;> rfl
  | requested is served requested wakes => exact kept (wakes ▸ member)
  | crashed is wakes =>
    rw [wakes] at member
    cases member

theorem Posted.step (regular : s.Regular) (posted : s.Posted cfg) (action : HostAction) :
    (s.step cfg action).Posted cfg := by
  have lasts := step_lasts cfg s action
  refine ⟨?_,?_,?_,?_⟩
  · intro r member
    rcases @step_session cfg s action regular with drawn | ⟨row,org,_,inserted⟩
    · obtain ⟨old,present,moves⟩ := drawn r member
      exact moves.2.2.1.trans (posted.org old present)
    · rcases (mem_insert inserted).mp member with before | rfl
      · exact posted.org r before
      · exact org
  · intro r member q present active also same
    rcases @step_session cfg s action regular with drawn | ⟨row,_,alone,inserted⟩
    · obtain ⟨r₀,rowR,movesR⟩ := drawn r member
      obtain ⟨q₀,rowQ,movesQ⟩ := drawn q present
      have role : r₀.role = q₀.role := movesR.2.2.2.1.symm.trans (same.trans movesQ.2.2.2.1)
      exact movesR.1.trans ((posted.lone r₀ rowR q₀ rowQ (movesR.2.2.2.2 active) (movesQ.2.2.2.2 also) role).trans
        movesQ.1.symm)
    · rcases (mem_insert inserted).mp member with before | rfl
      · rcases (mem_insert inserted).mp present with before' | rfl
        · exact posted.lone r before q before' active also same
        · exact absurd active (alone r before (posted.org r before) same)
      · rcases (mem_insert inserted).mp present with before' | rfl
        · exact absurd also (alone q before' (posted.org q before') same.symm)
        · rfl
  · intro t member d own
    rcases step_wakes cfg s action t member with ⟨u,before,role,delivery⟩ | ⟨assigned,same⟩
    · rw [role]
      exact (posted.called u before d (delivery ▸ own)).kept lasts
    · rw [same]
      obtain ⟨_,row,found,role⟩ := assigned d own
      obtain ⟨present,name⟩ := get_eq_some.mp found
      exact ⟨row,present,name,role⟩
  · intro w member d own
    rcases @step_wakeRow cfg s action regular w member with ⟨old,present,moves⟩ | ⟨t,present,delivery,role⟩
    · rw [moves.2.2.2.1]
      exact (posted.carried old present d (moves.2.2.1 ▸ own)).kept lasts
    · rw [role]
      exact (posted.called t present d (delivery ▸ own)).kept lasts

end Step

theorem posted_initial (cfg : Settings) : initial.Posted cfg := by
  refine ⟨?_,?_,?_,?_⟩
  · intro r member
    cases member
  · intro r member
    cases member
  · intro t member
    cases member
  · intro w member
    cases member

end Host
end SjgControl

import SjgControl.Store.Operation

/-! Capacity under worker threads. The store closes a worker's attempt together with its
session; the thread that runs the worker writes the same row without looking at it.
A workforce is the store with, for each attempt, how far its thread has got. -/
namespace SjgControl
open Relational Machine

namespace Runtime

def Staffed (db : Runtime) : Prop :=
  ∀ w ∈ db.attempts.rows, w.state.live → db.sessionActive w.sessionId

def Capped (cap : Nat) (db : Runtime) : Prop :=
  ∀ orgId, db.parents orgId + db.workers orgId ≤ cap

/-- Every attempt was made in a session that is on record. -/
def Employed (db : Runtime) : Prop :=
  ∀ w ∈ db.attempts.rows, db.sessions.get w.sessionId ≠ none

/-- From `db` to `next` no attempt that succeeded or failed changes its state. -/
def Final (db next : Runtime) : Prop :=
  ∀ a w, db.attempts.get a = some w → w.state = .succeeded ∨ w.state = .failed →
    (next.attempts.get a).map WorkerAttempt.state = some w.state

/-- What one operation of the store does to sessions and attempts: it may end some
sessions and the live attempts in them, or it admits one session or one attempt. -/
inductive StaffEffect (cap : Nat) (db next : Runtime) : Prop
  | reduced (ends : WakeSession → WakeSession) (fails : WorkerAttempt → WorkerAttempt)
      (ended : ∀ r, ends r = r ∨ ∃ state, state ≠ .active ∧ ends r = {r with state})
      (failed : ∀ w, fails w = w ∨ w.state.live ∧ ∃ at_, fails w = {w with state := .failed,finishedAt := at_})
      (sessions : next.sessions.rows = db.sessions.rows.map ends)
      (attempts : next.attempts.rows = db.attempts.rows.map fails)
      (together : ∀ w ∈ db.attempts.rows, (fails w).state.live →
        ∀ r, db.sessions.get w.sessionId = some r → ends r = r)
  | hired (r : WakeSession) (inserted : db.sessions.insert r = some next.sessions)
      (attempts : next.attempts = db.attempts)
      (room : db.parents r.orgId + db.workers r.orgId < cap)
  | assigned (w : WorkerAttempt) (r : WakeSession) (accepted : w.state = .accepted)
      (inserted : db.attempts.insert w = some next.attempts) (sessions : next.sessions = db.sessions)
      (found : db.sessions.get w.sessionId = some r) (active : r.state = .active)
      (room : db.parents r.orgId + db.workers r.orgId < cap)

theorem StaffEffect.still {cap : Nat} {db next : Runtime} (sessions : next.sessions = db.sessions)
    (attempts : next.attempts = db.attempts) : StaffEffect cap db next :=
  .reduced id id (fun _ => .inl rfl) (fun _ => .inl rfl) (by rw [sessions,List.map_id])
    (by rw [attempts,List.map_id]) (fun _ _ _ _ _ => rfl)

theorem StaffEffect.closed {cap : Nat} {db next : Runtime} {sessionId : String} {state : SessionState}
    (past : state ≠ .active) (sessions : next.sessions = db.endSession sessionId state)
    (attempts : next.attempts = db.attempts) (alone : db.activeWorkers sessionId = 0) :
    StaffEffect cap db next := by
  refine .reduced (fun r => if r.sessionId = sessionId ∧ r.state = .active then {r with state} else r) id
    ?_ (fun _ => .inl rfl) (congrArg Table.rows sessions) (by rw [attempts,List.map_id]) ?_
  · intro r
    split
    next => exact .inr ⟨state,past,rfl⟩
    next => exact .inl rfl
  · intro w member live r found
    have place : r.sessionId = w.sessionId := (Table.get_eq_some.mp found).2
    have idle := Table.count_eq_zero.mp alone w member
    rw [if_neg]
    intro both
    exact idle ⟨place.symm.trans both.1,live⟩

theorem StaffEffect.dismissed {cap : Nat} {db next : Runtime} {sessionId : String}
    {state : SessionState} {now : Instant} (past : state ≠ .active)
    (sessions : next.sessions = db.endSession sessionId state)
    (attempts : next.attempts = db.failWorkers sessionId now) : StaffEffect cap db next := by
  refine .reduced (fun r => if r.sessionId = sessionId ∧ r.state = .active then {r with state} else r)
    (fun w => if w.sessionId = sessionId ∧ w.state.live
      then {w with state := .failed,finishedAt := some now.isoText} else w)
    ?_ ?_ (congrArg Table.rows sessions) (congrArg Table.rows attempts) ?_
  · intro r
    split
    next => exact .inr ⟨state,past,rfl⟩
    next => exact .inl rfl
  · intro w
    split
    next live => exact .inr ⟨live.2,_,rfl⟩
    next => exact .inl rfl
  · intro w member live r found
    have place : r.sessionId = w.sessionId := (Table.get_eq_some.mp found).2
    split at live
    next => simp [AttemptState.live] at live
    next elsewhere =>
      rw [if_neg]
      intro both
      exact elsewhere ⟨place.symm.trans both.1,live⟩

end Runtime

def RuntimeOp.usesCap (cap : Nat) : RuntimeOp → Prop
  | .createSession _ _ _ _ _ _ _ _ globalCap => globalCap = cap
  | .reserveWorker _ _ _ _ _ globalCap _ => globalCap = cap
  | _ => True

def Op.usesCap (cap : Nat) : Op → Prop
  | .runtime op => op.usesCap cap
  | _ => True

/-- The organization, the role and the global cap of a session that an operation asks for. -/
def RuntimeOp.hires : RuntimeOp → Option (String × String × Int)
  | .createSession _ _ orgId role _ _ _ _ globalCap => some (orgId,role,globalCap)
  | _ => none

/-- The session and the two caps of a worker that an operation asks for. -/
def RuntimeOp.assigns : RuntimeOp → Option (String × Int × Int)
  | .reserveWorker _ sessionId _ _ concurrentCap globalCap _ => some (sessionId,concurrentCap,globalCap)
  | _ => none

def Op.hires : Op → Option (String × String × Int)
  | .runtime op => op.hires
  | _ => none

def Op.assigns : Op → Option (String × Int × Int)
  | .runtime op => op.assigns
  | _ => none

namespace Runtime

/-- What an operation does to sessions and attempts, by the way it happens: a session ends in which
nobody works, or together with the attempts in it, or one is admitted that was asked for. -/
inductive Staffing (hires : Option (String × String × Int)) (assigns : Option (String × Int × Int))
    (db next : Runtime) : Prop
  | still (sessions : next.sessions = db.sessions) (attempts : next.attempts = db.attempts)
  | closed (sessionId : String) (state : SessionState) (past : state ≠ .active)
      (sessions : next.sessions = db.endSession sessionId state) (attempts : next.attempts = db.attempts)
      (alone : db.activeWorkers sessionId = 0)
  | dismissed (sessionId : String) (state : SessionState) (now : Instant) (past : state ≠ .active)
      (sessions : next.sessions = db.endSession sessionId state)
      (attempts : next.attempts = db.failWorkers sessionId now)
  | hired (r : WakeSession) (globalCap : Int) (asked : hires = some (r.orgId,r.role,globalCap))
      (inserted : db.sessions.insert r = some next.sessions) (attempts : next.attempts = db.attempts)
      (single : ∀ q ∈ db.sessions.rows, ¬ (q.orgId = r.orgId ∧ q.role = r.role ∧ q.state = .active))
      (room : ((db.parents r.orgId + db.workers r.orgId : Nat) : Int) < globalCap)
  | assigned (w : WorkerAttempt) (r : WakeSession) (concurrentCap globalCap : Int)
      (asked : assigns = some (w.sessionId,concurrentCap,globalCap)) (accepted : w.state = .accepted)
      (inserted : db.attempts.insert w = some next.attempts) (sessions : next.sessions = db.sessions)
      (found : db.sessions.get w.sessionId = some r) (active : r.state = .active)
      (below : (db.activeWorkers w.sessionId : Int) < concurrentCap)
      (room : ((db.parents r.orgId + db.workers r.orgId : Nat) : Int) < globalCap)

theorem Staffing.some_effect {hires : Option (String × String × Int)} {assigns : Option (String × Int × Int)}
    {db next : Runtime} (staffing : Staffing hires assigns db next) : ∃ cap, StaffEffect cap db next := by
  cases staffing with
  | still sessions attempts => exact ⟨0,.still sessions attempts⟩
  | closed sessionId state past sessions attempts alone => exact ⟨0,.closed past sessions attempts alone⟩
  | dismissed sessionId state now past sessions attempts => exact ⟨0,.dismissed past sessions attempts⟩
  | hired r globalCap asked inserted attempts single room =>
    exact ⟨globalCap.toNat,.hired r inserted attempts (by omega)⟩
  | assigned w r concurrentCap globalCap asked accepted inserted sessions found active below room =>
    exact ⟨globalCap.toNat,.assigned w r accepted inserted sessions found active (by omega)⟩

theorem Staffing.effect {cap : Nat} {hires : Option (String × String × Int)}
    {assigns : Option (String × Int × Int)} {db next : Runtime} (staffing : Staffing hires assigns db next)
    (hired : ∀ asked ∈ hires, asked.2.2 = cap) (assigned : ∀ asked ∈ assigns, asked.2.2 = cap) :
    StaffEffect cap db next := by
  cases staffing with
  | still sessions attempts => exact .still sessions attempts
  | closed sessionId state past sessions attempts alone => exact .closed past sessions attempts alone
  | dismissed sessionId state now past sessions attempts => exact .dismissed past sessions attempts
  | hired r globalCap asked inserted attempts single room =>
    have same : globalCap = cap := hired _ asked
    exact .hired r inserted attempts (by exact_mod_cast same ▸ room)
  | assigned w r concurrentCap globalCap asked accepted inserted sessions found active below room =>
    have same : globalCap = cap := assigned _ asked
    exact .assigned w r accepted inserted sessions found active (by exact_mod_cast same ▸ room)

theorem body_staffing {db next : Runtime} {op : RuntimeOp} (ok : db.body op = .ok ((),next)) :
    Staffing op.hires op.assigns db next := by
  cases op with
  | createSession =>
    obtain ⟨_,ok⟩ := discard_ok.mp ok
    obtain ⟨_,_,_,single,room,_,sessions,inserted,rfl,rfl⟩ := createSession_effect ok
    exact .hired _ _ rfl inserted rfl (Table.count_eq_zero.mp single) room
  | revokeSession =>
    obtain ⟨alone,_,rfl⟩ := revokeSession_effect ok
    exact .closed _ _ (by simp) rfl rfl alone
  | finishSession =>
    obtain ⟨⟨alone,_⟩,_,rfl⟩ := finishSession_effect ok
    exact .closed _ _ (by simp) rfl rfl alone
  | forceTerminateSession sessionId expired =>
    obtain ⟨_,rfl⟩ := forceTerminateSession_effect ok
    refine .dismissed _ _ _ ?_ rfl rfl
    cases expired <;> simp
  | reapExpiredSession =>
    obtain ⟨_,_,rfl⟩ := reapExpiredSession_effect ok
    exact .dismissed _ _ _ (by simp) rfl rfl
  | reserveWorker =>
    obtain ⟨_,ok⟩ := discard_ok.mp ok
    obtain ⟨r,⟨found,active,_⟩,_,below,room,_,_,inserted,rfl,rfl⟩ := reserveWorker_effect ok
    exact .assigned _ r _ _ rfl rfl inserted rfl found active below room
  | reserveBudget =>
    obtain ⟨_,ok⟩ := discard_ok.mp ok
    obtain ⟨_,_,_,_,_,_,_,_,_,_,_,rfl⟩ := reserveBudget_effect ok
    exact .still rfl rfl
  | settleBudget =>
    obtain ⟨_,ok⟩ := discard_ok.mp ok
    obtain ⟨_,_,_,_,_,_,rfl,rfl⟩ := settleBody_effect ok
    exact .still rfl rfl
  | markBudgetUncertain =>
    obtain ⟨_,rfl⟩ := markBudgetUncertain_effect ok
    exact .still rfl rfl
  | releaseBudget =>
    obtain ⟨_,_,_,_,released⟩ := releaseBudget_effect ok
    obtain ⟨_,_,rfl⟩ := release_effect released
    exact .still rfl rfl
  | markWakeRunning =>
    obtain ⟨_,rfl⟩ := markWakeRunning_effect ok
    exact .still rfl rfl
  | finishWake =>
    obtain ⟨_,_,rfl⟩ := finishWake_effect ok
    exact .still rfl rfl
  | recordProcess =>
    obtain ⟨_,_,_,_,rfl⟩ := recordProcess_effect ok
    exact .still rfl rfl
  | finishProcess =>
    obtain ⟨_,_,rfl⟩ := finishProcess_effect ok
    exact .still rfl rfl

theorem releaseReservationFor_staff {db next : Runtime} {sessionId : String}
    (ok : db.releaseReservationFor sessionId = .ok next) :
    next.sessions = db.sessions ∧ next.attempts = db.attempts := by
  rcases releaseReservationFor_effect ok with ⟨_,rfl⟩ | ⟨_,_,_,_,_,released⟩
  · exact ⟨rfl,rfl⟩
  · obtain ⟨_,_,rfl⟩ := release_effect released
    exact ⟨rfl,rfl⟩

theorem activeWorkers_of_none {db : Runtime} {sessionId : String} (alone : db.workerCount sessionId = 0) :
    db.activeWorkers sessionId = 0 := by
  apply Table.count_eq_zero.mpr
  intro w member both
  exact Table.count_eq_zero.mp alone w member both.1

end Runtime

namespace Store

theorem step_staffing (db : Store) (op : Op) :
    Runtime.Staffing op.hires op.assigns db.runtime (db.step op).runtime := by
  have effect := db.step_runtime op
  generalize (db.step op).runtime = after at effect ⊢
  cases effect with
  | unchanged idle => exact .still rfl rfl
  | committed r next ok => exact Runtime.body_staffing ok
  | prepared next ok =>
    obtain ⟨_,_,_,rfl⟩ := Runtime.insertWake_effect ok
    exact .still rfl rfl
  | orphaned sessionId guard middle ok =>
    obtain ⟨sessions,attempts⟩ := Runtime.releaseReservationFor_staff ok
    refine .closed sessionId .revoked (by simp) ?_ attempts
      (Runtime.activeWorkers_of_none guard.2.2.2)
    simp only [Runtime.endSession,sessions]
  | recovered wakeId error now wake found prepared guard middle ok =>
    obtain ⟨sessions,attempts⟩ := Runtime.releaseReservationFor_staff ok
    refine .closed wake.sessionId .revoked (by simp) ?_ attempts
      (Runtime.activeWorkers_of_none guard.2.2)
    simp only [Runtime.endSession,sessions]

theorem step_staff {cap : Nat} (db : Store) {op : Op} (same : op.usesCap cap) :
    Runtime.StaffEffect cap db.runtime (db.step op).runtime := by
  apply (db.step_staffing op).effect
  · intro asked own
    cases op with
    | runtime op =>
      cases op with
      | createSession =>
        cases own
        exact same
      | _ => cases own
    | _ => cases own
  · intro asked own
    cases op with
    | runtime op =>
      cases op with
      | reserveWorker =>
        cases own
        exact same
      | _ => cases own
    | _ => cases own

end Store

namespace Runtime

/-- Every live attempt is in an active session, and no organization exceeds the cap. -/
structure Sound (cap : Nat) (db : Runtime) : Prop where
  staffed : Staffed db
  capped : Capped cap db

section Reduction
variable {ends : WakeSession → WakeSession} {fails : WorkerAttempt → WorkerAttempt}

private theorem ends_keeps
    (ended : ∀ r, ends r = r ∨ ∃ state, state ≠ .active ∧ ends r = {r with state}) (r : WakeSession) :
    (ends r).sessionId = r.sessionId ∧ (ends r).orgId = r.orgId ∧
      ((ends r).state = .active → ends r = r) := by
  rcases ended r with same | ⟨state,past,equal⟩
  · rw [same]
    exact ⟨rfl,rfl,fun _ => rfl⟩
  · rw [equal]
    exact ⟨rfl,rfl,fun active => absurd active past⟩

private theorem fails_keeps
    (failed : ∀ w, fails w = w ∨
      w.state.live ∧ ∃ at_, fails w = {w with state := .failed,finishedAt := at_}) (w : WorkerAttempt) :
    (fails w).attemptId = w.attemptId ∧ (fails w).sessionId = w.sessionId ∧
      ((fails w).state.live → fails w = w) := by
  rcases failed w with same | ⟨_,_,equal⟩
  · rw [same]
    exact ⟨rfl,rfl,fun _ => rfl⟩
  · rw [equal]
    exact ⟨rfl,rfl,by simp [AttemptState.live]⟩

end Reduction

theorem StaffEffect.final {cap : Nat} {db next : Runtime} (effect : StaffEffect cap db next) :
    Final db next := by
  intro a w found past
  cases effect with
  | reduced ends fails ended failed sessions attempts together =>
    rw [Table.get_map (fun w => (fails_keeps failed w).1) attempts,found,Option.map_some,Option.map_some]
    rcases failed w with same | ⟨live,_⟩
    · rw [same]
    · rcases past with ended | ended <;> simp [ended,AttemptState.live] at live
  | hired r inserted attempts =>
    rw [attempts,found]
    rfl
  | assigned new r accepted inserted =>
    have fresh := Table.insert_fresh inserted
    rw [Table.get_insert inserted,if_neg,found]
    · rfl
    · intro same
      rw [same,found] at fresh
      cases fresh

theorem StaffEffect.orgOf {cap : Nat} {db next : Runtime} (effect : StaffEffect cap db next) {s : String}
    (present : db.sessions.get s ≠ none) : next.orgOf s = db.orgOf s := by
  obtain ⟨r,found⟩ := Option.ne_none_iff_exists'.mp present
  cases effect with
  | reduced ends fails ended failed sessions attempts together =>
    have lookup := Table.get_map (fun r => (ends_keeps ended r).1) sessions s
    simp [Runtime.orgOf,lookup,found,(ends_keeps ended r).2.1]
  | hired new inserted =>
    have fresh := Table.insert_fresh inserted
    unfold Runtime.orgOf
    rw [Table.get_insert inserted,if_neg]
    intro same
    rw [same,found] at fresh
    cases fresh
  | assigned new r accepted inserted sessions =>
    unfold Runtime.orgOf
    rw [sessions]

theorem sessions_of_orgOf {db next : Runtime} {s : String} (same : next.orgOf s = db.orgOf s)
    (present : db.sessions.get s ≠ none) : next.sessions.get s ≠ none := by
  intro gone
  simp only [orgOf,gone,Option.map_none] at same
  exact present (Option.map_eq_none_iff.mp same.symm)

theorem StaffEffect.employed {cap : Nat} {db next : Runtime} (effect : StaffEffect cap db next)
    (employed : Employed db) : Employed next := by
  have stays {s : String} (present : db.sessions.get s ≠ none) : next.sessions.get s ≠ none :=
    sessions_of_orgOf (effect.orgOf present) present
  intro w member
  cases effect with
  | reduced ends fails ended failed sessions attempts together =>
    rw [attempts] at member
    obtain ⟨old,inside,rfl⟩ := List.mem_map.mp member
    rw [(fails_keeps failed old).2.1]
    exact stays (employed old inside)
  | hired r inserted attempts =>
    rw [attempts] at member
    exact stays (employed w member)
  | assigned new r accepted inserted sessions found =>
    rcases (Table.mem_insert inserted).mp member with old | rfl
    · exact stays (employed w old)
    · exact stays (by simp [found])

theorem StaffEffect.staffed {cap : Nat} {db next : Runtime} (effect : StaffEffect cap db next)
    (staffed : Staffed db) : Staffed next := by
  intro w member live
  cases effect with
  | reduced ends fails ended failed sessions attempts together =>
    rw [attempts] at member
    obtain ⟨old,inside,rfl⟩ := List.mem_map.mp member
    have same := (fails_keeps failed old).2.2 live
    have active := staffed old inside (same ▸ live)
    obtain ⟨r,found,state⟩ := Option.map_eq_some_iff.mp active
    have lookup := Table.get_map (fun r => (ends_keeps ended r).1) sessions old.sessionId
    simp [same,sessionActive,lookup,found,together old inside live r found,state]
  | hired r inserted attempts =>
    rw [attempts] at member
    have active := staffed w member live
    obtain ⟨old,found,state⟩ := Option.map_eq_some_iff.mp active
    have fresh := Table.insert_fresh inserted
    unfold sessionActive
    rw [Table.get_insert inserted,if_neg]
    · exact active
    · intro same
      rw [same,found] at fresh
      cases fresh
  | assigned new r accepted inserted sessions found active =>
    unfold sessionActive
    rw [sessions]
    rcases (Table.mem_insert inserted).mp member with old | rfl
    · exact staffed w old live
    · simp [found,active]

theorem StaffEffect.capped {cap : Nat} {db next : Runtime} (effect : StaffEffect cap db next)
    (employed : Employed db) (capped : Capped cap db) : Capped cap next := by
  have orgs {w : WorkerAttempt} (member : w ∈ db.attempts.rows) :
      next.orgOf w.sessionId = db.orgOf w.sessionId := effect.orgOf (employed w member)
  intro orgId
  have before := capped orgId
  cases effect with
  | reduced ends fails ended failed sessions attempts together =>
    have fewerParents : next.parents orgId ≤ db.parents orgId := by
      apply Table.count_map_le sessions
      rintro r _ ⟨org,active⟩
      have same := (ends_keeps ended r).2.2 active
      rw [same] at org active
      exact ⟨org,active⟩
    have fewerWorkers : next.workers orgId ≤ db.workers orgId := by
      apply Table.count_map_le attempts
      rintro w member ⟨org,live⟩
      have same := (fails_keeps failed w).2.2 live
      rw [same] at org live
      exact ⟨orgs member ▸ org,live⟩
    omega
  | hired r inserted attempts room =>
    have parents : next.parents orgId =
        db.parents orgId + if r.orgId = orgId ∧ r.state = .active then 1 else 0 :=
      Table.count_insert inserted _
    have workers : next.workers orgId = db.workers orgId := by
      unfold Runtime.workers
      rw [attempts]
      apply Table.count_congr
      intro w member
      rw [orgs member]
    rw [parents,workers]
    split
    next here =>
      rw [here.1] at room
      omega
    next => omega
  | assigned new r accepted inserted sessions found active room =>
    have parents : next.parents orgId = db.parents orgId := by
      unfold Runtime.parents
      rw [sessions]
    have workers : next.workers orgId =
        db.workers orgId + if next.orgOf new.sessionId = some orgId ∧ new.state.live then 1 else 0 := by
      refine (Table.count_insert inserted _).trans ?_
      congr 1
      apply Table.count_congr
      intro w member
      rw [orgs member]
    have org : next.orgOf new.sessionId = some r.orgId := by
      simp [Runtime.orgOf,sessions,found]
    rw [parents,workers]
    split
    next here =>
      rw [org] at here
      rw [Option.some.inj here.1] at room
      omega
    next => omega

end Runtime

/-! The threads. `WorkerSupervisor.run` reserves its attempt, marks it running, and marks
it succeeded or, on any exception in between, failed. -/

inductive WorkerPhase where
  | reserved | started | ended
  deriving DecidableEq

structure Workforce where
  store : Store
  phase : String → Option WorkerPhase

inductive WorkforceAction where
  | store (op : Op)
  | start (attemptId : String)
  | succeed (attemptId finishedAt artifact : String)
  | fail (attemptId finishedAt : String)

namespace Workforce

def initial : Workforce := ⟨.empty,fun _ => none⟩

def enter (s : Workforce) (attemptId : String) (phase : WorkerPhase) : String → Option WorkerPhase :=
  fun a => if a = attemptId then some phase else s.phase a

/-- `reserve_worker` is called by the threads alone, so its commit starts one. -/
def begin (s : Workforce) (op : Op) : String → Option WorkerPhase :=
  match op with
  | .runtime (.reserveWorker attemptId _ _ _ _ _ _) =>
    match (s.store.apply op).result with
    | .ok _ => s.enter attemptId .reserved
    | .error _ => s.phase
  | _ => s.phase

/-- The thread's write to its own row, whatever the row holds by now. -/
def write (s : Workforce) (attemptId : String) (state : AttemptState) (finishedAt artifact : Option String)
    (phase : WorkerPhase) : Workforce :=
  ⟨{s.store with runtime := s.store.runtime.setAttempt attemptId state finishedAt artifact},
    s.enter attemptId phase⟩

def step (s : Workforce) : WorkforceAction → Workforce
  | .store op => ⟨s.store.step op,s.begin op⟩
  | .start attemptId =>
    if s.phase attemptId = some .reserved then s.write attemptId .running none none .started else s
  | .succeed attemptId finishedAt artifact =>
    if s.phase attemptId = some .started then
      s.write attemptId .succeeded (some finishedAt) (some artifact) .ended
    else s
  | .fail attemptId finishedAt =>
    if s.phase attemptId = some .reserved ∨ s.phase attemptId = some .started then
      s.write attemptId .failed (some finishedAt) none .ended
    else s

def stillOpen (s : Workforce) (attemptId : String) : Prop :=
  ∃ w ∈ s.store.runtime.attempts.get attemptId, w.state.live

/-- A thread moves its attempt to running or succeeded only while the attempt is open. -/
def timely (s : Workforce) : WorkforceAction → Prop
  | .start attemptId => s.phase attemptId = some .reserved → s.stillOpen attemptId
  | .succeed attemptId _ _ => s.phase attemptId = some .started → s.stillOpen attemptId
  | _ => True

instance (s : Workforce) (attemptId : String) : Decidable (s.stillOpen attemptId) :=
  inferInstanceAs (Decidable (∃ w ∈ s.store.runtime.attempts.get attemptId, w.state.live))

instance (s : Workforce) (action : WorkforceAction) : Decidable (s.timely action) :=
  match action with
  | .start attemptId =>
    inferInstanceAs (Decidable (s.phase attemptId = some .reserved → s.stillOpen attemptId))
  | .succeed attemptId _ _ =>
    inferInstanceAs (Decidable (s.phase attemptId = some .started → s.stillOpen attemptId))
  | .store _ => isTrue trivial
  | .fail _ _ => isTrue trivial

/-- The states a thread's row can be in: its own last write, or a failure. -/
def expects : WorkerPhase → AttemptState → Prop
  | .reserved,state => state = .accepted ∨ state = .failed
  | .started,state => state = .running ∨ state = .failed
  | .ended,state => state = .succeeded ∨ state = .failed

def Tracked (s : Workforce) : Prop :=
  ∀ a phase, s.phase a = some phase → ∃ w ∈ s.store.runtime.attempts.get a, expects phase w.state

structure Good (cap : Nat) (s : Workforce) : Prop where
  employed : s.store.runtime.Employed
  sound : s.store.runtime.Sound cap
  tracked : s.Tracked

end Workforce

def WorkforceAction.usesCap (cap : Nat) : WorkforceAction → Prop
  | .store op => op.usesCap cap
  | _ => True

namespace Runtime

theorem StaffEffect.attempt {cap : Nat} {db next : Runtime} (effect : StaffEffect cap db next) {a : String}
    {w : WorkerAttempt} (found : db.attempts.get a = some w) :
    ∃ w' ∈ next.attempts.get a, w'.state = w.state ∨ w'.state = .failed := by
  cases effect with
  | reduced ends fails ended failed sessions attempts together =>
    have lookup := Table.get_map (fun w => (fails_keeps failed w).1) attempts a
    rw [found,Option.map_some] at lookup
    refine ⟨fails w,lookup,?_⟩
    rcases failed w with same | ⟨_,_,equal⟩
    · exact .inl (by rw [same])
    · exact .inr (by rw [equal])
  | hired r inserted attempts => exact ⟨w,attempts ▸ found,.inl rfl⟩
  | assigned new r accepted inserted =>
    refine ⟨w,?_,.inl rfl⟩
    have fresh := Table.insert_fresh inserted
    rw [Table.get_insert inserted,if_neg]
    · exact found
    · intro same
      rw [same,found] at fresh
      cases fresh

section Write
variable (db : Runtime) (a : String) (state : AttemptState) (finishedAt artifact : Option String)

theorem get_setAttempt (b : String) :
    ((db.setAttempt a state finishedAt artifact).attempts.get b).map WorkerAttempt.state =
      (db.attempts.get b).map (fun w => if b = a then state else w.state) := by
  simp only [setAttempt,Table.get_update,Option.map_map]
  cases found : db.attempts.get b with
  | none => rfl
  | some w =>
    have own : w.attemptId = b := (Table.get_eq_some.mp found).2
    by_cases here : b = a <;> simp [own,here]

theorem setAttempt_rows : ∃ move : WorkerAttempt → WorkerAttempt,
    (db.setAttempt a state finishedAt artifact).attempts.rows = db.attempts.rows.map move ∧
      ∀ w, (move w).sessionId = w.sessionId ∧
        ((move w).state = w.state ∨ w.attemptId = a ∧ (move w).state = state) := by
  refine ⟨_,rfl,?_⟩
  intro w
  dsimp only
  split
  next here => exact ⟨rfl,.inr ⟨here,rfl⟩⟩
  next => exact ⟨rfl,.inl rfl⟩

theorem setAttempt_employed (employed : db.Employed) :
    (db.setAttempt a state finishedAt artifact).Employed := by
  obtain ⟨move,rows,keeps⟩ := db.setAttempt_rows a state finishedAt artifact
  intro w member
  rw [rows] at member
  obtain ⟨old,inside,rfl⟩ := List.mem_map.mp member
  rw [(keeps old).1]
  exact employed old inside

theorem setAttempt_opens (opens : state.live → ∀ w, db.attempts.get a = some w → w.state.live) :
    ∃ move : WorkerAttempt → WorkerAttempt,
      (db.setAttempt a state finishedAt artifact).attempts.rows = db.attempts.rows.map move ∧
        (∀ w, (move w).sessionId = w.sessionId) ∧ ∀ w ∈ db.attempts.rows, (move w).state.live → w.state.live := by
  obtain ⟨move,rows,keeps⟩ := db.setAttempt_rows a state finishedAt artifact
  refine ⟨move,rows,fun w => (keeps w).1,?_⟩
  intro w member live
  rcases (keeps w).2 with same | ⟨rfl,equal⟩
  · exact same ▸ live
  · exact opens (equal ▸ live) w (Table.get_key member)

theorem setAttempt_staffed (staffed : db.Staffed)
    (opens : state.live → ∀ w, db.attempts.get a = some w → w.state.live) :
    (db.setAttempt a state finishedAt artifact).Staffed := by
  obtain ⟨move,rows,keeps,was⟩ := db.setAttempt_opens a state finishedAt artifact opens
  intro w member live
  rw [rows] at member
  obtain ⟨old,inside,rfl⟩ := List.mem_map.mp member
  rw [keeps old]
  exact staffed old inside (was old inside live)

theorem setAttempt_sound {cap : Nat} (sound : db.Sound cap)
    (opens : state.live → ∀ w, db.attempts.get a = some w → w.state.live) :
    (db.setAttempt a state finishedAt artifact).Sound cap := by
  obtain ⟨move,rows,keeps,was⟩ := db.setAttempt_opens a state finishedAt artifact opens
  refine ⟨db.setAttempt_staffed a state finishedAt artifact sound.staffed opens,?_⟩
  · intro orgId
    have workers : (db.setAttempt a state finishedAt artifact).workers orgId ≤ db.workers orgId := by
      apply Table.count_map_le rows
      rintro w member ⟨org,live⟩
      rw [keeps w] at org
      exact ⟨org,was w member live⟩
    have before := sound.capped orgId
    have parents : (db.setAttempt a state finishedAt artifact).parents orgId = db.parents orgId := rfl
    omega

theorem setAttempt_final {w : WorkerAttempt} (found : db.attempts.get a = some w) :
    Final db (db.setAttempt a state finishedAt artifact) ↔
      (w.state = .succeeded ∨ w.state = .failed → w.state = state) := by
  constructor
  · intro final past
    have after := final a w found past
    rw [get_setAttempt,found] at after
    simpa using after.symm
  · intro keeps b old present past
    rw [get_setAttempt,present,Option.map_some]
    split
    next here =>
      subst here
      rw [found] at present
      cases Option.some.inj present
      rw [← keeps past]
    next => rfl

end Write
end Runtime

namespace Workforce

theorem expects_failed (phase : WorkerPhase) : expects phase .failed := by
  cases phase <;> exact .inr rfl

theorem Tracked.kept {s : Workforce} (tracked : s.Tracked) {next : Store} {a : String} {phase : WorkerPhase}
    (at_ : s.phase a = some phase) (keeps : ∀ w, s.store.runtime.attempts.get a = some w →
      ∃ w' ∈ next.runtime.attempts.get a, w'.state = w.state ∨ w'.state = .failed) :
    ∃ w ∈ next.runtime.attempts.get a, expects phase w.state := by
  obtain ⟨w,found,state⟩ := tracked a phase at_
  obtain ⟨w',after,same | failed⟩ := keeps w found
  · exact ⟨w',after,same ▸ state⟩
  · exact ⟨w',after,failed ▸ expects_failed phase⟩

theorem write_tracked {s : Workforce} (tracked : s.Tracked) {a : String} {before phase : WorkerPhase}
    (at_ : s.phase a = some before) {state : AttemptState} (expected : expects phase state)
    (finishedAt artifact : Option String) : (s.write a state finishedAt artifact phase).Tracked := by
  intro b later found
  have lookup := s.store.runtime.get_setAttempt a state finishedAt artifact b
  change s.enter a phase b = some later at found
  unfold enter at found
  split at found
  next here =>
    subst here
    cases Option.some.inj found
    obtain ⟨w,present,_⟩ := tracked b before at_
    rw [Option.mem_def.mp present,Option.map_some,if_pos rfl] at lookup
    obtain ⟨w',after,equal⟩ := Option.map_eq_some_iff.mp lookup
    exact ⟨w',after,equal ▸ expected⟩
  next other =>
    apply tracked.kept found
    intro w present
    rw [present,Option.map_some,if_neg other] at lookup
    obtain ⟨w',after,equal⟩ := Option.map_eq_some_iff.mp lookup
    exact ⟨w',after,.inl equal⟩

theorem begin_new {s : Workforce} {op : Op} {a : String} {phase : WorkerPhase}
    (found : s.begin op a = some phase) : s.phase a = some phase ∨
      phase = .reserved ∧ ∃ w ∈ (s.store.step op).runtime.attempts.get a, w.state = .accepted := by
  cases op with
  | runtime r =>
    cases r with
    | reserveWorker attemptId sessionId workerType cumulative concurrent globalCap now =>
      cases committed : (s.store.apply (.runtime (.reserveWorker attemptId sessionId workerType
        cumulative concurrent globalCap now))).result with
      | error e =>
        left
        simpa only [begin,committed] using found
      | ok value =>
        simp only [begin,committed,enter] at found
        split at found
        next here =>
          subst here
          right
          refine ⟨(Option.some.inj found).symm,?_⟩
          have ok := @atomically_ok _ _ _ s.store.runtime (s.store.runtime.body (.reserveWorker a sessionId
            workerType cumulative concurrent globalCap now)) value committed
          obtain ⟨_,ok⟩ := discard_ok.mp ok
          obtain ⟨_,_,_,_,_,_,attempts,inserted,_,after⟩ := Runtime.reserveWorker_effect ok
          have placed : attempts.get a = some _ := (Table.get_insert inserted a).trans (if_pos rfl)
          exact ⟨_,(congrArg (fun next => next.attempts.get a) after).trans placed,rfl⟩
        next => exact .inl found
    | _ => exact .inl found
  | _ => exact .inl found

theorem store_tracked {cap : Nat} {s : Workforce} (tracked : s.Tracked) {op : Op}
    (same : op.usesCap cap) : Tracked ⟨s.store.step op,s.begin op⟩ := by
  have effect := s.store.step_staff same
  intro b phase found
  rcases begin_new found with old | ⟨rfl,w,after,accepted⟩
  · exact tracked.kept old (fun w present => effect.attempt present)
  · exact ⟨w,after,.inl accepted⟩

theorem write_good {cap : Nat} {s : Workforce} (good : s.Good cap) {a : String} {before phase : WorkerPhase}
    (at_ : s.phase a = some before) {w : WorkerAttempt}
    (found : s.store.runtime.attempts.get a = some w) {state : AttemptState}
    (expected : expects phase state) (opens : state.live → w.state.live)
    (keeps : w.state = .succeeded ∨ w.state = .failed → w.state = state)
    (finishedAt artifact : Option String) :
    s.store.runtime.Final (s.write a state finishedAt artifact phase).store.runtime ∧
      (s.write a state finishedAt artifact phase).store.runtime.Sound cap ∧
      (s.write a state finishedAt artifact phase).Good cap := by
  have sound := s.store.runtime.setAttempt_sound a state finishedAt artifact good.sound (by
    intro live other present
    rw [found] at present
    cases Option.some.inj present
    exact opens live)
  exact ⟨(s.store.runtime.setAttempt_final a state finishedAt artifact found).mpr keeps,sound,
    s.store.runtime.setAttempt_employed a state finishedAt artifact good.employed,sound,
    write_tracked good.tracked at_ expected finishedAt artifact⟩

theorem write_late {s : Workforce} {a : String} {phase : WorkerPhase} {w : WorkerAttempt}
    (found : s.store.runtime.attempts.get a = some w) (failed : w.state = .failed)
    {state : AttemptState} (other : state ≠ .failed) (finishedAt artifact : Option String) :
    ¬ s.store.runtime.Final (s.write a state finishedAt artifact phase).store.runtime ∧ ¬ s.stillOpen a := by
  refine ⟨?_,?_⟩
  · intro final
    have same := (s.store.runtime.setAttempt_final a state finishedAt artifact found).mp final (.inr failed)
    exact other (same.symm.trans failed)
  · rintro ⟨v,present,live⟩
    rw [found] at present
    cases Option.some.inj (Option.mem_def.mp present)
    simp [failed,AttemptState.live] at live

/-- For each step from a good workforce: what the step promises holds exactly when the
step is timely, and then the workforce is good again. -/
theorem step_good {cap : Nat} {s : Workforce} (good : s.Good cap) {action : WorkforceAction}
    (same : action.usesCap cap) :
    (s.store.runtime.Final (s.step action).store.runtime ∧ (s.step action).store.runtime.Sound cap ↔
      s.timely action) ∧ (s.timely action → (s.step action).Good cap) := by
  have idle (same : s.step action = s) (timely : s.timely action) :
      (s.store.runtime.Final (s.step action).store.runtime ∧ (s.step action).store.runtime.Sound cap ↔
        s.timely action) ∧ (s.timely action → (s.step action).Good cap) := by
    rw [same]
    refine ⟨iff_of_true ⟨?_,good.sound⟩ timely,fun _ => good⟩
    intro a w found _
    rw [found]
    rfl
  cases action with
  | store op =>
    have effect := s.store.step_staff same
    have sound : (s.store.step op).runtime.Sound cap :=
      ⟨effect.staffed good.sound.staffed,effect.capped good.employed good.sound.capped⟩
    exact ⟨iff_of_true ⟨effect.final,sound⟩ trivial,
      fun _ => ⟨effect.employed good.employed,sound,store_tracked good.tracked same⟩⟩
  | start a =>
    by_cases enabled : s.phase a = some .reserved
    · obtain ⟨w,found,accepted | failed⟩ := good.tracked a .reserved enabled
      · obtain ⟨final,sound,next⟩ := @write_good cap s good a .reserved .started enabled w found .running
          (.inl rfl) (fun _ => .inl accepted) (by simp [accepted]) none none
        simp only [step,if_pos enabled]
        exact ⟨iff_of_true ⟨final,sound⟩ (fun _ => ⟨w,found,.inl accepted⟩),fun _ => next⟩
      · obtain ⟨broken,closed⟩ := @write_late s a .started w found failed .running (by simp) none none
        simp only [step,if_pos enabled]
        exact ⟨iff_of_false (fun both => broken both.1) (fun timely => closed (timely enabled)),
          fun timely => absurd (timely enabled) closed⟩
    · exact idle (if_neg enabled) (fun at_ => absurd at_ enabled)
  | succeed a finishedAt artifact =>
    by_cases enabled : s.phase a = some .started
    · obtain ⟨w,found,running | failed⟩ := good.tracked a .started enabled
      · obtain ⟨final,sound,next⟩ := @write_good cap s good a .started .ended enabled w found .succeeded
          (.inl rfl) (fun _ => .inr running) (by simp [running]) (some finishedAt) (some artifact)
        simp only [step,if_pos enabled]
        exact ⟨iff_of_true ⟨final,sound⟩ (fun _ => ⟨w,found,.inr running⟩),fun _ => next⟩
      · obtain ⟨broken,closed⟩ := @write_late s a .ended w found failed .succeeded (by simp)
          (some finishedAt) (some artifact)
        simp only [step,if_pos enabled]
        exact ⟨iff_of_false (fun both => broken both.1) (fun timely => closed (timely enabled)),
          fun timely => absurd (timely enabled) closed⟩
    · exact idle (if_neg enabled) (fun at_ => absurd at_ enabled)
  | fail a finishedAt =>
    by_cases enabled : s.phase a = some .reserved ∨ s.phase a = some .started
    · have unfinished : ∃ before w, s.phase a = some before ∧ s.store.runtime.attempts.get a = some w ∧
          w.state ≠ .succeeded := by
        rcases enabled with at_ | at_
        · obtain ⟨w,found,state | state⟩ := good.tracked a _ at_ <;> exact ⟨_,w,at_,found,by simp [state]⟩
        · obtain ⟨w,found,state | state⟩ := good.tracked a _ at_ <;> exact ⟨_,w,at_,found,by simp [state]⟩
      obtain ⟨before,w,at_,found,unfinished⟩ := unfinished
      obtain ⟨final,sound,next⟩ := @write_good cap s good a before .ended at_ w found .failed (.inr rfl)
        (by simp [AttemptState.live]) (fun past => past.resolve_left unfinished) (some finishedAt) none
      simp only [step,if_pos enabled]
      exact ⟨iff_of_true ⟨final,sound⟩ trivial,fun _ => next⟩
    · exact idle (if_neg enabled) trivial

theorem initial_good (cap : Nat) : initial.Good cap := by
  refine ⟨?_,⟨?_,?_⟩,?_⟩
  · intro w member
    cases member
  · intro w member
    cases member
  · intro orgId
    exact Nat.zero_le _
  · intro a phase at_
    cases at_

/-- Capacity is real exactly in the runs whose threads write in time: every live attempt is
in an active session, an attempt that succeeded or failed stays so, and no organization
exceeds the cap. -/
theorem capacity_iff (cap : Nat) (actions : List WorkforceAction)
    (same : ∀ action ∈ actions, action.usesCap cap) :
    (∀ t ∈ trace step initial actions, t.before.store.runtime.Final t.after.store.runtime ∧
      t.after.store.runtime.Staffed ∧ t.after.store.runtime.Capped cap) ↔
      Along step timely initial actions := by
  refine @promise_iff_along _ _ step (Good cap) (WorkforceAction.usesCap cap) (fun t => t.before.store.runtime.Final
    t.after.store.runtime ∧ t.after.store.runtime.Staffed ∧ t.after.store.runtime.Capped cap) timely ?_ initial
    (initial_good cap) actions same
  intro s action good same
  obtain ⟨kept,next⟩ := step_good good same
  refine ⟨?_,next⟩
  rw [← kept]
  exact ⟨fun ⟨final,staffed,capped⟩ => ⟨final,staffed,capped⟩,
    fun ⟨final,sound⟩ => ⟨final,sound.staffed,sound.capped⟩⟩

def opened (sessionId wakeId : String) : WorkforceAction :=
  .store (.runtime (.createSession sessionId wakeId "org" "po" "" [] ⟨0,Instant.zero_bounded⟩ 600 2))

def assigned (attemptId sessionId : String) : WorkforceAction :=
  .store (.runtime (.reserveWorker attemptId sessionId "scout" 4 4 2 ⟨0,Instant.zero_bounded⟩))

/-- A session with one worker that runs to its end. -/
def timelyRun : List WorkforceAction :=
  [opened "session-1" "wake-1",assigned "worker-1" "session-1",.start "worker-1",
    .succeed "worker-1" "" "sha"]

theorem capacity_iff_timelyRun :
    (run step initial timelyRun).phase "worker-1" = some .ended ∧
      ∀ t ∈ trace step initial timelyRun, t.before.store.runtime.Final t.after.store.runtime ∧
        t.after.store.runtime.Staffed ∧ t.after.store.runtime.Capped 2 := by
  refine ⟨by decide,(capacity_iff 2 timelyRun ?_).mpr ?_⟩
  · simp [timelyRun,opened,assigned,WorkforceAction.usesCap,Op.usesCap,RuntimeOp.usesCap]
  · decide

/-- The session is terminated under its worker and its capacity given away; then the
worker's thread marks its attempt running. -/
def lateRun : List WorkforceAction :=
  [opened "session-1" "wake-1",assigned "worker-1" "session-1",
    .store (.runtime (.forceTerminateSession "session-1" false ⟨0,Instant.zero_bounded⟩)),
    opened "session-2" "wake-2",assigned "worker-2" "session-2",.start "worker-1"]

theorem lateRun_exceeds :
    ¬ (run step initial lateRun).store.runtime.Staffed ∧
      ¬ (run step initial lateRun).store.runtime.Capped 2 ∧
      ¬ (run step initial (lateRun.take 5)).store.runtime.Final (run step initial lateRun).store.runtime := by
  refine ⟨?_,?_,?_⟩
  · intro staffed
    have live : ∃ w ∈ (run step initial lateRun).store.runtime.attempts.rows,
        w.state.live ∧ ¬ (run step initial lateRun).store.runtime.sessionActive w.sessionId := by
      decide
    obtain ⟨w,member,live,inactive⟩ := live
    exact inactive (staffed w member live)
  · intro capped
    have three : (run step initial lateRun).store.runtime.parents "org" +
        (run step initial lateRun).store.runtime.workers "org" = 3 := by
      decide
    have bound := capped "org"
    omega
  · intro final
    have failed : ∃ w ∈ (run step initial (lateRun.take 5)).store.runtime.attempts.get "worker-1",
        w.state = .failed := by
      decide
    have running : ((run step initial lateRun).store.runtime.attempts.get "worker-1").map
        WorkerAttempt.state = some .running := by
      decide
    obtain ⟨w,found,failed⟩ := failed
    have after := final "worker-1" w found (.inr failed)
    rw [running,failed] at after
    cases after

end Workforce
end SjgControl

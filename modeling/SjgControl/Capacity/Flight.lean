import Mathlib.Data.List.Range
import SjgControl.Capacity

/-! The limits of one role and of one wake. A worker's thread writes its row without looking
at it, so a closed attempt can come to life again; what stays bounded is the number of threads
that are still under way, and the live attempts are among theirs. -/
namespace SjgControl
open Relational Machine

/-- The caps of a `reserve_worker` call in the session. -/
def WorkforceAction.capsIn (sessionId : String) : WorkforceAction → Option (Int × Int)
  | .store (.runtime (.reserveWorker _ session _ cumulativeCap concurrentCap _ _)) =>
    if session = sessionId then some (cumulativeCap,concurrentCap) else none
  | _ => none

namespace Runtime

def attemptsOf (db : Runtime) (sessionId : String) : List WorkerAttempt :=
  db.attempts.select (fun w => w.sessionId = sessionId)

def parentsOf (db : Runtime) (orgId role : String) : Nat :=
  db.sessions.count (fun r => r.orgId = orgId ∧ r.role = role ∧ r.state = .active)

/-- An operation that makes no attempt: each row stays where it is, and none is opened. -/
structure Lowers (move : WorkerAttempt → WorkerAttempt) (db next : Runtime) : Prop where
  rows : next.attempts.rows = db.attempts.rows.map move
  attemptId : ∀ w, (move w).attemptId = w.attemptId
  sessionId : ∀ w, (move w).sessionId = w.sessionId
  sequence : ∀ w, (move w).sequence = w.sequence
  opens : ∀ w ∈ db.attempts.rows, (move w).state.live → w.state.live
  keeps : ∀ w ∈ db.attempts.rows, next.sessionActive w.sessionId →
    db.sessionActive w.sessionId ∧ (move w).state = w.state

/-- What a `reserve_worker` that commits has found and does. -/
structure Reserves (w : WorkerAttempt) (cumulativeCap concurrentCap : Int) (db next : Runtime) : Prop where
  sessions : next.sessions = db.sessions
  inserted : db.attempts.insert w = some next.attempts
  active : db.sessionActive w.sessionId
  accepted : w.state = .accepted
  sequence : w.sequence = db.workerCount w.sessionId + 1
  total : (db.workerCount w.sessionId : Int) < cumulativeCap
  concurrent : (db.activeWorkers w.sessionId : Int) < concurrentCap

theorem Lowers.id {db next : Runtime} (attempts : next.attempts = db.attempts)
    (active : ∀ w ∈ db.attempts.rows, next.sessionActive w.sessionId → db.sessionActive w.sessionId) :
    Lowers id db next where
  rows := by rw [attempts,List.map_id]
  attemptId _ := rfl
  sessionId _ := rfl
  sequence _ := rfl
  opens _ _ live := live
  keeps w member after := ⟨active w member after,rfl⟩

theorem sessionActive_endSession {db next : Runtime} {sessionId s : String} {state : SessionState}
    (past : state ≠ .active) (sessions : next.sessions = db.endSession sessionId state)
    (active : next.sessionActive s) : db.sessionActive s ∧ s ≠ sessionId := by
  unfold sessionActive at active ⊢
  rw [sessions,endSession,Table.get_update,Option.map_map] at active
  obtain ⟨r,found,state⟩ := Option.map_eq_some_iff.mp active
  have own : r.sessionId = s := (Table.get_eq_some.mp found).2
  simp only [Function.comp] at state
  split at state
  next => exact absurd state past
  next outside =>
    refine ⟨by rw [found,Option.map_some,state],?_⟩
    rintro rfl
    exact outside ⟨own,state⟩

theorem Staffing.lowers {hires : Option (String × String × Int)} {db next : Runtime}
    (staffing : Staffing hires none db next) (employed : db.Employed) : ∃ move, Lowers move db next := by
  cases staffing with
  | still sessions attempts =>
    refine ⟨_,.id attempts ?_⟩
    intro w _ active
    unfold sessionActive at active ⊢
    rwa [sessions] at active
  | closed sessionId state past sessions attempts =>
    exact ⟨_,.id attempts (fun w _ active => (sessionActive_endSession past sessions active).1)⟩
  | dismissed sessionId state now past sessions attempts =>
    refine ⟨fun w => if w.sessionId = sessionId ∧ w.state.live
      then {w with state := .failed,finishedAt := some now.isoText} else w,congrArg Table.rows attempts,?_,?_,?_,?_,?_⟩
    · intro w
      split <;> rfl
    · intro w
      split <;> rfl
    · intro w
      split <;> rfl
    · intro w _ live
      split at live
      next both => exact both.2
      next => exact live
    · intro w _ active
      obtain ⟨before,elsewhere⟩ := sessionActive_endSession past sessions active
      refine ⟨before,?_⟩
      rw [if_neg (fun both => elsewhere both.1)]
  | hired r globalCap asked inserted attempts =>
    refine ⟨_,.id attempts ?_⟩
    intro w member active
    unfold sessionActive at active ⊢
    rw [Table.get_insert inserted,if_neg] at active
    · exact active
    · intro same
      exact employed w member (same ▸ Table.insert_fresh inserted)
  | assigned w r concurrentCap globalCap asked => cases asked

theorem reserveWorker_reserves {db next : Runtime} {attemptId sessionId workerType : String}
    {cumulativeCap concurrentCap globalCap : Int} {now : Instant} {value : String}
    (ok : db.reserveWorker attemptId sessionId workerType cumulativeCap concurrentCap globalCap now =
      .ok (value,next)) :
    ∃ w, w.attemptId = attemptId ∧ w.sessionId = sessionId ∧
      Reserves w cumulativeCap concurrentCap db next := by
  obtain ⟨r,⟨found,active,_⟩,total,below,_,_,_,inserted,rfl,rfl⟩ := reserveWorker_effect ok
  refine ⟨_,rfl,rfl,rfl,inserted,?_,rfl,rfl,total,below⟩
  unfold sessionActive
  rw [found,Option.map_some,active]

/-- Single flight: nobody ends a session into the active state, and admission looks first. -/
theorem Staffing.single {hires : Option (String × String × Int)} {assigns : Option (String × Int × Int)}
    {db next : Runtime} (staffing : Staffing hires assigns db next)
    (single : ∀ orgId role, db.parentsOf orgId role ≤ 1) (orgId role : String) :
    next.parentsOf orgId role ≤ 1 := by
  have ended {sessionId : String} {state : SessionState} (past : state ≠ .active)
      (sessions : next.sessions = db.endSession sessionId state) : next.parentsOf orgId role ≤ 1 := by
    refine (Table.count_map_le (congrArg Table.rows sessions) ?_).trans (single orgId role)
    intro r _ holds
    split at holds
    next => exact absurd holds.2.2 past
    next => exact holds
  cases staffing with
  | still sessions attempts =>
    unfold parentsOf
    rw [sessions]
    exact single orgId role
  | closed sessionId state past sessions => exact ended past sessions
  | dismissed sessionId state now past sessions => exact ended past sessions
  | hired r globalCap asked inserted attempts alone =>
    have grown : next.parentsOf orgId role = db.parentsOf orgId role +
        if r.orgId = orgId ∧ r.role = role ∧ r.state = .active then 1 else 0 := Table.count_insert inserted _
    rw [grown]
    split
    next here =>
      have empty : db.parentsOf orgId role = 0 := by
        apply Table.count_eq_zero.mpr
        rintro q member ⟨org,own,active⟩
        exact alone q member ⟨org.trans here.1.symm,own.trans here.2.1.symm,active⟩
      omega
    next => exact single orgId role
  | assigned w r concurrentCap globalCap asked accepted inserted sessions =>
    unfold parentsOf
    rw [sessions]
    exact single orgId role

end Runtime

namespace Workforce

def busy (s : Workforce) (a : String) : Prop := ∃ phase ∈ s.phase a, phase ≠ .ended

instance (s : Workforce) (a : String) : Decidable (s.busy a) :=
  inferInstanceAs (Decidable (∃ phase ∈ s.phase a, phase ≠ .ended))

/-- Only threads under way have live attempts; in an active session theirs are live. -/
structure Orderly (s : Workforce) : Prop where
  employed : s.store.runtime.Employed
  single : ∀ orgId role, s.store.runtime.parentsOf orgId role ≤ 1
  numbered : ∀ sessionId, (s.store.runtime.attemptsOf sessionId).map WorkerAttempt.sequence =
    List.range' 1 (s.store.runtime.attemptsOf sessionId).length
  manned : ∀ w ∈ s.store.runtime.attempts.rows, w.state.live → s.busy w.attemptId
  engaged : ∀ w ∈ s.store.runtime.attempts.rows, s.busy w.attemptId →
    s.store.runtime.sessionActive w.sessionId → w.state.live

def crew (s : Workforce) (sessionId : String) : Nat :=
  s.store.runtime.attempts.count (fun w => w.sessionId = sessionId ∧ s.busy w.attemptId)

structure Within (sessionId : String) (cumulativeCap concurrentCap : Int) (s : Workforce) : Prop where
  total : s.store.runtime.workerCount sessionId ≤ cumulativeCap.toNat
  concurrent : s.crew sessionId ≤ concurrentCap.toNat

variable {s : Workforce}

theorem Orderly.activeWorkers_le (orderly : s.Orderly) (sessionId : String) :
    s.store.runtime.activeWorkers sessionId ≤ s.crew sessionId := by
  unfold Runtime.activeWorkers crew Table.count
  apply List.countP_mono_left
  intro w member holds
  simp only [decide_eq_true_eq] at holds ⊢
  exact ⟨holds.1,orderly.manned w member holds.2⟩

theorem Orderly.crew_le (orderly : s.Orderly) {sessionId : String}
    (active : s.store.runtime.sessionActive sessionId) :
    s.crew sessionId ≤ s.store.runtime.activeWorkers sessionId := by
  unfold Runtime.activeWorkers crew Table.count
  apply List.countP_mono_left
  intro w member holds
  simp only [decide_eq_true_eq] at holds ⊢
  exact ⟨holds.1,orderly.engaged w member holds.2 (holds.1 ▸ active)⟩

/-! A step that makes no attempt and begins no thread. -/

theorem lowered_orderly (orderly : s.Orderly) {next : Workforce} {move : WorkerAttempt → WorkerAttempt}
    (lowers : Runtime.Lowers move s.store.runtime next.store.runtime) (phases : next.phase = s.phase)
    (employed : next.store.runtime.Employed) (single : ∀ orgId role, next.store.runtime.parentsOf orgId role ≤ 1) :
    next.Orderly where
  employed := employed
  single := single
  numbered sessionId := by
    have numbers := orderly.numbered sessionId
    have own : (fun w : WorkerAttempt => decide (w.sessionId = sessionId)) ∘ move =
        fun w => decide (w.sessionId = sessionId) := by
      funext w
      simp only [Function.comp,lowers.sessionId]
    have sequences : WorkerAttempt.sequence ∘ move = WorkerAttempt.sequence := funext lowers.sequence
    unfold Runtime.attemptsOf Table.select at numbers ⊢
    rw [lowers.rows,List.filter_map,own,List.map_map,sequences,numbers,List.length_map]
  manned w member live := by
    rw [lowers.rows] at member
    obtain ⟨old,inside,rfl⟩ := List.mem_map.mp member
    unfold busy
    rw [phases,lowers.attemptId]
    exact orderly.manned old inside (lowers.opens old inside live)
  engaged w member under active := by
    rw [lowers.rows] at member
    obtain ⟨old,inside,rfl⟩ := List.mem_map.mp member
    unfold busy at under
    rw [phases,lowers.attemptId] at under
    rw [lowers.sessionId] at active
    obtain ⟨before,state⟩ := lowers.keeps old inside active
    exact state ▸ orderly.engaged old inside under before

theorem lowered_within {sessionId : String} {cumulativeCap concurrentCap : Int}
    (within : s.Within sessionId cumulativeCap concurrentCap) {next : Workforce}
    {move : WorkerAttempt → WorkerAttempt}
    (lowers : Runtime.Lowers move s.store.runtime next.store.runtime) (phases : next.phase = s.phase) :
    next.Within sessionId cumulativeCap concurrentCap := by
  constructor
  · refine (Table.count_map_le lowers.rows ?_).trans within.total
    intro w _ own
    exact (lowers.sessionId w).symm.trans own
  · refine (Table.count_map_le lowers.rows ?_).trans within.concurrent
    rintro w _ ⟨own,under⟩
    unfold busy at under
    rw [phases,lowers.attemptId] at under
    exact ⟨(lowers.sessionId w).symm.trans own,under⟩

/-! A committed `reserve_worker`. -/

theorem busy_enter {a b : String} {phase : WorkerPhase} :
    (∃ p ∈ s.enter a phase b, p ≠ .ended) ↔ if b = a then phase ≠ .ended else s.busy b := by
  unfold enter busy
  split <;> simp

theorem attemptsOf_insert {db next : Runtime} {w : WorkerAttempt} (inserted : db.attempts.insert w = some next.attempts)
    (sessionId : String) : next.attemptsOf sessionId =
      if w.sessionId = sessionId then db.attemptsOf sessionId ++ [w] else db.attemptsOf sessionId := by
  simp only [Runtime.attemptsOf,Table.select,Table.insert_rows inserted,List.filter_append,List.filter_singleton]
  split <;> simp_all

theorem length_attemptsOf (db : Runtime) (sessionId : String) :
    (db.attemptsOf sessionId).length = db.workerCount sessionId := by
  simp only [Runtime.attemptsOf,Runtime.workerCount,Table.select,Table.count,List.countP_eq_length_filter]

variable {next : Workforce} {w : WorkerAttempt} {cumulativeCap concurrentCap : Int}

theorem reserved_orderly (orderly : s.Orderly)
    (reserves : Runtime.Reserves w cumulativeCap concurrentCap s.store.runtime next.store.runtime)
    (phases : next.phase = s.enter w.attemptId .reserved) (employed : next.store.runtime.Employed)
    (single : ∀ orgId role, next.store.runtime.parentsOf orgId role ≤ 1) : next.Orderly where
  employed := employed
  single := single
  numbered sessionId := by
    rw [attemptsOf_insert reserves.inserted]
    split
    next here =>
      subst here
      rw [List.map_append,orderly.numbered,List.length_append,List.map_singleton,reserves.sequence,
        ← length_attemptsOf,List.length_singleton,List.range'_concat]
      simp [Nat.add_comm]
    next => exact orderly.numbered sessionId
  manned other member live := by
    unfold busy
    rw [phases,busy_enter]
    split
    next => simp
    next elsewhere =>
      rcases (Table.mem_insert reserves.inserted).mp member with old | rfl
      · exact orderly.manned other old live
      · exact absurd rfl elsewhere
  engaged other member under active := by
    rcases (Table.mem_insert reserves.inserted).mp member with old | rfl
    · have apart : other.attemptId ≠ w.attemptId :=
        Table.get_eq_none.mp (Table.insert_fresh reserves.inserted) other old
      unfold busy at under
      rw [phases,busy_enter,if_neg apart] at under
      unfold Runtime.sessionActive at active
      rw [reserves.sessions] at active
      exact orderly.engaged other old under active
    · exact .inl reserves.accepted

theorem reserved_within (orderly : s.Orderly) {sessionId : String} {cumulative concurrent : Int}
    (within : s.Within sessionId cumulative concurrent)
    (reserves : Runtime.Reserves w cumulativeCap concurrentCap s.store.runtime next.store.runtime)
    (phases : next.phase = s.enter w.attemptId .reserved)
    (caps : w.sessionId = sessionId → cumulativeCap = cumulative ∧ concurrentCap = concurrent) :
    next.Within sessionId cumulative concurrent := by
  have total : next.store.runtime.workerCount sessionId = s.store.runtime.workerCount sessionId +
      if w.sessionId = sessionId then 1 else 0 := Table.count_insert reserves.inserted _
  have crew : next.crew sessionId = s.crew sessionId + if w.sessionId = sessionId then 1 else 0 := by
    have counted : next.crew sessionId = s.store.runtime.attempts.count
        (fun w => w.sessionId = sessionId ∧ next.busy w.attemptId) +
          if w.sessionId = sessionId ∧ next.busy w.attemptId then 1 else 0 := Table.count_insert reserves.inserted _
    have begun : next.busy w.attemptId := by
      unfold busy
      rw [phases,busy_enter,if_pos rfl]
      simp
    rw [counted]
    congr 1
    · apply Table.count_congr
      intro other old
      have apart : other.attemptId ≠ w.attemptId :=
        Table.get_eq_none.mp (Table.insert_fresh reserves.inserted) other old
      have same : next.busy other.attemptId ↔ s.busy other.attemptId := by
        conv_lhs => unfold busy
        rw [phases,busy_enter,if_neg apart]
      rw [same]
    · simp only [begun,and_true]
  have below := within.total
  have staffed := within.concurrent
  by_cases own : w.sessionId = sessionId
  · obtain ⟨rfl,rfl⟩ := caps own
    subst own
    have room := reserves.total
    have free := reserves.concurrent
    have live := orderly.crew_le reserves.active
    constructor
    · rw [total,if_pos rfl]
      omega
    · rw [crew,if_pos rfl]
      omega
  · constructor
    · rwa [total,if_neg own,Nat.add_zero]
    · rwa [crew,if_neg own,Nat.add_zero]

/-! The thread's writes. -/

section Write
variable {a : String} {state : AttemptState} {phase : WorkerPhase}

theorem write_row {db : Runtime} {finishedAt artifact : Option String} {w : WorkerAttempt}
    (member : w ∈ (db.setAttempt a state finishedAt artifact).attempts.rows) :
    ∃ old ∈ db.attempts.rows, w.attemptId = old.attemptId ∧ w.sessionId = old.sessionId ∧
      w.state = if old.attemptId = a then state else old.state := by
  obtain ⟨old,inside,⟨here,rfl⟩ | ⟨elsewhere,rfl⟩⟩ := Table.mem_update_cases member
  · exact ⟨old,inside,rfl,rfl,(if_pos here).symm⟩
  · exact ⟨w,inside,rfl,rfl,(if_neg elsewhere).symm⟩

theorem write_orderly (orderly : s.Orderly) (agree : state.live ↔ phase ≠ .ended)
    (finishedAt artifact : Option String) : (s.write a state finishedAt artifact phase).Orderly where
  employed := s.store.runtime.setAttempt_employed a state finishedAt artifact orderly.employed
  single := orderly.single
  numbered sessionId := by
    have numbers := orderly.numbered sessionId
    let put (r : WorkerAttempt) : WorkerAttempt := if r.attemptId = a then {r with
      state
      finishedAt := finishedAt.orElse (fun _ => r.finishedAt)
      artifactSha256 := artifact.orElse (fun _ => r.artifactSha256)} else r
    have rows : (s.write a state finishedAt artifact phase).store.runtime.attempts.rows =
      s.store.runtime.attempts.rows.map put := rfl
    have own : (fun w : WorkerAttempt => decide (w.sessionId = sessionId)) ∘ put =
        fun w => decide (w.sessionId = sessionId) := by
      funext w
      simp only [Function.comp,put]
      split <;> rfl
    have sequences : WorkerAttempt.sequence ∘ put = WorkerAttempt.sequence := by
      funext w
      simp only [Function.comp,put]
      split <;> rfl
    unfold Runtime.attemptsOf Table.select at numbers ⊢
    rw [rows,List.filter_map,own,List.map_map,sequences,numbers,List.length_map]
  manned w member live := by
    obtain ⟨old,inside,id,_,states⟩ := write_row member
    refine busy_enter.mpr ?_
    rw [id]
    rw [states] at live
    split
    next here =>
      rw [if_pos here] at live
      exact agree.mp live
    next elsewhere =>
      rw [if_neg elsewhere] at live
      exact orderly.manned old inside live
  engaged w member busy active := by
    obtain ⟨old,inside,id,session,states⟩ := write_row member
    have under := busy_enter.mp busy
    rw [id] at under
    rw [session] at active
    rw [states]
    split
    next here =>
      rw [if_pos here] at under
      exact agree.mpr under
    next elsewhere =>
      rw [if_neg elsewhere] at under
      exact orderly.engaged old inside under active

theorem write_within {sessionId : String} {cumulative concurrent : Int}
    (within : s.Within sessionId cumulative concurrent) (under : s.busy a)
    (finishedAt artifact : Option String) :
    (s.write a state finishedAt artifact phase).Within sessionId cumulative concurrent := by
  constructor
  · refine le_trans (Table.count_map_le rfl ?_) within.total
    intro w _ own
    split at own <;> exact own
  · refine le_trans (Table.count_map_le rfl ?_) within.concurrent
    rintro w _ ⟨own,busy⟩
    have busy := busy_enter.mp busy
    split at own
    next here => exact ⟨own,here ▸ under⟩
    next elsewhere =>
      rw [if_neg elsewhere,if_neg elsewhere] at busy
      exact ⟨own,busy⟩

end Write

/-! Steps and runs. -/

/-- A step lowers the attempts, lets a thread begin or lets one write. -/
inductive Shift (s : Workforce) (action : WorkforceAction) (next : Workforce) : Prop
  | lowered (move : WorkerAttempt → WorkerAttempt)
      (lowers : Runtime.Lowers move s.store.runtime next.store.runtime) (phases : next.phase = s.phase)
  | reserved (w : WorkerAttempt) (cumulativeCap concurrentCap : Int)
      (reserves : Runtime.Reserves w cumulativeCap concurrentCap s.store.runtime next.store.runtime)
      (phases : next.phase = s.enter w.attemptId .reserved)
      (asked : action.capsIn w.sessionId = some (cumulativeCap,concurrentCap))
  | wrote (a : String) (state : AttemptState) (phase : WorkerPhase) (finishedAt artifact : Option String)
      (under : s.busy a) (agree : state.live ↔ phase ≠ .ended)
      (written : next = s.write a state finishedAt artifact phase)

theorem store_shift (employed : s.store.runtime.Employed) (op : Op) :
    Shift s (.store op) ⟨s.store.step op,s.begin op⟩ := by
  have staffing := s.store.step_staffing op
  have lowered (none_ : op.assigns = none) (phases : s.begin op = s.phase) :
      Shift s (.store op) ⟨s.store.step op,s.begin op⟩ := by
    rw [none_] at staffing
    obtain ⟨move,lowers⟩ := staffing.lowers employed
    exact .lowered move lowers phases
  cases op with
  | runtime r =>
    cases r with
    | reserveWorker attemptId sessionId workerType cumulativeCap concurrentCap globalCap now =>
      cases outcome : s.store.runtime.reserveWorker attemptId sessionId workerType cumulativeCap concurrentCap
          globalCap now with
      | error e =>
        have rejected : s.store.apply (.runtime (.reserveWorker attemptId sessionId workerType cumulativeCap
            concurrentCap globalCap now)) = ⟨.error e,s.store⟩ := by
          simp only [Store.apply,Runtime.apply,Runtime.body,outcome,discard,Except.map,atomically,Store.lift]
        refine .lowered id (.id ?_ ?_) ?_
        · simp only [Store.step,rejected]
        · intro w _ active
          simpa only [Store.step,rejected] using active
        · simp only [begin,rejected]
      | ok value =>
        obtain ⟨w,rfl,rfl,reserves⟩ := Runtime.reserveWorker_reserves outcome
        have accepted : s.store.apply (.runtime (.reserveWorker w.attemptId w.sessionId workerType cumulativeCap
            concurrentCap globalCap now)) = ⟨.ok (),{s.store with runtime := value.2}⟩ := by
          simp only [Store.apply,Runtime.apply,Runtime.body,outcome,discard,Except.map,atomically,Store.lift]
        refine .reserved w cumulativeCap concurrentCap ?_ ?_ (if_pos rfl)
        · simpa only [Store.step,accepted] using reserves
        · simp only [begin,accepted]
    | _ => exact lowered rfl rfl
  | _ => exact lowered rfl rfl

theorem step_shift (employed : s.store.runtime.Employed) (action : WorkforceAction) :
    Shift s action (s.step action) := by
  have idle {enabled : Prop} [Decidable enabled] {next : Workforce} (not : ¬ enabled) :
      Shift s action (if enabled then next else s) := by
    rw [if_neg not]
    exact .lowered id (.id rfl (fun _ _ active => active)) rfl
  cases action with
  | store op => exact store_shift employed op
  | start a =>
    simp only [step]
    by_cases enabled : s.phase a = some .reserved
    · rw [if_pos enabled]
      exact .wrote a _ _ _ _ ⟨_,enabled,by simp⟩ (by simp [AttemptState.live]) rfl
    · exact idle enabled
  | succeed a finishedAt artifact =>
    simp only [step]
    by_cases enabled : s.phase a = some .started
    · rw [if_pos enabled]
      exact .wrote a _ _ _ _ ⟨_,enabled,by simp⟩ (by simp [AttemptState.live]) rfl
    · exact idle enabled
  | fail a finishedAt =>
    simp only [step]
    by_cases enabled : s.phase a = some .reserved ∨ s.phase a = some .started
    · rw [if_pos enabled]
      refine .wrote a _ _ _ _ ?_ (by simp [AttemptState.live]) rfl
      rcases enabled with at_ | at_ <;> exact ⟨_,at_,by simp⟩
    · exact idle enabled

theorem step_employed (employed : s.store.runtime.Employed) (action : WorkforceAction) :
    (s.step action).store.runtime.Employed := by
  cases action with
  | store op =>
    obtain ⟨_,effect⟩ := (s.store.step_staffing op).some_effect
    exact effect.employed employed
  | start a =>
    simp only [step]
    split
    next => exact s.store.runtime.setAttempt_employed a _ _ _ employed
    next => exact employed
  | succeed a finishedAt artifact =>
    simp only [step]
    split
    next => exact s.store.runtime.setAttempt_employed a _ _ _ employed
    next => exact employed
  | fail a finishedAt =>
    simp only [step]
    split
    next => exact s.store.runtime.setAttempt_employed a _ _ _ employed
    next => exact employed

theorem step_single (single : ∀ orgId role, s.store.runtime.parentsOf orgId role ≤ 1) (action : WorkforceAction)
    (orgId role : String) : (s.step action).store.runtime.parentsOf orgId role ≤ 1 := by
  cases action with
  | store op => exact (s.store.step_staffing op).single single orgId role
  | _ =>
    simp only [step]
    split <;> exact single orgId role

theorem step_orderly (orderly : s.Orderly) (action : WorkforceAction) : (s.step action).Orderly := by
  have employed := step_employed orderly.employed action
  have single := step_single orderly.single action
  cases step_shift orderly.employed action with
  | lowered move lowers phases => exact lowered_orderly orderly lowers phases employed single
  | reserved w cumulativeCap concurrentCap reserves phases =>
    exact reserved_orderly orderly reserves phases employed single
  | wrote a state phase finishedAt artifact under agree written =>
    rw [written]
    exact write_orderly orderly agree finishedAt artifact

theorem step_within {sessionId : String} {cumulative concurrent : Int} (orderly : s.Orderly)
    (within : s.Within sessionId cumulative concurrent) {action : WorkforceAction}
    (caps : ∀ asked ∈ action.capsIn sessionId, asked = (cumulative,concurrent)) :
    (s.step action).Within sessionId cumulative concurrent := by
  cases step_shift orderly.employed action with
  | lowered move lowers phases => exact lowered_within within lowers phases
  | reserved w cumulativeCap concurrentCap reserves phases asked =>
    refine reserved_within orderly within reserves phases ?_
    rintro rfl
    exact Prod.mk.inj (caps _ asked)
  | wrote a state phase finishedAt artifact under agree written =>
    rw [written]
    exact write_within within under finishedAt artifact

theorem initial_orderly : initial.Orderly where
  employed w member := by cases member
  single _ _ := Nat.zero_le _
  numbered _ := rfl
  manned w member := by cases member
  engaged w member := by cases member

theorem run_orderly (actions : List WorkforceAction) : (run step initial actions).Orderly :=
  @invariant_run _ _ step Orderly (fun _ action orderly => step_orderly orderly action) _ initial_orderly actions

/-- In every state of every run each role has one parent at most, and a session whose workers
are all reserved under the same caps stays within them, its attempts numbered from one. -/
theorem single_flight (actions : List WorkforceAction) :
    (∀ orgId role, (run step initial actions).store.runtime.parentsOf orgId role ≤ 1) ∧
      ∀ sessionId (cumulative concurrent : Int),
        (∀ action ∈ actions, ∀ asked ∈ action.capsIn sessionId, asked = (cumulative,concurrent)) →
        ((run step initial actions).store.runtime.attemptsOf sessionId).length ≤ cumulative.toNat ∧
          ((run step initial actions).store.runtime.attemptsOf sessionId).map WorkerAttempt.sequence =
            List.range' 1 ((run step initial actions).store.runtime.attemptsOf sessionId).length ∧
          (run step initial actions).store.runtime.activeWorkers sessionId ≤ concurrent.toNat := by
  have orderly := run_orderly actions
  refine ⟨orderly.single,?_⟩
  intro sessionId cumulative concurrent caps
  have kept := @invariant_along _ _ step
    (fun _ action => ∀ asked ∈ action.capsIn sessionId, asked = (cumulative,concurrent))
    (fun s => s.Orderly ∧ s.Within sessionId cumulative concurrent)
    (fun s action both same => ⟨step_orderly both.1 action,step_within both.1 both.2 same⟩)
    initial ⟨initial_orderly,⟨Nat.zero_le _,Nat.zero_le _⟩⟩ actions (along_of_forall step caps)
  refine ⟨?_,orderly.numbered sessionId,?_⟩
  · rw [length_attemptsOf]
    exact kept.2.total
  · exact (orderly.activeWorkers_le sessionId).trans kept.2.concurrent

/-- Two workers under caps of two and one: the second is refused until the first has ended. -/
def relayRun : List WorkforceAction :=
  let reserve (attemptId : String) : WorkforceAction :=
    .store (.runtime (.reserveWorker attemptId "session-1" "scout" 2 1 3 ⟨0,Instant.zero_bounded⟩))
  [opened "session-1" "wake-1",reserve "worker-1",.start "worker-1",reserve "worker-2",
    .succeed "worker-1" "" "sha",reserve "worker-2"]

theorem single_flight_relayRun : ((run step initial relayRun).store.runtime.attemptsOf "session-1").map
      WorkerAttempt.sequence = [1,2] ∧
    ((run step initial relayRun).store.runtime.attemptsOf "session-1").length ≤ 2 ∧
      (run step initial relayRun).store.runtime.activeWorkers "session-1" ≤ 1 := by
  obtain ⟨total,_,live⟩ := (single_flight relayRun).2 "session-1" 2 1 (by decide)
  exact ⟨by decide,total,live⟩

end Workforce
end SjgControl

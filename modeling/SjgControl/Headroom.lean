import Mathlib.Algebra.BigOperators.Ring.Finset
import Mathlib.Algebra.Order.BigOperators.Group.Finset
import SjgControl.Capacity
import SjgControl.Policy
import SjgControl.Verifier.Presence

/-! The global cap of a compiled policy against what its sessions and workers can need: one
parent for each role, and for each of them its concurrent workers. -/
namespace SjgControl
open Relational Machine

/-! Counting over lists. -/

theorem countP_le_sum {α β : Type} {p : α → Bool} {q : β → α → Bool} {items : List α} {rows : List β}
    (covered : ∀ x ∈ items, p x = true → ∃ y ∈ rows, q y x = true) :
    items.countP p ≤ (rows.map (fun y => items.countP (q y))).sum := by
  induction items with
  | nil => simp
  | cons x rest ih =>
    have later := ih (fun z member => covered z (List.mem_cons_of_mem _ member))
    simp only [List.countP_cons,List.sum_map_add]
    have first : (if p x = true then 1 else 0) ≤ (rows.map (fun y => if q y x = true then 1 else 0)).sum := by
      split
      next holds =>
        obtain ⟨y,listed,own⟩ := covered x List.mem_cons_self holds
        have one : 1 ∈ rows.map (fun y => if q y x = true then 1 else 0) :=
          List.mem_map.mpr ⟨y,listed,if_pos own⟩
        exact List.single_le_sum (fun _ _ => Nat.zero_le _) 1 one
      next => exact Nat.zero_le _
    omega

theorem sum_le_of_subset {names all : List String} (weight : String → Int) (distinct : names.Nodup)
    (every : all.Nodup) (taken : names ⊆ all) (nonneg : ∀ name ∈ all, 0 ≤ weight name) :
    (names.map weight).sum ≤ (all.map weight).sum := by
  rw [← List.sum_toFinset weight distinct,← List.sum_toFinset weight every]
  apply Finset.sum_le_sum_of_subset_of_nonneg
  · intro name member
    exact List.mem_toFinset.mpr (taken (List.mem_toFinset.mp member))
  · intro name member _
    exact nonneg name (List.mem_toFinset.mp member)

/-! What the policy has room for. -/

namespace CompiledPolicy
variable (policy : CompiledPolicy)

/-- What a session of the role can take: itself and its workers. -/
def need (role : String) : Int := 1 + ((lookup policy.roles role).map CompiledRole.maxWorkersConcurrent).getD 0

/-- The sessions of the organization are for roles of the policy, their workers are reserved
with the caps of their role, and a worker's attempt is written while its session is active. -/
def Complies (s : Workforce) : WorkforceAction → Prop
  | .store op =>
    (∀ asked ∈ op.hires, asked.1 = policy.orgId → asked.2.1 ∈ policy.roles.map Prod.fst) ∧
      ∀ asked ∈ op.assigns, ∀ r ∈ s.store.runtime.sessions.get asked.1, r.orgId = policy.orgId →
        ∀ role ∈ lookup policy.roles r.role, asked.2.1 = role.maxWorkersConcurrent
  | .start a => ∀ w ∈ s.store.runtime.attempts.get a, s.store.runtime.sessionActive w.sessionId
  | .succeed a _ _ => ∀ w ∈ s.store.runtime.attempts.get a, s.store.runtime.sessionActive w.sessionId
  | .fail a _ => ∀ w ∈ s.store.runtime.attempts.get a, s.store.runtime.sessionActive w.sessionId

instance (s : Workforce) (action : WorkforceAction) : Decidable (policy.Complies s action) := by
  cases action <;> unfold Complies <;> infer_instance

/-- One active session for a role, and no more live workers in it than the role has. -/
structure Bounds (db : Runtime) : Prop where
  roles : ∀ r ∈ db.sessions.rows, r.orgId = policy.orgId → ∃ role, lookup policy.roles r.role = some role
  single : ∀ r ∈ db.sessions.rows, ∀ q ∈ db.sessions.rows, r.orgId = policy.orgId → q.orgId = policy.orgId →
    r.state = .active → q.state = .active → r.role = q.role → r = q
  below : ∀ r ∈ db.sessions.rows, r.orgId = policy.orgId → ∀ role ∈ lookup policy.roles r.role,
    (db.activeWorkers r.sessionId : Int) ≤ role.maxWorkersConcurrent

end CompiledPolicy

namespace Runtime
variable {db next : Runtime}

def activeOf (db : Runtime) (orgId : String) : List WakeSession :=
  db.sessions.select (fun r => r.orgId = orgId ∧ r.state = .active)

theorem parents_eq (orgId : String) : db.parents orgId = (db.activeOf orgId).length := by
  unfold parents activeOf Table.count Table.select
  exact List.countP_eq_length_filter

theorem workers_le (staffed : db.Staffed) (orgId : String) :
    db.workers orgId ≤ ((db.activeOf orgId).map (fun r => db.activeWorkers r.sessionId)).sum := by
  apply countP_le_sum
  intro w member both
  obtain ⟨org,live⟩ := of_decide_eq_true both
  obtain ⟨r,found,active⟩ := Option.map_eq_some_iff.mp (staffed w member live)
  obtain ⟨present,own⟩ := Table.get_eq_some.mp found
  have place : r.orgId = orgId := by simpa [orgOf,found] using org
  exact ⟨r,Table.mem_select.mpr ⟨present,place,active⟩,decide_eq_true ⟨own.symm,live⟩⟩

end Runtime

namespace CompiledPolicy
variable {policy : CompiledPolicy} {db next : Runtime}

theorem need_pos (sound : Policy.RolesSound policy.roles) (role : String) : 1 ≤ policy.need role := by
  unfold need
  cases found : lookup policy.roles role with
  | none => simp
  | some own =>
    have nonneg : 0 ≤ own.maxWorkersConcurrent := (sound.2 _ (mem_of_lookup found)).1
    simp only [Option.map_some,Option.getD_some]
    omega

theorem sum_need (sound : Policy.RolesSound policy.roles) :
    ((policy.roles.map Prod.fst).map policy.need).sum = Policy.expectedGlobal policy.roles := by
  have each : ∀ entry ∈ policy.roles, (policy.need ∘ Prod.fst) entry = 1 + entry.2.maxWorkersConcurrent := by
    intro entry member
    simp [need,lookup_of_mem sound.1 member]
  rw [List.map_map,List.map_congr_left each,List.sum_map_add]
  simp [Policy.expectedGlobal]

def load (policy : CompiledPolicy) (db : Runtime) : Int :=
  ((db.activeOf policy.orgId).map (fun r => 1 + (db.activeWorkers r.sessionId : Int))).sum

theorem used_le_load (staffed : db.Staffed) :
    ((db.parents policy.orgId + db.workers policy.orgId : Nat) : Int) ≤ policy.load db := by
  have workers := db.workers_le staffed policy.orgId
  have total : policy.load db = (db.activeOf policy.orgId).length +
      (((db.activeOf policy.orgId).map (fun r => db.activeWorkers r.sessionId)).sum : Nat) := by
    unfold load
    rw [List.sum_map_add]
    simp [Nat.cast_list_sum,Function.comp_def]
  rw [total,Runtime.parents_eq]
  omega

/-- What the sessions that are there can need at most. -/
def reach (policy : CompiledPolicy) (db : Runtime) : Int :=
  ((db.activeOf policy.orgId).map (fun r => policy.need r.role)).sum

theorem need_of (bounds : policy.Bounds db) {r : WakeSession} (member : r ∈ db.activeOf policy.orgId) :
    1 + (db.activeWorkers r.sessionId : Int) ≤ policy.need r.role := by
  obtain ⟨present,org,_⟩ := Table.mem_select.mp member
  obtain ⟨role,found⟩ := bounds.roles r present org
  have below := bounds.below r present org role found
  simp only [need,found,Option.map_some,Option.getD_some]
  omega

theorem load_le_reach (bounds : policy.Bounds db) : policy.load db ≤ policy.reach db :=
  List.sum_le_sum (fun _ member => need_of bounds member)

theorem roles_of (bounds : policy.Bounds db) :
    ((db.activeOf policy.orgId).map WakeSession.role).Nodup ∧
      (db.activeOf policy.orgId).map WakeSession.role ⊆ policy.roles.map Prod.fst := by
  constructor
  · refine List.Nodup.map_on ?_ ?_
    · intro r member q other same
      obtain ⟨present,org,active⟩ := Table.mem_select.mp member
      obtain ⟨there,own,alive⟩ := Table.mem_select.mp other
      exact bounds.single r present q there org own active alive same
    · exact (List.Nodup.of_map _ db.sessions.distinct).filter _
  · intro name member
    obtain ⟨r,active,rfl⟩ := List.mem_map.mp member
    obtain ⟨present,org,_⟩ := Table.mem_select.mp active
    obtain ⟨role,found⟩ := bounds.roles r present org
    exact List.mem_map.mpr ⟨_,mem_of_lookup found,rfl⟩

theorem reach_eq : policy.reach db = (((db.activeOf policy.orgId).map WakeSession.role).map policy.need).sum := by
  rw [List.map_map]
  rfl

theorem reach_le (sound : Policy.RolesSound policy.roles) (bounds : policy.Bounds db) :
    policy.reach db ≤ Policy.expectedGlobal policy.roles := by
  obtain ⟨distinct,taken⟩ := roles_of bounds
  rw [reach_eq,← sum_need sound]
  apply sum_le_of_subset policy.need distinct sound.1 taken
  intro role _
  have positive := need_pos sound role
  omega

theorem reach_lt (sound : Policy.RolesSound policy.roles) (bounds : policy.Bounds db) {role : String}
    (named : role ∈ policy.roles.map Prod.fst) (absent : role ∉ (db.activeOf policy.orgId).map WakeSession.role) :
    policy.reach db < Policy.expectedGlobal policy.roles := by
  obtain ⟨distinct,taken⟩ := roles_of bounds
  have more := sum_le_of_subset policy.need (List.nodup_cons.mpr ⟨absent,distinct⟩) sound.1
    (List.cons_subset.mpr ⟨named,taken⟩) (by
      intro role _
      have positive := need_pos sound role
      omega)
  rw [sum_need sound,List.map_cons,List.sum_cons,← reach_eq] at more
  have positive := need_pos sound role
  omega

theorem load_lt (bounds : policy.Bounds db) {r : WakeSession} (member : r ∈ db.activeOf policy.orgId)
    (spare : 1 + (db.activeWorkers r.sessionId : Int) < policy.need r.role) : policy.load db < policy.reach db :=
  List.sum_lt_sum _ _ (fun _ listed => need_of bounds listed) ⟨r,member,spare⟩

/-! The bounds over a run. -/

theorem Bounds.shrink (bounds : policy.Bounds db) (ends : WakeSession → WakeSession)
    (fails : WorkerAttempt → WorkerAttempt) (sessions : next.sessions.rows = db.sessions.rows.map ends)
    (keeps : ∀ r, (ends r).sessionId = r.sessionId ∧ (ends r).orgId = r.orgId ∧ (ends r).role = r.role ∧
      ((ends r).state = .active → r.state = .active))
    (attempts : next.attempts.rows = db.attempts.rows.map fails)
    (moved : ∀ w, (fails w).sessionId = w.sessionId)
    (live : ∀ w ∈ db.attempts.rows, (fails w).state.live → w.state.live) : policy.Bounds next := by
  constructor
  · intro r member org
    rw [sessions] at member
    obtain ⟨old,inside,rfl⟩ := List.mem_map.mp member
    obtain ⟨_,place,role,_⟩ := keeps old
    rw [role]
    exact bounds.roles old inside (place ▸ org)
  · intro r member q other org own active alive same
    rw [sessions] at member other
    obtain ⟨old,inside,rfl⟩ := List.mem_map.mp member
    obtain ⟨older,there,rfl⟩ := List.mem_map.mp other
    obtain ⟨_,place,role,was⟩ := keeps old
    obtain ⟨_,place',role',was'⟩ := keeps older
    rw [bounds.single old inside older there (place ▸ org) (place' ▸ own) (was active) (was' alive)
      (role.symm.trans (same.trans role'))]
  · intro r member org role found
    rw [sessions] at member
    obtain ⟨old,inside,rfl⟩ := List.mem_map.mp member
    obtain ⟨own,place,named,_⟩ := keeps old
    rw [named] at found
    have before := bounds.below old inside (place ▸ org) role found
    have fewer : next.activeWorkers (ends old).sessionId ≤ db.activeWorkers old.sessionId := by
      apply Table.count_map_le attempts
      intro w present both
      rw [moved,own] at both
      exact ⟨both.1,live w present both.2⟩
    omega

theorem ends_keeps (sessionId : String) (state : SessionState) (past : state ≠ .active) (r : WakeSession) :
    let ended := if r.sessionId = sessionId ∧ r.state = .active then {r with state} else r
    ended.sessionId = r.sessionId ∧ ended.orgId = r.orgId ∧ ended.role = r.role ∧
      (ended.state = .active → r.state = .active) := by
  dsimp only
  split
  next => exact ⟨rfl,rfl,rfl,fun active => absurd active past⟩
  next => exact ⟨rfl,rfl,rfl,id⟩

theorem Bounds.staffing (sound : Policy.RolesSound policy.roles) (bounds : policy.Bounds db) (employed : db.Employed)
    {hires : Option (String × String × Int)} {assigns : Option (String × Int × Int)}
    (staffing : Runtime.Staffing hires assigns db next)
    (hired : ∀ asked ∈ hires, asked.1 = policy.orgId → asked.2.1 ∈ policy.roles.map Prod.fst)
    (assigned : ∀ asked ∈ assigns, ∀ r ∈ db.sessions.get asked.1, r.orgId = policy.orgId →
      ∀ role ∈ lookup policy.roles r.role, asked.2.1 = role.maxWorkersConcurrent) : policy.Bounds next := by
  cases staffing with
  | still sessions attempts =>
    refine bounds.shrink id id ?_ (fun r => ⟨rfl,rfl,rfl,id⟩) ?_ (fun w => rfl) (fun w _ => id)
    · rw [sessions,List.map_id]
    · rw [attempts,List.map_id]
  | closed sessionId state past sessions attempts alone =>
    refine bounds.shrink _ id (congrArg Table.rows sessions) (ends_keeps sessionId state past) ?_
      (fun w => rfl) (fun w _ => id)
    rw [attempts,List.map_id]
  | dismissed sessionId state now past sessions attempts =>
    refine bounds.shrink _ _ (congrArg Table.rows sessions) (ends_keeps sessionId state past)
      (congrArg Table.rows attempts) ?_ ?_
    · intro w
      split
      next => rfl
      next => rfl
    · intro w _ live
      split at live
      next => simp [AttemptState.live] at live
      next => exact live
  | hired r globalCap asked inserted attempts single room =>
    have same (x : String) : next.activeWorkers x = db.activeWorkers x := by
      simp only [Runtime.activeWorkers,attempts]
    have nobody : db.activeWorkers r.sessionId = 0 := by
      apply Table.count_eq_zero.mpr
      intro w member both
      exact employed w member (both.1 ▸ Table.insert_fresh inserted)
    constructor
    · intro q member org
      rcases (Table.mem_insert inserted).mp member with old | rfl
      · exact bounds.roles q old org
      · obtain ⟨entry,listed,own⟩ := List.mem_map.mp (hired _ asked org)
        have held := lookup_of_mem sound.1 listed
        rw [own] at held
        exact ⟨entry.2,held⟩
    · intro q member p other org own active alive role
      rcases (Table.mem_insert inserted).mp member with old | rfl
      · rcases (Table.mem_insert inserted).mp other with older | rfl
        · exact bounds.single q old p older org own active alive role
        · exact absurd ⟨org.trans own.symm,role,active⟩ (single q old)
      · rcases (Table.mem_insert inserted).mp other with older | rfl
        · exact absurd ⟨own.trans org.symm,role.symm,alive⟩ (single p older)
        · rfl
    · intro q member org role found
      rw [same]
      rcases (Table.mem_insert inserted).mp member with old | rfl
      · exact bounds.below q old org role found
      · have nonneg : 0 ≤ role.maxWorkersConcurrent := (sound.2 _ (mem_of_lookup found)).1
        rw [nobody]
        exact_mod_cast nonneg
  | assigned w r concurrentCap globalCap asked accepted inserted sessions found active below room =>
    constructor
    · intro q member
      exact bounds.roles q (sessions ▸ member)
    · intro q member p other
      exact bounds.single q (sessions ▸ member) p (sessions ▸ other)
    · intro q member org role named
      rw [sessions] at member
      have before := bounds.below q member org role named
      have counted : next.activeWorkers q.sessionId =
          db.activeWorkers q.sessionId + if w.sessionId = q.sessionId ∧ w.state.live then 1 else 0 :=
        Table.count_insert inserted _
      rw [counted]
      split
      next here =>
        have own : db.sessions.get w.sessionId = some q := here.1 ▸ Table.get_key member
        have cap := assigned _ asked q own org role named
        rw [← here.1]
        dsimp only at cap
        push_cast
        omega
      next => simpa using before

/-- What the thread of an attempt finds in its row while the session is active. -/
def expected : WorkerPhase → AttemptState → Prop
  | .reserved,state => state = .accepted
  | .started,state => state = .running
  | .ended,_ => True

def Held (s : Workforce) : Prop := ∀ a phase, s.phase a = some phase → ∃ w ∈ s.store.runtime.attempts.get a,
  s.store.runtime.sessionActive w.sessionId → expected phase w.state

structure Kept (policy : CompiledPolicy) (s : Workforce) : Prop where
  staffed : s.store.runtime.Staffed
  employed : s.store.runtime.Employed
  bounds : policy.Bounds s.store.runtime
  held : Held s

theorem active_of_ended {sessionId : String} {state : SessionState} (past : state ≠ .active)
    (sessions : next.sessions = db.endSession sessionId state) {x : String} (active : next.sessionActive x) :
    db.sessionActive x ∧ x ≠ sessionId := by
  unfold Runtime.sessionActive at active ⊢
  rw [sessions,Runtime.endSession,Table.get_update] at active
  cases found : db.sessions.get x with
  | none =>
    rw [found] at active
    cases active
  | some r =>
    have own : r.sessionId = x := (Table.get_eq_some.mp found).2
    rw [found] at active
    simp only [Option.map_some,Option.some.injEq] at active ⊢
    split at active
    next => exact absurd active past
    next other =>
      refine ⟨active,?_⟩
      intro same
      exact other ⟨own.trans same,active⟩

theorem staffing_attempt (employed : db.Employed) {hires : Option (String × String × Int)}
    {assigns : Option (String × Int × Int)} (staffing : Runtime.Staffing hires assigns db next) {a : String}
    {w : WorkerAttempt} (found : db.attempts.get a = some w) :
    ∃ w' ∈ next.attempts.get a, w'.sessionId = w.sessionId ∧
      (next.sessionActive w.sessionId → db.sessionActive w.sessionId ∧ w'.state = w.state) := by
  cases staffing with
  | still sessions attempts =>
    refine ⟨w,attempts ▸ found,rfl,?_⟩
    intro active
    unfold Runtime.sessionActive at active ⊢
    exact ⟨sessions ▸ active,rfl⟩
  | closed sessionId state past sessions attempts alone =>
    exact ⟨w,attempts ▸ found,rfl,fun active => ⟨(active_of_ended past sessions active).1,rfl⟩⟩
  | dismissed sessionId state now past sessions attempts =>
    rw [attempts,Runtime.failWorkers,Table.get_update,found]
    refine ⟨_,rfl,?_,?_⟩
    · dsimp only
      split
      next => rfl
      next => rfl
    · intro active
      obtain ⟨before,other⟩ := active_of_ended past sessions active
      refine ⟨before,?_⟩
      dsimp only
      rw [if_neg]
      intro both
      exact other both.1
  | hired r globalCap asked inserted attempts single room =>
    refine ⟨w,attempts ▸ found,rfl,?_⟩
    intro active
    have apart : r.sessionId ≠ w.sessionId := by
      intro same
      exact employed w (Table.get_eq_some.mp found).1 (same ▸ Table.insert_fresh inserted)
    unfold Runtime.sessionActive at active ⊢
    rw [Table.get_insert inserted] at active
    split at active
    next same => exact absurd same apart
    next => exact ⟨active,rfl⟩
  | assigned new r concurrentCap globalCap asked accepted inserted sessions _ _ below room =>
    refine ⟨w,?_,rfl,?_⟩
    · rw [Option.mem_def,Table.get_insert inserted,if_neg,found]
      intro same
      have fresh := Table.insert_fresh inserted
      rw [same,found] at fresh
      cases fresh
    · intro active
      unfold Runtime.sessionActive at active ⊢
      exact ⟨sessions ▸ active,rfl⟩

theorem store_held {s : Workforce} (kept : policy.Kept s) (op : Op) : Held ⟨s.store.step op,s.begin op⟩ := by
  have staffing := s.store.step_staffing op
  intro a phase at_
  rcases Workforce.begin_new at_ with old | ⟨rfl,w,after,accepted⟩
  · obtain ⟨w,found,state⟩ := kept.held a phase old
    obtain ⟨w',later,own,same⟩ := staffing_attempt kept.employed staffing found
    refine ⟨w',later,?_⟩
    intro active
    obtain ⟨before,equal⟩ := same (own ▸ active)
    rw [equal]
    exact state before
  · exact ⟨w,after,fun _ => accepted⟩

theorem write_kept {s : Workforce} (kept : policy.Kept s) {a : String} {w : WorkerAttempt}
    (found : s.store.runtime.attempts.get a = some w) {state : AttemptState} {phase : WorkerPhase}
    (finishedAt artifact : Option String)
    (reached : expected phase state) (opens : state.live → w.state.live) :
    policy.Kept (s.write a state finishedAt artifact phase) := by
  have was : state.live → ∀ v, s.store.runtime.attempts.get a = some v → v.state.live := by
    intro live v present
    rw [found] at present
    cases present
    exact opens live
  obtain ⟨move,rows,keeps,stays⟩ := s.store.runtime.setAttempt_opens a state finishedAt artifact was
  refine ⟨s.store.runtime.setAttempt_staffed a state finishedAt artifact kept.staffed was,
    s.store.runtime.setAttempt_employed a state finishedAt artifact kept.employed,?_,?_⟩
  · refine kept.bounds.shrink id move ?_ (fun r => ⟨rfl,rfl,rfl,id⟩) rows keeps stays
    rw [List.map_id]
    rfl
  · intro b later at_
    change s.enter a phase b = some later at at_
    change ∃ v ∈ (s.store.runtime.setAttempt a state finishedAt artifact).attempts.get b,
      s.store.runtime.sessionActive v.sessionId → expected later v.state
    unfold Workforce.enter at at_
    unfold Runtime.setAttempt
    simp only [Table.get_update]
    split at at_
    next here =>
      subst here
      cases at_
      rw [found]
      have own : w.attemptId = b := (Table.get_eq_some.mp found).2
      refine ⟨_,rfl,fun _ => ?_⟩
      simp only [own,if_true]
      exact reached
    next other =>
      obtain ⟨v,present,held⟩ := kept.held b later at_
      have own : v.attemptId = b := (Table.get_eq_some.mp present).2
      rw [present]
      refine ⟨_,rfl,?_⟩
      have apart : v.attemptId ≠ a := fun same => other (own.symm.trans same)
      simp only [apart,if_false]
      exact held

theorem step_kept (sound : Policy.RolesSound policy.roles) {s : Workforce} (kept : policy.Kept s)
    {action : WorkforceAction} (complies : policy.Complies s action) : policy.Kept (s.step action) := by
  cases action with
  | store op =>
    have staffing := s.store.step_staffing op
    obtain ⟨cap,effect⟩ := staffing.some_effect
    refine ⟨?_,?_,kept.bounds.staffing sound kept.employed staffing complies.1 complies.2,store_held kept op⟩
    · exact effect.staffed kept.staffed
    · exact effect.employed kept.employed
  | start a =>
    simp only [Workforce.step]
    split
    next at_ =>
      obtain ⟨w,found,state⟩ := kept.held a _ at_
      have accepted : w.state = .accepted := state (complies w found)
      exact write_kept kept found none none rfl (fun _ => .inl accepted)
    next => exact kept
  | succeed a finishedAt artifact =>
    simp only [Workforce.step]
    split
    next at_ =>
      obtain ⟨w,found,_⟩ := kept.held a _ at_
      exact write_kept kept found _ _ trivial (by simp [AttemptState.live])
    next => exact kept
  | fail a finishedAt =>
    simp only [Workforce.step]
    split
    next at_ =>
      have recorded : ∃ w, s.store.runtime.attempts.get a = some w := by
        rcases at_ with reserved | started
        · obtain ⟨w,found,_⟩ := kept.held a _ reserved
          exact ⟨w,found⟩
        · obtain ⟨w,found,_⟩ := kept.held a _ started
          exact ⟨w,found⟩
      obtain ⟨w,found⟩ := recorded
      exact write_kept kept found _ _ trivial (by simp [AttemptState.live])
    next => exact kept

theorem initial_kept : policy.Kept Workforce.initial := by
  constructor
  · intro w member
    cases member
  · intro w member
    cases member
  · constructor
    · intro r member
      cases member
    · intro r member
      cases member
    · intro r member
      cases member
  · intro a phase at_
    cases at_

theorem run_kept (sound : Policy.RolesSound policy.roles) {actions : List WorkforceAction}
    (complies : Along Workforce.step policy.Complies Workforce.initial actions) :
    policy.Kept (run Workforce.step Workforce.initial actions) :=
  @invariant_along _ _ Workforce.step policy.Complies policy.Kept (fun _ _ kept complies => step_kept sound kept complies)
    _ initial_kept actions complies

def capReached : StoreError := .stateError "global active-agent cap reached"

/-- A session that fails at the cap finds its role without one, and the cap reached. -/
theorem createSession_capped {sessionId wakeId orgId role policyDigest : String} {workspaceAliases : List String}
    {now : Instant} {ttlSeconds globalCap : Int}
    (refused : db.createSession sessionId wakeId orgId role policyDigest workspaceAliases now ttlSeconds globalCap =
      .error capReached) :
    (∀ q ∈ db.sessions.rows, ¬ (q.orgId = orgId ∧ q.role = role ∧ q.state = .active)) ∧
      ¬ ((db.parents orgId + db.workers orgId : Nat) : Int) < globalCap := by
  simp only [Runtime.createSession,require_bind_error,fetch_bind_error,pure_error,capReached] at refused
  rcases refused with ⟨_,other⟩ | ⟨_,⟨_,other⟩ | ⟨expires,_,⟨_,other⟩ | ⟨single,⟨full,_⟩ | ⟨_,later⟩⟩⟩⟩
  · simp at other
  · cases other
  · simp at other
  · exact ⟨Table.count_eq_zero.mp single,full⟩
  · rcases later with ⟨_,other⟩ | ⟨_,⟨_,other⟩ | ⟨_,_,never⟩⟩
    · cases other
    · cases other
    · exact never.elim

/-- A worker that fails at the cap has an active session with room for it. -/
theorem reserveWorker_capped {attemptId sessionId workerType : String} {cumulativeCap concurrentCap globalCap : Int}
    {now : Instant}
    (refused : db.reserveWorker attemptId sessionId workerType cumulativeCap concurrentCap globalCap now =
      .error capReached) :
    ∃ r, db.sessions.get sessionId = some r ∧ r.state = .active ∧ (db.activeWorkers sessionId : Int) < concurrentCap ∧
      ¬ ((db.parents r.orgId + db.workers r.orgId : Nat) : Int) < globalCap := by
  simp only [Runtime.reserveWorker,require_bind_error,fetch_bind_error,pure_error,capReached,
    Option.filter_eq_some_iff,decide_eq_true_eq] at refused
  rcases refused with ⟨_,other⟩ | ⟨r,⟨found,active,_⟩,⟨_,other⟩ | ⟨_,⟨_,other⟩ | ⟨below,⟨full,_⟩ | ⟨_,later⟩⟩⟩⟩
  · simp at other
  · simp at other
  · simp at other
  · exact ⟨r,found,active,below,full⟩
  · rcases later with ⟨_,other⟩ | ⟨_,⟨_,other⟩ | ⟨_,_,never⟩⟩
    · cases other
    · cases other
    · exact never.elim

/-- The cap of an accepted policy is never exceeded by sessions of its roles and workers
within the caps of those, and none of them is refused for it. -/
theorem cap_sufficient (lib : TextLibrary) (data : Json) (sourceCommit : String) (policy : CompiledPolicy)
    (compiled : Policy.compilePolicy lib data sourceCommit = .ok policy) (actions : List WorkforceAction)
    (complies : Along Workforce.step policy.Complies Workforce.initial actions) :
    let db := (run Workforce.step Workforce.initial actions).store.runtime
    ((db.parents policy.orgId + db.workers policy.orgId : Nat) : Int) ≤ policy.globalMaxAgents ∧
      (∀ role ∈ policy.roles.map Prod.fst, ∀ sessionId wakeId digest aliases now ttlSeconds,
        db.createSession sessionId wakeId policy.orgId role digest aliases now ttlSeconds policy.globalMaxAgents ≠
          .error capReached) ∧
      ∀ sessionId, ∀ r ∈ db.sessions.get sessionId, r.orgId = policy.orgId → ∀ role ∈ lookup policy.roles r.role,
        ∀ attemptId workerType now, db.reserveWorker attemptId sessionId workerType role.maxWorkersPerWake
          role.maxWorkersConcurrent policy.globalMaxAgents now ≠ .error capReached := by
  obtain ⟨sound,cap⟩ := Policy.compilePolicy_ok compiled
  have kept := run_kept sound complies
  intro db
  have used := @used_le_load policy db kept.staffed
  have load : policy.load db ≤ policy.reach db := load_le_reach kept.bounds
  have reach : policy.reach db ≤ Policy.expectedGlobal policy.roles := reach_le sound kept.bounds
  rw [cap]
  refine ⟨by omega,?_,?_⟩
  · intro role named sessionId wakeId digest aliases now ttlSeconds refused
    obtain ⟨single,full⟩ := createSession_capped refused
    have absent : role ∉ (db.activeOf policy.orgId).map WakeSession.role := by
      intro member
      obtain ⟨r,listed,own⟩ := List.mem_map.mp member
      obtain ⟨present,org,active⟩ := Table.mem_select.mp listed
      exact single r present ⟨org,own,active⟩
    have spare : policy.reach db < Policy.expectedGlobal policy.roles := reach_lt sound kept.bounds named absent
    omega
  · intro sessionId r found org role named attemptId workerType now refused
    obtain ⟨own,again,active,below,full⟩ := reserveWorker_capped refused
    cases found.symm.trans again
    obtain ⟨present,place⟩ := Table.get_eq_some.mp found
    have spare : 1 + (db.activeWorkers r.sessionId : Int) < policy.need r.role := by
      have same : r.sessionId = sessionId := place
      have held : lookup policy.roles r.role = some role := named
      simp only [need,held,Option.map_some,Option.getD_some,same]
      omega
    have room : policy.load db < policy.reach db := load_lt kept.bounds (Table.mem_select.mpr ⟨present,org,active⟩) spare
    rw [org] at full
    omega

/-! The four required roles, all of them at work. -/

def agent (role : String) (repositories allowed : List String) (maxPerWake maxConcurrent : Int) : Json :=
  .obj [("id",.str role),("repositories",.arr (repositories.map Json.str)),("dailyTokenBudget",.int 1000),
    ("workers",.obj [("allowed",.arr (allowed.map Json.str)),("maxPerWake",.int maxPerWake),
      ("maxConcurrent",.int maxConcurrent)])]

def document : Json :=
  .obj [("apiVersion",.str "scrum-jail.dev/v1"),("kind",.str "Organization"),("metadata",.obj [("id",.str "example")]),
    ("authority",.obj [("principalRole",.str "human-principal"),("principalGitHub",.str "octocat"),
      ("upstreamRole",.str "portfolio-orchestrator")]),
    ("repositories",.obj [("org",.obj [("slug",.str "example/org"),("defaultBranch",.str "main")]),
      ("product",.obj [("slug",.str "example/product"),("defaultBranch",.str "main")])]),
    ("controlRelease",.obj [("version",.str "1.0.0"),
      ("sourceTreeSha256",.str "0123456789abcdef0123456789abcdef0123456789abcdef0123456789abcdef")]),
    ("budgets",.obj [("organizationDailyTokens",.int 4000)]),("limits",.obj [("globalMaxAgents",.int 6)]),
    ("agents",.arr [agent "project-orchestrator" ["org"] [] 0 0,
      agent "commercial-planner" ["org"] ["researcher","drafter"] 1 1,
      agent "software-implementer" ["org","product"] ["researcher","drafter","implementer"] 3 1,
      agent "governance-reviewer" ["org"] [] 0 0]),
    ("workflows",.obj [("hostedExecution",.str "manual-only")])]

def documented : CompiledPolicy where
  orgId := "example"
  principalGithub := "octocat"
  repositories := [("org",⟨"example/org","main"⟩),("product",⟨"example/product","main"⟩)]
  roles := [("project-orchestrator",⟨⟨["org"]⟩,[],0,0,1000⟩),
    ("commercial-planner",⟨⟨["org"]⟩,["drafter","researcher"],1,1,1000⟩),
    ("software-implementer",⟨⟨["org","product"]⟩,["drafter","implementer","researcher"],3,1,1000⟩),
    ("governance-reviewer",⟨⟨["org"]⟩,[],0,0,1000⟩)]
  sourceCommit := "0"
  controlVersion := "1.0.0"
  sourceTreeSha256 := "0123456789abcdef0123456789abcdef0123456789abcdef0123456789abcdef"
  organizationDailyTokenBudget := 4000
  globalMaxAgents := 6
  policyDigest := "sha256:"

def session (role : String) : WorkforceAction :=
  .store (.runtime (.createSession ("session-" ++ role) ("wake-" ++ role) "example" role "sha256:" ["org"]
    ⟨0,Instant.zero_bounded⟩ 600 6))

def worker (attemptId role : String) (cumulative : Int) : WorkforceAction :=
  .store (.runtime (.reserveWorker attemptId ("session-" ++ role) "drafter" cumulative 1 6 ⟨0,Instant.zero_bounded⟩))

def fullHouse : List WorkforceAction :=
  [session "software-implementer",worker "worker-1" "software-implementer" 3,.start "worker-1",
    .succeed "worker-1" "" "",worker "worker-2" "software-implementer" 3,session "commercial-planner",
    worker "worker-3" "commercial-planner" 1,session "project-orchestrator",session "governance-reviewer"]

theorem cap_sufficient_fullHouse :
    let db := (run Workforce.step Workforce.initial fullHouse).store.runtime
    db.parents "example" + db.workers "example" = 6 ∧
      ((db.parents "example" + db.workers "example" : Nat) : Int) ≤ 6 ∧
      db.createSession "session-5" "wake-5" "example" "governance-reviewer" "sha256:" ["org"] ⟨0,Instant.zero_bounded⟩ 600 6 ≠
        .error capReached := by
  have sufficient := cap_sufficient Served.quietLibrary document "0" documented (by decide +kernel) fullHouse
    (by decide +kernel)
  refine ⟨by decide +kernel,sufficient.1,?_⟩
  exact sufficient.2.1 "governance-reviewer" (by decide) "session-5" "wake-5" "sha256:" ["org"] ⟨0,Instant.zero_bounded⟩ 600

end CompiledPolicy
end SjgControl

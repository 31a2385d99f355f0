import SjgControl.Host.Recovery

/-! Whether a recovery leaves anything behind is settled by the store that the crash leaves:
each of its steps keeps what is still to come as it was. -/
namespace SjgControl
open Relational Machine

/-! The wakes and sessions that a step leaves for later are as they were. -/

namespace Runtime
open Table
variable {y z : String} {db next : Runtime}

theorem Shift.processCount_iff (shift : Shift y db next) (other : z ≠ y) :
    next.processCount z = 0 ↔ db.processCount z = 0 := by
  rw [Runtime.processCount,Runtime.processCount,count_eq_zero,count_eq_zero]
  constructor
  · intro none_ p member own
    exact none_ p ((shift.processes p (own ▸ other)).mpr member) own
  · intro none_ p member own
    exact none_ p ((shift.processes p (own ▸ other)).mp member) own

theorem Shift.workerCount_iff (shift : Shift y db next) (other : z ≠ y) :
    next.workerCount z = 0 ↔ db.workerCount z = 0 := by
  rw [Runtime.workerCount,Runtime.workerCount,count_eq_zero,count_eq_zero]
  constructor
  · intro none_ p member own
    exact none_ p ((shift.attempts p (own ▸ other)).mpr member) own
  · intro none_ p member own
    exact none_ p ((shift.attempts p (own ▸ other)).mp member) own

end Runtime

namespace Store
variable {db next : Store} {x : String} {d : Option String} {w : WakeRuntime}

theorem restorable_congr (processes : next.runtime.processCount w.sessionId = 0 ↔ db.runtime.processCount w.sessionId = 0)
    (workers : next.runtime.workerCount w.sessionId = 0 ↔ db.runtime.workerCount w.sessionId = 0)
    (reservations : ∀ r : BudgetReservation, r.sessionId = w.sessionId →
      (r ∈ next.runtime.reservations.rows ↔ r ∈ db.runtime.reservations.rows))
    (deliveries : ∀ e, w.deliveryId = some e →
      (next.queue.deliveries.get e).map Delivery.state = (db.queue.deliveries.get e).map Delivery.state) :
    next.Restorable w ↔ db.Restorable w := by
  unfold Restorable
  rw [processes,workers]
  refine imp_congr_right (fun _ => imp_congr_right (fun _ => and_congr_right (fun _ => and_congr ?_ ?_)))
  · constructor
    · intro unspent r member own
      exact unspent r ((reservations r own).mpr member) own
    · intro unspent r member own
      exact unspent r ((reservations r own).mp member) own
  · refine forall_congr' (fun e => imp_congr_right (fun named => ?_))
    rw [deliveries e named]

theorem Cleared.restorable_iff (cleared : Cleared db next x d) (other : w.sessionId ≠ x)
    (apart : ∀ e, w.deliveryId = some e → d ≠ some e) : next.Restorable w ↔ db.Restorable w :=
  restorable_congr (cleared.shift.processCount_iff other) (cleared.shift.workerCount_iff other)
    (fun r own => cleared.shift.reservations r (own ▸ other)) (fun e named => cleared.deliveries e (apart e named))

theorem Touched.restorable_iff (touched : Touched db next d)
    (apart : ∀ e, w.deliveryId = some e → d ≠ some e) : next.Restorable w ↔ db.Restorable w := by
  refine restorable_congr (touched.processes _) ?_ ?_ (fun e named => touched.deliveries e (apart e named))
  · unfold Runtime.workerCount
    rw [touched.attempts]
  · intro r _
    rw [touched.reservations]

end Store

namespace RecoverPoint
open Table

/-- No two wakes in progress have one delivery. -/
def Lone (db : Runtime) : Prop := ∀ v ∈ db.wakes.rows, ∀ w ∈ db.wakes.rows, v.state.live → w.state.live →
  ∀ e, v.deliveryId = some e → w.deliveryId = some e → v.sessionId = w.sessionId

/-- The session `x` is worked off, and every other one is still to come. -/
structure Onward (x : String) (d : Option String) (point after : RecoverPoint) : Prop where
  listed : ∀ w ∈ after.listed, w ∈ point.listed ∧ w.sessionId ≠ x ∧ ∀ e, w.deliveryId = some e → d ≠ some e
  orphaned : ∀ y ∈ after.orphaned, y ∈ point.orphaned
  keptListed : ∀ w ∈ point.listed, w.sessionId = x ∨ w ∈ after.listed
  keptOrphaned : ∀ y ∈ point.orphaned, y = x ∨ y ∈ after.orphaned
  apart : point.listed.Nodup → after.listed.Nodup
  distinct : point.orphaned.Nodup → after.orphaned.Nodup ∧ x ∉ after.orphaned

/-- A step that is not refused reads or touches the session at hand, or works it off. -/
inductive Course (db : Store) (point : RecoverPoint) (next : Store) (after : RecoverPoint) : Prop
  | stays {d : Option String} (listed : after.listed = point.listed) (orphaned : after.orphaned = point.orphaned)
      (touched : Store.Touched db next d) (restorable : ∀ w ∈ point.listed, next.Restorable w ↔ db.Restorable w) :
      Course db point next after
  | clears {x : String} {d : Option String} (cleared : Store.Cleared db next x d) (onward : Onward x d point after)
      (sound : ∀ w ∈ point.listed, w.sessionId = x → db.Restorable w)
      (awake : ¬ db.runtime.hasWake x ∨ ∃ w ∈ db.runtime.wakes.rows, w.sessionId = x ∧ w.state.live) :
      Course db point next after

section Course
variable {db next : Store} {point after : RecoverPoint} (orderly : ∀ x, Runtime.Orderly x db.runtime)
  (lone : Lone db.runtime)
include orderly

theorem Lists.other {w v : WakeRuntime} {rest : List WakeRuntime} (lists : Lists db.runtime point)
    (listed : point.listed = w::rest) (member : v ∈ rest) : v.sessionId ≠ w.sessionId := by
  intro same
  have apart := lists.apart
  rw [listed] at apart
  have here := lists.present w (listed ▸ List.mem_cons_self)
  have there := lists.present v (listed ▸ List.mem_cons_of_mem _ member)
  have equal := (orderly w.sessionId).oneWake v there.1 w here.1 same rfl
  exact (List.nodup_cons.mp apart).1 (equal ▸ member)

include lone

theorem Lists.onward {w : WakeRuntime} {rest : List WakeRuntime} {d : Option String} (lists : Lists db.runtime point)
    (listed : point.listed = w::rest) (none_ : point.orphaned = []) (own : ∀ e, d = some e → w.deliveryId = some e)
    (later : after.listed = rest) (none' : after.orphaned = []) : Onward w.sessionId d point after := by
  refine ⟨?_,?_,?_,?_,?_,?_⟩
  · intro v member
    rw [later] at member
    have other := lists.other orderly listed member
    have here := lists.present w (listed ▸ List.mem_cons_self)
    have there := lists.present v (listed ▸ List.mem_cons_of_mem _ member)
    refine ⟨listed ▸ List.mem_cons_of_mem _ member,other,?_⟩
    intro e named same
    exact other (lone v there.1 w here.1 there.2 here.2 e named (own e same))
  · intro y member
    rw [none'] at member
    cases member
  · intro v member
    rw [listed] at member
    rcases List.mem_cons.mp member with rfl | inside
    · exact .inl rfl
    · exact .inr (later ▸ inside)
  · intro y member
    rw [none_] at member
    cases member
  · intro apart
    rw [listed] at apart
    exact later ▸ (List.nodup_cons.mp apart).2
  · intro _
    rw [none']
    simp

theorem course (lists : Lists db.runtime point) (begun : point.begun) (step : Recovering db point next after)
    (granted : after ≠ .raised) : Course db point next after := by
  have stays (listed : after.listed = point.listed) (orphaned : after.orphaned = point.orphaned) (same : next = db) :
      Course db point next after := by
    rw [same]
    exact .stays listed orphaned (.refl db none) (fun _ _ => Iff.rfl)
  cases step with
  | listing => exact absurd begun id
  | orphanRefused | restoreRefused => exact absurd rfl granted
  | turning | ending | unstarted | started => exact stays rfl rfl rfl
  | resting => exact stays rfl rfl rfl
  | @orphan x error rest listed n next ok =>
    obtain ⟨cleared,unlaunched⟩ := Store.orphan_cleared ok
    have apart : ∀ w ∈ listed, w.sessionId ≠ x := fun w member own => unlaunched ⟨w,(lists.present w member).1,own⟩
    refine .clears cleared ⟨?_,?_,?_,?_,?_,?_⟩ ?_ (.inl unlaunched)
    · intro w member
      exact ⟨member,apart w member,fun e _ same => by cases same⟩
    · intro y member
      exact List.mem_cons_of_mem _ member
    · intro w member
      exact .inr member
    · intro y member
      exact List.mem_cons.mp member
    · exact id
    · intro distinct
      exact ⟨(List.nodup_cons.mp distinct).2,(List.nodup_cons.mp distinct).1⟩
    · intro w member own
      exact absurd own (apart w member)
  | @restored w time error now rest n m next ok =>
    have present := lists.present w List.mem_cons_self
    have found : db.runtime.wakes.get w.wakeId = some w := get_key present.1
    refine .clears (Store.prepared_cleared found ok)
      (lists.onward orderly lone rfl rfl (fun _ named => named) rfl rfl) ?_ (.inr ⟨w,present.1,rfl,present.2⟩)
    intro v member own
    have equal := (orderly w.sessionId).oneWake v (lists.present v member).1 w present.1 own rfl
    exact equal ▸ Store.restorable_of_ok (orderly w.sessionId) found ok
  | @swept w rest n m next cleared =>
    have present := lists.present w List.mem_cons_self
    refine .clears cleared (lists.onward orderly lone rfl rfl (fun _ named => by cases named) rfl rfl) ?_
      (.inr ⟨w,present.1,rfl,present.2⟩)
    intro v member own
    have equal := (orderly w.sessionId).oneWake v (lists.present v member).1 w present.1 own rfl
    intro prepared free
    exact absurd (equal ▸ free) (lists.fits.2 (equal ▸ prepared))
  | @sweeping w sweep after rest n m next touched own closer =>
    refine .stays rfl rfl touched ?_
    intro v member
    rcases List.mem_cons.mp member with rfl | inside
    · -- a wake that is swept is not taken for unstarted
      refine iff_of_true ?_ ?_
      · intro prepared free
        exact absurd ((touched.processes _).mp free) (lists.fits.2 prepared)
      · intro prepared free
        exact absurd free (lists.fits.2 prepared)
    · have other := lists.other orderly rfl inside
      have here := lists.present w List.mem_cons_self
      have there := lists.present v (List.mem_cons_of_mem _ inside)
      apply touched.restorable_iff
      intro e named same
      exact other (lone v there.1 w here.1 there.2 here.2 e named same)

theorem Lists.further (lists : Lists db.runtime point) (begun : point.begun) (step : Recovering db point next after)
    (granted : after ≠ .raised) : Lists next.runtime after := by
  have fits : after.Fits next.runtime := by
    cases step with
    | unstarted prepared free => exact ⟨prepared,free⟩
    | started started => exact ⟨trivial,started⟩
    | sweeping touched own closer =>
      exact ⟨own,fun prepared free => lists.fits.2 prepared ((touched.processes _).mp free)⟩
    | resting => exact lists.fits
    | _ => trivial
  cases course orderly lone lists begun step granted with
  | stays listed orphaned touched restorable =>
    refine ⟨?_,listed ▸ lists.apart,fits⟩
    intro w member
    rw [listed] at member
    rw [touched.wakes]
    exact lists.present w member
  | clears cleared onward sound awake =>
    refine ⟨?_,onward.apart lists.apart,fits⟩
    intro w member
    obtain ⟨before,other,_⟩ := onward.listed w member
    obtain ⟨present,live⟩ := lists.present w before
    exact ⟨(cleared.shift.wakes w other).mpr present,live⟩

end Course

/-- Every active session is still to be worked off, and can be. -/
structure Pending (db : Store) (point : RecoverPoint) : Prop where
  orphaned : ∀ y ∈ point.orphaned, db.runtime.sessionActive y ∧ ¬ db.runtime.hasWake y
  distinct : point.orphaned.Nodup
  restorable : ∀ w ∈ point.listed, db.Restorable w
  complete : ∀ s ∈ db.runtime.sessions.rows, s.state = .active →
    s.sessionId ∈ point.orphaned ∨ ∃ w ∈ point.listed, w.sessionId = s.sessionId
  working : ∀ a ∈ db.runtime.attempts.rows, a.state.live → db.runtime.sessionActive a.sessionId

/-- Something that the recovery will not work off. -/
inductive Astray (db : Store) (point : RecoverPoint) : Prop
  | asleep (s : WakeSession) (member : s ∈ db.runtime.sessions.rows) (active : s.state = .active)
      (wake : db.runtime.hasWake s.sessionId)
      (dead : ∀ w ∈ db.runtime.wakes.rows, w.sessionId = s.sessionId → ¬ w.state.live) : Astray db point
  | unrestorable (w : WakeRuntime) (listed : w ∈ point.listed) (lost : ¬ db.Restorable w) : Astray db point
  | stray (a : WorkerAttempt) (member : a ∈ db.runtime.attempts.rows) (live : a.state.live)
      (ended : ¬ db.runtime.sessionActive a.sessionId) : Astray db point

section Fate
variable {db next : Store} {point after : RecoverPoint}

theorem Pending.further (pending : Pending db point) (course : Course db point next after) : Pending next after := by
  cases course with
  | stays listed orphaned touched restorable =>
    refine ⟨?_,orphaned ▸ pending.distinct,?_,?_,?_⟩
    · unfold Runtime.sessionActive Runtime.hasWake
      rw [orphaned,touched.sessions,touched.wakes]
      exact pending.orphaned
    · intro w member
      rw [listed] at member
      exact (restorable w member).mpr (pending.restorable w member)
    · rw [listed,orphaned,touched.sessions]
      exact pending.complete
    · unfold Runtime.sessionActive
      rw [touched.attempts,touched.sessions]
      exact pending.working
  | @clears x d cleared onward sound awake =>
    obtain ⟨distinct,worked⟩ := onward.distinct pending.distinct
    refine ⟨?_,distinct,?_,?_,?_⟩
    · intro y member
      have other : y ≠ x := fun same => worked (same ▸ member)
      rw [cleared.shift.active_iff other,cleared.shift.hasWake_iff other]
      exact pending.orphaned y (onward.orphaned y member)
    · intro w member
      obtain ⟨before,other,apart⟩ := onward.listed w member
      exact (cleared.restorable_iff other apart).mpr (pending.restorable w before)
    · intro s member active
      have other : s.sessionId ≠ x := by
        intro own
        exact cleared.ended (Runtime.sessionActive_iff.mpr ⟨s,member,own,active⟩)
      rcases pending.complete s ((cleared.shift.sessions s other).mp member) active with orphan | ⟨w,inside,own⟩
      · exact .inl ((onward.keptOrphaned _ orphan).resolve_left other)
      · exact .inr ⟨w,(onward.keptListed w inside).resolve_left (fun same => other (own.symm.trans same)),own⟩
    · intro a member live
      have other := cleared.idle a member live
      exact (cleared.shift.active_iff other).mpr (pending.working a ((cleared.shift.attempts a other).mp member) live)

theorem Astray.further (astray : Astray db point) (course : Course db point next after) : Astray next after := by
  cases course with
  | stays listed orphaned touched restorable =>
    cases astray with
    | asleep s member active wake dead =>
      refine .asleep s (touched.sessions ▸ member) active ?_ (touched.wakes ▸ dead)
      unfold Runtime.hasWake
      rw [touched.wakes]
      exact wake
    | unrestorable w inside lost => exact .unrestorable w (listed ▸ inside) (fun now => lost ((restorable w inside).mp now))
    | stray a member live ended =>
      refine .stray a (touched.attempts ▸ member) live ?_
      unfold Runtime.sessionActive
      rw [touched.sessions]
      exact ended
  | @clears x d cleared onward sound awake =>
    cases astray with
    | asleep s member active wake dead =>
      have other : s.sessionId ≠ x := by
        intro own
        rcases awake with unlaunched | ⟨w,present,same,live⟩
        · exact unlaunched (own ▸ wake)
        · exact dead w present (same.trans own.symm) live
      refine .asleep s ((cleared.shift.sessions s other).mpr member) active ((cleared.shift.hasWake_iff other).mpr wake) ?_
      intro w present own
      exact dead w ((cleared.shift.wakes w (own ▸ other)).mp present) own
    | unrestorable w inside lost =>
      have other : w.sessionId ≠ x := fun own => lost (sound w inside own)
      have later := (onward.keptListed w inside).resolve_left other
      exact .unrestorable w later (fun now => lost ((cleared.restorable_iff other (onward.listed w later).2.2).mp now))
    | stray a member live ended =>
      have other : a.sessionId ≠ x := fun own => ended (own ▸ cleared.active)
      exact .stray a ((cleared.shift.attempts a other).mpr member) live
        (fun active => ended ((cleared.shift.active_iff other).mp active))

theorem Pending.granted (pending : Pending db point) (audited : Store.Audited db.runtime)
    (orderly : ∀ x, Runtime.Orderly x db.runtime) (lists : Lists db.runtime point) (begun : point.begun)
    (step : Recovering db point next after) : after ≠ .raised := by
  intro raised
  cases step with
  | listing | orphan | turning | ending | unstarted | started | restored | sweeping | swept => cases raised
  | resting =>
    rw [raised] at begun
    exact begun
  | @orphanRefused x error rest listed n refused =>
    obtain ⟨active,unlaunched⟩ := pending.orphaned x List.mem_cons_self
    obtain ⟨next,ok⟩ := @Store.orphan_recovers db x error audited (orderly x) active unlaunched
    exact refused next ok
  | @restoreRefused w time error now rest n m refused =>
    have present := lists.present w List.mem_cons_self
    obtain ⟨next,ok⟩ := @Store.prepared_recovers db error time now w audited (orderly w.sessionId) present.1
      lists.fits.1 lists.fits.2 (pending.restorable w List.mem_cons_self)
    exact refused next ok

end Fate
end RecoverPoint

def HostAction.recovers : HostAction → Bool
  | .recoverStep _ => true
  | _ => false

namespace Host
open Table RecoverPoint

/-- The recovery has come to its end, and nothing is left of the wakes before it. -/
structure Recovered (s : Host) : Prop where
  returned : ∃ recovered uncertain, s.recovery = .returned recovered uncertain
  unwedged : s.world.store.runtime.Unwedged

/-- Only the recovery acts, while processes exit; it can terminate each one it finds. -/
def undisturbed (s : Host) : HostAction → Bool
  | .recoverStep _ => !s.recovery.unconfirmed
  | .exit _ _ => true
  | _ => false

def recoveryRank (s : Host) : Nat :=
  s.recovery.rank s.world.store.runtime.sessions.rows.length s.world.store.runtime.wakes.rows.length
    s.world.store.runtime.processes.rows.length

structure Sound (cfg : Settings) (s : Host) : Prop where
  regular : s.Regular
  posted : s.Posted cfg
  audited : Store.Audited s.world.store.runtime

inductive Hopeful (s : Host) : Prop
  | called (called : s.recovery = .called) (recoverable : s.world.store.Recoverable) : Hopeful s
  | begun (begun : s.recovery.begun) (lists : s.recovery.Lists s.world.store.runtime)
      (pending : s.recovery.Pending s.world.store) : Hopeful s

inductive Hopeless (s : Host) : Prop
  | called (called : s.recovery = .called) (lost : ¬ s.world.store.Recoverable) : Hopeless s
  | begun (begun : s.recovery.begun) (lists : s.recovery.Lists s.world.store.runtime)
      (astray : s.recovery.Astray s.world.store) : Hopeless s
  | raised (raised : s.recovery = .raised) : Hopeless s

section Step
variable {cfg : Settings} {s : Host} {action : HostAction}

theorem Sound.step (sound : s.Sound cfg) (action : HostAction) : (s.step cfg action).Sound cfg :=
  ⟨sound.regular.step action,sound.posted.step sound.regular action,step_audited sound.audited action⟩

theorem Sound.lone (sound : s.Sound cfg) : Lone s.world.store.runtime := by
  intro v row w row' live live' e named named'
  exact sound.posted.one_session sound.regular row row' named named'
    ((sound.regular.orderly v.sessionId).manned v row rfl live)
    ((sound.regular.orderly w.sessionId).manned w row' rfl live')

theorem recoverStep_called (called : s.recovery = .called) (input : Input) :
    s.step cfg (.recoverStep input) = {s with
      recovery := .orphans (s.world.store.runtime.orphanSessions.map WakeSession.sessionId)
        s.world.store.runtime.activeWakes 0} := by
  simp only [Host.step,called,access,World.perform]

theorem recoverStep_recovering (sound : s.Sound cfg) (lists : s.recovery.Lists s.world.store.runtime)
    (confirmed : s.recovery.unconfirmed = false) (input : Input) :
    Recovering s.world.store s.recovery (s.step cfg (.recoverStep input)).world.store
      (s.step cfg (.recoverStep input)).recovery :=
  recovering sound.regular.orderly lists confirmed

theorem lists_called {db : Runtime} :
    (RecoverPoint.orphans (db.orphanSessions.map WakeSession.sessionId) db.activeWakes 0).Lists db := by
  refine ⟨?_,?_,trivial⟩
  · intro w member
    obtain ⟨present,live,_⟩ := mem_select.mp ((List.mem_insertionSort _).mp member)
    exact ⟨present,live⟩
  · have rows : db.wakes.rows.Nodup := List.Nodup.of_map _ db.wakes.distinct
    exact (List.perm_insertionSort _ _).nodup_iff.mpr (rows.filter _)

theorem mem_orphans {db : Runtime} {x : String} (member : x ∈ db.orphanSessions.map WakeSession.sessionId) :
    db.sessionActive x ∧ ¬ db.hasWake x := by
  obtain ⟨s,inside,rfl⟩ := List.mem_map.mp member
  obtain ⟨present,active,none_⟩ := mem_select.mp ((List.mem_insertionSort _).mp inside)
  refine ⟨Runtime.sessionActive_iff.mpr ⟨s,present,rfl,active⟩,?_⟩
  rintro ⟨w,row,own⟩
  exact count_eq_zero.mp none_ w row own

theorem orphans_mem {db : Runtime} {s : WakeSession} (member : s ∈ db.sessions.rows) (active : s.state = .active)
    (unlaunched : ¬ db.hasWake s.sessionId) : s.sessionId ∈ db.orphanSessions.map WakeSession.sessionId := by
  apply List.mem_map_of_mem
  refine (List.mem_insertionSort _).mpr (mem_select.mpr ⟨member,active,?_⟩)
  exact count_eq_zero.mpr (fun w row own => unlaunched ⟨w,row,own⟩)

theorem mem_activeWakes {db : Runtime} (orderly : ∀ x, Runtime.Orderly x db) {w : WakeRuntime} (member : w ∈ db.wakes.rows)
    (live : w.state.live) : w ∈ db.activeWakes := by
  refine (List.mem_insertionSort _).mpr (mem_select.mpr ⟨member,live,?_⟩)
  obtain ⟨s,present,own,_⟩ := (orderly w.sessionId).named w member rfl
  have found : db.sessions.get w.sessionId = some s := get_eq_some.mpr ⟨present,own⟩
  simp [found]

theorem pending_called {db : Store} (orderly : ∀ x, Runtime.Orderly x db.runtime) (recoverable : db.Recoverable) :
    (RecoverPoint.orphans (db.runtime.orphanSessions.map WakeSession.sessionId) db.runtime.activeWakes 0).Pending db := by
  refine ⟨fun y member => mem_orphans member,?_,?_,?_,recoverable.working⟩
  · have sorted := List.perm_insertionSort (fun a b : WakeSession => a.issuedAt ≤ b.issuedAt)
      (db.runtime.sessions.select (fun r => r.state = .active ∧ db.runtime.wakes.count (fun w => w.sessionId = r.sessionId) = 0))
    refine (sorted.map WakeSession.sessionId).nodup_iff.mpr ?_
    exact db.runtime.sessions.distinct.sublist (List.Sublist.map _ List.filter_sublist)
  · intro w member
    obtain ⟨present,live⟩ := lists_called.present w member
    exact recoverable.restorable w present live
  · intro s member active
    by_cases launched : db.runtime.hasWake s.sessionId
    · obtain ⟨w,row,own,live⟩ := recoverable.woken s member active launched
      exact .inr ⟨w,mem_activeWakes orderly row live,own⟩
    · exact .inl (orphans_mem member active launched)

theorem astray_called {db : Store} (orderly : ∀ x, Runtime.Orderly x db.runtime) (lost : ¬ db.Recoverable) :
    (RecoverPoint.orphans (db.runtime.orphanSessions.map WakeSession.sessionId) db.runtime.activeWakes 0).Astray db := by
  by_contra sane
  refine lost ⟨?_,?_,?_⟩
  · intro s member active wake
    by_contra asleep
    push Not at asleep
    exact sane (.asleep s member active wake asleep)
  · intro w member live
    by_contra stuck
    exact sane (.unrestorable w (mem_activeWakes orderly member live) stuck)
  · intro a member live
    by_contra ended
    exact sane (.stray a member live ended)

theorem Hopeful.step (sound : s.Sound cfg) (hopeful : s.Hopeful) (quiet : s.undisturbed action) :
    (s.step cfg action).Hopeful := by
  cases action with
  | exit pid birthToken =>
    cases hopeful with
    | called called recoverable => exact .called called recoverable
    | begun begun lists pending => exact .begun begun lists pending
  | recoverStep input =>
    cases hopeful with
    | called called recoverable =>
      rw [recoverStep_called called]
      exact .begun trivial lists_called (pending_called sound.regular.orderly recoverable)
    | begun begun lists pending =>
      have taken := @recoverStep_recovering cfg s sound lists (by simpa [undisturbed] using quiet) input
      have granted := pending.granted sound.audited sound.regular.orderly lists begun taken
      have course := course sound.regular.orderly sound.lone lists begun taken granted
      exact .begun (taken.begun begun granted) (lists.further sound.regular.orderly sound.lone begun taken granted)
        (pending.further course)
  | _ => cases quiet

theorem Hopeless.step (sound : s.Sound cfg) (hopeless : s.Hopeless) (quiet : s.undisturbed action) :
    (s.step cfg action).Hopeless := by
  cases action with
  | exit pid birthToken =>
    cases hopeless with
    | called called lost => exact .called called lost
    | begun begun lists astray => exact .begun begun lists astray
    | raised raised => exact .raised raised
  | recoverStep input =>
    cases hopeless with
    | called called lost =>
      rw [recoverStep_called called]
      exact .begun trivial lists_called (astray_called sound.regular.orderly lost)
    | begun begun lists astray =>
      have taken := @recoverStep_recovering cfg s sound lists (by simpa [undisturbed] using quiet) input
      by_cases granted : (s.step cfg (.recoverStep input)).recovery = .raised
      · exact .raised granted
      · have course := course sound.regular.orderly sound.lone lists begun taken granted
        exact .begun (taken.begun begun granted) (lists.further sound.regular.orderly sound.lone begun taken granted)
          (astray.further course)
    | raised raised =>
      refine .raised ?_
      simp only [Host.step,raised,access,World.perform]
  | _ => cases quiet

/-! Every step comes closer to the end. -/

theorem recoverStep_sizes (input : Input) :
    (s.step cfg (.recoverStep input)).world.store.runtime.sessions.rows.length = s.world.store.runtime.sessions.rows.length ∧
      (s.step cfg (.recoverStep input)).world.store.runtime.wakes.rows.length = s.world.store.runtime.wakes.rows.length ∧
      (s.step cfg (.recoverStep input)).world.store.runtime.processes.rows.length =
        s.world.store.runtime.processes.rows.length := by
  have keys := step_keys cfg s (.recoverStep input)
  have none_ : s.inserts cfg (.recoverStep input) = none := @RecoverPoint.inserts input s.recovery
  rw [none_] at keys
  refine ⟨?_,?_,?_⟩
  · simpa using congrArg List.length (keys.sessions (by simp))
  · simpa using congrArg List.length (keys.wakes (by simp))
  · simpa using congrArg List.length (keys.processes (by simp))

theorem lists_of_fate (fate : s.Hopeful ∨ s.Hopeless) : s.recovery.Lists s.world.store.runtime := by
  have unlisted {point : RecoverPoint} (none_ : point = .called ∨ point = .raised) :
      point.Lists s.world.store.runtime := by
    rcases none_ with rfl | rfl
    · exact ⟨by simp [listed],List.nodup_nil,trivial⟩
    · exact ⟨by simp [listed],List.nodup_nil,trivial⟩
  rcases fate with (⟨called,_⟩ | ⟨_,lists,_⟩) | (⟨called,_⟩ | ⟨_,lists,_⟩ | ⟨raised⟩)
  · exact unlisted (.inl called)
  · exact lists
  · exact unlisted (.inl called)
  · exact lists
  · exact unlisted (.inr raised)

theorem step_rank (sound : s.Sound cfg) (fate : s.Hopeful ∨ s.Hopeless) (quiet : s.undisturbed action) :
    (s.step cfg action).recoveryRank ≤ s.recoveryRank - [action].countP HostAction.recovers := by
  cases action with
  | exit pid birthToken => exact le_rfl
  | recoverStep input =>
    obtain ⟨sessions,wakes,processes⟩ := @recoverStep_sizes cfg s input
    have taken := @recoverStep_recovering cfg s sound (lists_of_fate fate) (by simpa [undisturbed] using quiet) input
    unfold recoveryRank
    rw [sessions,wakes,processes]
    exact taken.closer
  | _ => cases quiet

end Step

theorem run_rank {cfg : Settings} {s : Host} {steps : List HostAction} (sound : s.Sound cfg)
    (fate : s.Hopeful ∨ s.Hopeless) (quiet : Along (step cfg) (fun s action => s.undisturbed action) s steps) :
    (run (step cfg) s steps).recoveryRank ≤ s.recoveryRank - steps.countP HostAction.recovers := by
  induction steps generalizing s with
  | nil => exact le_rfl
  | cons action rest ih =>
    obtain ⟨now,later⟩ := (along_cons (step cfg)).mp quiet
    have first := step_rank sound fate now
    have next := fate.imp (fun hopeful => hopeful.step sound now) (fun hopeless => hopeless.step sound now)
    have final := ih (sound.step action) next later
    rw [run_cons,← List.singleton_append,List.countP_append]
    omega

theorem Hopeful.recovered {cfg : Settings} {s : Host} (sound : s.Sound cfg) (hopeful : s.Hopeful)
    (ended : s.recoveryRank = 0) : s.Recovered := by
  unfold recoveryRank at ended
  cases hopeful with
  | called called => simp [called,rank] at ended
  | begun begun lists pending =>
    cases point : s.recovery with
    | idle | called | raised =>
      rw [point] at begun
      exact absurd begun id
    | orphans | wakes | preparing | sweeping => simp [point,rank] at ended
    | returned recovered uncertain =>
      rw [point] at pending
      have idle : ∀ x, ¬ s.world.store.runtime.sessionActive x := by
        intro x active
        obtain ⟨row,member,_,state⟩ := Runtime.sessionActive_iff.mp active
        rcases pending.complete row member state with inside | ⟨_,inside,_⟩ <;> cases inside
      refine ⟨⟨recovered,uncertain,point⟩,?_,?_,?_⟩
      · intro row member active
        exact idle row.sessionId (Runtime.sessionActive_iff.mpr ⟨row,member,rfl,active⟩)
      · intro a member live
        exact idle _ (pending.working a member live)
      · intro r member active
        exact idle _ ((sound.regular.orderly r.sessionId).backed r member rfl active)

theorem Hopeless.not_recovered {s : Host} (hopeless : s.Hopeless) : ¬ s.Recovered := by
  rintro ⟨⟨recovered,uncertain,point⟩,unwedged⟩
  cases hopeless with
  | called called => cases called.symm.trans point
  | raised raised => cases raised.symm.trans point
  | begun begun lists astray =>
    rw [point] at astray
    cases astray with
    | asleep row member active => exact unwedged.sessions row member active
    | unrestorable w inside => cases inside
    | stray a member live => exact unwedged.attempts a member live

/-- A recovery with enough steps clears up after a crash just if the crash has left it something
that it can clear up. -/
theorem recovered_iff (cfg : Settings) (actions steps : List HostAction) :
    let s := run (step cfg) initial (actions ++ [.crash,.recover])
    Along (step cfg) (fun s action => s.undisturbed action) s steps →
      s.recoveryRank ≤ steps.countP HostAction.recovers →
        ((run (step cfg) s steps).Recovered ↔ s.world.store.Recoverable) := by
  intro s quiet enough
  have sound : s.Sound cfg := @invariant_run Host HostAction (step cfg) (Sound cfg) (fun _ action sound => sound.step action)
    initial ⟨regular_initial,posted_initial cfg,audited_initial⟩ (actions ++ [.crash,.recover])
  have called : s.recovery = .called := by
    have ended : (run (step cfg) initial actions).pause.crashed.resting = true := by
      cases (run (step cfg) initial actions).pause <;> rfl
    simp only [s,run_append,run_cons,run_nil,step,stopped,List.isEmpty_nil,Bool.and_true,ended,RecoverPoint.resting,
      and_self,if_true]
  have keeps {fate : Host → Prop} (step_ : ∀ s action, s.Sound cfg → fate s → s.undisturbed action → fate (s.step cfg action))
      (initially : fate s) : (run (step cfg) s steps).Sound cfg ∧ fate (run (step cfg) s steps) :=
    @invariant_along _ _ (step cfg) _ (fun s => s.Sound cfg ∧ fate s)
      (fun s action both quiet => ⟨both.1.step action,step_ s action both.1 both.2 quiet⟩) s ⟨sound,initially⟩ steps quiet
  by_cases recoverable : s.world.store.Recoverable
  · have hopeful : s.Hopeful := .called called recoverable
    have ended := run_rank sound (.inl hopeful) quiet
    obtain ⟨sound',hopeful'⟩ := keeps (fun _ _ sound hopeful quiet => Hopeful.step sound hopeful quiet) hopeful
    exact iff_of_true (hopeful'.recovered sound' (by omega)) recoverable
  · have hopeless : s.Hopeless := .called called recoverable
    obtain ⟨_,hopeless'⟩ := keeps (fun _ _ sound hopeless quiet => Hopeless.step sound hopeless quiet) hopeless
    exact iff_of_false hopeless'.not_recovered recoverable

def recovers (n : Nat) : List HostAction := List.replicate n (.recoverStep (smooth "b"))

/-- The developer's wake runs to its end, up to the call of `finish_session`. -/
def finishing : List HostAction :=
  launching ++ List.replicate 4 (.wakeStep 0 (smooth "a")) ++ .exit 100 "birth"::List.replicate 5 (.wakeStep 0 (smooth "a"))

/-- Killed before its process is created, the wake is put back. -/
theorem recovered_iff_unstarted :
    (run (step smallOrganization) (run (step smallOrganization) initial (launching.dropLast ++ [.crash,.recover]))
        (recovers 10)).Recovered ↔
      (run (step smallOrganization) initial (launching.dropLast ++ [.crash,.recover])).world.store.Recoverable :=
  recovered_iff smallOrganization launching.dropLast (recovers 10) (by decide +kernel) (by decide +kernel)

/-- Killed between `finish_wake` and `finish_session`, it leaves a session that no recovery ends. -/
theorem finished_wake_wedged :
    let s := run (step smallOrganization) initial (finishing ++ [.crash,.recover])
    Along (step smallOrganization) (fun s action => s.undisturbed action) s (recovers 12) ∧
      s.recoveryRank ≤ (recovers 12).countP HostAction.recovers ∧
      ¬ (run (step smallOrganization) s (recovers 12)).Recovered := by
  refine ⟨by decide +kernel,by decide +kernel,?_⟩
  intro recovered
  have wedged : ∃ row ∈ (run (step smallOrganization) (run (step smallOrganization) initial (finishing ++ [.crash,.recover]))
      (recovers 12)).world.store.runtime.sessions.rows, row.state = .active := by decide +kernel
  obtain ⟨row,member,active⟩ := wedged
  exact recovered.unwedged.sessions row member active

end Host
end SjgControl

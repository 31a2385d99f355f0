import SjgControl.Host.Restart
import SjgControl.Host.Solvency

/-! What a recovery makes of the store that a crash leaves. It works off the orphaned sessions
and then the wakes in progress, one session at a time, and leaves the others as they are. -/
namespace SjgControl
open Relational Machine

namespace Store

/-- If the wake is taken for one without a process, nothing shows that it has gone further. -/
def Restorable (db : Store) (w : WakeRuntime) : Prop :=
  w.state = .prepared → db.runtime.processCount w.sessionId = 0 →
    db.runtime.workerCount w.sessionId = 0 ∧
      (∀ r ∈ db.runtime.reservations.rows, r.sessionId = w.sessionId → r.state = .active) ∧
      ∀ d ∈ w.deliveryId, d ≠ "" → (db.queue.deliveries.get d).map Delivery.state = some .leased

/-- An active session whose wake is on record has it in progress, every wake in progress that
seems unstarted is so, and no worker is at work for a session that has ended. -/
structure Recoverable (db : Store) : Prop where
  woken : ∀ s ∈ db.runtime.sessions.rows, s.state = .active → db.runtime.hasWake s.sessionId →
    ∃ w ∈ db.runtime.wakes.rows, w.sessionId = s.sessionId ∧ w.state.live
  restorable : ∀ w ∈ db.runtime.wakes.rows, w.state.live → db.Restorable w
  working : ∀ a ∈ db.runtime.attempts.rows, a.state.live → db.runtime.sessionActive a.sessionId

end Store

/-- Nothing is left that counts against another wake. -/
structure Runtime.Unwedged (db : Runtime) : Prop where
  sessions : ∀ s ∈ db.sessions.rows, s.state ≠ .active
  attempts : ∀ a ∈ db.attempts.rows, ¬ a.state.live
  reservations : ∀ r ∈ db.reservations.rows, r.state ≠ .active

namespace Store
open Table

/-- The session `x` has been ended, its workers with it; the delivery `d` may have moved. -/
structure Cleared (db next : Store) (x : String) (d : Option String) : Prop where
  shift : Runtime.Shift x db.runtime next.runtime
  active : db.runtime.sessionActive x
  ended : ¬ next.runtime.sessionActive x
  idle : ∀ a ∈ next.runtime.attempts.rows, a.state.live → a.sessionId ≠ x
  deliveries : ∀ e, d ≠ some e →
    (next.queue.deliveries.get e).map Delivery.state = (db.queue.deliveries.get e).map Delivery.state

/-- The same before the session is ended. -/
structure Touched (db next : Store) (d : Option String) : Prop where
  sessions : next.runtime.sessions = db.runtime.sessions
  wakes : next.runtime.wakes = db.runtime.wakes
  attempts : next.runtime.attempts = db.runtime.attempts
  reservations : next.runtime.reservations = db.runtime.reservations
  processes : ∀ x, next.runtime.processCount x = 0 ↔ db.runtime.processCount x = 0
  deliveries : ∀ e, d ≠ some e →
    (next.queue.deliveries.get e).map Delivery.state = (db.queue.deliveries.get e).map Delivery.state

section Operations
variable {db next : Store} {x error time : String} {now : Instant} {w : WakeRuntime}

theorem Touched.refl (db : Store) (d : Option String) : Touched db db d :=
  ⟨rfl,rfl,rfl,rfl,fun _ => Iff.rfl,fun _ _ => rfl⟩

theorem attempts_of_release {db middle : Runtime} (ok : db.releaseReservationFor x = .ok middle) :
    middle.attempts = db.attempts := by
  rcases Runtime.releaseReservationFor_ok ok with ⟨rfl,_⟩ | ⟨r,_,_,_,buckets,rfl⟩ <;> rfl

theorem state_setOne {queue : Queue} {d e : String} {f : Delivery → Delivery}
    {keeps : ∀ r, (f r).deliveryId = r.deliveryId} {route : RouteState} (other : d ≠ e) :
    ((queue.setDeliveries [d] f keeps route).deliveries.get e).map Delivery.state =
      (queue.deliveries.get e).map Delivery.state := by
  rw [Queue.get_setDeliveries,Option.map_map]
  cases found : queue.deliveries.get e with
  | none => rfl
  | some row =>
    have own : row.deliveryId = e := (get_eq_some.mp found).2
    have away : row.deliveryId ∉ [d] := by
      rw [own,List.mem_singleton]
      exact fun same => other same.symm
    simp only [Option.map_some,Function.comp,if_neg away]

theorem step_of_ok {op : Op} {body : Except StoreError (Unit × Store)} (applies : db.apply op = atomically db body)
    (ok : body = .ok ((),next)) : db.step op = next := by
  unfold step
  rw [applies,ok]
  rfl

theorem orphan_cleared (ok : db.recoverOrphanSession x none none error = .ok ((),next)) :
    Cleared db next x none ∧ ¬ db.runtime.hasWake x := by
  have shift := @step_shift x db (.recoverOrphanSession x none none error) rfl
  rw [step_of_ok rfl ok] at shift
  obtain ⟨⟨active,wakes,_,workers⟩,middle,released,_,queued,rfl⟩ := recoverOrphanSession_effect ok
  obtain ⟨_,rfl⟩ := queued.resolve_right (by rintro ⟨_,_,named,_⟩; cases named)
  refine ⟨⟨shift,active,Runtime.not_active_endSession (by simp) rfl,?_,fun _ _ => rfl⟩,?_⟩
  · intro a member _ own
    rw [attempts_of_release released] at member
    exact count_eq_zero.mp workers a member own
  · rintro ⟨w,member,own⟩
    exact count_eq_zero.mp wakes w member own

theorem prepared_cleared (found : db.runtime.wakes.get w.wakeId = some w)
    (ok : db.recoverPreparedWake w.wakeId time error now = .ok ((),next)) : Cleared db next w.sessionId w.deliveryId := by
  have shift := @step_shift w.sessionId db (.recoverPreparedWake w.wakeId time error now)
    (fun r there => congrArg WakeRuntime.sessionId (Option.some.inj (there.symm.trans found)))
  rw [step_of_ok rfl ok] at shift
  have deliveries : ∀ e, w.deliveryId ≠ some e →
      (next.queue.deliveries.get e).map Delivery.state = (db.queue.deliveries.get e).map Delivery.state := by
    intro e other
    rcases recoverPreparedWake_queue ok with same | ⟨d,time,⟨v,there,named⟩,retried⟩
    · rw [same]
    · cases Option.some.inj (there.symm.trans found)
      rw [(Queue.retryLeasedDelivery_effect retried).2]
      exact state_setOne (fun same => other (same ▸ named))
  obtain ⟨v,⟨there,_⟩,⟨active,_,workers⟩,middle,released,_,_,rfl⟩ := recoverPreparedWake_effect ok
  cases Option.some.inj (there.symm.trans found)
  refine ⟨shift,active,Runtime.not_active_endSession (by simp) rfl,?_,deliveries⟩
  intro a member _ own
  rw [attempts_of_release released] at member
  exact count_eq_zero.mp workers a member own

theorem forced_cleared (active : db.runtime.sessionActive x) :
    db.apply (.runtime (.forceTerminateSession x false now)) =
        ⟨.ok (),db.step (.runtime (.forceTerminateSession x false now))⟩ ∧
      Cleared db (db.step (.runtime (.forceTerminateSession x false now))) x none := by
  obtain ⟨next,forced,sessions,attempts⟩ : ∃ next, db.runtime.forceTerminateSession x false now = .ok ((),next) ∧
      next.sessions = db.runtime.endSession x .revoked ∧ next.attempts = db.runtime.failWorkers x now :=
    ⟨_,require_bind_ok.mpr ⟨active,rfl⟩,rfl,rfl⟩
  have applied : db.apply (.runtime (.forceTerminateSession x false now)) = ⟨.ok (),{db with runtime := next}⟩ := by
    simp only [apply,Runtime.apply,Runtime.body,forced,atomically,lift]
  have shift := @step_shift x db (.runtime (.forceTerminateSession x false now)) rfl
  unfold step at shift ⊢
  rw [applied] at shift ⊢
  refine ⟨rfl,shift,active,Runtime.not_active_endSession (by simp) sessions,?_,fun _ _ => rfl⟩
  intro a member live own
  change a ∈ next.attempts.rows at member
  rw [attempts] at member
  obtain ⟨old,_,⟨_,rfl⟩ | ⟨other,rfl⟩⟩ := mem_update_cases member
  · simp [AttemptState.live] at live
  · exact other ⟨own,live⟩

/-! When the two of them succeed. -/

theorem Audited.releasable (audited : Audited db.runtime) (orderly : Runtime.Orderly x db.runtime)
    (unspent : ∀ r ∈ db.runtime.reservations.rows, r.sessionId = x → r.state = .active) :
    ∃ middle, db.runtime.releaseReservationFor x = .ok middle := by
  obtain ⟨history,ledger⟩ := audited
  apply Runtime.releasable
  intro r member own
  obtain ⟨row,present,same⟩ := orderly.entered r member own
  have found : db.runtime.sessions.get x = some row := get_eq_some.mpr ⟨present,same⟩
  exact ⟨unspent r member own,row,found,ledger.covers member (unspent r member own) (own ▸ found)⟩

theorem orphan_recovers (audited : Audited db.runtime) (orderly : Runtime.Orderly x db.runtime)
    (active : db.runtime.sessionActive x) (unlaunched : ¬ db.runtime.hasWake x) :
    ∃ next, db.recoverOrphanSession x none none error = .ok ((),next) := by
  have unspent : ∀ r ∈ db.runtime.reservations.rows, r.sessionId = x → r.state = .active := by
    intro r member own
    by_contra spent
    rcases orderly.spent r member own spent with wake | inactive
    · exact unlaunched wake
    · exact inactive active
  obtain ⟨middle,released⟩ := audited.releasable orderly unspent
  refine ⟨_,require_bind_ok.mpr ⟨⟨active,?_,?_,?_⟩,bind_ok.mpr ⟨middle,released,rfl⟩⟩⟩
  · exact count_eq_zero.mpr (fun w member own => unlaunched ⟨w,member,own⟩)
  · exact count_eq_zero.mpr (fun p member own => unlaunched (orderly.recorded p member own))
  · exact count_eq_zero.mpr (fun a member own => unlaunched (orderly.attended a member own))

theorem prepared_recovers (audited : Audited db.runtime) (orderly : Runtime.Orderly w.sessionId db.runtime)
    (member : w ∈ db.runtime.wakes.rows) (prepared : w.state = .prepared)
    (free : db.runtime.processCount w.sessionId = 0) (restorable : db.Restorable w) :
    ∃ next, db.recoverPreparedWake w.wakeId time error now = .ok ((),next) := by
  obtain ⟨workers,unspent,leased⟩ := restorable prepared free
  obtain ⟨middle,released⟩ := audited.releasable orderly unspent
  have active := orderly.manned w member rfl (by rw [prepared]; exact .inl rfl)
  have found : (db.runtime.wakes.get w.wakeId).filter (fun r => r.state = .prepared) = some w := by
    have there : db.runtime.wakes.get w.wakeId = some w := get_key member
    simp [there,prepared]
  let runtime : Runtime := {middle with
    wakes := middle.wakes.update (fun r => r.wakeId = w.wakeId)
      (fun r => {r with
        state := .failed
        finishedAt := some now.isoText
        errorDetail := some error}) (fun _ => rfl)
    sessions := middle.endSession w.sessionId .revoked}
  simp only [recoverPreparedWake,fetch_bind_ok,require_bind_ok]
  cases named : w.deliveryId with
  | none =>
    refine ⟨{db with runtime},w,found,⟨active,free,workers⟩,bind_ok.mpr ⟨middle,released,?_⟩⟩
    simp only [named]
    rfl
  | some d =>
    by_cases empty : d = ""
    · refine ⟨{db with runtime},w,found,⟨active,free,workers⟩,bind_ok.mpr ⟨middle,released,?_⟩⟩
      simp only [named,if_pos empty]
      rfl
    · obtain ⟨queue,retried⟩ : ∃ queue, db.queue.retryLeasedDelivery d time error = .ok queue :=
        ⟨_,require_bind_ok.mpr ⟨leased d named empty,rfl⟩⟩
      refine ⟨{db with runtime,queue},w,found,⟨active,free,workers⟩,bind_ok.mpr ⟨middle,released,?_⟩⟩
      simp only [named,if_neg empty]
      exact bind_ok.mpr ⟨queue,retried,rfl⟩

theorem restorable_of_ok (orderly : Runtime.Orderly w.sessionId db.runtime)
    (found : db.runtime.wakes.get w.wakeId = some w)
    (ok : db.recoverPreparedWake w.wakeId time error now = .ok ((),next)) : db.Restorable w := by
  intro _ _
  obtain ⟨v,⟨there,_⟩,⟨_,_,workers⟩,middle,released,_,queued,_⟩ := recoverPreparedWake_effect ok
  cases Option.some.inj (there.symm.trans found)
  refine ⟨workers,?_,?_⟩
  · intro r member own
    rcases Runtime.releaseReservationFor_ok released with ⟨_,none_⟩ | ⟨q,present,same,active,_⟩
    · exact absurd own (none_ r member)
    · exact orderly.oneReservation r member q present own same ▸ active
  · intro d named some_
    rcases queued with ⟨none_,_⟩ | ⟨other,same,_,retried⟩
    · exact absurd (none_ d named) some_
    · cases Option.some.inj (same.symm.trans named)
      exact (Queue.retryLeasedDelivery_effect retried).1

end Operations
end Store

/-! The points of a recovery, and how far each is from the end. -/

def Terminate.rank (processes : Nat) : Terminate → Nat
  | .listing => 2 * processes + 2
  | .killing rows _ => 2 * rows.length + 1
  | .closing _ _ rows _ => 2 * rows.length + 2

namespace Sweep

def rank (processes : Nat) : Sweep → Nat
  | .terminating t => t.rank processes + 3
  | .reading _ => 3
  | .forcing _ => 2
  | .revoking | .quarantining => 1

/-- The sweep is of this wake, and has not found a process it could not terminate. -/
def of (w : WakeRuntime) : Sweep → Prop
  | .forcing v => v = w
  | .quarantining => False
  | _ => True

end Sweep

namespace RecoverPoint

def listed : RecoverPoint → List WakeRuntime
  | .orphans _ listed _ | .wakes listed _ _ => listed
  | .preparing w rest _ _ | .sweeping w _ rest _ _ => w::rest
  | _ => []

def orphaned : RecoverPoint → List String
  | .orphans sessions _ _ => sessions
  | _ => []

def begun : RecoverPoint → Prop
  | .idle | .called | .raised => False
  | _ => True

def unconfirmed : RecoverPoint → Bool
  | .sweeping _ (.reading false) _ _ _ => true
  | _ => false

def rank (sessions wakes processes : Nat) : RecoverPoint → Nat
  | .called => sessions + wakes * (2 * processes + 6) + 3
  | .orphans waiting listed _ => waiting.length + listed.length * (2 * processes + 6) + 2
  | .wakes listed _ _ => listed.length * (2 * processes + 6) + 1
  | .preparing _ rest _ _ => rest.length * (2 * processes + 6) + 2
  | .sweeping _ sweep rest _ _ => rest.length * (2 * processes + 6) + 1 + sweep.rank processes
  | _ => 0

/-- What the recovery has read of the wake at hand. -/
def Fits (db : Runtime) : RecoverPoint → Prop
  | .preparing w _ _ _ => w.state = .prepared ∧ db.processCount w.sessionId = 0
  | .sweeping w sweep _ _ _ => sweep.of w ∧ (w.state = .prepared → db.processCount w.sessionId ≠ 0)
  | _ => True

structure Lists (db : Runtime) (point : RecoverPoint) : Prop where
  present : ∀ w ∈ point.listed, w ∈ db.wakes.rows ∧ w.state.live
  apart : point.listed.Nodup
  fits : point.Fits db

/-- One access of a recovery, from the store and the point before to those after it. -/
inductive Recovering (db : Store) : RecoverPoint → Store → RecoverPoint → Prop
  | listing : Recovering db .called db
      (.orphans (db.runtime.orphanSessions.map WakeSession.sessionId) db.runtime.activeWakes 0)
  | orphan {x error : String} {rest : List String} {listed : List WakeRuntime} {n : Nat} {next : Store}
      (ok : db.recoverOrphanSession x none none error = .ok ((),next)) :
      Recovering db (.orphans (x::rest) listed n) next (.orphans rest listed (n + 1))
  | orphanRefused {x error : String} {rest : List String} {listed : List WakeRuntime} {n : Nat}
      (refused : ∀ next, db.recoverOrphanSession x none none error ≠ .ok ((),next)) :
      Recovering db (.orphans (x::rest) listed n) db .raised
  | turning {listed : List WakeRuntime} {n : Nat} : Recovering db (.orphans [] listed n) db (.wakes listed n 0)
  | ending {n m : Nat} : Recovering db (.wakes [] n m) db (.returned n m)
  | unstarted {w : WakeRuntime} {rest : List WakeRuntime} {n m : Nat} (prepared : w.state = .prepared)
      (free : db.runtime.processCount w.sessionId = 0) :
      Recovering db (.wakes (w::rest) n m) db (.preparing w rest n m)
  | started {w : WakeRuntime} {rest : List WakeRuntime} {n m : Nat}
      (started : w.state = .prepared → db.runtime.processCount w.sessionId ≠ 0) :
      Recovering db (.wakes (w::rest) n m) db (.sweeping w (.terminating .listing) rest n m)
  | restored {w : WakeRuntime} {time error : String} {now : Instant} {rest : List WakeRuntime} {n m : Nat} {next : Store}
      (ok : db.recoverPreparedWake w.wakeId time error now = .ok ((),next)) :
      Recovering db (.preparing w rest n m) next (.wakes rest (n + 1) m)
  | restoreRefused {w : WakeRuntime} {time error : String} {now : Instant} {rest : List WakeRuntime} {n m : Nat}
      (refused : ∀ next, db.recoverPreparedWake w.wakeId time error now ≠ .ok ((),next)) :
      Recovering db (.preparing w rest n m) db .raised
  | sweeping {w : WakeRuntime} {sweep after : Sweep} {rest : List WakeRuntime} {n m : Nat} {next : Store}
      (touched : Store.Touched db next w.deliveryId) (own : after.of w)
      (closer : after.rank db.runtime.processes.rows.length < sweep.rank db.runtime.processes.rows.length) :
      Recovering db (.sweeping w sweep rest n m) next (.sweeping w after rest n m)
  | swept {w : WakeRuntime} {rest : List WakeRuntime} {n m : Nat} {next : Store}
      (cleared : Store.Cleared db next w.sessionId none) :
      Recovering db (.sweeping w .revoking rest n m) next (.wakes rest (n + 1) m)
  | resting {point : RecoverPoint} (rests : point.resting = true) : Recovering db point db point

end RecoverPoint

section Access
variable {w : World} {input : Input} {P : Type}
open SjgControl.Runtime Table RecoverPoint

theorem touched_finishProcess {db : Store} {key : String} {state : ProcessState} {now : Instant} {d : Option String} :
    Store.Touched db (db.step (.runtime (.finishProcess key state none now))) d := by
  change Store.Touched db {db with runtime := (atomically db.runtime (db.runtime.finishProcess key state none now)).state} d
  rcases atomically_cases db.runtime (db.runtime.finishProcess key state none now) with same | ⟨value,ok⟩
  · rw [same]
    exact .refl db d
  · generalize (atomically db.runtime (db.runtime.finishProcess key state none now)).state = next at ok ⊢
    obtain ⟨_,_,rfl⟩ := Runtime.finishProcess_effect ok
    refine ⟨rfl,rfl,rfl,rfl,?_,fun _ _ => rfl⟩
    intro x
    refine not_iff_not.mp ?_
    rw [← Ne,← Ne,processCount_ne_zero,processCount_ne_zero]
    constructor
    · rintro ⟨p,member,own⟩
      obtain ⟨old,present,⟨_,rfl⟩ | ⟨_,rfl⟩⟩ := mem_update_cases member
      · exact ⟨old,present,own⟩
      · exact ⟨_,present,own⟩
    · rintro ⟨p,member,own⟩
      refine ⟨_,List.mem_map_of_mem member,?_⟩
      split
      next => exact own
      next => exact own

theorem touched_force {db : Store} {d error : String} :
    Store.Touched db (db.step (.queue (.forceDeliveryUncertain d error))) (some d) := by
  refine ⟨rfl,rfl,rfl,rfl,fun _ => Iff.rfl,?_⟩
  intro e other
  change (((atomically db.queue (db.queue.forceDeliveryUncertain d error)).state.deliveries.get e).map _) = _
  rcases atomically_cases db.queue (db.queue.forceDeliveryUncertain d error) with same | ⟨value,ok⟩
  · rw [same]
  · generalize (atomically db.queue (db.queue.forceDeliveryUncertain d error)).state = next at ok ⊢
    rw [(Queue.forceDeliveryUncertain_effect ok).2]
    exact Store.state_setOne (fun same => other (congrArg some same))

theorem length_orphanSessions (db : Runtime) : db.orphanSessions.length ≤ db.sessions.rows.length := by
  unfold orphanSessions
  rw [List.length_insertionSort]
  exact List.length_filter_le _ _

theorem length_activeWakes (db : Runtime) : db.activeWakes.length ≤ db.wakes.rows.length := by
  unfold activeWakes
  rw [List.length_insertionSort]
  exact List.length_filter_le _ _

theorem length_activeProcesses (db : Runtime) (x : String) : (db.activeProcesses x).length ≤ db.processes.rows.length := by
  unfold activeProcesses
  rw [List.length_insertionSort]
  exact List.length_filter_le _ _

theorem recovering {point : RecoverPoint} (orderly : ∀ x, Orderly x w.store.runtime)
    (lists : point.Lists w.store.runtime) (confirmed : point.unconfirmed = false) :
    Recovering w.store point (w.perform (point.access input)).1.store (w.perform (point.access input)).2 := by
  cases point with
  | idle | returned | raised => exact .resting rfl
  | called => exact .listing
  | orphans sessions listed n =>
    cases sessions with
    | nil => exact .turning
    | cons x rest =>
      simp only [access,World.perform,Store.step,Store.apply]
      cases recovered : w.store.recoverOrphanSession x none none "supervisor stopped before wake preparation" with
      | error e =>
        have refused : ∀ next, w.store.recoverOrphanSession x none none "supervisor stopped before wake preparation" ≠
            .ok ((),next) := by
          intro next ok
          rw [recovered] at ok
          cases ok
        exact .orphanRefused refused
      | ok both => exact .orphan recovered
  | wakes listed n m =>
    cases listed with
    | nil => exact .ending
    | cons wake rest =>
      simp only [access,World.perform]
      split
      next both => exact .unstarted both.1 both.2
      next none_ => exact .started (fun prepared free => none_ ⟨prepared,free⟩)
  | preparing wake rest n m =>
    simp only [access,World.perform,Store.step,Store.apply]
    cases recovered : w.store.recoverPreparedWake wake.wakeId input.retryTime "supervisor stopped before provider start"
        input.now with
    | error e =>
      have refused : ∀ next, w.store.recoverPreparedWake wake.wakeId input.retryTime "supervisor stopped before provider start"
          input.now ≠ .ok ((),next) := by
        intro next ok
        rw [recovered] at ok
        cases ok
      exact .restoreRefused refused
    | ok both => exact .restored recovered
  | sweeping wake sweep rest n m =>
    have present := lists.present wake List.mem_cons_self
    obtain ⟨own,_⟩ := lists.fits
    simp only [RecoverPoint.access,Sweep.access]
    cases sweep with
    | terminating t =>
      cases t with
      | listing =>
        have bound := length_activeProcesses w.store.runtime wake.sessionId
        refine .sweeping (.refl _ _) trivial ?_
        simp only [Sweep.rank,Terminate.rank]
        omega
      | killing rows complete =>
        cases rows with
        | nil => exact .sweeping (.refl _ _) trivial (by simp [Sweep.rank,Terminate.rank])
        | cons row rows =>
          refine .sweeping (.refl _ _) trivial ?_
          simp only [Sweep.rank,Terminate.rank,List.length_cons]
          omega
      | closing row terminated rows complete =>
        refine .sweeping touched_finishProcess trivial ?_
        simp only [Sweep.rank,Terminate.rank]
        omega
    | reading terminated =>
      cases terminated with
      | false => cases confirmed
      | true =>
        simp only [World.perform]
        split
        next none_ => exact absurd rfl (first_none.mp none_ wake present.1)
        next v found =>
          obtain ⟨member,same⟩ := first_some found
          have equal := (orderly wake.sessionId).oneWake v member wake present.1 same rfl
          exact .sweeping (.refl _ _) equal (by simp [Sweep.rank])
    | forcing v =>
      cases own
      simp only
      split
      next => exact .sweeping (.refl _ _) trivial (by simp [Sweep.rank])
      next d named =>
        have target : wake.deliveryId = some d := (Option.filter_eq_some_iff.mp named).1
        refine .sweeping (target ▸ touched_force) trivial (by simp [Sweep.rank])
    | revoking =>
      have active := (orderly wake.sessionId).manned wake present.1 rfl present.2
      obtain ⟨ok,cleared⟩ := @Store.forced_cleared w.store wake.sessionId input.now active
      simp only [World.perform,ok]
      exact .swept cleared
    | quarantining => exact absurd own id

theorem RecoverPoint.Recovering.begun {db next : Store} {point after : RecoverPoint}
    (step : Recovering db point next after) (begun : point.begun) (granted : after ≠ .raised) : after.begun := by
  cases step with
  | listing => exact absurd begun id
  | orphanRefused | restoreRefused => exact absurd rfl granted
  | resting => exact begun
  | _ => trivial

theorem RecoverPoint.Recovering.closer {db next : Store} {point after : RecoverPoint}
    (step : Recovering db point next after) :
    after.rank db.runtime.sessions.rows.length db.runtime.wakes.rows.length db.runtime.processes.rows.length ≤
      point.rank db.runtime.sessions.rows.length db.runtime.wakes.rows.length db.runtime.processes.rows.length - 1 := by
  cases step with
  | listing =>
    have first := length_orphanSessions db.runtime
    have second := Nat.mul_le_mul_right (2 * db.runtime.processes.rows.length + 6) (length_activeWakes db.runtime)
    simp only [rank,List.length_map]
    omega
  | resting rests =>
    cases point with
    | idle | returned | raised => exact Nat.zero_le _
    | _ => cases rests
  | sweeping touched own closer =>
    simp only [rank]
    omega
  | unstarted | started | restored | swept =>
    simp only [rank,Sweep.rank,Terminate.rank,List.length_cons,Nat.add_mul]
    omega
  | orphan | orphanRefused | turning | ending | restoreRefused =>
    simp only [rank,List.length_cons,List.length_nil]
    omega

end Access

end SjgControl

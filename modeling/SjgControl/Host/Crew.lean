import SjgControl.Host.Thread
import SjgControl.Workers.Attempt

/-! The three views of `WorkerSupervisor.run`: one call over a host of files, the thread of the
controller that steps from one access to the next, and the phases of a workforce. What the call and
the thread do to the store is what the thread of one attempt does in a workforce. -/
namespace SjgControl
open Relational Machine Hoare

namespace WorkforceAction

def own (attempt : String) : WorkforceAction → Prop
  | .store (.runtime (.reserveWorker attemptId _ _ _ _ _ _)) => attemptId = attempt
  | .store _ => False
  | .start attemptId => attemptId = attempt
  | .succeed attemptId _ _ => attemptId = attempt
  | .fail attemptId _ => attemptId = attempt

end WorkforceAction

namespace Workforce
variable {s : Workforce} {attempt : String} {before : WorkerPhase} {db : Store}

/-- The attempt's own steps lead from `s` to the store, with the attempt at the phase. -/
def Brings (s : Workforce) (attempt : String) (phase : WorkerPhase) (db : Store) : Prop :=
  ∃ actions, (∀ a ∈ actions, a.own attempt) ∧ (run step s actions).phase attempt = some phase ∧
    (run step s actions).store = db

theorem Brings.onward (brings : s.Brings attempt before db) {a : WorkforceAction} (own : a.own attempt)
    {phase : WorkerPhase} {next : Store}
    (steps : ∀ t : Workforce, t.phase attempt = some before → t.store = db →
      (t.step a).phase attempt = some phase ∧ (t.step a).store = next) : s.Brings attempt phase next := by
  obtain ⟨actions,mine,at_,same⟩ := brings
  obtain ⟨phase_,store⟩ := steps _ at_ same
  refine ⟨actions ++ [a],?_,?_,?_⟩
  · intro b member
    rcases List.mem_append.mp member with earlier | last
    · exact mine b earlier
    · exact List.mem_singleton.mp last ▸ own
  · rwa [run_append]
  · rwa [run_append]

theorem Brings.started (brings : s.Brings attempt .reserved db) :
    s.Brings attempt .started {db with runtime := db.runtime.setAttempt attempt .running none none} := by
  refine @Brings.onward s attempt .reserved db brings (.start attempt) rfl _ _ (fun t at_ same => ?_)
  subst same
  simp only [step,if_pos at_,write,enter,if_pos]
  exact ⟨trivial,trivial⟩

theorem Brings.succeeded (brings : s.Brings attempt .started db) (finishedAt artifact : String) :
    s.Brings attempt .ended
      {db with runtime := db.runtime.setAttempt attempt .succeeded (some finishedAt) (some artifact)} := by
  refine @Brings.onward s attempt .started db brings (.succeed attempt finishedAt artifact) rfl _ _ (fun t at_ same => ?_)
  subst same
  simp only [step,if_pos at_,write,enter,if_pos]
  exact ⟨trivial,trivial⟩

theorem Brings.failed (brings : s.Brings attempt before db) (open_ : before ≠ .ended) (finishedAt : String) :
    s.Brings attempt .ended {db with runtime := db.runtime.setAttempt attempt .failed (some finishedAt) none} := by
  refine @Brings.onward s attempt before db brings (.fail attempt finishedAt) rfl _ _ (fun t at_ same => ?_)
  subst same
  have enabled : t.phase attempt = some .reserved ∨ t.phase attempt = some .started := by
    cases before with
    | reserved => exact .inl at_
    | started => exact .inr at_
    | ended => exact absurd rfl open_
  simp only [step,if_pos enabled,write,enter,if_pos]
  exact ⟨trivial,trivial⟩

end Workforce

namespace WorkerSupervisor
open Workers

variable {F : Type} {w : WorkerSupervisor} {lib : Library} {host : WorkerHost F} {order : WorkOrder}
  {input : WorkerInput} {attempt : String}

theorem reserve_brings {s : Workforce} {store : Store} (reserved : w.reserve order input s.store = .ok (attempt,store)) :
    attempt = input.attemptId ∧ s.Brings attempt .reserved store := by
  obtain ⟨booked,ok,equal⟩ := bind_ok.mp reserved
  cases pure_ok.mp equal
  cases outcome : s.store.runtime.reserveWorker input.attemptId order.session.sessionId order.workerType
      order.role.maxWorkersPerWake order.role.maxWorkersConcurrent w.policy.globalMaxAgents input.reservedAt with
  | error e =>
    rw [outcome] at ok
    cases ok
  | ok pair =>
    rw [outcome] at ok
    cases ok
    obtain ⟨value,next⟩ := booked
    obtain ⟨rfl,_⟩ := Runtime.reserveWorker_live outcome
    have applied : s.store.apply (.runtime (.reserveWorker input.attemptId order.session.sessionId order.workerType
        order.role.maxWorkersPerWake order.role.maxWorkersConcurrent w.policy.globalMaxAgents input.reservedAt)) =
        ⟨.ok (),{s.store with runtime := next}⟩ := by
      simp only [Store.apply,Runtime.apply,Runtime.body,outcome]
      rfl
    refine ⟨rfl,[.store (.runtime (.reserveWorker input.attemptId order.session.sessionId order.workerType
      order.role.maxWorkersPerWake order.role.maxWorkersConcurrent w.policy.globalMaxAgents input.reservedAt))],?_,?_,?_⟩
    · exact List.forall_mem_singleton.mpr rfl
    · simp only [run_cons,run_nil,Workforce.step,Workforce.begin,applied]
      exact if_pos rfl
    · simp only [run_cons,run_nil,Workforce.step,Store.step,applied]

/-- The guarded body ends its attempt or raises while it is open. -/
theorem work_brings {s : Workforce} : Triple (InStore (s.Brings attempt .reserved)) (w.work lib host order input attempt)
    (fun _ => InStore (s.Brings attempt .ended))
    (fun _ => InStore (fun db => ∃ phase, phase ≠ .ended ∧ s.Brings attempt phase db)) :=
  work_store (fun _ brings => ⟨.reserved,nofun,brings⟩) (fun _ brings => ⟨.started,nofun,brings⟩)
    (fun _ brings => brings.started) (fun _ artifact brings => brings.succeeded input.finishedAt artifact)

/-- Whatever becomes of a call of `run`, the store is as the attempt's own steps in a workforce leave it. -/
theorem run_brings (w : WorkerSupervisor) (lib : Library) (host : WorkerHost F) (session : Session)
    (arguments : Fields) (input : WorkerInput) (s : Workforce) (files : F) :
    ∃ actions : List WorkforceAction, (∀ a ∈ actions, a.own input.attemptId) ∧
      (Machine.run Workforce.step s actions).store =
        (endState (w.run lib host session arguments input ⟨s.store,files⟩)).store := by
  unfold run
  cases w.accept lib s.store session arguments input with
  | error e => exact ⟨[],List.forall_mem_nil _,rfl⟩
  | ok order =>
    cases reserved : w.reserve order input s.store with
    | error e => exact ⟨[],List.forall_mem_nil _,by simp only [reserved]; rfl⟩
    | ok pair =>
      obtain ⟨attempt,store⟩ := pair
      obtain ⟨rfl,brings⟩ := reserve_brings reserved
      have ends {phase : WorkerPhase} {db : Store} (brings : s.Brings input.attemptId phase db) :
          ∃ actions : List WorkforceAction, (∀ a ∈ actions, a.own input.attemptId) ∧
            (Machine.run Workforce.step s actions).store = db := by
        obtain ⟨actions,own,_,same⟩ := brings
        exact ⟨actions,own,same⟩
      simp only [reserved,conclude_eq]
      cases prepare host files with
      | error e files => exact ends brings
      | ok _ files =>
        have body := @work_brings F w lib host order input input.attemptId s ⟨store,files⟩ brings
        dsimp only
        unfold guarded
        dsimp only
        generalize w.work lib host order input input.attemptId ⟨store,files⟩ = result at body ⊢
        cases result with
        | ok value next => exact ends body
        | error e next =>
          obtain ⟨phase,open_,brings⟩ := body
          by_cases caught : e.caught
          · simp only [endState,if_pos caught]
            exact ends (brings.failed open_ input.finishedAt)
          · simp only [endState,if_neg caught]
            exact ends brings

end WorkerSupervisor

/-- What an access of a worker's thread is in a workforce. -/
def Access.works {P : Type} : Access P → List WorkforceAction
  | .call op _ => [.store op]
  | .setAttempt attempt .running _ _ _ => [.start attempt]
  | .setAttempt attempt .succeeded (some finishedAt) (some artifact) _ => [.succeed attempt finishedAt artifact]
  | .setAttempt attempt .failed (some finishedAt) _ _ => [.fail attempt finishedAt]
  | _ => []

namespace WorkerThread
variable {cfg : Settings} {t : WorkerThread} {input : Input} {w : World} {s : Workforce}

/-- The phase of the thread's attempt is that of its point. -/
def Stands (t : WorkerThread) (s : Workforce) : Prop :=
  match t.point with
  | .requested | .ended => True
  | .reserved attempt | .staged attempt => s.phase attempt = some .reserved
  | .failed attempt => s.phase attempt = some .reserved ∨ s.phase attempt = some .started
  | .begun attempt | .spawned attempt _ | .running attempt _ | .overdue attempt _ _ | .lapsed attempt _ _
  | .exited attempt _ _ | .reported attempt _ _ | .failing attempt _ _ | .reaping attempt _ _
  | .reaped attempt _ _ | .doubting attempt | .importing attempt => s.phase attempt = some .started

theorem leave_stands {attempt : String} (started : s.phase attempt = some .started) (fault : Fault) :
    (t.leave attempt fault).Stands s := by
  cases fault with
  | hostProcess text => exact started
  | timeout text => exact started
  | other text => exact .inr started

/-- Each access of the thread is at most one step of a workforce, and the thread still stands there. -/
theorem access_works (same : s.store = w.store) (stands : t.Stands s) :
    (run Workforce.step s (t.access cfg input).works).store = (w.perform (t.access cfg input)).1.store ∧
      (w.perform (t.access cfg input)).2.Stands (run Workforce.step s (t.access cfg input).works) := by
  obtain ⟨session,workerType,point⟩ := t
  cases point with
  | requested =>
    simp only [access]
    split
    next => exact ⟨same,trivial⟩
    next =>
      simp only [Access.works,World.perform,run_cons,run_nil,Workforce.step,Workforce.begin,same]
      refine ⟨trivial,?_⟩
      cases (w.store.apply (.runtime (.reserveWorker input.uuid session.sessionId workerType
          (cfg.maxWorkersPerWake session.role) (cfg.maxWorkersConcurrent session.role) cfg.globalMaxAgents
          input.now))).result with
      | ok value => exact if_pos rfl
      | error e => trivial
  | reserved attempt =>
    simp only [access]
    split
    next => exact ⟨same,trivial⟩
    next => exact ⟨same,stands⟩
  | staged attempt =>
    have at_ : s.phase attempt = some .reserved := stands
    simp only [access]
    split
    next => exact ⟨same,.inl at_⟩
    next =>
      simp only [Access.works,World.perform,run_cons,run_nil,Workforce.step,if_pos at_,Workforce.write,same]
      exact ⟨trivial,if_pos rfl⟩
  | begun attempt =>
    simp only [access]
    split
    next => exact ⟨same,leave_stands stands _⟩
    next =>
      simp only [Access.works,World.perform,run_nil]
      split <;> exact ⟨same,stands⟩
  | spawned attempt h =>
    simp only [access]
    split
    next => exact ⟨same,stands⟩
    next =>
      simp only [Access.works,World.perform,run_cons,run_nil,Workforce.step,recordProcess,Workforce.begin,same]
      refine ⟨trivial,?_⟩
      split <;> exact stands
  | running attempt h =>
    simp only [access]
    split
    next => exact ⟨same,stands⟩
    next => exact ⟨same,leave_stands stands _⟩
    next =>
      refine ⟨same,?_⟩
      simp only [World.perform]
      split <;> exact stands
  | overdue attempt h _ | reaping attempt h _ =>
    refine ⟨same,?_⟩
    simp only [access,World.perform]
    split <;> exact stands
  | lapsed attempt h _ | exited attempt h _ =>
    simp only [access,Access.works,World.perform,run_cons,run_nil,Workforce.step,finishProcess,Workforce.begin,same]
    refine ⟨trivial,?_⟩
    split
    next => exact stands
    next => exact .inr stands
  | reported attempt h result =>
    simp only [access,Access.works,World.perform,run_nil]
    refine ⟨?_,?_⟩
    · split <;> exact same
    · by_cases failed : result.tokens = none ∨ result.returncode ≠ 0
      · rw [if_pos failed]
        split <;> exact .inr stands
      · rw [if_neg failed]
        split <;> exact stands
  | failing attempt h fault => exact ⟨same,stands⟩
  | reaped attempt h fault =>
    simp only [access,Access.works,World.perform,run_cons,run_nil,Workforce.step,finishProcess,Workforce.begin,same]
    exact ⟨trivial,leave_stands stands fault⟩
  | doubting attempt => exact ⟨same,.inr stands⟩
  | importing attempt =>
    have at_ : s.phase attempt = some .started := stands
    simp only [access]
    split
    next => exact ⟨same,.inr at_⟩
    next =>
      simp only [Access.works,World.perform,run_cons,run_nil,Workforce.step,if_pos at_,Workforce.write,same]
      exact ⟨trivial,trivial⟩
  | failed attempt =>
    have at_ : s.phase attempt = some .reserved ∨ s.phase attempt = some .started := stands
    simp only [access,Access.works,World.perform,run_cons,run_nil,Workforce.step,if_pos at_,Workforce.write,same]
    exact ⟨trivial,trivial⟩
  | ended => exact ⟨same,trivial⟩

def advance (cfg : Settings) (s : World × WorkerThread) (input : Input) : World × WorkerThread :=
  s.1.perform (s.2.access cfg input)

/-- However the thread goes on, the store is as a workforce leaves it in which the thread stands. -/
theorem run_works (cfg : Settings) (w : World) (t : WorkerThread) (s : Workforce) (same : s.store = w.store)
    (stands : t.Stands s) (inputs : List Input) :
    ∃ actions, (run Workforce.step s actions).store = (run (advance cfg) (w,t) inputs).1.store ∧
      (run (advance cfg) (w,t) inputs).2.Stands (run Workforce.step s actions) :=
  @run_matched _ _ (advance cfg) Workforce WorkforceAction Workforce.step
    (fun at_ s => s.store = at_.1.store ∧ at_.2.Stands s)
    (fun _ _ _ both => ⟨_,access_works both.1 both.2⟩) (w,t) s ⟨same,stands⟩ inputs

end WorkerThread
end SjgControl

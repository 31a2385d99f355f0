import SjgControl.Host.System
import SjgControl.Lease

/-! The work the host has put aside. A step of the host performs at most one operation of
the store that can touch the queue, so what the operations keep of the queue the host keeps. -/
namespace SjgControl
open Relational Machine

/-- The store operation of an access, if it may write the queue or opens a session. -/
def Access.operation {P : Type} : Access P → Option Op
  | .create sessionId wakeId orgId role policyDigest aliases now ttl cap _ =>
    some (.runtime (.createSession sessionId wakeId orgId role policyDigest aliases now ttl cap))
  | .call op _ => some op
  | _ => none

def Store.after (db : Store) : Option Op → Store
  | some op => db.step op
  | none => db

theorem World.perform_queue {P : Type} (w : World) (a : Access P) :
    (w.perform a).1.store.queue = (w.store.after a.operation).queue := by
  cases a with
  | create => rfl
  | call op next => rfl
  | spawn p stay next =>
    simp only [perform,Access.operation,Store.after]
    split <;> rfl
  | report pid birthToken sessionId tokens next =>
    simp only [perform,Access.operation,Store.after]
    split <;> rfl
  | _ => rfl

namespace Host
variable (cfg : Settings)

def operation (s : Host) : HostAction → Option Op
  | .store op => if op.outside then some op else none
  | .wakeStep i input => s.wakes[i]?.bind (fun t => (t.access cfg input).operation)
  | .workerStep i input => s.workers[i]?.bind (fun t => (t.access cfg input).operation)
  | .pauseStep input => (s.pause.access input).operation
  | .resume now =>
    if s.recovery.resting ∧ s.pause.resting then
      some (.journal (.setSupervisorValue "paused" (.bool false) now))
    else none
  | .recoverStep input => (s.recovery.access input).operation
  | _ => none

theorem step_queue (s : Host) (action : HostAction) :
    (s.step cfg action).world.store.queue = (s.world.store.after (s.operation cfg action)).queue := by
  cases action with
  | store op =>
    simp only [step,operation]
    split <;> rfl
  | wakeStep i input =>
    cases found : s.wakes[i]? with
    | none => simp only [step,operation,found,Option.bind_none,Store.after]
    | some t =>
      simp only [step,operation,found,Option.bind_some]
      exact s.world.perform_queue _
  | workerStep i input =>
    cases found : s.workers[i]? with
    | none => simp only [step,operation,found,Option.bind_none,Store.after]
    | some t =>
      simp only [step,operation,found,Option.bind_some]
      exact s.world.perform_queue _
  | pauseStep input => exact s.world.perform_queue _
  | recoverStep input => exact s.world.perform_queue _
  | resume now =>
    simp only [step,operation]
    split <;> rfl
  | wake | recover =>
    simp only [step,operation,Store.after]
    split <;> rfl
  | request wake workerType =>
    simp only [step,operation,Store.after]
    split <;> rfl
  | pause =>
    simp only [step,operation,Store.after]
    split <;> rfl
  | exit | crash => rfl

end Host

def Op.holds : Op → Bool
  | .queue (.finishDelivery _ _ outcome _ _ _) => outcome = .budgetHold
  | _ => false

namespace Queue

def unheld (db : Queue) : Prop := ∀ d, ∀ row ∈ db.deliveries.get d, row.state ≠ .budgetHold

end Queue

namespace Store

theorem step_unheld {db : Store} {op : Op} (unheld : db.queue.unheld) (other : op.holds = false) :
    (db.step op).queue.unheld := by
  intro d next found held
  obtain ⟨ceiling,same⟩ := op.ceiling_exists
  have life := db.step_life same d
  have turn : db.turn op d ≠ .hold := by
    intro hold
    cases op with
    | queue q =>
      cases q with
      | finishDelivery delivery owner outcome error eligibleAt now =>
        simp only [turn,Queue.turn] at hold
        have free : outcome ≠ .budgetHold := by simpa [Op.holds] using other
        split at hold <;> simp [free] at hold
      | leaseDelivery owner instant seconds attempts =>
        simp only [turn,Queue.turn,Queue.leaseTurn] at hold
        split at hold
        next => split at hold <;> contradiction
        next => contradiction
      | _ => contradiction
    | _ => contradiction
  rw [Option.mem_def.mp found] at life
  generalize db.turn op d = turned at life turn
  generalize before : db.queue.deliveries.get d = old at life
  cases life with
  | born r queued => simp [queued] at held
  | moved r next move =>
    have free := unheld d r before
    generalize r.state = s at move free
    generalize next.state = t at move held
    generalize r.attempt = a at move
    generalize next.attempt = b at move
    cases move with
    | stay => exact free held
    | finish s a outcome _ _ kept => cases outcome <;> simp [DeliveryOutcome.targets] at held kept
    | hold => exact turn rfl
    | _ => contradiction

theorem after_unheld {db : Store} {op : Option Op} (unheld : db.queue.unheld)
    (other : ∀ o ∈ op, o.holds = false) : (db.after op).queue.unheld := by
  cases op with
  | none => exact unheld
  | some op => exact step_unheld unheld (other op rfl)

end Store

namespace Host

theorem unheld_run {cfg : Settings} {actions : List HostAction}
    (funded : Along (step cfg) (fun s action => ∀ op ∈ s.operation cfg action, op.holds = false) initial actions) :
    (run (step cfg) initial actions).world.store.queue.unheld := by
  refine @invariant_along _ _ (step cfg) _ (fun s => s.world.store.queue.unheld) ?_ _ ?_ _ funded
  · intro s action unheld other
    rw [step_queue]
    exact Store.after_unheld unheld other
  · intro d row found
    cases found

/-- Whatever the host has done, the work it has put aside comes back by calls of
`lease_delivery` alone just when it is not on hold; a run that puts nothing on hold
strands nothing. -/
theorem parked_work_returns (cfg : Settings) (actions : List HostAction) (c : LeaseCall) (valid : c.valid) :
    (∀ d, ∀ row ∈ (run (step cfg) initial actions).world.store.queue.deliveries.get d, row.Waiting c →
      ((run (step cfg) initial actions).world.store.queue.leasedLater c d ↔
        row.state ≠ .budgetHold ∧ (c.now.later c.leaseSeconds).isSome)) ∧
    (Along (step cfg) (fun s action => ∀ op ∈ s.operation cfg action, op.holds = false) initial actions →
      (c.now.later c.leaseSeconds).isSome →
      ∀ d, ∀ row ∈ (run (step cfg) initial actions).world.store.queue.deliveries.get d, row.Waiting c →
        (run (step cfg) initial actions).world.store.queue.leasedLater c d) := by
  refine ⟨fun d row found waiting => Queue.leasedLater_iff valid found waiting,?_⟩
  intro funded representable d row found waiting
  have free : row.state ≠ .budgetHold := unheld_run funded d row found
  exact (Queue.leasedLater_iff valid found waiting).mpr ⟨free,representable⟩

/-! One day of a small organization: an event for one role, and an operator who wakes another. -/

def smallOrganization : Settings where
  orgId := "org"
  policyDigest := "digest"
  owner := "supervisor"
  globalMaxAgents := 4
  sessionTtlSeconds := 3600
  organizationDailyTokenBudget := 100
  wakeSocketDirectory := "/run/sjg"
  repositories := fun _ => ["product"]
  dailyTokenBudget := fun _ => 100
  roleTokenReservations := fun _ => 60
  maxWorkersPerWake := fun _ => 2
  maxWorkersConcurrent := fun _ => 2

def midnight : Instant := ⟨0,Instant.zero_bounded⟩

/-- A step at which nothing fails; `uuid` is what the step draws if it draws an identifier. -/
def smooth (uuid : String) : Input :=
  ⟨midnight,uuid,"wake-" ++ uuid,none,100,100,"birth",7,true,0,"output","",false,""⟩

/-- A tick publishes an event, routes it to the developer and enqueues it. -/
def enqueued : List HostAction :=
  [.store (.queue (.checkpoint "product-issues" "")),
    .store (.queue (.beginSnapshot "snapshot" "product-issues" midnight)),
    .store (.queue (.stageObservation "snapshot" "event" "product-issues" "1" "v1" "" .null)),
    .store (.queue (.finishSnapshot "snapshot" true 1 none (some "next") none none none midnight)),
    .store (.queue (.finishEventRouting "event" (some "dev"))),
    .store (.queue (.enqueueDelivery "delivery" "dev" ["event"] "key" none midnight))]

/-- A manual wake holds a reservation when the tick leases the delivery and wakes the developer. -/
def overspent : List HostAction :=
  .wake "po" none "operator"::
    [.wakeStep 0 (smooth "a"),.wakeStep 0 (smooth "a"),.wakeStep 0 (smooth "a")] ++ enqueued ++
    [.store (.queue (.leaseDelivery "supervisor" midnight 300 3)),
      .wake "dev" (some "delivery") "routed GitHub events",
      .wakeStep 1 (smooth "b"),.wakeStep 1 (smooth "b"),.wakeStep 1 (smooth "b"),.wakeStep 1 (smooth "b"),
      .wakeStep 1 (smooth "b")]

/-- The calls a tick makes two days later. -/
def twoDaysLater : LeaseCall := ⟨"supervisor",⟨2 * 86400 * 1000000,by decide⟩,300,3⟩

theorem parked_work_returns_enqueued :
    (run (step smallOrganization) initial enqueued).world.store.queue.leasedLater twoDaysLater "delivery" := by
  have waiting : ∃ row ∈ (run (step smallOrganization) initial enqueued).world.store.queue.deliveries.get "delivery",
      row.Waiting twoDaysLater := by
    have found : ∃ row ∈ (run (step smallOrganization) initial enqueued).world.store.queue.deliveries.get "delivery",
        row.state = .queued ∧ row.eligibleAt ≤ twoDaysLater.now.isoText ∧ row.attempt < 3 := by decide
    obtain ⟨row,found,queued,eligible,below⟩ := found
    exact ⟨row,found,.inl (.inl queued),eligible,below⟩
  obtain ⟨row,found,waiting⟩ := waiting
  have valid : twoDaysLater.valid := ⟨by decide,by decide,by decide⟩
  exact (parked_work_returns smallOrganization enqueued twoDaysLater valid).2 (by decide) (by decide)
    "delivery" row found waiting

/-- The delivery goes on hold until tomorrow, and stays there for good. -/
theorem held_work_stranded :
    twoDaysLater.valid ∧
      (∃ row ∈ (run (step smallOrganization) initial overspent).world.store.queue.deliveries.get "delivery",
        row.Waiting twoDaysLater) ∧
      ¬ (run (step smallOrganization) initial overspent).world.store.queue.leasedLater twoDaysLater "delivery" := by
  have found : ∃ row ∈ (run (step smallOrganization) initial overspent).world.store.queue.deliveries.get "delivery",
      row.state = .budgetHold ∧ row.eligibleAt ≤ twoDaysLater.now.isoText ∧ row.attempt < 3 := by decide
  obtain ⟨row,found,held,eligible,below⟩ := found
  have valid : twoDaysLater.valid := ⟨by decide,by decide,by decide⟩
  have waiting : row.Waiting twoDaysLater := ⟨.inr held,eligible,below⟩
  exact ⟨valid,⟨row,found,waiting⟩,Queue.not_leasedLater_of_held found waiting held valid⟩

end Host
end SjgControl

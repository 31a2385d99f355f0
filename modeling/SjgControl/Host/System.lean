import SjgControl.Host.Thread

/-! The host: the shared world, any number of wakes and workers in their threads, a pause,
and a recovery that runs once the threads are gone. -/
namespace SjgControl
open Relational Machine

structure Host where
  world : World
  wakes : List WakeThread
  workers : List WorkerThread
  pause : PausePoint
  recovery : RecoverPoint

inductive HostAction where
  | store (op : Op)
  | exit (pid : Int) (birthToken : String)
  | wake (role : String) (delivery : Option String) (reason : String)
  | request (wake : Nat) (workerType : String)
  | wakeStep (wake : Nat) (input : Input)
  | workerStep (worker : Nat) (input : Input)
  | pause
  | pauseStep (input : Input)
  | resume (now : Instant)
  | crash
  | recover
  | recoverStep (input : Input)

namespace WakePoint

def session : WakePoint → Option Session
  | .entered | .paused _ | .unpaused | .declining _ | .returned _ _ | .raised _ => none
  | .sessioned session | .refused session _ | .overdrawn session _ _ | .withdrawing session _
  | .orphaned session _ | .unlaunched session _ => some session
  | .budgeted g | .prepared g | .spawned g _ | .recorded g _ | .marked g _ | .running g _ | .overdue g _ _
  | .lapsed g _ _ | .exited g _ _ | .collected g _ | .totalled g _ _ | .settled g _ _ | .closed g _ _
  | .delivered g _ _ | .failing g _ _ | .reaping g _ _ | .reaped g _ _ | .terminating g _ _
  | .doubting g _ _ | .abandoning g _ _ | .burying g _ _ | .expelling g _ => some g.session

def grant : WakePoint → Option Grant
  | .prepared g | .spawned g _ | .recorded g _ | .marked g _ | .running g _ | .overdue g _ _
  | .lapsed g _ _ | .exited g _ _ | .collected g _ | .totalled g _ _ | .settled g _ _ | .closed g _ _
  | .delivered g _ _ | .failing g _ _ | .reaping g _ _ | .reaped g _ _ | .terminating g _ _
  | .doubting g _ _ | .abandoning g _ _ | .burying g _ _ | .expelling g _ => some g
  | _ => none

end WakePoint

/-- Operations that other code calls: the queue's, the journals' and the broker's. The pause
flag has its own two writers. -/
def Op.outside : Op → Bool
  | .queue _ => true
  | .journal (.setSupervisorValue name _ _) => name ≠ "paused"
  | .journal _ => true
  | .reserveRequest _ _ _ _ _ _ => true
  | _ => false

def PausePoint.resting : PausePoint → Bool
  | .idle | .returned _ _ | .raised => true
  | _ => false

/-- A pause that has returned is history; a crash ends one under way. -/
def PausePoint.crashed : PausePoint → PausePoint
  | .returned terminated uncertain => .returned terminated uncertain
  | _ => .idle

def RecoverPoint.resting : RecoverPoint → Bool
  | .idle | .returned _ _ | .raised => true
  | _ => false

namespace Host
variable (cfg : Settings)

def initial : Host := ⟨.empty,[],[],.idle,.idle⟩

/-- A tick starts a wake with a delivery it has leased, for the delivery's role. -/
def assigned (s : Host) (role : String) (delivery : Option String) : Prop :=
  ∀ d ∈ delivery, d ≠ "" ∧ ∃ row ∈ s.world.store.queue.deliveries.get d, row.role = role

instance (s : Host) (role : String) (delivery : Option String) : Decidable (s.assigned role delivery) :=
  inferInstanceAs (Decidable (∀ d ∈ delivery, d ≠ "" ∧
    ∃ row ∈ s.world.store.queue.deliveries.get d, row.role = role))

/-- The session whose socket the wake's server listens on: it starts after `prepare_wake`. -/
def served (s : Host) (wake : Nat) : Option Session :=
  (s.wakes[wake]?.bind (fun t => t.point.session)).filter (fun session =>
    s.world.store.runtime.wakes.count (fun r => r.sessionId = session.sessionId) ≠ 0)

def stopped (s : Host) : Bool := s.wakes.isEmpty && s.workers.isEmpty && s.pause.resting

/-- An action that is not enabled leaves the host as it is. -/
def step (s : Host) : HostAction → Host
  | .store op =>
    if op.outside then {s with world := {s.world with store := s.world.store.step op}} else s
  | .exit pid birthToken => {s with world := s.world.setStatus pid birthToken .gone}
  | .wake role delivery reason =>
    if s.recovery.resting ∧ s.assigned role delivery then
      {s with wakes := s.wakes ++ [⟨role,delivery,reason,.entered⟩]}
    else s
  | .request wake workerType =>
    match s.served wake with
    | some session => {s with workers := s.workers ++ [⟨session,workerType,.requested⟩]}
    | none => s
  | .wakeStep i input =>
    match s.wakes[i]? with
    | some t =>
      let (world,t) := s.world.perform (t.access cfg input)
      {s with world,wakes := s.wakes.set i t}
    | none => s
  | .workerStep i input =>
    match s.workers[i]? with
    | some t =>
      let (world,t) := s.world.perform (t.access cfg input)
      {s with world,workers := s.workers.set i t}
    | none => s
  | .pause =>
    match s.pause,s.recovery.resting with
    | .idle,true => {s with pause := .called}
    | _,_ => s
  | .pauseStep input =>
    let (world,pause) := s.world.perform (s.pause.access input)
    {s with world,pause}
  | .resume now =>
    if s.recovery.resting ∧ s.pause.resting then
      {s with
        world := {s.world with
          store := s.world.store.step (.journal (.setSupervisorValue "paused" (.bool false) now))}
        pause := .idle}
    else s
  -- the processes stay, the launcher's memory goes
  | .crash => ⟨{s.world with usage := fun _ => 0,uncertainUsage := fun _ => false},[],[],s.pause.crashed,.idle⟩
  | .recover => if s.stopped ∧ s.recovery.resting then {s with recovery := .called} else s
  | .recoverStep input =>
    let (world,recovery) := s.world.perform (s.recovery.access input)
    {s with world,recovery}

end Host
end SjgControl

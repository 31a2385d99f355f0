import SjgControl.Host.World

/-! The threads of the host, one program point for each statement that touches the world:
`Supervisor._run_wake` with the launcher's `_run` inside it, `WorkerSupervisor.run` with
`run_worker`, and `_terminate_wake` as `pause` and `recover` call it. -/
namespace SjgControl
open Relational

structure Settings where
  orgId : String
  policyDigest : String
  owner : String
  globalMaxAgents : Int
  sessionTtlSeconds : Int
  organizationDailyTokenBudget : Int
  wakeSocketDirectory : String
  repositories : String → List String
  dailyTokenBudget : String → Int
  roleTokenReservations : String → Int
  maxWorkersPerWake : String → Int
  maxWorkersConcurrent : String → Int

/-- An exception from outside the store. The launcher tells its own apart. -/
inductive Fault where
  | hostProcess (text : String)
  | timeout (text : String)
  | other (text : String)

def Fault.text : Fault → String
  | .hostProcess text => text
  | .timeout text => text
  | .other text => text

/-- What a thread meets at one point besides the world: the clock, identifiers it draws, an
exception, the process that `Popen` returns, and what that process leaves behind. -/
structure Input where
  now : Instant
  uuid : String
  wakeUuid : String
  fault : Option Fault
  pid : Int
  pgid : Int
  birthToken : String
  tokens : Nat
  legible : Bool
  returncode : Int
  outputSha256 : String
  stderr : String
  reused : Bool
  text : String

namespace Input

/-- In the last minute of the year 9999 the source raises an `OverflowError` here. -/
def retryTime (input : Input) : String := ((input.now.later 60).getD input.now).isoText

/-- On the last day of the year 9999 the source raises an `OverflowError` here. -/
def tomorrow (input : Input) : String :=
  ((input.now.later 86400).getD input.now).dateText ++ "T00:00:00Z"

/-- `str(exc)`; `text` stands for the messages of the database itself. -/
def message (input : Input) : StoreError → String
  | .stateError message => message
  | _ => input.text

end Input

structure ProcessResult where
  error : String
  returncode : Int
  tokens : Option Nat
  outputSha256 : String

structure Handle where
  key : String
  pid : Int
  pgid : Int
  birthToken : String

def parentKey (sessionId : String) : String := "parent:" ++ sessionId

def workerKey (attemptId : String) : String := "worker:" ++ attemptId

def Input.handle (input : Input) (key : String) : Handle := ⟨key,input.pid,input.pgid,input.birthToken⟩

def Input.provider (input : Input) (key sessionId : String) (kind : ProcessKind) : Provider :=
  ⟨key,sessionId,kind,input.pid,input.pgid,input.birthToken,input.tokens,.running,false⟩

def Input.result (input : Input) (tokens : Nat) : ProcessResult :=
  ⟨input.stderr,input.returncode,if input.legible then some tokens else none,input.outputSha256⟩

/-- The end of `communicate`: what the process that is gone used, if it says so. -/
def World.collect (w : World) (h : Handle) (input : Input) : Option ProcessResult :=
  (w.providers.find? (fun q => q.is h.pid h.birthToken ∧ q.status = .gone)).map
    (fun q => input.result q.tokens)

def recordProcess (h : Handle) (sessionId : String) (attempt : Option String) (kind : ProcessKind)
    (input : Input) : Op :=
  .runtime (.recordProcess h.key sessionId attempt kind h.pid h.pgid h.birthToken input.now)

def finishProcess (h : Handle) (state : ProcessState) (exitCode : Option Int) (input : Input) : Op :=
  .runtime (.finishProcess h.key state exitCode input.now)

/-! `terminate_session`: list the session's running records, then signal and close each. -/

inductive Terminate where
  | listing
  | killing (rows : List ProcessRuntime) (complete : Bool)
  | closing (row : ProcessRuntime) (terminated : Bool) (rows : List ProcessRuntime) (complete : Bool)

namespace Terminate

/-- `more` goes on with the loop, `done` leaves it with the answer. -/
def access {P : Type} (t : Terminate) (sessionId : String) (input : Input) (more : Terminate → P)
    (done : Bool → P) : Access P :=
  match t with
  | .listing => .observe (fun w => more (.killing (w.store.runtime.activeProcesses sessionId) true))
  | .killing [] complete => .pass (done complete)
  | .killing (row::rows) complete =>
    .signal row.pid row.birthToken input.reused (fun terminated => more (.closing row terminated rows complete))
  | .closing row terminated rows complete =>
    .call (.runtime (.finishProcess row.processKey (if terminated then .terminated else .uncertain) none input.now))
      (fun _ => more (.killing rows (complete && terminated)))

end Terminate

/-! `_terminate_wake`. -/

inductive Sweep where
  | terminating (t : Terminate)
  | reading (terminated : Bool)
  | forcing (wake : WakeRuntime)
  | revoking
  | quarantining

namespace Sweep

def access {P : Type} (s : Sweep) (sessionId reason : String) (input : Input) (more : Sweep → P)
    (done : Except StoreError Bool → P) : Access P :=
  match s with
  | .terminating t => t.access sessionId input (fun t => more (.terminating t)) (fun done => more (.reading done))
  | .reading terminated => .observe (fun w =>
    match w.store.runtime.wakes.first (fun r => r.sessionId = sessionId) with
    | none => done (.ok terminated)
    | some wake => if terminated then more (.forcing wake) else more .quarantining)
  | .forcing wake =>
    match wake.deliveryId.filter (· ≠ "") with
    | none => .pass (more .revoking)
    | some delivery => .call (.queue (.forceDeliveryUncertain delivery reason)) (fun _ => more .revoking)
  | .revoking => .call (.runtime (.forceTerminateSession sessionId false input.now))
      (fun result => done (result.map (fun _ => true)))
  | .quarantining => .quarantine sessionId input.now (done (.ok false))

end Sweep

/-! `Supervisor._run_wake`. -/

structure Grant where
  session : Session
  reservation : String

inductive WakePoint where
  | entered
  | paused (delivery : String)
  | unpaused
  | sessioned (session : Session)
  | refused (session : Session) (message : String)
  | overdrawn (session : Session) (delivery message : String)
  | budgeted (g : Grant)
  | prepared (g : Grant)
  | spawned (g : Grant) (h : Handle)
  | recorded (g : Grant) (h : Handle)
  | marked (g : Grant) (h : Handle)
  | running (g : Grant) (h : Handle)
  | overdue (g : Grant) (h : Handle) (terminated : Bool)
  | lapsed (g : Grant) (h : Handle) (terminated : Bool)
  | exited (g : Grant) (h : Handle) (result : ProcessResult)
  | collected (g : Grant) (result : ProcessResult)
  | totalled (g : Grant) (result : ProcessResult) (tokens : Nat)
  | settled (g : Grant) (result : ProcessResult) (tokens : Nat)
  | closed (g : Grant) (result : ProcessResult) (tokens : Nat)
  | delivered (g : Grant) (result : ProcessResult) (tokens : Nat)
  | failing (g : Grant) (h : Handle) (error : String)
  | reaping (g : Grant) (h : Handle) (error : String)
  | reaped (g : Grant) (h : Handle) (error : String)
  | terminating (g : Grant) (t : Terminate) (error : String)
  | doubting (g : Grant) (terminated : Bool) (error : String)
  | abandoning (g : Grant) (terminated : Bool) (error : String)
  | burying (g : Grant) (terminated : Bool) (error : String)
  | expelling (g : Grant) (error : String)
  | withdrawing (session : Session) (error : String)
  | orphaned (session : Session) (error : String)
  | unlaunched (session : Session) (error : String)
  | declining (error : String)
  | returned (status : String) (tokens : Option Nat)
  | raised (error : String)

structure WakeThread where
  role : String
  delivery : Option String
  reason : String
  point : WakePoint

namespace WakeThread
variable (cfg : Settings) (t : WakeThread) (input : Input)

/-- `w-{wake_id.replace('-', '')[:24]}.sock` in the socket directory. -/
def socketPath (wakeId : String) : String :=
  cfg.wakeSocketDirectory ++ "/w-" ++ String.ofList ((wakeId.toList.filter (· ≠ '-')).take 24) ++ ".sock"

def budgetHold (message : String) : Prop := "budget hold".toList <:+: message.toList

instance (message : String) : Decidable (budgetHold message) :=
  inferInstanceAs (Decidable ("budget hold".toList <:+: message.toList))

def at_ (point : WakePoint) : WakeThread := {t with point}

/-- Where an exception goes that is raised before the provider process exists. -/
def unstarted (session : Session) (error : String) : WakeThread := t.at_ (.withdrawing session error)

/-- Where an exception goes once it exists. -/
def ambiguous (g : Grant) (error : String) : WakeThread := t.at_ (.terminating g .listing error)

def proceed (next : WakePoint) (handler : String → WakeThread) : Except StoreError Unit → WakeThread
  | .ok _ => t.at_ next
  | .error e => handler (input.message e)

def finishDelivery (delivery : String) (outcome : DeliveryOutcome) (error eligibleAt : Option String) : Op :=
  .queue (.finishDelivery delivery cfg.owner outcome error eligibleAt input.now)

def access : Access WakeThread :=
  match t.point with
  | .entered => .observe (fun w =>
    if w.paused then
      match t.delivery with
      | some delivery => t.at_ (.paused delivery)
      | none => t.at_ (.returned "paused" none)
    else t.at_ .unpaused)
  | .paused delivery =>
    .call (finishDelivery cfg input delivery .retry (some "supervisor is paused") (some input.retryTime))
      (t.proceed input (.returned "paused" none) (fun error => t.at_ (.declining error)))
  | .unpaused =>
    .create input.uuid input.wakeUuid cfg.orgId t.role cfg.policyDigest (cfg.repositories t.role) input.now
      cfg.sessionTtlSeconds cfg.globalMaxAgents (fun
        | .ok session => t.at_ (.sessioned session)
        | .error e => t.at_ (.declining (input.message e)))
  | .sessioned session =>
    .call (.runtime (.reserveBudget input.uuid session.sessionId input.now.dateText (cfg.roleTokenReservations t.role)
        [("org",cfg.orgId,cfg.organizationDailyTokenBudget),("role",t.role,cfg.dailyTokenBudget t.role)] input.now))
      (fun
        | .ok _ => t.at_ (.budgeted ⟨session,input.uuid⟩)
        | .error (.stateError message) => t.at_ (.refused session message)
        | .error e => t.unstarted session (input.message e))
  | .refused session message =>
    .call (.runtime (.revokeSession session.sessionId)) (fun
      | .ok _ =>
        match t.delivery with
        | some delivery =>
          if budgetHold message then t.at_ (.overdrawn session delivery message)
          else t.unstarted session message
        | none => t.unstarted session message
      | .error e => t.unstarted session (input.message e))
  | .overdrawn session delivery message =>
    .call (finishDelivery cfg input delivery .budgetHold (some message) (some input.tomorrow))
      (t.proceed input (.returned "budget_hold" none) (t.unstarted session))
  | .budgeted g =>
    .call (.prepareWake g.session t.delivery g.reservation (socketPath cfg g.session.wakeId) t.reason input.now)
      (t.proceed input (.prepared g) (t.unstarted g.session))
  | .prepared g =>
    match input.fault with
    | some fault => .pass (t.unstarted g.session fault.text)
    | none => .spawn (input.provider (parentKey g.session.sessionId) g.session.sessionId .parent) t
        (t.at_ (.spawned g (input.handle (parentKey g.session.sessionId))))
  | .spawned g h =>
    match input.fault with
    | some fault => .pass (t.at_ (.failing g h fault.text))
    | none => .call (recordProcess h g.session.sessionId none .parent input)
        (t.proceed input (.recorded g h) (fun error => t.at_ (.failing g h error)))
  | .recorded g h =>
    .call (.runtime (.markWakeRunning g.session.wakeId))
      (t.proceed input (.marked g h) (fun error => t.at_ (.failing g h error)))
  | .marked g h =>
    match t.delivery with
    | none => .pass (t.at_ (.running g h))
    | some delivery => .call (.queue (.startDelivery delivery cfg.owner input.now.isoText))
        (t.proceed input (.running g h) (fun error => t.at_ (.failing g h error)))
  | .running g h =>
    match input.fault with
    | some (.timeout _) =>
      .signal h.pid h.birthToken input.reused (fun terminated => t.at_ (.overdue g h terminated))
    | some fault => .pass (t.ambiguous g fault.text)
    | none => .observe (fun w =>
      match w.collect h input with
      | some result => t.at_ (.exited g h result)
      | none => t)
  | .overdue g h terminated => .observe (fun w =>
    if w.gone h.pid h.birthToken then t.at_ (.lapsed g h terminated) else t)
  | .lapsed g h terminated =>
    .call (finishProcess h (if terminated then .terminated else .uncertain) (some input.returncode) input)
      (fun
        | .ok _ => t.ambiguous g "provider process exceeded its commissioned timeout"
        | .error e => t.ambiguous g (input.message e))
  | .exited g h result =>
    .call (finishProcess h .exited (some result.returncode) input)
      (t.proceed input (.collected g result) (t.ambiguous g))
  | .collected g result =>
    match input.fault with
    | some fault => .pass (t.ambiguous g fault.text)
    | none => .take g.session.sessionId (fun workers =>
      match result.tokens,workers with
      | some own,some others => t.at_ (.totalled g result (own + others))
      | _,_ => t.ambiguous g "provider returned no trustworthy token usage")
  | .totalled g result tokens =>
    .call (.runtime (.settleBudget g.reservation tokens))
      (t.proceed input (.settled g result tokens) (t.ambiguous g))
  | .settled g result tokens =>
    .call (.runtime (if result.returncode ≠ 0 then
        .finishWake g.session.wakeId .failed (some result.outputSha256)
          (some (if result.error ≠ "" then result.error else "provider returned failure")) input.now
        else .finishWake g.session.wakeId .succeeded (some result.outputSha256) none input.now))
      (t.proceed input (.closed g result tokens) (t.ambiguous g))
  | .closed g result tokens =>
    match t.delivery with
    | none => .pass (t.at_ (.delivered g result tokens))
    | some delivery =>
      .call (if result.returncode ≠ 0 then
          finishDelivery cfg input delivery .uncertain (some "provider returned failure after start") none
        else finishDelivery cfg input delivery .succeeded none none)
        (t.proceed input (.delivered g result tokens) (t.ambiguous g))
  | .delivered g result tokens =>
    .call (.runtime (.finishSession g.session.sessionId))
      (t.proceed input (.returned (if result.returncode ≠ 0 then "uncertain" else "succeeded") (some tokens))
        (t.ambiguous g))
  | .failing g h error => .signal h.pid h.birthToken false (fun _ => t.at_ (.reaping g h error))
  | .reaping g h error => .observe (fun w =>
    if w.gone h.pid h.birthToken then t.at_ (.reaped g h error) else t)
  | .reaped g h error =>
    .call (finishProcess h .terminated (some input.returncode) input) (fun _ => t.ambiguous g error)
  | .terminating g stage error =>
    stage.access g.session.sessionId input (fun stage => t.at_ (.terminating g stage error))
      (fun terminated => t.at_ (.doubting g terminated error))
  | .doubting g terminated error =>
    .call (.runtime (.markBudgetUncertain g.reservation)) (fun _ => t.at_ (.abandoning g terminated error))
  | .abandoning g terminated error =>
    match t.delivery with
    | none => .pass (t.at_ (.burying g terminated error))
    | some delivery => .call (.queue (.forceDeliveryUncertain delivery error))
        (fun _ => t.at_ (.burying g terminated error))
  | .burying g terminated error =>
    .call (.runtime (.finishWake g.session.wakeId .uncertain none (some error) input.now)) (fun _ =>
      if terminated then t.at_ (.expelling g error) else t.at_ (.returned "uncertain" none))
  | .expelling g _ =>
    .call (.runtime (.forceTerminateSession g.session.sessionId false input.now))
      (fun _ => t.at_ (.returned "uncertain" none))
  | .withdrawing session error => .observe (fun w =>
    match w.store.runtime.wakes.first (fun r => r.sessionId = session.sessionId) with
    | none => t.at_ (.orphaned session error)
    | some _ => t.at_ (.unlaunched session error))
  | .orphaned session error =>
    .call (.recoverOrphanSession session.sessionId t.delivery (t.delivery.map (fun _ => input.retryTime)) error)
      (t.proceed input (.returned "retry" none) (fun error => t.at_ (.raised error)))
  | .unlaunched session error =>
    .call (.recoverPreparedWake session.wakeId input.retryTime error input.now)
      (t.proceed input (.returned "retry" none) (fun error => t.at_ (.raised error)))
  | .declining error =>
    match t.delivery with
    | none => .pass (t.at_ (.returned "retry" none))
    | some delivery => .call (finishDelivery cfg input delivery .retry (some error) (some input.retryTime))
        (fun _ => t.at_ (.returned "retry" none))
  | .returned _ _ => .pass t
  | .raised _ => .pass t

end WakeThread

/-! `WorkerSupervisor.run`, on the thread that serves the wake's socket. -/

inductive WorkerPoint where
  | requested
  | reserved (attempt : String)
  | staged (attempt : String)
  | begun (attempt : String)
  | spawned (attempt : String) (h : Handle)
  | running (attempt : String) (h : Handle)
  | overdue (attempt : String) (h : Handle) (terminated : Bool)
  | lapsed (attempt : String) (h : Handle) (terminated : Bool)
  | exited (attempt : String) (h : Handle) (result : ProcessResult)
  | reported (attempt : String) (h : Handle) (result : ProcessResult)
  | failing (attempt : String) (h : Handle) (fault : Fault)
  | reaping (attempt : String) (h : Handle) (fault : Fault)
  | reaped (attempt : String) (h : Handle) (fault : Fault)
  | doubting (attempt : String)
  | importing (attempt : String)
  | failed (attempt : String)
  | ended

structure WorkerThread where
  session : Session
  workerType : String
  point : WorkerPoint

namespace WorkerThread
variable (cfg : Settings) (t : WorkerThread) (input : Input)

def at_ (point : WorkerPoint) : WorkerThread := {t with point}

/-- `run_worker` marks the session's usage uncertain for the launcher's own exceptions and
for timeouts. Any other passes it by. -/
def leave (attempt : String) : Fault → WorkerThread
  | .hostProcess _ => t.at_ (.doubting attempt)
  | .timeout _ => t.at_ (.doubting attempt)
  | .other _ => t.at_ (.failed attempt)

def access : Access WorkerThread :=
  match t.point with
  | .requested =>
    match input.fault with
    | some _ => .pass (t.at_ .ended)
    | none =>
      .call (.runtime (.reserveWorker input.uuid t.session.sessionId t.workerType
          (cfg.maxWorkersPerWake t.session.role) (cfg.maxWorkersConcurrent t.session.role)
          cfg.globalMaxAgents input.now)) (fun
        | .ok _ => t.at_ (.reserved input.uuid)
        | .error _ => t.at_ .ended)
  | .reserved attempt =>
    -- the workspace and the scratch directory come before the `try`
    match input.fault with
    | some _ => .pass (t.at_ .ended)
    | none => .pass (t.at_ (.staged attempt))
  | .staged attempt =>
    match input.fault with
    | some _ => .pass (t.at_ (.failed attempt))
    | none => .setAttempt attempt .running none none (t.at_ (.begun attempt))
  | .begun attempt =>
    match input.fault with
    | some fault => .pass (t.leave attempt fault)
    | none => .spawn (input.provider (workerKey attempt) t.session.sessionId .worker) t
        (t.at_ (.spawned attempt (input.handle (workerKey attempt))))
  | .spawned attempt h =>
    match input.fault with
    | some fault => .pass (t.at_ (.failing attempt h fault))
    | none => .call (recordProcess h t.session.sessionId (some attempt) .worker input) (fun
        | .ok _ => t.at_ (.running attempt h)
        | .error e => t.at_ (.failing attempt h (.other (input.message e))))
  | .running attempt h =>
    match input.fault with
    | some (.timeout _) =>
      .signal h.pid h.birthToken input.reused (fun terminated => t.at_ (.overdue attempt h terminated))
    | some fault => .pass (t.leave attempt fault)
    | none => .observe (fun w =>
      match w.collect h input with
      | some result => t.at_ (.exited attempt h result)
      | none => t)
  | .overdue attempt h terminated => .observe (fun w =>
    if w.gone h.pid h.birthToken then t.at_ (.lapsed attempt h terminated) else t)
  | .lapsed attempt h terminated =>
    .call (finishProcess h (if terminated then .terminated else .uncertain) (some input.returncode) input)
      (fun
        | .ok _ => t.at_ (.doubting attempt)
        | .error _ => t.at_ (.failed attempt))
  | .exited attempt h result =>
    .call (finishProcess h .exited (some result.returncode) input) (fun
      | .ok _ => t.at_ (.reported attempt h result)
      | .error _ => t.at_ (.failed attempt))
  | .reported attempt h result =>
    .report h.pid h.birthToken t.session.sessionId result.tokens
      (if result.tokens = none ∨ result.returncode ≠ 0 then t.at_ (.failed attempt)
        else t.at_ (.importing attempt))
  | .failing attempt h fault => .signal h.pid h.birthToken false (fun _ => t.at_ (.reaping attempt h fault))
  | .reaping attempt h fault => .observe (fun w =>
    if w.gone h.pid h.birthToken then t.at_ (.reaped attempt h fault) else t)
  | .reaped attempt h fault =>
    .call (finishProcess h .terminated (some input.returncode) input) (fun _ => t.leave attempt fault)
  | .doubting attempt =>
    .report 0 "" t.session.sessionId none (t.at_ (.failed attempt))
  | .importing attempt =>
    match input.fault with
    | some _ => .pass (t.at_ (.failed attempt))
    | none => .setAttempt attempt .succeeded (some input.now.isoText) (some input.outputSha256) (t.at_ .ended)
  | .failed attempt => .setAttempt attempt .failed (some input.now.isoText) none (t.at_ .ended)
  | .ended => .pass t

end WorkerThread

/-! `Supervisor.pause` and `Supervisor.recover`. -/

inductive PausePoint where
  | idle
  | called
  | flagged
  | sweeping (session : String) (sweep : Sweep) (rest : List String) (terminated uncertain : Nat)
  | returned (terminated uncertain : Nat)
  | raised

namespace PausePoint

def nextSession (rest : List String) (terminated uncertain : Nat) : PausePoint :=
  match rest with
  | [] => .returned terminated uncertain
  | session::rest => .sweeping session (.terminating .listing) rest terminated uncertain

def access (point : PausePoint) (input : Input) : Access PausePoint :=
  match point with
  | .idle => .pass .idle
  | .called => .call (.journal (.setSupervisorValue "paused" (.bool true) input.now)) (fun
      | .ok _ => .flagged
      | .error _ => .raised)
  | .flagged => .observe (fun w =>
    nextSession (w.store.runtime.activeWakes.map WakeRuntime.sessionId) 0 0)
  | .sweeping session sweep rest terminated uncertain =>
    sweep.access session "operator pause" input
      (fun sweep => .sweeping session sweep rest terminated uncertain) (fun
      | .ok true => nextSession rest (terminated + 1) uncertain
      | .ok false => nextSession rest terminated (uncertain + 1)
      | .error _ => .raised)
  | .returned terminated uncertain => .pass (.returned terminated uncertain)
  | .raised => .pass .raised

end PausePoint

inductive RecoverPoint where
  | idle
  | called
  | orphans (sessions : List String) (listed : List WakeRuntime) (recovered : Nat)
  | wakes (listed : List WakeRuntime) (recovered uncertain : Nat)
  | preparing (wake : WakeRuntime) (rest : List WakeRuntime) (recovered uncertain : Nat)
  | sweeping (wake : WakeRuntime) (sweep : Sweep) (rest : List WakeRuntime) (recovered uncertain : Nat)
  | returned (recovered uncertain : Nat)
  | raised

namespace RecoverPoint

def access (point : RecoverPoint) (input : Input) : Access RecoverPoint :=
  match point with
  | .idle => .pass .idle
  | .called => .observe (fun w =>
    .orphans (w.store.runtime.orphanSessions.map WakeSession.sessionId) w.store.runtime.activeWakes 0)
  | .orphans [] listed recovered => .pass (.wakes listed recovered 0)
  | .orphans (session::rest) listed recovered =>
    .call (.recoverOrphanSession session none none "supervisor stopped before wake preparation") (fun
      | .ok _ => .orphans rest listed (recovered + 1)
      | .error _ => .raised)
  | .wakes [] recovered uncertain => .pass (.returned recovered uncertain)
  | .wakes (wake::rest) recovered uncertain => .observe (fun w =>
    if wake.state = .prepared ∧ w.store.runtime.processCount wake.sessionId = 0 then
      .preparing wake rest recovered uncertain
    else .sweeping wake (.terminating .listing) rest recovered uncertain)
  | .preparing wake rest recovered uncertain =>
    .call (.recoverPreparedWake wake.wakeId input.retryTime "supervisor stopped before provider start" input.now)
      (fun
        | .ok _ => .wakes rest (recovered + 1) uncertain
        | .error _ => .raised)
  | .sweeping wake sweep rest recovered uncertain =>
    sweep.access wake.sessionId "supervisor restart recovery" input
      (fun sweep => .sweeping wake sweep rest recovered uncertain) (fun
      | .ok true => .wakes rest (recovered + 1) uncertain
      | .ok false => .wakes rest recovered (uncertain + 1)
      | .error _ => .raised)
  | .returned recovered uncertain => .pass (.returned recovered uncertain)
  | .raised => .pass .raised

end RecoverPoint
end SjgControl

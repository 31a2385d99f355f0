import SjgControl.ProcessGroup
import SjgControl.Store.Operation

/-! What the threads of the host share: the store, the provider processes of the operating
system, and the launcher's record of worker usage. A thread advances by single accesses to
that world, each together with where the thread goes from there, so a run of the host is an
interleaving of accesses. -/
namespace SjgControl
open Relational

/-- `signalled` has been sent a signal and may still be there. -/
inductive ProviderStatus where
  | running | signalled | gone
  deriving DecidableEq

/-- A process that `Popen` created: the record key and the session it works for, its
identity, and the tokens it uses in all. `charged` says that the launcher has added them. -/
structure Provider where
  key : String
  sessionId : String
  kind : ProcessKind
  pid : Int
  pgid : Int
  birthToken : String
  tokens : Nat
  status : ProviderStatus
  charged : Bool
  deriving DecidableEq

namespace Provider

def is (p : Provider) (pid : Int) (birthToken : String) : Prop :=
  p.pid = pid ∧ p.birthToken = birthToken

instance (p : Provider) (pid : Int) (birthToken : String) : Decidable (p.is pid birthToken) :=
  inferInstanceAs (Decidable (p.pid = pid ∧ p.birthToken = birthToken))

end Provider

structure World where
  store : Store
  providers : List Provider
  usage : String → Nat
  uncertainUsage : String → Bool

/-- One access to the world. `observe` reads it as a whole: the accesses that only read
differ in what they look at, and waiting is reading until the awaited is there. -/
inductive Access (P : Type) where
  | pass (next : P)
  | observe (next : World → P)
  | create (sessionId wakeId orgId role policyDigest : String) (workspaceAliases : List String)
      (now : Instant) (ttlSeconds globalCap : Int) (next : Except StoreError Session → P)
  | call (op : Op) (next : Except StoreError Unit → P)
  | setAttempt (attemptId : String) (state : AttemptState) (finishedAt artifact : Option String) (next : P)
  | quarantine (sessionId : String) (now : Instant) (next : P)
  | spawn (p : Provider) (stay next : P)
  | signal (pid : Int) (birthToken : String) (reused : Bool) (next : Bool → P)
  | report (pid : Int) (birthToken sessionId : String) (tokens : Option Nat) (next : P)
  | take (sessionId : String) (next : Option Nat → P)

namespace World

def empty : World := ⟨.empty,[],fun _ => 0,fun _ => false⟩

def paused (w : World) : Bool := (w.store.journal.supervisorValue "paused" (.bool false)).truthy

/-- The operating system gives no two processes one identity, nor two living ones one pid. -/
def fresh (w : World) (p : Provider) : Prop :=
  ∀ q ∈ w.providers, ¬ q.is p.pid p.birthToken ∧ (q.pid = p.pid → q.status = .gone)

instance (w : World) (p : Provider) : Decidable (w.fresh p) :=
  inferInstanceAs (Decidable (∀ q ∈ w.providers, ¬ q.is p.pid p.birthToken ∧
    (q.pid = p.pid → q.status = .gone)))

def gone (w : World) (pid : Int) (birthToken : String) : Prop :=
  ∃ q ∈ w.providers, q.is pid birthToken ∧ q.status = .gone

instance (w : World) (pid : Int) (birthToken : String) : Decidable (w.gone pid birthToken) :=
  inferInstanceAs (Decidable (∃ q ∈ w.providers, q.is pid birthToken ∧ q.status = .gone))

def setStatus (w : World) (pid : Int) (birthToken : String) (status : ProviderStatus) : World :=
  {w with providers := w.providers.map (fun q =>
    if q.is pid birthToken ∧ q.status ≠ .gone then {q with status} else q)}

/-- The answer of `_terminate_group`: no if the pid belongs to another process, be it before
the signal or, when the pid was given away again, at the end of the grace period. -/
def terminateGroup (w : World) (pid : Int) (birthToken : String) (reused : Bool) : Bool :=
  match w.providers.find? (fun q => q.pid = pid ∧ q.status ≠ .gone) with
  | some q => q.birthToken = birthToken ∧ ¬ reused
  | none => !reused

/-- The living processes of the world are found in the table of processes. -/
def ShownIn (w : World) (table : List ProcessGroup.Process) : Prop :=
  ∀ q ∈ w.providers, q.status ≠ .gone →
    0 < q.pid ∧ ∃ p, ProcessGroup.lookup q.pid table = some p ∧ p.birthToken = q.birthToken

/-- `terminateGroup` has each answer that `_terminate_group` comes to, call by call, from a table of the
processes, unless its first reading of the process fails. -/
theorem terminateGroup_answers {w : World} {target : ProcessGroup.Recorded} {table : List ProcessGroup.Process}
    (shown : w.ShownIn table) {rest : List ProcessGroup.Action} {dead : Bool}
    (answered : (Machine.run ProcessGroup.step (ProcessGroup.start target table) (.call false::rest)).point =
      .returned dead) :
    ∃ reused, w.terminateGroup target.pid target.birthToken reused = dead := by
  unfold terminateGroup
  cases found : w.providers.find? (fun q => q.pid = target.pid ∧ q.status ≠ .gone) with
  | none => exact ⟨!dead,Bool.not_not dead⟩
  | some q =>
    obtain ⟨pid,living⟩ : q.pid = target.pid ∧ q.status ≠ .gone := by simpa using List.find?_some found
    by_cases same : q.birthToken = target.birthToken
    · exact ⟨!dead,by simp [same]⟩
    · obtain ⟨positive,p,there,token⟩ := shown q (List.mem_of_find?_eq_some found) living
      rw [pid] at positive there
      rw [ProcessGroup.mismatch_run positive there (token ▸ same) rest] at answered
      exact ⟨false,by simpa [same] using (ProcessGroup.Point.returned.inj answered)⟩

def perform {P : Type} (w : World) : Access P → World × P
  | .pass next => (w,next)
  | .observe next => (w,next w)
  | .create sessionId wakeId orgId role digest aliases now ttl cap next =>
    let outcome := atomically w.store.runtime
      (w.store.runtime.createSession sessionId wakeId orgId role digest aliases now ttl cap)
    ({w with store := {w.store with runtime := outcome.state}},next outcome.result)
  | .call op next => ({w with store := w.store.step op},next (w.store.apply op).result)
  | .setAttempt attemptId state finishedAt artifact next =>
    ({w with store := {w.store with
      runtime := w.store.runtime.setAttempt attemptId state finishedAt artifact}},next)
  | .quarantine sessionId now next =>
    ({w with store := {w.store with runtime := w.store.runtime.quarantineWake sessionId now}},next)
  | .spawn p stay next =>
    if w.fresh p then ({w with providers := w.providers ++ [p]},next) else (w,stay)
  | .signal pid birthToken reused next =>
    (w.setStatus pid birthToken .signalled,next (w.terminateGroup pid birthToken reused))
  | .report pid birthToken sessionId tokens next =>
    match tokens with
    | none =>
      ({w with uncertainUsage := fun x => if x = sessionId then true else w.uncertainUsage x},next)
    | some n =>
      ({w with
        usage := fun x => if x = sessionId then w.usage x + n else w.usage x
        providers := w.providers.map (fun q =>
          if q.is pid birthToken then {q with charged := true} else q)},next)
  | .take sessionId next =>
    ({w with
      usage := fun x => if x = sessionId then 0 else w.usage x
      uncertainUsage := fun x => if x = sessionId then false else w.uncertainUsage x},
      next (if w.uncertainUsage sessionId then none else some (w.usage sessionId)))

end World
end SjgControl

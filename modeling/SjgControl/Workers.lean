import SjgControl.Policy
import SjgControl.PosixPath
import SjgControl.Store.Operation

/-! `WorkerSupervisor.run`. The calls that touch files, and the launcher, are taken from a
host: which files there are and how such a call may fail is the host's business, the order of
the calls and what is made of their answers is the supervisor's. -/
namespace SjgControl
open Relational

inductive WorkerException where
  | worker (message : String)
  | store (error : StoreError)
  | policy (message : String)
  | exception (name : String)
  | fatal (name : String)
  deriving DecidableEq

def WorkerException.caught : WorkerException → Prop
  | .fatal _ => False
  | _ => True

instance : DecidablePred WorkerException.caught
  | .fatal _ => isFalse id
  | .worker _ => isTrue trivial
  | .store _ => isTrue trivial
  | .policy _ => isTrue trivial
  | .exception _ => isTrue trivial

abbrev Relative := List PosixPath.Name

def Relative.text (p : Relative) : String := String.ofList (PosixPath.join p)

/-- Digest and length of a file; `("absent", 0)` where there is none. -/
abbrev FileState := String × Nat

def absentState : FileState := ("absent",0)

/-- What `snapshot_tree` returns: the regular files with their states. -/
abbrev Inventory := List (Relative × FileState)

def Inventory.get (inventory : Inventory) (p : Relative) : Option FileState :=
  (inventory.find? (fun entry => entry.1 = p)).map Prod.snd

/-- The file system and the launcher. A call leaves its effects behind when it raises. -/
structure WorkerHost (F : Type) where
  resolveParent : EStateM WorkerException F Unit
  makeScratchRoot : EStateM WorkerException F Unit
  makeScratch : EStateM WorkerException F Unit
  copyScopedInput : Relative → EStateM WorkerException F Unit
  handOver : Nat → Nat → EStateM WorkerException F Unit
  snapshotTree : EStateM WorkerException F Inventory
  runWorker : (workerType model prompt attempt : String) → (timeoutSeconds : Int) → EStateM WorkerException F (Option String)
  regularFileState : Relative → EStateM WorkerException F FileState
  unlinkScoped : Relative → EStateM WorkerException F Unit
  replaceRegularFile : Relative → EStateM WorkerException F Unit
  removeScratch : F → F

structure WorkerResult where
  attemptId : String
  workerType : String
  output : String
  changedPaths : List Relative
  deriving DecidableEq

structure WorkerSupervisor where
  policy : CompiledPolicy
  lunaModels : List (String × String)
  timeoutSeconds : Int
  maxPatchBytes : Int
  maxOutputBytes : Int
  worker : Option (Nat × Nat)

/-- The identifier that `reserve_worker` draws and the clock readings of one call. -/
structure WorkerInput where
  now : Instant
  attemptId : String
  reservedAt : Instant
  finishedAt : String

structure WorkerState (F : Type) where
  store : Store
  files : F

structure WorkOrder where
  session : Session
  role : CompiledRole
  workerType : String
  task : String
  model : String
  readPaths : List String
  writePaths : List String

namespace Workers

def safePath (lib : Library) (raw : Json) : Except WorkerException String :=
  match raw with
  | .str value => do
    let chars := value.toList
    require (¬ (value = "" ∨ 255 < value.utf8ByteSize ∨ PosixPath.root chars ≠ [] ∨
        ['.', '.'] ∈ PosixPath.parts chars ∨ '\x00' ∈ chars ∨ '\\' ∈ chars ∨ (∃ c ∈ chars, c.toNat < 32) ∨
        PosixPath.text chars ≠ chars))
      (.worker ("unsafe worker path: " ++ lib.repr value))
    return value
  | _ => throw (.worker "worker paths must be strings")

def paths (lib : Library) (values : Json) : Except WorkerException (List String) :=
  if values.truthy then
    match values with
    | .arr items => do
      require (items.length ≤ 200) (.worker "worker path scope exceeds 200 entries")
      let result ← items.mapM (safePath lib)
      require result.Nodup (.worker "worker path scopes must not contain duplicates")
      return result.insertionSort (· ≤ ·)
    | _ => throw (.worker "worker path scopes must be arrays")
  else .ok []

/-- The components of a path that `_paths` passed. -/
def relative (text : String) : Relative := PosixPath.parts text.toList

/-- Two sessions with the same fields, their aliases taken as sets. -/
def sameSession (a b : Session) : Prop :=
  {a with workspaceAliases := Policy.frozen a.workspaceAliases} =
    {b with workspaceAliases := Policy.frozen b.workspaceAliases}

instance (a b : Session) : Decidable (sameSession a b) :=
  inferInstanceAs (Decidable ({a with workspaceAliases := Policy.frozen a.workspaceAliases} =
    {b with workspaceAliases := Policy.frozen b.workspaceAliases}))

end Workers

namespace WorkerSupervisor
open Workers

variable {F : Type}

/-- The checks in front of the reservation. -/
def accept (w : WorkerSupervisor) (lib : Library) (store : Store) (session : Session) (arguments : Fields)
    (input : WorkerInput) : Except WorkerException WorkOrder := do
  let bound ← (store.runtime.session session.sessionId input.now).mapError .store
  require (sameSession bound session) (.worker "worker parent session does not match controller-owned state")
  let role ← fetch (lookup w.policy.roles bound.role) (.policy ("unknown executing role: " ++ bound.role))
  let workerType := Json.textOr lib.render (Json.get arguments "type")
  require (workerType ∈ role.workerTypes) (.worker ("worker type " ++ lib.repr workerType ++ " is not allowed"))
  let task ← match Json.get arguments "task" with
    | .str task => pure task
    | _ => throw (.worker "worker task must be non-empty and at most 32 KiB")
  require (PythonText.strip task ≠ "" ∧ task.utf8ByteSize ≤ 32768)
    (.worker "worker task must be non-empty and at most 32 KiB")
  let model ← fetch (lookup w.lunaModels workerType)
    (.worker ("no sealed Luna model for worker type " ++ workerType))
  let readPaths ← paths lib (Json.get arguments "readPaths")
  let writePaths ← paths lib (Json.get arguments "writePaths")
  require (¬ (workerType ≠ "implementer" ∧ writePaths ≠ [])) (.worker (workerType ++ " is read-only"))
  require (¬ (workerType = "implementer" ∧ writePaths = [])) (.worker "implementer requires declared write paths")
  require (∀ path ∈ writePaths, path ∈ readPaths) (.worker "every write path must also be declared as an input path")
  return ⟨bound,role,workerType,task,model,readPaths,writePaths⟩

def reserve (w : WorkerSupervisor) (order : WorkOrder) (input : WorkerInput) (store : Store) :
    Except WorkerException (String × Store) := do
  let reserved ← (store.runtime.reserveWorker input.attemptId order.session.sessionId order.workerType
    order.role.maxWorkersPerWake order.role.maxWorkersConcurrent w.policy.globalMaxAgents input.reservedAt).mapError .store
  return (reserved.1,{store with runtime := reserved.2})

def inFiles {α : Type} (call : EStateM WorkerException F α) : EStateM WorkerException (WorkerState F) α := fun s =>
  match call s.files with
  | .ok value files => .ok value {s with files}
  | .error e files => .error e {s with files}

/-- `UPDATE worker_attempt SET state=?,… WHERE attempt_id=?`. -/
def mark (attempt : String) (state : AttemptState) (finishedAt artifact : Option String) :
    EStateM WorkerException (WorkerState F) Unit := fun s =>
  .ok () {s with store := {s.store with runtime := s.store.runtime.setAttempt attempt state finishedAt artifact}}

/-- Paths of either inventory whose states differ, in the order of their texts. -/
def changedPaths (before after : Inventory) : List Relative :=
  (((before ++ after).map Prod.fst).dedup.filter (fun p => before.get p ≠ after.get p)).insertionSort
    (fun p q => p.text ≤ q.text)

/-- `if not p: raise e`. -/
def demand {S : Type} (p : Prop) [Decidable p] (e : WorkerException) : EStateM WorkerException S Unit :=
  if p then pure () else throw e

def handOver (w : WorkerSupervisor) (host : WorkerHost F) : EStateM WorkerException (WorkerState F) Unit :=
  match w.worker with
  | some (uid,gid) => inFiles (host.handOver uid gid)
  | none => pure ()

def launch (w : WorkerSupervisor) (host : WorkerHost F) (order : WorkOrder) (attempt : String) :
    EStateM WorkerException (WorkerState F) (Inventory × Option String) := do
  (Policy.frozen (order.readPaths ++ order.writePaths)).forM (fun text => inFiles (host.copyScopedInput (relative text)))
  w.handOver host
  let before ← inFiles host.snapshotTree
  mark attempt .running none none
  let output ← inFiles (host.runWorker order.workerType order.model order.task attempt w.timeoutSeconds)
  return (before,output)

def checkOutput (w : WorkerSupervisor) (output : Option String) : EStateM WorkerException (WorkerState F) String :=
  match output with
  | some text => do
    demand ((text.utf8ByteSize : Int) ≤ w.maxOutputBytes) (.worker "worker textual output exceeds the response-size limit")
    return text
  | none => throw (.worker "worker textual output exceeds the response-size limit")

def checkChanges (w : WorkerSupervisor) (order : WorkOrder) (before after : Inventory) :
    EStateM WorkerException (WorkerState F) (List Relative) := do
  let changed := changedPaths before after
  let forbidden := changed.filter (fun p => p ∉ order.writePaths.map relative)
  demand (forbidden = [])
    (.worker ("worker changed paths outside its scope: " ++ ", ".intercalate (forbidden.map Relative.text)))
  demand (((changed.map (fun p => ((after.get p).getD absentState).2)).sum : Int) ≤ w.maxPatchBytes)
    (.worker "worker output exceeds the patch-size limit")
  return changed

def checkConflict (host : WorkerHost F) (before : Inventory) (p : Relative) :
    EStateM WorkerException (WorkerState F) Unit := do
  let current ← inFiles (host.regularFileState p)
  demand (current = (before.get p).getD absentState)
    (.worker ("worker import conflicted with a newer parent file: " ++ p.text))

/-- The checks on what the worker left, up to the first write to the parent. -/
def review (w : WorkerSupervisor) (host : WorkerHost F) (order : WorkOrder) (before : Inventory)
    (output : Option String) : EStateM WorkerException (WorkerState F) (String × Inventory × List Relative) := do
  let output ← w.checkOutput output
  let after ← inFiles host.snapshotTree
  let changed ← w.checkChanges order before after
  changed.forM (checkConflict host before)
  return (output,after,changed)

def importPath (host : WorkerHost F) (after : Inventory) (p : Relative) : EStateM WorkerException (WorkerState F) Unit :=
  if after.get p = none then inFiles (host.unlinkScoped p) else inFiles (host.replaceRegularFile p)

/-- The body of the `try` statement. -/
def work (w : WorkerSupervisor) (lib : Library) (host : WorkerHost F) (order : WorkOrder) (input : WorkerInput)
    (attempt : String) : EStateM WorkerException (WorkerState F) WorkerResult := do
  let (before,output) ← w.launch host order attempt
  let (output,after,changed) ← w.review host order before output
  changed.forM (importPath host after)
  mark attempt .succeeded (some input.finishedAt) (some (lib.sha256 output.toUTF8.toList))
  return ⟨attempt,order.workerType,output,changed⟩

/-- The `try` statement: an `Exception` fails the attempt, and the scratch goes in any case. -/
def guarded (w : WorkerSupervisor) (lib : Library) (host : WorkerHost F) (order : WorkOrder) (input : WorkerInput)
    (attempt : String) : EStateM WorkerException (WorkerState F) WorkerResult := fun s =>
  match w.work lib host order input attempt s with
  | .ok result s => .ok result {s with files := host.removeScratch s.files}
  | .error e s =>
    let store := if e.caught then
      {s.store with runtime := s.store.runtime.setAttempt attempt .failed (some input.finishedAt) none}
    else s.store
    .error e ⟨store,host.removeScratch s.files⟩

def conclude (w : WorkerSupervisor) (lib : Library) (host : WorkerHost F) (order : WorkOrder) (input : WorkerInput)
    (attempt : String) : EStateM WorkerException (WorkerState F) WorkerResult := do
  inFiles host.resolveParent
  inFiles host.makeScratchRoot
  inFiles host.makeScratch
  w.guarded lib host order input attempt

def run (w : WorkerSupervisor) (lib : Library) (host : WorkerHost F) (session : Session) (arguments : Fields)
    (input : WorkerInput) : EStateM WorkerException (WorkerState F) WorkerResult := fun s =>
  match w.accept lib s.store session arguments input with
  | .error e => .error e s
  | .ok order =>
    match w.reserve order input s.store with
    | .error e => .error e s
    | .ok (attempt,store) => w.conclude lib host order input attempt {s with store}

end WorkerSupervisor
end SjgControl

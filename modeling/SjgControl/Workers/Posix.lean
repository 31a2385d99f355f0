import SjgControl.Disk
import SjgControl.Workers.Import

/-! The calls of `workers.py` on the directory trees of a POSIX machine. Each call is one step;
what the parent agent writes between two of them, and which of them the system refuses, is
taken from outside. -/
namespace SjgControl
open Disk Hoare

/-- What comes before a call: the tree that the parent agent leaves, if it writes, and the
`OSError` the call then meets, if any. -/
structure Moment where
  parent : Option (Disk.Tree PosixPath.Name)
  refused : Option String

/-- Both trees, with what the calls are later asked about: the paths that the parent agent
has written since they were copied, what was imported, and at which paths the import took a
write of the agent's away. -/
structure Workspaces where
  parent : Disk.Tree PosixPath.Name
  scratch : Disk.Tree PosixPath.Name
  calls : Nat
  written : List Relative
  imported : List (Relative × Option Node)
  lost : List Relative

structure PosixHost where
  /-- The identity that owns what the supervisor creates. -/
  supervisor : Nat
  agent : Nat → Moment
  /-- What the launcher returns or raises, and the scratch directory it leaves. -/
  outcome : Except WorkerException (Option String)
  left : Disk.Tree PosixPath.Name

namespace Workspaces

def start (parent : Disk.Tree PosixPath.Name) : Workspaces := ⟨parent,Disk.Tree.empty,0,[],[],[]⟩

def after (s : Workspaces) (moment : Moment) : Workspaces :=
  let parent := moment.parent.getD s.parent
  {s with parent, calls := s.calls + 1, written := s.parent.changes parent ++ s.written}

end Workspaces

namespace PosixHost

abbrev Files := EStateM WorkerException Workspaces

def call {α : Type} (m : PosixHost) (act : Files α) : Files α := fun s =>
  match (m.agent s.calls).refused with
  | some name => .error (.exception name) (s.after (m.agent s.calls))
  | none => act (s.after (m.agent s.calls))

/-- `_parent_fd`: whether there is a directory to find the leaf in. -/
def parentFd (create : Option Mode) (p : Relative) : EStateM WorkerException (Disk.Tree PosixPath.Name) Bool := fun t =>
  if p = [] then .error (.exception "IndexError") t
  else match Disk.Tree.openDirectory create [] p.dropLast t with
    | .ok arrived t => .ok arrived t
    | .error _ t => .error (.worker ("worker path contains a symlink or unsafe component: " ++ p.text)) t

def fileState (lib : Library) (content : List UInt8) : FileState := (lib.sha256 content,content.length)

def regularFileState (lib : Library) (p : Relative) : Files FileState := fun s =>
  match parentFd none p s.parent with
  | .error e _ => .error e s
  | .ok false _ => .ok absentState s
  | .ok true _ =>
    match s.parent.node p with
    | none => .ok absentState s
    | some .link => .error (.worker ("worker path contains a symlink: " ++ p.text)) s
    | some (.directory _) => .error (.exception "IsADirectoryError") s
    | some .special => .error (.worker ("worker path is not a regular file: " ++ p.text)) s
    | some (.file content _ _) => .ok (fileState lib content) s

def makeScratch : Files Unit := fun s => .ok () {s with scratch := Disk.Tree.empty}

def copyScopedInput (m : PosixHost) (p : Relative) : Files Unit := fun s =>
  let s := {s with written := s.written.filter (fun q => q ≠ p)}
  match parentFd none p s.parent with
  | .error e _ => .error e s
  | .ok false _ => .ok () s
  | .ok true _ =>
    match s.parent.node p with
    | none => .ok () s
    | some .link => .error (.worker ("worker input is a symlink: " ++ p.text)) s
    | some (.directory _) => .error (.exception "IsADirectoryError") s
    | some .special => .error (.worker ("worker input is not a regular file: " ++ p.text)) s
    | some (.file content mode _) =>
      match Disk.Tree.openDirectory (some 0o755#12) [] p.dropLast s.scratch with
      | .error _ scratch =>
        .error (.exception (if scratch.node p.dropLast = none then "NotADirectoryError" else "FileExistsError")) {s with scratch}
      | .ok _ scratch =>
        if free : scratch.accepts p then .ok () {s with scratch := scratch.put p (.file content mode m.supervisor) free}
        else .error (.exception "IsADirectoryError") {s with scratch}

/-- `os.chown` takes the set-user-id bit away, and the set-group-id bit of an executable. -/
def chown (uid : Nat) : Node → Node
  | .file content mode _ => .file content (mode &&& (if mode &&& 0o010#12 = 0 then ~~~0o4000#12 else ~~~0o6000#12)) uid
  | .directory _ => .directory 0o700#12
  | .link => .link
  | .special => .special

def handOver (uid : Nat) : Files Unit := fun s =>
  if ∃ entry ∈ s.scratch.entries.entries, entry.2 = .link then
    .error (.worker "worker scratch contains a symlink before launch") s
  else .ok () {s with scratch := s.scratch.convert (chown uid) (fun _ => ⟨_,rfl⟩)}

/-- `snapshot_tree`, on the entries in their order. -/
def inventory (lib : Library) : List (Sigma fun _ : Relative => Node) → Except WorkerException Inventory
  | [] => .ok []
  | ⟨p,.link⟩::_ => .error (.worker ("worker created a symlink: " ++ p.text))
  | ⟨_,.directory _⟩::rest => inventory lib rest
  | ⟨p,.special⟩::_ => .error (.worker ("worker created a non-regular file: " ++ p.text))
  | ⟨p,.file content _ _⟩::rest => do return (p,fileState lib content)::(← inventory lib rest)

/-- `sorted(root.rglob("*"))` -/
def listing (t : Disk.Tree PosixPath.Name) : List (Sigma fun _ : Relative => Node) :=
  t.entries.entries.insertionSort (fun a b => a.1.map String.ofList ≤ b.1.map String.ofList)

def snapshotTree (lib : Library) : Files Inventory := fun s =>
  match inventory lib (listing s.scratch) with
  | .ok found => .ok found s
  | .error e => .error e s

def runWorker (m : PosixHost) : Files (Option String) := fun s =>
  match m.outcome with
  | .ok output => .ok output {s with scratch := m.left}
  | .error e => .error e {s with scratch := m.left}

/-- The path now is what the supervisor made of it. -/
def note (s : Workspaces) (p : Relative) (n : Option Node) (parent : Disk.Tree PosixPath.Name) : Workspaces :=
  {s with parent, imported := s.imported ++ [(p,n)], lost := if p ∈ s.written then s.lost ++ [p] else s.lost}

def replaceRegularFile (m : PosixHost) (p : Relative) : Files Unit := fun s =>
  match parentFd (some 0o700#12) p s.parent with
  | .error e parent => .error e {s with parent}
  | .ok false parent => .error (.exception "AssertionError") {s with parent}
  | .ok true parent =>
    match s.scratch.node p with
    | none => .error (.exception "FileNotFoundError") {s with parent}
    | some .link => .error (.exception "OSError") {s with parent}
    | some (.directory _) => .error (.exception "IsADirectoryError") {s with parent}
    | some .special => .error (.worker ("worker output is not a regular file: " ++ p.text)) {s with parent}
    | some (.file content mode _) =>
      if free : parent.accepts p then
        .ok () (note s p (some (.file content mode m.supervisor)) (parent.put p (.file content mode m.supervisor) free))
      else .error (.exception "IsADirectoryError") {s with parent}

def unlinkScoped (p : Relative) : Files Unit := fun s =>
  match parentFd none p s.parent with
  | .error e _ => .error e s
  | .ok false _ => .ok () s
  | .ok true _ =>
    if leaf : s.parent.isDirectory p then .error (.worker ("worker output deletion targets a directory: " ++ p.text)) s
    else if s.parent.node p = none then .ok () s
    else .ok () (note s p none (s.parent.remove p leaf))

def host (m : PosixHost) (lib : Library) : WorkerHost Workspaces where
  resolveParent := m.call (pure ())
  makeScratchRoot := m.call (pure ())
  makeScratch := m.call makeScratch
  copyScopedInput p := m.call (m.copyScopedInput p)
  handOver uid _ := m.call (handOver uid)
  snapshotTree := m.call (snapshotTree lib)
  runWorker _ _ _ _ _ := m.call m.runWorker
  regularFileState p := m.call (regularFileState lib p)
  unlinkScoped p := m.call (unlinkScoped p)
  replaceRegularFile p := m.call (m.replaceRegularFile p)
  removeScratch s := {s with scratch := Disk.Tree.empty}

end PosixHost
end SjgControl

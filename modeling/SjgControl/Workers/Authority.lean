import SjgControl.Provider
import SjgControl.Workers.Scope

/-! A worker's files are imported into the workspace that providers are launched in, and the
next launch looks at all of it. -/
namespace SjgControl
open Disk Hoare Relational Workers
namespace PosixHost
open WorkerSupervisor ProviderPolicy

variable {m : PosixHost} {lib : Library}

/-- No entry that the walk over a workspace comes to is at fault. -/
def Acceptable (t : Disk.Tree PosixPath.Name) : Prop :=
  ∀ p n, t.node p = some n → visited p → workspaceFault (p,n) = none

structure Houses (disk : Disk.FileSystem PosixPath.Name) (path : String) (t : Disk.Tree PosixPath.Name) : Prop where
  present : disk.present (PosixPath.parts path.toList)
  directory : disk.follow (PosixPath.parts path.toList) = [] ∨ disk.isDirectory (disk.follow (PosixPath.parts path.toList))
  same : ∀ p, p ≠ [] → disk.tree.node (disk.follow (PosixPath.parts path.toList) ++ p) = t.node p

theorem checkEntries_iff {entries : List (Relative × Node)} :
    checkEntries entries = .ok () ↔ ∀ item ∈ entries, visited item.1 → workspaceFault item = none := by
  unfold checkEntries
  cases found : (entries.filter (fun item => visited item.1)).findSome? workspaceFault with
  | none =>
    refine iff_of_true rfl ?_
    intro item member walked
    exact List.findSome?_eq_none_iff.mp found item (List.mem_filter.mpr ⟨member,decide_eq_true walked⟩)
  | some message =>
    refine iff_of_false (by simp) ?_
    intro all
    obtain ⟨item,member,fault⟩ := List.exists_of_findSome?_eq_some found
    obtain ⟨listed,walked⟩ := List.mem_filter.mp member
    rw [all item listed (of_decide_eq_true walked)] at fault
    cases fault

theorem validate_houses {disk : Disk.FileSystem PosixPath.Name} {path : String} {t : Disk.Tree PosixPath.Name}
    (houses : Houses disk path t) : (∃ base, validateWorkspace disk path = .ok base) ↔ Acceptable t := by
  have walk : checkEntries (disk.tree.below (disk.follow (PosixPath.parts path.toList))) = .ok () ↔ Acceptable t := by
    rw [checkEntries_iff]
    constructor
    · intro all p n found walked
      have some_ : p ≠ [] := by
        rintro rfl
        rw [Disk.Tree.node_root] at found
        cases found
      exact all (p,n) (Disk.Tree.mem_below.mpr ⟨some_,(houses.same p some_).trans found⟩) walked
    · rintro all ⟨p,n⟩ member walked
      obtain ⟨some_,found⟩ := Disk.Tree.mem_below.mp member
      exact all p n ((houses.same p some_).symm.trans found) walked
  rw [← walk]
  unfold validateWorkspace
  constructor
  · rintro ⟨base,ok⟩
    obtain ⟨_,ok⟩ := require_bind_ok.mp ok
    obtain ⟨_,ok⟩ := require_bind_ok.mp ok
    obtain ⟨_,checked,_⟩ := bind_ok.mp ok
    exact checked
  · intro checked
    exact ⟨_,require_bind_ok.mpr ⟨houses.present,require_bind_ok.mpr ⟨houses.directory,bind_ok.mpr ⟨(),checked,rfl⟩⟩⟩⟩

/-- What a run that returns has imported; one that raises an error of its own, or meets no refusal, has
changed nothing. -/
theorem run_importing (w : WorkerSupervisor) (session : Session) (arguments : Fields) (input : WorkerInput) (store : Store)
    (parent : Disk.Tree PosixPath.Name) (quiet : m.Quiet) (digests : Function.Injective lib.sha256) :
    (∀ result next, w.run lib (m.host lib) session arguments input ⟨store,Workspaces.start parent⟩ = .ok result next →
      ∃ s, s.parent = next.files.parent ∧ Importing m parent result.changedPaths s) ∧
    ∀ e next, w.run lib (m.host lib) session arguments input ⟨store,Workspaces.start parent⟩ = .error e next →
      (∀ name, e ≠ .exception name) ∨ (∀ n, (m.agent n).refused = none) → next.files.parent = parent := by
  have passes (s : Workspaces) (n : Nat) (same : (outside s).1 = parent) : (outside (s.after (m.agent n))).1 = parent :=
    (after_parent quiet s n).trans same
  have kept := @host_keeps m lib (fun o => o.1 = parent) passes
  cases imports : w.toImport lib (m.host lib) session arguments input ⟨store,Workspaces.start parent⟩ with
  | none =>
    obtain ⟨e,next,ran,same⟩ := run_unreached kept rfl imports
    rw [ran]
    refine ⟨by simp,?_⟩
    intro _ _ ended _
    cases ended
    exact same
  | some found =>
    obtain ⟨changed,after,mid⟩ := found
    obtain ⟨order,before,_,reviewed⟩ := toImport_reviewed imports
    have same : mid.files.parent = parent := toImport_keeps kept rfl imports
    have start : Importing m parent [] mid.files :=
      ⟨reviewed.launched.1,fun _ none_ => absurd none_ List.not_mem_nil,fun q _ => .inl (by rw [same])⟩
    have loop := imports_importing quiet reviewed digests mid start
    have ran := run_reached imports
    cases ended : (changed.forM (importPath (m.host lib) after) : EStateM WorkerException (WorkerState Workspaces) PUnit) mid with
    | error e next =>
      rw [ended] at ran loop
      obtain ⟨store',equal⟩ := ran
      obtain ⟨⟨name,named⟩,n,refused⟩ := loop
      rw [equal]
      refine ⟨by simp,?_⟩
      intro _ _ raised excuse
      cases raised
      rcases excuse with other | granted
      · exact absurd named (other name)
      · exact absurd (granted n) refused
    | ok _ next =>
      rw [ended] at ran loop
      obtain ⟨result,store',equal,names⟩ := ran
      rw [equal]
      refine ⟨?_,by simp⟩
      intro _ _ returned
      cases returned
      exact ⟨next.files,rfl,names ▸ loop⟩

theorem acceptable_importing {t : Disk.Tree PosixPath.Name} {changed : List Relative} {s : Workspaces} (accepted : Acceptable t)
    (importing : Importing m t changed s) :
    Acceptable s.parent ↔ ∀ p ∈ changed, m.left.content p ≠ none → visited p → ¬ localAuthority p := by
  constructor
  · intro all p member there walked authority
    obtain ⟨content,mode,owner,found⟩ := file_of_content there
    have here := importing.finished p member
    rw [output,found] at here
    have fine := all p _ here walked
    rw [workspaceFault,if_pos authority] at fine
    cases fine
  · intro free p n found walked
    by_cases member : p ∈ changed
    · have here := (importing.finished p member).symm.trans found
      have there : m.left.content p ≠ none := fun none_ => by
        rw [output_none.mpr none_] at here
        cases here
      obtain ⟨content,mode,owner,file⟩ := file_of_content there
      rw [output,file] at here
      cases here
      rw [workspaceFault,if_neg (free p member there walked)]
    · rcases importing.kept p member with same | ⟨_,⟨mode,directory⟩,_⟩
      · exact accepted p n (same.symm.trans found) walked
      · rw [directory] at found
        cases found
        rfl

/-- Nobody else writes into a workspace that a launch accepts. After a worker's run that returns, the next launch accepts
it just when no file that was imported is local authority; a run that raises an error of its own, or meets
no refusal, leaves it accepted. -/
theorem imports_accepted_iff (w : WorkerSupervisor) (lib : Library) (m : PosixHost) (session : Session) (arguments : Fields)
    (input : WorkerInput) (store : Store) (parent : Disk.Tree PosixPath.Name) (quiet : m.Quiet)
    (digests : Function.Injective lib.sha256) {disk : Disk.FileSystem PosixPath.Name} {path : String}
    (houses : Houses disk path parent) (accepted : ∃ base, validateWorkspace disk path = .ok base) :
    (∀ result next, w.run lib (m.host lib) session arguments input ⟨store,Workspaces.start parent⟩ = .ok result next →
      ∀ later, Houses later path next.files.parent → ((∃ base, validateWorkspace later path = .ok base) ↔
        ∀ p ∈ result.changedPaths, m.left.content p ≠ none → visited p → ¬ localAuthority p)) ∧
    ∀ e next, w.run lib (m.host lib) session arguments input ⟨store,Workspaces.start parent⟩ = .error e next →
      (∀ name, e ≠ .exception name) ∨ (∀ n, (m.agent n).refused = none) →
      ∀ later, Houses later path next.files.parent → ∃ base, validateWorkspace later path = .ok base := by
  have before := (validate_houses houses).mp accepted
  have ran := run_importing w session arguments input store parent quiet digests
  constructor
  · intro result next ok later after
    obtain ⟨s,same,importing⟩ := ran.1 result next ok
    rw [validate_houses after,← same]
    exact acceptable_importing before importing
  · intro e next error excuse later after
    rw [validate_houses after,ran.2 e next error excuse]
    exact before

def secretChange : Fields :=
  [("type",.str "implementer"),("task",.str "change"),("readPaths",.arr [.str ".env",.str "f"]),("writePaths",.arr [.str ".env"])]

def secretive : PosixHost where
  supervisor := 0
  agent _ := ⟨none,none⟩
  outcome := .ok (some "done")
  left := (oneFile 1 0o644#12).put [".env".toList] (.file [2] 0o600#12 1000) (by decide +kernel)

def housed (t : Disk.Tree PosixPath.Name) : Disk.FileSystem PosixPath.Name := ⟨t,id,fun _ _ _ _ => rfl⟩

theorem housed_houses (t : Disk.Tree PosixPath.Name) : Houses (housed t) "/" t := ⟨.inl rfl,.inl rfl,fun _ _ => rfl⟩

def changedBy : EStateM.Result WorkerException (WorkerState Workspaces) WorkerResult → List Relative
  | .ok result _ => result.changedPaths
  | .error _ _ => []

/-- A worker that was given `.env` to write keeps every later launch out of the workspace. -/
theorem imports_accepted_secretive : ∃ result next,
    builder.run digests (secretive.host digests) wake secretChange clock ⟨awake,Workspaces.start (oneFile 1 0o644#12)⟩ =
      .ok result next ∧ ¬ ∃ base, validateWorkspace (housed next.files.parent) "/" = .ok base := by
  have start : ∃ base, validateWorkspace (housed (oneFile 1 0o644#12)) "/" = .ok base := by
    refine (validate_houses (housed_houses _)).mpr ?_
    intro p n found _
    rw [oneFile,Disk.Tree.node_put] at found
    split at found
    next here =>
      cases found
      subst here
      rfl
    next => cases found
  have changes : changedBy (builder.run digests (secretive.host digests) wake secretChange clock
      ⟨awake,Workspaces.start (oneFile 1 0o644#12)⟩) = [[".env".toList]] := by decide +kernel
  have decided := (imports_accepted_iff builder digests secretive wake secretChange clock awake (oneFile 1 0o644#12)
    (fun _ => rfl) digests_injective (housed_houses _) start).1
  cases ran : builder.run digests (secretive.host digests) wake secretChange clock ⟨awake,Workspaces.start (oneFile 1 0o644#12)⟩ with
  | error e next =>
    rw [ran] at changes
    cases changes
  | ok result next =>
    rw [ran] at changes
    change result.changedPaths = [[".env".toList]] at changes
    refine ⟨result,next,rfl,?_⟩
    rw [decided result next ran _ (housed_houses _)]
    intro free
    have there : secretive.left.content [".env".toList] ≠ none := by decide +kernel
    exact free [".env".toList] (changes ▸ List.mem_singleton.mpr rfl) there (by decide +kernel) (by decide +kernel)

end PosixHost
end SjgControl

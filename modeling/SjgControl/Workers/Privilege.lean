import SjgControl.Workers.Race

/-! The permission bits of a worker's file go to the parent workspace with its bytes, under the
supervisor's identity. -/
namespace SjgControl
open Disk Hoare Workers

namespace PosixHost
open WorkerSupervisor

variable {m : PosixHost} {lib : Library}

/-- No file that was imported has the set-user-id or the set-group-id bit. -/
def NoPrivilege (s : Workspaces) : Prop :=
  ∀ entry ∈ s.imported, ∀ content mode owner, entry.2 = some (.file content mode owner) → ¬ mode.privileged

def Plain (m : PosixHost) (p : Relative) (s : WorkerState Workspaces) : Prop :=
  m.Passes p s.files → ∀ content mode owner, m.left.node p = some (.file content mode owner) → ¬ mode.privileged

theorem plain_output {p : Relative} :
    (∀ content mode owner, m.output p = some (.file content mode owner) → ¬ mode.privileged) ↔
      ∀ content mode owner, m.left.node p = some (.file content mode owner) → ¬ mode.privileged := by
  unfold output
  cases m.left.node p with
  | none => simp
  | some n => cases n <;> simp

/-- The files that a run creates, all of them owned by the supervisor, have neither bit exactly
if it comes to no import of a file with one. -/
theorem no_privilege_iff (w : WorkerSupervisor) (lib : Library) (m : PosixHost) (session : Session) (arguments : Fields)
    (input : WorkerInput) (store : Store) (parent : Disk.Tree PosixPath.Name) :
    NoPrivilege (endState (w.run lib (m.host lib) session arguments input ⟨store,Workspaces.start parent⟩)).files ↔
      ∀ changed after mid,
        w.toImport lib (m.host lib) session arguments input ⟨store,Workspaces.start parent⟩ = some (changed,after,mid) →
          Along (importPath (m.host lib) after) m.Plain changed mid := by
  have ends (result : EStateM.Result WorkerException (WorkerState Workspaces) WorkerResult) :
      NoPrivilege (endState result).files ↔ Ends (fun s => NoPrivilege s.files) (fun s => NoPrivilege s.files) result := by
    cases result <;> exact Iff.rfl
  have kept : (m.host lib).Keeps (fun s => (outside s).2 = ([],[])) :=
    @host_keeps m lib (fun o => o.2 = ([],[])) (fun _ _ holds => holds)
  have nothing {s : Workspaces} (none_ : (outside s).2 = ([],[])) : NoPrivilege s := by
    intro entry inside
    rw [(Prod.mk.inj none_).1] at inside
    cases inside
  rw [ends]
  have runs := @ends_run_iff _ w lib (m.host lib) input (fun s => (outside s).2 = ([],[])) NoPrivilege NoPrivilege
    session arguments ⟨store,Workspaces.start parent⟩ kept rfl (fun _ => nothing) (fun _ => ⟨Iff.rfl,Iff.rfl⟩)
  rw [runs]
  refine forall_congr' (fun changed => forall_congr' (fun after => forall_congr' (fun mid => ?_)))
  refine imp_congr_right (fun reached => ?_)
  obtain ⟨order,before,_,reviewed⟩ := toImport_reviewed reached
  have none_ := toImport_keeps kept rfl reached
  refine @ends_forM_iff _ _ _ (fun s => s.files.scratch = m.left) _ _ _ _ _ ?_ ?_ ?_ _ reviewed.launched.1 (nothing none_)
  · intro p inside
    exact import_scratch (removed_iff reviewed) (changed_some reviewed inside)
  · intro p inside s left good
    rcases import_result lib left (removed_iff reviewed) (changed_some reviewed inside) with
      ⟨stuck,e,files,stopped,_,imported⟩ | ⟨passes,files,done,_,effect⟩
    · rw [stopped]
      refine iff_of_true ?_ (fun passes => absurd passes stuck)
      unfold Ends NoPrivilege
      dsimp only
      rw [imported]
      exact good
    · rw [done]
      unfold Ends NoPrivilege Plain
      dsimp only
      rcases effect with ⟨_,removed,_,imported⟩ | ⟨_,_,imported⟩
      · rw [imported]
        refine iff_of_true good ?_
        intro _ content mode owner found
        simp [Disk.Tree.content,found] at removed
      · rw [imported,← plain_output]
        constructor
        · intro all _
          exact all (p,m.output p) (List.mem_append_right _ (List.mem_singleton.mpr rfl))
        · intro plain entry there
          rcases List.mem_append.mp there with old | new
          · exact good entry old
          · rw [List.mem_singleton.mp new]
            exact plain passes
  · intro p inside s left bad
    rcases import_result lib left (removed_iff reviewed) (changed_some reviewed inside) with
      ⟨_,e,files,stopped,_,imported⟩ | ⟨_,files,done,_,effect⟩
    · rw [stopped]
      intro good
      apply bad
      unfold NoPrivilege
      rw [← imported]
      exact good
    · rw [done]
      intro good
      apply bad
      intro entry old
      apply good entry
      change entry ∈ files.imported
      rcases effect with ⟨_,_,_,imported⟩ | ⟨_,_,imported⟩
      · rwa [imported]
      · rw [imported]
        exact List.mem_append_left _ old

def raising : PosixHost where
  supervisor := 0
  agent _ := ⟨none,none⟩
  outcome := .ok (some "done")
  left := oneFile 2 0o4755#12

/-- The import of a set-user-id file leaves one that belongs to the supervisor. -/
theorem privileged_file_imported : ¬ NoPrivilege (endState (builder.run digests (raising.host digests) wake change clock
    ⟨awake,Workspaces.start (oneFile 1 0o644#12)⟩)).files := by
  have created : (endState (builder.run digests (raising.host digests) wake change clock
      ⟨awake,Workspaces.start (oneFile 1 0o644#12)⟩)).files.imported = [([['f']],some (.file [2] 0o4755#12 0))] := by
    decide +kernel
  intro plain
  exact plain _ (created ▸ List.mem_singleton.mpr rfl) _ _ _ rfl (by decide)

end PosixHost
end SjgControl

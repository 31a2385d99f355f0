import SjgControl.Workers.Review

/-! The parent agent works on in its workspace while a worker runs. All changed paths are
compared with the copies first and are then imported one by one. -/
namespace SjgControl
open Disk Hoare Workers

namespace PosixHost
open WorkerSupervisor

variable {m : PosixHost} {lib : Library}

/-- No write of the parent agent's was taken away, and a run that raised imported nothing. -/
def NewerWins : EStateM.Result WorkerException (WorkerState Workspaces) WorkerResult → Prop :=
  Ends (fun s => s.files.lost = []) (fun s => s.files.lost = [] ∧ s.files.imported = [])

instance : DecidablePred NewerWins
  | .ok _ s => inferInstanceAs (Decidable (s.files.lost = []))
  | .error _ s => inferInstanceAs (Decidable (s.files.lost = [] ∧ s.files.imported = []))

/-- An import that goes through meets no write of the parent agent's since the path was
copied, unless both sides removed it; one that does not go through is the first to do anything. -/
def Undisturbed (m : PosixHost) (p : Relative) (s : WorkerState Workspaces) : Prop :=
  (m.Passes p s.files → p ∈ (m.now s.files).written →
    (m.now s.files).parent.node p = none ∧ m.left.content p = none) ∧
  (¬ m.Passes p s.files → s.files.imported = [])

theorem import_result (lib : Library) {s : WorkerState Workspaces} {after : Inventory} {p : Relative} (left : s.files.scratch = m.left)
    (gone : after.get p = none ↔ m.left.content p = none) (some_ : p ≠ []) :
    (¬ m.Passes p s.files ∧ ∃ e files, importPath (m.host lib) after p s = .error e {s with files} ∧
        files.lost = s.files.lost ∧ files.imported = s.files.imported) ∨
      m.Passes p s.files ∧ ∃ files, importPath (m.host lib) after p s = .ok ⟨⟩ {s with files} ∧ files.scratch = m.left ∧
        ((m.now s.files).parent.node p = none ∧ m.left.content p = none ∧ files.lost = s.files.lost ∧
            files.imported = s.files.imported ∨
          ¬ ((m.now s.files).parent.node p = none ∧ m.left.content p = none) ∧
            files.lost = (if p ∈ (m.now s.files).written then s.files.lost ++ [p] else s.files.lost) ∧
            files.imported = s.files.imported ++ [(p,m.output p)]) := by
  by_cases passes : m.Passes p s.files
  · refine .inr ⟨passes,?_⟩
    rcases import_passes lib left gone some_ passes with ⟨done,absent,nothing⟩ | ⟨work,parent,done,_,_⟩
    · exact ⟨_,done,left,.inl ⟨absent,output_none.mp nothing,rfl,rfl⟩⟩
    · refine ⟨_,done,left,.inr ⟨?_,rfl,rfl⟩⟩
      rintro ⟨absent,removed⟩
      rcases work with present | wanted
      · exact present absent
      · exact wanted (output_none.mpr removed)
  · refine .inl ⟨passes,?_⟩
    cases refused : (m.agent s.files.calls).refused with
    | some name => exact ⟨_,_,import_refused refused,rfl,rfl⟩
    | none =>
      have blocked : ¬ Open (m.now s.files).parent p := fun free => passes ⟨refused,free⟩
      obtain ⟨e,parent,stopped⟩ := import_blocked lib left gone some_ refused blocked
      exact ⟨e,_,stopped,rfl,rfl⟩

theorem import_scratch {after : Inventory} {p : Relative} (gone : after.get p = none ↔ m.left.content p = none)
    (some_ : p ≠ []) : Triple (fun s => s.files.scratch = m.left) (importPath (m.host lib) after p)
      (fun _ s => s.files.scratch = m.left) (fun _ _ => True) := by
  intro s left
  rcases import_result lib left gone some_ with ⟨_,e,files,stopped,_⟩ | ⟨_,files,done,scratch,_⟩
  · rw [stopped]
    exact trivial
  · rw [done]
    exact scratch

/-- A run keeps every write of the parent agent's, and imports all or nothing, exactly if it
comes to no import that is disturbed. -/
theorem newer_wins_iff (w : WorkerSupervisor) (lib : Library) (m : PosixHost) (session : Session) (arguments : Fields)
    (input : WorkerInput) (store : Store) (parent : Disk.Tree PosixPath.Name) :
    NewerWins (w.run lib (m.host lib) session arguments input ⟨store,Workspaces.start parent⟩) ↔
      ∀ changed after mid,
        w.toImport lib (m.host lib) session arguments input ⟨store,Workspaces.start parent⟩ = some (changed,after,mid) →
          Along (importPath (m.host lib) after) m.Undisturbed changed mid := by
  have kept : (m.host lib).Keeps (fun s => (outside s).2 = ([],[])) :=
    @host_keeps m lib (fun o => o.2 = ([],[])) (fun _ _ holds => holds)
  have runs := @ends_run_iff _ w lib (m.host lib) input (fun s => (outside s).2 = ([],[])) (fun s => s.lost = [])
    (fun s => s.lost = [] ∧ s.imported = []) session arguments ⟨store,Workspaces.start parent⟩ kept rfl (by
      intro files none_
      exact ⟨(Prod.mk.inj none_).2,(Prod.mk.inj none_).1⟩) (fun _ => ⟨Iff.rfl,Iff.rfl⟩)
  unfold NewerWins
  rw [runs]
  refine forall_congr' (fun changed => forall_congr' (fun after => forall_congr' (fun mid => ?_)))
  refine imp_congr_right (fun reached => ?_)
  obtain ⟨order,before,_,reviewed⟩ := toImport_reviewed reached
  have none_ := toImport_keeps kept rfl reached
  refine @ends_forM_iff _ _ _ (fun s => s.files.scratch = m.left) _ _ _ _ _ ?_ ?_ ?_ _ reviewed.launched.1 (Prod.mk.inj none_).2
  · intro p inside
    exact import_scratch (removed_iff reviewed) (changed_some reviewed inside)
  · intro p inside s left good
    rcases import_result lib left (removed_iff reviewed) (changed_some reviewed inside) with
      ⟨stuck,e,files,stopped,lost,imported⟩ | ⟨passes,files,done,_,effect⟩
    · rw [stopped]
      unfold Ends Undisturbed
      dsimp only
      rw [lost,imported]
      constructor
      · exact fun ends => ⟨fun passes => absurd passes stuck,fun _ => ends.2⟩
      · exact fun undisturbed => ⟨good,undisturbed.2 stuck⟩
    · rw [done]
      unfold Ends Undisturbed
      dsimp only
      rcases effect with ⟨absent,removed,lost,_⟩ | ⟨work,lost,_⟩
      · rw [lost]
        exact iff_of_true good ⟨fun _ _ => ⟨absent,removed⟩,fun stuck => absurd passes stuck⟩
      · rw [lost]
        constructor
        · intro kept_
          refine ⟨?_,fun stuck => absurd passes stuck⟩
          intro _ written
          rw [if_pos written] at kept_
          simp at kept_
        · intro undisturbed
          rw [if_neg]
          · exact good
          · exact fun written => work (undisturbed.1 passes written)
  · intro p inside s left bad
    rcases import_result lib left (removed_iff reviewed) (changed_some reviewed inside) with
      ⟨_,e,files,stopped,lost,_⟩ | ⟨_,files,done,_,effect⟩
    · rw [stopped]
      exact fun ends => bad (lost ▸ ends.1)
    · rw [done]
      intro ends
      change files.lost = [] at ends
      rcases effect with ⟨_,_,lost,_⟩ | ⟨_,lost,_⟩
      · exact bad (lost ▸ ends)
      · rw [lost] at ends
        split at ends
        next => simp at ends
        next => exact bad ends

/-! A worker that may change one file. -/

def builder : WorkerSupervisor where
  policy := ⟨"org","",[],[("po",⟨⟨[]⟩,["implementer"],4,2,0⟩)],"","","",0,5,"digest"⟩
  lunaModels := [("implementer","luna")]
  timeoutSeconds := 900
  maxPatchBytes := 100
  maxOutputBytes := 100
  worker := none

def change : Fields :=
  [("type",.str "implementer"),("task",.str "change"),("readPaths",.arr [.str "f"]),("writePaths",.arr [.str "f"])]

def bytesText (bytes : List UInt8) : String := String.ofList (bytes.map (fun b => Char.ofNat b.toNat))

def digests : Library := {plainText with sha256 := bytesText}

def oneFile (byte : UInt8) (mode : Mode) : Disk.Tree PosixPath.Name := Disk.Tree.empty.put [['f']] (.file [byte] mode 1000) (by decide)

def racing : PosixHost where
  supervisor := 0
  agent n := ⟨if n = 8 then some (oneFile 3 0o644#12) else none,none⟩
  outcome := .ok (some "done")
  left := oneFile 2 0o644#12

/-- The file that the parent agent saved after the comparison is overwritten. -/
theorem saved_file_lost : ¬ NewerWins (builder.run digests (racing.host digests) wake change clock
    ⟨awake,Workspaces.start (oneFile 1 0o644#12)⟩) := by decide +kernel

end PosixHost
end SjgControl

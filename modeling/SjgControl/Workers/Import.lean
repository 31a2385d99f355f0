import SjgControl.Workers.Attempt

/-! Where a worker run begins to import. Up to there nothing is written to the parent
workspace, whatever the host answers; from there on the run is a loop over the changed paths. -/
namespace SjgControl
open Relational Hoare

/-- Up to the first import the host keeps the property, and so does the removal of the scratch. -/
structure WorkerHost.Keeps {F : Type} (host : WorkerHost F) (keep : F → Prop) : Prop where
  resolveParent : Triple keep host.resolveParent (fun _ => keep) (fun _ => keep)
  makeScratchRoot : Triple keep host.makeScratchRoot (fun _ => keep) (fun _ => keep)
  makeScratch : Triple keep host.makeScratch (fun _ => keep) (fun _ => keep)
  copyScopedInput : ∀ p, Triple keep (host.copyScopedInput p) (fun _ => keep) (fun _ => keep)
  handOver : ∀ uid gid, Triple keep (host.handOver uid gid) (fun _ => keep) (fun _ => keep)
  snapshotTree : Triple keep host.snapshotTree (fun _ => keep) (fun _ => keep)
  runWorker : ∀ workerType model prompt attempt timeout,
    Triple keep (host.runWorker workerType model prompt attempt timeout) (fun _ => keep) (fun _ => keep)
  regularFileState : ∀ p, Triple keep (host.regularFileState p) (fun _ => keep) (fun _ => keep)
  removeScratch : ∀ files, keep files → keep (host.removeScratch files)

namespace WorkerSupervisor
open Workers

variable {F : Type} {w : WorkerSupervisor} {lib : Library} {host : WorkerHost F} {order : WorkOrder}
  {input : WorkerInput} {attempt : String} {keep : F → Prop}

/-- The part of the guarded body in front of the first import. -/
def examine (w : WorkerSupervisor) (host : WorkerHost F) (order : WorkOrder) (attempt : String) :
    EStateM WorkerException (WorkerState F) (String × Inventory × List Relative) := do
  let (before,output) ← w.launch host order attempt
  w.review host order before output

theorem work_eq (s : WorkerState F) : w.work lib host order input attempt s =
    match w.examine host order attempt s with
    | .error e next => .error e next
    | .ok (output,after,changed) mid =>
      match (changed.forM (importPath host after) : EStateM WorkerException (WorkerState F) PUnit) mid with
      | .error e next => .error e next
      | .ok _ done => .ok ⟨attempt,order.workerType,output,changed⟩ ⟨{done.store with
          runtime := done.store.runtime.setAttempt attempt .succeeded (some input.finishedAt)
            (some (lib.sha256 output.toUTF8.toList))},done.files⟩ := by
  have split_ : w.work lib host order input attempt = (w.examine host order attempt >>= fun found => do
      found.2.2.forM (importPath host found.2.1)
      mark attempt .succeeded (some input.finishedAt) (some (lib.sha256 found.1.toUTF8.toList))
      return ⟨attempt,order.workerType,found.1,found.2.2⟩) := by
    unfold work examine
    rw [bind_assoc]
  rw [split_,bind_apply]
  cases w.examine host order attempt s with
  | error e next => rfl
  | ok found mid =>
    obtain ⟨output,after,changed⟩ := found
    dsimp only
    rw [bind_apply]
    cases (changed.forM (importPath host after) : EStateM WorkerException (WorkerState F) PUnit) mid <;> rfl

theorem inFiles_ok {α : Type} {call : EStateM WorkerException F α} {value : α} {s : WorkerState F} {files : F}
    (ok : call s.files = .ok value files) : inFiles call s = .ok value {s with files} := by
  unfold inFiles
  rw [ok]

theorem inFiles_error {α : Type} {call : EStateM WorkerException F α} {e : WorkerException} {s : WorkerState F} {files : F}
    (error : call s.files = .error e files) : inFiles call s = .error e {s with files} := by
  unfold inFiles
  rw [error]

theorem importPath_cases (after : Inventory) (p : Relative) :
    after.get p = none ∧ importPath host after p = inFiles (host.unlinkScoped p) ∨
      after.get p ≠ none ∧ importPath host after p = inFiles (host.replaceRegularFile p) := by
  by_cases removed : after.get p = none
  · exact .inl ⟨removed,if_pos removed⟩
  · exact .inr ⟨removed,if_neg removed⟩

/-- The changed paths with the inventory they come from and the state in which the run
begins to import them, if it gets there. -/
def toImport (w : WorkerSupervisor) (lib : Library) (host : WorkerHost F) (session : Session) (arguments : Fields)
    (input : WorkerInput) (s : WorkerState F) : Option (List Relative × Inventory × WorkerState F) :=
  match w.accept lib s.store session arguments input with
  | .error _ => none
  | .ok order =>
    match w.reserve order input s.store with
    | .error _ => none
    | .ok (attempt,store) =>
      match prepare host s.files with
      | .error _ _ => none
      | .ok _ files =>
        match w.examine host order attempt ⟨store,files⟩ with
        | .error _ _ => none
        | .ok (_,after,changed) mid => some (changed,after,mid)

theorem toImport_some {session : Session} {arguments : Fields} {s mid : WorkerState F} {changed : List Relative}
    {after : Inventory} (reached : w.toImport lib host session arguments input s = some (changed,after,mid)) :
    ∃ order attempt store files output, w.accept lib s.store session arguments input = .ok order ∧
      w.reserve order input s.store = .ok (attempt,store) ∧ prepare host s.files = .ok () files ∧
      w.examine host order attempt ⟨store,files⟩ = .ok (output,after,changed) mid := by
  unfold toImport at reached
  split at reached
  next => cases reached
  next order accepted =>
    split at reached
    next => cases reached
    next attempt store reserved =>
      split at reached
      next => cases reached
      next files prepared =>
        split at reached
        next => cases reached
        next output _ _ _ examined =>
          cases reached
          exact ⟨order,attempt,store,files,output,accepted,reserved,prepared,examined⟩

theorem inFiles_triple {α : Type} {call : EStateM WorkerException F α} {pre : F → Prop} {post : α → F → Prop}
    {raised : WorkerException → F → Prop} (each : Triple pre call post raised) :
    Triple (fun s : WorkerState F => pre s.files) (inFiles call) (fun a s => post a s.files) (fun e s => raised e s.files) := by
  intro s holds
  have outcome := each s.files holds
  unfold inFiles
  cases result : call s.files with
  | ok value files =>
    rw [result] at outcome
    exact outcome
  | error e files =>
    rw [result] at outcome
    exact outcome

theorem demand_keeps {S : Type} {holding : S → Prop} {p : Prop} [Decidable p] {e : WorkerException} :
    Triple holding (demand p e) (fun _ => holding) (fun _ => holding) :=
  Triple.ite (fun _ => Triple.pure (fun _ holds => holds)) (fun _ => Triple.throw (fun _ holds => holds))

theorem demand_holds {S : Type} {holding : S → Prop} {raised : WorkerException → S → Prop} {p : Prop} [Decidable p]
    {e : WorkerException} (failed : ∀ s, holding s → raised e s) :
    Triple holding (demand p e) (fun _ s => holding s ∧ p) raised :=
  Triple.ite (fun yes => Triple.pure (fun _ holds => ⟨holds,yes⟩)) (fun _ => Triple.throw failed)

theorem mark_keeps {state : AttemptState} {finishedAt artifact : Option String}
    {raised : WorkerException → WorkerState F → Prop} :
    Triple (fun s => keep s.files) (mark attempt state finishedAt artifact) (fun _ s => keep s.files) raised :=
  fun _ holds => holds

theorem checkChanges_keeps {before after : Inventory} :
    Triple (fun s : WorkerState F => keep s.files) (w.checkChanges order before after) (fun _ s => keep s.files)
      (fun _ s => keep s.files) :=
  demand_keeps.bind (fun _ => demand_keeps.bind (fun _ => Triple.pure (fun _ holds => holds)))

section
variable (kept : host.Keeps keep)
include kept

theorem prepare_keeps : Triple keep (prepare host) (fun _ => keep) (fun _ => keep) :=
  kept.resolveParent.bind (fun _ => kept.makeScratchRoot.bind (fun _ => kept.makeScratch))

theorem launch_keeps : Triple (fun s => keep s.files) (w.launch host order attempt) (fun _ s => keep s.files)
    (fun _ s => keep s.files) := by
  have given : Triple (fun s : WorkerState F => keep s.files) (w.handOver host) (fun _ s => keep s.files)
      (fun _ s => keep s.files) := by
    unfold handOver
    split
    next uid gid _ => exact inFiles_triple (kept.handOver uid gid)
    next => exact Triple.pure (fun _ holds => holds)
  refine (Triple.forM_const (fun text _ => inFiles_triple (kept.copyScopedInput _))).bind (fun _ => given.bind (fun _ => ?_))
  refine (inFiles_triple kept.snapshotTree).bind (fun _ => mark_keeps.bind (fun _ => ?_))
  exact (inFiles_triple (kept.runWorker _ _ _ _ _)).bind (fun _ => Triple.pure (fun _ holds => holds))

theorem checkConflict_keeps {before : Inventory} {p : Relative} :
    Triple (fun s => keep s.files) (checkConflict host before p) (fun _ s => keep s.files) (fun _ s => keep s.files) :=
  (inFiles_triple (kept.regularFileState p)).bind (fun _ => demand_keeps)

theorem review_keeps {before : Inventory} {output : Option String} :
    Triple (fun s => keep s.files) (w.review host order before output) (fun _ s => keep s.files)
      (fun _ s => keep s.files) := by
  have checked : Triple (fun s : WorkerState F => keep s.files) (w.checkOutput output) (fun _ s => keep s.files)
      (fun _ s => keep s.files) := by
    unfold checkOutput
    split
    next => exact demand_keeps.bind (fun _ => Triple.pure (fun _ holds => holds))
    next => exact Triple.throw (fun _ holds => holds)
  refine checked.bind (fun _ => (inFiles_triple kept.snapshotTree).bind (fun _ => ?_))
  refine checkChanges_keeps.bind (fun _ => ?_)
  exact (Triple.forM_const (fun p _ => checkConflict_keeps kept)).bind (fun _ => Triple.pure (fun _ holds => holds))

theorem examine_keeps : Triple (fun s => keep s.files) (w.examine host order attempt) (fun _ s => keep s.files)
    (fun _ s => keep s.files) :=
  (launch_keeps kept).bind (fun _ => review_keeps kept)

theorem run_unreached {session : Session} {arguments : Fields} {s : WorkerState F} (holds : keep s.files)
    (short : w.toImport lib host session arguments input s = none) :
    ∃ e next, w.run lib host session arguments input s = .error e next ∧ keep next.files := by
  unfold toImport at short
  unfold run
  cases accepted : w.accept lib s.store session arguments input with
  | error e => exact ⟨e,s,rfl,holds⟩
  | ok order =>
    rw [accepted] at short
    dsimp only at short ⊢
    cases reserved : w.reserve order input s.store with
    | error e => exact ⟨e,s,rfl,holds⟩
    | ok pair =>
      obtain ⟨attempt,store⟩ := pair
      rw [reserved] at short
      dsimp only at short ⊢
      rw [conclude_eq]
      have first := prepare_keeps kept s.files holds
      dsimp only
      cases prepared : prepare host s.files with
      | error e files =>
        rw [prepared] at first
        exact ⟨e,_,rfl,first⟩
      | ok _ files =>
        rw [prepared] at first short
        dsimp only at short ⊢
        have middle := @examine_keeps F w host order attempt keep kept ⟨store,files⟩ first
        unfold guarded
        rw [work_eq]
        cases examined : w.examine host order attempt ⟨store,files⟩ with
        | error e next =>
          rw [examined] at middle
          exact ⟨e,_,rfl,kept.removeScratch _ middle⟩
        | ok found mid =>
          rw [examined] at short
          cases short

theorem toImport_keeps {session : Session} {arguments : Fields} {s mid : WorkerState F} {changed : List Relative}
    {after : Inventory} (holds : keep s.files)
    (reached : w.toImport lib host session arguments input s = some (changed,after,mid)) : keep mid.files := by
  obtain ⟨order,attempt,store,files,output,_,_,prepared,examined⟩ := toImport_some reached
  have first := prepare_keeps kept s.files holds
  rw [prepared] at first
  have middle := @examine_keeps F w host order attempt keep kept ⟨store,files⟩ first
  rwa [examined] at middle

end

/-- A run that comes to its imports ends as their loop does, with the scratch removed. -/
theorem run_reached {session : Session} {arguments : Fields} {s mid : WorkerState F} {changed : List Relative}
    {after : Inventory} (reached : w.toImport lib host session arguments input s = some (changed,after,mid)) :
    match (changed.forM (importPath host after) : EStateM WorkerException (WorkerState F) PUnit) mid with
    | .ok _ next => ∃ result store, w.run lib host session arguments input s = .ok result ⟨store,host.removeScratch next.files⟩ ∧
        result.changedPaths = changed
    | .error e next => ∃ store, w.run lib host session arguments input s = .error e ⟨store,host.removeScratch next.files⟩ := by
  obtain ⟨order,attempt,store,files,output,accepted,reserved,prepared,examined⟩ := toImport_some reached
  unfold run
  rw [accepted]
  dsimp only
  rw [reserved]
  dsimp only
  rw [conclude_eq]
  dsimp only
  rw [prepared]
  dsimp only
  unfold guarded
  rw [work_eq,examined]
  dsimp only
  cases (changed.forM (importPath host after) : EStateM WorkerException (WorkerState F) PUnit) mid with
  | ok _ next => exact ⟨_,_,rfl,rfl⟩
  | error e next => exact ⟨_,rfl⟩

theorem ends_run_iff {returned raised : F → Prop} {session : Session} {arguments : Fields} {s : WorkerState F}
    (kept : host.Keeps keep) (start : keep s.files) (early : ∀ files, keep files → raised files)
    (clean : ∀ files, (returned (host.removeScratch files) ↔ returned files) ∧ (raised (host.removeScratch files) ↔ raised files)) :
    Ends (fun s => returned s.files) (fun s => raised s.files) (w.run lib host session arguments input s) ↔
      ∀ changed after mid, w.toImport lib host session arguments input s = some (changed,after,mid) →
        Ends (fun s => returned s.files) (fun s => raised s.files)
          ((changed.forM (importPath host after) : EStateM WorkerException (WorkerState F) PUnit) mid) := by
  cases imports : w.toImport lib host session arguments input s with
  | none =>
    obtain ⟨e,next,ran,holds⟩ := run_unreached kept start imports
    rw [ran]
    refine iff_of_true (early _ holds) ?_
    intro _ _ _ reached
    cases reached
  | some found =>
    obtain ⟨changed,after,mid⟩ := found
    have ran := run_reached imports
    have only : (∀ changed' after' mid', some (changed,after,mid) = some (changed',after',mid') →
        Ends (fun s => returned s.files) (fun s => raised s.files)
          ((changed'.forM (importPath host after') : EStateM WorkerException (WorkerState F) PUnit) mid')) ↔
        Ends (fun s => returned s.files) (fun s => raised s.files)
          ((changed.forM (importPath host after) : EStateM WorkerException (WorkerState F) PUnit) mid) := by
      constructor
      · exact fun all => all _ _ _ rfl
      · intro ends _ _ _ same
        cases same
        exact ends
    rw [only]
    cases ended : (changed.forM (importPath host after) : EStateM WorkerException (WorkerState F) PUnit) mid with
    | ok _ next =>
      rw [ended] at ran
      obtain ⟨result,store,equal,_⟩ := ran
      rw [equal]
      exact (clean next.files).1
    | error e next =>
      rw [ended] at ran
      obtain ⟨store,equal⟩ := ran
      rw [equal]
      exact (clean next.files).2

end WorkerSupervisor
end SjgControl

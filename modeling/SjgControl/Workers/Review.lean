import SjgControl.Workers.Calls

/-! What holds when a worker run on a POSIX host begins to import: the scratch is what the
launcher left, the changed paths are those at which the two inventories differ, and without
writes of the parent agent the first inventory is that of the parent's own files. -/
namespace SjgControl
open Disk Hoare Relational Workers

namespace PosixHost
open WorkerSupervisor

variable {m : PosixHost} {lib : Library} {w : WorkerSupervisor} {order : WorkOrder} {attempt : String}

def Quiet (m : PosixHost) : Prop := ∀ n, (m.agent n).parent = none

theorem after_parent (quiet : m.Quiet) (s : Workspaces) (n : Nat) : (s.after (m.agent n)).parent = s.parent := by
  unfold Workspaces.after
  rw [quiet n]
  rfl

theorem call_triple {α : Type} {act : Files α} {pre : Workspaces → Prop} {post : α → Workspaces → Prop}
    {raised : WorkerException → Workspaces → Prop} (passes : ∀ s n, pre s → pre (s.after (m.agent n)))
    (body : Triple pre act post raised) (refused : ∀ name s, pre s → raised (.exception name) s) :
    Triple pre (m.call act) post raised := by
  intro s holds
  unfold call
  split
  next outcome result =>
    split at result
    next => cases result
    next =>
      have ended := body (s.after (m.agent s.calls)) (passes s _ holds)
      rwa [result] at ended
  next e outcome result =>
    split at result
    next name _ =>
      cases result
      exact refused name _ (passes s _ holds)
    next =>
      have ended := body (s.after (m.agent s.calls)) (passes s _ holds)
      rwa [result] at ended

/-- What of a state only the imports and the parent agent may change. -/
def outside (s : Workspaces) : Disk.Tree PosixPath.Name × List (Relative × Option Node) × List Relative :=
  (s.parent,s.imported,s.lost)

section
variable {keep : Disk.Tree PosixPath.Name × List (Relative × Option Node) × List Relative → Prop}

theorem copy_keeps (p : Relative) : Triple (fun s => keep (outside s)) (m.copyScopedInput p)
    (fun _ s => keep (outside s)) (fun _ s => keep (outside s)) := by
  intro s holds
  unfold copyScopedInput
  dsimp only
  cases parentFd none p s.parent with
  | error e _ => exact holds
  | ok arrived _ =>
    cases arrived with
    | false => exact holds
    | true =>
      dsimp only
      cases s.parent.node p with
      | none => exact holds
      | some n =>
        cases n with
        | link | special | directory => exact holds
        | file content mode owner =>
          dsimp only
          cases Disk.Tree.openDirectory (some 0o755#12) [] p.dropLast s.scratch with
          | error _ scratch => exact holds
          | ok _ scratch =>
            dsimp only
            by_cases free : scratch.accepts p
            · rw [dif_pos free]
              exact holds
            · rw [dif_neg free]
              exact holds

theorem state_same {pre : Workspaces → Prop} (p : Relative) :
    Triple pre (regularFileState lib p) (fun _ => pre) (fun _ => pre) := by
  intro s holds
  unfold regularFileState
  cases parentFd none p s.parent with
  | error e _ => exact holds
  | ok arrived _ =>
    cases arrived with
    | false => exact holds
    | true =>
      dsimp only
      cases s.parent.node p with
      | none => exact holds
      | some n => cases n <;> exact holds

theorem host_keeps (passes : ∀ s n, keep (outside s) → keep (outside (s.after (m.agent n)))) :
    (m.host lib).Keeps (fun s => keep (outside s)) where
  resolveParent := call_triple passes (fun _ holds => holds) (fun _ _ holds => holds)
  makeScratchRoot := call_triple passes (fun _ holds => holds) (fun _ _ holds => holds)
  makeScratch := call_triple passes (fun _ holds => holds) (fun _ _ holds => holds)
  copyScopedInput p := call_triple passes (copy_keeps p) (fun _ _ holds => holds)
  handOver uid _ := call_triple passes (by
    intro s holds
    unfold handOver
    by_cases linked : ∃ entry ∈ s.scratch.entries.entries, entry.2 = .link
    · rw [if_pos linked]
      exact holds
    · rw [if_neg linked]
      exact holds) (fun _ _ holds => holds)
  snapshotTree := call_triple passes (by
    intro s holds
    unfold snapshotTree
    cases inventory lib (listing s.scratch) <;> exact holds) (fun _ _ holds => holds)
  runWorker _ _ _ _ _ := call_triple passes (by
    intro s holds
    unfold runWorker
    cases m.outcome <;> exact holds) (fun _ _ holds => holds)
  regularFileState p := call_triple passes (state_same p) (fun _ _ holds => holds)
  removeScratch _ holds := holds

end

/-! What is copied. -/

/-- The named files and no others, and none of the names is taken by a directory. -/
def Copied (parent : Disk.Tree PosixPath.Name) (names : List Relative) (scratch : Disk.Tree PosixPath.Name) : Prop :=
  (∀ p ∈ names, p ≠ [] ∧ Open parent p) ∧ ∀ q, scratch.content q = if q ∈ names then parent.content q else none

variable {t u : Disk.Tree PosixPath.Name} {p : Relative} {names : List Relative}

theorem Copied.absent (copied : Copied t names u) (some_ : p ≠ []) (free : Open t p) (none_ : t.content p = none) :
    Copied t (names ++ [p]) u := by
  refine ⟨?_,?_⟩
  · intro q inside
    rcases List.mem_append.mp inside with early | last
    · exact copied.1 q early
    · rw [List.mem_singleton.mp last]
      exact ⟨some_,free⟩
  · intro q
    rw [copied.2 q]
    by_cases here : q = p
    · subst here
      simp [none_]
    · simp [here]

theorem Copied.put {v : Disk.Tree PosixPath.Name} (copied : Copied t names u) (some_ : p ≠ []) (free : Open t p)
    (new : v.content p = t.content p) (others : ∀ q, q ≠ p → v.content q = u.content q) : Copied t (names ++ [p]) v := by
  refine ⟨?_,?_⟩
  · intro q inside
    rcases List.mem_append.mp inside with early | last
    · exact copied.1 q early
    · rw [List.mem_singleton.mp last]
      exact ⟨some_,free⟩
  · intro q
    by_cases here : q = p
    · subst here
      simp [new]
    · rw [others q here,copied.2 q]
      simp [here]

theorem copy_ran : Triple (fun s => s.parent = t ∧ Copied t names s.scratch) (m.copyScopedInput p)
    (fun _ s => s.parent = t ∧ Copied t (names ++ [p]) s.scratch) (fun _ _ => True) := by
  rintro s ⟨parent,copied⟩
  subst parent
  unfold copyScopedInput
  dsimp only
  by_cases some_ : p = []
  · subst some_
    exact trivial
  rcases parentFd_none (t := s.parent) some_ with ⟨⟨e,stopped⟩,_⟩ | ⟨clear,⟨arrives,_⟩ | ⟨ends,none_⟩⟩
  · rw [stopped]
    exact trivial
  · rw [arrives]
    dsimp only
    have free (leaf : ∀ mode, s.parent.node p ≠ some (.directory mode)) : Open s.parent p := by
      refine ⟨clear,?_⟩
      rintro (root | ⟨mode,found⟩)
      · exact some_ root
      · exact leaf mode found
    cases found : s.parent.node p with
    | none => exact ⟨rfl,copied.absent some_ (free (by simp [found])) (by simp [Disk.Tree.content,found])⟩
    | some n =>
      cases n with
      | link | special | directory => exact trivial
      | file content mode owner =>
        dsimp only
        cases walked : Disk.Tree.openDirectory (some 0o755#12) [] p.dropLast s.scratch with
        | error _ scratch => exact trivial
        | ok _ scratch =>
          dsimp only
          by_cases accepts : scratch.accepts p
          · rw [dif_pos accepts]
            refine ⟨rfl,copied.put some_ (free (by simp [found])) ?_ ?_⟩
            · simp [Disk.Tree.content,found,Disk.Tree.node_put]
            · intro q other
              rw [← Disk.Tree.content_kept (Disk.Tree.openDirectory_kept walked q)]
              simp [Disk.Tree.content,Disk.Tree.node_put,other]
          · rw [dif_neg accepts]
            exact trivial
  · rw [ends]
    have absent := node_none_of_not_directory some_ none_
    refine ⟨rfl,copied.absent some_ ⟨clear,?_⟩ (by simp [Disk.Tree.content,absent])⟩
    rintro (root | ⟨mode,found⟩)
    · exact some_ root
    · rw [absent] at found
      cases found

theorem content_chown (uid : Nat) (q : Relative) :
    (t.convert (chown uid) (fun _ => ⟨_,rfl⟩)).content q = t.content q := by
  unfold Disk.Tree.content
  rw [Disk.Tree.node_convert]
  cases t.node q with
  | none => rfl
  | some n => cases n <;> rfl

/-! From the launch to the conflict checks. -/

def declared (order : WorkOrder) : List Relative := (Policy.frozen (order.readPaths ++ order.writePaths)).map relative

/-- Without writes of the parent agent, what was copied so far. -/
def Copying (m : PosixHost) (t : Disk.Tree PosixPath.Name) (names : List Relative) (s : Workspaces) : Prop :=
  m.Quiet → s.parent = t ∧ Copied t names s.scratch

theorem Copying.after {s : Workspaces} (copying : Copying m t names s) (n : Nat) : Copying m t names (s.after (m.agent n)) := by
  intro quiet
  rw [after_parent quiet]
  exact copying quiet

theorem copy_copying : Triple (Copying m t names) ((m.host lib).copyScopedInput p) (fun _ => Copying m t (names ++ [p]))
    (fun _ _ => True) := by
  refine call_triple (fun s n copying => copying.after n) ?_ (fun _ _ _ => trivial)
  exact (Triple.given (fun _ => copy_ran)).weaken (fun _ copying => copying) (fun _ _ copying => copying) (fun _ _ _ => trivial)

theorem handOver_copying : Triple (fun s => Copying m t names s.files) (w.handOver (m.host lib))
    (fun _ s => Copying m t names s.files) (fun _ _ => True) := by
  unfold WorkerSupervisor.handOver
  split
  next uid gid _ =>
    have owned : Triple (Copying m t names) (handOver uid) (fun _ => Copying m t names) (fun _ _ => True) := by
      intro s copying
      unfold handOver
      by_cases linked : ∃ entry ∈ s.scratch.entries.entries, entry.2 = .link
      · rw [if_pos linked]
        exact trivial
      · rw [if_neg linked]
        intro quiet
        obtain ⟨parent,names_,files⟩ := copying quiet
        exact ⟨parent,names_,fun q => (content_chown uid q).trans (files q)⟩
    have called : Triple (Copying m t names) (m.call (handOver uid)) (fun _ => Copying m t names) (fun _ _ => True) :=
      call_triple (fun s n copying => copying.after n) owned (fun _ _ _ => trivial)
    exact inFiles_triple called
  next => exact Triple.pure (fun _ copying => copying)

/-- An inventory was taken from a tree, of copies if the parent agent writes nothing. -/
def Listed (m : PosixHost) (lib : Library) (t : Disk.Tree PosixPath.Name) (order : WorkOrder) (before : Inventory)
    (s : Workspaces) : Prop :=
  ∃ u, Lists lib u before ∧ (m.Quiet → s.parent = t ∧ Copied t (declared order) u)

theorem Listed.after {before : Inventory} {s : Workspaces} (listed : Listed m lib t order before s) (n : Nat) :
    Listed m lib t order before (s.after (m.agent n)) := by
  obtain ⟨u,lists,copies⟩ := listed
  refine ⟨u,lists,?_⟩
  intro quiet
  rw [after_parent quiet]
  exact copies quiet

theorem snapshot_listed : Triple (Copying m t (declared order)) ((m.host lib).snapshotTree)
    (fun before => Listed m lib t order before) (fun _ _ => True) := by
  refine call_triple (fun s n copying => copying.after n) ?_ (fun _ _ _ => trivial)
  intro s copying
  unfold snapshotTree
  cases taken : inventory lib (listing s.scratch) with
  | error e => exact trivial
  | ok found => exact ⟨s.scratch,inventory_lists taken,copying⟩

theorem runWorker_listed {before : Inventory} {workerType model prompt attempt : String} {timeout : Int} :
    Triple (Listed m lib t order before) ((m.host lib).runWorker workerType model prompt attempt timeout)
      (fun _ s => s.scratch = m.left ∧ Listed m lib t order before s) (fun _ _ => True) := by
  refine call_triple (fun s n listed => listed.after n) ?_ (fun _ _ _ => trivial)
  intro s listed
  unfold runWorker
  cases m.outcome with
  | error e => exact trivial
  | ok output => exact ⟨rfl,listed⟩

/-- The scratch is what the launcher left. -/
def Launched (m : PosixHost) (lib : Library) (t : Disk.Tree PosixPath.Name) (order : WorkOrder) (before : Inventory)
    (s : Workspaces) : Prop := s.scratch = m.left ∧ Listed m lib t order before s

theorem launch_ran : Triple (fun s => Copying m t [] s.files) (w.launch (m.host lib) order attempt)
    (fun found s => Launched m lib t order found.1 s.files) (fun _ _ => True) := by
  have copies : Triple (fun s : WorkerState Workspaces => Copying m t [] s.files)
      ((Policy.frozen (order.readPaths ++ order.writePaths)).forM
        (fun text => inFiles ((m.host lib).copyScopedInput (relative text))))
      (fun _ s => Copying m t (declared order) s.files) (fun _ _ => True) := by
    apply @Triple.forM _ (WorkerState Workspaces) _ _ (fun front s => Copying m t (front.map relative) s.files)
    intro front text back _
    rw [List.map_append]
    exact inFiles_triple copy_copying
  refine copies.bind (fun _ => handOver_copying.bind (fun _ => (inFiles_triple snapshot_listed).bind (fun before => ?_)))
  refine (@mark_keeps _ _ (Listed m lib t order before) _ _ _ _).bind (fun _ => ?_)
  exact (inFiles_triple runWorker_listed).bind (fun _ => Triple.pure (fun _ launched => launched))

theorem Launched.after {before : Inventory} {s : Workspaces} (launched : Launched m lib t order before s) (n : Nat) :
    Launched m lib t order before (s.after (m.agent n)) := ⟨launched.1,launched.2.after n⟩

/-- What an import starts from. -/
structure Reviewed (m : PosixHost) (lib : Library) (t : Disk.Tree PosixPath.Name) (order : WorkOrder) (before after : Inventory)
    (changed : List Relative) (s : Workspaces) : Prop where
  launched : Launched m lib t order before s
  left : Lists lib m.left after
  changes : changed = changedPaths before after
  scope : ∀ p ∈ changed, p ∈ order.writePaths.map relative

theorem snapshot_launched {before : Inventory} : Triple (Launched m lib t order before) ((m.host lib).snapshotTree)
    (fun after s => Launched m lib t order before s ∧ Lists lib m.left after) (fun _ _ => True) := by
  refine call_triple (fun s n launched => launched.after n) ?_ (fun _ _ _ => trivial)
  intro s launched
  unfold snapshotTree
  cases taken : inventory lib (listing s.scratch) with
  | error e => exact trivial
  | ok found => exact ⟨launched,launched.1 ▸ inventory_lists taken⟩

theorem checkChanges_reviewed {before after : Inventory} :
    Triple (fun s : WorkerState Workspaces => Launched m lib t order before s.files ∧ Lists lib m.left after)
      (w.checkChanges order before after) (fun changed s => Reviewed m lib t order before after changed s.files)
      (fun _ _ => True) := by
  refine (demand_holds (fun _ _ => trivial)).bind (fun _ => (demand_holds (fun _ _ => trivial)).bind (fun _ => Triple.pure ?_))
  rintro s ⟨⟨⟨launched,left⟩,inside⟩,_⟩
  refine ⟨launched,left,rfl,?_⟩
  intro p changed
  by_contra outside_
  exact List.ne_nil_of_mem (List.mem_filter.mpr ⟨changed,decide_eq_true outside_⟩) inside

theorem Reviewed.after {before after : Inventory} {changed : List Relative} {s : Workspaces}
    (reviewed : Reviewed m lib t order before after changed s) (n : Nat) :
    Reviewed m lib t order before after changed (s.after (m.agent n)) :=
  ⟨reviewed.launched.after n,reviewed.left,reviewed.changes,reviewed.scope⟩

theorem review_ran {before : Inventory} {output : Option String} :
    Triple (fun s => Launched m lib t order before s.files) (w.review (m.host lib) order before output)
      (fun found s => Reviewed m lib t order before found.2.1 found.2.2 s.files) (fun _ _ => True) := by
  have checked : Triple (fun s : WorkerState Workspaces => Launched m lib t order before s.files) (w.checkOutput output)
      (fun _ s => Launched m lib t order before s.files) (fun _ _ => True) := by
    unfold checkOutput
    split
    next =>
      exact (demand_holds (fun _ _ => trivial)).bind (fun _ => Triple.pure (fun _ launched => launched.1))
    next => exact Triple.throw (fun _ _ => trivial)
  refine checked.bind (fun text => (inFiles_triple snapshot_launched).bind (fun after => checkChanges_reviewed.bind (fun changed => ?_)))
  have conflicts : Triple (fun s : WorkerState Workspaces => Reviewed m lib t order before after changed s.files)
      (changed.forM (checkConflict (m.host lib) before))
      (fun _ s => Reviewed m lib t order before after changed s.files) (fun _ _ => True) := by
    refine Triple.forM_const (fun p _ => ?_)
    have read : Triple (Reviewed m lib t order before after changed) ((m.host lib).regularFileState p)
        (fun _ => Reviewed m lib t order before after changed) (fun _ _ => True) :=
      call_triple (fun s n reviewed => reviewed.after n)
        ((state_same p).weaken (fun _ reviewed => reviewed) (fun _ _ reviewed => reviewed) (fun _ _ _ => trivial))
        (fun _ _ _ => trivial)
    refine (inFiles_triple read).bind (fun state => ?_)
    exact Triple.ite (fun _ => Triple.pure (fun _ reviewed => reviewed)) (fun _ => Triple.throw (fun _ _ => trivial))
  exact conflicts.bind (fun _ => Triple.pure (fun _ reviewed => reviewed))

theorem examine_ran : Triple (fun s => Copying m t [] s.files) (w.examine (m.host lib) order attempt)
    (fun found s => ∃ before, Reviewed m lib t order before found.2.1 found.2.2 s.files) (fun _ _ => True) := by
  refine launch_ran.bind (fun found => ?_)
  exact review_ran.weaken (fun _ launched => launched) (fun _ _ reviewed => ⟨_,reviewed⟩) (fun _ _ _ => trivial)

theorem prepare_ran : Triple (fun s => m.Quiet → s.parent = t) (WorkerSupervisor.prepare (m.host lib))
    (fun _ s => Copying m t [] s) (fun _ _ => True) := by
  have passes (s : Workspaces) (n : Nat) (same : m.Quiet → s.parent = t) : m.Quiet → (s.after (m.agent n)).parent = t := by
    intro quiet
    rw [after_parent quiet]
    exact same quiet
  have idle : Triple (fun s => m.Quiet → s.parent = t) (m.call (pure ())) (fun _ s => m.Quiet → s.parent = t)
      (fun _ _ => True) :=
    call_triple passes (fun _ same => same) (fun _ _ _ => trivial)
  have empty : Triple (fun s => m.Quiet → s.parent = t) (m.call makeScratch) (fun _ s => Copying m t [] s)
      (fun _ _ => True) := by
    refine call_triple passes ?_ (fun _ _ _ => trivial)
    intro s same quiet
    refine ⟨same quiet,?_,?_⟩
    · intro p none_
      cases none_
    · intro q
      exact Disk.Tree.content_empty q
  exact idle.bind (fun _ => idle.bind (fun _ => empty))

theorem toImport_reviewed {session : Session} {arguments : Fields} {input : WorkerInput} {store : Store}
    {changed : List Relative} {after : Inventory} {mid : WorkerState Workspaces}
    (reached : w.toImport lib (m.host lib) session arguments input ⟨store,Workspaces.start t⟩ = some (changed,after,mid)) :
    ∃ order before, w.accept lib store session arguments input = .ok order ∧
      Reviewed m lib t order before after changed mid.files := by
  obtain ⟨order,attempt,store',files,output,accepted,_,prepared,examined⟩ := toImport_some reached
  have ready := prepare_ran.returned (fun _ => rfl) prepared
  obtain ⟨before,reviewed⟩ := examine_ran.returned ready examined
  exact ⟨order,before,accepted,reviewed⟩

theorem mem_changedPaths {before after : Inventory} : p ∈ changedPaths before after ↔ before.get p ≠ after.get p := by
  unfold changedPaths
  rw [List.mem_insertionSort,List.mem_filter,decide_eq_true_iff,and_iff_right_iff_imp]
  intro differs
  rw [List.mem_dedup,List.mem_map]
  have found {inventory : Inventory} (some_ : inventory.get p ≠ none) : ∃ entry ∈ inventory, entry.1 = p := by
    unfold Inventory.get at some_
    rw [ne_eq,Option.map_eq_none_iff,List.find?_eq_none] at some_
    push Not at some_
    obtain ⟨entry,inside,here⟩ := some_
    exact ⟨entry,inside,by simpa using here⟩
  by_cases absent : before.get p = none
  · have there : after.get p ≠ none := by
      rw [absent] at differs
      exact differs.symm
    obtain ⟨entry,inside,here⟩ := found there
    exact ⟨entry,List.mem_append_right _ inside,here⟩
  · obtain ⟨entry,inside,here⟩ := found absent
    exact ⟨entry,List.mem_append_left _ inside,here⟩

theorem changedPaths_nodup (before after : Inventory) : (changedPaths before after).Nodup :=
  (List.perm_insertionSort _ _).nodup_iff.mpr ((List.nodup_dedup _).filter _)

section
variable {before after : Inventory} {changed : List Relative} {s : Workspaces}
  (reviewed : Reviewed m lib t order before after changed s)
include reviewed

theorem changed_some (inside : p ∈ changed) : p ≠ [] := by
  rintro rfl
  obtain ⟨u,lists,_⟩ := reviewed.launched.2
  rw [reviewed.changes,mem_changedPaths,lists [],reviewed.left []] at inside
  simp [Disk.Tree.content,Disk.Tree.node_root] at inside

theorem removed_iff : after.get p = none ↔ m.left.content p = none := by
  rw [reviewed.left p,Option.map_eq_none_iff]

end

end PosixHost
end SjgControl

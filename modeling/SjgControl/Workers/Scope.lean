import SjgControl.Workers.Race

/-! What a worker run does to a parent workspace in which nobody else writes. The copies are
then the parent's own files, no two changed paths lie one above the other, and so every
changed path can be imported whatever the imports before it left. -/
namespace SjgControl
open Disk Hoare Relational Workers

namespace WorkerSupervisor

theorem accept_scope {w : WorkerSupervisor} {lib : Library} {store : Store} {session : Session} {arguments : Fields}
    {input : WorkerInput} {order : WorkOrder} (accepted : w.accept lib store session arguments input = .ok order) :
    paths lib (Json.get arguments "writePaths") = .ok order.writePaths ∧
      (Json.textOr lib.render (Json.get arguments "type") ≠ "implementer" → order.writePaths = []) := by
  unfold accept at accepted
  obtain ⟨bound,_,accepted⟩ := bind_ok.mp accepted
  simp only [require_bind_ok,fetch_bind_ok] at accepted
  obtain ⟨_,role,_,_,accepted⟩ := accepted
  split at accepted
  next task _ =>
    obtain ⟨_,_,accepted⟩ := bind_ok.mp accepted
    simp only [require_bind_ok,fetch_bind_ok] at accepted
    obtain ⟨_,model,_,accepted⟩ := accepted
    obtain ⟨readPaths,_,accepted⟩ := bind_ok.mp accepted
    obtain ⟨writePaths,scope,accepted⟩ := bind_ok.mp accepted
    simp only [require_bind_ok,pure_ok] at accepted
    obtain ⟨readOnly,_,_,equal⟩ := accepted
    subst equal
    refine ⟨scope,?_⟩
    intro other
    by_contra some_
    exact readOnly ⟨other,some_⟩
  next =>
    obtain ⟨_,failed,_⟩ := bind_ok.mp accepted
    cases failed

end WorkerSupervisor

namespace PosixHost
open WorkerSupervisor

variable {m : PosixHost} {lib : Library} {t : Disk.Tree PosixPath.Name} {order : WorkOrder} {before after : Inventory}
  {changed : List Relative} {s : Workspaces}

theorem scope_declared {p : Relative} (inside : p ∈ order.writePaths.map relative) : p ∈ declared order := by
  obtain ⟨text,member,same⟩ := List.mem_map.mp inside
  refine List.mem_map.mpr ⟨text,?_,same⟩
  unfold Policy.frozen
  rw [List.mem_insertionSort,List.mem_dedup]
  exact List.mem_append_right _ member

theorem fileState_injective (digests : Function.Injective lib.sha256) : Function.Injective (fileState lib) := by
  intro a b same
  exact digests (Prod.mk.inj same).1

section
variable (quiet : m.Quiet) (reviewed : Reviewed m lib t order before after changed s)
include quiet reviewed

/-- A path is changed if it is in scope and the worker left another file there. -/
theorem changed_iff (digests : Function.Injective lib.sha256) (p : Relative) :
    p ∈ changed ↔ p ∈ order.writePaths.map relative ∧ t.content p ≠ m.left.content p := by
  obtain ⟨u,lists,copies⟩ := reviewed.launched.2
  obtain ⟨_,_,copied⟩ := copies quiet
  have differs (inside : p ∈ order.writePaths.map relative) : p ∈ changed ↔ t.content p ≠ m.left.content p := by
    rw [reviewed.changes,mem_changedPaths,lists p,reviewed.left p,copied p,if_pos (scope_declared inside),ne_eq,ne_eq]
    exact not_congr (Option.map_injective (fileState_injective digests)).eq_iff
  constructor
  · intro inside
    exact ⟨reviewed.scope p inside,(differs (reviewed.scope p inside)).mp inside⟩
  · exact fun ⟨inside,different⟩ => (differs inside).mpr different

theorem changed_open {p : Relative} (inside : p ∈ changed) : Open t p := by
  obtain ⟨u,_,copies⟩ := reviewed.launched.2
  exact ((copies quiet).2.1 p (scope_declared (reviewed.scope p inside))).2

/-- Of two changed paths none is above the other: both would be new, and the worker left a
file at each. -/
theorem changed_apart (digests : Function.Injective lib.sha256) {p q : Relative} (first : p ∈ changed) (second : q ∈ changed)
    (above : p <+: q) : p = q := by
  by_contra proper
  have longer : p <+: q.dropLast := by
    rw [← List.dropLast_append_getLast (changed_some reviewed second)] at above
    rcases List.prefix_concat_iff.mp above with same | early
    · rw [List.dropLast_append_getLast] at same
      exact absurd same proper
    · exact early
  have absent : t.node p = none := by
    rcases (changed_open quiet reviewed second).1 p longer with none_ | directory
    · exact none_
    · exact absurd (.inr directory) (changed_open quiet reviewed first).2
  have below : t.node q = none := by
    by_contra there
    exact (changed_open quiet reviewed first).2 (Disk.Tree.directory_above there above proper)
  have left {r : Relative} (inside : r ∈ changed) (none_ : t.node r = none) : ∃ bytes, m.left.content r = some bytes := by
    have different := ((changed_iff quiet reviewed digests r).mp inside).2
    rw [Disk.Tree.content,none_] at different
    exact Option.ne_none_iff_exists'.mp different.symm
  obtain ⟨bytes,file⟩ := left first absent
  obtain ⟨more,other⟩ := left second below
  exact proper (Disk.Tree.files_apart file other above)

end

/-! The imports. -/

/-- The paths that are done have what was wanted; elsewhere at most directories are new, and
these lead to paths that are done. -/
structure Importing (m : PosixHost) (t : Disk.Tree PosixPath.Name) (front : List Relative) (s : Workspaces) : Prop where
  scratch : s.scratch = m.left
  finished : ∀ q ∈ front, s.parent.node q = m.output q
  kept : ∀ q, q ∉ front → s.parent.node q = t.node q ∨
    t.node q = none ∧ (∃ mode, s.parent.node q = some (.directory mode)) ∧ ∃ p ∈ front, q <+: p.dropLast

theorem Importing.now (quiet : m.Quiet) {front : List Relative} (importing : Importing m t front s) :
    Importing m t front (m.now s) := by
  have same : (m.now s).parent = s.parent := after_parent quiet s s.calls
  refine ⟨importing.scratch,?_,?_⟩
  · rw [same]
    exact importing.finished
  · rw [same]
    exact importing.kept

section
variable (quiet : m.Quiet) (reviewed : Reviewed m lib t order before after changed s)
  (digests : Function.Injective lib.sha256) {front back : List Relative} {p : Relative} (whole : changed = front ++ p::back)
include quiet reviewed digests whole

theorem importing_open {s : Workspaces} (importing : Importing m t front s) : Open s.parent p := by
  have here : p ∈ changed := whole ▸ List.mem_append_right _ List.mem_cons_self
  have early {q : Relative} (inside : q ∈ front) : q ∈ changed := whole ▸ List.mem_append_left _ inside
  have fresh : p ∉ front := by
    have unique := reviewed.changes ▸ changedPaths_nodup before after
    rw [whole] at unique
    exact fun inside => (List.nodup_append.mp unique).2.2 p inside p List.mem_cons_self rfl
  have free := changed_open quiet reviewed here
  refine ⟨?_,?_⟩
  · intro d above
    have untouched : d ∉ front := by
      intro inside
      have same := changed_apart quiet reviewed digests (early inside) here (above.trans (List.dropLast_prefix p))
      subst same
      exact not_prefix_dropLast (changed_some reviewed here) above
    rcases importing.kept d untouched with same | ⟨_,directory,_⟩
    · rw [same]
      exact free.1 d above
    · exact .inr directory
  · rintro (root | ⟨mode,found⟩)
    · exact changed_some reviewed here root
    · rcases importing.kept p fresh with same | ⟨_,_,q,inside,above⟩
      · exact free.2 (.inr ⟨mode,same ▸ found⟩)
      · have same := changed_apart quiet reviewed digests here (early inside) (above.trans (List.dropLast_prefix q))
        subst same
        exact fresh inside

theorem import_importing : Triple (fun s : WorkerState Workspaces => Importing m t front s.files) (importPath (m.host lib) after p)
    (fun _ s => Importing m t (front ++ [p]) s.files)
    (fun e _ => (∃ name, e = .exception name) ∧ ∃ n, (m.agent n).refused ≠ none) := by
  intro s importing
  have here : p ∈ changed := whole ▸ List.mem_append_right _ List.mem_cons_self
  have some_ := changed_some reviewed here
  cases refused : (m.agent s.files.calls).refused with
  | some name =>
    rw [import_refused refused]
    exact ⟨⟨name,rfl⟩,s.files.calls,by simp [refused]⟩
  | none =>
    have current := importing.now quiet
    have free := importing_open quiet reviewed digests whole current
    -- a path that was done before, or not at all, is so still
    have finish {parent : Disk.Tree PosixPath.Name} (now_ : parent.node p = m.output p)
        (others : ∀ q, q ≠ p → parent.node q = (m.now s.files).parent.node q ∨
          (m.now s.files).parent.node q = none ∧ parent.node q = some (.directory 0o700#12) ∧ q <+: p.dropLast)
        {files : Workspaces} (same : files.parent = parent) (scratch : files.scratch = m.left) :
        Importing m t (front ++ [p]) files := by
      subst same
      refine ⟨scratch,?_,?_⟩
      · intro q inside
        rcases List.mem_append.mp inside with early | last
        · by_cases equal : q = p
          · rwa [equal]
          · rcases others q equal with kept | ⟨_,_,above⟩
            · rw [kept]
              exact current.finished q early
            · have member : q ∈ changed := whole ▸ List.mem_append_left _ early
              exact absurd (changed_apart quiet reviewed digests member here (above.trans (List.dropLast_prefix p))) equal
        · rwa [List.mem_singleton.mp last]
      · intro q outside_
        rw [List.mem_append,List.mem_singleton,not_or] at outside_
        rcases others q outside_.2 with kept | ⟨none_,directory,above⟩
        · rw [kept]
          rcases current.kept q outside_.1 with old | ⟨absent,made,r,inside,over_⟩
          · exact .inl old
          · exact .inr ⟨absent,made,r,List.mem_append_left _ inside,over_⟩
        · rcases current.kept q outside_.1 with old | ⟨_,⟨mode,made⟩,_⟩
          · exact .inr ⟨old ▸ none_,⟨_,directory⟩,p,List.mem_append_right _ (List.mem_singleton.mpr rfl),above⟩
          · rw [made] at none_
            cases none_
    rcases import_passes lib importing.scratch (removed_iff reviewed) some_ ⟨refused,free⟩ with
      ⟨done,absent,nothing⟩ | ⟨_,parent,done,now_,others⟩
    · rw [done]
      exact finish (absent.trans nothing.symm) (fun q _ => .inl rfl) rfl current.scratch
    · rw [done]
      exact finish now_ others rfl current.scratch

end

theorem imports_importing (quiet : m.Quiet) (reviewed : Reviewed m lib t order before after changed s)
    (digests : Function.Injective lib.sha256) :
    Triple (fun s : WorkerState Workspaces => Importing m t [] s.files) (changed.forM (importPath (m.host lib) after))
      (fun _ s => Importing m t changed s.files)
      (fun e _ => (∃ name, e = .exception name) ∧ ∃ n, (m.agent n).refused ≠ none) := by
  apply @Triple.forM _ (WorkerState Workspaces) _ _ (fun front s => Importing m t front s.files)
  intro front p back whole
  exact import_importing quiet reviewed digests whole

theorem content_output (p : Relative) {u : Disk.Tree PosixPath.Name} (same : u.node p = m.output p) :
    u.content p = m.left.content p := by
  rw [Disk.Tree.content,same]
  unfold output Disk.Tree.content
  cases m.left.node p with
  | none => rfl
  | some n => cases n <;> rfl

theorem untouched_content {front : List Relative} {p : Relative} (importing : Importing m t front s) (outside_ : p ∉ front) :
    s.parent.content p = t.content p := by
  apply Disk.Tree.content_kept
  rcases importing.kept p outside_ with same | ⟨absent,directory,_⟩
  · exact .inl same
  · exact .inr ⟨absent,directory⟩

/-- What a run is to do: if it returns, the files outside its write scope are as they were, those
inside are the worker's, the paths it names are those with another content, and a worker that is
no implementer changed nothing; if it raises something other than an `OSError`, or no call was
refused, nothing is changed either. -/
structure InScope (lib : Library) (m : PosixHost) (arguments : Fields) (parent : Disk.Tree PosixPath.Name)
    (ending : EStateM.Result WorkerException (WorkerState Workspaces) WorkerResult) : Prop where
  returned : ∀ result next, ending = .ok result next →
    ∃ writePaths, paths lib (Json.get arguments "writePaths") = .ok writePaths ∧
      (∀ p, p ∉ writePaths.map relative → ∀ content mode owner,
        next.files.parent.node p = some (.file content mode owner) ↔ parent.node p = some (.file content mode owner)) ∧
      (∀ p ∈ writePaths.map relative, next.files.parent.content p = m.left.content p) ∧
      (∀ p, p ∈ result.changedPaths ↔ parent.content p ≠ next.files.parent.content p) ∧
      (Json.textOr lib.render (Json.get arguments "type") ≠ "implementer" → next.files.parent = parent)
  raised : ∀ e next, ending = .error e next →
    (∀ name, e ≠ .exception name) ∨ (∀ n, (m.agent n).refused = none) → next.files.parent = parent

/-- In a workspace where nobody else writes, a worker run stays in its scope. -/
theorem import_in_scope (w : WorkerSupervisor) (lib : Library) (m : PosixHost) (session : Session) (arguments : Fields)
    (input : WorkerInput) (store : Store) (parent : Disk.Tree PosixPath.Name) (quiet : m.Quiet)
    (digests : Function.Injective lib.sha256) :
    InScope lib m arguments parent (w.run lib (m.host lib) session arguments input ⟨store,Workspaces.start parent⟩) := by
  have passes (s : Workspaces) (n : Nat) (same : (outside s).1 = parent) : (outside (s.after (m.agent n))).1 = parent :=
    (after_parent quiet s n).trans same
  have kept := @host_keeps m lib (fun o => o.1 = parent) passes
  cases imports : w.toImport lib (m.host lib) session arguments input ⟨store,Workspaces.start parent⟩ with
  | none =>
    obtain ⟨e,next,ran,same⟩ := run_unreached kept rfl imports
    rw [ran]
    refine ⟨by simp,?_⟩
    intro _ _ ended _
    cases ended
    exact same
  | some found =>
    obtain ⟨changed,after,mid⟩ := found
    obtain ⟨order,before,accepted,reviewed⟩ := toImport_reviewed imports
    have same : mid.files.parent = parent := toImport_keeps kept rfl imports
    have start : Importing m parent [] mid.files :=
      ⟨reviewed.launched.1,fun _ none_ => absurd none_ List.not_mem_nil,fun q _ => .inl (by rw [same])⟩
    have loop := imports_importing quiet reviewed digests mid start
    obtain ⟨scope,readOnly⟩ := accept_scope accepted
    have ran := run_reached imports
    cases ended : (changed.forM (importPath (m.host lib) after) : EStateM WorkerException (WorkerState Workspaces) PUnit) mid with
    | error e next =>
      rw [ended] at ran loop
      obtain ⟨store',equal⟩ := ran
      obtain ⟨⟨name,named⟩,n,refused⟩ := loop
      rw [equal]
      refine ⟨by simp,?_⟩
      intro _ _ raised excuse
      cases raised
      rcases excuse with other | granted
      · exact absurd named (other name)
      · exact absurd (granted n) refused
    | ok _ next =>
      rw [ended] at ran loop
      obtain ⟨result,store',equal,names⟩ := ran
      rw [equal]
      refine ⟨?_,by simp⟩
      intro _ _ returned
      cases returned
      refine ⟨order.writePaths,scope,?_,?_,?_,?_⟩
      · intro p outside_ content mode owner
        have untouched : p ∉ changed := fun inside => outside_ (reviewed.scope p inside)
        change next.files.parent.node p = _ ↔ _
        rcases loop.kept p untouched with old | ⟨absent,⟨mode',directory⟩,_⟩
        · rw [old]
        · rw [absent,directory]
          simp
      · intro p inside
        change next.files.parent.content p = _
        by_cases member : p ∈ changed
        · exact content_output p (loop.finished p member)
        · rw [untouched_content loop member]
          by_contra different
          exact member ((changed_iff quiet reviewed digests p).mpr ⟨inside,different⟩)
      · intro p
        rw [names]
        change _ ↔ parent.content p ≠ next.files.parent.content p
        by_cases member : p ∈ changed
        · rw [content_output p (loop.finished p member)]
          exact iff_of_true member ((changed_iff quiet reviewed digests p).mp member).2
        · rw [untouched_content loop member]
          exact iff_of_false member (fun different => different rfl)
      · intro other
        have nothing : changed = [] := by
          rw [List.eq_nil_iff_forall_not_mem]
          intro p inside
          have scoped_ := reviewed.scope p inside
          rw [readOnly other] at scoped_
          cases scoped_
        subst nothing
        cases ended
        exact same

theorem digests_injective : Function.Injective digests.sha256 := by
  intro a b same
  have texts := congrArg String.toList same
  simp only [digests,bytesText,String.toList_ofList] at texts
  refine List.map_injective_iff.mpr ?_ texts
  intro x y equal
  have small (z : UInt8) : (Char.ofNat z.toNat).toNat = z.toNat := by
    have bound := z.toNat_lt
    unfold Char.ofNat
    rw [dif_pos (Or.inl (by omega))]
    rfl
  have numbers := congrArg Char.toNat equal
  rw [small,small] at numbers
  exact UInt8.toNat_inj.mp numbers

def working : PosixHost where
  supervisor := 0
  agent _ := ⟨none,none⟩
  outcome := .ok (some "done")
  left := oneFile 2 0o644#12

theorem import_in_scope_working :
    InScope digests working change (oneFile 1 0o644#12) (builder.run digests (working.host digests) wake change clock
        ⟨awake,Workspaces.start (oneFile 1 0o644#12)⟩) := by
  exact import_in_scope builder digests working wake change clock awake (oneFile 1 0o644#12) (fun _ => rfl)
    digests_injective

example : (endState (builder.run digests (working.host digests) wake change clock
    ⟨awake,Workspaces.start (oneFile 1 0o644#12)⟩)).files.parent.content [['f']] = some [2] := by decide +kernel

end PosixHost
end SjgControl

import SjgControl.Workers.Posix

/-! What the calls of a POSIX host do: where each of them goes through, what it then leaves,
and that all but the two import calls leave the parent workspace to the parent agent. -/
namespace SjgControl
open Disk Hoare Relational Workers

namespace PosixHost

variable {m : PosixHost} {lib : Library} {t : Disk.Tree PosixPath.Name} {p : Relative}

/-- Nothing but directories leads to the path, and the path itself is none. -/
def Open (t : Disk.Tree PosixPath.Name) (p : Relative) : Prop := t.Clear p.dropLast ∧ ¬ t.isDirectory p

theorem clear_root (t : Disk.Tree PosixPath.Name) : t.Clear [] := by
  intro d above
  rw [List.prefix_nil.mp above]
  exact .inl t.node_root

theorem parentFd_none (some_ : p ≠ []) :
    (∃ e, parentFd none p t = .error e t) ∧ ¬ t.Clear p.dropLast ∨
      t.Clear p.dropLast ∧ (parentFd none p t = .ok true t ∧ t.isDirectory p.dropLast ∨
        parentFd none p t = .ok false t ∧ ¬ t.isDirectory p.dropLast) := by
  unfold parentFd
  rw [if_neg some_]
  rcases @Disk.Tree.openDirectory_none _ _ t [] p.dropLast (.inl rfl) (clear_root t) with ⟨stopped,blocked⟩ | ⟨clear,way⟩
  · rw [stopped]
    exact .inl ⟨⟨_,rfl⟩,blocked⟩
  · refine .inr ⟨clear,?_⟩
    rcases way with ⟨arrives,directory⟩ | ⟨ends,none_⟩
    · rw [arrives]
      exact .inl ⟨rfl,directory⟩
    · rw [ends]
      exact .inr ⟨rfl,none_⟩

theorem parentFd_some (mode : Mode) (some_ : p ≠ []) (clear : t.Clear p.dropLast) :
    ∃ u, parentFd (some mode) p t = .ok true u ∧ u.isDirectory p.dropLast ∧
      ∀ q, u.node q = t.node q ∨ t.node q = none ∧ u.node q = some (.directory mode) ∧ q <+: p.dropLast := by
  obtain ⟨u,arrives,directory,kept⟩ := @Disk.Tree.openDirectory_some _ _ t [] p.dropLast mode (.inl rfl) clear
  refine ⟨u,?_,directory,kept⟩
  unfold parentFd
  rw [if_neg some_,arrives]

theorem parentFd_blocked (mode : Mode) (some_ : p ≠ []) (blocked : ¬ t.Clear p.dropLast) :
    ∃ e u, parentFd (some mode) p t = .error e u := by
  unfold parentFd
  rw [if_neg some_]
  cases walked : Disk.Tree.openDirectory (some mode) [] p.dropLast t with
  | ok arrived u => exact absurd (Disk.Tree.clear_of_openDirectory (clear_root t) walked) blocked
  | error e u => exact ⟨_,u,rfl⟩

theorem node_none_of_not_directory (some_ : p ≠ []) (none_ : ¬ t.isDirectory p.dropLast) : t.node p = none := by
  by_contra inside
  rw [← List.dropLast_append_getLast some_] at inside
  exact none_ (Disk.Tree.directory_of_child inside)

/-! The two calls that import a path. -/

section
variable {s : Workspaces} (some_ : p ≠ [])
include some_

theorem replace_open {content : List UInt8} {mode : Mode} {owner : Nat} (free : Open s.parent p)
    (source : s.scratch.node p = some (.file content mode owner)) :
    ∃ parent, m.replaceRegularFile p s = .ok () (note s p (some (.file content mode m.supervisor)) parent) ∧
      parent.node p = some (.file content mode m.supervisor) ∧
      ∀ q, q ≠ p → parent.node q = s.parent.node q ∨
        s.parent.node q = none ∧ parent.node q = some (.directory 0o700#12) ∧ q <+: p.dropLast := by
  obtain ⟨u,arrives,directory,kept⟩ := parentFd_some 0o700#12 some_ free.1
  have accepts : u.accepts p := by
    refine ⟨some_,directory,?_⟩
    rintro (root | ⟨mode',found⟩)
    · exact some_ root
    · rcases kept p with same | ⟨_,_,above⟩
      · exact free.2 (.inr ⟨mode',same ▸ found⟩)
      · exact not_prefix_dropLast some_ above
  refine ⟨u.put p (.file content mode m.supervisor) accepts,?_,?_,?_⟩
  · unfold replaceRegularFile
    rw [arrives]
    dsimp only
    rw [source]
    dsimp only
    rw [dif_pos accepts]
  · rw [Disk.Tree.node_put,if_pos rfl]
  · intro q other
    rw [Disk.Tree.node_put,if_neg other]
    exact kept q

theorem replace_blocked {content : List UInt8} {mode : Mode} {owner : Nat} (blocked : ¬ Open s.parent p)
    (source : s.scratch.node p = some (.file content mode owner)) :
    ∃ e parent, m.replaceRegularFile p s = .error e {s with parent} := by
  unfold replaceRegularFile
  by_cases clear : s.parent.Clear p.dropLast
  · obtain ⟨u,arrives,_,kept⟩ := parentFd_some 0o700#12 some_ clear
    have taken : ¬ u.accepts p := by
      intro accepts
      apply accepts.2.2
      rcases not_and_not_right.mp blocked clear with root | ⟨mode',found⟩
      · exact absurd root some_
      · rcases kept p with same | ⟨none_,_⟩
        · exact .inr ⟨mode',same.trans found⟩
        · rw [found] at none_
          cases none_
    rw [arrives]
    dsimp only
    rw [source]
    dsimp only
    rw [dif_neg taken]
    exact ⟨_,u,rfl⟩
  · obtain ⟨e,u,stopped⟩ := parentFd_blocked 0o700#12 some_ clear
    rw [stopped]
    exact ⟨e,u,rfl⟩

theorem unlink_open (free : Open s.parent p) :
    unlinkScoped p s = .ok () s ∧ s.parent.node p = none ∨
      s.parent.node p ≠ none ∧ ∃ parent, unlinkScoped p s = .ok () (note s p none parent) ∧ parent.node p = none ∧
        ∀ q, q ≠ p → parent.node q = s.parent.node q := by
  unfold unlinkScoped
  rcases parentFd_none some_ with ⟨_,blocked⟩ | ⟨_,⟨arrives,_⟩ | ⟨ends,none_⟩⟩
  · exact absurd free.1 blocked
  · rw [arrives]
    dsimp only
    rw [dif_neg free.2]
    by_cases absent : s.parent.node p = none
    · rw [if_pos absent]
      exact .inl ⟨rfl,absent⟩
    · rw [if_neg absent]
      refine .inr ⟨absent,s.parent.remove p free.2,rfl,?_,?_⟩
      · rw [Disk.Tree.node_remove,if_pos rfl]
      · intro q other
        rw [Disk.Tree.node_remove,if_neg other]
  · rw [ends]
    exact .inl ⟨rfl,node_none_of_not_directory some_ none_⟩

theorem unlink_blocked (blocked : ¬ Open s.parent p) : ∃ e, unlinkScoped p s = .error e s := by
  unfold unlinkScoped
  rcases parentFd_none (t := s.parent) some_ with ⟨⟨e,stopped⟩,_⟩ | ⟨clear,⟨arrives,_⟩ | ⟨_,none_⟩⟩
  · rw [stopped]
    exact ⟨e,rfl⟩
  · rw [arrives]
    dsimp only
    rw [dif_pos (not_and_not_right.mp blocked clear)]
    exact ⟨_,rfl⟩
  · have absent := node_none_of_not_directory some_ none_
    rcases not_and_not_right.mp blocked clear with root | ⟨mode,found⟩
    · exact absurd root some_
    · rw [absent] at found
      cases found

end

def output (m : PosixHost) (p : Relative) : Option Node :=
  match m.left.node p with
  | some (.file content mode _) => some (.file content mode m.supervisor)
  | _ => none

def now (m : PosixHost) (s : Workspaces) : Workspaces := s.after (m.agent s.calls)

/-- The next call goes through if it is the import of the path. -/
def Passes (m : PosixHost) (p : Relative) (s : Workspaces) : Prop :=
  (m.agent s.calls).refused = none ∧ Open (m.now s).parent p

theorem file_of_content (some_ : t.content p ≠ none) : ∃ content mode owner, t.node p = some (.file content mode owner) := by
  obtain ⟨content,found⟩ := Option.ne_none_iff_exists'.mp some_
  obtain ⟨mode,owner,here⟩ := Disk.Tree.content_eq_some.mp found
  exact ⟨content,mode,owner,here⟩

theorem output_none : m.output p = none ↔ m.left.content p = none := by
  unfold output Disk.Tree.content
  cases m.left.node p with
  | none => exact iff_of_true rfl rfl
  | some n => cases n <;> simp

theorem call_refused {α : Type} {act : Files α} {s : Workspaces} {name : String}
    (refused : (m.agent s.calls).refused = some name) : m.call act s = .error (.exception name) (m.now s) := by
  unfold call now
  rw [refused]

theorem call_granted {α : Type} {act : Files α} {s : Workspaces} (granted : (m.agent s.calls).refused = none) :
    m.call act s = act (m.now s) := by
  unfold call now
  rw [granted]

section
open WorkerSupervisor

variable {s : WorkerState Workspaces} {after : Inventory}

theorem import_refused {name : String} (refused : (m.agent s.files.calls).refused = some name) :
    importPath (m.host lib) after p s = .error (.exception name) {s with files := m.now s.files} := by
  rcases @importPath_cases _ (m.host lib) after p with ⟨_,same⟩ | ⟨_,same⟩
  · rw [same]
    exact inFiles_error (call_refused refused)
  · rw [same]
    exact inFiles_error (call_refused refused)

variable (lib) (left : s.files.scratch = m.left) (gone : after.get p = none ↔ m.left.content p = none) (some_ : p ≠ [])
include left gone some_

theorem import_passes (passes : m.Passes p s.files) :
    importPath (m.host lib) after p s = .ok ⟨⟩ {s with files := m.now s.files} ∧
        (m.now s.files).parent.node p = none ∧ m.output p = none ∨
      ((m.now s.files).parent.node p ≠ none ∨ m.output p ≠ none) ∧
        ∃ parent, importPath (m.host lib) after p s = .ok ⟨⟩ {s with files := note (m.now s.files) p (m.output p) parent} ∧
          parent.node p = m.output p ∧
          ∀ q, q ≠ p → parent.node q = (m.now s.files).parent.node q ∨
            (m.now s.files).parent.node q = none ∧ parent.node q = some (.directory 0o700#12) ∧ q <+: p.dropLast := by
  obtain ⟨granted,free⟩ := passes
  rcases @importPath_cases _ (m.host lib) after p with ⟨removed,same⟩ | ⟨there,same⟩
  · rw [same,output_none.mpr (gone.mp removed)]
    rcases unlink_open some_ free with ⟨done,absent⟩ | ⟨present,parent,done,here,others⟩
    · exact .inl ⟨inFiles_ok ((call_granted granted).trans done),absent,rfl⟩
    · refine .inr ⟨.inl present,parent,inFiles_ok ((call_granted granted).trans done),here,?_⟩
      exact fun q other => .inl (others q other)
  · obtain ⟨content,mode,owner,found⟩ := file_of_content (fun absent => there (gone.mpr absent))
    have wanted : m.output p = some (.file content mode m.supervisor) := by
      unfold output
      rw [found]
    obtain ⟨parent,done,here,others⟩ := @replace_open m p (m.now s.files) some_ content mode owner free (left ▸ found)
    rw [same,wanted]
    exact .inr ⟨.inr (by simp),parent,inFiles_ok ((call_granted granted).trans done),here,others⟩

theorem import_blocked (granted : (m.agent s.files.calls).refused = none) (blocked : ¬ Open (m.now s.files).parent p) :
    ∃ e parent, importPath (m.host lib) after p s = .error e {s with files := {m.now s.files with parent}} := by
  rcases @importPath_cases _ (m.host lib) after p with ⟨_,same⟩ | ⟨there,same⟩
  · obtain ⟨e,stopped⟩ := unlink_blocked some_ blocked
    rw [same]
    exact ⟨e,(m.now s.files).parent,inFiles_error ((call_granted granted).trans stopped)⟩
  · obtain ⟨content,mode,owner,found⟩ := file_of_content (fun absent => there (gone.mpr absent))
    obtain ⟨e,parent,stopped⟩ := @replace_blocked m p (m.now s.files) some_ content mode owner blocked (left ▸ found)
    rw [same]
    exact ⟨e,parent,inFiles_error ((call_granted granted).trans stopped)⟩

end

/-! Inventories. -/

/-- The inventory is that of the tree's files. -/
def Lists (lib : Library) (t : Disk.Tree PosixPath.Name) (found : Inventory) : Prop :=
  ∀ q, found.get q = (t.content q).map (fileState lib)

theorem get_cons (p q : Relative) (state : FileState) (rest : Inventory) :
    Inventory.get ((p,state)::rest) q = if p = q then some state else rest.get q := by
  unfold Inventory.get
  by_cases here : p = q
  · rw [if_pos here,List.find?_cons_of_pos (by simpa using here)]
    rfl
  · rw [if_neg here,List.find?_cons_of_neg (by simpa using here)]

theorem inventory_get {entries : List (Sigma fun _ : Relative => Node)} {found : Inventory} (unique : entries.NodupKeys)
    (ok : inventory lib entries = .ok found) (q : Relative) :
    found.get q = match entries.dlookup q with
      | some (.file content _ _) => some (fileState lib content)
      | _ => none := by
  induction entries generalizing found with
  | nil =>
    cases ok
    rfl
  | cons entry rest ih =>
    obtain ⟨p,n⟩ := entry
    obtain ⟨fresh,alone⟩ := List.nodupKeys_cons.mp unique
    by_cases here : p = q
    · subst here
      rw [List.dlookup_cons_eq]
      cases n with
      | link | special => cases ok
      | directory mode =>
        rw [ih alone ok,List.dlookup_eq_none.mpr fresh]
      | file content mode owner =>
        obtain ⟨others,_,equal⟩ := bind_ok.mp ok
        cases pure_ok.mp equal
        rw [get_cons,if_pos rfl]
    · rw [List.dlookup_cons_ne _ _ (Ne.symm here)]
      cases n with
      | link | special => cases ok
      | directory mode => exact ih alone ok
      | file content mode owner =>
        obtain ⟨others,tail,equal⟩ := bind_ok.mp ok
        cases pure_ok.mp equal
        rw [get_cons,if_neg here]
        exact ih alone tail

theorem inventory_lists {found : Inventory} (ok : inventory lib (listing t) = .ok found) : Lists lib t found := by
  intro q
  have order : (listing t).Perm t.entries.entries := List.perm_insertionSort _ _
  have unique : (listing t).NodupKeys := (List.perm_nodupKeys order).mpr t.entries.nodupKeys
  have same : (listing t).dlookup q = t.node q := List.perm_dlookup q unique order
  rw [inventory_get unique ok q,same]
  unfold Disk.Tree.content
  cases t.node q with
  | none => rfl
  | some n => cases n <;> rfl

end PosixHost
end SjgControl

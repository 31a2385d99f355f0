import Mathlib.Data.List.AList
import Mathlib.Data.List.Dedup
import Mathlib.Data.List.Infix
import Mathlib.Tactic.Common

/-! Directory trees with their files, permission bits and owners. Whatever stands at a path
stands in a directory: that is part of the type, so an operation is given where it applies
and a walk down from the root tells all there is below. -/
namespace Disk

abbrev Mode := BitVec 12

def Mode.privileged (mode : Mode) : Prop := mode &&& 0o6000#12 ≠ 0#12

instance : DecidablePred Mode.privileged := fun mode => inferInstanceAs (Decidable (mode &&& 0o6000#12 ≠ 0#12))

/-- An entry of a directory; a link is not followed and a special file is not opened. -/
inductive Node where
  | file (content : List UInt8) (mode : Mode) (owner : Nat)
  | directory (mode : Mode)
  | link
  | special
  deriving DecidableEq

theorem not_prefix_dropLast {α : Type} {p : List α} (some_ : p ≠ []) : ¬ p <+: p.dropLast := by
  intro above
  have short := above.length_le
  have long := List.length_pos_iff.mpr some_
  rw [List.length_dropLast] at short
  omega

variable {Name : Type} [DecidableEq Name]

/-- Entries by their paths from the root, which is a directory itself. -/
structure Tree (Name : Type) [DecidableEq Name] where
  entries : AList (fun _ : List Name => Node)
  rooted : [] ∉ entries
  grounded : ∀ p name, p ++ [name] ∈ entries → p = [] ∨ ∃ mode, entries.lookup p = some (.directory mode)

namespace Tree

def empty : Tree Name := ⟨∅,AList.notMem_empty _,fun _ _ inside => absurd inside (AList.notMem_empty _)⟩

def node (t : Tree Name) (p : List Name) : Option Node := t.entries.lookup p

def isDirectory (t : Tree Name) (p : List Name) : Prop := p = [] ∨ ∃ mode, t.node p = some (.directory mode)

instance (t : Tree Name) (p : List Name) : Decidable (t.isDirectory p) :=
  match found : t.node p with
  | some (.directory mode) => isTrue (.inr ⟨mode,found⟩)
  | none => decidable_of_iff (p = []) (by simp [isDirectory,found])
  | some (.file _ _ _) => decidable_of_iff (p = []) (by simp [isDirectory,found])
  | some .link => decidable_of_iff (p = []) (by simp [isDirectory,found])
  | some .special => decidable_of_iff (p = []) (by simp [isDirectory,found])

def content (t : Tree Name) (p : List Name) : Option (List UInt8) :=
  match t.node p with
  | some (.file content _ _) => some content
  | _ => none

variable {t : Tree Name} {p q : List Name} {n : Node}

theorem node_root (t : Tree Name) : t.node [] = none := AList.lookup_eq_none.mpr t.rooted

theorem mem_entries : p ∈ t.entries ↔ t.node p ≠ none := by
  rw [node,ne_eq,AList.lookup_eq_none,not_not]

theorem directory_of_child {name : Name} (inside : t.node (p ++ [name]) ≠ none) : t.isDirectory p :=
  t.grounded p name (mem_entries.mpr inside)

/-- By induction on the way down: everything above an entry is a directory. -/
theorem directory_above (inside : t.node q ≠ none) (above : p <+: q) (proper : p ≠ q) : t.isDirectory p := by
  obtain ⟨rest,rfl⟩ := above
  induction rest using List.reverseRecOn with
  | nil => exact absurd (List.append_nil p).symm proper
  | append_singleton front name ih =>
    rw [← List.append_assoc] at inside
    have parent := directory_of_child inside
    by_cases here : front = []
    · subst here
      rwa [List.append_nil] at parent
    · rcases parent with root | ⟨mode,found⟩
      · rw [List.append_eq_nil_iff] at root
        exact absurd root.2 here
      · refine ih (by simp [found]) ?_
        intro same
        exact here (List.self_eq_append_right.mp same)

theorem content_eq_some {bytes : List UInt8} : t.content p = some bytes ↔ ∃ mode owner, t.node p = some (.file bytes mode owner) := by
  unfold content
  split
  next content mode owner found => simp [found]
  next other =>
    refine iff_of_false (by simp) ?_
    rintro ⟨mode,owner,found⟩
    exact other bytes mode owner found

theorem not_directory_of_content {bytes : List UInt8} (found : t.content p = some bytes) : ¬ t.isDirectory p := by
  rintro (rfl | ⟨mode,directory⟩)
  · simp [content,node_root] at found
  · simp [content,directory] at found

theorem files_apart {bytes more : List UInt8} (first : t.content p = some bytes) (second : t.content q = some more)
    (above : p <+: q) : p = q := by
  by_contra proper
  have inside : t.node q ≠ none := by
    intro absent
    simp [content,absent] at second
  exact not_directory_of_content first (directory_above inside above proper)

theorem content_empty (q : List Name) : (empty : Tree Name).content q = none := rfl

theorem content_kept {u : Tree Name} (kept : u.node q = t.node q ∨ t.node q = none ∧ ∃ mode, u.node q = some (.directory mode)) :
    u.content q = t.content q := by
  unfold content
  rcases kept with same | ⟨absent,mode,directory⟩
  · rw [same]
  · rw [absent,directory]

/-! Writing. -/

/-- There is a directory to put an entry at the path, and none would be replaced. -/
def accepts (t : Tree Name) (p : List Name) : Prop := p ≠ [] ∧ t.isDirectory p.dropLast ∧ ¬ t.isDirectory p

instance (t : Tree Name) (p : List Name) : Decidable (t.accepts p) :=
  inferInstanceAs (Decidable (p ≠ [] ∧ t.isDirectory p.dropLast ∧ ¬ t.isDirectory p))

def put (t : Tree Name) (p : List Name) (n : Node) (free : t.accepts p) : Tree Name where
  entries := t.entries.insert p n
  rooted inside := by
    rcases (AList.mem_insert _).mp inside with root | old
    · exact free.1 root.symm
    · exact t.rooted old
  grounded q name inside := by
    -- the parent of an entry is none that is replaced
    have kept (parent : t.isDirectory q) : q = [] ∨ ∃ mode, (t.entries.insert p n).lookup q = some (.directory mode) := by
      rcases parent with root | ⟨mode,found⟩
      · exact .inl root
      · refine .inr ⟨mode,?_⟩
        rw [AList.lookup_insert_ne]
        · exact found
        · rintro rfl
          exact free.2.2 (.inr ⟨mode,found⟩)
    rcases (AList.mem_insert _).mp inside with new | old
    · apply kept
      rw [← new] at free
      simpa using free.2.1
    · exact kept (t.grounded q name old)

def remove (t : Tree Name) (p : List Name) (leaf : ¬ t.isDirectory p) : Tree Name where
  entries := t.entries.erase p
  rooted inside := t.rooted (AList.mem_erase.mp inside).2
  grounded q name inside := by
    rcases t.grounded q name (AList.mem_erase.mp inside).2 with root | ⟨mode,found⟩
    · exact .inl root
    · refine .inr ⟨mode,?_⟩
      rw [AList.lookup_erase_ne]
      · exact found
      · rintro rfl
        exact leaf (.inr ⟨mode,found⟩)

/-- Rewrite every entry where it stands; a directory stays one. -/
def convert (t : Tree Name) (f : Node → Node) (keeps : ∀ mode, ∃ other, f (.directory mode) = .directory other) :
    Tree Name where
  entries := ⟨t.entries.entries.map (fun entry => ⟨entry.1,f entry.2⟩),by
    have keys : (t.entries.entries.map (fun entry => (⟨entry.1,f entry.2⟩ : Sigma fun _ => Node))).keys =
        t.entries.entries.keys := by simp [List.keys,Function.comp_def]
    rw [List.NodupKeys,keys]
    exact t.entries.nodupKeys⟩
  rooted inside := by
    apply t.rooted
    simpa [AList.mem_keys,AList.keys,List.keys,Function.comp_def] using inside
  grounded q name inside := by
    have old : q ++ [name] ∈ t.entries := by
      simpa [AList.mem_keys,AList.keys,List.keys,Function.comp_def] using inside
    rcases t.grounded q name old with root | ⟨mode,found⟩
    · exact .inl root
    · obtain ⟨other,same⟩ := keeps mode
      refine .inr ⟨other,?_⟩
      exact (List.dlookup_map₂ (f := fun _ => f) q).trans (by rw [← AList.lookup,found,Option.map_some,same])

def changes (t u : Tree Name) : List (List Name) :=
  (t.entries.keys ++ u.entries.keys).dedup.filter (fun p => t.node p ≠ u.node p)

theorem node_convert (f : Node → Node) (keeps : ∀ mode, ∃ other, f (.directory mode) = .directory other) (p : List Name) :
    (t.convert f keeps).node p = (t.node p).map f :=
  List.dlookup_map₂ (f := fun _ => f) p

theorem node_put (free : t.accepts p) (q : List Name) :
    (t.put p n free).node q = if q = p then some n else t.node q := by
  unfold put node
  by_cases here : q = p
  · subst here
    rw [if_pos rfl,AList.lookup_insert]
  · rw [if_neg here,AList.lookup_insert_ne here]

theorem node_remove (leaf : ¬ t.isDirectory p) (q : List Name) :
    (t.remove p leaf).node q = if q = p then none else t.node q := by
  unfold remove node
  by_cases here : q = p
  · subst here
    rw [if_pos rfl,AList.lookup_erase]
  · rw [if_neg here,AList.lookup_erase_ne here]

/-! Walking down. -/

/-- Open the directories on a way one below the other, the root being open. A missing one ends
the walk, or is made with the given mode; what is no directory stops it. -/
def openDirectory (missing : Option Mode) : (opened rest : List Name) → EStateM Unit (Tree Name) Bool
  | _,[] => fun t => .ok true t
  | opened,name::rest => fun t =>
    match t.node (opened ++ [name]) with
    | some (.directory _) => openDirectory missing (opened ++ [name]) rest t
    | some _ => .error () t
    | none =>
      match missing with
      | none => .ok false t
      | some mode =>
        if free : t.accepts (opened ++ [name]) then
          openDirectory missing (opened ++ [name]) rest (t.put (opened ++ [name]) (.directory mode) free)
        else .error () t

/-- Nothing but directories is on the way. -/
def Clear (t : Tree Name) (p : List Name) : Prop :=
  ∀ d, d <+: p → t.node d = none ∨ ∃ mode, t.node d = some (.directory mode)

/-- A walk that makes nothing changes nothing; it passes where the way is clear, and arrives
where it leads to a directory. -/
theorem openDirectory_none {opened rest : List Name} (from_ : t.isDirectory opened) (clear : t.Clear opened) :
    (openDirectory none opened rest t = .error () t ∧ ¬ t.Clear (opened ++ rest)) ∨
      t.Clear (opened ++ rest) ∧ ((openDirectory none opened rest t = .ok true t ∧ t.isDirectory (opened ++ rest)) ∨
        openDirectory none opened rest t = .ok false t ∧ ¬ t.isDirectory (opened ++ rest)) := by
  induction rest generalizing opened with
  | nil =>
    rw [List.append_nil]
    exact .inr ⟨clear,.inl ⟨rfl,from_⟩⟩
  | cons name rest ih =>
    have whole : opened ++ name::rest = (opened ++ [name]) ++ rest := by simp
    have step : opened ++ [name] <+: opened ++ name::rest := ⟨rest,whole.symm⟩
    unfold openDirectory
    cases found : t.node (opened ++ [name]) with
    | none =>
      have beyond (d : List Name) (below : opened ++ [name] <+: d) : t.node d = none := by
        by_contra inside
        by_cases here : opened ++ [name] = d
        · exact inside (here ▸ found)
        · rcases directory_above inside below here with root | ⟨mode,directory⟩
          · simp at root
          · rw [found] at directory
            cases directory
      refine .inr ⟨?_,.inr ⟨rfl,?_⟩⟩
      · intro d above
        by_cases early : d <+: opened
        · exact clear d early
        · left
          apply beyond
          rcases List.prefix_or_prefix_of_prefix above step with short | long
          · rcases List.prefix_concat_iff.mp short with same | early'
            · exact same ▸ List.prefix_rfl
            · exact absurd early' early
          · exact long
      · rintro (root | ⟨mode,directory⟩)
        · simp at root
        · rw [beyond _ step] at directory
          cases directory
    | some n =>
      cases n with
      | directory mode =>
        dsimp only
        rw [whole]
        apply ih (.inr ⟨mode,found⟩)
        intro d above
        rcases List.prefix_concat_iff.mp above with same | early
        · exact .inr ⟨mode,same ▸ found⟩
        · exact clear d early
      | file | link | special =>
        refine .inl ⟨rfl,?_⟩
        intro all
        have bad := all _ step
        simp [found] at bad

theorem openDirectory_kept {missing : Option Mode} {opened rest : List Name} {arrived : Bool} {u : Tree Name}
    (done : openDirectory missing opened rest t = .ok arrived u) (q : List Name) :
    u.node q = t.node q ∨ t.node q = none ∧ ∃ mode, u.node q = some (.directory mode) := by
  induction rest generalizing opened t with
  | nil =>
    cases done
    exact .inl rfl
  | cons name rest ih =>
    unfold openDirectory at done
    split at done
    next => exact ih done
    next => cases done
    next found =>
      split at done
      next =>
        cases done
        exact .inl rfl
      next mode =>
        split at done
        next free =>
          have after := ih done
          rw [node_put] at after
          by_cases here : q = opened ++ [name]
          · rw [if_pos here] at after
            refine .inr ⟨here ▸ found,?_⟩
            rcases after with same | ⟨absent,_⟩
            · exact ⟨mode,same⟩
            · cases absent
          · rwa [if_neg here] at after
        next => cases done

theorem clear_of_openDirectory {opened rest : List Name} {mode : Mode} {arrived : Bool} {u : Tree Name}
    (clear : t.Clear opened) (done : openDirectory (some mode) opened rest t = .ok arrived u) : t.Clear (opened ++ rest) := by
  induction rest generalizing opened t with
  | nil => rwa [List.append_nil]
  | cons name rest ih =>
    have whole : opened ++ name::rest = (opened ++ [name]) ++ rest := by simp
    -- one directory further, the way behind is clear again
    have further {v : Tree Name} (same : ∀ q, q ≠ opened ++ [name] → v.node q = t.node q)
        (here : ∃ mode, v.node (opened ++ [name]) = some (.directory mode)) : v.Clear (opened ++ [name]) := by
      intro d above
      rcases List.prefix_concat_iff.mp above with last | early
      · exact .inr (last ▸ here)
      · rw [same d]
        · exact clear d early
        · rintro rfl
          exact absurd early.length_le (by simp)
    unfold openDirectory at done
    rw [whole]
    split at done
    next mode' found => exact ih (further (fun _ _ => rfl) ⟨mode',found⟩) done
    next => cases done
    next found =>
      split at done
      next absent => cases absent
      next mode' same =>
        split at done
        next free =>
          have made := @node_put Name _ t (opened ++ [name]) (.directory mode') free
          have rest_ := ih (further (fun q other => (made q).trans (if_neg other)) ⟨mode',(made _).trans (if_pos rfl)⟩) done
          intro d above
          have there := rest_ d above
          rw [made] at there
          by_cases here : d = opened ++ [name]
          · exact .inl (here ▸ found)
          · rwa [if_neg here] at there
        next => cases done

/-- On a clear way a walk that makes directories arrives, and makes only those it passes. -/
theorem openDirectory_some {opened rest : List Name} {mode : Mode} (from_ : t.isDirectory opened)
    (clear : t.Clear (opened ++ rest)) :
    ∃ u, openDirectory (some mode) opened rest t = .ok true u ∧ u.isDirectory (opened ++ rest) ∧
      ∀ q, u.node q = t.node q ∨ t.node q = none ∧ u.node q = some (.directory mode) ∧ q <+: opened ++ rest := by
  induction rest generalizing opened t with
  | nil => exact ⟨t,rfl,(List.append_nil opened).symm ▸ from_,fun q => .inl rfl⟩
  | cons name rest ih =>
    have whole : opened ++ name::rest = (opened ++ [name]) ++ rest := by simp
    have step : opened ++ [name] <+: opened ++ name::rest := ⟨rest,whole.symm⟩
    unfold openDirectory
    rw [whole] at clear ⊢
    cases found : t.node (opened ++ [name]) with
    | none =>
      have free : t.accepts (opened ++ [name]) := by
        refine ⟨by simp,by simpa using from_,?_⟩
        rintro (root | ⟨mode,directory⟩)
        · simp at root
        · rw [found] at directory
          cases directory
      have made := @node_put Name _ t (opened ++ [name]) (.directory mode) free
      obtain ⟨u,arrives,directory,kept⟩ := @ih (t.put (opened ++ [name]) (.directory mode) free) (opened ++ [name])
        (.inr ⟨mode,by rw [made,if_pos rfl]⟩) (by
          intro d above
          rw [made]
          split
          next => exact .inr ⟨mode,rfl⟩
          next => exact clear d above)
      refine ⟨u,?_,directory,?_⟩
      · dsimp only
        rw [dif_pos free]
        exact arrives
      · intro q
        have before := kept q
        rw [made] at before
        by_cases here : q = opened ++ [name]
        · rw [if_pos here] at before
          right
          refine ⟨here ▸ found,?_,here ▸ List.prefix_append _ _⟩
          rcases before with same | ⟨none_,_⟩
          · exact same
          · cases none_
        · rwa [if_neg here] at before
    | some n =>
      have all := clear (opened ++ [name]) (List.prefix_append _ _)
      rw [found] at all
      cases n with
      | directory mode' => exact ih (.inr ⟨mode',found⟩) clear
      | file | link | special => simp at all

end Tree
end Disk

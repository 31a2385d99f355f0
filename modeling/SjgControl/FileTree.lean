import Mathlib.Data.List.Infix
import Mathlib.Tactic.Common

/-! Trees of files by their paths, and edits given as a list of entries. A path that
holds a file has nothing above or below it that does; writing a file therefore takes
away whatever stood at, under or over its path. -/
namespace FileTree

variable {Name File : Type}

structure Tree (Name File : Type) where
  get : List Name → Option File
  apart : ∀ p q, get p ≠ none → get q ≠ none → p <+: q → p = q

/-- A file to put at a path, or none to clear the path. -/
structure Entry (Name File : Type) where
  path : List Name
  file : Option File

namespace Entry
variable [DecidableEq Name]

def touches (e : Entry Name File) (p : List Name) : Prop :=
  e.path <+: p ∨ e.file ≠ none ∧ p <+: e.path

instance (e : Entry Name File) (p : List Name) : Decidable (e.touches p) :=
  have : Decidable (e.file ≠ none) := match e.file with
    | none => isFalse (fun other => other rfl)
    | some f => isTrue (by simp)
  inferInstanceAs (Decidable (e.path <+: p ∨ e.file ≠ none ∧ p <+: e.path))

def outcome (e : Entry Name File) (p : List Name) : Option File :=
  if e.path = p then e.file else none

end Entry

namespace Tree

def empty : Tree Name File := ⟨fun _ => none,fun _ _ here => absurd rfl here⟩

variable [DecidableEq Name]

def put (t : Tree Name File) (e : Entry Name File) : Tree Name File where
  get p := if e.touches p then e.outcome p else t.get p
  apart p q here there below := by
    have own_of {p : List Name} (touched : e.touches p)
        (left : (if e.touches p then e.outcome p else t.get p) ≠ none) : e.path = p ∧ e.file ≠ none := by
      rw [if_pos touched] at left
      unfold Entry.outcome at left
      split at left
      next same => exact ⟨same,left⟩
      next => exact absurd rfl left
    by_cases first : e.touches p
    · obtain ⟨own,_⟩ := own_of first here
      have second : e.touches q := .inl (own ▸ below)
      exact own.symm.trans (own_of second there).1
    · by_cases second : e.touches q
      · obtain ⟨own,written⟩ := own_of second there
        exact absurd (.inr ⟨written,own ▸ below⟩) first
      · rw [if_neg first] at here
        rw [if_neg second] at there
        exact t.apart p q here there below

def apply (t : Tree Name File) (entries : List (Entry Name File)) : Tree Name File :=
  entries.foldl put t

/-- After a list of entries a path holds what the last one that touches it leaves there. -/
theorem get_apply (t : Tree Name File) (entries : List (Entry Name File)) (p : List Name) :
    (t.apply entries).get p =
      ((entries.filter (fun e => e.touches p)).getLast?.map (fun e => e.outcome p)).getD (t.get p) := by
  induction entries generalizing t with
  | nil => rfl
  | cons e rest ih =>
    have step : (t.apply (e::rest)).get p = ((t.put e).apply rest).get p := rfl
    rw [step,ih]
    cases later : (rest.filter (fun e => e.touches p)).getLast? with
    | some last =>
      by_cases touched : e.touches p <;> simp [touched,List.getLast?_cons,later]
    | none =>
      rw [List.getLast?_eq_none_iff] at later
      by_cases touched : e.touches p <;> simp [touched,later,put]

/-- The entries carry one tree into another: each path that differs has one, none has two, and what
is cleared was there. -/
structure Edits (t u : Tree Name File) (entries : List (Entry Name File)) : Prop where
  carried : ∀ e ∈ entries, e.file = u.get e.path
  stood : ∀ e ∈ entries, e.file = none → t.get e.path ≠ none
  once : (entries.map Entry.path).Nodup
  every : ∀ p, t.get p ≠ u.get p → ∃ e ∈ entries, e.path = p

/-- No path is cleared after a file has been put below it. -/
def Orderly (entries : List (Entry Name File)) : Prop :=
  entries.Pairwise (fun earlier later => later.file = none → earlier.file ≠ none → ¬ later.path <+: earlier.path)

variable {t u : Tree Name File} {entries : List (Entry Name File)}

theorem get_apply_cleared {p : List Name} (clear : t.get p = none) (other : ∀ e ∈ entries, e.path ≠ p) :
    (t.apply entries).get p = none := by
  rw [get_apply]
  cases final : (entries.filter (fun e => e.touches p)).getLast? with
  | none => exact clear
  | some last =>
    have member := List.mem_of_mem_filter (List.mem_of_getLast? final)
    exact if_neg (other last member)

/-- The differences turn the one tree into the other just when they are in order. -/
theorem Edits.apply_iff (edits : Edits t u entries) : (∀ p, (t.apply entries).get p = u.get p) ↔ Orderly entries := by
  constructor
  · intro same
    refine List.pairwise_iff_forall_sublist.mpr ?_
    intro earlier later ordered cleared written below
    obtain ⟨front,back,rfl,before,after⟩ := List.cons_sublist_iff.mp ordered
    obtain ⟨middle,rest,rfl⟩ := List.append_of_mem (List.singleton_sublist.mp after)
    have split : front ++ (middle ++ later::rest) = (front ++ middle) ++ later::rest := (List.append_assoc _ _ _).symm
    have once := edits.once
    rw [split,List.map_append,List.nodup_append,List.map_cons,List.nodup_cons] at once
    obtain ⟨_,⟨_,_⟩,apart⟩ := once
    have own : earlier.path ∈ (front ++ middle).map Entry.path := List.mem_map_of_mem (List.mem_append_left _ before)
    have gone : ((t.apply (front ++ middle)).put later).get earlier.path = none := by
      have touched : later.touches earlier.path := .inl below
      change (if later.touches earlier.path then later.outcome earlier.path else _) = none
      rw [if_pos touched]
      exact if_neg (fun same => apart _ own _ List.mem_cons_self same.symm)
    have left : (t.apply (front ++ (middle ++ later::rest))).get earlier.path = none := by
      rw [split]
      change (((front ++ middle) ++ later::rest).foldl put t).get earlier.path = none
      rw [List.foldl_append,List.foldl_cons]
      refine get_apply_cleared gone ?_
      intro e member same
      exact apart _ own _ (List.mem_cons_of_mem _ (List.mem_map_of_mem member)) same.symm
    rw [same,← edits.carried earlier (List.mem_append_left _ before)] at left
    exact written left
  · intro orderly p
    rw [get_apply]
    cases final : (entries.filter (fun e => e.touches p)).getLast? with
    | none =>
      rw [List.getLast?_eq_none_iff,List.filter_eq_nil_iff] at final
      by_contra differs
      obtain ⟨e,member,own⟩ := edits.every p differs
      exact final e member (decide_eq_true (.inl (own ▸ List.prefix_refl _)))
    | some last =>
      obtain ⟨front,whole⟩ := List.getLast?_eq_some_iff.mp final
      obtain ⟨member,touched⟩ := List.mem_filter.mp (List.mem_of_getLast? final)
      change last.outcome p = u.get p
      by_cases own : last.path = p
      · exact (if_pos own).trans (own ▸ edits.carried last member)
      · refine (if_neg own).trans (Eq.symm ?_)
        by_contra held
        -- the last entry that touches the path clears a path above it
        have cleared : last.file = none ∧ last.path <+: p := by
          by_cases file : last.file = none
          · rcases of_decide_eq_true touched with above | ⟨some_,_⟩
            · exact ⟨file,above⟩
            · exact absurd file some_
          · have there : u.get last.path ≠ none := edits.carried last member ▸ file
            rcases of_decide_eq_true touched with above | ⟨_,below⟩
            · exact absurd (u.apart _ _ there held above) own
            · exact absurd (u.apart _ _ held there below).symm own
        have stood := edits.stood last member cleared.1
        have absent : t.get p = none := by
          by_contra here
          exact own (t.apart _ _ stood here cleared.2)
        obtain ⟨e,listed,named⟩ := edits.every p (absent ▸ Ne.symm held)
        have filed : e.file ≠ none := by rw [edits.carried e listed,named]; exact held
        have reached : e ∈ entries.filter (fun e => e.touches p) :=
          List.mem_filter.mpr ⟨listed,decide_eq_true (.inl (named ▸ List.prefix_refl _))⟩
        have first : e ∈ front := by
          rw [whole] at reached
          rcases List.mem_append.mp reached with early | late
          · exact early
          · exact absurd (List.mem_singleton.mp late ▸ named) own
        have ordered : List.Sublist [e,last] entries := by
          have inside : (front ++ [last]).Sublist entries := whole ▸ List.filter_sublist
          refine List.Sublist.trans ?_ inside
          exact (List.singleton_sublist.mpr first).append (List.Sublist.refl [last])
        exact (List.pairwise_iff_forall_sublist.mp orderly) ordered cleared.1 filed (named.symm ▸ cleared.2)

end Tree
end FileTree

import Mathlib.Data.List.Nodup
import Mathlib.Data.List.Sublists
import Mathlib.Tactic.Common

/-! Taking items from the front of a line in a number of turns, where an item is kept only
if none of its kind is kept already, up to a limit. -/
namespace Selection

variable {α κ : Type} [DecidableEq κ]

/-- What a selection takes: the items kept and those passed over. -/
structure Taken (α : Type) where
  kept : List α
  passed : List α

namespace Taken

def keep (taken : Taken α) (a : α) : Taken α := ⟨a::taken.kept,taken.passed⟩

def pass (taken : Taken α) (a : α) : Taken α := ⟨taken.kept,a::taken.passed⟩

@[simp] theorem keep_kept (taken : Taken α) (a : α) : (taken.keep a).kept = a::taken.kept := rfl

@[simp] theorem pass_kept (taken : Taken α) (a : α) : (taken.pass a).kept = taken.kept := rfl

@[simp] theorem pass_passed (taken : Taken α) (a : α) : (taken.pass a).passed = a::taken.passed := rfl

end Taken

/-- A selection in at most so many turns, after items of the kinds `seen` have been kept. -/
def select (kind : α → κ) (limit : Nat) : Nat → List κ → List α → Taken α
  | 0,_,_ => ⟨[],[]⟩
  | _ + 1,_,[] => ⟨[],[]⟩
  | turns + 1,seen,a::rest =>
    if kind a ∈ seen then (select kind limit turns seen rest).pass a
    else if limit ≤ seen.length + 1 then ⟨[a],[]⟩
    else (select kind limit turns (kind a::seen) rest).keep a

variable {kind : α → κ} {limit turns : Nat} {seen : List κ} {line : List α}

theorem kept_new : ((select kind limit turns seen line).kept.map kind).Nodup ∧
    ∀ a ∈ (select kind limit turns seen line).kept, kind a ∉ seen := by
  fun_induction select kind limit turns seen line with
  | case1 => simp
  | case2 => simp
  | case3 turns seen a rest old ih => exact ih
  | case4 turns seen a rest new full => simpa using new
  | case5 turns seen a rest new free ih =>
    obtain ⟨single,fresh⟩ := ih
    constructor
    · refine List.nodup_cons.mpr ⟨?_,single⟩
      intro again
      obtain ⟨b,kept,same⟩ := List.mem_map.mp again
      exact fresh b kept (same ▸ List.mem_cons_self)
    · intro b member
      rcases List.mem_cons.mp member with rfl | later
      · exact new
      · exact fun old => fresh b later (List.mem_cons_of_mem _ old)

theorem taken_perm : ∃ rest, rest <:+ line ∧
    ((select kind limit turns seen line).kept ++ (select kind limit turns seen line).passed ++ rest).Perm line := by
  fun_induction select kind limit turns seen line with
  | case1 => exact ⟨_,List.suffix_refl _,List.Perm.refl _⟩
  | case2 => exact ⟨_,List.suffix_refl _,List.Perm.refl _⟩
  | case3 turns seen a rest old ih =>
    obtain ⟨left,behind,whole⟩ := ih
    refine ⟨left,behind.trans (List.suffix_cons a rest),List.Perm.trans ?_ (whole.cons a)⟩
    simp only [Taken.pass_kept,Taken.pass_passed,List.append_assoc,List.cons_append]
    exact List.perm_middle
  | case4 turns seen a rest new full => exact ⟨rest,List.suffix_cons a rest,List.Perm.refl _⟩
  | case5 turns seen a rest new free ih =>
    obtain ⟨left,behind,whole⟩ := ih
    exact ⟨left,behind.trans (List.suffix_cons a rest),whole.cons a⟩

theorem mem_line {a : α} (member : a ∈ (select kind limit turns seen line).kept ∨ a ∈ (select kind limit turns seen line).passed) :
    a ∈ line := by
  obtain ⟨rest,_,whole⟩ := @taken_perm α κ _ kind limit turns seen line
  exact whole.subset (List.mem_append_left _ (List.mem_append.mpr member))

theorem kept_first {a : α} (member : a ∈ (select kind limit turns seen line).kept) :
    ∃ front rest, line = front ++ a::rest ∧ ∀ b ∈ front, kind b ≠ kind a := by
  fun_induction select kind limit turns seen line with
  | case1 => cases member
  | case2 => cases member
  | case3 turns seen c rest old ih =>
    obtain ⟨front,behind,whole,first⟩ := ih member
    refine ⟨c::front,behind,by rw [whole,List.cons_append],?_⟩
    intro b inside
    rcases List.mem_cons.mp inside with rfl | inside
    · exact fun same => kept_new.2 a member (same ▸ old)
    · exact first b inside
  | case4 turns seen c rest new full =>
    cases List.mem_singleton.mp member
    exact ⟨[],rest,rfl,by simp⟩
  | case5 turns seen c rest new free ih =>
    rcases List.mem_cons.mp member with rfl | later
    · exact ⟨[],rest,rfl,by simp⟩
    · obtain ⟨front,behind,whole,first⟩ := ih later
      refine ⟨c::front,behind,by rw [whole,List.cons_append],?_⟩
      intro b inside
      rcases List.mem_cons.mp inside with rfl | inside
      · exact fun same => kept_new.2 a later (same ▸ List.mem_cons_self)
      · exact first b inside

/-- A selection ends with every kind of the line, at its limit, or for want of turns. -/
theorem select_ends : (∀ b ∈ line, kind b ∈ seen ∨ kind b ∈ (select kind limit turns seen line).kept.map kind) ∨
    limit ≤ seen.length + (select kind limit turns seen line).kept.length ∨ turns < line.length := by
  fun_induction select kind limit turns seen line with
  | case1 seen line =>
    cases line with
    | nil => exact .inl (by simp)
    | cons a rest => exact .inr (.inr (Nat.succ_pos _))
  | case2 => exact .inl (by simp)
  | case3 turns seen a rest old ih =>
    rcases ih with all | full | short
    · exact .inl (List.forall_mem_cons.mpr ⟨.inl old,all⟩)
    · exact .inr (.inl full)
    · exact .inr (.inr (Nat.succ_lt_succ short))
  | case4 turns seen a rest new full => exact .inr (.inl full)
  | case5 turns seen a rest new free ih =>
    rcases ih with all | full | short
    · refine .inl (List.forall_mem_cons.mpr ⟨.inr List.mem_cons_self,?_⟩)
      intro b member
      rcases all b member with before | kept
      · rcases List.mem_cons.mp before with own | before
        · exact .inr (by simp [own])
        · exact .inl before
      · exact .inr (List.mem_cons_of_mem _ kept)
    · refine .inr (.inl ?_)
      rw [List.length_cons] at full
      rw [Taken.keep_kept,List.length_cons]
      omega
    · exact .inr (.inr (Nat.succ_lt_succ short))

/-- With turns for the whole line and room for every kind, no kind is left out. -/
theorem select_covers {kinds : List κ} (within : ∀ a ∈ line, kind a ∈ kinds) (room : kinds.length ≤ limit)
    (enough : line.length ≤ turns) {b : α} (member : b ∈ line) : kind b ∈ (select kind limit turns [] line).kept.map kind := by
  rcases @select_ends α κ _ kind limit turns [] line with all | full | short
  · exact (all b member).resolve_left List.not_mem_nil
  · have inside : (select kind limit turns [] line).kept.map kind ⊆ kinds := by
      intro k listed
      obtain ⟨a,kept,rfl⟩ := List.mem_map.mp listed
      exact within a (mem_line (.inl kept))
    have large : kinds.length ≤ ((select kind limit turns [] line).kept.map kind).length := by
      rw [List.length_map]
      rw [List.length_nil] at full
      omega
    have whole := ((@kept_new α κ _ kind limit turns [] line).1.subperm inside).perm_of_length_le large
    exact whole.mem_iff.mpr (within b member)
  · omega

end Selection

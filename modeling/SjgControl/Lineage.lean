import Mathlib.Logic.Relation

/-! Append-only histories. A node comes in under an identity that is not taken, with parents
that are there; among the nodes that were there before, nothing changes. -/

structure Lineage (Id Node : Type) (parents : Node → List Id) where
  get : Id → Option Node
  closed : ∀ i n, get i = some n → ∀ p ∈ parents n, (get p).isSome

namespace Lineage
variable {Id Node : Type} {parents : Node → List Id}

def Parent (g : Lineage Id Node parents) (x y : Id) : Prop := ∃ n, g.get x = some n ∧ y ∈ parents n

/-- `y` is `x` or an ancestor of it. -/
def Reaches (g : Lineage Id Node parents) : Id → Id → Prop := Relation.ReflTransGen g.Parent

theorem Reaches.refl (g : Lineage Id Node parents) (x : Id) : g.Reaches x x := Relation.ReflTransGen.refl

theorem Reaches.present {g : Lineage Id Node parents} {x y : Id} (reached : g.Reaches x y)
    (known : (g.get x).isSome) : (g.get y).isSome := by
  induction reached with
  | refl => exact known
  | tail _ last _ =>
    obtain ⟨n,held,listed⟩ := last
    exact g.closed _ n held _ listed

def Fits (g : Lineage Id Node parents) (i : Id) (n : Node) : Prop :=
  (g.get i).isNone ∧ ∀ p ∈ parents n, (g.get p).isSome

instance (g : Lineage Id Node parents) (i : Id) (n : Node) : Decidable (g.Fits i n) :=
  inferInstanceAs (Decidable ((g.get i).isNone ∧ ∀ p ∈ parents n, (g.get p).isSome))

theorem Reaches.grown {g later : Lineage Id Node parents} (grown : ∀ i n, g.get i = some n → later.get i = some n)
    {x y : Id} (reached : g.Reaches x y) : later.Reaches x y := by
  induction reached with
  | refl => exact Reaches.refl later x
  | tail _ last ih =>
    obtain ⟨n,held,listed⟩ := last
    exact ih.tail ⟨n,grown _ n held,listed⟩

variable {g : Lineage Id Node parents} {i : Id} {n : Node}

theorem Fits.apart (fits : g.Fits i n) {x : Id} (known : (g.get x).isSome) : x ≠ i := by
  intro same
  rw [same,Option.isNone_iff_eq_none.mp fits.1] at known
  cases known

variable [DecidableEq Id]

def add (g : Lineage Id Node parents) (i : Id) (n : Node) : Lineage Id Node parents :=
  if fits : g.Fits i n then
    { get := fun j => if j = i then some n else g.get j
      closed := by
        intro j m held p listed
        have known : (g.get p).isSome := by
          split at held
          next =>
            cases held
            exact fits.2 p listed
          next => exact g.closed j m held p listed
        split
        · rfl
        · exact known }
  else g

theorem get_add (fits : g.Fits i n) (j : Id) : (g.add i n).get j = if j = i then some n else g.get j := by
  unfold add
  rw [dif_pos fits]

theorem isSome_add {x : Id} (known : (g.get x).isSome) : ((g.add i n).get x).isSome := by
  by_cases fits : g.Fits i n
  · rw [get_add fits,if_neg (fits.apart known)]
    exact known
  · unfold add
    rwa [dif_neg fits]

theorem get_grown (i : Id) (n : Node) (x : Id) (m : Node) (held : g.get x = some m) : (g.add i n).get x = some m := by
  by_cases fits : g.Fits i n
  · have known : (g.get x).isSome := by
      rw [held]
      rfl
    rw [get_add fits,if_neg (fits.apart known),held]
  · unfold add
    rwa [dif_neg fits]

theorem reaches_add_old (fits : g.Fits i n) {x y : Id} (known : (g.get x).isSome) :
    (g.add i n).Reaches x y ↔ g.Reaches x y := by
  constructor
  · intro reached
    induction reached with
    | refl => exact Reaches.refl g x
    | tail _ last ih =>
      obtain ⟨m,held,listed⟩ := last
      rw [get_add fits,if_neg (fits.apart (ih.present known))] at held
      exact ih.tail ⟨m,held,listed⟩
  · intro reached
    induction reached with
    | refl => exact Reaches.refl _ x
    | tail before last ih =>
      obtain ⟨m,held,listed⟩ := last
      refine ih.tail ⟨m,?_,listed⟩
      rw [get_add fits,if_neg (fits.apart (Reaches.present before known))]
      exact held

theorem reaches_add_new (fits : g.Fits i n) {y : Id} :
    (g.add i n).Reaches i y ↔ y = i ∨ ∃ p ∈ parents n, g.Reaches p y := by
  have own : (g.add i n).get i = some n := by
    rw [get_add fits,if_pos rfl]
  constructor
  · intro reached
    rcases Relation.ReflTransGen.cases_head reached with same | ⟨p,first,later⟩
    · exact .inl same.symm
    · obtain ⟨m,held,listed⟩ := first
      cases own.symm.trans held
      exact .inr ⟨p,listed,(reaches_add_old fits (fits.2 p listed)).mp later⟩
  · rintro (rfl | ⟨p,listed,later⟩)
    · exact Reaches.refl _ _
    · have rest := (reaches_add_old fits (fits.2 p listed)).mpr later
      exact Relation.ReflTransGen.head ⟨n,own,listed⟩ rest

end Lineage

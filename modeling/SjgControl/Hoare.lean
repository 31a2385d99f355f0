import Mathlib.Tactic.Common

/-! Contracts of programs that read and write a state and may raise. A program leaves its
state behind when it raises, so a contract has an end for each way out. -/
namespace Hoare

variable {ε S α β : Type}

/-- From a state of `pre` the program returns into `post` or raises into `raised`. -/
def Triple (pre : S → Prop) (x : EStateM ε S α) (post : α → S → Prop) (raised : ε → S → Prop) : Prop :=
  ∀ s, pre s → match x s with
    | .ok a next => post a next
    | .error e next => raised e next

def endState : EStateM.Result ε S α → S
  | .ok _ s => s
  | .error _ s => s

section Rules
variable {pre pre' : S → Prop} {post post' : α → S → Prop} {raised raised' : ε → S → Prop}

theorem bind_apply (x : EStateM ε S α) (f : α → EStateM ε S β) (s : S) :
    (x >>= f) s = match x s with
      | .ok a next => f a next
      | .error e next => .error e next := rfl

theorem Triple.weaken {x : EStateM ε S α} (triple : Triple pre x post raised) (before : ∀ s, pre' s → pre s)
    (after : ∀ a s, post a s → post' a s) (failed : ∀ e s, raised e s → raised' e s) : Triple pre' x post' raised' := by
  intro s holds
  have outcome := triple s (before s holds)
  cases result : x s with
  | ok a next =>
    rw [result] at outcome
    exact after a next outcome
  | error e next =>
    rw [result] at outcome
    exact failed e next outcome

theorem Triple.returned {x : EStateM ε S α} {s next : S} {a : α} (triple : Triple pre x post raised) (holds : pre s)
    (ok : x s = .ok a next) : post a next := by
  have outcome := triple s holds
  rwa [ok] at outcome

theorem Triple.failed {x : EStateM ε S α} {s next : S} {e : ε} (triple : Triple pre x post raised) (holds : pre s)
    (error : x s = .error e next) : raised e next := by
  have outcome := triple s holds
  rwa [error] at outcome

theorem Triple.ended {holds : S → Prop} {x : EStateM ε S α} {s : S}
    (triple : Triple pre x (fun _ => holds) (fun _ => holds)) (start : pre s) : holds (endState (x s)) := by
  cases result : x s with
  | ok a next => exact triple.returned start result
  | error e next => exact triple.failed start result

theorem Triple.given {x : EStateM ε S α} {q : Prop} (triple : q → Triple pre x post raised) :
    Triple (fun s => q → pre s) x (fun a s => q → post a s) (fun e s => q → raised e s) := by
  intro s holds
  cases result : x s with
  | ok a next => exact fun condition => (triple condition).returned (holds condition) result
  | error e next => exact fun condition => (triple condition).failed (holds condition) result

theorem Triple.pure {a : α} (holds : ∀ s, pre s → post a s) :
    Triple pre (Pure.pure a : EStateM ε S α) post raised := holds

theorem Triple.throw {e : ε} (holds : ∀ s, pre s → raised e s) :
    Triple pre (MonadExcept.throw e : EStateM ε S α) post raised := holds

theorem Triple.bind {x : EStateM ε S α} {f : α → EStateM ε S β} {middle : α → S → Prop} {final : β → S → Prop}
    (first : Triple pre x middle raised) (later : ∀ a, Triple (middle a) (f a) final raised) :
    Triple pre (x >>= f) final raised := by
  intro s holds
  have outcome := first s holds
  rw [bind_apply]
  cases result : x s with
  | ok a next =>
    rw [result] at outcome
    exact later a next outcome
  | error e next =>
    rw [result] at outcome
    exact outcome

theorem Triple.ite {p : Prop} [Decidable p] {x y : EStateM ε S α} (yes : p → Triple pre x post raised)
    (no : ¬ p → Triple pre y post raised) : Triple pre (if p then x else y) post raised := by
  by_cases holds : p
  · rw [if_pos holds]
    exact yes holds
  · rw [if_neg holds]
    exact no holds

/-- A loop over a list: the invariant speaks of the items that are done. -/
theorem Triple.forM {invariant : List α → S → Prop} {f : α → EStateM ε S PUnit} {items : List α}
    (each : ∀ front a back, items = front ++ a::back →
      Triple (invariant front) (f a) (fun _ => invariant (front ++ [a])) raised) :
    Triple (invariant []) (items.forM f) (fun _ => invariant items) raised := by
  have general : ∀ rest front, items = front ++ rest →
      Triple (invariant front) (rest.forM f) (fun _ => invariant items) raised := by
    intro rest
    induction rest with
    | nil =>
      intro front whole
      rw [List.append_nil] at whole
      subst whole
      exact fun s holds => holds
    | cons a rest ih =>
      intro front whole
      refine Triple.bind (each front a rest whole) ?_
      intro _
      exact ih (front ++ [a]) (by rw [whole,List.append_assoc,List.singleton_append])
  exact general items [] rfl

theorem Triple.forM_const {invariant : S → Prop} {f : α → EStateM ε S PUnit} {items : List α}
    (each : ∀ a ∈ items, Triple invariant (f a) (fun _ => invariant) raised) :
    Triple invariant (items.forM f) (fun _ => invariant) raised := by
  apply @Triple.forM _ _ _ raised (fun _ => invariant)
  intro front a back whole
  exact each a (whole ▸ List.mem_append_right _ List.mem_cons_self)

end Rules

/-! What a loop does as a condition on the steps it takes. -/

/-- Of the two ends the one that is reached satisfies its predicate. -/
def Ends (returned raised : S → Prop) : EStateM.Result ε S α → Prop
  | .ok _ s => returned s
  | .error _ s => raised s

/-- The condition holds in front of every step a loop takes. -/
def Along (f : α → EStateM ε S PUnit) (condition : α → S → Prop) : List α → S → Prop
  | [],_ => True
  | a::rest,s => condition a s ∧ ∀ next, f a s = .ok ⟨⟩ next → Along f condition rest next

theorem forM_cons_apply (f : α → EStateM ε S PUnit) (a : α) (rest : List α) (s : S) :
    ((a::rest).forM f : EStateM ε S PUnit) s = match f a s with
      | .ok _ next => (rest.forM f : EStateM ε S PUnit) next
      | .error e next => .error e next := by
  have first : ((a::rest).forM f : EStateM ε S PUnit) = (f a >>= fun _ => rest.forM f) := rfl
  rw [first,bind_apply]
  cases f a s <;> rfl

/-- A property that is lost for good once it is lost: a loop keeps it exactly if each of its
steps does. -/
theorem ends_forM_iff {invariant returned raised : S → Prop} {condition : α → S → Prop} {f : α → EStateM ε S PUnit}
    {items : List α} (kept : ∀ a ∈ items, Triple invariant (f a) (fun _ => invariant) (fun _ _ => True))
    (step : ∀ a ∈ items, ∀ s, invariant s → returned s → (Ends returned raised (f a s) ↔ condition a s))
    (gone : ∀ a ∈ items, ∀ s, invariant s → ¬ returned s → ¬ Ends returned raised (f a s)) {s : S} (start : invariant s) (good : returned s) :
    Ends returned raised ((items.forM f : EStateM ε S PUnit) s) ↔ Along f condition items s := by
  -- after a step that lost it, the rest of the loop does not bring it back
  have never (rest : List α) (part : ∀ a ∈ rest, a ∈ items) {s : S} (holds : invariant s) (bad : ¬ returned s) :
      ¬ Ends returned raised ((rest.forM f : EStateM ε S PUnit) s) := by
    induction rest generalizing s with
    | nil => exact bad
    | cons a rest ih =>
      have lost := gone a (part a List.mem_cons_self) s holds bad
      have after := kept a (part a List.mem_cons_self) s holds
      rw [forM_cons_apply]
      cases result : f a s with
      | ok _ next =>
        rw [result] at lost after
        exact ih (fun b later => part b (List.mem_cons_of_mem a later)) after lost
      | error e next => rwa [result] at lost
  have general (rest : List α) (part : ∀ a ∈ rest, a ∈ items) {s : S} (holds : invariant s) (good : returned s) :
      Ends returned raised ((rest.forM f : EStateM ε S PUnit) s) ↔ Along f condition rest s := by
    induction rest generalizing s with
    | nil => exact iff_of_true good trivial
    | cons a rest ih =>
      have here := part a List.mem_cons_self
      have single := step a here s holds good
      have after := kept a here s holds
      rw [forM_cons_apply,Along,← single]
      cases result : f a s with
      | error e next =>
        refine (and_iff_left ?_).symm
        intro next' same
        cases same
      | ok _ next =>
        rw [result] at after
        have rest_ := fun ok : returned next =>
          ih (fun b later => part b (List.mem_cons_of_mem a later)) after ok
        constructor
        · intro ends
          have ok : returned next := by
            by_contra bad
            exact never rest (fun b later => part b (List.mem_cons_of_mem a later)) after bad ends
          refine ⟨ok,?_⟩
          intro next' same
          cases same
          exact (rest_ ok).mp ends
        · rintro ⟨ok,along⟩
          exact (rest_ ok).mpr (along next rfl)
  exact general items (fun _ inside => inside) start good

end Hoare

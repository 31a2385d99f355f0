import Mathlib.Tactic.Common

/-! Fallible bodies over an explicit state, run inside a transaction. A body that
raises leaves the state it started from; what it computed on the way is lost. -/
namespace Relational

variable {S ε α β : Type}

def require (p : Prop) [Decidable p] (e : ε) : Except ε Unit := if p then .ok () else .error e

def fetch (found : Option α) (e : ε) : Except ε α :=
  match found with
  | some value => .ok value
  | none => .error e

@[simp] theorem fetch_some (a : α) (e : ε) : fetch (some a) e = .ok a := rfl

@[simp] theorem ok_bind (a : α) (f : α → Except ε β) : (Except.ok a >>= f) = f a := rfl

@[simp low] theorem bind_ok {x : Except ε α} {f : α → Except ε β} {b : β} :
    (x >>= f) = .ok b ↔ ∃ a, x = .ok a ∧ f a = .ok b := by
  cases x with
  | error e => simp [bind,Except.bind]
  | ok a => simp [bind,Except.bind]

@[simp] theorem require_ok {p : Prop} [Decidable p] {e : ε} : require p e = .ok () ↔ p := by
  by_cases h : p <;> simp [require,h]

@[simp] theorem require_bind_ok {p : Prop} [Decidable p] {e : ε} {f : Unit → Except ε β} {b : β} :
    (require p e >>= f) = .ok b ↔ p ∧ f () = .ok b := by
  by_cases h : p <;> simp [require,h,bind,Except.bind]

@[simp] theorem fetch_bind_ok {found : Option α} {e : ε} {f : α → Except ε β} {b : β} :
    (fetch found e >>= f) = .ok b ↔ ∃ a, found = some a ∧ f a = .ok b := by
  cases found with
  | none => simp [fetch,bind,Except.bind]
  | some a => simp [fetch,bind,Except.bind]

@[simp] theorem pure_ok {a b : α} : (pure a : Except ε α) = .ok b ↔ a = b := by
  simp [pure,Except.pure]

theorem require_bind_error {p : Prop} [Decidable p] {e e' : ε} {f : Unit → Except ε β} :
    (require p e >>= f) = .error e' ↔ ¬ p ∧ e = e' ∨ p ∧ f () = .error e' := by
  by_cases h : p <;> simp [require,h,bind,Except.bind]

theorem fetch_bind_error {found : Option α} {e e' : ε} {f : α → Except ε β} :
    (fetch found e >>= f) = .error e' ↔ found = none ∧ e = e' ∨ ∃ a, found = some a ∧ f a = .error e' := by
  cases found with
  | none => simp [fetch,bind,Except.bind]
  | some a => simp [fetch,bind,Except.bind]

@[simp] theorem pure_error {a : α} {e : ε} : (pure a : Except ε α) = .error e ↔ False := by
  simp [pure,Except.pure]

theorem bind_error {x : Except ε α} {f : α → Except ε β} {e : ε} :
    (x >>= f) = .error e ↔ x = .error e ∨ ∃ a, x = .ok a ∧ f a = .error e := by
  cases x with
  | error e' => simp [bind,Except.bind]
  | ok a => simp [bind,Except.bind]

/-- A property kept by each round of a loop holds when the loop returns. -/
theorem foldlM_ok {f : S → α → Except ε S} {property : S → Prop}
    (kept : ∀ s a next, property s → f s a = .ok next → property next)
    {items : List α} {s next : S} (initially : property s)
    (ok : items.foldlM f s = .ok next) : property next := by
  induction items generalizing s with
  | nil =>
    cases pure_ok.mp ok
    exact initially
  | cons item rest ih =>
    obtain ⟨middle,first,later⟩ := bind_ok.mp ok
    exact ih (kept s item middle initially first) later

theorem foldlM_error {f : S → α → Except ε S} {property : ε → Prop} (each : ∀ s a e, f s a = .error e → property e)
    {items : List α} {s : S} {e : ε} (failed : items.foldlM f s = .error e) : property e := by
  induction items generalizing s with
  | nil => cases failed
  | cons item rest ih =>
    rcases bind_error.mp failed with first | ⟨middle,_,later⟩
    · exact each s item e first
    · exact ih later

theorem foldlM_each {f : S → α → Except ε S} {property : α → Prop}
    (passed : ∀ s a next, f s a = .ok next → property a)
    {items : List α} {s next : S} (ok : items.foldlM f s = .ok next) : ∀ a ∈ items, property a := by
  induction items generalizing s with
  | nil => simp
  | cons item rest ih =>
    obtain ⟨middle,first,later⟩ := bind_ok.mp ok
    intro a member
    rcases List.mem_cons.mp member with rfl | member
    · exact passed s a middle first
    · exact ih later a member

theorem mapM_ok {f : α → Except ε β} {γ : Type} {g : β → γ} {h : α → γ} {items : List α} {results : List β}
    (each : ∀ a ∈ items, ∀ b, f a = .ok b → g b = h a) (ok : items.mapM f = .ok results) :
    results.map g = items.map h := by
  induction items generalizing results with
  | nil =>
    cases pure_ok.mp ok
    rfl
  | cons item rest ih =>
    rw [List.mapM_cons] at ok
    obtain ⟨first,own,ok⟩ := bind_ok.mp ok
    obtain ⟨others,later,ok⟩ := bind_ok.mp ok
    cases pure_ok.mp ok
    rw [List.map_cons,List.map_cons,each item List.mem_cons_self first own,
      ih (fun a member => each a (List.mem_cons_of_mem _ member)) later]

/-- What a call leaves behind: its return value or exception, and the state. -/
structure Outcome (S ε α : Type) where
  result : Except ε α
  state : S

/-- `BEGIN IMMEDIATE … COMMIT`, with `ROLLBACK` when the body raises. -/
def atomically (state : S) (body : Except ε (α × S)) : Outcome S ε α :=
  match body with
  | .ok (value,next) => ⟨.ok value,next⟩
  | .error e => ⟨.error e,state⟩

theorem atomically_cases (state : S) (body : Except ε (α × S)) :
    (atomically state body).state = state ∨
      ∃ value, body = .ok (value,(atomically state body).state) := by
  rcases body with e | ⟨value,next⟩
  · exact .inl rfl
  · exact .inr ⟨value,rfl⟩

theorem atomically_ok {state : S} {body : Except ε (α × S)} {value : α}
    (ok : (atomically state body).result = .ok value) :
    body = .ok (value,(atomically state body).state) := by
  rcases body with e | ⟨other,next⟩
  · cases ok
  · cases ok
    rfl

end Relational

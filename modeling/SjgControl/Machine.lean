import Mathlib.Data.List.Induction

/-! Runs of a machine whose step is a total function of the state and the action
taken: an action that is not enabled leaves the state alone. A run is a list of
actions, so a property of every run is a property of every action list. -/
namespace Machine

structure Transition (S A : Type) where
  before : S
  action : A
  after : S

variable {S A : Type} (step : S → A → S)

def run (s : S) (actions : List A) : S := actions.foldl step s

def trace : S → List A → List (Transition S A)
  | _,[] => []
  | s,a::rest => ⟨s,a,step s a⟩::trace (step s a) rest

/-- Every step of the run is taken where `allowed` holds of the state before it. -/
def Along (allowed : S → A → Prop) (s : S) (actions : List A) : Prop :=
  ∀ t ∈ trace step s actions, allowed t.before t.action

instance (allowed : S → A → Prop) [∀ s a, Decidable (allowed s a)] (s : S) (actions : List A) :
    Decidable (Along step allowed s actions) :=
  inferInstanceAs (Decidable (∀ t ∈ trace step s actions, allowed t.before t.action))

@[simp] theorem run_nil (s : S) : run step s [] = s := rfl

@[simp] theorem run_cons (s : S) (a : A) (rest : List A) :
    run step s (a::rest) = run step (step s a) rest := rfl

theorem run_append (s : S) (first second : List A) :
    run step s (first ++ second) = run step (run step s first) second := by
  simp [run,List.foldl_append]

theorem trace_append (s : S) (first second : List A) :
    trace step s (first ++ second) = trace step s first ++ trace step (run step s first) second := by
  induction first generalizing s with
  | nil => rfl
  | cons a rest ih => simp [trace,ih]

theorem trace_concat (s : S) (actions : List A) (a : A) :
    trace step s (actions ++ [a]) =
      trace step s actions ++ [⟨run step s actions,a,step (run step s actions) a⟩] := by
  rw [trace_append]
  rfl

theorem trace_step {s : S} {actions : List A} {t : Transition S A}
    (member : t ∈ trace step s actions) : t.after = step t.before t.action := by
  induction actions generalizing s with
  | nil => simp [trace] at member
  | cons a rest ih =>
    rcases List.mem_cons.mp member with rfl | inside
    · rfl
    · exact ih inside

theorem along_cons {allowed : S → A → Prop} {s : S} {a : A} {rest : List A} :
    Along step allowed s (a::rest) ↔ allowed s a ∧ Along step allowed (step s a) rest := by
  simp [Along,trace]

theorem along_append {allowed : S → A → Prop} {s : S} {first second : List A} :
    Along step allowed s (first ++ second) ↔
      Along step allowed s first ∧ Along step allowed (run step s first) second := by
  simp only [Along,trace_append,List.mem_append]
  constructor
  · intro every
    exact ⟨fun t left => every t (.inl left),fun t right => every t (.inr right)⟩
  · rintro ⟨front,back⟩ t (left | right)
    · exact front t left
    · exact back t right

/-- Invariant rule for runs that keep to `allowed`. -/
theorem invariant_along {allowed : S → A → Prop} {invariant : S → Prop}
    (preserved : ∀ s a, invariant s → allowed s a → invariant (step s a))
    {s : S} (initially : invariant s) {actions : List A} (along : Along step allowed s actions) :
    invariant (run step s actions) := by
  induction actions generalizing s with
  | nil => exact initially
  | cons a rest ih =>
    obtain ⟨first,later⟩ := (along_cons step).mp along
    exact ih (preserved s a initially first) later

theorem invariant_run {invariant : S → Prop} (preserved : ∀ s a, invariant s → invariant (step s a))
    {s : S} (initially : invariant s) (actions : List A) : invariant (run step s actions) :=
  @invariant_along S A step (fun _ _ => True) invariant (fun s a holds _ => preserved s a holds)
    s initially actions (fun _ _ => trivial)

/-- Invariant rule for properties of a state together with the history that led to it. -/
theorem invariant_history_along {allowed : S → A → Prop}
    {invariant : List (Transition S A) → S → Prop} {s : S} (initially : invariant [] s)
    (preserved : ∀ history s a, invariant history s → allowed s a →
      invariant (history ++ [⟨s,a,step s a⟩]) (step s a))
    {actions : List A} (along : Along step allowed s actions) :
    invariant (trace step s actions) (run step s actions) := by
  induction actions using List.reverseRecOn with
  | nil => exact initially
  | append_singleton front a ih =>
    obtain ⟨earlier,last⟩ := (along_append step).mp along
    rw [trace_concat,run_append]
    exact preserved _ _ a (ih earlier) ((along_cons step).mp last).1

theorem invariant_history {invariant : List (Transition S A) → S → Prop} {s : S}
    (initially : invariant [] s)
    (preserved : ∀ history s a, invariant history s →
      invariant (history ++ [⟨s,a,step s a⟩]) (step s a)) (actions : List A) :
    invariant (trace step s actions) (run step s actions) :=
  @invariant_history_along S A step (fun _ _ => True) invariant s initially
    (fun history s a holds _ => preserved history s a holds) actions (fun _ _ => trivial)

theorem along_of_forall {allowed : A → Prop} {s : S} {actions : List A}
    (every : ∀ a ∈ actions, allowed a) : Along step (fun _ a => allowed a) s actions := by
  induction actions generalizing s with
  | nil =>
    intro t member
    simp [trace] at member
  | cons a rest ih =>
    rw [along_cons]
    exact ⟨every a List.mem_cons_self,ih (fun b member => every b (List.mem_cons_of_mem _ member))⟩

/-- Where a good state keeps a step's promise exactly if the step is allowed, and is then good
again, the runs whose steps all keep their promise are those that are allowed throughout. -/
theorem promise_iff_along {good : S → Prop} {valid : A → Prop} {promise : Transition S A → Prop}
    {allowed : S → A → Prop}
    (exact_ : ∀ s a, good s → valid a → (promise ⟨s,a,step s a⟩ ↔ allowed s a) ∧ (allowed s a → good (step s a)))
    {s : S} (initially : good s) {actions : List A} (every : ∀ a ∈ actions, valid a) :
    (∀ t ∈ trace step s actions, promise t) ↔ Along step allowed s actions := by
  induction actions generalizing s with
  | nil => simp [trace,Along]
  | cons a rest ih =>
    obtain ⟨kept,next⟩ := exact_ s a initially (every a List.mem_cons_self)
    have valid_ : ∀ b ∈ rest, valid b := fun b member => every b (List.mem_cons_of_mem _ member)
    rw [along_cons]
    simp only [trace,List.forall_mem_cons]
    constructor
    · rintro ⟨now,later⟩
      have permitted := kept.mp now
      exact ⟨permitted,(ih (next permitted) valid_).mp later⟩
    · rintro ⟨permitted,later⟩
      exact ⟨kept.mpr permitted,(ih (next permitted) valid_).mpr later⟩

/-- Every state a transition of a run starts from satisfies each invariant. -/
theorem invariant_before {invariant : S → Prop}
    (preserved : ∀ s a, invariant s → invariant (step s a)) {s : S} (initially : invariant s)
    {actions : List A} {t : Transition S A} (member : t ∈ trace step s actions) :
    invariant t.before := by
  induction actions generalizing s with
  | nil => simp [trace] at member
  | cons a rest ih =>
    rcases List.mem_cons.mp member with rfl | inside
    · exact initially
    · exact ih (preserved s a initially) inside

theorem invariant_before_along {allowed : S → A → Prop} {invariant : S → Prop}
    (preserved : ∀ s a, invariant s → allowed s a → invariant (step s a)) {s : S} (initially : invariant s)
    {actions : List A} (along : Along step allowed s actions) {t : Transition S A}
    (member : t ∈ trace step s actions) : invariant t.before := by
  induction actions generalizing s with
  | nil => simp [trace] at member
  | cons a rest ih =>
    obtain ⟨first,later⟩ := (along_cons step).mp along
    rcases List.mem_cons.mp member with rfl | inside
    · exact initially
    · exact ih (preserved s a initially first) later inside

/-- Simulation rule: where steps are matched by runs of another machine, so are runs. -/
theorem run_matched {T B : Type} {other : T → B → T} {related : S → T → Prop}
    (matched : ∀ s t a, related s t → ∃ steps, related (step s a) (run other t steps))
    {s : S} {t : T} (start : related s t) (actions : List A) :
    ∃ steps, related (run step s actions) (run other t steps) := by
  induction actions generalizing s t with
  | nil => exact ⟨[],start⟩
  | cons a rest ih =>
    obtain ⟨first,middle⟩ := matched s t a start
    obtain ⟨later,last⟩ := ih middle
    rw [run_cons]
    exact ⟨first ++ later,by rwa [run_append]⟩

end Machine

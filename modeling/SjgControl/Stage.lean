import SjgControl.Authorize
import SjgControl.Machine
import SjgControl.Verifier.Presence

/-! The stages of one work item over a sequence of moves, each of them judged on the stage
that the moves before it left. -/
namespace SjgControl
open Relational Machine

def workingRank (stage : Option String) : Option Nat := stage.bind (lookup stageOrder)

def heldStage (stage : Option String) : Prop := ∃ name ∈ stage, name ∈ holdingStages

def endedStage (stage : Option String) : Prop := ∃ name ∈ stage, name ∈ terminalStages

instance : DecidablePred heldStage := fun stage => inferInstanceAs (Decidable (∃ name ∈ stage, name ∈ holdingStages))

instance : DecidablePred endedStage := fun stage => inferInstanceAs (Decidable (∃ name ∈ stage, name ∈ terminalStages))

/-- `facts` is what `facts()` answers besides the current stage. -/
structure MoveRequest where
  session : Session
  arguments : Fields
  facts : Facts

/-- `worked` follows along the rank of the last working stage the item was in. -/
structure WorkItem where
  stage : Option String
  worked : Option Nat

namespace WorkItem

def starting (stage : Option String) : WorkItem := ⟨stage,workingRank stage⟩

variable (lib : TextLibrary) (policy : OrganizationPolicy)

def target (m : MoveRequest) : String := textArgument lib m.arguments "to"

def accepts (item : WorkItem) (m : MoveRequest) : Prop :=
  authorize lib policy m.session "pm.issue.move" m.arguments {m.facts with currentStage := item.stage} = .ok ()

instance (item : WorkItem) (m : MoveRequest) : Decidable (accepts lib policy item m) :=
  match authorized : authorize lib policy m.session "pm.issue.move" m.arguments
      {m.facts with currentStage := item.stage} with
  | .ok () => isTrue authorized
  | .error e => isFalse (fun ok => by rw [accepts,authorized] at ok; cases ok)

/-- `execute` moves the item to `str(arguments["to"])`. -/
def moved (item : WorkItem) (m : MoveRequest) : WorkItem :=
  let stage := some (target lib m)
  ⟨stage,(workingRank stage).or item.worked⟩

def step (item : WorkItem) (m : MoveRequest) : WorkItem :=
  if accepts lib policy item m then moved lib item m else item

/-- The stages of the item, its first one in front. -/
def visited (item : WorkItem) (moves : List MoveRequest) : List (Option String) :=
  item.stage::(trace (step lib policy) item moves).map (fun t => t.after.stage)

/-- What the flow promises of a stage and every later one. -/
def Forward (earlier later : Option String) : Prop :=
  (∀ r ∈ workingRank earlier, ∀ r' ∈ workingRank later, r ≤ r') ∧ (endedStage earlier → later = earlier)

/-- An accepted move puts no finished item on hold, and takes none back from there to a
stage before the last one it was worked on in. -/
def resumes (item : WorkItem) (m : MoveRequest) : Prop :=
  accepts lib policy item m →
    (endedStage item.stage → target lib m ∉ holdingStages) ∧
      (heldStage item.stage → ∀ r ∈ item.worked, ∀ r' ∈ lookup stageOrder (target lib m), r ≤ r')

variable {lib policy}

theorem accepts_cases {item : WorkItem} {m : MoveRequest} (ok : accepts lib policy item m) :
    target lib m ∈ holdingStages ∨
      ∃ rank, lookup stageOrder (target lib m) = some rank ∧
        (heldStage item.stage ∨ ∃ before, workingRank item.stage = some before ∧ before ≤ rank) := by
  unfold accepts authorize at ok
  obtain ⟨_,_,ok⟩ := bind_ok.mp ok
  obtain ⟨_,ok⟩ := deny_bind_ok.mp ok
  have own : authorizeRemote lib policy m.session "pm.issue.move" m.arguments
      {m.facts with currentStage := item.stage} =
      authorizeOwner lib m.session "pm.issue.move" m.arguments {m.facts with currentStage := item.stage} := rfl
  rw [own] at ok
  unfold authorizeOwner at ok
  obtain ⟨_,ok⟩ := deny_bind_ok.mp ok
  obtain ⟨_,ok⟩ := deny_bind_ok.mp ok
  rw [if_pos rfl] at ok
  unfold authorizeMove at ok
  dsimp only at ok
  split at ok
  next => cases ok
  next =>
    split at ok
    next holding => exact .inl holding
    next =>
      split at ok
      next => cases ok
      next rank found =>
        refine .inr ⟨rank,found,?_⟩
        split at ok
        next held => exact .inl held
        next =>
          split at ok
          next => cases ok
          next before known =>
            refine .inr ⟨before,known,?_⟩
            unfold deny at ok
            exact Nat.le_of_not_lt (require_ok.mp ok)

theorem holding_unranked {name : String} (holding : name ∈ holdingStages) : lookup stageOrder name = none := by
  revert name
  decide

theorem ended_unranked {stage : Option String} (ended : endedStage stage) :
    workingRank stage = none ∧ ¬ heldStage stage := by
  obtain ⟨name,own,terminal⟩ := ended
  cases own
  revert name
  decide

theorem forward_refl (stage : Option String) : Forward stage stage := by
  refine ⟨?_,fun _ => rfl⟩
  intro r first r' second
  rw [first] at second
  cases second
  exact Nat.le_refl r

/-- A later stage is ranked no lower than the one last worked on. -/
def Above (item : WorkItem) (stages : List (Option String)) : Prop :=
  ∀ stage ∈ stages, ∀ r ∈ item.worked, ∀ r' ∈ workingRank stage, r ≤ r'

def Tracked (item : WorkItem) : Prop := ∀ r ∈ workingRank item.stage, item.worked = some r

theorem starting_tracked (stage : Option String) : Tracked (starting stage) := fun _ own => own

theorem moved_tracked (item : WorkItem) (m : MoveRequest) : Tracked (moved lib item m) := by
  intro r own
  change (workingRank (some (target lib m))).or item.worked = some r
  have same : workingRank (some (target lib m)) = some r := own
  rw [same]
  rfl

theorem step_tracked {item : WorkItem} (tracked : Tracked item) (m : MoveRequest) :
    Tracked (step lib policy item m) := by
  unfold step
  split
  next => exact moved_tracked item m
  next => exact tracked

theorem visited_cons (item : WorkItem) (m : MoveRequest) (rest : List MoveRequest) :
    visited lib policy item (m::rest) = item.stage::visited lib policy (step lib policy item m) rest := rfl

theorem mem_visited (item : WorkItem) (moves : List MoveRequest) : item.stage ∈ visited lib policy item moves :=
  List.mem_cons_self

theorem moved_above {item : WorkItem} {m : MoveRequest} {stages : List (Option String)} (tracked : Tracked item)
    (ok : accepts lib policy item m) (resumed : resumes lib policy item m) (above : Above (moved lib item m) stages) :
    Above item stages := by
  intro stage member r own r' rank
  rcases accepts_cases ok with holding | ⟨next,found,came⟩
  · apply above stage member r ?_ r' rank
    change (lookup stageOrder (target lib m)).or item.worked = some r
    rw [holding_unranked holding]
    exact own
  · have later : next ≤ r' := by
      apply above stage member next ?_ r' rank
      change (lookup stageOrder (target lib m)).or item.worked = some next
      rw [found]
      rfl
    rcases came with held | ⟨before,known,ordered⟩
    · exact Nat.le_trans ((resumed ok).2 held r own next found) later
    · have same : r = before := by
        rw [tracked before known] at own
        exact (Option.some.inj own).symm
      omega

theorem visited_forward_iff {item : WorkItem} (tracked : Tracked item) (moves : List MoveRequest) :
    Above item (visited lib policy item moves) ∧ (visited lib policy item moves).Pairwise Forward ↔
      Along (step lib policy) (resumes lib policy) item moves := by
  induction moves generalizing item with
  | nil =>
    constructor
    · intro _ t member
      cases member
    · intro _
      refine ⟨?_,List.pairwise_singleton _ _⟩
      intro stage member r own r' rank
      cases List.mem_singleton.mp member
      rw [tracked r' rank] at own
      exact Nat.le_of_eq (Option.some.inj own).symm
  | cons m rest ih =>
    rw [along_cons,visited_cons,List.pairwise_cons,← ih (step_tracked tracked m)]
    have own : (step lib policy item m).stage ∈ visited lib policy (step lib policy item m) rest := mem_visited _ rest
    constructor
    · rintro ⟨above,front,later⟩
      refine ⟨?_,?_,later⟩
      · intro ok
        have reached : some (target lib m) ∈ visited lib policy (step lib policy item m) rest := by
          have left : (step lib policy item m).stage = some (target lib m) := by
            rw [step,if_pos ok]
            rfl
          exact left ▸ own
        constructor
        · intro ended holding
          have same : some (target lib m) = item.stage := (front _ reached).2 ended
          exact (ended_unranked ended).2 ⟨_,same.symm,holding⟩
        · intro _ r worked r' rank
          exact above _ (List.mem_cons_of_mem _ reached) r worked r' rank
      · intro stage member r worked r' rank
        by_cases ok : accepts lib policy item m
        · rw [step,if_pos ok] at worked
          rcases Option.or_eq_some_iff.mp worked with ranked | ⟨_,earlier⟩
          · -- the stage moved to comes first in what is left
            rw [visited,List.pairwise_cons] at later
            rcases List.mem_cons.mp member with rfl | behind
            · rw [step,if_pos ok] at rank
              have same : some r = some r' := ranked.symm.trans rank
              exact Nat.le_of_eq (Option.some.inj same)
            · apply (later.1 stage behind).1 r ?_ r' rank
              rw [step,if_pos ok]
              exact ranked
          · exact above stage (List.mem_cons_of_mem _ member) r earlier r' rank
        · rw [step,if_neg ok] at worked
          exact above stage (List.mem_cons_of_mem _ member) r worked r' rank
    · rintro ⟨resumed,above,later⟩
      have upper : Above item (visited lib policy (step lib policy item m) rest) := by
        by_cases ok : accepts lib policy item m
        · rw [step,if_pos ok] at above ⊢
          exact moved_above tracked ok resumed above
        · rw [step,if_neg ok] at above ⊢
          exact above
      refine ⟨?_,?_,later⟩
      · intro stage member r worked r' rank
        rcases List.mem_cons.mp member with rfl | behind
        · rw [tracked r' rank] at worked
          exact Nat.le_of_eq (Option.some.inj worked).symm
        · exact upper stage behind r worked r' rank
      · intro stage member
        refine ⟨fun r first r' rank => upper stage member r (tracked r first) r' rank,?_⟩
        intro ended
        have stays : ¬ accepts lib policy item m := by
          intro ok
          rcases accepts_cases ok with holding | ⟨_,_,held | ⟨before,known,_⟩⟩
          · exact (resumed ok).1 ended holding
          · exact (ended_unranked ended).2 held
          · rw [(ended_unranked ended).1] at known
            cases known
        rw [step,if_neg stays] at member later
        rw [visited,List.pairwise_cons] at later
        rcases List.mem_cons.mp member with rfl | behind
        · rfl
        · exact (later.1 stage behind).2 ended

/-- Over any moves from any stage, a work item only goes forward and stays where it ended
exactly when every accepted move resumes it so. -/
theorem stages_forward_iff (lib : TextLibrary) (policy : OrganizationPolicy) (stage : Option String)
    (moves : List MoveRequest) :
    (visited lib policy (starting stage) moves).Pairwise Forward ↔
      Along (step lib policy) (resumes lib policy) (starting stage) moves := by
  rw [← visited_forward_iff (starting_tracked stage)]
  refine ⟨fun later => ⟨?_,later⟩,And.right⟩
  rw [visited,List.pairwise_cons] at later
  intro other member r own r' rank
  rcases List.mem_cons.mp member with rfl | behind
  · exact (forward_refl _).1 r own r' rank
  · exact (later.1 other behind).1 r own r' rank

/-! A story that went to its demo is put on hold, taken up from the start, and put on hold
after it was closed. -/

def plannerMove (to_ : String) : MoveRequest :=
  ⟨Served.planner,[("id",.int 7),("to",.str to_)],{Facts.plain with ownerRole := .str "commercial-planner"}⟩

theorem held_item_restarts :
    visited Served.quietLibrary Served.plannerBackend.policy (starting (some "Demo"))
        [plannerMove "Blocked",plannerMove "Todo"] = [some "Demo",some "Blocked",some "Todo"] ∧
      visited Served.quietLibrary Served.plannerBackend.policy (starting (some "Done")) [plannerMove "Blocked"] =
        [some "Done",some "Blocked"] ∧
      ¬ Forward (some "Demo") (some "Todo") ∧ ¬ Forward (some "Done") (some "Blocked") := by
  refine ⟨by decide +kernel,by decide +kernel,?_,?_⟩
  · intro forward
    exact absurd (forward.1 3 rfl 0 rfl) (by decide)
  · intro forward
    exact absurd (forward.2 ⟨_,rfl,by decide⟩) (by decide)

end WorkItem
end SjgControl

import SjgControl.Governance.Board

/-! Boards that a sync works off: which actions are due, what the carried out ones leave, and
when nothing is due any more. -/
namespace SjgControl
open GovernanceMonitor

def QueueAction.turns (n : Int) : QueueAction → Option Bool
  | .create _ _ _ (some m) _ => if m = n then some true else none
  | .create _ _ _ none _ => none
  | .close _ m _ => if m = n then some false else none

namespace Board

def openedAfter (done : List QueueAction) (n : Int) (was : Bool) : Bool :=
  (done.findSome? (QueueAction.turns n)).getD was

def turnedCard (done : List QueueAction) (c : Card) : Card := {c with opened := openedAfter done c.number c.opened}

/-- `home` tells the aliases of the repository in which the sync works. -/
def turnedPull (home : String → Bool) (done : List QueueAction) (p : PullCard) : PullCard :=
  if home p.alias_ then {p with opened := openedAfter done p.number p.opened} else p

/-- The item that wants a source is opened or closed on the way. -/
def Turned (home : String → Bool) (v : Board) (done : List QueueAction) (s : String) : Prop :=
  (∃ c ∈ v.cards, c.proposal = true ∧ s = proposalSource c.number ∧ (turnedCard done c).opened ≠ c.opened) ∨
    ∃ p ∈ v.pulls, p.ready = true ∧ s = pullSource p.alias_ p.number ∧ (turnedPull home done p).opened ≠ p.opened

/-- The action answers a difference between what is wanted and what is up. -/
inductive Due (v : Board) : QueueAction → Prop
  | post {s title body version : String} (wanted : v.Wanted s) (none_ : ∀ c ∈ v.cards, c.source ≠ some s) :
    Due v (.create s title body none version)
  | raise {s title body version : String} (c : Card) (wanted : v.Wanted s) (member : c ∈ v.cards)
    (source : c.source = some s) (down : ¬ (c.opened = true ∧ c.id ∈ v.attached)) :
    Due v (.create s title body (some c.number) version)
  | close {s version : String} (c : Card) (unwanted : ¬ v.Wanted s) (member : c ∈ v.cards) (source : c.source = some s)
    (opened : c.opened = true) (attached : c.id ∈ v.attached) : Due v (.close s c.number version)

/-- The actions are the differences, one for each. -/
structure Planned (v : Board) (actions : List QueueAction) : Prop where
  due : ∀ a ∈ actions, v.Due a
  complete : ∀ s, ¬ (v.Wanted s ↔ v.Up s) → ∃ a ∈ actions, a.sourceKey = s
  apart : (actions.map QueueAction.sourceKey).Nodup

/-- What the board has become behind some actions: new cards for those that post, and the old
ones turned and attached. -/
structure Progress (home : String → Bool) (v : Board) (done : List QueueAction) (w : Board) : Prop where
  blocked : w.blocked = v.blocked
  old : ∀ c ∈ v.cards, turnedCard done c ∈ w.cards
  new : ∀ a ∈ done, a.operation = "create" → a.target = none →
    ∃ x ∈ w.cards, x.source = some a.sourceKey ∧ x.opened = true ∧ x.id ∈ w.attached ∧ ∀ c ∈ v.cards, c.number ≠ x.number
  cards : ∀ x ∈ w.cards, (∃ c ∈ v.cards, x = turnedCard done c) ∨
    x.proposal = false ∧ (∀ c ∈ v.cards, c.number ≠ x.number) ∧
      ∃ a ∈ done, a.operation = "create" ∧ a.target = none ∧ x.source = some a.sourceKey
  pulls : w.pulls = v.pulls.map (turnedPull home done)
  attached : ∀ c ∈ v.cards, c.id ∈ w.attached ↔
    c.id ∈ v.attached ∨ ∃ a ∈ done, a.operation = "create" ∧ a.target = some c.number

variable {home : String → Bool} {v w : Board} {actions done : List QueueAction}

theorem Planned.same (planned : v.Planned actions) {a b : QueueAction} (one : a ∈ actions) (other : b ∈ actions)
    (same : a.sourceKey = b.sourceKey) : a = b := List.inj_on_of_nodup_map planned.apart one other same

theorem Due.turns_source (distinct : v.Distinct) {a : QueueAction} (due : v.Due a) {c : Card} (member : c ∈ v.cards)
    {b : Bool} (turns : a.turns c.number = some b) : c.source = some a.sourceKey := by
  cases due with
  | post wanted none_ => cases turns
  | raise d wanted present source down =>
    simp only [QueueAction.turns] at turns
    split at turns
    next same => rw [← distinct.card present member same]; exact source
    next => cases turns
  | close d unwanted present source opened attached =>
    simp only [QueueAction.turns] at turns
    split at turns
    next same => rw [← distinct.card present member same]; exact source
    next => cases turns

theorem openedAfter_of_mem {n : Int} {was b : Bool} {a : QueueAction} (member : a ∈ done) (turns : a.turns n = some b)
    (only : ∀ other ∈ done, ∀ b', other.turns n = some b' → other = a) : openedAfter done n was = b := by
  unfold openedAfter
  cases found : done.findSome? (QueueAction.turns n) with
  | none =>
    rw [List.findSome?_eq_none_iff.mp found a member] at turns
    cases turns
  | some b' =>
    obtain ⟨other,present,own⟩ := List.exists_of_findSome?_eq_some found
    rw [only other present b' own,turns] at own
    exact (Option.some.inj own).symm

theorem openedAfter_of_none {n : Int} {was : Bool} (none_ : ∀ a ∈ done, a.turns n = none) :
    openedAfter done n was = was := by
  unfold openedAfter
  rw [List.findSome?_eq_none_iff.mpr none_]
  rfl

section After
variable (planned : v.Planned actions) (distinct : v.Distinct) (single : v.Single) (subset : done ⊆ actions)
  (progress : Progress home v done w)
include planned distinct subset

theorem turns_only {c : Card} (member : c ∈ v.cards) {a b : QueueAction} {x y : Bool} (one : a ∈ done)
    (own : a.turns c.number = some x) (other : b ∈ done) (turns : b.turns c.number = some y) : b = a := by
  have first := (planned.due a (subset one)).turns_source distinct member own
  have second := (planned.due b (subset other)).turns_source distinct member turns
  rw [first] at second
  exact planned.same (subset other) (subset one) (Option.some.inj second).symm

theorem opened_of_turns {c : Card} (member : c ∈ v.cards) {a : QueueAction} {b : Bool} (one : a ∈ done)
    (turns : a.turns c.number = some b) : (turnedCard done c).opened = b :=
  openedAfter_of_mem one turns (fun _ other _ own => turns_only planned distinct subset member one turns other own)

include single progress

omit distinct in
theorem card_after {c x : Card} (member : c ∈ v.cards) (present : x ∈ w.cards) {s : String} (source : c.source = some s)
    (named : x.source = some s) : x = turnedCard done c := by
  rcases progress.cards x present with ⟨d,old,rfl⟩ | ⟨_,_,a,inside,create,posts,own⟩
  · rw [single d old c member s named source]
  · rw [named] at own
    have due := planned.due a (subset inside)
    cases due with
    | post wanted none_ => exact absurd (source.trans own) (none_ c member)
    | raise => cases posts
    | close => cases posts

omit single in
theorem up_of_create {a : QueueAction} (member : a ∈ done) (create : a.operation = "create") : w.Up a.sourceKey := by
  have due := planned.due a (subset member)
  cases due with
  | post wanted none_ =>
    obtain ⟨c,present,source,opened,attached,_⟩ := progress.new _ member create rfl
    exact ⟨c,present,source,opened,attached⟩
  | @raise s title body version c wanted present source down =>
    have turns : (QueueAction.create s title body (some c.number) version).turns c.number = some true := if_pos rfl
    refine ⟨turnedCard done c,progress.old c present,source,opened_of_turns planned distinct subset present member turns,?_⟩
    exact (progress.attached c present).mpr (.inr ⟨_,member,create,rfl⟩)
  | close => exact absurd create (by simp [QueueAction.operation])

theorem down_of_close {a : QueueAction} (member : a ∈ done) (close : a.operation = "close") : ¬ w.Up a.sourceKey := by
  have due := planned.due a (subset member)
  cases due with
  | post => exact absurd close (by simp [QueueAction.operation])
  | raise => exact absurd close (by simp [QueueAction.operation])
  | @close s version c unwanted present source opened attached =>
    rintro ⟨x,listed,named,standing,_⟩
    have turns : (QueueAction.close s c.number version).turns c.number = some false := if_pos rfl
    rw [card_after planned single subset progress present listed source named,
      opened_of_turns planned distinct subset present member turns] at standing
    cases standing

omit single in
theorem up_of_none {s : String} (none_ : ∀ a ∈ done, a.sourceKey ≠ s) : w.Up s ↔ v.Up s := by
  have untouched {c : Card} (member : c ∈ v.cards) (source : c.source = some s) :
      turnedCard done c = c ∧ (c.id ∈ w.attached ↔ c.id ∈ v.attached) := by
    have calm : ∀ a ∈ done, a.turns c.number = none := by
      intro a inside
      cases turns : a.turns c.number with
      | none => rfl
      | some b =>
        have own := (planned.due a (subset inside)).turns_source distinct member turns
        rw [source] at own
        exact absurd (Option.some.inj own).symm (none_ a inside)
    constructor
    · unfold turnedCard
      rw [openedAfter_of_none calm]
    · rw [progress.attached c member]
      refine or_iff_left ?_
      rintro ⟨a,inside,_,target⟩
      have quiet := calm a inside
      cases a with
      | create t title body existing version =>
        cases target
        simp [QueueAction.turns] at quiet
      | close t m version =>
        cases target
        simp [QueueAction.turns] at quiet
  constructor
  · rintro ⟨x,listed,named,opened,attached⟩
    rcases progress.cards x listed with ⟨c,member,rfl⟩ | ⟨_,_,a,inside,_,_,own⟩
    · obtain ⟨still,linked⟩ := untouched member named
      rw [still] at opened attached
      exact ⟨c,member,named,opened,linked.mp attached⟩
    · rw [named] at own
      exact absurd (Option.some.inj own).symm (none_ a inside)
  · rintro ⟨c,member,source,opened,attached⟩
    obtain ⟨still,linked⟩ := untouched member source
    have present := progress.old c member
    rw [still] at present
    exact ⟨c,present,source,opened,linked.mpr attached⟩

end After

section Wanted
variable (distinct : v.Distinct) (progress : Progress home v done w)
include progress

theorem proposed_after {s : String} : w.Proposed s ↔
    ∃ c ∈ v.cards, c.proposal = true ∧ (turnedCard done c).opened = true ∧ s = proposalSource c.number := by
  constructor
  · rintro ⟨x,listed,proposal,opened,own⟩
    rcases progress.cards x listed with ⟨c,member,rfl⟩ | ⟨none_,_⟩
    · exact ⟨c,member,proposal,opened,own⟩
    · rw [none_] at proposal
      cases proposal
  · rintro ⟨c,member,proposal,opened,own⟩
    exact ⟨_,progress.old c member,proposal,opened,own⟩

theorem mergeable_after {s : String} : w.Mergeable s ↔
    ∃ p ∈ v.pulls, p.ready = true ∧ (turnedPull home done p).opened = true ∧ s = pullSource p.alias_ p.number := by
  have kept (p : PullCard) : (turnedPull home done p).ready = p.ready ∧
      (turnedPull home done p).alias_ = p.alias_ ∧ (turnedPull home done p).number = p.number := by
    unfold turnedPull
    split
    next => exact ⟨rfl,rfl,rfl⟩
    next => exact ⟨rfl,rfl,rfl⟩
  unfold Mergeable
  rw [progress.pulls]
  simp only [List.mem_map,exists_exists_and_eq_and]
  refine exists_congr (fun p => and_congr_right (fun _ => ?_))
  obtain ⟨ready,alias_,number⟩ := kept p
  rw [ready,alias_,number]

theorem wanted_after {s : String} : w.Wanted s ↔ s ∈ v.blocked ∨
    (∃ c ∈ v.cards, c.proposal = true ∧ (turnedCard done c).opened = true ∧ s = proposalSource c.number) ∨
      ∃ p ∈ v.pulls, p.ready = true ∧ (turnedPull home done p).opened = true ∧ s = pullSource p.alias_ p.number := by
  unfold Wanted
  rw [progress.blocked,proposed_after progress,mergeable_after progress]

include distinct

theorem wanted_iff (s : String) : (w.Wanted s ↔ v.Wanted s) ↔ ¬ v.Turned home done s := by
  by_cases card : ∃ c ∈ v.cards, c.proposal = true ∧ s = proposalSource c.number
  · obtain ⟨c,member,proposal,rfl⟩ := card
    have only {d : Card} (present : d ∈ v.cards) (same : proposalSource c.number = proposalSource d.number) : d = c :=
      distinct.card present member
        (proposalSource_inj (distinct.positive.1 c member) (distinct.positive.1 d present) same).symm
    have noPull (p : PullCard) : proposalSource c.number ≠ pullSource p.alias_ p.number := proposal_not_pull _ _ _
    have before : v.Wanted (proposalSource c.number) ↔ c.opened = true := by
      constructor
      · rintro (blocked | ⟨d,present,_,opened,same⟩ | ⟨p,_,_,_,same⟩)
        · exact absurd blocked (distinct.blocked_not_proposal _)
        · exact only present same ▸ opened
        · exact absurd same (noPull p)
      · exact fun opened => .inr (.inl ⟨c,member,proposal,opened,rfl⟩)
    have after : w.Wanted (proposalSource c.number) ↔ (turnedCard done c).opened = true := by
      rw [wanted_after progress]
      constructor
      · rintro (blocked | ⟨d,present,_,opened,same⟩ | ⟨p,_,_,_,same⟩)
        · exact absurd blocked (distinct.blocked_not_proposal _)
        · exact only present same ▸ opened
        · exact absurd same (noPull p)
      · exact fun opened => .inr (.inl ⟨c,member,proposal,opened,rfl⟩)
    have turned : v.Turned home done (proposalSource c.number) ↔ (turnedCard done c).opened ≠ c.opened := by
      constructor
      · rintro (⟨d,present,_,same,moved⟩ | ⟨p,_,_,same,_⟩)
        · exact only present same ▸ moved
        · exact absurd same (noPull p)
      · exact fun moved => .inl ⟨c,member,proposal,rfl,moved⟩
    rw [before,after,turned,not_not]
    exact Bool.eq_iff_iff.symm
  · by_cases pull : ∃ p ∈ v.pulls, p.ready = true ∧ s = pullSource p.alias_ p.number
    · obtain ⟨p,member,ready,rfl⟩ := pull
      have only {q : PullCard} (present : q ∈ v.pulls)
          (same : pullSource p.alias_ p.number = pullSource q.alias_ q.number) : q = p := by
        obtain ⟨alias_,number⟩ := pullSource_inj (distinct.positive.2 p member) (distinct.positive.2 q present) same
        exact List.inj_on_of_nodup_map distinct.pulls present member (by rw [alias_,number])
      have noCard (c : Card) : pullSource p.alias_ p.number ≠ proposalSource c.number := (proposal_not_pull _ _ _).symm
      have before : v.Wanted (pullSource p.alias_ p.number) ↔ p.opened = true := by
        constructor
        · rintro (blocked | ⟨c,_,_,_,same⟩ | ⟨q,present,_,opened,same⟩)
          · exact absurd blocked (distinct.blocked_not_pull _ _)
          · exact absurd same (noCard c)
          · exact only present same ▸ opened
        · exact fun opened => .inr (.inr ⟨p,member,ready,opened,rfl⟩)
      have after : w.Wanted (pullSource p.alias_ p.number) ↔ (turnedPull home done p).opened = true := by
        rw [wanted_after progress]
        constructor
        · rintro (blocked | ⟨c,_,_,_,same⟩ | ⟨q,present,_,opened,same⟩)
          · exact absurd blocked (distinct.blocked_not_pull _ _)
          · exact absurd same (noCard c)
          · exact only present same ▸ opened
        · exact fun opened => .inr (.inr ⟨p,member,ready,opened,rfl⟩)
      have turned : v.Turned home done (pullSource p.alias_ p.number) ↔ (turnedPull home done p).opened ≠ p.opened := by
        constructor
        · rintro (⟨c,_,_,same,_⟩ | ⟨q,present,_,same,moved⟩)
          · exact absurd same (noCard c)
          · exact only present same ▸ moved
        · exact fun moved => .inr ⟨p,member,ready,rfl,moved⟩
      rw [before,after,turned,not_not]
      exact Bool.eq_iff_iff.symm
    · -- a source that no item wants: only a blocker may
      have before : v.Wanted s ↔ s ∈ v.blocked := by
        refine or_iff_left ?_
        rintro (⟨c,member,proposal,_,own⟩ | ⟨p,member,ready,_,own⟩)
        · exact card ⟨c,member,proposal,own⟩
        · exact pull ⟨p,member,ready,own⟩
      have after : w.Wanted s ↔ s ∈ v.blocked := by
        rw [wanted_after progress]
        refine or_iff_left ?_
        rintro (⟨c,member,proposal,_,own⟩ | ⟨p,member,ready,_,own⟩)
        · exact card ⟨c,member,proposal,own⟩
        · exact pull ⟨p,member,ready,own⟩
      rw [before,after]
      refine iff_of_true Iff.rfl ?_
      rintro (⟨c,member,proposal,own,_⟩ | ⟨p,member,ready,own,_⟩)
      · exact card ⟨c,member,proposal,own⟩
      · exact pull ⟨p,member,ready,own⟩

end Wanted

theorem Due.differs {a : QueueAction} (due : v.Due a) (single : v.Single) : v.Wanted a.sourceKey ↔ ¬ v.Up a.sourceKey := by
  cases due with
  | post wanted none_ =>
    refine iff_of_true wanted ?_
    rintro ⟨c,member,source,_⟩
    exact none_ c member source
  | raise c wanted member source down =>
    refine iff_of_true wanted ?_
    rintro ⟨d,present,named,standing⟩
    rw [single d present c member _ named source] at standing
    exact down standing
  | close c unwanted member source opened attached =>
    exact iff_of_false unwanted (not_not.mpr ⟨c,member,source,opened,attached⟩)

/-- The source is up behind the actions exactly if it was wanted, unless its action is left out. -/
theorem up_iff_wanted (planned : v.Planned actions) (distinct : v.Distinct) (single : v.Single) (spent : QueueAction → Bool)
    (progress : Progress home v (actions.filter (fun a => !spent a)) w) (s : String) :
    (w.Up s ↔ v.Wanted s) ↔ ¬ ∃ a ∈ actions, a.sourceKey = s ∧ spent a = true := by
  have subset : actions.filter (fun a => !spent a) ⊆ actions := List.filter_subset_self _
  by_cases due : ∃ a ∈ actions, a.sourceKey = s
  · obtain ⟨a,member,rfl⟩ := due
    cases given : spent a with
    | true =>
      refine iff_of_false ?_ (not_not.mpr ⟨a,member,rfl,given⟩)
      have up : w.Up a.sourceKey ↔ v.Up a.sourceKey := by
        refine up_of_none planned distinct subset progress ?_
        intro b inside same
        obtain ⟨present,free⟩ := List.mem_filter.mp inside
        rw [planned.same present member same,given] at free
        cases free
      rw [up,(planned.due a member).differs single]
      exact iff_not_self
    | false =>
      refine iff_of_true ?_ ?_
      · have inside : a ∈ actions.filter (fun b => !spent b) := List.mem_filter.mpr ⟨member,by simp [given]⟩
        have due := planned.due a member
        cases due with
        | post asked none_ => exact iff_of_true (up_of_create planned distinct subset progress inside rfl) asked
        | raise c asked present source down =>
          exact iff_of_true (up_of_create planned distinct subset progress inside rfl) asked
        | close c unasked present source opened attached =>
          exact iff_of_false (down_of_close planned distinct single subset progress inside rfl) unasked
      · rintro ⟨b,present,same,left⟩
        rw [planned.same present member same,given] at left
        cases left
  · refine iff_of_true ?_ ?_
    · rw [up_of_none planned distinct subset progress (fun b inside same => due ⟨b,subset inside,same⟩)]
      by_contra differs
      exact due (planned.complete s (fun stands => differs stands.symm))
    · rintro ⟨a,member,same,_⟩
      exact due ⟨a,member,same⟩

/-- Nothing is due behind a sync exactly when the items that it turned are those that want
the sources of the actions it left out. -/
theorem settled_iff (planned : v.Planned actions) (distinct : v.Distinct) (single : v.Single) (spent : QueueAction → Bool)
    (progress : Progress home v (actions.filter (fun a => !spent a)) w) :
    w.Settled ↔ ∀ s, v.Turned home (actions.filter (fun a => !spent a)) s ↔ ∃ a ∈ actions, a.sourceKey = s ∧ spent a = true := by
  refine forall_congr' (fun s => ?_)
  have wanted := wanted_iff distinct progress s
  have up := up_iff_wanted planned distinct single spent progress s
  by_cases asked : v.Wanted s
  · simp only [iff_true,asked] at wanted up
    rw [wanted,up]
    exact not_iff_not
  · simp only [iff_false,asked] at wanted up
    rw [not_iff_not.mp wanted,not_iff_not.mp up]

/-! One action after the other. -/

def setCard (n : Int) (b : Bool) (c : Card) : Card := if c.number = n then {c with opened := b} else c

def setPull (home : String → Bool) (n : Int) (b : Bool) (p : PullCard) : PullCard :=
  if home p.alias_ = true ∧ p.number = n then {p with opened := b} else p

structure Posted (x : Card) (w after : Board) : Prop where
  blocked : after.blocked = w.blocked
  cards : ∀ y, y ∈ after.cards ↔ y ∈ w.cards ∨ y = x
  pulls : after.pulls = w.pulls
  attached : ∀ id, id ∈ after.attached ↔ id ∈ w.attached ∨ id = x.id

structure Moved (home : String → Bool) (n : Int) (b : Bool) (links : List Int) (w after : Board) : Prop where
  blocked : after.blocked = w.blocked
  cards : after.cards = w.cards.map (setCard n b)
  pulls : after.pulls = w.pulls.map (setPull home n b)
  attached : ∀ id, id ∈ after.attached ↔ id ∈ w.attached ∨ id ∈ links

variable {after : Board} {a : QueueAction} {n : Int} {b : Bool}

theorem openedAfter_snoc (done : List QueueAction) (a : QueueAction) (m : Int) (was : Bool) :
    openedAfter (done ++ [a]) m was = ((done.findSome? (QueueAction.turns m)).or (a.turns m)).getD was := by
  unfold openedAfter
  rw [List.findSome?_append]
  simp

theorem openedAfter_posting (posts : ∀ m, a.turns m = none) (m : Int) (was : Bool) :
    openedAfter (done ++ [a]) m was = openedAfter done m was := by
  rw [openedAfter_snoc,posts,Option.or_none]
  rfl

theorem openedAfter_turning (turns : ∀ m, a.turns m = if m = n then some b else none) (quiet : ∀ d ∈ done, d.turns n = none)
    (m : Int) (was : Bool) : openedAfter (done ++ [a]) m was = if m = n then b else openedAfter done m was := by
  rw [openedAfter_snoc,turns]
  split
  next same =>
    rw [same,List.findSome?_eq_none_iff.mpr quiet]
    rfl
  next =>
    rw [Option.or_none]
    rfl

theorem turnedCard_turning (turns : ∀ m, a.turns m = if m = n then some b else none) (quiet : ∀ d ∈ done, d.turns n = none)
    (c : Card) : turnedCard (done ++ [a]) c = setCard n b (turnedCard done c) := by
  unfold turnedCard setCard
  rw [openedAfter_turning turns quiet]
  split
  next => rfl
  next => rfl

theorem turnedPull_turning (turns : ∀ m, a.turns m = if m = n then some b else none) (quiet : ∀ d ∈ done, d.turns n = none)
    (p : PullCard) : turnedPull home (done ++ [a]) p = setPull home n b (turnedPull home done p) := by
  unfold turnedPull setPull
  rw [openedAfter_turning turns quiet]
  by_cases own : home p.alias_ = true
  · rw [if_pos own,if_pos own]
    by_cases same : p.number = n
    · rw [if_pos same,if_pos ⟨own,same⟩]
    · rw [if_neg same,if_neg (fun both => same both.2)]
  · rw [if_neg own,if_neg own,if_neg (fun both => own both.1)]

theorem Progress.refl (home : String → Bool) (v : Board) : Progress home v [] v where
  blocked := rfl
  old c member := member
  new a member := absurd member List.not_mem_nil
  cards x member := .inl ⟨x,member,rfl⟩
  pulls := by
    have same : turnedPull home [] = id := by
      funext p
      unfold turnedPull openedAfter
      split
      next => rfl
      next => rfl
    rw [same,List.map_id]
  attached c member := by simp

theorem Progress.posted (progress : Progress home v done w) (create : a.operation = "create") (posts : a.target = none)
    {x : Card} (source : x.source = some a.sourceKey) (opened : x.opened = true) (proposal : x.proposal = false)
    (number : ∀ c ∈ v.cards, c.number ≠ x.number) (id : ∀ c ∈ v.cards, c.id ≠ x.id) (posted : Posted x w after) :
    Progress home v (done ++ [a]) after := by
  have calm : ∀ m, a.turns m = none := by
    intro m
    cases a with
    | create s title body existing version =>
      cases posts
      rfl
    | close s m version => cases posts
  have cards : turnedCard (done ++ [a]) = turnedCard done := by
    funext c
    unfold turnedCard
    rw [openedAfter_posting calm]
  have pulls : turnedPull home (done ++ [a]) = turnedPull home done := by
    funext p
    unfold turnedPull
    rw [openedAfter_posting calm]
  constructor
  · exact posted.blocked.trans progress.blocked
  · intro c member
    rw [cards]
    exact (posted.cards _).mpr (.inl (progress.old c member))
  · intro d inside creates posting
    rcases List.mem_append.mp inside with before | last
    · obtain ⟨c,present,named,up,linked,apart⟩ := progress.new d before creates posting
      exact ⟨c,(posted.cards c).mpr (.inl present),named,up,(posted.attached _).mpr (.inl linked),apart⟩
    · cases List.mem_singleton.mp last
      exact ⟨x,(posted.cards x).mpr (.inr rfl),source,opened,(posted.attached _).mpr (.inr rfl),number⟩
  · intro y member
    rw [cards]
    rcases (posted.cards y).mp member with before | rfl
    · rcases progress.cards y before with old | ⟨plain,apart,d,inside,creates,posting,named⟩
      · exact .inl old
      · exact .inr ⟨plain,apart,d,List.mem_append_left _ inside,creates,posting,named⟩
    · exact .inr ⟨proposal,number,a,List.mem_append_right _ List.mem_cons_self,create,posts,source⟩
  · rw [posted.pulls,progress.pulls,pulls]
  · intro c member
    rw [posted.attached,progress.attached c member]
    have other : ¬ c.id = x.id := id c member
    simp [other,or_and_right,exists_or,posts]

theorem Progress.moved (progress : Progress home v done w) (turns : ∀ m, a.turns m = if m = n then some b else none)
    (quiet : ∀ d ∈ done, d.turns n = none) (target : a.target = some n) (known : ∃ c ∈ v.cards, c.number = n)
    {links : List Int} (linked : ∀ c ∈ v.cards, c.id ∈ links ↔ a.operation = "create" ∧ n = c.number)
    (moved : Moved home n b links w after) : Progress home v (done ++ [a]) after := by
  constructor
  · exact moved.blocked.trans progress.blocked
  · intro c member
    rw [turnedCard_turning turns quiet,moved.cards]
    exact List.mem_map_of_mem (progress.old c member)
  · intro d inside creates posting
    rcases List.mem_append.mp inside with before | last
    · obtain ⟨x,present,named,up,attached,apart⟩ := progress.new d before creates posting
      obtain ⟨c,old,rfl⟩ := known
      have still : setCard c.number b x = x := if_neg (apart c old).symm
      refine ⟨x,?_,named,up,(moved.attached _).mpr (.inl attached),apart⟩
      rw [moved.cards,← still]
      exact List.mem_map_of_mem present
    · cases List.mem_singleton.mp last
      rw [target] at posting
      cases posting
  · intro y member
    rw [moved.cards] at member
    obtain ⟨x,present,rfl⟩ := List.mem_map.mp member
    rcases progress.cards x present with ⟨c,old,rfl⟩ | ⟨plain,apart,d,inside,creates,posting,named⟩
    · exact .inl ⟨c,old,(turnedCard_turning turns quiet c).symm⟩
    · obtain ⟨c,old,rfl⟩ := known
      have still : setCard c.number b x = x := if_neg (apart c old).symm
      rw [still]
      exact .inr ⟨plain,apart,d,List.mem_append_left _ inside,creates,posting,named⟩
  · rw [moved.pulls,progress.pulls,List.map_map]
    refine List.map_congr_left (fun p _ => ?_)
    exact (turnedPull_turning turns quiet p).symm
  · intro c member
    rw [moved.attached,progress.attached c member,linked c member,or_assoc]
    refine or_congr Iff.rfl ?_
    simp [or_and_right,exists_or,target]

theorem Posted.single {x : Card} (posted : Posted x w after) (single : w.Single)
    (alone : ∀ c ∈ w.cards, ∀ s, x.source = some s → c.source ≠ some s) : after.Single := by
  intro c member d present s source named
  rcases (posted.cards c).mp member with old | rfl
  · rcases (posted.cards d).mp present with before | rfl
    · exact single c old d before s source named
    · exact absurd source (alone c old s named)
  · rcases (posted.cards d).mp present with before | rfl
    · exact absurd named (alone d before s source)
    · rfl

theorem Moved.single {links : List Int} (moved : Moved home n b links w after) (single : w.Single) : after.Single := by
  have kept (c : Card) : (setCard n b c).source = c.source := by
    unfold setCard
    split
    next => rfl
    next => rfl
  unfold Single
  rw [moved.cards]
  simp only [List.forall_mem_map,kept]
  intro c member d present s source named
  rw [single c member d present s source named]

theorem Planned.quiet (planned : v.Planned actions) (distinct : v.Distinct) (subset : done ⊆ actions)
    (others : ∀ d ∈ done, d.sourceKey ≠ a.sourceKey) {c : Card} (member : c ∈ v.cards) (source : c.source = some a.sourceKey) :
    ∀ d ∈ done, d.turns c.number = none := by
  intro d inside
  cases turns : d.turns c.number with
  | none => rfl
  | some b =>
    have own := (planned.due d (subset inside)).turns_source distinct member turns
    rw [source] at own
    exact absurd (Option.some.inj own).symm (others d inside)

theorem Progress.absent (progress : Progress home v done w) {s : String} (none_ : ∀ c ∈ v.cards, c.source ≠ some s)
    (others : ∀ d ∈ done, d.sourceKey ≠ s) : ∀ c ∈ w.cards, c.source ≠ some s := by
  intro c member source
  rcases progress.cards c member with ⟨old,present,rfl⟩ | ⟨_,_,d,inside,_,_,own⟩
  · exact none_ old present source
  · rw [source] at own
    exact others d inside (Option.some.inj own).symm

end Board
end SjgControl

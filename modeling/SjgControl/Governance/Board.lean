import Mathlib.Data.List.Dedup
import SjgControl.Governance.Managed

/-! The Human queue as a board: the items of the org repository and the pull requests as cards,
the sources that are wanted, and those that are up. What a snapshot plans is their difference. -/
namespace SjgControl
open Relational PythonText Backend

/-- What the monitor reads of an item of the issues API. -/
structure Card where
  number : Int
  id : Int
  pull : Bool
  source : Option String
  proposal : Bool
  opened : Bool

/-- What it reads of a pull request; one that is open must be readable. -/
structure PullCard where
  alias_ : String
  number : Int
  readable : Bool
  ready : Bool
  opened : Bool

structure Board where
  blocked : List String
  cards : List Card
  pulls : List PullCard
  attached : List Int

namespace Board
variable (v : Board)

def Up (s : String) : Prop := ∃ c ∈ v.cards, c.source = some s ∧ c.opened = true ∧ c.id ∈ v.attached

def Proposed (s : String) : Prop :=
  ∃ c ∈ v.cards, c.proposal = true ∧ c.opened = true ∧ s = GovernanceMonitor.proposalSource c.number

def Mergeable (s : String) : Prop :=
  ∃ p ∈ v.pulls, p.ready = true ∧ p.opened = true ∧ s = GovernanceMonitor.pullSource p.alias_ p.number

def Wanted (s : String) : Prop := s ∈ v.blocked ∨ v.Proposed s ∨ v.Mergeable s

def sources : List String :=
  v.blocked ++ (v.cards.filterMap (fun c =>
      if c.proposal = true ∧ c.opened = true then some (GovernanceMonitor.proposalSource c.number) else none) ++
    v.pulls.filterMap (fun p =>
      if p.ready = true ∧ p.opened = true then some (GovernanceMonitor.pullSource p.alias_ p.number) else none))

theorem mem_sources {s : String} : s ∈ v.sources ↔ v.Wanted s := by
  unfold sources Wanted Proposed Mergeable
  simp only [List.mem_append,List.mem_filterMap]
  refine or_congr Iff.rfl (or_congr ?_ ?_)
  · refine exists_congr (fun c => and_congr_right (fun _ => ?_))
    split
    next due => simp [due,eq_comm]
    next other =>
      refine ⟨fun none_ => (by cases none_),?_⟩
      rintro ⟨proposal,opened,_⟩
      exact absurd ⟨proposal,opened⟩ other
  · refine exists_congr (fun p => and_congr_right (fun _ => ?_))
    split
    next due => simp [due,eq_comm]
    next other =>
      refine ⟨fun none_ => (by cases none_),?_⟩
      rintro ⟨ready,opened,_⟩
      exact absurd ⟨ready,opened⟩ other

def Readable : Prop := ∀ p ∈ v.pulls, p.opened = true → p.readable = true

/-- The markers are those of source keys. -/
def Marked : Prop := ∀ c ∈ v.cards, ∀ s ∈ c.source, (sourceMarker s).toBool = true

def Single : Prop := ∀ c ∈ v.cards, ∀ d ∈ v.cards, ∀ s, c.source = some s → d.source = some s → c = d

def Queued (queue : Int) : Prop := ∃ c ∈ v.cards, c.number = queue ∧ c.pull = false

/-- What is wanted is up, and nothing else. -/
def Settled : Prop := ∀ s, v.Wanted s ↔ v.Up s

end Board

def idOf (item : Fields) : Option Int :=
  match Json.get item "id" with
  | .int n => some n
  | _ => none

/-- GitHub gives every item a number and an id of its own. -/
structure Identified (remote : GitHub) (slug : String) : Prop where
  numbered : ∀ item ∈ remote.listedIssues slug, ∃ n, 0 < n ∧ numberOf item = some n
  identified : ∀ item ∈ remote.listedIssues slug, ∃ id, idOf item = some id
  numbers : ((remote.listedIssues slug).map numberOf).Nodup
  ids : ((remote.listedIssues slug).map idOf).Nodup

theorem Identified.same_number {remote : GitHub} {slug : String} (ids : Identified remote slug) {item other : Fields}
    (listed : item ∈ remote.listedIssues slug) (present : other ∈ remote.listedIssues slug)
    (same : numberOf item = numberOf other) : item = other := List.inj_on_of_nodup_map ids.numbers listed present same

namespace GovernanceMonitor
variable (g : GovernanceMonitor) (lib : MonitorLibrary)

def sourceOf (item : Fields) : Option String := sourceIn (bodyOf lib.toTextLibrary item).toList

def cardOf (item : Fields) : Card where
  number := (numberOf item).getD 0
  id := (idOf item).getD 0
  pull := isPull item
  source := sourceOf lib item
  proposal := isProposal lib item
  opened := isOpen item

def pullOf (alias_ : String) (pull : Fields) : PullCard where
  alias_ := alias_
  number := (numberOf pull).getD 0
  readable := !isNull (Json.get pull "mergeable") &&
    (!isReady pull || (sourceMarker (pullSource alias_ ((numberOf pull).getD 0))).toBool)
  ready := isReady pull
  opened := isOpen pull

def pullsOf (remote : GitHub) (alias_ : String) : List PullCard :=
  match lookup g.backend.repositories alias_ with
  | some repo => (remote.pulls repo.slug).map (pullOf alias_)
  | none => []

/-- The ids that are linked to the queue issue. -/
def attachedTo (remote : GitHub) (slug : String) (queue : Int) : List Int :=
  remote.links.filterMap (fun link =>
    if link.1 = slug ∧ link.2.1 = queue then match link.2.2 with
      | .int id => some id
      | _ => none
    else none)

def boardOf (remote : GitHub) (slug : String) (queue : Int) (blocked : List DesiredQueueItem) : Board where
  blocked := blocked.map DesiredQueueItem.sourceKey
  cards := (remote.listedIssues slug).map (cardOf lib)
  pulls := g.aliases.flatMap (g.pullsOf remote)
  attached := attachedTo remote slug queue

/-- What a snapshot reads besides the remote. -/
structure Commissioned (slug : String) (queue : Int) (blocked : List DesiredQueueItem) : Prop where
  queue : g.commissioning = .ok queue
  org : g.orgSlug = .ok slug
  blockers : g.blockers lib = .ok blocked

/-- The repositories are known by one alias each, and their items identified. -/
structure Sound (remote : GitHub) : Prop where
  aliases : (g.backend.repositories.map Prod.fst).Nodup
  identified : ∀ alias_ repo, lookup g.backend.repositories alias_ = some repo → Identified remote repo.slug

variable {g lib} {remote : GitHub} {slug : String} {queue : Int} {blocked : List DesiredQueueItem}

/-! The loops of a snapshot return if each round does. -/

theorem gathered_each {α β : Type} {f : α → Except MonitorError (List β)} {items : List α} {out : List β}
    (ok : gathered f items = .ok out) : ∀ item ∈ items, ∃ made, f item = .ok made := by
  induction items generalizing out with
  | nil => simp
  | cons item rest ih =>
    obtain ⟨first,others,one,later,_⟩ := gathered_cons_ok.mp ok
    exact List.forall_mem_cons.mpr ⟨⟨first,one⟩,ih later⟩

theorem gathered_total {α β : Type} {f : α → Except MonitorError (List β)} {items : List α}
    (each : ∀ item ∈ items, ∃ made, f item = .ok made) : ∃ out, gathered f items = .ok out := by
  induction items with
  | nil => exact ⟨[],rfl⟩
  | cons item rest ih =>
    obtain ⟨⟨first,one⟩,later⟩ := List.forall_mem_cons.mp each
    obtain ⟨others,rest_⟩ := ih later
    exact ⟨first ++ others,gathered_cons_ok.mpr ⟨first,others,one,rest_,rfl⟩⟩

theorem issueNumber_ok {item : Fields} {n : Int} : issueNumber item = .ok n ↔ numberOf item = some n := by
  unfold issueNumber numberOf
  cases Json.get item "number" <;> simp

theorem issueNumber_mapped {item : Fields} {n : Int} :
    (issueNumber item).mapError MonitorError.gitHub = .ok n ↔ numberOf item = some n := by
  rw [← issueNumber_ok]
  cases issueNumber item with
  | error e => simp [Except.mapError]
  | ok m => simp [Except.mapError]

theorem numbersOf_ok {items : List Fields} {out : List Int}
    (ok : gathered (fun child => ((issueNumber child).mapError MonitorError.gitHub).map (fun n => [n])) items = .ok out)
    {n : Int} : n ∈ out ↔ ∃ item ∈ items, numberOf item = some n := by
  rw [mem_gathered ok]
  refine exists_congr (fun item => and_congr_right (fun _ => ?_))
  rw [← issueNumber_mapped]
  cases (issueNumber item).mapError MonitorError.gitHub with
  | error e => simp [Except.map]
  | ok m => simp [Except.map,eq_comm]

theorem numbersOf_total {items : List Fields} (numbered : ∀ item ∈ items, ∃ n, numberOf item = some n) :
    ∃ out, gathered (fun child => ((issueNumber child).mapError MonitorError.gitHub).map (fun n => [n])) items = .ok out := by
  refine gathered_total ?_
  intro item member
  obtain ⟨n,own⟩ := numbered item member
  rw [issueNumber_mapped.mpr own]
  exact ⟨[n],rfl⟩

/-! The items with a marker. -/

theorem managed_total {issues : List Fields}
    (valid : ∀ issue ∈ issues, ∀ s ∈ sourceOf lib issue, (sourceMarker s).toBool = true) :
    ∃ pairs, managed lib issues = .ok pairs := by
  induction issues with
  | nil => exact ⟨[],rfl⟩
  | cons issue rest ih =>
    obtain ⟨here,later⟩ := List.forall_mem_cons.mp valid
    obtain ⟨pairs,ok⟩ := ih later
    unfold managed
    split
    next => exact ⟨pairs,ok⟩
    next source found =>
      have sound := here source found
      cases marker : sourceMarker source with
      | error e =>
        rw [marker] at sound
        cases sound
      | ok text =>
        rw [ok]
        exact ⟨(source,issue)::pairs,rfl⟩

theorem managed_each {issues : List Fields} {pairs : List (String × Fields)} (ok : managed lib issues = .ok pairs) :
    (∀ issue ∈ issues, ∀ s ∈ sourceOf lib issue, (sourceMarker s).toBool = true) ∧
      pairs = issues.filterMap (fun issue => (sourceOf lib issue).map (fun s => (s,issue))) := by
  induction issues generalizing pairs with
  | nil =>
    cases ok
    exact ⟨by simp,rfl⟩
  | cons issue rest ih =>
    unfold managed at ok
    split at ok
    next none_ =>
      obtain ⟨valid,equal⟩ := ih ok
      have unmarked : sourceOf lib issue = none := none_
      refine ⟨List.forall_mem_cons.mpr ⟨by simp [unmarked],valid⟩,?_⟩
      rw [List.filterMap_cons,unmarked]
      exact equal
    next source found =>
      obtain ⟨marker,checked,ok⟩ := bind_ok.mp ok
      obtain ⟨others,later,ok⟩ := bind_ok.mp ok
      cases pure_ok.mp ok
      obtain ⟨valid,equal⟩ := ih later
      have marked : sourceOf lib issue = some source := found
      have sound : (sourceMarker source).toBool = true := by
        cases own : sourceMarker source with
        | error e =>
          rw [own] at checked
          cases checked
        | ok text => rfl
      refine ⟨List.forall_mem_cons.mpr ⟨by simpa [marked] using sound,valid⟩,?_⟩
      rw [List.filterMap_cons,marked]
      exact congrArg (List.cons _) equal

theorem matches_managed {issues : List Fields} {pairs : List (String × Fields)} (ok : managed lib issues = .ok pairs)
    (s : String) : matchesOf pairs s = issues.filter (fun issue => sourceOf lib issue = some s) := by
  rw [(managed_each ok).2]
  unfold matchesOf
  clear ok
  induction issues with
  | nil => rfl
  | cons issue rest ih =>
    rw [List.filterMap_cons,List.filter_cons]
    cases sourceOf lib issue with
    | none => simpa using ih
    | some source =>
      simp only [Option.map_some,List.filter_cons,Option.some.injEq,decide_eq_true_eq]
      split
      next => exact congrArg (List.cons issue) ih
      next => exact ih

theorem mem_sources {issues : List Fields} {pairs : List (String × Fields)} (ok : managed lib issues = .ok pairs)
    {s : String} : s ∈ sortedKeys (pairs.map Prod.fst) ↔ ∃ issue ∈ issues, sourceOf lib issue = some s := by
  unfold sortedKeys
  rw [(List.perm_insertionSort _ _).mem_iff,List.mem_dedup,(managed_each ok).2]
  simp only [List.mem_map,List.mem_filterMap,Option.map_eq_some_iff]
  constructor
  · rintro ⟨pair,⟨issue,listed,source,found,rfl⟩,rfl⟩
    exact ⟨issue,listed,found⟩
  · rintro ⟨issue,listed,found⟩
    exact ⟨(s,issue),⟨issue,listed,s,found,rfl⟩,rfl⟩

/-! The children of the queue issue. -/

theorem mem_attachedTo {id : Int} : id ∈ attachedTo remote slug queue ↔
    ∃ link ∈ remote.links, link.1 = slug ∧ link.2.1 = queue ∧ link.2.2 = .int id := by
  unfold attachedTo
  rw [List.mem_filterMap]
  refine exists_congr (fun link => and_congr_right (fun _ => ?_))
  split
  next here =>
    split
    next m given => simp [here,given]
    next other =>
      refine ⟨fun none_ => (by cases none_),?_⟩
      rintro ⟨_,_,given⟩
      exact absurd given (other id)
  next elsewhere =>
    constructor
    · intro none_
      cases none_
    · rintro ⟨at_,number,_⟩
      exact absurd ⟨at_,number⟩ elsewhere

theorem idOf_some {item : Fields} {id : Int} : idOf item = some id ↔ Json.get item "id" = .int id := by
  unfold idOf
  split
  next m given => simp [given]
  next other =>
    constructor
    · intro none_
      cases none_
    · intro given
      exact absurd given (other id)

theorem mem_children (ids : Identified remote slug) {item : Fields} :
    item ∈ children remote slug queue ↔
      item ∈ remote.listedIssues slug ∧ (cardOf lib item).id ∈ attachedTo remote slug queue := by
  unfold children
  rw [List.mem_filter]
  refine and_congr_right (fun listed => ?_)
  obtain ⟨id,own⟩ := ids.identified item listed
  have card : (cardOf lib item).id = id := by
    unfold cardOf
    rw [own]
    rfl
  have given := idOf_some.mp own
  rw [card,mem_attachedTo,List.any_eq_true]
  refine exists_congr (fun link => and_congr_right (fun _ => ?_))
  rw [given]
  obtain ⟨at_,number,value⟩ := link
  cases value <;> simp [sameInt,and_assoc]

/-! What is wanted. -/

theorem cardOf_number {item : Fields} {n : Int} (own : numberOf item = some n) : (cardOf lib item).number = n := by
  unfold cardOf
  rw [own]
  rfl

theorem digits_plain {n : Int} (positive : 0 < n) : '-' ∉ (toString n).toList ∧ '\n' ∉ (toString n).toList := by
  obtain ⟨m,rfl⟩ := Int.eq_ofNat_of_zero_le (Int.le_of_lt positive)
  have digits : ∀ c ∈ (toString (m : Int)).toList, c.isDigit = true := by
    intro c member
    change c ∈ m.repr.toList at member
    rw [Nat.toList_repr] at member
    exact Nat.isDigit_of_mem_toDigits (by decide) (by decide) member
  exact ⟨fun sign => absurd (digits _ sign) (by decide),fun newline => absurd (digits _ newline) (by decide)⟩

theorem sourceMarker_ok {source : String} (given : source ≠ "") (dashes : ¬ contains source "--")
    (plain : '\n' ∉ source.toList) :
    sourceMarker source = .ok ("<!-- governance-monitor-source:" ++ source ++ " -->") := by
  unfold sourceMarker
  rw [if_neg]
  rintro (empty | twice | newline)
  · exact given empty
  · exact dashes twice
  · exact plain newline

theorem proposalSource_valid {n : Int} (positive : 0 < n) :
    sourceMarker (proposalSource n) = .ok ("<!-- governance-monitor-source:" ++ proposalSource n ++ " -->") := by
  obtain ⟨sign,newline⟩ := digits_plain positive
  have shape : (proposalSource n).toList = "proposal:org#".toList ++ (toString n).toList := String.toList_append
  refine sourceMarker_ok ?_ ?_ ?_
  · intro empty
    rw [empty] at shape
    simp at shape
  · intro twice
    have inside : '-' ∈ (proposalSource n).toList := twice.subset (by decide)
    rw [shape,List.mem_append] at inside
    rcases inside with front | digit
    · exact absurd front (by decide)
    · exact sign digit
  · rw [shape,List.mem_append]
    rintro (front | digit)
    · exact absurd front (by decide)
    · exact newline digit

theorem proposal_ok {item : Fields} {n : Int} (own : numberOf item = some n) (positive : 0 < n) :
    ∃ made, proposal lib item = .ok made ∧ made.map DesiredQueueItem.sourceKey =
      if (cardOf lib item).proposal = true ∧ (cardOf lib item).opened = true then [proposalSource n] else [] := by
  unfold proposal cardOf
  by_cases due : isProposal lib item = true ∧ isOpen item = true
  · rw [if_pos due,if_pos (by simp [due]),issueNumber_mapped.mpr own]
    simp only [bind,Except.bind,proposalSource_valid positive]
    exact ⟨_,rfl,rfl⟩
  · rw [if_neg due,if_neg (by simpa [and_comm] using due)]
    exact ⟨[],rfl,rfl⟩

theorem merge_ok {alias_ : String} {pull : Fields} {n : Int} (own : numberOf pull = some n) :
    ((∃ made, merge lib alias_ pull = .ok made) ↔
        ((pullOf alias_ pull).opened = true → (pullOf alias_ pull).readable = true)) ∧
      ∀ made, merge lib alias_ pull = .ok made → made.map DesiredQueueItem.sourceKey =
        if (pullOf alias_ pull).ready = true ∧ (pullOf alias_ pull).opened = true then [pullSource alias_ n] else [] := by
  unfold merge pullOf
  rw [own]
  simp only [Option.getD_some]
  cases open_ : isOpen pull with
  | false => simp
  | true =>
    simp only [if_true,issueNumber_mapped.mpr own,bind,Except.bind]
    cases known : isNull (Json.get pull "mergeable") with
    | true => simp [require]
    | false =>
      simp only [require,if_true]
      cases ready : isReady pull with
      | false => simp [pure,Except.pure]
      | true =>
        cases marker : sourceMarker (pullSource alias_ n) with
        | error e => simp [Except.toBool]
        | ok text => simp [Except.toBool,pure,Except.pure]

theorem gathered_lists {α : Type} {f : α → Except MonitorError (List DesiredQueueItem)} {named : α → List String}
    {items : List α} (each : ∀ item ∈ items, ∀ made, f item = .ok made →
      made.map DesiredQueueItem.sourceKey = named item) {out : List DesiredQueueItem}
    (ok : gathered f items = .ok out) : out.map DesiredQueueItem.sourceKey = items.flatMap named := by
  induction items generalizing out with
  | nil =>
    cases ok
    rfl
  | cons item rest ih =>
    obtain ⟨first,others,one,later,rfl⟩ := gathered_cons_ok.mp ok
    obtain ⟨here,behind⟩ := List.forall_mem_cons.mp each
    rw [List.map_append,here first one,ih behind later,List.flatMap_cons]

theorem gathered_names {α : Type} {f : α → Except MonitorError (List DesiredQueueItem)} {named : α → Option String}
    {items : List α} (each : ∀ item ∈ items, ∀ made, f item = .ok made →
      made.map DesiredQueueItem.sourceKey = (named item).toList) {out : List DesiredQueueItem}
    (ok : gathered f items = .ok out) : out.map DesiredQueueItem.sourceKey = items.filterMap named := by
  rw [List.filterMap_eq_flatMap_toList]
  exact gathered_lists each ok

theorem mem_aliases {alias_ : String} (listed : alias_ ∈ g.aliases) :
    ∃ repo, lookup g.backend.repositories alias_ = some repo := by
  unfold aliases at listed
  rw [(List.perm_insertionSort _ _).mem_iff] at listed
  obtain ⟨entry,member,rfl⟩ := List.mem_map.mp listed
  unfold lookup
  cases found : g.backend.repositories.find? (fun other => other.1 = entry.1) with
  | none => exact absurd (List.find?_eq_none.mp found entry member) (by simp)
  | some other => exact ⟨other.2,rfl⟩

theorem pull_listed {pull : Fields} (member : pull ∈ remote.pulls slug) :
    GitHub.asIssue pull ∈ remote.listedIssues slug := QueueRun.mem_listed.mpr (.inr ⟨pull,member,rfl⟩)

theorem pull_numbered (ids : Identified remote slug) {pull : Fields} (member : pull ∈ remote.pulls slug) :
    ∃ n, 0 < n ∧ numberOf pull = some n := by
  obtain ⟨n,positive,own⟩ := ids.numbered _ (pull_listed member)
  rw [numberOf_congr (QueueRun.asIssue_get (by decide))] at own
  exact ⟨n,positive,own⟩

theorem mergesOf_ok (sound : g.Sound remote) {alias_ : String} (listed : alias_ ∈ g.aliases) :
    ((∃ made, g.mergesOf lib remote alias_ = .ok made) ↔
        ∀ p ∈ g.pullsOf remote alias_, p.opened = true → p.readable = true) ∧
      ∀ made, g.mergesOf lib remote alias_ = .ok made → made.map DesiredQueueItem.sourceKey =
        (g.pullsOf remote alias_).filterMap (fun p =>
          if p.ready = true ∧ p.opened = true then some (pullSource p.alias_ p.number) else none) := by
  obtain ⟨repo,known⟩ := mem_aliases listed
  have ids := sound.identified alias_ repo known
  have read : (g.backend.repository alias_).mapError MonitorError.gitHub = .ok repo := by
    unfold Backend.repository
    rw [known]
    rfl
  have cards : g.pullsOf remote alias_ = (remote.pulls repo.slug).map (pullOf alias_) := by
    unfold pullsOf
    rw [known]
  unfold mergesOf
  rw [read,cards]
  constructor
  · rw [List.forall_mem_map]
    constructor
    · rintro ⟨made,ok⟩ pull member
      obtain ⟨n,_,own⟩ := pull_numbered ids member
      exact (merge_ok own).1.mp (gathered_each ok pull member)
    · intro readable
      refine gathered_total ?_
      intro pull member
      obtain ⟨n,_,own⟩ := pull_numbered ids member
      exact (merge_ok own).1.mpr (readable pull member)
  · intro made ok
    rw [List.filterMap_map]
    refine gathered_names ?_ ok
    intro pull member first one
    obtain ⟨n,_,own⟩ := pull_numbered ids member
    rw [(merge_ok own).2 first one]
    have number : (pullOf alias_ pull).number = n := by
      unfold pullOf
      rw [own]
      rfl
    simp only [Function.comp_apply,number]
    split <;> rfl

theorem org_known (com : g.Commissioned lib slug queue blocked) :
    ∃ repo, lookup g.backend.repositories "org" = some repo ∧ repo.slug = slug := by
  have org := com.org
  unfold orgSlug Backend.repository at org
  cases found : lookup g.backend.repositories "org" with
  | none =>
    rw [found] at org
    cases org
  | some repo =>
    rw [found] at org
    cases org
    exact ⟨repo,rfl,rfl⟩

/-- The desired items are read where every open pull request is readable, and are those
that the board wants. -/
theorem desired_ok (com : g.Commissioned lib slug queue blocked) (sound : g.Sound remote) :
    ((∃ wanted, g.remoteDesired lib remote slug = .ok wanted) ↔ (g.boardOf lib remote slug queue blocked).Readable) ∧
      ∀ wanted, g.remoteDesired lib remote slug = .ok wanted →
        (blocked ++ wanted).map DesiredQueueItem.sourceKey = (g.boardOf lib remote slug queue blocked).sources := by
  have ids : Identified remote slug := by
    obtain ⟨repo,known,same⟩ := org_known com
    exact same ▸ sound.identified "org" repo known
  have proposals : ∃ items, gathered (proposal lib) (remote.listedIssues slug) = .ok items := by
    refine gathered_total ?_
    intro item member
    obtain ⟨n,positive,own⟩ := ids.numbered item member
    obtain ⟨made,ok,_⟩ := @proposal_ok lib item n own positive
    exact ⟨made,ok⟩
  obtain ⟨items,read⟩ := proposals
  have keys : items.map DesiredQueueItem.sourceKey = (g.boardOf lib remote slug queue blocked).cards.filterMap (fun c =>
      if c.proposal = true ∧ c.opened = true then some (proposalSource c.number) else none) := by
    change _ = ((remote.listedIssues slug).map (cardOf lib)).filterMap _
    rw [List.filterMap_map]
    refine gathered_names ?_ read
    intro item member made ok
    obtain ⟨n,positive,own⟩ := ids.numbered item member
    obtain ⟨made',ok',names⟩ := @proposal_ok lib item n own positive
    rw [ok] at ok'
    cases ok'
    rw [names,Function.comp_apply,cardOf_number own]
    split <;> rfl
  have shape : g.remoteDesired lib remote slug =
      (do let merges ← gathered (g.mergesOf lib remote) g.aliases; return items ++ merges) := by
    unfold remoteDesired
    rw [read]
    rfl
  rw [shape]
  constructor
  · have each : (∃ out, gathered (g.mergesOf lib remote) g.aliases = .ok out) ↔
        (g.boardOf lib remote slug queue blocked).Readable := by
      change _ ↔ ∀ p ∈ g.aliases.flatMap (g.pullsOf remote), p.opened = true → p.readable = true
      simp only [List.mem_flatMap]
      constructor
      · rintro ⟨out,ok⟩ p ⟨alias_,listed,member⟩
        exact (mergesOf_ok sound listed).1.mp (gathered_each ok alias_ listed) p member
      · intro readable
        refine gathered_total ?_
        intro alias_ listed
        exact (mergesOf_ok sound listed).1.mpr (fun p member => readable p ⟨alias_,listed,member⟩)
    rw [← each]
    constructor
    · rintro ⟨wanted,ok⟩
      obtain ⟨merges,ok,_⟩ := bind_ok.mp ok
      exact ⟨merges,ok⟩
    · rintro ⟨merges,ok⟩
      rw [ok]
      exact ⟨items ++ merges,rfl⟩
  · intro wanted ok
    obtain ⟨merges,made,same⟩ := bind_ok.mp ok
    cases pure_ok.mp same
    have lists : merges.map DesiredQueueItem.sourceKey = _ :=
      gathered_lists (fun alias_ listed made one => (mergesOf_ok sound listed).2 made one) made
    rw [List.map_append,List.map_append,keys,lists,← List.filterMap_flatMap]
    rfl

/-! No source is wanted twice. -/

theorem toString_inj {m n : Int} (one : 0 < m) (other : 0 < n) (same : (toString m).toList = (toString n).toList) :
    m = n := by
  obtain ⟨i,rfl⟩ := Int.eq_ofNat_of_zero_le (Int.le_of_lt one)
  obtain ⟨j,rfl⟩ := Int.eq_ofNat_of_zero_le (Int.le_of_lt other)
  have digits : i.repr.toList = j.repr.toList := same
  rw [Nat.toList_repr,Nat.toList_repr] at digits
  have equal := congrArg (fun chars => Nat.ofDigitChars 10 chars 0) digits
  simp only [Nat.ofDigitChars_ten_toDigits] at equal
  rw [equal]

theorem proposalSource_inj {m n : Int} (one : 0 < m) (other : 0 < n) (same : proposalSource m = proposalSource n) :
    m = n := by
  have lists := congrArg String.toList same
  unfold proposalSource at lists
  rw [String.toList_append,String.toList_append] at lists
  exact toString_inj one other (List.append_cancel_left lists)

theorem digits_hash {n : Int} (positive : 0 < n) : '#' ∉ (toString n).toList := by
  obtain ⟨m,rfl⟩ := Int.eq_ofNat_of_zero_le (Int.le_of_lt positive)
  intro hash
  change '#' ∈ m.repr.toList at hash
  rw [Nat.toList_repr] at hash
  exact absurd (Nat.isDigit_of_mem_toDigits (by decide) (by decide) hash) (by decide)

theorem pullSource_inj {alias_ other : String} {m n : Int} (one : 0 < m) (two : 0 < n)
    (same : pullSource alias_ m = pullSource other n) : alias_ = other ∧ m = n := by
  have lists := congrArg (fun source : String => source.toList.reverse) same
  unfold pullSource at lists
  simp only [String.toList_append,List.reverse_append] at lists
  have hash : "#".toList.reverse = ['#'] := rfl
  rw [hash,List.singleton_append,List.singleton_append] at lists
  obtain ⟨digits,rest⟩ := Encoding.cut_unique (by simpa using digits_hash one) (by simpa using digits_hash two) lists
  have numbers := List.reverse_injective digits
  have aliases := List.reverse_injective (List.append_cancel_right rest)
  exact ⟨String.toList_inj.mp aliases,toString_inj one two numbers⟩

end GovernanceMonitor

namespace Board
open GovernanceMonitor
variable {v : Board}

/-- The numbers tell the cards apart, and what is blocked is called so. -/
structure Distinct (v : Board) : Prop where
  cards : (v.cards.map Card.number).Nodup
  ids : (v.cards.map Card.id).Nodup
  pulls : (v.pulls.map (fun p => (p.alias_,p.number))).Nodup
  positive : (∀ c ∈ v.cards, 0 < c.number) ∧ ∀ p ∈ v.pulls, 0 < p.number
  blocked : v.blocked.Nodup ∧ ∀ s ∈ v.blocked, startsWith s "blocker:"

theorem Distinct.card (distinct : v.Distinct) {c d : Card} (one : c ∈ v.cards) (other : d ∈ v.cards)
    (same : c.number = d.number) : c = d := List.inj_on_of_nodup_map distinct.cards one other same

theorem nodup_filterMap {α β γ : Type} {items : List α} {key : α → β} {name : α → γ} (qualifies : α → Prop)
    [DecidablePred qualifies] (apart : (items.map key).Nodup)
    (named : ∀ x ∈ items, ∀ y ∈ items, name x = name y → key x = key y) :
    (items.filterMap (fun x => if qualifies x then some (name x) else none)).Nodup := by
  induction items with
  | nil => exact List.nodup_nil
  | cons x rest ih =>
    rw [List.map_cons,List.nodup_cons] at apart
    have later := ih apart.2 (fun y member z present => named y (List.mem_cons_of_mem _ member) z (List.mem_cons_of_mem _ present))
    rw [List.filterMap_cons]
    split
    next => exact later
    next given due =>
      split at due
      next =>
        cases due
        refine List.nodup_cons.mpr ⟨?_,later⟩
        intro again
        obtain ⟨y,member,made⟩ := List.mem_filterMap.mp again
        split at made
        next =>
          have same := named x List.mem_cons_self y (List.mem_cons_of_mem _ member) (Option.some.inj made).symm
          exact apart.1 (same ▸ List.mem_map_of_mem member)
        next => cases made
      next => cases due

/-! The three kinds of sources start differently. -/

theorem proposalSource_front (n : Int) : (proposalSource n).toList.take 3 = "pro".toList := by
  unfold proposalSource
  rw [String.toList_append,List.take_append_of_le_length (by decide)]
  rfl

theorem pullSource_front (alias_ : String) (n : Int) : (pullSource alias_ n).toList.take 3 = "pr:".toList := by
  unfold pullSource
  rw [String.toList_append,String.toList_append,String.toList_append,List.append_assoc,List.append_assoc,
    List.take_append_of_le_length (by decide)]
  rfl

theorem Distinct.blocked_front (distinct : v.Distinct) {s : String} (member : s ∈ v.blocked) :
    s.toList.take 3 = "blo".toList := by
  obtain ⟨rest,same⟩ := distinct.blocked.2 s member
  rw [← same,List.take_append_of_le_length (by decide)]
  rfl

theorem proposal_not_pull (m : Int) (alias_ : String) (n : Int) : proposalSource m ≠ pullSource alias_ n := by
  intro same
  have fronts := congrArg (fun s : String => s.toList.take 3) same
  rw [proposalSource_front,pullSource_front] at fronts
  exact absurd fronts (by decide)

theorem Distinct.blocked_not_proposal (distinct : v.Distinct) (n : Int) : proposalSource n ∉ v.blocked := by
  intro member
  have fronts := distinct.blocked_front member
  rw [proposalSource_front] at fronts
  exact absurd fronts (by decide)

theorem Distinct.blocked_not_pull (distinct : v.Distinct) (alias_ : String) (n : Int) : pullSource alias_ n ∉ v.blocked := by
  intro member
  have fronts := distinct.blocked_front member
  rw [pullSource_front] at fronts
  exact absurd fronts (by decide)

theorem Distinct.sources (distinct : v.Distinct) : v.sources.Nodup := by
  have proposed {s : String} (member : s ∈ v.cards.filterMap (fun c =>
      if c.proposal = true ∧ c.opened = true then some (proposalSource c.number) else none)) : ∃ n, s = proposalSource n := by
    obtain ⟨c,_,made⟩ := List.mem_filterMap.mp member
    split at made
    next =>
      cases made
      exact ⟨_,rfl⟩
    next => cases made
  have pulled {s : String} (member : s ∈ v.pulls.filterMap (fun p =>
      if p.ready = true ∧ p.opened = true then some (pullSource p.alias_ p.number) else none)) :
      ∃ alias_ n, s = pullSource alias_ n := by
    obtain ⟨p,_,made⟩ := List.mem_filterMap.mp member
    split at made
    next =>
      cases made
      exact ⟨_,_,rfl⟩
    next => cases made
  unfold Board.sources
  rw [List.nodup_append,List.nodup_append]
  refine ⟨distinct.blocked.1,⟨?_,?_,?_⟩,?_⟩
  · exact nodup_filterMap (fun c : Card => c.proposal = true ∧ c.opened = true) distinct.cards
      (fun c one d other same => proposalSource_inj (distinct.positive.1 c one) (distinct.positive.1 d other) same)
  · refine nodup_filterMap (fun p : PullCard => p.ready = true ∧ p.opened = true) distinct.pulls ?_
    intro p one q other same
    obtain ⟨alias_,number⟩ := pullSource_inj (distinct.positive.2 p one) (distinct.positive.2 q other) same
    rw [alias_,number]
  · intro s one t other same
    obtain ⟨n,rfl⟩ := proposed one
    obtain ⟨alias_,m,rfl⟩ := pulled other
    exact proposal_not_pull n alias_ m same
  · rintro s one t other rfl
    rcases List.mem_append.mp other with card | pull
    · obtain ⟨n,rfl⟩ := proposed card
      exact distinct.blocked_not_proposal n one
    · obtain ⟨alias_,m,rfl⟩ := pulled pull
      exact distinct.blocked_not_pull alias_ m one

end Board

end SjgControl

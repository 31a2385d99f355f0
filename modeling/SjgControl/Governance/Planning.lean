import SjgControl.Governance.Blockers
import SjgControl.Governance.Settlement

/-! What a snapshot plans for a board whose sources are each on one card at most. -/
namespace SjgControl
open Relational PythonText Backend

namespace GovernanceMonitor
variable {g : GovernanceMonitor} {lib : MonitorLibrary} {remote : GitHub} {slug : String} {queue : Int}
  {blocked : List DesiredQueueItem}

theorem startsWith_front {text front start : String} (own : startsWith front start) : startsWith (front ++ text) start := by
  unfold startsWith
  rw [String.toList_append]
  exact own.trans (List.prefix_append _ _)

theorem startsWith_take {text start : String} {n : Nat} (own : startsWith text start) (room : start.toList.length ≤ n) :
    startsWith (String.ofList (text.toList.take n)) start := by
  unfold startsWith
  rw [String.toList_ofList]
  exact List.prefix_take_iff.mpr ⟨own,room⟩

/-! Every desired item is labelled. -/

theorem proposal_labelled {issue : Fields} {made : List DesiredQueueItem} (ok : proposal lib issue = .ok made) :
    ∀ item ∈ made, Labelled item := by
  unfold proposal at ok
  split at ok
  next =>
    obtain ⟨number,_,ok⟩ := bind_ok.mp ok
    obtain ⟨marker,valid,ok⟩ := bind_ok.mp ok
    cases pure_ok.mp ok
    rw [List.forall_mem_singleton]
    refine ⟨by rw [valid]; rfl,?_,?_⟩
    · simp only [String.toList_append,List.append_assoc]
      exact sourceIn_marked valid _
    · have front : startsWith "[HUMAN] Decide proposal #" "[HUMAN] " := by decide
      exact startsWith_front (startsWith_front (startsWith_front front))
  next =>
    cases ok
    exact fun item member => absurd member List.not_mem_nil

theorem merge_labelled {alias_ : String} {pull : Fields} {made : List DesiredQueueItem}
    (ok : merge lib alias_ pull = .ok made) : ∀ item ∈ made, Labelled item := by
  have nothing : ∀ item ∈ ([] : List DesiredQueueItem), Labelled item := fun item member => absurd member List.not_mem_nil
  unfold merge at ok
  split at ok
  next =>
    obtain ⟨number,_,ok⟩ := bind_ok.mp ok
    obtain ⟨_,ok⟩ := require_bind_ok.mp ok
    split at ok
    next =>
      obtain ⟨marker,valid,ok⟩ := bind_ok.mp ok
      cases pure_ok.mp ok
      rw [List.forall_mem_singleton]
      refine ⟨by rw [valid]; rfl,?_,?_⟩
      · simp only [String.toList_append,List.append_assoc]
        exact sourceIn_marked valid _
      · have front : startsWith "[HUMAN] Merge " "[HUMAN] " := by decide
        refine startsWith_take ?_ (by decide)
        exact startsWith_front (startsWith_front (startsWith_front (startsWith_front (startsWith_front front))))
    next =>
      cases pure_ok.mp ok
      exact nothing
  next =>
    cases ok
    exact nothing

theorem gathered_labelled {α : Type} {f : α → Except MonitorError (List DesiredQueueItem)} {items : List α}
    {out : List DesiredQueueItem} (ok : gathered f items = .ok out)
    (each : ∀ item made, f item = .ok made → ∀ wanted ∈ made, Labelled wanted) : ∀ wanted ∈ out, Labelled wanted := by
  intro wanted member
  obtain ⟨item,_,made,yields,inside⟩ := (mem_gathered ok).mp member
  exact each item made yields wanted inside

theorem remoteDesired_labelled {wanted : List DesiredQueueItem} (ok : g.remoteDesired lib remote slug = .ok wanted) :
    ∀ item ∈ wanted, Labelled item := by
  unfold remoteDesired at ok
  obtain ⟨proposals,read,ok⟩ := bind_ok.mp ok
  obtain ⟨merges,opened,ok⟩ := bind_ok.mp ok
  cases pure_ok.mp ok
  intro item member
  rcases List.mem_append.mp member with proposed | merged
  · exact gathered_labelled read (fun issue made one => proposal_labelled one) item proposed
  · refine gathered_labelled opened ?_ item merged
    intro alias_ made one
    unfold mergesOf at one
    obtain ⟨repo,_,one⟩ := bind_ok.mp one
    exact gathered_labelled one (fun pull made each => merge_labelled each)

/-! The reads of a snapshot. -/

/-- The reads behind a snapshot, each with its result. -/
structure Reads (g : GovernanceMonitor) (lib : MonitorLibrary) (remote : GitHub) (slug : String) (queue : Int)
    (desired : List DesiredQueueItem) (seen : Snapshot) (childNumbers : List Int) (pairs : List (String × Fields))
    (creates closes : List QueueAction) : Prop where
  apart : (desired.map DesiredQueueItem.sourceKey).Nodup
  children : gathered (fun child => ((issueNumber child).mapError .gitHub).map (fun n => [n])) (children remote slug queue) =
    .ok childNumbers
  managed : managed lib (remote.listedIssues slug) = .ok pairs
  creating : gathered (createAction lib pairs childNumbers)
    (desired.insertionSort (fun a b => a.sourceKey ≤ b.sourceKey)) = .ok creates
  closing : gathered (closeAction lib (desired.map DesiredQueueItem.sourceKey) pairs childNumbers)
    (sortedKeys (pairs.map Prod.fst)) = .ok closes
  actions : seen.actions = creates ++ closes
  conflicts : seen.conflicts = (sortedKeys (pairs.map Prod.fst)).filter (fun source => (matchesOf pairs source).length ≠ 1)

theorem snapshot_reads (com : g.Commissioned lib slug queue blocked) {seen : Snapshot}
    (ok : g.snapshot lib remote = .ok seen) :
    (∃ issue, issueAt remote slug queue = .ok issue ∧ numberOf issue = some seen.queueIssue) ∧
      ∃ wanted childNumbers pairs creates closes, g.remoteDesired lib remote slug = .ok wanted ∧
        Reads g lib remote slug queue (blocked ++ wanted) seen childNumbers pairs creates closes := by
  unfold snapshot at ok
  simp only [com.queue,com.org,com.blockers,ok_bind] at ok
  obtain ⟨issue,found,ok⟩ := bind_ok.mp ok
  obtain ⟨wanted,desired,ok⟩ := bind_ok.mp ok
  obtain ⟨apart,ok⟩ := require_bind_ok.mp ok
  obtain ⟨childNumbers,attached,ok⟩ := bind_ok.mp ok
  obtain ⟨pairs,marked,ok⟩ := bind_ok.mp ok
  obtain ⟨creates,creating,ok⟩ := bind_ok.mp ok
  obtain ⟨closes,closing,ok⟩ := bind_ok.mp ok
  obtain ⟨number,numbered,ok⟩ := bind_ok.mp ok
  obtain ⟨unmanaged,_,ok⟩ := bind_ok.mp ok
  cases pure_ok.mp ok
  refine ⟨⟨issue,?_,issueNumber_mapped.mp numbered⟩,wanted,childNumbers,pairs,creates,closes,desired,
    ⟨apart,attached,marked,creating,closing,rfl,rfl⟩⟩
  cases own : issueAt remote slug queue with
  | error e =>
    rw [own] at found
    cases found
  | ok other =>
    rw [own] at found
    cases found
    rfl

/-! What comes of one source. -/

def Single (lib : MonitorLibrary) (remote : GitHub) (slug : String) : Prop :=
  ∀ issue ∈ remote.listedIssues slug, ∀ other ∈ remote.listedIssues slug, ∀ s,
    sourceOf lib issue = some s → sourceOf lib other = some s → issue = other

inductive Creates (lib : MonitorLibrary) (remote : GitHub) (slug : String) (queue : Int) (item : DesiredQueueItem) :
    QueueAction → Prop
  | absent (none_ : ∀ issue ∈ remote.listedIssues slug, sourceOf lib issue ≠ some item.sourceKey) :
    Creates lib remote slug queue item (.create item.sourceKey item.title item.body none "absent")
  | present (issue : Fields) (n : Int) (listed : issue ∈ remote.listedIssues slug)
    (source : sourceOf lib issue = some item.sourceKey) (number : numberOf issue = some n)
    (down : ¬ ((cardOf lib issue).opened = true ∧ (cardOf lib issue).id ∈ attachedTo remote slug queue)) :
    Creates lib remote slug queue item (.create item.sourceKey item.title item.body (some n) (versionOf lib issue))

inductive Closes (lib : MonitorLibrary) (remote : GitHub) (slug : String) (queue : Int) (keys : List String)
    (s : String) : QueueAction → Prop
  | close (issue : Fields) (n : Int) (listed : issue ∈ remote.listedIssues slug) (source : sourceOf lib issue = some s)
    (number : numberOf issue = some n) (unwanted : s ∉ keys) (opened : (cardOf lib issue).opened = true)
    (attached : (cardOf lib issue).id ∈ attachedTo remote slug queue) :
    Closes lib remote slug queue keys s (.close s n (versionOf lib issue))

theorem plan_observed (s : String) (present qualifies : Bool) :
    plan (observed s present qualifies) = [] ↔ present = qualifies := by
  cases present <;> cases qualifies <;> simp [plan,observed,certain]

theorem childNumber_eq {issue : Fields} {n : Int} (own : numberOf issue = some n) (childNumbers : List Int) :
    childNumber childNumbers issue = .ok (isOpen issue && decide (n ∈ childNumbers)) := by
  unfold childNumber
  rw [issueNumber_mapped.mpr own]
  cases isOpen issue with
  | false => rfl
  | true => rfl

theorem eq_singleton {α : Type} {items : List α} {a : α} (apart : items.Nodup) (member : a ∈ items)
    (all : ∀ b ∈ items, b = a) : items = [a] := by
  cases items with
  | nil => cases member
  | cons b rest =>
    obtain ⟨same,others⟩ := List.forall_mem_cons.mp all
    cases rest with
    | nil => rw [same]
    | cons c more =>
      have again := others c List.mem_cons_self
      exact absurd (List.mem_cons_self) (same ▸ again ▸ (List.nodup_cons.mp apart).1)

section Source
variable {pairs : List (String × Fields)} {childNumbers : List Int} (ids : Identified remote slug)
  (marked : managed lib (remote.listedIssues slug) = .ok pairs)

include ids marked in
theorem matches_one (single : Single lib remote slug) {issue : Fields} (listed : issue ∈ remote.listedIssues slug)
    {s : String} (source : sourceOf lib issue = some s) : matchesOf pairs s = [issue] := by
  rw [matches_managed marked]
  refine eq_singleton ((List.Nodup.of_map _ ids.numbers).filter _) (List.mem_filter.mpr ⟨listed,by simp [source]⟩) ?_
  intro other member
  obtain ⟨present,named⟩ := List.mem_filter.mp member
  exact single other present issue listed s (of_decide_eq_true named) source

include marked in
theorem matches_none {s : String} (none_ : ∀ issue ∈ remote.listedIssues slug, sourceOf lib issue ≠ some s) :
    matchesOf pairs s = [] := by
  rw [matches_managed marked,List.filter_eq_nil_iff]
  intro issue listed
  simpa using none_ issue listed

include ids in
theorem child_iff (attached : gathered (fun child => ((issueNumber child).mapError .gitHub).map (fun n => [n]))
      (children remote slug queue) = .ok childNumbers) {issue : Fields} (listed : issue ∈ remote.listedIssues slug)
    {n : Int} (own : numberOf issue = some n) :
    n ∈ childNumbers ↔ (cardOf lib issue).id ∈ attachedTo remote slug queue := by
  rw [numbersOf_ok attached]
  constructor
  · rintro ⟨child,member,same⟩
    obtain ⟨present,linked⟩ := (mem_children ids).mp member
    rw [ids.same_number listed present (own.trans same.symm)]
    exact linked
  · intro linked
    exact ⟨issue,(mem_children ids).mpr ⟨listed,linked⟩,own⟩

variable (single : Single lib remote slug)
  (attached : gathered (fun child => ((issueNumber child).mapError .gitHub).map (fun n => [n]))
    (children remote slug queue) = .ok childNumbers)
include ids marked single attached

theorem createAction_spec (item : DesiredQueueItem) :
    ∃ made, createAction lib pairs childNumbers item = .ok made ∧
      ∀ a, a ∈ made ↔ Creates lib remote slug queue item a := by
  by_cases some_ : ∃ issue ∈ remote.listedIssues slug, sourceOf lib issue = some item.sourceKey
  · obtain ⟨issue,listed,source⟩ := some_
    obtain ⟨n,_,number⟩ := ids.numbered issue listed
    have only : ∀ other ∈ remote.listedIssues slug, sourceOf lib other = some item.sourceKey → other = issue :=
      fun other present named => single other present issue listed item.sourceKey named source
    have up : (isOpen issue && decide (n ∈ childNumbers)) = true ↔
        (cardOf lib issue).opened = true ∧ (cardOf lib issue).id ∈ attachedTo remote slug queue := by
      rw [Bool.and_eq_true,decide_eq_true_eq,@child_iff lib remote slug queue childNumbers ids attached issue listed n number]
      rfl
    unfold createAction
    rw [matches_one ids marked single listed source]
    simp only [childNumber_eq number,ok_bind,plan_observed,issueNumber_mapped.mpr number]
    split
    next standing =>
      refine ⟨[],rfl,fun a => iff_of_false List.not_mem_nil ?_⟩
      intro creates
      cases creates with
      | absent none_ => exact none_ issue listed source
      | present other m present named own down =>
        rw [only other present named] at down
        exact down (up.mp standing)
    next down =>
      refine ⟨_,rfl,fun a => ?_⟩
      rw [List.mem_singleton]
      constructor
      · rintro rfl
        exact .present issue n listed source number (fun standing => down (up.mpr standing))
      · intro creates
        cases creates with
        | absent none_ => exact absurd source (none_ issue listed)
        | present other m present named own _ =>
          rw [only other present named] at own ⊢
          rw [number] at own
          cases own
          rfl
  · have none_ : ∀ issue ∈ remote.listedIssues slug, sourceOf lib issue ≠ some item.sourceKey :=
      fun issue listed source => some_ ⟨issue,listed,source⟩
    unfold createAction
    rw [matches_none marked none_]
    simp only [plan_observed]
    refine ⟨_,rfl,fun a => ?_⟩
    rw [List.mem_singleton]
    constructor
    · rintro rfl
      exact .absent none_
    · intro creates
      cases creates with
      | absent _ => rfl
      | present issue m listed source _ _ => exact absurd source (none_ issue listed)

theorem closeAction_spec (keys : List String) (s : String) :
    ∃ made, closeAction lib keys pairs childNumbers s = .ok made ∧
      ∀ a, a ∈ made ↔ Closes lib remote slug queue keys s a := by
  have nothing (none_ : ∀ a, ¬ Closes lib remote slug queue keys s a) :
      ∀ a, a ∈ ([] : List QueueAction) ↔ Closes lib remote slug queue keys s a :=
    fun a => iff_of_false List.not_mem_nil (none_ a)
  unfold closeAction
  split
  next wanted =>
    refine ⟨[],rfl,nothing ?_⟩
    intro a closes
    cases closes with
    | close _ _ _ _ _ unwanted _ _ => exact unwanted wanted
  next unwanted =>
    by_cases some_ : ∃ issue ∈ remote.listedIssues slug, sourceOf lib issue = some s
    · obtain ⟨issue,listed,source⟩ := some_
      obtain ⟨n,_,number⟩ := ids.numbered issue listed
      have only : ∀ other ∈ remote.listedIssues slug, sourceOf lib other = some s → other = issue :=
        fun other present named => single other present issue listed s named source
      rw [matches_one ids marked single listed source]
      simp only [childNumber_eq number,ok_bind,plan_observed,issueNumber_mapped.mpr number,Bool.and_eq_true,
        decide_eq_true_eq,@child_iff lib remote slug queue childNumbers ids attached issue listed n number]
      split
      next up =>
        refine ⟨_,rfl,fun a => ?_⟩
        rw [List.mem_singleton]
        constructor
        · rintro rfl
          exact .close issue n listed source number unwanted up.1 up.2
        · intro closes
          cases closes with
          | close other m present named own _ _ _ =>
            rw [only other present named] at own ⊢
            rw [number] at own
            cases own
            rfl
      next down =>
        refine ⟨[],rfl,nothing ?_⟩
        intro a closes
        cases closes with
        | close other m present named own _ opened linked =>
          rw [only other present named] at opened linked
          exact down ⟨opened,linked⟩
    · rw [matches_none marked (fun issue listed source => some_ ⟨issue,listed,source⟩)]
      refine ⟨[],rfl,nothing ?_⟩
      intro a closes
      cases closes with
      | close other m present named _ _ _ _ => exact some_ ⟨other,present,named⟩

end Source

theorem Creates.sourceKey {item : DesiredQueueItem} {a : QueueAction} (creates : Creates lib remote slug queue item a) :
    a.sourceKey = item.sourceKey := by
  cases creates <;> rfl

theorem Closes.sourceKey {keys : List String} {s : String} {a : QueueAction}
    (closes : Closes lib remote slug queue keys s a) : a.sourceKey = s := by
  cases closes
  rfl

theorem closeAction_made {keys : List String} {pairs : List (String × Fields)} {childNumbers : List Int} {source : String}
    {made : List QueueAction} (ok : closeAction lib keys pairs childNumbers source = .ok made) {a : QueueAction}
    (member : a ∈ made) : a.sourceKey = source ∧ source ∉ keys := by
  have shape := closeAction_ok ok
  unfold closeAction at ok
  split at ok
  next =>
    cases ok
    cases member
  next unwanted =>
    rcases shape with rfl | ⟨number,version,rfl⟩
    · cases member
    · cases List.mem_singleton.mp member
      exact ⟨rfl,unwanted⟩

/-! All the actions of a snapshot. -/

namespace Reads
variable {desired : List DesiredQueueItem} {seen : Snapshot} {childNumbers : List Int} {pairs : List (String × Fields)}
  {creates closes : List QueueAction}
  (reads : Reads g lib remote slug queue desired seen childNumbers pairs creates closes)
  (ids : Identified remote slug) (single : Single lib remote slug)

include reads ids single in
theorem mem_actions {a : QueueAction} : a ∈ seen.actions ↔
    (∃ item ∈ desired, Creates lib remote slug queue item a) ∨
      ∃ s, Closes lib remote slug queue (desired.map DesiredQueueItem.sourceKey) s a := by
  rw [reads.actions,List.mem_append,mem_gathered reads.creating,mem_gathered reads.closing]
  refine or_congr ?_ ?_
  · refine exists_congr (fun item => and_congr (List.perm_insertionSort _ _).mem_iff ?_)
    obtain ⟨made,ok,each⟩ := createAction_spec ids reads.managed single reads.children item
    rw [ok]
    constructor
    · rintro ⟨other,same,member⟩
      cases same
      exact (each a).mp member
    · intro created
      exact ⟨made,rfl,(each a).mpr created⟩
  · refine exists_congr (fun s => ?_)
    obtain ⟨made,ok,each⟩ :=
      closeAction_spec ids reads.managed single reads.children (desired.map DesiredQueueItem.sourceKey) s
    rw [ok,mem_sources reads.managed]
    constructor
    · rintro ⟨_,other,same,member⟩
      cases same
      exact (each a).mp member
    · intro closed
      refine ⟨?_,made,rfl,(each a).mpr closed⟩
      cases closed with
      | close issue n listed source _ _ _ _ => exact ⟨issue,listed,source⟩

include reads in
theorem actions_apart : (seen.actions.map QueueAction.sourceKey).Nodup := by
  have named : (creates.map QueueAction.sourceKey).Sublist
      ((desired.insertionSort (fun a b => a.sourceKey ≤ b.sourceKey)).map DesiredQueueItem.sourceKey) := by
    refine gathered_sublist ?_ reads.creating
    intro item yield ok
    rcases createAction_ok ok with rfl | ⟨existing,version,rfl⟩
    · exact List.nil_sublist _
    · exact List.Sublist.refl _
  have ended : (closes.map QueueAction.sourceKey).Sublist ((sortedKeys (pairs.map Prod.fst)).map id) := by
    refine gathered_sublist ?_ reads.closing
    intro source yield ok
    rcases closeAction_ok ok with rfl | ⟨number,version,rfl⟩
    · exact List.nil_sublist _
    · exact List.Sublist.refl _
  have sorted : ((desired.insertionSort (fun a b => a.sourceKey ≤ b.sourceKey)).map DesiredQueueItem.sourceKey).Perm
      (desired.map DesiredQueueItem.sourceKey) := (List.perm_insertionSort _ desired).map _
  have sources : (sortedKeys (pairs.map Prod.fst)).Nodup :=
    (List.perm_insertionSort _ _).nodup_iff.mpr (List.nodup_dedup _)
  rw [reads.actions,List.map_append]
  refine List.nodup_append.mpr ⟨(sorted.nodup_iff.mpr reads.apart).sublist named,?_,?_⟩
  · rw [List.map_id] at ended
    exact sources.sublist ended
  · intro s created other closed same
    obtain ⟨a,member,rfl⟩ := List.mem_map.mp closed
    obtain ⟨source,_,made,yields,inside⟩ := (mem_gathered reads.closing).mp member
    have wanted : s ∈ desired.map DesiredQueueItem.sourceKey := sorted.mem_iff.mp (named.subset created)
    obtain ⟨own,unwanted⟩ := closeAction_made yields inside
    exact unwanted (own ▸ same ▸ wanted)

include reads ids single in
theorem conflicts_nil : seen.conflicts = [] := by
  rw [reads.conflicts,List.filter_eq_nil_iff]
  intro source listed
  obtain ⟨issue,present,named⟩ := (mem_sources reads.managed).mp listed
  rw [matches_one ids reads.managed single present named]
  simp

end Reads

theorem single_board (ids : Identified remote slug) :
    (g.boardOf lib remote slug queue blocked).Single ↔ Single lib remote slug := by
  unfold Board.Single boardOf
  simp only [List.forall_mem_map]
  constructor
  · intro single issue listed other present s source named
    have same := single issue listed other present s source named
    obtain ⟨n,_,own⟩ := ids.numbered issue listed
    obtain ⟨m,_,number⟩ := ids.numbered other present
    have numbers := congrArg Card.number same
    rw [cardOf_number own,cardOf_number number] at numbers
    exact ids.same_number listed present (by rw [own,number,numbers])
  · intro single issue listed other present s source named
    rw [single issue listed other present s source named]

theorem up_iff {s : String} : (g.boardOf lib remote slug queue blocked).Up s ↔
    ∃ issue ∈ remote.listedIssues slug, sourceOf lib issue = some s ∧ (cardOf lib issue).opened = true ∧
      (cardOf lib issue).id ∈ attachedTo remote slug queue := by
  unfold Board.Up boardOf
  simp only [List.mem_map,exists_exists_and_eq_and]
  rfl

section Plan
variable (com : g.Commissioned lib slug queue blocked) (sound : g.Sound remote) (ids : Identified remote slug)
  (single : Single lib remote slug) {seen : Snapshot} (ok : g.snapshot lib remote = .ok seen)
include com sound ids single ok

theorem snapshot_planned : (g.boardOf lib remote slug queue blocked).Planned seen.actions := by
  obtain ⟨_,wanted,childNumbers,pairs,creates,closes,desired,reads⟩ := snapshot_reads com ok
  have keys := (desired_ok com sound).2 wanted desired
  have named {s : String} : s ∈ (blocked ++ wanted).map DesiredQueueItem.sourceKey ↔
      (g.boardOf lib remote slug queue blocked).Wanted s := by
    rw [keys]
    exact Board.mem_sources _
  have card {issue : Fields} (listed : issue ∈ remote.listedIssues slug) :
      cardOf lib issue ∈ (g.boardOf lib remote slug queue blocked).cards := List.mem_map_of_mem listed
  refine ⟨?_,?_,reads.actions_apart⟩
  · intro a member
    rcases (reads.mem_actions ids single).mp member with ⟨item,due,created⟩ | ⟨s,closed⟩
    · have asked := named.mp (List.mem_map_of_mem due)
      cases created with
      | absent none_ =>
        refine .post asked ?_
        change ∀ c ∈ (remote.listedIssues slug).map (cardOf lib), c.source ≠ some item.sourceKey
        rw [List.forall_mem_map]
        exact none_
      | present issue n listed source number down =>
        rw [← @cardOf_number lib issue n number]
        exact .raise (cardOf lib issue) asked (card listed) source down
    · cases closed with
      | close issue n listed source number unwanted opened attached =>
        rw [← @cardOf_number lib issue n number]
        exact .close (cardOf lib issue) (fun asked => unwanted (named.mpr asked)) (card listed) source opened attached
  · intro s differs
    by_cases asked : (g.boardOf lib remote slug queue blocked).Wanted s
    · have down : ¬ (g.boardOf lib remote slug queue blocked).Up s := fun up => differs (iff_of_true asked up)
      obtain ⟨item,member,rfl⟩ := List.mem_map.mp (named.mpr asked)
      by_cases some_ : ∃ issue ∈ remote.listedIssues slug, sourceOf lib issue = some item.sourceKey
      · obtain ⟨issue,listed,source⟩ := some_
        obtain ⟨n,_,number⟩ := ids.numbered issue listed
        refine ⟨_,(reads.mem_actions ids single).mpr (.inl ⟨item,member,.present issue n listed source number ?_⟩),rfl⟩
        exact fun standing => down (up_iff.mpr ⟨issue,listed,source,standing⟩)
      · refine ⟨_,(reads.mem_actions ids single).mpr (.inl ⟨item,member,.absent ?_⟩),rfl⟩
        exact fun issue listed source => some_ ⟨issue,listed,source⟩
    · have up : (g.boardOf lib remote slug queue blocked).Up s := by
        by_contra down
        exact differs (iff_of_false asked down)
      obtain ⟨issue,listed,source,opened,attached⟩ := up_iff.mp up
      obtain ⟨n,_,number⟩ := ids.numbered issue listed
      exact ⟨_,(reads.mem_actions ids single).mpr
        (.inr ⟨s,.close issue n listed source number (fun inside => asked (named.mp inside)) opened attached⟩),rfl⟩

/-- A snapshot of a settled board plans nothing, and only such a one. -/
theorem actions_nil_iff : seen.actions = [] ↔ (g.boardOf lib remote slug queue blocked).Settled := by
  have planned := snapshot_planned com sound ids single ok
  rw [List.eq_nil_iff_forall_not_mem]
  constructor
  · intro none_ s
    by_contra differs
    obtain ⟨a,member,_⟩ := planned.complete s differs
    exact none_ a member
  · intro settled a member
    have differs := (planned.due a member).differs ((single_board ids).mpr single)
    rw [settled] at differs
    exact iff_not_self differs

omit sound in
theorem actions_labelled {a : QueueAction} (member : a ∈ seen.actions) (create : a.operation = "create") :
    Labelled ⟨a.sourceKey,a.title,a.body⟩ := by
  obtain ⟨_,wanted,childNumbers,pairs,creates,closes,desired,reads⟩ := snapshot_reads com ok
  rcases (reads.mem_actions ids single).mp member with ⟨item,due,created⟩ | ⟨s,closed⟩
  · have labelled : Labelled item := by
      rcases List.mem_append.mp due with before | behind
      · exact ((blockers_items com.blockers).2 item before).1
      · exact remoteDesired_labelled desired item behind
    cases created with
    | absent => exact labelled
    | present => exact labelled
  · cases closed
    exact absurd create (by simp [QueueAction.operation])

end Plan

/-! When a snapshot can be taken. -/

theorem numbered_eq (items : List Fields) (n : Int) :
    GitHub.numbered items n = items.find? (fun item => decide (numberOf item = some n)) := by
  unfold GitHub.numbered
  congr 1
  funext item
  unfold numberOf
  cases Json.get item "number" <;> simp

theorem numbered_iff (ids : Identified remote slug) {n : Int} {issue : Fields} :
    GitHub.numbered (remote.listedIssues slug) n = some issue ↔ issue ∈ remote.listedIssues slug ∧ numberOf issue = some n := by
  rw [numbered_eq]
  constructor
  · intro found
    exact ⟨List.mem_of_find?_eq_some found,by simpa using List.find?_some found⟩
  · rintro ⟨listed,own⟩
    have some_ : ((remote.listedIssues slug).find? (fun item => decide (numberOf item = some n))).isSome = true :=
      List.find?_isSome.mpr ⟨issue,listed,by simpa using own⟩
    obtain ⟨other,found⟩ := Option.isSome_iff_exists.mp some_
    have number : numberOf other = some n := by simpa using List.find?_some found
    rw [found,ids.same_number (List.mem_of_find?_eq_some found) listed (number.trans own.symm)]

theorem issueAt_iff (ids : Identified remote slug) {issue : Fields} :
    issueAt remote slug queue = .ok issue ↔
      issue ∈ remote.listedIssues slug ∧ numberOf issue = some queue ∧ isPull issue = false := by
  unfold issueAt isPull
  rw [require_bind_ok,fetch_bind_ok]
  constructor
  · rintro ⟨_,other,found,ok⟩
    obtain ⟨plain,ok⟩ := require_bind_ok.mp ok
    cases pure_ok.mp ok
    obtain ⟨listed,own⟩ := (numbered_iff ids).mp found
    exact ⟨listed,own,Bool.eq_false_iff.mpr plain⟩
  · rintro ⟨listed,own,plain⟩
    obtain ⟨n,positive,number⟩ := ids.numbered issue listed
    rw [own] at number
    cases number
    exact ⟨positive,issue,(numbered_iff ids).mpr ⟨listed,own⟩,require_bind_ok.mpr ⟨Bool.eq_false_iff.mp plain,rfl⟩⟩

theorem marked_iff : (g.boardOf lib remote slug queue blocked).Marked ↔
    ∀ issue ∈ remote.listedIssues slug, ∀ s ∈ sourceOf lib issue, (sourceMarker s).toBool = true := by
  unfold Board.Marked boardOf
  simp only [List.forall_mem_map]
  rfl

theorem queued_iff (ids : Identified remote slug) : (g.boardOf lib remote slug queue blocked).Queued queue ↔
    ∃ issue, issueAt remote slug queue = .ok issue := by
  unfold Board.Queued boardOf
  simp only [List.mem_map,exists_exists_and_eq_and,issueAt_iff ids]
  refine exists_congr (fun issue => and_congr_right (fun listed => and_congr_left (fun _ => ?_)))
  obtain ⟨n,_,own⟩ := ids.numbered issue listed
  rw [cardOf_number own,own,Option.some.injEq]

theorem snapshot_ok_iff (com : g.Commissioned lib slug queue blocked) (sound : g.Sound remote)
    (ids : Identified remote slug) (single : Single lib remote slug)
    (apart : (g.boardOf lib remote slug queue blocked).sources.Nodup) :
    (∃ seen, g.snapshot lib remote = .ok seen) ↔ (g.boardOf lib remote slug queue blocked).Readable ∧
      (g.boardOf lib remote slug queue blocked).Marked ∧ (g.boardOf lib remote slug queue blocked).Queued queue := by
  rw [queued_iff ids,marked_iff]
  constructor
  · rintro ⟨seen,ok⟩
    obtain ⟨⟨issue,found,_⟩,wanted,childNumbers,pairs,creates,closes,desired,reads⟩ := snapshot_reads com ok
    exact ⟨(desired_ok com sound).1.mp ⟨wanted,desired⟩,(managed_each reads.managed).1,issue,found⟩
  · rintro ⟨readable,marked,issue,found⟩
    obtain ⟨wanted,desired⟩ := (desired_ok com sound).1.mpr readable
    obtain ⟨pairs,managed_⟩ := managed_total marked
    have numbered : ∀ item ∈ children remote slug queue, ∃ n, numberOf item = some n := by
      intro item member
      obtain ⟨n,_,own⟩ := ids.numbered item ((@mem_children lib remote slug queue ids item).mp member).1
      exact ⟨n,own⟩
    obtain ⟨childNumbers,attached⟩ := numbersOf_total numbered
    have keys := (desired_ok com sound).2 wanted desired
    obtain ⟨creates,created⟩ : ∃ creates, gathered (createAction lib pairs childNumbers)
        ((blocked ++ wanted).insertionSort (fun a b => a.sourceKey ≤ b.sourceKey)) = .ok creates := by
      refine gathered_total (fun item _ => ?_)
      obtain ⟨made,ok,_⟩ := createAction_spec ids managed_ single attached item
      exact ⟨made,ok⟩
    obtain ⟨closes,closed⟩ : ∃ closes, gathered (closeAction lib ((blocked ++ wanted).map DesiredQueueItem.sourceKey) pairs
        childNumbers) (sortedKeys (pairs.map Prod.fst)) = .ok closes := by
      refine gathered_total (fun source _ => ?_)
      obtain ⟨made,ok,_⟩ := closeAction_spec ids managed_ single attached
        ((blocked ++ wanted).map DesiredQueueItem.sourceKey) source
      exact ⟨made,ok⟩
    obtain ⟨unmanaged,others⟩ := numbersOf_total (fun item member => numbered item
      (List.mem_of_mem_filter (p := fun child => (sourceIn (bodyOf lib.toTextLibrary child).toList).isNone) member))
    obtain ⟨listed,own,_⟩ := (issueAt_iff ids).mp found
    have found' : (issueAt remote slug queue).mapError MonitorError.gitHub = .ok issue := by
      rw [found]
      rfl
    simp only [snapshot,bind_ok,pure_ok]
    exact ⟨_,queue,com.queue,slug,com.org,issue,found',blocked,com.blockers,wanted,desired,(),require_ok.mpr (keys ▸ apart),
      childNumbers,attached,pairs,managed_,creates,created,closes,closed,queue,issueNumber_mapped.mpr own,unmanaged,others,rfl⟩

end GovernanceMonitor
end SjgControl

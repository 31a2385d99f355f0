import SjgControl.Governance.Reconciled
import SjgControl.Verifier

/-! `verify_reconcile`: what the verifier makes of a write of the monitor that broke off. -/
namespace SjgControl
open Relational Machine PythonText Backend Board Verification

namespace Backend
variable (b : Backend) (lib : TextLibrary) (remote : GitHub)

/-- `_stage`: where the item was put last, if there is a project. -/
def stage (slug : String) (number : Int) : Option String :=
  match b.stages with
  | none => none
  | some _ => (remote.moves.filter (fun move => move.1 = slug ∧ move.2.1 = number)).getLast?.map (fun move => move.2.2)

/-- `stage == desired`. -/
def isStage (stage : Option String) (desired : Json) : Bool :=
  match stage with
  | some name => isText desired name
  | none => GovernanceMonitor.isNull desired

def mentions (marker : String) (item : Fields) : Bool := contains (bodyOf lib item) marker

/-- `any(int(value.get("number") or 0) == number for value in children)`. -/
def anyNumbered (number : Int) : List Fields → Except BackendError Bool
  | [] => .ok false
  | child::rest => do
    let own ← Backend.number lib child ["number"]
    if own = number then return true else anyNumbered number rest

def notFound : BackendError := .gitHub "gh: Not Found (HTTP 404)"

def verifyCreation (slug marker : String) (precondition : Fields) : Except BackendError Verification := do
  let matches_ := (remote.listedIssues slug).filter (mentions lib marker)
  let unique := proved matches_ id
  let queue ← number lib precondition ["queue_issue"]
  match matches_ with
  | [item] =>
    if queue ≤ 0 then return unique
    else do
      let _ ← fetch (GitHub.numbered (remote.listedIssues slug) queue) notFound
      let own ← number lib item ["number"]
      let attached ← anyNumbered lib own (GovernanceMonitor.children remote slug queue)
      if attached then return ⟨.present,some [("number",.int own),("queue_issue",.int queue)],none⟩
      else return ⟨.absent,none,none⟩
  | _ => return unique

def verifyIssue (slug marker operation : String) (precondition : Fields) : Except BackendError Verification := do
  let number ← number lib precondition ["issue"]
  if number ≤ 0 then return ⟨.conflict,none,some "reconciliation issue is absent"⟩
  else do
    let issue ← fetch (GitHub.numbered (remote.listedIssues slug) number) notFound
    if ¬ mentions lib marker issue then return ⟨.conflict,none,some "managed source marker is absent"⟩
    else if operation = "close" then
      if isText (Json.get issue "state") "closed" then
        return ⟨.present,some [("number",.int number),("state",Json.get issue "state")],none⟩
      else return ⟨.absent,none,none⟩
    else if operation = "move" then
      let desired := Json.get precondition "to"
      if isStage (b.stage remote slug number) desired then
        return ⟨.present,some [("number",.int number),("stage",desired)],none⟩
      else return ⟨.absent,none,none⟩
    else return ⟨.unknown,none,some "unsupported reconciliation operation"⟩

def verifyReconcile (operation sourceKey : String) (precondition : Fields) : Except MonitorError Verification :=
  match lookup b.repositories (textArgument lib precondition "repository") with
  | none => .ok ⟨.conflict,none,some "reconciliation repository is absent"⟩
  | some repo => do
    let marker ← sourceMarker sourceKey
    let verdict :=
      if operation = "create" then verifyCreation lib remote repo.slug marker precondition
      else verifyIssue b lib remote repo.slug marker operation precondition
    match verdict with
    | .ok v => return v
    | .error e => return undecided e

end Backend

namespace GovernanceMonitor
variable (g : GovernanceMonitor) (lib : MonitorLibrary) (slug : String) (queue : Int) (a : QueueAction)

/-- The calls of an action, one reply after the other, up to its end. -/
def course : List Reply → ApplyPoint → GitHub → Option (GitHub × ReconcileState × Json)
  | [],_,_ => none
  | reply::rest,point,remote =>
    match g.advance lib remote slug queue a reply point with
    | .next later point => course rest point later
    | .ended final state result => some (final,state,result)

end GovernanceMonitor

/-- What an action is for holds of the board. -/
def QueueAction.Done (a : QueueAction) (w : Board) : Prop :=
  match a with
  | .create source _ _ _ _ => w.Up source
  | .close _ n _ => ∀ c ∈ w.cards, c.number = n → c.opened = false

def Board.Queues (w : Board) (s : String) : Prop := ∃ c ∈ w.cards, c.source = some s ∧ c.id ∈ w.attached

/-- The second call, which opens an item again, is made and carried out. -/
def Reopened (replies : List Reply) : Prop :=
  ∃ first second rest, replies = first::second::rest ∧ first.answered = true ∧ second.carriedOut = true

def QueueAction.Unopened (a : QueueAction) (v : Board) (replies : List Reply) : Prop :=
  (∃ c ∈ v.cards, a.operation = "create" ∧ a.target = some c.number ∧ c.opened = false ∧ c.id ∈ v.attached) ∧
    ¬ Reopened replies

/-! What the verifier reads. -/

theorem markedSource_eq {line source : List Char} (marked : markedSource line = some source) :
    line = "<!-- governance-monitor-source:".toList ++ source ++ " -->".toList := by
  unfold markedSource at marked
  split at marked
  next shape =>
    obtain ⟨⟨rest,rfl⟩,tail,long⟩ := shape
    have start : "<!-- governance-monitor-source:".toList.length = 31 := by decide
    have ending : " -->".toList.length = 4 := by decide
    rw [List.length_append,start] at long
    have behind : " -->".toList <:+ rest :=
      List.suffix_of_suffix_length_le tail (List.suffix_append _ _) (by omega)
    obtain ⟨inner,rfl⟩ := behind
    cases marked
    rw [List.drop_left' start,List.length_append,List.length_append,start,ending,List.take_left' (by omega),List.append_assoc]
  next => cases marked

theorem contains_of_sourceIn {body source marker : String} (valid : sourceMarker source = .ok marker)
    (named : sourceIn body.toList = some source) : contains body marker := by
  obtain ⟨_,_,_,rfl⟩ := sourceMarker_eq_ok.mp valid
  unfold sourceIn at named
  obtain ⟨chars,found,rfl⟩ := Option.map_eq_some_iff.mp named
  obtain ⟨line,member,marked⟩ := List.exists_of_findSome?_eq_some found
  have shape := markedSource_eq marked
  have inside : line <:+: body.toList := by
    obtain ⟨first,others,split_,start,rest⟩ := lines_starts body.toList
    rw [split_] at member
    rcases List.mem_cons.mp member with rfl | later
    · exact start.isInfix
    · obtain ⟨before,behind,whole,front⟩ := rest line later
      rw [whole]
      exact front.isInfix.trans ((List.suffix_cons _ _).trans (List.suffix_append _ _)).isInfix
  have whole : ("<!-- governance-monitor-source:" ++ String.ofList chars ++ " -->").toList =
      "<!-- governance-monitor-source:".toList ++ chars ++ " -->".toList := by simp
  unfold contains
  rw [whole,← shape]
  exact inside

namespace GovernanceMonitor
variable {g : GovernanceMonitor} {lib : MonitorLibrary} {remote : GitHub} {slug : String} {queue : Int}
  {blocked : List DesiredQueueItem} {s marker : String} {precondition : Fields}

/-- No item quotes the marker of a source that is not its own. -/
def Unquoted (lib : MonitorLibrary) (remote : GitHub) (slug s : String) : Prop :=
  ∀ item ∈ remote.listedIssues slug, ∀ marker, sourceMarker s = .ok marker → mentions lib.toTextLibrary marker item = true →
    sourceOf lib item = some s

theorem mentions_iff (valid : sourceMarker s = .ok marker) (unquoted : Unquoted lib remote slug s) {item : Fields}
    (listed : item ∈ remote.listedIssues slug) : mentions lib.toTextLibrary marker item = true ↔ sourceOf lib item = some s :=
  ⟨unquoted item listed marker valid,fun named => decide_eq_true (contains_of_sourceIn valid named)⟩

theorem number_int {fields : Fields} {name : String} {n : Int} (int : ∀ n, lib.int (.int n) = .ok n)
    (own : Json.get fields name = .int n) : number lib.toTextLibrary fields [name] = .ok n := by
  unfold number
  rw [List.map_singleton,own]
  by_cases zero : n = 0
  · subst zero
    exact congrArg _ (int 0)
  · have given : Json.truthy (.int n) = true := by simpa [Json.truthy] using zero
    rw [List.find?_cons_of_pos given]
    exact congrArg _ (int n)

theorem anyNumbered_ok (int : ∀ n, lib.int (.int n) = .ok n) (n : Int) {items : List Fields}
    (numbered : ∀ item ∈ items, ∃ m, numberOf item = some m) :
    anyNumbered lib.toTextLibrary n items = .ok (decide (∃ item ∈ items, numberOf item = some n)) := by
  induction items with
  | nil => simp [anyNumbered]
  | cons item rest ih =>
    obtain ⟨m,own⟩ := numbered item List.mem_cons_self
    have later := ih (fun x member => numbered x (List.mem_cons_of_mem _ member))
    rw [anyNumbered,number_int int (get_of_numberOf own),ok_bind]
    by_cases same : m = n
    · rw [if_pos same]
      simp [own,same]
    · rw [if_neg same,later]
      simp [own,same]

theorem verifyCreation_ok (int : ∀ n, lib.int (.int n) = .ok n) (ids : Identified remote slug)
    (valid : sourceMarker s = .ok marker) (unquoted : Unquoted lib remote slug s) (single : Single lib remote slug)
    (positive : 0 < queue) (queued : ∃ item ∈ remote.listedIssues slug, numberOf item = some queue)
    (given : Json.get precondition "queue_issue" = .int queue) :
    ∃ v, verifyCreation lib.toTextLibrary remote slug marker precondition = .ok v ∧
      (v.proof = .present ∨ v.proof = .absent) ∧
      (v.proof = .present ↔ (g.boardOf lib remote slug queue blocked).Queues s) := by
  have cards (item : Fields) (listed : item ∈ remote.listedIssues slug) (named : sourceOf lib item = some s) :
      (g.boardOf lib remote slug queue blocked).Queues s ↔ (cardOf lib item).id ∈ attachedTo remote slug queue := by
    constructor
    · rintro ⟨c,member,source,attached⟩
      obtain ⟨other,present,rfl⟩ := List.mem_map.mp member
      rw [single item listed other present s named source]
      exact attached
    · intro attached
      exact ⟨_,List.mem_map_of_mem listed,named,attached⟩
  unfold verifyCreation
  rw [number_int int given]
  simp only [ok_bind]
  split
  next item only =>
    have inside : item ∈ (remote.listedIssues slug).filter (mentions lib.toTextLibrary marker) := by
      rw [only]
      exact List.mem_singleton_self _
    obtain ⟨listed,found⟩ := List.mem_filter.mp inside
    have named := (mentions_iff valid unquoted listed).mp found
    obtain ⟨n,_,own⟩ := ids.numbered item listed
    obtain ⟨queueItem,there,number⟩ := queued
    rw [if_neg (by omega),(numbered_iff ids).mpr ⟨there,number⟩,number_int int (get_of_numberOf own)]
    simp only [fetch,ok_bind]
    have children_ : ∀ child ∈ children remote slug queue, ∃ m, numberOf child = some m := by
      intro child member
      obtain ⟨m,_,own⟩ := ids.numbered child (List.mem_filter.mp member).1
      exact ⟨m,own⟩
    rw [anyNumbered_ok int n children_,ok_bind]
    have attached : (∃ child ∈ children remote slug queue, numberOf child = some n) ↔
        (cardOf lib item).id ∈ attachedTo remote slug queue := by
      constructor
      · rintro ⟨child,member,same⟩
        rw [ids.same_number listed (List.mem_filter.mp member).1 (own.trans same.symm)]
        exact ((mem_children ids).mp member).2
      · intro attached
        exact ⟨item,(mem_children ids).mpr ⟨listed,attached⟩,own⟩
    rw [cards item listed named,← attached]
    split
    next yes => exact ⟨_,rfl,.inl rfl,fun _ => of_decide_eq_true yes,fun _ => rfl⟩
    next no => exact ⟨_,rfl,.inr rfl,fun present => absurd present (by simp),fun yes => absurd (decide_eq_true yes) no⟩
  next other =>
    have none_ : (remote.listedIssues slug).filter (mentions lib.toTextLibrary marker) = [] := by
      cases shape : (remote.listedIssues slug).filter (mentions lib.toTextLibrary marker) with
      | nil => rfl
      | cons item rest =>
        cases rest with
        | nil => exact absurd shape (other item)
        | cons more rest =>
          have distinct : ((remote.listedIssues slug).filter (mentions lib.toTextLibrary marker)).Nodup :=
            (ids.numbers.of_map _).filter _
          have each : ∀ x ∈ (remote.listedIssues slug).filter (mentions lib.toTextLibrary marker),
              x ∈ remote.listedIssues slug ∧ sourceOf lib x = some s := by
            intro x member
            obtain ⟨listed,found⟩ := List.mem_filter.mp member
            exact ⟨listed,(mentions_iff valid unquoted listed).mp found⟩
          rw [shape] at distinct each
          obtain ⟨one,first⟩ := each item List.mem_cons_self
          obtain ⟨two,second⟩ := each more (List.mem_cons_of_mem _ List.mem_cons_self)
          have same := single item one more two s first second
          exact absurd (same ▸ List.mem_cons_self) (List.nodup_cons.mp distinct).1
    rw [none_]
    refine ⟨⟨.absent,none,none⟩,rfl,.inr rfl,fun present => absurd present (by simp),?_⟩
    rintro ⟨c,member,source,_⟩
    obtain ⟨item,listed,rfl⟩ := List.mem_map.mp member
    have inside := List.mem_filter.mpr ⟨listed,(mentions_iff valid unquoted listed).mpr source⟩
    rw [none_] at inside
    cases inside

theorem verifyIssue_closing (b : Backend) (int : ∀ n, lib.int (.int n) = .ok n) (ids : Identified remote slug)
    (valid : sourceMarker s = .ok marker) {issue : Fields} {n : Int} (listed : issue ∈ remote.listedIssues slug)
    (own : numberOf issue = some n) (named : sourceOf lib issue = some s) (given : Json.get precondition "issue" = .int n) :
    ∃ v, verifyIssue b lib.toTextLibrary remote slug marker "close" precondition = .ok v ∧
      (v.proof = .present ∨ v.proof = .absent) ∧ (v.proof = .present ↔ isText (Json.get issue "state") "closed" = true) := by
  have found : mentions lib.toTextLibrary marker issue = true := decide_eq_true (contains_of_sourceIn valid named)
  obtain ⟨m,positive,number⟩ := ids.numbered issue listed
  rw [own] at number
  cases number
  unfold verifyIssue
  rw [number_int int given]
  simp only [ok_bind]
  rw [if_neg (by omega),(numbered_iff ids).mpr ⟨listed,own⟩]
  simp only [fetch,ok_bind,found,not_true_eq_false,if_false,if_true]
  split
  next closed => exact ⟨_,rfl,.inl rfl,fun _ => closed,fun _ => rfl⟩
  next open_ => exact ⟨_,rfl,.inr rfl,fun present => absurd present (by simp),fun closed => absurd closed open_⟩

/-! Where the calls of an action may break off. -/

section Course
variable {a : QueueAction} {replies : List Reply} {final : GitHub} {result : Json} {id n : Int} {issue : Fields}

theorem course_cases {point : ApplyPoint} (broken : course g lib slug queue a replies point remote = some (final,.verifyPending,result)) :
    ∃ reply rest, replies = reply::rest ∧
      (g.advance lib remote slug queue a reply point = .ended final .verifyPending result ∨
        ∃ next later, g.advance lib remote slug queue a reply point = .next next later ∧
          course g lib slug queue a rest later next = some (final,.verifyPending,result)) := by
  cases replies with
  | nil => cases broken
  | cons reply rest =>
    refine ⟨reply,rest,rfl,?_⟩
    unfold course at broken
    split at broken
    next next later step => exact .inr ⟨next,later,step,broken⟩
    next ended step =>
      cases broken
      exact .inl step

theorem course_link {number : Json}
    (broken : course g lib slug queue a replies (.link id number) remote = some (final,.verifyPending,result)) :
    final = remote ∨ final = linked remote slug queue id := by
  obtain ⟨reply,rest,_,step⟩ := course_cases broken
  cases carriedOut : reply.carriedOut with
  | false =>
    simp only [advance,carriedOut,unanswered] at step
    rcases step with ended | ⟨_,_,next,_⟩
    · cases ended
      exact .inl rfl
    · cases next
  | true =>
    refine .inr ?_
    cases answered : reply.answered with
    | false =>
      simp only [advance,carriedOut,answered,unanswered] at step
      rcases step with ended | ⟨_,_,next,_⟩
      · cases ended
        rfl
      · cases next
    | true =>
      obtain ⟨result,linking⟩ := @advance_link g lib remote slug queue a reply carriedOut answered id number
      rw [linking] at step
      rcases step with ended | ⟨_,_,next,_⟩
      · cases ended
      · cases next

theorem course_reopen (found : GitHub.numbered (remote.listedIssues slug) n = some issue) (own : idOf issue = some id)
    (broken : course g lib slug queue a replies (.reopen n) remote = some (final,.verifyPending,result)) :
    ∃ reply rest, replies = reply::rest ∧ (reply.carriedOut = false ∧ final = remote ∨ reply.carriedOut = true ∧
      (final = patched remote slug n (reopening reply) ∨
        final = linked (patched remote slug n (reopening reply)) slug queue id)) := by
  obtain ⟨reply,rest,shape,step⟩ := course_cases broken
  refine ⟨reply,rest,shape,?_⟩
  cases carriedOut : reply.carriedOut with
  | false =>
    simp only [advance,found,carriedOut,unanswered] at step
    rcases step with ended | ⟨_,_,next,_⟩
    · cases ended
      exact .inl ⟨rfl,rfl⟩
    · cases next
  | true =>
    refine .inr ⟨rfl,?_⟩
    cases answered : reply.answered with
    | false =>
      simp only [advance,found,carriedOut,answered,unanswered] at step
      rcases step with ended | ⟨_,_,next,_⟩
      · cases ended
        exact .inl rfl
      · cases next
    | true =>
      obtain ⟨number,reopened⟩ := @advance_reopen g lib remote slug queue a reply carriedOut answered issue n found id own
      rw [reopened] at step
      rcases step with ended | ⟨_,_,next,rest⟩
      · cases ended
      · cases next
        exact course_link rest

theorem course_fetch (found : GitHub.numbered (remote.listedIssues slug) n = some issue) (own : idOf issue = some id)
    (marked : sourceIn (bodyOf lib.toTextLibrary issue).toList ≠ none)
    (broken : course g lib slug queue a replies (.fetch n) remote = some (final,.verifyPending,result)) :
    ∃ reply rest, replies = reply::rest ∧ (reply.answered = false ∧ final = remote ∨ reply.answered = true ∧
      (isOpen issue = true ∧ (final = remote ∨ final = linked remote slug queue id) ∨ isOpen issue = false ∧
        course g lib slug queue a rest (.reopen n) remote = some (final,.verifyPending,result))) := by
  obtain ⟨reply,rest,shape,step⟩ := course_cases broken
  refine ⟨reply,rest,shape,?_⟩
  cases answered : reply.answered with
  | false =>
    simp only [advance,found,answered,unanswered] at step
    rcases step with ended | ⟨_,_,next,_⟩
    · cases ended
      exact .inl ⟨rfl,rfl⟩
    · cases next
  | true =>
    refine .inr ⟨rfl,?_⟩
    cases state : isOpen issue with
    | true =>
      obtain ⟨number,fetched⟩ := @advance_fetch_open g lib remote slug queue a reply answered issue n found marked state id own
      rw [fetched] at step
      rcases step with ended | ⟨_,_,next,rest⟩
      · cases ended
      · cases next
        exact .inl ⟨rfl,course_link rest⟩
    | false =>
      rw [advance_fetch_closed answered found marked state] at step
      rcases step with ended | ⟨_,_,next,rest⟩
      · cases ended
      · cases next
        exact .inr ⟨rfl,rest⟩

theorem course_open (broken : course g lib slug queue a replies .open_ remote = some (final,.verifyPending,result)) :
    ∃ reply ∈ replies, final = remote ∨ final = remote.addIssue slug (g.queueItem a reply) ∨
      final = linked (remote.addIssue slug (g.queueItem a reply)) slug queue reply.assigned.id := by
  obtain ⟨reply,rest,rfl,step⟩ := course_cases broken
  refine ⟨reply,List.mem_cons_self,?_⟩
  cases carriedOut : reply.carriedOut with
  | false =>
    simp only [advance,carriedOut,unanswered] at step
    rcases step with ended | ⟨_,_,next,_⟩
    · cases ended
      exact .inl rfl
    · cases next
  | true =>
    refine .inr ?_
    cases answered : reply.answered with
    | false =>
      simp only [advance,carriedOut,answered,unanswered] at step
      rcases step with ended | ⟨_,_,next,_⟩
      · cases ended
        exact .inl rfl
      · cases next
    | true =>
      rw [advance_open carriedOut answered] at step
      rcases step with ended | ⟨_,_,next,rest⟩
      · cases ended
      · cases next
        exact course_link rest

theorem course_close (found : GitHub.numbered (remote.listedIssues slug) n = some issue)
    (broken : course g lib slug queue a replies (.close n) remote = some (final,.verifyPending,result)) :
    final = remote ∨ ∃ reply, final = patched remote slug n (closing reply) := by
  obtain ⟨reply,rest,_,step⟩ := course_cases broken
  cases carriedOut : reply.carriedOut with
  | false =>
    simp only [advance,found,carriedOut,unanswered] at step
    rcases step with ended | ⟨_,_,next,_⟩
    · cases ended
      exact .inl rfl
    · cases next
  | true =>
    refine .inr ⟨reply,?_⟩
    cases answered : reply.answered with
    | false =>
      simp only [advance,found,carriedOut,answered,unanswered] at step
      rcases step with ended | ⟨_,_,next,_⟩
      · cases ended
        rfl
      · cases next
    | true =>
      obtain ⟨result,closed⟩ := @advance_close g lib remote slug queue a reply carriedOut answered issue n found
      rw [closed] at step
      rcases step with ended | ⟨_,_,next,_⟩
      · cases ended
      · cases next

end Course

/-! What holds of the repositories wherever the calls break off. -/

/-- What GitHub assigns is not in use. -/
structure Fresh (remote : GitHub) (slug : String) (queue : Int) (assigned : Assigned) : Prop where
  positive : 0 < assigned.number
  number : ∀ item ∈ remote.listedIssues slug, numberOf item ≠ some assigned.number
  id : ∀ item ∈ remote.listedIssues slug, idOf item ≠ some assigned.id
  unlinked : assigned.id ∉ attachedTo remote slug queue

structure Verifiable (g : GovernanceMonitor) (lib : MonitorLibrary) (slug : String) (queue : Int) (s : String)
    (remote : GitHub) : Prop where
  sound : g.Sound remote
  unquoted : Unquoted lib remote slug s
  single : Single lib remote slug
  queued : ∃ item ∈ remote.listedIssues slug, numberOf item = some queue

section Boards
variable {n id : Int} {a : QueueAction}

theorem Verifiable.patched (com : g.Commissioned lib slug queue blocked) (can : Verifiable g lib slug queue s remote)
    {changes : Fields} {b : Bool} (restating : Restating changes b) (n : Int) :
    Verifiable g lib slug queue s (patched remote slug n changes) := by
  have kept (item : Fields) {name : String} (free : ¬ Json.has changes name) :
      Json.get (GitHub.edited n changes item) name = Json.get item name := edited_get free n item
  have both (item : Fields) {name : String} (free : ¬ Json.has changes name) (other : name ≠ "pull_request") :
      Json.get (GitHub.asIssue (GitHub.edited n changes item)) name = Json.get (GitHub.asIssue item) name := by
    rw [QueueRun.asIssue_get other,QueueRun.asIssue_get other,kept item free]
  have bodies : ((GovernanceMonitor.patched remote slug n changes).listedIssues slug).map (bodyOf lib.toTextLibrary) =
      (remote.listedIssues slug).map (bodyOf lib.toTextLibrary) := by
    have free := restating.others "body" (by decide)
    refine patched_map _ (fun item => ?_) (fun item => ?_) remote slug slug
    · unfold bodyOf textArgument
      rw [kept item free]
    · unfold bodyOf textArgument
      rw [both item free (by decide)]
  have numbers : ((GovernanceMonitor.patched remote slug n changes).listedIssues slug).map numberOf =
      (remote.listedIssues slug).map numberOf := by
    have free := restating.others "number" (by decide)
    exact patched_map _ (fun item => numberOf_congr (kept item free)) (fun item => numberOf_congr (both item free (by decide)))
      remote slug slug
  have after : g.Sound (GovernanceMonitor.patched remote slug n changes) := can.sound.patched restating slug
  refine ⟨after,?_,?_,?_⟩
  · intro item listed marker valid found
    have body : bodyOf lib.toTextLibrary item ∈ (remote.listedIssues slug).map (bodyOf lib.toTextLibrary) :=
      bodies ▸ List.mem_map_of_mem listed
    obtain ⟨old,present,same⟩ := List.mem_map.mp body
    unfold mentions at found
    rw [← same] at found
    have named := can.unquoted old present marker valid found
    unfold sourceOf at named ⊢
    rwa [← same]
  · have moved := @board_patched g lib remote slug queue blocked (identified_at com can.sound) changes b restating n
    exact (single_board (identified_at com after)).mp (moved.single ((single_board (identified_at com can.sound)).mpr can.single))
  · obtain ⟨item,listed,own⟩ := can.queued
    have number : some queue ∈ ((GovernanceMonitor.patched remote slug n changes).listedIssues slug).map numberOf := by
      rw [numbers,← own]
      exact List.mem_map_of_mem listed
    exact List.mem_map.mp number

theorem patched_state {changes : Fields} {b : Bool} (restating : Restating changes b) {item : Fields}
    (listed : item ∈ (GovernanceMonitor.patched remote slug n changes).listedIssues slug) (own : numberOf item = some n) :
    Json.get item "state" = .str (if b then "open" else "closed") := by
  have stated {old : Fields} (number : numberOf old = some n) :
      Json.get (GitHub.edited n changes old) "state" = .str (if b then "open" else "closed") := by
    unfold GitHub.edited
    rw [get_of_numberOf number]
    simp only [if_true]
    rw [Json.get_append,if_pos restating.given,restating.state]
  have free := restating.others "number" (by decide)
  rw [patched_listed,if_pos rfl] at listed
  rcases List.mem_append.mp listed with issue | pull
  · obtain ⟨old,_,rfl⟩ := List.mem_map.mp issue
    exact stated ((numberOf_congr (edited_get free n old)).symm.trans own)
  · obtain ⟨old,_,rfl⟩ := List.mem_map.mp pull
    rw [QueueRun.asIssue_get (by decide)]
    rw [numberOf_congr (QueueRun.asIssue_get (by decide))] at own
    exact stated ((numberOf_congr (edited_get free n old)).symm.trans own)

theorem Verifiable.linked (can : Verifiable g lib slug queue s remote) (id : Int) :
    Verifiable g lib slug queue s (linked remote slug queue id) :=
  ⟨can.sound.linked slug queue id,can.unquoted,can.single,can.queued⟩

theorem Verifiable.posted (can : Verifiable g lib slug queue s remote) {item : Fields} (own : numberOf item = some n)
    (positive : 0 < n) (ident : idOf item = some id) (number : ∀ other ∈ remote.listedIssues slug, numberOf other ≠ some n)
    (fresh : ∀ other ∈ remote.listedIssues slug, idOf other ≠ some id) (source : sourceOf lib item = some s)
    (alone : ∀ other ∈ remote.listedIssues slug, sourceOf lib other ≠ some s) :
    Verifiable g lib slug queue s (remote.addIssue slug item) := by
  have perm := posted_perm remote slug item slug
  rw [if_pos rfl] at perm
  have listed {other : Fields} : other ∈ (remote.addIssue slug item).listedIssues slug ↔
      other = item ∨ other ∈ remote.listedIssues slug := perm.mem_iff.trans List.mem_cons
  refine ⟨can.sound.posted own positive ident number fresh,?_,?_,?_⟩
  · intro other member marker valid found
    rcases listed.mp member with rfl | old
    · exact source
    · exact can.unquoted other old marker valid found
  · intro one first two second t named same
    rcases listed.mp first with rfl | old
    · rcases listed.mp second with rfl | before
      · rfl
      · rw [source] at named
        cases named
        exact absurd same (alone two before)
    · rcases listed.mp second with rfl | before
      · rw [source] at same
        cases same
        exact absurd named (alone one old)
      · exact can.single one old two before t named same
  · obtain ⟨other,old,own⟩ := can.queued
    exact ⟨other,listed.mpr (.inr old),own⟩

end Boards

end GovernanceMonitor

namespace Board
variable {home : String → Bool} {v w : Board} {c : Card} {s : String} {b : Bool} {links : List Int}

theorem queues_iff (single : v.Single) (member : c ∈ v.cards) (source : c.source = some s) :
    (v.Queues s ↔ c.id ∈ v.attached) ∧ (v.Up s ↔ c.opened = true ∧ c.id ∈ v.attached) := by
  constructor
  · constructor
    · rintro ⟨d,listed,named,attached⟩
      rw [single c member d listed s source named]
      exact attached
    · intro attached
      exact ⟨c,member,source,attached⟩
  · constructor
    · rintro ⟨d,listed,named,opened,attached⟩
      rw [single c member d listed s source named]
      exact ⟨opened,attached⟩
    · rintro ⟨opened,attached⟩
      exact ⟨c,member,source,opened,attached⟩

theorem Moved.queues_iff (moved : Moved home c.number b links v w) (single : v.Single) (member : c ∈ v.cards)
    (source : c.source = some s) :
    (w.Queues s ↔ c.id ∈ v.attached ∨ c.id ∈ links) ∧ (w.Up s ↔ b = true ∧ (c.id ∈ v.attached ∨ c.id ∈ links)) := by
  have listed : setCard c.number b c ∈ w.cards := by
    rw [moved.cards]
    exact List.mem_map_of_mem member
  rw [setCard,if_pos rfl] at listed
  have both := Board.queues_iff (moved.single single) listed source
  rwa [moved.attached] at both

end Board

namespace GovernanceMonitor
variable {g : GovernanceMonitor} {lib : MonitorLibrary} {remote final : GitHub} {slug : String} {queue : Int}
  {blocked : List DesiredQueueItem} {s marker : String} {a : QueueAction} {replies : List Reply} {result : Json}

theorem reconcile_eq (com : g.Commissioned lib slug queue blocked) (valid : sourceMarker a.sourceKey = .ok marker) :
    ∃ fields, a.precondition g.principalGithub queue = .obj fields ∧ Json.get fields "queue_issue" = .int queue ∧
      (a.operation = "close" → ∀ n, a.target = some n → Json.get fields "issue" = .int n) ∧
      g.backend.verifyReconcile lib.toTextLibrary remote a.operation a.sourceKey fields =
        match (if a.operation = "create" then verifyCreation lib.toTextLibrary remote slug marker fields
          else verifyIssue g.backend lib.toTextLibrary remote slug marker a.operation fields) with
        | .ok v => .ok v
        | .error e => .ok (undecided e) := by
  obtain ⟨repo,known,rfl⟩ := org_known com
  have named {fields : Fields} (own : Json.get fields "repository" = .str "org") :
      textArgument lib.toTextLibrary fields "repository" = "org" := by
    unfold textArgument
    rw [own]
    exact Json.textOr_str _ _
  cases a with
  | create source title body existing version =>
    refine ⟨_,rfl,rfl,fun close => absurd close (by simp [QueueAction.operation]),?_⟩
    unfold verifyReconcile
    rw [named rfl,known,valid]
    rfl
  | close source n version =>
    refine ⟨_,rfl,rfl,fun _ m target => ?_,?_⟩
    · cases target
      rfl
    · unfold verifyReconcile
      rw [named rfl,known,valid]
      rfl

/-- What became of an item that was to be opened: whether it is in the queue, and whether it is up. -/
theorem raise_broken (com : g.Commissioned lib slug queue blocked) (can : Verifiable g lib slug queue a.sourceKey remote)
    (distinct : (g.boardOf lib remote slug queue blocked).Distinct) {c : Card}
    (known : c ∈ (g.boardOf lib remote slug queue blocked).cards) (source : c.source = some a.sourceKey)
    (create : a.operation = "create") (target : a.target = some c.number)
    (down : ¬ (c.opened = true ∧ c.id ∈ (g.boardOf lib remote slug queue blocked).attached))
    (broken : course g lib slug queue a replies (.fetch c.number) remote = some (final,.verifyPending,result)) :
    Verifiable g lib slug queue a.sourceKey final ∧
      ((g.boardOf lib final slug queue blocked).Queues a.sourceKey ∧ ¬ (g.boardOf lib final slug queue blocked).Up a.sourceKey ↔
        a.Unopened (g.boardOf lib remote slug queue blocked) replies) := by
  have ids := identified_at com can.sound
  obtain ⟨v,shown⟩ : ∃ v, v = g.boardOf lib remote slug queue blocked := ⟨_,rfl⟩
  have single : v.Single := shown ▸ (single_board ids).mpr can.single
  rw [← shown] at distinct known down ⊢
  obtain ⟨issue,listed,rfl⟩ : ∃ issue ∈ remote.listedIssues slug, cardOf lib issue = c := by
    rw [shown] at known
    exact List.mem_map.mp known
  obtain ⟨n,_,own⟩ := ids.numbered issue listed
  obtain ⟨id,ident⟩ := ids.identified issue listed
  have number := @cardOf_number lib issue n own
  have name : (cardOf lib issue).id = id := by
    unfold cardOf
    rw [ident]
    rfl
  have found : GitHub.numbered (remote.listedIssues slug) (cardOf lib issue).number = some issue :=
    (numbered_iff ids).mpr ⟨listed,number ▸ own⟩
  have marked : sourceIn (bodyOf lib.toTextLibrary issue).toList ≠ none := by
    change sourceOf lib issue ≠ none
    rw [show sourceOf lib issue = some a.sourceKey from source]
    simp
  -- the card is the only one that the action is about
  have unopened : a.Unopened v replies ↔ ((cardOf lib issue).opened = false ∧ (cardOf lib issue).id ∈ v.attached) ∧
      ¬ Reopened replies := by
    refine and_congr_left (fun _ => ⟨?_,?_⟩)
    · rintro ⟨d,member,_,same,closed,attached⟩
      rw [target] at same
      rw [distinct.card known member (Option.some.inj same)]
      exact ⟨closed,attached⟩
    · rintro ⟨closed,attached⟩
      exact ⟨_,known,create,target,closed,attached⟩
  obtain ⟨here,up⟩ := Board.queues_iff single known source
  -- behind a call that opens the item it is up just if it is in the queue
  have opened {w : Board} {links : List Int} (moved : Moved (g.homeOf slug) (cardOf lib issue).number true links v w)
      (carried : Reopened replies) :
      w.Queues a.sourceKey ∧ ¬ w.Up a.sourceKey ↔ a.Unopened v replies := by
    obtain ⟨queues,ups⟩ := moved.queues_iff single known source
    rw [unopened,queues,ups]
    exact ⟨fun stuck => absurd ⟨rfl,stuck.1⟩ stuck.2,fun other => absurd carried other.2⟩
  obtain ⟨first,rest,rfl,⟨lost,rfl⟩ | ⟨answered,⟨state,rfl | rfl⟩ | ⟨state,later⟩⟩⟩ := course_fetch found ident marked broken
  · refine ⟨can,?_⟩
    rw [← shown,here,up,unopened]
    have unanswered_ : ¬ Reopened (first::rest) := by
      rintro ⟨_,_,_,same,yes,_⟩
      cases same
      rw [lost] at yes
      cases yes
    cases (cardOf lib issue).opened with
    | true => simp
    | false => simp [unanswered_]
  · refine ⟨can,?_⟩
    rw [← shown,here,up,unopened]
    have opened_ : (cardOf lib issue).opened = true := state
    simp [opened_]
  · refine ⟨can.linked id,?_⟩
    have moved := board_linked id (@board_open g lib remote slug queue blocked ids issue listed _ (number ▸ own) state)
    rw [← shown] at moved
    obtain ⟨queues,ups⟩ := moved.queues_iff single known source
    rw [queues,ups,unopened]
    have opened_ : (cardOf lib issue).opened = true := state
    exact ⟨fun stuck => absurd ⟨rfl,stuck.1⟩ stuck.2,fun other => absurd (opened_.symm.trans other.1.1) (by simp)⟩
  · obtain ⟨second,more,rfl,⟨lost,rfl⟩ | ⟨carried,rfl | rfl⟩⟩ := course_reopen found ident later
    · refine ⟨can,?_⟩
      rw [← shown,here,up,unopened]
      have lost_ : ¬ Reopened (first::second::more) := by
        rintro ⟨_,_,_,same,_,yes⟩
        cases same
        rw [lost] at yes
        cases yes
      have closed_ : (cardOf lib issue).opened = false := state
      simp [closed_,lost_]
    · have moved := @board_patched g lib remote slug queue blocked ids _ _ (reopening_restates second) (cardOf lib issue).number
      rw [← shown] at moved
      exact ⟨can.patched com (reopening_restates second) _,opened moved ⟨first,second,more,rfl,answered,carried⟩⟩
    · have moved := board_linked id
        (@board_patched g lib remote slug queue blocked ids _ _ (reopening_restates second) (cardOf lib issue).number)
      rw [← shown] at moved
      exact ⟨(can.patched com (reopening_restates second) _).linked id,
        opened moved ⟨first,second,more,rfl,answered,carried⟩⟩

theorem posted_item (can : Verifiable g lib slug queue a.sourceKey remote) (labelled : Labelled ⟨a.sourceKey,a.title,a.body⟩)
    (none_ : ∀ item ∈ remote.listedIssues slug, sourceOf lib item ≠ some a.sourceKey) {reply : Reply}
    (fresh : Fresh remote slug queue reply.assigned) :
    Verifiable g lib slug queue a.sourceKey (remote.addIssue slug (g.queueItem a reply)) ∧
      ⟨reply.assigned.number,reply.assigned.id,false,some a.sourceKey,false,true⟩ ∈
        (g.boardOf lib (remote.addIssue slug (g.queueItem a reply)) slug queue blocked).cards := by
  have card := @queueItem_card g lib a labelled reply
  have perm := posted_perm remote slug (g.queueItem a reply) slug
  rw [if_pos rfl] at perm
  have inside : g.queueItem a reply ∈ (remote.addIssue slug (g.queueItem a reply)).listedIssues slug :=
    perm.mem_iff.mpr List.mem_cons_self
  constructor
  · exact can.posted rfl fresh.positive rfl fresh.number fresh.id (congrArg Card.source card) none_
  · rw [← card]
    exact List.mem_map_of_mem inside

theorem post_broken (com : g.Commissioned lib slug queue blocked) (can : Verifiable g lib slug queue a.sourceKey remote)
    (labelled : Labelled ⟨a.sourceKey,a.title,a.body⟩)
    (none_ : ∀ item ∈ remote.listedIssues slug, sourceOf lib item ≠ some a.sourceKey)
    (fresh : ∀ reply ∈ replies, Fresh remote slug queue reply.assigned)
    (broken : course g lib slug queue a replies .open_ remote = some (final,.verifyPending,result)) :
    Verifiable g lib slug queue a.sourceKey final ∧
      ((g.boardOf lib final slug queue blocked).Queues a.sourceKey → (g.boardOf lib final slug queue blocked).Up a.sourceKey) := by
  obtain ⟨reply,member,rfl | rfl | rfl⟩ := course_open broken
  · refine ⟨can,?_⟩
    rintro ⟨c,listed,source,_⟩
    obtain ⟨item,present,rfl⟩ := List.mem_map.mp listed
    exact absurd source (none_ item present)
  · obtain ⟨posted,card⟩ := @posted_item g lib remote slug queue blocked a can labelled none_ reply (fresh reply member)
    refine ⟨posted,fun queues => ?_⟩
    have single : (g.boardOf lib (remote.addIssue slug (g.queueItem a reply)) slug queue blocked).Single :=
      (single_board (identified_at com posted.sound)).mpr posted.single
    exact absurd ((Board.queues_iff single card rfl).1.mp queues) (fresh reply member).unlinked
  · obtain ⟨posted,card⟩ := @posted_item g lib remote slug queue blocked a can labelled none_ reply (fresh reply member)
    refine ⟨posted.linked _,fun _ => ?_⟩
    exact ⟨_,card,rfl,rfl,(attached_linked _ _ _ _ _).mpr (.inr rfl)⟩

theorem close_broken (com : g.Commissioned lib slug queue blocked) (can : Verifiable g lib slug queue s remote) {issue : Fields}
    {n : Int} {version : String} (listed : issue ∈ remote.listedIssues slug) (own : numberOf issue = some n)
    (source : sourceOf lib issue = some s) (opened : isOpen issue = true)
    (broken : course g lib slug queue (.close s n version) replies (.close n) remote = some (final,.verifyPending,result)) :
    Identified final slug ∧ ∃ item ∈ final.listedIssues slug, numberOf item = some n ∧ sourceOf lib item = some s ∧
      (isText (Json.get item "state") "closed" = true ↔
        (QueueAction.close s n version).Done (g.boardOf lib final slug queue blocked)) := by
  have ids := identified_at com can.sound
  have known : cardOf lib issue ∈ (g.boardOf lib remote slug queue blocked).cards := List.mem_map_of_mem listed
  have number := @cardOf_number lib issue n own
  rcases course_close ((numbered_iff ids).mpr ⟨listed,own⟩) broken with rfl | ⟨reply,rfl⟩
  · refine ⟨ids,issue,listed,own,source,iff_of_false ?_ ?_⟩
    · rw [isText_iff.mp opened]
      decide
    · intro closed
      have shut : isOpen issue = false := closed _ known number
      rw [opened] at shut
      cases shut
  · have after := identified_at com (can.patched com (closing_restates reply) n).sound
    have moved := @board_patched g lib remote slug queue blocked ids _ _ (closing_restates reply) n
    have present : setCard n false (cardOf lib issue) ∈
        (g.boardOf lib (GovernanceMonitor.patched remote slug n (closing reply)) slug queue blocked).cards := by
      rw [moved.cards]
      exact List.mem_map_of_mem known
    obtain ⟨item,inside,shows⟩ := List.mem_map.mp present
    rw [setCard,if_pos number] at shows
    obtain ⟨k,_,ident⟩ := after.numbered item inside
    have same : k = n := by
      rw [← @cardOf_number lib item k ident,shows]
      exact number
    subst same
    refine ⟨after,item,inside,ident,?_,iff_of_true ?_ ?_⟩
    · change (cardOf lib item).source = some s
      rw [shows]
      exact source
    · rw [patched_state (closing_restates reply) inside ident]
      decide
    · intro d member same
      rw [moved.cards] at member
      obtain ⟨old,_,rfl⟩ := List.mem_map.mp member
      unfold setCard at same ⊢
      split
      next => rfl
      next other =>
        rw [if_neg other] at same
        exact absurd same other

/-- A write of the monitor that broke off is judged by what it was for, and never left undecided;
only an item that is closed and was left in the queue passes for one that was opened again. -/
theorem reconcile_verdict_iff (g : GovernanceMonitor) (lib : MonitorLibrary) (int : ∀ n, lib.int (.int n) = .ok n)
    (com : g.Commissioned lib slug queue blocked) (sound : g.Sound remote) (single : Single lib remote slug) {seen : Snapshot}
    (ok : g.snapshot lib remote = .ok seen) (member : a ∈ seen.actions) (unquoted : Unquoted lib remote slug a.sourceKey)
    (fresh : ∀ reply ∈ replies, Fresh remote slug queue reply.assigned)
    (broken : course g lib slug queue a replies a.start remote = some (final,.verifyPending,result)) :
    ∃ fields v, a.precondition g.principalGithub queue = .obj fields ∧
      g.backend.verifyReconcile lib.toTextLibrary final a.operation a.sourceKey fields = .ok v ∧
      (v.proof = .present ∨ v.proof = .absent) ∧
      ((v.proof = .present ↔ a.Done (g.boardOf lib final slug queue blocked)) ↔
        ¬ a.Unopened (g.boardOf lib remote slug queue blocked) replies) := by
  have ids := identified_at com sound
  have setting := setting_of_snapshot com sound single ok
  obtain ⟨_,sources,_⟩ := (snapshot_ok_iff com sound ids single setting.distinct.sources).mp ⟨seen,ok⟩
  obtain ⟨⟨queueItem,found,_⟩,_⟩ := snapshot_reads com ok
  obtain ⟨queued,number,_⟩ := (issueAt_iff ids).mp found
  obtain ⟨m,positive,own⟩ := ids.numbered queueItem queued
  cases own.symm.trans number
  have can : Verifiable g lib slug queue a.sourceKey remote := ⟨sound,unquoted,single,queueItem,queued,number⟩
  -- a creation is judged by whether an item of the source is in the queue
  have created {marker : String} (valid : sourceMarker a.sourceKey = .ok marker) (create : a.operation = "create")
      (after : Verifiable g lib slug queue a.sourceKey final) : ∃ fields v, a.precondition g.principalGithub queue = .obj fields ∧
        g.backend.verifyReconcile lib.toTextLibrary final a.operation a.sourceKey fields = .ok v ∧
        (v.proof = .present ∨ v.proof = .absent) ∧
        (v.proof = .present ↔ (g.boardOf lib final slug queue blocked).Queues a.sourceKey) := by
    obtain ⟨fields,shape,given,_,verdict⟩ := @reconcile_eq g lib final slug queue blocked _ a com valid
    obtain ⟨v,judged,both,present⟩ := @verifyCreation_ok g lib final slug queue blocked _ _ fields int
      (identified_at com after.sound) valid after.unquoted after.single positive after.queued given
    rw [if_pos create,judged] at verdict
    exact ⟨fields,v,shape,verdict,both,present⟩
  have due := setting.planned.due a member
  have validOf {s : String} (own : (sourceMarker s).toBool = true) : ∃ marker, sourceMarker s = .ok marker := by
    cases shape : sourceMarker s with
    | ok marker => exact ⟨marker,rfl⟩
    | error e =>
      rw [shape] at own
      cases own
  cases due with
  | @post s title body version wanted none_ =>
    have labelled := setting.labelled _ member rfl
    obtain ⟨marker,valid⟩ := validOf labelled.valid
    obtain ⟨after,up⟩ := post_broken com can labelled (fun item listed => none_ _ (List.mem_map_of_mem listed)) fresh broken
    obtain ⟨fields,v,shape,verdict,both,present⟩ := created valid rfl after
    refine ⟨fields,v,shape,verdict,both,?_⟩
    have never : ¬ (QueueAction.create s title body none version).Unopened (g.boardOf lib remote slug queue blocked) replies := by
      rintro ⟨⟨_,_,_,target,_⟩,_⟩
      cases target
    refine iff_of_true ?_ never
    exact present.trans ⟨up,fun stands => stands.imp (fun _ own => ⟨own.1,own.2.1,own.2.2.2⟩)⟩
  | @raise s title body version c wanted known source down =>
    obtain ⟨marker,valid⟩ := validOf (sources c known s source)
    have start : (QueueAction.create s title body (some c.number) version).start = .fetch c.number :=
      if_neg (by have := setting.distinct.positive.1 c known; omega)
    rw [start] at broken
    obtain ⟨after,stuck⟩ := raise_broken com can setting.distinct known source rfl rfl down broken
    obtain ⟨fields,v,shape,verdict,both,present⟩ := created valid rfl after
    refine ⟨fields,v,shape,verdict,both,?_⟩
    rw [← stuck,present]
    have queues : (g.boardOf lib final slug queue blocked).Up s → (g.boardOf lib final slug queue blocked).Queues s :=
      fun stands => stands.imp (fun _ own => ⟨own.1,own.2.1,own.2.2.2⟩)
    change ((g.boardOf lib final slug queue blocked).Queues s ↔ (g.boardOf lib final slug queue blocked).Up s) ↔
      ¬ ((g.boardOf lib final slug queue blocked).Queues s ∧ ¬ (g.boardOf lib final slug queue blocked).Up s)
    rw [not_and_not_right]
    exact ⟨fun same => same.mp,fun up => ⟨up,queues⟩⟩
  | @close s version c unwanted known source opened attached =>
    obtain ⟨marker,valid⟩ := validOf (sources c known s source)
    have never : ¬ (QueueAction.close s c.number version).Unopened (g.boardOf lib remote slug queue blocked) replies := by
      rintro ⟨⟨_,_,create,_⟩,_⟩
      exact absurd create (by simp [QueueAction.operation])
    obtain ⟨issue,listed,rfl⟩ := List.mem_map.mp known
    obtain ⟨n,_,own⟩ := ids.numbered issue listed
    rw [cardOf_number own] at broken never ⊢
    obtain ⟨fields,shape,_,given,verdict⟩ := @reconcile_eq g lib final slug queue blocked _ (.close s n version) com valid
    obtain ⟨after,item,inside,number,named,done⟩ := close_broken com can listed own source opened broken
    obtain ⟨v,judged,both,present⟩ := verifyIssue_closing g.backend int after valid inside number named (given rfl n rfl)
    rw [if_neg (by simp [QueueAction.operation])] at verdict
    refine ⟨fields,v,shape,?_,both,iff_of_true (present.trans done) never⟩
    change g.backend.verifyReconcile lib.toTextLibrary final "close" s fields = .ok v
    change g.backend.verifyReconcile lib.toTextLibrary final "close" s fields =
      match verifyIssue g.backend lib.toTextLibrary final slug marker "close" fields with
      | .ok v => .ok v
      | .error e => .ok (undecided e) at verdict
    rw [verdict,judged]

end GovernanceMonitor

/-! An item that the Human has closed and left in the queue. -/

namespace MonitorRun
open GovernanceMonitor

def closedDecision : Fields :=
  [("number",.int 3),("id",.int 1003),("title",.str decision.title),("body",.str decision.body),("state",.str "closed"),
    ("updated_at",.str "2026-01-02T00:00:00Z")]

def left : GitHub :=
  {proposed.addIssue "example/org" closedDecision with links := [("example/org",1,.int 1003)]}

def raised : QueueAction :=
  .create decision.sourceKey decision.title decision.body (some 3) "2026-01-02T00:00:00Z"

/-- The item is read, and the call that opens it is not carried out. -/
def replies : List Reply := [⟨true,true,⟨1004,4,""⟩,""⟩,⟨false,false,⟨1004,4,""⟩,""⟩]

theorem left_sound : clerk.Sound left := by
  have each : ∀ entry ∈ clerk.backend.repositories, Identified left entry.2.slug := by decide +kernel
  exact ⟨by decide +kernel,fun alias_ repo known => each _ (mem_of_lookup known)⟩

theorem left_single : Single clerkLibrary left "example/org" := by
  have each : ∀ issue ∈ left.listedIssues "example/org", ∀ other ∈ left.listedIssues "example/org",
      (sourceOf clerkLibrary issue).isSome → sourceOf clerkLibrary other = sourceOf clerkLibrary issue →
        numberOf issue = numberOf other := by decide +kernel
  intro issue listed other present s source same
  have ids := identified_at clerk_commissioned left_sound
  exact ids.same_number listed present (each issue listed other present (by rw [source]; rfl) (same.trans source.symm))

theorem left_unquoted : Unquoted clerkLibrary left "example/org" decision.sourceKey := by
  have each : ∀ item ∈ left.listedIssues "example/org",
      mentions clerkLibrary.toTextLibrary "<!-- governance-monitor-source:proposal:org#2 -->" item = true →
        sourceOf clerkLibrary item = some decision.sourceKey := by decide +kernel
  intro item listed marker valid found
  obtain ⟨_,_,_,rfl⟩ := sourceMarker_eq_ok.mp valid
  exact each item listed found

theorem left_snapshot : clerk.snapshot clerkLibrary left = .ok ⟨1,1,1,[],[],[raised]⟩ := by decide +kernel

theorem left_course : course clerk clerkLibrary "example/org" 1 raised replies raised.start left =
    some (left,.verifyPending,failure "GitHub command failed: api") := by
  have found : GitHub.numbered (left.listedIssues "example/org") 3 = some closedDecision := rfl
  have marked : sourceIn (bodyOf clerkLibrary.toTextLibrary closedDecision).toList ≠ none := by decide +kernel
  have closed : isOpen closedDecision = false := by decide +kernel
  change course clerk clerkLibrary "example/org" 1 raised replies (.fetch 3) left = _
  unfold replies
  rw [course,advance_fetch_closed rfl found marked closed]
  simp only [course,advance,found,unanswered]
  rfl

/-- The verifier takes the item for opened again. -/
theorem reopening_lost : ∃ fields v, raised.precondition "human" 1 = .obj fields ∧
    clerk.backend.verifyReconcile clerkLibrary.toTextLibrary left "create" decision.sourceKey fields = .ok v ∧
      ¬ (v.proof = .present ↔ raised.Done (clerk.boardOf clerkLibrary left "example/org" 1 [])) := by
  have fresh : ∀ reply ∈ replies, Fresh left "example/org" 1 reply.assigned := by
    have each : ∀ reply ∈ replies, 0 < reply.assigned.number ∧
        (∀ item ∈ left.listedIssues "example/org", numberOf item ≠ some reply.assigned.number) ∧
        (∀ item ∈ left.listedIssues "example/org", idOf item ≠ some reply.assigned.id) ∧
        reply.assigned.id ∉ attachedTo left "example/org" 1 := by decide +kernel
    exact fun reply member => ⟨(each reply member).1,(each reply member).2.1,(each reply member).2.2.1,(each reply member).2.2.2⟩
  obtain ⟨fields,v,shape,verdict,_,exactly⟩ := reconcile_verdict_iff clerk clerkLibrary (fun _ => rfl) clerk_commissioned
    left_sound left_single left_snapshot (List.mem_singleton_self raised) left_unquoted fresh left_course
  refine ⟨fields,v,shape,verdict,?_⟩
  rw [exactly,not_not]
  refine ⟨⟨cardOf clerkLibrary closedDecision,?_,rfl,?_,?_,?_⟩,?_⟩
  · exact List.mem_map_of_mem (List.mem_append_left _ (List.mem_append_right _ (List.mem_singleton_self _)))
  · decide +kernel
  · decide +kernel
  · decide +kernel
  · rintro ⟨_,_,_,same,_,carried⟩
    cases same
    cases carried

end MonitorRun
end SjgControl

import SjgControl.GitHubBackend

/-! The writes of `execute` on all operations of `authorize`, in the order in which the API
is called. A request that is cut off leaves the remote with the writes before that point. -/
namespace SjgControl
open Relational PythonText

inductive RemoteWrite where
  | openIssue (slug : String) (item : Fields)
  | editIssue (slug : String) (number : Int) (changes : Fields)
  | postComment (slug : String) (number : Int) (item : Fields)
  | openPull (slug : String) (item : Fields)
  | editPull (slug : String) (number : Int) (changes : Fields)
  | postReview (slug : String) (number : Int) (item : Fields)
  | linkChild (slug : String) (number : Int) (id : Json)
  | place (slug : String) (number : Int) (stage : String)

namespace GitHub

/-- `PATCH`: the fields given replace those of the object. -/
def edited (number : Int) (changes item : Fields) : Fields :=
  match Json.get item "number" with
  | .int n => if n = number then changes ++ item else item
  | _ => item

def editAt (lists : String → List Fields) (slug : String) (number : Int) (changes : Fields) : String → List Fields :=
  fun s => if s = slug then (lists s).map (edited number changes) else lists s

def perform (remote : GitHub) : RemoteWrite → GitHub
  | .openIssue slug item => remote.addIssue slug item
  | .editIssue slug number changes => {remote with issues := editAt remote.issues slug number changes}
  | .postComment slug number item => remote.addComment slug number item
  | .openPull slug item => remote.addPull slug item
  | .editPull slug number changes => {remote with pulls := editAt remote.pulls slug number changes}
  | .postReview slug number item => remote.addReview slug number item
  | .linkChild slug number id => {remote with links := remote.links ++ [(slug,number,id)]}
  | .place slug number stage => {remote with moves := remote.moves ++ [(slug,number,stage)]}

def performAll (remote : GitHub) (writes : List RemoteWrite) : GitHub := writes.foldl perform remote

end GitHub

def RemoteWrite.sent : RemoteWrite → Fields
  | .openIssue _ item | .postComment _ _ item | .openPull _ item | .postReview _ _ item => item
  | .editIssue _ _ changes | .editPull _ _ changes => changes
  | .linkChild _ _ _ | .place _ _ _ => []

def RemoteWrite.body (w : RemoteWrite) : Option String :=
  match Json.get w.sent "body" with
  | .str body => some body
  | _ => none

structure Trail where
  writes : List RemoteWrite
  result : Except BackendError Fields

namespace Trail

def failed (e : BackendError) : Trail := ⟨[],.error e⟩

/-- `first` is written before the rest is tried. -/
def behind (first : RemoteWrite) (rest : Trail) : Trail := ⟨first::rest.writes,rest.result⟩

end Trail

namespace Backend
open Trail

/-- `_move`, then what `next` still writes. -/
def placing (b : Backend) (slug : String) (number : Int) (stage : String) (next : Trail) : Trail :=
  match b.stages with
  | none => failed (.gitHub "Project coordinates are not commissioned")
  | some stages =>
    if stage ∈ stages then behind (.place slug number stage) next
    else failed (.gitHub ("unknown configured Project stage: " ++ stage))

/-- `if self.project is not None: self._move(…)`. -/
def placingIf (b : Backend) (slug : String) (number : Int) (stage : String) (next : Trail) : Trail :=
  if b.stages.isSome then b.placing slug number stage next else next

def linking (b : Backend) (lib : TextLibrary) (remote : GitHub) (slug : String) (a : Assigned) (c : BrokerCall)
    (next : Trail) : Trail :=
  if (Json.get c.arguments "parent").truthy then
    match b.parent lib remote c.arguments >>= issueNumber with
    | .error e => failed e
    | .ok number => behind (.linkChild slug number (.int a.id)) next
  else next

def createTrail (b : Backend) (lib : TextLibrary) (remote : GitHub) (a : Assigned) (c : BrokerCall) (slug : String) :
    Trail :=
  match required c.arguments "kind" with
  | .error e => failed e
  | .ok kind =>
    let first := RemoteWrite.openIssue slug
      (issueItem a (issueTitle (kind.text lib.render) (textArgument lib c.arguments "title"))
        (writtenBody lib c) (b.issueLabels lib c (kind.text lib.render)))
    behind first (b.linking lib (remote.perform first) slug a c
      (b.placingIf slug a.number "Todo"
        ⟨[],.ok [("number",.int a.number),("url",.str a.url),("owner_role",.str (owner lib c))]⟩))

def commentTrail (lib : TextLibrary) (a : Assigned) (c : BrokerCall) (slug : String) (number : Int) : Trail :=
  match required c.arguments "body" with
  | .error e => failed e
  | .ok _ => ⟨[.postComment slug number (commentItem a (writtenBody lib c))],.ok [("comment_id",.int a.id)]⟩

/-- `sorted({label … if not label.startswith("role:")} | {f"role:{target}"})`. -/
def routedLabels (lib : TextLibrary) (issue : Fields) (target : String) : List String :=
  ((("role:" ++ target)::(labels lib issue).filter (fun label => ¬ "role:".toList <+: label.toList)).dedup).insertionSort
    (· ≤ ·)

def routedBody (lib : TextLibrary) (issue : Fields) (target : String) : String :=
  bodyWithMetadata (bodyOf lib issue) target (textOrElse lib ((metadata lib issue).getD []) "kind" "proposal")

def routeTrail (lib : TextLibrary) (c : BrokerCall) (slug : String) (number : Int) (issue : Fields) : Trail :=
  match required c.arguments "target_role" with
  | .error e => failed e
  | .ok given =>
    let target := given.text lib.render
    let names := (routedLabels lib issue target).map (fun label => Json.obj [("name",.str label)])
    ⟨[.editIssue slug number [("labels",.arr names),("body",.str (routedBody lib issue target))]],
      .ok [("owner_role",.str target)]⟩

def moveTrail (b : Backend) (lib : TextLibrary) (c : BrokerCall) (slug : String) (number : Int) : Trail :=
  match required c.arguments "to" with
  | .error e => failed e
  | .ok stage =>
    b.placing slug number (stage.text lib.render) ⟨[],.ok [("number",.int number),("stage",stage)]⟩

def closing (slug : String) (number : Int) (reason : String) (result : Fields) : Trail :=
  ⟨[.editIssue slug number [("state",.str "closed"),("state_reason",.str reason)]],.ok result⟩

def doneBody (c : BrokerCall) : String :=
  markerOf c.key ++ "\n[CLOSE]\n```json\n" ++ String.ofList (JsonText.dumps (.obj c.arguments)) ++ "\n```"

def doneTrail (b : Backend) (a : Assigned) (c : BrokerCall) (slug : String) (number : Int) : Trail :=
  behind (.postComment slug number (commentItem a (doneBody c)))
    (b.placingIf slug number "Done"
      (closing slug number "completed" [("number",.int number),("state",.str "closed")]))

def dropBody (lib : TextLibrary) (c : BrokerCall) : String :=
  markerOf c.key ++ "\n[DROP]\nreason: " ++ formatted lib c.arguments "reason"

def dropTrail (b : Backend) (lib : TextLibrary) (a : Assigned) (c : BrokerCall) (slug : String) (number : Int) : Trail :=
  behind (.postComment slug number (commentItem a (dropBody lib c)))
    (b.placingIf slug number "Dropped" (closing slug number "not_planned"
      [("number",.int number),("state",.str "closed"),("reason",.str "not_planned")]))

def issueTrail (b : Backend) (lib : TextLibrary) (remote : GitHub) (a : Assigned) (c : BrokerCall) (slug : String) :
    Trail :=
  match b.issue lib remote c.arguments,number lib c.arguments ["id","issue"] with
  | .error e,_ | _,.error e => failed e
  | .ok issue,.ok number =>
    if c.operation = "pm.issue.comment" then commentTrail lib a c slug number
    else if c.operation = "pm.issue.route" then routeTrail lib c slug number issue
    else if c.operation = "pm.issue.move" then b.moveTrail lib c slug number
    else if c.operation = "pm.issue.done" then b.doneTrail a c slug number
    else b.dropTrail lib a c slug number

def createPullTrail (lib : TextLibrary) (a : Assigned) (c : BrokerCall) (r : Repository) : Trail :=
  match required c.arguments "topic" with
  | .error e => failed e
  | .ok topic =>
    let title := textOrElse lib c.arguments "title" (heading (topic.text lib.render))
    let draft := if Json.has c.arguments "draft" then (Json.get c.arguments "draft").truthy else true
    ⟨[.openPull r.slug (pullItem a title (writtenBody lib c) (branch lib c) r.defaultBranch draft)],
      .ok [("number",.int a.number),("url",.str a.url),("head",.str (branch lib c))]⟩

/-- `{key: arguments[key] for key in ("title", "body") if key in arguments}`. -/
def pullChanges (arguments : Fields) : Fields :=
  (["title","body"].filter (Json.has arguments ·)).map (fun name => (name,Json.get arguments name))

def updatePullTrail (a : Assigned) (c : BrokerCall) (slug : String) (number : Int) : Trail :=
  ⟨[.editPull slug number (pullChanges c.arguments)],.ok [("number",.int number),("url",.str a.url)]⟩

def reviewTrail (lib : TextLibrary) (a : Assigned) (c : BrokerCall) (slug : String) (number : Int) : Trail :=
  let event := textOrElse lib c.arguments "event" "COMMENT"
  ⟨[.postReview slug number (reviewItem a (writtenBody lib c) event)],.ok [("review_id",.int a.id),("state",.str event)]⟩

def pullTrail (lib : TextLibrary) (a : Assigned) (c : BrokerCall) (slug : String) : Trail :=
  match number lib c.arguments ["id","pr"] with
  | .error e => failed e
  | .ok number =>
    if c.operation = "pr.update" then updatePullTrail a c slug number
    else if c.operation = "pr.comment" then commentTrail lib a c slug number
    else reviewTrail lib a c slug number

/-- `execute` on the operations of `pmOperations` and `prOperations`. -/
def trail (b : Backend) (lib : TextLibrary) (remote : GitHub) (a : Assigned) (c : BrokerCall) : Trail :=
  match b.repo lib c.arguments with
  | .error e => failed e
  | .ok repo =>
    if c.operation = "pm.issue.create" then b.createTrail lib remote a c repo.slug
    else if c.operation ∈ pmOperations then b.issueTrail lib remote a c repo.slug
    else if c.operation = "pr.create" then createPullTrail lib a c repo
    else pullTrail lib a c repo.slug

/-- What the stage, the children and the evidence of an item turn out to be. -/
structure Observed where
  stage : Option String
  openChildren : Bool
  evidence : Bool

/-- The operations whose facts are those of an issue, besides `pm.issue.comment`. -/
def itemOperations : List String :=
  ["pm.issue.route","pm.issue.move","pm.issue.done","pm.issue.drop","read.issue.get","read.issue.children",
    "read.issue.comments"]

/-- `facts` on all of them; `seen` is what the reads besides the issue find. -/
def factsOf (b : Backend) (lib : TextLibrary) (remote : GitHub) (operation : String) (arguments : Fields)
    (seen : Observed) : Except BackendError Facts :=
  if operation ∈ itemOperations then do
    let issue ← b.issue lib remote arguments
    let kind ← kindOf (labels lib issue)
    return {Facts.plain with
      issueKind := kind
      ownerRole := Json.get ((metadata lib issue).getD []) "owner_role"
      currentStage := if operation = "pm.issue.move" then seen.stage else none
      hasOpenChildren := some (decide (operation ∈ ["pm.issue.done","pm.issue.drop","read.issue.children"]) &&
        seen.openChildren)
      evidenceValid := if operation = "pm.issue.done" then some seen.evidence else none}
  else b.facts lib remote operation arguments

/-! On the operations that `execute` covers already, the two say the same. -/

variable {b : Backend} {lib : TextLibrary} {remote : GitHub} {a : Assigned} {c : BrokerCall}

/-- The remotes agree on everything but the children and the stages. -/
def SameTexts (one other : GitHub) : Prop :=
  one.issues = other.issues ∧ one.pulls = other.pulls ∧ one.comments = other.comments ∧ one.reviews = other.reviews

theorem SameTexts.refl (remote : GitHub) : SameTexts remote remote := ⟨rfl,rfl,rfl,rfl⟩

theorem finish_sameTexts (posted : GitHub) (slug : String) (result : Fields) :
    (b.finishCreate lib posted slug a c).map (fun _ => result) =
        (b.linking lib posted slug a c (b.placingIf slug a.number "Todo" ⟨[],.ok result⟩)).result ∧
      SameTexts posted (posted.performAll
        (b.linking lib posted slug a c (b.placingIf slug a.number "Todo" ⟨[],.ok result⟩)).writes) ∧
      ∀ final, b.finishCreate lib posted slug a c = .ok final → SameTexts final posted := by
  have placed : ∀ before : GitHub, (b.moveNew before slug a).map (fun _ => result) =
      (b.placingIf slug a.number "Todo" ⟨[],.ok result⟩).result ∧
        SameTexts before (before.performAll (b.placingIf slug a.number "Todo" ⟨[],.ok result⟩).writes) ∧
        ∀ final, b.moveNew before slug a = .ok final → SameTexts final before := by
    intro before
    unfold moveNew placingIf placing
    cases options : b.stages with
    | none =>
      refine ⟨rfl,SameTexts.refl _,?_⟩
      intro final ok
      cases ok
      exact SameTexts.refl _
    | some stages =>
      by_cases known : "Todo" ∈ stages
      · simp only [known,require,if_true,Option.isSome_some]
        refine ⟨rfl,SameTexts.refl _,?_⟩
        intro final ok
        cases ok
        exact SameTexts.refl _
      · simp only [known,require,if_false,Option.isSome_some,if_true]
        refine ⟨rfl,SameTexts.refl _,?_⟩
        intro final ok
        cases ok
  unfold finishCreate linkParent linking
  split
  next =>
    cases found : b.parent lib posted c.arguments with
    | error e =>
      refine ⟨rfl,SameTexts.refl _,?_⟩
      intro final ok
      cases ok
    | ok parent =>
      cases own : issueNumber parent with
      | error e =>
        simp only [bind,Except.bind,own]
        refine ⟨rfl,SameTexts.refl _,?_⟩
        intro final ok
        cases ok
      | ok number =>
        simp only [bind,Except.bind,own]
        exact placed _
  next => exact placed posted

theorem create_agrees (slug : String) :
    (b.create lib remote a c slug).result = (b.createTrail lib remote a c slug).result ∧
      SameTexts (b.create lib remote a c slug).state
        (remote.performAll (b.createTrail lib remote a c slug).writes) := by
  unfold create createTrail
  cases required c.arguments "kind" with
  | error e => exact ⟨rfl,SameTexts.refl _⟩
  | ok kind =>
    dsimp only
    have after := @finish_sameTexts b lib a c
      (remote.addIssue slug (issueItem a (issueTitle (kind.text lib.render) (textArgument lib c.arguments "title"))
        (writtenBody lib c) (b.issueLabels lib c (kind.text lib.render)))) slug
      [("number",.int a.number),("url",.str a.url),("owner_role",.str (owner lib c))]
    obtain ⟨result,texts,final⟩ := after
    split
    next next ok =>
      rw [ok] at result
      obtain ⟨issues,pulls,comments,reviews⟩ := final next ok
      obtain ⟨issues',pulls',comments',reviews'⟩ := texts
      exact ⟨result,issues.trans issues',pulls.trans pulls',comments.trans comments',reviews.trans reviews'⟩
    next e ok =>
      rw [ok] at result
      exact ⟨result,texts⟩

theorem comment_agrees (slug : String) (number : Int) :
    (comment lib remote a c slug number).result = (commentTrail lib a c slug number).result ∧
      SameTexts (comment lib remote a c slug number).state
        (remote.performAll (commentTrail lib a c slug number).writes) := by
  unfold comment commentTrail
  cases required c.arguments "body" with
  | error e => exact ⟨rfl,SameTexts.refl _⟩
  | ok body => exact ⟨rfl,SameTexts.refl _⟩

theorem createPull_agrees (r : Repository) :
    (createPull lib remote a c r).result = (createPullTrail lib a c r).result ∧
      SameTexts (createPull lib remote a c r).state (remote.performAll (createPullTrail lib a c r).writes) := by
  unfold createPull createPullTrail
  cases required c.arguments "topic" with
  | error e => exact ⟨rfl,SameTexts.refl _⟩
  | ok topic => exact ⟨rfl,SameTexts.refl _⟩

/-- `trail` is `execute`, where that is defined. -/
theorem trail_execute (remote : GitHub) (a : Assigned) (known : c.operation ∈ marked) :
    (b.execute lib remote a c).result = (b.trail lib remote a c).result ∧
      SameTexts (b.execute lib remote a c).state (remote.performAll (b.trail lib remote a c).writes) := by
  unfold execute trail
  cases b.repo lib c.arguments with
  | error e => exact ⟨rfl,SameTexts.refl _⟩
  | ok repo =>
    dsimp only
    simp only [marked,List.mem_cons,List.not_mem_nil,or_false] at known
    by_cases create : c.operation = "pm.issue.create"
    · rw [if_pos create,if_pos create]
      exact create_agrees repo.slug
    rw [if_neg create,if_neg create]
    by_cases note : c.operation = "pm.issue.comment"
    · have inside : c.operation ∈ pmOperations := by
        rw [note]
        decide
      rw [if_pos note,if_pos inside]
      unfold issueTrail
      cases b.issue lib remote c.arguments with
      | error e => exact ⟨rfl,SameTexts.refl _⟩
      | ok issue =>
        cases number lib c.arguments ["id","issue"] with
        | error e => exact ⟨rfl,SameTexts.refl _⟩
        | ok n =>
          dsimp only
          rw [if_pos note]
          exact comment_agrees repo.slug n
    have outside : c.operation ∉ pmOperations := by
      rcases known with own | own | own | own | own
      · exact absurd own create
      · exact absurd own note
      all_goals rw [own]; decide
    rw [if_neg note,if_neg outside]
    by_cases pull : c.operation = "pr.create"
    · rw [if_pos pull,if_pos pull]
      exact createPull_agrees repo
    rw [if_neg pull,if_neg pull]
    unfold pullTrail
    cases number lib c.arguments ["id","pr"] with
    | error e => exact ⟨rfl,SameTexts.refl _⟩
    | ok n =>
      dsimp only
      have other : c.operation ≠ "pr.update" := by
        rcases known with own | own | own | own | own
        all_goals rw [own]; decide
      rw [if_neg other]
      by_cases note : c.operation = "pr.comment"
      · rw [if_pos note,if_pos note]
        exact comment_agrees repo.slug n
      · rw [if_neg note,if_neg note]
        exact ⟨rfl,SameTexts.refl _⟩

end Backend
end SjgControl

import SjgControl.Verifier.Presence

/-! `verify_broker` on whatever the transport answers to its reads. An answer is incomplete if
the read fails or comes back empty, or if an object in it lacks a field that the verifier
looks at. -/
namespace SjgControl
open Relational PythonText Verification

inductive Answer where
  | failed (message : String)
  | empty
  | value (document : Json)

/-- `incomplete` if one of the answers was; an exception that `verify_broker` lets through
leaves no outcome. -/
structure Heard where
  incomplete : Bool
  outcome : Option Verification

namespace Heard

def unknown (incomplete : Bool) (message : String) : Heard := ⟨incomplete,some ⟨.unknown,none,some message⟩⟩

def raised (incomplete : Bool) : Heard := ⟨incomplete,none⟩

def after (incomplete : Bool) (h : Heard) : Heard := ⟨incomplete || h.incomplete,h.outcome⟩

/-- PRESENT with `result`, or ABSENT. -/
def decided (incomplete present : Bool) (result : Fields) : Heard :=
  ⟨incomplete,some (if present then ⟨.present,some result,none⟩ else ⟨.absent,none,none⟩)⟩

/-- An incomplete answer leaves the effect unknown; absence is only told of complete answers. -/
def Honest (h : Heard) : Prop :=
  (h.incomplete = true → ∃ v ∈ h.outcome, v.proof = .unknown) ∧
    ∀ v ∈ h.outcome, v.proof = .absent → h.incomplete = false

end Heard

namespace Transport

def lacks (o : Fields) (name : String) : Bool := !decide (Json.has o name)

/-- `value or {}`, as far as it has a `get`. -/
def orEmpty : Json → Option Fields
  | .obj fields => some fields
  | value => if value.truthy then none else some []

/-- `((o.get(a) or {}).get(b) or {})…`: whether one of the fields is lacking, and the value
unless something else stands where an object should. -/
def dig (o : Fields) : List String → Bool × Option Json
  | [] => (false,some (.obj o))
  | [name] => (lacks o name,some (Json.get o name))
  | name::rest =>
    match orEmpty (Json.get o name) with
    | none => (false,none)
    | some inner => (lacks o name || (dig inner rest).1,(dig inner rest).2)

def objects : List Json → Except String (List Fields)
  | [] => .ok []
  | .obj fields::rest => (objects rest).map (fun others => fields::others)
  | _::_ => .error "paginated GitHub page contained a non-object"

def flattened : List Json → Except String (List Fields)
  | [] => .ok []
  | .arr page::rest => do
    let items ← objects page
    let others ← flattened rest
    return items ++ others
  | _::_ => .error "paginated GitHub page was not a list"

/-- The items that `_pages` makes of an answer. -/
def pageItems : Answer → Except String (List Fields)
  | .failed message => .error message
  | .empty => .error "paginated GitHub read returned malformed JSON"
  | .value (.arr pages) => flattened pages
  | .value _ => .error "paginated GitHub read was not a page list"

/-- An answer that never comes is a command that failed. -/
def pagesRead (answers : List Answer) (use : List Fields → List Answer → Heard) : Heard :=
  match answers with
  | [] => .unknown true "GitHub command failed: api"
  | answer::rest =>
    match pageItems answer with
    | .ok items => use items rest
    | .error message => .unknown true message

def apiRead (answers : List Answer) (use : Json → List Answer → Heard) : Heard :=
  match answers with
  | [] => .unknown true "GitHub command failed: api"
  | .failed message::_ => .unknown true message
  | .empty::rest => .after true (use .null rest)
  | .value document::rest => use document rest

section Operations
variable (b : Backend) (lib : TextLibrary) (repo : Repository) (arguments : Fields) (role key : String)

/-- `_issue`: the issue, with what follows. -/
def issueRead (answers : List Answer) (use : Fields → List Answer → Heard) : Heard :=
  match Backend.number lib arguments ["id","issue"] with
  | .error e => .unknown false e.text
  | .ok number =>
    if number ≤ 0 then .unknown false "positive issue id is required"
    else apiRead answers (fun document rest =>
      match document with
      | .obj issue =>
        if Backend.isPull issue then .unknown false "target issue is absent or is a pull request" else use issue rest
      | _ => .unknown false "target issue is absent or is a pull request")

def readCreate (answers : List Answer) : Heard :=
  pagesRead answers (fun items _ =>
    ⟨items.any (fun item => !Backend.isPull item && lacks item "body"),
      some (proved (items.filter (fun item => !Backend.isPull item && Backend.bears lib key item)) Backend.created)⟩)

def readComment (answers : List Answer) : Heard :=
  match Backend.number lib arguments ["id","issue","pr"] with
  | .error e => .unknown false e.text
  | .ok _ => pagesRead answers (fun items _ =>
    ⟨items.any (fun item => lacks item "body"),some (proved (items.filter (Backend.bears lib key)) Backend.commented)⟩)

def readReview (answers : List Answer) : Heard :=
  match Backend.number lib arguments ["id","pr"] with
  | .error e => .unknown false e.text
  | .ok _ => pagesRead answers (fun items _ =>
    ⟨items.any (fun item => lacks item "body"),some (proved (items.filter (Backend.bears lib key)) Backend.reviewed)⟩)

/-- The pull requests on the branch of the request, as far as they can be told. -/
def pullMatches (branch : String) : List Fields → Bool × Option (List Fields)
  | [] => (false,some [])
  | item::rest =>
    let others := pullMatches branch rest
    if Backend.bears lib key item then
      if role = "" then (lacks item "body" || others.1,others.2.map (fun found => item::found))
      else
        match dig item ["head","ref"] with
        | (_,none) => (lacks item "body",none)
        | (gap,some ref) =>
          (lacks item "body" || gap || others.1,
            if ref.textOr lib.render = branch then others.2.map (fun found => item::found) else others.2)
    else (lacks item "body" || others.1,others.2)

def readPull (answers : List Answer) : Heard :=
  pagesRead answers (fun items _ =>
    let found := pullMatches lib role key ("agent/" ++ role ++ "/" ++ formatted lib arguments "topic") items
    ⟨found.1,found.2.map (fun pulls => proved pulls Backend.created)⟩)

def typeName : Json → String
  | .null => "NoneType"
  | .bool _ => "bool"
  | .int _ => "int"
  | .float _ => "float"
  | .str _ => "str"
  | .arr _ => "list"
  | .obj _ => "dict"

/-- The `TypeError` of `for … in value or []`, if there is one. -/
def unlisted (value : Json) : Option String :=
  match value with
  | .bool _ | .int _ | .float _ =>
    if value.truthy then some ("'" ++ typeName value ++ "' object is not iterable") else none
  | _ => none

def labelGap (issue : Fields) : Bool :=
  match Json.get issue "labels" with
  | .arr values => values.any (fun value => match value with
    | .obj label => lacks label "name"
    | _ => false)
  | _ => lacks issue "labels"

def routed (issue : Fields) (target : String) : Bool :=
  decide ("role:" ++ target ∈ Backend.labels lib issue) &&
    isText (Json.get ((metadata lib issue).getD []) "owner_role") target

def readRoute (answers : List Answer) : Heard :=
  issueRead lib arguments answers (fun issue _ =>
    let target := textArgument lib arguments "target_role"
    match unlisted (Json.get issue "labels") with
    | some message => .unknown (labelGap issue) message
    | none => .decided (labelGap issue || lacks issue "body") (routed lib issue target) [("owner_role",.str target)])

def marked : List Fields → Bool × Bool
  | [] => (false,false)
  | item::rest =>
    if Backend.bears lib key item then (lacks item "body",true)
    else (lacks item "body" || (marked rest).1,(marked rest).2)

def readClosed (answers : List Answer) : Heard :=
  issueRead lib arguments answers (fun issue rest =>
    if lacks issue "number" then .unknown true "'number'"
    else
      match lib.int (Json.get issue "number") with
      | .error message => .unknown false message
      | .ok _ => pagesRead rest (fun comments _ =>
        let found := marked lib key comments
        .decided (found.1 || lacks issue "state") (isText (Json.get issue "state") "closed" && found.2)
          [("number",Json.get issue "number"),("state",Json.get issue "state")]))

/-- `all(…)` over the fields of the request, which ends at the first that differs. -/
def agrees (pull : Fields) : List String → Bool × Bool
  | [] => (false,true)
  | name::rest =>
    if Json.has arguments name then
      if textArgument lib pull name = (Json.get arguments name).text lib.render then
        (lacks pull name || (agrees pull rest).1,(agrees pull rest).2)
      else (lacks pull name,false)
    else agrees pull rest

def readUpdate (answers : List Answer) : Heard :=
  match Backend.number lib arguments ["id","pr"] with
  | .error e => .unknown false e.text
  | .ok number => apiRead answers (fun document _ =>
    match document with
    | .obj pull =>
      let found := agrees lib arguments pull ["title","body"]
      .decided found.1 found.2 [("number",.int number),("url",Json.get pull "html_url")]
    | _ => .unknown false "pull request read was incomplete")

/-- The second read of a submission: the commit that the branch points to. -/
def readCommit (sha : String) (answers : List Answer) : Heard :=
  apiRead answers (fun document _ =>
    match orEmpty document with
    | none => .raised false
    | some commit =>
      match dig commit ["commit","message"] with
      | (gap,none) => .raised gap
      | (gap,some message) =>
        .decided gap (contains (message.textOr lib.render) ("SJG-Idempotency: " ++ key))
          [("repository",.str repo.slug),("sha",.str sha)])

def readSubmit (answers : List Answer) : Heard :=
  if role = "" then .unknown false "persisted request lacks its bound role"
  else apiRead answers (fun document rest =>
    match orEmpty document with
    | none => .raised false
    | some ref =>
      match dig ref ["object","sha"] with
      | (gap,none) => .raised gap
      | (gap,some value) =>
        let sha := value.textOr lib.render
        if sha = "" then .decided gap false [] else .after gap (readCommit lib repo key sha rest))

/-! The stage: the project's coordinates, then the pages of the issue's project items. -/

mutual

/-- `==` on decoded values; a boolean counts as the number that it is, a float is told by its `repr`. -/
def sameValue : Json → Json → Bool
  | .null,.null => true
  | .bool one,.bool other => one = other
  | .bool one,.int other => other = if one then 1 else 0
  | .int one,.bool other => one = if other then 1 else 0
  | .int one,.int other => one = other
  | .int one,.float other => other = toString one ++ ".0"
  | .float one,.int other => one = toString other ++ ".0"
  | .float one,.float other => one = other
  | .str one,.str other => one = other
  | .arr one,.arr other => sameItems one other
  | .obj one,.obj other => one.length = other.length ∧ sameFields one other
  | _,_ => false

def sameItems : List Json → List Json → Bool
  | [],[] => true
  | one::rest,other::others => sameValue one other && sameItems rest others
  | _,_ => false

def sameFields : Fields → Fields → Bool
  | [],_ => true
  | (name,value)::rest,others => Json.has others name && sameValue value (Json.get others name) && sameFields rest others

end

def subscripted : Json → String
  | .str _ => "string indices must be integers, not 'str'"
  | .arr _ => "list indices must be integers or slices, not str"
  | value => "'" ++ typeName value ++ "' object is not subscriptable"

def optionsRead : List Json → Option String
  | [] => none
  | .obj option::rest =>
    if lacks option "name" then some "'name'" else if lacks option "id" then some "'id'" else optionsRead rest
  | value::_ => some (subscripted value)

/-- The keys of an object and the characters of a text have no fields. -/
def optionsOf (value : Json) : Option String :=
  match value with
  | .arr options => optionsRead options
  | .str _ | .obj _ => if value.truthy then some (subscripted (.str "")) else none
  | _ => unlisted value

inductive ProjectView where
  | refused (message : String)
  | raised
  | found (id : Json)

def projectField (project : Json) : ProjectView :=
  match orEmpty project with
  | none => .raised
  | some own =>
    match orEmpty (Json.get own "field") with
    | none => .raised
    | some field =>
      if project.truthy = false ∨ (Json.get field "id").truthy = false then
        .refused "configured Project or Status field was not found"
      else if ¬ Json.has own "id" then .refused "'id'"
      else
        match optionsOf (Json.get field "options") with
        | some message => .refused message
        | none => .found (Json.get own "id")

def projectView (document : Json) : ProjectView :=
  match orEmpty document with
  | none => .raised
  | some data =>
    if (Json.get data "errors").truthy then .refused "Project coordinate GraphQL read failed"
    else
      match orEmpty (Json.get data "data") with
      | none => .raised
      | some roots =>
        match orEmpty (Json.get roots "user") with
        | none => .raised
        | some user =>
          if (Json.get user "projectV2").truthy then projectField (Json.get user "projectV2")
          else
            match orEmpty (Json.get roots "organization") with
            | none => .raised
            | some organization => projectField (Json.get organization "projectV2")

inductive NodeView where
  | none
  | raised
  | found (stage : Json)

/-- The status of an item on the project: none at all, or the name of an option. -/
def statusOf (node : Fields) : Bool × NodeView :=
  match Json.get node "fieldValueByName" with
  | .obj status => (lacks status "name",.found (Json.get status "name"))
  | value => if value.truthy then (false,.raised) else (lacks node "fieldValueByName",.found .null)

def nodesView (project : Json) : List Json → Bool × NodeView
  | [] => (false,.none)
  | .obj node::rest =>
    match dig node ["project","id"] with
    | (gap,none) => (gap,.raised)
    | (gap,some id) =>
      if sameValue id project then (gap || (statusOf node).1,(statusOf node).2)
      else (gap || (nodesView project rest).1,(nodesView project rest).2)
  | _::_ => (false,.raised)

inductive PageView where
  | refused (message : String)
  | raised
  | found (stage : Json)
  | last
  | next

/-- The page's nodes, and whether another page follows. -/
def connectionView (project : Json) (connection : Fields) : Bool × PageView :=
  let pageInfo := dig connection ["pageInfo","hasNextPage"]
  let listed (nodes : List Json) : Bool × PageView :=
    match nodesView project nodes with
    | (gap,.raised) => (lacks connection "nodes" || gap,.raised)
    | (gap,.found stage) => (lacks connection "nodes" || gap,.found stage)
    | (gap,.none) =>
      match pageInfo with
      | (more,none) => (lacks connection "nodes" || gap || more,.raised)
      | (more,some following) =>
        if following.truthy then
          (lacks connection "nodes" || gap || more || (dig connection ["pageInfo","endCursor"]).1,.next)
        else (lacks connection "nodes" || gap || more,.last)
  match Json.get connection "nodes" with
  | .arr nodes => listed nodes
  | value =>
    match unlisted value with
    | some message => (false,.refused message)
    -- the keys of an object and the characters of a text are no nodes
    | none => if value.truthy then (false,.raised) else listed []

/-- One round of `_stage`. -/
def pageView (project : Json) (document : Json) : Bool × PageView :=
  match orEmpty document with
  | none => (false,.raised)
  | some data =>
    if (Json.get data "errors").truthy then (false,.refused "project status GraphQL read failed")
    else
      match dig data ["data","repository","issue","projectItems"] with
      | (gap,none) => (gap,.raised)
      | (gap,some items) =>
        match orEmpty items with
        | none => (gap,.raised)
        | some connection => (gap || (connectionView project connection).1,(connectionView project connection).2)

def answerView (project : Json) : Answer → Bool × PageView
  | .failed message => (true,.refused message)
  | .empty => (true,(pageView project .null).2)
  | .value document => pageView project document

/-- The pages one after the other; what the last one says of the stage. -/
def stagePages (project : Json) (target : String) : List Answer → Heard
  | [] => .unknown true "GitHub command failed: api"
  | answer::rest =>
    let view := answerView project answer
    match view.2 with
    | .refused message => .unknown view.1 message
    | .raised => .raised view.1
    | .found stage => .decided view.1 (isText stage target) [("stage",.str target)]
    | .last => .decided view.1 false []
    | .next => .after view.1 (stagePages project target rest)

def readMove (answers : List Answer) : Heard :=
  let target := textArgument lib arguments "to"
  match b.stages with
  | none => .decided false false []
  | some _ => apiRead answers (fun document rest =>
    match projectView document with
    | .refused message => .unknown false message
    | .raised => .raised false
    | .found project =>
      match Backend.number lib arguments ["id","issue"] with
      | .error e => .unknown false e.text
      | .ok _ => stagePages project target rest)

end Operations

/-- `verify_broker`; `role` is the one of the request's session. -/
def verifyBroker (b : Backend) (lib : TextLibrary) (operation : String) (arguments : Fields) (role key : String)
    (answers : List Answer) : Except BackendError Heard := do
  let repo ← b.repo lib arguments
  return if operation = "pm.issue.create" then readCreate lib key answers
    else if operation = "pm.issue.comment" ∨ operation = "pr.comment" then readComment lib arguments key answers
    else if operation = "pm.issue.route" then readRoute lib arguments answers
    else if operation = "pm.issue.move" then readMove b lib arguments answers
    else if operation = "pm.issue.done" ∨ operation = "pm.issue.drop" then readClosed lib arguments key answers
    else if operation = "pr.create" then readPull lib arguments role key answers
    else if operation = "pr.update" then readUpdate lib arguments answers
    else if operation = "pr.review" then readReview lib arguments key answers
    else if operation = "repo.submit" then readSubmit lib repo role key answers
    else .unknown false ("no verifier for operation " ++ operation)

end Transport

namespace Heard
variable {incomplete present : Bool} {result : Fields} {message : String} {h : Heard}

def Unknown (h : Heard) : Prop := ∃ v ∈ h.outcome, v.proof = .unknown

/-- Where something is missing, the answer is not ABSENT: it is unknown. -/
theorem honest_iff : h.Honest ↔ (h.incomplete = true → h.Unknown) := by
  refine ⟨And.left,fun told => ⟨told,?_⟩⟩
  intro v given absent
  by_contra gap
  obtain ⟨w,same,unknown⟩ := told (by simpa using gap)
  rw [given] at same
  cases same
  rw [absent] at unknown
  cases unknown

theorem unknown_unknown : (unknown incomplete message).Unknown := ⟨_,rfl,rfl⟩

@[simp] theorem honest_unknown : (unknown incomplete message).Honest := honest_iff.mpr (fun _ => unknown_unknown)

theorem not_unknown_raised : ¬ (raised incomplete).Unknown := by
  rintro ⟨v,given,_⟩
  cases given

theorem not_unknown_decided : ¬ (decided incomplete present result).Unknown := by
  rintro ⟨v,given,unknown⟩
  cases given
  cases present <;> cases unknown

theorem not_unknown_proved (matches_ : List Fields) (own : Fields → Fields) :
    ¬ (Heard.mk incomplete (some (Verification.proved matches_ own))).Unknown := by
  rintro ⟨v,given,unknown⟩
  cases given
  match matches_ with
  | [] => cases unknown
  | [_] => cases unknown
  | _::_::_ => cases unknown

theorem honest_of_not_unknown (known : ¬ h.Unknown) : h.Honest ↔ h.incomplete = false := by
  rw [honest_iff,← Bool.not_eq_true]
  exact ⟨fun told gap => known (told gap),fun complete gap => absurd gap complete⟩

@[simp] theorem honest_raised : (raised incomplete).Honest ↔ incomplete = false :=
  honest_of_not_unknown not_unknown_raised

@[simp] theorem honest_decided : (decided incomplete present result).Honest ↔ incomplete = false :=
  honest_of_not_unknown not_unknown_decided

theorem honest_after : (after incomplete h).Honest ↔ h.Honest ∧ (incomplete = true → h.Unknown) := by
  rw [honest_iff,honest_iff]
  unfold after
  rw [Bool.or_eq_true]
  exact ⟨fun told => ⟨fun gap => told (.inr gap),fun gap => told (.inl gap)⟩,
    fun told gap => gap.elim told.2 told.1⟩

end Heard

namespace Transport
variable (b : Backend) (lib : TextLibrary) (arguments : Fields) (role key : String) (answers : List Answer)

/-! Which fields the answers must have. -/

/-- The fields on the way are there, as far as they are read. -/
def There (path : List String) (o : Fields) : Prop := (dig o path).1 = false

/-- `P` holds of the items up to the first that ends the walk. -/
def UpTo {T : Type} (goesOn P : T → Prop) (items : List T) : Prop :=
  ∀ front item back, items = front ++ item::back → (∀ x ∈ front, goesOn x) → P item

def listed : List Answer → Option (List Fields)
  | [] => none
  | answer::_ => (pageItems answer).toOption

/-- The issue that is read, and the answers behind it. -/
def received : List Answer → Option (Fields × List Answer)
  | .value (.obj issue)::rest => if Backend.isPull issue then none else some (issue,rest)
  | _ => none

/-- A document that is read as an object has the fields on the path. -/
def Filled (path : List String) : Answer → Prop
  | .failed _ => True
  | .empty => False
  | .value document => ∀ o ∈ orEmpty document, There path o

def shaOf : Answer → Option String
  | .value document => (orEmpty document).bind (fun ref => (dig ref ["object","sha"]).2.map (Json.textOr lib.render))
  | _ => none

def CreateTold : Prop :=
  ∀ items ∈ listed answers, ∀ item ∈ items, ¬ Backend.isPull item → Json.has item "body"

/-- Comments and reviews. -/
def BodiesTold (names : List String) : Prop :=
  ∀ n, Backend.number lib arguments names = .ok n → ∀ items ∈ listed answers, ∀ item ∈ items, Json.has item "body"

/-- Looking for the branch of a marked pull request is no attribute error. -/
def Headed (item : Fields) : Prop := Backend.bears lib key item → role ≠ "" → (dig item ["head","ref"]).2 ≠ none

def PullTold : Prop :=
  ∀ items ∈ listed answers, UpTo (Headed lib role key) (fun item =>
    Json.has item "body" ∧ (Backend.bears lib key item → role ≠ "" → There ["head","ref"] item)) items

def RouteTold : Prop :=
  ∀ n, Backend.number lib arguments ["id","issue"] = .ok n → 0 < n → ∀ found ∈ received answers,
    unlisted (Json.get found.1 "labels") = none →
      Json.has found.1 "labels" ∧
      (∀ values, Json.get found.1 "labels" = .arr values → ∀ label, .obj label ∈ values → Json.has label "name") ∧
      Json.has found.1 "body"

def ClosedTold : Prop :=
  ∀ n, Backend.number lib arguments ["id","issue"] = .ok n → 0 < n → ∀ found ∈ received answers,
    Json.has found.1 "number" → ∀ m, lib.int (Json.get found.1 "number") = .ok m → ∀ comments ∈ listed found.2,
      Json.has found.1 "state" ∧ UpTo (fun x => ¬ Backend.bears lib key x) (fun item => Json.has item "body") comments

def UpdateTold : Prop :=
  ∀ n, Backend.number lib arguments ["id","pr"] = .ok n → ∀ pull rest, answers = .value (.obj pull)::rest →
    (Json.has arguments "title" → Json.has pull "title") ∧
    (Json.has arguments "body" →
      (Json.has arguments "title" → textArgument lib pull "title" = (Json.get arguments "title").text lib.render) →
      Json.has pull "body")

def SubmitTold : Prop :=
  role ≠ "" → ∀ answer rest, answers = answer::rest →
    Filled ["object","sha"] answer ∧
    ∀ sha ∈ shaOf lib answer, sha ≠ "" → ∀ following ∈ rest.head?, Filled ["commit","message"] following

/-- The page is the last one that is read, and no error. -/
def Decides (project : Json) (answer : Answer) : Prop :=
  (answerView project answer).2 ≠ .next ∧ ∀ message, (answerView project answer).2 ≠ .refused message

/-- No field is missed in the pages up to one that decides. -/
def PagesTold (project : Json) (pages : List Answer) : Prop :=
  ∀ front answer back, pages = front ++ answer::back → (∀ page ∈ front, (answerView project page).2 = .next) →
    Decides project answer → ∀ page ∈ front ++ [answer], (answerView project page).1 = false

def MoveTold : Prop :=
  b.stages ≠ none → ∀ document rest, answers = .value document::rest → ∀ project, projectView document = .found project →
    ∀ n, Backend.number lib arguments ["id","issue"] = .ok n → PagesTold project rest

/-- What each operation needs of the answers. -/
def Told (operation : String) : Prop :=
  if operation = "pm.issue.create" then CreateTold answers
  else if operation = "pm.issue.comment" ∨ operation = "pr.comment" then BodiesTold lib arguments answers ["id","issue","pr"]
  else if operation = "pm.issue.route" then RouteTold lib arguments answers
  else if operation = "pm.issue.move" then MoveTold b lib arguments answers
  else if operation = "pm.issue.done" ∨ operation = "pm.issue.drop" then ClosedTold lib arguments key answers
  else if operation = "pr.create" then PullTold lib role key answers
  else if operation = "pr.update" then UpdateTold lib arguments answers
  else if operation = "pr.review" then BodiesTold lib arguments answers ["id","pr"]
  else if operation = "repo.submit" then SubmitTold lib role answers
  else True

variable {b lib arguments role key answers}

@[simp] theorem lacks_eq_false {o : Fields} {name : String} : lacks o name = false ↔ Json.has o name := by
  unfold lacks
  simp

theorem pagesRead_honest {use : List Fields → List Answer → Heard} {P : List Fields → List Answer → Prop}
    (each : ∀ items rest, (use items rest).Honest ↔ P items rest) :
    (pagesRead answers use).Honest ↔ ∀ items ∈ listed answers, P items answers.tail := by
  unfold pagesRead listed
  cases answers with
  | nil => simp [Heard.honest_unknown]
  | cons answer rest =>
    dsimp only
    cases read : pageItems answer with
    | error message => simp [Heard.honest_unknown,Except.toOption]
    | ok items => simp [each,Except.toOption]

theorem readCreate_honest : (readCreate lib key answers).Honest ↔ CreateTold answers := by
  unfold readCreate CreateTold
  refine pagesRead_honest (P := fun items _ => ∀ item ∈ items, ¬ Backend.isPull item → Json.has item "body") ?_
  intro items rest
  rw [Heard.honest_of_not_unknown (Heard.not_unknown_proved _ _)]
  simp

theorem bodiesRead_honest (own : Fields → Fields) :
    (pagesRead answers (fun items _ =>
      ⟨items.any (fun item => lacks item "body"),
        some (Verification.proved (items.filter (Backend.bears lib key)) own)⟩)).Honest ↔
      ∀ items ∈ listed answers, ∀ item ∈ items, Json.has item "body" := by
  refine pagesRead_honest (P := fun items _ => ∀ item ∈ items, Json.has item "body") ?_
  intro items rest
  rw [Heard.honest_of_not_unknown (Heard.not_unknown_proved _ _)]
  simp

theorem readComment_honest : (readComment lib arguments key answers).Honest ↔
    BodiesTold lib arguments answers ["id","issue","pr"] := by
  unfold readComment BodiesTold
  cases Backend.number lib arguments ["id","issue","pr"] with
  | error e => simp [Heard.honest_unknown]
  | ok n =>
    rw [bodiesRead_honest]
    simp

theorem readReview_honest : (readReview lib arguments key answers).Honest ↔
    BodiesTold lib arguments answers ["id","pr"] := by
  unfold readReview BodiesTold
  cases Backend.number lib arguments ["id","pr"] with
  | error e => simp [Heard.honest_unknown]
  | ok n =>
    rw [bodiesRead_honest]
    simp

theorem upTo_nil {T : Type} (goesOn P : T → Prop) : UpTo goesOn P [] := by
  intro front item back split
  cases front <;> cases split

theorem upTo_cons {T : Type} {goesOn P : T → Prop} {first : T} {rest : List T} :
    UpTo goesOn P (first::rest) ↔ P first ∧ (goesOn first → UpTo goesOn P rest) := by
  constructor
  · intro told
    refine ⟨told [] first rest rfl (by simp),?_⟩
    intro passed front item back split walked
    refine told (first::front) item back (congrArg (List.cons first) split) ?_
    exact List.forall_mem_cons.mpr ⟨passed,walked⟩
  · rintro ⟨here,later⟩ front item back split walked
    cases front with
    | nil =>
      cases split
      exact here
    | cons x front =>
      cases split
      obtain ⟨passed,walked⟩ := List.forall_mem_cons.mp walked
      exact later passed front item back rfl walked

theorem get_of_lacks {o : Fields} {name : String} (gone : lacks o name = true) : Json.get o name = .null := by
  have absent : ¬ Json.has o name := by simpa [lacks] using gone
  have unfound : o.find? (fun field => field.1 = name) = none := by
    rw [List.find?_eq_none]
    intro field member
    simpa using fun same => absent ⟨field,member,same⟩
  unfold Json.get
  rw [unfound]
  rfl

theorem dig_nil (name : String) (rest : List String) : dig [] (name::rest) = (true,some .null) := by
  induction rest generalizing name with
  | nil => rfl
  | cons second others ih =>
    rw [dig]
    · have inner : orEmpty (Json.get [] name) = some [] := rfl
      rw [inner]
      dsimp only
      rw [ih second,Bool.or_true]
    · simp

theorem there_of_error {o : Fields} {path : List String} (error : (dig o path).2 = none) : There path o := by
  unfold There
  induction path generalizing o with
  | nil => rfl
  | cons name rest ih =>
    cases rest with
    | nil => cases error
    | cons second others =>
      rw [dig] at error ⊢
      · cases inner : orEmpty (Json.get o name) with
        | none => rfl
        | some fields =>
          rw [inner] at error
          dsimp only at error ⊢
          rw [ih error,Bool.or_false]
          by_contra gone
          rw [get_of_lacks (Bool.not_eq_false _ ▸ gone)] at inner
          cases inner
          rw [dig_nil] at error
          cases error
      · simp
      · simp

theorem pullMatches_told (branch : String) (items : List Fields) :
    (pullMatches lib role key branch items).1 = false ↔ UpTo (Headed lib role key) (fun item =>
      Json.has item "body" ∧ (Backend.bears lib key item → role ≠ "" → There ["head","ref"] item)) items := by
  induction items with
  | nil => exact ⟨fun _ => upTo_nil _ _,fun _ => rfl⟩
  | cons first rest ih =>
    rw [upTo_cons,← ih,pullMatches]
    unfold Headed
    cases Backend.bears lib key first with
    | false => simp
    | true =>
      by_cases unbound : role = ""
      · simp [unbound]
      · have there : There ["head","ref"] first ↔ (dig first ["head","ref"]).1 = false := Iff.rfl
        have error := @there_of_error first ["head","ref"]
        simp only [if_true,forall_const,ne_eq,unbound,not_false_eq_true]
        cases read : dig first ["head","ref"] with
        | mk gap value =>
          rw [read] at there error
          cases value with
          | none => simp [error rfl]
          | some ref => simp [there,and_assoc]

theorem readPull_honest : (readPull lib arguments role key answers).Honest ↔ PullTold lib role key answers := by
  unfold readPull PullTold
  refine pagesRead_honest (P := fun items _ => UpTo (Headed lib role key) (fun item =>
      Json.has item "body" ∧ (Backend.bears lib key item → role ≠ "" → There ["head","ref"] item)) items) ?_
  intro items rest
  rw [← pullMatches_told ("agent/" ++ role ++ "/" ++ formatted lib arguments "topic")]
  refine Heard.honest_of_not_unknown ?_
  dsimp only
  cases (pullMatches lib role key ("agent/" ++ role ++ "/" ++ formatted lib arguments "topic") items).2 with
  | none => exact Heard.not_unknown_raised
  | some pulls => exact Heard.not_unknown_proved _ _

theorem issueRead_honest {use : Fields → List Answer → Heard} {P : Fields × List Answer → Prop}
    (each : ∀ issue rest, (use issue rest).Honest ↔ P (issue,rest)) :
    (issueRead lib arguments answers use).Honest ↔
      ∀ n, Backend.number lib arguments ["id","issue"] = .ok n → 0 < n → ∀ found ∈ received answers, P found := by
  unfold issueRead
  cases Backend.number lib arguments ["id","issue"] with
  | error e => simp [Heard.honest_unknown]
  | ok n =>
    dsimp only
    by_cases small : n ≤ 0
    · rw [if_pos small]
      refine ⟨?_,fun _ => Heard.honest_unknown⟩
      intro _ m same positive
      cases same
      omega
    rw [if_neg small]
    have positive : 0 < n := by omega
    have known : (∀ m, Except.ok (ε := BackendError) n = .ok m → 0 < m → ∀ found ∈ received answers, P found) ↔
        ∀ found ∈ received answers, P found := by
      refine ⟨fun told => told n rfl positive,?_⟩
      intro told m same _
      exact told
    rw [known]
    unfold apiRead received
    match answers with
    | [] => simp [Heard.honest_unknown]
    | .failed message::_ => simp [Heard.honest_unknown]
    | .empty::_ => simp [Heard.honest_after,Heard.honest_unknown,Heard.unknown_unknown]
    | .value (.obj issue)::rest =>
      dsimp only
      cases Backend.isPull issue with
      | true => simp [Heard.honest_unknown]
      | false => simp [each]
    | .value .null::_ => simp [Heard.honest_unknown]
    | .value (.bool _)::_ => simp [Heard.honest_unknown]
    | .value (.int _)::_ => simp [Heard.honest_unknown]
    | .value (.float _)::_ => simp [Heard.honest_unknown]
    | .value (.str _)::_ => simp [Heard.honest_unknown]
    | .value (.arr _)::_ => simp [Heard.honest_unknown]

theorem labelGap_told {issue : Fields} : labelGap issue = false ↔ Json.has issue "labels" ∧
    ∀ values, Json.get issue "labels" = .arr values → ∀ label, .obj label ∈ values → Json.has label "name" := by
  unfold labelGap
  split
  next values given =>
    have there : Json.has issue "labels" := by
      by_contra absent
      rw [get_of_lacks (by simpa [lacks] using absent)] at given
      cases given
    rw [List.any_eq_false]
    constructor
    · intro told
      refine ⟨there,?_⟩
      intro same equal label member
      cases given.symm.trans equal
      simpa using told _ member
    · intro told value member
      split
      next label => simpa using told.2 values given label member
      next => simp
  next other =>
    rw [lacks_eq_false]
    exact ⟨fun there => ⟨there,fun values given => absurd given (other values)⟩,And.left⟩

theorem readRoute_honest : (readRoute lib arguments answers).Honest ↔ RouteTold lib arguments answers := by
  unfold readRoute RouteTold
  refine issueRead_honest (P := fun found => unlisted (Json.get found.1 "labels") = none →
      Json.has found.1 "labels" ∧
      (∀ values, Json.get found.1 "labels" = .arr values → ∀ label, .obj label ∈ values → Json.has label "name") ∧
      Json.has found.1 "body") ?_
  intro issue rest
  dsimp only
  cases unlisted (Json.get issue "labels") with
  | some message => simp [Heard.honest_unknown]
  | none =>
    simp only [forall_const,Heard.honest_decided,Bool.or_eq_false_iff,lacks_eq_false]
    rw [labelGap_told,and_assoc]

theorem marked_told (comments : List Fields) :
    (marked lib key comments).1 = false ↔
      UpTo (fun x => ¬ Backend.bears lib key x) (fun item => Json.has item "body") comments := by
  induction comments with
  | nil => exact ⟨fun _ => upTo_nil _ _,fun _ => rfl⟩
  | cons first rest ih =>
    rw [upTo_cons,← ih,marked]
    cases Backend.bears lib key first <;> simp

theorem readClosed_honest : (readClosed lib arguments key answers).Honest ↔ ClosedTold lib arguments key answers := by
  unfold readClosed ClosedTold
  refine issueRead_honest (P := fun found => Json.has found.1 "number" → ∀ m, lib.int (Json.get found.1 "number") = .ok m →
    ∀ comments ∈ listed found.2, Json.has found.1 "state" ∧
      UpTo (fun x => ¬ Backend.bears lib key x) (fun item => Json.has item "body") comments) ?_
  intro issue rest
  dsimp only
  cases numbered : lacks issue "number" with
  | true =>
    have absent : ¬ Json.has issue "number" := by simpa [lacks] using numbered
    simp [absent,Heard.honest_unknown]
  | false =>
    have there := lacks_eq_false.mp numbered
    cases lib.int (Json.get issue "number") with
    | error message => simp [Heard.honest_unknown]
    | ok m =>
      have pages : (pagesRead rest (fun comments _ => .decided ((marked lib key comments).1 || lacks issue "state")
            (isText (Json.get issue "state") "closed" && (marked lib key comments).2)
            [("number",Json.get issue "number"),("state",Json.get issue "state")])).Honest ↔
          ∀ comments ∈ listed rest, Json.has issue "state" ∧
            UpTo (fun x => ¬ Backend.bears lib key x) (fun item => Json.has item "body") comments := by
        refine pagesRead_honest (P := fun comments _ => Json.has issue "state" ∧
            UpTo (fun x => ¬ Backend.bears lib key x) (fun item => Json.has item "body") comments) ?_
        intro comments _
        rw [Heard.honest_decided,← marked_told,and_comm,Bool.or_eq_false_iff,lacks_eq_false]
      simp only [Bool.false_eq_true,if_false,pages,there,forall_const,Except.ok.injEq,forall_eq']

theorem agrees_told (pull : Fields) :
    (agrees lib arguments pull ["title","body"]).1 = false ↔
      (Json.has arguments "title" → Json.has pull "title") ∧
      (Json.has arguments "body" →
        (Json.has arguments "title" → textArgument lib pull "title" = (Json.get arguments "title").text lib.render) →
        Json.has pull "body") := by
  have body : (agrees lib arguments pull ["body"]).1 = false ↔ (Json.has arguments "body" → Json.has pull "body") := by
    unfold agrees
    by_cases asked : Json.has arguments "body"
    · rw [if_pos asked]
      split <;> simp [asked,agrees]
    · simp [asked,agrees]
  rw [agrees]
  by_cases asked : Json.has arguments "title"
  · rw [if_pos asked]
    by_cases same : textArgument lib pull "title" = (Json.get arguments "title").text lib.render
    · rw [if_pos same,Bool.or_eq_false_iff,lacks_eq_false,body]
      simp [asked,same]
    · rw [if_neg same,lacks_eq_false]
      simp [asked,same]
  · rw [if_neg asked,body]
    simp [asked]

theorem readUpdate_honest : (readUpdate lib arguments answers).Honest ↔ UpdateTold lib arguments answers := by
  unfold readUpdate UpdateTold
  cases Backend.number lib arguments ["id","pr"] with
  | error e => simp [Heard.honest_unknown]
  | ok n =>
    dsimp only
    unfold apiRead
    match answers with
    | [] => simp [Heard.honest_unknown]
    | .failed message::_ => simp [Heard.honest_unknown]
    | .empty::_ => simp [Heard.honest_after,Heard.honest_unknown,Heard.unknown_unknown]
    | .value (.obj pull)::rest =>
      dsimp only
      rw [Heard.honest_decided,agrees_told]
      simp
    | .value .null::_ => simp [Heard.honest_unknown]
    | .value (.bool _)::_ => simp [Heard.honest_unknown]
    | .value (.int _)::_ => simp [Heard.honest_unknown]
    | .value (.float _)::_ => simp [Heard.honest_unknown]
    | .value (.str _)::_ => simp [Heard.honest_unknown]
    | .value (.arr _)::_ => simp [Heard.honest_unknown]

theorem dig_of_gap {o : Fields} {path : List String} (gap : ¬ There path o) : (dig o path).2 = some .null := by
  unfold There at gap
  induction path generalizing o with
  | nil => exact absurd rfl gap
  | cons name rest ih =>
    cases rest with
    | nil => exact congrArg some (get_of_lacks (Bool.not_eq_false _ ▸ gap))
    | cons second others =>
      rw [dig] at gap ⊢
      · cases inner : orEmpty (Json.get o name) with
        | none =>
          rw [inner] at gap
          exact absurd rfl gap
        | some fields =>
          rw [inner] at gap
          dsimp only at gap ⊢
          by_cases gone : lacks o name = true
          · rw [get_of_lacks gone] at inner
            cases inner
            rw [dig_nil]
          · rw [eq_false_of_ne_true gone,Bool.false_or] at gap
            exact ih gap
      · simp
      · simp

theorem readCommit_honest (repo : Repository) (sha : String) : (readCommit lib repo key sha answers).Honest ↔
    ∀ following ∈ answers.head?, Filled ["commit","message"] following := by
  unfold readCommit apiRead
  match answers with
  | [] => simp [Heard.honest_unknown]
  | .failed message::_ => simp [Heard.honest_unknown,Filled]
  | .empty::_ =>
    have silent : ¬ (match orEmpty .null with
      | none => Heard.raised false
      | some commit =>
        match dig commit ["commit","message"] with
        | (gap,none) => .raised gap
        | (gap,some message) =>
          .decided gap (contains (message.textOr lib.render) ("SJG-Idempotency: " ++ key))
            [("repository",.str repo.slug),("sha",.str sha)]).Unknown := Heard.not_unknown_decided
    simp [Heard.honest_after,Filled,silent]
  | .value document::rest =>
    simp only [List.head?_cons,Option.mem_def,Option.some.injEq,forall_eq',Filled,There]
    cases orEmpty document with
    | none => simp [Heard.honest_raised]
    | some commit =>
      simp only [Option.some.injEq,forall_eq']
      cases dig commit ["commit","message"] with
      | mk gap value =>
        cases value with
        | none => exact Heard.honest_raised
        | some message => exact Heard.honest_decided

/-- A reference that names no commit is answered ABSENT. -/
theorem readSubmit_honest (repo : Repository) : (readSubmit lib repo role key answers).Honest ↔
    SubmitTold lib role answers := by
  unfold readSubmit SubmitTold
  by_cases unbound : role = ""
  · simp [unbound,Heard.honest_unknown]
  rw [if_neg unbound]
  unfold apiRead
  match answers with
  | [] => simp [Heard.honest_unknown]
  | .failed message::_ => simp [Heard.honest_unknown,Filled,shaOf]
  | .empty::_ =>
    have silent : ¬ (Heard.decided true false []).Unknown := Heard.not_unknown_decided
    simp [Heard.honest_after,Filled,orEmpty,Json.truthy,dig_nil,Json.textOr,silent,unbound]
  | .value document::rest =>
    have only : (∀ answer others, Answer.value document::rest = answer::others →
        Filled ["object","sha"] answer ∧ ∀ sha ∈ shaOf lib answer, sha ≠ "" →
          ∀ following ∈ others.head?, Filled ["commit","message"] following) ↔
        Filled ["object","sha"] (.value document) ∧ ∀ sha ∈ shaOf lib (.value document), sha ≠ "" →
          ∀ following ∈ rest.head?, Filled ["commit","message"] following := by
      refine ⟨fun told => told _ _ rfl,?_⟩
      intro told answer others same
      cases same
      exact told
    rw [only]
    simp only [ne_eq,unbound,not_false_eq_true,forall_const,shaOf]
    cases inner : orEmpty document with
    | none => simp [Heard.honest_raised,Filled,inner]
    | some ref =>
      dsimp only
      have missing := @dig_of_gap ref ["object","sha"]
      unfold There at missing
      cases read : dig ref ["object","sha"] with
      | mk gap value =>
        rw [read] at missing
        cases value with
        | none => simp [Heard.honest_raised,Filled,There,inner,read]
        | some value =>
          dsimp only
          by_cases named : value.textOr lib.render = ""
          · rw [if_pos named,Heard.honest_decided]
            simp [Filled,There,inner,read,named]
          · rw [if_neg named,Heard.honest_after,readCommit_honest]
            have complete : gap = false := by
              by_contra gone
              cases missing gone
              exact named rfl
            simp [Filled,There,inner,read,named,complete]

/-- One of the pages is read last, and decides. -/
def Ends (project : Json) (pages : List Answer) : Prop :=
  ∃ front answer back, pages = front ++ answer::back ∧ (∀ page ∈ front, (answerView project page).2 = .next) ∧
    Decides project answer

section Pages
variable {project : Json} {first : Answer} {rest : List Answer}

theorem ends_stop (stop : (answerView project first).2 ≠ .next) :
    Ends project (first::rest) ↔ Decides project first := by
  constructor
  · rintro ⟨front,answer,back,split,walked,decides⟩
    cases front with
    | nil =>
      cases split
      exact decides
    | cons x front =>
      cases split
      exact absurd (walked _ List.mem_cons_self) stop
  · intro decides
    exact ⟨[],first,rest,rfl,by simp,decides⟩

theorem ends_next (next_ : (answerView project first).2 = .next) : Ends project (first::rest) ↔ Ends project rest := by
  constructor
  · rintro ⟨front,answer,back,split,walked,decides⟩
    cases front with
    | nil =>
      cases split
      exact absurd next_ decides.1
    | cons x front =>
      cases split
      exact ⟨front,answer,back,rfl,fun page member => walked page (List.mem_cons_of_mem _ member),decides⟩
  · rintro ⟨front,answer,back,split,walked,decides⟩
    exact ⟨first::front,answer,back,congrArg (List.cons first) split,List.forall_mem_cons.mpr ⟨next_,walked⟩,decides⟩

theorem pagesTold_stop (stop : (answerView project first).2 ≠ .next) :
    PagesTold project (first::rest) ↔ (Decides project first → (answerView project first).1 = false) := by
  constructor
  · intro told decides
    exact told [] first rest rfl (by simp) decides first (by simp)
  · intro told front answer back split walked decides
    cases front with
    | nil =>
      cases split
      simpa using told decides
    | cons x front =>
      cases split
      exact absurd (walked _ List.mem_cons_self) stop

theorem pagesTold_next (next_ : (answerView project first).2 = .next) :
    PagesTold project (first::rest) ↔
      PagesTold project rest ∧ (Ends project rest → (answerView project first).1 = false) := by
  constructor
  · intro told
    have later {front : List Answer} {answer : Answer} {back : List Answer} (split : rest = front ++ answer::back)
        (walked : ∀ page ∈ front, (answerView project page).2 = .next) (decides : Decides project answer) :=
      told (first::front) answer back (congrArg (List.cons first) split) (List.forall_mem_cons.mpr ⟨next_,walked⟩) decides
    refine ⟨?_,?_⟩
    · intro front answer back split walked decides page member
      exact later split walked decides page (List.mem_cons_of_mem _ member)
    · rintro ⟨front,answer,back,split,walked,decides⟩
      exact later split walked decides first List.mem_cons_self
  · rintro ⟨told,here⟩ front answer back split walked decides
    cases front with
    | nil =>
      cases split
      exact absurd next_ decides.1
    | cons x front =>
      cases split
      obtain ⟨_,walked⟩ := List.forall_mem_cons.mp walked
      refine List.forall_mem_cons.mpr ⟨here ⟨front,answer,back,rfl,walked,decides⟩,?_⟩
      exact told front answer back rfl walked decides

end Pages

/-- The stage stays unknown exactly where no page decides. -/
theorem stagePages_unknown (project : Json) (target : String) (pages : List Answer) :
    (stagePages project target pages).Unknown ↔ ¬ Ends project pages := by
  induction pages with
  | nil =>
    refine ⟨?_,fun _ => Heard.unknown_unknown⟩
    rintro _ ⟨front,answer,back,split,_⟩
    simp at split
  | cons first rest ih =>
    rw [stagePages]
    by_cases follows : (answerView project first).2 = .next
    · rw [ends_next follows,← ih,follows]
      rfl
    · rw [ends_stop follows]
      unfold Decides
      cases view : (answerView project first).2 with
      | refused message => simp [Heard.unknown_unknown]
      | raised => simp [Heard.not_unknown_raised]
      | found stage => simp [Heard.not_unknown_decided]
      | last => simp [Heard.not_unknown_decided]
      | next => exact absurd view follows

theorem stagePages_honest (project : Json) (target : String) (pages : List Answer) :
    (stagePages project target pages).Honest ↔ PagesTold project pages := by
  induction pages with
  | nil =>
    refine ⟨?_,fun _ => Heard.honest_unknown⟩
    intro _ front answer back split
    simp at split
  | cons first rest ih =>
    rw [stagePages]
    by_cases follows : (answerView project first).2 = .next
    · rw [pagesTold_next follows,← ih,follows]
      dsimp only
      rw [Heard.honest_after,stagePages_unknown,← Bool.not_eq_true,imp_not_comm]
    · rw [pagesTold_stop follows]
      unfold Decides
      cases view : (answerView project first).2 with
      | refused message => simp [Heard.honest_unknown]
      | raised => simp [Heard.honest_raised]
      | found stage => simp [Heard.honest_decided]
      | last => simp [Heard.honest_decided]
      | next => exact absurd view follows

theorem readMove_honest : (readMove b lib arguments answers).Honest ↔ MoveTold b lib arguments answers := by
  unfold readMove MoveTold
  cases b.stages with
  | none => simp [Heard.honest_decided]
  | some _ =>
    dsimp only
    unfold apiRead
    match answers with
    | [] => simp [Heard.honest_unknown]
    | .failed message::_ => simp [Heard.honest_unknown]
    | .empty::_ =>
      have refused : projectView .null = .refused "configured Project or Status field was not found" := rfl
      simp [Heard.honest_after,refused,Heard.honest_unknown,Heard.unknown_unknown]
    | .value document::rest =>
      dsimp only
      cases view : projectView document with
      | refused message => simp [Heard.honest_unknown,view]
      | raised => simp [Heard.honest_raised,view]
      | found project =>
        dsimp only
        cases Backend.number lib arguments ["id","issue"] with
        | error e => simp [Heard.honest_unknown]
        | ok n =>
          dsimp only
          rw [stagePages_honest]
          simp [view]

/-- The verifier keeps its word exactly on answers that have the fields it needs. -/
theorem verifyBroker_honest_iff (b : Backend) (lib : TextLibrary) (operation : String) (arguments : Fields)
    (role key : String) (answers : List Answer) :
    (∀ h, verifyBroker b lib operation arguments role key answers = .ok h → h.Honest) ↔
      ∀ repo, b.repo lib arguments = .ok repo → Told b lib arguments role key answers operation := by
  unfold verifyBroker
  cases b.repo lib arguments with
  | error e => exact ⟨fun _ repo none_ => (by cases none_),fun _ h none_ => (by cases none_)⟩
  | ok repo =>
    have each (h : Heard) : (∀ given, (Except.ok (ε := BackendError) repo >>= fun _ => pure h) = .ok given → given.Honest) ↔
        h.Honest := by
      refine ⟨fun told => told h rfl,?_⟩
      intro honest given same
      cases pure_ok.mp same
      exact honest
    have only : (∀ r, Except.ok (ε := BackendError) repo = .ok r → Told b lib arguments role key answers operation) ↔
        Told b lib arguments role key answers operation :=
      ⟨fun told => told repo rfl,fun told _ _ => told⟩
    rw [only]
    refine (each _).trans ?_
    unfold Told
    by_cases create : operation = "pm.issue.create"
    · rw [if_pos create,if_pos create]
      exact readCreate_honest
    rw [if_neg create,if_neg create]
    by_cases note : operation = "pm.issue.comment" ∨ operation = "pr.comment"
    · rw [if_pos note,if_pos note]
      exact readComment_honest
    rw [if_neg note,if_neg note]
    by_cases route : operation = "pm.issue.route"
    · rw [if_pos route,if_pos route]
      exact readRoute_honest
    rw [if_neg route,if_neg route]
    by_cases move : operation = "pm.issue.move"
    · rw [if_pos move,if_pos move]
      exact readMove_honest
    rw [if_neg move,if_neg move]
    by_cases close : operation = "pm.issue.done" ∨ operation = "pm.issue.drop"
    · rw [if_pos close,if_pos close]
      exact readClosed_honest
    rw [if_neg close,if_neg close]
    by_cases pull : operation = "pr.create"
    · rw [if_pos pull,if_pos pull]
      exact readPull_honest
    rw [if_neg pull,if_neg pull]
    by_cases update : operation = "pr.update"
    · rw [if_pos update,if_pos update]
      exact readUpdate_honest
    rw [if_neg update,if_neg update]
    by_cases review : operation = "pr.review"
    · rw [if_pos review,if_pos review]
      exact readReview_honest
    rw [if_neg review,if_neg review]
    by_cases submit : operation = "repo.submit"
    · rw [if_pos submit,if_pos submit]
      exact readSubmit_honest repo
    rw [if_neg submit,if_neg submit]
    exact iff_of_true Heard.honest_unknown trivial

/-- The branch of a submission is read with an empty reply. -/
theorem empty_reference_absent :
    ∃ h, verifyBroker Served.plannerBackend Served.quietLibrary "repo.submit" [("repository",.str "product"),("topic",.str "invoices")]
        "commercial-planner" "planner-submit-0001" [.empty] = .ok h ∧
      h.incomplete = true ∧ h.outcome = some ⟨.absent,none,none⟩ ∧ ¬ h.Honest := by
  refine ⟨⟨true,some ⟨.absent,none,none⟩⟩,rfl,rfl,rfl,?_⟩
  intro honest
  have complete := honest.2 _ rfl rfl
  cases complete

/-! On the page lists that a remote serves, this is the verifier of `Backend.verifyBroker`. -/

def served (items : List Fields) : Answer := .value (.arr [.arr (items.map .obj)])

theorem pageItems_served (items : List Fields) : pageItems (served items) = .ok items := by
  have page : objects (items.map .obj) = .ok items := by
    induction items with
    | nil => rfl
    | cons item rest ih =>
      simp only [List.map_cons,objects,ih]
      rfl
  have whole : flattened [.arr (items.map .obj)] = .ok (items ++ []) := by
    unfold flattened
    rw [page]
    rfl
  rw [List.append_nil] at whole
  exact whole

theorem pagesRead_served (items : List Fields) (use : List Fields → List Answer → Heard) :
    pagesRead [served items] use = use items [] := by
  unfold pagesRead
  simp only [pageItems_served]

theorem pullMatches_served (branch : String) (items : List Fields)
    (heads : ∀ item ∈ items, ∃ head, Json.get item "head" = .obj head) :
    (pullMatches lib role key branch items).2 = some (items.filter (fun item =>
      Backend.bears lib key item && (decide (role = "") || decide (Backend.headRef lib item = branch)))) := by
  induction items with
  | nil => rfl
  | cons item rest ih =>
    obtain ⟨⟨head,given⟩,later⟩ := List.forall_mem_cons.mp heads
    have read : dig item ["head","ref"] = (lacks item "head" || lacks head "ref",some (Json.get head "ref")) := by
      simp [dig,given,orEmpty]
    have ref : Backend.headRef lib item = (Json.get head "ref").textOr lib.render := by
      unfold Backend.headRef
      rw [given]
      rfl
    rw [pullMatches,List.filter_cons,ih later]
    cases Backend.bears lib key item with
    | false => simp
    | true =>
      by_cases unbound : role = ""
      · simp [unbound]
      · simp only [if_true,read,ref,unbound,if_false,decide_false,Bool.false_or,Bool.true_and,decide_eq_true_eq]
        by_cases here : (Json.get head "ref").textOr lib.render = branch
        · rw [if_pos here,if_pos here]
          rfl
        · rw [if_neg here,if_neg here]

def firstList (lib : TextLibrary) (remote : GitHub) (slug operation : String) (arguments : Fields) : List Fields :=
  if operation = "pm.issue.create" then remote.listedIssues slug
  else if operation = "pm.issue.comment" ∨ operation = "pr.comment" then
    ((Backend.number lib arguments ["id","issue","pr"]).toOption.map (remote.comments slug)).getD []
  else if operation = "pr.create" then remote.pulls slug
  else ((Backend.number lib arguments ["id","pr"]).toOption.map (remote.reviews slug)).getD []

theorem verifyBroker_served {remote : GitHub} {operation : String} {repo : Repository} {v : Verification}
    (marked_ : operation ∈ Backend.marked) (known : b.repo lib arguments = .ok repo)
    (heads : ∀ item ∈ remote.pulls repo.slug, ∃ head, Json.get item "head" = .obj head)
    (ok : b.verifyBroker lib remote operation arguments role key = .ok v) :
    ∃ h, verifyBroker b lib operation arguments role key [served (firstList lib remote repo.slug operation arguments)] =
      .ok h ∧ h.outcome = some v := by
  unfold Backend.verifyBroker at ok
  unfold verifyBroker firstList
  rw [known] at ok ⊢
  rcases List.mem_cons.mp marked_ with rfl | marked_
  · cases ok
    exact ⟨_,rfl,by simp [readCreate,pagesRead_served]⟩
  have noted (names : List String) (own : Fields → Fields) (lists : Int → List Fields)
      (told : (match Backend.number lib arguments names with
        | .error e => undecided e
        | .ok number => proved ((lists number).filter (Backend.bears lib key)) own) = v) :
      (match Backend.number lib arguments names with
        | .error e => Heard.unknown false e.text
        | .ok _ => pagesRead [served (((Backend.number lib arguments names).toOption.map lists).getD [])] (fun items _ =>
          ⟨items.any (fun item => lacks item "body"),
            some (proved (items.filter (Backend.bears lib key)) own)⟩)).outcome = some v := by
    cases read : Backend.number lib arguments names with
    | error e =>
      rw [read] at told
      exact congrArg some told
    | ok n =>
      rw [read] at told
      simp only [pagesRead_served]
      exact congrArg some told
  rcases List.mem_cons.mp marked_ with rfl | marked_
  · exact ⟨_,rfl,noted _ _ _ (pure_ok.mp ok)⟩
  rcases List.mem_cons.mp marked_ with rfl | marked_
  · cases ok
    refine ⟨_,rfl,?_⟩
    simp [readPull,pagesRead_served,pullMatches_served _ _ heads]
  rcases List.mem_cons.mp marked_ with rfl | marked_
  · exact ⟨_,rfl,noted _ _ _ (pure_ok.mp ok)⟩
  cases List.mem_singleton.mp marked_
  exact ⟨_,rfl,noted _ _ _ (pure_ok.mp ok)⟩

end Transport
end SjgControl

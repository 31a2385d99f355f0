import SjgControl.Authorize
import SjgControl.JsonText
import SjgControl.Broker

/-! The backend's facts and writes for the operations that mark what they write with their
key. The remote is a collection of JSON objects for each resource; GitHub answers a write
with the id, the number and the address it gives the new object. -/
namespace SjgControl
open Relational PythonText

inductive BackendError where
  | gitHub (message : String)
  | policy (message : String)
  | keyError (name : String)
  | valueError (message : String)
  deriving DecidableEq

def BackendError.text : BackendError → String
  | .gitHub message | .policy message | .valueError message => message
  | .keyError name => "'" ++ name ++ "'"

/-- A record of the policy; its alias is the key it is kept under. -/
structure Repository where
  slug : String
  defaultBranch : String

/-- `stages` are the options of the project's status field. Every repository a role may work
in is known, as `compile_policy` makes sure. -/
structure Backend where
  policy : OrganizationPolicy
  repositories : List (String × Repository)
  stages : Option (List String)
  known : ∀ role ∈ policy.roles, ∀ alias_ ∈ role.2.repositories, ∃ repo, lookup repositories alias_ = some repo

/-- What GitHub keeps, by the slug of the repository and the number of the issue. -/
structure GitHub where
  issues : String → List Fields
  pulls : String → List Fields
  comments : String → Int → List Fields
  reviews : String → Int → List Fields
  links : List (String × Int × Json)
  moves : List (String × Int × String)

structure Assigned where
  id : Int
  number : Int
  url : String

namespace GitHub

def empty : GitHub := ⟨fun _ => [],fun _ => [],fun _ _ => [],fun _ _ => [],[],[]⟩

/-- A pull request as the issues API lists it. -/
def asIssue (pull : Fields) : Fields := ("pull_request",.obj [("url",Json.get pull "html_url")])::pull

/-- `repos/{slug}/issues?state=all&per_page=100`, all pages. -/
def listedIssues (remote : GitHub) (slug : String) : List Fields :=
  remote.issues slug ++ (remote.pulls slug).map asIssue

def numbered (items : List Fields) (number : Int) : Option Fields :=
  items.find? (fun item => match Json.get item "number" with
    | .int n => n = number
    | _ => false)

def push {K : Type} [DecidableEq K] (lists : K → List Fields) (key : K) (item : Fields) : K → List Fields :=
  fun k => if k = key then lists k ++ [item] else lists k

def addIssue (remote : GitHub) (slug : String) (item : Fields) : GitHub :=
  {remote with issues := push remote.issues slug item}

def addPull (remote : GitHub) (slug : String) (item : Fields) : GitHub :=
  {remote with pulls := push remote.pulls slug item}

def addComment (remote : GitHub) (slug : String) (number : Int) (item : Fields) : GitHub :=
  {remote with comments := fun s => if s = slug then push (remote.comments s) number item else remote.comments s}

def addReview (remote : GitHub) (slug : String) (number : Int) (item : Fields) : GitHub :=
  {remote with reviews := fun s => if s = slug then push (remote.reviews s) number item else remote.reviews s}

end GitHub

/-- `str(item.get("body") or "")`. -/
def bodyOf (lib : TextLibrary) (item : Fields) : String := textArgument lib item "body"

def markerOf (key : String) : String := "<!-- sjg-idempotency:" ++ key ++ " -->"

def idempotentBody (body key : String) : String :=
  if contains body (markerOf key) then body else markerOf key ++ "\n" ++ body

/-- What the greedy `[^\n]+\} -->` leaves of a line behind `\x7b`. -/
def behindItem : List Char → Option (List Char)
  | [] => none
  | _::rest =>
    match behindItem rest with
    | some behind => some behind
    | none => if "\x7d -->".toList <+: rest then some (rest.drop 5) else none

/-- What `re.sub` leaves of a line that starts with an item comment. -/
def withoutItem (line : List Char) : Option (List Char) :=
  if "<!-- sjg-item:\x7b".toList <+: line then behindItem (line.drop 15) else none

/-- A comment that fills its line goes with the line's end. -/
def removeItems : List (List Char) → List Char
  | [] => []
  | line::rest =>
    match withoutItem line,rest with
    | none,[] => line
    | some behind,[] => behind
    | some [],rest => removeItems rest
    | some behind,rest => behind ++ '\n'::removeItems rest
    | none,rest => line ++ '\n'::removeItems rest

def itemMetadata (ownerRole kind : String) : String :=
  String.ofList ("\x7b\"kind\":".toList ++ JsonText.text kind ++ ",\"owner_role\":".toList ++ JsonText.text ownerRole ++
    ",\"schema\":\"sjg.item/v1\"\x7d".toList)

def bodyWithMetadata (body ownerRole kind : String) : String :=
  let stripped := lstrip (String.ofList (removeItems (lines body.toList)))
  "<!-- sjg-item:" ++ itemMetadata ownerRole kind ++ " -->\n" ++ (if stripped = "" then "—" else stripped)

/-- The object of a line that is an item comment as a whole. -/
def itemObject (line : List Char) : Option (List Char) :=
  if "<!-- sjg-item:\x7b".toList <+: line ∧ "\x7d -->".toList <:+ line ∧ 21 ≤ line.length then
    some ((line.drop 14).take (line.length - 18))
  else none

def metadata (lib : TextLibrary) (issue : Fields) : Option Fields :=
  match (lines (bodyOf lib issue).toList).findSome? itemObject with
  | none => none
  | some object =>
    match lib.loads (String.ofList object) with
    | some (.obj value) =>
      match Json.get value "schema" with
      | .str "sjg.item/v1" => some value
      | _ => none
    | _ => none

namespace Backend

def repository (b : Backend) (alias_ : String) : Except BackendError Repository :=
  fetch (lookup b.repositories alias_) (.policy ("unknown repository alias: " ++ alias_))

def alias_ (lib : TextLibrary) (arguments : Fields) : String :=
  let given := Json.get arguments "repository"
  if given.truthy then given.text lib.render else "org"

def repo (b : Backend) (lib : TextLibrary) (arguments : Fields) : Except BackendError Repository :=
  b.repository (alias_ lib arguments)

/-- `int(arguments.get(first) or … or 0)`. -/
def number (lib : TextLibrary) (arguments : Fields) (names : List String) : Except BackendError Int :=
  (lib.int (((names.map (Json.get arguments)).find? Json.truthy).getD (.int 0))).mapError .valueError

/-- `arguments[name]`. -/
def required (arguments : Fields) (name : String) : Except BackendError Json :=
  if Json.has arguments name then .ok (Json.get arguments name) else .error (.keyError name)

def issueAt (remote : GitHub) (slug : String) (number : Int) : Except BackendError Fields := do
  require (0 < number) (.gitHub "positive issue id is required")
  let issue ← fetch (GitHub.numbered (remote.listedIssues slug) number) (.gitHub "gh: Not Found (HTTP 404)")
  require (¬ (Json.get issue "pull_request").truthy) (.gitHub "target issue is absent or is a pull request")
  return issue

def issue (b : Backend) (lib : TextLibrary) (remote : GitHub) (arguments : Fields) : Except BackendError Fields := do
  let number ← number lib arguments ["id","issue"]
  let repo ← b.repo lib arguments
  issueAt remote repo.slug number

def parent (b : Backend) (lib : TextLibrary) (remote : GitHub) (arguments : Fields) : Except BackendError Fields :=
  b.issue lib remote (("id",Json.get arguments "parent")::arguments)

def labels (lib : TextLibrary) (issue : Fields) : List String :=
  match Json.get issue "labels" with
  | .arr values => values.filterMap (fun value => match value with
    | .obj label => some (textArgument lib label "name")
    | _ => none)
  | _ => []

def itemKinds : List String := ["objective","proposal","epic","feature","story"]

def kindOf (labels : List String) : Except BackendError (Option String) :=
  let kinds := itemKinds.filter (· ∈ labels)
  if 1 < kinds.length then .error (.gitHub "issue has conflicting work-item kind labels") else .ok kinds.head?

/-- `agent/([^/]+)/[^/]+`. -/
def headRole (head : String) : Option String :=
  match PosixPath.split head.toList with
  | [first,role,topic] => if first = "agent".toList ∧ role ≠ [] ∧ topic ≠ [] then some (String.ofList role) else none
  | _ => none

/-- `facts` on `pm.issue.create`, `pm.issue.comment`, `pr.create`, `pr.comment` and `pr.review`. -/
def facts (b : Backend) (lib : TextLibrary) (remote : GitHub) (operation : String) (arguments : Fields) :
    Except BackendError Facts :=
  if operation = "pm.issue.create" then
    if (Json.get arguments "parent").truthy then do
      let parent ← b.parent lib remote arguments
      let kind ← kindOf (labels lib parent)
      return {Facts.plain with parentKind := kind}
    else .ok Facts.plain
  else if operation = "pm.issue.comment" then do
    let issue ← b.issue lib remote arguments
    let kind ← kindOf (labels lib issue)
    return {Facts.plain with
      issueKind := kind
      ownerRole := Json.get ((metadata lib issue).getD []) "owner_role"
      hasOpenChildren := some false}
  else if operation = "pr.create" then .ok Facts.plain
  else do
    let number ← number lib arguments ["id","pr"]
    let repo ← b.repo lib arguments
    let pull ← fetch (GitHub.numbered (remote.pulls repo.slug) number) (.gitHub "gh: Not Found (HTTP 404)")
    let head := match Json.get pull "head" with
      | .obj head => textArgument lib head "ref"
      | _ => ""
    return {Facts.plain with
      prHeadRole := headRole head
      prOpen := some (match Json.get pull "state" with
        | .str state => state = "open"
        | _ => false)}

end Backend

/-! The objects that the writes create. -/

def issueItem (a : Assigned) (title body : String) (labels : List String) : Fields :=
  [("number",.int a.number),("id",.int a.id),("html_url",.str a.url),("title",.str title),("body",.str body),
    ("labels",.arr (labels.map (fun label => .obj [("name",.str label)]))),("state",.str "open")]

def pullItem (a : Assigned) (title body head base : String) (draft : Bool) : Fields :=
  [("number",.int a.number),("id",.int a.id),("html_url",.str a.url),("title",.str title),("body",.str body),
    ("head",.obj [("ref",.str head)]),("base",.obj [("ref",.str base)]),("draft",.bool draft),("state",.str "open")]

def commentItem (a : Assigned) (body : String) : Fields :=
  [("id",.int a.id),("html_url",.str a.url),("body",.str body)]

def reviewItem (a : Assigned) (body event : String) : Fields :=
  [("id",.int a.id),("html_url",.str a.url),("body",.str body),
    ("state",.str (if event = "REQUEST_CHANGES" then "CHANGES_REQUESTED" else "COMMENTED"))]

/-- A request behind the broker's checks of its shape, with the role of its session. -/
structure BrokerCall where
  session : Session
  operation : String
  arguments : Fields
  key : String

namespace Backend

/-- `f"**{role.replace('-', ' ').title()} —** {arguments['body']}"`. -/
def attributed (lib : TextLibrary) (role : String) (body : Json) : String :=
  "**" ++ heading role ++ " —** " ++ body.text lib.render

/-- `str(arguments.get(name) or default)`. -/
def textOrElse (lib : TextLibrary) (arguments : Fields) (name default : String) : String :=
  let value := Json.get arguments name
  if value.truthy then value.text lib.render else default

def owner (lib : TextLibrary) (c : BrokerCall) : String :=
  textOrElse lib c.arguments "target_role" c.session.role

def issueTitle (kind title : String) : String :=
  let start := "[" ++ kind.toUpper ++ "] "
  if start.toList <+: title.toList then title else start ++ title

def issueLabels (b : Backend) (lib : TextLibrary) (c : BrokerCall) (kind : String) : List String :=
  let others := match Json.get c.arguments "also_role" with
    | .arr items => items.filterMap (fun item => match item with
      | .str name => if name ∈ b.policy.roles.map Prod.fst ∧ name ≠ c.session.role then some ("role:" ++ name) else none
      | _ => none)
    | _ => []
  kind::("role:" ++ owner lib c)::others

def rawBody (lib : TextLibrary) (c : BrokerCall) : String :=
  if c.operation = "pm.issue.create" then
    bodyWithMetadata (textOrElse lib c.arguments "body" "—") (owner lib c)
      ((Json.get c.arguments "kind").text lib.render)
  else if c.operation = "pm.issue.comment" ∨ c.operation = "pr.comment" then
    attributed lib c.session.role (Json.get c.arguments "body")
  else textArgument lib c.arguments "body"

def writtenBody (lib : TextLibrary) (c : BrokerCall) : String := idempotentBody (rawBody lib c) c.key

def branch (lib : TextLibrary) (c : BrokerCall) : String :=
  "agent/" ++ c.session.role ++ "/" ++ (Json.get c.arguments "topic").text lib.render

def issueNumber (issue : Fields) : Except BackendError Int :=
  match Json.get issue "number" with
  | .int n => .ok n
  | _ => .error (.valueError "")

def linkParent (b : Backend) (lib : TextLibrary) (remote : GitHub) (slug : String) (a : Assigned) (c : BrokerCall) :
    Except BackendError GitHub :=
  if (Json.get c.arguments "parent").truthy then do
    let parent ← b.parent lib remote c.arguments
    let number ← issueNumber parent
    return {remote with links := remote.links ++ [(slug,number,.int a.id)]}
  else .ok remote

/-- `_move` to the first stage, where a project is configured. -/
def moveNew (b : Backend) (remote : GitHub) (slug : String) (a : Assigned) : Except BackendError GitHub :=
  match b.stages with
  | none => .ok remote
  | some stages => do
    require ("Todo" ∈ stages) (.gitHub "unknown configured Project stage: Todo")
    return {remote with moves := remote.moves ++ [(slug,a.number,"Todo")]}

/-- The steps of `pm.issue.create` behind its first write. -/
def finishCreate (b : Backend) (lib : TextLibrary) (remote : GitHub) (slug : String) (a : Assigned) (c : BrokerCall) :
    Except BackendError GitHub := do
  let linked ← b.linkParent lib remote slug a c
  b.moveNew linked slug a

def create (b : Backend) (lib : TextLibrary) (remote : GitHub) (a : Assigned) (c : BrokerCall) (slug : String) :
    Outcome GitHub BackendError Fields :=
  match required c.arguments "kind" with
  | .error e => ⟨.error e,remote⟩
  | .ok kind =>
    let item := issueItem a (issueTitle (kind.text lib.render) (textArgument lib c.arguments "title"))
      (writtenBody lib c) (b.issueLabels lib c (kind.text lib.render))
    let posted := remote.addIssue slug item
    match b.finishCreate lib posted slug a c with
    | .ok final =>
      ⟨.ok [("number",.int a.number),("url",.str a.url),("owner_role",.str (owner lib c))],final⟩
    | .error e => ⟨.error e,posted⟩

/-- `pm.issue.comment` behind `_issue`, and `pr.comment`. -/
def comment (lib : TextLibrary) (remote : GitHub) (a : Assigned) (c : BrokerCall) (slug : String) (number : Int) :
    Outcome GitHub BackendError Fields :=
  match required c.arguments "body" with
  | .error e => ⟨.error e,remote⟩
  | .ok _ => ⟨.ok [("comment_id",.int a.id)],remote.addComment slug number (commentItem a (writtenBody lib c))⟩

def createPull (lib : TextLibrary) (remote : GitHub) (a : Assigned) (c : BrokerCall) (r : Repository) :
    Outcome GitHub BackendError Fields :=
  match required c.arguments "topic" with
  | .error e => ⟨.error e,remote⟩
  | .ok topic =>
    let title := textOrElse lib c.arguments "title" (heading (topic.text lib.render))
    let draft := if Json.has c.arguments "draft" then (Json.get c.arguments "draft").truthy else true
    ⟨.ok [("number",.int a.number),("url",.str a.url),("head",.str (branch lib c))],
      remote.addPull r.slug (pullItem a title (writtenBody lib c) (branch lib c) r.defaultBranch draft)⟩

def review (lib : TextLibrary) (remote : GitHub) (a : Assigned) (c : BrokerCall) (slug : String) (number : Int) :
    Outcome GitHub BackendError Fields :=
  let event := textOrElse lib c.arguments "event" "COMMENT"
  ⟨.ok [("review_id",.int a.id),("state",.str event)],
    remote.addReview slug number (reviewItem a (writtenBody lib c) event)⟩

/-- The operations whose writes carry the marker of their key alone. -/
def marked : List String := ["pm.issue.create","pm.issue.comment","pr.create","pr.comment","pr.review"]

/-- `execute` on the operations of `marked`, where every call of the API is answered. -/
def execute (b : Backend) (lib : TextLibrary) (remote : GitHub) (a : Assigned) (c : BrokerCall) :
    Outcome GitHub BackendError Fields :=
  match b.repo lib c.arguments with
  | .error e => ⟨.error e,remote⟩
  | .ok repo =>
    if c.operation = "pm.issue.create" then b.create lib remote a c repo.slug
    else if c.operation = "pm.issue.comment" then
      match b.issue lib remote c.arguments,number lib c.arguments ["id","issue"] with
      | .ok _,.ok number => comment lib remote a c repo.slug number
      | .error e,_ | _,.error e => ⟨.error e,remote⟩
    else if c.operation = "pr.create" then createPull lib remote a c repo
    else
      match number lib c.arguments ["id","pr"] with
      | .error e => ⟨.error e,remote⟩
      | .ok number =>
        if c.operation = "pr.comment" then comment lib remote a c repo.slug number
        else review lib remote a c repo.slug number

end Backend
end SjgControl

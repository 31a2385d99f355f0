import SjgControl.Poll

/-! `GitHubSource.fetch_page` over a transport. A page is read with one call of the list endpoint
and completed by look-ups for its items, one after the other. -/
namespace SjgControl
open Relational

/-- `GitHubCLI.api`: an endpoint and the query fields, sorted by name. -/
abbrev Transport := String → List (String × String) → Except PollError Json

/-- `[1-9][0-9]*`. -/
def numeral : List Char → Bool
  | [] => false
  | c::rest => decide ('1' ≤ c ∧ c ≤ '9') && rest.all (fun d => decide ('0' ≤ d ∧ d ≤ '9'))

def decimal (digits : List Char) : Nat := digits.foldl (fun n c => 10 * n + (c.toNat - 48)) 0

/-- The numeral after `base` in a URL that has nothing else. -/
def numberAfter (base url : String) : Option String :=
  let number := url.toList.drop base.toList.length
  if base.toList <+: url.toList ∧ numeral number then some (String.ofList number) else none

/-- `item[name] = value`. -/
def Json.put (fields : Item) (name : String) (value : Json) : Item :=
  if Json.has fields name then fields.map (fun field => if field.1 = name then (name,value) else field)
  else fields ++ [(name,value)]

structure GitHubSource where
  sourceId : String
  repository : String

namespace GitHubSource
variable (lib : PollLibrary) (g : GitHubSource)

def fail {α : Type} (text : String) : Except PollError α := .error ⟨"SourceError",text⟩

def parent (api : Transport) (item : Item) : Except PollError Json := do
  let number ← fetch (numberAfter ("https://api.github.com/repos/" ++ g.repository ++ "/issues/")
    ((Json.get item "issue_url").textOr lib.render))
    ⟨"SourceError","comment parent URL does not match its commissioned repository"⟩
  match ← api ("repos/" ++ g.repository ++ "/issues/" ++ number) [] with
  | .obj fields => return .obj fields
  | _ => fail "comment parent enrichment is incomplete"

def pullRequest (api : Transport) (item : Item) : Except PollError (Option Json) :=
  match Json.get item "pull_request" with
  | .obj pull => do
    let number ← fetch (numberAfter ("https://api.github.com/repos/" ++ g.repository ++ "/pulls/")
      ((Json.get pull "url").textOr lib.render))
      ⟨"SourceError","pull-request URL does not match its commissioned repository"⟩
    match ← api ("repos/" ++ g.repository ++ "/pulls/" ++ number) [] with
    | .obj fields => return some (.obj fields)
    | _ => fail "pull-request enrichment is incomplete"
  | _ => return none

/-- An integer above zero, as the endpoint spells it; `True` is one. -/
def positive : Json → Option String
  | .int n => if 0 < n then some (toString n) else none
  | .bool true => some "True"
  | _ => none

def workflowPath (api : Transport) (item : Item) : Except PollError Json :=
  match Json.get item "path" with
  | .str existing => if existing ≠ "" then .ok (.str existing) else looked
  | _ => looked
where
  looked : Except PollError Json := do
    let number ← fetch (positive (Json.get item "workflow_id"))
      ⟨"SourceError","workflow run has no fixed workflow identity"⟩
    match ← api ("repos/" ++ g.repository ++ "/actions/workflows/" ++ number) [] with
    | .obj workflow =>
      match Json.get workflow "path" with
      | .str path => if path ≠ "" then .ok (.str path) else fail "workflow path enrichment is incomplete"
      | _ => fail "workflow path enrichment is incomplete"
    | _ => fail "workflow path enrichment is incomplete"

/-- The items of a raw page, each completed with its own look-up; a run may be left out. -/
def complete (enrich : Transport → Item → Except PollError (Option Item)) (api : Nat → Transport) :
    Nat → List Item → Except PollError (List Item)
  | _,[] => .ok []
  | i,item::rest => do
    let head ← enrich (api i) item
    let tail ← complete enrich api (i + 1) rest
    return head.toList ++ tail

def completeIssue (api : Transport) (item : Item) : Except PollError (Option Item) := do
  let pull ← g.pullRequest lib api item
  return some (pull.elim item (Json.put item "_sjg_pull_request"))

def completeComment (api : Transport) (item : Item) : Except PollError (Option Item) := do
  let parent ← g.parent lib api item
  return some (Json.put item "_sjg_parent" parent)

def completeRun (watermark : String) (api : Transport) (item : Item) : Except PollError (Option Item) :=
  let given := Json.get item "updated_at"
  if watermark ≤ (if given.truthy then given else Json.get item "created_at").textOr lib.render then do
    let path ← g.workflowPath api item
    return some (Json.put item "_sjg_workflow_path" path)
  else .ok none

def object : Json → Option Item
  | .obj fields => some fields
  | _ => none

def objects : Json → Option (List Item)
  | .arr values => values.mapM object
  | _ => none

def pageNumber : Option String → Except PollError Nat
  | none => .ok 1
  | some cursor =>
    if numeral cursor.toList ∧ cursor.toList.length ≤ 9 then .ok (decimal cursor.toList)
    else fail "GitHub source cursor is invalid"

def issueFields (page : Nat) (watermark : String) : List (String × String) :=
  [("direction","asc"),("page",toString page),("per_page","100"),("since",watermark),("sort","updated"),
    ("state","all")]

def commentFields (page : Nat) (watermark : String) : List (String × String) :=
  [("direction","asc"),("page",toString page),("per_page","100"),("since",watermark),("sort","updated")]

def runFields (page : Nat) : List (String × String) := [("page",toString page),("per_page","100")]

/-- The raw page and its completion; `api i` answers the `i`-th call. -/
def readPage (api : Nat → Transport) (watermark : String) (page : Nat) : Except PollError (List Item × List Item) :=
  if endsWith g.sourceId "issues" then do
    let answer ← api 0 ("repos/" ++ g.repository ++ "/issues") (issueFields page watermark)
    let raw ← fetch (objects answer) ⟨"SourceError","GitHub issue page is not a complete object list"⟩
    return (raw,← complete (g.completeIssue lib) api 1 raw)
  else if endsWith g.sourceId "comments" then do
    let answer ← api 0 ("repos/" ++ g.repository ++ "/issues/comments") (commentFields page watermark)
    let raw ← fetch (objects answer) ⟨"SourceError","GitHub comment page is not a complete object list"⟩
    return (raw,← complete (g.completeComment lib) api 1 raw)
  else do
    let answer ← api 0 ("repos/" ++ g.repository ++ "/actions/runs") (runFields page)
    let raw ← fetch ((object answer).bind (fun fields => objects (Json.get fields "workflow_runs")))
      ⟨"SourceError","GitHub workflow-run page is not a complete object list"⟩
    return (raw,← complete (g.completeRun lib watermark) api 1 raw)

def fetchPage (api : Nat → Transport) (watermark : String) (cursor : Option String) : Except PollError Page := do
  let page ← pageNumber cursor
  let (raw,items) ← g.readPage lib api watermark page
  return ⟨items,if raw.length = 100 then some (toString (page + 1)) else none,none⟩

end GitHubSource
end SjgControl

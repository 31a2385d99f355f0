import SjgControl.GitHubWrite
import SjgControl.Verifier
import SjgControl.Store.Journal
import SjgControl.Yaml

/-! The governance monitor: what the Human queue should hold, what of it GitHub shows, and
the actions in between. -/
namespace SjgControl
open Relational PythonText Backend

/-- `builtin` is what `str`, `json.dumps` or a lookup in a set raises. -/
inductive MonitorError where
  | governance (message : String)
  | value (message : String)
  | builtin
  | gitHub (error : BackendError)
  | store (error : StoreError)
  deriving DecidableEq

inductive Truth where
  | true_ | false_ | unknown
  deriving DecidableEq

structure Observation where
  truth : Truth
  complete : Bool
  value : Option String

structure ManagedState where
  sourceKey : String
  present : Observation
  qualifies : Observation
  currentStage : Observation
  desiredStage : Observation

structure PlannedOperation where
  sourceKey : String
  operation : String
  precondition : Fields

def plan (s : ManagedState) : List PlannedOperation :=
  if ∃ o ∈ [s.present,s.qualifies,s.currentStage,s.desiredStage], o.complete = false ∨ o.truth = .unknown then []
  else if s.present.truth = .false_ ∧ s.qualifies.truth = .true_ then
    [⟨s.sourceKey,"create",[("proved_absent",.bool true)]⟩]
  else if s.present.truth = .true_ ∧ s.qualifies.truth = .false_ then
    [⟨s.sourceKey,"close",[("proved_present",.bool true)]⟩]
  else if s.present.truth = .true_ ∧ s.qualifies.truth = .true_ ∧ s.currentStage.value ≠ s.desiredStage.value then
    [⟨s.sourceKey,"move",[("from",.str (s.currentStage.value.getD "")),("to",.str (s.desiredStage.value.getD ""))]⟩]
  else []

def sourceMarker (sourceKey : String) : Except MonitorError String :=
  if sourceKey = "" ∨ contains sourceKey "--" ∨ '\n' ∈ sourceKey.toList then
    .error (.value "invalid reconciliation source key")
  else .ok ("<!-- governance-monitor-source:" ++ sourceKey ++ " -->")

/-- The source of a line that `MARKER` matches as a whole. -/
def markedSource (line : List Char) : Option (List Char) :=
  if "<!-- governance-monitor-source:".toList <+: line ∧ " -->".toList <:+ line ∧ 36 ≤ line.length then
    some ((line.drop 31).take (line.length - 35))
  else none

/-- `MARKER.search`. -/
def sourceIn (body : List Char) : Option String := ((lines body).findSome? markedSource).map String.ofList

structure DesiredQueueItem where
  sourceKey : String
  title : String
  body : String

/-- The two documents that the monitor reads, decoded, or why one of them could not be. -/
structure Workspace where
  orgChart : Except String Json
  blockers : Except String Yaml

structure GovernanceMonitor where
  backend : Backend
  principalGithub : String
  projectNumber : Option Int
  workspace : Workspace

/-- The monitor also takes `str` of bytes and collections and `json.dumps(…, ensure_ascii=False)`
from the standard library. Both stop at the interpreter's limits on nesting and on digits. -/
structure MonitorLibrary extends TextLibrary where
  printed : Yaml → Option String
  dumpsUnicode : Yaml → Option String

/-- `text.startswith(start)`. -/
def startsWith (text start : String) : Prop := start.toList <+: text.toList

instance (text start : String) : Decidable (startsWith text start) :=
  inferInstanceAs (Decidable (start.toList <+: text.toList))

namespace GovernanceMonitor
variable (g : GovernanceMonitor) (lib : MonitorLibrary)

def commissioning : Except MonitorError Int := do
  let chart ← g.workspace.orgChart.mapError .governance
  match chart with
  | .obj chart =>
    match Json.get chart "human_principal" with
    | .obj human => do
      require (isText (Json.get human "github") g.principalGithub = true)
        (.governance "org-chart Human Principal differs from organization policy")
      match Json.get chart "global" with
      | .obj values =>
        match Json.get values "principal_queue_issue" with
        | .int queue => do
          require (0 < queue) (.governance "global.principal_queue_issue is not commissioned")
          let project := match Json.get values "pm_project_number" with
            | .int project => some project
            | _ => none
          require (g.projectNumber.isNone ∨ project = g.projectNumber)
            (.governance "org-chart Project number differs from supervisor config")
          return queue
        | _ => throw (.governance "global.principal_queue_issue is not commissioned")
      | _ => throw (.governance "org-chart global commissioning block is absent")
    | _ => throw (.governance "org-chart Human Principal differs from organization policy")
  | _ => throw (.governance "org-chart root must be a mapping")

def blockerFields : List String :=
  ["id","kind","needs","value","effort_minutes","summary","action","blocks","opened","state"]

def optionalBlockerFields : List String := ["note","gates_market_contact"]

/-- `[a-z0-9][a-z0-9-]{0,99}`. -/
def blockerId : List Char → Prop
  | [] => False
  | c::rest => lowerAlnum c ∧ rest.all (fun d => lowerAlnum d ∨ d = '-') ∧ rest.length ≤ 99

instance : DecidablePred blockerId
  | [] => isFalse id
  | c::rest => inferInstanceAs
      (Decidable (lowerAlnum c ∧ rest.all (fun d => lowerAlnum d ∨ d = '-') ∧ rest.length ≤ 99))

/-- `str(row.get(name) or "")`, where it returns. -/
def rowText (row : List (Yaml × Yaml)) (name : String) : Option String := (Yaml.get row name).textOr lib.printed

/-- `json.dumps(row.get("blocks"), ensure_ascii=False)`, where it returns. -/
def blocksText (row : List (Yaml × Yaml)) : Option String :=
  if (Yaml.get row "blocks").jsonable then lib.dumpsUnicode (Yaml.get row "blocks") else none

def stateIs (row : List (Yaml × Yaml)) (state : String) : Bool := (Yaml.get row "state").isText state

/-- One round over the rows of `blockers.yaml`, from the ids seen and the items made so far. -/
def blocker (acc : List String × List DesiredQueueItem) (row : Yaml) :
    Except MonitorError (List String × List DesiredQueueItem) :=
  match row with
  | .mapping row => do
    require (Yaml.HasFields blockerFields optionalBlockerFields row)
      (.governance "blocker entry has missing or unknown fields")
    let identifier ← fetch (rowText lib row "id") .builtin
    require (blockerId identifier.toList ∧ identifier ∉ acc.1)
      (.governance "blocker ids must be unique lowercase kebab-case")
    require ((Yaml.get row "state").hashable = true) .builtin
    require (stateIs row "open" = true ∨ stateIs row "cleared" = true)
      (.governance "blocker state must be open or cleared")
    require ((Yaml.get row "needs").isText "human-principal" = true)
      (.governance "blocker needs must be human-principal")
    if stateIs row "open" = true then do
      let summary ← fetch ((rowText lib row "summary").map strip) .builtin
      let action ← fetch ((rowText lib row "action").map strip) .builtin
      require (summary ≠ "" ∧ summary.length ≤ 140 ∧ action ≠ "" ∧ action.length ≤ 4000)
        (.governance "open blocker summary or action is invalid")
      let source := "blocker:" ++ identifier
      let marker ← sourceMarker source
      let blocks ← fetch (blocksText lib row) .builtin
      return (identifier::acc.1,acc.2 ++ [⟨source,"[HUMAN] " ++ summary,
        marker ++ "\n\n**Required action**\n\n" ++ action ++ "\n\nBlocks: `" ++ blocks ++ "`\n"⟩])
    else return (identifier::acc.1,acc.2)
  | _ => throw (.governance "blocker entry has missing or unknown fields")

def blockers : Except MonitorError (List DesiredQueueItem) := do
  let document ← g.workspace.blockers.mapError .governance
  match document with
  | .mapping fields => do
    require (Yaml.HasFields ["blockers"] [] fields) (.governance "blockers.yaml must contain only the blockers list")
    match Yaml.get fields "blockers" with
    | .seq rows => do
      let (_,desired) ← rows.foldlM (blocker lib) ([],[])
      return desired
    | _ => throw (.governance "blockers must be a list")
  | _ => throw (.governance "blockers.yaml must contain only the blockers list")

/-- `f"Source: {item.get('html_url') or '#'}\n"`. -/
def sourceLine (item : Fields) : String := "Source: " ++ textOrElse lib.toTextLibrary item "html_url" "#" ++ "\n"

def isOpen (item : Fields) : Bool := isText (Json.get item "state") "open"

def isProposal (issue : Fields) : Bool :=
  !isPull issue && decide (startsWith (textArgument lib.toTextLibrary issue "title") "[PROPOSAL]")

def proposalSource (number : Int) : String := "proposal:org#" ++ toString number

def proposal (issue : Fields) : Except MonitorError (List DesiredQueueItem) :=
  if isOpen issue && isProposal lib issue then do
    let number ← (issueNumber issue).mapError .gitHub
    let marker ← sourceMarker (proposalSource number)
    let title := String.ofList ((textArgument lib.toTextLibrary issue "title").toList.drop 10)
    return [⟨proposalSource number,"[HUMAN] Decide proposal #" ++ toString number ++ ": " ++ strip title,
      marker ++ "\n\nReview the open proposal and record the Human Principal decision.\n\n" ++ sourceLine lib issue⟩]
  else .ok []

def pullSource (alias_ : String) (number : Int) : String := "pr:" ++ alias_ ++ "#" ++ toString number

def isTrue (value : Json) : Bool :=
  match value with
  | .bool given => given
  | _ => false

def isReady (pull : Fields) : Bool :=
  !isTrue (Json.get pull "draft") && isTrue (Json.get pull "mergeable") && isText (Json.get pull "mergeable_state") "clean"

def isNull (value : Json) : Bool :=
  match value with
  | .null => true
  | _ => false

/-- An entry of the list of pull requests, read once more by its number. -/
def merge (alias_ : String) (pull : Fields) : Except MonitorError (List DesiredQueueItem) :=
  if isOpen pull then do
    let number ← (issueNumber pull).mapError .gitHub
    require (isNull (Json.get pull "mergeable") = false)
      (.governance "GitHub did not provide a complete PR mergeability fact")
    if isReady pull then
      let marker ← sourceMarker (pullSource alias_ number)
      let title := "[HUMAN] Merge " ++ alias_ ++ " PR #" ++ toString number ++ ": " ++
        strip (textArgument lib.toTextLibrary pull "title")
      return [⟨pullSource alias_ number,String.ofList (title.toList.take 160),
        marker ++ "\n\nThis pull request is open, non-draft, mergeable, and clean. Human review/merge remains required.\n\n" ++
          sourceLine lib pull⟩]
    else return []
  else .ok []

/-- `for item in items: result.extend(…)`. -/
def gathered {α β : Type} (f : α → Except MonitorError (List β)) : List α → Except MonitorError (List β)
  | [] => .ok []
  | item::rest => do
    let first ← f item
    let others ← gathered f rest
    return first ++ others

def orgSlug : Except MonitorError String := ((g.backend.repository "org").map Repository.slug).mapError .gitHub

def aliases : List String := (g.backend.repositories.map Prod.fst).insertionSort (· ≤ ·)

def mergesOf (remote : GitHub) (alias_ : String) : Except MonitorError (List DesiredQueueItem) := do
  let repo ← (g.backend.repository alias_).mapError .gitHub
  gathered (merge lib alias_) (remote.pulls repo.slug)

def remoteDesired (remote : GitHub) (slug : String) : Except MonitorError (List DesiredQueueItem) := do
  let proposals ← gathered (proposal lib) (remote.listedIssues slug)
  let merges ← gathered (g.mergesOf lib remote) g.aliases
  return proposals ++ merges

/-- The issues with a marker, each with its source. -/
def managed : List Fields → Except MonitorError (List (String × Fields))
  | [] => .ok []
  | issue::rest =>
    match sourceIn (bodyOf lib.toTextLibrary issue).toList with
    | none => managed rest
    | some source => do
      let _ ← (sourceMarker source).mapError (fun _ => MonitorError.governance "remote governance marker is invalid")
      let others ← managed rest
      return (source,issue)::others

/-- `managed.get(source, [])`. -/
def matchesOf (pairs : List (String × Fields)) (source : String) : List Fields :=
  (pairs.filter (fun pair => pair.1 = source)).map Prod.snd

def sameInt (one other : Json) : Bool :=
  match one,other with
  | .int n,.int m => n = m
  | _,_ => false

/-- `repos/{slug}/issues/{number}/sub_issues`, all pages. -/
def children (remote : GitHub) (slug : String) (number : Int) : List Fields :=
  (remote.listedIssues slug).filter (fun issue =>
    remote.links.any (fun link => link.1 = slug && link.2.1 = number && sameInt link.2.2 (Json.get issue "id")))

end GovernanceMonitor

inductive QueueAction where
  | create (sourceKey title body : String) (existing : Option Int) (version : String)
  | close (sourceKey : String) (issue : Int) (version : String)
  deriving DecidableEq

namespace QueueAction

def sourceKey : QueueAction → String
  | .create source _ _ _ _ => source
  | .close source _ _ => source

def operation : QueueAction → String
  | .create _ _ _ _ _ => "create"
  | .close _ _ _ => "close"

def version : QueueAction → String
  | .create _ _ _ _ version => version
  | .close _ _ version => version

/-- `_apply`'s precondition, by the principal's login and the number of the queue. -/
def precondition (principal : String) (queue : Int) : QueueAction → Json
  | .create _ title body existing _ =>
    .obj [("repository",.str "org"),("queue_issue",.int queue),("title",.str title),("body",.str body),
      ("assignee",.str principal),("existing_issue",(existing.map Json.int).getD .null)]
  | .close _ issue _ => .obj [("repository",.str "org"),("queue_issue",.int queue),("issue",.int issue)]

end QueueAction

structure Snapshot where
  queueIssue : Int
  desiredCount : Nat
  managedCount : Nat
  conflicts : List String
  unmanagedChildren : List Int
  actions : List QueueAction
  deriving DecidableEq

namespace GovernanceMonitor
variable (g : GovernanceMonitor) (lib : MonitorLibrary)

def certain (truth : Bool) (value : Option String) : Observation :=
  ⟨if truth then .true_ else .false_,true,value⟩

def observed (source : String) (present qualifies : Bool) : ManagedState :=
  ⟨source,certain present none,certain qualifies none,certain true (some "queue"),certain true (some "queue")⟩

def childNumber (childNumbers : List Int) (issue : Fields) : Except MonitorError Bool :=
  if isOpen issue then do
    let number ← (issueNumber issue).mapError .gitHub
    return decide (number ∈ childNumbers)
  else .ok false

def versionOf (issue : Fields) : String := textArgument lib.toTextLibrary issue "updated_at"

def createAction (pairs : List (String × Fields)) (childNumbers : List Int) (item : DesiredQueueItem) :
    Except MonitorError (List QueueAction) :=
  match matchesOf pairs item.sourceKey with
  | [] =>
    if plan (observed item.sourceKey false true) = [] then .ok []
    else .ok [.create item.sourceKey item.title item.body none "absent"]
  | [issue] => do
    let present ← childNumber childNumbers issue
    if plan (observed item.sourceKey present true) = [] then return []
    else do
      let number ← (issueNumber issue).mapError .gitHub
      return [.create item.sourceKey item.title item.body (some number) (versionOf lib issue)]
  -- a conflict
  | _::_::_ => .ok []

def closeAction (desired : List String) (pairs : List (String × Fields)) (childNumbers : List Int) (source : String) :
    Except MonitorError (List QueueAction) :=
  if source ∈ desired then .ok []
  else
    match matchesOf pairs source with
    | [issue] => do
      let present ← childNumber childNumbers issue
      if present then
        if plan (observed source true false) = [] then return []
        else do
          let number ← (issueNumber issue).mapError .gitHub
          return [.close source number (versionOf lib issue)]
      else return []
    | _ => .ok []

/-- `sorted(set(keys))`. -/
def sortedKeys (keys : List String) : List String := keys.dedup.insertionSort (· ≤ ·)

def snapshot (remote : GitHub) : Except MonitorError Snapshot := do
  let queue ← g.commissioning
  let slug ← g.orgSlug
  let queueIssue ← (issueAt remote slug queue).mapError .gitHub
  let blocked ← g.blockers lib
  let wanted ← g.remoteDesired lib remote slug
  let desired := blocked ++ wanted
  let keys := desired.map DesiredQueueItem.sourceKey
  require keys.Nodup (.governance "governance desired-state source keys collide")
  let attached := children remote slug queue
  let childNumbers ← gathered (fun child => ((issueNumber child).mapError .gitHub).map (fun n => [n])) attached
  let pairs ← managed lib (remote.listedIssues slug)
  let sources := sortedKeys (pairs.map Prod.fst)
  let creates ← gathered (createAction lib pairs childNumbers)
    (desired.insertionSort (fun a b => a.sourceKey ≤ b.sourceKey))
  let closes ← gathered (closeAction lib keys pairs childNumbers) sources
  let number ← (issueNumber queueIssue).mapError .gitHub
  let unmanaged ← gathered (fun child => ((issueNumber child).mapError .gitHub).map (fun n => [n]))
    (attached.filter (fun child => (sourceIn (bodyOf lib.toTextLibrary child).toList).isNone))
  return ⟨number,desired.length,pairs.length,sources.filter (fun source => (matchesOf pairs source).length ≠ 1),
    unmanaged.insertionSort (· ≤ ·),creates ++ closes⟩

def actionKey (queue : Int) (a : QueueAction) : String :=
  let canonical := JsonText.compact (.arr [.str g.backend.policy.policyDigest,.str a.sourceKey,.str a.operation,
    .str a.version,a.precondition g.principalGithub queue])
  let digest := lib.sha256 (String.ofList canonical).toUTF8.data.toList
  "governance-" ++ a.operation ++ "-" ++ String.ofList (digest.toList.take 40)

def preconditionJson (queue : Int) (a : QueueAction) : String :=
  String.ofList (JsonText.compact (a.precondition g.principalGithub queue))

end GovernanceMonitor

/-! The calls of `_apply` between `mark_reconcile_applying` and `finish_reconcile`. -/

/-- What GitHub does with one call: whether it is carried out, whether its answer arrives,
and what it assigns. -/
structure Reply where
  carriedOut : Bool
  answered : Bool
  assigned : Assigned
  updatedAt : String

inductive ApplyPoint where
  | open_
  | fetch (number : Int)
  | reopen (number : Int)
  | link (id : Int) (number : Json)
  | close (number : Int)

inductive ApplyStep where
  | next (remote : GitHub) (point : ApplyPoint)
  | ended (remote : GitHub) (state : ReconcileState) (result : Json)

namespace QueueAction

def start : QueueAction → ApplyPoint
  | .create _ _ _ (some number) _ => if number = 0 then .open_ else .fetch number
  | .create _ _ _ none _ => .open_
  | .close _ issue _ => .close issue

def title : QueueAction → String
  | .create _ title _ _ _ => title
  | .close _ _ _ => ""

def body : QueueAction → String
  | .create _ _ body _ _ => body
  | .close _ _ _ => ""

end QueueAction

namespace GovernanceMonitor
variable (g : GovernanceMonitor) (lib : MonitorLibrary)

def queueItem (a : QueueAction) (reply : Reply) : Fields :=
  [("number",.int reply.assigned.number),("id",.int reply.assigned.id),("html_url",.str reply.assigned.url),
    ("title",.str a.title),("body",.str a.body),("labels",.arr [.obj [("name",.str "role:governance-reviewer")]]),
    ("assignees",.arr [.obj [("login",.str g.principalGithub)]]),("state",.str "open"),
    ("updated_at",.str reply.updatedAt)]

/-- `PATCH` on an issue, which may be a pull request as the issues API shows it. -/
def patched (remote : GitHub) (slug : String) (number : Int) (changes : Fields) : GitHub :=
  {remote with
    issues := GitHub.editAt remote.issues slug number changes
    pulls := GitHub.editAt remote.pulls slug number changes}

def failure (e : String) : Json := .obj [("error",.str e)]

/-- The issue that the calls before gave, which goes into the queue if it has an id. -/
def received (remote : GitHub) (issue : Fields) : ApplyStep :=
  match Json.get issue "id" with
  | .int id => .next remote (.link id (Json.get issue "number"))
  | _ => .ended remote .verifyPending (failure "GitHub issue creation/reopen response is incomplete")

def unanswered (remote : GitHub) : ApplyStep := .ended remote .verifyPending (failure "GitHub command failed: api")

def advance (remote : GitHub) (slug : String) (queue : Int) (a : QueueAction) (reply : Reply) : ApplyPoint → ApplyStep
  | .open_ =>
    let item := g.queueItem a reply
    let posted := if reply.carriedOut then remote.addIssue slug item else remote
    if reply.carriedOut && reply.answered then received posted item else unanswered posted
  | .fetch number =>
    match GitHub.numbered (remote.listedIssues slug) number with
    | none => unanswered remote
    | some issue =>
      if reply.answered then
        if sourceIn (bodyOf lib.toTextLibrary issue).toList = none then
          .ended remote .deadLetter (failure "existing managed queue issue changed before apply")
        else if isOpen issue then received remote issue
        else .next remote (.reopen number)
      else unanswered remote
  | .reopen number =>
    match GitHub.numbered (remote.listedIssues slug) number with
    | none => unanswered remote
    | some issue =>
      let opened := if reply.carriedOut then
          patched remote slug number [("state",.str "open"),("updated_at",.str reply.updatedAt)]
        else remote
      if reply.carriedOut && reply.answered then received opened issue else unanswered opened
  | .link id number =>
    let linked := if reply.carriedOut then {remote with links := remote.links ++ [(slug,queue,.int id)]} else remote
    if reply.carriedOut && reply.answered then
      .ended linked .succeeded (.obj [("number",number),("queue_issue",.int queue)])
    else unanswered linked
  | .close number =>
    match GitHub.numbered (remote.listedIssues slug) number with
    | none => unanswered remote
    | some _ =>
      let closed := if reply.carriedOut then
          patched remote slug number [("state",.str "closed"),("state_reason",.str "completed"),
            ("updated_at",.str reply.updatedAt)]
        else remote
      if reply.carriedOut && reply.answered then
        .ended closed .succeeded (.obj [("number",.int number),("state",.str "closed")])
      else unanswered closed

end GovernanceMonitor
end SjgControl

import SjgControl.Authorization
import SjgControl.PythonText

/-! `authorize` on the operations that act on issues and pull requests. -/
namespace SjgControl
open Relational

structure Facts where
  complete : Bool
  issueKind : Option String
  parentKind : Option String
  ownerRole : Json
  currentStage : Option String
  hasOpenChildren : Option Bool
  evidenceValid : Option Bool
  prHeadRole : Option String
  prOpen : Option Bool

namespace Facts

def plain : Facts := ⟨true,none,none,.null,none,none,none,none,none⟩

def owned (facts : Facts) (role : String) : Bool :=
  match facts.ownerRole with
  | .str owner => owner = role
  | _ => false

def unowned (facts : Facts) : Bool :=
  match facts.ownerRole with
  | .null => true
  | _ => false

end Facts

/-- The rest of what the checks and the backend take from the standard library: `str.lower`,
`int` on a decoded value, the searches of `OBJECTIVE_RE`, `ACCEPTANCE_RE` and of a forged
banner, and `json.loads`. -/
structure TextLibrary extends Library where
  lower : String → String
  int : Json → Except String Int
  objectiveTitle : String → Bool
  acceptanceText : String → Bool
  humanBanner : String → Bool
  loads : String → Option Json

def textArgument (lib : TextLibrary) (arguments : Fields) (name : String) : String :=
  (Json.get arguments name).textOr lib.render

/-- `f"{arguments.get(name, '')}"`. -/
def formatted (lib : TextLibrary) (arguments : Fields) (name : String) : String :=
  if Json.has arguments name then (Json.get arguments name).text lib.render else ""

def deliveryRoles : List String := ["commercial-planner","software-implementer","policy-reviewer"]

/-- `role in policy.roles.keys() & roles`. -/
def OrganizationPolicy.among (policy : OrganizationPolicy) (roles : List String) (role : String) : Prop :=
  role ∈ policy.roles.map Prod.fst ∧ role ∈ roles

instance (policy : OrganizationPolicy) (roles : List String) : DecidablePred (policy.among roles) := fun role =>
  inferInstanceAs (Decidable (role ∈ policy.roles.map Prod.fst ∧ role ∈ roles))

/-- `arguments.get("also_role") or []` passes the checks on collaborators. -/
def collaborators (policy : OrganizationPolicy) (value : Json) : Option (List String) :=
  if value.truthy then
    match value with
    | .arr items =>
      let names := items.filterMap (fun item => match item with
        | .str name => some name
        | _ => none)
      if names.length = items.length ∧ names.Nodup ∧ ∀ name ∈ names, policy.among deliveryRoles name then some names
      else none
    | _ => none
  else some []

def requiredParents : List (String × String) := [("epic","objective"),("feature","epic"),("story","feature")]

def authorizeTarget (policy : OrganizationPolicy) (session : Session) (kind target : String) :
    Except AuthError Unit :=
  if session.role = "project-orchestrator" then do
    deny (kind ≠ "proposal" ∧ ¬ policy.among deliveryRoles target)
      "project-created delivery work requires a canonical delivery owner"
    deny (target ≠ "" ∧ ¬ policy.among deliveryRoles target) "create target is not a canonical delivery owner"
  else deny (target ≠ "") "only project-orchestrator may assign another role at creation"

/-- `labels` is no argument of the operation, so there is none to look for `objective` in. -/
def authorizeCreate (lib : TextLibrary) (policy : OrganizationPolicy) (session : Session) (arguments : Fields)
    (facts : Facts) : Except AuthError Unit := do
  let rawKind := textArgument lib arguments "kind"
  let kind := lib.lower rawKind
  deny (rawKind ≠ kind) "work-item kind must use its canonical lowercase id"
  let title := PythonText.strip (textArgument lib arguments "title")
  deny (title = "") "issue title is required"
  deny (kind = "objective" ∨ lib.objectiveTitle title) "only the Human Principal creates objectives"
  let allowed := if session.role = "project-orchestrator" then ["epic","proposal"] else ["feature","story","proposal"]
  deny (kind ∉ allowed) (session.role ++ " may not create " ++ (if kind = "" then "untyped" else kind) ++ " work")
  deny (kind ∈ ["feature","story"] ∧ ¬ lib.acceptanceText (textArgument lib arguments "body"))
    (kind ++ " requires acceptance or done-when evidence text")
  let parent := lookup requiredParents kind
  deny (parent ≠ none ∧ facts.parentKind ≠ parent)
    (kind ++ " requires a complete " ++ parent.getD "" ++ " parent")
  authorizeTarget policy session kind (textArgument lib arguments "target_role")
  deny (collaborators policy (Json.get arguments "also_role") = none) "collaborators must be canonical delivery roles"

def authorizeComment (lib : TextLibrary) (arguments : Fields) : Except AuthError Unit := do
  let body := textArgument lib arguments "body"
  deny (PythonText.strip body = "") "comment body is required"
  deny (lib.humanBanner body) "agents may not forge the Human Principal banner"

def authorizeRoute (lib : TextLibrary) (policy : OrganizationPolicy) (arguments : Fields) (facts : Facts) :
    Except AuthError Unit := do
  let allowed := if facts.issueKind = some "objective" then ["project-orchestrator"] else deliveryRoles
  deny (¬ policy.among allowed (textArgument lib arguments "target_role")) "route target is invalid for this work kind"
  deny (¬ facts.unowned) "agent routing is triage-only and cannot replace an owner"

def terminalStages : List String := ["Done","Dropped"]

def stageOrder : List (String × Nat) :=
  [("Todo",0),("In Progress",1),("Awaiting Merge",2),("Demo",3),("Awaiting Deploy",4)]

def holdingStages : List String := ["Blocked","On Hold"]

def authorizeMove (lib : TextLibrary) (arguments : Fields) (facts : Facts) : Except AuthError Unit :=
  let target := textArgument lib arguments "to"
  if target ∈ terminalStages then .error (.authorization "terminal stages require the typed done/drop operation")
  else if target ∈ holdingStages then .ok ()
  else
    match lookup stageOrder target with
    | none => .error (.authorization "unknown current or target stage")
    | some to_ =>
      if ∃ stage ∈ facts.currentStage, stage ∈ holdingStages then .ok ()
      else
        match facts.currentStage.bind (lookup stageOrder) with
        | none => .error (.authorization "unknown current or target stage")
        | some from_ => deny (to_ < from_) "backward movement requires Human intervention"

def authorizeEnd (lib : TextLibrary) (operation : String) (arguments : Fields) (facts : Facts) :
    Except AuthError Unit := do
  deny (facts.issueKind ≠ some "story" ∧ facts.issueKind ≠ some "feature")
    "agents may complete or drop only stories and features"
  deny (facts.hasOpenChildren ≠ some false) "complete child enumeration did not prove zero open children"
  deny (operation = "pm.issue.done" ∧ facts.evidenceValid ≠ some true)
    "evidence is absent, stale, unrelated, or incomplete"
  deny (operation = "pm.issue.drop" ∧ PythonText.strip (textArgument lib arguments "reason") = "")
    "drop requires a non-empty reason"

/-- `pm.issue.move`, `pm.issue.done` and `pm.issue.drop`. -/
def authorizeOwner (lib : TextLibrary) (session : Session) (operation : String) (arguments : Fields)
    (facts : Facts) : Except AuthError Unit := do
  deny (¬ facts.owned session.role) "only the owning role may mutate work state"
  deny (session.role = "project-orchestrator") "project-orchestrator coordinates but does not move or close work"
  if operation = "pm.issue.move" then authorizeMove lib arguments facts
  else authorizeEnd lib operation arguments facts

def independentReviewRoles : List String :=
  ["project-orchestrator","commercial-planner","governance-reviewer","policy-reviewer"]

def authorizeReview (lib : TextLibrary) (session : Session) (arguments : Fields) (facts : Facts) :
    Except AuthError Unit := do
  let given := Json.get arguments "event"
  let event := if given.truthy then given.text lib.render else "COMMENT"
  deny (session.role ∉ independentReviewRoles ∨ facts.prHeadRole = some session.role)
    "PR review must be independent of the authoring role"
  deny (event ∉ ["COMMENT","REQUEST_CHANGES"]) "agent review may only comment or request changes"

def authorizePull (lib : TextLibrary) (policy : OrganizationPolicy) (session : Session) (operation : String)
    (arguments : Fields) (facts : Facts) : Except AuthError Unit :=
  if operation = "pr.create" then do
    let _ ← safeTopic lib.toLibrary (Json.get arguments "topic")
    deny (PythonText.strip (textArgument lib arguments "title") = "") "PR title is required"
  else do
    deny (facts.prOpen ≠ some true ∨ ¬ ∃ role ∈ facts.prHeadRole, role ∈ policy.roles.map Prod.fst)
      "PR must be open and owned by a canonical agent role"
    deny (operation = "pr.update" ∧ facts.prHeadRole ≠ some session.role) "role may update only its own open PR"
    if operation = "pr.review" then authorizeReview lib session arguments facts else .ok ()

def authorizePr (lib : TextLibrary) (policy : OrganizationPolicy) (session : Session) (operation : String)
    (arguments : Fields) (facts : Facts) : Except AuthError Unit := do
  deny (lib.closingKeyword (formatted lib arguments "title" ++ "\n" ++ formatted lib arguments "body"))
    "PR text may not contain issue-closing keywords"
  authorizePull lib policy session operation arguments facts
  deny ((operation = "pr.comment" ∨ operation = "pr.review") ∧
      PythonText.strip (textArgument lib arguments "body") = "") "PR comment or review body is required"
  deny (operation = "pr.update" ∧ PythonText.strip (textArgument lib arguments "title") = "" ∧
      PythonText.strip (textArgument lib arguments "body") = "") "PR update requires a title or body"

/-- The part of `authorize` behind `validate_request`, for an operation on an issue or a
pull request. -/
def authorizeRemote (lib : TextLibrary) (policy : OrganizationPolicy) (session : Session) (operation : String)
    (arguments : Fields) (facts : Facts) : Except AuthError Unit :=
  if operation = "pm.issue.create" then authorizeCreate lib policy session arguments facts
  else if operation = "pm.issue.comment" then authorizeComment lib arguments
  else if operation = "pm.issue.route" then authorizeRoute lib policy arguments facts
  else if operation ∈ ["pm.issue.move","pm.issue.done","pm.issue.drop"] then
    authorizeOwner lib session operation arguments facts
  else authorizePr lib policy session operation arguments facts

def authorize (lib : TextLibrary) (policy : OrganizationPolicy) (session : Session) (operation : String)
    (arguments : Fields) (facts : Facts) : Except AuthError Unit := do
  validateRequest lib.toLibrary policy session operation arguments
  deny (¬ facts.complete) "authoritative GitHub facts are incomplete"
  authorizeRemote lib policy session operation arguments facts

end SjgControl

import Mathlib.Data.List.Sort
import SjgControl.PosixPath
import SjgControl.Store.Journal
import SjgControl.Store.Runtime

/-! The authorization matrix: request validation for every agent-reachable operation,
and the checks of `repo.submit`. -/
namespace SjgControl
open Relational

abbrev Fields := List (String × Json)

def pmOperations : List String :=
  ["pm.issue.create","pm.issue.comment","pm.issue.route","pm.issue.move","pm.issue.done","pm.issue.drop"]

def prOperations : List String := ["pr.create","pr.update","pr.comment","pr.review"]

def repositoryOperations : List String := ["repo.submit"]

def workerOperations : List String := ["worker.run"]

def operations : List String :=
  readOperations ++ pmOperations ++ prOperations ++ repositoryOperations ++ workerOperations

def operationArguments : List (String × List String) :=
  [("read.issue.get",["repository","id","issue"]),
    ("read.issue.list",["repository","all"]),
    ("read.issue.children",["repository","id","issue"]),
    ("read.issue.comments",["repository","id","issue"]),
    ("read.pr.get",["repository","id","pr"]),
    ("read.pr.list",["repository"]),
    ("read.pr.files",["repository","id","pr"]),
    ("read.pr.checks",["repository","id","pr"]),
    ("read.workflow.runs",["repository"]),
    ("repo.status",["repository"]),
    ("pm.issue.create",["repository","kind","title","body","parent","target_role","also_role"]),
    ("pm.issue.comment",["repository","id","issue","body"]),
    ("pm.issue.route",["repository","id","issue","target_role"]),
    ("pm.issue.move",["repository","id","issue","to"]),
    ("pm.issue.done",["repository","id","issue","pr","demo"]),
    ("pm.issue.drop",["repository","id","issue","reason"]),
    ("pr.create",["repository","topic","title","body","draft"]),
    ("pr.update",["repository","id","pr","title","body"]),
    ("pr.comment",["repository","id","pr","body"]),
    ("pr.review",["repository","id","pr","body","event"]),
    ("repo.submit",["repository","topic","branch","base_oid","changes","message"]),
    ("worker.run",["repository","type","task","readPaths","writePaths"])]

def humanOnlyOperations : List String :=
  ["objective.create","objective.edit","objective.close","pr.merge","pr.auto_merge",
    "workflow.dispatch","deployment.execute","spend.authorize","spend.execute",
    "governance.activate","repository.settings","branch.force_update","branch.delete"]

/-- Project management without routing. -/
def pmDelivery : List String := pmOperations.filter (· ≠ "pm.issue.route")

def roleCapabilities : List (String × List String) :=
  [("project-orchestrator",readOperations ++ ["pm.issue.create","pm.issue.comment","pm.issue.route",
      "pr.create","pr.update","pr.comment","pr.review"]),
    ("commercial-planner",readOperations ++ pmDelivery ++
      ["pr.create","pr.update","pr.comment","pr.review","repo.submit","worker.run"]),
    ("software-implementer",readOperations ++ pmDelivery ++ prOperations ++ ["repo.submit","worker.run"]),
    ("governance-reviewer",readOperations ++ ["pm.issue.comment","pm.issue.route","pr.comment","pr.review"]),
    ("policy-reviewer",readOperations ++ pmDelivery ++
      ["pr.create","pr.update","pr.comment","pr.review","repo.submit","worker.run"])]

def forbiddenKeys : List String :=
  ["role","actor","token","repository_url","command","argv","method","url"]

structure RolePolicy where
  repositories : List String
  deriving DecidableEq

structure OrganizationPolicy where
  orgId : String
  roles : List (String × RolePolicy)
  policyDigest : String

/-- The field's default. `compile_policy` never passes another value. -/
def OrganizationPolicy.protectedSubmissionPaths : List String :=
  [".github/workflows/",".github/actions/",".gitmodules"]

inductive AuthError where
  | authorization (message : String)
  | policy (message : String)
  | raised (name : String)
  deriving DecidableEq

abbrev Bytes := List UInt8

/-- What the checks take from the standard library: the rendering of values in texts, the
search for an issue-closing keyword, Base64 and SHA-256. -/
structure Library where
  render : Json → String
  repr : String → String
  closingKeyword : String → Bool
  b64decode : String → Option Bytes
  sha256 : Bytes → String

def lookup {α : Type} (table : List (String × α)) (name : String) : Option α :=
  (table.find? (fun entry => entry.1 = name)).map Prod.snd

def OrganizationPolicy.role (policy : OrganizationPolicy) (role : String) : Except AuthError RolePolicy :=
  fetch (lookup policy.roles role) (.policy ("unknown executing role: " ++ role))

def deny (p : Prop) [Decidable p] (message : String) : Except AuthError Unit :=
  require (¬ p) (.authorization message)

@[simp] theorem deny_bind_ok {p : Prop} [Decidable p] {message : String} {α : Type}
    {f : Unit → Except AuthError α} {a : α} :
    (deny p message >>= f) = .ok a ↔ ¬ p ∧ f () = .ok a := by
  unfold deny
  exact require_bind_ok

@[simp] theorem deny_ok {p : Prop} [Decidable p] {message : String} : deny p message = .ok () ↔ ¬ p := require_ok

theorem deny_bind_error {p : Prop} [Decidable p] {message : String} {α : Type}
    {f : Unit → Except AuthError α} {e : AuthError} :
    (deny p message >>= f) = .error e ↔ p ∧ .authorization message = e ∨ ¬ p ∧ f () = .error e := by
  unfold deny
  rw [require_bind_error,not_not]

/-- `', '.join(sorted(names))`. -/
def listing (names : List String) : String := String.intercalate ", " (names.insertionSort (· ≤ ·))

def validateRequest (lib : Library) (policy : OrganizationPolicy) (session : Session)
    (operation : String) (arguments : Fields) : Except AuthError Unit := do
  deny (session.orgId ≠ policy.orgId ∨ session.policyDigest ≠ policy.policyDigest)
    "session is not bound to the active policy"
  deny (operation ∈ humanOnlyOperations ∨ operation ∉ operations)
    ("operation is not agent-reachable: " ++ operation)
  deny (operation ∉ (lookup roleCapabilities session.role).getD [])
    (session.role ++ " may not perform " ++ operation)
  let names := arguments.map Prod.fst
  let bad := forbiddenKeys.filter (· ∈ names)
  deny (bad ≠ []) ("caller-controlled authority fields are forbidden: " ++ listing bad)
  let unknown := names.filter (· ∉ (lookup operationArguments operation).getD [])
  deny (unknown ≠ []) ("unknown arguments for " ++ operation ++ ": " ++ listing unknown)
  let given := Json.get arguments "repository"
  let repository := if given.truthy then given.text lib.render else "org"
  let role ← policy.role session.role
  deny (repository ∉ session.workspaceAliases ∨ repository ∉ role.repositories)
    ("repository " ++ lib.repr repository ++ " is outside this wake")
  deny (operation ∈ pmOperations ∧ repository ≠ "org")
    "project-management operations are confined to the org repository"

def lowerAlnum (c : Char) : Prop := c.isLower ∨ c.isDigit

instance : DecidablePred lowerAlnum := fun c => inferInstanceAs (Decidable (c.isLower ∨ c.isDigit))

/-- `[a-z0-9](?:[a-z0-9-]{0,62})`. -/
def topicChars : List Char → Prop
  | [] => False
  | c::rest => lowerAlnum c ∧ rest.all (fun d => lowerAlnum d ∨ d = '-') ∧ rest.length ≤ 62

instance : DecidablePred topicChars
  | [] => isFalse id
  | c::rest => inferInstanceAs
      (Decidable (lowerAlnum c ∧ rest.all (fun d => lowerAlnum d ∨ d = '-') ∧ rest.length ≤ 62))

/-- `[0-9a-f]{n}`. -/
def hexChars (n : Nat) (chars : List Char) : Prop :=
  chars.length = n ∧ chars.all (fun c => c.isDigit ∨ c ∈ ['a','b','c','d','e','f'])

instance (n : Nat) : DecidablePred (hexChars n) := fun chars =>
  inferInstanceAs (Decidable (chars.length = n ∧ chars.all (fun c => c.isDigit ∨ c ∈ ['a','b','c','d','e','f'])))

def safeTopic (lib : Library) (topic : Json) : Except AuthError String := do
  let topic := topic.textOr lib.render
  deny (¬ topicChars topic.toList) "topic must be lowercase kebab-case and at most 63 characters"
  return topic

/-- The tests of a change's path before the protected ones. -/
def unsafePath (raw : List Char) : Prop :=
  raw = [] ∨ PosixPath.root raw ≠ [] ∨ ['.','.'] ∈ PosixPath.parts raw ∨ '\x00' ∈ raw ∨ '\\' ∈ raw ∨
    raw.any (fun c => c.toNat < 32) ∨ PosixPath.text raw ≠ raw

instance : DecidablePred unsafePath := fun raw =>
  inferInstanceAs (Decidable (raw = [] ∨ PosixPath.root raw ≠ [] ∨ ['.','.'] ∈ PosixPath.parts raw ∨
    '\x00' ∈ raw ∨ '\\' ∈ raw ∨ raw.any (fun c => c.toNat < 32) ∨ PosixPath.text raw ≠ raw))

/-- `prefix.rstrip("/")`. -/
def stripSlashes (chars : List Char) : List Char := (chars.reverse.dropWhile (· = '/')).reverse

def protectedPath (raw : List Char) : Prop :=
  (raw = ".gitmodules".toList ∨ "/action.yml".toList <:+ raw) ∨
    ∃ surface ∈ OrganizationPolicy.protectedSubmissionPaths,
      raw = stripSlashes surface.toList ∨ surface.toList <+: raw

instance : DecidablePred protectedPath := fun raw =>
  inferInstanceAs (Decidable ((raw = ".gitmodules".toList ∨ "/action.yml".toList <:+ raw) ∨
    ∃ surface ∈ OrganizationPolicy.protectedSubmissionPaths,
      raw = stripSlashes surface.toList ∨ surface.toList <+: raw))

/-- `change.get("mode", "100644") in {"100644", "100755"}`. -/
def regularMode : Json → Bool
  | .str mode => mode = "100644" ∨ mode = "100755"
  | _ => false

/-- A container is unhashable. -/
def checkMode : Json → Except AuthError Unit
  | .arr _ | .obj _ => .error (.raised "TypeError")
  | mode => deny (¬ regularMode mode) "only regular file modes are allowed"

@[simp] theorem checkMode_ok {mode : Json} : checkMode mode = .ok () ↔ regularMode mode = true := by
  cases mode with
  | arr items => simp [checkMode,regularMode]
  | obj fields => simp [checkMode,regularMode]
  | _ => exact deny_ok.trans not_not

@[simp] theorem checkMode_bind_ok {mode : Json} {α : Type} {f : Unit → Except AuthError α} {a : α} :
    (checkMode mode >>= f) = .ok a ↔ regularMode mode = true ∧ f () = .ok a := by
  rw [bind_ok,← checkMode_ok]
  exact ⟨fun ⟨_,ok,later⟩ => ⟨ok,later⟩,fun ⟨ok,later⟩ => ⟨(),ok,later⟩⟩

theorem checkMode_error {mode : Json} {e : AuthError} (refused : checkMode mode = .error e) :
    e = .raised "TypeError" ∨ e = .authorization "only regular file modes are allowed" := by
  have denied (p : Prop) [Decidable p] (failed : deny p "only regular file modes are allowed" = .error e) :
      e = .authorization "only regular file modes are allowed" := by
    unfold deny require at failed
    split at failed
    next => cases failed
    next => exact (Except.error.inj failed).symm
  cases mode with
  | arr items => exact .inl (Except.error.inj refused).symm
  | obj fields => exact .inl (Except.error.inj refused).symm
  | _ => exact .inr (denied _ refused)

def changeKeys (operation : String) : List String :=
  if operation = "upsert" then ["operation","path","mode","sha256","content_base64"]
  else ["operation","path","mode"]

def safeContent (lib : Library) (change : Fields) : Except AuthError Unit := do
  let digest := (Json.get change "sha256").textOr lib.render
  match Json.get change "content_base64" with
  | .str encoded =>
    deny (2800000 < encoded.length ∨ ¬ hexChars 64 digest.toList)
      "repository content metadata is invalid"
    let decoded ← fetch (lib.b64decode encoded) (.authorization "repository content is not valid base64")
    deny (2 * 1024 * 1024 < decoded.length ∨ lib.sha256 decoded ≠ digest)
      "repository content size or digest is invalid"
  | _ => throw (.authorization "repository content metadata is invalid")

/-- One round of `_safe_paths`, from the paths seen so far to those seen with this one. -/
def safeChange (lib : Library) (seen : List String) (change : Json) : Except AuthError (List String) :=
  match change with
  | .obj change => do
    let raw := (Json.get change "path").textOr lib.render
    deny (unsafePath raw.toList) ("unsafe repository path: " ++ lib.repr raw)
    deny (raw ∈ seen) ("duplicate repository path: " ++ raw)
    deny (protectedPath raw.toList) ("protected repository path: " ++ raw)
    let operation := (Json.get change "operation").textOr lib.render
    deny (operation ∉ ["upsert","delete"]) "change operation must be upsert or delete"
    let mode := if Json.has change "mode" then Json.get change "mode" else .str "100644"
    checkMode mode
    let names := change.map Prod.fst
    deny (¬ ((∀ name ∈ names, name ∈ changeKeys operation) ∧ ∀ name ∈ changeKeys operation, name ∈ names))
      "repository change has missing or unknown fields"
    if operation = "upsert" then safeContent lib change
    return raw::seen
  | _ => throw (.authorization "each repository change must be an object")

def safePaths (lib : Library) (paths : Json) : Except AuthError Unit :=
  match paths with
  | .arr changes => do
    deny (changes = []) "repo.submit requires a non-empty changes list"
    deny (200 < changes.length) "repo.submit exceeds 200 changed paths"
    let _ ← changes.foldlM (safeChange lib) []
  | _ => throw (.authorization "repo.submit requires a non-empty changes list")

/-- `supplied is not None and supplied != expected`. -/
def otherBranch (supplied : Json) (expected : String) : Bool :=
  match supplied with
  | .null => false
  | .str branch => branch ≠ expected
  | _ => true

def authorizeSubmit (lib : Library) (policy : OrganizationPolicy) (session : Session)
    (arguments : Fields) : Except AuthError Unit := do
  validateRequest lib policy session "repo.submit" arguments
  let topic ← safeTopic lib (Json.get arguments "topic")
  let expected := "agent/" ++ session.role ++ "/" ++ topic
  deny (otherBranch (Json.get arguments "branch") expected) ("branch must be " ++ expected)
  deny (¬ hexChars 40 ((Json.get arguments "base_oid").textOr lib.render).toList)
    "submission base_oid must be a full commit SHA"
  let message := (Json.get arguments "message").textOr lib.render
  deny (500 < message.length ∨ message.toList.any (fun c => c.toNat < 32 ∧ c ∉ ['\n','\t']))
    "submission message is invalid"
  deny (lib.closingKeyword message) "commit message may not contain issue-closing keywords"
  safePaths lib (Json.get arguments "changes")

end SjgControl

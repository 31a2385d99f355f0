import Mathlib.Data.List.Dedup
import SjgControl.GitHubBackend
import SjgControl.JsonText

/-! `compile_policy`: from a decoded organization document to the closed policy. -/
namespace SjgControl
open Relational PythonText

inductive PolicyError where
  | policy (message : String)
  | value (message : String)
  deriving DecidableEq

structure PolicyRepository where
  slug : String
  defaultBranch : String
  deriving DecidableEq

/-- `RolePolicy` with the fields that sessions and workers are bound by. -/
structure CompiledRole extends RolePolicy where
  workerTypes : List String
  maxWorkersPerWake : Int
  maxWorkersConcurrent : Int
  dailyTokenBudget : Int
  deriving DecidableEq

structure CompiledPolicy where
  orgId : String
  principalGithub : String
  repositories : List (String × PolicyRepository)
  roles : List (String × CompiledRole)
  sourceCommit : String
  controlVersion : String
  sourceTreeSha256 : String
  organizationDailyTokenBudget : Int
  globalMaxAgents : Int
  policyDigest : String
  deriving DecidableEq

/-- The part of the policy that requests are judged by. -/
def CompiledPolicy.organization (p : CompiledPolicy) : OrganizationPolicy :=
  ⟨p.orgId,p.roles.map (fun entry => (entry.1,entry.2.toRolePolicy)),p.policyDigest⟩

theorem lookup_of_mem {α : Type} {table : List (String × α)} (distinct : (table.map Prod.fst).Nodup)
    {entry : String × α} (member : entry ∈ table) : lookup table entry.1 = some entry.2 := by
  unfold lookup
  cases found : table.find? (fun other => other.1 = entry.1) with
  | none =>
    have absent := List.find?_eq_none.mp found entry member
    simp at absent
  | some other =>
    have same : other.1 = entry.1 := by simpa using List.find?_some found
    rw [List.inj_on_of_nodup_map distinct (List.mem_of_find?_eq_some found) member same]
    rfl

theorem mem_of_lookup {α : Type} {table : List (String × α)} {name : String} {value : α}
    (found : lookup table name = some value) : (name,value) ∈ table := by
  obtain ⟨entry,listed,rfl⟩ := Option.map_eq_some_iff.mp found
  have own : entry.1 = name := by simpa using List.find?_some listed
  exact own ▸ List.mem_of_find?_eq_some listed

namespace Policy

def requiredExecutingRoles : List String :=
  ["commercial-planner","governance-reviewer","project-orchestrator","software-implementer"]

def executingRoles : List String := requiredExecutingRoles ++ ["policy-reviewer"]

/-- A `frozenset` of texts, as the sorted list of its elements. -/
def frozen (values : List String) : List String := values.dedup.insertionSort (· ≤ ·)

theorem mem_frozen {values : List String} {value : String} : value ∈ frozen values ↔ value ∈ values := by
  rw [frozen,List.mem_insertionSort,List.mem_dedup]

theorem nodup_frozen {values : List String} : (frozen values).Nodup :=
  (List.perm_insertionSort (· ≤ ·) _).nodup_iff.mpr (List.nodup_dedup _)

theorem frozen_eq_iff {values others : List String} :
    frozen values = frozen others ↔ ∀ value, value ∈ values ↔ value ∈ others := by
  constructor
  · intro same value
    rw [← mem_frozen,same,mem_frozen]
  · intro same
    have reordered : (frozen values).Perm (frozen others) := by
      apply (List.perm_ext_iff_of_nodup nodup_frozen nodup_frozen).mpr
      intro value
      rw [mem_frozen,mem_frozen]
      exact same value
    exact reordered.eq_of_pairwise' (List.pairwise_insertionSort _ _) (List.pairwise_insertionSort _ _)

def joined (between : String) (parts : List String) : String := between.intercalate parts

def exactKeys (value : Json) (expected : List String) (path : String) : Except PolicyError Fields :=
  match value with
  | .obj fields => do
    let actual := fields.map Prod.fst
    let missing := frozen (expected.filter (fun name => name ∉ actual))
    let extra := frozen (actual.filter (fun name => name ∉ expected))
    let detail := (if missing = [] then [] else ["missing " ++ joined ", " missing]) ++
      if extra = [] then [] else ["unknown " ++ joined ", " extra]
    require (missing = [] ∧ extra = []) (.policy (path ++ " has invalid fields: " ++ joined "; " detail))
    return fields
  | _ => throw (.policy (path ++ " must be a mapping"))

/-! The regular expressions. -/

/-- `[a-z][a-z0-9]*(?:-[a-z0-9]+)*`. -/
def roleId (text : String) : Prop :=
  (∃ c ∈ text.toList.head?, c.isLower) ∧ ∀ part ∈ text.toList.splitOn '-', part ≠ [] ∧ ∀ c ∈ part, lowerAlnum c

instance : DecidablePred roleId := fun text => inferInstanceAs (Decidable
  ((∃ c ∈ text.toList.head?, c.isLower) ∧ ∀ part ∈ text.toList.splitOn '-', part ≠ [] ∧ ∀ c ∈ part, lowerAlnum c))

/-- `[A-Za-z0-9](?:[A-Za-z0-9-]{0,38})`. -/
def githubLogin (text : String) : Prop :=
  (∃ c ∈ text.toList.head?, c.isAlphanum) ∧ (∀ c ∈ text.toList, c.isAlphanum ∨ c = '-') ∧ text.length ≤ 39

instance : DecidablePred githubLogin := fun text => inferInstanceAs (Decidable
  ((∃ c ∈ text.toList.head?, c.isAlphanum) ∧ (∀ c ∈ text.toList, c.isAlphanum ∨ c = '-') ∧ text.length ≤ 39))

/-- `[0-9]+\.[0-9]+\.[0-9]+`. -/
def semanticVersion (text : String) : Prop :=
  (text.toList.splitOn '.').length = 3 ∧ ∀ part ∈ text.toList.splitOn '.', part ≠ [] ∧ ∀ c ∈ part, c.isDigit

instance : DecidablePred semanticVersion := fun text => inferInstanceAs (Decidable
  ((text.toList.splitOn '.').length = 3 ∧ ∀ part ∈ text.toList.splitOn '.', part ≠ [] ∧ ∀ c ∈ part, c.isDigit))

def nameChar (c : Char) : Prop := c.isAlphanum ∨ c ∈ ['_','.','-']

instance : DecidablePred nameChar := fun c => inferInstanceAs (Decidable (c.isAlphanum ∨ c ∈ ['_','.','-']))

/-- `[A-Za-z0-9_.-]+/[A-Za-z0-9_.-]+` with neither part `.` or `..`. -/
def ownerRepo (text : String) : Prop :=
  (text.toList.splitOn '/').length = 2 ∧
    ∀ part ∈ text.toList.splitOn '/', part ≠ [] ∧ (∀ c ∈ part, nameChar c) ∧ part ≠ ['.'] ∧ part ≠ ['.','.']

instance : DecidablePred ownerRepo := fun text => inferInstanceAs (Decidable
  ((text.toList.splitOn '/').length = 2 ∧
    ∀ part ∈ text.toList.splitOn '/', part ≠ [] ∧ (∀ c ∈ part, nameChar c) ∧ part ≠ ['.'] ∧ part ≠ ['.','.']))

/-- `[A-Za-z0-9/._-]+` without `..`. -/
def branchName (text : String) : Prop :=
  text ≠ "" ∧ (∀ c ∈ text.toList, nameChar c ∨ c = '/') ∧ ¬ contains text ".."

instance : DecidablePred branchName := fun text => inferInstanceAs (Decidable
  (text ≠ "" ∧ (∀ c ∈ text.toList, nameChar c ∨ c = '/') ∧ ¬ contains text ".."))

/-! The digest: `json.dumps(…, sort_keys=True, separators=(",", ":"), ensure_ascii=False)`. -/

def canonicalChar (c : Char) : List Char :=
  match JsonText.shortEscape c with
  | some named => ['\\',named]
  | none => if c < ' ' then JsonText.unit c.toNat else [c]

def canonicalText (value : String) : List Char := '"' :: (value.toList.flatMap canonicalChar ++ ['"'])

mutual

def canonical : Json → List Char
  | .null => "null".toList
  | .bool true => "true".toList
  | .bool false => "false".toList
  | .int value => (toString value).toList
  | .float numeral => numeral.toList
  | .str value => canonicalText value
  | .arr items => '[' :: (List.intercalate [','] (canonicalItems items) ++ [']'])
  | .obj fields =>
    '\x7b' :: (List.intercalate [',']
      (((canonicalFields fields).insertionSort (fun a b => a.1 ≤ b.1)).map
        (fun entry => canonicalText entry.1 ++ ':' :: entry.2)) ++ ['\x7d'])

def canonicalItems : List Json → List (List Char)
  | [] => []
  | item::rest => canonical item::canonicalItems rest

def canonicalFields : List (String × Json) → List (String × List Char)
  | [] => []
  | (name,value)::rest => (name,canonical value)::canonicalFields rest

end

def repositoryInput (entry : String × PolicyRepository) : String × Json :=
  (entry.1,.obj [("alias",.str entry.1),("slug",.str entry.2.slug),("default_branch",.str entry.2.defaultBranch)])

def roleInput (entry : String × CompiledRole) : String × Json :=
  (entry.1,.obj [("workers",.arr (entry.2.workerTypes.map Json.str)),
    ("max_per_wake",.int entry.2.maxWorkersPerWake),("max_concurrent",.int entry.2.maxWorkersConcurrent),
    ("repositories",.arr (entry.2.repositories.map Json.str)),("daily_token_budget",.int entry.2.dailyTokenBudget)])

def digestInput (p : CompiledPolicy) : Json :=
  .obj [("source_commit",.str p.sourceCommit),("org_id",.str p.orgId),("principal",.str p.principalGithub),
    ("control_version",.str p.controlVersion),("source_tree_sha256",.str p.sourceTreeSha256),
    ("organization_daily_token_budget",.int p.organizationDailyTokenBudget),
    ("global_max_agents",.int p.globalMaxAgents),("repositories",.obj (p.repositories.map repositoryInput)),
    ("roles",.obj (p.roles.map roleInput))]

section Compile
variable (lib : TextLibrary)

def digestOf (p : CompiledPolicy) : String :=
  "sha256:" ++ lib.sha256 (String.ofList (canonical (digestInput p))).toUTF8.data.toList

/-- `int(fields.get(name) or 0)`. -/
def intArgument (fields : Fields) (name : String) : Except PolicyError Int :=
  (lib.int (if (Json.get fields name).truthy then Json.get fields name else .int 0)).mapError .value

/-- `str(v) for v in fields.get(name) or default`. -/
def textsArgument (fields : Fields) (name : String) (default : List String) : Except PolicyError (List String) :=
  if (Json.get fields name).truthy then
    match Json.get fields name with
    | .arr items => .ok (frozen (items.map (Json.text lib.render)))
    | .obj entries => .ok (frozen (entries.map Prod.fst))
    | .str text => .ok (frozen (text.toList.map (fun c => String.ofList [c])))
    | _ => .error (.value "object is not iterable")
  else .ok (frozen default)

def compileRepository (data : Fields) (alias_ : String) : Except PolicyError (String × PolicyRepository) := do
  let raw ← exactKeys (Json.get data alias_) ["slug","defaultBranch"] ("repositories." ++ alias_)
  let slug := strip (textArgument lib raw "slug")
  let default := strip (Backend.textOrElse lib raw "defaultBranch" "main")
  require (ownerRepo slug) (.policy ("repositories." ++ alias_ ++ ".slug must be OWNER/REPO"))
  require (branchName default) (.policy ("repositories." ++ alias_ ++ ".defaultBranch is invalid"))
  return (alias_,⟨slug,default⟩)

def expectedWorkers (role : String) : List String :=
  if role = "commercial-planner" ∨ role = "policy-reviewer" then ["drafter","researcher"]
  else if role = "software-implementer" then ["drafter","implementer","researcher"]
  else []

def expectedRepositories (role : String) : List String :=
  if role = "software-implementer" then ["org","product"] else ["org"]

/-- One round over `agents`. -/
def compileRole (budget : Int) (roles : List (String × CompiledRole)) (raw : Json) :
    Except PolicyError (List (String × CompiledRole)) :=
  match raw with
  | .obj _ => do
    let raw ← exactKeys raw ["id","repositories","dailyTokenBudget","workers"] "agent"
    let role := strip (textArgument lib raw "id")
    require (role ∈ executingRoles) (.policy ("unknown or non-executing canonical role: " ++ lib.repr role))
    require (role ∉ roles.map Prod.fst) (.policy ("duplicate role: " ++ role))
    let workers ← exactKeys (Json.get raw "workers") ["allowed","maxPerWake","maxConcurrent"] (role ++ ".workers")
    let allowed ← textsArgument lib workers "allowed" []
    require (∀ name ∈ allowed, name ∈ ["researcher","drafter","implementer"])
      (.policy (role ++ ": unknown worker type"))
    let maxPerWake ← intArgument lib workers "maxPerWake"
    let maxConcurrent ← intArgument lib workers "maxConcurrent"
    require (¬ (min maxPerWake maxConcurrent < 0 ∨ maxPerWake < maxConcurrent))
      (.policy (role ++ ": invalid worker limits"))
    require ((allowed = [] ↔ maxPerWake = 0) ∧ (allowed = [] ↔ maxConcurrent = 0))
      (.policy (role ++ ": worker types and nonzero limits must be declared together"))
    require (allowed = expectedWorkers role)
      (.policy (role ++ ": worker capabilities differ from the canonical role"))
    let aliases ← textsArgument lib raw "repositories" ["org"]
    require (aliases = expectedRepositories role)
      (.policy (role ++ ": repository scope differs from the canonical role"))
    let dailyTokenBudget ← intArgument lib raw "dailyTokenBudget"
    require (¬ (dailyTokenBudget ≤ 0 ∨ budget < dailyTokenBudget))
      (.policy (role ++ ": dailyTokenBudget must be positive and within the organization budget"))
    return roles ++ [(role,{
      repositories := aliases
      workerTypes := allowed
      maxWorkersPerWake := maxPerWake
      maxWorkersConcurrent := maxConcurrent
      dailyTokenBudget := dailyTokenBudget })]
  | _ => throw (.policy "each agent must be a mapping")

def expectedGlobal (roles : List (String × CompiledRole)) : Int :=
  roles.length + (roles.map (fun entry => entry.2.maxWorkersConcurrent)).sum

def compilePolicy (data : Json) (sourceCommit : String) : Except PolicyError CompiledPolicy :=
  match data with
  | .obj _ => do
    let data ← exactKeys data ["apiVersion","kind","metadata","authority","repositories","controlRelease","budgets",
      "limits","agents","workflows"] "organization"
    require (isText (Json.get data "apiVersion") "scrum-jail.dev/v1" = true ∧
        isText (Json.get data "kind") "Organization" = true)
      (.policy "organization apiVersion or kind is unsupported")
    let metadata ← exactKeys (Json.get data "metadata") ["id"] "metadata"
    let authority ← exactKeys (Json.get data "authority") ["principalRole","principalGitHub","upstreamRole"] "authority"
    require (isText (Json.get authority "principalRole") "human-principal" = true)
      (.policy "authority.principalRole must be human-principal")
    require (isText (Json.get authority "upstreamRole") "portfolio-orchestrator" = true)
      (.policy "authority.upstreamRole must be portfolio-orchestrator")
    let orgId := strip (textArgument lib metadata "id")
    let principal := strip (textArgument lib authority "principalGitHub")
    let control ← exactKeys (Json.get data "controlRelease") ["version","sourceTreeSha256"] "controlRelease"
    let controlVersion := textArgument lib control "version"
    let sourceTreeSha256 := textArgument lib control "sourceTreeSha256"
    let budgets ← exactKeys (Json.get data "budgets") ["organizationDailyTokens"] "budgets"
    let budget ← intArgument lib budgets "organizationDailyTokens"
    let limits ← exactKeys (Json.get data "limits") ["globalMaxAgents"] "limits"
    let globalMaxAgents ← intArgument lib limits "globalMaxAgents"
    require (roleId orgId) (.policy "metadata.id must be lowercase kebab-case")
    require (githubLogin principal) (.policy "authority.principalGitHub is not a valid GitHub login")
    require (semanticVersion controlVersion) (.policy "controlRelease.version must be semantic x.y.z")
    require (hexChars 64 sourceTreeSha256.toList) (.policy "controlRelease.sourceTreeSha256 must be a SHA-256 digest")
    require (0 < budget) (.policy "budgets.organizationDailyTokens must be positive")
    require (0 < globalMaxAgents) (.policy "limits.globalMaxAgents must be positive")
    let repositoryData ← exactKeys (Json.get data "repositories") ["org","product"] "repositories"
    let repositories ← ["org","product"].mapM (compileRepository lib repositoryData)
    match Json.get data "agents" with
    | .arr agents => do
      let roles ← agents.foldlM (compileRole lib budget) []
      let missing := frozen (requiredExecutingRoles.filter (fun role => role ∉ roles.map Prod.fst))
      require (missing = []) (.policy ("missing required roles: " ++ joined ", " missing))
      require (globalMaxAgents = expectedGlobal roles)
        (.policy "limits.globalMaxAgents must equal parents plus concurrent worker caps")
      let workflows ← exactKeys (Json.get data "workflows") ["hostedExecution"] "workflows"
      require (isText (Json.get workflows "hostedExecution") "manual-only" = true)
        (.policy "workflows.hostedExecution must be manual-only")
      let policy : CompiledPolicy := ⟨orgId,principal,repositories,roles,sourceCommit,controlVersion,
        sourceTreeSha256,budget,globalMaxAgents,""⟩
      return {policy with policyDigest := digestOf lib policy}
    | _ => throw (.policy "agents must be a list")
  | _ => throw (.policy "organization policy must be a mapping")

end Compile

variable {lib : TextLibrary}

def RolesSound (roles : List (String × CompiledRole)) : Prop :=
  (roles.map Prod.fst).Nodup ∧ ∀ entry ∈ roles, 0 ≤ entry.2.maxWorkersConcurrent ∧
    entry.2.maxWorkersConcurrent ≤ entry.2.maxWorkersPerWake

theorem compileRole_sound {budget : Int} {roles next : List (String × CompiledRole)} {raw : Json}
    (sound : RolesSound roles) (ok : compileRole lib budget roles raw = .ok next) : RolesSound next := by
  unfold compileRole at ok
  split at ok
  next =>
    simp only [bind_ok,pure_ok] at ok
    obtain ⟨raw,_,⟨⟩,_,⟨⟩,new,workers,_,allowed,_,⟨⟩,_,maxPerWake,_,maxConcurrent,_,⟨⟩,limits,⟨⟩,_,⟨⟩,_,aliases,_,⟨⟩,_,
      dailyTokenBudget,_,⟨⟩,_,rfl⟩ := ok
    have new := require_ok.mp new
    have limits := require_ok.mp limits
    constructor
    · rw [List.map_append]
      exact sound.1.append (List.nodup_singleton _) (by simpa using new)
    · intro entry member
      rcases List.mem_append.mp member with old | own
      · exact sound.2 entry old
      · cases List.mem_singleton.mp own
        dsimp only
        omega
  next => cases ok

/-- An accepted policy has each role once, with worker caps in order, and the cap they need. -/
theorem compilePolicy_ok {data : Json} {sourceCommit : String} {policy : CompiledPolicy}
    (ok : compilePolicy lib data sourceCommit = .ok policy) :
    RolesSound policy.roles ∧ policy.globalMaxAgents = expectedGlobal policy.roles := by
  unfold compilePolicy at ok
  split at ok
  next =>
    obtain ⟨data,_,ok⟩ := bind_ok.mp ok
    obtain ⟨_,ok⟩ := require_bind_ok.mp ok
    obtain ⟨metadata,_,ok⟩ := bind_ok.mp ok
    obtain ⟨authority,_,ok⟩ := bind_ok.mp ok
    obtain ⟨_,ok⟩ := require_bind_ok.mp ok
    obtain ⟨_,ok⟩ := require_bind_ok.mp ok
    obtain ⟨control,_,ok⟩ := bind_ok.mp ok
    obtain ⟨budgets,_,ok⟩ := bind_ok.mp ok
    obtain ⟨budget,_,ok⟩ := bind_ok.mp ok
    obtain ⟨limits,_,ok⟩ := bind_ok.mp ok
    obtain ⟨globalMaxAgents,_,ok⟩ := bind_ok.mp ok
    simp only [require_bind_ok] at ok
    obtain ⟨_,_,_,_,_,_,ok⟩ := ok
    obtain ⟨repositoryData,_,ok⟩ := bind_ok.mp ok
    obtain ⟨repositories,_,ok⟩ := bind_ok.mp ok
    split at ok
    next agents _ =>
      obtain ⟨roles,gathered,ok⟩ := bind_ok.mp ok
      simp only [require_bind_ok] at ok
      obtain ⟨_,cap,ok⟩ := ok
      obtain ⟨workflows,_,ok⟩ := bind_ok.mp ok
      obtain ⟨_,ok⟩ := require_bind_ok.mp ok
      cases pure_ok.mp ok
      have initially : RolesSound [] := ⟨List.nodup_nil,by simp⟩
      exact ⟨foldlM_ok (fun _ _ _ sound ok => compileRole_sound sound ok) initially gathered,cap⟩
    next => cases ok
  next => cases ok

end Policy
end SjgControl

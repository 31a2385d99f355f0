import SjgControl.Disk
import SjgControl.Headroom

/-! `load_supervisor_config`: the host's configuration, and what it keeps out of the agents'
workspaces. -/
namespace SjgControl
open Relational PosixPath

/-- `HostConfigError`, and what the checks let through. -/
inductive HostConfigException where
  | config (message : String)
  | value (message : String)
  | type (message : String)
  deriving DecidableEq

structure GitHubHostConfig where
  executable : String
  tokenFile : String
  home : String
  projectOwner : Option String
  projectNumber : Option Int
  deriving DecidableEq

structure ProviderHostConfig where
  provider : String
  executable : String
  managedHome : String
  policyRoot : String
  allowedVersions : List String
  roleModels : List (String × String)
  workerModels : List (String × String)
  timeoutSeconds : Int
  deriving DecidableEq

structure SupervisorConfig where
  organization : String
  wakeRules : String
  wakeRulesSha256 : String
  stateDatabase : String
  adminSocket : String
  wakeSocketDirectory : String
  scratchDirectory : String
  workspaces : List (String × List (String × String))
  github : GitHubHostConfig
  provider : ProviderHostConfig
  operatorUid : Int
  agentUid : Int
  agentGid : Int
  mode : String
  pollIntervalSeconds : Int
  sessionTtlSeconds : Int
  deliveryLeaseSeconds : Int
  roleTokenReservations : List (String × Int)
  initialWatermark : String
  deriving DecidableEq

def SupervisorConfig.workspacePaths (c : SupervisorConfig) : List String :=
  c.workspaces.flatMap (fun entry => entry.2.map Prod.snd)

/-- The paths that the supervisor trusts, the one of its configuration file first. -/
def SupervisorConfig.trusted (c : SupervisorConfig) (path : String) : List String :=
  [path,c.organization,c.wakeRules,c.github.tokenFile,c.github.home,c.provider.managedHome,c.provider.policyRoot,
    c.stateDatabase,c.adminSocket,c.wakeSocketDirectory,c.scratchDirectory]

inductive HostNode where
  | file
  | directory
  | link
  | other
  deriving DecidableEq

/-- The configuration file as `lstat` and `json.loads` give it. -/
structure ConfigFile where
  path : String
  node : HostNode
  uid : Nat
  mode : Disk.Mode
  data : Json

/-- The machine: what stands at an absolute path, the working directory and the effective user
of the supervisor. -/
structure HostMachine where
  node : List Name → Option HostNode
  cwd : List Name
  euid : Nat

def Json.names : Json → Option (List String)
  | .obj fields => some (fields.map Prod.fst)
  | _ => none

namespace HostConfig

/-- `Path.resolve` on a path without links: single dots are gone, double dots go up. -/
def collapse (base : List Name) (names : List Name) : List Name :=
  names.foldl (fun done name => if name = ['.','.'] then done.dropLast else done ++ [name]) base

def resolved (m : HostMachine) (path : String) : List Name :=
  collapse (if root path.toList = [] then m.cwd else []) (parts path.toList)

def resolve (m : HostMachine) (path : String) : Except HostConfigException (List Name) := do
  require ('\x00' ∉ path.toList) (.value "embedded null byte")
  return resolved m path

def parents (p : List Name) : List (List Name) := (List.range p.length).reverse.map (fun n => p.take n)

/-- `set(a) == set(b)`. -/
def SameNames (a b : List String) : Prop := (∀ name ∈ a, name ∈ b) ∧ ∀ name ∈ b, name ∈ a

instance (a b : List String) : Decidable (SameNames a b) := inferInstanceAs (Decidable (_ ∧ _))

def invalidFields (fields actual : List String) (path : String) : String :=
  let missing := Policy.frozen (fields.filter (fun name => name ∉ actual))
  let extra := Policy.frozen (actual.filter (fun name => name ∉ fields))
  let detail := (if missing = [] then [] else ["missing " ++ Policy.joined ", " missing]) ++
    if extra = [] then [] else ["unknown " ++ Policy.joined ", " extra]
  path ++ " has invalid fields: " ++ if detail = [] then "not an object" else Policy.joined "; " detail

def exact_ (value : Json) (fields : List String) (path : String) : Except HostConfigException Fields :=
  match value with
  | .obj given => do
    require (SameNames (given.map Prod.fst) fields) (.config (invalidFields fields (given.map Prod.fst) path))
    return given
  | _ => throw (.config (invalidFields fields [] path))

/-- `isinstance(value, int)`: truth values are integers. -/
def asInt : Json → Option Int
  | .int value => some value
  | .bool value => some (if value then 1 else 0)
  | _ => none

/-- `[A-Za-z0-9_.-]{1,100}`. -/
def ownerName (text : String) : Prop := text ≠ "" ∧ text.length ≤ 100 ∧ ∀ c ∈ text.toList, Policy.nameChar c

instance : DecidablePred ownerName := fun text =>
  inferInstanceAs (Decidable (text ≠ "" ∧ text.length ≤ 100 ∧ ∀ c ∈ text.toList, Policy.nameChar c))

/-- `[A-Za-z0-9][A-Za-z0-9._:-]{0,127}`. -/
def modelId (text : String) : Prop :=
  (∃ c ∈ text.toList.head?, c.isAlphanum) ∧ text.length ≤ 128 ∧ ∀ c ∈ text.toList, Policy.nameChar c ∨ c = ':'

instance : DecidablePred modelId := fun text => inferInstanceAs (Decidable
  ((∃ c ∈ text.toList.head?, c.isAlphanum) ∧ text.length ≤ 128 ∧ ∀ c ∈ text.toList, Policy.nameChar c ∨ c = ':'))

/-- A text against a pattern in which `0` stands for any digit. -/
def shaped : List Char → List Char → Bool
  | [],[] => true
  | p::pattern,c::text => (if p = '0' then c.isDigit else p = c) && shaped pattern text
  | _,_ => false

/-- A text of a mapping's values, each with its key. -/
def textValues (value : Json) : Option (List (String × String)) :=
  match value with
  | .obj fields => fields.mapM (fun entry => match entry.2 with
    | .str text => some (entry.1,text)
    | _ => none)
  | _ => none

section Load
variable (lib : TextLibrary) (m : HostMachine)

def absolute (value : Json) (path : String) (mustExist : Bool) (directory : Option Bool) : Except HostConfigException String := do
  let raw := (value.textOr lib.render).toList
  require (root raw ≠ [] ∧ ['.','.'] ∉ parts raw) (.config (path ++ " must be an absolute normalized path"))
  if mustExist then
    require ('\x00' ∉ raw) (.value "embedded null byte")
    let node ← fetch (m.node (parts raw)) (.config (path ++ " does not exist"))
    require (node ≠ .link) (.config (path ++ " must not be a symlink"))
    require (directory = some true → node = .directory) (.config (path ++ " must be a directory"))
    require (directory = some false → node = .file) (.config (path ++ " must be a regular file"))
  return String.ofList (text raw)

def loadGithub (value : Json) : Except HostConfigException GitHubHostConfig := do
  let data ← exact_ value ["executable","tokenFile","home","projectOwner","projectNumber"] "github"
  let executable ← absolute lib m (Json.get data "executable") "github.executable" true (some false)
  let tokenFile ← absolute lib m (Json.get data "tokenFile") "github.tokenFile" false none
  let home ← absolute lib m (Json.get data "home") "github.home" true (some true)
  let owner := match Json.get data "projectOwner" with
    | .null => none
    | value => some (value.text lib.render)
  let number := match Json.get data "projectNumber" with
    | .null => none
    | value => some (asInt value)
  require (owner.isNone = number.isNone) (.config "GitHub Project owner and number must be configured together")
  require (∀ name ∈ owner, ownerName name) (.config "github.projectOwner is invalid")
  require (∀ value ∈ number, ∃ n ∈ value, 0 < n) (.config "github.projectNumber must be positive")
  return ⟨executable,tokenFile,home,owner,number.join⟩

def loadProvider (policy : CompiledPolicy) (value : Json) : Except HostConfigException ProviderHostConfig := do
  let data ← exact_ value ["kind","executable","managedHome","policyRoot","allowedVersions","roleModels","workerModels",
    "timeoutSeconds"] "provider"
  let kind := (Json.get data "kind").text lib.render
  require (kind ∈ ["codex-cli","claude-cli"]) (.config "provider.kind must be codex-cli or claude-cli")
  let executable ← absolute lib m (Json.get data "executable") "provider.executable" true (some false)
  let managedHome ← absolute lib m (Json.get data "managedHome") "provider.managedHome" true (some true)
  let policyRoot ← absolute lib m (Json.get data "policyRoot") "provider.policyRoot" false none
  require (∀ node ∈ m.node (parts policyRoot.toList), node = .directory)
    (.config "provider.policyRoot must be a non-symlink directory when present")
  let versions ← fetch (match Json.get data "allowedVersions" with
      | .arr items => items.mapM (fun item => match item with
        | .str version => some version
        | _ => none)
      | _ => none)
    (.config "provider.allowedVersions must be non-empty semantic versions")
  require (versions ≠ [] ∧ (∀ version ∈ versions, Policy.semanticVersion version) ∧ versions.Nodup)
    (.config "provider.allowedVersions must be non-empty semantic versions")
  let roleModels := Json.get data "roleModels"
  let workerModels := Json.get data "workerModels"
  require (∃ names ∈ roleModels.names, SameNames names (policy.roles.map Prod.fst))
    (.config "provider.roleModels must map every and only configured role")
  require (∃ names ∈ workerModels.names, SameNames names ["researcher","drafter","implementer"])
    (.config "provider.workerModels must map all three named worker types")
  let roles ← fetch (textValues roleModels) (.config "provider model ids must use the sealed model-id grammar")
  let workers ← fetch (textValues workerModels) (.config "provider model ids must use the sealed model-id grammar")
  require (∀ entry ∈ roles ++ workers, modelId entry.2) (.config "provider model ids must use the sealed model-id grammar")
  let timeout ← fetch (asInt (Json.get data "timeoutSeconds")) (.config "provider.timeoutSeconds must be between 30 and 86400")
  require (30 ≤ timeout ∧ timeout ≤ 86400) (.config "provider.timeoutSeconds must be between 30 and 86400")
  return ⟨kind,executable,managedHome,policyRoot,Policy.frozen versions,roles,workers,timeout⟩

def loadAliases (policy : CompiledPolicy) (entry : String × Json) :
    Except HostConfigException (String × List (String × String)) := do
  let expected := ((lookup policy.roles entry.1).map (fun role => role.repositories)).getD []
  match entry.2 with
  | .obj aliases => do
    require (SameNames (aliases.map Prod.fst) expected)
      (.config ("workspaces." ++ entry.1 ++ " must map its exact repository scope"))
    let compiled ← aliases.mapM (fun alias_ => do
      let path ← absolute lib m alias_.2 ("workspaces." ++ entry.1 ++ "." ++ alias_.1) true (some true)
      return (alias_.1,path))
    return (entry.1,compiled)
  | _ => throw (.config ("workspaces." ++ entry.1 ++ " must map its exact repository scope"))

def loadWorkspaces (policy : CompiledPolicy) (value : Json) :
    Except HostConfigException (List (String × List (String × String))) :=
  match value with
  | .obj workspaces => do
    require (SameNames (workspaces.map Prod.fst) (policy.roles.map Prod.fst))
      (.config "workspaces must map every and only configured role")
    workspaces.mapM (loadAliases lib m policy)
  | _ => throw (.config "workspaces must map every and only configured role")

def loadReservation (policy : CompiledPolicy) (entry : String × Json) : Except HostConfigException (String × Int) := do
  let envelope := ((lookup policy.roles entry.1).map CompiledRole.dailyTokenBudget).getD 0
  let tokens ← fetch (asInt entry.2) (.config ("roleTokenReservations." ++ entry.1 ++ " exceeds its daily role envelope"))
  require (0 < tokens ∧ tokens ≤ envelope)
    (.config ("roleTokenReservations." ++ entry.1 ++ " exceeds its daily role envelope"))
  require (tokens ≤ policy.organizationDailyTokenBudget)
    (.config ("roleTokenReservations." ++ entry.1 ++ " exceeds the organization envelope"))
  return (entry.1,tokens)

def loadReservations (policy : CompiledPolicy) (value : Json) : Except HostConfigException (List (String × Int)) :=
  match value with
  | .obj reservations => do
    require (SameNames (reservations.map Prod.fst) (policy.roles.map Prod.fst))
      (.config "roleTokenReservations must map every and only configured role")
    reservations.mapM (loadReservation policy)
  | _ => throw (.config "roleTokenReservations must map every and only configured role")

/-- The fields of `integers`, in their order. -/
structure Integers where
  operatorUid : Int
  agentUid : Int
  agentGid : Int
  pollIntervalSeconds : Int
  sessionTtlSeconds : Int
  deliveryLeaseSeconds : Int
  deriving DecidableEq

def natural (root : Fields) (name : String) : Except HostConfigException Int :=
  match Json.get root name with
  | .int value =>
    if 0 ≤ value then .ok value
    else .error (.config "supervisor UID and interval fields must be non-negative integers")
  | _ => .error (.config "supervisor UID and interval fields must be non-negative integers")

def loadIntegers (root : Fields) (timeout : Int) : Except HostConfigException Integers := do
  let operatorUid ← natural root "operatorUid"
  let agentUid ← natural root "agentUid"
  let agentGid ← natural root "agentGid"
  let pollIntervalSeconds ← natural root "pollIntervalSeconds"
  let sessionTtlSeconds ← natural root "sessionTtlSeconds"
  let deliveryLeaseSeconds ← natural root "deliveryLeaseSeconds"
  require (operatorUid ≠ agentUid) (.config "operator and agent identities must use different OS UIDs")
  require (agentUid ≠ 0 ∧ agentGid ≠ 0) (.config "agent UID and GID must be unprivileged")
  require (5 ≤ pollIntervalSeconds) (.config "pollIntervalSeconds must be at least 5")
  require (60 ≤ sessionTtlSeconds ∧ 60 ≤ deliveryLeaseSeconds) (.config "session and delivery leases must be at least 60 seconds")
  require (timeout + 60 ≤ sessionTtlSeconds ∧ timeout + 60 ≤ deliveryLeaseSeconds)
    (.config "session and delivery leases must exceed the provider timeout by at least 60 seconds")
  return ⟨operatorUid,agentUid,agentGid,pollIntervalSeconds,sessionTtlSeconds,deliveryLeaseSeconds⟩

/-- `root["mode"] in {"shadow", "live"}`; a container is unhashable. -/
def loadMode (value : Json) : Except HostConfigException String :=
  match value with
  | .str mode => do
    require (mode ∈ ["shadow","live"]) (.config "mode must be shadow or live")
    return mode
  | .arr _ => throw (.type "unhashable type: 'list'")
  | .obj _ => throw (.type "unhashable type: 'dict'")
  | _ => throw (.config "mode must be shadow or live")

/-- `candidate == root or root in candidate.parents or candidate in root.parents`. -/
def Touches (candidate workspace : List Name) : Prop :=
  candidate = workspace ∨ workspace ∈ parents candidate ∨ candidate ∈ parents workspace

instance (candidate workspace : List Name) : Decidable (Touches candidate workspace) :=
  inferInstanceAs (Decidable (_ ∨ _))

def supervisorFields : List String :=
  ["organization","wakeRules","wakeRulesSha256","stateDatabase","adminSocket","wakeSocketDirectory","scratchDirectory",
    "workspaces","github","provider","operatorUid","agentUid","agentGid","mode","pollIntervalSeconds","sessionTtlSeconds",
    "deliveryLeaseSeconds","roleTokenReservations","initialWatermark"]

/-- `load_supervisor_config`; the reading of the file may fail with a text. -/
def loadSupervisorConfig (policy : CompiledPolicy) (file : Except String ConfigFile) :
    Except HostConfigException SupervisorConfig := do
  let config ← file.mapError (fun e => .config ("supervisor configuration is unreadable or invalid: " ++ e))
  require (config.node = .file) (.config "supervisor configuration must be a regular non-symlink file")
  require (config.uid = m.euid) (.config "supervisor configuration must be owned by the supervisor identity")
  require (config.mode &&& 0o022#12 = 0) (.config "supervisor configuration must not be group/world writable")
  let root ← exact_ config.data supervisorFields "supervisor"
  let github ← loadGithub lib m (Json.get root "github")
  let provider ← loadProvider lib m policy (Json.get root "provider")
  let workspaces ← loadWorkspaces lib m policy (Json.get root "workspaces")
  let reservations ← loadReservations policy (Json.get root "roleTokenReservations")
  let integers ← loadIntegers root provider.timeoutSeconds
  let mode ← loadMode (Json.get root "mode")
  let watermark := (Json.get root "initialWatermark").text lib.render
  require (shaped "0000-00-00T00:00:00Z".toList watermark.toList) (.config "initialWatermark must be UTC RFC3339 seconds")
  let wakeRulesSha256 := (Json.get root "wakeRulesSha256").text lib.render
  require (hexChars 64 wakeRulesSha256.toList) (.config "wakeRulesSha256 must be a SHA-256 digest")
  let authorityPaths ← [config.path,github.tokenFile,github.home,provider.managedHome,provider.policyRoot,
    (Json.get root "stateDatabase").text lib.render,(Json.get root "adminSocket").text lib.render,
    (Json.get root "wakeSocketDirectory").text lib.render,(Json.get root "scratchDirectory").text lib.render].mapM (resolve m)
  let workspaceRoots ← (workspaces.flatMap (fun entry => entry.2.map Prod.snd)).mapM (resolve m)
  require (∀ workspace ∈ workspaceRoots, ∀ candidate ∈ authorityPaths, ¬ Touches candidate workspace)
    (.config "host authority or mutable state must remain outside agent workspaces")
  let organization ← absolute lib m (Json.get root "organization") "organization" true (some false)
  let wakeRules ← absolute lib m (Json.get root "wakeRules") "wakeRules" true (some false)
  let stateDatabase ← absolute lib m (Json.get root "stateDatabase") "stateDatabase" false none
  let adminSocket ← absolute lib m (Json.get root "adminSocket") "adminSocket" false none
  let wakeSocketDirectory ← absolute lib m (Json.get root "wakeSocketDirectory") "wakeSocketDirectory" false none
  let scratchDirectory ← absolute lib m (Json.get root "scratchDirectory") "scratchDirectory" false none
  return ⟨organization,wakeRules,wakeRulesSha256,stateDatabase,adminSocket,wakeSocketDirectory,scratchDirectory,workspaces,
    github,provider,integers.operatorUid,integers.agentUid,integers.agentGid,mode,integers.pollIntervalSeconds,
    integers.sessionTtlSeconds,integers.deliveryLeaseSeconds,reservations,watermark⟩

end Load

/-! What is kept out of the workspaces. -/

/-- Neither path is the other, inside it or above it. -/
def Apart (p q : List Name) : Prop := ¬ p <+: q ∧ ¬ q <+: p

instance (p q : List Name) : Decidable (Apart p q) := inferInstanceAs (Decidable (_ ∧ _))

theorem mem_parents {p q : List Name} : q ∈ parents p ↔ q <+: p ∧ q ≠ p := by
  unfold parents
  simp only [List.mem_map,List.mem_reverse,List.mem_range]
  constructor
  · rintro ⟨n,short,rfl⟩
    refine ⟨List.take_prefix n p,?_⟩
    intro same
    have lengths := congrArg List.length same
    rw [List.length_take] at lengths
    omega
  · rintro ⟨front,other⟩
    have taken := List.prefix_iff_eq_take.mp front
    refine ⟨q.length,?_,taken.symm⟩
    by_contra long
    rw [List.take_of_length_le (Nat.not_lt.mp long)] at taken
    exact other taken

theorem touches_iff {candidate workspace : List Name} : ¬ Touches candidate workspace ↔ Apart candidate workspace := by
  unfold Touches Apart
  simp only [mem_parents,not_or,not_and,not_not]
  constructor
  · rintro ⟨other,inside,above⟩
    exact ⟨fun front => other (above front),fun front => other (inside front).symm⟩
  · rintro ⟨above,inside⟩
    exact ⟨fun same => above (same ▸ List.prefix_rfl),fun front => absurd front inside,fun front => absurd front above⟩

variable {lib : TextLibrary} {m : HostMachine}

theorem collapse_plain {base names : List Name} (plain : ['.','.'] ∉ names) : collapse base names = base ++ names := by
  unfold collapse
  induction names generalizing base with
  | nil => simp
  | cons name rest ih =>
    rw [List.mem_cons,not_or] at plain
    rw [List.foldl_cons,if_neg (Ne.symm plain.1),ih plain.2]
    simp

def given (lib : TextLibrary) (value : Json) : List Name := parts (value.textOr lib.render).toList

theorem absolute_ok {value : Json} {name path : String} {mustExist : Bool} {directory : Option Bool}
    (ok : absolute lib m value name mustExist directory = .ok path) :
    root (value.textOr lib.render).toList ≠ [] ∧ ['.','.'] ∉ given lib value ∧
      path = String.ofList (text (value.textOr lib.render).toList) := by
  unfold absolute at ok
  obtain ⟨⟨rooted,plain⟩,ok⟩ := require_bind_ok.mp ok
  refine ⟨rooted,plain,?_⟩
  cases mustExist with
  | false => exact (pure_ok.mp ok).symm
  | true =>
    simp only [if_true,require_bind_ok,fetch_bind_ok] at ok
    obtain ⟨_,_,_,_,_,_,ok⟩ := ok
    exact (pure_ok.mp ok).symm

theorem absolute_resolved {value : Json} {name path : String} {mustExist : Bool} {directory : Option Bool}
    (ok : absolute lib m value name mustExist directory = .ok path) : resolved m path = given lib value := by
  obtain ⟨rooted,plain,rfl⟩ := absolute_ok ok
  unfold resolved
  rw [String.toList_ofList,if_neg (root_text rooted),parts_text rooted]
  exact collapse_plain plain

theorem absolute_text {value : Json} {name path : String} {mustExist : Bool} {directory : Option Bool}
    (ok : absolute lib m value name mustExist directory = .ok path) : resolved m (value.text lib.render) = resolved m path := by
  rw [absolute_resolved ok]
  obtain ⟨rooted,plain,_⟩ := absolute_ok ok
  have some_ : value.truthy = true := by
    by_contra empty
    unfold Json.textOr at rooted
    rw [if_neg empty] at rooted
    exact rooted rfl
  have same : value.textOr lib.render = value.text lib.render := if_pos some_
  unfold given at plain ⊢
  unfold resolved
  rw [same] at rooted plain ⊢
  rw [if_neg rooted,collapse_plain plain,List.nil_append]

theorem resolve_ok {path : String} {p : List Name} (ok : resolve m path = .ok p) : p = resolved m path :=
  (pure_ok.mp (require_bind_ok.mp ok).2).symm

theorem resolves {paths : List String} {results : List (List Name)} (ok : paths.mapM (resolve m) = .ok results) :
    results = paths.map (resolved m) := by
  have each := mapM_ok (g := id) (h := resolved m) (fun _ _ _ ok => resolve_ok ok) ok
  simpa using each

def aliasPaths (lib : TextLibrary) : Json → List (List Name)
  | .obj aliases => aliases.map (fun alias_ => given lib alias_.2)
  | _ => []

def agentWorkspaces (lib : TextLibrary) : Json → List (List Name)
  | .obj entries => entries.flatMap (fun entry => aliasPaths lib entry.2)
  | _ => []

/-- No trusted path is a workspace, lies inside one or above one. -/
def Withheld (m : HostMachine) (c : SupervisorConfig) (path : String) : Prop :=
  ∀ candidate ∈ c.trusted path, ∀ workspace ∈ c.workspacePaths,
    Apart (resolved m candidate) (resolved m workspace)

instance (m : HostMachine) (c : SupervisorConfig) (path : String) : Decidable (Withheld m c path) :=
  inferInstanceAs (Decidable (∀ candidate ∈ c.trusted path, ∀ workspace ∈ c.workspacePaths,
    Apart (resolved m candidate) (resolved m workspace)))

theorem loadAliases_ok {policy : CompiledPolicy} {entry : String × Json} {loaded : String × List (String × String)}
    (ok : loadAliases lib m policy entry = .ok loaded) :
    loaded.2.map (fun alias_ => resolved m alias_.2) = aliasPaths lib entry.2 := by
  unfold loadAliases at ok
  dsimp only at ok
  split at ok
  next aliases given_ =>
    obtain ⟨_,ok⟩ := require_bind_ok.mp ok
    obtain ⟨compiled,each,ok⟩ := bind_ok.mp ok
    cases pure_ok.mp ok
    rw [given_]
    refine mapM_ok ?_ each
    intro alias_ _ result ok
    obtain ⟨path,absolute_,ok⟩ := bind_ok.mp ok
    cases pure_ok.mp ok
    exact absolute_resolved absolute_
  next => cases ok

theorem loadWorkspaces_ok {policy : CompiledPolicy} {value : Json} {loaded : List (String × List (String × String))}
    (ok : loadWorkspaces lib m policy value = .ok loaded) :
    (loaded.flatMap (fun entry => entry.2.map Prod.snd)).map (resolved m) = agentWorkspaces lib value := by
  unfold loadWorkspaces at ok
  split at ok
  next entries =>
    obtain ⟨_,ok⟩ := require_bind_ok.mp ok
    have each : loaded.map (fun entry => entry.2.map (fun alias_ => resolved m alias_.2)) =
        entries.map (fun entry => aliasPaths lib entry.2) := by
      refine mapM_ok ?_ ok
      intro entry _ result loaded
      exact loadAliases_ok loaded
    have flat := congrArg List.flatten each
    rw [← List.flatMap_def,← List.flatMap_def] at flat
    rw [List.map_flatMap,agentWorkspaces,← flat]
    simp only [List.map_map]
    rfl
  next => cases ok

/-- What an accepted configuration was found to be. -/
structure Loaded (lib : TextLibrary) (m : HostMachine) (file : ConfigFile) (c : SupervisorConfig) (root : Fields) : Prop where
  document : file.data = .obj root
  workspaces : c.workspacePaths.map (resolved m) = agentWorkspaces lib (Json.get root "workspaces")
  organization : resolved m c.organization = given lib (Json.get root "organization")
  wakeRules : resolved m c.wakeRules = given lib (Json.get root "wakeRules")
  checked : ∀ candidate ∈ [file.path,c.github.tokenFile,c.github.home,c.provider.managedHome,c.provider.policyRoot,
      c.stateDatabase,c.adminSocket,c.wakeSocketDirectory,c.scratchDirectory],
    ∀ workspace ∈ c.workspacePaths, Apart (resolved m candidate) (resolved m workspace)

theorem exact_ok {value : Json} {fields : List String} {path : String} {read : Fields}
    (ok : exact_ value fields path = .ok read) : value = .obj read := by
  unfold exact_ at ok
  split at ok
  next => rw [pure_ok.mp (require_bind_ok.mp ok).2]
  next => cases ok

theorem loadSupervisorConfig_ok {policy : CompiledPolicy} {file : ConfigFile} {c : SupervisorConfig}
    (ok : loadSupervisorConfig lib m policy (.ok file) = .ok c) : ∃ root, Loaded lib m file c root := by
  unfold loadSupervisorConfig at ok
  obtain ⟨config,read,ok⟩ := bind_ok.mp ok
  cases read
  simp only [require_bind_ok] at ok
  obtain ⟨_,_,_,ok⟩ := ok
  obtain ⟨root,document,ok⟩ := bind_ok.mp ok
  obtain ⟨github,_,ok⟩ := bind_ok.mp ok
  obtain ⟨provider,_,ok⟩ := bind_ok.mp ok
  obtain ⟨workspaces,loaded,ok⟩ := bind_ok.mp ok
  obtain ⟨reservations,_,ok⟩ := bind_ok.mp ok
  obtain ⟨integers,_,ok⟩ := bind_ok.mp ok
  obtain ⟨mode,_,ok⟩ := bind_ok.mp ok
  simp only [require_bind_ok] at ok
  obtain ⟨_,_,ok⟩ := ok
  obtain ⟨authorityPaths,authority,ok⟩ := bind_ok.mp ok
  obtain ⟨workspaceRoots,roots,ok⟩ := bind_ok.mp ok
  obtain ⟨separate,ok⟩ := require_bind_ok.mp ok
  obtain ⟨organization,one,ok⟩ := bind_ok.mp ok
  obtain ⟨wakeRules,two,ok⟩ := bind_ok.mp ok
  obtain ⟨stateDatabase,three,ok⟩ := bind_ok.mp ok
  obtain ⟨adminSocket,four,ok⟩ := bind_ok.mp ok
  obtain ⟨wakeSocketDirectory,five,ok⟩ := bind_ok.mp ok
  obtain ⟨scratchDirectory,six,ok⟩ := bind_ok.mp ok
  cases pure_ok.mp ok
  rw [resolves authority,resolves roots] at separate
  refine ⟨root,exact_ok document,loadWorkspaces_ok loaded,absolute_resolved one,absolute_resolved two,?_⟩
  intro candidate listed workspace member
  have apart {path : String} (among : path ∈ [file.path,github.tokenFile,github.home,provider.managedHome,provider.policyRoot,
      (Json.get root "stateDatabase").text lib.render,(Json.get root "adminSocket").text lib.render,
      (Json.get root "wakeSocketDirectory").text lib.render,(Json.get root "scratchDirectory").text lib.render]) :
      Apart (resolved m path) (resolved m workspace) :=
    touches_iff.mp (separate _ (List.mem_map_of_mem member) _ (List.mem_map_of_mem among))
  simp only [List.mem_cons,List.not_mem_nil,or_false] at listed
  rcases listed with rfl | rfl | rfl | rfl | rfl | rfl | rfl | rfl | rfl
  · exact apart (by simp)
  · exact apart (by simp)
  · exact apart (by simp)
  · exact apart (by simp)
  · exact apart (by simp)
  · exact absolute_text three ▸ apart (by simp)
  · exact absolute_text four ▸ apart (by simp)
  · exact absolute_text five ▸ apart (by simp)
  · exact absolute_text six ▸ apart (by simp)

/-- The organization policy and the wake rules stand outside the workspaces of the document. -/
def PoliciesApart (lib : TextLibrary) (data : Json) : Prop :=
  ∀ root, data = .obj root → ∀ workspace ∈ agentWorkspaces lib (Json.get root "workspaces"),
    Apart (given lib (Json.get root "organization")) workspace ∧ Apart (given lib (Json.get root "wakeRules")) workspace

/-- An accepted configuration keeps the host's authority out of the workspaces just when the
document itself keeps the two policies out of them, which nothing checks. -/
theorem authority_outside_iff (lib : TextLibrary) (m : HostMachine) (policy : CompiledPolicy) (file : ConfigFile)
    (c : SupervisorConfig) (accepted : loadSupervisorConfig lib m policy (.ok file) = .ok c) :
    Withheld m c file.path ↔ PoliciesApart lib file.data := by
  obtain ⟨root,loaded⟩ := loadSupervisorConfig_ok accepted
  constructor
  · intro withheld root' document workspace member
    cases loaded.document.symm.trans document
    rw [← loaded.workspaces] at member
    obtain ⟨path,listed,rfl⟩ := List.mem_map.mp member
    rw [← loaded.organization,← loaded.wakeRules]
    exact ⟨withheld _ (by simp [SupervisorConfig.trusted]) path listed,withheld _ (by simp [SupervisorConfig.trusted]) path listed⟩
  · intro policies candidate among workspace member
    have inside : resolved m workspace ∈ agentWorkspaces lib (Json.get root "workspaces") :=
      loaded.workspaces ▸ List.mem_map_of_mem member
    have apart := policies root loaded.document _ inside
    rw [← loaded.organization,← loaded.wakeRules] at apart
    simp only [SupervisorConfig.trusted,List.mem_cons,List.not_mem_nil,or_false] at among
    rcases among with rfl | rfl | rfl | among
    · exact loaded.checked _ List.mem_cons_self workspace member
    · exact apart.1
    · exact apart.2
    · exact loaded.checked candidate (List.mem_cons_of_mem _ (by simpa using among)) workspace member

/-! A host with the four required roles. -/

/-- Names with a dot in them are files, all others directories. -/
def machine : HostMachine where
  node p := if ∃ name ∈ p.getLast?, '.' ∈ name then some .file else some .directory
  cwd := []
  euid := 0

def workspace (role alias_ : String) : String × Json := (alias_,.str ("/work/" ++ role ++ "/" ++ alias_))

def hostDocument (organization : String) : Json :=
  .obj [("organization",.str organization),("wakeRules",.str "/etc/sjg/rules.yaml"),
    ("wakeRulesSha256",.str "0123456789abcdef0123456789abcdef0123456789abcdef0123456789abcdef"),
    ("stateDatabase",.str "/var/sjg/state.db"),("adminSocket",.str "/run/sjg/admin"),("wakeSocketDirectory",.str "/run/sjg/wakes"),
    ("scratchDirectory",.str "/var/sjg/scratch"),
    ("workspaces",.obj [("project-orchestrator",.obj [workspace "project-orchestrator" "org"]),
      ("commercial-planner",.obj [workspace "commercial-planner" "org"]),
      ("software-implementer",.obj [workspace "software-implementer" "org",workspace "software-implementer" "product"]),
      ("governance-reviewer",.obj [workspace "governance-reviewer" "org"])]),
    ("github",.obj [("executable",.str "/usr/bin/gh.bin"),("tokenFile",.str "/etc/sjg/token"),("home",.str "/var/sjg/gh"),
      ("projectOwner",.null),("projectNumber",.null)]),
    ("provider",.obj [("kind",.str "codex-cli"),("executable",.str "/usr/bin/codex.bin"),("managedHome",.str "/var/sjg/codex"),
      ("policyRoot",.str "/etc/codex"),("allowedVersions",.arr [.str "1.2.3"]),
      ("roleModels",.obj [("project-orchestrator",.str "m1"),("commercial-planner",.str "m1"),
        ("software-implementer",.str "m1"),("governance-reviewer",.str "m1")]),
      ("workerModels",.obj [("researcher",.str "m2"),("drafter",.str "m2"),("implementer",.str "m2")]),
      ("timeoutSeconds",.int 900)]),
    ("operatorUid",.int 1000),("agentUid",.int 1001),("agentGid",.int 1001),("mode",.str "live"),("pollIntervalSeconds",.int 60),
    ("sessionTtlSeconds",.int 1200),("deliveryLeaseSeconds",.int 1200),
    ("roleTokenReservations",.obj [("project-orchestrator",.int 100),("commercial-planner",.int 100),
      ("software-implementer",.int 100),("governance-reviewer",.int 100)]),
    ("initialWatermark",.str "2026-01-01T00:00:00Z")]

def configFile (organization : String) : ConfigFile := ⟨"/etc/sjg/supervisor.json",.file,0,0o600#12,hostDocument organization⟩

def configured (organization : String) : Option SupervisorConfig :=
  (loadSupervisorConfig Served.quietLibrary machine CompiledPolicy.documented (.ok (configFile organization))).toOption

/-- With the organization policy next to the other host files, the workspaces are free of authority. -/
theorem authority_outside_etc : ∃ c,
    loadSupervisorConfig Served.quietLibrary machine CompiledPolicy.documented (.ok (configFile "/etc/sjg/organization.json")) =
      .ok c ∧ Withheld machine c "/etc/sjg/supervisor.json" := by
  cases loaded : loadSupervisorConfig Served.quietLibrary machine CompiledPolicy.documented
      (.ok (configFile "/etc/sjg/organization.json")) with
  | error e =>
    have accepted : (configured "/etc/sjg/organization.json").isSome = true := by decide +kernel
    rw [configured,loaded] at accepted
    cases accepted
  | ok c =>
    have apart : PoliciesApart Served.quietLibrary (hostDocument "/etc/sjg/organization.json") := by
      rintro root ⟨⟩
      decide +kernel
    have outside : Withheld machine c (configFile "/etc/sjg/organization.json").path :=
      (authority_outside_iff _ _ _ _ c loaded).mpr apart
    exact ⟨c,rfl,outside⟩

/-- An organization policy in the planner's own workspace is accepted. -/
theorem organization_in_workspace : ∃ c,
    loadSupervisorConfig Served.quietLibrary machine CompiledPolicy.documented
      (.ok (configFile "/work/commercial-planner/org/organization.json")) = .ok c ∧
    ¬ Withheld machine c "/etc/sjg/supervisor.json" := by
  have found : (configured "/work/commercial-planner/org/organization.json").any
      (fun c => decide (¬ Withheld machine c "/etc/sjg/supervisor.json")) = true := by decide +kernel
  unfold configured at found
  cases loaded : loadSupervisorConfig Served.quietLibrary machine CompiledPolicy.documented
      (.ok (configFile "/work/commercial-planner/org/organization.json")) with
  | error e =>
    rw [loaded] at found
    cases found
  | ok c =>
    rw [loaded] at found
    exact ⟨c,rfl,of_decide_eq_true found⟩

end HostConfig
end SjgControl

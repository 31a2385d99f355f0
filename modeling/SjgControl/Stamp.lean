import SjgControl.WakeRules

/-! `orggen init`: the checks of its arguments, and the organization document that it
stamps from them, as `compile_policy` and the supervisor read it afterwards. -/
namespace SjgControl
open Relational PythonText
namespace Orggen
open Routing

/-- The arguments of `init`; `folder` is the last component of the target directory. -/
structure InitArguments where
  folder : String
  org : Option String := none
  product : Option String := none
  goal : Option String := none
  principalGithub : Option String := none
  productRepo : Option String := none
  roles : Option String := none

/-- What `cmd_init` goes on with once its checks have passed. -/
structure Stamp where
  org : String
  product : String
  goal : String
  principal : String
  orgRepo : String
  productRepo : String
  roster : List RoleSpec
  maxAgents : Int
  deriving DecidableEq

def given (argument : Option String) (default : String) : String :=
  match argument with
  | none => default
  | some text => if text = "" then default else text

def validateScalar (name value : String) (maximum : Nat) : Except String String := do
  require (value ≠ "" ∧ value.length ≤ maximum ∧ ∀ c ∈ value.toList, ¬ c.toNat < 32)
    ("orggen: " ++ name ++ " is empty, too long, or contains control characters")
  require (¬ contains value "\x7b\x7b" ∧ ¬ contains value "\x7d\x7d" ∧ ¬ contains value "__")
    ("orggen: " ++ name ++ " contains a template delimiter")
  return value

def maxAgents (roster : List RoleSpec) : Int := (roster.map (fun r => 1 + min r.maxSub 2)).sum

/-- The checks that `cmd_init` makes of its arguments, up to the roster. The golden tree and the target
are checked before them, the finished output behind. -/
def init (lib : TextLibrary) (args : InitArguments) : Except String Stamp := do
  let org ← validateScalar "org" (given args.org args.folder) 64
  require (Policy.roleId org) "orggen: org must be lowercase kebab-case"
  let product ← validateScalar "product" (given args.product org) 200
  let goal ← validateScalar "goal" (given args.goal "<YOUR GOAL — e.g. $10k/month>") 500
  let principal := given args.principalGithub "YOUR_GITHUB_USERNAME"
  require (Policy.githubLogin principal) "orggen: --principal-github must be a valid GitHub login"
  let productRepo := given args.productRepo (principal ++ "/product-repo")
  require (Policy.ownerRepo productRepo) "orggen: --product-repo must be OWNER/REPO"
  let roster ← roles lib args.roles
  return ⟨org,product,goal,principal,principal ++ "/" ++ org,productRepo,roster,maxAgents roster⟩

/-! `organization_document`. -/

def allowedWorkers (r : RoleSpec) : List String :=
  if r.maxSub = 0 then []
  else if r.name = "software-implementer" then ["researcher","drafter","implementer"]
  else ["researcher","drafter"]

def agentDocument (r : RoleSpec) : Json :=
  .obj [("id",.str r.name),
    ("repositories",.arr ((if r.name = "software-implementer" then ["org","product"] else ["org"]).map Json.str)),
    ("dailyTokenBudget",.int r.budget),
    ("workers",.obj [("allowed",.arr ((allowedWorkers r).map Json.str)),("maxPerWake",.int r.maxSub),
      ("maxConcurrent",.int (min r.maxSub 2))])]

def organizationTokens : Int := 2000000

/-- The document for a stamp, with the text of `VERSION` and the digest of the source tree. -/
def organizationDocument (s : Stamp) (version sourceDigest : String) : Json :=
  .obj [("apiVersion",.str "scrum-jail.dev/v1"),("kind",.str "Organization"),("metadata",.obj [("id",.str s.org)]),
    ("authority",.obj [("principalRole",.str "human-principal"),("principalGitHub",.str s.principal),
      ("upstreamRole",.str "portfolio-orchestrator")]),
    ("repositories",.obj [("org",.obj [("slug",.str s.orgRepo),("defaultBranch",.str "main")]),
      ("product",.obj [("slug",.str s.productRepo),("defaultBranch",.str "main")])]),
    ("controlRelease",.obj [("version",.str (strip version)),("sourceTreeSha256",.str sourceDigest)]),
    ("budgets",.obj [("organizationDailyTokens",.int organizationTokens)]),
    ("limits",.obj [("globalMaxAgents",.int s.maxAgents)]),
    ("agents",.arr (s.roster.map agentDocument)),
    ("workflows",.obj [("hostedExecution",.str "manual-only")])]

/-! `role_block`: what the chart says of a role. -/

structure ChartWorkers where
  allowed : List String
  maxPerWake : Int
  maxConcurrent : Int
  deriving DecidableEq

def roleBlock (r : RoleSpec) : ChartWorkers :=
  let maxPerWake := if r.name = "project-orchestrator" ∨ r.name = governanceReviewer then 0 else r.maxSub
  { allowed := if maxPerWake = 0 then []
      else if r.name = "software-implementer" then ["researcher","drafter","implementer"]
      else ["researcher","drafter"]
    maxPerWake
    maxConcurrent := min maxPerWake 2 }

def compiled (r : RoleSpec) : String × CompiledRole :=
  (r.name,{
    repositories := Policy.expectedRepositories r.name
    workerTypes := Policy.expectedWorkers r.name
    maxWorkersPerWake := r.maxSub
    maxWorkersConcurrent := min r.maxSub 2
    dailyTokenBudget := r.budget })

def repositories (s : Stamp) : List (String × PolicyRepository) :=
  [("org",⟨s.orgRepo,"main"⟩),("product",⟨s.productRepo,"main"⟩)]

def policyOf (lib : TextLibrary) (s : Stamp) (version sourceDigest sourceCommit : String) : CompiledPolicy :=
  let policy : CompiledPolicy := ⟨s.org,s.principal,repositories s,s.roster.map compiled,sourceCommit,strip version,
    sourceDigest,organizationTokens,s.maxAgents,""⟩
  {policy with policyDigest := Policy.digestOf lib policy}

variable {lib : TextLibrary}

/-! Texts without white space are left as they are. -/

theorem dropWhile_clean {p : Char → Bool} {text : List Char} (clean : ∀ c ∈ text, p c = false) : text.dropWhile p = text := by
  cases text with
  | nil => rfl
  | cons c rest => rw [List.dropWhile_cons_of_neg (by simp [clean c List.mem_cons_self])]

theorem strip_clean {text : String} (clean : ∀ c ∈ text.toList, isSpace c = false) : strip text = text := by
  have back : ∀ c ∈ text.toList.reverse, isSpace c = false := fun c member => clean c (List.mem_reverse.mp member)
  rw [strip,dropWhile_clean clean,dropWhile_clean back,List.reverse_reverse,String.ofList_toList]

theorem alphanum_iff {c : Char} :
    c.isAlphanum = true ↔ 65 ≤ c.toNat ∧ c.toNat ≤ 90 ∨ 97 ≤ c.toNat ∧ c.toNat ≤ 122 ∨ 48 ≤ c.toNat ∧ c.toNat ≤ 57 := by
  have upper : c.isUpper = decide (c.val ≥ 'A'.val ∧ c.val ≤ 'Z'.val) := rfl
  have lower : c.isLower = (decide (c.val ≥ 'a'.val) && decide (c.val ≤ 'z'.val)) := rfl
  have alpha : c.isAlpha = (c.isUpper || c.isLower) := rfl
  simp only [Char.isAlphanum,alpha,upper,lower,Char.isDigit,Char.toNat,Bool.or_eq_true,
    Bool.and_eq_true,decide_eq_true_eq,UInt32.le_iff_toNat_le,or_assoc]
  exact Iff.rfl

theorem nameChar_visible {c : Char} (named : Policy.nameChar c) : isSpace c = false ∧ c ≠ '/' := by
  have code : 65 ≤ c.toNat ∧ c.toNat ≤ 90 ∨ 97 ≤ c.toNat ∧ c.toNat ≤ 122 ∨ 48 ≤ c.toNat ∧ c.toNat ≤ 57 ∨
      c.toNat = 95 ∨ c.toNat = 46 ∨ c.toNat = 45 := by
    rcases named with letter | mark
    · rcases alphanum_iff.mp letter with upper | lower | digit
      · exact .inl upper
      · exact .inr (.inl lower)
      · exact .inr (.inr (.inl digit))
    · simp only [List.mem_cons,List.not_mem_nil,or_false] at mark
      rcases mark with rfl | rfl | rfl
      · exact .inr (.inr (.inr (.inl rfl)))
      · exact .inr (.inr (.inr (.inr (.inl rfl))))
      · exact .inr (.inr (.inr (.inr (.inr rfl))))
  constructor
  · cases spaced : isSpace c with
    | false => rfl
    | true =>
      simp only [isSpace,spaces,List.contains_eq_mem,List.mem_cons,List.not_mem_nil,decide_eq_true_eq,or_false] at spaced
      omega
  · intro slash
    have place : c.toNat = 47 := by rw [slash]; rfl
    omega

theorem lowerAlnum_named {c : Char} (low : lowerAlnum c) : Policy.nameChar c := by
  have alpha : c.isAlpha = (c.isUpper || c.isLower) := rfl
  refine .inl ?_
  simp only [Char.isAlphanum,alpha,Bool.or_eq_true]
  rcases low with lower | digit
  · exact .inl (.inr lower)
  · exact .inr digit

theorem mem_cuts {stop c : Char} {text : List Char} (member : c ∈ text) : c = stop ∨ ∃ part ∈ text.splitOn stop, c ∈ part := by
  induction text with
  | nil => cases member
  | cons d rest ih =>
    rw [List.splitOn_cons_eq_if_modifyHead]
    by_cases cut : d = stop
    · rw [if_pos (beq_iff_eq.mpr cut)]
      rcases List.mem_cons.mp member with here | later
      · exact .inl (here.trans cut)
      · rcases ih later with stops | ⟨part,inside,own⟩
        · exact .inl stops
        · exact .inr ⟨part,List.mem_cons_of_mem _ inside,own⟩
    · rw [if_neg (by simpa using cut)]
      obtain ⟨first,others,parts⟩ := List.exists_cons_of_ne_nil (List.splitOn_ne_nil stop rest)
      rw [parts] at ih ⊢
      rw [List.modifyHead_cons]
      rcases List.mem_cons.mp member with rfl | later
      · exact .inr ⟨_,List.mem_cons_self,List.mem_cons_self⟩
      · rcases ih later with stops | ⟨part,inside,own⟩
        · exact .inl stops
        · rcases List.mem_cons.mp inside with rfl | behind
          · exact .inr ⟨_,List.mem_cons_self,List.mem_cons_of_mem _ own⟩
          · exact .inr ⟨part,List.mem_cons_of_mem _ behind,own⟩

theorem roleId_named {text : String} (accepted : Policy.roleId text) : ∀ c ∈ text.toList, Policy.nameChar c := by
  intro c member
  rcases @mem_cuts '-' c text.toList member with rfl | ⟨part,inside,own⟩
  · exact .inr (by decide)
  · exact lowerAlnum_named ((accepted.2 part inside).2 c own)

theorem githubLogin_named {text : String} (accepted : Policy.githubLogin text) : ∀ c ∈ text.toList, Policy.nameChar c := by
  intro c member
  rcases accepted.2.1 c member with letter | rfl
  · exact .inl letter
  · exact .inr (by decide)

theorem ownerRepo_named {text : String} (accepted : Policy.ownerRepo text) : ∀ c ∈ text.toList, Policy.nameChar c ∨ c = '/' := by
  intro c member
  rcases @mem_cuts '/' c text.toList member with slash | ⟨part,inside,own⟩
  · exact .inr slash
  · exact .inl ((accepted.2 part inside).2.1 c own)

theorem strip_named {text : String} (named : ∀ c ∈ text.toList, Policy.nameChar c ∨ c = '/') : strip text = text := by
  apply strip_clean
  intro c member
  rcases named c member with own | rfl
  · exact (nameChar_visible own).1
  · decide

theorem orgRepo_named {principal org : String} (login : Policy.githubLogin principal) (kebab : Policy.roleId org) :
    Policy.ownerRepo (principal ++ "/" ++ org) := by
  have slashless {text : String} (named : ∀ c ∈ text.toList, Policy.nameChar c) : '/' ∉ text.toList :=
    fun member => (nameChar_visible (named _ member)).2 rfl
  have cuts : (principal ++ "/" ++ org).toList.splitOn '/' = [principal.toList,org.toList] := by
    have joined : (principal ++ "/" ++ org).toList = principal.toList ++ '/'::org.toList := by
      rw [String.toList_append,String.toList_append,List.append_assoc]
      rfl
    rw [joined,List.splitOn_append_cons_self_of_not_mem (slashless (githubLogin_named login)),
      List.splitOn_eq_singleton (slashless (roleId_named kebab))]
  rw [Policy.ownerRepo,cuts]
  refine ⟨rfl,?_⟩
  intro part member
  simp only [List.mem_cons,List.not_mem_nil,or_false] at member
  rcases member with rfl | rfl
  · obtain ⟨c,front,letter⟩ := login.1
    refine ⟨?_,githubLogin_named login,?_,?_⟩
    · intro empty
      simp [empty] at front
    · intro dot
      rw [dot] at front
      cases front
      cases letter
    · intro dots
      rw [dots] at front
      cases front
      cases letter
  · obtain ⟨c,front,letter⟩ := kebab.1
    refine ⟨?_,roleId_named kebab,?_,?_⟩
    · intro empty
      simp [empty] at front
    · intro dot
      rw [dot] at front
      cases front
      cases letter
    · intro dots
      rw [dots] at front
      cases front
      cases letter

/-! What the compiler makes of the document. -/

theorem keys_exact {fields : Fields} {expected : List String} {path : String} (same : fields.map Prod.fst = expected) :
    Policy.exactKeys (.obj fields) expected path = .ok fields := by
  have complete : Policy.frozen (expected.filter (fun name => name ∉ fields.map Prod.fst)) = [] := by
    rw [same,List.filter_eq_nil_iff.mpr (by simp)]
    rfl
  have closed : Policy.frozen ((fields.map Prod.fst).filter (fun name => name ∉ expected)) = [] := by
    rw [same,List.filter_eq_nil_iff.mpr (by simp)]
    rfl
  simp only [Policy.exactKeys,complete,closed]
  rfl

theorem intArgument_get {fields : Fields} {name : String} {value : Int} (int : ∀ n, lib.int (.int n) = .ok n)
    (found : Json.get fields name = .int value) : Policy.intArgument lib fields name = .ok value := by
  have zero : (if (Json.int value).truthy then Json.int value else .int 0) = .int value := by
    by_cases nothing : value = 0
    · rw [nothing]
      rfl
    · rw [if_pos (by simpa [Json.truthy] using nothing)]
  rw [Policy.intArgument,found,zero,int]
  rfl

theorem textArgument_get {fields : Fields} {name value : String} (found : Json.get fields name = .str value) :
    textArgument lib fields name = value := by
  rw [textArgument,found,Json.textOr_str]

theorem archetypes_sound : ∀ r ∈ archetypes.map Prod.snd, strip r.name = r.name ∧ r.name ∈ Policy.executingRoles ∧
    0 ≤ r.maxSub ∧ Policy.frozen (allowedWorkers r) = Policy.expectedWorkers r.name ∧
    (∀ name ∈ Policy.frozen (allowedWorkers r), name ∈ ["researcher","drafter","implementer"]) ∧
    (Policy.frozen (allowedWorkers r) = [] ↔ r.maxSub = 0) ∧ 0 < r.budget ∧ r.budget ≤ organizationTokens := by
  decide +kernel

theorem textsArgument_get {fields : Fields} {name : String} {values default : List String} (some_ : values ≠ [] ∨ default = [])
    (found : Json.get fields name = .arr (values.map Json.str)) :
    Policy.textsArgument lib fields name default = .ok (Policy.frozen values) := by
  have texts : (values.map Json.str).map (Json.text lib.render) = values := by
    rw [List.map_map]
    exact List.map_id values
  unfold Policy.textsArgument
  rw [found]
  split
  next => exact congrArg (fun given => Except.ok (Policy.frozen given)) texts
  next empty =>
    have nothing : values = [] := by simpa [Json.truthy] using empty
    rw [nothing,some_.resolve_left (fun some_ => some_ nothing)]

theorem compileRole_agent {roles : List (String × CompiledRole)} {r : RoleSpec} (int : ∀ n, lib.int (.int n) = .ok n)
    (member : r ∈ archetypes.map Prod.snd) (fresh : r.name ∉ roles.map Prod.fst) :
    Policy.compileRole lib organizationTokens roles (agentDocument r) = .ok (roles ++ [compiled r]) := by
  obtain ⟨plain,known,positive,workers,types,together,paid,bounded⟩ := archetypes_sound r member
  have aliases : Policy.frozen (if r.name = "software-implementer" then ["org","product"] else ["org"]) =
      Policy.expectedRepositories r.name := by
    unfold Policy.expectedRepositories
    split <;> rfl
  have some_ : (if r.name = "software-implementer" then ["org","product"] else ["org"]) ≠ [] := by
    split <;> simp
  unfold Policy.compileRole agentDocument
  refine bind_ok.mpr ⟨_,keys_exact rfl,?_⟩
  rw [textArgument_get rfl,plain]
  refine require_bind_ok.mpr ⟨known,require_bind_ok.mpr ⟨fresh,?_⟩⟩
  refine bind_ok.mpr ⟨_,keys_exact rfl,bind_ok.mpr ⟨_,textsArgument_get (.inr rfl) rfl,?_⟩⟩
  refine require_bind_ok.mpr ⟨types,?_⟩
  refine bind_ok.mpr ⟨_,intArgument_get int rfl,bind_ok.mpr ⟨_,intArgument_get int rfl,?_⟩⟩
  refine require_bind_ok.mpr ⟨by omega,require_bind_ok.mpr ⟨⟨together,?_⟩,require_bind_ok.mpr ⟨workers,?_⟩⟩⟩
  · rw [together]
    omega
  refine bind_ok.mpr ⟨_,textsArgument_get (.inl some_) rfl,require_bind_ok.mpr ⟨aliases,?_⟩⟩
  refine bind_ok.mpr ⟨_,intArgument_get int rfl,require_bind_ok.mpr ⟨by omega,?_⟩⟩
  rw [aliases,workers]
  rfl

/-- The agents of a roster compile in its order, each to the role with its own caps. -/
theorem compileRoles_agents {roster : List RoleSpec} (int : ∀ n, lib.int (.int n) = .ok n)
    (known : ∀ r ∈ roster, r ∈ archetypes.map Prod.snd) (distinct : (roster.map RoleSpec.name).Nodup)
    (before : List (String × CompiledRole)) (fresh : ∀ r ∈ roster, r.name ∉ before.map Prod.fst) :
    (roster.map agentDocument).foldlM (Policy.compileRole lib organizationTokens) before =
      .ok (before ++ roster.map compiled) := by
  induction roster generalizing before with
  | nil => rw [List.map_nil,List.map_nil,List.append_nil]; rfl
  | cons r rest ih =>
    obtain ⟨other,later⟩ := List.nodup_cons.mp distinct
    rw [List.map_cons,List.foldlM_cons]
    refine bind_ok.mpr ⟨_,compileRole_agent int (known r List.mem_cons_self) (fresh r List.mem_cons_self),?_⟩
    rw [ih (fun x member => known x (List.mem_cons_of_mem _ member)) later,List.append_assoc]
    · rfl
    · intro x member taken
      rw [List.map_append] at taken
      rcases List.mem_append.mp taken with old | new
      · exact fresh x (List.mem_cons_of_mem _ member) old
      · have same : x.name = r.name := List.mem_singleton.mp new
        exact other (same ▸ List.mem_map_of_mem member)

theorem checkNames_ok {seen names : List String} : checkNames lib seen names = .ok () ↔
    (∀ name ∈ names, Policy.roleId name) ∧ names.Nodup ∧ ∀ name ∈ names, name ∉ seen := by
  induction names generalizing seen with
  | nil => simp [checkNames]
  | cons name rest ih =>
    simp only [checkNames,require_bind_ok,ih,List.nodup_cons,List.forall_mem_cons]
    simp only [List.mem_cons,not_or]
    constructor
    · rintro ⟨kebab,new,others,distinct,fresh⟩
      exact ⟨⟨kebab,others⟩,⟨fun again => (fresh name again).1 rfl,distinct⟩,new,fun other member => (fresh other member).2⟩
    · rintro ⟨⟨kebab,others⟩,⟨single,distinct⟩,new,fresh⟩
      refine ⟨kebab,new,others,distinct,fun other member => ⟨?_,fresh other member⟩⟩
      rintro rfl
      exact single member

theorem roles_entries {spec : Option String} {roster : List RoleSpec} (ok : roles lib spec = .ok roster) :
    (roster.map RoleSpec.name).Nodup ∧ ∀ r ∈ roster, r ∈ archetypes.map Prod.snd := by
  obtain ⟨_,checked,ok⟩ := bind_ok.mp ok
  simp only [require_bind_ok] at ok
  obtain ⟨_,_,ok⟩ := ok
  have looked (name : String) (r : RoleSpec) (found : fetch (lookup archetypes name) ("KeyError: " ++ lib.repr name) = .ok r) :
      lookup archetypes name = some r := by
    obtain ⟨r',looked,own⟩ := fetch_bind_ok.mp ((bind_pure _).trans found)
    rwa [pure_ok.mp own] at looked
  have names := mapM_ok (g := RoleSpec.name) (h := id) (fun name _ r found => archetype_name (looked name r found)) ok
  have entries := mapM_ok (g := some) (h := lookup archetypes) (fun name _ r found => (looked name r found).symm) ok
  constructor
  · rw [names,List.map_id]
    refine ((checkNames_ok.mp checked).2.1.filter _).append (List.nodup_singleton _) ?_
    rw [List.disjoint_singleton]
    intro inside
    exact of_decide_eq_true (List.mem_filter.mp inside).2 rfl
  · intro r member
    have listed : some r ∈ roster.map some := List.mem_map_of_mem member
    rw [entries] at listed
    obtain ⟨name,_,found⟩ := List.mem_map.mp listed
    exact List.mem_map_of_mem (f := Prod.snd) (mem_of_lookup found)

theorem expectedGlobal_compiled (roster : List RoleSpec) : Policy.expectedGlobal (roster.map compiled) = maxAgents roster := by
  unfold Policy.expectedGlobal maxAgents
  induction roster with
  | nil => rfl
  | cons r rest ih =>
    simp only [List.map_cons,List.sum_cons,List.length_cons] at ih ⊢
    rw [← ih]
    push_cast
    simp only [compiled]
    omega

theorem mapM_each {ε α β γ : Type} {f : α → Except ε β} {h : γ → α} {g : γ → β} {items : List γ}
    (each : ∀ c ∈ items, f (h c) = .ok (g c)) : (items.map h).mapM f = .ok (items.map g) := by
  induction items with
  | nil => rfl
  | cons c rest ih =>
    rw [List.map_cons,List.mapM_cons,each c List.mem_cons_self,ih (fun x member => each x (List.mem_cons_of_mem _ member))]
    rfl

/-- The rosters that are accepted: the required roles and maybe the optional one, each once. -/
theorem roles_ok_iff {spec : Option String} : (∃ roster, roles lib spec = .ok roster) ↔
    (namesOf spec).Nodup ∧ (∀ name ∈ namesOf spec, name ∈ allowedRoles) ∧ ∀ name ∈ defaultRoles, name ∈ namesOf spec := by
  have kebab : ∀ name ∈ allowedRoles, Policy.roleId name := by decide +kernel
  have named : ∀ name ∈ allowedRoles, ∃ r, lookup archetypes name = some r := by
    have every : ∀ name ∈ allowedRoles, (lookup archetypes name).isSome := by decide
    exact fun name member => Option.isSome_iff_exists.mp (every name member)
  have unknown : Policy.frozen ((namesOf spec).filter (· ∉ allowedRoles)) = [] ↔ ∀ name ∈ namesOf spec, name ∈ allowedRoles := by
    refine ⟨fun empty => ?_,fun known => ?_⟩
    · simpa using frozen_nil empty
    · rw [List.filter_eq_nil_iff.mpr (by simpa using known)]
      rfl
  have missing : Policy.frozen (defaultRoles.filter (· ∉ namesOf spec)) = [] ↔ ∀ name ∈ defaultRoles, name ∈ namesOf spec := by
    refine ⟨fun empty => ?_,fun complete => ?_⟩
    · simpa using frozen_nil empty
    · rw [List.filter_eq_nil_iff.mpr (by simpa using complete)]
      rfl
  constructor
  · rintro ⟨roster,ok⟩
    obtain ⟨_,checked,ok⟩ := bind_ok.mp ok
    simp only [require_bind_ok,unknown,missing] at ok
    exact ⟨(checkNames_ok.mp checked).2.1,ok.1,ok.2.1⟩
  · rintro ⟨distinct,known,complete⟩
    have checked : checkNames lib [] (namesOf spec) = .ok () :=
      checkNames_ok.mpr ⟨fun name member => kebab name (known name member),distinct,by simp⟩
    have each : ∀ name ∈ (namesOf spec).filter (· ≠ governanceReviewer) ++ [governanceReviewer],
        fetch (lookup archetypes name) ("KeyError: " ++ lib.repr name) =
          .ok ((lookup archetypes name).getD ⟨"","","","",0,0,""⟩) := by
      intro name member
      have listed : name ∈ allowedRoles := by
        rcases List.mem_append.mp member with inside | last
        · exact known name (List.mem_filter.mp inside).1
        · cases List.mem_singleton.mp last
          decide
      obtain ⟨r,found⟩ := named name listed
      rw [found]
      rfl
    have gathered := @mapM_each _ _ _ _ (fun name => fetch (lookup archetypes name) ("KeyError: " ++ lib.repr name)) id _ _ each
    rw [List.map_id] at gathered
    exact ⟨_,bind_ok.mpr ⟨(),checked,require_bind_ok.mpr ⟨unknown.mpr known,require_bind_ok.mpr ⟨missing.mpr complete,gathered⟩⟩⟩⟩

theorem names_perm {names : List String} :
    (names.Nodup ∧ (∀ name ∈ names, name ∈ allowedRoles) ∧ ∀ name ∈ defaultRoles, name ∈ names) ↔
      names.Perm defaultRoles ∨ names.Perm allowedRoles := by
  constructor
  · rintro ⟨distinct,known,complete⟩
    by_cases optional : "policy-reviewer" ∈ names
    · refine .inr ((List.perm_ext_iff_of_nodup distinct (by decide)).mpr (fun name => ⟨known name,?_⟩))
      intro listed
      rcases List.mem_append.mp listed with required | last
      · exact complete name required
      · exact List.mem_singleton.mp last ▸ optional
    · refine .inl ((List.perm_ext_iff_of_nodup distinct (by decide)).mpr (fun name => ⟨?_,complete name⟩))
      intro member
      exact (List.mem_append.mp (known name member)).resolve_right (fun last => optional (List.mem_singleton.mp last ▸ member))
  · rintro (perm | perm)
    · exact ⟨perm.nodup_iff.mpr (by decide),fun name member => List.mem_append_left _ (perm.mem_iff.mp member),
        fun name => perm.mem_iff.mpr⟩
    · exact ⟨perm.nodup_iff.mpr (by decide),fun name => perm.mem_iff.mp,
        fun name member => perm.mem_iff.mpr (List.mem_append_left _ member)⟩

/-- One session a role, and two workers for each role that may have some. -/
theorem maxAgents_roles {spec : Option String} {roster : List RoleSpec} (ok : roles lib spec = .ok roster) :
    maxAgents roster = if "policy-reviewer" ∈ namesOf spec then 11 else 8 := by
  let agents (name : String) : Int := ((lookup archetypes name).map (fun r => 1 + min r.maxSub 2)).getD 0
  have total : maxAgents roster = (((namesOf spec).filter (· ≠ governanceReviewer) ++ [governanceReviewer]).map agents).sum := by
    refine congrArg List.sum (roles_map ?_ ok)
    intro name r found
    simp [agents,found]
  rcases names_perm.mp (roles_ok_iff.mp ⟨roster,ok⟩) with perm | perm
  · rw [total,(((perm.filter _).append_right _).map agents).sum_eq,if_neg (fun member => absurd (perm.mem_iff.mp member) (by decide))]
    decide +kernel
  · rw [total,(((perm.filter _).append_right _).map agents).sum_eq,if_pos (perm.mem_iff.mpr (by decide))]
    decide +kernel

structure Accepted (lib : TextLibrary) (s : Stamp) : Prop where
  org : Policy.roleId s.org
  principal : Policy.githubLogin s.principal
  orgRepo : s.orgRepo = s.principal ++ "/" ++ s.org
  productRepo : Policy.ownerRepo s.productRepo
  roster : ∃ spec, roles lib spec = .ok s.roster
  maxAgents : s.maxAgents = Orggen.maxAgents s.roster

/-- A value that stands in a template as itself. -/
def Plain (value : String) (maximum : Nat) : Prop :=
  (value ≠ "" ∧ value.length ≤ maximum ∧ ∀ c ∈ value.toList, ¬ c.toNat < 32) ∧
    ¬ contains value "\x7b\x7b" ∧ ¬ contains value "\x7d\x7d" ∧ ¬ contains value "__"

theorem validateScalar_ok {name value text : String} {maximum : Nat} :
    validateScalar name value maximum = .ok text ↔ Plain value maximum ∧ value = text := by
  simp only [validateScalar,require_bind_ok,pure_ok,Plain,and_assoc]

/-- Where every check passes, the stamp is of the values that were checked. -/
theorem init_stamp {args : InitArguments} {s : Stamp} : init lib args = .ok s ↔
    Plain (given args.org args.folder) 64 ∧ Policy.roleId (given args.org args.folder) ∧
      Plain (given args.product (given args.org args.folder)) 200 ∧
      Plain (given args.goal "<YOUR GOAL — e.g. $10k/month>") 500 ∧
      Policy.githubLogin (given args.principalGithub "YOUR_GITHUB_USERNAME") ∧
      Policy.ownerRepo (given args.productRepo (given args.principalGithub "YOUR_GITHUB_USERNAME" ++ "/product-repo")) ∧
      ∃ roster, roles lib args.roles = .ok roster ∧
        s = ⟨given args.org args.folder,given args.product (given args.org args.folder),
          given args.goal "<YOUR GOAL — e.g. $10k/month>",given args.principalGithub "YOUR_GITHUB_USERNAME",
          given args.principalGithub "YOUR_GITHUB_USERNAME" ++ "/" ++ given args.org args.folder,
          given args.productRepo (given args.principalGithub "YOUR_GITHUB_USERNAME" ++ "/product-repo"),
          roster,maxAgents roster⟩ := by
  constructor
  · intro ok
    obtain ⟨org,orgRead,ok⟩ := bind_ok.mp ok
    obtain ⟨kebab,ok⟩ := require_bind_ok.mp ok
    obtain ⟨product,productRead,ok⟩ := bind_ok.mp ok
    obtain ⟨goal,goalRead,ok⟩ := bind_ok.mp ok
    obtain ⟨login,ok⟩ := require_bind_ok.mp ok
    obtain ⟨slug,ok⟩ := require_bind_ok.mp ok
    obtain ⟨roster,listed,ok⟩ := bind_ok.mp ok
    obtain ⟨plain,rfl⟩ := validateScalar_ok.mp orgRead
    obtain ⟨plainProduct,rfl⟩ := validateScalar_ok.mp productRead
    obtain ⟨plainGoal,rfl⟩ := validateScalar_ok.mp goalRead
    exact ⟨plain,kebab,plainProduct,plainGoal,login,slug,roster,listed,(pure_ok.mp ok).symm⟩
  · rintro ⟨plain,kebab,plainProduct,plainGoal,login,slug,roster,listed,rfl⟩
    exact bind_ok.mpr ⟨_,validateScalar_ok.mpr ⟨plain,rfl⟩,require_bind_ok.mpr ⟨kebab,
      bind_ok.mpr ⟨_,validateScalar_ok.mpr ⟨plainProduct,rfl⟩,bind_ok.mpr ⟨_,validateScalar_ok.mpr ⟨plainGoal,rfl⟩,
        require_bind_ok.mpr ⟨login,require_bind_ok.mpr ⟨slug,bind_ok.mpr ⟨roster,listed,rfl⟩⟩⟩⟩⟩⟩⟩

theorem init_ok {args : InitArguments} {s : Stamp} (ok : init lib args = .ok s) : Accepted lib s := by
  obtain ⟨_,kebab,_,_,login,slug,roster,listed,rfl⟩ := init_stamp.mp ok
  exact ⟨kebab,login,rfl,slug,⟨args.roles,listed⟩,rfl⟩

/-! The checks of the optional arguments, where their defaults stand in. -/

theorem plain_goal {goal : Option String} :
    Plain (given goal "<YOUR GOAL — e.g. $10k/month>") 500 ↔ ∀ text ∈ goal, text ≠ "" → Plain text 500 := by
  have default : Plain "<YOUR GOAL — e.g. $10k/month>" 500 := by
    unfold Plain
    decide +kernel
  cases goal with
  | none => simp [given,default]
  | some text => by_cases empty : text = "" <;> simp [given,empty,default]

/-- The placeholder is no login. -/
theorem login_given {principal : Option String} :
    Policy.githubLogin (given principal "YOUR_GITHUB_USERNAME") ↔ ∃ login ∈ principal, Policy.githubLogin login := by
  have placeholder : ¬ Policy.githubLogin "YOUR_GITHUB_USERNAME" := by decide +kernel
  have nobody : ¬ Policy.githubLogin "" := by decide
  cases principal with
  | none => simp [given,placeholder]
  | some login => by_cases empty : login = "" <;> simp [given,empty,placeholder,nobody]

theorem slug_given {principal : String} (login : Policy.githubLogin principal) {repo : Option String} :
    Policy.ownerRepo (given repo (principal ++ "/product-repo")) ↔ ∀ slug ∈ repo, slug ≠ "" → Policy.ownerRepo slug := by
  have default : Policy.ownerRepo (principal ++ "/product-repo") := by
    have named := @orgRepo_named principal "product-repo" login (by decide +kernel)
    rwa [String.append_assoc] at named
  cases repo with
  | none => simp [given,default]
  | some slug => by_cases empty : slug = "" <;> simp [given,empty,default]

/-- The arguments are accepted just where the scalars are plain, the principal is given and is a
login, the product repository is none or a slug, and the roles are the required ones, or those and the
optional one, in any order. The roster keeps that order, but for the governance reviewer, who comes last. -/
theorem init_accepts_iff (lib : TextLibrary) (args : InitArguments) :
    ((∃ s, init lib args = .ok s) ↔
      Plain (given args.org args.folder) 64 ∧ Policy.roleId (given args.org args.folder) ∧
      Plain (given args.product (given args.org args.folder)) 200 ∧ (∀ goal ∈ args.goal, goal ≠ "" → Plain goal 500) ∧
      (∃ login ∈ args.principalGithub, Policy.githubLogin login) ∧
      (∀ slug ∈ args.productRepo, slug ≠ "" → Policy.ownerRepo slug) ∧
      ((namesOf args.roles).Perm defaultRoles ∨ (namesOf args.roles).Perm allowedRoles)) ∧
    ∀ s, init lib args = .ok s →
      s.roster.map RoleSpec.name = (namesOf args.roles).filter (· ≠ governanceReviewer) ++ [governanceReviewer] ∧
      s.maxAgents = if "policy-reviewer" ∈ namesOf args.roles then 11 else 8 := by
  have listed_iff : (∃ roster, roles lib args.roles = .ok roster) ↔
      (namesOf args.roles).Perm defaultRoles ∨ (namesOf args.roles).Perm allowedRoles := roles_ok_iff.trans names_perm
  constructor
  · rw [← plain_goal,← login_given,← listed_iff]
    constructor
    · rintro ⟨s,ok⟩
      obtain ⟨plain,kebab,product,goal,login,slug,roster,listed,_⟩ := init_stamp.mp ok
      exact ⟨plain,kebab,product,goal,login,(slug_given login).mp slug,roster,listed⟩
    · rintro ⟨plain,kebab,product,goal,login,slug,roster,listed⟩
      exact ⟨_,init_stamp.mpr ⟨plain,kebab,product,goal,login,(slug_given login).mpr slug,roster,listed,rfl⟩⟩
  · intro s ok
    obtain ⟨_,_,_,_,_,_,roster,listed,rfl⟩ := init_stamp.mp ok
    exact ⟨roles_names listed,maxAgents_roles listed⟩

theorem compileRepository_main {data : Fields} {alias_ slug : String} (owned : Policy.ownerRepo slug)
    (found : Json.get data alias_ = .obj [("slug",.str slug),("defaultBranch",.str "main")]) :
    Policy.compileRepository lib data alias_ = .ok (alias_,⟨slug,"main"⟩) := by
  have main : Backend.textOrElse lib [("slug",.str slug),("defaultBranch",.str "main")] "defaultBranch" "main" = "main" := rfl
  have whole : strip slug = slug := strip_named (ownerRepo_named owned)
  unfold Policy.compileRepository
  rw [found]
  refine bind_ok.mpr ⟨_,keys_exact rfl,?_⟩
  rw [textArgument_get rfl,whole,main]
  exact require_bind_ok.mpr ⟨owned,require_bind_ok.mpr ⟨by decide,rfl⟩⟩

theorem policyOf_compiles (int : ∀ n, lib.int (.int n) = .ok n) {s : Stamp} (sound : Accepted lib s)
    {version sourceDigest : String} (release : Policy.semanticVersion (strip version)) (digest : hexChars 64 sourceDigest.toList)
    (sourceCommit : String) :
    Policy.compilePolicy lib (organizationDocument s version sourceDigest) sourceCommit =
      .ok (policyOf lib s version sourceDigest sourceCommit) := by
  obtain ⟨spec,listed⟩ := sound.roster
  obtain ⟨required,_⟩ := roles_ok listed
  obtain ⟨distinct,known⟩ := roles_entries listed
  have global := expectedGlobal_compiled s.roster
  have names : (s.roster.map compiled).map Prod.fst = s.roster.map RoleSpec.name := List.map_map
  have orgId : strip (textArgument lib [("id",.str s.org)] "id") = s.org := by
    rw [textArgument_get rfl]
    exact strip_named (fun c member => .inl (roleId_named sound.org c member))
  have principal : strip (textArgument lib [("principalRole",.str "human-principal"),("principalGitHub",.str s.principal),
      ("upstreamRole",.str "portfolio-orchestrator")] "principalGitHub") = s.principal := by
    rw [textArgument_get rfl]
    exact strip_named (fun c member => .inl (githubLogin_named sound.principal c member))
  have versionText : textArgument lib [("version",.str (strip version)),("sourceTreeSha256",.str sourceDigest)] "version" =
      strip version := textArgument_get rfl
  have digestText : textArgument lib [("version",.str (strip version)),("sourceTreeSha256",.str sourceDigest)]
      "sourceTreeSha256" = sourceDigest := textArgument_get rfl
  have complete : Policy.frozen (Policy.requiredExecutingRoles.filter
      (fun role => role ∉ (s.roster.map compiled).map Prod.fst)) = [] := by
    rw [names,List.filter_eq_nil_iff.mpr]
    · rfl
    · intro role member
      have needed : ∀ role ∈ Policy.requiredExecutingRoles, role ∈ defaultRoles := by decide
      simpa using required role (needed role member)
  have orgRepo : Policy.ownerRepo s.orgRepo := sound.orgRepo ▸ orgRepo_named sound.principal sound.org
  have cap : 0 < s.maxAgents := by
    rw [sound.maxAgents,← global,Policy.expectedGlobal]
    have some_ : 0 < (s.roster.map compiled).length := by
      have one := List.length_pos_of_mem (required "governance-reviewer" (by decide))
      simpa using one
    have caps : 0 ≤ ((s.roster.map compiled).map (fun entry => entry.2.maxWorkersConcurrent)).sum := by
      apply List.sum_nonneg
      intro n member
      obtain ⟨entry,listed,rfl⟩ := List.mem_map.mp member
      obtain ⟨r,inside,rfl⟩ := List.mem_map.mp listed
      have positive := (archetypes_sound r (known r inside)).2.2.1
      simp only [compiled]
      omega
    omega
  unfold Policy.compilePolicy organizationDocument
  refine bind_ok.mpr ⟨_,keys_exact rfl,require_bind_ok.mpr ⟨⟨rfl,rfl⟩,?_⟩⟩
  refine bind_ok.mpr ⟨_,keys_exact rfl,bind_ok.mpr ⟨_,keys_exact rfl,?_⟩⟩
  refine require_bind_ok.mpr ⟨rfl,require_bind_ok.mpr ⟨rfl,?_⟩⟩
  refine bind_ok.mpr ⟨_,keys_exact rfl,bind_ok.mpr ⟨_,keys_exact rfl,?_⟩⟩
  refine bind_ok.mpr ⟨_,intArgument_get int rfl,bind_ok.mpr ⟨_,keys_exact rfl,?_⟩⟩
  refine bind_ok.mpr ⟨_,intArgument_get int rfl,?_⟩
  dsimp only
  rw [orgId,principal,versionText,digestText]
  refine require_bind_ok.mpr ⟨sound.org,require_bind_ok.mpr ⟨sound.principal,require_bind_ok.mpr ⟨release,?_⟩⟩⟩
  refine require_bind_ok.mpr ⟨digest,require_bind_ok.mpr ⟨by decide,require_bind_ok.mpr ⟨cap,?_⟩⟩⟩
  refine bind_ok.mpr ⟨_,keys_exact rfl,bind_ok.mpr ⟨repositories s,?_,?_⟩⟩
  · rw [List.mapM_cons,List.mapM_cons,compileRepository_main orgRepo rfl,compileRepository_main sound.productRepo rfl]
    rfl
  refine bind_ok.mpr ⟨_,compileRoles_agents int known distinct [] (by simp),?_⟩
  rw [List.nil_append]
  refine require_bind_ok.mpr ⟨complete,require_bind_ok.mpr ⟨sound.maxAgents.trans global.symm,?_⟩⟩
  exact bind_ok.mpr ⟨_,keys_exact rfl,require_bind_ok.mpr ⟨rfl,rfl⟩⟩

theorem policy_named {s : Stamp} {version sourceDigest sourceCommit : String} {policy : CompiledPolicy}
    (ok : Policy.compilePolicy lib (organizationDocument s version sourceDigest) sourceCommit = .ok policy) :
    Policy.semanticVersion (strip version) ∧ hexChars 64 sourceDigest.toList := by
  have versionText : textArgument lib [("version",.str (strip version)),("sourceTreeSha256",.str sourceDigest)] "version" =
      strip version := textArgument_get rfl
  have digestText : textArgument lib [("version",.str (strip version)),("sourceTreeSha256",.str sourceDigest)]
      "sourceTreeSha256" = sourceDigest := textArgument_get rfl
  unfold Policy.compilePolicy organizationDocument at ok
  obtain ⟨data,exact_,ok⟩ := bind_ok.mp ok
  cases (keys_exact rfl).symm.trans exact_
  obtain ⟨_,ok⟩ := require_bind_ok.mp ok
  obtain ⟨metadata,_,ok⟩ := bind_ok.mp ok
  obtain ⟨authority,_,ok⟩ := bind_ok.mp ok
  obtain ⟨_,ok⟩ := require_bind_ok.mp ok
  obtain ⟨_,ok⟩ := require_bind_ok.mp ok
  obtain ⟨control,exact_,ok⟩ := bind_ok.mp ok
  cases (keys_exact rfl).symm.trans exact_
  obtain ⟨budgets,_,ok⟩ := bind_ok.mp ok
  obtain ⟨budget,_,ok⟩ := bind_ok.mp ok
  obtain ⟨limits,_,ok⟩ := bind_ok.mp ok
  obtain ⟨globalMaxAgents,_,ok⟩ := bind_ok.mp ok
  simp only [require_bind_ok,versionText,digestText] at ok
  exact ⟨ok.2.2.1,ok.2.2.2.1⟩

/-- The organization document of a stamp compiles just where the release is well named, and
then to the policy of the stamp; the chart gives each role the workers that the policy does. -/
theorem stamp_compiles_iff (lib : TextLibrary) (int : ∀ n, lib.int (.int n) = .ok n) (args : InitArguments) (s : Stamp)
    (accepted : init lib args = .ok s) (version sourceDigest sourceCommit : String) :
    (∀ policy, Policy.compilePolicy lib (organizationDocument s version sourceDigest) sourceCommit = .ok policy ↔
      (Policy.semanticVersion (strip version) ∧ hexChars 64 sourceDigest.toList) ∧
        policy = policyOf lib s version sourceDigest sourceCommit) ∧
    ∀ r ∈ s.roster, ∃ role, lookup (policyOf lib s version sourceDigest sourceCommit).roles r.name = some role ∧
      Policy.frozen (roleBlock r).allowed = role.workerTypes ∧ (roleBlock r).maxPerWake = role.maxWorkersPerWake ∧
      (roleBlock r).maxConcurrent = role.maxWorkersConcurrent := by
  have sound := init_ok accepted
  obtain ⟨spec,listed⟩ := sound.roster
  obtain ⟨distinct,known⟩ := roles_entries listed
  constructor
  · intro policy
    by_cases named : Policy.semanticVersion (strip version) ∧ hexChars 64 sourceDigest.toList
    · rw [policyOf_compiles int sound named.1 named.2,Except.ok.injEq]
      exact ⟨fun same => ⟨named,same.symm⟩,fun own => own.2.symm⟩
    · refine ⟨fun ok => absurd ?_ named,fun own => absurd own.1 named⟩
      exact policy_named ok
  · intro r member
    have listed : compiled r ∈ s.roster.map compiled := List.mem_map_of_mem member
    have distinctNames : ((s.roster.map compiled).map Prod.fst).Nodup := by
      rw [List.map_map]
      exact distinct
    refine ⟨_,lookup_of_mem distinctNames listed,?_⟩
    have chart : ∀ r ∈ archetypes.map Prod.snd, Policy.frozen (roleBlock r).allowed = Policy.expectedWorkers r.name ∧
        (roleBlock r).maxPerWake = r.maxSub ∧ (roleBlock r).maxConcurrent = min r.maxSub 2 := by decide +kernel
    exact chart r (known r member)

/-! The wake rules of a stamp. -/

def Matches (rule : WakeRule) : Prop :=
  (rule.fields ≠ [] ∧ ∀ field ∈ rule.fields, field.1 ∈ matchFields ∧ field.2 ≠ "" ∧ ∀ c ∈ field.2.toList, ¬ c.toNat < 32) ∧
    admits rule.fields "kind" (· ∈ kinds) ∧ admits rule.fields "repo" (· ∈ ["org","product"]) ∧
    admits rule.fields "pr_state" (· ∈ prStates) ∧ admits rule.fields "workflow" workflowFile

instance : DecidablePred Matches := fun rule => inferInstanceAs (Decidable
  ((rule.fields ≠ [] ∧ ∀ field ∈ rule.fields, field.1 ∈ matchFields ∧ field.2 ≠ "" ∧ ∀ c ∈ field.2.toList, ¬ c.toNat < 32) ∧
    admits rule.fields "kind" (· ∈ kinds) ∧ admits rule.fields "repo" (· ∈ ["org","product"]) ∧
    admits rule.fields "pr_state" (· ∈ prStates) ∧ admits rule.fields "workflow" workflowFile))

theorem compileRule_matches {policy : CompiledPolicy} {rule : WakeRule} (aliases : policy.repositories.map Prod.fst = ["org","product"])
    (matches_ : Matches rule) (wakes : rule.wake = "from-label" ∨ rule.wake ∈ policy.roles.map Prod.fst) (index : Nat) :
    compileRule lib policy (ruleDocument rule,index) = .ok rule := by
  obtain ⟨⟨some_,each⟩,kind,repo,state,workflow⟩ := matches_
  have normal : (rule.fields.map (fun entry => (entry.1,Json.str entry.2))).mapM
      (normalizeField ("wake rule " ++ toString index)) = .ok rule.fields := by
    rw [mapM_each (g := id),List.map_id]
    intro field inside
    exact if_pos (each field inside).2
  have given : rule.fields.map (fun entry => (entry.1,Json.str entry.2)) ≠ [] ∧
      ∀ field ∈ rule.fields.map (fun entry => (entry.1,Json.str entry.2)), field.1 ∈ matchFields := by
    refine ⟨fun empty => some_ (List.map_eq_nil_iff.mp empty),?_⟩
    intro field member
    obtain ⟨entry,inside,rfl⟩ := List.mem_map.mp member
    exact (each entry inside).1
  unfold compileRule ruleDocument
  refine require_bind_ok.mpr ⟨⟨by simp [Json.has],by simp⟩,require_bind_ok.mpr ⟨given,bind_ok.mpr ⟨_,normal,?_⟩⟩⟩
  rw [aliases]
  refine require_bind_ok.mpr ⟨kind,require_bind_ok.mpr ⟨repo,require_bind_ok.mpr ⟨state,require_bind_ok.mpr ⟨workflow,?_⟩⟩⟩⟩
  exact require_bind_ok.mpr ⟨wakes,rfl⟩

theorem labelled_matches : ∀ name ∈ archetypes.map Prod.fst, Matches (labelled "issue" name) ∧ Matches (labelled "pr" name) := by
  decide +kernel

/-- Every rule of the table asks for what an event may have, and wakes who is there. -/
theorem table_rules {roster : List RoleSpec} (required : ∀ name ∈ defaultRoles, name ∈ roster.map RoleSpec.name)
    (known : ∀ name ∈ roster.map RoleSpec.name, name ∈ archetypes.map Prod.fst) :
    ∀ rule ∈ table roster, Matches rule ∧ (rule.wake = "from-label" ∨ rule.wake ∈ roster.map RoleSpec.name) := by
  have owner := supply_mem required
  have matches_ (fields : List (String × String)) (wake other : String) (own : Matches ⟨fields,wake⟩) :
      Matches ⟨fields,other⟩ := own
  intro rule member
  unfold table at member
  simp only [List.mem_append,List.mem_map,List.mem_cons,List.not_mem_nil,or_false] at member
  rcases member with ((⟨name,⟨r,inside,rfl⟩,rfl⟩ | rfl | rfl) | ⟨name,⟨r,inside,rfl⟩,rfl⟩) | rfl | rfl | rfl | rfl | rfl
  · exact ⟨(labelled_matches _ (known _ (List.mem_map_of_mem inside))).1,.inl rfl⟩
  · exact ⟨by decide +kernel,.inr (required _ (by decide))⟩
  · exact ⟨by decide +kernel,.inl rfl⟩
  · exact ⟨(labelled_matches _ (known _ (List.mem_map_of_mem inside))).2,.inl rfl⟩
  · exact ⟨by decide +kernel,.inr (required _ (by decide))⟩
  · exact ⟨matches_ _ "" _ (by decide +kernel),.inr owner⟩
  · exact ⟨matches_ _ "" _ (by decide +kernel),.inr owner⟩
  · exact ⟨matches_ _ "" _ (by decide +kernel),.inr owner⟩
  · exact ⟨matches_ _ "" _ (by decide +kernel),.inr owner⟩

/-- The supervisor of a stamped organization starts: it finds the wake rules in order under
their own digest, and they are the generated table. -/
theorem stamp_rules_load (lib : TextLibrary) (args : InitArguments) (s : Stamp) (accepted : init lib args = .ok s)
    (version sourceDigest sourceCommit digest : String) (hex : hexChars 64 digest.toList) :
    loadWakeRules lib (policyOf lib s version sourceDigest sourceCommit) digest (wakeRules s.roster) digest =
      .ok (table s.roster) := by
  obtain ⟨spec,listed⟩ := (init_ok accepted).roster
  obtain ⟨required,_⟩ := roles_ok listed
  obtain ⟨_,known⟩ := roles_entries listed
  have rules := @table_rules s.roster required (by
    intro name member
    obtain ⟨r,inside,rfl⟩ := List.mem_map.mp member
    obtain ⟨entry,found,own⟩ := List.mem_map.mp (known r inside)
    have same : ∀ entry ∈ archetypes, entry.2.name = entry.1 := by decide
    exact List.mem_map.mpr ⟨entry,found,by rw [← own,same entry found]⟩)
  have names : (policyOf lib s version sourceDigest sourceCommit).roles.map Prod.fst = s.roster.map RoleSpec.name := List.map_map
  have compiled : (((table s.roster).map ruleDocument).zipIdx).mapM
      (compileRule lib (policyOf lib s version sourceDigest sourceCommit)) = .ok (table s.roster) := by
    rw [List.zipIdx_map,mapM_each (g := Prod.fst),List.zipIdx_map_fst]
    intro entry member
    obtain ⟨own,wakes⟩ := rules entry.1 (List.fst_mem_of_mem_zipIdx member)
    exact compileRule_matches rfl own (names ▸ wakes) entry.2
  have some_ : table s.roster ≠ [] := by simp [table]
  unfold loadWakeRules wakeRules
  refine require_bind_ok.mpr ⟨hex,require_bind_ok.mpr ⟨rfl,?_⟩⟩
  refine require_bind_ok.mpr ⟨⟨by simp [Json.has],by simp⟩,bind_ok.mpr ⟨_,compiled,?_⟩⟩
  exact require_bind_ok.mpr ⟨some_,rfl⟩

/-! An organization with the default roster. -/

def acme : Stamp where
  org := "acme"
  product := "acme"
  goal := "<YOUR GOAL — e.g. $10k/month>"
  principal := "octocat"
  orgRepo := "octocat/acme"
  productRepo := "octocat/product-repo"
  roster := defaultRoster
  maxAgents := 8

theorem init_acme : init Served.quietLibrary {folder := "acme",principalGithub := some "octocat"} = .ok acme := by
  decide +kernel

theorem stamp_compiles_iff_acme : Policy.compilePolicy Served.quietLibrary (organizationDocument acme "1.0.0\n" rulesDigest) "0" =
    .ok (policyOf Served.quietLibrary acme "1.0.0\n" rulesDigest "0") := by
  have named : Policy.semanticVersion (strip "1.0.0\n") ∧ hexChars 64 rulesDigest.toList := by decide +kernel
  have compiles := (stamp_compiles_iff Served.quietLibrary (fun _ => rfl) {folder := "acme",principalGithub := some "octocat"} acme
    init_acme "1.0.0\n" rulesDigest "0").1 (policyOf Served.quietLibrary acme "1.0.0\n" rulesDigest "0")
  exact compiles.mpr ⟨named,rfl⟩

theorem stamp_rules_load_acme : loadWakeRules Served.quietLibrary (policyOf Served.quietLibrary acme "1.0.0\n" rulesDigest "0")
    rulesDigest (wakeRules acme.roster) rulesDigest = .ok (table acme.roster) :=
  stamp_rules_load Served.quietLibrary {folder := "acme",principalGithub := some "octocat"} acme init_acme "1.0.0\n" rulesDigest "0"
    rulesDigest (by decide +kernel)

end Orggen
end SjgControl

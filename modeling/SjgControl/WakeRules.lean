import SjgControl.Headroom
import SjgControl.Poll

/-! The wake rules: the roster that `orggen` accepts, the table it generates from it, and
the role that the supervisor finds for an event by such a table. -/
namespace SjgControl
open Relational PythonText

structure WakeRule where
  fields : List (String × String)
  wake : String
  deriving DecidableEq

structure RoutedEvent where
  kind : String
  repository : String
  labels : List String
  workflow : Option String := none
  conclusion : Option String := none
  prState : Option String := none
  deriving DecidableEq

structure RoutingError where
  message : String
  deriving DecidableEq

namespace Routing

def matchFields : List String := ["kind","repo","label","workflow","conclusion","pr_state"]

def kinds : List String := ["issue","pr","comment","run"]

def prStates : List String := ["open","merged","closed"]

/-- `[A-Za-z0-9_.-]+\.ya?ml`. -/
def workflowFile (text : String) : Prop :=
  ∃ ending ∈ [".yml",".yaml"], ending.length < text.length ∧ endsWith text ending ∧ ∀ c ∈ text.toList, Policy.nameChar c

instance : DecidablePred workflowFile := fun text => inferInstanceAs (Decidable
  (∃ ending ∈ [".yml",".yaml"], ending.length < text.length ∧ endsWith text ending ∧
    ∀ c ∈ text.toList, Policy.nameChar c))

/-- One round over `match.items()`. -/
def normalizeField (rule : String) (entry : String × Json) : Except RoutingError (String × String) :=
  match entry.2 with
  | .str value =>
    if value ≠ "" ∧ ∀ c ∈ value.toList, ¬ c.toNat < 32 then .ok (entry.1,value)
    else .error ⟨rule ++ " has an invalid " ++ entry.1 ++ " value"⟩
  | _ => .error ⟨rule ++ " has an invalid " ++ entry.1 ++ " value"⟩

def admits (fields : List (String × String)) (name : String) (good : String → Prop) : Prop :=
  ∀ value ∈ lookup fields name, good value

instance (fields : List (String × String)) (name : String) (good : String → Prop) [DecidablePred good] :
    Decidable (admits fields name good) :=
  inferInstanceAs (Decidable (∀ value ∈ lookup fields name, good value))

/-- The keys of a mapping are just these, whatever their order. -/
def keyed (fields : Fields) (names : List String) : Prop :=
  (∀ name ∈ names, Json.has fields name) ∧ ∀ field ∈ fields, field.1 ∈ names

instance (fields : Fields) (names : List String) : Decidable (keyed fields names) :=
  inferInstanceAs (Decidable ((∀ name ∈ names, Json.has fields name) ∧ ∀ field ∈ fields, field.1 ∈ names))

variable (lib : TextLibrary) (policy : CompiledPolicy)

/-- One round over `data["rules"]`. -/
def compileRule (entry : Json × Nat) : Except RoutingError WakeRule :=
  let rule := "wake rule " ++ toString entry.2
  match entry.1 with
  | .obj raw => do
    require (keyed raw ["match","wake"]) ⟨rule ++ " must contain exactly match and wake"⟩
    match Json.get raw "match" with
    | .obj given => do
      require (given ≠ [] ∧ ∀ field ∈ given, field.1 ∈ matchFields) ⟨rule ++ " has invalid match fields"⟩
      let fields ← given.mapM (normalizeField rule)
      require (admits fields "kind" (· ∈ kinds)) ⟨rule ++ " has an invalid kind"⟩
      require (admits fields "repo" (· ∈ policy.repositories.map Prod.fst))
        ⟨rule ++ " has an unknown repository alias"⟩
      require (admits fields "pr_state" (· ∈ prStates)) ⟨rule ++ " has an invalid pull-request state"⟩
      require (admits fields "workflow" workflowFile) ⟨rule ++ " has an invalid workflow filename"⟩
      let wake := (Json.get raw "wake").text lib.render
      require (wake = "from-label" ∨ wake ∈ policy.roles.map Prod.fst) ⟨rule ++ " targets an unknown role"⟩
      return ⟨fields,wake⟩
    | _ => throw ⟨rule ++ " has invalid match fields"⟩
  | _ => throw ⟨rule ++ " must contain exactly match and wake"⟩

/-- `load_wake_rules` on a file of this digest that decodes to `data`. -/
def loadWakeRules (digest : String) (data : Json) (expected : String) : Except RoutingError (List WakeRule) := do
  require (hexChars 64 expected.toList) ⟨"commissioned wake-rule digest is invalid"⟩
  require (digest = expected) ⟨"wake rules differ from the commissioned digest"⟩
  match data with
  | .obj fields => do
    require (keyed fields ["rules"]) ⟨"wake rules must contain only a rules list"⟩
    match Json.get fields "rules" with
    | .arr rules => do
      let compiled ← rules.zipIdx.mapM (compileRule lib policy)
      require (compiled ≠ []) ⟨"at least one wake rule is required"⟩
      return compiled
    | _ => throw ⟨"wake rules must contain only a rules list"⟩
  | _ => throw ⟨"wake rules must contain only a rules list"⟩

def labels (value : Json) : List String :=
  match value with
  | .arr items => items.filterMap (fun item =>
    match (match item with
      | .obj fields => Json.get fields "name"
      | other => other) with
    | .str name => if name = "" then none else some name
    | _ => none)
  | _ => []

/-- `os.path.basename(path.split("@", 1)[0])`. -/
def workflowName (path : String) : Option String :=
  let front := path.toList.takeWhile (· ≠ '@')
  if front = [] then none else some (String.ofList (front.reverse.takeWhile (· ≠ '/')).reverse)

def orElse (first second : Json) : Json := if first.truthy then first else second

/-- `payload.get("_sjg_pull_request")` is a merged pull request. -/
def merged : Json → Bool
  | .obj pull => match Json.get pull "merged_at" with
    | .null => false
    | _ => true
  | _ => false

def normalizeEvent (sourceId : String) (payload : Json) : Except RoutingError RoutedEvent := do
  require (sourceId ∈ sourceIds) ⟨"unknown event source: " ++ sourceId⟩
  match payload with
  | .obj payload =>
    let repository := if "org-".toList <+: sourceId.toList then "org" else "product"
    if endsWith sourceId "workflow-runs" then
      let path := (orElse (Json.get payload "path") (Json.get payload "_sjg_workflow_path")).textOr lib.render
      let conclusion := (Json.get payload "conclusion").textOr lib.render
      return {
        kind := "run"
        repository := repository
        labels := []
        workflow := workflowName path
        conclusion := if conclusion = "" then none else some conclusion }
    else if endsWith sourceId "comments" then
      match Json.get payload "_sjg_parent" with
      | .obj parent => return ⟨"comment",repository,labels (Json.get parent "labels"),none,none,none⟩
      | _ => throw ⟨"comment event lacks complete parent enrichment"⟩
    else if (Json.get payload "pull_request").truthy then
      let state := (Json.get payload "state").textOr lib.render
      return {
        kind := "pr"
        repository := repository
        labels := labels (Json.get payload "labels")
        prState := some (if merged (Json.get payload "_sjg_pull_request") then "merged"
          else if state = "open" then "open" else "closed") }
    else return ⟨"issue",repository,labels (Json.get payload "labels"),none,none,none⟩
  | _ => throw ⟨"event payload must be an object"⟩

end Routing

namespace RoutedEvent

def value (event : RoutedEvent) (field : String) : Option String :=
  if field = "kind" then some event.kind
  else if field = "repo" then some event.repository
  else if field = "workflow" then event.workflow
  else if field = "conclusion" then event.conclusion
  else if field = "pr_state" then event.prState
  else none

def Meets (event : RoutedEvent) (rule : WakeRule) : Prop :=
  ∀ entry ∈ rule.fields, if entry.1 = "label" then entry.2 ∈ event.labels else event.value entry.1 = some entry.2

instance (event : RoutedEvent) : DecidablePred event.Meets := fun rule => inferInstanceAs (Decidable
  (∀ entry ∈ rule.fields, if entry.1 = "label" then entry.2 ∈ event.labels else event.value entry.1 = some entry.2))

end RoutedEvent

namespace Routing

def roleLabel (label : String) : Option String :=
  if "role:".toList <+: label.toList then some (String.ofList (label.toList.drop 5)) else none

/-- The roles of the policy that the labels of an event name. -/
def named (policy : CompiledPolicy) (event : RoutedEvent) : List String :=
  Policy.frozen ((event.labels.filterMap roleLabel).filter (· ∈ policy.roles.map Prod.fst))

def target (policy : CompiledPolicy) (event : RoutedEvent) (rule : WakeRule) : Option String :=
  if rule.wake ≠ "from-label" then some rule.wake
  else match named policy event with
    | [role] => some role
    | _ => none

/-- The first rule that matches ends the search. -/
def routeEvent (policy : CompiledPolicy) (event : RoutedEvent) (rules : List WakeRule) : Option String :=
  (rules.find? event.Meets).bind (target policy event)

end Routing

namespace Orggen

/-- An entry of the roster, in the order of `out.append`. -/
structure RoleSpec where
  name : String
  function : String
  reportsTo : String
  modelProfile : String
  maxSub : Int
  budget : Int
  note : String
  deriving DecidableEq

def archetypes : List (String × RoleSpec) :=
  [⟨"project-orchestrator","objective-coordination","portfolio-orchestrator","standard",0,300000,
      "Coordinates assigned objectives; it does not spawn worker teams"⟩,
    ⟨"commercial-planner","commercial-planning","project-orchestrator","standard",4,500000,
      "May spawn bounded task workers within this cap"⟩,
    ⟨"software-implementer","software-delivery","project-orchestrator","standard",4,500000,
      "May spawn bounded task workers within this cap"⟩,
    ⟨"policy-reviewer","policy-review","human-principal","standard",4,500000,
      "Independent reviewer; may spawn evidence researchers"⟩,
    ⟨"governance-reviewer","governance-judgment","human-principal","fast",0,100000,
      "Handles only judgment residue from the deterministic governance monitor"⟩].map (fun r => (r.name,r))

def defaultRoles : List String :=
  ["project-orchestrator","commercial-planner","software-implementer","governance-reviewer"]

def allowedRoles : List String := defaultRoles ++ ["policy-reviewer"]

def governanceReviewer : String := "governance-reviewer"

/-- `s.strip() for s in spec.split(",") if s.strip()`, where a list is given. -/
def namesOf (spec : Option String) : List String :=
  match spec with
  | none => defaultRoles
  | some spec =>
    if spec = "" then defaultRoles
    else ((spec.toList.splitOn ',').map (fun part => strip (String.ofList part))).filter (· ≠ "")

variable (lib : TextLibrary)

/-- The loop over the names, with `seen`. -/
def checkNames : List String → List String → Except String Unit
  | _,[] => .ok ()
  | seen,name::rest => do
    require (Policy.roleId name) ("orggen: invalid role id " ++ lib.repr name ++
      "; use lowercase kebab-case ([a-z][a-z0-9-]*)")
    require (name ∉ seen) ("orggen: duplicate role id " ++ lib.repr name)
    checkNames (name::seen) rest

def roles (spec : Option String) : Except String (List RoleSpec) := do
  let names := namesOf spec
  checkNames lib [] names
  let unknown := Policy.frozen (names.filter (· ∉ allowedRoles))
  require (unknown = []) ("orggen: unknown canonical role(s): " ++ Policy.joined ", " unknown)
  let missing := Policy.frozen (defaultRoles.filter (· ∉ names))
  require (missing = []) ("orggen: missing required role(s): " ++ Policy.joined ", " missing)
  (names.filter (· ≠ governanceReviewer) ++ [governanceReviewer]).mapM
    (fun name => fetch (lookup archetypes name) ("KeyError: " ++ lib.repr name))

def labelled (kind name : String) : WakeRule := ⟨[("kind",kind),("label","role:" ++ name)],"from-label"⟩

def supply (roster : List RoleSpec) : String :=
  ((roster.find? (fun r => r.function = "software-delivery")).map RoleSpec.name).getD "project-orchestrator"

def table (roster : List RoleSpec) : List WakeRule :=
  let names := roster.map RoleSpec.name
  let run (workflow : String) := [("kind","run"),("repo","product"),("workflow",workflow)]
  names.map (labelled "issue") ++ [⟨[("kind","issue")],"governance-reviewer"⟩,⟨[("kind","comment")],"from-label"⟩] ++
    names.map (labelled "pr") ++ [⟨[("kind","pr"),("repo","org")],"project-orchestrator"⟩,
      ⟨[("kind","pr"),("repo","product")],supply roster⟩,⟨run "deploy.yml",supply roster⟩,
      ⟨run "code-review.yml",supply roster⟩,⟨run "demo-evidence.yml" ++ [("conclusion","failure")],supply roster⟩]

def ruleDocument (rule : WakeRule) : Json :=
  .obj [("match",.obj (rule.fields.map (fun entry => (entry.1,.str entry.2)))),("wake",.str rule.wake)]

/-- The document that `wake_rules` writes, as it decodes. -/
def wakeRules (roster : List RoleSpec) : Json := .obj [("rules",.arr ((table roster).map ruleDocument))]

def Single (roster : List RoleSpec) (labels : List String) : Prop :=
  ∀ a ∈ roster.map RoleSpec.name, ∀ b ∈ roster.map RoleSpec.name,
    "role:" ++ a ∈ labels → "role:" ++ b ∈ labels → a = b

end Orggen

namespace Routing
variable {lib : TextLibrary} {policy : CompiledPolicy} {event : RoutedEvent}

theorem roleLabel_some {label name : String} : roleLabel label = some name ↔ label = "role:" ++ name := by
  unfold roleLabel
  constructor
  · intro found
    split at found
    next front =>
      obtain ⟨rest,equal⟩ := front
      cases Option.some.inj found
      apply String.toList_injective
      rw [String.toList_append,← equal]
      simp
    next => cases found
  · intro equal
    rw [equal,if_pos (by simp)]
    simp

theorem mem_named {name : String} :
    name ∈ named policy event ↔ "role:" ++ name ∈ event.labels ∧ name ∈ policy.roles.map Prod.fst := by
  rw [named,Policy.mem_frozen,List.mem_filter,List.mem_filterMap,decide_eq_true_eq]
  refine and_congr_left (fun _ => ⟨?_,fun member => ⟨_,member,roleLabel_some.mpr rfl⟩⟩)
  rintro ⟨label,member,own⟩
  exact roleLabel_some.mp own ▸ member

theorem named_nodup : (named policy event).Nodup := Policy.nodup_frozen

/-- Where the labels decide, they decide for the one role they name. -/
theorem target_from_label {rule : WakeRule} {role : String} (wake : rule.wake = "from-label") :
    target policy event rule = some role ↔ named policy event = [role] := by
  rw [target,if_neg (by simp [wake])]
  constructor
  · intro found
    split at found
    next single =>
      cases found
      exact single
    next => cases found
  · intro single
    rw [single]

theorem target_literal {rule : WakeRule} (literal : rule.wake ≠ "from-label") :
    target policy event rule = some rule.wake := if_pos literal

theorem normalizeField_ok {rule : String} {entry : String × Json} {field : String × String}
    (ok : normalizeField rule entry = .ok field) : (field.1,Json.str field.2) = entry := by
  obtain ⟨name,value⟩ := entry
  unfold normalizeField at ok
  split at ok
  next text given =>
    split at ok
    next =>
      cases ok
      exact Prod.ext rfl given.symm
    next => cases ok
  next => cases ok

theorem normalizeEvent_work {sourceId : String} {payload : Fields}
    (ok : normalizeEvent lib sourceId (.obj payload) = .ok event) (kind : event.kind = "issue" ∨ event.kind = "pr") :
    event.labels = labels (Json.get payload "labels") ∧ (event.repository = "org" ∨ event.repository = "product") := by
  have aliased (p : Prop) [Decidable p] : (if p then "org" else "product") = "org" ∨
      (if p then "org" else "product") = "product" := by
    by_cases own : p
    · exact .inl (if_pos own)
    · exact .inr (if_neg own)
  simp only [normalizeEvent,require_bind_ok] at ok
  obtain ⟨known,ok⟩ := ok
  split at ok
  next =>
    cases pure_ok.mp ok
    simp at kind
  next =>
    split at ok
    next =>
      split at ok
      next =>
        cases pure_ok.mp ok
        simp at kind
      next => cases ok
    next =>
      split at ok
      next =>
        cases pure_ok.mp ok
        exact ⟨rfl,aliased _⟩
      next =>
        cases pure_ok.mp ok
        exact ⟨rfl,aliased _⟩

end Routing

namespace Orggen
open Routing
variable {lib : TextLibrary} {policy : CompiledPolicy} {event : RoutedEvent} {roster : List RoleSpec}

theorem archetype_name {name : String} {r : RoleSpec} (found : lookup archetypes name = some r) : r.name = name := by
  have every : ∀ entry ∈ archetypes, entry.2.name = entry.1 := by decide
  obtain ⟨entry,first,rfl⟩ := Option.map_eq_some_iff.mp found
  have same := List.find?_some first
  exact (every entry (List.mem_of_find?_eq_some first)).trans (of_decide_eq_true same)

theorem frozen_nil {values : List String} (empty : Policy.frozen values = []) : values = [] :=
  List.eq_nil_iff_forall_not_mem.mpr (fun _ member => List.not_mem_nil (empty ▸ Policy.mem_frozen.mpr member))

theorem roles_map {spec : Option String} {γ : Type} {g : RoleSpec → γ} {h : String → γ}
    (each : ∀ name r, lookup archetypes name = some r → g r = h name) (ok : roles lib spec = .ok roster) :
    roster.map g = ((namesOf spec).filter (· ≠ governanceReviewer) ++ [governanceReviewer]).map h := by
  obtain ⟨_,_,ok⟩ := bind_ok.mp ok
  obtain ⟨_,ok⟩ := require_bind_ok.mp ok
  obtain ⟨_,ok⟩ := require_bind_ok.mp ok
  refine mapM_ok ?_ ok
  intro name _ r found
  obtain ⟨r',looked,own⟩ := fetch_bind_ok.mp ((bind_pure _).trans found)
  cases pure_ok.mp own
  exact each name r looked

/-- The roster is in the order of the names, the governance reviewer last. -/
theorem roles_names {spec : Option String} (ok : roles lib spec = .ok roster) :
    roster.map RoleSpec.name = (namesOf spec).filter (· ≠ governanceReviewer) ++ [governanceReviewer] :=
  (roles_map (fun _ _ => archetype_name) ok).trans (List.map_id _)

theorem roles_ok {spec : Option String} (ok : roles lib spec = .ok roster) :
    (∀ name ∈ defaultRoles, name ∈ roster.map RoleSpec.name) ∧ ∀ name ∈ roster.map RoleSpec.name, name ∈ allowedRoles := by
  rw [roles_names ok]
  obtain ⟨_,_,ok⟩ := bind_ok.mp ok
  simp only [require_bind_ok] at ok
  obtain ⟨known,complete,ok⟩ := ok
  have known := frozen_nil known
  have complete := frozen_nil complete
  simp only [List.filter_eq_nil_iff,decide_eq_true_eq,not_not] at known complete
  constructor
  · intro name member
    by_cases last : name = governanceReviewer
    · exact List.mem_append_right _ (List.mem_singleton.mpr last)
    · exact List.mem_append_left _ (List.mem_filter.mpr ⟨complete name member,decide_eq_true last⟩)
  · intro name member
    rcases List.mem_append.mp member with inside | last
    · exact known name (List.mem_filter.mp inside).1
    · cases List.mem_singleton.mp last
      decide

theorem supply_mem (required : ∀ name ∈ defaultRoles, name ∈ roster.map RoleSpec.name) :
    supply roster ∈ roster.map RoleSpec.name := by
  unfold supply
  cases owner : roster.find? (fun r => r.function = "software-delivery") with
  | none => exact required _ (by decide)
  | some r => exact List.mem_map_of_mem (List.mem_of_find?_eq_some owner)

theorem textFields_injective : Function.Injective (fun entry : String × String => (entry.1,Json.str entry.2)) := by
  intro first second equal
  simpa [Prod.ext_iff] using equal

theorem ruleDocument_injective : Function.Injective ruleDocument := by
  rintro ⟨fields,wake⟩ ⟨fields',wake'⟩ equal
  simp only [ruleDocument,Json.obj.injEq,List.cons.injEq,Prod.mk.injEq,Json.str.injEq,true_and,and_true] at equal
  obtain ⟨given,rfl⟩ := equal
  rw [List.map_injective_iff.mpr textFields_injective given]

theorem compileRule_document {rule read : WakeRule} {index : Nat}
    (ok : compileRule lib policy (ruleDocument rule,index) = .ok read) : read = rule := by
  simp only [compileRule,ruleDocument,require_bind_ok] at ok
  obtain ⟨_,ok⟩ := ok
  split at ok
  next given found =>
    cases found
    obtain ⟨_,ok⟩ := require_bind_ok.mp ok
    obtain ⟨fields,normal,ok⟩ := bind_ok.mp ok
    simp only [require_bind_ok,pure_ok] at ok
    obtain ⟨_,_,_,_,_,rfl⟩ := ok
    have same := mapM_ok (h := id) (fun _ _ _ => normalizeField_ok) normal
    rw [List.map_id] at same
    rw [List.map_injective_iff.mpr textFields_injective same]
    rfl
  next other => exact (other _ rfl).elim

/-- The table that routes is the one generated. -/
theorem loadWakeRules_document {digest expected : String} {rules : List WakeRule}
    (loaded : loadWakeRules lib policy digest (wakeRules roster) expected = .ok rules) : rules = table roster := by
  simp only [loadWakeRules,wakeRules,require_bind_ok] at loaded
  obtain ⟨_,_,_,loaded⟩ := loaded
  split at loaded
  next given found =>
    cases found
    obtain ⟨compiled,each,loaded⟩ := bind_ok.mp loaded
    obtain ⟨_,loaded⟩ := require_bind_ok.mp loaded
    cases pure_ok.mp loaded
    have documents := mapM_ok (g := ruleDocument) (h := Prod.fst) (by
      rintro ⟨document,index⟩ member rule read
      obtain ⟨generated,_,rfl⟩ := List.mem_map.mp (List.fst_mem_of_mem_zipIdx member)
      rw [compileRule_document read]) each
    rw [List.zipIdx_map_fst] at documents
    exact List.map_injective_iff.mpr ruleDocument_injective documents
  next other => exact (other _ rfl).elim

theorem meets_labelled {kind name : String} :
    event.Meets (labelled kind name) ↔ event.kind = kind ∧ "role:" ++ name ∈ event.labels := by
  simp [RoutedEvent.Meets,labelled,RoutedEvent.value]

theorem find_labelled_other {kind : String} {names : List String} (other : event.kind ≠ kind) :
    (names.map (labelled kind)).find? event.Meets = none := by
  rw [List.find?_eq_none]
  intro rule member met
  obtain ⟨name,_,rfl⟩ := List.mem_map.mp member
  exact other (meets_labelled.mp (of_decide_eq_true met)).1

theorem find_labelled {kind : String} {names : List String} (own : event.kind = kind) :
    (∃ rule, (names.map (labelled kind)).find? event.Meets = some rule ∧ rule.wake = "from-label" ∧
        ∃ name ∈ names, "role:" ++ name ∈ event.labels) ∨
      (names.map (labelled kind)).find? event.Meets = none ∧ ∀ name ∈ names, "role:" ++ name ∉ event.labels := by
  cases first : (names.map (labelled kind)).find? event.Meets with
  | some rule =>
    obtain ⟨name,member,rfl⟩ := List.mem_map.mp (List.mem_of_find?_eq_some first)
    have passed := List.find?_some first
    have met := meets_labelled.mp (of_decide_eq_true passed)
    exact .inl ⟨_,rfl,rfl,name,member,met.2⟩
  | none =>
    refine .inr ⟨rfl,?_⟩
    intro name member label
    have passed := List.find?_eq_none.mp first _ (List.mem_map_of_mem member)
    exact passed (decide_eq_true (meets_labelled.mpr ⟨own,label⟩))

/-- An event of either kind meets a rule: one for its labels, or, where none of them names a
role of the roster, one that names a role itself. -/
theorem find_table (required : ∀ name ∈ defaultRoles, name ∈ roster.map RoleSpec.name)
    (kind : event.kind = "issue" ∨ event.kind = "pr") (aliased : event.repository = "org" ∨ event.repository = "product") :
    ∃ rule, (table roster).find? event.Meets = some rule ∧
      (rule.wake = "from-label" ∧ (∃ name ∈ roster.map RoleSpec.name, "role:" ++ name ∈ event.labels) ∨
        rule.wake ∈ roster.map RoleSpec.name ∧ ∀ name ∈ roster.map RoleSpec.name, "role:" ++ name ∉ event.labels) := by
  unfold table
  simp only [List.find?_append,Option.or_assoc]
  rcases kind with issue | pull
  · rcases @find_labelled event "issue" (roster.map RoleSpec.name) issue with ⟨rule,first,wake,some_⟩ | ⟨none_,absent⟩
    · exact ⟨rule,by rw [first,Option.some_or],.inl ⟨wake,some_⟩⟩
    · refine ⟨⟨[("kind","issue")],"governance-reviewer"⟩,?_,.inr ⟨required _ (by decide),absent⟩⟩
      rw [none_,Option.none_or,List.find?_cons_of_pos (by simp [RoutedEvent.Meets,RoutedEvent.value,issue]),Option.some_or]
  · have issues := @find_labelled_other event "issue" (roster.map RoleSpec.name) (by simp [pull])
    have others : ([⟨[("kind","issue")],"governance-reviewer"⟩,⟨[("kind","comment")],"from-label"⟩] :
        List WakeRule).find? (fun rule => decide (event.Meets rule)) = none := by
      simp [RoutedEvent.Meets,RoutedEvent.value,pull]
    rw [issues,others,Option.none_or,Option.none_or]
    rcases @find_labelled event "pr" (roster.map RoleSpec.name) pull with ⟨rule,first,wake,some_⟩ | ⟨none_,absent⟩
    · exact ⟨rule,by rw [first,Option.some_or],.inl ⟨wake,some_⟩⟩
    · rw [none_,Option.none_or]
      rcases aliased with org | product
      · refine ⟨⟨[("kind","pr"),("repo","org")],"project-orchestrator"⟩,?_,.inr ⟨required _ (by decide),absent⟩⟩
        rw [List.find?_cons_of_pos (by simp [RoutedEvent.Meets,RoutedEvent.value,pull,org])]
      · refine ⟨⟨[("kind","pr"),("repo","product")],supply roster⟩,?_,.inr ⟨supply_mem required,absent⟩⟩
        rw [List.find?_cons_of_neg (by simp [RoutedEvent.Meets,RoutedEvent.value,product]),
          List.find?_cons_of_pos (by simp [RoutedEvent.Meets,RoutedEvent.value,pull,product])]

theorem named_single (same : ∀ name, name ∈ policy.roles.map Prod.fst ↔ name ∈ roster.map RoleSpec.name)
    (some_ : ∃ name ∈ roster.map RoleSpec.name, "role:" ++ name ∈ event.labels) :
    (∃ role ∈ roster.map RoleSpec.name, named policy event = [role]) ↔ Single roster event.labels := by
  have listed {name : String} : name ∈ named policy event ↔
      "role:" ++ name ∈ event.labels ∧ name ∈ roster.map RoleSpec.name := by rw [mem_named,same]
  constructor
  · rintro ⟨role,_,alone⟩ a memberA b memberB labelA labelB
    have first := listed.mpr ⟨labelA,memberA⟩
    have second := listed.mpr ⟨labelB,memberB⟩
    rw [alone,List.mem_singleton] at first second
    exact first.trans second.symm
  · intro single
    obtain ⟨name,member,label⟩ := some_
    have least := listed.mpr ⟨label,member⟩
    have only (other : String) (inside : other ∈ named policy event) : other = name :=
      single other (listed.mp inside).2 name member (listed.mp inside).1 label
    exact ⟨name,member,List.perm_singleton.mp
      ((List.perm_ext_iff_of_nodup named_nodup (List.nodup_singleton _)).mpr
        (fun other => ⟨fun inside => List.mem_singleton.mpr (only other inside),
          fun inside => List.mem_singleton.mp inside ▸ least⟩))⟩

/-- Every issue and every pull request finds a role of the roster, unless its labels name
two of them. -/
theorem routed_iff (lib : TextLibrary) (policy : CompiledPolicy) (spec : Option String) (roster : List RoleSpec)
    (accepted : roles lib spec = .ok roster)
    (same : ∀ name, name ∈ policy.roles.map Prod.fst ↔ name ∈ roster.map RoleSpec.name) (digest : String)
    (rules : List WakeRule) (loaded : loadWakeRules lib policy digest (wakeRules roster) digest = .ok rules)
    (sourceId : String) (payload : Fields) (event : RoutedEvent)
    (normal : normalizeEvent lib sourceId (.obj payload) = .ok event) (kind : event.kind = "issue" ∨ event.kind = "pr") :
    (∃ role ∈ roster.map RoleSpec.name, routeEvent policy event rules = some role) ↔
      Single roster (labels (Json.get payload "labels")) := by
  obtain ⟨required,allowed⟩ := roles_ok accepted
  obtain ⟨labels,aliased⟩ := normalizeEvent_work normal kind
  obtain ⟨rule,first,wakes⟩ := find_table required kind aliased
  rw [loadWakeRules_document loaded,routeEvent,first,Option.bind_some,← labels]
  rcases wakes with ⟨wake,some_⟩ | ⟨literal,absent⟩
  · simp only [target_from_label wake]
    exact named_single same some_
  · have plain : rule.wake ≠ "from-label" := by
      intro fromLabel
      exact absurd (allowed _ (fromLabel ▸ literal)) (by decide)
    refine iff_of_true ⟨rule.wake,literal,target_literal plain⟩ ?_
    intro a member b _ label
    exact absurd label (absent a member)

def defaultRoster : List RoleSpec := defaultRoles.filterMap (lookup archetypes)

def rulesDigest : String := "0123456789abcdef0123456789abcdef0123456789abcdef0123456789abcdef"

theorem documented_roles (name : String) :
    name ∈ CompiledPolicy.documented.roles.map Prod.fst ↔ name ∈ defaultRoster.map RoleSpec.name := by
  have equal : CompiledPolicy.documented.roles.map Prod.fst = defaultRoster.map RoleSpec.name := by decide +kernel
  rw [equal]

/-- A merged pull request with the label of a role and one of its kind. -/
def mergedPull : Fields :=
  [("number",.int 7),("state",.str "closed"),("labels",.arr [.str "story",.obj [("name",.str "role:software-implementer")]]),
    ("pull_request",.obj [("url",.str "pulls/7")]),("_sjg_pull_request",.obj [("merged_at",.str "2026-01-01T01:00:00Z")])]

theorem routed_iff_merged :
    (∃ role ∈ defaultRoster.map RoleSpec.name, routeEvent CompiledPolicy.documented
        ⟨"pr","product",["story","role:software-implementer"],none,none,some "merged"⟩ (table defaultRoster) = some role) ↔
      Single defaultRoster (labels (Json.get mergedPull "labels")) :=
  routed_iff Served.quietLibrary CompiledPolicy.documented none defaultRoster (by decide +kernel) documented_roles
    rulesDigest (table defaultRoster) (by decide +kernel) "product-issues" mergedPull _ (by decide +kernel) (.inr rfl)

def documentedBackend : Backend where
  policy := CompiledPolicy.documented.organization
  repositories := [("org",⟨"example/org","main"⟩),("product",⟨"example/product","main"⟩)]
  stages := none
  known := by
    have every : ∀ role ∈ CompiledPolicy.documented.organization.roles, ∀ alias_ ∈ role.2.repositories,
        (lookup [("org",(⟨"example/org","main"⟩ : Repository)),("product",⟨"example/product","main"⟩)] alias_).isSome := by
      decide +kernel
    intro role member alias_ inside
    exact Option.isSome_iff_exists.mp (every role member alias_ inside)

/-- The planner proposes a change together with the implementer. -/
def jointProposal : BrokerCall :=
  ⟨Served.planner,"pm.issue.create",[("kind",.str "proposal"),("title",.str "Invoices"),
    ("also_role",.arr [.str "software-implementer"])],"planner-proposal-01"⟩

def jointIssue : Fields :=
  issueItem ⟨1008,8,"issue-8"⟩ "[PROPOSAL] Invoices" (Backend.writtenBody Served.quietLibrary jointProposal)
    (documentedBackend.issueLabels Served.quietLibrary jointProposal "proposal")

/-- The issue is created as asked, and its event finds nobody, not even the reviewer. -/
theorem jointIssue_unrouted :
    roles Served.quietLibrary none = .ok defaultRoster ∧
      loadWakeRules Served.quietLibrary CompiledPolicy.documented rulesDigest (wakeRules defaultRoster) rulesDigest =
        .ok (table defaultRoster) ∧
      authorizeCreate Served.quietLibrary documentedBackend.policy jointProposal.session jointProposal.arguments
        Facts.plain = .ok () ∧
      ∃ event, normalizeEvent Served.quietLibrary "org-issues" (.obj jointIssue) = .ok event ∧ event.kind = "issue" ∧
        routeEvent CompiledPolicy.documented event (table defaultRoster) = none := by
  refine ⟨by decide +kernel,by decide +kernel,by decide +kernel,
    ⟨"issue","org",["proposal","role:commercial-planner","role:software-implementer"],none,none,none⟩,?_,rfl,?_⟩
  · decide +kernel
  · decide +kernel

end Orggen
end SjgControl

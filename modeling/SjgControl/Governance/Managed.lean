import SjgControl.Ownership
import SjgControl.Governance.Sync

/-! Whose items the monitor takes for its own. A run interleaves agent requests with the steps
of any number of syncs; the issues API lists the pull requests of the org repository too. -/
namespace SjgControl
open Relational PythonText Machine Backend

def sourceNamed (body : List Char) : Option String :=
  (sourceIn body).filter (fun source => (sourceMarker source).toBool)

/-- The source under which `_managed` keeps an issue. -/
def classified (lib : TextLibrary) (issue : Fields) : Option String := sourceNamed (bodyOf lib issue).toList

def numberOf (item : Fields) : Option Int :=
  match Json.get item "number" with
  | .int n => some n
  | _ => none

/-- The number of the item that a write opens in a repository. -/
def RemoteWrite.opens (slug : String) : RemoteWrite → Option Int
  | .openIssue s item | .openPull s item => if s = slug then numberOf item else none
  | _ => none

def Backend.orgSlug (b : Backend) : String := ((lookup b.repositories "org").map Repository.slug).getD ""

def ownText (body : String) : String :=
  let stripped := lstrip (String.ofList (removeItems (lines body.toList)))
  if stripped = "" then "—" else stripped

/-- `made` are the numbers of the items that agent requests have opened in the org repository. -/
structure QueueRun extends MonitorRun where
  made : List Int

inductive QueueEvent where
  | request (e : AgentRequest)
  | sync (monitor : GovernanceMonitor)
  | advance (i : Nat) (input : SyncInput)
  | resolve (j : Nat)
  | visit (j : Nat) (answer : Verification) (now : Instant)

namespace QueueRun
variable (b : Backend) (lib : MonitorLibrary)

def beginning (m : MonitorRun) : QueueRun := {m with made := []}

def opens (remote : GitHub) (e : AgentRequest) : List Int :=
  if e.Admitted b lib.toTextLibrary remote then
    (e.writes b lib.toTextLibrary remote).filterMap (RemoteWrite.opens b.orgSlug)
  else []

def step (s : QueueRun) : QueueEvent → QueueRun
  | .request e =>
    {s with
      remote := AgentRequest.step b lib.toTextLibrary s.remote e
      made := s.made ++ opens b lib s.remote e}
  | .sync monitor => {s with toMonitorRun := s.toMonitorRun.step lib (.sync monitor s.remote)}
  | .advance i input => {s with toMonitorRun := s.toMonitorRun.step lib (.advance i input)}
  | .resolve j => {s with toMonitorRun := s.toMonitorRun.step lib (.resolve j)}
  | .visit j answer now => {s with toMonitorRun := s.toMonitorRun.step lib (.visit j answer now)}

def Unused (remote : GitHub) (slug : String) (n : Int) : Prop :=
  ∀ item ∈ remote.issues slug ++ remote.pulls slug, numberOf item ≠ some n

instance (remote : GitHub) (slug : String) (n : Int) : Decidable (Unused remote slug n) :=
  inferInstanceAs (Decidable (∀ item ∈ remote.issues slug ++ remote.pulls slug, numberOf item ≠ some n))

/-- The number of the issue that a sync at a point posts, if it posts one. -/
def posting (input : SyncInput) : SyncPoint → Option Int
  | .writing _ _ .open_ _ => some input.reply.assigned.number
  | _ => none

/-- GitHub numbers what is new with a number that is not taken. -/
def Fresh (s : QueueRun) : QueueEvent → Prop
  | .request e => ∀ n ∈ opens b lib s.remote e, Unused s.remote b.orgSlug n
  | .advance i input => ∀ x ∈ s.syncs[i]?, ∀ n ∈ posting input x.2, Unused s.remote x.1.orgSlug n
  | _ => True

/-- No item that an agent request opened is classified. -/
def Unmanaged (s : QueueRun) : Prop :=
  ∀ item ∈ s.remote.listedIssues b.orgSlug, ∀ n ∈ s.made, numberOf item = some n →
    classified lib.toTextLibrary item = none

def AtOrg (e : AgentRequest) : Prop :=
  ∃ r, b.repo lib.toTextLibrary e.call.arguments = .ok r ∧ r.slug = b.orgSlug

/-- A request that reaches the org repository names no source in what it opens there, nor in
what it makes of a pull request that a request opened. -/
def Silent (s : QueueRun) : QueueEvent → Prop
  | .request e => e.Admitted b lib.toTextLibrary s.remote → 0 < e.reached → AtOrg b lib e →
    (e.call.operation = "pm.issue.create" → sourceNamed (ownText (textOrElse lib.toTextLibrary e.call.arguments "body" "—")).toList = none) ∧
    (e.call.operation = "pr.create" →
      sourceNamed (textArgument lib.toTextLibrary e.call.arguments "body").toList = none) ∧
    (e.call.operation = "pr.update" → Json.has e.call.arguments "body" →
      (∃ n ∈ s.made, number lib.toTextLibrary e.call.arguments ["id","pr"] = .ok n) →
      sourceNamed (textArgument lib.toTextLibrary e.call.arguments "body").toList = none)
  | _ => True

end QueueRun

/-! The lines that `execute` puts before the text are no markers. -/

theorem markedSource_other {line : List Char} (other : line.take 6 = "<!-- s".toList) : markedSource line = none := by
  unfold markedSource
  rw [if_neg]
  rintro ⟨⟨rest,same⟩,_⟩
  rw [← same,List.take_append_of_le_length (by decide)] at other
  exact absurd other (by decide)

theorem sourceIn_behind {line : List Char} (plain : '\n' ∉ line) (other : line.take 6 = "<!-- s".toList)
    (rest : List Char) : sourceIn (line ++ '\n'::rest) = sourceIn rest := by
  unfold sourceIn
  rw [lines_break,lines_plain plain,List.singleton_append,List.findSome?_cons,markedSource_other other]

theorem sourceIn_idempotentBody {key : String} (conforms : requestId key) (body : String) :
    sourceIn (idempotentBody body key).toList = sourceIn body.toList := by
  unfold idempotentBody
  split
  next => rfl
  next =>
    have shape : (markerOf key ++ "\n" ++ body).toList = (markerOf key).toList ++ '\n'::body.toList := by simp
    have front : (markerOf key).toList.take 6 = "<!-- s".toList := by
      unfold markerOf
      rw [String.toList_append,String.toList_append,List.append_assoc,List.take_append_of_le_length (by decide)]
      decide
    rw [shape]
    exact sourceIn_behind (markerOf_plain conforms) front _

theorem sourceIn_bodyWithMetadata (body ownerRole kind : String) :
    sourceIn (bodyWithMetadata body ownerRole kind).toList = sourceIn (ownText body).toList := by
  have plain : '\n' ∉ ("<!-- sjg-item:" ++ itemMetadata ownerRole kind ++ " -->").toList := by
    simp [itemMetadata_plain]
  have front : ("<!-- sjg-item:" ++ itemMetadata ownerRole kind ++ " -->").toList.take 6 = "<!-- s".toList := by
    rw [String.toList_append,String.toList_append,List.append_assoc,List.take_append_of_le_length (by decide)]
    decide
  have shape : (bodyWithMetadata body ownerRole kind).toList =
      ("<!-- sjg-item:" ++ itemMetadata ownerRole kind ++ " -->").toList ++ '\n'::(ownText body).toList := by
    unfold bodyWithMetadata ownText
    simp
  rw [shape]
  exact sourceIn_behind plain front _

/-- What the requests have opened is in the lists, names no source, and as an issue has an owner. -/
structure Unclaimed (lib : TextLibrary) (made : List Int) (issues pulls : List Fields) : Prop where
  kept : ∀ n ∈ made, ∃ item ∈ issues ++ pulls, numberOf item = some n
  issues : ∀ issue ∈ issues, ∀ n ∈ made, numberOf issue = some n →
    classified lib issue = none ∧ ownerOf lib issue ≠ .null
  pulls : ∀ pull ∈ pulls, ∀ n ∈ made, numberOf pull = some n → classified lib pull = none

theorem numberOf_congr {item other : Fields} (same : Json.get item "number" = Json.get other "number") :
    numberOf item = numberOf other := by
  unfold numberOf
  rw [same]

theorem numberOf_int {item : Fields} {n : Int} (own : Json.get item "number" = .int n) : numberOf item = some n := by
  unfold numberOf
  rw [own]

theorem get_of_numberOf {item : Fields} {n : Int} (own : numberOf item = some n) : Json.get item "number" = .int n := by
  unfold numberOf at own
  split at own
  next found =>
    cases own
    exact found
  next => cases own

theorem classified_congr {lib : TextLibrary} {item other : Fields} (same : Json.get item "body" = Json.get other "body") :
    classified lib item = classified lib other := by
  unfold classified bodyOf textArgument
  rw [same]

theorem edited_number {changes : Fields} (unnumbered : ¬ Json.has changes "number") (m : Int) (item : Fields) :
    Json.get (GitHub.edited m changes item) "number" = Json.get item "number" := by
  unfold GitHub.edited
  split
  next own =>
    split
    next => rw [Json.get_append,if_neg unnumbered,own]
    next => rw [own]
  next => rfl

theorem edited_body (m : Int) (changes item : Fields) :
    Json.get (GitHub.edited m changes item) "body" = Json.get item "body" ∨
      numberOf item = some m ∧ Json.has changes "body" ∧
        Json.get (GitHub.edited m changes item) "body" = Json.get changes "body" := by
  unfold GitHub.edited
  split
  next n own =>
    split
    next same =>
      rw [Json.get_append]
      split
      next given => exact .inr ⟨numberOf_int (same ▸ own),given,rfl⟩
      next => exact .inl rfl
    next => exact .inl rfl
  next => exact .inl rfl

namespace Unclaimed
variable {lib : TextLibrary} {made : List Int} {issues pulls : List Fields} (unclaimed : Unclaimed lib made issues pulls)
include unclaimed

theorem used {n : Int} (fresh : ∀ item ∈ issues ++ pulls, numberOf item ≠ some n) : n ∉ made := by
  intro member
  obtain ⟨item,listed,own⟩ := unclaimed.kept n member
  exact fresh item listed own

theorem posted {item : Fields} {k : Int} (own : numberOf item = some k) (other : k ∉ made) :
    Unclaimed lib made (issues ++ [item]) pulls where
  kept := fun n member => by
    obtain ⟨old,listed,same⟩ := unclaimed.kept n member
    refine ⟨old,?_,same⟩
    rcases List.mem_append.mp listed with inside | outside
    · exact List.mem_append_left _ (List.mem_append_left _ inside)
    · exact List.mem_append_right _ outside
  issues := fun issue listed n member same => by
    rcases List.mem_append.mp listed with old | new
    · exact unclaimed.issues issue old n member same
    · cases List.mem_singleton.mp new
      rw [own] at same
      cases same
      exact absurd member other
  pulls := unclaimed.pulls

theorem openedIssue {item : Fields} {k : Int} (own : numberOf item = some k)
    (fresh : ∀ item ∈ issues ++ pulls, numberOf item ≠ some k) (silent : classified lib item = none)
    (owned : ownerOf lib item ≠ .null) : Unclaimed lib (made ++ [k]) (issues ++ [item]) pulls where
  kept := fun n member => by
    rcases List.mem_append.mp member with old | new
    · exact (unclaimed.posted own (unclaimed.used fresh)).kept n old
    · cases List.mem_singleton.mp new
      exact ⟨item,by simp,own⟩
  issues := fun issue listed n member same => by
    rcases List.mem_append.mp listed with old | new
    · rcases List.mem_append.mp member with before | last
      · exact unclaimed.issues issue old n before same
      · cases List.mem_singleton.mp last
        exact absurd same (fresh issue (List.mem_append_left _ old))
    · cases List.mem_singleton.mp new
      exact ⟨silent,owned⟩
  pulls := fun pull listed n member same => by
    rcases List.mem_append.mp member with before | last
    · exact unclaimed.pulls pull listed n before same
    · cases List.mem_singleton.mp last
      exact absurd same (fresh pull (List.mem_append_right _ listed))

theorem openedPull {item : Fields} {k : Int} (own : numberOf item = some k)
    (fresh : ∀ item ∈ issues ++ pulls, numberOf item ≠ some k) (silent : classified lib item = none) :
    Unclaimed lib (made ++ [k]) issues (pulls ++ [item]) where
  kept := fun n member => by
    rcases List.mem_append.mp member with old | new
    · obtain ⟨item,listed,same⟩ := unclaimed.kept n old
      refine ⟨item,?_,same⟩
      rw [← List.append_assoc]
      exact List.mem_append_left _ listed
    · cases List.mem_singleton.mp new
      exact ⟨item,by simp,own⟩
  issues := fun issue listed n member same => by
    rcases List.mem_append.mp member with before | last
    · exact unclaimed.issues issue listed n before same
    · cases List.mem_singleton.mp last
      exact absurd same (fresh issue (List.mem_append_left _ listed))
  pulls := fun pull listed n member same => by
    rcases List.mem_append.mp listed with old | new
    · rcases List.mem_append.mp member with before | last
      · exact unclaimed.pulls pull old n before same
      · cases List.mem_singleton.mp last
        exact absurd same (fresh pull (List.mem_append_right _ old))
    · cases List.mem_singleton.mp new
      exact silent

theorem kept_edited {edit edit' : Fields → Fields} (numbers : ∀ item, numberOf (edit item) = numberOf item)
    (numbers' : ∀ item, numberOf (edit' item) = numberOf item) :
    ∀ n ∈ made, ∃ item ∈ issues.map edit ++ pulls.map edit', numberOf item = some n := by
  intro n member
  obtain ⟨item,listed,own⟩ := unclaimed.kept n member
  rcases List.mem_append.mp listed with inside | outside
  · exact ⟨edit item,List.mem_append_left _ (List.mem_map_of_mem inside),(numbers item).trans own⟩
  · exact ⟨edit' item,List.mem_append_right _ (List.mem_map_of_mem outside),(numbers' item).trans own⟩

theorem editedIssue {changes : Fields} {m : Int} (unnumbered : ¬ Json.has changes "number")
    (quiet : m ∈ made → ¬ Json.has changes "body") :
    Unclaimed lib made (issues.map (GitHub.edited m changes)) pulls where
  kept := by
    have kept := unclaimed.kept_edited (fun item => numberOf_congr (edited_number unnumbered m item)) (fun _ => rfl)
    simpa using kept
  issues := fun issue listed n member same => by
    obtain ⟨old,before,rfl⟩ := List.mem_map.mp listed
    rw [numberOf_congr (edited_number unnumbered m old)] at same
    obtain ⟨silent,owned⟩ := unclaimed.issues old before n member same
    rcases edited_body m changes old with text | ⟨own,given,_⟩
    · exact ⟨(classified_congr text).trans silent,fun free => owned ((ownerOf_congr text).symm.trans free)⟩
    · rw [own] at same
      cases same
      exact absurd given (quiet member)
  pulls := unclaimed.pulls

theorem editedPull {changes : Fields} {m : Int} (unnumbered : ¬ Json.has changes "number")
    (silent : m ∈ made → Json.has changes "body" → sourceNamed (textArgument lib changes "body").toList = none) :
    Unclaimed lib made issues (pulls.map (GitHub.edited m changes)) where
  kept := by
    have kept := unclaimed.kept_edited (fun _ => rfl) (fun item => numberOf_congr (edited_number unnumbered m item))
    simpa using kept
  issues := unclaimed.issues
  pulls := fun pull listed n member same => by
    obtain ⟨old,before,rfl⟩ := List.mem_map.mp listed
    rw [numberOf_congr (edited_number unnumbered m old)] at same
    rcases edited_body m changes old with text | ⟨own,given,text⟩
    · exact (classified_congr text).trans (unclaimed.pulls old before n member same)
    · rw [own] at same
      cases same
      exact (classified_congr text).trans (silent member given)

end Unclaimed

/-! What an accepted request does to the lists. -/

namespace AgentRequest
variable {b : Backend} {lib : TextLibrary} {remote : GitHub} {e : AgentRequest}

/-- The write leaves the lists of issues and pull requests alone. -/
def Calm (w : RemoteWrite) : Prop :=
  (∃ slug n id, w = .linkChild slug n id) ∨ ∃ slug n stage, w = .place slug n stage

theorem performAll_calm {writes : List RemoteWrite} (calm : ∀ w ∈ writes, Calm w) (remote : GitHub) :
    (remote.performAll writes).issues = remote.issues ∧ (remote.performAll writes).pulls = remote.pulls := by
  induction writes generalizing remote with
  | nil => exact ⟨rfl,rfl⟩
  | cons w rest ih =>
    obtain ⟨issues,pulls⟩ := ih (fun w member => calm w (List.mem_cons_of_mem _ member)) (remote.perform w)
    rcases calm w List.mem_cons_self with ⟨slug,n,id,rfl⟩ | ⟨slug,n,stage,rfl⟩
    · exact ⟨issues,pulls⟩
    · exact ⟨issues,pulls⟩

theorem Calm.opens {w : RemoteWrite} (calm : Calm w) (slug : String) : w.opens slug = none := by
  rcases calm with ⟨s,n,id,rfl⟩ | ⟨s,n,stage,rfl⟩
  · rfl
  · rfl

theorem placingIf_calm {next : Trail} (rest : ∀ w ∈ next.writes, Calm w) (slug : String) (n : Int) (stage : String) :
    ∀ w ∈ (b.placingIf slug n stage next).writes, Calm w := by
  intro w member
  unfold placingIf placing at member
  split at member
  next =>
    split at member
    next => cases member
    next =>
      split at member
      next =>
        rcases List.mem_cons.mp member with rfl | later
        · exact .inr ⟨slug,n,stage,rfl⟩
        · exact rest w later
      next => cases member
  next => exact rest w member

theorem linking_calm {c : BrokerCall} {a : Assigned} {next : Trail} (rest : ∀ w ∈ next.writes, Calm w) (slug : String) :
    ∀ w ∈ (b.linking lib remote slug a c next).writes, Calm w := by
  intro w member
  unfold linking at member
  split at member
  next =>
    split at member
    next => cases member
    next n _ =>
      rcases List.mem_cons.mp member with rfl | later
      · exact .inl ⟨slug,n,_,rfl⟩
      · exact rest w later
  next => exact rest w member

theorem org_repo {r : Repository} (org : lookup b.repositories "org" = some r) : b.orgSlug = r.slug := by
  unfold Backend.orgSlug
  rw [org]
  rfl

theorem repo_at_org {arguments : Fields} {r : Repository} (confined : alias_ lib arguments = "org")
    (known : b.repo lib arguments = .ok r) : r.slug = b.orgSlug := by
  unfold Backend.repo Backend.repository at known
  rw [confined] at known
  cases org : lookup b.repositories "org" with
  | none =>
    rw [org] at known
    cases known
  | some own =>
    rw [org] at known
    cases known
    exact (org_repo org).symm

theorem create_writes (admitted : Admitted b lib remote e) (create : e.call.operation = "pm.issue.create") :
    ∃ r title labels rest, b.repo lib e.call.arguments = .ok r ∧ r.slug = b.orgSlug ∧
      (b.trail lib remote e.assigned e.call).writes =
        .openIssue r.slug (issueItem e.assigned title (writtenBody lib e.call) labels)::rest ∧ ∀ w ∈ rest, Calm w := by
  have managed : e.call.operation ∈ pmOperations := by
    rw [create]
    decide
  obtain ⟨r,known⟩ := repo_of_validated admitted.validated
  obtain ⟨facts,_,ok⟩ := admitted.authorized
  have given := (given_of_authorized ok).kind create
  unfold trail
  rw [known]
  dsimp only
  rw [if_pos create]
  unfold createTrail
  rw [required_given given]
  exact ⟨r,_,_,_,rfl,repo_at_org (org_of_validated admitted.validated managed) known,rfl,
    linking_calm (placingIf_calm (by simp) _ _ _) r.slug⟩

theorem pull_writes (admitted : Admitted b lib remote e) (create : e.call.operation = "pr.create") :
    ∃ r title draft, b.repo lib e.call.arguments = .ok r ∧
      (b.trail lib remote e.assigned e.call).writes = [.openPull r.slug
        (pullItem e.assigned title (writtenBody lib e.call) (branch lib e.call) r.defaultBranch draft)] := by
  obtain ⟨r,known⟩ := repo_of_validated admitted.validated
  obtain ⟨facts,_,ok⟩ := admitted.authorized
  have given := (given_of_authorized ok).topic create
  unfold trail
  rw [known]
  dsimp only
  rw [if_neg (by simp [create]),if_neg (by rw [create]; decide),if_pos create]
  unfold createPullTrail
  rw [required_given given]
  exact ⟨r,_,_,rfl,rfl⟩

theorem update_writes (admitted : Admitted b lib remote e) (update : e.call.operation = "pr.update") :
    ∃ r n pull, b.repo lib e.call.arguments = .ok r ∧ number lib e.call.arguments ["id","pr"] = .ok n ∧
      GitHub.numbered (remote.pulls r.slug) n = some pull ∧
      (b.trail lib remote e.assigned e.call).writes = [.editPull r.slug n (pullChanges e.call.arguments)] := by
  obtain ⟨facts,read,_⟩ := admitted.authorized
  unfold factsOf at read
  rw [if_neg (by rw [update]; decide),update] at read
  unfold Backend.facts at read
  rw [if_neg (by decide),if_neg (by decide),if_neg (by decide)] at read
  obtain ⟨n,asked,read⟩ := bind_ok.mp read
  obtain ⟨r,known,read⟩ := bind_ok.mp read
  obtain ⟨pull,found,_⟩ := fetch_bind_ok.mp read
  refine ⟨r,n,pull,known,asked,found,?_⟩
  unfold trail
  rw [known]
  dsimp only
  rw [if_neg (by simp [update]),if_neg (by rw [update]; decide),if_neg (by simp [update])]
  unfold pullTrail
  rw [asked]
  dsimp only
  rw [if_pos update]
  rfl

theorem source_created (conforms : requestId e.call.key) (create : e.call.operation = "pm.issue.create") :
    sourceIn (writtenBody lib e.call).toList =
      sourceIn (ownText (textOrElse lib e.call.arguments "body" "—")).toList := by
  unfold writtenBody rawBody
  rw [sourceIn_idempotentBody conforms,if_pos create,sourceIn_bodyWithMetadata]

theorem source_pulled (conforms : requestId e.call.key) (create : e.call.operation = "pr.create") :
    sourceIn (writtenBody lib e.call).toList = sourceIn (textArgument lib e.call.arguments "body").toList := by
  unfold writtenBody rawBody
  rw [sourceIn_idempotentBody conforms,if_neg (by simp [create]),if_neg (by simp [create])]

theorem owner_created (loads : ReadsBack lib) (conforms : requestId e.call.key)
    (create : e.call.operation = "pm.issue.create") (title : String) (labels : List String) :
    ownerOf lib (issueItem e.assigned title (writtenBody lib e.call) labels) = .str (Backend.owner lib e.call) := by
  have body : writtenBody lib e.call = idempotentBody (bodyWithMetadata (textOrElse lib e.call.arguments "body" "—")
      (Backend.owner lib e.call) ((Json.get e.call.arguments "kind").text lib.render)) e.call.key := by
    unfold writtenBody rawBody
    rw [if_pos create]
  exact owner_idempotentBody loads conforms (congrArg Json.str body)

end AgentRequest

namespace QueueRun
variable {b : Backend} {lib : MonitorLibrary} {s : QueueRun} {e : AgentRequest}

def Kept (b : Backend) (lib : MonitorLibrary) (s : QueueRun) : Prop :=
  Unclaimed lib.toTextLibrary s.made (s.remote.issues b.orgSlug) (s.remote.pulls b.orgSlug)

theorem asIssue_get {pull : Fields} {name : String} (other : name ≠ "pull_request") :
    Json.get (GitHub.asIssue pull) name = Json.get pull name := by
  unfold GitHub.asIssue Json.get
  rw [List.find?_cons_of_neg]
  simpa using Ne.symm other

theorem mem_listed {remote : GitHub} {slug : String} {item : Fields} : item ∈ remote.listedIssues slug ↔
    item ∈ remote.issues slug ∨ ∃ pull ∈ remote.pulls slug, GitHub.asIssue pull = item := by
  unfold GitHub.listedIssues
  rw [List.mem_append,List.mem_map]

theorem Kept.unmanaged (kept : Kept b lib s) : Unmanaged b lib s := by
  intro item listed n member own
  rcases mem_listed.mp listed with issue | ⟨pull,inside,rfl⟩
  · exact (kept.issues item issue n member own).1
  · rw [numberOf_congr (asIssue_get (by decide))] at own
    exact (classified_congr (asIssue_get (by decide))).trans (kept.pulls pull inside n member own)

theorem beginning_kept (m : MonitorRun) : Kept b lib (beginning m) where
  kept := fun n member => by cases member
  issues := fun issue _ n member => by cases member
  pulls := fun pull _ n member => by cases member

theorem opens_take {remote : GitHub} (admitted : e.Admitted b lib.toTextLibrary remote) :
    opens b lib remote e = ((b.trail lib.toTextLibrary remote e.assigned e.call).writes.take e.reached).filterMap
      (RemoteWrite.opens b.orgSlug) := by
  unfold opens AgentRequest.writes
  rw [if_pos admitted]

theorem calm_opens {writes : List RemoteWrite} (calm : ∀ w ∈ writes, AgentRequest.Calm w) (slug : String) :
    writes.filterMap (RemoteWrite.opens slug) = [] := by
  rw [List.filterMap_eq_nil_iff]
  exact fun w member => (calm w member).opens slug

/-- The remote behind an accepted request. -/
theorem step_admitted {remote : GitHub} (admitted : e.Admitted b lib.toTextLibrary remote) :
    AgentRequest.step b lib.toTextLibrary remote e =
      remote.performAll ((b.trail lib.toTextLibrary remote e.assigned e.call).writes.take e.reached) := by
  unfold AgentRequest.step AgentRequest.writes
  rw [if_pos admitted]

theorem sourceNamed_congr {one other : List Char} (same : sourceIn one = sourceIn other) :
    sourceNamed one = sourceNamed other := by
  unfold sourceNamed
  rw [same]

theorem created_lists (admitted : e.Admitted b lib.toTextLibrary s.remote)
    (create : e.call.operation = "pm.issue.create") (reached : 0 < e.reached) :
    ∃ title labels, (step b lib s (.request e)).remote.issues b.orgSlug = s.remote.issues b.orgSlug ++
        [issueItem e.assigned title (writtenBody lib.toTextLibrary e.call) labels] ∧
      (step b lib s (.request e)).remote.pulls b.orgSlug = s.remote.pulls b.orgSlug ∧
      opens b lib s.remote e = [e.assigned.number] ∧ AtOrg b lib e := by
  obtain ⟨r,title,labels,rest,known,own,sent,calm⟩ := AgentRequest.create_writes admitted create
  obtain ⟨k,more⟩ := Nat.exists_eq_succ_of_ne_zero (Nat.pos_iff_ne_zero.mp reached)
  have quiet : ∀ w ∈ rest.take k, AgentRequest.Calm w := fun w member => calm w (List.mem_of_mem_take member)
  have first : RemoteWrite.opens b.orgSlug (.openIssue r.slug
      (issueItem e.assigned title (writtenBody lib.toTextLibrary e.call) labels)) = some e.assigned.number := if_pos own
  refine ⟨title,labels,?_,?_,?_,r,known,own⟩
  · change (AgentRequest.step b lib.toTextLibrary s.remote e).issues b.orgSlug = _
    rw [step_admitted admitted,sent,more,List.take_succ_cons]
    change (GitHub.performAll (s.remote.perform _) _).issues _ = _
    rw [(AgentRequest.performAll_calm quiet _).1]
    change GitHub.push s.remote.issues r.slug _ b.orgSlug = _
    rw [own]
    exact if_pos rfl
  · change (AgentRequest.step b lib.toTextLibrary s.remote e).pulls b.orgSlug = _
    rw [step_admitted admitted,sent,more,List.take_succ_cons]
    change (GitHub.performAll (s.remote.perform _) _).pulls _ = _
    rw [(AgentRequest.performAll_calm quiet _).2]
    rfl
  · rw [opens_take admitted,sent,more,List.take_succ_cons,List.filterMap_cons,first,calm_opens quiet]

theorem pulled_lists (admitted : e.Admitted b lib.toTextLibrary s.remote) (create : e.call.operation = "pr.create")
    (reached : 0 < e.reached) :
    ∃ r title draft, b.repo lib.toTextLibrary e.call.arguments = .ok r ∧
      (step b lib s (.request e)).remote.issues b.orgSlug = s.remote.issues b.orgSlug ∧
      (step b lib s (.request e)).remote.pulls b.orgSlug = s.remote.pulls b.orgSlug ++ (if r.slug = b.orgSlug then
        [pullItem e.assigned title (writtenBody lib.toTextLibrary e.call) (branch lib.toTextLibrary e.call)
          r.defaultBranch draft] else []) ∧
      opens b lib s.remote e = if r.slug = b.orgSlug then [e.assigned.number] else [] := by
  obtain ⟨r,title,draft,known,sent⟩ := AgentRequest.pull_writes admitted create
  have all : (b.trail lib.toTextLibrary s.remote e.assigned e.call).writes.take e.reached =
      (b.trail lib.toTextLibrary s.remote e.assigned e.call).writes := List.take_of_length_le (by rw [sent]; exact reached)
  refine ⟨r,title,draft,known,?_,?_,?_⟩
  · change (AgentRequest.step b lib.toTextLibrary s.remote e).issues b.orgSlug = _
    rw [step_admitted admitted,all,sent]
    rfl
  · change (AgentRequest.step b lib.toTextLibrary s.remote e).pulls b.orgSlug = _
    rw [step_admitted admitted,all,sent]
    change GitHub.push s.remote.pulls r.slug _ b.orgSlug = _
    unfold GitHub.push
    by_cases own : r.slug = b.orgSlug
    · rw [if_pos own.symm,if_pos own]
    · rw [if_neg (Ne.symm own),if_neg own,List.append_nil]
  · rw [opens_take admitted,all,sent,List.filterMap_cons]
    by_cases own : r.slug = b.orgSlug
    · have first : RemoteWrite.opens b.orgSlug (.openPull r.slug (pullItem e.assigned title
          (writtenBody lib.toTextLibrary e.call) (branch lib.toTextLibrary e.call) r.defaultBranch draft)) =
          some e.assigned.number := if_pos own
      rw [first,if_pos own]
      rfl
    · have first : RemoteWrite.opens b.orgSlug (.openPull r.slug (pullItem e.assigned title
          (writtenBody lib.toTextLibrary e.call) (branch lib.toTextLibrary e.call) r.defaultBranch draft)) = none := if_neg own
      rw [first,if_neg own]
      rfl

theorem updated_lists (admitted : e.Admitted b lib.toTextLibrary s.remote) (update : e.call.operation = "pr.update")
    (reached : 0 < e.reached) :
    ∃ r n pull, b.repo lib.toTextLibrary e.call.arguments = .ok r ∧
      number lib.toTextLibrary e.call.arguments ["id","pr"] = .ok n ∧
      GitHub.numbered (s.remote.pulls r.slug) n = some pull ∧
      (step b lib s (.request e)).remote.issues b.orgSlug = s.remote.issues b.orgSlug ∧
      (step b lib s (.request e)).remote.pulls b.orgSlug = (if r.slug = b.orgSlug then
        (s.remote.pulls b.orgSlug).map (GitHub.edited n (pullChanges e.call.arguments)) else s.remote.pulls b.orgSlug) ∧
      opens b lib s.remote e = [] := by
  obtain ⟨r,n,pull,known,asked,found,sent⟩ := AgentRequest.update_writes admitted update
  have all : (b.trail lib.toTextLibrary s.remote e.assigned e.call).writes.take e.reached =
      (b.trail lib.toTextLibrary s.remote e.assigned e.call).writes := List.take_of_length_le (by rw [sent]; exact reached)
  refine ⟨r,n,pull,known,asked,found,?_,?_,?_⟩
  · change (AgentRequest.step b lib.toTextLibrary s.remote e).issues b.orgSlug = _
    rw [step_admitted admitted,all,sent]
    rfl
  · change (AgentRequest.step b lib.toTextLibrary s.remote e).pulls b.orgSlug = _
    rw [step_admitted admitted,all,sent]
    change GitHub.editAt s.remote.pulls r.slug n _ b.orgSlug = _
    unfold GitHub.editAt
    by_cases own : r.slug = b.orgSlug
    · rw [if_pos own.symm,if_pos own]
    · rw [if_neg (Ne.symm own),if_neg own]
  · rw [opens_take admitted,all,sent]
    rfl

theorem mem_pullChanges {arguments : Fields} {field : String × Json} (member : field ∈ pullChanges arguments) :
    (field.1 = "title" ∨ field.1 = "body") ∧ Json.has arguments field.1 := by
  obtain ⟨name,listed,rfl⟩ := List.mem_map.mp member
  obtain ⟨named,given⟩ := List.mem_filter.mp listed
  exact ⟨by simpa using named,of_decide_eq_true given⟩

theorem pullChanges_unnumbered {arguments : Fields} : ¬ Json.has (pullChanges arguments) "number" := by
  rintro ⟨field,member,named⟩
  rcases (mem_pullChanges member).1 with title | body
  · exact absurd (named.symm.trans title) (by decide)
  · exact absurd (named.symm.trans body) (by decide)

theorem has_of_pullChanges {arguments : Fields} (given : Json.has (pullChanges arguments) "body") :
    Json.has arguments "body" := by
  obtain ⟨field,member,named⟩ := given
  exact named ▸ (mem_pullChanges member).2

theorem kept_wrote {remote remote' : GitHub} {made : List Int} {w : RemoteWrite}
    (wrote : Wrote b lib.toTextLibrary remote' e.assigned e.call w)
    (others : e.call.operation ∉ ["pm.issue.create","pr.create","pr.update"])
    (routes : e.call.operation = "pm.issue.route" → ∀ r n, b.repo lib.toTextLibrary e.call.arguments = .ok r →
      number lib.toTextLibrary e.call.arguments ["id","issue"] = .ok n → r.slug = b.orgSlug → n ∉ made)
    (kept : Unclaimed lib.toTextLibrary made (remote.issues b.orgSlug) (remote.pulls b.orgSlug)) :
    Unclaimed lib.toTextLibrary made ((remote.perform w).issues b.orgSlug) ((remote.perform w).pulls b.orgSlug) := by
  have edit {slug : String} {n : Int} {changes : Fields} (unnumbered : ¬ Json.has changes "number")
      (quiet : slug = b.orgSlug → n ∈ made → ¬ Json.has changes "body") :
      Unclaimed lib.toTextLibrary made (GitHub.editAt remote.issues slug n changes b.orgSlug) (remote.pulls b.orgSlug) := by
    unfold GitHub.editAt
    by_cases own : b.orgSlug = slug
    · rw [if_pos own]
      exact kept.editedIssue unnumbered (quiet own.symm)
    · rw [if_neg own]
      exact kept
  cases wrote with
  | opened slug title labels create => exact absurd create (fun same => others (by simp [same]))
  | pulled slug title base draft create => exact absurd create (fun same => others (by simp [same]))
  | updated slug n update => exact absurd update (fun same => others (by simp [same]))
  | routed r n issue target names route own asked read given =>
    exact edit (by simp [Json.has]) (fun at_ member => absurd member (routes route r n own asked at_))
  | closed slug n reason => exact edit (by simp [Json.has]) (fun _ _ => by simp [Json.has])
  | _ => exact kept

theorem kept_writes {remote remote' : GitHub} {made : List Int} {writes : List RemoteWrite}
    (wrote : ∀ w ∈ writes, Wrote b lib.toTextLibrary remote' e.assigned e.call w)
    (others : e.call.operation ∉ ["pm.issue.create","pr.create","pr.update"])
    (routes : e.call.operation = "pm.issue.route" → ∀ r n, b.repo lib.toTextLibrary e.call.arguments = .ok r →
      number lib.toTextLibrary e.call.arguments ["id","issue"] = .ok n → r.slug = b.orgSlug → n ∉ made)
    (kept : Unclaimed lib.toTextLibrary made (remote.issues b.orgSlug) (remote.pulls b.orgSlug)) :
    Unclaimed lib.toTextLibrary made ((remote.performAll writes).issues b.orgSlug)
      ((remote.performAll writes).pulls b.orgSlug) := by
  induction writes generalizing remote with
  | nil => exact kept
  | cons w rest ih =>
    exact ih (fun w member => wrote w (List.mem_cons_of_mem _ member))
      (kept_wrote (wrote w List.mem_cons_self) others routes kept)

theorem no_opens {remote : GitHub} (others : e.call.operation ∉ ["pm.issue.create","pr.create","pr.update"]) :
    opens b lib remote e = [] := by
  unfold opens
  split
  next =>
    rw [List.filterMap_eq_nil_iff]
    intro w member
    cases trail_wrote (List.mem_of_mem_take member) with
    | opened slug title labels create => exact absurd create (fun same => others (by simp [same]))
    | pulled slug title base draft create => exact absurd create (fun same => others (by simp [same]))
    | _ => rfl
  next => rfl

theorem route_elsewhere (kept : Kept b lib s) (admitted : e.Admitted b lib.toTextLibrary s.remote)
    (route : e.call.operation = "pm.issue.route") :
    ∀ r n, b.repo lib.toTextLibrary e.call.arguments = .ok r →
      number lib.toTextLibrary e.call.arguments ["id","issue"] = .ok n → r.slug = b.orgSlug → n ∉ s.made := by
  intro r n known asked own member
  have managed : e.call.operation ∈ pmOperations := by
    rw [route]
    decide
  have confined := AgentRequest.org_of_validated admitted.validated managed
  have org : lookup b.repositories "org" = some r := by
    unfold Backend.repo Backend.repository at known
    rw [confined] at known
    cases found : lookup b.repositories "org" with
    | none =>
      rw [found] at known
      cases known
    | some own =>
      rw [found] at known
      cases known
      rfl
  obtain ⟨m,_,_,asked',free,_⟩ := AgentRequest.route_writes admitted route org
  rw [asked] at asked'
  cases asked'
  unfold ownerAt at free
  obtain ⟨issue,found,unowned⟩ := Option.map_eq_some_iff.mp free
  rw [own] at found
  have numbered := List.find?_some found
  have at_ : numberOf issue = some n := by
    split at numbered
    next own =>
      unfold numberOf
      rw [own,of_decide_eq_true numbered]
    next => cases numbered
  exact (kept.issues issue (List.mem_of_find?_eq_some found) n member at_).2 unowned

theorem request_kept (loads : ReadsBack lib.toTextLibrary) (kept : Kept b lib s) (fresh : Fresh b lib s (.request e))
    (silent : Silent b lib s (.request e)) : Kept b lib (step b lib s (.request e)) := by
  have made : (step b lib s (.request e)).made = s.made ++ opens b lib s.remote e := rfl
  by_cases admitted : e.Admitted b lib.toTextLibrary s.remote
  · by_cases reached : 0 < e.reached
    · have quiet := silent admitted reached
      have unused : ∀ n ∈ opens b lib s.remote e, Unused s.remote b.orgSlug n := fresh
      unfold Kept
      rw [made]
      by_cases create : e.call.operation = "pm.issue.create"
      · obtain ⟨title,labels,issues,pulls,opened,at_⟩ := @created_lists b lib s e admitted create reached
        rw [issues,pulls,opened]
        rw [opened] at unused
        refine kept.openedIssue rfl (unused _ List.mem_cons_self) ?_ ?_
        · have body : bodyOf lib.toTextLibrary (issueItem e.assigned title (writtenBody lib.toTextLibrary e.call) labels) =
              writtenBody lib.toTextLibrary e.call := bodyOf_str rfl
          unfold classified
          rw [body]
          exact (sourceNamed_congr (AgentRequest.source_created admitted.conforms create)).trans
            ((quiet at_).1 create)
        · rw [AgentRequest.owner_created loads admitted.conforms create]
          simp
      by_cases pull : e.call.operation = "pr.create"
      · obtain ⟨r,title,draft,known,issues,pulls,opened⟩ := @pulled_lists b lib s e admitted pull reached
        rw [issues,pulls,opened]
        rw [opened] at unused
        by_cases own : r.slug = b.orgSlug
        · rw [if_pos own,if_pos own]
          rw [if_pos own] at unused
          refine kept.openedPull rfl (unused _ List.mem_cons_self) ?_
          have body : bodyOf lib.toTextLibrary (pullItem e.assigned title (writtenBody lib.toTextLibrary e.call)
              (branch lib.toTextLibrary e.call) r.defaultBranch draft) = writtenBody lib.toTextLibrary e.call :=
            bodyOf_str rfl
          unfold classified
          rw [body]
          exact (sourceNamed_congr (AgentRequest.source_pulled admitted.conforms pull)).trans
            ((quiet ⟨r,known,own⟩).2.1 pull)
        · rw [if_neg own,if_neg own,List.append_nil,List.append_nil]
          exact kept
      by_cases update : e.call.operation = "pr.update"
      · obtain ⟨r,n,_,known,asked,_,issues,pulls,opened⟩ := @updated_lists b lib s e admitted update reached
        rw [issues,pulls,opened,List.append_nil]
        split
        next own =>
          refine kept.editedPull pullChanges_unnumbered ?_
          intro member given
          have text : textArgument lib.toTextLibrary (pullChanges e.call.arguments) "body" =
              textArgument lib.toTextLibrary e.call.arguments "body" := by
            unfold textArgument
            rw [pullChanges_body]
          rw [text]
          exact (quiet ⟨r,known,own⟩).2.2 update (has_of_pullChanges given) ⟨n,member,asked⟩
        next => exact kept
      · have others : e.call.operation ∉ ["pm.issue.create","pr.create","pr.update"] := by
          simp [create,pull,update]
        change Unclaimed _ _ ((AgentRequest.step b lib.toTextLibrary s.remote e).issues _)
          ((AgentRequest.step b lib.toTextLibrary s.remote e).pulls _)
        rw [no_opens others,List.append_nil,step_admitted admitted]
        exact kept_writes (fun w member => trail_wrote (List.mem_of_mem_take member)) others
          (route_elsewhere kept admitted) kept
    · have none_ : e.reached = 0 := by omega
      have opened : opens b lib s.remote e = [] := by rw [opens_take admitted,none_]; rfl
      have remote : (step b lib s (.request e)).remote = s.remote := by
        change AgentRequest.step b lib.toTextLibrary s.remote e = s.remote
        rw [step_admitted admitted,none_]
        rfl
      unfold Kept
      rw [made,remote,opened,List.append_nil]
      exact kept
  · have opened : opens b lib s.remote e = [] := if_neg admitted
    have remote : (step b lib s (.request e)).remote = s.remote := if_neg admitted
    unfold Kept
    rw [made,remote,opened,List.append_nil]
    exact kept

/-! What a step of a sync does to the lists. -/

/-- A call of a sync posts an issue, edits one without its text, or leaves the lists alone. -/
inductive Handled (remote : GitHub) (slug : String) (n : Option Int) : GitHub → Prop
  | kept {next : GitHub} (issues : next.issues = remote.issues) (pulls : next.pulls = remote.pulls) :
    Handled remote slug n next
  | posted (item : Fields) (k : Int) (own : numberOf item = some k) (due : n = some k) :
    Handled remote slug n (remote.addIssue slug item)
  | patched (m : Int) (changes : Fields) (unnumbered : ¬ Json.has changes "number") (quiet : ¬ Json.has changes "body") :
    Handled remote slug n (GovernanceMonitor.patched remote slug m changes)

def remoteOf : ApplyStep → GitHub
  | .next remote _ => remote
  | .ended remote _ _ => remote

theorem remoteOf_received (remote : GitHub) (issue : Fields) :
    remoteOf (GovernanceMonitor.received remote issue) = remote := by
  unfold GovernanceMonitor.received
  split
  next => rfl
  next => rfl

theorem advance_handled (g : GovernanceMonitor) (remote : GitHub) (slug : String) (queue : Int) (a : QueueAction)
    (input : SyncInput) (point : ApplyPoint) (id : String) (todo : List QueueAction) :
    Handled remote slug (posting input (.writing a id point todo))
      (remoteOf (g.advance lib remote slug queue a input.reply point)) := by
  have edits (carried : Bool) (m : Int) (changes : Fields) (unnumbered : ¬ Json.has changes "number")
      (quiet : ¬ Json.has changes "body") :
      Handled remote slug (posting input (.writing a id point todo))
        (if carried then GovernanceMonitor.patched remote slug m changes else remote) := by
    split
    next => exact .patched m changes unnumbered quiet
    next => exact .kept rfl rfl
  cases point with
  | open_ =>
    have posts : Handled remote slug (posting input (.writing a id .open_ todo))
        (if input.reply.carriedOut then remote.addIssue slug (g.queueItem a input.reply) else remote) := by
      split
      next => exact .posted _ input.reply.assigned.number rfl rfl
      next => exact .kept rfl rfl
    simp only [GovernanceMonitor.advance]
    split
    next =>
      rw [remoteOf_received]
      exact posts
    next => exact posts
  | fetch number =>
    simp only [GovernanceMonitor.advance]
    split
    next => exact .kept rfl rfl
    next =>
      split
      next =>
        split
        next => exact .kept rfl rfl
        next =>
          split
          next =>
            rw [remoteOf_received]
            exact .kept rfl rfl
          next => exact .kept rfl rfl
      next => exact .kept rfl rfl
  | reopen number =>
    simp only [GovernanceMonitor.advance]
    split
    next => exact .kept rfl rfl
    next =>
      split
      next =>
        rw [remoteOf_received]
        exact edits _ _ _ (by simp [Json.has]) (by simp [Json.has])
      next => exact edits _ _ _ (by simp [Json.has]) (by simp [Json.has])
  | link child number =>
    simp only [GovernanceMonitor.advance]
    split
    next =>
      refine .kept ?_ ?_ <;> · simp only [remoteOf]; split <;> rfl
    next =>
      refine .kept ?_ ?_ <;> · simp only [remoteOf,GovernanceMonitor.unanswered]; split <;> rfl
  | close number =>
    simp only [GovernanceMonitor.advance]
    split
    next => exact .kept rfl rfl
    next =>
      split
      next => exact edits _ _ _ (by simp [Json.has]) (by simp [Json.has])
      next => exact edits _ _ _ (by simp [Json.has]) (by simp [Json.has])

theorem syncStep_handled (r : Sync) (journal : Journal) (remote : GitHub) (input : SyncInput) (point : SyncPoint) :
    Handled remote r.orgSlug (posting input point) (r.step lib journal remote input point).remote := by
  cases point with
  | pending todo =>
    cases todo with
    | nil => exact .kept rfl rfl
    | cons a todo =>
      simp only [Sync.step,Sync.reserve]
      split
      next => exact .kept rfl rfl
      next =>
        split
        next => exact .kept rfl rfl
        next => exact .kept rfl rfl
  | reserved a id todo =>
    simp only [Sync.step,Sync.claim]
    split
    next => exact .kept rfl rfl
    next => exact .kept rfl rfl
  | writing a id at_ todo =>
    have handled := @advance_handled lib r.monitor remote r.orgSlug r.seen.queueIssue a input at_ id todo
    simp only [Sync.step,Sync.write]
    cases called : r.monitor.advance lib remote r.orgSlug r.seen.queueIssue a input.reply at_ with
    | next after later =>
      rw [called] at handled
      exact handled
    | ended after state result =>
      rw [called] at handled
      exact handled
  | settling id state result todo =>
    simp only [Sync.step,Sync.settle]
    split
    next => exact .kept rfl rfl
    next => exact .kept rfl rfl
  | stopped => exact .kept rfl rfl

theorem handled_kept {made : List Int} {remote after : GitHub} {slug : String} {n : Option Int}
    (handled : Handled remote slug n after) (fresh : ∀ k ∈ n, Unused remote slug k)
    (kept : Unclaimed lib.toTextLibrary made (remote.issues b.orgSlug) (remote.pulls b.orgSlug)) :
    Unclaimed lib.toTextLibrary made (after.issues b.orgSlug) (after.pulls b.orgSlug) := by
  cases handled with
  | kept issues pulls =>
    rw [issues,pulls]
    exact kept
  | posted item k own due =>
    change Unclaimed _ _ (GitHub.push remote.issues slug item b.orgSlug) _
    unfold GitHub.push
    split
    next here =>
      refine kept.posted own (kept.used ?_)
      rw [here]
      exact fresh k due
    next => exact kept
  | patched m changes unnumbered quiet =>
    change Unclaimed _ _ (GitHub.editAt remote.issues slug m changes b.orgSlug)
      (GitHub.editAt remote.pulls slug m changes b.orgSlug)
    unfold GitHub.editAt
    split
    next =>
      exact (kept.editedIssue unnumbered (fun _ => quiet)).editedPull unnumbered (fun _ given => absurd given quiet)
    next => exact kept

theorem step_kept (loads : ReadsBack lib.toTextLibrary) (event : QueueEvent) (kept : Kept b lib s)
    (fresh : Fresh b lib s event) (silent : Silent b lib s event) : Kept b lib (step b lib s event) := by
  cases event with
  | request e => exact request_kept loads kept fresh silent
  | sync monitor =>
    have same : (step b lib s (.sync monitor)).remote = s.remote := by
      simp only [step,MonitorRun.step]
      split
      next => rfl
      next => split <;> rfl
    unfold Kept
    rw [same]
    exact kept
  | advance i input =>
    unfold Kept
    simp only [step,MonitorRun.step]
    split
    next r point found =>
      exact handled_kept (syncStep_handled r s.journal s.remote input point)
        (fun k due => fresh (r,point) found k due) kept
    next => exact kept
  | resolve j => exact kept
  | visit j answer now =>
    have same : (step b lib s (.visit j answer now)).remote = s.remote := by
      simp only [step,MonitorRun.step]
      split
      next =>
        split
        next => rfl
        next => split <;> rfl
      next => rfl
    unfold Kept
    rw [same]
    exact kept

theorem silent_of_unmanaged (event : QueueEvent) (after : Unmanaged b lib (step b lib s event)) :
    Silent b lib s event := by
  cases event with
  | request e =>
    intro admitted reached at_
    obtain ⟨own,repo,same⟩ := at_
    have made : (step b lib s (.request e)).made = s.made ++ opens b lib s.remote e := rfl
    refine ⟨?_,?_,?_⟩
    · intro create
      obtain ⟨title,labels,issues,_,opened,_⟩ := @created_lists b lib s e admitted create reached
      have silent := after _ (mem_listed.mpr (.inl (issues ▸ List.mem_append_right _ List.mem_cons_self)))
        e.assigned.number (by rw [made,opened]; simp) rfl
      have body : bodyOf lib.toTextLibrary (issueItem e.assigned title (writtenBody lib.toTextLibrary e.call) labels) =
          writtenBody lib.toTextLibrary e.call := bodyOf_str rfl
      unfold classified at silent
      rw [body] at silent
      exact (sourceNamed_congr (AgentRequest.source_created admitted.conforms create)).symm.trans silent
    · intro pull
      obtain ⟨r,title,draft,known,_,pulls,opened⟩ := @pulled_lists b lib s e admitted pull reached
      rw [repo] at known
      cases known
      rw [if_pos same] at pulls opened
      have silent := after _ (mem_listed.mpr (.inr ⟨_,pulls ▸ List.mem_append_right _ List.mem_cons_self,rfl⟩))
        e.assigned.number (by rw [made,opened]; simp) rfl
      rw [classified_congr (asIssue_get (by decide))] at silent
      have body : bodyOf lib.toTextLibrary (pullItem e.assigned title (writtenBody lib.toTextLibrary e.call)
          (branch lib.toTextLibrary e.call) own.defaultBranch draft) = writtenBody lib.toTextLibrary e.call := bodyOf_str rfl
      unfold classified at silent
      rw [body] at silent
      exact (sourceNamed_congr (AgentRequest.source_pulled admitted.conforms pull)).symm.trans silent
    · rintro update given ⟨n,member,asked⟩
      obtain ⟨r,m,pull,known,asked',found,_,pulls,_⟩ := @updated_lists b lib s e admitted update reached
      rw [repo] at known
      cases known
      rw [asked] at asked'
      cases asked'
      rw [if_pos same] at pulls
      rw [same] at found
      have inside := List.mem_of_find?_eq_some found
      have numbered : Json.get pull "number" = .int n := by
        have at_ := List.find?_some found
        split at at_
        next k own => exact own.trans (congrArg Json.int (of_decide_eq_true at_))
        next => cases at_
      have edited : GitHub.edited n (pullChanges e.call.arguments) pull = pullChanges e.call.arguments ++ pull := by
        unfold GitHub.edited
        rw [numbered]
        exact if_pos rfl
      have silent := after _ (mem_listed.mpr (.inr ⟨_,pulls ▸ List.mem_map_of_mem inside,rfl⟩)) n
        (made ▸ List.mem_append_left _ member) (by
          rw [numberOf_congr (asIssue_get (by decide)),numberOf_congr (edited_number pullChanges_unnumbered n pull)]
          exact numberOf_int numbered)
      rw [classified_congr (asIssue_get (by decide)),edited] at silent
      have present : Json.has (pullChanges e.call.arguments) "body" :=
        ⟨("body",Json.get e.call.arguments "body"),List.mem_map.mpr ⟨"body",List.mem_filter.mpr ⟨by simp,by simpa using given⟩,rfl⟩,rfl⟩
      have text : Json.get (pullChanges e.call.arguments ++ pull) "body" = Json.get e.call.arguments "body" := by
        rw [Json.get_append,if_pos present,pullChanges_body]
      exact (classified_congr text).symm.trans silent
  | sync monitor => exact trivial
  | advance i input => exact trivial
  | resolve j => exact trivial
  | visit j answer now => exact trivial

/-- No item that a request opens is ever classified exactly if the requests name no source. -/
theorem agent_items_unmanaged_iff (b : Backend) (lib : MonitorLibrary) (loads : ReadsBack lib.toTextLibrary)
    (m : MonitorRun) (events : List QueueEvent) (fresh : Along (step b lib) (Fresh b lib) (beginning m) events) :
    (∀ front back, events = front ++ back → Unmanaged b lib (run (step b lib) (beginning m) front)) ↔
      Along (step b lib) (Silent b lib) (beginning m) events := by
  constructor
  · generalize beginning m = start
    clear fresh
    intro always
    induction events generalizing start with
    | nil =>
      intro t member
      cases member
    | cons event rest ih =>
      rw [along_cons]
      refine ⟨silent_of_unmanaged event (always [event] rest rfl),ih _ ?_⟩
      intro front back split
      exact always (event::front) back (congrArg (List.cons event) split)
  · intro silent front back split
    rw [split] at fresh silent
    have both : Along (step b lib) (fun s event => Fresh b lib s event ∧ Silent b lib s event) (beginning m) front :=
      fun t member => ⟨((along_append (step b lib)).mp fresh).1 t member,((along_append (step b lib)).mp silent).1 t member⟩
    have kept : Kept b lib (run (step b lib) (beginning m) front) :=
      @invariant_along _ _ (step b lib) (fun s event => Fresh b lib s event ∧ Silent b lib s event) (Kept b lib)
        (fun s event kept allowed => step_kept loads event kept allowed.1 allowed.2) _ (beginning_kept m) _ both
    exact kept.unmanaged

end QueueRun

/-! What an issue that is not classified is spared. -/

namespace GovernanceMonitor
variable {g : GovernanceMonitor} {lib : MonitorLibrary}

theorem mem_managed {issues : List Fields} {pairs : List (String × Fields)} (ok : managed lib issues = .ok pairs)
    {pair : String × Fields} (member : pair ∈ pairs) :
    pair.2 ∈ issues ∧ classified lib.toTextLibrary pair.2 = some pair.1 := by
  induction issues generalizing pairs with
  | nil =>
    cases ok
    cases member
  | cons issue rest ih =>
    unfold managed at ok
    split at ok
    next =>
      obtain ⟨inside,named⟩ := ih ok member
      exact ⟨List.mem_cons_of_mem _ inside,named⟩
    next source found =>
      obtain ⟨_,checked,ok⟩ := bind_ok.mp ok
      obtain ⟨others,later,ok⟩ := bind_ok.mp ok
      cases pure_ok.mp ok
      rcases List.mem_cons.mp member with rfl | inside
      · refine ⟨List.mem_cons_self,?_⟩
        have sound : (sourceMarker source).toBool = true := by
          cases marker : sourceMarker source with
          | error e =>
            rw [marker] at checked
            cases checked
          | ok marker => rfl
        unfold classified sourceNamed
        rw [found]
        exact Option.filter_eq_some_iff.mpr ⟨rfl,sound⟩
      · obtain ⟨inside,named⟩ := ih later inside
        exact ⟨List.mem_cons_of_mem _ inside,named⟩

theorem mem_of_matches {pairs : List (String × Fields)} {source : String} {issue : Fields}
    (member : issue ∈ matchesOf pairs source) : (source,issue) ∈ pairs := by
  obtain ⟨pair,kept,rfl⟩ := List.mem_map.mp member
  obtain ⟨inside,named⟩ := List.mem_filter.mp kept
  have same : pair.1 = source := of_decide_eq_true named
  exact same ▸ inside

theorem numberOf_issueNumber {issue : Fields} {n : Int} (read : (issueNumber issue).mapError MonitorError.gitHub = .ok n) :
    numberOf issue = some n := by
  unfold issueNumber at read
  split at read
  next found =>
    cases read
    unfold numberOf
    rw [found]
  next => cases read

end GovernanceMonitor

def QueueAction.target : QueueAction → Option Int
  | .create _ _ _ existing _ => existing
  | .close _ issue _ => some issue

namespace GovernanceMonitor
variable {g : GovernanceMonitor} {lib : MonitorLibrary}

theorem createAction_target {pairs : List (String × Fields)} {childNumbers : List Int} {item : DesiredQueueItem}
    {made : List QueueAction} (ok : createAction lib pairs childNumbers item = .ok made) {a : QueueAction}
    (member : a ∈ made) {n : Int} (target : a.target = some n) : ∃ pair ∈ pairs, numberOf pair.2 = some n := by
  unfold createAction at ok
  split at ok
  next =>
    split at ok
    next => cases ok; cases member
    next =>
      cases ok
      cases List.mem_singleton.mp member
      cases target
  next issue only =>
    obtain ⟨present,_,ok⟩ := bind_ok.mp ok
    split at ok
    next => cases ok; cases member
    next =>
      obtain ⟨number,read,ok⟩ := bind_ok.mp ok
      cases ok
      cases List.mem_singleton.mp member
      cases target
      exact ⟨_,mem_of_matches (only ▸ List.mem_cons_self),numberOf_issueNumber read⟩
  next => cases ok; cases member

theorem closeAction_target {desired : List String} {pairs : List (String × Fields)} {childNumbers : List Int}
    {source : String} {made : List QueueAction} (ok : closeAction lib desired pairs childNumbers source = .ok made)
    {a : QueueAction} (member : a ∈ made) {n : Int} (target : a.target = some n) :
    ∃ pair ∈ pairs, numberOf pair.2 = some n := by
  unfold closeAction at ok
  split at ok
  next => cases ok; cases member
  next =>
    split at ok
    next issue only =>
      obtain ⟨present,_,ok⟩ := bind_ok.mp ok
      split at ok
      next =>
        split at ok
        next => cases ok; cases member
        next =>
          obtain ⟨number,read,ok⟩ := bind_ok.mp ok
          cases ok
          cases List.mem_singleton.mp member
          cases target
          exact ⟨_,mem_of_matches (only ▸ List.mem_cons_self),numberOf_issueNumber read⟩
      next => cases ok; cases member
    next => cases ok; cases member

theorem snapshot_target {remote : GitHub} {seen : Snapshot} (ok : g.snapshot lib remote = .ok seen) {slug : String}
    (org : g.orgSlug = .ok slug) {a : QueueAction} (member : a ∈ seen.actions) {n : Int} (target : a.target = some n) :
    ∃ item ∈ remote.listedIssues slug, numberOf item = some n ∧ classified lib.toTextLibrary item ≠ none := by
  obtain ⟨slug',desired,pairs,childNumbers,creates,closes,org',read,_,made,ended,equal⟩ := snapshot_actions ok
  rw [org] at org'
  cases org'
  have pair : ∃ pair ∈ pairs, numberOf pair.2 = some n := by
    rw [equal] at member
    rcases List.mem_append.mp member with create | close
    · obtain ⟨item,_,some_,yields,inside⟩ := (mem_gathered made).mp create
      exact createAction_target yields inside target
    · obtain ⟨source,_,some_,yields,inside⟩ := (mem_gathered ended).mp close
      exact closeAction_target yields inside target
  obtain ⟨pair,inside,own⟩ := pair
  obtain ⟨listed,named⟩ := mem_managed read inside
  exact ⟨pair.2,listed,own,by simp [named]⟩

end GovernanceMonitor

namespace QueueRun
variable {b : Backend} {lib : MonitorLibrary} {s : QueueRun}

/-! Two proposals of a planner. -/

instance (b : Backend) (lib : MonitorLibrary) (s : QueueRun) (event : QueueEvent) : Decidable (Fresh b lib s event) :=
  match event with
  | .request e => inferInstanceAs (Decidable (∀ n ∈ opens b lib s.remote e, Unused s.remote b.orgSlug n))
  | .advance i input => decidable_of_iff
      (∀ x ∈ s.syncs[i]?.toList, ∀ n ∈ (posting input x.2).toList, Unused s.remote x.1.orgSlug n) (by simp [Fresh])
  | .sync _ | .resolve _ | .visit _ _ _ => inferInstanceAs (Decidable True)

instance (b : Backend) (lib : MonitorLibrary) (s : QueueRun) : Decidable (Unmanaged b lib s) :=
  inferInstanceAs (Decidable (∀ item ∈ s.remote.listedIssues b.orgSlug, ∀ n ∈ s.made, numberOf item = some n →
    classified lib.toTextLibrary item = none))

def quietMonitorLibrary : MonitorLibrary :=
  {AgentRequest.readingLibrary with printed := fun _ => none, dumpsUnicode := fun _ => some "[]"}

def plannerRun : MonitorRun := MonitorRun.starting Journal.empty Served.oneStory

theorem agent_items_unmanaged_iff_forged :
    (∀ front back, [QueueEvent.request AgentRequest.forgedItem] = front ++ back →
      Unmanaged Served.plannerBackend quietMonitorLibrary
        (run (step Served.plannerBackend quietMonitorLibrary) (beginning plannerRun) front)) ↔
      Along (step Served.plannerBackend quietMonitorLibrary) (Silent Served.plannerBackend quietMonitorLibrary)
        (beginning plannerRun) [.request AgentRequest.forgedItem] :=
  agent_items_unmanaged_iff Served.plannerBackend quietMonitorLibrary AgentRequest.readingLibrary_readsBack plannerRun
    [.request AgentRequest.forgedItem] (by decide +kernel)

def claimedItem : AgentRequest where
  call := ⟨Served.planner,"pm.issue.create",[("kind",.str "proposal"),("title",.str "Rename"),
    ("body",.str "<!-- governance-monitor-source:blocker:invoices -->")],"planner-request-0003"⟩
  seen := ⟨none,false,false⟩
  assigned := ⟨1008,8,"issue-8"⟩
  reached := 1

theorem claimed_source_classified :
    Along (step Served.plannerBackend quietMonitorLibrary) (Fresh Served.plannerBackend quietMonitorLibrary)
        (beginning plannerRun) [.request claimedItem] ∧
      claimedItem.Admitted Served.plannerBackend quietMonitorLibrary.toTextLibrary Served.oneStory ∧
      ¬ Unmanaged Served.plannerBackend quietMonitorLibrary
        (run (step Served.plannerBackend quietMonitorLibrary) (beginning plannerRun) [.request claimedItem]) := by
  refine ⟨?_,?_,?_⟩
  · decide +kernel
  · decide +kernel
  · decide +kernel

end QueueRun

end SjgControl

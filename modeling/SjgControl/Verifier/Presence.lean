import SjgControl.Verifier.Scope

/-! Soundness of the marker. A run is a history of accepted requests, each carried out as a
whole or failed before its first write, and the verifier looks at the remote it leaves. -/
namespace SjgControl
open Relational PythonText Backend Machine

namespace Backend
variable {b : Backend} {lib : TextLibrary} {remote final : GitHub} {a : Assigned} {c : BrokerCall}

theorem bodyOf_str {item : Fields} {body : String} (kept : Json.get item "body" = .str body) :
    bodyOf lib item = body := by
  unfold bodyOf textArgument
  rw [kept,Json.textOr_str]

theorem bodies_issues (remote : GitHub) (slug : String) :
    (Scope.issues slug).bodies lib remote = ((remote.issues slug).filter (fun item => !isPull item)).map (bodyOf lib) := by
  have hidden : ((remote.pulls slug).map GitHub.asIssue).filter (fun item => !isPull item) = [] := by
    rw [List.filter_eq_nil_iff]
    intro item member
    obtain ⟨pull,_,rfl⟩ := List.mem_map.mp member
    simp [isPull,GitHub.asIssue,Json.get,Json.truthy]
  change ((remote.listedIssues slug).filter (fun item => !isPull item)).map (bodyOf lib) = _
  unfold GitHub.listedIssues
  rw [List.filter_append,hidden,List.append_nil]

/-- The remote has one more body, in the listing of `s` alone. -/
def Extends (lib : TextLibrary) (remote final : GitHub) (s : Scope) (body : String) : Prop :=
  ∀ t : Scope, t.bodies lib final = t.bodies lib remote ++ if t = s then [body] else []

theorem addIssue_extends (slug title body : String) (labels : List String) :
    Extends lib remote (remote.addIssue slug (issueItem a title body labels)) (.issues slug) body := by
  intro t
  cases t with
  | issues other =>
    rw [bodies_issues,bodies_issues]
    by_cases same : other = slug
    · subst same
      have plain : (!isPull (issueItem a title body labels)) = true := by
        simp [isPull,issueItem,Json.get,Json.truthy]
      have kept : bodyOf lib (issueItem a title body labels) = body := bodyOf_str (by simp [issueItem,Json.get])
      simp [GitHub.addIssue,GitHub.push,List.filter_append,plain,kept]
    · simp [GitHub.addIssue,GitHub.push,same]
  | _ => simp [GitHub.addIssue,Scope.bodies,Scope.listing]

theorem addPull_extends (slug title body head base : String) (draft : Bool) :
    Extends lib remote (remote.addPull slug (pullItem a title body head base draft)) (.pulls slug head) body := by
  have named : headRef lib (pullItem a title body head base draft) = head := by
    simp [headRef,pullItem,Json.get,textArgument,Json.textOr_str]
  have kept : bodyOf lib (pullItem a title body head base draft) = body := bodyOf_str (by simp [pullItem,Json.get])
  intro t
  cases t with
  | issues other =>
    rw [bodies_issues,bodies_issues]
    simp [GitHub.addPull]
  | pulls other branch =>
    by_cases same : other = slug
    · subst same
      by_cases here : branch = head
      · simp [GitHub.addPull,GitHub.push,Scope.bodies,Scope.listing,List.filter_append,named,kept,here]
      · simp [GitHub.addPull,GitHub.push,Scope.bodies,Scope.listing,List.filter_append,named,here,Ne.symm here]
    · simp [GitHub.addPull,GitHub.push,Scope.bodies,Scope.listing,same]
  | _ => simp [GitHub.addPull,Scope.bodies,Scope.listing]

theorem addComment_extends (slug : String) (n : Int) (body : String) :
    Extends lib remote (remote.addComment slug n (commentItem a body)) (.comments slug n) body := by
  have kept : bodyOf lib (commentItem a body) = body := bodyOf_str (by simp [commentItem,Json.get])
  intro t
  cases t with
  | comments other m =>
    by_cases same : other = slug
    · by_cases here : m = n
      · simp [GitHub.addComment,GitHub.push,Scope.bodies,Scope.listing,same,here,kept]
      · simp [GitHub.addComment,GitHub.push,Scope.bodies,Scope.listing,same,here]
    · simp [GitHub.addComment,Scope.bodies,Scope.listing,same]
  | _ => simp [GitHub.addComment,Scope.bodies,Scope.listing,GitHub.listedIssues]

theorem addReview_extends (slug : String) (n : Int) (body event : String) :
    Extends lib remote (remote.addReview slug n (reviewItem a body event)) (.reviews slug n) body := by
  have kept : bodyOf lib (reviewItem a body event) = body := bodyOf_str (by simp [reviewItem,Json.get])
  intro t
  cases t with
  | reviews other m =>
    by_cases same : other = slug
    · by_cases here : m = n
      · simp [GitHub.addReview,GitHub.push,Scope.bodies,Scope.listing,same,here,kept]
      · simp [GitHub.addReview,GitHub.push,Scope.bodies,Scope.listing,same,here]
    · simp [GitHub.addReview,Scope.bodies,Scope.listing,same]
  | _ => simp [GitHub.addReview,Scope.bodies,Scope.listing,GitHub.listedIssues]

theorem finishCreate_bodies {slug : String} (ok : b.finishCreate lib remote slug a c = .ok final) (t : Scope) :
    t.bodies lib final = t.bodies lib remote := by
  obtain ⟨linked,first,ok⟩ := bind_ok.mp ok
  have before : t.bodies lib linked = t.bodies lib remote := by
    unfold linkParent at first
    split at first
    next =>
      obtain ⟨parent,_,first⟩ := bind_ok.mp first
      obtain ⟨number,_,first⟩ := bind_ok.mp first
      cases pure_ok.mp first
      cases t <;> rfl
    next =>
      cases first
      rfl
  rw [← before]
  unfold moveNew at ok
  split at ok
  next =>
    cases ok
    rfl
  next =>
    obtain ⟨_,ok⟩ := require_bind_ok.mp ok
    cases pure_ok.mp ok
    cases t <;> rfl

theorem create_extends {slug : String} {result : Fields} (ok : (b.create lib remote a c slug).result = .ok result) :
    Extends lib remote (b.create lib remote a c slug).state (.issues slug) (writtenBody lib c) := by
  unfold create at ok ⊢
  split at ok
  next => cases ok
  next kind read =>
    dsimp only at ok ⊢
    split at ok
    next final finished =>
      intro t
      rw [finishCreate_bodies finished]
      exact addIssue_extends _ _ _ _ t
    next => cases ok

theorem comment_extends {slug : String} {n : Int} {result : Fields}
    (ok : (comment lib remote a c slug n).result = .ok result) :
    Extends lib remote (comment lib remote a c slug n).state (.comments slug n) (writtenBody lib c) := by
  unfold comment at ok ⊢
  split at ok
  next => cases ok
  next =>
    exact addComment_extends _ _ _

theorem createPull_extends {r : Repository} {result : Fields} (ok : (createPull lib remote a c r).result = .ok result) :
    Extends lib remote (createPull lib remote a c r).state (.pulls r.slug (branch lib c)) (writtenBody lib c) := by
  unfold createPull at ok ⊢
  split at ok
  next => cases ok
  next =>
    exact addPull_extends _ _ _ _ _ _

theorem execute_extends {result : Fields} (ok : (b.execute lib remote a c).result = .ok result) :
    ∃ s, c.scope b lib = some s ∧ Extends lib remote (b.execute lib remote a c).state s (writtenBody lib c) := by
  unfold execute at ok ⊢
  unfold BrokerCall.scope
  cases found : b.repo lib c.arguments with
  | error e =>
    rw [found] at ok
    cases ok
  | ok r =>
    rw [found] at ok
    dsimp only at ok ⊢
    by_cases create : c.operation = "pm.issue.create"
    · rw [if_pos create] at ok
      rw [if_pos create,if_pos create]
      exact ⟨_,rfl,create_extends ok⟩
    rw [if_neg create] at ok
    rw [if_neg create,if_neg create]
    by_cases note : c.operation = "pm.issue.comment"
    · rw [if_pos note] at ok
      rw [if_pos note,if_pos note]
      split at ok
      next n _ read =>
        rw [read]
        exact ⟨_,rfl,comment_extends ok⟩
      next => cases ok
      next => cases ok
    rw [if_neg note] at ok
    rw [if_neg note,if_neg note]
    by_cases pull : c.operation = "pr.create"
    · rw [if_pos pull] at ok
      rw [if_pos pull,if_pos pull]
      exact ⟨_,rfl,createPull_extends ok⟩
    rw [if_neg pull] at ok
    rw [if_neg pull,if_neg pull]
    split at ok
    next => cases ok
    next n read =>
      rw [read]
      by_cases remark : c.operation = "pr.comment"
      · rw [if_pos remark] at ok
        rw [if_pos remark]
        exact ⟨_,congrArg some (if_pos remark),comment_extends ok⟩
      · rw [if_neg remark]
        exact ⟨_,congrArg some (if_neg remark),addReview_extends _ _ _ _⟩

end Backend

/-- A request of a history: `none` failed before its first write, otherwise it was carried out
and GitHub made the object of it. -/
structure Served where
  call : BrokerCall
  assigned : Option Assigned

namespace Served
variable (b : Backend) (lib : TextLibrary)

def step (remote : GitHub) (e : Served) : GitHub :=
  match e.assigned with
  | none => remote
  | some a => (b.execute lib remote a e.call).state

/-- The request was accepted, and execution returned if it was carried out. -/
def legitimate (remote : GitHub) (e : Served) : Prop :=
  Accepted b lib remote e.call ∧ ∀ a ∈ e.assigned, ∃ result, (b.execute lib remote a e.call).result = .ok result

/-- The answer of the verifier is the one the write calls for. -/
def answered (remote : GitHub) (e : Served) : Prop :=
  (b.verifyBroker lib remote e.call.operation e.call.arguments e.call.session.role e.call.key).map Verification.proof =
    .ok (if e.assigned.isSome then .present else .absent)

def shows (s : Scope) (key : String) (e : Served) : Bool :=
  e.assigned.isSome && decide (e.call.scope b lib = some s) && decide (contains (writtenBody lib e.call) (markerOf key))

/-- Nothing that was there, and no text of another request that was carried out, holds the
marker of a request where it is looked for. -/
def Unmentioned (start : GitHub) (history : List Served) : Prop :=
  ∀ e ∈ history, ∀ s ∈ e.call.scope b lib,
    (∀ body ∈ s.bodies lib start, ¬ contains body (markerOf e.call.key)) ∧
    ∀ other ∈ history, other.call.key ≠ e.call.key → other.assigned.isSome → other.call.scope b lib = some s →
      ¬ contains (rawBody lib other.call) (markerOf e.call.key)

variable {b lib} {remote start : GitHub} {e : Served} {history : List Served}

theorem sightings_step (legal : legitimate b lib remote e) (s : Scope) (key : String) :
    sightings lib (step b lib remote e) s key = sightings lib remote s key + if shows b lib s key e then 1 else 0 := by
  unfold step shows
  cases done : e.assigned with
  | none => simp
  | some a =>
    obtain ⟨result,ok⟩ := legal.2 a done
    obtain ⟨own,scope,extends_⟩ := execute_extends ok
    unfold sightings
    rw [extends_ s,List.countP_append,scope]
    congr 1
    by_cases here : s = own
    · simp [here,List.countP_cons]
    · simp [here,Ne.symm here]

theorem sightings_run (legal : Along (step b lib) (legitimate b lib) start history) (s : Scope) (key : String) :
    sightings lib (run (step b lib) start history) s key =
      sightings lib start s key + history.countP (shows b lib s key) := by
  induction history generalizing start with
  | nil => rfl
  | cons e rest ih =>
    obtain ⟨first,later⟩ := (along_cons (step b lib)).mp legal
    rw [run_cons,ih later,sightings_step first,List.countP_cons]
    omega

theorem accepted_of_mem (legal : Along (step b lib) (legitimate b lib) start history) (member : e ∈ history) :
    ∃ at_, Accepted b lib at_ e.call := by
  induction history generalizing start with
  | nil => cases member
  | cons first rest ih =>
    obtain ⟨here,later⟩ := (along_cons (step b lib)).mp legal
    rcases List.mem_cons.mp member with rfl | inside
    · exact ⟨start,here.1⟩
    · exact ih later inside

theorem countP_shows (distinct : (history.map (fun e => e.call.key)).Nodup) (member : e ∈ history) {s : Scope}
    (scope : e.call.scope b lib = some s) :
    history.countP (shows b lib s e.call.key) = (if e.assigned.isSome then 1 else 0) +
      history.countP (fun other => decide (other.call.key ≠ e.call.key) && shows b lib s e.call.key other) := by
  obtain ⟨front,back,rfl⟩ := List.append_of_mem member
  rw [List.map_append,List.map_cons,List.nodup_middle] at distinct
  have absent := (List.nodup_cons.mp distinct).1
  rw [← List.map_append] at absent
  have apart : ∀ other ∈ front ++ back, other.call.key ≠ e.call.key :=
    fun other inside same => absent (same ▸ List.mem_map_of_mem (f := fun e : Served => e.call.key) inside)
  have own : shows b lib s e.call.key e = e.assigned.isSome := by
    unfold shows writtenBody
    rw [decide_eq_true scope,decide_eq_true (idempotentBody_own _ _),Bool.and_true,Bool.and_true]
  have others (part : List Served) (inside : ∀ other ∈ part, other ∈ front ++ back) :
      part.countP (shows b lib s e.call.key) =
        part.countP (fun other => decide (other.call.key ≠ e.call.key) && shows b lib s e.call.key other) := by
    apply List.countP_congr
    intro other listed
    simp [apart other (inside other listed)]
  rw [List.countP_append,List.countP_append,List.countP_cons,List.countP_cons,own,
    others front (fun _ => List.mem_append_left _),others back (fun _ => List.mem_append_right _)]
  simp only [ne_eq,not_true_eq_false,decide_false,Bool.false_and,Bool.false_eq_true,if_false]
  omega

/-- The verifier answers right exactly where the marker is shown by its own request alone. -/
theorem answered_iff (legal : Along (step b lib) (legitimate b lib) start history)
    (distinct : (history.map (fun e => e.call.key)).Nodup) (member : e ∈ history) {s : Scope}
    (scope : e.call.scope b lib = some s) :
    answered b lib (run (step b lib) start history) e ↔ sightings lib start s e.call.key = 0 ∧
      history.countP (fun other => decide (other.call.key ≠ e.call.key) && shows b lib s e.call.key other) = 0 := by
  obtain ⟨at_,accepted⟩ := accepted_of_mem legal member
  unfold answered
  rw [verifyBroker_proof accepted scope,sightings_run legal,countP_shows distinct member scope,Except.ok.injEq]
  cases e.assigned.isSome
  · simp only [Bool.false_eq_true,if_false]
    split
    · simp only [true_iff]
      omega
    · split
      · simp only [reduceCtorEq,false_iff]
        omega
      · simp only [reduceCtorEq,false_iff]
        omega
  · simp only [if_true]
    split
    · simp only [reduceCtorEq,false_iff]
      omega
    · split
      · simp only [true_iff]
        omega
      · simp only [reduceCtorEq,false_iff]
        omega

theorem unmentioned_iff (conforms : ∀ e ∈ history, requestId e.call.key) :
    Unmentioned b lib start history ↔ ∀ e ∈ history, ∀ s ∈ e.call.scope b lib,
      sightings lib start s e.call.key = 0 ∧
        history.countP (fun other => decide (other.call.key ≠ e.call.key) && shows b lib s e.call.key other) = 0 := by
  unfold Unmentioned
  refine forall₂_congr (fun e member => forall₂_congr (fun s scope => and_congr ?_ ?_))
  · unfold sightings
    rw [List.countP_eq_zero]
    simp
  · rw [List.countP_eq_zero]
    refine forall₂_congr (fun other inside => ?_)
    have text := @idempotentBody_other (rawBody lib other.call) other.call.key e.call.key (conforms other inside)
      (conforms e member)
    unfold shows writtenBody
    simp only [Bool.and_eq_true,decide_eq_true_eq,not_and]
    constructor
    · rintro free apart ⟨done,here⟩ held
      exact free apart done here ((text apart).mp held)
    · intro free apart done here held
      exact free apart ⟨done,here⟩ ((text apart).mpr held)

/-- The verifier answers every request of a history right exactly when no marker is mentioned
elsewhere. -/
theorem marker_verification_iff (b : Backend) (lib : TextLibrary) (start : GitHub) (history : List Served)
    (legal : Along (step b lib) (legitimate b lib) start history)
    (distinct : (history.map (fun e => e.call.key)).Nodup) :
    (∀ e ∈ history, answered b lib (run (step b lib) start history) e) ↔ Unmentioned b lib start history := by
  have conforms : ∀ e ∈ history, requestId e.call.key := by
    intro e member
    obtain ⟨_,accepted⟩ := accepted_of_mem legal member
    exact accepted.conforms
  have placed : ∀ e ∈ history, ∃ s, e.call.scope b lib = some s := by
    intro e member
    obtain ⟨_,accepted⟩ := accepted_of_mem legal member
    exact accepted.scope
  rw [unmentioned_iff conforms]
  refine forall₂_congr (fun e member => ?_)
  obtain ⟨s,scope⟩ := placed e member
  rw [answered_iff legal distinct member scope,scope]
  simp

def returned (b : Backend) (lib : TextLibrary) (remote : GitHub) (e : Served) : Bool :=
  match e.assigned with
  | none => true
  | some a => (b.execute lib remote a e.call).result.toBool

theorem returned_iff {b : Backend} {lib : TextLibrary} {remote : GitHub} {e : Served} :
    returned b lib remote e = true ↔ ∀ a ∈ e.assigned, ∃ result, (b.execute lib remote a e.call).result = .ok result := by
  unfold returned
  cases e.assigned with
  | none => simp
  | some a => cases result : (b.execute lib remote a e.call).result <;> simp [result,Except.toBool]

instance (b : Backend) (lib : TextLibrary) (remote : GitHub) (e : Served) : Decidable (legitimate b lib remote e) :=
  decidable_of_iff (Accepted b lib remote e.call ∧ returned b lib remote e = true)
    (and_congr_right (fun _ => returned_iff))

/-! Two comments on one issue. -/

def plannerBackend : Backend where
  policy := ⟨"example",[("commercial-planner",⟨["org"]⟩)],"digest"⟩
  repositories := [("org",⟨"example/org","main"⟩),("product",⟨"example/product","main"⟩)]
  stages := none
  known := by
    intro role member alias_ inside
    cases List.mem_singleton.mp member
    cases List.mem_singleton.mp inside
    exact ⟨_,rfl⟩

/-- On the texts below, in which nothing is looked for. -/
def quietLibrary : TextLibrary where
  render _ := "[]"
  repr text := "'" ++ text ++ "'"
  closingKeyword _ := false
  b64decode _ := none
  sha256 _ := ""
  lower text := text
  int
    | .int n => .ok n
    | _ => .error "invalid literal for int() with base 10"
  objectiveTitle _ := false
  acceptanceText _ := false
  humanBanner _ := false
  loads _ := none

def planner : Session := ⟨"session-1","wake-1","example","commercial-planner","digest",["org"],"2026-01-01T01:00:00Z"⟩

def oneStory : GitHub :=
  GitHub.empty.addIssue "example/org" (issueItem ⟨1007,7,"issue-7"⟩ "[STORY] invoices" "—" ["story"])

def commentCall (key body : String) : BrokerCall :=
  ⟨planner,"pm.issue.comment",[("id",.int 7),("body",.str body)],key⟩

def candid : List Served :=
  [⟨commentCall "planner-comment-0001" "invoices accepted",some ⟨2001,0,"comment-2001"⟩⟩,
    ⟨commentCall "planner-comment-0002" "accepted",none⟩]

theorem marker_verification_iff_candid :
    (∀ e ∈ candid, answered plannerBackend quietLibrary (run (step plannerBackend quietLibrary) oneStory candid) e) ↔
      Unmentioned plannerBackend quietLibrary oneStory candid :=
  marker_verification_iff plannerBackend quietLibrary oneStory candid (by decide +kernel) (by decide +kernel)

/-- A comment quotes the marker of the next one, which fails before its first write. -/
def quoting : List Served :=
  [⟨commentCall "planner-comment-0001" "before <!-- sjg-idempotency:planner-comment-0002 -->",
      some ⟨2001,0,"comment-2001"⟩⟩,
    ⟨commentCall "planner-comment-0002" "accepted",none⟩]

theorem quoted_marker_verified :
    Along (step plannerBackend quietLibrary) (legitimate plannerBackend quietLibrary) oneStory quoting ∧
      (quoting.map (fun e => e.call.key)).Nodup ∧
      ∃ e ∈ quoting, e.assigned = none ∧
        (plannerBackend.verifyBroker quietLibrary (run (step plannerBackend quietLibrary) oneStory quoting)
          e.call.operation e.call.arguments e.call.session.role e.call.key).map Verification.proof = .ok .present := by
  refine ⟨by decide +kernel,by decide +kernel,_,List.mem_cons_of_mem _ List.mem_cons_self,rfl,?_⟩
  decide +kernel

end Served
end SjgControl

import SjgControl.Verifier.Branch
import SjgControl.Verifier.Presence

/-! What the verifier proves of a submission. It reads the head of the branch alone, so the
answer is the one that the last submission to the branch gives. -/
namespace SjgControl
open Relational PythonText Backend Machine

theorem trailerOf_toList (key : String) : (trailerOf key).toList = "SJG-Idempotency:".toList ++ ' '::key.toList := by
  unfold trailerOf
  rw [String.toList_append]
  simp

/-- A message bears the trailers of its own key's beginnings, and those that its text holds. -/
theorem contains_commitMessage {lib : TextLibrary} {c : BrokerCall} (conforms : requestId c.key) {key : String}
    (conforms' : requestId key) : contains (commitMessage lib c) (trailerOf key) ↔
      contains (submissionText lib c) (trailerOf key) ∨ key.toList <+: c.key.toList := by
  have line : '\n' ∉ (trailerOf key).toList := by
    have absent := absent_of_conforms conforms' (by decide : ¬ keyChar '\n')
    rw [trailerOf_toList]
    simp [absent]
  have written : (commitMessage lib c).toList =
      (submissionText lib c).toList ++ '\n'::([] ++ '\n'::(trailerOf c.key).toList) := by
    unfold commitMessage
    rw [String.toList_append,String.toList_append]
    simp
  have space := absent_of_conforms conforms (by decide : ¬ keyChar ' ')
  unfold contains
  rw [written,Encoding.infix_split line,Encoding.infix_split line,trailerOf_toList,trailerOf_toList,
    Encoding.infix_at_cut (by decide) space]
  simp

namespace Submitted
variable (b : Backend) (lib : TextLibrary)

def answer (git : String → GitRepo) (e : Submitted) : Except BackendError Proof :=
  (b.verifySubmit lib git e.call.arguments e.call.session.role e.call.key).map Verification.proof

/-- The verifier reports the submission only if its commit is on the branch, and denies it only
if it is not. -/
def Sound (git : String → GitRepo) (e : Submitted) : Prop :=
  (answer b lib git e = .ok .present → Landed b lib git e) ∧ (answer b lib git e = .ok .absent → ¬ Landed b lib git e)

/-- The last submission that moved the branch speaks of this one, in the agent's text or by a
key that continues this one's, exactly if this one moved the branch; the head of a branch
that none moved does not speak of it. -/
def Attested (start : String → GitRepo) (history : List Submitted) (e : Submitted) : Prop :=
  ∀ p ∈ place b lib e,
    match (history.filter (moves b lib p)).getLast? with
    | some last => contains (submissionText lib last.call) (trailerOf e.call.key) ∨
        e.call.key.toList <+: last.call.key.toList ↔ e.progress.done
    | none => ∀ message ∈ (start p.1).tip p.2, ¬ contains message (trailerOf e.call.key)

variable {b lib} {git start at_ : String → GitRepo} {e : Submitted} {history : List Submitted}

theorem topic_of_authorized (legal : Legitimate b lib at_ e) :
    textArgument lib e.call.arguments "topic" = topic lib e.call := by
  obtain ⟨_,_,ok⟩ := bind_ok.mp legal.authorized
  obtain ⟨_,safe,_⟩ := bind_ok.mp ok
  obtain ⟨chars,_⟩ := deny_bind_ok.mp safe
  unfold textArgument topic Json.textOr
  unfold Json.textOr at chars
  split
  next => rfl
  next falsy =>
    rw [if_neg falsy] at chars
    exact absurd (by decide : ¬ topicChars []) chars

theorem branch_of_authorized (legal : Legitimate b lib at_ e) :
    "agent/" ++ e.call.session.role ++ "/" ++ textArgument lib e.call.arguments "topic" = branch lib e.call := by
  rw [topic_of_authorized legal]
  rfl

theorem answer_tip (legal : Legitimate b lib at_ e) {p : String × String} (placed : place b lib e = some p)
    (git : String → GitRepo) : answer b lib git e = .ok (match (git p.1).tip p.2 with
      | none => .unknown
      | some message => if contains message (trailerOf e.call.key) then .present else .absent) := by
  obtain ⟨r,named⟩ := legal.repo
  rw [place_eq named] at placed
  cases placed
  obtain ⟨_,valid,_⟩ := bind_ok.mp legal.authorized
  unfold answer verifySubmit GitRepo.tip
  rw [named,branch_of_authorized legal]
  simp only [bind,Except.bind,if_neg (role_of_validated valid)]
  cases points : (git r.slug).refs (branch lib e.call) with
  | none => rfl
  | some sha =>
    obtain ⟨commit,held⟩ := Option.isSome_iff_exists.mp ((git r.slug).resolved _ sha points)
    simp only [if_neg (GitRepo.head_ne points),held,Option.bind_some]
    by_cases found : contains commit.message (trailerOf e.call.key)
    · simp [found,pure,Except.pure,Except.map]
    · simp [found,pure,Except.pure,Except.map]

theorem legitimate_of_mem (legal : Along (step b lib) (Legitimate b lib) start history) (member : e ∈ history) :
    ∃ at_, Legitimate b lib at_ e := by
  induction history generalizing start with
  | nil => cases member
  | cons first rest ih =>
    obtain ⟨here,later⟩ := (along_cons (step b lib)).mp legal
    rcases List.mem_cons.mp member with rfl | inside
    · exact ⟨start,here⟩
    · exact ih later inside

theorem sound_iff (legal : Along (step b lib) (Legitimate b lib) start history) (member : e ∈ history) :
    Sound b lib (run (step b lib) start history) e ↔ Attested b lib start history e := by
  obtain ⟨_,accepted⟩ := legitimate_of_mem legal member
  obtain ⟨r,named⟩ := accepted.repo
  have placed := place_eq named
  unfold Sound Attested
  rw [answer_tip accepted placed,tip_run legal,landed_iff legal member,placed]
  simp only [Option.mem_some_iff,forall_eq']
  cases final : (history.filter (moves b lib (r.slug,branch lib e.call))).getLast? with
  | none =>
    -- nobody moved the branch, so this submission did not
    have still : e.progress.done = false := by
      by_contra moved
      have own : moves b lib (r.slug,branch lib e.call) e = true := by
        unfold moves
        rw [placed,decide_eq_true rfl,Bool.and_true]
        simpa using moved
      have empty := List.getLast?_eq_none_iff.mp final
      exact List.filter_eq_nil_iff.mp empty e member own
    simp only [Option.map_none,Option.none_or]
    cases (start r.slug).tip (branch lib e.call) with
    | none => simp
    | some message => by_cases found : contains message (trailerOf e.call.key) <;> simp [found,still]
  | some last =>
    obtain ⟨inside,_⟩ := List.mem_filter.mp (List.mem_of_getLast? final)
    obtain ⟨_,other⟩ := legitimate_of_mem legal inside
    have bears := @contains_commitMessage lib _ other.conforms _ accepted.conforms
    simp only [Option.map_some,Option.some_or]
    rw [← bears]
    by_cases found : contains (commitMessage lib last.call) (trailerOf e.call.key) <;> simp [found]

/-- The verifier is sound on the submissions of a history exactly when each is attested. -/
theorem branch_verification_iff (b : Backend) (lib : TextLibrary) (start : String → GitRepo)
    (history : List Submitted) (legal : Along (step b lib) (Legitimate b lib) start history) :
    (∀ e ∈ history, Sound b lib (run (step b lib) start history) e) ↔
      ∀ e ∈ history, Attested b lib start history e :=
  forall₂_congr (fun _ member => sound_iff legal member)

def carriedOut (b : Backend) (lib : TextLibrary) (git : String → GitRepo) (e : Submitted) : Bool :=
  match b.repo lib e.call.arguments,e.progress.commit with
  | .ok r,some sha =>
    decide (sha ≠ "") && ((git r.slug).lineage.get sha).isNone && (prepared lib (git r.slug) r e.call).toBool
  | _,_ => true

theorem carriedOut_iff {b : Backend} {lib : TextLibrary} {git : String → GitRepo} {e : Submitted} :
    carriedOut b lib git e = true ↔ ∀ r, b.repo lib e.call.arguments = .ok r → ∀ sha ∈ e.progress.commit,
      sha ≠ "" ∧ (git r.slug).lineage.get sha = none ∧ ∃ commit, prepared lib (git r.slug) r e.call = .ok commit := by
  unfold carriedOut
  cases b.repo lib e.call.arguments with
  | error => simp
  | ok r =>
    cases e.progress.commit with
    | none => simp
    | some sha =>
      cases answer : prepared lib (git r.slug) r e.call with
      | error => simp [answer,Except.toBool]
      | ok commit => simp [answer,Except.toBool]

instance (b : Backend) (lib : TextLibrary) (git : String → GitRepo) (e : Submitted) :
    Decidable (Legitimate b lib git e) :=
  decidable_of_iff (requestId e.call.key ∧
      authorizeSubmit lib.toLibrary b.policy e.call.session e.call.arguments = .ok () ∧ carriedOut b lib git e = true)
    ⟨fun ⟨conforms,authorized,carried⟩ => ⟨conforms,authorized,carriedOut_iff.mp carried⟩,
      fun legal => ⟨legal.conforms,legal.authorized,carriedOut_iff.mpr legal.carried⟩⟩

/-! Removals of files, all to one branch. -/

def implementerBackend : Backend where
  policy := Trial.policy
  repositories := [("org",⟨"example/org","main"⟩)]
  stages := none
  known := by
    intro role member alias_ inside
    cases List.mem_singleton.mp member
    cases List.mem_singleton.mp inside
    exact ⟨_,rfl⟩

def zeroth : String := "0000000000000000000000000000000000000000"

def first : String := "1111111111111111111111111111111111111111"

def second : String := "2222222222222222222222222222222222222222"

def mainRepo : GitRepo where
  lineage := {
    get := fun sha => if sha = zeroth then some ⟨"Initial commit",[],.empty⟩ else none
    closed := by
      intro sha commit held parent listed
      split at held
      next =>
        cases held
        cases listed
      next => cases held }
  refs := fun branch => if branch = "main" then some zeroth else none
  resolved := by
    intro branch sha points
    split at points
    next =>
      cases points
      rfl
    next => cases points
  named := by decide

def removalCall (key base path : String) : BrokerCall :=
  ⟨Trial.session,"repo.submit",
    [("topic",.str "tidy"),("base_oid",.str base),("changes",.arr [Trial.removal path])],key⟩

def lone : List Submitted :=
  [⟨removalCall "implementer-submit-0001" zeroth "notes.md",.committed first⟩,
    ⟨removalCall "implementer-submit-0002" zeroth "notes.md",.moved second⟩]

theorem branch_verification_iff_lone :
    (∀ e ∈ lone, Sound implementerBackend Served.quietLibrary
        (run (step implementerBackend Served.quietLibrary) (fun _ => mainRepo) lone) e) ↔
      ∀ e ∈ lone, Attested implementerBackend Served.quietLibrary (fun _ => mainRepo) lone e :=
  branch_verification_iff implementerBackend Served.quietLibrary (fun _ => mainRepo) lone (by decide +kernel)

/-- The second of three submissions is stopped; its key is the start of the third's. -/
def superseding : List Submitted :=
  [⟨removalCall "implementer-submit-0001" zeroth "notes.md",.moved first⟩,
    ⟨removalCall "implementer-submit-0002" first "draft.md",.stopped⟩,
    ⟨removalCall "implementer-submit-0002.retry" first "draft.md",.moved second⟩]

theorem superseded_submission_denied :
    Along (step implementerBackend Served.quietLibrary) (Legitimate implementerBackend Served.quietLibrary)
        (fun _ => mainRepo) superseding ∧
      (superseding.map (fun e => e.call.key)).Nodup ∧
      (∃ e ∈ superseding,
        answer implementerBackend Served.quietLibrary
            (run (step implementerBackend Served.quietLibrary) (fun _ => mainRepo) superseding) e = .ok .absent ∧
          Landed implementerBackend Served.quietLibrary
            (run (step implementerBackend Served.quietLibrary) (fun _ => mainRepo) superseding) e) ∧
      ∃ e ∈ superseding,
        answer implementerBackend Served.quietLibrary
            (run (step implementerBackend Served.quietLibrary) (fun _ => mainRepo) superseding) e = .ok .present ∧
          ¬ Landed implementerBackend Served.quietLibrary
            (run (step implementerBackend Served.quietLibrary) (fun _ => mainRepo) superseding) e := by
  have legal : Along (step implementerBackend Served.quietLibrary)
      (Legitimate implementerBackend Served.quietLibrary) (fun _ => mainRepo) superseding := by decide +kernel
  refine ⟨legal,by decide +kernel,⟨_,List.mem_cons_self,?_,?_⟩,
    _,List.mem_cons_of_mem _ List.mem_cons_self,?_,?_⟩
  · decide +kernel
  · exact (landed_iff legal List.mem_cons_self).mpr rfl
  · decide +kernel
  · intro landed
    have moved := (landed_iff legal (List.mem_cons_of_mem _ List.mem_cons_self)).mp landed
    cases moved

end Submitted
end SjgControl

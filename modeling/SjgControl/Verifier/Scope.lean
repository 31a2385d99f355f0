import SjgControl.Verifier.Marker

/-! The listing that decides a request: where its write goes, and where it is looked for. -/
namespace SjgControl
open Relational PythonText Backend

inductive Scope where
  | issues (slug : String)
  | pulls (slug branch : String)
  | comments (slug : String) (number : Int)
  | reviews (slug : String) (number : Int)
  deriving DecidableEq

namespace Scope
variable (lib : TextLibrary)

def listing (remote : GitHub) : Scope → List Fields
  | .issues slug => (remote.listedIssues slug).filter (fun item => !isPull item)
  | .pulls slug branch => (remote.pulls slug).filter (fun item => headRef lib item = branch)
  | .comments slug number => remote.comments slug number
  | .reviews slug number => remote.reviews slug number

def bodies (remote : GitHub) (s : Scope) : List String := (s.listing lib remote).map (bodyOf lib)

end Scope

def BrokerCall.scope (b : Backend) (lib : TextLibrary) (c : BrokerCall) : Option Scope :=
  match b.repo lib c.arguments with
  | .error _ => none
  | .ok repo =>
    if c.operation = "pm.issue.create" then some (.issues repo.slug)
    else if c.operation = "pm.issue.comment" then
      (number lib c.arguments ["id","issue"]).toOption.map (Scope.comments repo.slug)
    else if c.operation = "pr.create" then some (.pulls repo.slug (branch lib c))
    else (number lib c.arguments ["id","pr"]).toOption.map (fun n =>
      if c.operation = "pr.comment" then .comments repo.slug n else .reviews repo.slug n)

/-- The broker lets the call through to `execute`. -/
structure Accepted (b : Backend) (lib : TextLibrary) (remote : GitHub) (c : BrokerCall) : Prop where
  conforms : requestId c.key
  marked : c.operation ∈ marked
  authorized : ∃ facts, b.facts lib remote c.operation c.arguments = .ok facts ∧
    authorize lib b.policy c.session c.operation c.arguments facts = .ok ()

def passes (b : Backend) (lib : TextLibrary) (remote : GitHub) (c : BrokerCall) : Bool :=
  match b.facts lib remote c.operation c.arguments with
  | .ok facts => (authorize lib b.policy c.session c.operation c.arguments facts).toBool
  | .error _ => false

theorem passes_iff {b : Backend} {lib : TextLibrary} {remote : GitHub} {c : BrokerCall} :
    passes b lib remote c = true ↔ ∃ facts, b.facts lib remote c.operation c.arguments = .ok facts ∧
      authorize lib b.policy c.session c.operation c.arguments facts = .ok () := by
  unfold passes
  cases b.facts lib remote c.operation c.arguments with
  | error e => simp
  | ok facts =>
    cases answer : authorize lib b.policy c.session c.operation c.arguments facts with
    | error e => simp [answer,Except.toBool]
    | ok => simp [answer,Except.toBool]

instance (b : Backend) (lib : TextLibrary) (remote : GitHub) (c : BrokerCall) : Decidable (Accepted b lib remote c) :=
  decidable_of_iff (requestId c.key ∧ c.operation ∈ marked ∧ passes b lib remote c = true)
    ⟨fun ⟨conforms,marked,passed⟩ => ⟨conforms,marked,passes_iff.mp passed⟩,
      fun accepted => ⟨accepted.conforms,accepted.marked,passes_iff.mpr accepted.authorized⟩⟩

theorem validateRequest_ok {lib : TextLibrary} {policy : OrganizationPolicy} {session : Session} {operation : String}
    {arguments : Fields} (ok : validateRequest lib.toLibrary policy session operation arguments = .ok ()) :
    operation ∈ (lookup roleCapabilities session.role).getD [] ∧
      (∀ name ∈ arguments.map Prod.fst, name ∈ (lookup operationArguments operation).getD []) ∧
      ∃ role, lookup policy.roles session.role = some role ∧ alias_ lib arguments ∈ role.repositories := by
  simp only [validateRequest,deny_bind_ok] at ok
  obtain ⟨_,_,capable,_,known,ok⟩ := ok
  obtain ⟨role,found,ok⟩ := bind_ok.mp ok
  obtain ⟨inside,_⟩ := deny_bind_ok.mp ok
  have listed : lookup policy.roles session.role = some role := by
    unfold OrganizationPolicy.role at found
    cases present : lookup policy.roles session.role with
    | none => simp [present,fetch] at found
    | some value =>
      simp only [present,fetch,Except.ok.injEq] at found
      rw [found]
  refine ⟨not_not.mp capable,?_,role,listed,?_⟩
  · intro name member
    by_contra other
    apply known
    intro empty
    exact List.filter_eq_nil_iff.mp empty name member (decide_eq_true other)
  · exact not_not.mp (not_or.mp inside).2

theorem Json.get_absent {arguments : Fields} {name : String} (absent : name ∉ arguments.map Prod.fst) :
    Json.get arguments name = .null := by
  unfold Json.get
  rw [List.find?_eq_none.mpr,Option.map_none,Option.getD_none]
  intro field member same
  exact absent (by simpa using ⟨field.2,(of_decide_eq_true same) ▸ member⟩)

section
variable {b : Backend} {lib : TextLibrary} {session : Session} {operation : String} {arguments : Fields}

theorem repo_of_validated (valid : validateRequest lib.toLibrary b.policy session operation arguments = .ok ()) :
    ∃ r, b.repo lib arguments = .ok r := by
  obtain ⟨_,_,role,found,inside⟩ := validateRequest_ok valid
  obtain ⟨entry,member,rfl⟩ := Option.map_eq_some_iff.mp found
  obtain ⟨r,known⟩ := b.known entry (List.mem_of_find?_eq_some member) _ inside
  refine ⟨r,?_⟩
  unfold Backend.repo Backend.repository
  rw [known]
  rfl

theorem role_of_validated {policy : OrganizationPolicy}
    (valid : validateRequest lib.toLibrary policy session operation arguments = .ok ()) : session.role ≠ "" := by
  obtain ⟨capable,_⟩ := validateRequest_ok valid
  intro empty
  rw [empty] at capable
  have nobody : lookup roleCapabilities "" = none := by decide
  rw [nobody] at capable
  cases capable

end

namespace Accepted
variable {b : Backend} {lib : TextLibrary} {remote : GitHub} {c : BrokerCall}

theorem validated (accepted : Accepted b lib remote c) :
    validateRequest lib.toLibrary b.policy c.session c.operation c.arguments = .ok () := by
  obtain ⟨facts,_,ok⟩ := accepted.authorized
  obtain ⟨_,valid,_⟩ := bind_ok.mp ok
  exact valid

theorem absent (accepted : Accepted b lib remote c) {name : String}
    (other : name ∉ (lookup operationArguments c.operation).getD []) : Json.get c.arguments name = .null := by
  obtain ⟨_,known,_⟩ := validateRequest_ok accepted.validated
  exact Json.get_absent (fun member => other (known name member))

theorem topic (accepted : Accepted b lib remote c) (create : c.operation = "pr.create") :
    formatted lib c.arguments "topic" = (Json.get c.arguments "topic").text lib.render := by
  unfold formatted
  split
  next => rfl
  next missing =>
    obtain ⟨facts,_,ok⟩ := accepted.authorized
    rw [create] at ok
    obtain ⟨_,_,ok⟩ := bind_ok.mp ok
    obtain ⟨_,ok⟩ := deny_bind_ok.mp ok
    have pull : authorizePr lib b.policy c.session "pr.create" c.arguments facts = .ok () := ok
    obtain ⟨_,pull⟩ := deny_bind_ok.mp pull
    obtain ⟨_,pull,_⟩ := bind_ok.mp pull
    have created : (do
        let _ ← safeTopic lib.toLibrary (Json.get c.arguments "topic")
        deny (PythonText.strip (textArgument lib c.arguments "title") = "") "PR title is required") = .ok _ := pull
    obtain ⟨_,safe,_⟩ := bind_ok.mp created
    obtain ⟨chars,_⟩ := deny_bind_ok.mp safe
    have none_ : Json.get c.arguments "topic" = .null := by
      apply Json.get_absent
      intro member
      obtain ⟨field,present,same⟩ := List.mem_map.mp member
      exact missing ⟨field,present,same⟩
    rw [none_] at chars
    exact absurd (by decide : ¬ topicChars []) chars

/-- The facts were read at the number that the write goes to. -/
theorem scope (accepted : Accepted b lib remote c) : ∃ s, c.scope b lib = some s := by
  obtain ⟨r,found⟩ := repo_of_validated accepted.validated
  obtain ⟨facts,read,_⟩ := accepted.authorized
  unfold BrokerCall.scope
  rw [found]
  dsimp only
  unfold Backend.facts at read
  split
  next => exact ⟨_,rfl⟩
  next notCreate =>
    rw [if_neg notCreate] at read
    split
    next comment =>
      rw [if_pos comment] at read
      obtain ⟨issue,got,_⟩ := bind_ok.mp read
      obtain ⟨n,number,_⟩ := bind_ok.mp got
      rw [number]
      exact ⟨_,rfl⟩
    next notComment =>
      rw [if_neg notComment] at read
      split
      next => exact ⟨_,rfl⟩
      next notPull =>
        rw [if_neg notPull] at read
        obtain ⟨n,number,_⟩ := bind_ok.mp read
        rw [number]
        exact ⟨_,rfl⟩

end Accepted

namespace Backend
variable {b : Backend} {lib : TextLibrary} {remote : GitHub} {c : BrokerCall}

theorem number_comment {arguments : Fields} (absent : Json.get arguments "pr" = .null) :
    number lib arguments ["id","issue","pr"] = number lib arguments ["id","issue"] := by
  unfold number
  simp [absent,List.find?_cons,Json.truthy]

theorem number_pull {arguments : Fields} (absent : Json.get arguments "issue" = .null) :
    number lib arguments ["id","issue","pr"] = number lib arguments ["id","pr"] := by
  unfold number
  simp [absent,List.find?_cons,Json.truthy]

theorem read_some {x : Except BackendError Int} {f : Int → Scope} {s : Scope} (scope : x.toOption.map f = some s) :
    ∃ n, x = .ok n ∧ s = f n := by
  cases x with
  | error e => cases scope
  | ok n =>
    cases scope
    exact ⟨n,rfl,rfl⟩

/-- How often a listing shows the marker of a key. -/
def sightings (lib : TextLibrary) (remote : GitHub) (s : Scope) (key : String) : Nat :=
  (s.bodies lib remote).countP (fun body => contains body (markerOf key))

theorem sightings_eq (s : Scope) (key : String) :
    ((s.listing lib remote).filter (bears lib key)).length = sightings lib remote s key := by
  unfold sightings Scope.bodies
  rw [List.countP_map,List.countP_eq_length_filter]
  rfl

/-- The verifier counts the marker in the listing of the request. -/
theorem verifyBroker_proof (accepted : Accepted b lib remote c) {s : Scope} (scope : c.scope b lib = some s)
    (later : GitHub) : (b.verifyBroker lib later c.operation c.arguments c.session.role c.key).map Verification.proof =
      .ok (if sightings lib later s c.key = 0 then .absent
        else if sightings lib later s c.key = 1 then .present else .conflict) := by
  obtain ⟨r,found⟩ := repo_of_validated accepted.validated
  have counted {matches_ : List Fields} {result : Fields → Fields}
      (same : matches_ = (s.listing lib later).filter (bears lib c.key)) :
      (Verification.proved matches_ result).proof = if sightings lib later s c.key = 0 then Proof.absent
        else if sightings lib later s c.key = 1 then .present else .conflict := by
    rw [Verification.proved_proof,same,sightings_eq]
  unfold BrokerCall.scope at scope
  unfold verifyBroker
  rw [found] at scope ⊢
  dsimp only at scope
  have listed := accepted.marked
  unfold marked at listed
  simp only [List.mem_cons,List.not_mem_nil,or_false] at listed
  rcases listed with op | op | op | op | op
  · rw [op] at scope ⊢
    simp only [if_true,Option.some.injEq] at scope
    subst scope
    refine congrArg Except.ok (counted ?_)
    simp only [Scope.listing,List.filter_filter]
    apply List.filter_congr
    intro item _
    exact Bool.and_comm _ _
  · have absent := accepted.absent (by rw [op]; decide : "pr" ∉ _)
    rw [op] at scope ⊢
    simp only [String.reduceEq,if_false,if_true] at scope
    obtain ⟨n,got,rfl⟩ := read_some scope
    refine congrArg Except.ok ?_
    simp only [number_comment absent,got]
    exact counted rfl
  · rw [op] at scope ⊢
    simp only [String.reduceEq,if_false,if_true,Option.some.injEq] at scope
    subst scope
    refine congrArg Except.ok (counted ?_)
    simp only [Scope.listing,List.filter_filter]
    apply List.filter_congr
    intro item _
    have given : decide (c.session.role = "") = false := decide_eq_false (role_of_validated accepted.validated)
    rw [given,Bool.false_or,accepted.topic op]
    rfl
  · have absent := accepted.absent (by rw [op]; decide : "issue" ∉ _)
    rw [op] at scope ⊢
    simp only [String.reduceEq,if_false,if_true] at scope
    obtain ⟨n,got,rfl⟩ := read_some scope
    refine congrArg Except.ok ?_
    simp only [number_pull absent,got]
    exact counted rfl
  · rw [op] at scope ⊢
    simp only [String.reduceEq,if_false] at scope
    obtain ⟨n,got,rfl⟩ := read_some scope
    refine congrArg Except.ok ?_
    rw [got]
    exact counted rfl

end Backend
end SjgControl

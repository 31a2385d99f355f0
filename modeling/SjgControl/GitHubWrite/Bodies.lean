import SjgControl.GitHubWrite
import SjgControl.Verifier.Scope

/-! The texts that an authorized request puts on GitHub. -/
namespace SjgControl
open Relational PythonText

namespace Trail

def bodies (t : Trail) : List String := t.writes.filterMap RemoteWrite.body

theorem bodies_behind (first : RemoteWrite) (rest : Trail) :
    (behind first rest).bodies = first.body.toList ++ rest.bodies := by
  unfold bodies behind
  cases found : first.body <;> simp [found]

end Trail

theorem authorize_ok {lib : TextLibrary} {policy : OrganizationPolicy} {session : Session} {operation : String}
    {arguments : Fields} {facts : Facts} (ok : authorize lib policy session operation arguments facts = .ok ()) :
    validateRequest lib.toLibrary policy session operation arguments = .ok () ∧ facts.complete = true ∧
      authorizeRemote lib policy session operation arguments facts = .ok () := by
  obtain ⟨_,valid,ok⟩ := bind_ok.mp ok
  obtain ⟨complete,ok⟩ := deny_bind_ok.mp ok
  exact ⟨valid,not_not.mp complete,ok⟩

theorem Json.get_missing {arguments : Fields} {name : String} (missing : ¬ Json.has arguments name) :
    Json.get arguments name = .null := by
  apply Json.get_absent
  intro member
  obtain ⟨field,present,same⟩ := List.mem_map.mp member
  exact missing ⟨field,present,same⟩

theorem Json.has_of_truthy {arguments : Fields} {name : String} (given : (Json.get arguments name).truthy = true) :
    Json.has arguments name := by
  by_contra missing
  rw [Json.get_missing missing] at given
  cases given

/-! Texts that hold no line break. -/

theorem markerOf_plain {key : String} (conforms : requestId key) : '\n' ∉ (markerOf key).toList := by
  have absent := absent_of_conforms conforms (by decide : ¬ keyChar '\n')
  rw [markerOf_toList]
  unfold markerTail
  simp [absent]

theorem text_plain (value : String) : '\n' ∉ JsonText.text value :=
  fun member => absurd (JsonText.text_graphic value '\n' member) (by decide)

theorem itemMetadata_plain (ownerRole kind : String) : '\n' ∉ (itemMetadata ownerRole kind).toList := by
  unfold itemMetadata
  simp [text_plain]

namespace Backend
open Trail
variable {b : Backend} {lib : TextLibrary} {remote : GitHub} {a : Assigned} {c : BrokerCall} {facts : Facts}

theorem textArgument_given {arguments : Fields} {name : String} (given : textArgument lib arguments name ≠ "") :
    Json.has arguments name ∧ textArgument lib arguments name = (Json.get arguments name).text lib.render := by
  unfold textArgument Json.textOr at given ⊢
  split at given
  next truthy =>
    rw [if_pos truthy]
    exact ⟨Json.has_of_truthy truthy,rfl⟩
  next => exact absurd rfl given

theorem textArgument_solid {arguments : Fields} {name : String}
    (solid : PythonText.strip (textArgument lib arguments name) ≠ "") : textArgument lib arguments name ≠ "" := by
  intro empty
  rw [empty] at solid
  exact solid rfl

theorem required_given {arguments : Fields} {name : String} (given : Json.has arguments name) :
    required arguments name = .ok (Json.get arguments name) := by
  unfold required
  rw [if_pos given]

/-- The arguments that `execute` takes as given. -/
structure Given (lib : TextLibrary) (c : BrokerCall) : Prop where
  kind : c.operation = "pm.issue.create" → Json.has c.arguments "kind"
  body : c.operation = "pm.issue.comment" ∨ c.operation = "pr.comment" →
    textArgument lib c.arguments "body" ≠ ""
  target : c.operation = "pm.issue.route" → textArgument lib c.arguments "target_role" ≠ ""
  stage : c.operation = "pm.issue.move" → Json.has c.arguments "to"
  topic : c.operation = "pr.create" → Json.has c.arguments "topic"

theorem create_kind {policy : OrganizationPolicy} {session : Session} {arguments : Fields}
    (ok : authorizeCreate lib policy session arguments facts = .ok ()) : textArgument lib arguments "kind" ≠ "" := by
  simp only [authorizeCreate,deny_bind_ok] at ok
  obtain ⟨canonical,_,_,allowed,_⟩ := ok
  intro empty
  rw [← not_not.mp canonical,empty] at allowed
  split at allowed
  next => exact allowed (by decide)
  next => exact allowed (by decide)

theorem move_stage {arguments : Fields} (ok : authorizeMove lib arguments facts = .ok ()) :
    textArgument lib arguments "to" ≠ "" := by
  intro empty
  unfold authorizeMove at ok
  rw [empty] at ok
  have terminal : ("" : String) ∉ terminalStages := by decide
  have holding : ("" : String) ∉ holdingStages := by decide
  have unknown : lookup stageOrder "" = none := by decide
  simp only [terminal,holding,unknown,if_false] at ok
  cases ok

theorem route_target {policy : OrganizationPolicy} {arguments : Fields}
    (ok : authorizeRoute lib policy arguments facts = .ok ()) : textArgument lib arguments "target_role" ≠ "" := by
  simp only [authorizeRoute,deny_bind_ok] at ok
  obtain ⟨allowed,_⟩ := ok
  intro empty
  rw [empty] at allowed
  obtain ⟨_,inside⟩ := not_not.mp allowed
  split at inside
  next => exact absurd inside (by decide)
  next => exact absurd inside (by decide)

theorem create_topic {policy : OrganizationPolicy} {session : Session} {arguments : Fields}
    (ok : authorizePull lib policy session "pr.create" arguments facts = .ok ()) :
    textArgument lib arguments "topic" ≠ "" := by
  unfold authorizePull at ok
  rw [if_pos rfl] at ok
  obtain ⟨_,safe,_⟩ := bind_ok.mp ok
  obtain ⟨chars,_⟩ := deny_bind_ok.mp safe
  intro empty
  have none_ : (Json.get arguments "topic").textOr lib.render = "" := empty
  rw [none_] at chars
  exact absurd (by decide : ¬ topicChars []) chars

theorem given_of_authorized (ok : authorize lib b.policy c.session c.operation c.arguments facts = .ok ()) :
    Given lib c := by
  obtain ⟨_,_,ok⟩ := authorize_ok ok
  refine ⟨?_,?_,?_,?_,?_⟩
  · intro op
    rw [op] at ok
    exact (textArgument_given (create_kind ok)).1
  · rintro (op | op)
    · rw [op] at ok
      have comment : authorizeComment lib c.arguments = .ok () := ok
      exact textArgument_solid (deny_bind_ok.mp comment).1
    · rw [op] at ok
      have pull : authorizePr lib b.policy c.session "pr.comment" c.arguments facts = .ok () := ok
      obtain ⟨_,pull⟩ := deny_bind_ok.mp pull
      obtain ⟨_,_,pull⟩ := bind_ok.mp pull
      obtain ⟨said,_⟩ := deny_bind_ok.mp pull
      exact textArgument_solid (fun empty => said ⟨.inl rfl,empty⟩)
  · intro op
    rw [op] at ok
    exact route_target ok
  · intro op
    rw [op] at ok
    have owned : authorizeOwner lib c.session "pm.issue.move" c.arguments facts = .ok () := ok
    obtain ⟨_,owned⟩ := deny_bind_ok.mp owned
    obtain ⟨_,owned⟩ := deny_bind_ok.mp owned
    exact (textArgument_given (move_stage owned)).1
  · intro op
    rw [op] at ok
    have pull : authorizePr lib b.policy c.session "pr.create" c.arguments facts = .ok () := ok
    obtain ⟨_,pull⟩ := deny_bind_ok.mp pull
    obtain ⟨_,made,_⟩ := bind_ok.mp pull
    exact (textArgument_given (create_topic made)).1

def texts (b : Backend) (lib : TextLibrary) (remote : GitHub) (c : BrokerCall) : List String :=
  if c.operation = "pm.issue.create" then [writtenBody lib c]
  else if c.operation ∈ pmOperations then
    match b.issue lib remote c.arguments with
    | .error _ => []
    | .ok issue =>
      if c.operation = "pm.issue.comment" then [writtenBody lib c]
      else if c.operation = "pm.issue.route" then [routedBody lib issue (textArgument lib c.arguments "target_role")]
      else if c.operation = "pm.issue.move" then []
      else if c.operation = "pm.issue.done" then [doneBody c]
      else [dropBody lib c]
  else if c.operation = "pr.create" then [writtenBody lib c]
  else
    match number lib c.arguments ["id","pr"] with
    | .error _ => []
    | .ok _ =>
      if c.operation = "pr.update" then
        match Json.get c.arguments "body" with
        | .str body => [body]
        | _ => []
      else [writtenBody lib c]

theorem placing_bodies {next : Trail} (quiet : next.bodies = []) (slug : String) (n : Int) (stage : String) :
    (b.placing slug n stage next).bodies = [] := by
  unfold placing
  split
  next => rfl
  next =>
    split
    next =>
      rw [bodies_behind,quiet]
      rfl
    next => rfl

theorem placingIf_bodies {next : Trail} (quiet : next.bodies = []) (slug : String) (n : Int) (stage : String) :
    (b.placingIf slug n stage next).bodies = [] := by
  unfold placingIf
  split
  next => exact placing_bodies quiet slug n stage
  next => exact quiet

theorem linking_bodies {next : Trail} (quiet : next.bodies = []) (slug : String) :
    (b.linking lib remote slug a c next).bodies = [] := by
  unfold linking
  split
  next =>
    split
    next => rfl
    next =>
      rw [bodies_behind,quiet]
      rfl
  next => exact quiet

theorem createTrail_bodies (slug : String) (given : Json.has c.arguments "kind") :
    (b.createTrail lib remote a c slug).bodies = [writtenBody lib c] := by
  unfold createTrail
  rw [required_given given]
  dsimp only
  rw [bodies_behind,linking_bodies (placingIf_bodies rfl _ _ _)]
  rfl

theorem commentTrail_bodies (slug : String) (n : Int) (given : Json.has c.arguments "body") :
    (commentTrail lib a c slug n).bodies = [writtenBody lib c] := by
  unfold commentTrail
  rw [required_given given]
  rfl

theorem routeTrail_bodies (slug : String) (n : Int) (issue : Fields)
    (given : textArgument lib c.arguments "target_role" ≠ "") :
    (routeTrail lib c slug n issue).bodies = [routedBody lib issue (textArgument lib c.arguments "target_role")] := by
  obtain ⟨present,same⟩ := textArgument_given given
  unfold routeTrail
  rw [required_given present,same]
  rfl

theorem endTrail_bodies (slug : String) (n : Int) (text stage reason : String) (result : Fields) :
    (behind (.postComment slug n (commentItem a text))
      (b.placingIf slug n stage (closing slug n reason result))).bodies = [text] := by
  rw [bodies_behind,placingIf_bodies rfl]
  rfl

theorem pullChanges_body {arguments : Fields} : Json.get (pullChanges arguments) "body" = Json.get arguments "body" := by
  by_cases body : Json.has arguments "body"
  · by_cases title : Json.has arguments "title" <;> simp [pullChanges,title,body,Json.get]
  · rw [Json.get_missing body]
    by_cases title : Json.has arguments "title" <;> simp [pullChanges,title,body,Json.get]

theorem updatePullTrail_bodies (slug : String) (n : Int) :
    (updatePullTrail a c slug n).bodies = match Json.get c.arguments "body" with
      | .str body => [body]
      | _ => [] := by
  unfold updatePullTrail bodies
  rw [List.filterMap_cons]
  simp only [RemoteWrite.body,RemoteWrite.sent,pullChanges_body]
  cases Json.get c.arguments "body" <;> rfl

/-- An authorized request writes its texts and no others. -/
theorem trail_bodies (remote : GitHub) (a : Assigned)
    (ok : authorize lib b.policy c.session c.operation c.arguments facts = .ok ()) :
    (b.trail lib remote a c).bodies = texts b lib remote c := by
  have given := given_of_authorized ok
  obtain ⟨r,found⟩ := repo_of_validated (authorize_ok ok).1
  unfold trail texts
  rw [found]
  dsimp only
  by_cases create : c.operation = "pm.issue.create"
  · rw [if_pos create,if_pos create]
    exact createTrail_bodies r.slug (given.kind create)
  rw [if_neg create,if_neg create]
  by_cases managed : c.operation ∈ pmOperations
  · rw [if_pos managed,if_pos managed]
    unfold issueTrail
    cases read : b.issue lib remote c.arguments with
    | error e => rfl
    | ok issue =>
      obtain ⟨n,numbered,_⟩ := bind_ok.mp read
      rw [numbered]
      dsimp only
      split
      next note => exact commentTrail_bodies r.slug n (textArgument_given (given.body (.inl note))).1
      next =>
        split
        next route => exact routeTrail_bodies r.slug n issue (given.target route)
        next =>
          split
          next move =>
            unfold moveTrail
            rw [required_given (given.stage move)]
            exact placing_bodies rfl _ _ _
          next =>
            split
            next => exact endTrail_bodies _ _ _ _ _ _
            next => exact endTrail_bodies _ _ _ _ _ _
  rw [if_neg managed,if_neg managed]
  by_cases pull : c.operation = "pr.create"
  · rw [if_pos pull,if_pos pull]
    unfold createPullTrail
    rw [required_given (given.topic pull)]
    rfl
  rw [if_neg pull,if_neg pull]
  unfold pullTrail
  cases number lib c.arguments ["id","pr"] with
  | error e => rfl
  | ok n =>
    dsimp only
    split
    next => exact updatePullTrail_bodies r.slug n
    next =>
      split
      next note => exact commentTrail_bodies r.slug n (textArgument_given (given.body (.inr note))).1
      next => rfl

/-- The writes that a call can make, whatever the remote answers. -/
inductive Wrote (b : Backend) (lib : TextLibrary) (remote : GitHub) (a : Assigned) (c : BrokerCall) : RemoteWrite → Prop
  | opened (slug title : String) (labels : List String) (create : c.operation = "pm.issue.create") :
    Wrote b lib remote a c (.openIssue slug (issueItem a title (writtenBody lib c) labels))
  | linked (slug : String) (n : Int) : Wrote b lib remote a c (.linkChild slug n (.int a.id))
  | placed (slug : String) (n : Int) (stage : String) : Wrote b lib remote a c (.place slug n stage)
  | noted (slug : String) (n : Int) (note : c.operation = "pm.issue.comment" ∨ c.operation = "pr.comment") :
    Wrote b lib remote a c (.postComment slug n (commentItem a (writtenBody lib c)))
  | routed (r : Repository) (n : Int) (issue : Fields) (target : Json) (names : List Json)
    (route : c.operation = "pm.issue.route") (own : b.repo lib c.arguments = .ok r)
    (asked : number lib c.arguments ["id","issue"] = .ok n) (read : b.issue lib remote c.arguments = .ok issue)
    (given : required c.arguments "target_role" = .ok target) :
    Wrote b lib remote a c (.editIssue r.slug n
      [("labels",.arr names),("body",.str (routedBody lib issue (target.text lib.render)))])
  | done (slug : String) (n : Int) : Wrote b lib remote a c (.postComment slug n (commentItem a (doneBody c)))
  | dropped (slug : String) (n : Int) : Wrote b lib remote a c (.postComment slug n (commentItem a (dropBody lib c)))
  | closed (slug : String) (n : Int) (reason : String) :
    Wrote b lib remote a c (.editIssue slug n [("state",.str "closed"),("state_reason",.str reason)])
  | pulled (slug title base : String) (draft : Bool) (create : c.operation = "pr.create") :
    Wrote b lib remote a c (.openPull slug (pullItem a title (writtenBody lib c) (branch lib c) base draft))
  | updated (slug : String) (n : Int) (update : c.operation = "pr.update") :
    Wrote b lib remote a c (.editPull slug n (pullChanges c.arguments))
  | reviewed (slug : String) (n : Int) (event : String) :
    Wrote b lib remote a c (.postReview slug n (reviewItem a (writtenBody lib c) event))

section
variable {w : RemoteWrite}

theorem placing_wrote {next : Trail} (rest : ∀ w ∈ next.writes, Wrote b lib remote a c w) (slug : String) (n : Int)
    (stage : String) : ∀ w ∈ (b.placing slug n stage next).writes, Wrote b lib remote a c w := by
  intro w member
  unfold placing at member
  split at member
  next => cases member
  next =>
    split at member
    next =>
      rcases List.mem_cons.mp member with rfl | later
      · exact .placed slug n stage
      · exact rest w later
    next => cases member

theorem placingIf_wrote {next : Trail} (rest : ∀ w ∈ next.writes, Wrote b lib remote a c w) (slug : String) (n : Int)
    (stage : String) : ∀ w ∈ (b.placingIf slug n stage next).writes, Wrote b lib remote a c w := by
  unfold placingIf
  split
  next => exact placing_wrote rest slug n stage
  next => exact rest

theorem linking_wrote {posted : GitHub} {next : Trail} (rest : ∀ w ∈ next.writes, Wrote b lib remote a c w)
    (slug : String) : ∀ w ∈ (b.linking lib posted slug a c next).writes, Wrote b lib remote a c w := by
  intro w member
  unfold linking at member
  split at member
  next =>
    split at member
    next => cases member
    next n _ =>
      rcases List.mem_cons.mp member with rfl | later
      · exact .linked slug n
      · exact rest w later
  next => exact rest w member

theorem closing_wrote (slug : String) (n : Int) (reason : String) (result : Fields) :
    ∀ w ∈ (closing slug n reason result).writes, Wrote b lib remote a c w := by
  intro w member
  cases List.mem_singleton.mp member
  exact .closed slug n reason

theorem commentTrail_wrote {slug : String} {n : Int}
    (note : c.operation = "pm.issue.comment" ∨ c.operation = "pr.comment") :
    ∀ w ∈ (commentTrail lib a c slug n).writes, Wrote b lib remote a c w := by
  intro w member
  unfold commentTrail at member
  split at member
  next => cases member
  next =>
    cases List.mem_singleton.mp member
    exact .noted slug n note

theorem createTrail_wrote {slug : String} (create : c.operation = "pm.issue.create") :
    ∀ w ∈ (b.createTrail lib remote a c slug).writes, Wrote b lib remote a c w := by
  intro w member
  unfold createTrail at member
  split at member
  next => cases member
  next =>
    rcases List.mem_cons.mp member with rfl | later
    · exact .opened slug _ _ create
    · exact linking_wrote (placingIf_wrote (by simp) _ _ _) slug w later

theorem issueTrail_wrote {r : Repository} (own : b.repo lib c.arguments = .ok r) :
    ∀ w ∈ (b.issueTrail lib remote a c r.slug).writes, Wrote b lib remote a c w := by
  intro w member
  unfold issueTrail at member
  split at member
  next => cases member
  next => cases member
  next issue n read asked =>
    split at member
    next note => exact commentTrail_wrote (.inl note) w member
    next =>
      split at member
      next route =>
        unfold routeTrail at member
        split at member
        next => cases member
        next target given =>
          cases List.mem_singleton.mp member
          exact .routed r n issue target _ route own asked read given
      next =>
        split at member
        next =>
          unfold moveTrail at member
          split at member
          next => cases member
          next => exact placing_wrote (by simp) _ _ _ w member
        next =>
          split at member
          next =>
            rcases List.mem_cons.mp member with rfl | later
            · exact .done r.slug n
            · exact placingIf_wrote (closing_wrote _ _ _ _) _ _ _ w later
          next =>
            rcases List.mem_cons.mp member with rfl | later
            · exact .dropped r.slug n
            · exact placingIf_wrote (closing_wrote _ _ _ _) _ _ _ w later

theorem pullTrail_wrote {slug : String} : ∀ w ∈ (pullTrail lib a c slug).writes, Wrote b lib remote a c w := by
  intro w member
  unfold pullTrail at member
  split at member
  next => cases member
  next n _ =>
    split at member
    next update =>
      cases List.mem_singleton.mp member
      exact .updated slug n update
    next =>
      split at member
      next note => exact commentTrail_wrote (.inr note) w member
      next =>
        cases List.mem_singleton.mp member
        exact .reviewed slug n _

theorem trail_wrote (member : w ∈ (b.trail lib remote a c).writes) : Wrote b lib remote a c w := by
  unfold trail at member
  split at member
  next => cases member
  next r own =>
    split at member
    next create => exact createTrail_wrote create w member
    next =>
      split at member
      next => exact issueTrail_wrote own w member
      next =>
        split at member
        next pull =>
          unfold createPullTrail at member
          split at member
          next => cases member
          next =>
            cases List.mem_singleton.mp member
            exact .pulled r.slug _ _ _ pull
        next => exact pullTrail_wrote w member

end

end Backend
end SjgControl

import SjgControl.Verifier.Attestation

/-! The API calls of any number of submissions between one another and between what people
push: a branch only moves on, and the commit of a submission that returns stays on it. -/
namespace SjgControl
open Relational PythonText Backend Machine

/-- What GitHub does with one call: whether it is carried out, whether its answer arrives,
and the identity of the commit it makes. -/
structure PushReply where
  carriedOut : Bool
  answered : Bool
  sha : String

/-- The call a submission makes next; `existing` tells whether its branch was there. -/
inductive PushPoint where
  | matchingRefs
  | defaultRef
  | baseCommit (existing : Bool)
  | blobs (existing : Bool) (base : GitTree) (todo : List Json) (entries : List GitEntry)
  | commit (existing : Bool) (tree : GitTree)
  | ref (existing : Bool) (sha : String)
  | returned (sha : String)
  | failed (error : BackendError)

/-- The commit descends from what the branch points to, if it points to anything. -/
def GitRepo.Descends (g : GitRepo) (branch sha : String) : Prop :=
  ∀ head, g.refs branch = some head → g.lineage.Reaches sha head

namespace Push
variable (lib : TextLibrary) (g : GitRepo) (r : Repository) (c : BrokerCall) (reply : PushReply)

def baseOid : String := (Json.get c.arguments "base_oid").text lib.render

def noAnswer : PushPoint := .failed (.gitHub "GitHub command failed: api")

def notFound : PushPoint := .failed (.gitHub "gh: Not Found (HTTP 404)")

def compared (existing : Bool) (remoteBase : String) : PushPoint :=
  if remoteBase ≠ "" ∧ remoteBase = baseOid lib c then .baseCommit existing
  else .failed (.gitHub "submission base is stale; rematerialize before retrying")

def matchingRefs : PushPoint :=
  match g.refs (branch lib c) with
  | some sha => compared lib c true sha
  | none => .defaultRef

def defaultRef : PushPoint :=
  match g.refs r.defaultBranch with
  | some sha => compared lib c false sha
  | none => notFound

/-- The authorization lets lists of changes alone through. -/
def baseCommit (existing : Bool) : PushPoint :=
  match g.lineage.get (baseOid lib c) with
  | none => notFound
  | some commit =>
    match required c.arguments "changes" with
    | .error e => .failed e
    | .ok (.arr changes) => .blobs existing commit.tree changes []
    | .ok _ => .blobs existing commit.tree [] []

def pathOf : Json → String
  | .obj change => (Json.get change "path").text lib.render
  | _ => ""

/-- One round over the changes; a deletion makes no call. -/
def blob (existing : Bool) (base : GitTree) (change : Json) (todo : List Json) (entries : List GitEntry) : PushPoint :=
  match treeEntry lib.toLibrary change with
  | none => .failed (.gitHub ("content digest mismatch: " ++ pathOf lib change))
  | some entry =>
    if reply.answered || entry.file.isNone then .blobs existing base todo (entries ++ [entry]) else noAnswer

def made (tree : GitTree) : Commit := ⟨commitMessage lib c,[baseOid lib c],tree⟩

def answeredBy (next : PushPoint) : PushPoint := if reply.answered then next else noAnswer

def step : PushPoint → GitRepo × PushPoint
  | .matchingRefs => (g,answeredBy reply (matchingRefs lib g c))
  | .defaultRef => (g,answeredBy reply (defaultRef lib g r c))
  | .baseCommit existing => (g,answeredBy reply (baseCommit lib g c existing))
  | .blobs existing base (change::todo) entries => (g,blob lib reply existing base change todo entries)
  -- `git/trees`
  | .blobs existing base [] entries => (g,answeredBy reply (.commit existing (base.apply entries)))
  | .commit existing tree =>
    if reply.carriedOut then (g.store reply.sha (made lib c tree),answeredBy reply (.ref existing reply.sha))
    else (g,noAnswer)
  -- `PATCH` on a branch that was there, `POST` for a new one
  | .ref _ sha =>
    if reply.carriedOut then (g.move (branch lib c) sha,answeredBy reply (.returned sha)) else (g,noAnswer)
  | .returned sha => (g,.returned sha)
  | .failed error => (g,.failed error)

/-- The first call of a submission, if its request names a topic and a base. -/
def start : PushPoint :=
  match (do
    let _ ← required c.arguments "topic"
    required c.arguments "base_oid" : Except BackendError Json) with
  | .ok _ => .matchingRefs
  | .error e => .failed e

/-- GitHub creates no branch that is there, moves none but to a descendant, and stores a
commit under an identity of its own. -/
def Accepted : PushPoint → Prop
  | .commit _ tree => reply.sha ≠ "" ∧
    (g.lineage.get reply.sha = none ∨ g.lineage.get reply.sha = some (made lib c tree))
  | .ref true sha => g.Descends (branch lib c) sha
  | .ref false _ => g.refs (branch lib c) = none
  | _ => True

end Push

structure PushThread where
  call : BrokerCall
  repo : Repository
  point : PushPoint

structure PushState where
  git : String → GitRepo
  threads : List PushThread

inductive PushAction where
  | submit (call : BrokerCall)
  | advance (i : Nat) (reply : PushReply)
  -- what people push: commits, and then a branch
  | object (slug sha : String) (commit : Commit)
  | push (slug branch sha : String)

namespace PushState
variable (b : Backend) (lib : TextLibrary)

def starting (git : String → GitRepo) : PushState := ⟨git,[]⟩

def step (s : PushState) : PushAction → PushState
  | .submit call =>
    match b.repo lib call.arguments with
    | .ok repo => {s with threads := s.threads ++ [⟨call,repo,Push.start call⟩]}
    | .error _ => s
  | .advance i reply =>
    match s.threads[i]? with
    | some t =>
      let after := Push.step lib (s.git t.repo.slug) t.repo t.call reply t.point
      ⟨Function.update s.git t.repo.slug after.1,s.threads.set i {t with point := after.2}⟩
    | none => s
  | .object slug sha commit => {s with git := Function.update s.git slug ((s.git slug).store sha commit)}
  | .push slug branch sha => {s with git := Function.update s.git slug ((s.git slug).move branch sha)}

/-- GitHub carries out what it accepts, and people push fast-forwards. -/
def Accepts (s : PushState) : PushAction → Prop
  | .advance i reply => ∀ t ∈ s.threads[i]?, reply.carriedOut = true →
    Push.Accepted lib (s.git t.repo.slug) t.call reply t.point
  | .push slug branch sha => (s.git slug).Descends branch sha
  | _ => True

end PushState

namespace GitRepo
variable {g later : GitRepo} {sha branch : String}

/-- No commit is lost, and no branch moves but to a descendant. -/
structure Extends (g later : GitRepo) : Prop where
  grown : ∀ x n, g.lineage.get x = some n → later.lineage.get x = some n
  heads : ∀ branch head, g.refs branch = some head →
    ∃ next, later.refs branch = some next ∧ later.lineage.Reaches next head

theorem Extends.refl (g : GitRepo) : Extends g g :=
  ⟨fun _ _ held => held,fun _ head points => ⟨head,points,Lineage.Reaches.refl _ head⟩⟩

theorem Extends.onBranch (extends_ : Extends g later) {x : String} (held : g.OnBranch branch x) :
    later.OnBranch branch x := by
  obtain ⟨head,points,reached⟩ := held
  obtain ⟨next,moved,further⟩ := extends_.heads branch head points
  exact ⟨next,moved,Relation.ReflTransGen.trans further (reached.grown extends_.grown)⟩

theorem Extends.trans {middle : GitRepo} (first : Extends g middle) (second : Extends middle later) : Extends g later := by
  refine ⟨fun x n held => second.grown x n (first.grown x n held),?_⟩
  intro branch head points
  obtain ⟨next,moved,reached⟩ := first.heads branch head points
  exact second.onBranch ⟨next,moved,reached⟩

theorem extends_store (g : GitRepo) (sha : String) (c : Commit) : Extends g (g.store sha c) := by
  unfold store
  split
  next given =>
    have grown := @Lineage.get_grown String Commit Commit.parents g.lineage _ sha c
    exact ⟨grown,fun _ head points => ⟨head,points,Lineage.Reaches.refl _ head⟩⟩
  next => exact .refl g

theorem extends_move (descends : g.Descends branch sha) : Extends g (g.move branch sha) := by
  by_cases known : (g.lineage.get sha).isSome
  · refine ⟨fun x n held => by rwa [lineage_move],?_⟩
    intro other head points
    rw [refs_move known,lineage_move]
    by_cases same : other = branch
    · subst same
      exact ⟨sha,Function.update_self _ _ _,descends head points⟩
    · exact ⟨head,by rw [Function.update_of_ne same,points],Lineage.Reaches.refl _ head⟩
  · unfold move
    rw [dif_neg known]
    exact .refl g

theorem get_store {c : Commit} (given : sha ≠ "") (parents : ∀ p ∈ c.parents, (g.lineage.get p).isSome)
    (own : g.lineage.get sha = none ∨ g.lineage.get sha = some c) : (g.store sha c).lineage.get sha = some c := by
  rw [lineage_store given]
  rcases own with fresh | there
  · have fits : g.lineage.Fits sha c := ⟨by rw [fresh]; rfl,parents⟩
    rw [Lineage.get_add fits,if_pos rfl]
  · exact Lineage.get_grown sha c sha c there

theorem onBranch_move (known : (g.lineage.get sha).isSome) : (g.move branch sha).OnBranch branch sha := by
  refine ⟨sha,?_,Lineage.Reaches.refl _ sha⟩
  rw [refs_move known,Function.update_self]

end GitRepo

namespace Push
variable {lib : TextLibrary} {g next : GitRepo} {r : Repository} {c : BrokerCall} {reply : PushReply}

def Made (lib : TextLibrary) (g : GitRepo) (c : BrokerCall) (sha : String) : Prop :=
  ∃ commit, g.lineage.get sha = some commit ∧ commit.parents = [baseOid lib c]

/-- What a submission knows at a point. -/
def Holds (lib : TextLibrary) (g : GitRepo) (c : BrokerCall) : PushPoint → Prop
  | .blobs _ _ _ _ => (g.lineage.get (baseOid lib c)).isSome
  | .commit _ _ => (g.lineage.get (baseOid lib c)).isSome
  | .ref _ sha => Made lib g c sha
  | .returned sha => Made lib g c sha ∧ g.OnBranch (branch lib c) sha
  | _ => True

theorem Made.later {sha : String} (made : Made lib g c sha) (extends_ : g.Extends next) : Made lib next c sha := by
  obtain ⟨commit,held,parents⟩ := made
  exact ⟨commit,extends_.grown sha commit held,parents⟩

theorem isSome_later {x : String} (known : (g.lineage.get x).isSome) (extends_ : g.Extends next) :
    (next.lineage.get x).isSome := by
  obtain ⟨commit,held⟩ := Option.isSome_iff_exists.mp known
  rw [extends_.grown x commit held]
  rfl

theorem Holds.later {point : PushPoint} (holds : Holds lib g c point) (extends_ : g.Extends next) :
    Holds lib next c point := by
  cases point with
  | blobs existing base todo entries => exact isSome_later holds extends_
  | commit existing tree => exact isSome_later holds extends_
  | ref existing sha => exact Made.later holds extends_
  | returned sha => exact ⟨holds.1.later extends_,extends_.onBranch holds.2⟩
  | matchingRefs => trivial
  | defaultRef => trivial
  | baseCommit existing => trivial
  | failed error => trivial

theorem holds_answeredBy {point : PushPoint} (holds : Holds lib g c point) : Holds lib g c (answeredBy reply point) := by
  unfold answeredBy
  split
  next => exact holds
  next => trivial

theorem holds_compared (existing : Bool) (remoteBase : String) : Holds lib g c (compared lib c existing remoteBase) := by
  unfold compared
  split
  next => trivial
  next => trivial

theorem holds_start : Holds lib g c (start c) := by
  unfold start
  split
  next => trivial
  next => trivial

theorem step_holds {point : PushPoint} (holds : Holds lib g c point)
    (accepted : reply.carriedOut = true → Accepted lib g c reply point) :
    g.Extends (step lib g r c reply point).1 ∧
      Holds lib (step lib g r c reply point).1 c (step lib g r c reply point).2 := by
  cases point with
  | matchingRefs =>
    refine ⟨.refl g,holds_answeredBy ?_⟩
    unfold matchingRefs
    split
    next => exact holds_compared true _
    next => trivial
  | defaultRef =>
    refine ⟨.refl g,holds_answeredBy ?_⟩
    unfold defaultRef
    split
    next => exact holds_compared false _
    next => trivial
  | baseCommit existing =>
    refine ⟨.refl g,holds_answeredBy ?_⟩
    unfold baseCommit
    split
    next => trivial
    next commit held =>
      have known : (g.lineage.get (baseOid lib c)).isSome := by
        rw [held]
        rfl
      split
      next => trivial
      next => exact known
      next => exact known
  | blobs existing base todo entries =>
    cases todo with
    | nil => exact ⟨.refl g,holds_answeredBy holds⟩
    | cons change todo =>
      refine ⟨.refl g,?_⟩
      change Holds lib g c (blob lib reply existing base change todo entries)
      unfold blob
      split
      next => trivial
      next =>
        split
        next => exact holds
        next => trivial
  | commit existing tree =>
    simp only [step]
    split
    next carried =>
      obtain ⟨given,own⟩ := accepted carried
      refine ⟨GitRepo.extends_store g _ _,holds_answeredBy ⟨_,GitRepo.get_store given ?_ own,rfl⟩⟩
      intro p listed
      cases List.mem_singleton.mp listed
      exact holds
    next => exact ⟨.refl g,trivial⟩
  | ref existing sha =>
    simp only [step]
    split
    next carried =>
      have accepted := accepted carried
      have descends : g.Descends (branch lib c) sha := by
        cases existing with
        | true => exact accepted
        | false =>
          intro head points
          exact absurd ((show g.refs (branch lib c) = none from accepted).symm.trans points) (by simp)
      have extends_ := GitRepo.extends_move descends
      obtain ⟨commit,held,parents⟩ := holds
      have known : (g.lineage.get sha).isSome := by
        rw [held]
        rfl
      refine ⟨extends_,holds_answeredBy ⟨⟨commit,extends_.grown sha commit held,parents⟩,?_⟩⟩
      exact GitRepo.onBranch_move known
    next => exact ⟨.refl g,trivial⟩
  | returned sha => exact ⟨.refl g,holds⟩
  | failed error => exact ⟨.refl g,trivial⟩

/-! A submission whose calls are all answered and that nothing comes between is `submit`. -/

variable (lib r c) in
def alone (sha : String) (x : GitRepo × PushPoint) : GitRepo × PushPoint := step lib x.1 r c ⟨true,true,sha⟩ x.2

variable (lib r c) in
def Leads (sha : String) (x y : GitRepo × PushPoint) : Prop := ∃ n, (alone lib r c sha)^[n] x = y

variable {sha : String} {x y : GitRepo × PushPoint}

theorem Leads.here : Leads lib r c sha x x := ⟨0,rfl⟩

theorem Leads.first (later : Leads lib r c sha (alone lib r c sha x) y) : Leads lib r c sha x y := by
  obtain ⟨n,reached⟩ := later
  exact ⟨n + 1,reached⟩

/-- The loop over the changes, as far as the first one that cannot become an entry. -/
theorem leads_blobs {existing : Bool} {base : GitTree} {todo : List Json} {entries : List GitEntry}
    (later : ∀ more, treeEntries lib.toLibrary todo = some more →
      Leads lib r c sha (g,.blobs existing base [] (entries ++ more)) y)
    (rejected : treeEntries lib.toLibrary todo = none →
      Leads lib r c sha (g,.failed (.gitHub ("content digest mismatch: " ++ rejectedPath lib todo))) y) :
    Leads lib r c sha (g,.blobs existing base todo entries) y := by
  induction todo generalizing entries with
  | nil => simpa using later [] rfl
  | cons change rest ih =>
    apply Leads.first
    change Leads lib r c sha (g,blob lib ⟨true,true,sha⟩ existing base change rest entries) y
    unfold blob
    cases built : treeEntry lib.toLibrary change with
    | none =>
      have path : rejectedPath lib (change::rest) = pathOf lib change := by
        simp only [rejectedPath,List.find?_cons,built,Option.isNone_none]
        cases change <;> rfl
      rw [← path]
      exact rejected (by simp [treeEntries,built])
    | some entry =>
      apply ih
      · intro more found
        have all : treeEntries lib.toLibrary (change::rest) = some (entry::more) := by
          simp [treeEntries,built,found]
        simpa using later (entry::more) all
      · intro missing
        have path : rejectedPath lib (change::rest) = rejectedPath lib rest := by
          simp only [rejectedPath,List.find?_cons,built,Option.isNone_some]
        rw [← path]
        exact rejected (by simp [treeEntries,built,missing])

/-- `prepared` once the base has been found to be the branch's own. -/
def fromBase (lib : TextLibrary) (g : GitRepo) (c : BrokerCall) : Except BackendError Commit := do
  let base ← fetch (g.lineage.get (baseOid lib c)) (.gitHub "gh: Not Found (HTTP 404)")
  let value ← required c.arguments "changes"
  let changes := match value with
    | .arr changes => changes
    | _ => []
  let entries ← fetch (treeEntries lib.toLibrary changes)
    (.gitHub ("content digest mismatch: " ++ rejectedPath lib changes))
  return made lib c (base.tree.apply entries)

def settled (sha : String) (out : Outcome GitRepo BackendError Fields) : GitRepo × PushPoint :=
  (out.state,match out.result with
    | .ok _ => .returned sha
    | .error e => .failed e)

theorem settled_failed {e : BackendError} (failed : prepared lib g r c = .error e) :
    settled sha (submit lib g r sha c) = (g,.failed e) := by
  simp [settled,submit,failed]

theorem settled_returned {commit : Commit} (ok : prepared lib g r c = .ok commit) :
    settled sha (submit lib g r sha c) = ((g.store sha commit).move (branch lib c) sha,.returned sha) := by
  simp [settled,submit,ok]

theorem leads_entries {existing : Bool} {commit : Commit} {changes : List Json}
    (tail : prepared lib g r c = (do
      let entries ← fetch (treeEntries lib.toLibrary changes)
        (.gitHub ("content digest mismatch: " ++ rejectedPath lib changes))
      return made lib c (commit.tree.apply entries))) :
    Leads lib r c sha (g,.blobs existing commit.tree changes []) (settled sha (submit lib g r sha c)) := by
  apply leads_blobs
  · intro more found
    rw [found] at tail
    rw [settled_returned tail]
    exact ⟨3,rfl⟩
  · intro missing
    rw [missing] at tail
    rw [settled_failed tail]
    exact .here

theorem leads_base {existing : Bool} (tail : prepared lib g r c = fromBase lib g c) :
    Leads lib r c sha (g,.baseCommit existing) (settled sha (submit lib g r sha c)) := by
  apply Leads.first
  change Leads lib r c sha (g,baseCommit lib g c existing) _
  unfold baseCommit
  unfold fromBase at tail
  split
  next missing =>
    rw [missing] at tail
    rw [settled_failed tail]
    exact .here
  next commit held =>
    rw [held] at tail
    split
    next e absent =>
      rw [absent] at tail
      rw [settled_failed tail]
      exact .here
    next changes given =>
      rw [given] at tail
      exact leads_entries tail
    next value other given =>
      rw [given] at tail
      apply leads_entries
      cases value with
      | arr changes => exact absurd rfl (other changes)
      | null => exact tail
      | bool value => exact tail
      | int value => exact tail
      | float => exact tail
      | str value => exact tail
      | obj value => exact tail

theorem leads_compared {existing : Bool} {base : String} (named : Json.has c.arguments "topic")
    (given : Json.has c.arguments "base_oid") (found : remoteBase lib g r c = .ok base) :
    Leads lib r c sha (g,compared lib c existing base) (settled sha (submit lib g r sha c)) := by
  have oid : (Json.get c.arguments "base_oid").text lib.render = baseOid lib c := rfl
  unfold compared
  split
  next fresh =>
    apply leads_base
    simp only [prepared,required,named,given,found,if_true,bind,Except.bind,require,oid,if_pos fresh]
    rfl
  next stale =>
    rw [settled_failed (e := .gitHub "submission base is stale; rematerialize before retrying")]
    · exact .here
    · simp only [prepared,required,named,given,found,if_true,bind,Except.bind,require,oid,if_neg stale]

/-- Alone, the calls of a submission do what `submit` does. -/
theorem alone_submit (sha : String) : Leads lib r c sha (g,start c) (settled sha (submit lib g r sha c)) := by
  by_cases named : Json.has c.arguments "topic"
  · by_cases given : Json.has c.arguments "base_oid"
    · have first : start c = .matchingRefs := by
        simp [start,required,named,given,bind,Except.bind]
      rw [first]
      apply Leads.first
      change Leads lib r c sha (g,matchingRefs lib g c) _
      unfold matchingRefs
      split
      next head points => exact leads_compared named given (by simp [remoteBase,points])
      next missing =>
        apply Leads.first
        change Leads lib r c sha (g,defaultRef lib g r c) _
        unfold defaultRef
        split
        next head points => exact leads_compared named given (by simp [remoteBase,missing,points,fetch])
        next none_ =>
          rw [settled_failed (e := .gitHub "gh: Not Found (HTTP 404)")]
          · exact .here
          · simp [prepared,required,named,given,remoteBase,missing,none_,fetch,bind,Except.bind]
    · have first : start c = .failed (.keyError "base_oid") := by
        simp [start,required,named,given,bind,Except.bind]
      rw [first,settled_failed (e := .keyError "base_oid")]
      · exact .here
      · simp [prepared,required,named,given,bind,Except.bind]
  · have first : start c = .failed (.keyError "topic") := by
      simp [start,required,named,bind,Except.bind]
    rw [first,settled_failed (e := .keyError "topic")]
    · exact .here
    · simp [prepared,required,named,bind,Except.bind]

end Push

namespace PushState
variable {b : Backend} {lib : TextLibrary} {s : PushState}

def Sound (lib : TextLibrary) (s : PushState) : Prop :=
  ∀ t ∈ s.threads, Push.Holds lib (s.git t.repo.slug) t.call t.point

theorem extends_update {g : GitRepo} {slug : String} (extends_ : (s.git slug).Extends g) (other : String) :
    (s.git other).Extends (Function.update s.git slug g other) := by
  by_cases same : other = slug
  · rw [same,Function.update_self]
    exact extends_
  · rw [Function.update_of_ne same]
    exact .refl _

theorem step_extends (sound : s.Sound lib) {action : PushAction} (accepts : s.Accepts lib action) (slug : String) :
    (s.git slug).Extends ((step b lib s action).git slug) := by
  cases action with
  | submit call =>
    simp only [step]
    split
    next => exact .refl _
    next => exact .refl _
  | advance i reply =>
    simp only [step]
    split
    next t found =>
      have holds := sound t (List.mem_of_getElem? found)
      exact extends_update (Push.step_holds holds (accepts t found)).1 slug
    next => exact .refl _
  | object at_ sha commit => exact extends_update (GitRepo.extends_store _ sha commit) slug
  | push at_ branch sha => exact extends_update (GitRepo.extends_move accepts) slug

theorem step_sound (sound : s.Sound lib) {action : PushAction} (accepts : s.Accepts lib action) :
    (step b lib s action).Sound lib := by
  have extends_ := @step_extends b lib s sound action accepts
  have stays {t : PushThread} (member : t ∈ s.threads) :
      Push.Holds lib ((step b lib s action).git t.repo.slug) t.call t.point := (sound t member).later (extends_ _)
  cases action with
  | submit call =>
    simp only [step] at stays ⊢
    split
    next repo named =>
      intro t member
      rcases List.mem_append.mp member with old | new
      · exact sound t old
      · cases List.mem_singleton.mp new
        exact Push.holds_start
    next => exact sound
  | advance i reply =>
    simp only [step] at stays ⊢
    split
    next t found =>
      rw [found] at stays
      intro other member
      rcases List.mem_or_eq_of_mem_set member with old | rfl
      · exact stays old
      · have holds := sound t (List.mem_of_getElem? found)
        have moved := (Push.step_holds (r := t.repo) holds (accepts t found)).2
        change Push.Holds lib (Function.update s.git t.repo.slug _ t.repo.slug) t.call _
        rw [Function.update_self]
        exact moved
    next => exact sound
  | object at_ sha commit => exact fun t member => stays member
  | push at_ branch sha => exact fun t member => stays member

theorem run_sound {actions : List PushAction} (sound : s.Sound lib) (accepts : Along (step b lib) (Accepts lib) s actions) :
    (run (step b lib) s actions).Sound lib :=
  @invariant_along _ _ (step b lib) _ (Sound lib) (fun _ _ sound accepts => step_sound sound accepts) s sound actions accepts

theorem run_extends {actions : List PushAction} (sound : s.Sound lib)
    (accepts : Along (step b lib) (Accepts lib) s actions) (slug : String) :
    (s.git slug).Extends ((run (step b lib) s actions).git slug) := by
  induction actions generalizing s with
  | nil => exact .refl _
  | cons action rest ih =>
    obtain ⟨first,later⟩ := (along_cons (step b lib)).mp accepts
    exact (step_extends sound first slug).trans (ih (step_sound sound first) later)

theorem starting_sound (git : String → GitRepo) : (starting git).Sound lib := fun t member => by cases member

/-- Every head of a branch stays on it, and so does the commit of every submission that
returned, whose one parent is the base it was made for. -/
theorem branches_append_only (b : Backend) (lib : TextLibrary) (git : String → GitRepo) (earlier later : List PushAction)
    (accepts : Along (step b lib) (Accepts lib) (starting git) (earlier ++ later)) :
    let before := run (step b lib) (starting git) earlier
    let after := run (step b lib) (starting git) (earlier ++ later)
    (∀ slug branch head, (before.git slug).refs branch = some head → (after.git slug).OnBranch branch head) ∧
      ∀ t ∈ before.threads, ∀ sha, t.point = .returned sha →
        (after.git t.repo.slug).OnBranch (branch lib t.call) sha ∧
          ∃ commit, (after.git t.repo.slug).lineage.get sha = some commit ∧
            commit.parents = [Push.baseOid lib t.call] := by
  obtain ⟨first,second⟩ := (along_append (step b lib)).mp accepts
  have sound := run_sound (starting_sound git) first
  have extends_ := run_extends sound second
  rw [run_append]
  constructor
  · intro slug branch head points
    exact (extends_ slug).onBranch ⟨head,points,Lineage.Reaches.refl _ head⟩
  · intro t member sha returned
    have holds := sound t member
    rw [returned] at holds
    obtain ⟨made,on⟩ := holds
    exact ⟨(extends_ _).onBranch on,made.later (extends_ _)⟩

/-! Two removals one after the other, the second on top of the first. -/

def onTop (g : GitRepo) (branch sha : String) : Bool :=
  match g.refs branch,g.lineage.get sha with
  | none,_ => true
  | some head,some commit => sha = head || head ∈ commit.parents
  | some head,none => sha = head

theorem descends_of_onTop {g : GitRepo} {branch sha : String} (ontop : onTop g branch sha = true) :
    g.Descends branch sha := by
  intro head points
  unfold onTop at ontop
  rw [points] at ontop
  cases held : g.lineage.get sha with
  | none =>
    rw [held] at ontop
    cases of_decide_eq_true ontop
    exact Lineage.Reaches.refl _ _
  | some commit =>
    rw [held] at ontop
    rcases (Bool.or_eq_true _ _).mp ontop with same | child
    · cases of_decide_eq_true same
      exact Lineage.Reaches.refl _ _
    · exact Relation.ReflTransGen.single ⟨commit,held,of_decide_eq_true child⟩

variable (lib s) in
/-- GitHub accepts these without a look at older commits. -/
def freshly : PushAction → Bool
  | .advance i reply =>
    match s.threads[i]? with
    | none => true
    | some t =>
      match t.point with
      | .commit _ _ => reply.sha ≠ "" && ((s.git t.repo.slug).lineage.get reply.sha).isNone
      | .ref true sha => onTop (s.git t.repo.slug) (branch lib t.call) sha
      | .ref false _ => ((s.git t.repo.slug).refs (branch lib t.call)).isNone
      | _ => true
  | .push slug branch sha => onTop (s.git slug) branch sha
  | _ => true

theorem accepts_of_freshly {action : PushAction} (fresh : freshly lib s action = true) : s.Accepts lib action := by
  cases action with
  | submit call => trivial
  | object slug sha commit => trivial
  | push slug branch sha => exact descends_of_onTop fresh
  | advance i reply =>
    intro t found carried
    have found : s.threads[i]? = some t := found
    simp only [freshly,found] at fresh
    unfold Push.Accepted
    split at fresh
    next existing tree at_ =>
      simp only [Bool.and_eq_true,decide_eq_true_eq] at fresh
      exact ⟨fresh.1,.inl (Option.isNone_iff_eq_none.mp fresh.2)⟩
    next sha at_ =>
      exact descends_of_onTop fresh
    next sha at_ =>
      exact Option.isNone_iff_eq_none.mp fresh
    next other_commit other_moved other_new =>
      cases at_ : t.point with
      | commit existing tree => exact absurd at_ (other_commit existing tree)
      | ref existing sha =>
        cases existing with
        | true => exact absurd at_ (other_moved sha)
        | false => exact absurd at_ (other_new sha)
      | _ => trivial

def removals : List PushAction :=
  [.submit (Submitted.removalCall "implementer-submit-0001" Submitted.zeroth "notes.md")]
    ++ List.replicate 7 (.advance 0 ⟨true,true,Submitted.first⟩)

def more : List PushAction :=
  [.submit (Submitted.removalCall "implementer-submit-0002" Submitted.first "draft.md")]
    ++ List.replicate 6 (.advance 1 ⟨true,true,Submitted.second⟩)

theorem branches_append_only_removals :
    let after := run (step Submitted.implementerBackend Served.quietLibrary) (starting (fun _ => Submitted.mainRepo))
      (removals ++ more)
    (after.git "example/org").OnBranch "agent/software-implementer/tidy" Submitted.first := by
  have accepts : Along (step Submitted.implementerBackend Served.quietLibrary) (Accepts Served.quietLibrary)
      (starting (fun _ => Submitted.mainRepo)) (removals ++ more) := by
    have fresh : Along (step Submitted.implementerBackend Served.quietLibrary)
        (fun s a => freshly Served.quietLibrary s a = true) (starting (fun _ => Submitted.mainRepo)) (removals ++ more) := by
      decide +kernel
    exact fun t member => accepts_of_freshly (fresh t member)
  refine (branches_append_only _ _ _ removals more accepts).1 "example/org" "agent/software-implementer/tidy" Submitted.first ?_
  decide +kernel

end PushState
end SjgControl

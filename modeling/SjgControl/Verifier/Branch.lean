import SjgControl.GitHubSubmit
import SjgControl.Verifier.Scope

/-! What the head of a branch says of the submissions made to it. A run is a history of
accepted submissions to any branches; each is stopped before its commit is made, makes the
commit and is stopped before the branch is moved, or moves the branch. -/
namespace SjgControl
open Relational PythonText Backend Machine

namespace GitRepo
variable {g : GitRepo} {sha branch : String} {c : Commit}

theorem refs_store (g : GitRepo) (sha : String) (c : Commit) : (g.store sha c).refs = g.refs := by
  unfold store
  split <;> rfl

theorem lineage_store (given : sha ≠ "") : (g.store sha c).lineage = g.lineage.add sha c := by
  unfold store
  rw [dif_pos given]

theorem lineage_move (g : GitRepo) (branch sha : String) : (g.move branch sha).lineage = g.lineage := by
  unfold move
  split <;> rfl

theorem refs_move (known : (g.lineage.get sha).isSome) :
    (g.move branch sha).refs = Function.update g.refs branch (some sha) := by
  unfold move
  rw [dif_pos known]

theorem head_ne (points : g.refs branch = some sha) : sha ≠ "" := by
  intro empty
  have known := g.resolved branch sha points
  rw [empty,g.named] at known
  cases known

theorem onBranch_store (given : sha ≠ "") (fits : g.lineage.Fits sha c) (x : String) :
    (g.store sha c).OnBranch branch x ↔ g.OnBranch branch x := by
  unfold OnBranch
  rw [refs_store,lineage_store given]
  refine exists_congr (fun head => and_congr_right (fun points => ?_))
  exact Lineage.reaches_add_old fits (g.resolved branch head points)

theorem OnBranch.present {x : String} (held : g.OnBranch branch x) : (g.lineage.get x).isSome := by
  obtain ⟨head,points,reached⟩ := held
  exact reached.present (g.resolved branch head points)

theorem dangling_store (given : sha ≠ "") (fits : g.lineage.Fits sha c) : (g.store sha c).Dangling sha := by
  refine ⟨?_,?_⟩
  · rw [lineage_store given,Lineage.get_add fits,if_pos rfl]
    rfl
  · intro branch held
    have before := (onBranch_store given fits sha).mp held
    exact fits.apart before.present rfl

end GitRepo

namespace Backend
variable {lib : TextLibrary} {g : GitRepo} {r : Repository} {c : BrokerCall} {commit : Commit} {sha : String}

/-- The branch whose head a submission builds on. -/
def source (lib : TextLibrary) (g : GitRepo) (r : Repository) (c : BrokerCall) : String :=
  if (g.refs (branch lib c)).isSome then branch lib c else r.defaultBranch

theorem remoteBase_ok {base : String} (ok : remoteBase lib g r c = .ok base) : g.refs (source lib g r c) = some base := by
  unfold remoteBase at ok
  unfold source
  split at ok
  next head points =>
    cases ok
    rw [if_pos (by rw [points]; rfl)]
    exact points
  next missing =>
    rw [if_neg (by rw [missing]; exact Bool.false_ne_true)]
    cases points : g.refs r.defaultBranch with
    | none =>
      rw [points] at ok
      cases ok
    | some head =>
      rw [points] at ok
      cases ok
      rfl

theorem prepared_ok (ok : prepared lib g r c = .ok commit) : commit.message = commitMessage lib c ∧
    ∃ base, commit.parents = [base] ∧ g.refs (source lib g r c) = some base := by
  simp only [prepared,bind_ok] at ok
  obtain ⟨_,_,oid,_,remote,found,_,checked,base,_,_,_,entries,_,equal⟩ := ok
  cases pure_ok.mp equal
  obtain ⟨_,same⟩ := require_ok.mp checked
  refine ⟨rfl,_,rfl,?_⟩
  rw [← same]
  exact remoteBase_ok found

theorem fits_of_prepared (ok : prepared lib g r c = .ok commit) (fresh : g.lineage.get sha = none) :
    g.lineage.Fits sha commit := by
  obtain ⟨_,base,parents,points⟩ := prepared_ok ok
  refine ⟨by rw [fresh]; rfl,?_⟩
  intro p listed
  rw [parents] at listed
  cases List.mem_singleton.mp listed
  exact g.resolved _ _ points

theorem onBranch_submit (ok : prepared lib g r c = .ok commit) (given : sha ≠ "")
    (fresh : g.lineage.get sha = none) (other x : String) :
    (submit lib g r sha c).state.OnBranch other x ↔
      if other = branch lib c then x = sha ∨ g.OnBranch (source lib g r c) x else g.OnBranch other x := by
  have fits := fits_of_prepared ok fresh
  obtain ⟨_,base,parents,points⟩ := prepared_ok ok
  have known : ((g.store sha commit).lineage.get sha).isSome := by
    rw [GitRepo.lineage_store given,Lineage.get_add fits,if_pos rfl]
    rfl
  unfold submit
  rw [ok]
  change ((g.store sha commit).move (branch lib c) sha).OnBranch other x ↔ _
  split
  next here =>
    unfold GitRepo.OnBranch
    rw [GitRepo.refs_move known,GitRepo.lineage_move,GitRepo.lineage_store given,here,Function.update_self]
    simp only [Option.some.injEq,exists_eq_left']
    rw [Lineage.reaches_add_new fits,parents,points]
    simp
  next elsewhere =>
    rw [← GitRepo.onBranch_store given fits]
    unfold GitRepo.OnBranch
    rw [GitRepo.refs_move known,GitRepo.lineage_move,Function.update_of_ne elsewhere]

theorem tip_store (given : sha ≠ "") (fits : g.lineage.Fits sha commit) (other : String) :
    (g.store sha commit).tip other = g.tip other := by
  unfold GitRepo.tip
  rw [GitRepo.refs_store,GitRepo.lineage_store given]
  cases points : g.refs other with
  | none => rfl
  | some head =>
    have apart := fits.apart (g.resolved other head points)
    simp [Lineage.get_add fits,apart]

theorem tip_submit (ok : prepared lib g r c = .ok commit) (given : sha ≠ "")
    (fresh : g.lineage.get sha = none) (other : String) :
    (submit lib g r sha c).state.tip other = if other = branch lib c then some (commitMessage lib c) else g.tip other := by
  have fits := fits_of_prepared ok fresh
  have own : (g.store sha commit).lineage.get sha = some commit := by
    rw [GitRepo.lineage_store given,Lineage.get_add fits,if_pos rfl]
  have known : ((g.store sha commit).lineage.get sha).isSome := by
    rw [own]
    rfl
  rw [← tip_store given fits]
  unfold submit GitRepo.tip
  rw [ok]
  dsimp only
  rw [GitRepo.refs_move known,GitRepo.lineage_move]
  split
  next here =>
    rw [here,Function.update_self]
    simp [own,(prepared_ok ok).1]
  next elsewhere =>
    rw [Function.update_of_ne elsewhere]

end Backend

/-- How far a submission came. -/
inductive Progress where
  | stopped
  | committed (sha : String)
  | moved (sha : String)

namespace Progress

def commit : Progress → Option String
  | .stopped => none
  | .committed sha | .moved sha => some sha

def done : Progress → Bool
  | .moved _ => true
  | _ => false

end Progress

structure Submitted where
  call : BrokerCall
  progress : Progress

namespace Submitted
variable (b : Backend) (lib : TextLibrary)

def stepAt (g : GitRepo) (r : Repository) (e : Submitted) : GitRepo :=
  match e.progress with
  | .stopped => g
  | .committed sha =>
    match prepared lib g r e.call with
    | .error _ => g
    | .ok commit => g.store sha commit
  | .moved sha => (submit lib g r sha e.call).state

def step (git : String → GitRepo) (e : Submitted) : String → GitRepo :=
  match b.repo lib e.call.arguments with
  | .error _ => git
  | .ok r => Function.update git r.slug (stepAt lib (git r.slug) r e)

structure Legitimate (git : String → GitRepo) (e : Submitted) : Prop where
  conforms : requestId e.call.key
  authorized : authorizeSubmit lib.toLibrary b.policy e.call.session e.call.arguments = .ok ()
  carried : ∀ r, b.repo lib e.call.arguments = .ok r → ∀ sha ∈ e.progress.commit,
    sha ≠ "" ∧ (git r.slug).lineage.get sha = none ∧ ∃ commit, prepared lib (git r.slug) r e.call = .ok commit

def place (e : Submitted) : Option (String × String) :=
  (b.repo lib e.call.arguments).toOption.map (fun r => (r.slug,branch lib e.call))

def Landed (git : String → GitRepo) (e : Submitted) : Prop :=
  ∃ p ∈ place b lib e, ∃ sha ∈ e.progress.commit, (git p.1).OnBranch p.2 sha

def moves (p : String × String) (e : Submitted) : Bool := e.progress.done && decide (place b lib e = some p)

variable {b lib} {git start : String → GitRepo} {e : Submitted} {history : List Submitted}

theorem Legitimate.repo (legal : Legitimate b lib git e) : ∃ r, b.repo lib e.call.arguments = .ok r := by
  obtain ⟨_,valid,_⟩ := bind_ok.mp legal.authorized
  exact repo_of_validated valid

theorem step_of_repo {r : Repository} (named : b.repo lib e.call.arguments = .ok r) :
    step b lib git e = Function.update git r.slug (stepAt lib (git r.slug) r e) := by
  unfold step
  rw [named]

theorem onBranch_stepAt {r : Repository} (legal : Legitimate b lib git e)
    (named : b.repo lib e.call.arguments = .ok r) (other x : String) :
    (stepAt lib (git r.slug) r e).OnBranch other x ↔ if e.progress.done ∧ other = branch lib e.call then
      e.progress.commit = some x ∨ (git r.slug).OnBranch (source lib (git r.slug) r e.call) x
      else (git r.slug).OnBranch other x := by
  have carried := legal.carried r named
  unfold stepAt
  cases reached : e.progress with
  | stopped => simp [Progress.done]
  | committed sha =>
    obtain ⟨given,fresh,commit,ok⟩ := carried sha (by rw [reached]; rfl)
    simp only [ok,Progress.done,Bool.false_eq_true,false_and,if_false]
    exact GitRepo.onBranch_store given (fits_of_prepared ok fresh) x
  | moved sha =>
    obtain ⟨given,fresh,commit,ok⟩ := carried sha (by rw [reached]; rfl)
    simp only [Progress.done,Progress.commit,true_and,Option.some.injEq]
    rw [onBranch_submit ok given fresh,eq_comm (a := x)]

theorem tip_stepAt {r : Repository} (legal : Legitimate b lib git e)
    (named : b.repo lib e.call.arguments = .ok r) (other : String) :
    (stepAt lib (git r.slug) r e).tip other = if e.progress.done ∧ other = branch lib e.call then
      some (commitMessage lib e.call) else (git r.slug).tip other := by
  have carried := legal.carried r named
  unfold stepAt
  cases reached : e.progress with
  | stopped => simp [Progress.done]
  | committed sha =>
    obtain ⟨given,fresh,commit,ok⟩ := carried sha (by rw [reached]; rfl)
    simp only [ok,Progress.done,Bool.false_eq_true,false_and,if_false]
    exact tip_store given (fits_of_prepared ok fresh) other
  | moved sha =>
    obtain ⟨given,fresh,commit,ok⟩ := carried sha (by rw [reached]; rfl)
    simp only [Progress.done,true_and]
    exact tip_submit ok given fresh other

theorem place_eq {r : Repository} (named : b.repo lib e.call.arguments = .ok r) :
    place b lib e = some (r.slug,branch lib e.call) := by
  unfold place
  rw [named]
  rfl

theorem tip_step (legal : Legitimate b lib git e) (p : String × String) :
    (step b lib git e p.1).tip p.2 =
      if moves b lib p e then some (commitMessage lib e.call) else (git p.1).tip p.2 := by
  obtain ⟨r,named⟩ := legal.repo
  obtain ⟨slug,other⟩ := p
  unfold moves
  rw [step_of_repo named,place_eq named]
  by_cases here : slug = r.slug
  · subst here
    rw [Function.update_self,tip_stepAt legal named]
    simp [@eq_comm _ other]
  · rw [Function.update_of_ne here]
    simp [Ne.symm here]

theorem onBranch_step (legal : Legitimate b lib git e) {slug other x : String}
    (held : (git slug).OnBranch other x) : (step b lib git e slug).OnBranch other x := by
  obtain ⟨r,named⟩ := legal.repo
  rw [step_of_repo named]
  by_cases here : slug = r.slug
  · subst here
    rw [Function.update_self,onBranch_stepAt legal named]
    split
    next moved =>
      have points : ((git r.slug).refs (branch lib e.call)).isSome := by
        obtain ⟨head,points,_⟩ := held
        rw [← moved.2,points]
        rfl
      unfold source
      rw [if_pos points,← moved.2]
      exact .inr held
    next => exact held
  · rw [Function.update_of_ne here]
    exact held

theorem isSome_stepAt {r : Repository} {x : String} (known : ((git r.slug).lineage.get x).isSome) :
    ((stepAt lib (git r.slug) r e).lineage.get x).isSome := by
  have stored (sha : String) (c : Commit) : (((git r.slug).store sha c).lineage.get x).isSome := by
    unfold GitRepo.store
    split
    next => exact Lineage.isSome_add known
    next => exact known
  unfold stepAt
  split
  next => exact known
  next sha _ =>
    split
    next => exact known
    next commit _ => exact stored sha commit
  next sha _ =>
    unfold submit
    split
    next => exact known
    next commit _ =>
      rw [GitRepo.lineage_move]
      exact stored sha commit

theorem dangling_step (legal : Legitimate b lib git e) {slug x : String} (loose : (git slug).Dangling x) :
    (step b lib git e slug).Dangling x := by
  obtain ⟨r,named⟩ := legal.repo
  rw [step_of_repo named]
  by_cases here : slug = r.slug
  · subst here
    rw [Function.update_self]
    refine ⟨isSome_stepAt loose.1,?_⟩
    intro other held
    rw [onBranch_stepAt legal named] at held
    split at held
    next =>
      rcases held with own | before
      · obtain ⟨_,fresh,_⟩ := legal.carried r named x own
        have known := loose.1
        rw [fresh] at known
        cases known
      · exact loose.2 _ before
    next => exact loose.2 other held
  · rw [Function.update_of_ne here]
    exact loose

theorem onBranch_run (legal : Along (step b lib) (Legitimate b lib) git history) {slug other x : String}
    (held : (git slug).OnBranch other x) : (run (step b lib) git history slug).OnBranch other x :=
  invariant_along (step b lib) (fun _ _ held legal => onBranch_step legal held) held legal

theorem dangling_run (legal : Along (step b lib) (Legitimate b lib) git history) {slug x : String}
    (loose : (git slug).Dangling x) : (run (step b lib) git history slug).Dangling x :=
  invariant_along (step b lib) (fun _ _ loose legal => dangling_step legal loose) loose legal

/-- Right after its step, the commit of a submission is on its branch or on none. -/
theorem placed_step (legal : Legitimate b lib git e) {r : Repository} (named : b.repo lib e.call.arguments = .ok r)
    {sha : String} (made : e.progress.commit = some sha) :
    if e.progress.done then (step b lib git e r.slug).OnBranch (branch lib e.call) sha
    else (step b lib git e r.slug).Dangling sha := by
  rw [step_of_repo named,Function.update_self]
  split
  next moved =>
    rw [onBranch_stepAt legal named,if_pos ⟨moved,rfl⟩]
    exact .inl made
  next still =>
    obtain ⟨given,fresh,commit,ok⟩ := legal.carried r named sha made
    unfold stepAt
    cases reached : e.progress with
    | stopped =>
      rw [reached] at made
      cases made
    | moved =>
      rw [reached] at still
      exact absurd rfl still
    | committed own =>
      rw [reached] at made
      cases made
      rw [ok]
      exact GitRepo.dangling_store given (fits_of_prepared ok fresh)

theorem landed_at {r : Repository} (named : b.repo lib e.call.arguments = .ok r) :
    Landed b lib git e ↔ ∃ sha ∈ e.progress.commit, (git r.slug).OnBranch (branch lib e.call) sha := by
  unfold Landed
  rw [place_eq named]
  simp

/-- In the end, the commits on the branches are those of the submissions that moved one. -/
theorem landed_iff (legal : Along (step b lib) (Legitimate b lib) start history) (member : e ∈ history) :
    Landed b lib (run (step b lib) start history) e ↔ e.progress.done := by
  induction history generalizing start with
  | nil => cases member
  | cons first rest ih =>
    obtain ⟨here,later⟩ := (along_cons (step b lib)).mp legal
    rw [run_cons]
    rcases List.mem_cons.mp member with rfl | inside
    · obtain ⟨r,named⟩ := here.repo
      rw [landed_at named]
      cases made : e.progress.commit with
      | none =>
        have still : ¬ e.progress.done := by
          intro moved
          cases reached : e.progress <;> simp_all [Progress.done,Progress.commit]
        simp [still]
      | some sha =>
        have placed := placed_step here named made
        simp only [Option.mem_some_iff,exists_eq_left']
        split at placed
        next moved => exact iff_of_true (onBranch_run later placed) moved
        next still => exact iff_of_false ((dangling_run later placed).2 _) still
    · exact ih later inside

theorem tip_run (legal : Along (step b lib) (Legitimate b lib) start history) (p : String × String) :
    (run (step b lib) start history p.1).tip p.2 =
      (((history.filter (moves b lib p)).getLast?.map (fun last => commitMessage lib last.call)).or
        ((start p.1).tip p.2)) := by
  induction history using List.reverseRecOn with
  | nil => rfl
  | append_singleton front last ih =>
    obtain ⟨earlier,final⟩ := (along_append (step b lib)).mp legal
    have here := ((along_cons (step b lib)).mp final).1
    rw [run_append,run_cons,run_nil,tip_step here,ih earlier]
    by_cases moved : moves b lib p last
    · simp [moved,List.filter_append]
    · simp [moved,List.filter_append]

end Submitted
end SjgControl

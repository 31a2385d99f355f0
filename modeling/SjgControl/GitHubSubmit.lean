import Mathlib.Logic.Function.Basic
import SjgControl.Lineage
import SjgControl.Submission
import SjgControl.Verifier

/-! `repo.submit`: the commit that `_submit` makes of a request, the branch it moves, and what
`verify_broker` reads there. -/
namespace SjgControl
open Relational PythonText

structure Commit where
  message : String
  parents : List String
  tree : GitTree

/-- The Git data of a repository on GitHub. A branch points to a commit that is there. -/
structure GitRepo where
  lineage : Lineage String Commit Commit.parents
  refs : String → Option String
  resolved : ∀ branch sha, refs branch = some sha → (lineage.get sha).isSome
  named : lineage.get "" = none

namespace GitRepo

/-- `git/commits`: an object is stored under an identity of its own. -/
def store (g : GitRepo) (sha : String) (c : Commit) : GitRepo :=
  if given : sha ≠ "" then
    { g with
      lineage := g.lineage.add sha c
      resolved := fun branch head points => Lineage.isSome_add (g.resolved branch head points)
      named := by
        by_cases fits : g.lineage.Fits sha c
        · rw [Lineage.get_add fits,if_neg given.symm]
          exact g.named
        · unfold Lineage.add
          rw [dif_neg fits]
          exact g.named }
  else g

/-- `git/refs`, and `git/refs/heads/{branch}` with a fast-forward. -/
def move (g : GitRepo) (branch sha : String) : GitRepo :=
  if known : (g.lineage.get sha).isSome then
    { g with
      refs := Function.update g.refs branch (some sha)
      resolved := by
        intro other head points
        by_cases same : other = branch
        · rw [same,Function.update_self] at points
          cases points
          exact known
        · rw [Function.update_of_ne same] at points
          exact g.resolved other head points }
  else g

def tip (g : GitRepo) (branch : String) : Option String := do
  let sha ← g.refs branch
  let commit ← g.lineage.get sha
  return commit.message

/-- The branch points to the commit or to a descendant of it. -/
def OnBranch (g : GitRepo) (branch sha : String) : Prop :=
  ∃ head, g.refs branch = some head ∧ g.lineage.Reaches head sha

def Dangling (g : GitRepo) (sha : String) : Prop :=
  (g.lineage.get sha).isSome ∧ ∀ branch, ¬ g.OnBranch branch sha

end GitRepo

def trailerOf (key : String) : String := "SJG-Idempotency: " ++ key

namespace Backend

def topic (lib : TextLibrary) (c : BrokerCall) : String := (Json.get c.arguments "topic").text lib.render

def submissionText (lib : TextLibrary) (c : BrokerCall) : String :=
  textOrElse lib c.arguments "message" ("Agent submission: " ++ topic lib c)

def commitMessage (lib : TextLibrary) (c : BrokerCall) : String :=
  submissionText lib c ++ "\n\n" ++ trailerOf c.key

/-- The branch's own head, or the default branch's where the branch is new. -/
def remoteBase (lib : TextLibrary) (g : GitRepo) (r : Repository) (c : BrokerCall) : Except BackendError String :=
  match g.refs (branch lib c) with
  | some sha => .ok sha
  | none => fetch (g.refs r.defaultBranch) (.gitHub "gh: Not Found (HTTP 404)")

def rejectedPath (lib : TextLibrary) (changes : List Json) : String :=
  match changes.find? (fun change => (treeEntry lib.toLibrary change).isNone) with
  | some (.obj change) => (Json.get change "path").text lib.render
  | _ => ""

def prepared (lib : TextLibrary) (g : GitRepo) (r : Repository) (c : BrokerCall) : Except BackendError Commit := do
  let _ ← required c.arguments "topic"
  let oid ← required c.arguments "base_oid"
  let baseOid := oid.text lib.render
  let remote ← remoteBase lib g r c
  require (remote ≠ "" ∧ remote = baseOid) (.gitHub "submission base is stale; rematerialize before retrying")
  let base ← fetch (g.lineage.get baseOid) (.gitHub "gh: Not Found (HTTP 404)")
  let value ← required c.arguments "changes"
  -- the authorization lets lists alone through
  let changes := match value with
    | .arr changes => changes
    | _ => []
  let entries ← fetch (treeEntries lib.toLibrary changes)
    (.gitHub ("content digest mismatch: " ++ rejectedPath lib changes))
  return ⟨commitMessage lib c,[baseOid],base.tree.apply entries⟩

/-- `_submit`, where GitHub gives the commit the identity `sha`. -/
def submit (lib : TextLibrary) (g : GitRepo) (r : Repository) (sha : String) (c : BrokerCall) :
    Outcome GitRepo BackendError Fields :=
  match prepared lib g r c with
  | .error e => ⟨.error e,g⟩
  | .ok commit =>
    ⟨.ok [("repository",.str r.slug),("branch",.str (branch lib c)),("sha",.str sha)],
      (g.store sha commit).move (branch lib c) sha⟩

/-- `verify_broker` on `repo.submit`; `role` is the one of the request's session. -/
def verifySubmit (b : Backend) (lib : TextLibrary) (git : String → GitRepo) (arguments : Fields) (role key : String) :
    Except BackendError Verification := do
  let repo ← b.repo lib arguments
  if role = "" then return ⟨.unknown,none,some "persisted request lacks its bound role"⟩
  else
    let g := git repo.slug
    return match g.refs ("agent/" ++ role ++ "/" ++ textArgument lib arguments "topic") with
      | none => Verification.undecided (.gitHub "gh: Not Found (HTTP 404)")
      | some sha =>
        if sha = "" then ⟨.absent,none,none⟩
        else match g.lineage.get sha with
          | none => Verification.undecided (.gitHub "gh: Not Found (HTTP 404)")
          | some commit =>
            if contains commit.message (trailerOf key) then
              ⟨.present,some [("repository",.str repo.slug),("sha",.str sha)],none⟩
            else ⟨.absent,none,none⟩

end Backend
end SjgControl

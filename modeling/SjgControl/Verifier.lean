import SjgControl.Broker.Finality
import SjgControl.GitHubBackend

/-! `verify_broker` on the operations whose writes carry the marker of their key. -/
namespace SjgControl
open Relational PythonText

namespace Verification

def proved (matches_ : List Fields) (result : Fields → Fields) : Verification :=
  match matches_ with
  | [] => ⟨.absent,none,none⟩
  | [item] => ⟨.present,some (result item),none⟩
  | _::_::_ => ⟨.conflict,none,some "multiple remote effects carry one idempotency marker"⟩

def undecided (e : BackendError) : Verification := ⟨.unknown,none,some e.text⟩

theorem proved_proof (matches_ : List Fields) (result : Fields → Fields) :
    (proved matches_ result).proof =
      if matches_.length = 0 then .absent else if matches_.length = 1 then .present else .conflict := by
  match matches_ with
  | [] => rfl
  | [_] => rfl
  | _::_::_ => simp [proved]

end Verification

namespace Backend
open Verification

/-- `marker in str(item.get("body") or "")`. -/
def bears (lib : TextLibrary) (key : String) (item : Fields) : Bool := contains (bodyOf lib item) (markerOf key)

def isPull (item : Fields) : Bool := (Json.get item "pull_request").truthy

/-- `str((item.get("head") or {}).get("ref") or "")`. -/
def headRef (lib : TextLibrary) (item : Fields) : String :=
  match Json.get item "head" with
  | .obj head => textArgument lib head "ref"
  | _ => ""

def created (item : Fields) : Fields := [("number",Json.get item "number"),("url",Json.get item "html_url")]

def commented (item : Fields) : Fields := [("comment_id",Json.get item "id")]

def reviewed (item : Fields) : Fields := [("review_id",Json.get item "id"),("state",Json.get item "state")]

/-- `verify_broker` on the operations of `marked`; `role` is the one of the request's session. -/
def verifyBroker (b : Backend) (lib : TextLibrary) (remote : GitHub) (operation : String) (arguments : Fields)
    (role key : String) : Except BackendError Verification := do
  let repo ← b.repo lib arguments
  if operation = "pm.issue.create" then
    return proved ((remote.listedIssues repo.slug).filter (fun item => !isPull item && bears lib key item)) created
  else if operation = "pm.issue.comment" ∨ operation = "pr.comment" then
    return match number lib arguments ["id","issue","pr"] with
      | .error e => undecided e
      | .ok number => proved ((remote.comments repo.slug number).filter (bears lib key)) commented
  else if operation = "pr.create" then
    let branch := "agent/" ++ role ++ "/" ++ formatted lib arguments "topic"
    return proved ((remote.pulls repo.slug).filter (fun item =>
      bears lib key item && (decide (role = "") || decide (headRef lib item = branch)))) created
  else
    return match number lib arguments ["id","pr"] with
      | .error e => undecided e
      | .ok number => proved ((remote.reviews repo.slug number).filter (bears lib key)) reviewed

end Backend
end SjgControl

import SjgControl.FileSystem
import SjgControl.PosixPath
import SjgControl.Relational.Transaction

/-! The workspace that a provider may be launched in. -/
namespace SjgControl
open Relational PosixPath

inductive ProviderException where
  | policy (message : String)
  deriving DecidableEq

namespace ProviderPolicy

def gitName : Name := ".git".toList

/-- What may not stand right below a workspace. -/
def forbidden : List (List Name) :=
  [[".env"],[".git-credentials"],[".npmrc"],[".pypirc"],[".mcp.json"],[".codex","config.toml"],[".claude","settings.json"],
    [".claude","settings.local.json"]].map (fun names => names.map String.toList)

/-- What may not stand anywhere below one. -/
def authorityTails : List (List Name) :=
  [[".codex","config.toml"],[".claude","settings.json"],[".claude","settings.local.json"]].map (fun names => names.map String.toList)

def localAuthority (p : List Name) : Prop :=
  (∃ name ∈ p.getLast?, name = ".env".toList ∨ ".env.".toList <+: name) ∨ p ∈ forbidden ∨
    ∃ tail ∈ authorityTails, tail <:+ p ∧ tail ≠ p

instance : DecidablePred localAuthority := fun p => inferInstanceAs (Decidable
  ((∃ name ∈ p.getLast?, name = ".env".toList ∨ ".env.".toList <+: name) ∨ p ∈ forbidden ∨
    ∃ tail ∈ authorityTails, tail <:+ p ∧ tail ≠ p))

/-- The walk does not go down into the repository's own directory. -/
def visited (p : List Name) : Prop := p = [gitName] ∨ p.head? ≠ some gitName

instance : DecidablePred visited := fun p => inferInstanceAs (Decidable (p = [gitName] ∨ p.head? ≠ some gitName))

def workspaceFault (item : List Name × Disk.Node) : Option String :=
  match item.2 with
  | .link => some ("provider workspace contains a symlink: " ++ String.ofList (join item.1))
  | .directory _ => none
  | .file _ _ _ | .special =>
    if localAuthority item.1 then some ("provider workspace contains forbidden local authority: " ++ String.ofList (join item.1))
    else none

/-- The walk over what stands below a directory. -/
def checkEntries (entries : List (List Name × Disk.Node)) : Except ProviderException Unit :=
  match (entries.filter (fun item => visited item.1)).findSome? workspaceFault with
  | some message => .error (.policy message)
  | none => .ok ()

def validateWorkspace (disk : Disk.FileSystem Name) (path : String) : Except ProviderException (List Name) := do
  require (disk.present (parts path.toList)) (.policy ("provider workspace is absent: " ++ path))
  let base := disk.follow (parts path.toList)
  require (base = [] ∨ disk.isDirectory base) (.policy "provider workspace must be a directory")
  checkEntries (disk.tree.below base)
  return base

end ProviderPolicy
end SjgControl

import SjgControl.Authorization
import SjgControl.FileTree

/-! The tree that a submission makes of its base, and the protected surfaces in it. The
guard compares texts of changed paths; the effect of a change reaches above and below. -/
namespace SjgControl
open Relational FileTree

structure File where
  mode : String
  content : Bytes
  deriving DecidableEq

abbrev GitTree := Tree PosixPath.Name File
abbrev GitEntry := Entry PosixPath.Name File

/-- The entry `_submit` appends for a change. `none` is a submission that raises before a
tree is made: a digest that does not match, or an entry the trees API cannot read. -/
def treeEntry (lib : Library) : Json → Option GitEntry
  | .obj change =>
    match Json.get change "operation",Json.get change "path" with
    | .str "delete",.str raw => some ⟨PosixPath.split raw.toList,none⟩
    | _,.str raw =>
      match Json.get change "content_base64",Json.get change "sha256",Json.get change "mode" with
      | .str encoded,.str digest,.str mode =>
        match lib.b64decode encoded with
        | some data =>
          if lib.sha256 data = digest then some ⟨PosixPath.split raw.toList,some ⟨mode,data⟩⟩ else none
        | none => none
      | _,_,_ => none
    | _,_ => none
  | _ => none

def treeEntries (lib : Library) : List Json → Option (List GitEntry)
  | [] => some []
  | change::rest =>
    match treeEntry lib change,treeEntries lib rest with
    | some entry,some entries => some (entry::entries)
    | _,_ => none

def actionFile : PosixPath.Name := "action.yml".toList

/-- Files under `.github/workflows/` and `.github/actions/`, `.gitmodules`, and every file
named `action.yml`. -/
def Protected (p : List PosixPath.Name) : Prop :=
  (∃ rest, rest ≠ [] ∧ p = [".github".toList,"workflows".toList] ++ rest) ∨
    (∃ rest, rest ≠ [] ∧ p = [".github".toList,"actions".toList] ++ rest) ∨
    p = [".gitmodules".toList] ∨ p.getLast? = some actionFile

def target : Json → List PosixPath.Name
  | .obj change =>
    match Json.get change "path" with
    | .str raw => PosixPath.split raw.toList
    | _ => []
  | _ => []

def supplied (lib : Library) : Json → Option File
  | .obj change =>
    match Json.get change "operation" with
    | .str "delete" => none
    | _ =>
      match Json.get change "content_base64",Json.get change "mode" with
      | .str encoded,.str mode => (lib.b64decode encoded).map (fun data => ⟨mode,data⟩)
      | _,_ => none
  | _ => none

def requested (lib : Library) (change : Json) : GitEntry := ⟨target change,supplied lib change⟩

/-- No change names, stands above or puts a file below a protected file of the base other
than the root's `action.yml`, and the last change that does so to that one leaves there
what the base holds. -/
def Spared (lib : Library) (base : GitTree) (changes : List Json) : Prop :=
  (∀ p, Protected p → p ≠ [actionFile] → base.get p ≠ none →
      ∀ change ∈ changes, ¬ (requested lib change).touches p) ∧
    ∀ change, (changes.filter (fun change => (requested lib change).touches [actionFile])).getLast? = some change →
      (requested lib change).outcome [actionFile] = base.get [actionFile]

theorem treeEntry_some {lib : Library} {change : Json} {e : GitEntry}
    (built : treeEntry lib change = some e) : e = requested lib change := by
  unfold treeEntry at built
  unfold requested target supplied
  grind

theorem treeEntries_some {lib : Library} {changes : List Json} {entries : List GitEntry}
    (built : treeEntries lib changes = some entries) : entries = changes.map (requested lib) := by
  induction changes generalizing entries with
  | nil =>
    cases built
    rfl
  | cons change rest ih =>
    unfold treeEntries at built
    split at built
    next e others first later =>
      cases built
      rw [treeEntry_some first,ih later]
      rfl
    next => cases built

/-- Of the protected paths, the guard lets through the `action.yml` of the root only. -/
theorem protectedPath_join {p : List PosixPath.Name} (guarded : Protected p) (other : p ≠ [actionFile]) :
    protectedPath (PosixPath.join p) := by
  rcases guarded with ⟨rest,some_,rfl⟩ | ⟨rest,some_,rfl⟩ | rfl | last
  · right
    refine ⟨".github/workflows/",by decide,.inr ⟨PosixPath.join rest,?_⟩⟩
    rw [PosixPath.join_append (by simp) some_]
    rfl
  · right
    refine ⟨".github/actions/",by decide,.inr ⟨PosixPath.join rest,?_⟩⟩
    rw [PosixPath.join_append (by simp) some_]
    rfl
  · exact .inl (.inl rfl)
  · left
    right
    obtain ⟨front,rfl⟩ := List.getLast?_eq_some_iff.mp last
    have some_ : front ≠ [] := by
      rintro rfl
      exact other rfl
    rw [PosixPath.join_append some_ (by simp)]
    exact ⟨PosixPath.join front,by rfl⟩

theorem safeChange_ok {lib : Library} {seen next : List String} {change : Json}
    (ok : safeChange lib seen change = .ok next) : ¬ protectedPath (PosixPath.join (target change)) := by
  unfold safeChange at ok
  split at ok
  next fields =>
    simp only [deny_bind_ok] at ok
    obtain ⟨_,_,free,_⟩ := ok
    simp only [target]
    split
    next raw named =>
      rw [named,Json.textOr_str] at free
      rw [PosixPath.join_split]
      exact free
    next => decide
  next => cases ok

theorem authorizeSubmit_loop {lib : Library} {policy : OrganizationPolicy} {session : Session}
    {arguments : Fields} {changes : List Json} (accepted : authorizeSubmit lib policy session arguments = .ok ())
    (listed : Json.get arguments "changes" = .arr changes) : ∃ final, changes.foldlM (safeChange lib) [] = .ok final := by
  obtain ⟨_,_,accepted⟩ := bind_ok.mp accepted
  obtain ⟨_,_,accepted⟩ := bind_ok.mp accepted
  simp only [deny_bind_ok,listed] at accepted
  obtain ⟨_,_,_,_,accepted⟩ := accepted
  unfold safePaths at accepted
  simp only [deny_bind_ok] at accepted
  obtain ⟨_,_,accepted⟩ := accepted
  obtain ⟨final,rounds,_⟩ := bind_ok.mp accepted
  exact ⟨final,rounds⟩

theorem authorizeSubmit_ok {lib : Library} {policy : OrganizationPolicy} {session : Session}
    {arguments : Fields} {changes : List Json} (accepted : authorizeSubmit lib policy session arguments = .ok ())
    (listed : Json.get arguments "changes" = .arr changes) :
    ∀ change ∈ changes, ¬ protectedPath (PosixPath.join (target change)) := by
  obtain ⟨_,rounds⟩ := authorizeSubmit_loop accepted listed
  exact foldlM_each (fun _ _ _ passed => safeChange_ok passed) rounds

/-- A change that the guard lets through leaves nothing at a protected path it touches,
the root's `action.yml` apart. -/
theorem outcome_protected (lib : Library) {change : Json} {p : List PosixPath.Name}
    (unnamed : ¬ protectedPath (PosixPath.join (target change))) (guarded : Protected p)
    (other : p ≠ [actionFile]) : (requested lib change).outcome p = none := by
  have elsewhere : (requested lib change).path ≠ p := by
    intro named
    have denied := protectedPath_join guarded other
    rw [← named] at denied
    exact unnamed denied
  exact if_neg elsewhere

/-- Whatever tree the submission starts from, its protected files come out as they were
exactly when the changes spare them. The guard alone keeps only what no change reaches
from above, from below, or at the root. -/
theorem protected_survive_iff {lib : Library} {policy : OrganizationPolicy} {session : Session}
    {arguments : Fields} {changes : List Json} {entries : List GitEntry}
    (accepted : authorizeSubmit lib policy session arguments = .ok ())
    (listed : Json.get arguments "changes" = .arr changes)
    (built : treeEntries lib changes = some entries) (base : GitTree) :
    (∀ p, Protected p → (base.apply entries).get p = base.get p) ↔ Spared lib base changes := by
  have unnamed := authorizeSubmit_ok accepted listed
  have after (p : List PosixPath.Name) : (base.apply entries).get p =
      ((changes.filter (fun change => (requested lib change).touches p)).getLast?.map
        (fun change => (requested lib change).outcome p)).getD (base.get p) := by
    rw [treeEntries_some built,Tree.get_apply,List.filter_map,List.getLast?_map,Option.map_map]
    rfl
  constructor
  · intro same
    refine ⟨?_,?_⟩
    · intro p guarded other held change member touched
      have kept := same p guarded
      rw [after] at kept
      have reached : change ∈ changes.filter (fun change => (requested lib change).touches p) := by
        simp [member,touched]
      obtain ⟨last,final⟩ := Option.isSome_iff_exists.mp
        (List.getLast?_isSome.mpr (List.ne_nil_of_mem reached))
      have member := List.mem_of_mem_filter (List.mem_of_getLast? final)
      rw [final] at kept
      have cleared := outcome_protected lib (unnamed last member) guarded other
      exact held (kept.symm.trans cleared)
    · intro change final
      have kept := same [actionFile] (.inr (.inr (.inr rfl)))
      rw [after,final] at kept
      exact kept
  · rintro ⟨others,root⟩ p guarded
    rw [after]
    cases final : (changes.filter (fun change => (requested lib change).touches p)).getLast? with
    | none => rfl
    | some change =>
      have reached := List.mem_filter.mp (List.mem_of_getLast? final)
      by_cases rooted : p = [actionFile]
      · subst rooted
        exact root change final
      · have cleared := outcome_protected lib (unnamed change reached.1) guarded rooted
        have absent : base.get p = none := by
          by_contra held
          exact others p guarded rooted held change reached.1 (by simpa using reached.2)
        simp only [Option.map_some,Option.getD_some,cleared,absent]

namespace Trial

/-- The standard library as far as the submissions below call it. -/
def library : Library where
  render := fun _ => ""
  repr := fun name => "'" ++ name ++ "'"
  closingKeyword := fun _ => false
  b64decode := fun encoded => if encoded = "" then some [] else none
  sha256 := fun _ => "e3b0c44298fc1c149afbf4c8996fb92427ae41e4649b934ca495991b7852b855"

def policy : OrganizationPolicy :=
  ⟨"org-1",[("software-implementer",⟨["org"]⟩)],"digest-1"⟩

def session : Session :=
  ⟨"session-1","wake-1","org-1","software-implementer","digest-1",["org"],"2026-01-01T01:00:00Z"⟩

def arguments (changes : List Json) : Fields :=
  [("topic",.str "tidy"),("base_oid",.str "0123456789abcdef0123456789abcdef01234567"),
    ("changes",.arr changes),("message",.str "Tidy up")]

def removal (path : String) : Json :=
  .obj [("operation",.str "delete"),("path",.str path),("mode",.str "100644")]

def blank (path : String) : Json :=
  .obj [("operation",.str "upsert"),("path",.str path),("mode",.str "100644"),("content_base64",.str ""),
    ("sha256",.str "e3b0c44298fc1c149afbf4c8996fb92427ae41e4649b934ca495991b7852b855")]

def workflow : List PosixPath.Name := [".github".toList,"workflows".toList,"ci.yml".toList]

def base : GitTree := Tree.empty.apply
  [⟨[actionFile],some ⟨"100644",[1]⟩⟩,⟨workflow,some ⟨"100644",[2]⟩⟩,⟨["README".toList],some ⟨"100644",[3]⟩⟩]

theorem protected_survive_iff_readme :
    (∀ p, Protected p → (base.apply [requested library (blank "README")]).get p = base.get p) ↔
      Spared library base [blank "README"] :=
  @protected_survive_iff library policy session (arguments [blank "README"]) [blank "README"]
    [requested library (blank "README")] (by decide) rfl rfl base

def removals : List Json := [removal "action.yml",removal ".github"]

/-- Two accepted deletions take away the root's `action.yml` and, with their directory,
all workflows. -/
theorem removals_reach_protected :
    authorizeSubmit library policy session (arguments removals) = .ok () ∧
      treeEntries library removals = some [⟨[actionFile],none⟩,⟨[".github".toList],none⟩] ∧
      (Protected [actionFile] ∧ base.get [actionFile] = some ⟨"100644",[1]⟩ ∧
        (base.apply [⟨[actionFile],none⟩,⟨[".github".toList],none⟩]).get [actionFile] = none) ∧
      Protected workflow ∧ base.get workflow = some ⟨"100644",[2]⟩ ∧
        (base.apply [⟨[actionFile],none⟩,⟨[".github".toList],none⟩]).get workflow = none := by
  refine ⟨by decide,rfl,⟨.inr (.inr (.inr rfl)),by decide,by decide⟩,?_,by decide,by decide⟩
  exact .inl ⟨["ci.yml".toList],by simp,rfl⟩

end Trial
end SjgControl

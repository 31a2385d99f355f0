import Mathlib.Data.List.ReduceOption
import SjgControl.FileSystem
import SjgControl.SourceTree
import SjgControl.Stamp
import SjgControl.Workers.Scope

/-! The manifest that `orggen init` writes of what it has stamped, and `verify-provenance.py`,
which reads it in the stamped repository. -/
namespace SjgControl
open Relational PosixPath Disk Disk.FileSystem

/-- What the scripts take from the standard library: `str` of collections, SHA-256, the decoding of
JSON files and of texts, and `==` where neither side is a text. -/
structure SealLibrary where
  render : Json → String
  sha256 : Bytes → String
  loads : Bytes → Option Json
  readText : Bytes → Option String
  equal : Json → Json → Bool
  digested : ∀ data, sha256 data ≠ ""

namespace SealLibrary
variable (lib : SealLibrary)

/-- `str(fields.get(name) or "")`. -/
def textOf (fields : Fields) (name : String) : String := (Json.get fields name).textOr lib.render

/-- `value == other`. -/
def same (value other : Json) : Bool :=
  match other with
  | .str text => isText value text
  | _ => lib.equal value other

/-- The digest of `json.dumps(rows, sort_keys=True, separators=(",", ":"))`. -/
def payload (rows : List Json) : String := lib.sha256 (utf8 (String.ofList (JsonText.compact (.arr rows))))

def entry (p : List Name) (mode : Mode) (content : Bytes) : Fields :=
  [("mode",.str (String.ofList mode.octal)),("path",.str (String.ofList (join p))),("sha256",.str (lib.sha256 content))]

end SealLibrary

def segments (relative : String) : List Name := parts relative.toList

namespace Orggen
variable (lib : SealLibrary)

def sourceManifest : String := "playbook/SOURCE.json"

/-- One file of the walk: nothing for a directory or for the manifest itself. -/
def manifestEntry (item : List Name × Node) : Except String (Option Json) :=
  match item.2 with
  | .directory _ => .ok none
  | .file content mode _ =>
    if item.1 = segments sourceManifest then .ok none else .ok (some (.obj (lib.entry item.1 mode content)))
  | .link | .special => .error "orggen: generated output contains a non-regular file"

def outputManifest (target : Disk.Tree Name) : Except String (List Json × String) := do
  let entries ← (target.walk (fun a b => a ≤ b)).mapM (manifestEntry lib)
  let files := entries.reduceOption
  return (files,lib.payload files)

/-- What `cmd_init` writes to `playbook/SOURCE.json`, its keys in order. -/
def provenance (files : List Json) (payload sourceCommit sourceState sourceDigest : String) : Json :=
  .obj [("files",.arr files),("payloadTreeSha256",.str payload),("releaseQualified",.bool (sourceState = "clean")),
    ("schemaVersion",.int 1),("sourceCommit",.str sourceCommit),("sourceState",.str sourceState),
    ("sourceTreeSha256",.str sourceDigest)]

end Orggen

namespace Provenance
variable (lib : SealLibrary) (fs : FileSystem Name) (root : List Name)

/-- `ROOT / relative`. -/
def located (relative : String) : List Name :=
  if PosixPath.root relative.toList = [] then root ++ segments relative else segments relative

def required : List String :=
  ["organization.yaml","VERSION","scripts/pm-gh.sh","scripts/git-push-branch.sh","scripts/agent-run.sh",
    ".github/workflows/ci.yml","playbook/SOURCE.md"]

def securityRoots : List String := ["scripts",".github/workflows"]

def isOne : Json → Bool
  | .int n => n = 1
  | .bool value => value
  | .float text => text = "1.0"
  | _ => false

def isTrue : Json → Bool
  | .bool value => value
  | _ => false

/-- The fields of a mapping; any other value has no `get`. -/
def mapping : Json → Except String Fields
  | .obj fields => .ok fields
  | _ => .error "AttributeError"

/-- What `value or []` gives to a loop. -/
def items : Json → Except String (List Json)
  | .arr values => .ok values
  | value => if value.truthy then .error "TypeError" else .ok []

/-- What `value or {}` gives. -/
def mappingOr (value : Json) : Except String Fields := if value.truthy then mapping value else .ok []

/-- The options and the environment: `--release` with the digest that the Human controls. -/
structure Request where
  release : Bool
  expected : String

/-- One entry: the path of the file that it lists. -/
def verifyEntry (value : Json) : Except String String := do
  let entry ← mapping value
  let relative := lib.textOf entry "path"
  let candidate := fs.follow (located root relative)
  require (root <+: candidate) ("provenance: path escapes stamp: " ++ relative)
  match fs.tree.node candidate with
  | some (.file content mode _) =>
    require (isText (Json.get entry "sha256") (lib.sha256 content) = true ∧
        isText (Json.get entry "mode") (String.ofList mode.octal) = true)
      ("provenance: content or mode drift: " ++ relative)
    return relative
  | _ => throw ("provenance: file absent or non-regular: " ++ relative)

def suffix (name : Name) : Name :=
  let tail := name.reverse.takeWhile (· ≠ '.')
  if tail = [] ∨ name.length ≤ tail.length + 1 then [] else '.'::tail.reverse

/-- What Python leaves behind. -/
def cached (path : List Name) : Prop :=
  "__pycache__".toList ∈ path ∨ ∃ name ∈ path.getLast?, suffix name ∈ [".pyc".toList,".pyo".toList]

instance (path : List Name) : Decidable (cached path) :=
  inferInstanceAs (Decidable (_ ∨ ∃ name ∈ path.getLast?, suffix name ∈ _))

def securityFile (directory : String) (item : List Name × Node) : Except String (Option String) :=
  let relative := String.ofList (join (segments directory ++ item.1))
  if cached (root ++ segments directory ++ item.1) then .ok none
  else match item.2 with
    | .link => .error ("provenance: unsafe symlink in security namespace: " ++ relative)
    | .directory _ => .ok none
    | .file _ _ _ => .ok (some relative)
    | .special => .error ("provenance: non-regular security entry: " ++ relative)

def securityFiles (directory : String) : Except String (List String) := do
  let found ← (fs.tree.below (fs.follow (root ++ segments directory))).mapM (securityFile root directory)
  return found.reduceOption

def textFile (path : List Name) : Except String String := fetch ((fs.read path).bind lib.readText) "OSError"

def main (request : Request) : Except String String := do
  let path := root ++ segments Orggen.sourceManifest
  let bytes ← fetch (fs.read path) "provenance: cannot read SOURCE.json"
  let document ← fetch (lib.loads bytes) "provenance: cannot read SOURCE.json"
  let provenance ← mapping document
  require (isOne (Json.get provenance "schemaVersion") = true) "provenance: unsupported schema"
  require (request.release = true → isText (Json.get provenance "sourceState") "clean" = true ∧
    isTrue (Json.get provenance "releaseQualified") = true)
    "provenance: dirty development stamp is not release-qualified"
  require (request.release = true → request.expected ≠ "" ∧ request.expected = lib.sha256 bytes)
    "provenance: release manifest is not bound to the Human-controlled expected digest"
  let organization ← fetch ((fs.read (root ++ segments "organization.yaml")).bind lib.loads)
    "provenance: organization.yaml is missing or malformed"
  let fields ← mapping organization
  let control ← mappingOr (Json.get fields "controlRelease")
  require (lib.same (Json.get control "sourceTreeSha256") (Json.get provenance "sourceTreeSha256") = true)
    "provenance: organization control release is not bound to this source tree"
  let version ← textFile lib fs (root ++ segments "VERSION")
  require (isText (Json.get control "version") (PythonText.strip version) = true)
    "provenance: organization control version does not match the stamp"
  let rows ← items (Json.get provenance "files")
  let listed ← rows.mapM (verifyEntry lib fs root)
  require (isText (Json.get provenance "payloadTreeSha256") (lib.payload rows) = true)
    "provenance: payload tree digest mismatch"
  require (∀ path ∈ required, path ∈ listed) "provenance: security-bearing files are not covered"
  let security ← securityRoots.mapM (securityFiles fs root)
  require (∀ path ∈ security.flatten, path ∈ listed) "provenance: unlisted security-bearing files"
  require (¬ fs.present (root ++ segments ".codex/config.toml") ∧ ¬ fs.present (root ++ segments ".claude/settings.json"))
    "provenance: generated workspace contains a mutable provider policy"
  return "ok: " ++ toString rows.length ++ " stamped files match provenance"

/-! What the verification of a stamped repository accepts. -/

theorem mapM_exists {ε α β : Type} {f : α → Except ε β} {inputs : List α} :
    (∃ results, inputs.mapM f = .ok results) ↔ ∀ a ∈ inputs, ∃ b, f a = .ok b := by
  induction inputs with
  | nil => exact ⟨fun _ a member => absurd member List.not_mem_nil,fun _ => ⟨[],rfl⟩⟩
  | cons a rest ih =>
    rw [List.forall_mem_cons,← ih]
    simp only [List.mapM_cons,bind_ok,pure_ok]
    constructor
    · rintro ⟨_,b,first,others,later,_⟩
      exact ⟨⟨b,first⟩,others,later⟩
    · rintro ⟨⟨b,first⟩,others,later⟩
      exact ⟨_,b,first,others,later,rfl⟩

theorem mem_mapM {ε α β : Type} {f : α → Except ε β} {inputs : List α} {results : List β}
    (ok : inputs.mapM f = .ok results) {b : β} : b ∈ results ↔ ∃ a ∈ inputs, f a = .ok b := by
  induction inputs generalizing results with
  | nil =>
    cases pure_ok.mp ok
    simp
  | cons a rest ih =>
    simp only [List.mapM_cons,bind_ok,pure_ok] at ok
    obtain ⟨c,first,others,later,rfl⟩ := ok
    rw [List.mem_cons,ih later]
    simp only [List.exists_mem_cons_iff,first,Except.ok.injEq,eq_comm]

def Named (t : Disk.Tree Name) : Prop := ∀ p, t.node p ≠ none → ∀ name ∈ p, '/' ∉ name ∧ name ≠ [] ∧ name ≠ ['.']

def isFile : Node → Prop
  | .file _ _ _ => True
  | _ => False

section Paths
variable {p q : List Name}

theorem parts_text (some_ : p ≠ []) (named : ∀ name ∈ p, '/' ∉ name ∧ name ≠ [] ∧ name ≠ ['.']) :
    segments (String.ofList (join p)) = p := by
  unfold segments
  rw [String.toList_ofList,parts_join some_ named]

theorem located_text {root : List Name} (some_ : p ≠ [])
    (named : ∀ name ∈ p, '/' ∉ name ∧ name ≠ [] ∧ name ≠ ['.']) : located root (String.ofList (join p)) = root ++ p := by
  unfold located
  rw [parts_text some_ named,String.toList_ofList,root_join (fun name member => ⟨(named name member).1,(named name member).2.1⟩),
    if_pos rfl]

end Paths

section Entries
variable {lib : SealLibrary} {fs : FileSystem Name} {root p : List Name} {mode : Mode} {content : Bytes}

theorem mapping_bind {α : Type} (fields : Fields) (f : Fields → Except String α) :
    (mapping (.obj fields) >>= f) = f fields := rfl

@[simp] theorem mapping_bind_ok {α : Type} {value : Json} {f : Fields → Except String α} {a : α} :
    (mapping value >>= f) = .ok a ↔ ∃ fields, value = .obj fields ∧ f fields = .ok a := by
  cases value with
  | obj fields => simp [mapping,ok_bind]
  | _ => simp [mapping,bind,Except.bind]

theorem mappingOr_bind_ok {α : Type} {value : Json} {f : Fields → Except String α} {a : α} :
    (mappingOr value >>= f) = .ok a ↔ ∃ fields, mappingOr value = .ok fields ∧ f fields = .ok a := bind_ok

theorem items_bind_ok {α : Type} {value : Json} {f : List Json → Except String α} {a : α} :
    (items value >>= f) = .ok a ↔ ∃ rows, items value = .ok rows ∧ f rows = .ok a := bind_ok

theorem mapM_bind_ok {α β γ : Type} {g : α → Except String β} {inputs : List α} {f : List β → Except String γ} {c : γ} :
    (inputs.mapM g >>= f) = .ok c ↔ ∃ results, inputs.mapM g = .ok results ∧ f results = .ok c := bind_ok

@[simp] theorem textOf_entry : lib.textOf (lib.entry p mode content) "path" = String.ofList (join p) :=
  Json.textOr_str lib.render _

theorem verifyEntry_iff (collisionFree : Function.Injective lib.sha256) (some_ : p ≠ [])
    (named : ∀ name ∈ p, '/' ∉ name ∧ name ≠ [] ∧ name ≠ ['.']) {path : String} :
    verifyEntry lib fs root (.obj (lib.entry p mode content)) = .ok path ↔
      fs.Holds root p content mode ∧ path = String.ofList (join p) := by
  have digest (other : Bytes) : isText (Json.get (lib.entry p mode content) "sha256") (lib.sha256 other) = true ↔
      content = other := by
    refine Iff.trans ?_ collisionFree.eq_iff
    exact decide_eq_true_iff
  have bits (other : Mode) : isText (Json.get (lib.entry p mode content) "mode") (String.ofList other.octal) = true ↔
      mode = other := by
    refine Iff.trans ?_ Mode.octal_injective.eq_iff
    refine Iff.trans ?_ String.ofList_inj
    exact decide_eq_true_iff
  unfold verifyEntry FileSystem.Holds FileSystem.found
  simp only [mapping_bind,textOf_entry,located_text some_ named,require_bind_ok]
  constructor
  · rintro ⟨inside,done⟩
    split at done
    next bytes other owner here =>
      simp only [require_bind_ok,pure_ok] at done
      obtain ⟨⟨same,equal⟩,rfl⟩ := done
      cases (digest bytes).mp same
      cases (bits other).mp equal
      exact ⟨⟨inside,owner,here⟩,rfl⟩
    next => cases done
  · rintro ⟨⟨inside,owner,here⟩,rfl⟩
    refine ⟨inside,?_⟩
    rw [here]
    exact require_bind_ok.mpr ⟨⟨(digest content).mpr rfl,(bits mode).mpr rfl⟩,rfl⟩

end Entries

theorem mem_outputManifest {lib : SealLibrary} {target : Disk.Tree Name} {files : List Json} {payload : String}
    (ok : Orggen.outputManifest lib target = .ok (files,payload)) :
    payload = lib.payload files ∧ ∀ value, value ∈ files ↔ ∃ p content mode owner,
      target.node p = some (.file content mode owner) ∧ p ≠ segments Orggen.sourceManifest ∧
        value = .obj (lib.entry p mode content) := by
  unfold Orggen.outputManifest at ok
  simp only [bind_ok,pure_ok,Prod.mk.injEq] at ok
  obtain ⟨entries,gathered,rfl,rfl⟩ := ok
  refine ⟨rfl,fun value => ?_⟩
  rw [List.reduceOption_mem_iff,mem_mapM gathered]
  constructor
  · rintro ⟨⟨p,n⟩,member,visited⟩
    cases n with
    | file content mode owner =>
      simp only [Orggen.manifestEntry] at visited
      split at visited
      next => cases visited
      next other =>
        cases visited
        exact ⟨p,content,mode,owner,Tree.mem_walk.mp member,other,rfl⟩
    | _ => cases visited
  · rintro ⟨p,content,mode,owner,here,other,rfl⟩
    exact ⟨(p,.file content mode owner),Tree.mem_walk.mpr here,if_neg other⟩

theorem regular_of_outputManifest {lib : SealLibrary} {target : Disk.Tree Name} {manifest : List Json × String}
    (ok : Orggen.outputManifest lib target = .ok manifest) {p : List Name} {n : Node} (here : target.node p = some n) :
    (∃ mode, n = .directory mode) ∨ ∃ content mode owner, n = .file content mode owner := by
  unfold Orggen.outputManifest at ok
  obtain ⟨entries,gathered,_⟩ := bind_ok.mp ok
  obtain ⟨entry,visited⟩ := mapM_exists.mp ⟨entries,gathered⟩ (p,n) (Tree.mem_walk.mpr here)
  cases n with
  | directory mode => exact .inl ⟨mode,rfl⟩
  | file content mode owner => exact .inr ⟨content,mode,owner,rfl⟩
  | _ => cases visited

end Provenance

/-- What `orggen init` leaves behind from a clean source: the files it has written, and the bytes of
the manifest that it writes of them. -/
structure Stamping (lib : SealLibrary) where
  target : Disk.Tree Name
  stamp : Orggen.Stamp
  version : String
  sourceCommit : String
  sourceDigest : String
  files : List Json
  payload : String
  bytes : Bytes
  named : Provenance.Named target
  listed : Orggen.outputManifest lib target = .ok (files,payload)
  written : lib.loads bytes = some (Orggen.provenance files payload sourceCommit "clean" sourceDigest)
  organization : (target.content (segments "organization.yaml")).bind lib.loads =
    some (Orggen.organizationDocument stamp version sourceDigest)
  versioned : (target.content (segments "VERSION")).bind lib.readText = some version
  covers : ∀ path ∈ Provenance.required, target.content (segments path) ≠ none

namespace Stamping
open Provenance
variable {lib : SealLibrary}

/-- The repository still holds what was stamped, and nothing more where it matters. -/
structure Intact (s : Stamping lib) (fs : FileSystem Name) (root : List Name) : Prop where
  source : fs.read (root ++ segments Orggen.sourceManifest) = some s.bytes
  files : ∀ p content mode owner, s.target.node p = some (.file content mode owner) → p ≠ segments Orggen.sourceManifest →
    fs.Holds root p content mode
  security : ∀ directory ∈ securityRoots, ∀ rest n, rest ≠ [] →
    fs.tree.node (fs.follow (root ++ segments directory) ++ rest) = some n →
    ¬ cached (root ++ segments directory ++ rest) →
    (∃ mode, n = .directory mode) ∨ isFile n ∧ s.target.content (segments directory ++ rest) ≠ none
  policy : ¬ fs.present (root ++ segments ".codex/config.toml") ∧ ¬ fs.present (root ++ segments ".claude/settings.json")

section Verify
variable {s : Stamping lib} {fs : FileSystem Name} {root : List Name}

theorem content_file {t : Disk.Tree Name} {p : List Name} {bytes : Bytes} (found : t.content p = some bytes) :
    ∃ mode owner, t.node p = some (.file bytes mode owner) := by
  unfold Tree.content at found
  split at found
  next content mode owner here =>
    cases found
    exact ⟨mode,owner,here⟩
  next => cases found

theorem nonempty_of_node {t : Disk.Tree Name} {p : List Name} {n : Node} (here : t.node p = some n) : p ≠ [] := by
  rintro rfl
  rw [Tree.node_root] at here
  cases here

/-- The loop over the entries ends just when every file is held, and returns the paths. -/
theorem entries_iff (collisionFree : Function.Injective lib.sha256) :
    (∃ listed, s.files.mapM (verifyEntry lib fs root) = .ok listed) ↔
      ∀ p content mode owner, s.target.node p = some (.file content mode owner) →
        p ≠ segments Orggen.sourceManifest → fs.Holds root p content mode := by
  obtain ⟨_,members⟩ := mem_outputManifest s.listed
  rw [mapM_exists]
  constructor
  · intro each p content mode owner here other
    obtain ⟨path,ok⟩ := each _ ((members _).mpr ⟨p,content,mode,owner,here,other,rfl⟩)
    exact ((verifyEntry_iff collisionFree (nonempty_of_node here) (s.named p (by rw [here]; rintro ⟨⟩))).mp ok).1
  · intro held value member
    obtain ⟨p,content,mode,owner,here,other,rfl⟩ := (members _).mp member
    exact ⟨_,(verifyEntry_iff collisionFree (nonempty_of_node here) (s.named p (by rw [here]; rintro ⟨⟩))).mpr
      ⟨held p content mode owner here other,rfl⟩⟩

theorem mem_listed (collisionFree : Function.Injective lib.sha256) {listed : List String}
    (ok : s.files.mapM (verifyEntry lib fs root) = .ok listed) {path : String} :
    path ∈ listed ↔ ∃ p, s.target.content p ≠ none ∧ p ≠ segments Orggen.sourceManifest ∧ path = String.ofList (join p) := by
  obtain ⟨_,members⟩ := mem_outputManifest s.listed
  have held := (entries_iff collisionFree).mp ⟨listed,ok⟩
  rw [mem_mapM ok]
  constructor
  · rintro ⟨value,member,verified⟩
    obtain ⟨p,content,mode,owner,here,other,rfl⟩ := (members _).mp member
    have own := (verifyEntry_iff collisionFree (nonempty_of_node here) (s.named p (by rw [here]; rintro ⟨⟩))).mp verified
    exact ⟨p,by simp [Tree.content,here],other,own.2⟩
  · rintro ⟨p,found,other,rfl⟩
    obtain ⟨bytes,found⟩ := Option.ne_none_iff_exists'.mp found
    obtain ⟨mode,owner,here⟩ := content_file found
    exact ⟨_,(members _).mpr ⟨p,bytes,mode,owner,here,other,rfl⟩,
      (verifyEntry_iff collisionFree (nonempty_of_node here) (s.named p (by rw [here]; rintro ⟨⟩))).mpr
        ⟨held p bytes mode owner here other,rfl⟩⟩

theorem security_iff (named : Provenance.Named fs.tree) {listed : List String}
    (lists : ∀ path, path ∈ listed ↔ ∃ p, s.target.content p ≠ none ∧ p ≠ segments Orggen.sourceManifest ∧
      path = String.ofList (join p)) {directory : String} (known : directory ∈ securityRoots) :
    (∃ found, securityFiles fs root directory = .ok found ∧ ∀ path ∈ found, path ∈ listed) ↔
      ∀ rest n, rest ≠ [] → fs.tree.node (fs.follow (root ++ segments directory) ++ rest) = some n →
        ¬ cached (root ++ segments directory ++ rest) →
        (∃ mode, n = .directory mode) ∨ isFile n ∧ s.target.content (segments directory ++ rest) ≠ none := by
  have dirs : ∀ d ∈ securityRoots, (∀ name ∈ segments d, '/' ∉ name ∧ name ≠ [] ∧ name ≠ ['.']) ∧ segments d ≠ [] ∧
      ¬ segments d <+: segments Orggen.sourceManifest := by decide
  obtain ⟨front,some_,apart⟩ := dirs directory known
  -- a file below a security root is listed just if it was stamped
  have stamped {rest : List Name} {n : Node} (here : fs.tree.node (fs.follow (root ++ segments directory) ++ rest) = some n) :
      String.ofList (join (segments directory ++ rest)) ∈ listed ↔ s.target.content (segments directory ++ rest) ≠ none := by
    have back : ∀ name ∈ rest, '/' ∉ name ∧ name ≠ [] ∧ name ≠ ['.'] := fun name member =>
      named _ (by rw [here]; rintro ⟨⟩) name (List.mem_append_right _ member)
    have whole : ∀ name ∈ segments directory ++ rest, '/' ∉ name ∧ name ≠ [] ∧ name ≠ ['.'] := by
      intro name member
      rcases List.mem_append.mp member with early | late
      · exact front name early
      · exact back name late
    have proper : segments directory ++ rest ≠ [] := fun empty => some_ (List.append_eq_nil_iff.mp empty).1
    rw [lists]
    constructor
    · rintro ⟨p,found,_,same⟩
      have filed : s.target.node p ≠ none := by
        intro none_
        simp [Tree.content,none_] at found
      have nonempty : p ≠ [] := by
        rintro rfl
        exact filed (Tree.node_root _)
      have cut := congrArg segments same
      rw [parts_text proper whole,parts_text nonempty (s.named p filed)] at cut
      exact cut ▸ found
    · intro found
      refine ⟨_,found,?_,rfl⟩
      intro same
      exact apart (same ▸ List.prefix_append _ _)
  unfold securityFiles
  constructor
  · rintro ⟨found,ok,covered⟩ rest n proper here plain
    simp only [bind_ok,pure_ok] at ok
    obtain ⟨visited,gathered,rfl⟩ := ok
    obtain ⟨result,visit⟩ := mapM_exists.mp ⟨visited,gathered⟩ (rest,n) (Tree.mem_below.mpr ⟨proper,here⟩)
    have visit' := visit
    unfold securityFile at visit
    rw [if_neg plain] at visit
    cases n with
    | link => cases visit
    | special => cases visit
    | directory mode => exact .inl ⟨mode,rfl⟩
    | file content mode owner =>
      cases visit
      refine .inr ⟨trivial,(stamped here).mp (covered _ ?_)⟩
      rw [List.reduceOption_mem_iff,mem_mapM gathered]
      exact ⟨_,Tree.mem_below.mpr ⟨proper,here⟩,visit'⟩
  · intro kept
    have visits : ∀ item ∈ fs.tree.below (fs.follow (root ++ segments directory)),
        ∃ result, securityFile root directory item = .ok result := by
      rintro ⟨rest,n⟩ member
      obtain ⟨proper,here⟩ := Tree.mem_below.mp member
      unfold securityFile
      by_cases plain : cached (root ++ segments directory ++ rest)
      · exact ⟨none,if_pos plain⟩
      · rw [if_neg plain]
        rcases kept rest n proper here plain with ⟨mode,rfl⟩ | ⟨file,_⟩
        · exact ⟨none,rfl⟩
        · cases n with
          | file content mode owner => exact ⟨_,rfl⟩
          | _ => exact file.elim
    obtain ⟨visited,gathered⟩ := mapM_exists.mpr visits
    refine ⟨visited.reduceOption,bind_ok.mpr ⟨visited,gathered,rfl⟩,?_⟩
    intro path member
    rw [List.reduceOption_mem_iff,mem_mapM gathered] at member
    obtain ⟨⟨rest,n⟩,inside,visit⟩ := member
    obtain ⟨proper,here⟩ := Tree.mem_below.mp inside
    unfold securityFile at visit
    split at visit
    next => cases visit
    next plain =>
      cases n with
      | file content mode owner =>
        cases visit
        rcases kept rest _ proper here plain with ⟨_,other⟩ | ⟨_,found⟩
        · cases other
        · exact (stamped here).mpr found
      | _ => cases visit

theorem required_file {path : String} (needed : path ∈ required) : ∃ content mode owner,
    s.target.node (segments path) = some (.file content mode owner) ∧ segments path ≠ segments Orggen.sourceManifest ∧
      path = String.ofList (join (segments path)) := by
  have spelled : ∀ path ∈ required, segments path ≠ segments Orggen.sourceManifest ∧
      path = String.ofList (join (segments path)) := by decide
  obtain ⟨content,found⟩ := Option.ne_none_iff_exists'.mp (s.covers path needed)
  obtain ⟨mode,owner,here⟩ := content_file found
  exact ⟨content,mode,owner,here,spelled path needed⟩

/-- With every stamped file in place the repository reads as it was stamped. -/
theorem read_required (held : ∀ p content mode owner, s.target.node p = some (.file content mode owner) →
    p ≠ segments Orggen.sourceManifest → fs.Holds root p content mode) {path : String} (needed : path ∈ required) :
    fs.read (root ++ segments path) = s.target.content (segments path) := by
  obtain ⟨content,mode,owner,here,other,_⟩ := @required_file lib s path needed
  rw [(held _ content mode owner here other).read]
  simp [Tree.content,here]

theorem manifest_fields : ∃ fields, lib.loads s.bytes = some (.obj fields) ∧
    isOne (Json.get fields "schemaVersion") = true ∧ isText (Json.get fields "sourceState") "clean" = true ∧
    isTrue (Json.get fields "releaseQualified") = true ∧ Json.get fields "files" = .arr s.files ∧
    Json.get fields "payloadTreeSha256" = .str s.payload ∧ Json.get fields "sourceTreeSha256" = .str s.sourceDigest :=
  ⟨_,s.written,rfl,rfl,rfl,rfl,rfl,rfl⟩

theorem organization_fields : ∃ fields control,
    (s.target.content (segments "organization.yaml")).bind lib.loads = some (.obj fields) ∧
      mappingOr (Json.get fields "controlRelease") = .ok control ∧
      isText (Json.get control "version") (PythonText.strip s.version) = true ∧
      Json.get control "sourceTreeSha256" = .str s.sourceDigest :=
  ⟨_,_,s.organization,rfl,decide_eq_true rfl,rfl⟩

/-- Where nothing but the stamped files and their manifest stands below the root, the repository
is intact. -/
theorem Intact.fresh {mode : Mode} {owner : Nat} (same : ∀ p, p ≠ [] → fs.tree.node (root ++ p) =
      if p = segments Orggen.sourceManifest then some (.file s.bytes mode owner) else s.target.node p)
    (policy : ¬ fs.present (root ++ segments ".codex/config.toml") ∧ ¬ fs.present (root ++ segments ".claude/settings.json")) :
    s.Intact fs root := by
  refine ⟨(@Holds.settled _ _ fs root (segments Orggen.sourceManifest) s.bytes mode owner ?_).read,?_,?_,policy⟩
  · rw [same _ (by decide),if_pos rfl]
  · intro p content bits owner here other
    refine @Holds.settled _ _ fs root p content bits owner ?_
    rw [same p (nonempty_of_node here),if_neg other,here]
  · intro directory known rest n proper here _
    have below : ∃ path ∈ required, segments directory <+: segments path ∧ segments directory ≠ segments path ∧
        segments path ≠ segments Orggen.sourceManifest ∧ segments path ≠ [] ∧ segments directory ≠ [] := by
      have each : ∀ directory ∈ securityRoots, ∃ path ∈ required, segments directory <+: segments path ∧
        segments directory ≠ segments path ∧ segments path ≠ segments Orggen.sourceManifest ∧ segments path ≠ [] ∧
          segments directory ≠ [] := by decide
      exact each directory known
    obtain ⟨path,needed,above,apart,other,some_,named⟩ := below
    obtain ⟨content,bits,holder,file,_⟩ := @required_file lib s path needed
    have inside : fs.tree.node (root ++ segments path) ≠ none := by
      rw [same _ some_,if_neg other,file]
      simp
    -- the security root is a directory, since a stamped file lies below it
    have isDirectory := Tree.directory_above inside ((List.prefix_append_right_inj root).mpr above)
      (fun equal => apart (List.append_cancel_left equal))
    have settled : fs.follow (root ++ segments directory) = root ++ segments directory := by
      rcases isDirectory with empty | ⟨bits,here⟩
      · exact absurd (List.append_eq_nil_iff.mp empty).2 named
      · exact fs.settled _ _ here (by simp)
    have whole : segments directory ++ rest ≠ segments Orggen.sourceManifest := by
      have each : ∀ directory ∈ securityRoots, ¬ segments directory <+: segments Orggen.sourceManifest := by decide
      intro equal
      exact each directory known (equal ▸ List.prefix_append _ _)
    rw [settled,List.append_assoc,same _ (fun empty => proper (List.append_eq_nil_iff.mp empty).2),if_neg whole] at here
    rcases regular_of_outputManifest s.listed here with folder | ⟨content,bits,owner,rfl⟩
    · exact .inl folder
    · exact .inr ⟨trivial,by simp [Tree.content,here]⟩

end Verify
end Stamping

/-! A small organization. -/

namespace Provenance

def grown (items : List (String × Node)) : Disk.Tree Name :=
  (items.map (fun item => (segments item.1,item.2))).foldl Tree.plant Tree.empty

theorem named_grown (items : List (String × Node)) : Named (grown items) := by
  have kept (more : List (String × Node)) (t : Disk.Tree Name) (named : Named t) :
      Named ((more.map (fun item => (segments item.1,item.2))).foldl Tree.plant t) := by
    induction more generalizing t with
    | nil => exact named
    | cons item rest ih =>
      refine ih (t.plant (segments item.1,item.2)) (fun p inside name member => ?_)
      rcases Tree.node_plant inside with before | rfl
      · exact named p before name member
      · exact mem_parts member
  exact kept items Tree.empty (fun _ inside => absurd rfl inside)

def plainFile (byte : UInt8) : Node := .file [byte] 0o644#12 0

def smallFiles : List (String × Node) :=
  [("scripts",.directory 0o755#12),(".github",.directory 0o755#12),(".github/workflows",.directory 0o755#12),
    ("playbook",.directory 0o755#12),("organization.yaml",plainFile 1),("VERSION",plainFile 2),
    ("scripts/pm-gh.sh",plainFile 3),("scripts/git-push-branch.sh",plainFile 4),("scripts/agent-run.sh",plainFile 5),
    (".github/workflows/ci.yml",plainFile 6),("playbook/SOURCE.md",plainFile 7)]

def spelled (data : Bytes) : String := "#" ++ PosixHost.bytesText data

theorem spelled_injective : Function.Injective spelled := fun _ _ same =>
  PosixHost.digests_injective (String.append_right_inj _ |>.mp same)

def smallManifest : List Json :=
  [("VERSION",2),("organization.yaml",1),(".github/workflows/ci.yml",6),("playbook/SOURCE.md",7),("scripts/agent-run.sh",5),
    ("scripts/git-push-branch.sh",4),("scripts/pm-gh.sh",3)].map (fun (item : String × UInt8) =>
      .obj [("mode",.str "0644"),("path",.str item.1),("sha256",.str (spelled [item.2]))])

def smallPayload : String := spelled (utf8 (String.ofList (JsonText.compact (.arr smallManifest))))

def small : SealLibrary where
  render := fun _ => ""
  sha256 := spelled
  loads := fun data =>
    if data = [9] then some (Orggen.provenance smallManifest smallPayload "c0" "clean" "d1")
    else if data = [1] then some (Orggen.organizationDocument Orggen.acme "1.0.0\n" "d1")
    else none
  readText := fun data => if data = [2] then some "1.0.0\n" else none
  equal := fun _ _ => false
  digested := fun _ empty => by simp [spelled,String.append_eq_empty_iff] at empty

def smallStamping : Stamping small where
  target := grown smallFiles
  stamp := Orggen.acme
  version := "1.0.0\n"
  sourceCommit := "c0"
  sourceDigest := "d1"
  files := smallManifest
  payload := smallPayload
  bytes := [9]
  named := named_grown smallFiles
  listed := rfl
  written := rfl
  organization := rfl
  versioned := by decide +kernel
  covers := by decide +kernel

theorem small_accepts : (grown smallFiles).accepts (segments Orggen.sourceManifest) := by decide +kernel

def stamped : FileSystem Name where
  tree := (grown smallFiles).put (segments Orggen.sourceManifest) (plainFile 9) small_accepts
  follow := id
  settled := fun _ _ _ _ => rfl

theorem stamped_intact : smallStamping.Intact stamped [] := by
  refine @Stamping.Intact.fresh _ smallStamping stamped [] 0o644#12 0 (fun p _ => ?_) (by decide +kernel)
  exact Tree.node_put small_accepts p

theorem stamped_named : Named stamped.tree := by
  intro p inside
  rw [stamped,Tree.node_put] at inside
  split at inside
  next here =>
    rw [here]
    decide
  next => exact named_grown smallFiles p inside

end Provenance

end SjgControl

import SjgControl.Provenance

/-! A control release: what `sjg-install` writes and `sjg-activate` lets in. -/
namespace SjgControl
open Relational PosixPath Disk Disk.FileSystem Provenance

/-- `str(path.relative_to(release))`. -/
def pathText (p : List Name) : String := String.ofList (join p)

def mutable (mode : Mode) : Prop := mode &&& 0o222#12 ≠ 0#12

instance (mode : Mode) : Decidable (mutable mode) := inferInstanceAs (Decidable (_ ≠ _))

def manifestName : Name := "MANIFEST.json".toList

def binName : Name := "bin".toList

def libName : Name := "lib".toList

namespace Install
variable (lib : SealLibrary) (fs : FileSystem Name) (staging : List Name)

/-- The bits of what has been copied: what stands right below `bin` can be run, other files only
read, and other directories keep theirs for now. -/
def freeze (copied : FileSystem Name) : FileSystem Name :=
  copied.regrade
    (fun p mode => if p.dropLast = staging ++ [binName] then 0o555#12 else if staging <+: p then 0o444#12 else mode)
    (fun p mode => if p.dropLast = staging ++ [binName] then 0o555#12 else mode)

def row (item : List Name × Node) : Except String Json :=
  match item.2 with
  | .file content mode _ => .ok (.obj (lib.entry item.1 mode content))
  | .directory _ | .link | .special => .error ("sjg-install: refusing symlink: " ++ pathText item.1)

def digestTree : Except String (List Json) :=
  (((fs.tree.below staging).filter (fun item => fs.isFile (staging ++ item.1))).insertionSort
    (fun one other => one.1 ≤ other.1)).mapM (row lib)

/-- What `main` writes to `MANIFEST.json`, its keys in order. -/
def manifest (rows : List Json) (version sourceCommit sourceState sourceDigest : String) : Json :=
  .obj [("files",.arr rows),("releaseQualified",.bool (sourceState = "clean")),("schemaVersion",.int 1),
    ("sourceCommit",.str sourceCommit),("sourceState",.str sourceState),("sourceTreeSha256",.str sourceDigest),
    ("version",.str version)]

end Install

namespace Activate
variable (lib : SealLibrary) (fs : FileSystem Name)

def isString : Json → Prop
  | .str _ => True
  | _ => False

instance : DecidablePred isString
  | .str _ => .isTrue trivial
  | .null | .bool _ | .int _ | .float _ | .arr _ | .obj _ => .isFalse id

def entryList : Json → Except String (List Json)
  | .arr entries => .ok entries
  | _ => .error "sjg-activate: release manifest file list is absent"

def mappings (entries : List Json) : List Fields := entries.filterMap fun
  | .obj fields => some fields
  | _ => none

/-- The files that `rglob` finds, by their path in the release. -/
def actualFiles (release : List Name) : List String :=
  ((fs.tree.below release).filter (fun item => fs.isFile (release ++ item.1) ∧ item.1 ≠ [manifestName])).map
    (fun item => pathText item.1)

def directories (release : List Name) : List (List Name) :=
  release::((fs.tree.below release).filter (fun item => fs.isDirectory (release ++ item.1))).map (fun item => release ++ item.1)

def safeDirectory (path : List Name) : Prop := ∃ mode ∈ fs.tree.node path, ∃ bits, mode = .directory bits ∧ ¬ mutable bits

instance (path : List Name) : Decidable (safeDirectory fs path) :=
  match here : fs.tree.node path with
  | some (.directory bits) =>
    if open_ : mutable bits then .isFalse (by simp [safeDirectory,here,open_]) else .isTrue ⟨_,here,bits,rfl,open_⟩
  | none | some (.file _ _ _) | some .link | some .special => .isFalse (by simp [safeDirectory,here])

def verifyFile (release : List Name) (entry : Fields) : Except String Unit :=
  let relative := lib.textOf entry "path"
  let candidate := fs.follow (located release relative)
  match fs.tree.node candidate with
  | some (.file content mode _) => do
    require (fs.follow release <+: candidate ∧ fs.follow release ≠ candidate)
      ("sjg-activate: unsafe or absent release file: " ++ relative)
    require (isText (Json.get entry "sha256") (lib.sha256 content) = true ∧
        isText (Json.get entry "mode") (String.ofList mode.octal) = true)
      ("sjg-activate: release drift: " ++ relative)
    require (¬ mutable mode) ("sjg-activate: release file is mutable: " ++ relative)
  | _ => .error ("sjg-activate: unsafe or absent release file: " ++ relative)

def verifyRelease (release : List Name) : Except String Fields := do
  let path := release ++ [manifestName]
  require (fs.tree.node path ≠ some .link ∧ fs.isFile path) "sjg-activate: release manifest is absent or unsafe"
  let document ← fetch ((fs.read path).bind lib.loads) "sjg-activate: invalid release manifest"
  let manifest ← mapping document
  require (isOne (Json.get manifest "schemaVersion") = true) "sjg-activate: unsupported release manifest"
  require (isString (Json.get manifest "version") ∧ isString (Json.get manifest "sourceTreeSha256"))
    "sjg-activate: incomplete release identity"
  let entries ← entryList (Json.get manifest "files")
  let listed := (mappings entries).map (fun entry => lib.textOf entry "path")
  require (listed.length = entries.length ∧ listed.Nodup) "sjg-activate: release manifest has invalid or duplicate paths"
  require ((∀ text ∈ actualFiles fs release, text ∈ listed) ∧ ∀ text ∈ listed, text ∈ actualFiles fs release)
    "sjg-activate: release contains unlisted or missing files"
  require (∀ directory ∈ directories fs release, safeDirectory fs directory)
    "sjg-activate: release directory is mutable or unsafe"
  let _ ← (mappings entries).mapM (verifyFile lib fs release)
  return manifest

/-- The options, with the name of the link that is put in place of `current`. -/
structure Request where
  prefix_ : String
  version : String
  organization : List Name
  allowDirty : Bool
  temporary : Name

namespace Request
variable (request : Request)

def base : List Name := fs.follow (parts request.prefix_.toList)

def releases : List Name := fs.follow (request.base fs ++ ["releases".toList])

def release : List Name := fs.follow (request.base fs ++ ["releases".toList,request.version.toList])

end Request

/-- The files that can be imported once `release / "lib"` is on the path. -/
def library (release p : List Name) : Option Bytes :=
  if fs.tree.node (release ++ libName::p) = none then none else fs.read (release ++ libName::p)

/-- `compile_policy`, as a package defines it. -/
abbrev Compiler := Json → String → Except PolicyError CompiledPolicy

/-- The release that is now current. `imports` is `from sjg_control.policy import compile_policy`,
with the files of a library on the path. -/
def main (imports : (List Name → Option Bytes) → Option Compiler) (request : Request) : Except String (List Name) := do
  require (Policy.semanticVersion request.version) "sjg-activate: --version must be semantic x.y.z"
  let raw := request.prefix_.toList
  require (PosixPath.root raw ≠ []) "sjg-activate: --prefix must be absolute"
  require (¬ (PosixPath.root raw = ['/'] ∧ parts raw = [])) "sjg-activate: refusing filesystem root as installation prefix"
  let release := request.release fs
  require (fs.tree.node release ≠ none) "FileNotFoundError"
  require (fs.tree.node (request.releases fs) ≠ none) "FileNotFoundError"
  require (release.dropLast = request.releases fs) "sjg-activate: release path escapes the installation prefix"
  let manifest ← verifyRelease lib fs release
  let organization ← fetch ((fs.read request.organization).bind lib.loads) "sjg-activate: invalid organization policy"
  let fields ← mapping organization
  let expected ← mappingOr (Json.get fields "controlRelease")
  require (lib.same (Json.get expected "version") (Json.get manifest "version") = true)
    "sjg-activate: organization requires a different control version"
  require (lib.same (Json.get expected "sourceTreeSha256") (Json.get manifest "sourceTreeSha256") = true)
    "sjg-activate: organization and control source digests differ"
  let compilePolicy ← fetch (imports (library fs release)) "sjg-activate: organization policy does not compile"
  match compilePolicy organization (lib.textOf manifest "sourceCommit") with
  | .error _ => throw "sjg-activate: organization policy does not compile"
  | .ok _ =>
    require (request.allowDirty = true ∨ isTrue (Json.get manifest "releaseQualified") = true)
      "sjg-activate: dirty development release is not activatable"
    require (fs.tree.node (request.base fs ++ [request.temporary]) = none ∧ ¬ fs.present (request.base fs ++ [request.temporary]))
      "sjg-activate: temporary activation path exists"
    return release

/-! What a release that is let in has been held against. -/

def Offers (release p : List Name) (content : Bytes) (mode : Mode) : Prop :=
  fs.tree.node (release ++ p) ≠ none ∧ ∃ owner, fs.found (release ++ p) = some (.file content mode owner)

/-- What has been checked when `verifyRelease` returns. -/
structure Checked (release : List Name) (manifest : Fields) (entries : List Json) : Prop where
  source : (fs.read (release ++ [manifestName])).bind lib.loads = some (.obj manifest)
  regular : fs.tree.node (release ++ [manifestName]) ≠ some .link ∧ fs.isFile (release ++ [manifestName])
  schema : isOne (Json.get manifest "schemaVersion") = true
  identity : isString (Json.get manifest "version") ∧ isString (Json.get manifest "sourceTreeSha256")
  files : Json.get manifest "files" = .arr entries
  whole : ((mappings entries).map (fun entry => lib.textOf entry "path")).length = entries.length
  distinct : ((mappings entries).map (fun entry => lib.textOf entry "path")).Nodup
  covered : ∀ text ∈ actualFiles fs release, text ∈ (mappings entries).map (fun entry => lib.textOf entry "path")
  present : ∀ text ∈ (mappings entries).map (fun entry => lib.textOf entry "path"), text ∈ actualFiles fs release
  closed : ∀ directory ∈ directories fs release, safeDirectory fs directory
  verified : ∀ entry ∈ mappings entries, verifyFile lib fs release entry = .ok ()

section Checks
variable {lib fs} {release p q : List Name} {content : Bytes} {mode : Mode} {manifest : Fields} {entries : List Json}

theorem mapM_unit {ε α : Type} {f : α → Except ε Unit} {inputs : List α} :
    (∃ results, inputs.mapM f = .ok results) ↔ ∀ a ∈ inputs, f a = .ok () := by
  rw [mapM_exists]
  exact forall₂_congr (fun _ _ => ⟨fun ok => ok.choose_spec,fun ok => ⟨(),ok⟩⟩)

theorem verifyRelease_iff : verifyRelease lib fs release = .ok manifest ↔ ∃ entries, Checked lib fs release manifest entries := by
  unfold verifyRelease
  simp only [require_bind_ok,fetch_bind_ok,mapping_bind_ok]
  constructor
  · rintro ⟨regular,_,source,fields,rfl,schema,identity,rest⟩
    obtain ⟨entries,listed,rest⟩ := bind_ok.mp rest
    simp only [require_bind_ok,mapM_bind_ok,pure_ok] at rest
    obtain ⟨⟨whole,distinct⟩,⟨covered,present⟩,closed,_,verified,rfl⟩ := rest
    have files : Json.get fields "files" = .arr entries := by
      unfold entryList at listed
      split at listed
      next same =>
        cases listed
        exact same
      next => cases listed
    exact ⟨entries,source,regular,schema,identity,files,whole,distinct,covered,present,closed,mapM_unit.mp ⟨_,verified⟩⟩
  · rintro ⟨entries,checked⟩
    obtain ⟨_,verified⟩ := mapM_unit.mpr checked.verified
    refine ⟨checked.regular,_,checked.source,manifest,rfl,checked.schema,checked.identity,?_⟩
    rw [checked.files]
    refine bind_ok.mpr ⟨entries,rfl,require_bind_ok.mpr ⟨⟨checked.whole,checked.distinct⟩,?_⟩⟩
    refine require_bind_ok.mpr ⟨⟨checked.covered,checked.present⟩,require_bind_ok.mpr ⟨checked.closed,?_⟩⟩
    exact bind_ok.mpr ⟨_,verified,rfl⟩

theorem mem_actualFiles {text : String} : text ∈ actualFiles fs release ↔
    ∃ p, (p ≠ [] ∧ fs.tree.node (release ++ p) ≠ none ∧ fs.isFile (release ++ p) ∧ p ≠ [manifestName]) ∧
      text = pathText p := by
  unfold actualFiles
  simp only [List.mem_map,List.mem_filter,decide_eq_true_iff]
  constructor
  · rintro ⟨⟨p,n⟩,⟨member,file,apart⟩,rfl⟩
    obtain ⟨some_,here⟩ := Tree.mem_below.mp member
    exact ⟨p,⟨some_,by simp [here],file,apart⟩,rfl⟩
  · rintro ⟨p,⟨some_,inside,file,apart⟩,rfl⟩
    obtain ⟨n,here⟩ := Option.ne_none_iff_exists'.mp inside
    exact ⟨(p,n),⟨Tree.mem_below.mpr ⟨some_,here⟩,file,apart⟩,rfl⟩

theorem named_below {t : Disk.Tree Name} (named : Provenance.Named t) (inside : t.node (release ++ p) ≠ none) :
    ∀ name ∈ p, '/' ∉ name ∧ name ≠ [] ∧ name ≠ ['.'] :=
  fun name member => named _ inside name (List.mem_append_right _ member)

theorem pathText_inj (first : p ≠ []) (second : q ≠ []) (named : ∀ name ∈ p, '/' ∉ name ∧ name ≠ [] ∧ name ≠ ['.'])
    (plain : ∀ name ∈ q, '/' ∉ name ∧ name ≠ [] ∧ name ≠ ['.']) (same : pathText p = pathText q) : p = q := by
  have cut := congrArg segments same
  rwa [pathText,pathText,parts_text first named,parts_text second plain] at cut

theorem Checked.settled (checked : Checked lib fs release manifest entries) :
    fs.follow release = release ∧ ∃ bits, fs.tree.node release = some (.directory bits) := by
  obtain ⟨_,here,bits,rfl,_⟩ := checked.closed release List.mem_cons_self
  exact ⟨fs.settled _ _ here (by simp),bits,here⟩

theorem verifyFile_iff {entry : Fields} (directory : ∃ bits, fs.tree.node release = some (.directory bits)) (some_ : p ≠ [])
    (named : ∀ name ∈ p, '/' ∉ name ∧ name ≠ [] ∧ name ≠ ['.']) (path : lib.textOf entry "path" = pathText p) :
    verifyFile lib fs release entry = .ok () ↔ ∃ content mode, fs.Holds release p content mode ∧
      Json.get entry "sha256" = .str (lib.sha256 content) ∧ Json.get entry "mode" = .str (String.ofList mode.octal) ∧
        ¬ mutable mode := by
  obtain ⟨bits,real⟩ := directory
  have settled := fs.settled _ _ real (by simp)
  unfold verifyFile FileSystem.Holds FileSystem.found
  simp only [path,pathText,located_text some_ named,settled]
  split
  next content mode owner here =>
    have apart : release ≠ fs.follow (release ++ p) := by
      intro same
      rw [← same,real] at here
      cases here
    simp only [require_bind_ok,isText_iff,here]
    constructor
    · rintro ⟨⟨inside,_⟩,⟨sha,octal⟩,last⟩
      exact ⟨content,mode,⟨inside,owner,rfl⟩,sha,octal,require_ok.mp last⟩
    · rintro ⟨_,_,⟨inside,_,same⟩,sha,octal,closed⟩
      cases same
      exact ⟨⟨inside,apart⟩,⟨sha,octal⟩,require_ok.mpr closed⟩
  next other =>
    constructor
    · rintro ⟨⟩
    · rintro ⟨content,mode,⟨_,owner,here⟩,_⟩
      exact absurd here (other content mode owner)

theorem Checked.entry (checked : Checked lib fs release manifest entries) (named : Provenance.Named fs.tree) (some_ : p ≠ [])
    (apart : p ≠ [manifestName]) (offers : Offers fs release p content mode) :
    fs.Holds release p content mode ∧ ¬ mutable mode ∧ ∃ entry ∈ mappings entries, lib.textOf entry "path" = pathText p ∧
      Json.get entry "sha256" = .str (lib.sha256 content) ∧ Json.get entry "mode" = .str (String.ofList mode.octal) := by
  obtain ⟨inside,owner,here⟩ := offers
  have listed := checked.covered _ (mem_actualFiles.mpr ⟨p,⟨some_,inside,⟨_,_,_,here⟩,apart⟩,rfl⟩)
  obtain ⟨entry,member,path⟩ := List.mem_map.mp listed
  obtain ⟨bytes,bits,holds,sha,octal,closed⟩ :=
    (verifyFile_iff checked.settled.2 some_ (named_below named inside) path).mp (checked.verified entry member)
  obtain ⟨_,same⟩ := holds.2
  cases here.symm.trans same
  exact ⟨holds,closed,entry,member,path,sha,octal⟩

theorem Checked.offers (checked : Checked lib fs release manifest entries) (named : Provenance.Named fs.tree) {entry : Fields}
    (member : entry ∈ mappings entries) : ∃ p content mode, p ≠ [] ∧ p ≠ [manifestName] ∧
      lib.textOf entry "path" = pathText p ∧ Offers fs release p content mode ∧
        Json.get entry "sha256" = .str (lib.sha256 content) ∧ Json.get entry "mode" = .str (String.ofList mode.octal) := by
  obtain ⟨p,⟨some_,inside,_,apart⟩,path⟩ := mem_actualFiles.mp (checked.present _ (List.mem_map_of_mem member))
  obtain ⟨bytes,bits,⟨_,here⟩,sha,octal,_⟩ :=
    (verifyFile_iff checked.settled.2 some_ (named_below named inside) path).mp (checked.verified entry member)
  exact ⟨p,bytes,bits,some_,apart,path,⟨inside,here⟩,sha,octal⟩

theorem Checked.carried (collisionFree : Function.Injective lib.sha256) {other : FileSystem Name} {place : List Name}
    (named : Provenance.Named fs.tree) (plain : Provenance.Named other.tree) (checked : Checked lib fs release manifest entries)
    (accepted : Checked lib other place manifest entries) (some_ : p ≠ []) (apart : p ≠ [manifestName])
    (offers : Offers fs release p content mode) : Offers other place p content mode := by
  obtain ⟨_,_,entry,member,path,sha,octal⟩ := checked.entry named some_ apart offers
  obtain ⟨q,bytes,bits,proper,_,same,found,digest,format⟩ := accepted.offers plain member
  cases pathText_inj some_ proper (named_below named offers.1) (named_below plain found.1) (path.symm.trans same)
  cases collisionFree (Json.str.inj (sha.symm.trans digest))
  cases Mode.octal_injective (String.ofList_injective (Json.str.inj (octal.symm.trans format)))
  exact found

end Checks

/-- A manifest pins its release: two releases that are let in with the same manifest hold the same
files with the same bits, none of which can be written to or lies outside. -/
theorem manifest_pins_release (collisionFree : Function.Injective lib.sha256) (other : FileSystem Name)
    (release place : List Name) (named : Provenance.Named fs.tree) (plain : Provenance.Named other.tree)
    (same : fs.read (release ++ [manifestName]) = other.read (place ++ [manifestName])) (one two : Fields)
    (first : verifyRelease lib fs release = .ok one) (second : verifyRelease lib other place = .ok two)
    (p : List Name) (some_ : p ≠ []) (apart : p ≠ [manifestName]) (content : Bytes) (mode : Mode) :
    (Offers fs release p content mode ↔ Offers other place p content mode) ∧
      (Offers fs release p content mode → ¬ mutable mode ∧ release <+: fs.follow (release ++ p)) := by
  obtain ⟨entries,checked⟩ := verifyRelease_iff.mp first
  obtain ⟨others,accepted⟩ := verifyRelease_iff.mp second
  have document := accepted.source
  rw [← same,checked.source] at document
  cases document
  cases checked.files.symm.trans accepted.files
  refine ⟨⟨checked.carried collisionFree named plain accepted some_ apart,
    accepted.carried collisionFree plain named checked some_ apart⟩,fun offers => ?_⟩
  obtain ⟨holds,closed,_⟩ := checked.entry named some_ apart offers
  exact ⟨closed,holds.1⟩

end Activate

/-- What `sjg-install` leaves behind: the copies in the staging directory, and the bytes of the
manifest that it writes of them once their bits are set. -/
structure Installation (lib : SealLibrary) where
  copied : FileSystem Name
  staging : List Name
  version : String
  sourceCommit : String
  sourceState : String
  sourceDigest : String
  rows : List Json
  bytes : Bytes
  named : Provenance.Named copied.tree
  bare : copied.tree.node (staging ++ [manifestName]) = none
  listed : Install.digestTree lib (Install.freeze staging copied) staging = .ok rows
  written : lib.loads bytes = some (Install.manifest rows version sourceCommit sourceState sourceDigest)

namespace Installation
open Activate
variable {lib : SealLibrary}

def Installed (i : Installation lib) (p : List Name) (content : Bytes) (mode : Mode) : Prop :=
  p ≠ [] ∧ ∃ owner, (Install.freeze i.staging i.copied).tree.node (i.staging ++ p) = some (.file content mode owner)

def library (i : Installation lib) (p : List Name) : Option Bytes := i.copied.tree.content (i.staging ++ libName::p)

/-- The release still holds what was installed, holds no other files, and nobody can write to its
directories. -/
structure Intact (i : Installation lib) (fs : FileSystem Name) (release : List Name) : Prop where
  files : ∀ p content mode, i.Installed p content mode →
    fs.tree.node (release ++ p) ≠ none ∧ fs.Holds release p content mode
  only : ∀ p, p ≠ [] → p ≠ [manifestName] → fs.tree.node (release ++ p) ≠ none → fs.isFile (release ++ p) →
    ∃ content mode, i.Installed p content mode
  closed : safeDirectory fs release ∧ ∀ p, p ≠ [] → fs.tree.node (release ++ p) ≠ none → fs.isDirectory (release ++ p) →
    safeDirectory fs (release ++ p)

section Rows
variable {i : Installation lib} {p : List Name} {content : Bytes} {mode : Mode}

theorem Installed.closed (installed : i.Installed p content mode) : ¬ mutable mode := by
  obtain ⟨some_,owner,here⟩ := installed
  unfold Install.freeze FileSystem.regrade at here
  rw [Tree.node_regrade,Option.map_eq_some_iff] at here
  obtain ⟨old,_,same⟩ := here
  cases old with
  | file bytes bits holder =>
    simp only [Node.regrade,Node.file.injEq] at same
    obtain ⟨_,rfl,_⟩ := same
    split
    next => decide
    next =>
      rw [if_pos (List.prefix_append _ _)]
      decide
  | _ => cases same

theorem staged_named {n : Node} (here : (Install.freeze i.staging i.copied).tree.node (i.staging ++ p) = some n) :
    ∀ name ∈ p, '/' ∉ name ∧ name ≠ [] ∧ name ≠ ['.'] := by
  refine @named_below i.staging p _ i.named (fun absent => ?_)
  unfold Install.freeze FileSystem.regrade at here
  rw [Tree.node_regrade,absent] at here
  cases here

theorem Installed.apart (installed : i.Installed p content mode) : p ≠ [manifestName] := by
  obtain ⟨_,owner,here⟩ := installed
  unfold Install.freeze FileSystem.regrade at here
  rintro rfl
  rw [Tree.node_regrade,i.bare] at here
  cases here

theorem mem_rows {value : Json} : value ∈ i.rows ↔
    ∃ p content mode, i.Installed p content mode ∧ value = .obj (lib.entry p mode content) := by
  rw [mem_mapM i.listed]
  simp only [List.mem_insertionSort,List.mem_filter,decide_eq_true_iff]
  constructor
  · rintro ⟨⟨p,n⟩,⟨member,_⟩,ok⟩
    obtain ⟨some_,here⟩ := Tree.mem_below.mp member
    cases n with
    | file content mode owner =>
      cases ok
      exact ⟨p,content,mode,⟨some_,owner,here⟩,rfl⟩
    | _ => cases ok
  · rintro ⟨p,content,mode,⟨some_,owner,here⟩,rfl⟩
    refine ⟨(p,.file content mode owner),⟨Tree.mem_below.mpr ⟨some_,here⟩,content,mode,owner,?_⟩,rfl⟩
    exact found_settled here (by simp)

theorem row_paths {items : List (List Name × Node)} {rows : List Json} (ok : items.mapM (Install.row lib) = .ok rows) :
    (mappings rows).map (fun entry => lib.textOf entry "path") = items.map (fun item => pathText item.1) ∧
      rows.length = items.length := by
  induction items generalizing rows with
  | nil =>
    cases pure_ok.mp ok
    exact ⟨rfl,rfl⟩
  | cons item rest ih =>
    simp only [List.mapM_cons,bind_ok,pure_ok] at ok
    obtain ⟨value,first,others,later,rfl⟩ := ok
    obtain ⟨paths,count⟩ := ih later
    obtain ⟨p,n⟩ := item
    cases n with
    | file content mode owner =>
      cases first
      refine ⟨?_,by rw [List.length_cons,List.length_cons,count]⟩
      exact congrArg₂ List.cons textOf_entry paths
    | _ => cases first

theorem rows_distinct : ((mappings i.rows).map (fun entry => lib.textOf entry "path")).length = i.rows.length ∧
    ((mappings i.rows).map (fun entry => lib.textOf entry "path")).Nodup := by
  obtain ⟨paths,count⟩ := row_paths i.listed
  rw [paths,List.length_map,count]
  refine ⟨rfl,?_⟩
  have each : (((Install.freeze i.staging i.copied).tree.below i.staging).map Prod.fst).Nodup := Tree.below_nodup
  have filtered := (each.of_map _).filter (fun item => decide ((Install.freeze i.staging i.copied).isFile (i.staging ++ item.1)))
  refine (((List.perm_insertionSort _ _).nodup_iff).mpr filtered).map_on ?_
  rintro ⟨p,n⟩ one ⟨q,m⟩ other same
  rw [List.mem_insertionSort,List.mem_filter] at one other
  obtain ⟨first,here⟩ := Tree.mem_below.mp one.1
  obtain ⟨second,there⟩ := Tree.mem_below.mp other.1
  cases pathText_inj first second (staged_named here) (staged_named there) same
  cases here.symm.trans there
  rfl

end Rows

section Verify
variable {i : Installation lib} {fs : FileSystem Name} {release p : List Name} {content : Bytes} {mode : Mode}
  {manifest : Fields}

theorem manifest_fields : ∃ fields, lib.loads i.bytes = some (.obj fields) ∧
    isOne (Json.get fields "schemaVersion") = true ∧ Json.get fields "version" = .str i.version ∧
    Json.get fields "sourceTreeSha256" = .str i.sourceDigest ∧ Json.get fields "files" = .arr i.rows ∧
    isTrue (Json.get fields "releaseQualified") = decide (i.sourceState = "clean") ∧
    lib.textOf fields "sourceCommit" = i.sourceCommit :=
  ⟨_,i.written,rfl,rfl,rfl,rfl,rfl,Json.textOr_str _ _⟩

theorem mem_mappings {rows : List Json} {entry : Fields} : entry ∈ mappings rows ↔ .obj entry ∈ rows := by
  rw [mappings,List.mem_filterMap]
  constructor
  · rintro ⟨value,member,kept⟩
    cases value with
    | obj fields =>
      cases kept
      exact member
    | _ => cases kept
  · intro member
    exact ⟨_,member,rfl⟩

theorem mem_entries {entry : Fields} : entry ∈ mappings i.rows ↔
    ∃ p content mode, i.Installed p content mode ∧ entry = lib.entry p mode content := by
  rw [mem_mappings,mem_rows]
  simp only [Json.obj.injEq]

theorem Installed.verified (collisionFree : Function.Injective lib.sha256) (installed : i.Installed p content mode)
    (directory : ∃ bits, fs.tree.node release = some (.directory bits)) :
    verifyFile lib fs release (lib.entry p mode content) = .ok () ↔ fs.Holds release p content mode := by
  rw [verifyFile_iff directory installed.1 (staged_named installed.2.choose_spec) textOf_entry]
  constructor
  · rintro ⟨bytes,bits,holds,sha,octal,_⟩
    cases collisionFree (Json.str.inj sha)
    cases Mode.octal_injective (String.ofList_injective (Json.str.inj octal))
    exact holds
  · intro holds
    exact ⟨content,mode,holds,rfl,rfl,installed.closed⟩

theorem mem_directories {path : List Name} : path ∈ directories fs release ↔ path = release ∨
    ∃ p, p ≠ [] ∧ fs.tree.node (release ++ p) ≠ none ∧ fs.isDirectory (release ++ p) ∧ path = release ++ p := by
  unfold directories
  simp only [List.mem_cons,List.mem_map,List.mem_filter,decide_eq_true_iff]
  refine or_congr Iff.rfl ⟨?_,?_⟩
  · rintro ⟨⟨p,n⟩,⟨member,folder⟩,rfl⟩
    obtain ⟨some_,here⟩ := Tree.mem_below.mp member
    exact ⟨p,some_,by simp [here],folder,rfl⟩
  · rintro ⟨p,some_,inside,folder,rfl⟩
    obtain ⟨n,here⟩ := Option.ne_none_iff_exists'.mp inside
    exact ⟨(p,n),⟨Tree.mem_below.mpr ⟨some_,here⟩,folder⟩,rfl⟩

/-- With its manifest in place a release is let in just when it is intact. -/
theorem verifies_iff (collisionFree : Function.Injective lib.sha256) (named : Provenance.Named fs.tree)
    (source : ∃ mode owner, fs.tree.node (release ++ [manifestName]) = some (.file i.bytes mode owner)) :
    verifyRelease lib fs release = .ok manifest ↔ lib.loads i.bytes = some (.obj manifest) ∧ i.Intact fs release := by
  obtain ⟨fields,loaded,schema,version,digest,files,_⟩ := @manifest_fields lib i
  obtain ⟨bits,owner,here⟩ := source
  have reads : (fs.read (release ++ [manifestName])).bind lib.loads = some (.obj fields) := by
    rw [(Holds.settled here).read]
    exact loaded
  rw [verifyRelease_iff]
  constructor
  · rintro ⟨entries,checked⟩
    cases checked.source.symm.trans reads
    cases checked.files.symm.trans files
    refine ⟨loaded,?_,?_,?_⟩
    · intro p content mode installed
      have member := mem_entries.mpr ⟨p,content,mode,installed,rfl⟩
      obtain ⟨q,_,_,some_,_,path,offers,_⟩ := checked.offers named member
      have same : p = q := pathText_inj installed.1 some_ (staged_named installed.2.choose_spec) (named_below named offers.1)
        (textOf_entry.symm.trans path)
      refine ⟨same ▸ offers.1,?_⟩
      exact (installed.verified collisionFree checked.settled.2).mp (checked.verified _ member)
    · rintro p some_ apart inside ⟨content,mode,owner,file⟩
      obtain ⟨_,_,entry,member,path,_⟩ := checked.entry named some_ apart ⟨inside,owner,file⟩
      obtain ⟨q,bytes,bits,installed,rfl⟩ := mem_entries.mp member
      have same : q = p := pathText_inj installed.1 some_ (staged_named installed.2.choose_spec) (named_below named inside)
        (textOf_entry.symm.trans path)
      exact ⟨bytes,bits,same ▸ installed⟩
    · refine ⟨checked.closed _ (mem_directories.mpr (.inl rfl)),fun p some_ inside folder => ?_⟩
      exact checked.closed _ (mem_directories.mpr (.inr ⟨p,some_,inside,folder,rfl⟩))
  · rintro ⟨same,intact⟩
    cases loaded.symm.trans same
    obtain ⟨whole,distinct⟩ := @rows_distinct lib i
    obtain ⟨_,real,bits,rfl,_⟩ := intact.closed.1
    refine ⟨i.rows,reads,⟨by simp [here],_,_,_,found_settled here (by simp)⟩,schema,?_,files,whole,distinct,?_,?_,?_,?_⟩
    · rw [version,digest]
      exact ⟨trivial,trivial⟩
    · intro text actual
      obtain ⟨p,⟨some_,inside,file,apart⟩,rfl⟩ := mem_actualFiles.mp actual
      obtain ⟨content,mode,installed⟩ := intact.only p some_ apart inside file
      exact List.mem_map.mpr ⟨_,mem_entries.mpr ⟨p,content,mode,installed,rfl⟩,textOf_entry⟩
    · intro text listed
      obtain ⟨entry,member,rfl⟩ := List.mem_map.mp listed
      obtain ⟨p,content,mode,installed,rfl⟩ := mem_entries.mp member
      obtain ⟨inside,holds⟩ := intact.files p content mode installed
      refine mem_actualFiles.mpr ⟨p,⟨installed.1,inside,?_,installed.apart⟩,textOf_entry⟩
      exact ⟨content,mode,holds.2⟩
    · intro directory member
      rcases mem_directories.mp member with rfl | ⟨p,some_,inside,folder,rfl⟩
      · exact intact.closed.1
      · exact intact.closed.2 p some_ inside folder
    · intro entry member
      obtain ⟨p,content,mode,installed,rfl⟩ := mem_entries.mp member
      exact (installed.verified collisionFree ⟨bits,real⟩).mpr (intact.files p content mode installed).2

theorem content_freeze {p : List Name} : (Install.freeze i.staging i.copied).tree.content p = i.copied.tree.content p := by
  unfold Install.freeze FileSystem.regrade Tree.content
  rw [Tree.node_regrade]
  cases i.copied.tree.node p with
  | none => rfl
  | some n => cases n <;> rfl

theorem installed_iff : (∃ mode, i.Installed p content mode) ↔ p ≠ [] ∧ i.copied.tree.content (i.staging ++ p) = some content := by
  rw [← content_freeze,Tree.content_eq_some]
  constructor
  · rintro ⟨mode,some_,owner,here⟩
    exact ⟨some_,mode,owner,here⟩
  · rintro ⟨some_,mode,owner,here⟩
    exact ⟨mode,some_,owner,here⟩

theorem Intact.library (intact : i.Intact fs release) : Activate.library fs release = i.library := by
  funext p
  obtain ⟨q,below⟩ : ∃ q, q = libName::p := ⟨_,rfl⟩
  have some_ : q ≠ [] := below ▸ List.cons_ne_nil _ _
  have apart : q ≠ [manifestName] := by
    rintro rfl
    exact absurd (List.cons.inj below).1 (by decide)
  rw [Activate.library,Installation.library,← below]
  cases here : i.copied.tree.content (i.staging ++ q) with
  | some content =>
    obtain ⟨mode,installed⟩ := installed_iff.mpr ⟨some_,here⟩
    obtain ⟨inside,holds⟩ := intact.files q content mode installed
    rw [if_neg inside,holds.read]
  | none =>
    split
    next => rfl
    next inside =>
      cases read : fs.read (release ++ q) with
      | none => rfl
      | some content =>
        obtain ⟨mode,owner,file⟩ := Tree.content_eq_some.mp read
        obtain ⟨bytes,bits,installed⟩ := intact.only q some_ apart inside ⟨content,mode,owner,file⟩
        rw [(installed_iff.mp ⟨bits,installed⟩).2] at here
        cases here

/-- The options name a release below an installation prefix, and nothing is in the way. -/
structure Placed (request : Activate.Request) (fs : FileSystem Name) : Prop where
  version : Policy.semanticVersion request.version
  absolute : PosixPath.root request.prefix_.toList ≠ []
  below : ¬ (PosixPath.root request.prefix_.toList = ['/'] ∧ parts request.prefix_.toList = [])
  releases : fs.tree.node (request.releases fs) ≠ none
  inside : (request.release fs).dropLast = request.releases fs
  free : fs.tree.node (request.base fs ++ [request.temporary]) = none ∧ ¬ fs.present (request.base fs ++ [request.temporary])

theorem control_fields (s : Orggen.Stamp) (version sourceDigest : String) : ∃ fields control,
    Orggen.organizationDocument s version sourceDigest = .obj fields ∧
      mappingOr (Json.get fields "controlRelease") = .ok control ∧
      Json.get control "version" = .str (PythonText.strip version) ∧ Json.get control "sourceTreeSha256" = .str sourceDigest :=
  ⟨_,_,rfl,rfl,rfl,rfl⟩

/-- A stamped organization is given a release just when the release is intact, is the one that the
stamp is bound to, compiles the organization and is not dirty. -/
theorem activates_iff (imports : (List Name → Option Bytes) → Option Compiler) (collisionFree : Function.Injective lib.sha256)
    (named : Provenance.Named fs.tree) (s : Orggen.Stamp) (version sourceDigest : String) (request : Activate.Request)
    (organization : (fs.read request.organization).bind lib.loads = some (Orggen.organizationDocument s version sourceDigest))
    (source : ∃ mode owner, fs.tree.node (request.release fs ++ [manifestName]) = some (.file i.bytes mode owner)) :
    (∃ release, Activate.main lib fs imports request = .ok release) ↔ Placed request fs ∧ i.Intact fs (request.release fs) ∧
      (PythonText.strip version = i.version ∧ sourceDigest = i.sourceDigest) ∧
      (∃ compilePolicy policy, imports i.library = some compilePolicy ∧
        compilePolicy (Orggen.organizationDocument s version sourceDigest) i.sourceCommit = .ok policy) ∧
      (request.allowDirty = true ∨ i.sourceState = "clean") := by
  obtain ⟨fields,loaded,_,manifestVersion,manifestDigest,_,qualified,commit⟩ := @manifest_fields lib i
  obtain ⟨values,control,document,release,controlVersion,controlDigest⟩ := control_fields s version sourceDigest
  have same {a b : String} : lib.same (.str a) (.str b) = true ↔ a = b := decide_eq_true_iff
  unfold Activate.main
  simp only [require_bind_ok]
  constructor
  · rintro ⟨_,version_,absolute,below,_,releases,inside,rest⟩
    obtain ⟨manifest,verified,rest⟩ := bind_ok.mp rest
    obtain ⟨decoded,intact⟩ := (verifies_iff collisionFree named source).mp verified
    cases decoded.symm.trans loaded
    simp only [fetch_bind_ok,mapping_bind_ok,mappingOr_bind_ok,require_bind_ok] at rest
    obtain ⟨_,found,fields,shape,expected,own,sameVersion,sameDigest,compile,imported,rest⟩ := rest
    cases found.symm.trans organization
    cases shape.symm.trans document
    cases own.symm.trans release
    rw [controlVersion,manifestVersion] at sameVersion
    rw [controlDigest,manifestDigest] at sameDigest
    rw [intact.library] at imported
    rw [commit] at rest
    split at rest
    next => cases rest
    next policy compiled =>
      simp only [require_bind_ok,qualified,decide_eq_true_iff] at rest
      obtain ⟨clean,free,_⟩ := rest
      exact ⟨⟨version_,absolute,below,releases,inside,free⟩,intact,⟨same.mp sameVersion,same.mp sameDigest⟩,
        ⟨compile,policy,imported,compiled⟩,clean⟩
  · rintro ⟨placed,intact,⟨sameVersion,sameDigest⟩,⟨compile,policy,imported,compiled⟩,clean⟩
    obtain ⟨n,here,_⟩ := intact.closed.1
    have stands := Option.ne_none_iff_exists'.mpr ⟨n,here⟩
    have verified := (verifies_iff collisionFree named source).mpr ⟨loaded,intact⟩
    refine ⟨request.release fs,placed.version,placed.absolute,placed.below,stands,placed.releases,placed.inside,
      bind_ok.mpr ⟨_,verified,?_⟩⟩
    simp only [fetch_bind_ok,mapping_bind_ok,mappingOr_bind_ok,require_bind_ok]
    refine ⟨_,organization,_,document,_,release,?_,?_,compile,intact.library ▸ imported,?_⟩
    · rw [controlVersion,manifestVersion]
      exact same.mpr sameVersion
    · rw [controlDigest,manifestDigest]
      exact same.mpr sameDigest
    · rw [commit,compiled]
      simp only [require_bind_ok,qualified,decide_eq_true_iff]
      exact ⟨clean,placed.free,rfl⟩

end Verify
end Installation

/-! A small release. -/

namespace Install

def rowOf (item : String × Mode × UInt8) : Json :=
  .obj [("mode",.str (String.ofList item.2.1.octal)),("path",.str item.1),("sha256",.str (spelled [item.2.2]))]

def smallRows : List Json :=
  [("bin/sjg-supervisor",0o555#12,3),("lib/sjg_control/__init__.py",0o444#12,5),("lib/sjg_control/policy.py",0o444#12,4)].map
    rowOf

def smallFields : Fields :=
  [("files",.arr smallRows),("releaseQualified",.bool true),("schemaVersion",.int 1),("sourceCommit",.str "c0"),
    ("sourceState",.str "clean"),("sourceTreeSha256",.str Orggen.rulesDigest),("version",.str "1.0.0")]

def small : SealLibrary where
  render := fun _ => ""
  sha256 := spelled
  loads := fun data =>
    if data = [9] then some (.obj smallFields)
    else if data = [1] then some (Orggen.organizationDocument Orggen.acme "1.0.0\n" Orggen.rulesDigest)
    else none
  readText := fun _ => none
  equal := fun _ _ => false
  digested := Provenance.small.digested

def smallInstallation : Installation small where
  copied := {
    tree := grown [("t",.directory 0o755#12),("t/bin",.directory 0o755#12),("t/lib",.directory 0o755#12),
      ("t/lib/sjg_control",.directory 0o755#12),("t/bin/sjg-supervisor",.file [3] 0o644#12 0),
      ("t/lib/sjg_control/__init__.py",.file [5] 0o644#12 0),("t/lib/sjg_control/policy.py",.file [4] 0o644#12 0)]
    follow := id
    settled := fun _ _ _ _ => rfl }
  staging := segments "t"
  version := "1.0.0"
  sourceCommit := "c0"
  sourceState := "clean"
  sourceDigest := Orggen.rulesDigest
  rows := smallRows
  bytes := [9]
  named := named_grown _
  bare := by decide +kernel
  listed := rfl
  written := rfl

def released : FileSystem Name where
  tree := grown [("sjg",.directory 0o755#12),("sjg/releases",.directory 0o755#12),("sjg/releases/1.0.0",.directory 0o555#12),
    ("sjg/releases/1.0.0/bin",.directory 0o555#12),("sjg/releases/1.0.0/lib",.directory 0o555#12),
    ("sjg/releases/1.0.0/lib/sjg_control",.directory 0o555#12),("sjg/releases/1.0.0/bin/sjg-supervisor",.file [3] 0o555#12 0),
    ("sjg/releases/1.0.0/lib/sjg_control/__init__.py",.file [5] 0o444#12 0),
    ("sjg/releases/1.0.0/lib/sjg_control/policy.py",.file [4] 0o444#12 0),
    ("sjg/releases/1.0.0/MANIFEST.json",.file [9] 0o444#12 0),("organization.yaml",.file [1] 0o644#12 0)]
  follow := id
  settled := fun _ _ _ _ => rfl

def elsewhere : FileSystem Name where
  tree := grown [("r",.directory 0o500#12),("r/bin",.directory 0o500#12),("r/lib",.directory 0o500#12),
    ("r/lib/sjg_control",.directory 0o500#12),("r/bin/sjg-supervisor",.file [3] 0o555#12 1),
    ("r/lib/sjg_control/__init__.py",.file [5] 0o444#12 1),("r/lib/sjg_control/policy.py",.file [4] 0o444#12 1),
    ("r/MANIFEST.json",.file [9] 0o644#12 1)]
  follow := id
  settled := fun _ _ _ _ => rfl

/-- The bytes of the package stand for its source, and no other library holds it. -/
def imports (files : List Name → Option Bytes) : Option Activate.Compiler :=
  if files (segments "sjg_control/__init__.py") = some [5] ∧ files (segments "sjg_control/policy.py") = some [4] then
    some (Policy.compilePolicy Served.quietLibrary)
  else none

def request : Activate.Request := ⟨"/sjg","1.0.0",segments "organization.yaml",false,".current.7".toList⟩

end Install

/-- A copy elsewhere that is let in with the same manifest has the same policy. -/
theorem manifest_pins_small :
    Activate.Offers Install.released (segments "sjg/releases/1.0.0") (segments "lib/sjg_control/policy.py") [4] 0o444#12 :=
  (Activate.manifest_pins_release Install.small Install.elsewhere spelled_injective Install.released (segments "r")
    (segments "sjg/releases/1.0.0") (named_grown _) (named_grown _) (by decide +kernel) Install.smallFields Install.smallFields
    rfl rfl (segments "lib/sjg_control/policy.py") (by decide) (by decide) [4] 0o444#12).1.mp ⟨by decide +kernel,1,by decide +kernel⟩

end SjgControl

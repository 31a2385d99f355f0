import SjgControl.SourceTree
import SjgControl.Submission

/-! `repository_manifest`: the changes that are submitted, from what `git diff` reports. -/
namespace SjgControl
open Relational FileTree

/-- `ProtocolError`, or the name of what Git, a decoding or a file call raises. -/
inductive ManifestException where
  | protocol (message : String)
  | exception (name : String)
  deriving DecidableEq

/-- `data.decode("utf-8", "strict")`. -/
def decodeUtf8 (data : Bytes) : Option String := String.fromUTF8? data.toByteArray

theorem decodeUtf8_utf8 (text : String) : decodeUtf8 (utf8 text) = some text := by
  have same : (utf8 text).toByteArray = text.toByteArray := String.utf8Encode_toList
  unfold decodeUtf8
  rw [same,String.fromUTF8?,dif_pos text.isValidUTF8]
  rfl

/-- `data.decode("ascii", "strict")`. -/
def decodeAscii (data : Bytes) : Option String :=
  if data.all (fun b => b < 128) then some (String.ofList (data.map (fun b => Char.ofNat b.toNat))) else none

def symlinkMode : String := "120000"

/-- Where a submodule is checked out there is a directory. -/
def submoduleMode : String := "160000"

namespace Manifest
variable (lib : Library) (encode : Bytes → String)

def deletion (path : String) : Json :=
  .obj [("operation",.str "delete"),("path",.str path),("mode",.str "100644")]

def upsertion (path : String) (file : File) : Json :=
  .obj [("operation",.str "upsert"),("path",.str path),
    ("mode",.str (if file.mode = "100755" then "100755" else "100644")),("sha256",.str (lib.sha256 file.content)),
    ("content_base64",.str (encode file.content))]

def upsert (workspace : GitTree) (path : String) : Except ManifestException Json := do
  let p := PosixPath.split path.toList
  let file ← fetch (workspace.get p) (.exception "FileNotFoundError")
  require (file.mode ≠ symlinkMode) (.protocol ("changed path is a symlink: " ++ path))
  require (PosixPath.root path.toList = [] ∧ ['.','.'] ∉ p) (.protocol ("changed path escapes workspace: " ++ path))
  require (file.mode ≠ submoduleMode) (.exception "IsADirectoryError")
  require (file.content.length ≤ 2 * 1024 * 1024) (.protocol ("changed file exceeds two-megabyte limit: " ++ path))
  return upsertion lib encode path file

def loop (workspace : GitTree) : List Bytes → List Json → Except ManifestException (List Json)
  | [],changes => .ok changes
  | field::rest,changes =>
    if field = [] then .ok changes
    else do
      let status ← fetch (decodeAscii field) (.exception "UnicodeDecodeError")
      if status.toList.head? = some 'R' ∨ status.toList.head? = some 'C' then
        match rest with
        | old::new::rest => do
          let old ← fetch (decodeUtf8 old) (.exception "UnicodeDecodeError")
          let new ← fetch (decodeUtf8 new) (.exception "UnicodeDecodeError")
          let change ← upsert lib encode workspace new
          loop workspace rest (changes ++ [deletion old] ++ [change])
        | _ => .error (.exception "IndexError")
      else
        match rest with
        | path::rest => do
          let path ← fetch (decodeUtf8 path) (.exception "UnicodeDecodeError")
          if status = "D" then loop workspace rest (changes ++ [deletion path])
          else do
            let change ← upsert lib encode workspace path
            loop workspace rest (changes ++ [change])
        | [] => .error (.exception "IndexError")

/-- `repository_manifest`, from what the three Git commands print. -/
def repositoryManifest (workspace : GitTree) (baseOid : Except ManifestException String)
    (untracked diff : Except ManifestException Bytes) : Except ManifestException (String × List Json) := do
  let baseOid ← baseOid
  let untracked ← untracked
  require (untracked = []) (.protocol "untracked files are not submitted; commit or remove them first")
  let raw ← diff
  let changes ← loop lib encode workspace (raw.splitOn 0) []
  require (changes.length ≤ 200) (.protocol "submission exceeds 200 changed paths")
  return (baseOid,changes)

/-! What Git reports, and what the changes make of the base. -/

abbrev TreePath := List PosixPath.Name

def Nameable (p : TreePath) : Prop :=
  p ≠ [] ∧ ∀ name ∈ p, name ≠ [] ∧ '/' ∉ name ∧ '\x00' ∉ name ∧ name ≠ ['.'] ∧ name ≠ ['.','.']

instance : DecidablePred Nameable := fun p => inferInstanceAs (Decidable (p ≠ [] ∧
  ∀ name ∈ p, name ≠ [] ∧ '/' ∉ name ∧ '\x00' ∉ name ∧ name ≠ ['.'] ∧ name ≠ ['.','.']))

/-- What Git tracks in a work tree: files, executable or not, links and submodules. -/
structure Worktree where
  tree : GitTree
  named : ∀ p, tree.get p ≠ none → Nameable p
  kinds : ∀ p file, tree.get p = some file → file.mode ∈ ["100755","100644",symlinkMode,submoduleMode]

/-- One record of `git diff --name-status`; renames and copies carry a similarity. -/
inductive DiffRecord where
  | added (p : TreePath)
  | modified (p : TreePath)
  | typeChanged (p : TreePath)
  | deleted (p : TreePath)
  | renamed (similarity : Nat) (old new : TreePath)
  | copied (similarity : Nat) (old new : TreePath)

namespace DiffRecord

def pathText (p : TreePath) : String := String.ofList (PosixPath.join p)

/-- Three decimal digits. -/
def percent (similarity : Nat) : Bytes :=
  [similarity / 100 % 10,similarity / 10 % 10,similarity % 10].map (fun digit => UInt8.ofNat (48 + digit))

/-- The fields of a record, each of which is followed by a NUL byte. -/
def fields : DiffRecord → List Bytes
  | added p => [[65],utf8 (pathText p)]
  | modified p => [[77],utf8 (pathText p)]
  | typeChanged p => [[84],utf8 (pathText p)]
  | deleted p => [[68],utf8 (pathText p)]
  | renamed similarity old new => [82::percent similarity,utf8 (pathText old),utf8 (pathText new)]
  | copied similarity old new => [67::percent similarity,utf8 (pathText old),utf8 (pathText new)]

/-- The paths of a record at which it sees the two trees differ. -/
def differing : DiffRecord → List TreePath
  | added p => [p]
  | modified p => [p]
  | typeChanged p => [p]
  | deleted p => [p]
  | renamed _ old new => [old,new]
  | copied _ _ new => [new]

def copies : DiffRecord → Bool
  | copied _ _ _ => true
  | _ => false

/-- The paths that the changes of a record clear, and those that they write. -/
def cleared : DiffRecord → List TreePath
  | deleted p => [p]
  | renamed _ old _ => [old]
  | copied _ old _ => [old]
  | _ => []

def written : DiffRecord → List TreePath
  | deleted _ => []
  | added p => [p]
  | modified p => [p]
  | typeChanged p => [p]
  | renamed _ _ new => [new]
  | copied _ _ new => [new]

/-- The paths that the changes of a record name, in their order. -/
def changed (record : DiffRecord) : List TreePath := record.cleared ++ record.written

/-- What a record says of the two trees. A file that was only touched counts as modified while
Git's index has not been refreshed. -/
def Holds (base workspace : GitTree) : DiffRecord → Prop
  | added p => base.get p = none ∧ workspace.get p ≠ none
  | modified p => base.get p ≠ none ∧ workspace.get p ≠ none
  | typeChanged p => (base.get p ≠ none ∧ base.get p ≠ workspace.get p) ∧ workspace.get p ≠ none
  | deleted p => base.get p ≠ none ∧ workspace.get p = none
  | renamed _ old new => (base.get old ≠ none ∧ workspace.get old = none) ∧ workspace.get new ≠ none
  | copied _ old new => (base.get old ≠ none ∧ workspace.get old = base.get old) ∧ workspace.get new ≠ none

end DiffRecord

/-- The records are true, and every path that differs is in one of them. No path is in two. -/
structure Reports (base : GitTree) (workspace : GitTree) (records : List DiffRecord) : Prop where
  each : ∀ record ∈ records, record.Holds base workspace
  every : ∀ p, base.get p ≠ workspace.get p → p ∈ records.flatMap DiffRecord.differing
  once : (records.flatMap DiffRecord.differing).Nodup
  named : ∀ p, base.get p ≠ none → Nameable p

def diffOutput (records : List DiffRecord) : Bytes :=
  (records.flatMap DiffRecord.fields).flatMap (fun field => field ++ [0])

/-- A change takes the file at its path away, or puts the one it carries there. -/
def applyChange (lib : Library) (files : TreePath → Option File) (change : Json) : TreePath → Option File :=
  fun p => if target change = p then supplied lib change else files p

/-- The changes turn the base into the workspace, and none names the path of another. -/
def Reproduces (lib : Library) (base workspace : GitTree) (changes : List Json) : Prop :=
  (∀ p, changes.foldl (applyChange lib) base.get p = workspace.get p) ∧ (changes.map target).Nodup

/-- The changes for one record, where the workspace holds what it names. -/
def changesOf (lib : Library) (encode : Bytes → String) (workspace : GitTree) : DiffRecord → List Json
  | .added p => upserted p
  | .modified p => upserted p
  | .typeChanged p => upserted p
  | .deleted p => [deletion (DiffRecord.pathText p)]
  | .renamed _ old new => deletion (DiffRecord.pathText old)::upserted new
  | .copied _ old new => deletion (DiffRecord.pathText old)::upserted new
where
  upserted (p : TreePath) : List Json :=
    match workspace.get p with
    | some file => [upsertion lib encode (DiffRecord.pathText p) file]
    | none => []

variable {lib : Library} {encode : Bytes → String} {base workspace : GitTree}

theorem split_pathText {p : TreePath} (nameable : Nameable p) : PosixPath.split (DiffRecord.pathText p).toList = p := by
  rw [DiffRecord.pathText,String.toList_ofList]
  exact PosixPath.split_join nameable.1 (fun name member => (nameable.2 name member).2.1)

/-- What stands at the path can be sent: a regular file of at most two megabytes. -/
def Sendable (workspace : GitTree) (p : TreePath) : Prop :=
  ∀ file, workspace.get p = some file →
    (file.mode = "100755" ∨ file.mode = "100644") ∧ file.content.length ≤ 2 * 1024 * 1024

theorem upserted_held {p : TreePath} (held : workspace.get p ≠ none) : ∃ file, workspace.get p = some file ∧
    changesOf.upserted lib encode workspace p = [upsertion lib encode (DiffRecord.pathText p) file] := by
  obtain ⟨file,found⟩ := Option.ne_none_iff_exists'.mp held
  refine ⟨file,found,?_⟩
  unfold changesOf.upserted
  rw [found]

theorem upsert_iff {w : Worktree} {p : TreePath} (held : w.tree.get p ≠ none) {change : Json} :
    upsert lib encode w.tree (DiffRecord.pathText p) = .ok change ↔
      Sendable w.tree p ∧ changesOf.upserted lib encode w.tree p = [change] := by
  have nameable := w.named p held
  obtain ⟨file,found,made⟩ := @upserted_held lib encode w.tree p held
  have kind := w.kinds p file found
  have relative : PosixPath.root (DiffRecord.pathText p).toList = [] ∧ ['.','.'] ∉ p := by
    rw [DiffRecord.pathText,String.toList_ofList]
    refine ⟨PosixPath.root_join (fun name member => ⟨(nameable.2 name member).2.1,(nameable.2 name member).1⟩),?_⟩
    exact fun upwards => (nameable.2 _ upwards).2.2.2.2 rfl
  unfold upsert
  rw [split_pathText nameable,made,List.singleton_inj]
  simp only [fetch_bind_ok,require_bind_ok,pure_ok]
  constructor
  · rintro ⟨own,same,noLink,_,noModule,small,upserted⟩
    cases found.symm.trans same
    refine ⟨fun other this => ?_,upserted⟩
    cases found.symm.trans this
    simp only [List.mem_cons,noLink,noModule,List.not_mem_nil,or_false] at kind
    exact ⟨kind,small⟩
  · rintro ⟨sendable,upserted⟩
    obtain ⟨regular,small⟩ := sendable file found
    refine ⟨file,found,?_,relative,?_,small,upserted⟩
    · rcases regular with same | same <;> rw [same] <;> decide
    · rcases regular with same | same <;> rw [same] <;> decide

theorem loop_upserts {letter : UInt8} {status : String} {p : TreePath} {rest : List Bytes} {changes : List Json}
    (read : decodeAscii [letter] = some status) (plain : status.toList.head? ≠ some 'R' ∧ status.toList.head? ≠ some 'C')
    (kept : status ≠ "D") : loop lib encode workspace ([letter]::utf8 (DiffRecord.pathText p)::rest) changes =
      (upsert lib encode workspace (DiffRecord.pathText p) >>= fun change => loop lib encode workspace rest (changes ++ [change])) := by
  conv_lhs => unfold loop
  rw [if_neg (List.cons_ne_nil _ _),read,fetch_some,ok_bind,if_neg (not_or.mpr plain)]
  change (fetch (decodeUtf8 (utf8 (DiffRecord.pathText p))) _ >>= _) = _
  rw [decodeUtf8_utf8,fetch_some,ok_bind,if_neg kept]

theorem loop_moves {letter : UInt8} {digits : Bytes} {status : String} {old new : TreePath} {rest : List Bytes}
    {changes : List Json} (read : decodeAscii (letter::digits) = some status)
    (moves : status.toList.head? = some 'R' ∨ status.toList.head? = some 'C') :
    loop lib encode workspace ((letter::digits)::utf8 (DiffRecord.pathText old)::utf8 (DiffRecord.pathText new)::rest) changes =
      (upsert lib encode workspace (DiffRecord.pathText new) >>= fun change =>
        loop lib encode workspace rest (changes ++ [deletion (DiffRecord.pathText old)] ++ [change])) := by
  conv_lhs => unfold loop
  rw [if_neg (List.cons_ne_nil _ _),read,fetch_some,ok_bind,if_pos moves]
  change (fetch (decodeUtf8 (utf8 (DiffRecord.pathText old))) _ >>= _) = _
  rw [decodeUtf8_utf8,fetch_some,ok_bind,decodeUtf8_utf8,fetch_some,ok_bind]

theorem loop_deletes {p : TreePath} {rest : List Bytes} {changes : List Json} :
    loop lib encode workspace ([68]::utf8 (DiffRecord.pathText p)::rest) changes =
      loop lib encode workspace rest (changes ++ [deletion (DiffRecord.pathText p)]) := by
  have read : decodeAscii [68] = some "D" := by decide
  conv_lhs => unfold loop
  rw [if_neg (List.cons_ne_nil _ _),read,fetch_some,ok_bind,if_neg (by decide)]
  change (fetch (decodeUtf8 (utf8 (DiffRecord.pathText p))) _ >>= _) = _
  rw [decodeUtf8_utf8,fetch_some,ok_bind,if_pos rfl]

/-- The upsert of a path after its record: the loop goes on behind it where the path can be sent. -/
theorem upsert_bind_iff {w : Worktree} {p : TreePath} (held : w.tree.get p ≠ none) {f : Json → Except ManifestException (List Json)}
    {result : List Json} : (upsert lib encode w.tree (DiffRecord.pathText p) >>= f) = .ok result ↔
      Sendable w.tree p ∧ ∃ change, changesOf.upserted lib encode w.tree p = [change] ∧ f change = .ok result := by
  simp only [bind_ok,upsert_iff held,and_assoc,exists_and_left]

theorem decodeAscii_percent {letter : UInt8} (small : letter < 128) (similarity : Nat) :
    decodeAscii (letter::DiffRecord.percent similarity) =
      some (String.ofList (Char.ofNat letter.toNat::(DiffRecord.percent similarity).map (fun b => Char.ofNat b.toNat))) := by
  have digits : (DiffRecord.percent similarity).all (fun b => b < 128) = true := by
    have every : ∀ n < 10, UInt8.ofNat (48 + n) < 128 := by decide
    rw [DiffRecord.percent,List.all_map,List.all_eq_true]
    intro digit member
    have small : digit < 10 := by
      simp only [List.mem_cons,List.not_mem_nil,or_false] at member
      omega
    exact decide_eq_true (every digit small)
  unfold decodeAscii
  rw [if_pos]
  · rfl
  · simpa [small] using digits

def Named (record : DiffRecord) : Prop :=
  match record with
  | .added p | .modified p | .typeChanged p | .deleted p => Nameable p
  | .renamed _ old new | .copied _ old new => Nameable old ∧ Nameable new

/-- One record: the loop goes on behind it with its changes just when its file can be sent. -/
theorem loop_record {w : Worktree} {record : DiffRecord} {rest : List Bytes} {changes result : List Json}
    (holds : record.Holds base w.tree) : loop lib encode w.tree (record.fields ++ rest) changes = .ok result ↔
      (∀ p ∈ record.written, Sendable w.tree p) ∧
        loop lib encode w.tree rest (changes ++ changesOf lib encode w.tree record) = .ok result := by
  have single {letter : UInt8} {status : String} {p : TreePath} (held : w.tree.get p ≠ none)
      (read : decodeAscii [letter] = some status) (plain : status.toList.head? ≠ some 'R' ∧ status.toList.head? ≠ some 'C')
      (kept : status ≠ "D") : loop lib encode w.tree ([letter]::utf8 (DiffRecord.pathText p)::rest) changes = .ok result ↔
        (∀ q ∈ [p], Sendable w.tree q) ∧
          loop lib encode w.tree rest (changes ++ changesOf.upserted lib encode w.tree p) = .ok result := by
    obtain ⟨file,_,made⟩ := @upserted_held lib encode w.tree p held
    rw [loop_upserts read plain kept,upsert_bind_iff held,made,List.forall_mem_singleton]
    simp
  have double {letter : UInt8} {digits : Bytes} {status : String} {old new : TreePath} (held : w.tree.get new ≠ none)
      (read : decodeAscii (letter::digits) = some status)
      (moves : status.toList.head? = some 'R' ∨ status.toList.head? = some 'C') :
      loop lib encode w.tree ((letter::digits)::utf8 (DiffRecord.pathText old)::utf8 (DiffRecord.pathText new)::rest) changes =
        .ok result ↔ (∀ q ∈ [new], Sendable w.tree q) ∧ loop lib encode w.tree rest
          (changes ++ (deletion (DiffRecord.pathText old)::changesOf.upserted lib encode w.tree new)) = .ok result := by
    obtain ⟨file,_,made⟩ := @upserted_held lib encode w.tree new held
    rw [loop_moves read moves,upsert_bind_iff held,made,List.forall_mem_singleton]
    simp
  cases record with
  | added p => exact single holds.2 (show decodeAscii [65] = some "A" by decide) (by decide) (by decide)
  | modified p => exact single holds.2 (show decodeAscii [77] = some "M" by decide) (by decide) (by decide)
  | typeChanged p => exact single holds.2 (show decodeAscii [84] = some "T" by decide) (by decide) (by decide)
  | deleted p =>
    change loop lib encode w.tree ([68]::utf8 (DiffRecord.pathText p)::rest) changes = .ok result ↔ _
    rw [loop_deletes,DiffRecord.written]
    exact (and_iff_right (fun q none_ => absurd none_ List.not_mem_nil)).symm
  | renamed similarity old new =>
    exact double holds.2 (decodeAscii_percent (by decide) similarity) (.inl (by rw [String.toList_ofList]; rfl))
  | copied similarity old new =>
    exact double holds.2 (decodeAscii_percent (by decide) similarity) (.inr (by rw [String.toList_ofList]; rfl))

theorem loop_records {w : Worktree} {records : List DiffRecord} {changes result : List Json}
    (holds : ∀ record ∈ records, record.Holds base w.tree) :
    loop lib encode w.tree (records.flatMap DiffRecord.fields ++ [[]]) changes = .ok result ↔
      (∀ record ∈ records, ∀ p ∈ record.written, Sendable w.tree p) ∧
        result = changes ++ records.flatMap (changesOf lib encode w.tree) := by
  induction records generalizing changes with
  | nil =>
    rw [List.flatMap_nil,List.nil_append]
    conv_lhs => unfold loop
    simp [eq_comm]
  | cons record rest ih =>
    obtain ⟨first,later⟩ := List.forall_mem_cons.mp holds
    rw [List.flatMap_cons,List.append_assoc,loop_record first,ih later,List.forall_mem_cons,List.flatMap_cons,
      ← List.append_assoc changes]
    exact and_assoc.symm

/-! Applying the changes. -/

theorem foldl_untouched {files : TreePath → Option File} {changes : List Json} {p : TreePath}
    (untouched : ∀ change ∈ changes, target change ≠ p) : changes.foldl (applyChange lib) files p = files p := by
  induction changes generalizing files with
  | nil => rfl
  | cons change rest ih =>
    obtain ⟨first,later⟩ := List.forall_mem_cons.mp untouched
    rw [List.foldl_cons,ih later]
    exact if_neg first

/-- Where all changes of a path carry the same, that is what is left there. -/
theorem foldl_touched {files : TreePath → Option File} {changes : List Json} {p : TreePath} {left : Option File}
    (touched : ∃ change ∈ changes, target change = p)
    (each : ∀ change ∈ changes, target change = p → supplied lib change = left) :
    changes.foldl (applyChange lib) files p = left := by
  induction changes generalizing files with
  | nil =>
    obtain ⟨_,member,_⟩ := touched
    cases member
  | cons change rest ih =>
    obtain ⟨first,later⟩ := List.forall_mem_cons.mp each
    rw [List.foldl_cons]
    by_cases again : ∃ change ∈ rest, target change = p
    · exact ih again later
    · have untouched : ∀ change ∈ rest, target change ≠ p := fun change member same => again ⟨change,member,same⟩
      rw [foldl_untouched untouched]
      obtain ⟨other,member,own⟩ := touched
      rcases List.mem_cons.mp member with rfl | inside
      · rw [applyChange,if_pos own,first own]
      · exact absurd ⟨other,inside,own⟩ again

theorem target_deletion {p : TreePath} (nameable : Nameable p) : target (deletion (DiffRecord.pathText p)) = p :=
  split_pathText nameable

theorem supplied_deletion (path : String) : supplied lib (deletion path) = none := rfl

theorem upserted_spec (decodes : ∀ data, lib.b64decode (encode data) = some data) (w : Worktree) {p : TreePath}
    (held : w.tree.get p ≠ none) (sendable : Sendable w.tree p) : ∃ change,
      changesOf.upserted lib encode w.tree p = [change] ∧ target change = p ∧ supplied lib change = w.tree.get p := by
  obtain ⟨file,found,made⟩ := @upserted_held lib encode w.tree p held
  refine ⟨upsertion lib encode (DiffRecord.pathText p) file,made,split_pathText (w.named p held),?_⟩
  have mode : (if file.mode = "100755" then "100755" else "100644") = file.mode := by
    rcases (sendable file found).1 with executable | plain
    · rw [if_pos executable,executable]
    · rw [plain]
      decide
  change (lib.b64decode (encode file.content)).map _ = _
  rw [decodes,Option.map_some,found,mode]

theorem written_held {record : DiffRecord} (holds : record.Holds base workspace) :
    ∀ p ∈ record.written, workspace.get p ≠ none := by
  cases record with
  | deleted p => simp [DiffRecord.written]
  | added p => exact List.forall_mem_singleton.mpr holds.2
  | modified p => exact List.forall_mem_singleton.mpr holds.2
  | typeChanged p => exact List.forall_mem_singleton.mpr holds.2
  | renamed similarity old new => exact List.forall_mem_singleton.mpr holds.2
  | copied similarity old new => exact List.forall_mem_singleton.mpr holds.2

theorem changed_named {record : DiffRecord} (named : Named record) : ∀ p ∈ record.changed, Nameable p := by
  cases record with
  | renamed similarity old new => exact List.forall_mem_cons.mpr ⟨named.1,List.forall_mem_singleton.mpr named.2⟩
  | copied similarity old new => exact List.forall_mem_cons.mpr ⟨named.1,List.forall_mem_singleton.mpr named.2⟩
  | added p => exact List.forall_mem_singleton.mpr named
  | modified p => exact List.forall_mem_singleton.mpr named
  | typeChanged p => exact List.forall_mem_singleton.mpr named
  | deleted p => exact List.forall_mem_singleton.mpr named

theorem changed_differing {record : DiffRecord} (plain : record.copies = false) : record.changed = record.differing := by
  cases record with
  | copied similarity old new => cases plain
  | added p => rfl
  | modified p => rfl
  | typeChanged p => rfl
  | deleted p => rfl
  | renamed similarity old new => rfl

/-- What is cleared stood in the base, and but for the source of a copy it is gone. -/
theorem cleared_gone {record : DiffRecord} (holds : record.Holds base workspace) :
    ∀ p ∈ record.cleared, base.get p ≠ none ∧ (record.copies = false → workspace.get p = none) := by
  cases record with
  | deleted p => exact List.forall_mem_singleton.mpr ⟨holds.1,fun _ => holds.2⟩
  | renamed similarity old new => exact List.forall_mem_singleton.mpr ⟨holds.1.1,fun _ => holds.1.2⟩
  | copied similarity old new => exact List.forall_mem_singleton.mpr ⟨holds.1.1,nofun⟩
  | added p => exact List.forall_mem_nil _
  | modified p => exact List.forall_mem_nil _
  | typeChanged p => exact List.forall_mem_nil _

theorem changesOf_spec (decodes : ∀ data, lib.b64decode (encode data) = some data) {w : Worktree} {record : DiffRecord}
    (named : Named record) (holds : record.Holds base w.tree) (sendable : ∀ p ∈ record.written, Sendable w.tree p) :
    (changesOf lib encode w.tree record).map (requested lib) =
      record.cleared.map (fun p => ⟨p,none⟩) ++ record.written.map (fun p => ⟨p,w.tree.get p⟩) := by
  have gone {p : TreePath} (nameable : Nameable p) : requested lib (deletion (DiffRecord.pathText p)) = ⟨p,none⟩ := by
    rw [requested,target_deletion nameable,supplied_deletion]
  have put {p : TreePath} (held : w.tree.get p ≠ none) (fits : Sendable w.tree p) :
      (changesOf.upserted lib encode w.tree p).map (requested lib) = [⟨p,w.tree.get p⟩] := by
    obtain ⟨change,made,own,carried⟩ := upserted_spec decodes w held fits
    rw [made,List.map_singleton,requested,own,carried]
  cases record with
  | added p => exact put holds.2 (sendable p (List.mem_singleton_self p))
  | modified p => exact put holds.2 (sendable p (List.mem_singleton_self p))
  | typeChanged p => exact put holds.2 (sendable p (List.mem_singleton_self p))
  | deleted p => exact congrArg (fun e => [e]) (gone named)
  | renamed similarity old new => exact congrArg₂ List.cons (gone named.1) (put holds.2 (sendable new (List.mem_singleton_self new)))
  | copied similarity old new => exact congrArg₂ List.cons (gone named.1) (put holds.2 (sendable new (List.mem_singleton_self new)))

section Reported
variable {w : Worktree} {records : List DiffRecord}

theorem Reports.record_named (reports : Reports base w.tree records) : ∀ record ∈ records, Named record := by
  intro record member
  have holds := reports.each record member
  cases record with
  | added p => exact w.named p holds.2
  | modified p => exact w.named p holds.2
  | typeChanged p => exact w.named p holds.2
  | deleted p => exact reports.named p holds.1
  | renamed similarity old new => exact ⟨reports.named old holds.1.1,w.named new holds.2⟩
  | copied similarity old new => exact ⟨reports.named old holds.1.1,w.named new holds.2⟩

theorem pathText_plain {p : TreePath} (nameable : Nameable p) : 0 ∉ utf8 (DiffRecord.pathText p) := by
  apply nul_not_mem_utf8
  rw [DiffRecord.pathText,String.toList_ofList]
  intro nul
  rcases PosixPath.mem_join nul with slash | ⟨name,listed,inside⟩
  · exact absurd slash (by decide)
  · exact (nameable.2 name listed).2.2.1 inside

theorem percent_plain (similarity : Nat) : 0 ∉ DiffRecord.percent similarity := by
  have every : ∀ n < 10, UInt8.ofNat (48 + n) ≠ 0 := by decide
  intro zero
  obtain ⟨digit,member,same⟩ := List.mem_map.mp zero
  have small : digit < 10 := by
    simp only [List.mem_cons,List.not_mem_nil,or_false] at member
    omega
  exact every digit small same

theorem fields_plain {record : DiffRecord} (named : Named record) : ∀ field ∈ record.fields, 0 ∉ field := by
  have letters : ∀ letter ∈ [[65],[77],[84],[(68 : UInt8)]], 0 ∉ letter := by decide
  have moved (letter : UInt8) (some_ : letter ≠ 0) (similarity : Nat) : 0 ∉ letter::DiffRecord.percent similarity :=
    List.not_mem_cons_of_ne_of_not_mem some_.symm (percent_plain similarity)
  cases record with
  | added p => exact List.forall_mem_cons.mpr ⟨letters _ (by simp),List.forall_mem_singleton.mpr (pathText_plain named)⟩
  | modified p => exact List.forall_mem_cons.mpr ⟨letters _ (by simp),List.forall_mem_singleton.mpr (pathText_plain named)⟩
  | typeChanged p => exact List.forall_mem_cons.mpr ⟨letters _ (by simp),List.forall_mem_singleton.mpr (pathText_plain named)⟩
  | deleted p => exact List.forall_mem_cons.mpr ⟨letters _ (by simp),List.forall_mem_singleton.mpr (pathText_plain named)⟩
  | renamed similarity old new =>
    exact List.forall_mem_cons.mpr ⟨moved 82 (by decide) similarity,List.forall_mem_cons.mpr ⟨pathText_plain named.1,
      List.forall_mem_singleton.mpr (pathText_plain named.2)⟩⟩
  | copied similarity old new =>
    exact List.forall_mem_cons.mpr ⟨moved 67 (by decide) similarity,List.forall_mem_cons.mpr ⟨pathText_plain named.1,
      List.forall_mem_singleton.mpr (pathText_plain named.2)⟩⟩

theorem repositoryManifest_iff (reports : Reports base w.tree records) {baseOid : Except ManifestException String}
    {untracked : Except ManifestException Bytes} {oid : String} {changes : List Json} :
    repositoryManifest lib encode w.tree baseOid untracked (.ok (diffOutput records)) = .ok (oid,changes) ↔
      (baseOid = .ok oid ∧ untracked = .ok []) ∧ (∀ record ∈ records, ∀ p ∈ record.written, Sendable w.tree p) ∧
        changes = records.flatMap (changesOf lib encode w.tree) ∧ changes.length ≤ 200 := by
  have plain : ∀ field ∈ records.flatMap DiffRecord.fields, 0 ∉ field := by
    intro field member
    obtain ⟨record,listed,inside⟩ := List.mem_flatMap.mp member
    exact fields_plain (reports.record_named record listed) field inside
  have cut : (diffOutput records).splitOn 0 = records.flatMap DiffRecord.fields ++ [[]] := Encoding.splitOn_closed plain
  unfold repositoryManifest
  constructor
  · intro ok
    obtain ⟨_,same,ok⟩ := bind_ok.mp ok
    obtain ⟨_,clean,ok⟩ := bind_ok.mp ok
    obtain ⟨empty,ok⟩ := require_bind_ok.mp ok
    rw [ok_bind,cut] at ok
    obtain ⟨made,looped,ok⟩ := bind_ok.mp ok
    obtain ⟨sendable,rfl⟩ := (loop_records reports.each).mp looped
    obtain ⟨few,ok⟩ := require_bind_ok.mp ok
    cases pure_ok.mp ok
    exact ⟨⟨same,empty ▸ clean⟩,sendable,rfl,few⟩
  · rintro ⟨⟨rfl,rfl⟩,sendable,rfl,few⟩
    have looped := (loop_records reports.each).mpr ⟨sendable,(List.nil_append (records.flatMap (changesOf lib encode w.tree))).symm⟩
    rw [ok_bind,ok_bind,ok_bind,cut,looped]
    exact require_bind_ok.mpr ⟨rfl,require_bind_ok.mpr ⟨few,rfl⟩⟩

end Reported

/-! Work trees with a few files of the same contents in their root. -/

/-- Codes in which each byte is the character of its number. -/
def byteLibrary : Library :=
  {PosixHost.digests with b64decode := fun text => some (text.toList.map (fun c => UInt8.ofNat c.toNat))}

theorem byteLibrary_decodes (data : Bytes) : byteLibrary.b64decode (PosixHost.bytesText data) = some data := by
  have back : (fun c : Char => UInt8.ofNat c.toNat) ∘ (fun b : UInt8 => Char.ofNat b.toNat) = id := by
    funext b
    have bound := b.toNat_lt
    have code : (Char.ofNat b.toNat).toNat = b.toNat := by
      unfold Char.ofNat
      rw [dif_pos (Or.inl (by omega))]
      rfl
    exact (congrArg UInt8.ofNat code).trans UInt8.ofNat_toNat
  change some (((String.ofList (data.map _)).toList).map _) = some data
  rw [String.toList_ofList,List.map_map,back,List.map_id]

def note : File := ⟨"100644",[120]⟩

def holding (names : List PosixPath.Name) : GitTree where
  get p := if ∃ name ∈ names, p = [name] then some note else none
  apart p q here there below := by
    have own {p : TreePath} (held : (if ∃ name ∈ names, p = [name] then some note else none) ≠ none) : ∃ name, p = [name] := by
      split at held
      next found => exact ⟨_,found.choose_spec.2⟩
      next => exact absurd rfl held
    obtain ⟨name,rfl⟩ := own here
    obtain ⟨other,rfl⟩ := own there
    obtain ⟨tail,same⟩ := below
    exact congrArg (fun c => [c]) (List.cons.inj same).1

theorem holding_ne_none {names : List PosixPath.Name} {p : TreePath} :
    (holding names).get p ≠ none ↔ ∃ name ∈ names, p = [name] := by
  change (if ∃ name ∈ names, p = [name] then some note else none) ≠ none ↔ _
  split
  next found => simpa using found
  next absent => simpa using absent

theorem holding_nameable {names : List PosixPath.Name} (plain : ∀ name ∈ names, Nameable [name]) (p : TreePath)
    (held : (holding names).get p ≠ none) : Nameable p := by
  obtain ⟨name,listed,rfl⟩ := holding_ne_none.mp held
  exact plain name listed

def notes (names : List PosixPath.Name) (plain : ∀ name ∈ names, Nameable [name]) : Worktree where
  tree := holding names
  named := holding_nameable plain
  kinds p file found := by
    change (if ∃ name ∈ names, p = [name] then some note else none) = some file at found
    split at found
    next =>
      rw [← Option.some.inj found]
      decide
    next => cases found

theorem holding_none {names : List PosixPath.Name} {p : TreePath} (other : ∀ name ∈ names, p ≠ [name]) :
    (holding names).get p = none := by
  by_contra held
  obtain ⟨name,listed,same⟩ := holding_ne_none.mp held
  exact other name listed same

def moved : Worktree := notes [['b']] (by decide)

def copy : Worktree := notes [['a'],['b']] (by decide)

def printed (records : List DiffRecord) (w : Worktree) : Except ManifestException (String × List Json) :=
  repositoryManifest byteLibrary PosixHost.bytesText w.tree (.ok "0") (.ok []) (.ok (diffOutput records))

end Manifest
end SjgControl

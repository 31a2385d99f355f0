import SjgControl.Encoding
import SjgControl.Policy
import SjgControl.Workers.Scope

/-! `source_tree_digest`, over the files that the walk through the source roots has found. -/
namespace SjgControl

def utf8 (text : String) : Bytes := text.toList.flatMap String.utf8EncodeChar

theorem utf8_injective : Function.Injective utf8 := by
  intro a b same
  have encoded : a.toList.utf8Encode = b.toList.utf8Encode := congrArg List.toByteArray same
  rw [String.utf8Encode_toList,String.utf8Encode_toList] at encoded
  exact String.toByteArray_inj.mp encoded

theorem utf8EncodeChar_ne_zero {c : Char} (other : c.val.toNat ≠ 0) {byte : UInt8}
    (inside : byte ∈ String.utf8EncodeChar c) : byte ≠ 0 := by
  rintro rfl
  have nonzero {n : Nat} (positive : 0 < n) (small : n < 256) : (0 : UInt8) ≠ UInt8.ofNat n := by
    intro same
    have values := congrArg UInt8.toNat same
    rw [UInt8.toNat_ofNat_of_lt' small] at values
    exact positive.ne values
  unfold String.utf8EncodeChar at inside
  dsimp only at inside
  split at inside
  next => exact nonzero (by omega) (by omega) (List.mem_singleton.mp inside)
  next =>
    split at inside
    next =>
      simp only [List.mem_cons,List.not_mem_nil,or_false] at inside
      rcases inside with same | same <;> exact nonzero (by omega) (by omega) same
    next =>
      split at inside
      next =>
        simp only [List.mem_cons,List.not_mem_nil,or_false] at inside
        rcases inside with same | same | same <;> exact nonzero (by omega) (by omega) same
      next =>
        simp only [List.mem_cons,List.not_mem_nil,or_false] at inside
        rcases inside with same | same | same | same <;> exact nonzero (by omega) (by omega) same

theorem nul_not_mem_utf8 {text : String} (plain : '\x00' ∉ text.toList) : 0 ∉ utf8 text := by
  intro zero
  obtain ⟨c,member,inside⟩ := List.mem_flatMap.mp zero
  have other : c.val.toNat ≠ 0 := by
    intro nul
    have same : c = '\x00' := Char.ext (UInt32.toNat_inj.mp nul)
    exact plain (same ▸ member)
  exact utf8EncodeChar_ne_zero other inside rfl

/-- The files found, one of them maybe more than once, by their paths below the repository,
and what they contain. -/
structure SourceFiles where
  files : List String
  read : String → Bytes
  plain : ∀ path ∈ files, '\x00' ∉ path.toList

namespace SourceFiles
variable {lib : Library} {tree other : SourceFiles}

def Same (tree other : SourceFiles) : Prop :=
  (∀ path, path ∈ tree.files ↔ path ∈ other.files) ∧ ∀ path ∈ tree.files, tree.read path = other.read path

/-- `source_tree_digest`; the chunks of a file are hashed one after another. -/
def sourceTreeDigest (lib : Library) (tree : SourceFiles) : String :=
  lib.sha256 ((Policy.frozen tree.files).foldl (fun digest path => digest ++ utf8 path ++ [0] ++ tree.read path ++ [0]) [])

/-- What `sorted(set(files))` goes through, the paths encoded. -/
def records (tree : SourceFiles) : List (Bytes × Bytes) :=
  (Policy.frozen tree.files).map (fun path => (utf8 path,tree.read path))

/-- The paths in order, each with what stands between the NUL bytes of the file's contents. -/
def pieces (tree : SourceFiles) : List Bytes := tree.records.flatMap (Encoding.pieces 0)

def nuls (tree : SourceFiles) : List Nat := tree.records.map (fun record => record.2.count 0)

/-- The same pieces make up both trees, but at some path a different number of them. -/
def Regrouped (tree other : SourceFiles) : Prop := tree.pieces = other.pieces ∧ tree.nuls ≠ other.nuls

theorem sourceTreeDigest_framed :
    sourceTreeDigest lib tree = lib.sha256 (tree.records.flatMap (Encoding.frame 0)) := by
  have stream (paths : List String) (digest : Bytes) :
      paths.foldl (fun digest path => digest ++ utf8 path ++ [0] ++ tree.read path ++ [0]) digest =
        digest ++ (paths.map (fun path => (utf8 path,tree.read path))).flatMap (Encoding.frame 0) := by
    induction paths generalizing digest with
    | nil => simp
    | cons path rest ih =>
      rw [List.foldl_cons,ih]
      simp [Encoding.frame]
  rw [sourceTreeDigest,stream,List.nil_append]
  rfl

theorem records_plain : ∀ record ∈ tree.records, 0 ∉ record.1 := by
  intro record member
  obtain ⟨path,found,rfl⟩ := List.mem_map.mp member
  exact nul_not_mem_utf8 (tree.plain path (Policy.mem_frozen.mp found))

/-- The digest is a function of the pieces, and under a hash without collisions no less. -/
theorem digest_eq_iff (collisionFree : Function.Injective lib.sha256) :
    sourceTreeDigest lib tree = sourceTreeDigest lib other ↔ tree.pieces = other.pieces := by
  rw [sourceTreeDigest_framed,sourceTreeDigest_framed,collisionFree.eq_iff]
  exact Encoding.framed_eq_iff records_plain records_plain

theorem same_iff : Same tree other ↔ tree.records = other.records := by
  constructor
  · rintro ⟨paths,contents⟩
    unfold records
    rw [Policy.frozen_eq_iff.mpr paths]
    apply List.map_congr_left
    intro path member
    rw [contents path ((paths path).mpr (Policy.mem_frozen.mp member))]
  · intro equal
    have paths : Policy.frozen tree.files = Policy.frozen other.files := by
      have firsts := congrArg (List.map Prod.fst) equal
      simp only [records,List.map_map] at firsts
      exact List.map_injective_iff.mpr utf8_injective firsts
    refine ⟨Policy.frozen_eq_iff.mp paths,?_⟩
    intro path member
    unfold records at equal
    rw [paths] at equal
    have listed : path ∈ Policy.frozen other.files := paths ▸ Policy.mem_frozen.mpr member
    exact (Prod.mk.inj (List.map_inj_left.mp equal path listed)).2

/-- Two trees without NUL bytes in their files are told apart. -/
theorem not_regrouped (clean : ∀ path ∈ tree.files, 0 ∉ tree.read path) (neat : ∀ path ∈ other.files, 0 ∉ other.read path) :
    ¬ Regrouped tree other := by
  rintro ⟨same,differ⟩
  have zeros {t : SourceFiles} (clean : ∀ path ∈ t.files, 0 ∉ t.read path) : t.nuls = List.replicate t.records.length 0 := by
    apply List.eq_replicate_iff.mpr
    refine ⟨List.length_map _,?_⟩
    intro count member
    obtain ⟨record,inside,rfl⟩ := List.mem_map.mp member
    obtain ⟨path,found,rfl⟩ := List.mem_map.mp inside
    exact List.count_eq_zero.mpr (clean path (Policy.mem_frozen.mp found))
  have lengths (t : SourceFiles) : t.pieces.length = t.nuls.sum + 2 * t.records.length := by
    unfold pieces nuls
    induction t.records with
    | nil => rfl
    | cons record rest ih =>
      simp only [List.flatMap_cons,List.length_append,List.map_cons,List.sum_cons,List.length_cons,ih,Encoding.pieces,
        Encoding.length_splitOn]
      omega
  have counts : tree.records.length = other.records.length := by
    have first := lengths tree
    have second := lengths other
    rw [zeros clean,List.sum_replicate_nat] at first
    rw [zeros neat,List.sum_replicate_nat] at second
    rw [same] at first
    rw [Nat.mul_zero] at first second
    omega
  exact differ (by rw [zeros clean,zeros neat,counts])

/-- The digest tells two trees apart unless they are made of the same pieces, grouped into files
in two ways. -/
theorem digest_identifies_iff (collisionFree : Function.Injective lib.sha256) :
    (sourceTreeDigest lib tree = sourceTreeDigest lib other → Same tree other) ↔ ¬ Regrouped tree other := by
  rw [digest_eq_iff collisionFree,same_iff]
  constructor
  · rintro identified ⟨same,differ⟩
    exact differ (by rw [nuls,nuls,identified same])
  · intro grouped same
    by_contra differ
    exact grouped ⟨same,fun counts => differ (Encoding.records_of_pieces same counts)⟩

def twoFiles : SourceFiles where
  files := ["b","a"]
  read path := if path = "a" then [120] else [121]
  plain := by decide

def renamed : SourceFiles where
  files := ["a","c"]
  read path := if path = "a" then [120] else [121]
  plain := by decide

/-- The file `a` holds its own contents and, behind NUL bytes, the path and the contents of `b`. -/
def oneFile : SourceFiles where
  files := ["a"]
  read _ := [120,0,98,0,121]
  plain := by decide

/-- Two trees without NUL bytes with the digests that tell them apart. -/
theorem digest_identifies_clean : ¬ Regrouped twoFiles renamed ∧
    (sourceTreeDigest PosixHost.digests twoFiles = sourceTreeDigest PosixHost.digests renamed → Same twoFiles renamed) := by
  have clean : ¬ Regrouped twoFiles renamed := not_regrouped (by decide) (by decide)
  exact ⟨clean,(digest_identifies_iff PosixHost.digests_injective).mpr clean⟩

theorem digest_ambiguous : Function.Injective PosixHost.digests.sha256 ∧
    sourceTreeDigest PosixHost.digests twoFiles = sourceTreeDigest PosixHost.digests oneFile ∧
    ¬ Same twoFiles oneFile :=
  ⟨PosixHost.digests_injective,by decide +kernel,fun same => absurd ((same.1 "b").mp (by decide)) (by decide)⟩

end SourceFiles
end SjgControl

import SjgControl.Submission
import SjgControl.Workers.Posix

/-! The three checks of a relative path, of `repo.submit`, of `worker.run` and of the worker
supervisor, against the grammar of such paths. -/
namespace SjgControl
open Relational

/-- One round of `_safe_worker_paths`. -/
def safeWorkerPath (lib : Library) (name : String) (raw : Json) : Except AuthError String :=
  match raw with
  | .str value => do
    let chars := value.toList
    deny (value = "" ∨ 255 < value.utf8ByteSize ∨ PosixPath.root chars ≠ [] ∨
        ['.', '.'] ∈ PosixPath.parts chars ∨ '\x00' ∈ chars ∨ '\\' ∈ chars ∨ (∃ c ∈ chars, c.toNat < 32) ∨
        PosixPath.text chars ≠ chars)
      ("unsafe worker " ++ name ++ " path: " ++ lib.repr value)
    return value
  | _ => throw (.authorization ("worker " ++ name ++ " paths must be strings"))

/-- `_safe_worker_paths`. -/
def safeWorkerPaths (lib : Library) (values : Json) (name : String) : Except AuthError (List String) :=
  match values with
  | .arr items => do
    deny (200 < items.length) ("worker " ++ name ++ " paths must be an array of at most 200 entries")
    let result ← items.mapM (safeWorkerPath lib name)
    deny (¬ result.Nodup) ("worker " ++ name ++ " paths must not contain duplicates")
    return result
  | _ => throw (.authorization ("worker " ++ name ++ " paths must be an array of at most 200 entries"))

open PosixPath

/-- What passes the tests that the three have in common is in the grammar, a single dot apart. -/
theorem unsafePath_iff (raw : List Char) : ¬ unsafePath raw ↔ Canonical raw ∨ raw = ['.'] := by
  constructor
  · intro passed
    simp only [unsafePath,not_or,not_not,List.any_eq_true,decide_eq_true_eq,not_exists,not_and,Nat.not_lt] at passed
    obtain ⟨_,relative,upwards,_,backslash,control,normal⟩ := passed
    by_cases bare : parts raw = []
    · right
      rw [text,if_pos ⟨relative,bare⟩] at normal
      exact normal.symm
    · left
      rw [text,if_neg (fun both => bare both.2),relative,List.nil_append] at normal
      refine ⟨⟨parts raw,bare,normal.symm,?_⟩,?_⟩
      · intro name member
        obtain ⟨cut,kept⟩ := List.mem_filter.mp member
        have kept := of_decide_eq_true kept
        exact ⟨slash_not_mem_split name cut,kept.1,kept.2,fun dots => upwards (dots ▸ member)⟩
      · intro c member
        exact ⟨fun same => backslash (same ▸ member),control c member⟩
  · rintro (⟨⟨names,some_,rfl,named⟩,plain⟩ | rfl)
    · have cut := parts_join some_ (fun name member => ⟨(named name member).1,(named name member).2.1,(named name member).2.2.1⟩)
      have relative : root (join names) = [] := root_join (fun name member => ⟨(named name member).1,(named name member).2.1⟩)
      simp only [unsafePath,cut,relative,not_or,not_not,List.any_eq_true,decide_eq_true_eq,not_exists,not_and,Nat.not_lt]
      refine ⟨?_,trivial,?_,?_,?_,fun c member => (plain c member).2,?_⟩
      · intro empty
        have none_ : parts (join names) = [] := by
          rw [empty]
          rfl
        exact some_ (cut.symm.trans none_)
      · exact fun dots => (named _ dots).2.2.2 rfl
      · exact fun nul => absurd (plain _ nul).2 (by decide)
      · exact fun backslash => (plain _ backslash).1 rfl
      · rw [text,relative,cut,if_neg (fun both => some_ both.2),List.nil_append]
    · decide

/-- What `_safe_paths` raises for an unsafe path. -/
def unsafeRepositoryPath (lib : Library) (raw : String) : AuthError :=
  .authorization ("unsafe repository path: " ++ lib.repr raw)

theorem authorization_apart {front back text : String} {c : Char} (starts : front.toList.head? = some c)
    (other : text.toList.head? ≠ some c) : AuthError.authorization text ≠ .authorization (front ++ back) := by
  intro same
  have equal := AuthError.authorization.inj same
  rw [equal,String.toList_append,List.head?_append,starts] at other
  exact other rfl

theorem head_append {c : Char} {front back : String} (starts : front.toList.head? = some c) :
    (front ++ back).toList.head? = some c := by
  rw [String.toList_append,List.head?_append,starts]
  rfl

theorem safeContent_other {lib : Library} {change : Fields} {raw : String} :
    safeContent lib change ≠ .error (unsafeRepositoryPath lib raw) := by
  have other {text : String} (starts : text.toList.head? = some 'r') :
      AuthError.authorization text ≠ unsafeRepositoryPath lib raw :=
    authorization_apart (c := 'u') rfl (by rw [starts]; decide)
  intro refused
  unfold safeContent at refused
  split at refused
  next encoded given =>
    rcases deny_bind_error.mp refused with ⟨_,same⟩ | ⟨_,refused⟩
    · exact other rfl same
    · rcases fetch_bind_error.mp refused with ⟨_,same⟩ | ⟨_,_,refused⟩
      · exact other rfl same
      · unfold deny require at refused
        split at refused
        next => cases refused
        next => exact other rfl (Except.error.inj refused)
  next => exact other rfl (Except.error.inj refused)

theorem safeChange_refused {lib : Library} {seen : List String} {change : Fields} {raw : String}
    (named : (Json.get change "path").textOr lib.render = raw) :
    safeChange lib seen (.obj change) = .error (unsafeRepositoryPath lib raw) ↔ unsafePath raw.toList := by
  have other {text : String} {c : Char} (starts : text.toList.head? = some c) (apart : c ≠ 'u') :
      AuthError.authorization text ≠ unsafeRepositoryPath lib raw :=
    authorization_apart (c := 'u') rfl (by rw [starts]; simpa using apart)
  simp only [safeChange,named]
  rw [deny_bind_error]
  refine ⟨?_,fun bad => .inl ⟨bad,rfl⟩⟩
  rintro (⟨bad,_⟩ | ⟨_,refused⟩)
  · exact bad
  · exfalso
    rcases deny_bind_error.mp refused with ⟨_,same⟩ | ⟨_,refused⟩
    · exact other (head_append (c := 'd') rfl) (by decide) same
    rcases deny_bind_error.mp refused with ⟨_,same⟩ | ⟨_,refused⟩
    · exact other (head_append (c := 'p') rfl) (by decide) same
    rcases deny_bind_error.mp refused with ⟨_,same⟩ | ⟨_,refused⟩
    · exact other (c := 'c') rfl (by decide) same
    rcases bind_error.mp refused with denied | ⟨_,_,refused⟩
    · rcases checkMode_error denied with same | same
      · cases same
      · exact other (c := 'o') rfl (by decide) same.symm
    rcases deny_bind_error.mp refused with ⟨_,same⟩ | ⟨_,refused⟩
    · exact other (c := 'r') rfl (by decide) same
    split at refused
    next =>
      cases content : safeContent lib change with
      | error e =>
        rw [content] at refused
        exact safeContent_other (content.trans (congrArg _ (Except.error.inj refused)))
      | ok =>
        rw [content] at refused
        cases refused
    next => cases refused

theorem unsafe_long {raw : String} :
    (raw = "" ∨ 255 < raw.utf8ByteSize ∨ root raw.toList ≠ [] ∨ ['.','.'] ∈ parts raw.toList ∨ '\x00' ∈ raw.toList ∨
      '\\' ∈ raw.toList ∨ (∃ c ∈ raw.toList, c.toNat < 32) ∨ text raw.toList ≠ raw.toList) ↔
    255 < raw.utf8ByteSize ∨ unsafePath raw.toList := by
  have empty : raw.toList = [] ↔ raw = "" := String.toList_eq_nil_iff
  simp only [unsafePath,empty,List.any_eq_true,decide_eq_true_eq]
  rw [or_left_comm]

theorem mapM_single {ε α β : Type} {f : α → Except ε β} {a : α} {results : List β} :
    [a].mapM f = .ok results ↔ ∃ b, f a = .ok b ∧ results = [b] := by
  rw [List.mapM_cons,List.mapM_nil]
  constructor
  · intro ok
    obtain ⟨b,given,ok⟩ := bind_ok.mp ok
    cases ok
    exact ⟨b,given,rfl⟩
  · rintro ⟨b,given,rfl⟩
    rw [given]
    rfl

theorem safeWorkerPaths_iff {lib : Library} {name raw : String} :
    safeWorkerPaths lib (.arr [.str raw]) name = .ok [raw] ↔ raw.utf8ByteSize ≤ 255 ∧ ¬ unsafePath raw.toList := by
  have single {value : String} : safeWorkerPath lib name (.str raw) = .ok value ↔
      (raw.utf8ByteSize ≤ 255 ∧ ¬ unsafePath raw.toList) ∧ raw = value := by
    simp only [safeWorkerPath,deny_bind_ok,pure_ok,unsafe_long,not_or,Nat.not_lt]
  simp only [safeWorkerPaths,deny_bind_ok]
  constructor
  · rintro ⟨_,ok⟩
    obtain ⟨result,mapped,_⟩ := bind_ok.mp ok
    obtain ⟨value,passed,_⟩ := mapM_single.mp mapped
    exact (single.mp passed).1
  · intro passed
    refine ⟨by simp,?_⟩
    refine bind_ok.mpr ⟨_,mapM_single.mpr ⟨raw,single.mpr ⟨passed,rfl⟩,rfl⟩,?_⟩
    exact deny_bind_ok.mpr ⟨not_not.mpr (List.nodup_singleton raw),rfl⟩

theorem paths_iff {lib : Library} {raw : String} :
    Workers.paths lib (.arr [.str raw]) = .ok [raw] ↔ raw.utf8ByteSize ≤ 255 ∧ ¬ unsafePath raw.toList := by
  have single {value : String} : Workers.safePath lib (.str raw) = .ok value ↔
      (raw.utf8ByteSize ≤ 255 ∧ ¬ unsafePath raw.toList) ∧ raw = value := by
    simp only [Workers.safePath,require_bind_ok,pure_ok,unsafe_long,not_or,Nat.not_lt]
  have given : (Json.arr [.str raw]).truthy = true := rfl
  simp only [Workers.paths,given,if_true]
  constructor
  · intro ok
    obtain ⟨_,ok⟩ := require_bind_ok.mp ok
    obtain ⟨result,mapped,_⟩ := bind_ok.mp ok
    obtain ⟨value,passed,_⟩ := mapM_single.mp mapped
    exact (single.mp passed).1
  · intro passed
    refine require_bind_ok.mpr ⟨by simp,?_⟩
    refine bind_ok.mpr ⟨_,mapM_single.mpr ⟨raw,single.mpr ⟨passed,rfl⟩,rfl⟩,?_⟩
    exact require_bind_ok.mpr ⟨List.nodup_singleton raw,rfl⟩

/-- Each of the three checks passes the paths of the grammar, and nothing else. -/
structure Validated (lib : Library) (raw : String) : Prop where
  changes : ∀ seen change, (Json.get change "path").textOr lib.render = raw →
    (safeChange lib seen (.obj change) ≠ .error (unsafeRepositoryPath lib raw) ↔ Canonical raw.toList)
  arguments : ∀ name, safeWorkerPaths lib (.arr [.str raw]) name = .ok [raw] ↔
    raw.utf8ByteSize ≤ 255 ∧ Canonical raw.toList
  scopes : Workers.paths lib (.arr [.str raw]) = .ok [raw] ↔ raw.utf8ByteSize ≤ 255 ∧ Canonical raw.toList
  leaf : ∀ create t u, Workers.paths lib (.arr [.str raw]) = .ok [raw] →
    PosixHost.parentFd create (Workers.relative raw) t ≠ .error (.exception "IndexError") u

theorem parentFd_defined {create : Option Disk.Mode} {p : Relative} {t u : Disk.Tree Name} (some_ : p ≠ []) :
    PosixHost.parentFd create p t ≠ .error (.exception "IndexError") u := by
  unfold PosixHost.parentFd
  rw [if_neg some_]
  split
  next => simp
  next => simp

/-- They do so for every path but the single dot. -/
theorem path_grammar_iff (lib : Library) (raw : String) : Validated lib raw ↔ raw ≠ "." := by
  constructor
  · rintro validated rfl
    have accepted : Workers.paths lib (.arr [.str "."]) = .ok ["."] := paths_iff.mpr (by decide)
    have canonical := (validated.scopes.mp accepted).2
    exact canonical.parts_ne_nil (by decide)
  · intro other
    have apart : raw.toList ≠ ['.'] := fun same => other (String.toList_inj.mp same)
    have grammar : ¬ unsafePath raw.toList ↔ Canonical raw.toList := by
      rw [unsafePath_iff,or_iff_left apart]
    have inScope : Workers.paths lib (.arr [.str raw]) = .ok [raw] ↔ raw.utf8ByteSize ≤ 255 ∧ Canonical raw.toList := by
      rw [← grammar]
      exact paths_iff
    refine ⟨?_,?_,inScope,?_⟩
    · intro seen change named
      rw [← grammar]
      exact not_congr (safeChange_refused named)
    · intro name
      rw [← grammar]
      exact safeWorkerPaths_iff
    · intro create t u accepted
      exact parentFd_defined (inScope.mp accepted).2.parts_ne_nil

/-- All three pass the single dot, which has no last component. -/
theorem single_dot_passes :
    safeChange Trial.library [] (.obj [("operation",.str "delete"),("path",.str "."),("mode",.str "100644")]) = .ok ["."] ∧
      safeWorkerPaths Trial.library (.arr [.str "."]) "read" = .ok ["."] ∧
      Workers.paths Trial.library (.arr [.str "."]) = .ok ["."] ∧
      parts ['.'] = [] ∧ ¬ Validated Trial.library "." := by
  have accepted : Workers.paths Trial.library (.arr [.str "."]) = .ok ["."] := paths_iff.mpr (by decide)
  refine ⟨by decide +kernel,safeWorkerPaths_iff.mpr (by decide),accepted,by decide,?_⟩
  intro validated
  exact (validated.scopes.mp accepted).2.parts_ne_nil (by decide)

end SjgControl

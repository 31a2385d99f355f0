import SjgControl.Base64
import SjgControl.Manifest
import SjgControl.PathGrammar
import SjgControl.Verifier.Branch
import SjgControl.Verifier.Presence

/-! From a workspace to the branch: the manifest that the client makes of the workspace, its
authorization, and the commit that the backend makes of it. -/
namespace SjgControl
open Relational FileTree

namespace Manifest

variable {lib : Library} {encode : Bytes → String} {base : GitTree}

/-- The change is the deletion of the path, or the upsert of a file there that fits. -/
def Carries (lib : Library) (encode : Bytes → String) (workspace : GitTree) (change : Json) (p : TreePath) : Prop :=
  change = deletion (DiffRecord.pathText p) ∨
    ∃ file : File, file.content.length ≤ 2 * 1024 * 1024 ∧ workspace.get p = some file ∧
      change = upsertion lib encode (DiffRecord.pathText p) file

theorem changesOf_carries {w : Worktree} {record : DiffRecord} (holds : record.Holds base w.tree)
    (fits : ∀ p ∈ record.written, Sendable w.tree p) :
    List.Forall₂ (Carries lib encode w.tree) (changesOf lib encode w.tree record) record.changed := by
  have single {p : TreePath} (small : Sendable w.tree p) (held : w.tree.get p ≠ none) :
      List.Forall₂ (Carries lib encode w.tree) (changesOf.upserted lib encode w.tree p) [p] := by
    obtain ⟨file,found,made⟩ := @upserted_held lib encode w.tree p held
    rw [made]
    exact .cons (.inr ⟨file,(small file found).2,found,rfl⟩) .nil
  cases record with
  | added p => exact single (fits _ (by simp [DiffRecord.written])) holds.2
  | modified p => exact single (fits _ (by simp [DiffRecord.written])) holds.2
  | typeChanged p => exact single (fits _ (by simp [DiffRecord.written])) holds.2
  | deleted p => exact .cons (.inl rfl) .nil
  | renamed similarity old new => exact .cons (.inl rfl) (single (fits _ (by simp [DiffRecord.written])) holds.2)
  | copied similarity old new => exact .cons (.inl rfl) (single (fits _ (by simp [DiffRecord.written])) holds.2)

theorem forall₂_flatMap {α β γ : Type} {R : β → γ → Prop} {f : α → List β} {g : α → List γ} {items : List α}
    (each : ∀ a ∈ items, List.Forall₂ R (f a) (g a)) : List.Forall₂ R (items.flatMap f) (items.flatMap g) := by
  induction items with
  | nil => exact .nil
  | cons a rest ih =>
    obtain ⟨first,later⟩ := List.forall_mem_cons.mp each
    exact List.rel_append first (ih later)

/-- A path that the authorization reads as it was meant. -/
def Portable (p : TreePath) : Prop := ∀ name ∈ p, ∀ c ∈ name, c ≠ '\\' ∧ 32 ≤ c.toNat

instance : DecidablePred Portable := fun p => inferInstanceAs (Decidable (∀ name ∈ p, ∀ c ∈ name, c ≠ '\\' ∧ 32 ≤ c.toNat))

theorem mem_joined {names : List PosixPath.Name} {name : PosixPath.Name} {c : Char} (listed : name ∈ names) (inside : c ∈ name) :
    c ∈ PosixPath.join names := by
  induction names with
  | nil => cases listed
  | cons first rest ih =>
    cases rest with
    | nil =>
      rw [List.mem_singleton.mp listed] at inside
      exact inside
    | cons other rest =>
      rw [PosixPath.join,List.mem_append,List.mem_cons]
      rcases List.mem_cons.mp listed with rfl | later
      · exact .inl inside
      · exact .inr (.inr (ih later))

theorem unsafePath_join {p : TreePath} (nameable : Nameable p) : ¬ unsafePath (PosixPath.join p) ↔ Portable p := by
  have named : ∀ name ∈ p, '/' ∉ name ∧ name ≠ [] ∧ name ≠ ['.'] ∧ name ≠ ['.','.'] := by
    intro name member
    obtain ⟨some_,slash,_,here,up⟩ := nameable.2 name member
    exact ⟨slash,some_,here,up⟩
  rw [unsafePath_iff]
  constructor
  · rintro (canonical | dot)
    · intro name member c inside
      exact canonical.plain c (mem_joined member inside)
    · exfalso
      have cut := PosixPath.parts_join nameable.1 (fun name member => ⟨(named name member).1,(named name member).2.1,(named name member).2.2.1⟩)
      rw [dot] at cut
      exact nameable.1 cut.symm
  · intro portable
    refine .inl ⟨⟨p,nameable.1,rfl,named⟩,?_⟩
    intro c member
    rcases PosixPath.mem_join member with rfl | ⟨name,listed,inside⟩
    · decide
    · exact portable name listed c inside

/-! The authorization of the changes. -/

variable {seen next : List String}

theorem safeChange_deletion {path : String} : safeChange lib seen (deletion path) = .ok next ↔
    ¬ unsafePath path.toList ∧ path ∉ seen ∧ ¬ protectedPath path.toList ∧ path::seen = next := by
  have named : Json.get [("operation",.str "delete"),("path",.str path),("mode",.str "100644")] "path" = .str path := rfl
  have operation : Json.get [("operation",.str "delete"),("path",.str path),("mode",.str "100644")] "operation" = .str "delete" := rfl
  simp only [deletion,safeChange,named,operation,Json.textOr_str,deny_bind_ok,checkMode_bind_ok]
  constructor
  · rintro ⟨safe,new,free,_,_,_,ok⟩
    exact ⟨safe,new,free,pure_ok.mp ok⟩
  · rintro ⟨safe,new,free,rfl⟩
    exact ⟨safe,new,free,by decide,rfl,by simp [changeKeys],rfl⟩

theorem safeChange_upsertion (decodes : ∀ data, lib.b64decode (encode data) = some data)
    (short : ∀ data : Bytes, data.length ≤ 2 * 1024 * 1024 → (encode data).length ≤ 2800000)
    (hex : ∀ data, hexChars 64 (lib.sha256 data).toList) {path : String} {file : File}
    (fits : file.content.length ≤ 2 * 1024 * 1024) : safeChange lib seen (upsertion lib encode path file) = .ok next ↔
      ¬ unsafePath path.toList ∧ path ∉ seen ∧ ¬ protectedPath path.toList ∧ path::seen = next := by
  obtain ⟨mode,given,regular⟩ : ∃ mode : String, (if file.mode = "100755" then "100755" else "100644") = mode ∧
      regularMode (.str mode) = true := by
    refine ⟨_,rfl,?_⟩
    split
    next => rfl
    next => rfl
  obtain ⟨change,shape⟩ : ∃ change : Fields, change = [("operation",.str "upsert"),("path",.str path),("mode",.str mode),
      ("sha256",.str (lib.sha256 file.content)),("content_base64",.str (encode file.content))] := ⟨_,rfl⟩
  have made : upsertion lib encode path file = .obj change := by rw [upsertion,given,shape]
  have named : Json.get change "path" = .str path := by rw [shape]; rfl
  have operation : Json.get change "operation" = .str "upsert" := by rw [shape]; rfl
  have permission : (if Json.has change "mode" then Json.get change "mode" else .str "100644") = .str mode := by rw [shape]; rfl
  have digest : Json.get change "sha256" = .str (lib.sha256 file.content) := by rw [shape]; rfl
  have encoded : Json.get change "content_base64" = .str (encode file.content) := by rw [shape]; rfl
  have keys : (∀ name ∈ change.map Prod.fst, name ∈ changeKeys "upsert") ∧
      ∀ name ∈ changeKeys "upsert", name ∈ change.map Prod.fst := by
    rw [shape]
    exact ⟨fun _ member => member,fun _ member => member⟩
  have content : safeContent lib change = .ok () := by
    simp only [safeContent,digest,encoded,Json.textOr_str]
    refine deny_bind_ok.mpr ⟨not_or.mpr ⟨not_lt.mpr (short _ fits),not_not.mpr (hex _)⟩,?_⟩
    refine fetch_bind_ok.mpr ⟨_,decodes _,?_⟩
    exact require_ok.mpr (not_or.mpr ⟨not_lt.mpr fits,not_not.mpr rfl⟩)
  rw [made]
  simp only [safeChange,named,operation,permission,Json.textOr_str,deny_bind_ok,checkMode_bind_ok]
  rw [if_pos trivial,content]
  constructor
  · rintro ⟨safe,new,free,_,_,_,ok⟩
    exact ⟨safe,new,free,pure_ok.mp ok⟩
  · rintro ⟨safe,new,free,rfl⟩
    exact ⟨safe,new,free,by decide,regular,not_not.mpr keys,rfl⟩

theorem pathText_inj {p q : TreePath} (first : Nameable p) (second : Nameable q)
    (same : DiffRecord.pathText p = DiffRecord.pathText q) : p = q := by
  rw [← split_pathText first,same,split_pathText second]

theorem safeChanges_iff {w : Worktree} (decodes : ∀ data, lib.b64decode (encode data) = some data)
    (short : ∀ data : Bytes, data.length ≤ 2 * 1024 * 1024 → (encode data).length ≤ 2800000)
    (hex : ∀ data, hexChars 64 (lib.sha256 data).toList) {changes : List Json} {paths : List TreePath}
    (carried : List.Forall₂ (Carries lib encode w.tree) changes paths) (named : ∀ p ∈ paths, Nameable p) :
    (∃ final, changes.foldlM (safeChange lib) seen = .ok final) ↔
      (∀ p ∈ paths, (Portable p ∧ ¬ protectedPath (PosixPath.join p)) ∧ DiffRecord.pathText p ∉ seen) ∧ paths.Nodup := by
  induction carried generalizing seen with
  | nil => exact ⟨fun _ => ⟨by simp,List.nodup_nil⟩,fun _ => ⟨seen,rfl⟩⟩
  | @cons change p changes paths first rest ih =>
    obtain ⟨own,others⟩ := List.forall_mem_cons.mp named
    have chars : (DiffRecord.pathText p).toList = PosixPath.join p := String.toList_ofList
    have round {next : List String} : safeChange lib seen change = .ok next ↔
        Portable p ∧ DiffRecord.pathText p ∉ seen ∧ ¬ protectedPath (PosixPath.join p) ∧ DiffRecord.pathText p::seen = next := by
      rw [← unsafePath_join own,← chars]
      rcases first with rfl | ⟨file,small,found,rfl⟩
      · exact safeChange_deletion
      · exact safeChange_upsertion decodes short hex small
    have later (seen : List String) := @ih seen others
    rw [List.foldlM_cons,List.forall_mem_cons,List.nodup_cons]
    constructor
    · rintro ⟨final,ok⟩
      obtain ⟨next,passed,ok⟩ := bind_ok.mp ok
      obtain ⟨portable,new,free,rfl⟩ := round.mp passed
      obtain ⟨each,once⟩ := (later _).mp ⟨final,ok⟩
      refine ⟨⟨⟨⟨portable,free⟩,new⟩,fun q member => ⟨(each q member).1,fun old => (each q member).2 (List.mem_cons_of_mem _ old)⟩⟩,?_,once⟩
      exact fun again => (each p again).2 List.mem_cons_self
    · rintro ⟨⟨⟨⟨portable,free⟩,new⟩,each⟩,alone,once⟩
      obtain ⟨final,ok⟩ := (later (DiffRecord.pathText p::seen)).mpr ⟨fun q member => by
        refine ⟨(each q member).1,?_⟩
        intro listed
        rcases List.mem_cons.mp listed with same | old
        · exact alone (pathText_inj (others q member) own same ▸ member)
        · exact (each q member).2 old,once⟩
      exact ⟨final,bind_ok.mpr ⟨_,round.mpr ⟨portable,new,free,rfl⟩,ok⟩⟩

theorem safeChange_next {fields : Fields} {path : String} (named : Json.get fields "path" = .str path)
    (ok : safeChange lib seen (.obj fields) = .ok next) : path ∉ seen ∧ next = path::seen := by
  unfold safeChange at ok
  simp only [named,Json.textOr_str,deny_bind_ok,checkMode_bind_ok] at ok
  obtain ⟨_,new,_,_,_,_,ok⟩ := ok
  refine ⟨new,?_⟩
  split at ok
  next =>
    obtain ⟨_,_,ok⟩ := bind_ok.mp ok
    exact (pure_ok.mp ok).symm
  next => exact (pure_ok.mp ok).symm

theorem safeChanges_once {w : Worktree} {changes : List Json} {paths : List TreePath} {final : List String}
    (carried : List.Forall₂ (Carries lib encode w.tree) changes paths)
    (ok : changes.foldlM (safeChange lib) seen = .ok final) :
    (∀ p ∈ paths, DiffRecord.pathText p ∉ seen) ∧ paths.Nodup := by
  induction carried generalizing seen with
  | nil => exact ⟨by simp,List.nodup_nil⟩
  | @cons change p changes paths first rest ih =>
    rw [List.foldlM_cons] at ok
    obtain ⟨next,passed,ok⟩ := bind_ok.mp ok
    have round : DiffRecord.pathText p ∉ seen ∧ next = DiffRecord.pathText p::seen := by
      rcases first with rfl | ⟨file,_,_,rfl⟩
      · exact safeChange_next rfl passed
      · exact safeChange_next rfl passed
    obtain ⟨new,rfl⟩ := round
    obtain ⟨each,once⟩ := ih ok
    refine ⟨List.forall_mem_cons.mpr ⟨new,fun q member old => each q member (List.mem_cons_of_mem _ old)⟩,List.nodup_cons.mpr ⟨?_,once⟩⟩
    exact fun again => each p again List.mem_cons_self

def submitArguments (repository topic oid : String) (changes : List Json) : Fields :=
  [("repository",.str repository),("topic",.str topic),("base_oid",.str oid),("changes",.arr changes)]

structure Entitled (policy : OrganizationPolicy) (session : Session) (repository : String) : Prop where
  bound : session.orgId = policy.orgId ∧ session.policyDigest = policy.policyDigest
  capable : "repo.submit" ∈ (lookup roleCapabilities session.role).getD []
  inside : ∃ role, lookup policy.roles session.role = some role ∧ repository ∈ session.workspaceAliases ∧
    repository ∈ role.repositories

/-- The differences of the workspace from the base can be submitted. -/
structure Submittable (w : Worktree) (records : List DiffRecord) : Prop where
  some_ : records ≠ []
  few : (records.flatMap DiffRecord.changed).length ≤ 200
  once : (records.flatMap DiffRecord.changed).Nodup
  sendable : ∀ record ∈ records, ∀ p ∈ record.written, Sendable w.tree p
  free : ∀ p ∈ records.flatMap DiffRecord.changed, Portable p ∧ ¬ protectedPath (PosixPath.join p)

theorem validateSubmit_iff {policy : OrganizationPolicy} {session : Session} {repository topic oid : String} {changes : List Json}
    (given : repository ≠ "") :
    validateRequest lib policy session "repo.submit" (submitArguments repository topic oid changes) = .ok () ↔
      Entitled policy session repository := by
  have names : (submitArguments repository topic oid changes).map Prod.fst = ["repository","topic","base_oid","changes"] := rfl
  have repo : Json.get (submitArguments repository topic oid changes) "repository" = .str repository := rfl
  have some_ : (Json.str repository).truthy = true := by simpa [Json.truthy] using given
  simp only [validateRequest,deny_bind_ok,names,repo,some_,if_true]
  constructor
  · rintro ⟨bound,_,capable,_,_,ok⟩
    obtain ⟨role,found,ok⟩ := fetch_bind_ok.mp ok
    rw [deny_bind_ok] at ok
    obtain ⟨inside,_⟩ := ok
    simp only [not_or,not_not] at bound capable inside
    exact ⟨bound,capable,role,found,inside⟩
  · rintro ⟨bound,capable,role,found,inside⟩
    refine ⟨by simpa using bound,by decide,not_not.mpr capable,by decide,by decide,?_⟩
    refine fetch_bind_ok.mpr ⟨role,found,deny_bind_ok.mpr ⟨?_,?_⟩⟩
    · rw [not_or,not_not,not_not]
      exact inside
    · exact require_ok.mpr (fun both => absurd both.1 (by decide))

theorem changed_ne_nil (record : DiffRecord) : record.changed ≠ [] := by
  cases record <;> simp [DiffRecord.changed,DiffRecord.cleared,DiffRecord.written]

/-- No path is cleared after a file has been written below it. -/
def InOrder (records : List DiffRecord) : Prop :=
  records.Pairwise (fun earlier later => ∀ q ∈ later.cleared, ∀ p ∈ earlier.written, ¬ q <+: p)

instance : DecidablePred InOrder := fun records => inferInstanceAs (Decidable (records.Pairwise _))

/-- The entries that a record comes down to. -/
def entriesOf (workspace : GitTree) (record : DiffRecord) : List GitEntry :=
  record.cleared.map (fun p => ⟨p,none⟩) ++ record.written.map (fun p => ⟨p,workspace.get p⟩)

theorem orderly_entries {workspace : GitTree} {records : List DiffRecord} (holds : ∀ record ∈ records, record.Holds base workspace) :
    Tree.Orderly (records.flatMap (entriesOf workspace)) ↔ InOrder records := by
  have inside {record : DiffRecord} (holds : record.Holds base workspace) : Tree.Orderly (entriesOf workspace record) := by
    have kept {p : TreePath} (held : workspace.get p ≠ none) : Tree.Orderly [(⟨p,workspace.get p⟩ : GitEntry)] :=
      List.pairwise_singleton _ _
    have cleared (p q : TreePath) : Tree.Orderly [(⟨p,none⟩ : GitEntry),⟨q,workspace.get q⟩] :=
      List.pairwise_pair.mpr (fun _ written => absurd rfl written)
    cases record with
    | added p => exact kept holds.2
    | modified p => exact kept holds.2
    | typeChanged p => exact kept holds.2
    | deleted p => exact List.pairwise_singleton _ _
    | renamed similarity old new => exact cleared old new
    | copied similarity old new => exact cleared old new
  unfold Tree.Orderly InOrder
  rw [List.pairwise_flatMap]
  refine (and_iff_right (fun record member => inside (holds record member))).trans (List.Pairwise.iff_of_mem ?_)
  intro earlier later first second
  have held := written_held (holds earlier first)
  have kept := written_held (holds later second)
  constructor
  · intro apart q gone p put
    have left : (⟨q,none⟩ : GitEntry) ∈ entriesOf workspace later := List.mem_append_left _ (List.mem_map_of_mem gone)
    have right : (⟨p,workspace.get p⟩ : GitEntry) ∈ entriesOf workspace earlier := List.mem_append_right _ (List.mem_map_of_mem put)
    exact apart _ right _ left rfl (held p put)
  · intro apart e right f left empty full below
    rcases List.mem_append.mp left with member | member
    · obtain ⟨q,gone,rfl⟩ := List.mem_map.mp member
      rcases List.mem_append.mp right with other | other
      · obtain ⟨p,_,rfl⟩ := List.mem_map.mp other
        exact full rfl
      · obtain ⟨p,put,rfl⟩ := List.mem_map.mp other
        exact apart q gone p put below
    · obtain ⟨q,put,rfl⟩ := List.mem_map.mp member
      exact kept q put empty

theorem differing_changed {record : DiffRecord} : ∀ p ∈ record.differing, p ∈ record.changed := by
  cases record <;> simp [DiffRecord.differing,DiffRecord.changed,DiffRecord.cleared,DiffRecord.written]

theorem entriesOf_paths {workspace : GitTree} {record : DiffRecord} :
    (entriesOf workspace record).map Entry.path = record.changed := by
  rw [entriesOf,List.map_append,List.map_map,List.map_map,DiffRecord.changed]
  exact congrArg₂ (· ++ ·) (List.map_id _) (List.map_id _)

/-- The entries of the records turn the base into the workspace just when no record is a copy
and nothing is cleared behind what was written below it. -/
theorem entries_arrive_iff {w : Worktree} {records : List DiffRecord} (reports : Reports base w.tree records)
    (once : (records.flatMap DiffRecord.changed).Nodup) :
    (∀ p, (base.apply (records.flatMap (entriesOf w.tree))).get p = w.tree.get p) ↔
      (∀ record ∈ records, record.copies = false) ∧ InOrder records := by
  have paths : (records.flatMap (entriesOf w.tree)).map Entry.path = records.flatMap DiffRecord.changed := by
    rw [List.map_flatMap]
    exact List.flatMap_congr (fun _ _ => entriesOf_paths)
  have edits (plain : ∀ record ∈ records, record.copies = false) :
      Tree.Edits base w.tree (records.flatMap (entriesOf w.tree)) := by
    refine ⟨?_,?_,paths ▸ once,?_⟩
    · intro e member
      obtain ⟨record,listed,inside⟩ := List.mem_flatMap.mp member
      rcases List.mem_append.mp inside with gone | put
      · obtain ⟨q,cleared,rfl⟩ := List.mem_map.mp gone
        exact ((cleared_gone (reports.each record listed) q cleared).2 (plain record listed)).symm
      · obtain ⟨q,_,rfl⟩ := List.mem_map.mp put
        rfl
    · intro e member empty
      obtain ⟨record,listed,inside⟩ := List.mem_flatMap.mp member
      rcases List.mem_append.mp inside with gone | put
      · obtain ⟨q,cleared,rfl⟩ := List.mem_map.mp gone
        exact (cleared_gone (reports.each record listed) q cleared).1
      · obtain ⟨q,written,rfl⟩ := List.mem_map.mp put
        exact absurd empty (written_held (reports.each record listed) q written)
    · intro p differs
      have listed : p ∈ records.flatMap DiffRecord.changed := by
        rw [List.flatMap_congr (fun record member => changed_differing (plain record member))]
        exact reports.every p differs
      rw [← paths] at listed
      exact List.mem_map.mp listed
  by_cases plain : ∀ record ∈ records, record.copies = false
  · rw [(edits plain).apply_iff,orderly_entries reports.each,and_iff_right plain]
  · rw [eq_false (fun both => plain both.1 : ¬ ((∀ record ∈ records, record.copies = false) ∧ InOrder records)),iff_false]
    intro same
    push Not at plain
    obtain ⟨record,listed,copy⟩ := plain
    cases record with
    | copied similarity old new =>
      have holds := (reports.each _ listed).1
      have left := same old
      have source : (⟨old,none⟩ : GitEntry) ∈ records.flatMap (entriesOf w.tree) :=
        List.mem_flatMap.mpr ⟨_,listed,List.mem_append_left _ (List.mem_singleton_self _)⟩
      rw [Tree.get_apply] at left
      have reached : (⟨old,none⟩ : GitEntry) ∈ (records.flatMap (entriesOf w.tree)).filter (fun e => e.touches old) :=
        List.mem_filter.mpr ⟨source,decide_eq_true (.inl (List.prefix_refl _))⟩
      obtain ⟨last,final⟩ := Option.isSome_iff_exists.mp (List.getLast?_isSome.mpr (List.ne_nil_of_mem reached))
      have member := List.mem_of_mem_filter (List.mem_of_getLast? final)
      -- the entry of the source is the only one at its path
      have empty : last.outcome old = none := by
        unfold Entry.outcome
        split
        next own => rw [List.inj_on_of_nodup_map (paths ▸ once) member source own]
        next => rfl
      rw [final,Option.map_some,Option.getD_some,empty,holds.2] at left
      exact holds.1 left.symm
    | added p => exact copy rfl
    | modified p => exact copy rfl
    | typeChanged p => exact copy rfl
    | deleted p => exact copy rfl
    | renamed similarity old new => exact copy rfl

theorem treeEntries_reported (decodes : ∀ data, lib.b64decode (encode data) = some data) {w : Worktree} {records : List DiffRecord}
    (reports : Reports base w.tree records) (sendable : ∀ record ∈ records, ∀ p ∈ record.written, Sendable w.tree p) :
    treeEntries lib (records.flatMap (changesOf lib encode w.tree)) = some (records.flatMap (entriesOf w.tree)) := by
  have built {changes : List Json} (each : ∀ change ∈ changes, treeEntry lib change = some (requested lib change)) :
      treeEntries lib changes = some (changes.map (requested lib)) := by
    induction changes with
    | nil => rfl
    | cons change rest ih =>
      obtain ⟨first,later⟩ := List.forall_mem_cons.mp each
      rw [treeEntries,first,ih later]
      rfl
  have single {p : TreePath} : ∀ change ∈ changesOf.upserted lib encode w.tree p, treeEntry lib change = some (requested lib change) := by
    intro change member
    unfold changesOf.upserted at member
    split at member
    next file _ =>
      have same : treeEntry lib (upsertion lib encode (DiffRecord.pathText p) file) =
          some ⟨PosixPath.split (DiffRecord.pathText p).toList,
            some ⟨if file.mode = "100755" then "100755" else "100644",file.content⟩⟩ := by
        simp [treeEntry,upsertion,Json.get,decodes]
      rw [List.mem_singleton.mp member,same,treeEntry_some same]
    next => cases member
  have entries {record : DiffRecord} : ∀ change ∈ changesOf lib encode w.tree record, treeEntry lib change = some (requested lib change) := by
    cases record with
    | added p => exact single
    | modified p => exact single
    | typeChanged p => exact single
    | deleted p => exact List.forall_mem_singleton.mpr rfl
    | renamed similarity old new => exact List.forall_mem_cons.mpr ⟨rfl,single⟩
    | copied similarity old new => exact List.forall_mem_cons.mpr ⟨rfl,single⟩
  have every : ∀ change ∈ records.flatMap (changesOf lib encode w.tree), treeEntry lib change = some (requested lib change) := by
    intro change member
    obtain ⟨record,_,inside⟩ := List.mem_flatMap.mp member
    exact entries change inside
  rw [built every,List.map_flatMap]
  exact congrArg some (List.flatMap_congr (fun record member =>
    changesOf_spec decodes (reports.record_named record member) (reports.each record member) (sendable record member)))

def base64Library : TextLibrary :=
  {Served.quietLibrary with b64decode := Base64.b64decode, sha256 := Trial.library.sha256}

def sketch (paths : List TreePath) : GitTree := Tree.empty.apply (paths.map (fun p => ⟨p,some note⟩))

theorem get_sketch {paths : List TreePath} {p : TreePath} {file : File} (held : (sketch paths).get p = some file) :
    p ∈ paths ∧ file = note := by
  rw [sketch,Tree.get_apply] at held
  cases final : ((paths.map (fun p => (⟨p,some note⟩ : GitEntry))).filter (fun e => e.touches p)).getLast? with
  | none =>
    rw [final] at held
    cases held
  | some last =>
    rw [final] at held
    obtain ⟨q,listed,rfl⟩ := List.mem_map.mp (List.mem_of_mem_filter (List.mem_of_getLast? final))
    have held : (if q = p then some note else none) = some file := held
    split at held
    next own => exact ⟨own ▸ listed,(Option.some.inj held).symm⟩
    next => cases held

def unfolded : Worktree where
  tree := sketch [[['d'],['x']],[['z']]]
  named p held := by
    obtain ⟨file,found⟩ := Option.ne_none_iff_exists'.mp held
    have every : ∀ p ∈ [[['d'],['x']],[['z']]], Nameable p := by decide
    exact every p (get_sketch found).1
  kinds p file found := by
    rw [(get_sketch found).2]
    decide

def unfolding : List DiffRecord := [.added [['d'],['x']],.renamed 100 [['d']] [['z']]]

theorem unfolding_reports : Reports (sketch [[['d']]]) unfolded.tree unfolding where
  each := List.forall_mem_cons.mpr ⟨⟨by decide,by decide⟩,List.forall_mem_singleton.mpr ⟨⟨by decide,by decide⟩,by decide⟩⟩
  every p differs := by
    have inside : ∀ p ∈ [[['d']]] ++ [[['d'],['x']],[['z']]], p ∈ unfolding.flatMap DiffRecord.differing := by decide
    apply inside
    cases here : (sketch [[['d']]]).get p with
    | some file => exact List.mem_append_left _ (get_sketch here).1
    | none =>
      obtain ⟨file,there⟩ := Option.ne_none_iff_exists'.mp (here ▸ differs).symm
      exact List.mem_append_right _ (get_sketch there).1
  once := by decide
  named p held := by
    obtain ⟨file,found⟩ := Option.ne_none_iff_exists'.mp held
    rw [List.mem_singleton.mp (get_sketch found).1]
    decide

def originOid : String := "0123456789abcdef0123456789abcdef01234567"

def origin : GitRepo where
  lineage := {
    get := fun sha => if sha = originOid then some ⟨"Initial commit",[],sketch [[['d']]]⟩ else none
    closed := by
      intro sha commit held parent listed
      split at held
      next =>
        cases held
        cases listed
      next => cases held }
  refs := fun branch => if branch = "main" then some originOid else none
  resolved := by
    intro branch sha points
    split at points
    next =>
      cases points
      rfl
    next => cases points
  named := by decide

def unfoldingChanges : List Json := unfolding.flatMap (changesOf base64Library.toLibrary Base64.b64encode unfolded.tree)

end Manifest
end SjgControl

import SjgControl.Governance.Managed
import Mathlib.Data.List.Forall2

/-! The rows of `blockers.yaml` become queue items whose bodies are read back as theirs. -/
namespace SjgControl
open Relational PythonText

/-! A valid source is read back from the line that marks it. -/

theorem sourceMarker_eq_ok {source marker : String} : sourceMarker source = .ok marker ↔
    source ≠ "" ∧ ¬ contains source "--" ∧ '\n' ∉ source.toList ∧
      marker = "<!-- governance-monitor-source:" ++ source ++ " -->" := by
  unfold sourceMarker
  split
  next wrong =>
    constructor
    · intro ok
      cases ok
    · rintro ⟨given,dashes,plain,-⟩
      exact absurd wrong (not_or.mpr ⟨given,not_or.mpr ⟨dashes,plain⟩⟩)
  next right =>
    obtain ⟨given,right⟩ := not_or.mp right
    obtain ⟨dashes,plain⟩ := not_or.mp right
    constructor
    · intro ok
      cases ok
      exact ⟨given,dashes,plain,rfl⟩
    · rintro ⟨-,-,-,rfl⟩
      rfl

theorem markedSource_marker {source : List Char} (given : source ≠ []) :
    markedSource ("<!-- governance-monitor-source:".toList ++ source ++ " -->".toList) = some source := by
  have start : "<!-- governance-monitor-source:".toList.length = 31 := by decide
  have ending : " -->".toList.length = 4 := by decide
  have size : ("<!-- governance-monitor-source:".toList ++ source ++ " -->".toList).length = source.length + 35 := by
    rw [List.length_append,List.length_append,start,ending]
    omega
  have some_ : 0 < source.length := List.length_pos_iff.mpr given
  unfold markedSource
  rw [if_pos ⟨⟨source ++ " -->".toList,(List.append_assoc _ _ _).symm⟩,List.suffix_append _ _,by omega⟩,size,
    Nat.add_sub_cancel,List.append_assoc,List.drop_append_of_le_length (by omega),List.drop_of_length_le (by omega),
    List.nil_append,List.take_left]

theorem sourceIn_marked {source marker : String} (valid : sourceMarker source = .ok marker) (rest : List Char) :
    sourceIn (marker.toList ++ '\n'::rest) = some source := by
  obtain ⟨given,-,plain,rfl⟩ := sourceMarker_eq_ok.mp valid
  have line : '\n' ∉ ("<!-- governance-monitor-source:" ++ source ++ " -->").toList := by
    simp [plain]
  have own := markedSource_marker (fun empty => given (String.toList_eq_nil_iff.mp empty))
  rw [← String.toList_append,← String.toList_append] at own
  unfold sourceIn
  rw [lines_break,lines_plain line,List.singleton_append,List.findSome?_cons,own]
  simp

namespace GovernanceMonitor
variable {lib : MonitorLibrary}

/-- The body of an item names its source, and its title is that of no proposal. -/
structure Labelled (item : DesiredQueueItem) : Prop where
  valid : (sourceMarker item.sourceKey).toBool = true
  source : sourceIn item.body.toList = some item.sourceKey
  title : startsWith item.title "[HUMAN] "

theorem managed_marked {source : String} {issue : Fields}
    (named : sourceIn (bodyOf lib.toTextLibrary issue).toList = some source) (valid : (sourceMarker source).toBool = true)
    (rest : List Fields) :
    managed lib (issue::rest) = (do
      let others ← managed lib rest
      return (source,issue)::others) := by
  rw [managed,named]
  cases marker : sourceMarker source with
  | error e =>
    rw [marker] at valid
    cases valid
  | ok text =>
    simp only [marker]
    rfl

theorem managed_insert {source : String} {issue : Fields}
    (named : sourceIn (bodyOf lib.toTextLibrary issue).toList = some source) (valid : (sourceMarker source).toBool = true)
    (front rest : List Fields) :
    managed lib (front ++ issue::rest) = (do
      let before ← managed lib front
      let others ← managed lib rest
      return before ++ (source,issue)::others) := by
  induction front with
  | nil =>
    rw [List.nil_append,managed_marked named valid]
    rfl
  | cons first front ih =>
    rw [List.cons_append,managed,managed]
    cases sourceIn (bodyOf lib.toTextLibrary first).toList with
    | none => exact ih
    | some other =>
      simp only [ih]
      cases sourceMarker other with
      | error e => rfl
      | ok text =>
        cases managed lib front with
        | error e => rfl
        | ok before =>
          cases managed lib rest with
          | error e => rfl
          | ok others => rfl

/-! What the checks on one row ask for, in their order. -/

structure Named (lib : MonitorLibrary) (seen : List String) (row : List (Yaml × Yaml)) (id : String) : Prop where
  fields : Yaml.HasFields blockerFields optionalBlockerFields row
  text : rowText lib row "id" = some id
  kebab : blockerId id.toList
  fresh : id ∉ seen

structure Addressed (row : List (Yaml × Yaml)) : Prop where
  state : stateIs row "open" = true ∨ stateIs row "cleared" = true
  needs : (Yaml.get row "needs").isText "human-principal" = true

structure Described (lib : MonitorLibrary) (row : List (Yaml × Yaml)) (summary action : String) : Prop where
  summaryText : (rowText lib row "summary").map strip = some summary
  actionText : (rowText lib row "action").map strip = some action
  bounds : summary ≠ "" ∧ summary.length ≤ 140 ∧ action ≠ "" ∧ action.length ≤ 4000

structure Passes (lib : MonitorLibrary) (seen : List String) (row : List (Yaml × Yaml)) (id : String) : Prop where
  named : Named lib seen row id
  addressed : Addressed row
  described : stateIs row "open" = true → ∃ summary action, Described lib row summary action

/-- What the checks leave out of a row that they let through so far: a text for each value that
`str` reads, a hash for the state, and for an open blocker an id without two dashes in a row and
a `blocks` that JSON can hold. -/
structure Tame (lib : MonitorLibrary) (seen : List String) (row : List (Yaml × Yaml)) : Prop where
  id : Yaml.HasFields blockerFields optionalBlockerFields row → (rowText lib row "id").isSome = true
  state : ∀ id, Named lib seen row id → (Yaml.get row "state").hashable = true
  texts : ∀ id, Named lib seen row id → Addressed row → stateIs row "open" = true →
    (rowText lib row "summary").isSome = true ∧ (rowText lib row "action").isSome = true
  opened : ∀ id, Passes lib seen row id → stateIs row "open" = true →
    ¬ contains id "--" ∧ (blocksText lib row).isSome = true

/-- Every row that is reached, behind rows that all pass, is tame. -/
def Orderly (lib : MonitorLibrary) : List String → List Yaml → Prop
  | _,[] => True
  | seen,row::rest => ∀ entries, row = .mapping entries →
      Tame lib seen entries ∧ ∀ id, Passes lib seen entries id → Orderly lib (id::seen) rest

def isOpenRow (row : Yaml) : Bool :=
  match row with
  | .mapping entries => stateIs entries "open"
  | _ => false

/-- The item of an open blocker, whose body is read back under its source among any issues. -/
structure Queued (lib : MonitorLibrary) (row : Yaml) (item : DesiredQueueItem) : Prop where
  source : ∃ entries id, row = .mapping entries ∧ rowText lib entries "id" = some id ∧ item.sourceKey = "blocker:" ++ id
  classified : ∀ issue : Fields, bodyOf lib.toTextLibrary issue = item.body → ∀ front rest,
    managed lib (front ++ issue::rest) = (do
      let before ← managed lib front
      let others ← managed lib rest
      return before ++ (item.sourceKey,issue)::others)

theorem lowerAlnum_ne_newline {c : Char} (given : lowerAlnum c ∨ c = '-') : c ≠ '\n' := by
  rintro rfl
  exact absurd given (by decide)

theorem blockerId_plain {id : List Char} (accepted : blockerId id) : '\n' ∉ id := by
  cases id with
  | nil => exact List.not_mem_nil
  | cons c rest =>
    obtain ⟨first,others,-⟩ := accepted
    intro member
    rcases List.mem_cons.mp member with same | member
    · exact lowerAlnum_ne_newline (.inl first) same.symm
    · exact lowerAlnum_ne_newline (of_decide_eq_true (List.all_eq_true.mp others _ member)) rfl

/-- Two dashes behind a text without dashes stand in the rest. -/
theorem dashes_behind {front : List Char} (without : '-' ∉ front) (rest : List Char) :
    ['-','-'] <:+: front ++ rest ↔ ['-','-'] <:+: rest := by
  induction front with
  | nil => rfl
  | cons c front ih =>
    obtain ⟨other,inside⟩ := not_or.mp (fun either => without (List.mem_cons.mpr either))
    rw [List.cons_append,List.infix_cons_iff,ih inside]
    refine or_iff_right ?_
    intro start
    exact other (List.cons_prefix_cons.mp start).1

theorem blocker_source_dashes (id : String) : contains ("blocker:" ++ id) "--" ↔ contains id "--" := by
  unfold contains
  rw [String.toList_append]
  exact dashes_behind (by decide) id.toList

theorem marker_valid_iff {id : String} (accepted : blockerId id.toList) :
    (∃ marker, sourceMarker ("blocker:" ++ id) = .ok marker) ↔ ¬ contains id "--" := by
  rw [← blocker_source_dashes]
  constructor
  · rintro ⟨marker,valid⟩
    exact (sourceMarker_eq_ok.mp valid).2.1
  · intro dashes
    refine ⟨_,sourceMarker_eq_ok.mpr ⟨?_,dashes,?_,rfl⟩⟩
    · intro empty
      have both := congrArg String.toList empty
      rw [String.toList_append] at both
      cases both
    · rw [String.toList_append]
      intro newline
      rcases List.mem_append.mp newline with front | behind
      · exact absurd front (by decide)
      · exact blockerId_plain accepted behind

section Row
variable {seen : List String} {row : List (Yaml × Yaml)} {id : String}

theorem Named.same {other : String} (one : Named lib seen row id) (two : Named lib seen row other) : other = id := by
  have texts := two.text
  rw [one.text] at texts
  exact (Option.some.inj texts).symm

/-! A row is tame when the checks stop it before anything could go wrong. -/

theorem Tame.of_unnamed (unnamed : ∀ id, ¬ Named lib seen row id)
    (read : Yaml.HasFields blockerFields optionalBlockerFields row → (rowText lib row "id").isSome = true) :
    Tame lib seen row where
  id := read
  state other named := absurd named (unnamed other)
  texts other named := absurd named (unnamed other)
  opened other passes := absurd passes.named (unnamed other)

theorem Tame.of_unaddressed (named : Named lib seen row id) (hashable : (Yaml.get row "state").hashable = true)
    (unaddressed : ¬ Addressed row) : Tame lib seen row where
  id _ := by rw [named.text]; rfl
  state _ _ := hashable
  texts _ _ addressed := absurd addressed unaddressed
  opened _ passes := absurd passes.addressed unaddressed

theorem Tame.of_undescribed (named : Named lib seen row id) (hashable : (Yaml.get row "state").hashable = true)
    (texts : (rowText lib row "summary").isSome = true ∧ (rowText lib row "action").isSome = true)
    (undescribed : ∀ summary action, ¬ Described lib row summary action) : Tame lib seen row where
  id _ := by rw [named.text]; rfl
  state _ _ := hashable
  texts _ _ _ _ := texts
  opened _ passes isOpen := by
    obtain ⟨summary,action,described⟩ := passes.described isOpen
    exact absurd described (undescribed summary action)

theorem Tame.of_cleared (named : Named lib seen row id) (hashable : (Yaml.get row "state").hashable = true)
    (cleared : stateIs row "open" ≠ true) : Tame lib seen row where
  id _ := by rw [named.text]; rfl
  state _ _ := hashable
  texts _ _ _ isOpen := absurd isOpen cleared
  opened _ _ isOpen := absurd isOpen cleared

theorem Tame.of_opened (named : Named lib seen row id) (hashable : (Yaml.get row "state").hashable = true)
    (texts : (rowText lib row "summary").isSome = true ∧ (rowText lib row "action").isSome = true)
    (dashes : ¬ contains id "--") (blocks : (blocksText lib row).isSome = true) : Tame lib seen row where
  id _ := by rw [named.text]; rfl
  state _ _ := hashable
  texts _ _ _ _ := texts
  opened other passes _ := by
    rw [named.same passes.named]
    exact ⟨dashes,blocks⟩

theorem isSome_of_map {found : Option String} {text : String} (read : found.map strip = some text) :
    found.isSome = true := by
  rw [← Option.isSome_map,read]
  rfl

theorem Labelled.queued {item : DesiredQueueItem} (labelled : Labelled item) (text : rowText lib row "id" = some id)
    (key : item.sourceKey = "blocker:" ++ id) : Queued lib (.mapping row) item where
  source := ⟨row,id,rfl,text,key⟩
  classified issue same front rest :=
    managed_insert (by rw [same]; exact labelled.source) labelled.valid front rest

theorem blocker_ok {acc next : List String × List DesiredQueueItem}
    (ok : blocker lib acc (.mapping row) = .ok next) :
    Tame lib acc.1 row ∧ ∃ id, Passes lib acc.1 row id ∧ next.1 = id::acc.1 ∧
      ((stateIs row "open" = true ∧ ∃ item, next.2 = acc.2 ++ [item] ∧ item.sourceKey = "blocker:" ++ id ∧ Labelled item) ∨
        stateIs row "open" = false ∧ next.2 = acc.2) := by
  simp only [blocker,require_bind_ok,fetch_bind_ok] at ok
  obtain ⟨fields,id,text,⟨kebab,fresh⟩,hashable,state,needs,ok⟩ := ok
  have named : Named lib acc.1 row id := ⟨fields,text,kebab,fresh⟩
  split at ok
  next isOpen =>
    simp only [fetch_bind_ok,require_bind_ok] at ok
    obtain ⟨summary,summaryText,action,actionText,bounds,ok⟩ := ok
    obtain ⟨marker,valid,ok⟩ := bind_ok.mp ok
    obtain ⟨blocks,written,ok⟩ := fetch_bind_ok.mp ok
    cases pure_ok.mp ok
    have given : (blocksText lib row).isSome = true := by
      rw [written]
      rfl
    refine ⟨Tame.of_opened named hashable ⟨isSome_of_map summaryText,isSome_of_map actionText⟩
      ((marker_valid_iff kebab).mp ⟨marker,valid⟩) given,id,
      ⟨named,⟨state,needs⟩,fun _ => ⟨summary,action,summaryText,actionText,bounds⟩⟩,rfl,.inl ⟨isOpen,_,rfl,rfl,?_⟩⟩
    refine ⟨by rw [valid]; rfl,?_,?_⟩
    · simp only [String.toList_append,List.append_assoc]
      exact sourceIn_marked valid _
    · unfold startsWith
      rw [String.toList_append]
      exact List.prefix_append _ _
  next cleared =>
    cases pure_ok.mp ok
    exact ⟨Tame.of_cleared named hashable cleared,id,
      ⟨named,⟨state,needs⟩,fun isOpen => absurd isOpen cleared⟩,rfl,.inr ⟨Bool.eq_false_iff.mpr cleared,rfl⟩⟩

/-- A refusal by the monitor comes from a tame row that does not pass, any other error from a
row that is not tame. -/
theorem blocker_error {acc : List String × List DesiredQueueItem} {e : MonitorError}
    (failed : blocker lib acc (.mapping row) = .error e) :
    (∃ message, e = .governance message) ∧ Tame lib acc.1 row ∧ (∀ id, ¬ Passes lib acc.1 row id) ∨
      (∀ message, e ≠ .governance message) ∧ ¬ Tame lib acc.1 row := by
  simp only [blocker,require_bind_error,fetch_bind_error] at failed
  rcases failed with ⟨wrong,rfl⟩ | ⟨fields,⟨missing,rfl⟩ | ⟨id,text,⟨wrong,rfl⟩ | ⟨⟨kebab,fresh⟩,failed⟩⟩⟩
  · have unnamed : ∀ id, ¬ Named lib acc.1 row id := fun id named => wrong named.fields
    exact .inl ⟨⟨_,rfl⟩,Tame.of_unnamed unnamed (fun fields => absurd fields wrong),fun id passes => unnamed id passes.named⟩
  · refine .inr ⟨by simp,fun tame => ?_⟩
    have read := tame.id fields
    rw [missing] at read
    cases read
  · have unnamed : ∀ id, ¬ Named lib acc.1 row id := by
      intro other named
      have texts := named.text
      rw [text] at texts
      cases texts
      exact wrong ⟨named.kebab,named.fresh⟩
    exact .inl ⟨⟨_,rfl⟩,Tame.of_unnamed unnamed (fun _ => by rw [text]; rfl),fun id passes => unnamed id passes.named⟩
  have named : Named lib acc.1 row id := ⟨fields,text,kebab,fresh⟩
  rcases failed with ⟨wrong,rfl⟩ | ⟨hashable,⟨wrong,rfl⟩ | ⟨state,⟨wrong,rfl⟩ | ⟨needs,failed⟩⟩⟩
  · exact .inr ⟨by simp,fun tame => wrong (tame.state id named)⟩
  · have unaddressed : ¬ Addressed row := fun addressed => wrong addressed.state
    exact .inl ⟨⟨_,rfl⟩,Tame.of_unaddressed named hashable unaddressed,fun id passes => unaddressed passes.addressed⟩
  · have unaddressed : ¬ Addressed row := fun addressed => wrong addressed.needs
    exact .inl ⟨⟨_,rfl⟩,Tame.of_unaddressed named hashable unaddressed,fun id passes => unaddressed passes.addressed⟩
  have addressed : Addressed row := ⟨state,needs⟩
  split at failed
  next isOpen =>
    simp only [fetch_bind_error,require_bind_error] at failed
    rcases failed with ⟨missing,rfl⟩ | ⟨summary,summaryText,⟨missing,rfl⟩ | ⟨action,actionText,⟨wrong,rfl⟩ | ⟨bounds,failed⟩⟩⟩
    · refine .inr ⟨by simp,fun tame => ?_⟩
      have given := (tame.texts id named addressed isOpen).1
      rw [Option.map_eq_none_iff.mp missing] at given
      cases given
    · refine .inr ⟨by simp,fun tame => ?_⟩
      have given := (tame.texts id named addressed isOpen).2
      rw [Option.map_eq_none_iff.mp missing] at given
      cases given
    · have undescribed : ∀ other other', ¬ Described lib row other other' := by
        intro other other' described
        have summaries := described.summaryText
        have actions := described.actionText
        rw [summaryText] at summaries
        rw [actionText] at actions
        cases summaries
        cases actions
        exact wrong described.bounds
      refine .inl ⟨⟨_,rfl⟩,Tame.of_undescribed named hashable
        ⟨isSome_of_map summaryText,isSome_of_map actionText⟩ undescribed,?_⟩
      intro other passes
      obtain ⟨summary',action',described⟩ := passes.described isOpen
      exact undescribed summary' action' described
    · have passes : Passes lib acc.1 row id := ⟨named,addressed,fun _ => ⟨summary,action,summaryText,actionText,bounds⟩⟩
      rcases bind_error.mp failed with unmarked | ⟨marker,valid,failed⟩
      · have value : e = .value "invalid reconciliation source key" := by
          unfold sourceMarker at unmarked
          split at unmarked
          next =>
            cases unmarked
            rfl
          next => cases unmarked
        refine .inr ⟨by simp [value],fun tame => ?_⟩
        obtain ⟨marker,valid⟩ := (marker_valid_iff kebab).mpr (tame.opened id passes isOpen).1
        rw [valid] at unmarked
        cases unmarked
      · rcases fetch_bind_error.mp failed with ⟨missing,rfl⟩ | ⟨blocks,_,failed⟩
        · refine .inr ⟨by simp,fun tame => ?_⟩
          have given := (tame.opened id passes isOpen).2
          rw [missing] at given
          cases given
        · cases failed
  next => cases failed

end Row

theorem rows_queued {rows : List Yaml} {acc next : List String × List DesiredQueueItem}
    (ok : rows.foldlM (blocker lib) acc = .ok next) :
    ∃ made, next.2 = acc.2 ++ made ∧ List.Forall₂ (Queued lib) (rows.filter isOpenRow) made := by
  induction rows generalizing acc with
  | nil =>
    cases pure_ok.mp ok
    exact ⟨[],(List.append_nil _).symm,.nil⟩
  | cons row rest ih =>
    obtain ⟨middle,first,later⟩ := bind_ok.mp ok
    obtain ⟨others,grown,queued⟩ := ih later
    cases row with
    | mapping entries =>
      obtain ⟨-,id,passes,-,⟨isOpen,item,added,key,labelled⟩ | ⟨cleared,added⟩⟩ := blocker_ok first
      · refine ⟨item::others,by rw [grown,added,List.append_assoc,List.singleton_append],?_⟩
        rw [List.filter_cons_of_pos (by exact isOpen)]
        exact .cons (labelled.queued passes.named.text key) queued
      · refine ⟨others,by rw [grown,added],?_⟩
        rw [List.filter_cons_of_neg (by simp [isOpenRow,cleared])]
        exact queued
    | _ => cases first

theorem rows_apart {rows : List Yaml} {next : List String × List DesiredQueueItem}
    (ok : rows.foldlM (blocker lib) ([],[]) = .ok next) :
    (next.2.map DesiredQueueItem.sourceKey).Nodup ∧
      ∀ item ∈ next.2, Labelled item ∧ ∃ id ∈ next.1, item.sourceKey = "blocker:" ++ id := by
  have initially : (([] : List DesiredQueueItem).map DesiredQueueItem.sourceKey).Nodup ∧
      ∀ item ∈ ([] : List DesiredQueueItem), Labelled item ∧ ∃ id ∈ ([] : List String), item.sourceKey = "blocker:" ++ id :=
    ⟨List.nodup_nil,fun item member => absurd member List.not_mem_nil⟩
  refine @foldlM_ok _ _ _ (blocker lib) (fun acc => (acc.2.map DesiredQueueItem.sourceKey).Nodup ∧
    ∀ item ∈ acc.2, Labelled item ∧ ∃ id ∈ acc.1, item.sourceKey = "blocker:" ++ id) ?_ rows ([],[]) next initially ok
  rintro acc row after ⟨apart,each⟩ step
  cases row with
  | mapping entries =>
    obtain ⟨-,id,passes,ids,⟨-,item,added,key,labelled⟩ | ⟨-,added⟩⟩ := blocker_ok step
    · have known : ∀ other ∈ acc.2, Labelled other ∧ ∃ own ∈ after.1, other.sourceKey = "blocker:" ++ own := by
        intro other member
        obtain ⟨good,own,listed,named⟩ := each other member
        exact ⟨good,own,ids ▸ List.mem_cons_of_mem _ listed,named⟩
      rw [added]
      constructor
      · rw [List.map_append,List.map_singleton]
        refine List.nodup_append.mpr ⟨apart,List.nodup_singleton _,?_⟩
        intro source member other last same
        obtain ⟨old,listed,rfl⟩ := List.mem_map.mp member
        obtain ⟨-,own,before,named⟩ := each old listed
        rw [List.mem_singleton.mp last,named,key] at same
        exact passes.named.fresh (String.append_right_inj "blocker:" |>.mp same ▸ before)
      · intro other member
        rcases List.mem_append.mp member with old | last
        · exact known other old
        · cases List.mem_singleton.mp last
          exact ⟨labelled,id,ids ▸ List.mem_cons_self,key⟩
    · rw [added]
      refine ⟨apart,?_⟩
      intro other member
      obtain ⟨good,own,listed,named⟩ := each other member
      exact ⟨good,own,ids ▸ List.mem_cons_of_mem _ listed,named⟩
  | _ => cases step

/-- The loop raises nothing but its own refusals exactly over orderly rows. -/
theorem rows_refused_iff (rows : List Yaml) (acc : List String × List DesiredQueueItem) :
    (∀ e, rows.foldlM (blocker lib) acc = .error e → ∃ message, e = .governance message) ↔ Orderly lib acc.1 rows := by
  induction rows generalizing acc with
  | nil => exact iff_of_true (fun e failed => by cases failed) trivial
  | cons row rest ih =>
    rw [List.foldlM_cons]
    constructor
    · rintro refused entries rfl
      cases own : blocker lib acc (.mapping entries) with
      | error e =>
        rcases blocker_error own with ⟨_,tame,stopped⟩ | ⟨other,_⟩
        · exact ⟨tame,fun id passes => absurd passes (stopped id)⟩
        · obtain ⟨message,same⟩ := refused e (bind_error.mpr (.inl own))
          exact absurd same (other message)
      | ok next =>
        obtain ⟨tame,id,passes,grown,-⟩ := blocker_ok own
        refine ⟨tame,fun other passes' => ?_⟩
        rw [passes.named.same passes'.named,← grown]
        exact (ih next).mp (fun e failed => refused e (bind_error.mpr (.inr ⟨next,own,failed⟩)))
    · intro orderly e failed
      cases row with
      | mapping entries =>
        obtain ⟨tame,later⟩ := orderly entries rfl
        rcases bind_error.mp failed with own | ⟨next,own,behind⟩
        · rcases blocker_error own with ⟨message,_⟩ | ⟨_,wild⟩
          · exact message
          · exact absurd tame wild
        · obtain ⟨-,id,passes,grown,-⟩ := blocker_ok own
          have orderlyRest := later id passes
          rw [← grown] at orderlyRest
          exact (ih next).mpr orderlyRest e behind
      | _ =>
        rcases bind_error.mp failed with own | ⟨next,own,_⟩
        · cases own
          exact ⟨_,rfl⟩
        · cases own

def Lists (g : GovernanceMonitor) (rows : List Yaml) : Prop :=
  ∃ fields, g.workspace.blockers = .ok (.mapping fields) ∧ Yaml.HasFields ["blockers"] [] fields ∧
    Yaml.get fields "blockers" = .seq rows

/-- The monitor refuses the document, or makes one item for each open blocker. -/
structure RoundTrips (g : GovernanceMonitor) (lib : MonitorLibrary) : Prop where
  refuses : ∀ e, g.blockers lib = .error e → ∃ message, e = .governance message
  returns : ∀ desired, g.blockers lib = .ok desired →
    ∃ rows, g.Lists rows ∧ List.Forall₂ (Queued lib) (rows.filter isOpenRow) desired

theorem blockers_listed {g : GovernanceMonitor} {rows : List Yaml} (listed : g.Lists rows) :
    g.blockers lib = (do
      let (_,desired) ← rows.foldlM (blocker lib) ([],[])
      return desired) := by
  obtain ⟨fields,document,shape,rows_⟩ := listed
  unfold blockers
  rw [document]
  change (require _ _ >>= _) = _
  rw [require,if_pos shape]
  simp only [rows_]
  rfl

theorem blockers_unlisted {g : GovernanceMonitor} (unlisted : ∀ rows, ¬ g.Lists rows) :
    ∃ message, g.blockers lib = .error (.governance message) := by
  unfold blockers
  cases document : g.workspace.blockers with
  | error message => exact ⟨message,rfl⟩
  | ok document_ =>
    cases document_ with
    | mapping fields =>
      by_cases shape : Yaml.HasFields ["blockers"] [] fields
      · cases rows : Yaml.get fields "blockers" with
        | seq items => exact absurd ⟨fields,document,shape,rows⟩ (unlisted items)
        | _ =>
          refine ⟨"blockers must be a list",?_⟩
          change (require _ _ >>= _) = _
          rw [require,if_pos shape]
          simp only [rows]
          rfl
      · refine ⟨"blockers.yaml must contain only the blockers list",?_⟩
        change (require _ _ >>= _) = _
        rw [require,if_neg shape]
        rfl
    | _ => exact ⟨_,rfl⟩

theorem blockers_items {g : GovernanceMonitor} {blocked : List DesiredQueueItem} (ok : g.blockers lib = .ok blocked) :
    (blocked.map DesiredQueueItem.sourceKey).Nodup ∧
      ∀ item ∈ blocked, Labelled item ∧ startsWith item.sourceKey "blocker:" := by
  by_cases some_ : ∃ rows, g.Lists rows
  · obtain ⟨rows,listed⟩ := some_
    rw [blockers_listed listed] at ok
    obtain ⟨next,looped,last⟩ := bind_ok.mp ok
    cases pure_ok.mp last
    obtain ⟨apart,each⟩ := rows_apart looped
    refine ⟨apart,?_⟩
    intro item member
    obtain ⟨labelled,id,-,key⟩ := each item member
    refine ⟨labelled,?_⟩
    unfold startsWith
    rw [key,String.toList_append]
    exact List.prefix_append _ _
  · obtain ⟨message,failed⟩ := @blockers_unlisted lib g (not_exists.mp some_)
    rw [failed] at ok
    cases ok

/-- An accepted id has a valid marker exactly when no two of its dashes stand in a row, and the
monitor keeps to its own refusals exactly over orderly rows. -/
theorem blockers_round_trip_iff (g : GovernanceMonitor) (lib : MonitorLibrary) :
    (∀ id : String, blockerId id.toList →
      ((∃ marker, sourceMarker ("blocker:" ++ id) = .ok marker) ↔ ¬ contains id "--")) ∧
    (RoundTrips g lib ↔ ∀ rows, g.Lists rows → Orderly lib [] rows) := by
  refine ⟨fun id accepted => marker_valid_iff accepted,?_⟩
  constructor
  · intro trips rows listed
    refine (rows_refused_iff rows ([],[])).mp ?_
    intro e failed
    refine trips.refuses e ?_
    rw [blockers_listed listed]
    exact bind_error.mpr (.inl failed)
  · intro orderly
    by_cases some_ : ∃ rows, g.Lists rows
    · obtain ⟨rows,listed⟩ := some_
      refine ⟨?_,?_⟩
      · intro e failed
        rw [blockers_listed listed] at failed
        rcases bind_error.mp failed with own | ⟨next,_,later⟩
        · exact (rows_refused_iff rows ([],[])).mpr (orderly rows listed) e own
        · cases later
      · intro desired ok
        rw [blockers_listed listed] at ok
        obtain ⟨next,own,last⟩ := bind_ok.mp ok
        cases pure_ok.mp last
        obtain ⟨made,grown,queued⟩ := rows_queued own
        rw [List.nil_append] at grown
        rw [← grown] at queued
        exact ⟨rows,listed,queued⟩
    · obtain ⟨message,failed⟩ := @blockers_unlisted lib g (not_exists.mp some_)
      refine ⟨?_,?_⟩
      · intro e other
        rw [failed] at other
        cases other
        exact ⟨message,rfl⟩
      · intro desired ok
        rw [failed] at ok
        cases ok

def doubled : GovernanceMonitor where
  backend := Served.plannerBackend
  principalGithub := "human"
  projectNumber := none
  workspace := ⟨.error "",.ok (.mapping [(.str "blockers",.seq [.mapping [(.str "id",.str "a--b"),
    (.str "kind",.str "decision"),(.str "needs",.str "human-principal"),(.str "value",.str "high"),
    (.str "effort_minutes",.int 5),(.str "summary",.str "Sign"),(.str "action",.str "Sign the contract"),
    (.str "blocks",.seq []),(.str "opened",.date "2026-01-01"),(.str "state",.str "open")]])])⟩

theorem double_dash_raises :
    blockerId "a--b".toList ∧ sourceMarker "blocker:a--b" = .error (.value "invalid reconciliation source key") ∧
      doubled.blockers QueueRun.quietMonitorLibrary = .error (.value "invalid reconciliation source key") ∧
      ¬ RoundTrips doubled QueueRun.quietMonitorLibrary := by
  have outcome : (doubled.blockers QueueRun.quietMonitorLibrary).map (fun _ => ()) =
      .error (.value "invalid reconciliation source key") := by
    decide +kernel
  have raised : doubled.blockers QueueRun.quietMonitorLibrary = .error (.value "invalid reconciliation source key") := by
    cases own : doubled.blockers QueueRun.quietMonitorLibrary with
    | ok desired =>
      rw [own] at outcome
      cases outcome
    | error e =>
      rw [own] at outcome
      cases outcome
      rfl
  refine ⟨by decide,by decide +kernel,raised,?_⟩
  intro trips
  obtain ⟨message,same⟩ := trips.refuses _ raised
  cases same

end GovernanceMonitor
end SjgControl

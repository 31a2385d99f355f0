import SjgControl.JsonText
import SjgControl.Publication

/-! What the name of an event tells of its item. -/
namespace SjgControl
open Encoding

/-- The entry under which the items of a source have their id. -/
def idName (sourceId : String) : String :=
  if endsWith sourceId "comments" ∨ endsWith sourceId "workflow-runs" then "id" else "number"

def entryText (lib : PollLibrary) (item : Item) (name : String) : String := (Json.get item name).textOr lib.render

/-- `updated_at`, else `created_at`. -/
def updateTime (lib : PollLibrary) (item : Item) : String :=
  let given := Json.get item "updated_at"
  (if given.truthy then given else Json.get item "created_at").textOr lib.render

/-- Ids are integers, attempts are positive, and no status has a colon. -/
structure Versioned (lib : PollLibrary) (sourceId : String) (item : Item) : Prop where
  id : ∃ n, Json.get item (idName sourceId) = .int n
  attempt : endsWith sourceId "workflow-runs" → ∃ n, 0 < n ∧ Json.get item "run_attempt" = .int n
  status : plain (entryText lib item "status")
  conclusion : plain (entryText lib item "conclusion")

structure SameVersion (lib : PollLibrary) (s t : String) (item other : Item) : Prop where
  source : s = t
  id : Json.get item (idName s) = Json.get other (idName t)
  updated : updateTime lib item = updateTime lib other
  run : endsWith s "workflow-runs" →
    Json.get item "run_attempt" = Json.get other "run_attempt" ∧
      entryText lib item "status" = entryText lib other "status" ∧
      entryText lib item "conclusion" = entryText lib other "conclusion"

section
variable {lib : PollLibrary} {s t : String} {item other : Item} {m n : Int}

theorem itemText_int {name : String} (own : Json.get item name = .int n) : itemText lib item name = .ok (toString n) := by
  have given : Json.has item name := by
    by_contra missing
    have absent : Json.get item name = .null := by
      unfold Json.get
      rw [List.find?_eq_none.mpr (fun field member same => missing ⟨field,member,of_decide_eq_true same⟩)]
      rfl
    rw [absent] at own
    cases own
  unfold itemText
  rw [if_pos given,own]
  rfl

theorem source_kind (known : s ∈ sourceIds) : endsWith s "workflow-runs" → ¬ endsWith s "comments" := by
  have every : ∀ s ∈ sourceIds, endsWith s "workflow-runs" → ¬ endsWith s "comments" := by decide
  exact every s known

theorem eventIdentity_run (known : s ∈ sourceIds) (runs : endsWith s "workflow-runs")
    (own : Json.get item (idName s) = .int n) {k : Int} (positive : 0 < k) (attempt : Json.get item "run_attempt" = .int k) :
    eventIdentity lib s item = .ok (toString n,
      toString n ++ ":" ++ toString k ++ ":" ++ entryText lib item "status" ++ ":" ++ entryText lib item "conclusion" ++
        ":" ++ updateTime lib item,updateTime lib item) := by
  have name : idName s = "id" := if_pos (.inr runs)
  rw [name] at own
  unfold eventIdentity
  dsimp only
  rw [if_neg (source_kind known runs),if_pos runs,itemText_int own,attempt]
  have given : (Json.int k).truthy = true := by
    simp only [Json.truthy,decide_eq_true_eq]
    omega
  rw [if_pos given]
  rfl

theorem eventIdentity_edit (runs : ¬ endsWith s "workflow-runs") (own : Json.get item (idName s) = .int n) :
    eventIdentity lib s item = .ok (toString n,toString n ++ ":" ++ updateTime lib item,updateTime lib item) := by
  unfold eventIdentity
  dsimp only
  by_cases comments : endsWith s "comments"
  · have name : idName s = "id" := if_pos (.inl comments)
    rw [name] at own
    rw [if_pos comments,itemText_int own]
    rfl
  · have name : idName s = "number" := if_neg (not_or.mpr ⟨comments,runs⟩)
    rw [name] at own
    rw [if_neg comments,if_neg runs,itemText_int own]
    rfl

theorem edit_inj {a b : String}
    (same : toString m ++ ":" ++ a = toString n ++ ":" ++ b) : m = n ∧ a = b := by
  have lists := congrArg String.toList same
  simp only [String.toList_append,List.append_assoc] at lists
  obtain ⟨ids,times⟩ := cut_unique (plain_int m) (plain_int n) lists
  exact ⟨JsonText.int_injective ids,String.toList_inj.mp times⟩

theorem run_inj {i j : Int} {status status' conclusion conclusion' a b : String} (plains : plain status)
    (plains' : plain status') (ends : plain conclusion) (ends' : plain conclusion')
    (same : toString m ++ ":" ++ toString i ++ ":" ++ status ++ ":" ++ conclusion ++ ":" ++ a =
      toString n ++ ":" ++ toString j ++ ":" ++ status' ++ ":" ++ conclusion' ++ ":" ++ b) :
    m = n ∧ i = j ∧ status = status' ∧ conclusion = conclusion' ∧ a = b := by
  have lists := congrArg String.toList same
  simp only [String.toList_append,List.append_assoc] at lists
  obtain ⟨ids,lists⟩ := cut_unique (plain_int m) (plain_int n) lists
  obtain ⟨attempts,lists⟩ := cut_unique (plain_int i) (plain_int j) lists
  obtain ⟨states,lists⟩ := cut_unique plains plains' lists
  obtain ⟨outcomes,times⟩ := cut_unique ends ends' lists
  exact ⟨JsonText.int_injective ids,JsonText.int_injective attempts,String.toList_inj.mp states,
    String.toList_inj.mp outcomes,String.toList_inj.mp times⟩

theorem sameVersion_of_edit (runs : ¬ endsWith s "workflow-runs") (id : Json.get item (idName s) = .int m)
    (id' : Json.get other (idName s) = .int n)
    (same : toString m ++ ":" ++ updateTime lib item = toString n ++ ":" ++ updateTime lib other) :
    SameVersion lib s s item other := by
  obtain ⟨rfl,updated⟩ := edit_inj same
  exact ⟨rfl,id.trans id'.symm,updated,fun run => absurd run runs⟩

/-- An event has the name of another exactly if the two are the same version of the same item. -/
theorem eventName_eq_iff (known : s ∈ sourceIds) (known' : t ∈ sourceIds) (versioned : Versioned lib s item)
    (versioned' : Versioned lib t other) :
    ∃ external version occurred external' version' occurred',
      eventIdentity lib s item = .ok (external,version,occurred) ∧
      eventIdentity lib t other = .ok (external',version',occurred') ∧
      (eventName s external version = eventName t external' version' ↔ SameVersion lib s t item other) ∧
      (Function.Injective lib.uuid5 →
        (lib.uuid5 (eventName s external version) = lib.uuid5 (eventName t external' version') ↔
          SameVersion lib s t item other)) := by
  suffices names : ∃ external version occurred external' version' occurred',
      eventIdentity lib s item = .ok (external,version,occurred) ∧
      eventIdentity lib t other = .ok (external',version',occurred') ∧
      (eventName s external version = eventName t external' version' ↔ SameVersion lib s t item other) by
    obtain ⟨external,version,occurred,external',version',occurred',one,two,same⟩ := names
    exact ⟨_,_,_,_,_,_,one,two,same,fun collisionFree => collisionFree.eq_iff.trans same⟩
  obtain ⟨m,id⟩ := versioned.id
  obtain ⟨n,id'⟩ := versioned'.id
  have apart {v w : String} (same : eventName s (toString m) v = eventName t (toString n) w) : s = t ∧ v = w := by
    obtain ⟨sources,_,versions⟩ :=
      eventName_inj (plain_source known) (plain_source known') (plain_int m) (plain_int n) same
    exact ⟨sources,versions⟩
  by_cases runs : endsWith s "workflow-runs"
  · obtain ⟨i,positive,attempt⟩ := versioned.attempt runs
    by_cases runs' : endsWith t "workflow-runs"
    · obtain ⟨j,positive',attempt'⟩ := versioned'.attempt runs'
      refine ⟨_,_,_,_,_,_,eventIdentity_run known runs id positive attempt,
        eventIdentity_run known' runs' id' positive' attempt',?_⟩
      constructor
      · intro same
        obtain ⟨rfl,versions⟩ := apart same
        obtain ⟨rfl,rfl,states,outcomes,times⟩ := run_inj versioned.status versioned'.status versioned.conclusion
          versioned'.conclusion versions
        exact ⟨rfl,id.trans id'.symm,times,fun _ => ⟨attempt.trans attempt'.symm,states,outcomes⟩⟩
      · rintro ⟨rfl,ids,times,run⟩
        obtain ⟨attempts,states,outcomes⟩ := run runs
        cases id.symm.trans (ids.trans id')
        cases attempt.symm.trans (attempts.trans attempt')
        rw [states,outcomes,times]
    · refine ⟨_,_,_,_,_,_,eventIdentity_run known runs id positive attempt,eventIdentity_edit runs' id',?_⟩
      constructor
      · intro same
        exact absurd ((apart same).1 ▸ runs) runs'
      · intro same
        exact absurd (same.source ▸ runs) runs'
  · by_cases runs' : endsWith t "workflow-runs"
    · obtain ⟨j,positive',attempt'⟩ := versioned'.attempt runs'
      refine ⟨_,_,_,_,_,_,eventIdentity_edit runs id,eventIdentity_run known' runs' id' positive' attempt',?_⟩
      constructor
      · intro same
        exact absurd ((apart same).1 ▸ runs') runs
      · intro same
        exact absurd (same.source ▸ runs') runs
    · refine ⟨_,_,_,_,_,_,eventIdentity_edit runs id,eventIdentity_edit runs' id',?_⟩
      constructor
      · intro same
        obtain ⟨rfl,versions⟩ := apart same
        exact sameVersion_of_edit runs id id' versions
      · rintro ⟨rfl,ids,times,_⟩
        cases id.symm.trans (ids.trans id')
        rw [times]

end

def failedRun (attempt : Int) : Item :=
  [("id",.int 1),("run_attempt",.int attempt),("status",.str "completed"),("conclusion",.str "failure"),
    ("updated_at",.str "2026-01-01T01:00:00Z")]

theorem failedRun_versioned {attempt : Int} (positive : 0 < attempt) :
    Versioned Poll.newYear "product-workflow-runs" (failedRun attempt) where
  id := ⟨1,rfl⟩
  attempt _ := ⟨attempt,positive,rfl⟩
  status := (by decide : plain "completed")
  conclusion := (by decide : plain "failure")

theorem eventName_eq_iff_rerun :
    ∃ external version occurred external' version' occurred',
      eventIdentity Poll.newYear "product-workflow-runs" (failedRun 1) = .ok (external,version,occurred) ∧
      eventIdentity Poll.newYear "product-workflow-runs" (failedRun 2) = .ok (external',version',occurred') ∧
      eventName "product-workflow-runs" external version ≠ eventName "product-workflow-runs" external' version' := by
  obtain ⟨_,_,_,_,_,_,one,two,same,_⟩ := eventName_eq_iff (by decide : "product-workflow-runs" ∈ sourceIds) (by decide)
    (failedRun_versioned (by decide : (0 : Int) < 1)) (failedRun_versioned (by decide : (0 : Int) < 2))
  refine ⟨_,_,_,_,_,_,one,two,?_⟩
  intro equal
  obtain ⟨attempts,_⟩ := (same.mp equal).run (by decide)
  cases attempts

end SjgControl

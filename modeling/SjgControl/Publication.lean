import Mathlib.Data.String.Basic
import SjgControl.Encoding
import SjgControl.Poll

/-! What a poll publishes. The id of an event is a name's UUIDv5, and the name of an event whose
external id has no colon can be taken apart again, so both keys of the observed events agree. -/
namespace SjgControl
open Relational Machine

def plain (text : String) : Prop := ':' ∉ text.toList

instance (text : String) : Decidable (plain text) := inferInstanceAs (Decidable (':' ∉ text.toList))

theorem eventName_toList (source external version : String) :
    (eventName source external version).toList =
      source.toList ++ ':'::(external.toList ++ ':'::version.toList) := by
  simp [eventName,String.toList_append]

theorem eventName_inj {s t e f v w : String} (ps : plain s) (pt : plain t) (pe : plain e) (pf : plain f)
    (same : eventName s e v = eventName t f w) : s = t ∧ e = f ∧ v = w := by
  have lists := congrArg String.toList same
  rw [eventName_toList,eventName_toList] at lists
  obtain ⟨sources,rest⟩ := Encoding.cut_unique ps pt lists
  obtain ⟨externals,versions⟩ := Encoding.cut_unique pe pf rest
  exact ⟨String.toList_inj.mp sources,String.toList_inj.mp externals,String.toList_inj.mp versions⟩

theorem plain_nat (n : Nat) : plain n.repr := by
  intro inside
  rw [Nat.repr,String.toList_ofList] at inside
  have digit := Nat.isDigit_of_mem_toDigits (by decide) (by decide) inside
  contradiction

theorem plain_int (n : Int) : plain (toString n) := by
  cases n with
  | ofNat m => exact plain_nat m
  | negSucc m =>
    intro inside
    change ':' ∈ ("-" ++ m.succ.repr).toList at inside
    rw [String.toList_append,List.mem_append] at inside
    rcases inside with sign | digits
    · contradiction
    · exact plain_nat _ digits

theorem plain_source {sourceId : String} (known : sourceId ∈ sourceIds) : plain sourceId := by
  have every : ∀ s ∈ sourceIds, plain s := by decide
  exact every sourceId known

/-- The ids and numbers of the item, where present, are integers. -/
def integral (item : Item) : Prop :=
  ∀ name ∈ ["id","number"], Json.has item name → ∃ n, Json.get item name = .int n

theorem itemText_plain {lib : PollLibrary} {item : Item} {name text : String} (ints : integral item)
    (listed : name ∈ ["id","number"]) (ok : itemText lib item name = .ok text) : plain text := by
  unfold itemText at ok
  split at ok
  next has =>
    obtain ⟨n,value⟩ := ints name listed has
    cases ok
    rw [value]
    exact plain_int n
  next => contradiction

theorem eventIdentity_plain {lib : PollLibrary} {sourceId external version occurred : String} {item : Item}
    (ints : integral item) (ok : eventIdentity lib sourceId item = .ok (external,version,occurred)) :
    plain external := by
  simp only [eventIdentity] at ok
  split at ok
  next =>
    obtain ⟨text,got,equal⟩ := bind_ok.mp ok
    cases pure_ok.mp equal
    exact itemText_plain ints (by decide) got
  next =>
    split at ok
    next =>
      obtain ⟨text,got,equal⟩ := bind_ok.mp ok
      cases pure_ok.mp equal
      exact itemText_plain ints (by decide) got
    next =>
      obtain ⟨text,got,equal⟩ := bind_ok.mp ok
      cases pure_ok.mp equal
      exact itemText_plain ints (by decide) got

/-- The id is that of the event's name, and the name can be taken apart. -/
structure Named (lib : PollLibrary) (sourceId externalId versionKey eventId : String) : Prop where
  source : plain sourceId
  external : plain externalId
  id : eventId = lib.uuid5 (eventName sourceId externalId versionKey)

theorem Named.unique {lib : PollLibrary} (collisionFree : Function.Injective lib.uuid5)
    {s e v i t f w j : String} (one : Named lib s e v i) (two : Named lib t f w j) :
    i = j ↔ (s,e,v) = (t,f,w) := by
  constructor
  · intro same
    rw [one.id,two.id] at same
    obtain ⟨rfl,rfl,rfl⟩ := eventName_inj one.source two.source one.external two.external (collisionFree same)
    rfl
  · intro same
    cases same
    rw [one.id,two.id]

def SnapshotEvent.Named (lib : PollLibrary) (r : SnapshotEvent) : Prop :=
  SjgControl.Named lib r.sourceId r.externalId r.versionKey r.eventId

def ObservedEvent.Named (lib : PollLibrary) (r : ObservedEvent) : Prop :=
  SjgControl.Named lib r.sourceId r.externalId r.versionKey r.eventId

namespace Poll
variable {lib : PollLibrary} {p : Poll}

/-- The staged row of an item. -/
structure Imprint (lib : PollLibrary) (p : Poll) (item : Item) (r : SnapshotEvent) : Prop where
  snapshot : r.snapshotId = p.snapshotId
  source : r.sourceId = p.sourceId
  id : r.eventId = lib.uuid5 (eventName p.sourceId r.externalId r.versionKey)
  identity : ∃ occurred, eventIdentity lib p.sourceId item = .ok (r.externalId,r.versionKey,occurred)

theorem Imprint.named {item : Item} {r : SnapshotEvent} (imprint : Imprint lib p item r)
    (known : p.sourceId ∈ sourceIds) (ints : integral item) : r.Named lib := by
  obtain ⟨occurred,ok⟩ := imprint.identity
  refine ⟨imprint.source ▸ plain_source known,eventIdentity_plain ints ok,?_⟩
  rw [imprint.source]
  exact imprint.id

/-- From `st` to `next` only staged rows of `items` were added. -/
structure Staged (lib : PollLibrary) (p : Poll) (items : List Item) (st next : Collecting) : Prop where
  frame : next.queue = {st.queue with snapshotEvents := next.queue.snapshotEvents}
  kept : ∀ r ∈ st.queue.snapshotEvents.rows, r ∈ next.queue.snapshotEvents.rows
  drawn : ∀ r ∈ next.queue.snapshotEvents.rows, r ∈ st.queue.snapshotEvents.rows ∨
    ∃ item ∈ items, Imprint lib p item r
  maximum : st.maximum ≤ next.maximum

theorem Staged.refl (items : List Item) (st : Collecting) : Staged lib p items st st :=
  ⟨rfl,fun _ member => member,fun _ member => .inl member,le_refl _⟩

theorem Staged.trans {first second : List Item} {a b c : Collecting} (one : Staged lib p first a b)
    (two : Staged lib p second b c) : Staged lib p (first ++ second) a c where
  frame := by rw [two.frame,one.frame]
  kept r member := two.kept r (one.kept r member)
  drawn r member := by
    rcases two.drawn r member with before | ⟨item,inside,imprint⟩
    · rcases one.drawn r before with old | ⟨item,inside,imprint⟩
      · exact .inl old
      · exact .inr ⟨item,List.mem_append_left _ inside,imprint⟩
    · exact .inr ⟨item,List.mem_append_right _ inside,imprint⟩
  maximum := one.maximum.trans two.maximum

theorem Staged.more {items all : List Item} {st next : Collecting} (staged : Staged lib p items st next)
    (fewer : items ⊆ all) : Staged lib p all st next := by
  refine ⟨staged.frame,staged.kept,?_,staged.maximum⟩
  intro r member
  rcases staged.drawn r member with old | ⟨item,inside,imprint⟩
  · exact .inl old
  · exact .inr ⟨item,fewer inside,imprint⟩

theorem Staged.named {items : List Item} {st next : Collecting} (staged : Staged lib p items st next)
    (known : p.sourceId ∈ sourceIds) (ints : ∀ item ∈ items, integral item)
    (named : ∀ r ∈ st.queue.snapshotEvents.rows, r.Named lib) :
    ∀ r ∈ next.queue.snapshotEvents.rows, r.Named lib := by
  intro r member
  rcases staged.drawn r member with old | ⟨item,inside,imprint⟩
  · exact named r old
  · exact imprint.named known (ints item inside)

/-- Every item has its row. -/
def Present (lib : PollLibrary) (p : Poll) (items : List Item) (st : Collecting) : Prop :=
  ∀ item ∈ items, ∃ r ∈ st.queue.snapshotEvents.rows, Imprint lib p item r

theorem Present.kept {items others : List Item} {st next : Collecting} (present : Present lib p items st)
    (staged : Staged lib p others st next) : Present lib p items next := by
  intro item inside
  obtain ⟨r,member,imprint⟩ := present item inside
  exact ⟨r,staged.kept r member,imprint⟩

theorem stageObservation_staged {item : Item} {st : Collecting} {external version occurred maximum : String}
    {fresh : Bool} {queue : Queue}
    (identity : eventIdentity lib p.sourceId item = .ok (external,version,occurred)) (more : st.maximum ≤ maximum)
    (ok : st.queue.stageObservation p.snapshotId (lib.uuid5 (eventName p.sourceId external version)) p.sourceId
      external version occurred (.obj item) = .ok (fresh,queue)) :
    Staged lib p [item] st {st with maximum,queue} ∧
      (Function.Injective lib.uuid5 → p.sourceId ∈ sourceIds → integral item →
        (∀ r ∈ st.queue.snapshotEvents.rows, r.Named lib) → Present lib p [item] {st with maximum,queue}) := by
  obtain ⟨snapshot,_,_,rfl,rfl⟩ := Queue.stageObservation_effect ok
  let row : SnapshotEvent := ⟨p.snapshotId,lib.uuid5 (eventName p.sourceId external version),p.sourceId,external,
    version,occurred,.obj item⟩
  have own : Imprint lib p item row := ⟨rfl,rfl,rfl,occurred,identity⟩
  constructor
  · refine ⟨rfl,?_,?_,more⟩
    · intro r member
      exact Table.mem_insertOrIgnore.mpr (.inl member)
    · intro r member
      rcases Table.mem_insertOrIgnore.mp member with old | ⟨rfl,_⟩
      · exact .inl old
      · exact .inr ⟨item,List.mem_singleton_self _,own⟩
  · intro collisionFree known ints named other inside
    obtain rfl := List.mem_singleton.mp inside
    cases found : st.queue.snapshotEvents.get (Keyed.key row) with
    | none => exact ⟨row,Table.mem_insertOrIgnore.mpr (.inr ⟨rfl,found⟩),own⟩
    | some earlier =>
      obtain ⟨member,same⟩ := Table.get_eq_some.mp found
      refine ⟨earlier,Table.mem_insertOrIgnore.mpr (.inl member),?_⟩
      have snapshots : earlier.snapshotId = p.snapshotId := congrArg Prod.fst same
      have ids : earlier.eventId = row.eventId := congrArg Prod.snd same
      have equal := ((named earlier member).unique collisionFree (own.named known ints)).mp ids
      simp only [Prod.mk.injEq] at equal
      obtain ⟨sources,externals,versions⟩ := equal
      refine ⟨snapshots,sources,?_,occurred,?_⟩
      · rw [externals,versions,ids]
      · rw [externals,versions]
        exact identity

theorem stageItems_staged (items : List Item) (st : Collecting) :
    Staged lib p items st (stageItems lib p items st).1 ∧
      (Function.Injective lib.uuid5 → p.sourceId ∈ sourceIds → (∀ item ∈ items, integral item) →
        (∀ r ∈ st.queue.snapshotEvents.rows, r.Named lib) → (stageItems lib p items st).2 = none →
        Present lib p items (stageItems lib p items st).1) := by
  induction items generalizing st with
  | nil => exact ⟨.refl _ _,by simp [Present]⟩
  | cons item rest ih =>
    unfold stageItems
    split
    next e _ => exact ⟨.refl _ _,by simp⟩
    next external version occurred identity =>
      split
      next => exact ⟨.refl _ _,by simp⟩
      next =>
        have more : st.maximum ≤ if st.maximum < occurred then occurred else st.maximum := by
          split
          next less => exact less.le
          next => exact le_refl _
        dsimp only
        split
        next e _ => exact ⟨⟨rfl,fun _ member => member,fun _ member => .inl member,more⟩,by simp⟩
        next fresh queue ok =>
          obtain ⟨staged,present⟩ := stageObservation_staged identity more ok
          obtain ⟨later,others⟩ := ih {st with
            maximum := if st.maximum < occurred then occurred else st.maximum
            queue}
          refine ⟨staged.trans later,?_⟩
          intro collisionFree known ints named done other inside
          have here := ints item List.mem_cons_self
          have first : Present lib p [item] _ := (present collisionFree known here named).kept later
          have still := staged.named known (by simpa using here) named
          rcases List.mem_cons.mp inside with rfl | further
          · exact first other (List.mem_singleton_self _)
          · exact others collisionFree known (fun x member => ints x (List.mem_cons_of_mem _ member)) still done
              other further

theorem stageItems_pages (items : List Item) (st : Collecting) :
    (stageItems lib p items st).1.pages = st.pages := by
  induction items generalizing st with
  | nil => rfl
  | cons item rest ih =>
    unfold stageItems
    split
    next => rfl
    next =>
      split
      next => rfl
      next =>
        dsimp only
        split
        next => rfl
        next => exact ih _

/-- Every item the source can give has integers for its ids and numbers. -/
def integers (p : Poll) : Prop :=
  ∀ n query cursor etag page, p.source.fetchPage n query cursor etag = .ok page → ∀ item ∈ page.items, integral item

theorem pagesFrom_integral (ints : p.integers) {query : String} {etag : Option String} {fuel n : Nat}
    {cursor : Option String} : ∀ item ∈ (p.pagesFrom query etag fuel n cursor).flatMap Page.items, integral item := by
  induction fuel generalizing n cursor with
  | zero => simp [pagesFrom]
  | succ fuel ih =>
    intro item inside
    unfold pagesFrom at inside
    split at inside
    next => simp at inside
    next page fetched =>
      rw [List.flatMap_cons,List.mem_append] at inside
      rcases inside with here | later
      · exact ints _ _ _ _ page fetched item here
      · split at later
        next => simp at later
        next => exact ih item later

theorem collect_staged {query : String} {etag cursor : Option String} {fuel : Nat} {st next : Collecting}
    {fault : Option PollError} (done : collect lib p query etag fuel cursor st = some (next,fault)) :
    Staged lib p ((p.pagesFrom query etag fuel st.pages cursor).flatMap Page.items) st next ∧
      (Function.Injective lib.uuid5 → p.sourceId ∈ sourceIds → p.integers →
        (∀ r ∈ st.queue.snapshotEvents.rows, r.Named lib) → fault = none →
        Present lib p ((p.pagesFrom query etag fuel st.pages cursor).flatMap Page.items) next) := by
  induction fuel generalizing cursor st with
  | zero => simp [collect] at done
  | succ fuel ih =>
    unfold collect at done
    unfold pagesFrom
    split at done
    next e fetched =>
      cases done
      exact ⟨.refl _ _,by simp⟩
    next page fetched =>
      simp only [List.flatMap_cons]
      have round := @stageItems_staged lib p page.items {st with
        pages := st.pages + 1
        etag := orElse page.etag st.etag}
      have counted : (stageItems lib p page.items {st with
          pages := st.pages + 1
          etag := orElse page.etag st.etag}).1.pages = st.pages + 1 := stageItems_pages _ _
      split at done
      next after e staged =>
        cases done
        rw [staged] at round
        exact ⟨⟨round.1.frame,round.1.kept,(round.1.more (List.subset_append_left _ _)).drawn,round.1.maximum⟩,by simp⟩
      next after staged =>
        rw [staged] at round counted
        obtain ⟨⟨frame,kept,drawn,maximum⟩,present⟩ := round
        have first : Staged lib p page.items st after := ⟨frame,kept,drawn,maximum⟩
        split at done
        next last =>
          cases done
          simp only [List.flatMap_nil,List.append_nil]
          refine ⟨first,?_⟩
          intro collisionFree known ints named _
          exact present collisionFree known (ints _ _ _ _ page fetched) named rfl
        next cursor more =>
          change after.pages = st.pages + 1 at counted
          obtain ⟨later,others⟩ := ih done
          rw [counted] at later others
          refine ⟨first.trans later,?_⟩
          intro collisionFree known ints named fault item inside
          have here := ints _ _ _ _ page fetched
          rcases List.mem_append.mp inside with now | further
          · exact (present collisionFree known here named rfl).kept later item now
          · exact others collisionFree known ints (first.named known here named) fault item further

end Poll

/-! Publication. -/

def SnapshotEvent.identity (r : SnapshotEvent) : String × String × String := (r.sourceId,r.externalId,r.versionKey)

def ObservedEvent.identity (r : ObservedEvent) : String × String × String := (r.sourceId,r.externalId,r.versionKey)

def SnapshotEvent.observed (r : SnapshotEvent) : ObservedEvent :=
  ⟨r.eventId,r.sourceId,r.externalId,r.versionKey,r.occurredAt,r.payload,.pending⟩

/-- What publishing `events` makes of the observed events. -/
structure Published (events : List SnapshotEvent) (before after : Table ObservedEvent) : Prop where
  kept : ∀ r ∈ before.rows, r ∈ after.rows
  drawn : ∀ r ∈ after.rows, r ∈ before.rows ∨ ∃ e ∈ events, r = e.observed
  present : ∀ e ∈ events, ∃ r ∈ after.rows, r.identity = e.identity

theorem Published.named {lib : PollLibrary} {events : List SnapshotEvent} {before after : Table ObservedEvent}
    (published : Published events before after) (staged : ∀ e ∈ events, e.Named lib)
    (named : ∀ r ∈ before.rows, r.Named lib) : ∀ r ∈ after.rows, r.Named lib := by
  intro r member
  rcases published.drawn r member with old | ⟨e,inside,rfl⟩
  · exact named r old
  · exact staged e inside

theorem publish_published {lib : PollLibrary} (collisionFree : Function.Injective lib.uuid5)
    {observed : Table ObservedEvent} {event : SnapshotEvent} (named : ∀ r ∈ observed.rows, r.Named lib)
    (own : event.Named lib) : Published [event] observed (Queue.publish observed event) := by
  unfold Queue.publish
  split
  next absent =>
    have fresh : observed.get (Keyed.key event.observed) = none := by
      rw [Table.get_eq_none]
      intro r member same
      have equal := ((named r member).unique collisionFree own).mp same
      exact Table.count_eq_zero.mp absent r member equal
    refine ⟨?_,?_,?_⟩
    · intro r member
      exact Table.mem_insertOrIgnore.mpr (.inl member)
    · intro r member
      rcases Table.mem_insertOrIgnore.mp member with old | ⟨rfl,_⟩
      · exact .inl old
      · exact .inr ⟨event,List.mem_singleton_self _,rfl⟩
    · intro e inside
      obtain rfl := List.mem_singleton.mp inside
      exact ⟨e.observed,Table.mem_insertOrIgnore.mpr (.inr ⟨rfl,fresh⟩),rfl⟩
  next taken =>
    refine ⟨fun _ member => member,fun _ member => .inl member,?_⟩
    intro e inside
    obtain rfl := List.mem_singleton.mp inside
    by_contra missing
    apply taken
    rw [Table.count_eq_zero]
    intro r member same
    exact missing ⟨r,member,same⟩

theorem publishAll_published {lib : PollLibrary} (collisionFree : Function.Injective lib.uuid5)
    {events : List SnapshotEvent} {observed : Table ObservedEvent} (named : ∀ r ∈ observed.rows, r.Named lib)
    (staged : ∀ e ∈ events, e.Named lib) : Published events observed (events.foldl Queue.publish observed) := by
  induction events generalizing observed with
  | nil => exact ⟨fun _ member => member,fun _ member => .inl member,by simp⟩
  | cons event rest ih =>
    have first := publish_published collisionFree named (staged event List.mem_cons_self)
    have others : ∀ e ∈ rest, e.Named lib := fun e inside => staged e (List.mem_cons_of_mem _ inside)
    have later := ih (first.named (by simpa using staged event List.mem_cons_self) named) others
    refine ⟨?_,?_,?_⟩
    · intro r member
      exact later.kept r (first.kept r member)
    · intro r member
      rcases later.drawn r member with before | ⟨e,inside,equal⟩
      · rcases first.drawn r before with old | ⟨e,inside,equal⟩
        · exact .inl old
        · exact .inr ⟨e,List.mem_cons.mpr (.inl (List.mem_singleton.mp inside)),equal⟩
      · exact .inr ⟨e,List.mem_cons_of_mem _ inside,equal⟩
    · intro e inside
      rcases List.mem_cons.mp inside with rfl | further
      · obtain ⟨r,member,same⟩ := first.present e (List.mem_singleton_self _)
        exact ⟨r,later.kept r member,same⟩
      · exact later.present e further

theorem count_identity {lib : PollLibrary} (collisionFree : Function.Injective lib.uuid5)
    {observed : Table ObservedEvent} (named : ∀ r ∈ observed.rows, r.Named lib) {r : ObservedEvent}
    (member : r ∈ observed.rows) : observed.count (fun x => x.identity = r.identity) = 1 := by
  rw [← Table.count_key member]
  apply Table.count_congr
  intro x present
  exact ((named x present).unique collisionFree (named r member)).symm

namespace Queue
variable {db next : Queue} {snapshotId : String} {pages : Int} {n : Nat}
  {maximum watermark fingerprint etag error : Option String} {now : Instant}

structure Closes (db next : Queue) (snapshotId : String) (state : SnapshotState) : Prop where
  collecting : ∃ row, db.snapshots.get snapshotId = some row ∧ row.state = .collecting
  closed : ∃ row, next.snapshots.get snapshotId = some row ∧ row.state = state
  others : ∀ k ≠ snapshotId, next.snapshots.get k = db.snapshots.get k
  events : next.snapshotEvents = db.snapshotEvents

theorem closes_update {row : SourceSnapshot} {state : SnapshotState} {detail : Option String}
    (found : db.snapshots.get snapshotId = some row) (collecting : row.state = .collecting)
    (snapshots : next.snapshots = db.snapshots.update (fun r => r.snapshotId = snapshotId)
      (fun r => {r with
        state
        completedAt := some now.isoText
        pageCount := pages
        maximumEventTime := maximum
        errorDetail := detail}) (fun _ => rfl))
    (events : next.snapshotEvents = db.snapshotEvents) : Closes db next snapshotId state := by
  refine ⟨⟨row,found,collecting⟩,?_,?_,events⟩
  · have own : row.snapshotId = snapshotId := (Table.get_eq_some.mp found).2
    refine ⟨_,by rw [snapshots,Table.get_update,found,Option.map_some,if_pos own],rfl⟩
  · intro k other
    rw [snapshots,Table.get_update]
    cases present : db.snapshots.get k with
    | none => rfl
    | some r =>
      have own : r.snapshotId = k := (Table.get_eq_some.mp present).2
      rw [Option.map_some,if_neg (by rw [own]; exact other)]

theorem finishSnapshot_incomplete
    (ok : db.finishSnapshot snapshotId false pages maximum watermark fingerprint etag error now = .ok (n,next)) :
    Closes db next snapshotId .incomplete ∧ next.observed = db.observed ∧ next.checkpoints = db.checkpoints := by
  obtain ⟨row,found,collecting,_,rfl,⟨_,rfl⟩ | ⟨complete,_⟩⟩ := finishSnapshot_effect ok
  · exact ⟨closes_update found collecting rfl rfl,rfl,rfl⟩
  · cases complete

theorem finishSnapshot_complete {reached : String}
    (ok : db.finishSnapshot snapshotId true pages maximum (some reached) fingerprint etag error now = .ok (n,next)) :
    Closes db next snapshotId .complete ∧
      next.observed = (db.snapshotEvents.select (fun r => r.snapshotId = snapshotId)).foldl publish db.observed ∧
      ∃ row, db.snapshots.get snapshotId = some row ∧ ∀ k, next.checkpoints.get k =
        (db.checkpoints.get k).map (fun r => if r.sourceId = row.sourceId then
          {r with
            watermark := reached
            queryFingerprint := fingerprint
            etag
            lastCompleteSnapshotId := some snapshotId} else r) := by
  obtain ⟨row,found,collecting,_,rfl,⟨incomplete,_⟩ | ⟨_,_,reaches,_,rfl⟩⟩ := finishSnapshot_effect ok
  · cases incomplete
  · cases reaches
    refine ⟨closes_update found collecting rfl rfl,rfl,row,found,?_⟩
    intro k
    simp only [Table.get_update]

end Queue

namespace Poll
variable {lib : PollLibrary} {p : Poll} {db next : Queue} {result : PollResult}

/-- The call as far as the end of its loop. -/
structure Gathers (lib : PollLibrary) (p : Poll) (db : Queue) (st : Collecting) (fault : Option PollError) : Prop where
  known : p.sourceId ∈ sourceIds
  fresh : db.snapshots.get p.snapshotId = none
  snapshots : ∃ row, row.sourceId = p.sourceId ∧ row.snapshotId = p.snapshotId ∧
    db.snapshots.insert row = some st.queue.snapshots
  checkpoints : st.queue.checkpoints = (db.checkpoint p.sourceId p.initialWatermark).checkpoints
  observed : st.queue.observed = db.observed
  kept : ∀ r ∈ db.snapshotEvents.rows, r ∈ st.queue.snapshotEvents.rows
  drawn : ∀ r ∈ st.queue.snapshotEvents.rows, r ∈ db.snapshotEvents.rows ∨ ∃ item ∈ p.items lib db, Imprint lib p item r
  maximum : (p.checkpointRow db).watermark ≤ st.maximum
  present : Function.Injective lib.uuid5 → p.integers → (∀ r ∈ db.snapshotEvents.rows, r.Named lib) → fault = none →
    Present lib p (p.items lib db) st

theorem pollSource_ok (ok : pollSource lib p db = some ⟨.ok result,next⟩) :
    ∃ query begun st fault, overlapWatermark lib (p.checkpointRow db).watermark overlapSeconds = .ok query ∧
      collect lib p query (reusableEtag lib p (p.checkpointRow db) query) p.fuel none
        ⟨begun,0,(p.checkpointRow db).watermark,none⟩ = some (st,fault) ∧ Gathers lib p db st fault ∧
      ((∃ e, fault = some e ∧ result.complete = false ∧ abandon lib p (p.checkpointRow db).watermark st e = ⟨.ok result,next⟩) ∨
        fault = none ∧ result.complete = true ∧ conclude lib p st = ⟨.ok result,next⟩) := by
  unfold pollSource at ok
  split at ok
  next => simp at ok
  next known =>
    have known : p.sourceId ∈ sourceIds := by simpa using known
    dsimp only at ok
    split at ok
    next => simp at ok
    next query overlap =>
      split at ok
      next => simp at ok
      next id begun begin_ =>
        obtain ⟨snapshots,inserted,rfl,rfl⟩ := Queue.beginSnapshot_effect begin_
        have gathers {st : Collecting} {fault : Option PollError}
            (done : collect lib p query (reusableEtag lib p (p.checkpointRow db) query) p.fuel none
              ⟨{db.checkpoint p.sourceId p.initialWatermark with snapshots},0,(p.checkpointRow db).watermark,none⟩ =
                some (st,fault)) : Gathers lib p db st fault := by
          obtain ⟨staged,present⟩ := collect_staged done
          have same : p.items lib db = (p.pagesFrom query (reusableEtag lib p (p.checkpointRow db) query) p.fuel 0
              none).flatMap Page.items := by
            simp only [items,overlap]
          have frame := staged.frame
          refine ⟨known,Table.insert_fresh inserted,⟨⟨p.snapshotId,p.sourceId,.collecting,p.startedAt.isoText,none,0,
            none,none⟩,rfl,rfl,?_⟩,?_,?_,staged.kept,same ▸ staged.drawn,staged.maximum,?_⟩
          · rw [frame]
            exact inserted
          · rw [frame]
          · rw [frame]
            rfl
          · intro collisionFree ints named fault
            exact same ▸ present collisionFree known ints named fault
        split at ok
        next => contradiction
        next st e done =>
          refine ⟨query,_,st,some e,overlap,done,gathers done,.inl ⟨e,rfl,?_,Option.some.inj ok⟩⟩
          have equal := Option.some.inj ok
          unfold abandon at equal
          split at equal
          next => simp at equal
          next =>
            cases equal
            rfl
        next st done =>
          refine ⟨query,_,st,none,overlap,done,gathers done,.inr ⟨rfl,?_,Option.some.inj ok⟩⟩
          have equal := Option.some.inj ok
          unfold conclude at equal
          split at equal
          next => simp at equal
          next =>
            split at equal
            next => simp at equal
            next =>
              cases equal
              rfl

def Stems (db : Queue) (r : ObservedEvent) : Prop :=
  ∃ snapshot ∈ db.snapshots.rows, snapshot.state = .complete ∧ ∃ e ∈ db.snapshotEvents.rows,
    e.snapshotId = snapshot.snapshotId ∧ e.eventId = r.eventId ∧ e.identity = r.identity

structure Sound (lib : PollLibrary) (db : Queue) : Prop where
  staged : ∀ r ∈ db.snapshotEvents.rows, r.Named lib
  owned : ∀ r ∈ db.snapshotEvents.rows, db.snapshots.get r.snapshotId ≠ none
  named : ∀ r ∈ db.observed.rows, r.Named lib
  stems : ∀ r ∈ db.observed.rows, Stems db r

theorem Stems.kept {r : ObservedEvent} (stems : Stems db r)
    (events : ∀ e ∈ db.snapshotEvents.rows, e ∈ next.snapshotEvents.rows)
    (complete : ∀ k snapshot, db.snapshots.get k = some snapshot → snapshot.state = .complete →
      next.snapshots.get k = some snapshot) : Stems next r := by
  obtain ⟨snapshot,member,done,e,inside,same⟩ := stems
  have found := complete _ snapshot (Table.get_key member) done
  exact ⟨snapshot,(Table.get_eq_some.mp found).1,done,e,events e inside,same⟩

theorem items_integral (ints : p.integers) : ∀ item ∈ p.items lib db, integral item := by
  unfold items
  split
  next => simp
  next => exact pagesFrom_integral ints

section Gathered
variable {st : Collecting} {fault : Option PollError}

theorem Gathers.get_snapshots (gathers : Gathers lib p db st fault) {k : String} (old : db.snapshots.get k ≠ none) :
    st.queue.snapshots.get k = db.snapshots.get k := by
  obtain ⟨row,_,own,inserted⟩ := gathers.snapshots
  rw [Table.get_insert inserted,if_neg]
  intro same
  have equal : p.snapshotId = k := own.symm.trans same
  exact old (equal ▸ gathers.fresh)

theorem Gathers.sound (gathers : Gathers lib p db st fault) (sound : Sound lib db) (ints : p.integers) :
    Sound lib st.queue := by
  refine ⟨?_,?_,?_,?_⟩
  · intro r member
    rcases gathers.drawn r member with old | ⟨item,inside,imprint⟩
    · exact sound.staged r old
    · exact imprint.named gathers.known (items_integral ints item inside)
  · intro r member
    rcases gathers.drawn r member with old | ⟨item,inside,imprint⟩
    · rw [gathers.get_snapshots (sound.owned r old)]
      exact sound.owned r old
    · obtain ⟨row,_,own,inserted⟩ := gathers.snapshots
      have here : Keyed.key row = r.snapshotId := own.trans imprint.snapshot.symm
      rw [Table.get_insert inserted,if_pos here]
      simp
  · intro r member
    exact sound.named r (gathers.observed ▸ member)
  · intro r member
    refine (sound.stems r (gathers.observed ▸ member)).kept gathers.kept ?_
    intro k snapshot found _
    rw [gathers.get_snapshots (by simp [found]),found]

theorem Gathers.own (gathers : Gathers lib p db st fault) (sound : Sound lib db) {r : SnapshotEvent}
    (member : r ∈ st.queue.snapshotEvents.rows) (own : r.snapshotId = p.snapshotId) :
    ∃ item ∈ p.items lib db, Imprint lib p item r := by
  rcases gathers.drawn r member with old | drawn
  · have absent := sound.owned r old
    rw [own] at absent
    exact absurd gathers.fresh absent
  · exact drawn

end Gathered

theorem Sound.closes {state : SnapshotState} {snapshotId : String} (sound : Sound lib db)
    (closes : Queue.Closes db next snapshotId state) :
    (∀ r ∈ next.snapshotEvents.rows, r.Named lib) ∧
      (∀ r ∈ next.snapshotEvents.rows, next.snapshots.get r.snapshotId ≠ none) ∧
      ∀ r ∈ db.observed.rows, Stems next r := by
  obtain ⟨⟨row,found,collecting⟩,⟨after,closed,_⟩,others,events⟩ := closes
  refine ⟨?_,?_,?_⟩
  · intro r member
    exact sound.staged r (events ▸ member)
  · intro r member
    by_cases own : r.snapshotId = snapshotId
    · rw [own,closed]
      simp
    · rw [others _ own]
      exact sound.owned r (events ▸ member)
  · intro r member
    refine (sound.stems r member).kept (fun e inside => events ▸ inside) ?_
    intro k snapshot present done
    by_cases own : k = snapshotId
    · rw [own,found] at present
      cases present
      rw [collecting] at done
      contradiction
    · rw [others k own,present]

theorem get_checkpoint (s : String) :
    (db.checkpoint p.sourceId p.initialWatermark).checkpoints.get s = if p.sourceId = s then
      some ((db.checkpoints.get s).getD ⟨p.sourceId,p.initialWatermark,none,none,none⟩) else db.checkpoints.get s :=
  Table.get_insertOrIgnore _ _ _

theorem checkpoint_own :
    (db.checkpoint p.sourceId p.initialWatermark).checkpoints.get p.sourceId = some (p.checkpointRow db) := by
  rw [checkpointRow,get_checkpoint,if_pos rfl,Option.getD_some]

structure EventOf (lib : PollLibrary) (p : Poll) (item : Item) (r : ObservedEvent) : Prop where
  source : r.sourceId = p.sourceId
  id : r.eventId = lib.uuid5 (eventName p.sourceId r.externalId r.versionKey)
  identity : ∃ occurred, eventIdentity lib p.sourceId item = .ok (r.externalId,r.versionKey,occurred)

/-- What a call that returns an incomplete result leaves. -/
structure Withheld (p : Poll) (db next : Queue) : Prop where
  observed : next.observed = db.observed
  checkpoints : ∀ s, next.checkpoints.get s = if s = p.sourceId then
    some ((db.checkpoints.get s).getD ⟨p.sourceId,p.initialWatermark,none,none,none⟩) else db.checkpoints.get s

/-- What a call that returns a complete result leaves. -/
structure Released (lib : PollLibrary) (p : Poll) (db next : Queue) : Prop where
  present : ∀ item ∈ p.items lib db, ∃ external version occurred,
    eventIdentity lib p.sourceId item = .ok (external,version,occurred) ∧
      next.observed.count (fun r => r.identity = (p.sourceId,external,version)) = 1
  kept : ∀ r ∈ db.observed.rows, r ∈ next.observed.rows
  drawn : ∀ r ∈ next.observed.rows, r ∈ db.observed.rows ∨ ∃ item ∈ p.items lib db, EventOf lib p item r
  watermark : ∃ row ∈ next.checkpoints.get p.sourceId, (p.checkpointRow db).watermark ≤ row.watermark
  others : ∀ s ≠ p.sourceId, next.checkpoints.get s = db.checkpoints.get s

theorem withheld {st : Collecting} {e : PollError} {watermark : String}
    (gathers : Gathers lib p db st (some e)) (sound : Sound lib db) (ints : p.integers)
    (ok : abandon lib p watermark st e = ⟨.ok result,next⟩) : Sound lib next ∧ Withheld p db next := by
  unfold abandon at ok
  split at ok
  next => simp at ok
  next n after finished =>
    cases ok
    obtain ⟨closes,observed,checkpoints⟩ := Queue.finishSnapshot_incomplete finished
    have before := gathers.sound sound ints
    obtain ⟨staged,owned,stems⟩ := before.closes closes
    refine ⟨⟨staged,owned,?_,?_⟩,?_,?_⟩
    · intro r member
      exact before.named r (observed ▸ member)
    · intro r member
      exact stems r (observed ▸ member)
    · rw [observed,gathers.observed]
    · intro s
      rw [checkpoints,gathers.checkpoints,get_checkpoint]
      by_cases own : s = p.sourceId
      · rw [if_pos own.symm,if_pos own]
      · rw [if_neg (fun same => own same.symm),if_neg own]

theorem released {st : Collecting} (collisionFree : Function.Injective lib.uuid5)
    (gathers : Gathers lib p db st none) (sound : Sound lib db) (ints : p.integers)
    (ok : conclude lib p st = ⟨.ok result,next⟩) : Sound lib next ∧ Released lib p db next := by
  unfold conclude at ok
  split at ok
  next => simp at ok
  next =>
    split at ok
    next => simp at ok
    next n after finished =>
      cases ok
      obtain ⟨closes,observed,row,found,checkpoints⟩ := Queue.finishSnapshot_complete finished
      have before := gathers.sound sound ints
      obtain ⟨staged,owned,stems⟩ := before.closes closes
      have selected : ∀ e ∈ st.queue.snapshotEvents.select (fun r => r.snapshotId = p.snapshotId), e.Named lib := by
        intro e inside
        exact before.staged e (Table.mem_select.mp inside).1
      have published := publishAll_published collisionFree before.named selected
      rw [← observed] at published
      have named := published.named selected before.named
      have source : row.sourceId = p.sourceId := by
        obtain ⟨fresh,own,id,inserted⟩ := gathers.snapshots
        have here : Keyed.key fresh = p.snapshotId := id
        rw [Table.get_insert inserted,if_pos here] at found
        cases found
        exact own
      refine ⟨⟨staged,owned,named,?_⟩,?_,?_,?_,?_,?_⟩
      · intro r member
        rcases published.drawn r member with old | ⟨e,inside,rfl⟩
        · exact stems r old
        · obtain ⟨present,own⟩ := Table.mem_select.mp inside
          obtain ⟨closed,there,done⟩ := closes.closed
          obtain ⟨listed,id⟩ := Table.get_eq_some.mp there
          exact ⟨closed,listed,done,e,closes.events ▸ present,own.trans id.symm,rfl,rfl⟩
      · intro item inside
        obtain ⟨e,present,imprint⟩ := gathers.present collisionFree ints sound.staged rfl item inside
        obtain ⟨r,member,same⟩ := published.present e (Table.mem_select.mpr ⟨present,imprint.snapshot⟩)
        obtain ⟨occurred,identity⟩ := imprint.identity
        refine ⟨e.externalId,e.versionKey,occurred,identity,?_⟩
        have once := count_identity collisionFree named member
        rw [same,SnapshotEvent.identity,imprint.source] at once
        exact once
      · intro r member
        exact published.kept r (gathers.observed ▸ member)
      · intro r member
        rcases published.drawn r member with old | ⟨e,inside,rfl⟩
        · exact .inl (gathers.observed ▸ old)
        · obtain ⟨present,own⟩ := Table.mem_select.mp inside
          obtain ⟨item,listed,imprint⟩ := gathers.own sound present own
          exact .inr ⟨item,listed,imprint.source,imprint.id,imprint.identity⟩
      · have own : (p.checkpointRow db).sourceId = p.sourceId := (Table.get_eq_some.mp checkpoint_own).2
        refine ⟨_,by rw [checkpoints,gathers.checkpoints,checkpoint_own,Option.map_some,if_pos (own.trans source.symm)]; rfl,?_⟩
        exact gathers.maximum
      · intro s other
        rw [checkpoints,gathers.checkpoints,get_checkpoint,if_neg (fun same => other same.symm)]
        cases there : db.checkpoints.get s with
        | none => rfl
        | some r =>
          have name : r.sourceId = s := (Table.get_eq_some.mp there).2
          rw [Option.map_some,if_neg (by rw [name,source]; exact other)]

def step (lib : PollLibrary) (db : Queue) (p : Poll) : Queue := ((pollSource lib p db).map Outcome.state).getD db

def Returns (lib : PollLibrary) (db : Queue) (p : Poll) (result : PollResult) : Prop :=
  ∃ next, pollSource lib p db = some ⟨.ok result,next⟩

theorem returns_step (returns : Returns lib db p result) : pollSource lib p db = some ⟨.ok result,step lib db p⟩ := by
  obtain ⟨next,ok⟩ := returns
  rw [step,ok]
  rfl

/-- One call that returns keeps the tables sound and publishes all or nothing. -/
theorem poll_step (collisionFree : Function.Injective lib.uuid5) (ints : p.integers) (sound : Sound lib db)
    (returns : Returns lib db p result) :
    Sound lib (step lib db p) ∧ (result.complete = false → Withheld p db (step lib db p)) ∧
      (result.complete = true → Released lib p db (step lib db p)) := by
  obtain ⟨_,_,st,fault,_,_,gathers,⟨e,rfl,partly,left⟩ | ⟨rfl,whole,left⟩⟩ := pollSource_ok (returns_step returns)
  · obtain ⟨after,kept⟩ := withheld gathers sound ints left
    exact ⟨after,fun _ => kept,by simp [partly]⟩
  · obtain ⟨after,kept⟩ := released collisionFree gathers sound ints left
    exact ⟨after,by simp [whole],fun _ => kept⟩

theorem sound_empty : Sound lib Queue.empty := by
  refine ⟨?_,?_,?_,?_⟩ <;>
    · intro r member
      cases member

/-- Over every sequence of calls that return: an incomplete poll withholds everything, a complete one
releases each of its items once and nothing else, and what is observed comes from complete snapshots. -/
theorem publication_all_or_nothing (lib : PollLibrary) (collisionFree : Function.Injective lib.uuid5)
    (polls : List Poll) (ints : ∀ p ∈ polls, p.integers)
    (returns : Along (step lib) (fun db p => ∃ result, Returns lib db p result) Queue.empty polls) :
    (∀ t ∈ trace (step lib) Queue.empty polls, ∀ result, Returns lib t.before t.action result →
      (result.complete = false → Withheld t.action t.before t.after) ∧
        (result.complete = true → Released lib t.action t.before t.after)) ∧
      ∀ r ∈ (run (step lib) Queue.empty polls).observed.rows, Stems (run (step lib) Queue.empty polls) r := by
  let allowed (db : Queue) (p : Poll) : Prop := p.integers ∧ ∃ result, Returns lib db p result
  have along : Along (step lib) allowed Queue.empty polls := by
    intro t member
    exact ⟨along_of_forall (step lib) ints t member,returns t member⟩
  have preserved : ∀ db p, Sound lib db → allowed db p → Sound lib (step lib db p) := by
    rintro db p sound ⟨ints,result,returns⟩
    exact (poll_step collisionFree ints sound returns).1
  constructor
  · intro t member result returned
    have sound := invariant_before_along (step lib) preserved sound_empty along member
    rw [trace_step (step lib) member]
    exact (poll_step collisionFree (along t member).1 sound returned).2
  · exact (invariant_along (step lib) preserved sound_empty along).stems

/-! One issue that is read whole, then a source that fails on its first page. -/

theorem midnight_bounded : 63902822400 * 1000000 < 315537897600 * 1000000 := by decide

theorem oneOClock_bounded : 63902826000 * 1000000 < 315537897600 * 1000000 := by decide

/-- The first hour of 2026, as far as two polls need it. -/
def newYear : PollLibrary where
  render _ := "..."
  repr text := "'" ++ text ++ "'"
  fromisoformat text :=
    if text = "2026-01-01T00:00:00+00:00" then some ⟨⟨63902822400 * 1000000,midnight_bounded⟩,some 0⟩
    else if text = "2026-01-01T01:00:00+00:00" then some ⟨⟨63902826000 * 1000000,oneOClock_bounded⟩,some 0⟩
    else none
  sha256 text :=
    if text = "org-issues\x002025-12-31T23:55:00Z" then
      "fe6e169bfea7da32b807bd4c9f459483018f1a0194a1f0a9715f97afc676c075"
    else if text = "org-issues\x002026-01-01T00:55:00Z" then
      "10564e5b7f3887c87adb515f48bf3355351dfc8cb260652daac785bbdb972cf5"
    else "21977b4f1677bce379d209c510c6d5a101c9b4f64af47c9cf0651fbaa00bc1b7"
  uuid5 name :=
    if name = "org-issues:1:1:2026-01-01T01:00:00Z" then "2c1f7e67-28f7-5d8f-ab06-87db82569b64" else "?" ++ name
  database _ := ⟨"IntegrityError","UNIQUE constraint failed: source_snapshot.snapshot_id"⟩

def issuePoll : Poll where
  sourceId := "org-issues"
  source := ⟨fun _ _ _ _ => .ok ⟨[[("number",.int 1),("updated_at",.str "2026-01-01T01:00:00Z")]],none,none⟩⟩
  initialWatermark := "2026-01-01T00:00:00Z"
  snapshotId := "snapshot-1"
  startedAt := ⟨63902826000 * 1000000,oneOClock_bounded⟩
  finishedAt := ⟨63902826000 * 1000000,oneOClock_bounded⟩
  fuel := 1

def commentPoll : Poll := {issuePoll with
  sourceId := "org-comments"
  source := ⟨fun _ _ _ _ => .error ⟨"SourceError","GitHub source request failed"⟩⟩
  snapshotId := "snapshot-2"}

theorem newYear_collisionFree : Function.Injective newYear.uuid5 := by
  intro a b same
  change (if a = "org-issues:1:1:2026-01-01T01:00:00Z" then "2c1f7e67-28f7-5d8f-ab06-87db82569b64" else "?" ++ a) =
    (if b = "org-issues:1:1:2026-01-01T01:00:00Z" then "2c1f7e67-28f7-5d8f-ab06-87db82569b64" else "?" ++ b) at same
  have first (text : String) : "2c1f7e67-28f7-5d8f-ab06-87db82569b64" ≠ "?" ++ text := by
    intro equal
    have heads := congrArg (fun s => s.toList.head?) equal
    rw [String.toList_append,show ("?".toList ++ text.toList).head? = some '?' from rfl] at heads
    exact absurd heads (by decide)
  split at same
  next one =>
    split at same
    next two => exact one.trans two.symm
    next => exact absurd same (first b)
  next =>
    split at same
    next => exact absurd same.symm (first a)
    next =>
      have lists := congrArg String.toList same
      rw [String.toList_append,String.toList_append] at lists
      exact String.toList_inj.mp (List.append_cancel_left lists)

theorem returns_of_some {complete : Bool}
    (returned : ((pollSource lib p db).bind (fun o => o.result.toOption)).map PollResult.complete = some complete) :
    ∃ result, Returns lib db p result ∧ result.complete = complete := by
  obtain ⟨result,found,same⟩ := Option.map_eq_some_iff.mp returned
  obtain ⟨outcome,polled,returned⟩ := Option.bind_eq_some_iff.mp found
  refine ⟨result,⟨outcome.state,?_⟩,same⟩
  rw [polled]
  obtain ⟨answer,state⟩ := outcome
  cases answer with
  | error e => contradiction
  | ok value =>
    cases returned
    rfl

theorem publication_all_or_nothing_newYear :
    Released newYear issuePoll Queue.empty (step newYear Queue.empty issuePoll) ∧
      Withheld commentPoll (step newYear Queue.empty issuePoll)
        (step newYear (step newYear Queue.empty issuePoll) commentPoll) ∧
      ∃ r, (run (step newYear) Queue.empty [issuePoll,commentPoll]).observed.rows = [r] ∧
        Stems (run (step newYear) Queue.empty [issuePoll,commentPoll]) r := by
  have ints : ∀ p ∈ [issuePoll,commentPoll], p.integers := by
    intro p listed n query cursor etag page fetched item inside
    rcases List.mem_cons.mp listed with rfl | second
    · cases fetched
      obtain rfl := List.mem_singleton.mp inside
      intro name named has
      simp only [List.mem_cons,List.not_mem_nil,or_false] at named
      rcases named with rfl | rfl
      · exact absurd has (by decide)
      · exact ⟨1,rfl⟩
    · obtain rfl := List.mem_singleton.mp second
      cases fetched
  obtain ⟨one,first,whole⟩ : ∃ result, Returns newYear Queue.empty issuePoll result ∧ result.complete = true :=
    returns_of_some (by decide)
  obtain ⟨two,second,partly⟩ : ∃ result, Returns newYear (step newYear Queue.empty issuePoll) commentPoll result ∧
      result.complete = false := returns_of_some (by decide)
  have returns : Along (step newYear) (fun db p => ∃ result, Returns newYear db p result) Queue.empty
      [issuePoll,commentPoll] := by
    refine (along_cons _).mpr ⟨⟨one,first⟩,(along_cons _).mpr ⟨⟨two,second⟩,?_⟩⟩
    intro t member
    cases member
  obtain ⟨each,stems⟩ := publication_all_or_nothing newYear newYear_collisionFree _ ints returns
  have released := (each _ List.mem_cons_self one first).2 whole
  have withheld := (each _ (List.mem_cons_of_mem _ List.mem_cons_self) two second).1 partly
  have single : (run (step newYear) Queue.empty [issuePoll,commentPoll]).observed.rows.length = 1 := by decide
  obtain ⟨r,rows⟩ := List.length_eq_one_iff.mp single
  exact ⟨released,withheld,r,rows,stems r (by rw [rows]; exact List.mem_singleton_self r)⟩

end Poll
end SjgControl

import SjgControl.Publication

/-! `poll_source` on whatever a source gives: items that are no objects, texts that have no UTF-8
form; and the loop of a tick over its sources. -/
namespace SjgControl
open Relational Machine

/-- What `str.encode` raises on a text, if anything: SQLite takes no text that has no UTF-8 form. -/
structure PollHost extends PollLibrary where
  unencodable : String → Option PollError

structure JsonPage where
  items : List Json
  nextCursor : Option String
  etag : Option String

structure JsonSource where
  fetchPage : Nat → String → Option String → Option String → Except PollError JsonPage

/-- One call of `poll_source`, over pages of any JSON values. -/
structure JsonPoll where
  sourceId : String
  source : JsonSource
  initialWatermark : String
  snapshotId : String
  startedAt : Instant
  finishedAt : Instant
  fuel : Nat

def Json.typeName : Json → String
  | .null => "NoneType"
  | .bool _ => "bool"
  | .int _ => "int"
  | .float _ => "float"
  | .str _ => "str"
  | .arr _ => "list"
  | .obj _ => "dict"

def jsonIdentity (lib : PollLibrary) (sourceId : String) : Json → Except PollError (String × String × String)
  | .obj item => eventIdentity lib sourceId item
  | other => .error ⟨"AttributeError","'" ++ other.typeName ++ "' object has no attribute 'get'"⟩

namespace JsonPoll
variable (host : PollHost) (p : JsonPoll)

def latest (maximum occurred : String) : String := if maximum < occurred then occurred else maximum

/-- `stage_observation`: the event's id is taken of its name, which has every text of the row in it. -/
def stage (db : Queue) (external version occurred : String) (item : Json) : Except PollError Queue :=
  match db.stageObservation p.snapshotId (host.uuid5 (eventName p.sourceId external version))
      p.sourceId external version occurred item with
  | .error e => .error (e.pollError host.toPollLibrary)
  | .ok (_,queue) =>
    match host.unencodable (eventName p.sourceId external version) with
    | some e => .error e
    | none => .ok queue

/-- `f"{source_id} event has no occurrence timestamp"`. -/
def untimed : PollError := ⟨"ValueError",p.sourceId ++ " event has no occurrence timestamp"⟩

/-- The items of a page, up to the first that raises. -/
def stageItems : List Json → Collecting → Collecting × Option PollError
  | [],st => (st,none)
  | item::rest,st =>
    match jsonIdentity host.toPollLibrary p.sourceId item with
    | .error e => (st,some e)
    | .ok (external,version,occurred) =>
      if occurred = "" then (st,some p.untimed)
      else
        match stage host p st.queue external version occurred item with
        | .error e => ({st with maximum := latest st.maximum occurred},some e)
        | .ok queue => stageItems rest {st with queue,maximum := latest st.maximum occurred}

def collect (query : String) (etag : Option String) :
    Nat → Option String → Collecting → Option (Collecting × Option PollError)
  | 0,_,_ => none
  | fuel + 1,cursor,st =>
    match p.source.fetchPage st.pages query cursor (if st.pages = 0 then etag else none) with
    | .error e => some (st,some e)
    | .ok page =>
      match stageItems host p page.items {st with
          pages := st.pages + 1
          etag := Poll.orElse page.etag st.etag} with
      | (st,some e) => some (st,some e)
      | (st,none) =>
        match page.nextCursor with
        | none => some (st,none)
        | some cursor => collect query etag fuel (some cursor) st

def checkpointRow (db : Queue) : SourceCheckpoint :=
  ((db.checkpoint p.sourceId p.initialWatermark).checkpoints.get p.sourceId).getD
    ⟨p.sourceId,p.initialWatermark,none,none,none⟩

def reusableEtag (row : SourceCheckpoint) (query : String) : Option String :=
  if row.queryFingerprint = some (queryFingerprint host.toPollLibrary p.sourceId query) ∧
      row.lastCompleteSnapshotId.getD "" ≠ "" then row.etag
  else none

/-- `finish_snapshot` with the texts that it binds; whatever raises rolls back. -/
def finish (db : Queue) (complete : Bool) (pages : Nat) (maximum : String) (next query etag error : Option String) :
    Except PollError (Nat × Queue) :=
  match db.finishSnapshot p.snapshotId complete pages (some maximum) next query etag error p.finishedAt with
  | .error e => .error (e.pollError host.toPollLibrary)
  | .ok published =>
    match ([some maximum,etag,error].filterMap id).findSome? host.unencodable with
    | some e => .error e
    | none => .ok published

def abandon (watermark : String) (st : Collecting) (e : PollError) : Outcome Queue PollError PollResult :=
  match finish host p st.queue false st.pages st.maximum none none none (some (e.kind ++ ": " ++ e.text)) with
  | .error raised => ⟨.error raised,st.queue⟩
  | .ok (_,next) => ⟨.ok ⟨p.sourceId,false,st.pages,0,watermark,some e.text⟩,next⟩

def conclude (st : Collecting) : Outcome Queue PollError PollResult :=
  match overlapWatermark host.toPollLibrary st.maximum overlapSeconds with
  | .error e => ⟨.error e,st.queue⟩
  | .ok query =>
    match finish host p st.queue true st.pages st.maximum (some st.maximum)
        (some (queryFingerprint host.toPollLibrary p.sourceId query)) st.etag none with
    | .error e => ⟨.error e,st.queue⟩
    | .ok (published,next) => ⟨.ok ⟨p.sourceId,true,st.pages,published,st.maximum,none⟩,next⟩

/-- The call from its first statement to its return; `none` while it is still reading pages. -/
def pollSource (db : Queue) : Option (Outcome Queue PollError PollResult) :=
  if p.sourceId ∉ sourceIds then some ⟨.error ⟨"ValueError","unknown source id: " ++ p.sourceId⟩,db⟩
  else
    let started := db.checkpoint p.sourceId p.initialWatermark
    let row := p.checkpointRow db
    match overlapWatermark host.toPollLibrary row.watermark overlapSeconds with
    | .error e => some ⟨.error e,started⟩
    | .ok query =>
      match started.beginSnapshot p.snapshotId p.sourceId p.startedAt with
      | .error e => some ⟨.error (e.pollError host.toPollLibrary),started⟩
      | .ok (_,begun) =>
        match collect host p query (reusableEtag host p row query) p.fuel none ⟨begun,0,row.watermark,none⟩ with
        | none => none
        | some (st,some e) => some (abandon host p row.watermark st e)
        | some (st,none) => some (conclude host p st)

/-- The polls of a tick, one source after another; what one raises ends the tick. -/
def pollSources : List JsonPoll → Queue → Option (Outcome Queue PollError (List PollResult))
  | [],db => some ⟨.ok [],db⟩
  | p::rest,db =>
    match pollSource host p db with
    | none => none
    | some ⟨.error e,db⟩ => some ⟨.error e,db⟩
    | some ⟨.ok result,db⟩ =>
      (pollSources rest db).map (fun tick => ⟨tick.result.map (fun results => result::results),tick.state⟩)

/-- What there is in a source to be read: the times of its events up to the first fault, that
fault, and the last etag. -/
structure Reading where
  times : List String
  fault : Option PollError
  etag : Option String
  deriving DecidableEq

/-- The times of a page's events. One that has no UTF-8 form is read before it is refused. -/
def readItems : List Json → List String × Option PollError
  | [] => ([],none)
  | item::rest =>
    match jsonIdentity host.toPollLibrary p.sourceId item with
    | .error e => ([],some e)
    | .ok (external,version,occurred) =>
      if occurred = "" then ([],some p.untimed)
      else
        match host.unencodable (eventName p.sourceId external version) with
        | some e => ([occurred],some e)
        | none => (occurred::(readItems rest).1,(readItems rest).2)

def readPages (query : String) (etag : Option String) : Nat → Nat → Option String → Option String → Option Reading
  | 0,_,_,_ => none
  | fuel + 1,n,cursor,last =>
    match p.source.fetchPage n query cursor (if n = 0 then etag else none) with
    | .error e => some ⟨[],some e,last⟩
    | .ok page =>
      match readItems host p page.items,page.nextCursor with
      | (times,some e),_ => some ⟨times,some e,Poll.orElse page.etag last⟩
      | (times,none),none => some ⟨times,none,Poll.orElse page.etag last⟩
      | (times,none),some cursor =>
        (readPages query etag fuel (n + 1) (some cursor) (Poll.orElse page.etag last)).map
          (fun r => {r with times := times ++ r.times})

def reading (db : Queue) : Option Reading :=
  match overlapWatermark host.toPollLibrary (p.checkpointRow db).watermark overlapSeconds with
  | .error _ => none
  | .ok query => readPages host p query (reusableEtag host p (p.checkpointRow db) query) p.fuel 0 none none

def Overlaps (lib : PollLibrary) (text : String) : Prop := ∃ query, overlapWatermark lib text overlapSeconds = .ok query

/-- What a poll that returns finds: the overlap of its checkpoint can be computed; a source without
a fault leads to a latest time of which that holds as well; and what is to be bound has a UTF-8
form. -/
def Sound (db : Queue) (p : JsonPoll) : Prop :=
  Overlaps host.toPollLibrary (p.checkpointRow db).watermark ∧ ∀ r ∈ reading host p db,
    let maximum := r.times.foldl latest (p.checkpointRow db).watermark
    host.unencodable maximum = none ∧
      match r.fault with
      | none => Overlaps host.toPollLibrary maximum ∧ ∀ etag ∈ r.etag, host.unencodable etag = none
      | some e => host.unencodable (e.kind ++ ": " ++ e.text) = none

/-- A poll of a known source under an identifier of its own, whose pages come to an end. -/
structure Proper (db : Queue) (p : JsonPoll) : Prop where
  known : p.sourceId ∈ sourceIds
  fresh : db.snapshots.get p.snapshotId = none
  ends : Overlaps host.toPollLibrary (p.checkpointRow db).watermark → (reading host p db).isSome

def step (db : Queue) (p : JsonPoll) : Queue := ((pollSource host p db).map Outcome.state).getD db

/-- The poll returns a result, and the snapshot that it began is complete or incomplete. -/
def Contained (db : Queue) (p : JsonPoll) : Prop :=
  ∃ result next, pollSource host p db = some ⟨.ok result,next⟩ ∧
    ∃ row ∈ next.snapshots.get p.snapshotId, row.state = .complete ∨ row.state = .incomplete

def Open (p : JsonPoll) (db : Queue) : Prop :=
  (∃ row, db.snapshots.get p.snapshotId = some row ∧ row.state = .collecting ∧ row.sourceId = p.sourceId) ∧
    ∃ row, db.checkpoints.get p.sourceId = some row

/-- What reading does to what the loop carries. -/
structure Reads (p : JsonPoll) (times : List String) (st next : Collecting) : Prop where
  maximum : next.maximum = times.foldl latest st.maximum
  still : Open p st.queue → Open p next.queue

variable {host p}

theorem Reads.refl (st : Collecting) : Reads p [] st st := ⟨rfl,id⟩

theorem Reads.trans {first second : List String} {a b c : Collecting} (one : Reads p first a b) (two : Reads p second b c) :
    Reads p (first ++ second) a c :=
  ⟨by rw [two.maximum,one.maximum,List.foldl_append],fun opened => two.still (one.still opened)⟩

theorem stage_open {db : Queue} (opened : Open p db) (external version occurred : String) (item : Json) :
    (∃ e, host.unencodable (eventName p.sourceId external version) = some e ∧
      stage host p db external version occurred item = .error e) ∨
    host.unencodable (eventName p.sourceId external version) = none ∧
      ∃ queue, stage host p db external version occurred item = .ok queue ∧ Open p queue := by
  obtain ⟨⟨row,found,collecting,source⟩,checkpoint⟩ := opened
  let staged : SnapshotEvent := ⟨p.snapshotId,host.uuid5 (eventName p.sourceId external version),p.sourceId,external,
    version,occurred,item⟩
  have ok : ∃ fresh, db.stageObservation p.snapshotId (host.uuid5 (eventName p.sourceId external version)) p.sourceId
      external version occurred item =
        .ok (fresh,{db with snapshotEvents := db.snapshotEvents.insertOrIgnore staged}) := by
    refine ⟨(db.snapshotEvents.get (Keyed.key staged)).isNone,?_⟩
    simp only [Queue.stageObservation,fetch_bind_ok,require_bind_ok]
    exact ⟨row,by simp [found,collecting],source,rfl⟩
  obtain ⟨fresh,ok⟩ := ok
  unfold stage
  rw [ok]
  dsimp only
  cases host.unencodable (eventName p.sourceId external version) with
  | some e => exact .inl ⟨e,rfl,rfl⟩
  | none => exact .inr ⟨rfl,_,rfl,⟨row,found,collecting,source⟩,checkpoint⟩

theorem stageItems_reads (items : List Json) {st : Collecting} (opened : Open p st.queue) :
    ∃ next, stageItems host p items st = (next,(readItems host p items).2) ∧
      Reads p (readItems host p items).1 st next ∧ next.pages = st.pages ∧ next.etag = st.etag := by
  induction items generalizing st with
  | nil => exact ⟨st,rfl,Reads.refl st,rfl,rfl⟩
  | cons item rest ih =>
    unfold stageItems readItems
    cases identity : jsonIdentity host.toPollLibrary p.sourceId item with
    | error e => exact ⟨st,rfl,Reads.refl st,rfl,rfl⟩
    | ok parts =>
      obtain ⟨external,version,occurred⟩ := parts
      dsimp only
      by_cases empty : occurred = ""
      · rw [if_pos empty,if_pos empty]
        exact ⟨st,rfl,Reads.refl st,rfl,rfl⟩
      rw [if_neg empty,if_neg empty]
      rcases @stage_open host p st.queue opened external version occurred item with
        ⟨e,refused,raised⟩ | ⟨encodes,queue,staged,still⟩
      · rw [refused,raised]
        exact ⟨{st with maximum := latest st.maximum occurred},rfl,⟨rfl,id⟩,rfl,rfl⟩
      · rw [encodes,staged]
        obtain ⟨next,rested,reads,pages,etag⟩ := @ih {st with queue,maximum := latest st.maximum occurred} still
        refine ⟨next,rested,?_,pages,etag⟩
        exact ⟨reads.maximum,fun _ => reads.still still⟩

theorem collect_reads {query : String} {etag : Option String} (fuel : Nat) (cursor : Option String) {st : Collecting}
    (opened : Open p st.queue) :
    match readPages host p query etag fuel st.pages cursor st.etag with
    | none => collect host p query etag fuel cursor st = none
    | some r => ∃ next, collect host p query etag fuel cursor st = some (next,r.fault) ∧ Reads p r.times st next ∧
        next.etag = r.etag := by
  induction fuel generalizing cursor st with
  | zero => rfl
  | succ fuel ih =>
    unfold readPages collect
    cases p.source.fetchPage st.pages query cursor (if st.pages = 0 then etag else none) with
    | error e => exact ⟨st,rfl,Reads.refl st,rfl⟩
    | ok page =>
      dsimp only
      obtain ⟨next,staged,reads,pages,same⟩ := @stageItems_reads host p page.items
        {st with pages := st.pages + 1,etag := Poll.orElse page.etag st.etag} opened
      rw [staged]
      have begun : Reads p (readItems host p page.items).1 st next := ⟨reads.maximum,fun _ => reads.still opened⟩
      generalize readItems host p page.items = read at begun ⊢
      obtain ⟨times,_ | e⟩ := read
      · cases page.nextCursor with
        | none => exact ⟨next,rfl,begun,same⟩
        | some cursor =>
          dsimp only at begun pages same ⊢
          have later := @ih (some cursor) next (begun.still opened)
          rw [pages,same] at later
          cases rest : readPages host p query etag fuel (st.pages + 1) (some cursor) (Poll.orElse page.etag st.etag) with
          | none =>
            rw [rest] at later
            exact later
          | some r =>
            rw [rest] at later
            obtain ⟨last,collected,reads,etag⟩ := later
            exact ⟨last,collected,begun.trans reads,etag⟩
      · exact ⟨next,rfl,begun,same⟩

theorem finish_binds {db : Queue} {complete : Bool} {pages : Nat} {maximum : String} {next query etag error : Option String}
    {published : Nat × Queue}
    (ok : db.finishSnapshot p.snapshotId complete pages (some maximum) next query etag error p.finishedAt = .ok published) :
    (finish host p db complete pages maximum next query etag error = .ok published ∧
      host.unencodable maximum = none ∧ ∀ text, etag = some text ∨ error = some text → host.unencodable text = none) ∨
    (∃ e, finish host p db complete pages maximum next query etag error = .error e) ∧
      ¬ (host.unencodable maximum = none ∧ ∀ text, etag = some text ∨ error = some text → host.unencodable text = none) := by
  unfold finish
  rw [ok]
  dsimp only
  have bound : ([some maximum,etag,error].filterMap id).findSome? host.unencodable = none ↔
      host.unencodable maximum = none ∧ ∀ text, etag = some text ∨ error = some text → host.unencodable text = none := by
    rw [List.findSome?_eq_none_iff]
    constructor
    · intro every
      refine ⟨every maximum (by simp),?_⟩
      rintro text (rfl | rfl)
      · exact every text (by simp)
      · exact every text (by simp)
    · rintro ⟨first,rest⟩ text member
      simp only [List.mem_filterMap,List.mem_cons,List.not_mem_nil,or_false,id] at member
      obtain ⟨_,rfl | same | same,equal⟩ := member
      · rwa [← Option.some.inj equal]
      · exact rest text (.inl (same.symm.trans equal))
      · exact rest text (.inr (same.symm.trans equal))
  rw [← bound]
  cases ([some maximum,etag,error].filterMap id).findSome? host.unencodable with
  | none => exact .inl ⟨rfl,rfl⟩
  | some e => exact .inr ⟨⟨e,rfl⟩,by rintro ⟨⟩⟩

def Closed (p : JsonPoll) (answer : Outcome Queue PollError PollResult) : Prop :=
  ∃ result next, answer = ⟨.ok result,next⟩ ∧
    ∃ row ∈ next.snapshots.get p.snapshotId, row.state = .complete ∨ row.state = .incomplete

theorem abandon_closed {st : Collecting} (opened : Open p st.queue) (watermark : String) (e : PollError) :
    Closed p (abandon host p watermark st e) ↔
      host.unencodable st.maximum = none ∧ host.unencodable (e.kind ++ ": " ++ e.text) = none := by
  obtain ⟨⟨row,found,collecting,_⟩,_⟩ := opened
  have ok : ∃ next, st.queue.finishSnapshot p.snapshotId false st.pages (some st.maximum) none none none
      (some (e.kind ++ ": " ++ e.text)) p.finishedAt = .ok (0,next) := by
    unfold Queue.finishSnapshot
    exact ⟨_,fetch_bind_ok.mpr ⟨row,found,require_bind_ok.mpr ⟨collecting,rfl⟩⟩⟩
  obtain ⟨next,ok⟩ := ok
  have closes := (Queue.finishSnapshot_incomplete ok).1
  unfold abandon
  rcases @finish_binds host p _ _ _ _ _ _ _ _ _ ok with ⟨finished,encodes,texts⟩ | ⟨⟨raised,failed⟩,never⟩
  · rw [finished]
    refine iff_of_true ⟨_,next,rfl,?_⟩ ⟨encodes,texts _ (.inr rfl)⟩
    obtain ⟨closed,held,state⟩ := closes.closed
    exact ⟨closed,held,.inr state⟩
  · rw [failed]
    refine iff_of_false ?_ ?_
    · rintro ⟨_,_,same,_⟩
      cases congrArg Outcome.result same
    · rintro ⟨encodes,text⟩
      refine never ⟨encodes,?_⟩
      rintro other (nothing | same)
      · cases nothing
      · rwa [← Option.some.inj same]

theorem conclude_closed {st : Collecting} (opened : Open p st.queue) :
    Closed p (conclude host p st) ↔ Overlaps host.toPollLibrary st.maximum ∧ host.unencodable st.maximum = none ∧
      ∀ etag ∈ st.etag, host.unencodable etag = none := by
  obtain ⟨⟨row,found,collecting,source⟩,checkpoint,stored⟩ := opened
  unfold conclude
  cases reckoned : overlapWatermark host.toPollLibrary st.maximum overlapSeconds with
  | error e =>
    refine iff_of_false ?_ ?_
    · rintro ⟨_,_,same,_⟩
      cases congrArg Outcome.result same
    · rintro ⟨⟨query,ok⟩,_⟩
      cases reckoned.symm.trans ok
  | ok query =>
    dsimp only
    have ok : ∃ published, st.queue.finishSnapshot p.snapshotId true st.pages (some st.maximum) (some st.maximum)
        (some (queryFingerprint host.toPollLibrary p.sourceId query)) st.etag none p.finishedAt = .ok published := by
      unfold Queue.finishSnapshot
      have kept : st.queue.checkpoints.get row.sourceId ≠ none := by
        rw [source,stored]
        rintro ⟨⟩
      exact ⟨_,fetch_bind_ok.mpr ⟨row,found,require_bind_ok.mpr ⟨collecting,by
        rw [if_pos rfl]
        exact fetch_bind_ok.mpr ⟨_,rfl,require_bind_ok.mpr ⟨kept,rfl⟩⟩⟩⟩⟩
    obtain ⟨⟨published,next⟩,ok⟩ := ok
    have closes := (Queue.finishSnapshot_complete ok).1
    rcases @finish_binds host p _ _ _ _ _ _ _ _ _ ok with ⟨finished,encodes,texts⟩ | ⟨⟨raised,failed⟩,never⟩
    · rw [finished]
      refine iff_of_true ⟨_,next,rfl,?_⟩ ⟨⟨query,reckoned⟩,encodes,fun etag held => texts etag (.inl held)⟩
      obtain ⟨closed,held,state⟩ := closes.closed
      exact ⟨closed,held,.inl state⟩
    · rw [failed]
      refine iff_of_false ?_ ?_
      · rintro ⟨_,_,same,_⟩
        cases congrArg Outcome.result same
      · rintro ⟨_,encodes,etags⟩
        refine never ⟨encodes,?_⟩
        rintro other (held | nothing)
        · exact etags other held
        · cases nothing

theorem checkpoint_own (db : Queue) :
    (db.checkpoint p.sourceId p.initialWatermark).checkpoints.get p.sourceId = some (p.checkpointRow db) := by
  let row : SourceCheckpoint := ⟨p.sourceId,p.initialWatermark,none,none,none⟩
  have stored : (db.checkpoint p.sourceId p.initialWatermark).checkpoints.get p.sourceId =
      some ((db.checkpoints.get p.sourceId).getD row) := (Table.get_insertOrIgnore db.checkpoints row p.sourceId).trans (if_pos rfl)
  rw [checkpointRow,stored,Option.getD_some]

theorem contained_of_closed {db : Queue} {answer : Outcome Queue PollError PollResult}
    (polled : pollSource host p db = some answer) : Contained host db p ↔ Closed p answer := by
  unfold Contained Closed
  rw [polled]
  simp only [Option.some.injEq]

/-- A poll is contained exactly if what it reads is sound. -/
theorem contained_iff {db : Queue} (proper : Proper host db p) : Contained host db p ↔ Sound host db p := by
  have known : ¬ p.sourceId ∉ sourceIds := not_not.mpr proper.known
  cases window : overlapWatermark host.toPollLibrary (p.checkpointRow db).watermark overlapSeconds with
  | error e =>
    have polled : pollSource host p db = some ⟨.error e,db.checkpoint p.sourceId p.initialWatermark⟩ := by
      simp only [pollSource,if_neg known,window]
    refine iff_of_false ?_ ?_
    · rw [contained_of_closed polled]
      rintro ⟨_,_,same,_⟩
      cases congrArg Outcome.result same
    · rintro ⟨⟨query,ok⟩,_⟩
      cases window.symm.trans ok
  | ok query =>
    let row : SourceSnapshot := ⟨p.snapshotId,p.sourceId,.collecting,p.startedAt.isoText,none,0,none,none⟩
    obtain ⟨snapshots,inserted⟩ := Table.insert_of_fresh
      (show (db.checkpoint p.sourceId p.initialWatermark).snapshots.get (Keyed.key row) = none from proper.fresh)
    let begun : Queue := {db.checkpoint p.sourceId p.initialWatermark with snapshots}
    have begins : (db.checkpoint p.sourceId p.initialWatermark).beginSnapshot p.snapshotId p.sourceId p.startedAt =
        .ok (p.snapshotId,begun) := by
      simp only [Queue.beginSnapshot,fetch_bind_ok,pure_ok]
      exact ⟨snapshots,inserted,rfl⟩
    have opened : Open p begun := by
      have written : snapshots.get p.snapshotId = some row := (Table.get_insert inserted p.snapshotId).trans (if_pos rfl)
      exact ⟨⟨row,written,rfl,rfl⟩,_,checkpoint_own db⟩
    have reads := @collect_reads host p query (reusableEtag host p (p.checkpointRow db) query) p.fuel none
      ⟨begun,0,(p.checkpointRow db).watermark,none⟩ opened
    have found : reading host p db = readPages host p query (reusableEtag host p (p.checkpointRow db) query) p.fuel 0 none none := by
      simp only [reading,window]
    obtain ⟨r,read⟩ := Option.isSome_iff_exists.mp (proper.ends ⟨query,window⟩)
    rw [found] at read
    rw [read] at reads
    obtain ⟨st,collected,taken,etag⟩ := reads
    have maximum : st.maximum = r.times.foldl latest (p.checkpointRow db).watermark := taken.maximum
    have still : Open p st.queue := taken.still opened
    have sound : Sound host db p ↔ host.unencodable st.maximum = none ∧
        match r.fault with
        | none => Overlaps host.toPollLibrary st.maximum ∧ ∀ etag ∈ r.etag, host.unencodable etag = none
        | some e => host.unencodable (e.kind ++ ": " ++ e.text) = none := by
      unfold Sound
      rw [found,read,maximum]
      simp only [Option.mem_def,Option.some.injEq,forall_eq']
      exact and_iff_right ⟨query,window⟩
    rw [sound]
    cases fault : r.fault with
    | some e =>
      have polled : pollSource host p db = some (abandon host p (p.checkpointRow db).watermark st e) := by
        simp only [pollSource,if_neg known,window,begins,collected,fault]
      exact (contained_of_closed polled).trans (abandon_closed still _ e)
    | none =>
      have polled : pollSource host p db = some (conclude host p st) := by
        simp only [pollSource,if_neg known,window,begins,collected,fault]
      refine (contained_of_closed polled).trans ((conclude_closed still).trans ?_)
      rw [etag]
      exact and_left_comm

theorem pollSources_through {db : Queue} {polls : List JsonPoll}
    (contained : ∀ t ∈ trace (step host) db polls, Contained host t.before t.action) :
    ∃ results next, pollSources host polls db = some ⟨.ok results,next⟩ ∧ results.length = polls.length := by
  induction polls generalizing db with
  | nil => exact ⟨[],db,rfl,rfl⟩
  | cons p rest ih =>
    obtain ⟨result,next,polled,_⟩ := contained ⟨db,p,step host db p⟩ List.mem_cons_self
    have stepped : step host db p = next := by simp [step,polled]
    have later : ∀ t ∈ trace (step host) next rest, Contained host t.before t.action := by
      intro t member
      rw [← stepped] at member
      exact contained t (List.mem_cons_of_mem _ member)
    obtain ⟨results,last,through,length⟩ := ih later
    refine ⟨result::results,last,?_,congrArg (· + 1) length⟩
    simp only [pollSources,polled,through,Option.map_some,Except.map]

/-- Over any run of polls: each of them returns over a snapshot that is closed, and the tick goes
through all its sources, exactly if each poll is sound in what it reads. -/
theorem polls_contained_iff (host : PollHost) (db : Queue) (polls : List JsonPoll)
    (proper : Along (step host) (Proper host) db polls) :
    ((∀ t ∈ trace (step host) db polls, Contained host t.before t.action) ∧
        ∃ results next, pollSources host polls db = some ⟨.ok results,next⟩ ∧ results.length = polls.length) ↔
      Along (step host) (Sound host) db polls := by
  constructor
  · rintro ⟨contained,_⟩ t member
    exact (contained_iff (proper t member)).mp (contained t member)
  · intro sound
    have contained : ∀ t ∈ trace (step host) db polls, Contained host t.before t.action :=
      fun t member => (contained_iff (proper t member)).mpr (sound t member)
    exact ⟨contained,pollSources_through contained⟩

/-! A poll of objects, where every text has a UTF-8 form, is one of `Poll`. -/

def plainHost (lib : PollLibrary) : PollHost := {lib with unencodable := fun _ => none}

def ofPage (page : Page) : JsonPage := ⟨page.items.map .obj,page.nextCursor,page.etag⟩

def ofPoll (p : Poll) : JsonPoll where
  sourceId := p.sourceId
  source := ⟨fun n query cursor etag => (p.source.fetchPage n query cursor etag).map ofPage⟩
  initialWatermark := p.initialWatermark
  snapshotId := p.snapshotId
  startedAt := p.startedAt
  finishedAt := p.finishedAt
  fuel := p.fuel

variable {lib : PollLibrary} {q : Poll}

theorem ofPoll_stageItems (items : List Item) (st : Collecting) :
    stageItems (plainHost lib) (ofPoll q) (items.map .obj) st = Poll.stageItems lib q items st := by
  induction items generalizing st with
  | nil => rfl
  | cons item rest ih =>
    rw [List.map_cons]
    unfold stageItems Poll.stageItems
    dsimp only [jsonIdentity,plainHost,ofPoll]
    cases eventIdentity lib q.sourceId item with
    | error e => rfl
    | ok parts =>
      obtain ⟨external,version,occurred⟩ := parts
      dsimp only
      by_cases empty : occurred = ""
      · rw [if_pos empty,if_pos empty]
        rfl
      rw [if_neg empty,if_neg empty]
      unfold stage
      dsimp only [latest]
      cases st.queue.stageObservation q.snapshotId (lib.uuid5 (eventName q.sourceId external version)) q.sourceId
          external version occurred (.obj item) with
      | error e => rfl
      | ok staged => exact ih _

theorem ofPoll_collect {query : String} {etag : Option String} (fuel : Nat) (cursor : Option String) (st : Collecting) :
    collect (plainHost lib) (ofPoll q) query etag fuel cursor st = Poll.collect lib q query etag fuel cursor st := by
  induction fuel generalizing cursor st with
  | zero => rfl
  | succ fuel ih =>
    unfold collect Poll.collect
    have fetched : (ofPoll q).source.fetchPage st.pages query cursor (if st.pages = 0 then etag else none) =
        (q.source.fetchPage st.pages query cursor (if st.pages = 0 then etag else none)).map ofPage := rfl
    rw [fetched]
    cases q.source.fetchPage st.pages query cursor (if st.pages = 0 then etag else none) with
    | error e => rfl
    | ok page =>
      dsimp only [Except.map,ofPage]
      rw [ofPoll_stageItems]
      rcases Poll.stageItems lib q page.items {st with
        pages := st.pages + 1
        etag := Poll.orElse page.etag st.etag} with ⟨next,_ | e⟩
      · cases page.nextCursor with
        | none => rfl
        | some cursor => exact ih (some cursor) next
      · rfl

theorem ofPoll_finish (db : Queue) (complete : Bool) (pages : Nat) (maximum : String) (next query etag error : Option String) :
    finish (plainHost lib) (ofPoll q) db complete pages maximum next query etag error =
      match db.finishSnapshot q.snapshotId complete pages (some maximum) next query etag error q.finishedAt with
      | .error e => .error (e.pollError lib)
      | .ok published => .ok published := by
  unfold finish
  dsimp only [ofPoll]
  cases db.finishSnapshot q.snapshotId complete pages (some maximum) next query etag error q.finishedAt with
  | error e => rfl
  | ok published =>
    have bound : ∀ texts : List String, texts.findSome? (plainHost lib).unencodable = none := by
      intro texts
      rw [List.findSome?_eq_none_iff]
      exact fun _ _ => rfl
    dsimp only
    rw [bound]

theorem ofPoll_abandon (watermark : String) (st : Collecting) (e : PollError) :
    abandon (plainHost lib) (ofPoll q) watermark st e = Poll.abandon lib q watermark st e := by
  unfold abandon Poll.abandon
  rw [ofPoll_finish]
  cases st.queue.finishSnapshot q.snapshotId false st.pages (some st.maximum) none none none
      (some (e.kind ++ ": " ++ e.text)) q.finishedAt with
  | error e => rfl
  | ok published => rfl

theorem ofPoll_conclude (st : Collecting) : conclude (plainHost lib) (ofPoll q) st = Poll.conclude lib q st := by
  unfold conclude Poll.conclude
  have host : (plainHost lib).toPollLibrary = lib := rfl
  have source : (ofPoll q).sourceId = q.sourceId := rfl
  rw [host]
  cases overlapWatermark lib st.maximum overlapSeconds with
  | error e => rfl
  | ok query =>
    dsimp only
    rw [source,ofPoll_finish]
    cases st.queue.finishSnapshot q.snapshotId true st.pages (some st.maximum) (some st.maximum)
      (some (queryFingerprint lib q.sourceId query)) st.etag none q.finishedAt with
    | error e => rfl
    | ok published => rfl

theorem ofPoll_pollSource (db : Queue) : pollSource (plainHost lib) (ofPoll q) db = Poll.pollSource lib q db := by
  unfold pollSource Poll.pollSource
  by_cases known : q.sourceId ∉ sourceIds
  · rw [if_pos known,if_pos (show (ofPoll q).sourceId ∉ sourceIds from known)]
    rfl
  rw [if_neg known,if_neg (show ¬ (ofPoll q).sourceId ∉ sourceIds from known)]
  have row : (ofPoll q).checkpointRow db = q.checkpointRow db := rfl
  have host : (plainHost lib).toPollLibrary = lib := rfl
  dsimp only
  rw [row,host]
  cases overlapWatermark lib (q.checkpointRow db).watermark overlapSeconds with
  | error e => rfl
  | ok query =>
    dsimp only
    have begins : (db.checkpoint (ofPoll q).sourceId (ofPoll q).initialWatermark).beginSnapshot (ofPoll q).snapshotId
        (ofPoll q).sourceId (ofPoll q).startedAt =
          (db.checkpoint q.sourceId q.initialWatermark).beginSnapshot q.snapshotId q.sourceId q.startedAt := rfl
    rw [begins]
    cases (db.checkpoint q.sourceId q.initialWatermark).beginSnapshot q.snapshotId q.sourceId q.startedAt with
    | error e => rfl
    | ok begun =>
      dsimp only
      have etag : reusableEtag (plainHost lib) (ofPoll q) (q.checkpointRow db) query =
          Poll.reusableEtag lib q (q.checkpointRow db) query := rfl
      have fuel : (ofPoll q).fuel = q.fuel := rfl
      rw [ofPoll_collect,etag,fuel]
      rcases Poll.collect lib q query (Poll.reusableEtag lib q (q.checkpointRow db) query) q.fuel none
          ⟨begun.2,0,(q.checkpointRow db).watermark,none⟩ with _ | ⟨st,_ | e⟩
      · rfl
      · exact congrArg some (ofPoll_conclude st)
      · exact congrArg some (ofPoll_abandon _ st e)

def updatedAt (time : String) : JsonPoll where
  sourceId := "org-issues"
  source := ⟨fun _ _ _ _ => .ok ⟨[.obj [("number",.int 1),("updated_at",.str time)]],none,none⟩⟩
  initialWatermark := "2026-01-01T00:00:00Z"
  snapshotId := "snapshot-1"
  startedAt := ⟨0,Instant.zero_bounded⟩
  finishedAt := ⟨0,Instant.zero_bounded⟩
  fuel := 1

def ordinary : PollHost := {Poll.newYear with unencodable := fun _ => none}

theorem updatedAt_proper (time : String) (read : (reading ordinary (updatedAt time) .empty).isSome) :
    Proper ordinary .empty (updatedAt time) := ⟨by simp [updatedAt,sourceIds],rfl,fun _ => read⟩

theorem polls_contained_iff_newYear :
    Contained ordinary .empty (updatedAt "2026-01-01T01:00:00Z") := by
  have proper : Along (step ordinary) (Proper ordinary) .empty [updatedAt "2026-01-01T01:00:00Z"] :=
    (along_cons _).mpr ⟨updatedAt_proper _ (by decide),fun _ member => by cases member⟩
  have sound : Along (step ordinary) (Sound ordinary) .empty [updatedAt "2026-01-01T01:00:00Z"] := by
    refine (along_cons _).mpr ⟨⟨⟨"2025-12-31T23:55:00Z",by decide⟩,?_⟩,fun _ member => by cases member⟩
    intro r read
    have known : reading ordinary (updatedAt "2026-01-01T01:00:00Z") .empty =
        some ⟨["2026-01-01T01:00:00Z"],none,none⟩ := by decide
    rw [Option.mem_def,known] at read
    rw [← Option.some.inj read]
    exact ⟨rfl,⟨"2026-01-01T00:55:00Z",by decide⟩,by rintro _ ⟨⟩⟩
  exact ((polls_contained_iff ordinary .empty _ proper).mpr sound).1 _ List.mem_cons_self

/-- An issue whose time is no time ends the poll with the snapshot still collecting. -/
theorem malformed_time_raises : ¬ ∀ (host : PollHost) (db : Queue) (p : JsonPoll),
    Proper host db p → Overlaps host.toPollLibrary (p.checkpointRow db).watermark → Contained host db p := by
  intro every
  obtain ⟨result,next,polled,_⟩ := every ordinary .empty (updatedAt "9") (updatedAt_proper _ (by decide))
    ⟨"2025-12-31T23:55:00Z",by decide⟩
  have raised : (pollSource ordinary (updatedAt "9") .empty).map (fun answer => answer.result.isOk) = some false := by
    decide
  rw [polled] at raised
  cases raised

end JsonPoll
end SjgControl

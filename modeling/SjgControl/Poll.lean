import SjgControl.Store.Operation

/-! `poll_source`: pages are staged under a snapshot as they arrive, and published with the
new checkpoint when the last one is there. Each statement commits on its own, so a call that
is stopped leaves what it has staged. -/
namespace SjgControl
open Relational

/-- An exception as a handler prints it: its type's name and its text. -/
structure PollError where
  kind : String
  text : String
  deriving DecidableEq

/-- What `datetime.fromisoformat` returns: the wall clock and the offset from UTC, if there is
one, in microseconds. -/
structure Datetime where
  wall : Instant
  offset : Option Int

/-- What the poll takes from the interpreter and its libraries. `database` is how an error that
SQLite itself raises prints. -/
structure PollLibrary where
  render : Json → String
  repr : String → String
  fromisoformat : String → Option Datetime
  sha256 : String → String
  uuid5 : String → String
  database : StoreError → PollError

abbrev Item := List (String × Json)

structure Page where
  items : List Item
  nextCursor : Option String
  etag : Option String

structure PollResult where
  sourceId : String
  complete : Bool
  pageCount : Nat
  inserted : Nat
  watermark : String
  error : Option String

/-- A source answers its calls in a poll by their number, the watermark asked for, the cursor
and the etag. -/
structure Source where
  fetchPage : Nat → String → Option String → Option String → Except PollError Page

def sourceIds : List String :=
  ["org-issues","org-comments","product-issues","product-comments","product-workflow-runs"]

def endsWith (text ending : String) : Prop := ending.toList <:+ text.toList

instance (text ending : String) : Decidable (endsWith text ending) :=
  inferInstanceAs (Decidable (ending.toList <:+ text.toList))

def StoreError.pollError (lib : PollLibrary) : StoreError → PollError
  | .stateError message => ⟨"StateError",message⟩
  | e => lib.database e

/-- `item[name]`, which raises for an absent key, as text. -/
def itemText (lib : PollLibrary) (item : Item) (name : String) : Except PollError String :=
  if Json.has item name then .ok ((Json.get item name).text lib.render)
  else .error ⟨"KeyError","'" ++ name ++ "'"⟩

/-- External id, version key and occurrence. -/
def eventIdentity (lib : PollLibrary) (sourceId : String) (item : Item) :
    Except PollError (String × String × String) := do
  let given := Json.get item "updated_at"
  let updated := (if given.truthy then given else Json.get item "created_at").textOr lib.render
  if endsWith sourceId "comments" then
    let external ← itemText lib item "id"
    return (external,external ++ ":" ++ updated,updated)
  else if endsWith sourceId "workflow-runs" then
    let external ← itemText lib item "id"
    let attempt := Json.get item "run_attempt"
    let attempt := (if attempt.truthy then attempt else .int 1).text lib.render
    return (external,external ++ ":" ++ attempt ++ ":" ++ (Json.get item "status").textOr lib.render ++ ":" ++
      (Json.get item "conclusion").textOr lib.render ++ ":" ++ updated,updated)
  else
    let external ← itemText lib item "number"
    return (external,external ++ ":" ++ updated,updated)

/-- The name whose UUIDv5 is the id of the event. -/
def eventName (sourceId external version : String) : String := sourceId ++ ":" ++ external ++ ":" ++ version

def queryFingerprint (lib : PollLibrary) (sourceId watermark : String) : String :=
  lib.sha256 (sourceId ++ "\x00" ++ watermark)

/-- `instant + timedelta(microseconds=…)`; `none` is the `OverflowError`. -/
def Instant.shift (t : Instant) (micros : Int) : Option Instant :=
  let moved := (t.micros : Int) + micros
  if h : 0 ≤ moved ∧ moved.toNat < 315537897600 * 1000000 then some ⟨moved.toNat,h.2⟩ else none

def overlapWatermark (lib : PollLibrary) (watermark : String) (seconds : Int) : Except PollError String := do
  require (0 ≤ seconds) ⟨"ValueError","checkpoint overlap must not be negative"⟩
  let text := String.ofList (watermark.toList.flatMap (fun c => if c = 'Z' then "+00:00".toList else [c]))
  let instant ← fetch (lib.fromisoformat text)
    ⟨"ValueError","invalid ISO-8601 source watermark: " ++ lib.repr watermark⟩
  let offset ← fetch instant.offset ⟨"ValueError","source watermark must include a timezone"⟩
  let value ← fetch (instant.wall.shift (-seconds * 1000000)) ⟨"OverflowError","date value out of range"⟩
  let utc ← fetch (value.shift (-offset)) ⟨"OverflowError","date value out of range"⟩
  return utc.isoText

/-- The column's default, which no statement changes. -/
def overlapSeconds : Int := 300

/-- What the loop over the pages carries. -/
structure Collecting where
  queue : Queue
  pages : Nat
  maximum : String
  etag : Option String

/-- One call of `poll_source`: the identifier and the instants it draws, and how many pages it may
read before it is left to itself. -/
structure Poll where
  sourceId : String
  source : Source
  initialWatermark : String
  snapshotId : String
  startedAt : Instant
  finishedAt : Instant
  fuel : Nat

namespace Poll
variable (lib : PollLibrary) (p : Poll)

/-- The items of a page, up to the first that raises. -/
def stageItems : List Item → Collecting → Collecting × Option PollError
  | [],st => (st,none)
  | item::rest,st =>
    match eventIdentity lib p.sourceId item with
    | .error e => (st,some e)
    | .ok (external,version,occurred) =>
      if occurred = "" then (st,some ⟨"ValueError",p.sourceId ++ " event has no occurrence timestamp"⟩)
      else
        let st := {st with maximum := if st.maximum < occurred then occurred else st.maximum}
        match st.queue.stageObservation p.snapshotId (lib.uuid5 (eventName p.sourceId external version))
            p.sourceId external version occurred (.obj item) with
        | .error e => (st,some (e.pollError lib))
        | .ok (_,queue) => stageItems rest {st with queue}

/-- `a or b` of texts that may be absent. -/
def orElse (a b : Option String) : Option String := if a.getD "" = "" then b else a

def collect (query : String) (etag : Option String) :
    Nat → Option String → Collecting → Option (Collecting × Option PollError)
  | 0,_,_ => none
  | fuel + 1,cursor,st =>
    match p.source.fetchPage st.pages query cursor (if st.pages = 0 then etag else none) with
    | .error e => some (st,some e)
    | .ok page =>
      match stageItems lib p page.items {st with
          pages := st.pages + 1
          etag := orElse page.etag st.etag} with
      | (st,some e) => some (st,some e)
      | (st,none) =>
        match page.nextCursor with
        | none => some (st,none)
        | some cursor => collect query etag fuel (some cursor) st

/-- The checkpoint as the call reads it back. -/
def checkpointRow (db : Queue) : SourceCheckpoint :=
  ((db.checkpoint p.sourceId p.initialWatermark).checkpoints.get p.sourceId).getD
    ⟨p.sourceId,p.initialWatermark,none,none,none⟩

def reusableEtag (row : SourceCheckpoint) (query : String) : Option String :=
  if row.queryFingerprint = some (queryFingerprint lib p.sourceId query) ∧
      row.lastCompleteSnapshotId.getD "" ≠ "" then row.etag
  else none

def abandon (watermark : String) (st : Collecting) (e : PollError) : Outcome Queue PollError PollResult :=
  match st.queue.finishSnapshot p.snapshotId false st.pages (some st.maximum) none none none
      (some (e.kind ++ ": " ++ e.text)) p.finishedAt with
  | .error e => ⟨.error (e.pollError lib),st.queue⟩
  | .ok (_,next) => ⟨.ok ⟨p.sourceId,false,st.pages,0,watermark,some e.text⟩,next⟩

def conclude (st : Collecting) : Outcome Queue PollError PollResult :=
  match overlapWatermark lib st.maximum overlapSeconds with
  | .error e => ⟨.error e,st.queue⟩
  | .ok query =>
    match st.queue.finishSnapshot p.snapshotId true st.pages (some st.maximum) (some st.maximum)
        (some (queryFingerprint lib p.sourceId query)) st.etag none p.finishedAt with
    | .error e => ⟨.error (e.pollError lib),st.queue⟩
    | .ok (published,next) => ⟨.ok ⟨p.sourceId,true,st.pages,published,st.maximum,none⟩,next⟩

/-- The call from its first statement to its return; `none` while it is still reading pages. -/
def pollSource (db : Queue) : Option (Outcome Queue PollError PollResult) :=
  if p.sourceId ∉ sourceIds then some ⟨.error ⟨"ValueError","unknown source id: " ++ p.sourceId⟩,db⟩
  else
    let started := db.checkpoint p.sourceId p.initialWatermark
    let row := p.checkpointRow db
    match overlapWatermark lib row.watermark overlapSeconds with
    | .error e => some ⟨.error e,started⟩
    | .ok query =>
      match started.beginSnapshot p.snapshotId p.sourceId p.startedAt with
      | .error e => some ⟨.error (e.pollError lib),started⟩
      | .ok (_,begun) =>
        match collect lib p query (reusableEtag lib p row query) p.fuel none ⟨begun,0,row.watermark,none⟩ with
        | none => none
        | some (st,some e) => some (abandon lib p row.watermark st e)
        | some (st,none) => some (conclude lib p st)

def pagesFrom (query : String) (etag : Option String) : Nat → Nat → Option String → List Page
  | 0,_,_ => []
  | fuel + 1,n,cursor =>
    match p.source.fetchPage n query cursor (if n = 0 then etag else none) with
    | .error _ => []
    | .ok page =>
      page::match page.nextCursor with
        | none => []
        | some cursor => pagesFrom query etag fuel (n + 1) (some cursor)

def items (db : Queue) : List Item :=
  match overlapWatermark lib (p.checkpointRow db).watermark overlapSeconds with
  | .error _ => []
  | .ok query => (p.pagesFrom query (reusableEtag lib p (p.checkpointRow db) query) p.fuel 0 none).flatMap Page.items

end Poll
end SjgControl

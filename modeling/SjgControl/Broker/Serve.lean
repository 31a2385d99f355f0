import SjgControl.Authorization
import SjgControl.JsonText
import SjgControl.Machine

/-! `SessionServer.serve`: one connection after another, each of them a message read, a reply
made by the broker and the reply sent. -/
namespace SjgControl
open JsonText

def maxMessage : Nat := 1024 * 1024

inductive PeerEnding where
  | closed
  | reset (text : String)
  | silent

/-- What becomes of a `sendall`: the peer takes everything, the call raises, or it waits. -/
inductive Sending where
  | taken
  | broken (name : String)
  | stalled
  deriving DecidableEq

/-- A connection: who it is from, as `peer_uid` says, what `recv` gives, and how a reply of
some length is taken. -/
structure Peer where
  uid : Except String Nat
  chunks : List Bytes
  solid : ∀ chunk ∈ chunks, chunk ≠ []
  ending : PeerEnding
  sendall : Nat → Sending

inductive Receipt (α : Type) where
  | ok (value : α) (rest : List Bytes)
  | failed (text : String)
  | blocked

def readExact (ending : PeerEnding) : Nat → List Bytes → Receipt Bytes
  | size,[] =>
    if size = 0 then .ok [] []
    else match ending with
      | .closed => .failed "connection closed before the complete message arrived"
      | .reset text => .failed text
      | .silent => .blocked
  | size,chunk::rest =>
    if size = 0 then .ok [] (chunk::rest)
    else if size < chunk.length then .ok (chunk.take size) (chunk.drop size::rest)
    else match readExact ending (size - chunk.length) rest with
      | .ok more rest => .ok (chunk ++ more) rest
      | other => other

/-- `struct.unpack("!I", header)`. -/
def unpackSize (header : Bytes) : Nat := header.foldl (fun size b => size * 256 + b.toNat) 0

/-- `struct.pack("!I", size)`. -/
def packSize (size : Nat) : Bytes :=
  [size / 16777216 % 256,size / 65536 % 256,size / 256 % 256,size % 256].map UInt8.ofNat

/-- `encode_message`; the text of the value is plain ASCII. -/
def encodeMessage (value : Json) : Except String Bytes :=
  let body := (compact value).map (fun c => UInt8.ofNat c.toNat)
  if maxMessage < body.length then .error "request exceeds the one-megabyte protocol limit"
  else .ok (packSize body.length ++ body)

/-- A server, with what it takes from elsewhere: `json.loads` on a message, with the text of
what it raises, and the broker. -/
structure SessionServer (B : Type) where
  expectedUid : Nat
  maxRequests : Option Nat
  loads : Bytes → Except String Json
  handle : B → Fields → Except String Json × B

inductive ServeStatus where
  | accepting
  | returned
  | raised (name : String)
  | blocked
  deriving DecidableEq

structure Serving (B : Type) where
  status : ServeStatus
  broker : B
  handled : Nat
  replies : List Bytes

/-- What a round of the loop meets: nobody connects in time, somebody does, or `stop` has been
called. -/
inductive ServeEvent where
  | timeout
  | connection (peer : Peer)
  | stop

namespace SessionServer
variable {B : Type} (server : SessionServer B)

def receiveMessage (peer : Peer) : Receipt Fields :=
  match readExact peer.ending 4 peer.chunks with
  | .failed text => .failed text
  | .blocked => .blocked
  | .ok header rest =>
    if maxMessage < unpackSize header then .failed "message exceeds the one-megabyte protocol limit"
    else match readExact peer.ending (unpackSize header) rest with
      | .failed text => .failed text
      | .blocked => .blocked
      | .ok body rest =>
        match server.loads body with
        | .error text => .failed text
        | .ok (.obj fields) => .ok fields rest
        | .ok _ => .failed "message must be a JSON object"

def denied : Json :=
  .obj [("schema",.str "sjg.response/v1"),("status",.str "denied"),
    ("error",.str "Unix-socket peer identity does not match this wake")]

def protocolFailure (text : String) : Json :=
  .obj [("schema",.str "sjg.response/v1"),("status",.str "retryable"),("error",.str ("protocol failure: " ++ text))]

/-- The response to a connection; none where the server waits for the peer for ever. -/
def respond (broker : B) (peer : Peer) : Option (Json × B) :=
  match peer.uid with
  | .error text => some (protocolFailure text,broker)
  | .ok uid =>
    if uid ≠ server.expectedUid then some (denied,broker)
    else match server.receiveMessage peer with
      | .failed text => some (protocolFailure text,broker)
      | .blocked => none
      | .ok fields _ =>
        match server.handle broker fields with
        | (.ok response,broker) => some (response,broker)
        | (.error text,broker) => some (protocolFailure text,broker)

def full (handled : Nat) : Bool :=
  match server.maxRequests with
  | some bound => bound ≤ handled
  | none => false

def serveConnection (s : Serving B) (peer : Peer) : Serving B :=
  match server.respond s.broker peer with
  | none => {s with status := .blocked}
  | some (response,broker) =>
    match encodeMessage response with
    | .error _ => {s with status := .raised "ProtocolError", broker := broker}
    | .ok reply =>
      match peer.sendall reply.length with
      | .broken name => {s with status := .raised name, broker := broker}
      | .stalled => {s with status := .blocked, broker := broker}
      | .taken => {
          status := if server.full (s.handled + 1) then .returned else .accepting
          broker := broker
          handled := s.handled + 1
          replies := s.replies ++ [reply] }

def step (s : Serving B) (event : ServeEvent) : Serving B :=
  match s.status with
  | .accepting =>
    match event with
    | .timeout => s
    | .connection peer => server.serveConnection s peer
    | .stop => {s with status := .returned}
  | _ => s

def start (broker : B) : Serving B :=
  ⟨if server.full 0 then .returned else .accepting,broker,0,[]⟩

end SessionServer

namespace Peer

/-- The peer sends a whole message: its length, and as many bytes as that says or a length that
the server refuses. -/
def Complete (peer : Peer) : Prop :=
  let bytes := peer.chunks.flatten
  4 ≤ bytes.length ∧
    (maxMessage < unpackSize (bytes.take 4) ∨ unpackSize (bytes.take 4) ≤ (bytes.drop 4).length)

def Waits (peer : Peer) : Prop := peer.ending = .silent

end Peer

theorem readExact_enough {ending : PeerEnding} {size : Nat} {chunks : List Bytes}
    (enough : size ≤ chunks.flatten.length) :
    ∃ rest, readExact ending size chunks = .ok (chunks.flatten.take size) rest ∧
      rest.flatten = chunks.flatten.drop size := by
  induction chunks generalizing size with
  | nil =>
    have nothing : size = 0 := by simpa using enough
    subst nothing
    exact ⟨[],rfl,rfl⟩
  | cons chunk rest ih =>
    unfold readExact
    by_cases none_ : size = 0
    · subst none_
      exact ⟨chunk::rest,by simp,by simp⟩
    rw [if_neg none_]
    by_cases inside : size < chunk.length
    · rw [if_pos inside]
      refine ⟨chunk.drop size::rest,?_,?_⟩
      · rw [List.flatten_cons,List.take_append_of_le_length (by omega)]
      · rw [List.flatten_cons,List.flatten_cons,List.drop_append_of_le_length (by omega)]
    rw [if_neg inside]
    have fewer : size - chunk.length ≤ rest.flatten.length := by
      simp only [List.flatten_cons,List.length_append] at enough
      omega
    obtain ⟨left,taken,remaining⟩ := ih fewer
    refine ⟨left,?_,?_⟩
    · have whole : chunk.take size = chunk := List.take_of_length_le (by omega)
      rw [taken,List.flatten_cons,List.take_append,whole]
    · have nothing : chunk.drop size = [] := List.drop_eq_nil_of_le (by omega)
      rw [remaining,List.flatten_cons,List.drop_append,nothing,List.nil_append]

theorem readExact_short {ending : PeerEnding} {size : Nat} {chunks : List Bytes}
    (short : chunks.flatten.length < size) :
    (readExact ending size chunks = .blocked ↔ ending = .silent) ∧
      ∀ bytes rest, readExact ending size chunks ≠ .ok bytes rest := by
  induction chunks generalizing size with
  | nil =>
    unfold readExact
    have some_ : size ≠ 0 := by
      rintro rfl
      exact absurd short (by simp)
    rw [if_neg some_]
    rcases ending with _ | _ | _ <;> simp
  | cons chunk rest ih =>
    simp only [List.flatten_cons,List.length_append] at short
    unfold readExact
    rw [if_neg (by omega),if_neg (by omega)]
    obtain ⟨blocked,never⟩ := @ih (size - chunk.length) (by omega)
    rw [← blocked]
    cases read : readExact ending (size - chunk.length) rest with
    | ok more left => exact absurd read (never more left)
    | failed text => simp
    | blocked => simp

namespace SessionServer
variable {B : Type} (server : SessionServer B)

theorem receiveMessage_blocked {peer : Peer} :
    server.receiveMessage peer = .blocked ↔ peer.Waits ∧ ¬ peer.Complete := by
  unfold receiveMessage Peer.Waits Peer.Complete
  by_cases header : 4 ≤ peer.chunks.flatten.length
  · obtain ⟨rest,taken,remaining⟩ := @readExact_enough peer.ending _ _ header
    rw [taken]
    dsimp only
    by_cases large : maxMessage < unpackSize (peer.chunks.flatten.take 4)
    · rw [if_pos large]
      simp [header,large,-List.length_flatten]
    rw [if_neg large,← remaining]
    by_cases body : unpackSize (peer.chunks.flatten.take 4) ≤ rest.flatten.length
    · obtain ⟨left,whole,_⟩ := @readExact_enough peer.ending _ _ body
      rw [whole]
      dsimp only
      have answered : ∀ r : Except String Json,
          (match r with
            | .error text => Receipt.failed text
            | .ok (.obj fields) => .ok fields left
            | .ok _ => .failed "message must be a JSON object") ≠ .blocked := by
        intro r
        split <;> simp
      simp [header,body,answered,-List.length_flatten]
    · have short := @readExact_short peer.ending _ _ (not_le.mp body)
      cases read : readExact peer.ending (unpackSize (peer.chunks.flatten.take 4)) rest with
      | ok bytes left => exact absurd read (short.2 bytes left)
      | failed text => simp [← short.1,read]
      | blocked => simp [short.1.mp read,header,large,not_le.mp body,-List.length_flatten]
  · have short := @readExact_short peer.ending _ _ (not_le.mp header)
    cases read : readExact peer.ending 4 peer.chunks with
    | ok bytes left => exact absurd read (short.2 bytes left)
    | failed text => simp [← short.1,read]
    | blocked => simp [short.1.mp read,not_le.mp header,-List.length_flatten]

/-- A peer that the server waits for: of the right identity, silent before its message is whole. -/
theorem respond_none_iff {broker : B} {peer : Peer} :
    server.respond broker peer = none ↔
      peer.uid = .ok server.expectedUid ∧ peer.Waits ∧ ¬ peer.Complete := by
  unfold respond
  rw [← receiveMessage_blocked server]
  cases known : peer.uid with
  | error text => simp
  | ok uid =>
    dsimp only
    by_cases same : uid = server.expectedUid
    · rw [if_neg (not_not.mpr same)]
      subst same
      cases server.receiveMessage peer with
      | failed text => simp
      | blocked => simp
      | ok fields rest =>
        rcases handled : server.handle broker fields with ⟨_ | _,_⟩ <;> simp [handled]
    · rw [if_pos same]
      simp [same]

/-- What the server asks of a connection: a peer of the right identity sends its message whole,
or ends it, and the reply is small enough and the peer takes it all. -/
def Manageable (broker : B) (peer : Peer) : Prop :=
  (peer.uid = .ok server.expectedUid → peer.Waits → peer.Complete) ∧
    ∀ response after, server.respond broker peer = some (response,after) →
      (compact response).length ≤ maxMessage ∧ peer.sendall ((compact response).length + 4) = .taken

theorem encodeMessage_ok {response : Json} {reply : Bytes} (encoded : encodeMessage response = .ok reply) :
    (compact response).length ≤ maxMessage ∧ reply.length = (compact response).length + 4 := by
  unfold encodeMessage at encoded
  dsimp only at encoded
  rw [List.length_map] at encoded
  split at encoded
  next => cases encoded
  next small =>
    refine ⟨not_lt.mp small,?_⟩
    rw [← Except.ok.inj encoded,List.length_append,List.length_map,Nat.add_comm]
    rfl

theorem encodeMessage_error {response : Json} {text : String} (refused : encodeMessage response = .error text) :
    maxMessage < (compact response).length := by
  unfold encodeMessage at refused
  dsimp only at refused
  rw [List.length_map] at refused
  split at refused
  next large => exact large
  next => cases refused

/-- The server stands: it goes on accepting, or has returned because it was told to or has
handled its last request, and a connection has had its reply. -/
structure Survives (t : Machine.Transition (Serving B) ServeEvent) : Prop where
  alive : t.after.status = .accepting ∨ t.after.status = .returned
  asked : t.before.status = .accepting → t.after.status = .returned →
    t.action = .stop ∨ server.full t.after.handled = true
  answered : t.before.status = .accepting → ∀ peer, t.action = .connection peer →
    ∃ reply, t.after.replies = t.before.replies ++ [reply]

def Permitted (s : Serving B) (event : ServeEvent) : Prop :=
  s.status = .accepting → ∀ peer, event = .connection peer → server.Manageable s.broker peer

theorem serveConnection_managed {s : Serving B} {peer : Peer} (manageable : server.Manageable s.broker peer) :
    ∃ broker reply, server.serveConnection s peer = {
      status := if server.full (s.handled + 1) then .returned else .accepting
      broker := broker
      handled := s.handled + 1
      replies := s.replies ++ [reply] } := by
  obtain ⟨sent,fits⟩ := manageable
  unfold serveConnection
  cases answer : server.respond s.broker peer with
  | none =>
    obtain ⟨known,waits,incomplete⟩ := server.respond_none_iff.mp answer
    exact absurd (sent known waits) incomplete
  | some pair =>
    obtain ⟨response,broker⟩ := pair
    obtain ⟨small,taken⟩ := fits response broker answer
    dsimp only
    cases encoded : encodeMessage response with
    | error text => exact absurd small (not_le.mpr (encodeMessage_error encoded))
    | ok reply =>
      rw [← (encodeMessage_ok encoded).2] at taken
      dsimp only
      rw [taken]
      exact ⟨broker,reply,rfl⟩

theorem serveConnection_alive {s : Serving B} {peer : Peer}
    (alive : (server.serveConnection s peer).status = .accepting ∨
      (server.serveConnection s peer).status = .returned) : server.Manageable s.broker peer := by
  refine ⟨?_,?_⟩
  · intro known waits
    by_contra incomplete
    simp [serveConnection,server.respond_none_iff.mpr ⟨known,waits,incomplete⟩] at alive
  · intro response after answer
    simp only [serveConnection,answer] at alive
    cases encoded : encodeMessage response with
    | error text => simp [encoded] at alive
    | ok reply =>
      obtain ⟨small,size⟩ := encodeMessage_ok encoded
      refine ⟨small,?_⟩
      rw [← size]
      simp only [encoded] at alive
      cases taken : peer.sendall reply.length with
      | taken => rfl
      | broken name => simp [taken] at alive
      | stalled => simp [taken] at alive

theorem survives_step {s : Serving B} (alive : s.status = .accepting ∨ s.status = .returned) (event : ServeEvent) :
    server.Survives ⟨s,event,server.step s event⟩ ↔ server.Permitted s event := by
  constructor
  · rintro ⟨after,_,_⟩ accepting peer rfl
    simp only [step,accepting] at after
    exact server.serveConnection_alive after
  · intro permitted
    rcases alive with accepting | returned
    · cases event with
      | timeout =>
        have still : server.step s .timeout = s := by simp [step,accepting]
        rw [still]
        exact ⟨.inl accepting,fun _ returned => (by cases accepting.symm.trans returned),fun _ _ other => by cases other⟩
      | stop => exact ⟨by simp [step,accepting],fun _ _ => .inl rfl,fun _ _ other => by cases other⟩
      | connection peer =>
        obtain ⟨broker,reply,served⟩ := server.serveConnection_managed (permitted accepting peer rfl)
        have stepped : server.step s (.connection peer) = server.serveConnection s peer := by simp [step,accepting]
        rw [stepped,served]
        refine ⟨?_,?_,fun _ _ _ => ⟨reply,rfl⟩⟩
        · dsimp only
          split <;> simp
        · intro _ returned
          dsimp only at returned ⊢
          split at returned
          next full => exact .inr full
          next => cases returned
    · have still : server.step s event = s := by simp [step,returned]
      rw [still]
      have other : s.status ≠ .accepting := fun accepting => by cases accepting.symm.trans returned
      exact ⟨.inr returned,fun accepting => absurd accepting other,fun accepting => absurd accepting other⟩

/-- The wake server outlives its clients, over a whole run, exactly if every connection it
accepts is one that it can manage: the reply is encoded and sent where nothing catches what is
raised, and a connection has no timeout. -/
theorem survives_iff (broker : B) (events : List ServeEvent) :
    (∀ t ∈ Machine.trace server.step (server.start broker) events, server.Survives t) ↔
      Machine.Along server.step server.Permitted (server.start broker) events := by
  have initially : (server.start broker).status = .accepting ∨ (server.start broker).status = .returned := by
    unfold start
    dsimp only
    split <;> simp
  refine @Machine.promise_iff_along _ _ server.step (fun s => s.status = .accepting ∨ s.status = .returned)
    (fun _ => True) server.Survives server.Permitted ?_ _ initially events (fun _ _ => trivial)
  intro s event alive _
  have exact_ := server.survives_step alive event
  exact ⟨exact_,fun permitted => (exact_.mpr permitted).alive⟩

def gone : Peer where
  uid := .ok 0
  chunks := []
  solid := by simp
  ending := .closed
  sendall := fun _ => .broken "BrokenPipeError"

def quiet : SessionServer Unit where
  expectedUid := 0
  maxRequests := none
  loads := fun _ => .ok (.obj [])
  handle := fun broker _ => (.ok (.obj []),broker)

/-- The client disconnects without a message, and the reply that says so ends the server. -/
theorem client_ends_server : ¬ ∀ (server : SessionServer Unit) (events : List ServeEvent),
    ∀ t ∈ Machine.trace server.step (server.start ()) events, server.Survives t := by
  intro every
  have raised : (quiet.step (quiet.start ()) (.connection gone)).status = .raised "BrokenPipeError" := by
    decide +kernel
  rcases (every quiet [.connection gone] _ List.mem_cons_self).alive with alive | alive
  · cases raised.symm.trans alive
  · cases raised.symm.trans alive

end SessionServer
end SjgControl

import SjgControl.Broker.Serve

/-! Messages one after another on a connection. However their bytes are cut into chunks, each
call of `receive_message` takes one message and leaves the next. -/
namespace SjgControl
open JsonText

mutual

/-- The value with the keys of its objects in the order in which they are written. -/
def Json.ordered : Json → Json
  | .arr items => .arr (Json.orderedItems items)
  | .obj fields => .obj ((Json.orderedFields fields).insertionSort (fun a b => a.1 ≤ b.1))
  | value => value

def Json.orderedItems : List Json → List Json
  | [] => []
  | item::rest => Json.ordered item::Json.orderedItems rest

def Json.orderedFields : Fields → Fields
  | [] => []
  | (name,value)::rest => (name,Json.ordered value)::Json.orderedFields rest

end

def Json.orderedObject (fields : Fields) : Fields :=
  (Json.orderedFields fields).insertionSort (fun a b => a.1 ≤ b.1)

def messageBody (value : Json) : Bytes := (compact value).map (fun c => UInt8.ofNat c.toNat)

/-! The length in front of a message. -/

theorem unpackSize_packSize {size : Nat} (small : size < 4294967296) : unpackSize (packSize size) = size := by
  simp only [unpackSize,packSize,List.map_cons,List.map_nil,List.foldl_cons,List.foldl_nil,UInt8.toNat_ofNat']
  omega

theorem length_packSize (size : Nat) : (packSize size).length = 4 := rfl

theorem encodeMessage_frame {value : Json} {frame : Bytes} (encoded : encodeMessage value = .ok frame) :
    (messageBody value).length ≤ maxMessage ∧ frame = packSize (messageBody value).length ++ messageBody value := by
  unfold encodeMessage at encoded
  dsimp only at encoded
  split at encoded
  next => cases encoded
  next small => exact ⟨not_lt.mp small,(Except.ok.inj encoded).symm⟩

/-! What a read leaves. -/

theorem readExact_solid {ending : PeerEnding} {size : Nat} {chunks rest : List Bytes} {bytes : Bytes}
    (solid : ∀ chunk ∈ chunks, chunk ≠ []) (ok : readExact ending size chunks = .ok bytes rest) :
    ∀ chunk ∈ rest, chunk ≠ [] := by
  induction chunks generalizing size bytes with
  | nil =>
    unfold readExact at ok
    split at ok
    next =>
      cases ok
      exact solid
    next => split at ok <;> cases ok
  | cons chunk others ih =>
    unfold readExact at ok
    split at ok
    next =>
      cases ok
      exact solid
    next =>
      split at ok
      next inside =>
        cases ok
        intro left member
        rcases List.mem_cons.mp member with rfl | later
        · intro empty
          have all := List.drop_eq_nil_iff.mp empty
          omega
        · exact solid left (List.mem_cons_of_mem _ later)
      next =>
        cases more : readExact ending (size - chunk.length) others with
        | ok front left =>
          rw [more] at ok
          cases ok
          exact ih (fun c member => solid c (List.mem_cons_of_mem _ member)) more
        | failed text =>
          rw [more] at ok
          cases ok
        | blocked =>
          rw [more] at ok
          cases ok

theorem readExact_closed {size : Nat} {chunks : List Bytes} (short : chunks.flatten.length < size) :
    readExact .closed size chunks = .failed "connection closed before the complete message arrived" := by
  induction chunks generalizing size with
  | nil =>
    unfold readExact
    rw [if_neg (by rintro rfl; exact absurd short (by simp))]
  | cons chunk rest ih =>
    simp only [List.flatten_cons,List.length_append] at short
    unfold readExact
    rw [if_neg (by omega),if_neg (by omega),ih (by omega)]

namespace SessionServer
variable {B : Type} (server : SessionServer B)

/-- Successive calls of `receive_message` return these objects and leave the connection so. -/
inductive Receives : Peer → List Fields → Peer → Prop
  | nothing (peer : Peer) : Receives peer [] peer
  | next {peer last : Peer} {fields : Fields} {more : List Fields} {rest : List Bytes}
    (received : server.receiveMessage peer = .ok fields rest) (solid : ∀ chunk ∈ rest, chunk ≠ [])
    (later : Receives {peer with chunks := rest, solid} more last) : Receives peer (fields::more) last

/-- `json.loads` gives back what `encode_message` wrote. -/
def Inverts (fields : Fields) : Prop :=
  server.loads (messageBody (.obj fields)) = .ok (.obj (Json.orderedObject fields))

variable {server} {values : List Fields} {frames : List Bytes} {fields : Fields} {frame : Bytes}

theorem receiveMessage_frame (encoded : encodeMessage (.obj fields) = .ok frame) (inverts : server.Inverts fields)
    {peer : Peer} {behind : Bytes} (stream : peer.chunks.flatten = frame ++ behind) :
    ∃ rest, server.receiveMessage peer = .ok (Json.orderedObject fields) rest ∧ rest.flatten = behind ∧
      ∀ chunk ∈ rest, chunk ≠ [] := by
  obtain ⟨small,rfl⟩ := encodeMessage_frame encoded
  have representable : (messageBody (.obj fields)).length < 4294967296 := lt_of_le_of_lt small (by decide)
  rw [List.append_assoc] at stream
  obtain ⟨left,header,leftover⟩ := @readExact_enough peer.ending 4 peer.chunks (by
    rw [stream,List.length_append,length_packSize]
    omega)
  rw [stream,List.take_left' (length_packSize _)] at header
  rw [stream,List.drop_left' (length_packSize _)] at leftover
  obtain ⟨rest,body,remaining⟩ := @readExact_enough peer.ending (messageBody (.obj fields)).length left (by
    rw [leftover,List.length_append]
    omega)
  rw [leftover,List.take_left' rfl] at body
  rw [leftover,List.drop_left' rfl] at remaining
  refine ⟨rest,?_,remaining,readExact_solid (readExact_solid peer.solid header) body⟩
  unfold receiveMessage
  rw [header]
  dsimp only
  rw [unpackSize_packSize representable,if_neg (not_lt.mpr small),body]
  dsimp only
  rw [inverts]

theorem receives_stream (encoded : List.Forall₂ (fun fields frame => encodeMessage (.obj fields) = .ok frame) values frames)
    (inverts : ∀ fields ∈ values, server.Inverts fields) {peer : Peer} {behind : Bytes}
    (stream : peer.chunks.flatten = frames.flatten ++ behind) :
    ∃ last, server.Receives peer (values.map Json.orderedObject) last ∧ last.chunks.flatten = behind ∧
      last.ending = peer.ending := by
  induction encoded generalizing peer with
  | nil => exact ⟨peer,.nothing peer,stream,rfl⟩
  | @cons fields frame values frames first others ih =>
    rw [List.flatten_cons,List.append_assoc] at stream
    obtain ⟨rest,received,left,solid⟩ := receiveMessage_frame first (inverts fields List.mem_cons_self) stream
    obtain ⟨last,later,behind_,same⟩ := @ih (fun other member => inverts other (List.mem_cons_of_mem _ member))
      {peer with chunks := rest, solid} left
    exact ⟨last,.next received solid later,behind_,same⟩

theorem receiveMessage_cut (encoded : encodeMessage (.obj fields) = .ok frame) {peer : Peer} {cut : Bytes}
    (stream : peer.chunks.flatten = cut) (part : cut <+: frame) (proper : cut ≠ frame) (ends : peer.ending = .closed) :
    server.receiveMessage peer = .failed "connection closed before the complete message arrived" := by
  obtain ⟨small,rfl⟩ := encodeMessage_frame encoded
  have representable : (messageBody (.obj fields)).length < 4294967296 := lt_of_le_of_lt small (by decide)
  have shorter : cut.length < 4 + (messageBody (.obj fields)).length := by
    have bound := part.length_le
    rw [List.length_append,length_packSize] at bound
    rcases Nat.lt_or_eq_of_le bound with less | whole
    · exact less
    · exact absurd (part.eq_of_length (by rw [List.length_append,length_packSize,whole])) proper
  unfold receiveMessage
  rw [ends]
  by_cases header : cut.length < 4
  · rw [readExact_closed (by rw [stream]; exact header)]
  · obtain ⟨left,read,leftover⟩ := @readExact_enough .closed 4 peer.chunks (by rw [stream]; omega)
    have length : peer.chunks.flatten.take 4 = packSize (messageBody (.obj fields)).length := by
      rw [stream,List.prefix_iff_eq_take.mp part,List.take_take,Nat.min_eq_left (by omega),
        List.take_left' (length_packSize _)]
    have short : left.flatten.length < (messageBody (.obj fields)).length := by
      rw [leftover,stream,List.length_drop]
      omega
    rw [length] at read
    rw [read]
    dsimp only
    rw [unpackSize_packSize representable,if_neg (not_lt.mpr small),readExact_closed short]

/-- A stream of messages is received as it was sent, however it is cut into chunks: message after
message, each with its own bytes and no more, and none from a stream that ends inside it. -/
theorem framing_round_trip (encoded : List.Forall₂ (fun fields frame => encodeMessage (.obj fields) = .ok frame) values frames)
    (inverts : ∀ fields ∈ values, server.Inverts fields) :
    (∀ peer : Peer, peer.chunks.flatten = frames.flatten → ∀ n, ∃ last,
      server.Receives peer ((values.take n).map Json.orderedObject) last ∧ last.chunks.flatten = (frames.drop n).flatten) ∧
    ∀ (peer : Peer) (n : Nat) (frame cut : Bytes), frames[n]? = some frame → peer.ending = .closed →
      peer.chunks.flatten = (frames.take n).flatten ++ cut → cut <+: frame → cut ≠ frame →
      ∃ last, server.Receives peer ((values.take n).map Json.orderedObject) last ∧
        server.receiveMessage last = .failed "connection closed before the complete message arrived" := by
  have front (n : Nat) {peer : Peer} {behind : Bytes} (stream : peer.chunks.flatten = (frames.take n).flatten ++ behind) :=
    receives_stream (List.forall₂_take n encoded) (fun fields member => inverts fields (List.mem_of_mem_take member)) stream
  refine ⟨?_,?_⟩
  · intro peer stream n
    have split : peer.chunks.flatten = (frames.take n).flatten ++ (frames.drop n).flatten := by
      rw [stream,← List.flatten_append,List.take_append_drop]
    obtain ⟨last,received,left,_⟩ := front n split
    exact ⟨last,received,left⟩
  · intro peer n frame cut there ends stream part proper
    obtain ⟨last,received,left,same⟩ := front n stream
    obtain ⟨bound,own⟩ := List.getElem?_eq_some_iff.mp there
    have listed : n < values.length := by rw [encoded.length_eq]; exact bound
    have frameOf : encodeMessage (.obj values[n]) = .ok frame := own ▸ encoded.get listed bound
    exact ⟨last,received,receiveMessage_cut frameOf left part proper (same.trans ends)⟩

/-! Two messages that arrive in three pieces. -/

def asking : Fields := [("operation",.str "read.issue.get"),("id",.int 7)]

def leaving : Fields := [("operation",.str "session.close")]

def twoMessages : SessionServer Unit where
  expectedUid := 1000
  maxRequests := none
  loads body :=
    if body = messageBody (.obj asking) then .ok (.obj (Json.orderedObject asking))
    else if body = messageBody (.obj leaving) then .ok (.obj (Json.orderedObject leaving))
    else .error "Expecting value: line 1 column 1 (char 0)"
  handle _ _ := (.error "closed",())

def framed (fields : Fields) : Bytes := packSize (messageBody (.obj fields)).length ++ messageBody (.obj fields)

/-- The second piece has the end of one message and the start of the other. -/
def pieces : Peer where
  uid := .ok 1000
  chunks := [(framed asking).take 3,(framed asking).drop 3 ++ (framed leaving).take 2,(framed leaving).drop 2]
  solid := by decide +kernel
  ending := .closed
  sendall _ := .taken

theorem framing_round_trip_pieces : ∃ last,
    twoMessages.Receives pieces [[("id",.int 7),("operation",.str "read.issue.get")],[("operation",.str "session.close")]] last ∧
      last.chunks.flatten = [] := by
  have frame (fields : Fields) (small : (messageBody (.obj fields)).length ≤ maxMessage) :
      encodeMessage (.obj fields) = .ok (framed fields) := if_neg (not_lt.mpr small)
  have encoded : List.Forall₂ (fun fields frame => encodeMessage (.obj fields) = .ok frame) [asking,leaving]
      [framed asking,framed leaving] :=
    .cons (frame asking (by decide +kernel)) (.cons (frame leaving (by decide +kernel)) .nil)
  have inverts : ∀ fields ∈ [asking,leaving], twoMessages.Inverts fields := by
    intro fields member
    unfold Inverts twoMessages
    dsimp only
    rcases List.mem_cons.mp member with rfl | member
    · rw [if_pos rfl]
    · cases List.mem_singleton.mp member
      have apart : messageBody (.obj leaving) ≠ messageBody (.obj asking) := by decide +kernel
      rw [if_neg apart,if_pos rfl]
  have stream : pieces.chunks.flatten = [framed asking,framed leaving].flatten := by decide +kernel
  exact (framing_round_trip encoded inverts).1 pieces stream 2

end SessionServer
end SjgControl

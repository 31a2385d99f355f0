import SjgControl.Broker.Handle

/-! Reads that fail. The row of a read is forgotten by one of the exception handlers, so that the
request can be sent again under its key; the others leave the row or close it. -/
namespace SjgControl
open Relational Machine

namespace Call
variable {Facts : Type} {gate : Gate Facts} {c : Call} {db : Store} {outside : Outside Facts}

/-- A step is the next one of its way, or leaves it for an exception handler or a response. -/
theorem next_straight {n : Nat} (at_ : c.phase.rank = n + 1) :
    (c.next gate db outside).1.rank = n ∨ (c.next gate db outside).1.rank ≤ 2 := by
  have raised (session : Option Session) (applying : Bool) (e : Raised) :
      (c.caught session applying e).rank = n ∨ (c.caught session applying e).rank ≤ 2 :=
    .inr (c.caught_rank session applying e)
  unfold next
  cases phase : c.phase with
  | entered =>
    rw [phase] at at_
    dsimp only
    split
    next => exact raised _ _ _
    next =>
      split
      next => exact raised _ _ _
      next => exact .inl (Nat.succ.inj at_)
  | validated session =>
    rw [phase] at at_
    dsimp only
    split
    next => exact raised _ _ _
    next => exact .inr (Nat.zero_le _)
    next => exact .inl (Nat.succ.inj at_)
  | unseen session =>
    rw [phase] at at_
    dsimp only
    split
    next => exact raised _ _ _
    next =>
      split
      next => exact raised _ _ _
      next => exact .inl (Nat.succ.inj at_)
  | authorized session =>
    rw [phase] at at_
    dsimp only
    split
    next => exact raised _ _ _
    next => exact .inr (Nat.zero_le _)
    next => exact .inl (Nat.succ.inj at_)
  | reserved session =>
    rw [phase] at at_
    dsimp only
    split
    next => exact raised _ _ _
    next => exact .inl (Nat.succ.inj at_)
  | applying session =>
    rw [phase] at at_
    dsimp only
    split
    next => exact raised _ _ _
    next => exact .inl (Nat.succ.inj at_)
  | executed session result =>
    rw [phase] at at_
    dsimp only
    split
    next => exact raised _ _ _
    next => exact .inl (Nat.succ.inj at_)
  | recorded session result =>
    dsimp only
    split
    next message failure => exact raised (some session) true (.other message)
    next => exact .inr (Nat.zero_le _)
  | refusing session message => exact .inr (by simp [Phase.rank])
  | denying session message => exact .inr (Nat.zero_le _)
  | pending response => exact .inr (Nat.zero_le _)
  | abandoning response => exact .inr (Nat.zero_le _)
  | done response => exact .inr (Nat.zero_le _)

end Call

/-- A call that has reserved its key, or answers that it is done, finds a row under it. -/
def Phase.filed (db : Journal) (key : String) : Phase → Prop
  | .reserved _ | .applying _ | .executed _ _ | .recorded _ _ => ∃ row, db.requests.get key = some row
  | .pending response | .abandoning response => response.status ≠ "ok"
  | .done response => response.status = "ok" → ∃ row, db.requests.get key = some row
  | _ => True

namespace Call
variable {Facts : Type} {gate : Gate Facts} {c : Call} {db : Store} {outside : Outside Facts}

theorem caught_filed (journal : Journal) (session : Option Session) (applying : Bool) (e : Raised) :
    (c.caught session applying e).filed journal c.key := by
  cases e <;> simp only [caught]
  · split <;> exact trivial
  · simp [Phase.filed,reply]
  · split <;> simp [Phase.filed,reply]
  · split <;> simp [Phase.filed,reply]

theorem next_filed (filed : c.phase.filed db.journal c.key) :
    (c.next gate db outside).1.filed (c.next gate db outside).2 c.key := by
  unfold next
  cases at_ : c.phase with
  | entered =>
    dsimp only
    split
    next => exact c.caught_filed _ _ _ _
    next =>
      split
      next => exact c.caught_filed _ _ _ _
      next => exact trivial
  | validated session =>
    dsimp only
    split
    next => exact c.caught_filed _ _ _ _
    next prior found =>
      intro _
      have answered := guarded_ok found
      unfold Journal.priorRequest at answered
      split at answered
      next => cases answered
      next row held => exact ⟨row,held⟩
    next => exact trivial
  | unseen session =>
    dsimp only
    split
    next => exact c.caught_filed _ _ _ _
    next =>
      split
      next => exact c.caught_filed _ _ _ _
      next => exact trivial
  | authorized session =>
    dsimp only
    split
    next => exact c.caught_filed _ _ _ _
    next prior journal found =>
      intro _
      rcases Journal.reserveRequest_effect (guarded_ok found) with ⟨row,held,_,_,same⟩ | ⟨_,_,_,_,unanswered,_⟩
      · rw [same]
        exact ⟨row,held⟩
      · cases unanswered
    next journal found =>
      obtain ⟨row,held,_⟩ := Journal.get_reserveRequest (guarded_ok found)
      exact ⟨row,held⟩
  | reserved session =>
    rw [at_] at filed
    dsimp only
    split
    next => exact c.caught_filed _ _ _ _
    next journal found =>
      obtain ⟨row,held⟩ := filed
      have marked := Journal.get_markRequestApplying (guarded_ok found)
      rw [held] at marked
      exact ⟨_,marked⟩
  | applying session =>
    rw [at_] at filed
    dsimp only
    split
    next => exact c.caught_filed _ _ _ _
    next => exact filed
  | executed session result =>
    rw [at_] at filed
    dsimp only
    split
    next => exact c.caught_filed _ _ _ _
    next journal found =>
      obtain ⟨row,held⟩ := filed
      have written := Journal.get_finishRequest (guarded_ok found)
      rw [held] at written
      exact ⟨_,written⟩
  | recorded session result =>
    rw [at_] at filed
    dsimp only
    split
    next message failure => exact c.caught_filed _ (some session) true (.other message)
    next => exact fun _ => filed
  | refusing session message => exact trivial
  | denying session message => simp [Phase.filed,reply]
  | pending response =>
    rw [at_] at filed
    exact fun ok => absurd ok filed
  | abandoning response =>
    rw [at_] at filed
    exact fun ok => absurd ok filed
  | done response =>
    rw [at_] at filed
    exact filed

end Call

def Call.digest {Facts : Type} (gate : Gate Facts) (c : Call) : String := gate.sha256 (gate.canonical c.arguments)

def Call.mine {Facts : Type} (gate : Gate Facts) (c : Call) (row : BrokerRequest) : Prop :=
  row.sessionId = c.sessionId ∧ row.operation = c.operation ∧ row.argumentsHash = c.digest gate

namespace Handling
variable {B Facts : Type} {gate : Gate Facts} {backend : BackendProtocol B Facts}

theorem consult_spent {h : Handling B} (spent : h.call.phase.rank ≤ 4) :
    consult gate backend h = (.ok gate.noFacts,.ok .null,h.backend,[]) := by
  unfold consult
  cases at_ : h.call.phase with
  | unseen session =>
    rw [at_] at spent
    simp [Phase.rank] at spent
  | applying session =>
    rw [at_] at spent
    simp [Phase.rank] at spent
  | _ => rfl

theorem drive_spent {h : Handling B} (spent : h.call.phase.rank ≤ 4) (n : Nat) (moments : Nat → Juncture) :
    (drive gate backend n moments h).asked = h.asked := by
  induction n generalizing moments h with
  | zero => rfl
  | succ n ih =>
    have later : (advance gate backend h (moments 0)).call.phase.rank ≤ 4 :=
      (advance_rank gate backend h (moments 0)).trans (by omega)
    have rest := ih later (fun i => moments (i + 1))
    refine rest.trans ?_
    simp only [advance,consult_spent spent,List.append_nil]

/-- A read on its way to its execution: nothing is asked, and the row that it has reserved is its
own. -/
structure Reading (gate : Gate Facts) (h : Handling B) : Prop where
  unasked : h.asked = []
  reserved : h.call.phase.rank = 6 ∨ h.call.phase.rank = 5 →
    ∃ row ∈ h.store.journal.requests.get h.call.key, h.call.mine gate row

theorem reserved_mine {db next : Journal} {sessions : Table WakeSession} {c : Call} {now : Instant}
    (ok : db.reserveRequest sessions c.sessionId c.key c.operation (c.digest gate) (gate.canonical c.arguments) now =
      .ok (none,next)) : ∃ row ∈ next.requests.get c.key, c.mine gate row := by
  rcases Journal.reserveRequest_effect ok with ⟨_,_,_,answered,_⟩ | ⟨_,_,requests,inserted,_,rfl⟩
  · cases answered
  · exact ⟨_,(Table.get_insert inserted c.key).trans (if_pos rfl),rfl,rfl,rfl⟩

theorem Reading.advance {h : Handling B} (reading : Reading gate h) (read : h.call.operation ∈ readOperations)
    (early : 5 < h.call.phase.rank) (m : Juncture) : Reading gate (h.advance gate backend m) := by
  have listed : h.call.operation ∈ readOperations ++ repositoryOperations ++ workerOperations :=
    List.mem_append_left _ (List.mem_append_left _ read)
  have silent : consult gate backend h = (.ok gate.noFacts,.ok .null,h.backend,[]) := by
    unfold consult
    cases at_ : h.call.phase with
    | unseen session => simp only [if_pos listed]
    | applying session =>
      rw [at_] at early
      simp [Phase.rank] at early
    | _ => rfl
  refine ⟨?_,?_⟩
  · simp only [Handling.advance,silent,reading.unasked,List.append_nil]
  intro now
  simp only [Handling.advance,silent] at now ⊢
  have straight := @Call.next_straight Facts gate h.call h.store ⟨m.now,m.failure,.ok gate.noFacts,.ok .null⟩
  cases at_ : h.call.phase with
  | entered =>
    rcases @straight 9 (congrArg Phase.rank at_) with rank | rank <;> omega
  | validated session =>
    rcases @straight 8 (congrArg Phase.rank at_) with rank | rank <;> omega
  | unseen session =>
    rcases @straight 7 (congrArg Phase.rank at_) with rank | rank <;> omega
  | authorized session =>
    unfold Call.next at now ⊢
    rw [at_] at now ⊢
    dsimp only at now ⊢
    split at now
    next e _ =>
      have low := h.call.caught_rank (some session) false e
      dsimp only at now
      omega
    next => simp [Phase.rank] at now
    next journal ok => exact reserved_mine (Call.guarded_ok ok)
  | reserved session =>
    obtain ⟨row,held,mine⟩ := reading.reserved (.inl (congrArg Phase.rank at_))
    unfold Call.next at now ⊢
    rw [at_] at now ⊢
    dsimp only at now ⊢
    split at now
    next e _ =>
      have low := h.call.caught_rank (some session) false e
      dsimp only at now
      omega
    next journal ok =>
      have marked := Journal.get_markRequestApplying (Call.guarded_ok ok)
      rw [Option.mem_def.mp held] at marked
      exact ⟨_,marked,mine⟩
  | _ =>
    rw [at_] at early
    simp [Phase.rank] at early

/-- Five steps bring a read to its execution, unless it has left its way. -/
theorem Reading.drive {h : Handling B} (reading : Reading gate h) (read : h.call.operation ∈ readOperations) (n : Nat)
    (rank : h.call.phase.rank = 5 + n ∨ h.call.phase.rank ≤ 2) (moments : Nat → Juncture) :
    let k := Handling.drive gate backend n moments h
    k.asked = [] ∧ (k.call.phase.rank ≤ 2 ∨
      k.call.phase.rank = 5 ∧ ∃ row ∈ k.store.journal.requests.get h.call.key, h.call.mine gate row) := by
  induction n generalizing moments h with
  | zero =>
    refine ⟨reading.unasked,?_⟩
    rcases rank with five | low
    · exact .inr ⟨five,reading.reserved (.inr five)⟩
    · exact .inl low
  | succ n ih =>
    rcases rank with high | low
    · have next := @Reading.advance B Facts gate backend h reading read (by omega) (moments 0)
      have straight : (Handling.advance gate backend h (moments 0)).call.phase.rank = 5 + n ∨
          (Handling.advance gate backend h (moments 0)).call.phase.rank ≤ 2 := Call.next_straight high
      exact ih next read straight (fun i => moments (i + 1))
    · refine ⟨(drive_spent (by omega) (n + 1) moments).trans reading.unasked,.inl ?_⟩
      exact (drive_rank gate backend (n + 1) moments h).trans (by omega)

/-- The call `c` in an exception handler or over, where it holds a row and will not forget it. -/
structure Kept (gate : Gate Facts) (c : Call) (h : Handling B) : Prop where
  same : h.call = {c with phase := h.call.phase}
  low : h.call.phase.rank ≤ 2
  keeps : h.call.phase.forgetting = false
  held : ∃ row ∈ h.store.journal.requests.get c.key, c.mine gate row

theorem finished_mine {db next : Journal} {c : Call} {state : RequestState} {response : Response} {now : Instant}
    (ok : db.finishRequest c.key state response now = .ok ((),next))
    (held : ∃ row ∈ db.requests.get c.key, c.mine gate row) : ∃ row ∈ next.requests.get c.key, c.mine gate row := by
  obtain ⟨row,found,mine⟩ := held
  have written := Journal.get_finishRequest ok
  rw [Option.mem_def.mp found] at written
  exact ⟨_,written,mine⟩

theorem Kept.advance {c : Call} {h : Handling B} (kept : Kept gate c h) (m : Juncture) :
    Kept gate c (h.advance gate backend m) := by
  obtain ⟨same,low,keeps,held⟩ := kept
  have key : h.call.key = c.key := by rw [same]
  refine ⟨?_,(advance_rank gate backend h m).trans (by omega),?_,?_⟩
  · exact congrArg (fun d => {d with phase := (h.advance gate backend m).call.phase}) same
  · unfold Handling.advance Call.next
    cases at_ : h.call.phase with
    | refusing | denying | pending | done => rfl
    | abandoning response =>
      rw [at_] at keeps
      cases keeps
    | _ =>
      rw [at_] at low
      simp [Phase.rank] at low
  · unfold Handling.advance Call.next
    cases at_ : h.call.phase with
    | refusing session message =>
      dsimp only
      rw [key]
      split
      next => exact held
      next journal ok => exact finished_mine (Call.guarded_ok ok) held
    | denying session message =>
      dsimp only
      split <;> exact held
    | pending response =>
      dsimp only
      rw [key]
      split
      next => exact held
      next journal ok => exact finished_mine (Call.guarded_ok ok) held
    | done response => exact held
    | abandoning response =>
      rw [at_] at keeps
      cases keeps
    | _ =>
      rw [at_] at low
      simp [Phase.rank] at low

theorem Kept.drive {c : Call} {h : Handling B} (kept : Kept gate c h) (n : Nat) (moments : Nat → Juncture) :
    Kept gate c (Handling.drive gate backend n moments h) := by
  induction n generalizing moments h with
  | zero => exact kept
  | succ n ih => exact ih (kept.advance (moments 0)) (fun i => moments (i + 1))

theorem drive_done {h : Handling B} {response : Response} (over_ : h.call.phase = .done response) (n : Nat)
    (moments : Nat → Juncture) : drive gate backend n moments h = h := by
  induction n generalizing moments with
  | zero => rfl
  | succ n ih =>
    have still : advance gate backend h (moments 0) = h := by
      obtain ⟨store,b,call,asked⟩ := h
      dsimp only at over_
      simp [advance,consult,Call.next,over_]
      rw [← over_]
    rw [Handling.drive,still]
    exact ih (fun i => moments (i + 1))

/-- A call at its execution, where nothing has been asked and its row is its own. -/
structure Executing (gate : Gate Facts) (h : Handling B) (session : Session) : Prop where
  phase : h.call.phase = .applying session
  unasked : h.asked = []
  held : ∃ row ∈ h.store.journal.requests.get h.call.key, h.call.mine gate row

def answer (backend : BackendProtocol B Facts) (h : Handling B) (session : Session) : Except Raised Json :=
  (backend.execute h.backend h.call.operation h.call.arguments session h.call.key).1

theorem asked_applying {h : Handling B} {session : Session} (at_ : h.call.phase = .applying session)
    (unasked : h.asked = []) (n : Nat) (moments : Nat → Juncture) : (drive gate backend (n + 1) moments h).asked =
      [⟨.execute h.call.operation h.call.arguments session h.call.key,raisedBy (answer backend h session)⟩] := by
  have low : (advance gate backend h (moments 0)).call.phase.rank ≤ 4 := by
    have less := advance_rank gate backend h (moments 0)
    rw [at_] at less
    exact less
  refine (drive_spent low n (fun i => moments (i + 1))).trans ?_
  simp only [advance,consult,at_,unasked,List.nil_append,answer]

theorem Executing.raised {h : Handling B} {session : Session} (executing : Executing gate h session) {e : Raised}
    (failed : answer backend h session = .error e) (m : Juncture) :
    (Handling.advance gate backend h m).store = h.store ∧
      (Handling.advance gate backend h m).call = {h.call with phase := h.call.caught (some session) true e} := by
  unfold answer at failed
  simp only [Handling.advance,consult,executing.phase,Call.next,failed,and_self]

theorem advance_abandoning {h : Handling B} {response : Response} (at_ : h.call.phase = .abandoning response) (m : Juncture) :
    (advance gate backend h m).call.phase = .done response ∧
      (advance gate backend h m).store.journal =
        match m.failure with
        | some _ => h.store.journal
        | none => h.store.journal.abandonReadRequest h.call.key := by
  cases failed : m.failure <;> simp only [advance,Call.next,at_,failed,and_self]

/-- What is left of a read whose execution raised: its row is gone if the exception is none of
those with a handler of their own and the database serves the handler, and stands otherwise. -/
theorem Executing.row {h : Handling B} {session : Session} (executing : Executing gate h session)
    (read : h.call.operation ∈ readOperations) {e : Raised} (failed : answer backend h session = .error e)
    (n : Nat) (moments : Nat → Juncture) :
    let after := (Handling.drive gate backend (n + 2) moments h).store.journal.requests.get h.call.key
    ((∃ message, e = .other message) ∧ (moments 1).failure = none → after = none) ∧
      (¬ ((∃ message, e = .other message) ∧ (moments 1).failure = none) → ∃ row ∈ after, h.call.mine gate row) := by
  obtain ⟨store,call⟩ := executing.raised failed (moments 0)
  have held := executing.held
  by_cases other : ∃ message, e = .other message
  · obtain ⟨message,rfl⟩ := other
    have at_ : (Handling.advance gate backend h (moments 0)).call.phase =
        .abandoning (reply "retryable" (some message) none) := by
      rw [call]
      simp [Call.caught,read]
    obtain ⟨done,journal⟩ := @advance_abandoning B Facts gate backend _ _ at_ (moments 1)
    have still : Handling.drive gate backend (n + 2) moments h =
        Handling.advance gate backend (Handling.advance gate backend h (moments 0)) (moments 1) :=
      drive_done done n (fun i => moments (i + 1 + 1))
    rw [still,journal,store,call]
    dsimp only
    cases failure : (moments 1).failure with
    | some text => exact ⟨fun both => (by cases both.2),fun _ => held⟩
    | none =>
      refine ⟨fun _ => ?_,fun never => absurd ⟨⟨message,rfl⟩,rfl⟩ never⟩
      obtain ⟨row,found,_,operation,_⟩ := held
      have own : row.idempotencyKey = h.call.key := (Table.get_eq_some.mp found).2
      dsimp only
      unfold Journal.abandonReadRequest
      rw [Table.get_delete,Option.mem_def.mp found]
      simp [own,operation,read]
  · have kept : Kept gate h.call (Handling.advance gate backend h (moments 0)) := by
      refine ⟨by rw [call],?_,?_,by rwa [store]⟩
      · rw [call]
        exact h.call.caught_rank (some session) true e
      · rw [call]
        cases e with
        | authorization | state | timeout => rfl
        | other message => exact absurd ⟨message,rfl⟩ other
    refine ⟨fun both => absurd both.1 other,fun _ => ?_⟩
    exact (kept.drive (n + 1) (fun i => moments (i + 1))).held

/-- A call answered without its execution, over a row that stays as it is. -/
structure Replayed (key : String) (r : BrokerRequest) (h : Handling B) : Prop where
  unasked : h.asked = []
  phase : (∃ session message, h.call.phase = .denying session message) ∨ ∃ response, h.call.phase = .done response
  row : h.store.journal.requests.get key = some r

theorem Replayed.advance {key : String} {r : BrokerRequest} {h : Handling B} (replayed : Replayed key r h) (m : Juncture) :
    Replayed key r (h.advance gate backend m) := by
  obtain ⟨unasked,phase,row⟩ := replayed
  rcases phase with ⟨session,message,at_⟩ | ⟨response,at_⟩
  · refine ⟨?_,.inr ⟨reply "denied" (some message) none,?_⟩,?_⟩
    · simp only [Handling.advance,consult,at_,unasked,List.append_nil]
    · simp only [Handling.advance,Call.next,at_]
    · simp only [Handling.advance,Call.next,at_]
      cases m.failure <;> exact row
  · refine ⟨?_,.inr ⟨response,?_⟩,?_⟩
    · simp only [Handling.advance,consult,at_,unasked,List.append_nil]
    · simp only [Handling.advance,Call.next,at_]
    · simp only [Handling.advance,Call.next,at_]
      exact row

theorem Replayed.drive {key : String} {r : BrokerRequest} {h : Handling B} (replayed : Replayed key r h) (n : Nat)
    (moments : Nat → Juncture) : Replayed key r (Handling.drive gate backend n moments h) := by
  induction n generalizing moments h with
  | zero => exact replayed
  | succ n ih => exact ih (replayed.advance (moments 0)) (fun i => moments (i + 1))

/-- The database serves the two lookups of a call, and no check raises what is caught by the last
handler. -/
structure Calm (gate : Gate Facts) (db : Store) (c : Call) (moments : Nat → Juncture) : Prop where
  session : (moments 0).failure = none
  prior : (moments 1).failure = none
  validate : ∀ session, db.runtime.session c.sessionId (moments 0).now = .ok session →
    ∀ message, gate.validateRequest session c.operation c.arguments ≠ .error (.other message)

theorem session_refused {db : Runtime} {sessionId : String} {now : Instant} {e : StoreError}
    (refused : db.session sessionId now = .error e) : ∃ message, e = .stateError message := by
  simp only [Runtime.session,fetch_bind_error,require_bind_error,pure_error,and_false,or_false] at refused
  rcases refused with ⟨_,equal⟩ | ⟨_,_,_,equal⟩
  · exact ⟨_,equal.symm⟩
  · exact ⟨_,equal.symm⟩

theorem priorRequest_answers {db : Journal} {sessionId key operation hash : String} {row : BrokerRequest}
    (held : db.requests.get key = some row) :
    (∃ prior, db.priorRequest sessionId key operation hash = .ok (some prior)) ∨
      ∃ message, db.priorRequest sessionId key operation hash = .error (.stateError message) := by
  unfold Journal.priorRequest
  rw [held]
  by_cases own : (row.sessionId,row.operation,row.argumentsHash) = (sessionId,operation,hash)
  · exact .inl ⟨_,require_bind_ok.mpr ⟨own,pure_ok.mpr rfl⟩⟩
  · exact .inr ⟨_,require_bind_error.mpr (.inl ⟨own,rfl⟩)⟩

theorem advance_entered {db : Store} {b : B} {c : Call} (at_ : c.phase = .entered) {r : BrokerRequest}
    (row : db.journal.requests.get c.key = some r) {moments : Nat → Juncture} (calm : Calm gate db c moments) :
    Replayed c.key r (advance gate backend ⟨db,b,c,[]⟩ (moments 0)) ∨
      ∃ session, advance gate backend ⟨db,b,c,[]⟩ (moments 0) = ⟨db,b,{c with phase := .validated session},[]⟩ := by
  simp only [advance,consult,at_,Call.next,Call.guarded,calm.session]
  cases found : db.runtime.session c.sessionId (moments 0).now with
  | error e =>
    obtain ⟨message,rfl⟩ := session_refused found
    exact .inl ⟨rfl,.inr ⟨_,rfl⟩,row⟩
  | ok session =>
    dsimp only
    cases checked : gate.validateRequest session c.operation c.arguments with
    | ok done => exact .inr ⟨session,rfl⟩
    | error e =>
      left
      cases e with
      | authorization message => exact ⟨rfl,.inl ⟨some session,message,rfl⟩,row⟩
      | state message => exact ⟨rfl,.inr ⟨_,rfl⟩,row⟩
      | timeout message => exact ⟨rfl,.inr ⟨_,rfl⟩,row⟩
      | other message => exact absurd checked (calm.validate session found message)

theorem advance_validated {db : Store} {b : B} {c : Call} {session : Session} {r : BrokerRequest}
    (row : db.journal.requests.get c.key = some r) {m : Juncture} (calm : m.failure = none) :
    Replayed c.key r (advance gate backend ⟨db,b,{c with phase := .validated session},[]⟩ m) := by
  simp only [advance,consult,Call.next,Call.guarded,calm]
  rcases @priorRequest_answers db.journal c.sessionId c.key c.operation
      (gate.sha256 (gate.canonical c.arguments)) r row with ⟨prior,answered⟩ | ⟨message,refused⟩
  · rw [answered]
    exact ⟨rfl,.inr ⟨_,rfl⟩,row⟩
  · rw [refused]
    exact ⟨rfl,.inr ⟨_,rfl⟩,row⟩

theorem handle_replayed {db : Store} {b : B} {sessionId : String} {request : Fields} {moments : Nat → Juncture}
    {r : BrokerRequest} (row : db.journal.requests.get (Call.intake gate sessionId request).key = some r)
    (calm : Calm gate db (.intake gate sessionId request) moments) :
    Replayed (Call.intake gate sessionId request).key r (handle gate backend db b sessionId request moments) := by
  unfold handle
  rcases (Call.intake_begins gate sessionId request).2 with at_ | ⟨response,at_,_⟩
  · have second := @advance_entered B Facts gate backend db b _ at_ r row moments calm
    rw [drive_add gate backend 1 9]
    change Replayed _ r (Handling.drive gate backend 9 (fun i => moments (i + 1)) (Handling.advance gate backend _ (moments 0)))
    rcases second with replayed | ⟨session,validated⟩
    · exact replayed.drive 9 (fun i => moments (i + 1))
    · rw [validated,drive_add gate backend 1 8]
      have third := @advance_validated B Facts gate backend db b _ session r row (moments 1) calm.prior
      exact third.drive 8 (fun i => moments (i + 1 + 1))
  · have begun : Replayed (Call.intake gate sessionId request).key r
        (⟨db,b,.intake gate sessionId request,[]⟩ : Handling B) := ⟨rfl,.inr ⟨response,at_⟩,row⟩
    exact begun.drive 10 moments

/-- A request whose session is active and whose arguments are accepted, with the database serving. -/
structure Serving (gate : Gate Facts) (db : Store) (c : Call) (moments : Nat → Juncture) (session : Session) : Prop where
  active : db.runtime.session c.sessionId (moments 0).now = .ok session
  validates : gate.validateRequest session c.operation c.arguments = .ok ()
  authorizes : gate.authorize session c.operation c.arguments gate.noFacts = .ok ()
  database : ∀ i, (moments i).failure = none

theorem Serving.calm {db : Store} {c : Call} {moments : Nat → Juncture} {session : Session}
    (serving : Serving gate db c moments session) : Calm gate db c moments := by
  refine ⟨serving.database 0,serving.database 1,?_⟩
  intro other active message
  rw [← Except.ok.inj (serving.active.symm.trans active),serving.validates]
  rintro ⟨⟩

theorem session_known {db : Runtime} {sessionId : String} {now : Instant} {session : Session}
    (active : db.session sessionId now = .ok session) : db.sessions.get sessionId ≠ none := by
  simp only [Runtime.session,fetch_bind_ok] at active
  obtain ⟨row,found,_⟩ := active
  intro absent
  rw [absent] at found
  cases found

theorem handle_executes {db : Store} {b : B} {c : Call} (at_ : c.phase = .entered) (read : c.operation ∈ readOperations)
    (vacant : db.journal.requests.get c.key = none) {moments : Nat → Juncture} {session : Session}
    (serving : Serving gate db c moments session) :
    ∃ journal, drive gate backend 5 moments ⟨db,b,c,[]⟩ =
      ⟨{db with journal},b,{c with phase := .applying session},[]⟩ := by
  have listed : c.operation ∈ readOperations ++ repositoryOperations ++ workerOperations :=
    List.mem_append_left _ (List.mem_append_left _ read)
  have first : advance gate backend ⟨db,b,c,[]⟩ (moments 0) = ⟨db,b,{c with phase := .validated session},[]⟩ := by
    simp [advance,consult,at_,Call.next,Call.guarded,serving.database,serving.active,serving.validates]
  have second : advance gate backend ⟨db,b,{c with phase := .validated session},[]⟩ (moments 1) =
      ⟨db,b,{c with phase := .unseen session},[]⟩ := by
    simp [advance,consult,Call.next,Call.guarded,serving.database,Journal.priorRequest,vacant,pure,Except.pure]
  have third : advance gate backend ⟨db,b,{c with phase := .unseen session},[]⟩ (moments 2) =
      ⟨db,b,{c with phase := .authorized session},[]⟩ := by
    simp only [advance,consult,Call.next,if_pos listed,serving.authorizes,List.append_nil]
  have present := session_known serving.active
  let row : BrokerRequest := ⟨c.key,c.sessionId,c.operation,gate.sha256 (gate.canonical c.arguments),
    gate.canonical c.arguments,.reserved,none,(moments 3).now.isoText,(moments 3).now.isoText⟩
  obtain ⟨requests,inserted⟩ := Table.insert_of_fresh (show db.journal.requests.get (Keyed.key row) = none from vacant)
  have written : requests.get c.key = some row := (Table.get_insert inserted c.key).trans (if_pos rfl)
  have fourth : advance gate backend ⟨db,b,{c with phase := .authorized session},[]⟩ (moments 3) =
      ⟨{db with journal := {db.journal with requests}},b,{c with phase := .reserved session},[]⟩ := by
    have reserved : db.journal.reserveRequest db.runtime.sessions c.sessionId c.key c.operation
        (gate.sha256 (gate.canonical c.arguments)) (gate.canonical c.arguments) (moments 3).now =
          .ok (none,{db.journal with requests}) := by
      unfold Journal.reserveRequest
      rw [vacant]
      simp only [require_bind_ok,fetch_bind_ok,pure_ok]
      exact ⟨present,requests,inserted,rfl⟩
    simp only [advance,consult,Call.next,Call.guarded,serving.database,reserved,List.append_nil]
  obtain ⟨journal,marked⟩ : ∃ journal, Journal.markRequestApplying {db.journal with requests} c.key (moments 4).now =
      .ok ((),journal) := by
    unfold Journal.markRequestApplying
    exact ⟨_,require_bind_ok.mpr ⟨by simp [written,row],pure_ok.mpr rfl⟩⟩
  refine ⟨journal,?_⟩
  have fifth : advance gate backend
      ⟨{db with journal := {db.journal with requests}},b,{c with phase := .reserved session},[]⟩ (moments 4) =
        ⟨{db with journal},b,{c with phase := .applying session},[]⟩ := by
    simp only [advance,consult,Call.next,Call.guarded,serving.database,marked,List.append_nil]
  change advance gate backend (advance gate backend (advance gate backend (advance gate backend
    (advance gate backend ⟨db,b,c,[]⟩ (moments 0)) (moments 1)) (moments 2)) (moments 3)) (moments 4) = _
  rw [first,second,third,fourth,fifth]

/-- How a read comes to its end: it is not executed, or it is at its execution after five steps. -/
theorem handle_reads {db : Store} {b : B} {sessionId : String} {request : Fields} (moments : Nat → Juncture)
    (read : (Call.intake gate sessionId request).operation ∈ readOperations) :
    (handle gate backend db b sessionId request moments).asked = [] ∨
      ∃ session, Executing gate (drive gate backend 5 moments ⟨db,b,.intake gate sessionId request,[]⟩) session := by
  have fresh : Reading gate (⟨db,b,.intake gate sessionId request,[]⟩ : Handling B) := by
    refine ⟨rfl,?_⟩
    intro late
    rcases (Call.intake_begins gate sessionId request).2 with at_ | ⟨response,at_,_⟩
    · simp [at_,Phase.rank] at late
    · simp [at_,Phase.rank] at late
  have rank : (Call.intake gate sessionId request).phase.rank = 5 + 5 ∨ (Call.intake gate sessionId request).phase.rank ≤ 2 := by
    rcases (Call.intake_begins gate sessionId request).2 with at_ | ⟨response,at_,_⟩
    · exact .inl (congrArg Phase.rank at_)
    · exact .inr ((congrArg Phase.rank at_).le.trans (Nat.zero_le _))
  obtain ⟨unasked,low | ⟨five,held⟩⟩ := @Reading.drive B Facts gate backend _ fresh read 5 rank moments
  · left
    unfold handle
    rw [drive_add gate backend 5 5]
    exact (drive_spent (by omega) 5 _).trans unasked
  · right
    have kept := drive_identity gate backend 5 moments ⟨db,b,.intake gate sessionId request,[]⟩
    generalize drive gate backend 5 moments ⟨db,b,.intake gate sessionId request,[]⟩ = k at unasked five held kept ⊢
    cases at_ : k.call.phase with
    | applying session =>
      refine ⟨session,at_,unasked,?_⟩
      rw [kept]
      exact held
    | _ =>
      rw [at_] at five
      cases five

theorem drive_filed {h : Handling B} (filed : h.call.phase.filed h.store.journal h.call.key) (n : Nat)
    (moments : Nat → Juncture) :
    (drive gate backend n moments h).call.phase.filed (drive gate backend n moments h).store.journal h.call.key := by
  induction n generalizing moments h with
  | zero => exact filed
  | succ n ih =>
    have next : (advance gate backend h (moments 0)).call.phase.filed (advance gate backend h (moments 0)).store.journal
        (advance gate backend h (moments 0)).call.key := Call.next_filed filed
    exact ih next (fun i => moments (i + 1))

theorem filed_response {h : Handling B} {key : String} (filed : h.call.phase.filed h.store.journal key)
    {answer : Response} (answered : h.response = some answer) (ok : answer.status = "ok") :
    ∃ row, h.store.journal.requests.get key = some row := by
  unfold Handling.response at answered
  split at answered
  next last at_ =>
    rw [at_,Option.some.inj answered] at filed
    exact filed ok
  next => cases answered

theorem intake_filed (gate : Gate Facts) (journal : Journal) (sessionId : String) (request : Fields) :
    (Call.intake gate sessionId request).phase.filed journal (Call.intake gate sessionId request).key := by
  rcases (Call.intake_begins gate sessionId request).2 with at_ | ⟨response,at_,_,denied⟩
  · rw [at_]
    exact trivial
  · rw [at_]
    intro ok
    rw [denied] at ok
    exact absurd ok (by decide)

theorem handle_filed {db : Store} {b : B} {sessionId : String} {request : Fields} {moments : Nat → Juncture}
    {answer : Response} (answered : (handle gate backend db b sessionId request moments).response = some answer)
    (ok : answer.status = "ok") :
    ∃ row, (handle gate backend db b sessionId request moments).store.journal.requests.get
      (Call.intake gate sessionId request).key = some row := by
  have begun := intake_filed gate db.journal sessionId request
  unfold handle at answered ⊢
  generalize 10 = n at answered ⊢
  exact filed_response (drive_filed begun n moments) answered ok

theorem handle_runtime (db : Store) (b : B) (sessionId : String) (request : Fields) (moments : Nat → Juncture) :
    (handle gate backend db b sessionId request moments).store.runtime = db.runtime := by
  have driven (n : Nat) (moments : Nat → Juncture) (h : Handling B) :
      (drive gate backend n moments h).store.runtime = h.store.runtime := by
    induction n generalizing moments h with
    | zero => rfl
    | succ n ih => exact ih (fun i => moments (i + 1)) (advance gate backend h (moments 0))
  unfold handle
  exact driven 10 moments ⟨db,b,.intake gate sessionId request,[]⟩

theorem handle_others {db : Store} {b : B} {sessionId : String} {request : Fields} {moments : Nat → Juncture}
    {key : String} (apart : (Call.intake gate sessionId request).key ≠ key) :
    (handle gate backend db b sessionId request moments).store.journal.requests.get key = db.journal.requests.get key := by
  have driven (n : Nat) (moments : Nat → Juncture) (h : Handling B) (own : h.call.key ≠ key) :
      (drive gate backend n moments h).store.journal.requests.get key = h.store.journal.requests.get key := by
    induction n generalizing moments h with
    | zero => rfl
    | succ n ih =>
      have next : (advance gate backend h (moments 0)).store.journal.requests.get key =
          h.store.journal.requests.get key := Call.next_others (Ne.symm own)
      exact (ih (fun i => moments (i + 1)) (advance gate backend h (moments 0)) own).trans next
  unfold handle
  exact driven 10 moments ⟨db,b,.intake gate sessionId request,[]⟩ apart

theorem handle_raised {db : Store} {b : B} {sessionId : String} {request : Fields} {moments : Nat → Juncture}
    (read : (Call.intake gate sessionId request).operation ∈ readOperations) {call : BackendCall} {e : Raised}
    (raised : ⟨call,some e⟩ ∈ (handle gate backend db b sessionId request moments).asked) :
    let after := (handle gate backend db b sessionId request moments).store.journal.requests.get
      (Call.intake gate sessionId request).key
    ((∃ message, e = .other message) ∧ (moments 6).failure = none → after = none) ∧
      (¬ ((∃ message, e = .other message) ∧ (moments 6).failure = none) → ∃ row, after = some row) := by
  rcases @handle_reads B Facts gate backend db b sessionId request moments read with unasked | ⟨session,executing⟩
  · rw [unasked] at raised
    cases raised
  have same := drive_identity gate backend 5 moments ⟨db,b,.intake gate sessionId request,[]⟩
  unfold handle at raised ⊢
  rw [drive_add gate backend 5 5] at raised ⊢
  generalize drive gate backend 5 moments ⟨db,b,.intake gate sessionId request,[]⟩ = k at raised executing same ⊢
  rw [asked_applying executing.phase executing.unasked 4,List.mem_singleton] at raised
  have failed : answer backend k session = .error e := by
    have outcome := (Asked.mk.inj raised).2
    cases result : answer backend k session with
    | ok value =>
      rw [result] at outcome
      cases outcome
    | error other =>
      rw [result] at outcome
      rw [Option.some.inj outcome]
  have key : k.call.key = (Call.intake gate sessionId request).key := by rw [same]
  have operation : k.call.operation = (Call.intake gate sessionId request).operation := by rw [same]
  have row := executing.row (by rwa [operation]) failed 3 (fun i => moments (i + 5))
  rw [key] at row
  refine ⟨row.1,fun never => ?_⟩
  obtain ⟨held,found,_⟩ := row.2 never
  exact ⟨held,found⟩

theorem handle_entered {db : Store} {b : B} {sessionId : String} {request : Fields} {moments : Nat → Juncture} {a : Asked}
    (asked : a ∈ (handle gate backend db b sessionId request moments).asked) :
    (Call.intake gate sessionId request).phase = .entered := by
  rcases (Call.intake_begins gate sessionId request).2 with at_ | ⟨response,at_,_⟩
  · exact at_
  · have still := @drive_done B Facts gate backend ⟨db,b,.intake gate sessionId request,[]⟩ response at_ 10 moments
    unfold handle at asked
    rw [still] at asked
    cases asked

theorem handle_again {db : Store} {b : B} {sessionId : String} {request : Fields} {moments : Nat → Juncture}
    (at_ : (Call.intake gate sessionId request).phase = .entered)
    (read : (Call.intake gate sessionId request).operation ∈ readOperations)
    (vacant : db.journal.requests.get (Call.intake gate sessionId request).key = none) {session : Session}
    (serving : Serving gate db (.intake gate sessionId request) moments session) :
    let c := Call.intake gate sessionId request
    (handle gate backend db b sessionId request moments).asked = [⟨.execute c.operation c.arguments session c.key,
      raisedBy (backend.execute b c.operation c.arguments session c.key).1⟩] := by
  obtain ⟨journal,reached⟩ := @handle_executes B Facts gate backend db b _ at_ read vacant moments session serving
  unfold handle
  rw [drive_add gate backend 5 5,reached,asked_applying rfl rfl 4]
  rfl

end Handling

/-- What happens at a broker: a request is handled, or another part of the controller acts. -/
inductive Visit where
  | request (sessionId : String) (request : Fields) (moments : Nat → Juncture)
  | elsewhere (op : Op)

structure Reception (B : Type) where
  store : Store
  backend : B

namespace Reception
variable {B Facts : Type} (gate : Gate Facts) (backend : BackendProtocol B Facts)

def step (s : Reception B) : Visit → Reception B
  | .request sessionId request moments =>
    let h := Handling.handle gate backend s.store s.backend sessionId request moments
    ⟨h.store,h.backend⟩
  | .elsewhere op => if op.elsewhere then {s with store := s.store.step op} else s

def executes (key : String) (t : Transition (Reception B) Visit) : Prop :=
  match t.action with
  | .request sessionId request moments =>
    (Call.intake gate sessionId request).key = key ∧
      ∃ a ∈ (Handling.handle gate backend t.before.store t.before.backend sessionId request moments).asked, a.executes
  | .elsewhere _ => False

def Apart (gate : Gate Facts) (key : String) : Visit → Prop
  | .request sessionId request _ => (Call.intake gate sessionId request).key ≠ key
  | .elsewhere _ => True

/-- Requests under the key find their row: see `Handling.Calm`. -/
def calm (gate : Gate Facts) (key : String) (s : Reception B) : Visit → Prop
  | .request sessionId request moments => (Call.intake gate sessionId request).key = key →
      Handling.Calm gate s.store (Call.intake gate sessionId request) moments
  | .elsewhere _ => True

variable {gate backend}

theorem step_apart {s : Reception B} {key : String} {v : Visit} (apart : Apart gate key v) :
    (s.step gate backend v).store.journal.requests.get key = s.store.journal.requests.get key := by
  cases v with
  | request sessionId request moments => exact Handling.handle_others apart
  | elsewhere op =>
    simp only [step]
    split
    next elsewhere => rw [Store.step_requests elsewhere]
    next => rfl

theorem run_apart {s : Reception B} {key : String} {visits : List Visit} (apart : ∀ v ∈ visits, Apart gate key v) :
    (run (step gate backend) s visits).store.journal.requests.get key = s.store.journal.requests.get key := by
  have along : Along (step gate backend) (fun _ v => Apart gate key v) s visits := along_of_forall (step gate backend) apart
  exact @invariant_along _ _ (step gate backend) (fun _ v => Apart gate key v)
    (fun t => t.store.journal.requests.get key = s.store.journal.requests.get key)
    (fun _ _ same apart => (step_apart apart).trans same) s rfl visits along

/-- Under a key that has a row nothing is executed, and the row stays. -/
theorem step_calm {s : Reception B} {key : String} {v : Visit} (row : ∃ r, s.store.journal.requests.get key = some r)
    (quiet : s.calm gate key v) :
    ¬ executes gate backend key ⟨s,v,s.step gate backend v⟩ ∧
      ∃ r, (s.step gate backend v).store.journal.requests.get key = some r := by
  cases v with
  | elsewhere op =>
    refine ⟨id,?_⟩
    rw [@step_apart B Facts gate backend s key (.elsewhere op) trivial]
    exact row
  | request sessionId request moments =>
    by_cases own : (Call.intake gate sessionId request).key = key
    · obtain ⟨r,held⟩ := row
      subst own
      have replayed := @Handling.handle_replayed B Facts gate backend s.store s.backend sessionId request moments r held (quiet rfl)
      refine ⟨?_,r,replayed.row⟩
      rintro ⟨_,a,member,_⟩
      rw [replayed.unasked] at member
      cases member
    · refine ⟨fun executed => own executed.1,?_⟩
      rw [@step_apart B Facts gate backend s key (.request sessionId request moments) own]
      exact row

end Reception

/-- A read that failed can be sent again under its key exactly if its exception was none of those
that the broker has a handler of their own for, and the database served the deletion of its row;
a read that succeeded is never executed again while the database serves the lookups. -/
theorem read_retries_iff {B Facts : Type} (gate : Gate Facts) (backend : BackendProtocol B Facts) (s : Reception B)
    (sessionId : String) (request : Fields) (first : Nat → Juncture)
    (read : (Call.intake gate sessionId request).operation ∈ readOperations) :
    let c := Call.intake gate sessionId request
    let h := Handling.handle gate backend s.store s.backend sessionId request first
    let left : Reception B := ⟨h.store,h.backend⟩
    (∀ call e, ⟨call,some e⟩ ∈ h.asked → ∀ between, (∀ v ∈ between, Reception.Apart gate c.key v) →
      ∀ second session, Handling.Serving gate (run (Reception.step gate backend) left between).store c second session →
        ((∃ a ∈ (Handling.handle gate backend (run (Reception.step gate backend) left between).store
            (run (Reception.step gate backend) left between).backend sessionId request second).asked, a.executes = true) ↔
          (∃ message, e = .other message) ∧ (first 6).failure = none)) ∧
    ∀ response, h.response = some response → response.status = "ok" →
      ∀ later, Along (Reception.step gate backend) (Reception.calm gate c.key) left later →
        ∀ t ∈ trace (Reception.step gate backend) left later, ¬ Reception.executes gate backend c.key t := by
  intro c h left
  refine ⟨?_,?_⟩
  · intro call e raised between apart second session serving
    have row := Handling.handle_raised read raised
    have unchanged : (run (Reception.step gate backend) left between).store.journal.requests.get c.key =
        h.store.journal.requests.get c.key := Reception.run_apart apart
    by_cases spared : (∃ message, e = .other message) ∧ (first 6).failure = none
    · have vacant := unchanged.trans (row.1 spared)
      have executed := @Handling.handle_again B Facts gate backend _ (run (Reception.step gate backend) left between).backend
        sessionId request second (Handling.handle_entered raised) read vacant session serving
      refine iff_of_true ?_ spared
      rw [executed]
      exact ⟨_,List.mem_singleton_self _,rfl⟩
    · obtain ⟨r,held⟩ := row.2 spared
      have replayed := @Handling.handle_replayed B Facts gate backend _
        (run (Reception.step gate backend) left between).backend sessionId request second r (unchanged.trans held) serving.calm
      refine iff_of_false ?_ spared
      rintro ⟨a,member,_⟩
      rw [replayed.unasked] at member
      cases member
  · intro response answered ok later quiet t member
    have begun := Handling.handle_filed answered ok
    have row := @invariant_before_along _ _ (Reception.step gate backend) (Reception.calm gate c.key)
      (fun s => ∃ r, s.store.journal.requests.get c.key = some r)
      (fun _ _ held calm => (Reception.step_calm held calm).2) left begun later quiet t member
    exact (Reception.step_calm row (quiet t member)).1

namespace Retry

def flaky (e : Raised) : BackendProtocol Bool Unit where
  facts b _ _ := (.ok (),b)
  execute b _ _ _ _ := if b then (.ok .null,true) else (.error e,true)

def still : Nat → Juncture := fun _ => ⟨⟨0,Instant.zero_bounded⟩,none⟩

def once (e : Raised) : Handling Bool :=
  Handling.handle Desk.openGate (flaky e) Desk.session false "session" (Desk.requestFor "read.issue.get") still

def opened : Session := ⟨"session","wake","org","po","",[],"0001-01-01T00:10:00Z"⟩

theorem serving_again {db : Store} (same : db.runtime = Desk.session.runtime) :
    Handling.Serving Desk.openGate db (.intake Desk.openGate "session" (Desk.requestFor "read.issue.get")) still opened := by
  refine ⟨?_,rfl,rfl,fun _ => rfl⟩
  rw [same]
  decide +kernel

theorem once_raised (e : Raised) :
    ⟨.execute "read.issue.get" [] opened "request-00000001",some e⟩ ∈ (once e).asked := by
  have asked : (once e).asked = [⟨.execute "read.issue.get" [] opened "request-00000001",some e⟩] :=
    Handling.handle_again rfl (by decide) rfl (serving_again rfl)
  rw [asked]
  exact List.mem_singleton_self _

end Retry

theorem read_retries_iff_flaky :
    ∃ a ∈ (Handling.handle Desk.openGate (Retry.flaky (.other "connection reset")) (Retry.once (.other "connection reset")).store
      (Retry.once (.other "connection reset")).backend "session" (Desk.requestFor "read.issue.get") Retry.still).asked,
        a.executes = true := by
  have settled := read_retries_iff Desk.openGate (Retry.flaky (.other "connection reset")) ⟨Desk.session,false⟩ "session"
    (Desk.requestFor "read.issue.get") Retry.still (by decide)
  have serving := @Retry.serving_again (Retry.once (.other "connection reset")).store (Handling.handle_runtime _ _ _ _ _)
  exact (settled.1 _ _ (Retry.once_raised _) [] (by rintro _ ⟨⟩) Retry.still Retry.opened serving).mpr ⟨⟨_,rfl⟩,rfl⟩

/-- A read that times out keeps its key, and the request sent again is not executed. -/
theorem timed_out_read_burned : ¬ ∀ (e : Raised) (second : Nat → Juncture) (session : Session),
    Handling.Serving Desk.openGate (Retry.once e).store (.intake Desk.openGate "session" (Desk.requestFor "read.issue.get"))
      second session →
    ∃ a ∈ (Handling.handle Desk.openGate (Retry.flaky e) (Retry.once e).store (Retry.once e).backend "session"
      (Desk.requestFor "read.issue.get") second).asked, a.executes = true := by
  intro every
  have serving := @Retry.serving_again (Retry.once (.timeout "timed out")).store (Handling.handle_runtime _ _ _ _ _)
  obtain ⟨a,member,_⟩ := every (.timeout "timed out") Retry.still Retry.opened serving
  have row := Handling.handle_raised (by decide) (Retry.once_raised (.timeout "timed out"))
  obtain ⟨r,held⟩ := row.2 (fun both => by
    obtain ⟨_,other⟩ := both.1
    cases other)
  have replayed := @Handling.handle_replayed Bool Unit Desk.openGate (Retry.flaky (.timeout "timed out"))
    (Retry.once (.timeout "timed out")).store (Retry.once (.timeout "timed out")).backend "session" (Desk.requestFor "read.issue.get") Retry.still r held serving.calm
  rw [replayed.unasked] at member
  cases member

end SjgControl

import SjgControl.Broker

/-! What a call leaves in the journal when it returns. One call is followed by itself, from
any store and among any operations of the other parts of the controller. The request journal
does not fail it; the backend may raise anything, and the audit log may fail. -/
namespace SjgControl
open Relational Machine

/-- Whether the step that stands here appends to the audit log and writes nothing else. -/
def Phase.auditing : Phase → Bool
  | .recorded _ _ | .denying _ _ => true
  | _ => false

def Phase.reservedNow : Phase → Bool
  | .reserved _ => true
  | _ => false

/-- Whether the answer is a `StateError` of a backend that the step calls. -/
def Phase.conflicted (answer : Except Raised Json) : Phase → Bool
  | .applying _ =>
    match answer with
    | .error (.state _) => true
    | _ => false
  | _ => false

/-- The row of the key is closed with the answer given, or it is gone and the call was a read. -/
def Journal.accounted (db : Journal) (c : Call) (response : Response) : Prop :=
  match db.requests.get c.key with
  | none => c.operation ∈ readOperations
  | some row => (row.state = .succeeded ∨ row.state = .failed ∨ row.state = .verifyPending) ∧
      row.response = some response

namespace Desk
variable {Facts : Type}

def idle (db : Store) : Desk := ⟨db,fun _ => none⟩

/-- Steps of call 0 and operations of other parts; the journal answers the call. -/
def smooth (s : Desk) : DeskAction Facts → Prop
  | .receive _ _ _ => False
  | .advance i outside => i = 0 ∧ (outside.failure = none ∨ ∃ c ∈ s.calls 0, c.phase.auditing = true)
  | .elsewhere _ => True

instance (s : Desk) (action : DeskAction Facts) : Decidable (smooth s action) :=
  match action with
  | .receive _ _ _ => isFalse id
  | .advance i outside => inferInstanceAs
      (Decidable (i = 0 ∧ (outside.failure = none ∨ ∃ c ∈ s.calls 0, c.phase.auditing = true)))
  | .elsewhere _ => isTrue trivial

def reserving (t : Event Facts) : Bool :=
  match t.before.calls 0,t.after.calls 0 with
  | some c,some d => !c.phase.reservedNow && d.phase.reservedNow
  | _,_ => false

def conflicting (t : Event Facts) : Bool :=
  match t.action,t.before.calls 0 with
  | .advance _ outside,some c => c.phase.conflicted outside.result
  | _,_ => false

end Desk

/-- What the journal holds for a call that has taken its key. -/
def Phase.booked (c : Call) (db : Journal) : Phase → Prop
  | .reserved _ => ∃ row ∈ db.requests.get c.key, row.state = .reserved ∧ row.operation = c.operation
  | .applying _ | .executed _ _ | .refusing _ _ =>
    ∃ row ∈ db.requests.get c.key, row.state = .applying ∧ row.operation = c.operation
  | .recorded _ result => ∃ row ∈ db.requests.get c.key, row.state = .succeeded ∧ row.operation = c.operation ∧
      row.response = some (reply "ok" none (some result))
  | .denying _ message => ∃ row ∈ db.requests.get c.key, row.state = .failed ∧
      row.response = some (reply "denied" (some message) none)
  | .pending _ => ∃ row, db.requests.get c.key = some row
  | .abandoning _ => c.operation ∈ readOperations ∧ ∃ row ∈ db.requests.get c.key, row.operation = c.operation
  | .done response => db.accounted c response
  | _ => False

/-- The key was taken and the row left as it was when the backend was called. -/
def Phase.stranded (c : Call) (db : Journal) : Phase → Prop
  | .done _ => ∃ row ∈ db.requests.get c.key, row.state = .applying
  | _ => False

def Phase.free : Phase → Bool
  | .entered | .validated _ | .unseen _ | .authorized _ | .denying _ _ | .abandoning _ | .done _ => true
  | _ => false

namespace Journal
variable {db next : Journal} {key : String} {now : Instant}

theorem get_finishRequest {state : RequestState} {response : Response}
    (ok : db.finishRequest key state response now = .ok ((),next)) :
    next.requests.get key = (db.requests.get key).map (fun r =>
      {r with state,response := some response,updatedAt := now.isoText}) := by
  obtain ⟨_,rfl⟩ := finishRequest_effect ok
  cases found : db.requests.get key with
  | none => simp [found]
  | some row =>
    have own : row.idempotencyKey = key := (Table.get_eq_some.mp found).2
    simp [found,own]

theorem get_markRequestApplying (ok : db.markRequestApplying key now = .ok ((),next)) :
    next.requests.get key = (db.requests.get key).map (fun r =>
      {r with state := .applying,updatedAt := now.isoText}) := by
  obtain ⟨_,rfl⟩ := markRequestApplying_effect ok
  cases found : db.requests.get key with
  | none => simp [found]
  | some row =>
    have own : row.idempotencyKey = key := (Table.get_eq_some.mp found).2
    simp [found,own]

theorem finishRequest_terminal {state : RequestState} (response : Response)
    (terminal : state = .succeeded ∨ state = .failed ∨ state = .verifyPending) :
    ∃ next, db.finishRequest key state response now = .ok ((),next) := by
  refine ⟨{db with
    requests := db.requests.update (fun r => r.idempotencyKey = key)
      (fun r => {r with state,response := some response,updatedAt := now.isoText}) (fun _ => rfl)},?_⟩
  simp only [finishRequest,require_bind_ok,pure_ok]
  exact ⟨terminal,trivial⟩

theorem get_reserveRequest {sessions : Table WakeSession} {sessionId operation hash json : String}
    (ok : db.reserveRequest sessions sessionId key operation hash json now = .ok (none,next)) :
    ∃ row ∈ next.requests.get key, row.state = .reserved ∧ row.operation = operation := by
  rcases reserveRequest_effect ok with ⟨_,_,_,answered,_⟩ | ⟨_,_,requests,inserted,_,rfl⟩
  · cases answered
  · have here : requests.get key = some _ := (Table.get_insert inserted key).trans (if_pos rfl)
    exact ⟨_,here,rfl,rfl⟩

end Journal

namespace Call
variable {Facts : Type} {gate : Gate Facts} {db : Store} {c : Call} {outside : Outside Facts}

theorem guarded_calm {α : Type} {call : Except StoreError α} {value : α} (calm : outside.failure = none)
    (ok : call = .ok value) : guarded outside call = .ok value := by
  unfold guarded
  rw [calm,ok]

theorem booked_finish {state : RequestState} {response : Response} {row : BrokerRequest}
    (terminal : state = .succeeded ∨ state = .failed ∨ state = .verifyPending) (calm : outside.failure = none)
    (found : db.journal.requests.get c.key = some row) :
    ∃ next, guarded outside (db.journal.finishRequest c.key state response outside.now) = .ok ((),next) ∧
      next.requests.get c.key = some {row with state,response := some response,updatedAt := outside.now.isoText} := by
  obtain ⟨next,ok⟩ := @Journal.finishRequest_terminal db.journal c.key outside.now state response terminal
  refine ⟨next,guarded_calm calm ok,?_⟩
  rw [Journal.get_finishRequest ok,found]
  rfl

theorem booked_caught (session : Option Session) {e : Raised} {row : BrokerRequest}
    (found : db.journal.requests.get c.key = some row) (own : row.operation = c.operation)
    (classified : (∃ message, e = .authorization message) → row.state = .applying)
    (other : ∀ message, e ≠ .state message) : (c.caught session true e).booked c db.journal := by
  cases e with
  | authorization message => exact ⟨row,found,classified ⟨message,rfl⟩,own⟩
  | state message => exact absurd rfl (other message)
  | timeout message => exact ⟨row,found⟩
  | other message =>
    simp only [caught]
    split
    next read =>
      refine ⟨?_,row,found,own⟩
      rcases read with not | read | status
      · cases not
      · exact read
      · rw [status]
        decide
    next => exact ⟨row,found⟩

/-- A step of a call that has taken its key: the row is kept up with it, unless the backend
raises a `StateError`. -/
theorem next_booked (booked : c.phase.booked c db.journal) (calm : outside.failure = none ∨ c.phase.auditing = true) :
    ((c.next gate db outside).1.booked c (c.next gate db outside).2 ∧ c.phase.conflicted outside.result = false) ∨
      (c.next gate db outside).1.stranded c (c.next gate db outside).2 ∧ c.phase.conflicted outside.result = true := by
  unfold next
  cases at_ : c.phase with
  | entered =>
    rw [at_] at booked
    exact booked.elim
  | validated session =>
    rw [at_] at booked
    exact booked.elim
  | unseen session =>
    rw [at_] at booked
    exact booked.elim
  | authorized session =>
    rw [at_] at booked
    exact booked.elim
  | reserved session =>
    rw [at_] at booked calm
    obtain ⟨row,found,state,own⟩ := booked
    have calm := calm.resolve_right (by rintro ⟨⟩)
    have found := Option.mem_def.mp found
    have ok : ∃ next, db.journal.markRequestApplying c.key outside.now = .ok ((),next) := by
      refine ⟨{db.journal with
        requests := db.journal.requests.update (fun r => r.idempotencyKey = c.key)
          (fun r => {r with state := .applying,updatedAt := outside.now.isoText}) (fun _ => rfl)},?_⟩
      simp only [Journal.markRequestApplying,require_bind_ok,pure_ok]
      exact ⟨by rw [found,Option.map_some,state],trivial⟩
    obtain ⟨next,ok⟩ := ok
    have after : next.requests.get c.key = some {row with state := .applying,updatedAt := outside.now.isoText} := by
      rw [Journal.get_markRequestApplying ok,found]
      rfl
    simp only [guarded_calm calm ok]
    exact .inl ⟨⟨_,after,rfl,own⟩,rfl⟩
  | applying session =>
    rw [at_] at booked
    obtain ⟨row,found,state,own⟩ := booked
    have found := Option.mem_def.mp found
    cases outside.result with
    | ok result => exact .inl ⟨⟨row,found,state,own⟩,rfl⟩
    | error e =>
      cases e with
      | state message => exact .inr ⟨⟨row,found,state⟩,rfl⟩
      | authorization message =>
        exact .inl ⟨booked_caught (some session) (e := .authorization message) found own (fun _ => state) (by rintro _ ⟨⟩),rfl⟩
      | timeout message =>
        exact .inl ⟨booked_caught (some session) (e := .timeout message) found own (fun _ => state) (by rintro _ ⟨⟩),rfl⟩
      | other message =>
        exact .inl ⟨booked_caught (some session) (e := .other message) found own (fun _ => state) (by rintro _ ⟨⟩),rfl⟩
  | executed session result =>
    rw [at_] at booked calm
    obtain ⟨row,found,state,own⟩ := booked
    obtain ⟨next,ok,after⟩ := @booked_finish Facts db c outside _ (reply "ok" none (some result)) row
      (.inl rfl) (calm.resolve_right (by rintro ⟨⟩)) found
    simp only [ok]
    exact .inl ⟨⟨_,after,rfl,own,rfl⟩,rfl⟩
  | recorded session result =>
    rw [at_] at booked
    obtain ⟨row,found,state,own,response⟩ := booked
    have found := Option.mem_def.mp found
    dsimp only
    split
    next message _ =>
      exact .inl ⟨booked_caught (some session) (e := .other message) found own (by rintro ⟨_,⟨⟩⟩) (by rintro _ ⟨⟩),rfl⟩
    next =>
      refine .inl ⟨?_,rfl⟩
      simp only [Phase.booked,Journal.accounted,Journal.audit,found]
      exact ⟨.inl state,response⟩
  | refusing session message =>
    rw [at_] at booked calm
    obtain ⟨row,found,state,own⟩ := booked
    obtain ⟨next,ok,after⟩ := @booked_finish Facts db c outside _ (reply "denied" (some message) none) row
      (.inr (.inl rfl)) (calm.resolve_right (by rintro ⟨⟩)) found
    simp only [ok]
    exact .inl ⟨⟨_,after,rfl,rfl⟩,rfl⟩
  | denying session message =>
    rw [at_] at booked
    obtain ⟨row,found,state,response⟩ := booked
    have found := Option.mem_def.mp found
    refine .inl ⟨?_,rfl⟩
    dsimp only
    split
    next =>
      simp only [Phase.booked,Journal.accounted,found]
      exact ⟨.inr (.inl state),response⟩
    next =>
      simp only [Phase.booked,Journal.accounted,Journal.audit,found]
      exact ⟨.inr (.inl state),response⟩
  | pending response =>
    rw [at_] at booked calm
    obtain ⟨row,found⟩ := booked
    obtain ⟨next,ok,after⟩ := @booked_finish Facts db c outside .verifyPending response row
      (.inr (.inr rfl)) (calm.resolve_right (by rintro ⟨⟩)) found
    simp only [ok]
    refine .inl ⟨?_,rfl⟩
    simp only [Phase.booked,Journal.accounted,after]
    exact ⟨.inr (.inr trivial),trivial⟩
  | abandoning response =>
    rw [at_] at booked calm
    obtain ⟨read,row,found,own⟩ := booked
    have calm := calm.resolve_right (by rintro ⟨⟩)
    have found := Option.mem_def.mp found
    refine .inl ⟨?_,rfl⟩
    have gone : (db.journal.abandonReadRequest c.key).requests.get c.key = none := by
      have name : row.idempotencyKey = c.key := (Table.get_eq_some.mp found).2
      simp [Journal.abandonReadRequest,Table.get_delete,found,name,own,read]
    simp only [calm,Phase.booked,Journal.accounted,gone]
    exact read
  | done response =>
    rw [at_] at booked
    exact .inl ⟨booked,rfl⟩

theorem next_free (free : c.phase.free = true) :
    ((c.next gate db outside).1.free = true ∧ (c.next gate db outside).1.reservedNow = false) ∨
      (c.next gate db outside).1.reservedNow = true ∧ (c.next gate db outside).1.booked c (c.next gate db outside).2 := by
  have raised (session : Option Session) (e : Raised) :
      (c.caught session false e).free = true ∧ (c.caught session false e).reservedNow = false := by
    cases e <;> exact ⟨rfl,rfl⟩
  unfold next
  cases at_ : c.phase with
  | entered =>
    dsimp only
    split
    next => exact .inl (raised _ _)
    next =>
      split
      next => exact .inl (raised _ _)
      next => exact .inl ⟨rfl,rfl⟩
  | validated session =>
    dsimp only
    split
    next => exact .inl (raised _ _)
    next => exact .inl ⟨rfl,rfl⟩
    next => exact .inl ⟨rfl,rfl⟩
  | unseen session =>
    dsimp only
    split
    next => exact .inl (raised _ _)
    next =>
      split
      next => exact .inl (raised _ _)
      next => exact .inl ⟨rfl,rfl⟩
  | authorized session =>
    dsimp only
    split
    next => exact .inl (raised _ _)
    next => exact .inl ⟨rfl,rfl⟩
    next journal ok => exact .inr ⟨rfl,Journal.get_reserveRequest (guarded_ok ok)⟩
  | denying session message => exact .inl ⟨rfl,rfl⟩
  | abandoning response => exact .inl ⟨rfl,rfl⟩
  | done response => exact .inl ⟨rfl,rfl⟩
  | _ =>
    rw [at_] at free
    cases free

end Call

namespace Desk
variable {Facts : Type}

/-- How far call 0 has got, and what its history and the journal say of it. -/
inductive Course (history : List (Event Facts)) (s : Desk) (c : Call) : Prop
  | free (free : c.phase.free = true) (fresh : ∀ t ∈ history, reserving t = false)
      (calm : ∀ t ∈ history, conflicting t = false)
  | booked (booked : c.phase.booked c s.store.journal) (calm : ∀ t ∈ history, conflicting t = false)
  | stranded (stranded : c.phase.stranded c s.store.journal) (raised : ∃ t ∈ history, conflicting t = true)

theorem free_conflicted {phase : Phase} (free : phase.free = true) (answer : Except Raised Json) :
    phase.conflicted answer = false := by
  cases phase <;> first | rfl | cases free

theorem free_reservedNow {phase : Phase} (free : phase.free = true) : phase.reservedNow = false := by
  cases phase <;> first | rfl | cases free

theorem booked_at {c : Call} {db : Journal} {phase : Phase} (booked : phase.booked c db) (other : Phase) :
    phase.booked {c with phase := other} db := by
  cases phase <;> exact booked

theorem stranded_at {c : Call} {db : Journal} {phase : Phase} (stranded : phase.stranded c db) (other : Phase) :
    phase.stranded {c with phase := other} db := by
  cases phase <;> exact stranded

theorem booked_requests {c : Call} {db next : Journal} (same : next.requests = db.requests) {phase : Phase} :
    (phase.booked c db → phase.booked c next) ∧ (phase.stranded c db → phase.stranded c next) := by
  cases phase <;> simp only [Phase.booked,Phase.stranded,Journal.accounted,same] <;> exact ⟨id,id⟩

theorem forall_concat {α : Type} {p : α → Prop} {l : List α} {a : α} (front : ∀ x ∈ l, p x) (last : p a) :
    ∀ x ∈ l ++ [a], p x := by
  intro x member
  rcases List.mem_append.mp member with before | new
  · exact front x before
  · cases List.mem_singleton.mp new
    exact last

theorem intake_free (gate : Gate Facts) (sessionId : String) (request : Fields) :
    (Call.intake gate sessionId request).phase.free = true := by
  unfold Call.intake
  dsimp only
  split
  next => rfl
  next => split <;> rfl

theorem Course.advance {gate : Gate Facts} {history : List (Event Facts)} {s : Desk} {c : Call}
    {outside : Call.Outside Facts} (course : Course history s c) (found : s.calls 0 = some c)
    (calm : outside.failure = none ∨ c.phase.auditing = true) :
    Course (history ++ [⟨s,.advance 0 outside,s.step gate (.advance 0 outside)⟩]) (s.step gate (.advance 0 outside))
      {c with phase := (c.next gate s.store outside).1} := by
  have state : s.step gate (.advance 0 outside) = ⟨{s.store with journal := (c.next gate s.store outside).2},
      s.put 0 {c with phase := (c.next gate s.store outside).1}⟩ := by
    simp only [step,found]
  have conflict : conflicting ⟨s,.advance 0 outside,s.step gate (.advance 0 outside)⟩ =
      c.phase.conflicted outside.result := by
    simp only [conflicting,found]
  have reserve : reserving ⟨s,.advance 0 outside,s.step gate (.advance 0 outside)⟩ =
      (!c.phase.reservedNow && (c.next gate s.store outside).1.reservedNow) := by
    simp only [reserving,found,state,put,if_true]
  cases course with
  | free free fresh quiet =>
    have still := forall_concat quiet (conflict.trans (free_conflicted free _))
    rcases @Call.next_free Facts gate s.store c outside free with ⟨after,unreserved⟩ | ⟨_,booked⟩
    · refine .free after (forall_concat fresh ?_) still
      rw [reserve,unreserved,Bool.and_false]
    · refine .booked ?_ still
      rw [state]
      exact booked_at booked _
  | booked booked quiet =>
    rcases Call.next_booked booked calm with ⟨after,none_⟩ | ⟨after,raised⟩
    · refine .booked ?_ (forall_concat quiet (conflict.trans none_))
      rw [state]
      exact booked_at after _
    · refine .stranded ?_ ⟨_,List.mem_append.mpr (.inr (List.mem_singleton.mpr rfl)),conflict.trans raised⟩
      rw [state]
      exact stranded_at after _
  | stranded stranded raised =>
    obtain ⟨t,member,conflict⟩ := raised
    refine .stranded ?_ ⟨t,List.mem_append.mpr (.inl member),conflict⟩
    rw [state]
    cases at_ : c.phase with
    | done response =>
      rw [at_] at stranded
      simp only [Call.next,at_]
      exact stranded
    | _ =>
      rw [at_] at stranded
      exact stranded.elim

theorem course_run (gate : Gate Facts) (db : Store) (sessionId : String) (request : Fields)
    {actions : List (DeskAction Facts)}
    (smoothly : Along (step gate) smooth ((idle db).step gate (.receive 0 sessionId request)) actions) :
    ∃ c, (run (step gate) ((idle db).step gate (.receive 0 sessionId request)) actions).calls 0 = some c ∧
      Course (trace (step gate) ((idle db).step gate (.receive 0 sessionId request)) actions)
        (run (step gate) ((idle db).step gate (.receive 0 sessionId request)) actions) c := by
  refine @invariant_history_along _ _ (step gate) smooth
    (fun history s => ∃ c, s.calls 0 = some c ∧ Course history s c) _ ?_ ?_ _ smoothly
  · refine ⟨Call.intake gate sessionId request,rfl,.free (intake_free gate sessionId request) ?_ ?_⟩
    · intro t member
      cases member
    · intro t member
      cases member
  · rintro history s action ⟨c,found,course⟩ allowed
    cases action with
    | receive => exact allowed.elim
    | advance i outside =>
      obtain ⟨rfl,calm⟩ := allowed
      refine ⟨{c with phase := (c.next gate s.store outside).1},?_,course.advance found ?_⟩
      · simp only [step,found,put,if_true]
      · refine calm.imp_right ?_
        rintro ⟨d,present,auditing⟩
        rw [found] at present
        cases present
        exact auditing
    | elsewhere op =>
      have calls : (s.step gate (.elsewhere op)).calls = s.calls := by
        simp only [step]
        split <;> rfl
      have requests : (s.step gate (.elsewhere op)).store.journal.requests = s.store.journal.requests := by
        simp only [step]
        split
        next elsewhere => exact Store.step_requests elsewhere
        next => rfl
      refine ⟨c,(congrFun calls 0).trans found,?_⟩
      cases course with
      | free free fresh quiet =>
        refine .free free (forall_concat fresh ?_) (forall_concat quiet rfl)
        simp only [reserving,calls,found,free_reservedNow free,Bool.and_false]
      | booked booked quiet => exact .booked ((booked_requests requests).1 booked) (forall_concat quiet rfl)
      | stranded stranded raised =>
        obtain ⟨t,member,conflict⟩ := raised
        exact .stranded ((booked_requests requests).2 stranded) ⟨t,List.mem_append.mpr (.inl member),conflict⟩

/-- A call that took its key and returns has accounted for it exactly if the backend raised
no `StateError`. -/
theorem accounted_iff (gate : Gate Facts) (db : Store) (sessionId : String) (request : Fields)
    (actions : List (DeskAction Facts)) (c : Call) (response : Response)
    (smoothly : Along (step gate) smooth ((idle db).step gate (.receive 0 sessionId request)) actions)
    (reserved : ∃ t ∈ trace (step gate) ((idle db).step gate (.receive 0 sessionId request)) actions,
      reserving t = true)
    (found : (run (step gate) ((idle db).step gate (.receive 0 sessionId request)) actions).calls 0 = some c)
    (returned : c.phase = .done response) :
    (run (step gate) ((idle db).step gate (.receive 0 sessionId request)) actions).store.journal.accounted c response ↔
      ∀ t ∈ trace (step gate) ((idle db).step gate (.receive 0 sessionId request)) actions, conflicting t = false := by
  obtain ⟨d,present,course⟩ := course_run gate db sessionId request smoothly
  rw [found] at present
  cases present
  cases course with
  | free free fresh calm =>
    obtain ⟨t,member,reserves⟩ := reserved
    rw [fresh t member] at reserves
    cases reserves
  | booked booked calm =>
    rw [returned] at booked
    exact ⟨fun _ => calm,fun _ => booked⟩
  | stranded stranded raised =>
    rw [returned] at stranded
    obtain ⟨row,held,applying⟩ := stranded
    obtain ⟨t,member,conflict⟩ := raised
    constructor
    · intro accounted
      simp only [Journal.accounted,Option.mem_def.mp held,applying] at accounted
      simp at accounted
    · intro calm
      rw [calm t member] at conflict
      cases conflict

/-! One call on a desk with an open session. -/

def session : Store :=
  Store.empty.step (.runtime (.createSession "session" "wake" "org" "po" "" [] ⟨0,Instant.zero_bounded⟩ 600 4))

theorem accounted_iff_comment :
    (run (step openGate) ((idle session).step openGate (.receive 0 "session" (requestFor "pm.issue.comment")))
      (List.replicate 8 (.advance 0 smoothly))).store.journal.accounted
        ⟨"session","pm.issue.comment","request-00000001",[],.done (reply "ok" none (some .null))⟩
        (reply "ok" none (some .null)) :=
  (accounted_iff openGate session "session" (requestFor "pm.issue.comment") (List.replicate 8 (.advance 0 smoothly))
    ⟨"session","pm.issue.comment","request-00000001",[],.done (reply "ok" none (some .null))⟩
    (reply "ok" none (some .null)) (by decide) (by decide) rfl rfl).mpr (by decide)

/-- What `reserve_worker` raises reaches the handler of `StateError`. -/
def workerRefused : Call.Outside Unit :=
  ⟨⟨0,Instant.zero_bounded⟩,none,.ok (),.error (.state "concurrent worker cap reached")⟩

theorem worker_conflict_unaccounted :
    ∃ c response, (run (step openGate) ((idle session).step openGate (.receive 0 "session" (requestFor "worker.run")))
        (List.replicate 6 (.advance 0 workerRefused))).calls 0 = some c ∧ c.phase = .done response ∧
      (∃ t ∈ trace (step openGate) ((idle session).step openGate (.receive 0 "session" (requestFor "worker.run")))
        (List.replicate 6 (.advance 0 workerRefused)), reserving t = true) ∧
      ¬ (run (step openGate) ((idle session).step openGate (.receive 0 "session" (requestFor "worker.run")))
        (List.replicate 6 (.advance 0 workerRefused))).store.journal.accounted c response := by
  refine ⟨⟨"session","worker.run","request-00000001",[],
    .done (reply "conflict" (some "concurrent worker cap reached") none)⟩,_,rfl,rfl,by decide,?_⟩
  have row : ((run (step openGate) ((idle session).step openGate (.receive 0 "session" (requestFor "worker.run")))
      (List.replicate 6 (.advance 0 workerRefused))).store.journal.requests.get "request-00000001").map
        BrokerRequest.state = some .applying := by decide
  obtain ⟨held,found,applying⟩ := Option.map_eq_some_iff.mp row
  intro accounted
  simp only [Journal.accounted,found,applying] at accounted
  simp at accounted

end Desk
end SjgControl

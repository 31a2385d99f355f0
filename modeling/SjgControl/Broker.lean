import SjgControl.Authorization
import SjgControl.Store.Operation

/-! The broker's request handler as a machine of concurrent calls. Between two store
calls, or a store call and a backend call, any other call may run; what the policy and
the backend answer is left open. -/
namespace SjgControl
open Relational Machine

/-- The exception classes that `handle` tells apart. -/
inductive Raised where
  | authorization (message : String)
  | state (message : String)
  | timeout (message : String)
  | other (message : String)

def Raised.ofStore : StoreError → Raised
  | .stateError message => .state message
  | .integrityError => .other "constraint failed"
  | .overflowError => .other "date value out of range"
  | .typeError => .other "object is not subscriptable"

/-- The code that a call consults and that writes nothing. -/
structure Gate (Facts : Type) where
  validateRequest : Session → String → Fields → Except Raised Unit
  authorize : Session → String → Fields → Facts → Except Raised Unit
  noFacts : Facts
  canonical : Fields → String
  sha256 : String → String
  render : Json → String

/-- How far a call has got; the constructors below `recorded` are its exception handlers. -/
inductive Phase where
  | entered
  | validated (session : Session)
  | unseen (session : Session)
  | authorized (session : Session)
  | reserved (session : Session)
  | applying (session : Session)
  | executed (session : Session) (result : Json)
  | recorded (session : Session) (result : Json)
  | refusing (session : Option Session) (message : String)
  | denying (session : Option Session) (message : String)
  | pending (response : Response)
  | abandoning (response : Response)
  | done (response : Response)

structure Call where
  sessionId : String
  operation : String
  key : String
  arguments : Fields
  phase : Phase

def reply (status : String) (error : Option String) (result : Option Json) : Response :=
  ⟨some responseSchema,status,error,result⟩

/-- `[A-Za-z0-9._:-]`. -/
def keyChar (c : Char) : Prop := c.isAlphanum ∨ c ∈ ['.','_',':','-']

instance : DecidablePred keyChar := fun c =>
  inferInstanceAs (Decidable (c.isAlphanum ∨ c ∈ ['.','_',':','-']))

def requestIdChars : List Char → Prop
  | [] => False
  | c::rest => c.isAlphanum ∧ rest.all (fun d => keyChar d) ∧ 15 ≤ rest.length ∧ rest.length ≤ 127

instance : DecidablePred requestIdChars
  | [] => isFalse id
  | c::rest => inferInstanceAs
      (Decidable (c.isAlphanum ∧ rest.all (fun d => keyChar d) ∧ 15 ≤ rest.length ∧ rest.length ≤ 127))

/-- `REQUEST_ID.fullmatch`. -/
def requestId (key : String) : Prop := requestIdChars key.toList

instance : DecidablePred requestId := fun key => inferInstanceAs (Decidable (requestIdChars key.toList))

namespace Call

variable {Facts : Type}

def knownSchema : Json → Bool
  | .str schema => schema = "sjg.request/v1"
  | _ => false

/-- The part of `handle` before its `try`. -/
def intake (gate : Gate Facts) (sessionId : String) (request : Fields) : Call :=
  let operation := (Json.get request "operation").textOr gate.render
  let key := (Json.get request "idempotency_key").textOr gate.render
  if ¬ (knownSchema (Json.get request "schema") ∧ requestId key) then
    ⟨sessionId,operation,key,[],
      .done (reply "denied" (some "invalid request schema or idempotency key") none)⟩
  else match Json.get request "arguments" with
    | .obj arguments => ⟨sessionId,operation,key,arguments,.entered⟩
    | _ => ⟨sessionId,operation,key,[],.done (reply "denied" (some "arguments must be an object") none)⟩

def caught (c : Call) (session : Option Session) (applying : Bool) : Raised → Phase
  | .authorization message => if applying then .refusing session message else .denying session message
  | .state message => .done (reply "conflict" (some message) none)
  | .timeout message =>
    if applying then .pending (reply "indeterminate" (some message) none)
    else .done (reply "retryable" (some message) none)
  | .other message =>
    if applying = false ∨ c.operation ∈ readOperations ∨ c.operation = "repo.status" then
      .abandoning (reply "retryable" (some message) none)
    else .pending (reply "indeterminate"
      (some ("mutation outcome requires verification: " ++ message)) none)

/-- What a step meets from outside: the clock, a failure of the database, and what the
backend answers if the step calls it. -/
structure Outside (Facts : Type) where
  now : Instant
  failure : Option String
  facts : Except Raised Facts
  result : Except Raised Json

/-- A store call that raises a database error instead of taking effect. -/
def guarded {α : Type} (outside : Outside Facts) (call : Except StoreError α) : Except Raised α :=
  match outside.failure,call with
  | some message,_ => .error (.other message)
  | none,.ok value => .ok value
  | none,.error e => .error (.ofStore e)

def auditEntry (gate : Gate Facts) (c : Call) (now : Instant) (session : Option Session)
    (decision : String) (detail : Json) : AuditEntry :=
  ⟨now.isoText,session.map Session.sessionId,session.map Session.role,
    session.map Session.policyDigest,c.operation,some (gate.sha256 (gate.canonical c.arguments)),
    decision,detail⟩

/-- One step of a call: its next phase and the journal after it. -/
def next (gate : Gate Facts) (db : Store) (c : Call) (outside : Outside Facts) : Phase × Journal :=
  let digest := gate.sha256 (gate.canonical c.arguments)
  match c.phase with
  | .entered =>
    match guarded outside (db.runtime.session c.sessionId outside.now) with
    | .error e => (c.caught none false e,db.journal)
    | .ok session =>
      match gate.validateRequest session c.operation c.arguments with
      | .error e => (c.caught (some session) false e,db.journal)
      | .ok () => (.validated session,db.journal)
  | .validated session =>
    match guarded outside (db.journal.priorRequest c.sessionId c.key c.operation digest) with
    | .error e => (c.caught (some session) false e,db.journal)
    | .ok (some prior) => (.done prior,db.journal)
    | .ok none => (.unseen session,db.journal)
  | .unseen session =>
    let facts := if c.operation ∈ readOperations ++ repositoryOperations ++ workerOperations
      then .ok gate.noFacts else outside.facts
    match facts with
    | .error e => (c.caught (some session) false e,db.journal)
    | .ok facts =>
      match gate.authorize session c.operation c.arguments facts with
      | .error e => (c.caught (some session) false e,db.journal)
      | .ok () => (.authorized session,db.journal)
  | .authorized session =>
    match guarded outside (db.journal.reserveRequest db.runtime.sessions c.sessionId c.key c.operation
        digest (gate.canonical c.arguments) outside.now) with
    | .error e => (c.caught (some session) false e,db.journal)
    | .ok (some prior,journal) => (.done prior,journal)
    | .ok (none,journal) => (.reserved session,journal)
  | .reserved session =>
    match guarded outside (db.journal.markRequestApplying c.key outside.now) with
    | .error e => (c.caught (some session) false e,db.journal)
    | .ok ((),journal) => (.applying session,journal)
  | .applying session =>
    match outside.result with
    | .error e => (c.caught (some session) true e,db.journal)
    | .ok result => (.executed session result,db.journal)
  | .executed session result =>
    match guarded outside (db.journal.finishRequest c.key .succeeded
        (reply "ok" none (some result)) outside.now) with
    | .error e => (c.caught (some session) true e,db.journal)
    | .ok ((),journal) => (.recorded session result,journal)
  | .recorded session result =>
    match outside.failure with
    | some message => (c.caught (some session) true (.other message),db.journal)
    | none => (.done (reply "ok" none (some result)),db.journal.audit
        (c.auditEntry gate outside.now (some session) "allowed" (.obj [("result",result)])))
  | .refusing session message =>
    let journal := match guarded outside (db.journal.finishRequest c.key .failed
        (reply "denied" (some message) none) outside.now) with
      | .error _ => db.journal
      | .ok ((),journal) => journal
    (.denying session message,journal)
  | .denying session message =>
    let journal := match outside.failure with
      | some _ => db.journal
      | none => db.journal.audit
          (c.auditEntry gate outside.now session "denied" (.obj [("error",.str message)]))
    (.done (reply "denied" (some message) none),journal)
  | .pending response =>
    let journal := match guarded outside (db.journal.finishRequest c.key .verifyPending response
        outside.now) with
      | .error _ => db.journal
      | .ok ((),journal) => journal
    (.done response,journal)
  | .abandoning response =>
    let journal := match outside.failure with
      | some _ => db.journal
      | none => db.journal.abandonReadRequest c.key
    (.done response,journal)
  | .done response => (.done response,db.journal)

end Call

/-- The store and the calls in progress or finished, by the number they were received under. -/
structure Desk where
  store : Store
  calls : Nat → Option Call

inductive DeskAction (Facts : Type) where
  | receive (i : Nat) (sessionId : String) (request : Fields)
  | advance (i : Nat) (outside : Call.Outside Facts)
  | elsewhere (op : Op)

/-- Operations that other parts of the controller perform; the request journal is the
broker's own. -/
def Op.elsewhere : Op → Prop
  | .reserveRequest _ _ _ _ _ _ => False
  | .journal (.markRequestApplying _ _) => False
  | .journal (.abandonReadRequest _) => False
  | .journal (.finishRequest _ _ _ _) => False
  | _ => True

instance : DecidablePred Op.elsewhere
  | .reserveRequest _ _ _ _ _ _ => isFalse id
  | .journal (.markRequestApplying _ _) => isFalse id
  | .journal (.abandonReadRequest _) => isFalse id
  | .journal (.finishRequest _ _ _ _) => isFalse id
  | .journal (.audit _) => isTrue trivial
  | .journal (.setSupervisorValue _ _ _) => isTrue trivial
  | .journal (.reserveReconcile _ _ _ _ _ _) => isTrue trivial
  | .journal (.markReconcileApplying _ _) => isTrue trivial
  | .journal (.finishReconcile _ _ _ _) => isTrue trivial
  | .runtime _ => isTrue trivial
  | .queue _ => isTrue trivial
  | .prepareWake _ _ _ _ _ _ => isTrue trivial
  | .recoverOrphanSession _ _ _ _ => isTrue trivial
  | .recoverPreparedWake _ _ _ _ => isTrue trivial

namespace Desk
variable {Facts : Type}

def initial : Desk := ⟨.empty,fun _ => none⟩

def put (s : Desk) (i : Nat) (c : Call) : Nat → Option Call :=
  fun j => if j = i then some c else s.calls j

def step (gate : Gate Facts) (s : Desk) : DeskAction Facts → Desk
  | .receive i sessionId request =>
    match s.calls i with
    | some _ => s
    | none => {s with calls := s.put i (.intake gate sessionId request)}
  | .advance i outside =>
    match s.calls i with
    | none => s
    | some c =>
      let (phase,journal) := c.next gate s.store outside
      ⟨{s.store with journal},s.put i {c with phase}⟩
  | .elsewhere op => if op.elsewhere then {s with store := s.store.step op} else s

end Desk

namespace Journal

def holder (db : Journal) (key : String) : Option String :=
  (db.requests.get key).map BrokerRequest.operation

theorem holder_update {db next : Journal} {p : BrokerRequest → Prop} [DecidablePred p]
    {f : BrokerRequest → BrokerRequest} (keeps : ∀ r, (f r).idempotencyKey = r.idempotencyKey)
    (requests : next.requests = db.requests.update p f keeps)
    (operation : ∀ r, (f r).operation = r.operation) (key : String) :
    next.holder key = db.holder key := by
  unfold holder
  rw [requests]
  cases found : db.requests.get key with
  | none => simp [found]
  | some r => by_cases holds : p r <;> simp [found,holds,operation]

theorem markRequestApplying_holder {db next : Journal} {key : String} {now : Instant}
    (ok : db.markRequestApplying key now = .ok ((),next)) (k : String) : next.holder k = db.holder k := by
  obtain ⟨_,rfl⟩ := markRequestApplying_effect ok
  exact holder_update (by intro; rfl) rfl (by intro; rfl) k

theorem finishRequest_holder {db next : Journal} {key : String} {state : RequestState}
    {response : Response} {now : Instant}
    (ok : db.finishRequest key state response now = .ok ((),next)) (k : String) :
    next.holder k = db.holder k := by
  obtain ⟨_,rfl⟩ := finishRequest_effect ok
  exact holder_update (by intro; rfl) rfl (by intro; rfl) k

theorem abandonReadRequest_holder (db : Journal) (key k : String) :
    (db.abandonReadRequest key).holder k = db.holder k ∨
      k = key ∧ (∃ operation ∈ readOperations, db.holder k = some operation) ∧
        (db.abandonReadRequest key).holder k = none := by
  unfold holder abandonReadRequest
  rw [Table.get_delete]
  cases found : db.requests.get k with
  | none => exact .inl rfl
  | some r =>
    have own : r.idempotencyKey = k := (Table.get_eq_some.mp found).2
    by_cases gone : r.idempotencyKey = key ∧ r.operation ∈ readOperations
    · right
      refine ⟨own.symm.trans gone.1,⟨r.operation,gone.2,rfl⟩,?_⟩
      simp [gone]
    · left
      have kept : decide (¬ (r.idempotencyKey = key ∧ r.operation ∈ readOperations)) = true :=
        decide_eq_true gone
      rw [Option.filter_some,if_pos kept]

theorem reserveRequest_holder {db next : Journal} {sessions : Table WakeSession}
    {sessionId key operation hash json : String} {now : Instant} {prior : Option Response}
    (ok : db.reserveRequest sessions sessionId key operation hash json now = .ok (prior,next)) :
    (next = db ∧ prior ≠ none) ∨ prior = none ∧ db.holder key = none ∧
      next.holder key = some operation ∧ ∀ k, k ≠ key → next.holder k = db.holder k := by
  rcases reserveRequest_effect ok with ⟨row,_,_,rfl,rfl⟩ | ⟨absent,_,requests,inserted,rfl,rfl⟩
  · exact .inl ⟨rfl,by simp⟩
  · right
    have lookup := Table.get_insert inserted
    refine ⟨rfl,by simp [holder,absent],?_,?_⟩
    · have here : requests.get key = some _ := (lookup key).trans (if_pos rfl)
      simp [holder,here]
    · intro k other
      have there : requests.get k = db.requests.get k := (lookup k).trans (if_neg (Ne.symm other))
      simp [holder,there]

end Journal

/-- The call owns a reservation that it has not used yet. -/
def Phase.engaged : Phase → Prop
  | .reserved _ | .applying _ => True
  | _ => False

/-- What a step of a call can do to the reservations and to its own standing. -/
inductive StepEffect (c : Call) (before after : Journal) (phase : Phase) : Prop
  | quiet (same : ∀ k, after.holder k = before.holder k)
      (standing : phase.engaged → ∃ session, c.phase = .reserved session)
  | forgot (read : ∃ operation ∈ readOperations, before.holder c.key = some operation)
      (others : ∀ k, k ≠ c.key → after.holder k = before.holder k) (standing : ¬ phase.engaged)
      (idle : ¬ c.phase.engaged)
  | claimed (vacant : before.holder c.key = none) (taken : after.holder c.key = some c.operation)
      (others : ∀ k, k ≠ c.key → after.holder k = before.holder k) (idle : ¬ c.phase.engaged)

namespace Call
variable {Facts : Type}

theorem caught_engaged (c : Call) (session : Option Session) (applying : Bool) (e : Raised) :
    ¬ (c.caught session applying e).engaged := by
  cases e <;> simp only [caught]
  · split <;> exact id
  · exact id
  · split <;> exact id
  · split <;> exact id

theorem guarded_ok {α : Type} {outside : Outside Facts} {call : Except StoreError α} {value : α}
    (ok : guarded outside call = .ok value) : call = .ok value := by
  unfold guarded at ok
  split at ok
  · cases ok
  · cases ok
    rfl
  · cases ok

theorem next_effect (gate : Gate Facts) (db : Store) (c : Call) (outside : Outside Facts) :
    StepEffect c db.journal (c.next gate db outside).2 (c.next gate db outside).1 := by
  have raised (session : Option Session) (applying : Bool) (e : Raised) :
      StepEffect c db.journal db.journal (c.caught session applying e) :=
    .quiet (fun _ => rfl) (fun engaged => absurd engaged (c.caught_engaged session applying e))
  have calm {journal : Journal} {phase : Phase} (same : ∀ k, journal.holder k = db.journal.holder k)
      (free : ¬ phase.engaged) : StepEffect c db.journal journal phase :=
    .quiet same (fun engaged => absurd engaged free)
  unfold next
  cases at_ : c.phase with
  | entered =>
    dsimp only
    split
    next => exact raised _ _ _
    next =>
      split
      next => exact raised _ _ _
      next => exact calm (fun _ => rfl) id
  | validated session =>
    dsimp only
    split
    next => exact raised _ _ _
    next => exact calm (fun _ => rfl) id
    next => exact calm (fun _ => rfl) id
  | unseen session =>
    dsimp only
    split
    next => exact raised _ _ _
    next =>
      split
      next => exact raised _ _ _
      next => exact calm (fun _ => rfl) id
  | authorized session =>
    dsimp only
    split
    next => exact raised _ _ _
    next prior journal ok =>
      rcases Journal.reserveRequest_holder (guarded_ok ok) with ⟨rfl,_⟩ | ⟨absent,_⟩
      · exact calm (fun _ => rfl) id
      · cases absent
    next journal ok =>
      rcases Journal.reserveRequest_holder (guarded_ok ok) with ⟨_,present⟩ | ⟨_,vacant,taken,others⟩
      · exact absurd rfl present
      · exact .claimed vacant taken others (by simp [at_,Phase.engaged])
  | reserved session =>
    dsimp only
    split
    next => exact raised _ _ _
    next journal ok =>
      exact .quiet (Journal.markRequestApplying_holder (guarded_ok ok)) (fun _ => ⟨session,at_⟩)
  | applying session =>
    dsimp only
    split
    next => exact raised _ _ _
    next => exact calm (fun _ => rfl) id
  | executed session result =>
    dsimp only
    split
    next => exact raised _ _ _
    next journal ok => exact calm (Journal.finishRequest_holder (guarded_ok ok)) id
  | recorded session result =>
    dsimp only
    split
    next message failure => exact raised (some session) true (.other message)
    next => exact calm (fun _ => rfl) id
  | refusing session message =>
    refine calm ?_ id
    intro k
    dsimp only
    split
    next => rfl
    next journal ok => exact Journal.finishRequest_holder (guarded_ok ok) k
  | denying session message =>
    refine calm ?_ id
    intro k
    dsimp only
    split <;> rfl
  | pending response =>
    refine calm ?_ id
    intro k
    dsimp only
    split
    next => rfl
    next journal ok => exact Journal.finishRequest_holder (guarded_ok ok) k
  | abandoning response =>
    dsimp only
    split
    next => exact calm (fun _ => rfl) id
    next =>
      have kept (k : String) (other : k ≠ c.key) :
          (db.journal.abandonReadRequest c.key).holder k = db.journal.holder k := by
        rcases db.journal.abandonReadRequest_holder c.key k with same | ⟨equal,_⟩
        · exact same
        · exact absurd equal other
      rcases db.journal.abandonReadRequest_holder c.key c.key with same | ⟨_,read,_⟩
      · refine calm ?_ id
        intro k
        by_cases here : k = c.key
        · rw [here,same]
        · exact kept k here
      · exact .forgot read kept id (by simp [at_,Phase.engaged])
  | done response => exact calm (fun _ => rfl) id

end Call

/-! Runs of the desk. -/

theorem Journal.body_requests {db next : Journal} {op : JournalOp} (elsewhere : (Op.journal op).elsewhere)
    (ok : db.body op = .ok ((),next)) : next.requests = db.requests := by
  cases op with
  | markRequestApplying => cases elsewhere
  | abandonReadRequest => cases elsewhere
  | finishRequest => cases elsewhere
  | audit =>
    cases ok
    rfl
  | setSupervisorValue =>
    simp only [Journal.body,Journal.setSupervisorValue,require_bind_ok,pure_ok] at ok
    obtain ⟨_,equal⟩ := ok
    cases equal
    rfl
  | reserveReconcile =>
    obtain ⟨_,ok⟩ := discard_ok.mp ok
    obtain ⟨_,⟨_,_,rfl⟩ | ⟨_,_,_,_,rfl⟩⟩ := Journal.reserveReconcile_effect ok
    · rfl
    · rfl
  | markReconcileApplying =>
    obtain ⟨_,rfl⟩ := Journal.markReconcileApplying_effect ok
    rfl
  | finishReconcile =>
    obtain ⟨_,_,rfl⟩ := Journal.finishReconcile_effect ok
    rfl

theorem Store.step_requests {db : Store} {op : Op} (elsewhere : op.elsewhere) :
    (db.step op).journal.requests = db.journal.requests := by
  cases op with
  | runtime => rfl
  | queue => rfl
  | reserveRequest => cases elsewhere
  | journal op =>
    change (atomically db.journal (db.journal.body op)).state.requests = _
    cases result : db.journal.body op with
    | error => rfl
    | ok value => exact Journal.body_requests elsewhere result
  | prepareWake session deliveryId reservationId socketPath reason now =>
    change (atomically db (db.prepareWake _ _ _ _ _ _)).state.journal.requests = _
    cases result : db.prepareWake session deliveryId reservationId socketPath reason now with
    | error => rfl
    | ok value =>
      obtain ⟨_,next⟩ := value
      obtain ⟨_,_,_,_,rfl⟩ := Store.prepareWake_effect result
      rfl
  | recoverOrphanSession sessionId deliveryId eligibleAt error =>
    change (atomically db (db.recoverOrphanSession _ _ _ _)).state.journal.requests = _
    cases result : db.recoverOrphanSession sessionId deliveryId eligibleAt error with
    | error => rfl
    | ok value =>
      obtain ⟨_,next⟩ := value
      obtain ⟨_,_,_,_,_,rfl⟩ := Store.recoverOrphanSession_effect result
      rfl
  | recoverPreparedWake wakeId eligibleAt error now =>
    change (atomically db (db.recoverPreparedWake _ _ _ _)).state.journal.requests = _
    cases result : db.recoverPreparedWake wakeId eligibleAt error now with
    | error => rfl
    | ok value =>
      obtain ⟨_,next⟩ := value
      obtain ⟨_,_,_,_,_,_,_,rfl⟩ := Store.recoverPreparedWake_effect result
      rfl

namespace Desk
variable {Facts : Type}

abbrev Event (Facts : Type) := Transition Desk (DeskAction Facts)

def executing (t : Event Facts) : Option (Nat × Call) :=
  match t.action with
  | .advance i _ =>
    match t.before.calls i with
    | some c =>
      match c.phase with
      | .applying _ => some (i,c)
      | _ => none
    | none => none
  | _ => none

def mutates (key : String) (t : Event Facts) : Bool :=
  ∃ p ∈ executing t, p.2.key = key ∧ p.2.operation ∉ readOperations

def locked (s : Desk) (key : String) : Prop :=
  ∃ operation, s.store.journal.holder key = some operation ∧ operation ∉ readOperations

def engaged (s : Desk) (i : Nat) (key : String) : Prop :=
  ∃ c, s.calls i = some c ∧ c.key = key ∧ c.phase.engaged

def engagedMutation (s : Desk) (i : Nat) (key : String) : Prop :=
  ∃ c, s.calls i = some c ∧ c.key = key ∧ c.phase.engaged ∧ c.operation ∉ readOperations

/-- One reservation of the key for a mutation, and one use of it. -/
structure Single (key : String) (history : List (Event Facts)) (s : Desk) : Prop where
  once : history.countP (mutates key) ≤ 1
  used : 0 < history.countP (mutates key) → s.locked key
  unused : ∀ i, s.engagedMutation i key → s.locked key ∧ history.countP (mutates key) = 0
  alone : ∀ i j, s.engagedMutation i key → s.engagedMutation j key → i = j

inductive DeskEffect (s next : Desk) : Option (Nat × Call) → Prop
  | idle (same : ∀ k, next.store.journal.holder k = s.store.journal.holder k)
      (calls : next.calls = s.calls) : DeskEffect s next none
  | received (i : Nat) (c : Call) (same : ∀ k, next.store.journal.holder k = s.store.journal.holder k)
      (absent : s.calls i = none) (calls : next.calls = s.put i c) (idle : ¬ c.phase.engaged) :
      DeskEffect s next none
  | advanced {executed : Option (Nat × Call)} (i : Nat) (c : Call) (phase : Phase)
      (found : s.calls i = some c) (calls : next.calls = s.put i {c with phase})
      (effect : StepEffect c s.store.journal next.store.journal phase)
      (executes : executed = none ∨ executed = some (i,c) ∧ c.phase.engaged ∧ ¬ phase.engaged) :
      DeskEffect s next executed

theorem intake_engaged (gate : Gate Facts) (sessionId : String) (request : Fields) :
    ¬ (Call.intake gate sessionId request).phase.engaged := by
  unfold Call.intake
  dsimp only
  split
  next => exact id
  next =>
    split <;> exact id

theorem step_effect (gate : Gate Facts) (s : Desk) (action : DeskAction Facts) :
    DeskEffect s (s.step gate action) (executing ⟨s,action,s.step gate action⟩) := by
  cases action with
  | receive i sessionId request =>
    simp only [step,executing]
    cases found : s.calls i with
    | some c => exact .idle (fun _ => rfl) rfl
    | none =>
      exact .received i _ (fun _ => rfl) found rfl (intake_engaged gate sessionId request)
  | advance i outside =>
    simp only [step,executing]
    cases found : s.calls i with
    | none => exact .idle (fun _ => rfl) rfl
    | some c =>
      have effect := Call.next_effect gate s.store c outside
      refine .advanced i c _ found rfl effect ?_
      cases at_ : c.phase with
      | applying session =>
        right
        refine ⟨by simp only [at_],trivial,?_⟩
        cases effect with
        | quiet same standing =>
          intro engaged
          obtain ⟨_,other⟩ := standing engaged
          rw [at_] at other
          cases other
        | forgot read others standing idle => exact standing
        | claimed vacant taken others idle =>
          simp [at_,Phase.engaged] at idle
      | _ => exact .inl (by simp only [at_])
  | elsewhere op =>
    simp only [step,executing]
    split
    next elsewhere =>
      refine .idle ?_ rfl
      intro k
      simp [Journal.holder,Store.step_requests elsewhere]
    next => exact .idle (fun _ => rfl) rfl

section Event
variable {key : String} {history : List (Event Facts)} {t : Event Facts}

theorem locked_of_holder {s next : Desk} (same : next.store.journal.holder key = s.store.journal.holder key) :
    next.locked key ↔ s.locked key := by
  unfold locked
  rw [same]

theorem StepEffect.locked {c : Call} {s next : Desk} {phase : Phase}
    (effect : StepEffect c s.store.journal next.store.journal phase) (locked : s.locked key) :
    next.locked key := by
  obtain ⟨operation,held,mutation⟩ := locked
  by_cases here : key = c.key
  · cases effect with
    | quiet same => exact ⟨operation,(same key).trans held,mutation⟩
    | forgot read =>
      obtain ⟨other,member,holds⟩ := read
      rw [here,holds] at held
      cases Option.some.inj held
      exact absurd member mutation
    | claimed vacant =>
      rw [here,vacant] at held
      cases held
  · cases effect with
    | quiet same => exact ⟨operation,(same key).trans held,mutation⟩
    | forgot read others => exact ⟨operation,(others key here).trans held,mutation⟩
    | claimed vacant taken others => exact ⟨operation,(others key here).trans held,mutation⟩

theorem DeskEffect.locked {s next : Desk} {executed : Option (Nat × Call)}
    (effect : DeskEffect s next executed) (locked : s.locked key) : next.locked key := by
  cases effect with
  | idle same => exact (locked_of_holder (same key)).mpr locked
  | received i c same => exact (locked_of_holder (same key)).mpr locked
  | advanced i c phase found calls effect => exact StepEffect.locked effect locked

theorem DeskEffect.engaged {s next : Desk} {executed : Option (Nat × Call)}
    (effect : DeskEffect s next executed) {j : Nat} {d : Call} (there : next.calls j = some d)
    (standing : d.phase.engaged) :
    (∃ c, s.calls j = some c ∧ c.key = d.key ∧ c.operation = d.operation ∧ c.phase.engaged ∧
      ∀ p, executed = some p → p.1 ≠ j) ∨
    s.store.journal.holder d.key = none ∧ next.store.journal.holder d.key = some d.operation ∧
      executed = none ∧ ∀ i, i ≠ j → next.calls i = s.calls i := by
  cases effect with
  | idle same calls =>
    rw [calls] at there
    exact .inl ⟨d,there,rfl,rfl,standing,by simp⟩
  | received i c same absent calls idle =>
    rw [calls] at there
    unfold put at there
    split at there
    next here =>
      cases Option.some.inj there
      exact absurd standing idle
    next => exact .inl ⟨d,there,rfl,rfl,standing,by simp⟩
  | advanced i c phase found calls effect executes =>
    rw [calls] at there
    unfold put at there
    split at there
    next here =>
      subst here
      cases Option.some.inj there
      cases effect with
      | quiet same reserved =>
        obtain ⟨session,at_⟩ := reserved standing
        refine .inl ⟨c,found,rfl,rfl,by simp [at_,Phase.engaged],?_⟩
        intro p equal
        rcases executes with none_ | ⟨_,_,past⟩
        · rw [none_] at equal
          cases equal
        · exact absurd standing past
      | forgot read others past => exact absurd standing past
      | claimed vacant taken others idle =>
        refine .inr ⟨vacant,taken,?_,?_⟩
        · rcases executes with none_ | ⟨_,engaged,_⟩
          · exact none_
          · exact absurd engaged idle
        · intro k other
          rw [calls]
          exact if_neg other
    next other =>
      refine .inl ⟨d,there,rfl,rfl,standing,?_⟩
      intro p equal
      rcases executes with none_ | ⟨some_,_⟩
      · rw [none_] at equal
        cases equal
      · rw [some_] at equal
        cases Option.some.inj equal
        exact Ne.symm other

theorem DeskEffect.executing {s next : Desk} {i : Nat} {c : Call}
    (effect : DeskEffect s next (some (i,c))) : s.calls i = some c ∧ c.phase.engaged := by
  generalize equal : some (i,c) = executed at effect
  cases effect with
  | idle => cases equal
  | received => cases equal
  | advanced j d phase found calls effect executes =>
    rcases executes with none_ | ⟨some_,engaged,_⟩
    · rw [none_] at equal
      cases equal
    · rw [some_] at equal
      cases Option.some.inj equal
      exact ⟨found,engaged⟩

theorem Single.next (single : Single key history t.before)
    (effect : DeskEffect t.before t.after (executing t)) : Single key (history ++ [t]) t.after := by
  have total : (history ++ [t]).countP (mutates key) =
      history.countP (mutates key) + if mutates key t then 1 else 0 := by
    rw [List.countP_append,List.countP_singleton]
  -- an executed mutation was the one outstanding reservation of its key
  have spends (mutated : mutates key t = true) : ∃ i c, executing t = some (i,c) ∧
      t.before.engagedMutation i key := by
    obtain ⟨⟨i,c⟩,executed,own,mutation⟩ := of_decide_eq_true mutated
    have executed := Option.mem_def.mp executed
    rw [executed] at effect
    obtain ⟨found,engaged⟩ := effect.executing
    exact ⟨i,c,executed,c,found,own,engaged,mutation⟩
  have unlocked (vacant : t.before.store.journal.holder key = none) : ¬ t.before.locked key := by
    rintro ⟨operation,held,_⟩
    rw [vacant] at held
    cases held
  have classify {i : Nat} (engaged : t.after.engagedMutation i key) :
      (t.before.engagedMutation i key ∧ ∀ p, executing t = some p → p.1 ≠ i) ∨
        (t.before.store.journal.holder key = none ∧ t.after.locked key ∧ executing t = none ∧
          ∀ j, j ≠ i → t.after.calls j = t.before.calls j) := by
    obtain ⟨d,there,rfl,standing,mutation⟩ := engaged
    rcases effect.engaged there standing with ⟨c,found,own,same,engaged,other⟩ | ⟨vacant,taken,rest⟩
    · exact .inl ⟨⟨c,found,own,engaged,same ▸ mutation⟩,other⟩
    · exact .inr ⟨vacant,⟨d.operation,taken,mutation⟩,rest⟩
  refine ⟨?_,?_,?_,?_⟩
  · rw [total]
    split
    next mutated =>
      obtain ⟨i,_,_,engaged⟩ := spends mutated
      have unused := (single.unused i engaged).2
      omega
    next =>
      have once := single.once
      omega
  · intro positive
    apply effect.locked
    rw [total] at positive
    split at positive
    next mutated =>
      obtain ⟨i,_,_,engaged⟩ := spends mutated
      exact (single.unused i engaged).1
    next => exact single.used positive
  · intro i engaged
    rw [total]
    rcases classify engaged with ⟨before,other⟩ | ⟨vacant,locked,none_,_⟩
    · obtain ⟨locked,unused⟩ := single.unused i before
      refine ⟨effect.locked locked,?_⟩
      rw [if_neg,unused]
      intro mutated
      obtain ⟨j,c,executed,spent⟩ := spends mutated
      exact other (j,c) executed (single.alone j i spent before)
    · refine ⟨locked,?_⟩
      have unspent : ¬ mutates key t = true := by
        intro mutated
        obtain ⟨_,_,executed,_⟩ := spends mutated
        rw [none_] at executed
        cases executed
      rw [if_neg unspent]
      exact Nat.eq_zero_of_not_pos (fun positive => unlocked vacant (single.used positive))
  · intro i j first second
    rcases classify first with ⟨before,_⟩ | ⟨vacant,_,_,others⟩
    · rcases classify second with ⟨also,_⟩ | ⟨vacant,_⟩
      · exact single.alone i j before also
      · exact absurd (single.unused i before).1 (unlocked vacant)
    · by_contra different
      obtain ⟨d,there,own,standing,mutation⟩ := second
      rw [others j (Ne.symm different)] at there
      exact unlocked vacant (single.unused j ⟨d,there,own,standing,mutation⟩).1

end Event

theorem single_run (gate : Gate Facts) (key : String) (actions : List (DeskAction Facts)) :
    Single key (trace (step gate) initial actions) (run (step gate) initial actions) := by
  refine @invariant_history _ _ (step gate) (fun history s => Single key history s) initial ?_ ?_ actions
  · refine ⟨Nat.zero_le _,?_,?_,?_⟩
    · intro positive
      cases positive
    · rintro i ⟨c,found,_⟩
      cases found
    · rintro i j ⟨c,found,_⟩
      cases found
  · intro history s action single
    exact @Single.next Facts key history ⟨s,action,s.step gate action⟩ single (step_effect gate s action)

theorem blocked_step {gate : Gate Facts} {s : Desk} {key : String} {i : Nat}
    (blocked : s.locked key ∧ ¬ s.engaged i key) (action : DeskAction Facts) :
    (s.step gate action).locked key ∧ ¬ (s.step gate action).engaged i key := by
  have effect := step_effect gate s action
  refine ⟨effect.locked blocked.1,?_⟩
  rintro ⟨d,there,own,standing⟩
  rcases effect.engaged there standing with ⟨c,found,same,_,engaged,_⟩ | ⟨vacant,_⟩
  · exact blocked.2 ⟨c,found,same.trans own,engaged⟩
  · obtain ⟨operation,held,_⟩ := blocked.1
    rw [← own,vacant] at held
    cases held

/-- At most one mutation is executed under a key, and from the moment the key is reserved
for a mutation no call that has not reserved it before reaches the backend with it. -/
theorem mutation_at_most_once (gate : Gate Facts) (earlier later : List (DeskAction Facts)) :
    (∀ key, (trace (step gate) initial (earlier ++ later)).countP (mutates key) ≤ 1) ∧
    ∀ key i, (run (step gate) initial earlier).locked key →
      ¬ (run (step gate) initial earlier).engaged i key →
      ∀ t ∈ trace (step gate) (run (step gate) initial earlier) later,
        ∀ c, executing t = some (i,c) → c.key ≠ key := by
  refine ⟨fun key => (single_run gate key (earlier ++ later)).once,?_⟩
  intro key i locked free t member c executed own
  have blocked := @invariant_before _ _ (step gate) (fun s => s.locked key ∧ ¬ s.engaged i key)
    (fun s action blocked => blocked_step blocked action) _ ⟨locked,free⟩ _ _ member
  have effect := step_effect gate t.before t.action
  rw [← trace_step (step gate) member,executed] at effect
  obtain ⟨found,engaged⟩ := effect.executing
  exact blocked.2 ⟨c,found,own,engaged⟩

/-! Calls that nothing stands in the way of. -/

def openGate : Gate Unit := ⟨fun _ _ _ => .ok (),fun _ _ _ _ => .ok (),(),fun _ => "",id,fun _ => ""⟩

def smoothly : Call.Outside Unit := ⟨⟨0,Instant.zero_bounded⟩,none,.ok (),.ok .null⟩

def requestFor (operation : String) : Fields :=
  [("schema",.str "sjg.request/v1"),("operation",.str operation),
    ("idempotency_key",.str "request-00000001"),("arguments",.obj [])]

/-- Two calls with one key: the first executes, the second is answered from the journal. -/
def twice : List (DeskAction Unit) :=
  [.elsewhere (.runtime (.createSession "session" "wake" "org" "po" "" [] ⟨0,Instant.zero_bounded⟩ 600 4)),
    .receive 0 "session" (requestFor "pm.issue.comment"),.receive 1 "session" (requestFor "pm.issue.comment")] ++
    List.replicate 8 (.advance 0 smoothly) ++ List.replicate 8 (.advance 1 smoothly)

example : (trace (step openGate) initial twice).countP (mutates "request-00000001") = 1 := by
  decide

end Desk
end SjgControl

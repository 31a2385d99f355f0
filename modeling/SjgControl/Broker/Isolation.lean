import SjgControl.Broker.Handle

/-! Sessions and each other's results. Keys are global and chosen by the callers: what a request
of one session meets under a key of another one is the same whatever is stored there. -/
namespace SjgControl
open Relational Machine

/-- Equal, or rows of another session that differ in their outcome. -/
def Masked (sessionId : String) (r s : BrokerRequest) : Prop :=
  r = s ∨ r.sessionId ≠ sessionId ∧ s = {r with state := s.state,response := s.response,updatedAt := s.updatedAt}

theorem Masked.own {sessionId : String} {r s : BrokerRequest} (masked : Masked sessionId r s)
    (own : r.sessionId = sessionId) : r = s := by
  rcases masked with same | ⟨other,_⟩
  · exact same
  · exact absurd own other

theorem Masked.fields {sessionId : String} {r s : BrokerRequest} (masked : Masked sessionId r s) :
    s.sessionId = r.sessionId ∧ s.operation = r.operation ∧ s.argumentsHash = r.argumentsHash ∧
      s.argumentsJson = r.argumentsJson := by
  rcases masked with rfl | ⟨_,same⟩
  · exact ⟨rfl,rfl,rfl,rfl⟩
  · rw [same]
    exact ⟨rfl,rfl,rfl,rfl⟩

def Agrees {ε α : Type} (related : α → α → Prop) (x y : Except ε α) : Prop :=
  (∃ e, x = .error e ∧ y = .error e) ∨ ∃ v w, x = .ok v ∧ y = .ok w ∧ related v w

namespace Journal
variable {sessionId : String} {a b : Journal}

/-- Journals that are equal up to the outcomes of other sessions' requests. -/
structure Alike (sessionId : String) (a b : Journal) : Prop where
  requests : ∀ key, Option.Rel (Masked sessionId) (a.requests.get key) (b.requests.get key)
  reconciliations : a.reconciliations = b.reconciliations
  supervisor : a.supervisor = b.supervisor
  audits : a.audits = b.audits

theorem Alike.lookup (alike : Alike sessionId a b) (key : String) :
    (a.requests.get key = none ∧ b.requests.get key = none) ∨
      ∃ r s, a.requests.get key = some r ∧ b.requests.get key = some s ∧ Masked sessionId r s := by
  have related := alike.requests key
  generalize a.requests.get key = x at related ⊢
  generalize b.requests.get key = y at related ⊢
  cases related with
  | none => exact .inl ⟨rfl,rfl⟩
  | some masked => exact .inr ⟨_,_,rfl,rfl,masked⟩

theorem Alike.priorRequest (alike : Alike sessionId a b) (key operation hash : String) :
    a.priorRequest sessionId key operation hash = b.priorRequest sessionId key operation hash := by
  unfold Journal.priorRequest
  rcases alike.lookup key with ⟨first,second⟩ | ⟨r,s,first,second,masked⟩
  · rw [first,second]
  · rw [first,second]
    by_cases own : r.sessionId = sessionId
    · rw [masked.own own]
    · obtain ⟨session,_⟩ := masked.fields
      have differs : s.sessionId ≠ sessionId := by rwa [session]
      simp [own,differs,require]

theorem Alike.reserveRequest (alike : Alike sessionId a b) (sessions : Table WakeSession)
    (key operation hash json : String) (now : Instant) :
    Agrees (fun v w => v.1 = w.1 ∧ Alike sessionId v.2 w.2 ∧
        (v.1 = none → ∀ row ∈ v.2.requests.get key, row.sessionId = sessionId))
      (a.reserveRequest sessions sessionId key operation hash json now)
      (b.reserveRequest sessions sessionId key operation hash json now) := by
  unfold Journal.reserveRequest
  rcases alike.lookup key with ⟨first,second⟩ | ⟨r,s,first,second,masked⟩
  · rw [first,second]
    dsimp only
    by_cases known : sessions.get sessionId ≠ none
    · let row : BrokerRequest := ⟨key,sessionId,operation,hash,json,.reserved,none,now.isoText,now.isoText⟩
      obtain ⟨here,inserted⟩ := Table.insert_of_fresh (show a.requests.get (Keyed.key row) = none from first)
      obtain ⟨there,also⟩ := Table.insert_of_fresh (show b.requests.get (Keyed.key row) = none from second)
      refine .inr ⟨(none,{a with requests := here}),(none,{b with requests := there}),?_,?_,rfl,?_,?_⟩
      · simp only [require_bind_ok,fetch_bind_ok,pure_ok]
        exact ⟨known,here,inserted,rfl⟩
      · simp only [require_bind_ok,fetch_bind_ok,pure_ok]
        exact ⟨known,there,also,rfl⟩
      · refine ⟨?_,alike.reconciliations,alike.supervisor,alike.audits⟩
        intro k
        rw [Table.get_insert inserted,Table.get_insert also]
        split
        next => exact .some (.inl rfl)
        next => exact alike.requests k
      · intro _ held found
        have written : here.get key = some row := (Table.get_insert inserted key).trans (if_pos rfl)
        rw [← Option.some.inj (written.symm.trans found)]
    · refine .inl ⟨.integrityError,?_,?_⟩
      · exact require_bind_error.mpr (.inl ⟨known,rfl⟩)
      · exact require_bind_error.mpr (.inl ⟨known,rfl⟩)
  · rw [first,second]
    dsimp only
    obtain ⟨session,operation_,hash_,json_⟩ := masked.fields
    rw [session,operation_,hash_,json_]
    by_cases own : (r.sessionId,r.operation,r.argumentsHash,r.argumentsJson) = (sessionId,operation,hash,json)
    · have same : r = s := masked.own (Prod.mk.inj own).1
      subst same
      refine .inr ⟨_,_,require_bind_ok.mpr ⟨own,pure_ok.mpr rfl⟩,require_bind_ok.mpr ⟨own,pure_ok.mpr rfl⟩,rfl,alike,?_⟩
      rintro ⟨⟩
    · refine .inl ⟨_,require_bind_error.mpr (.inl ⟨own,rfl⟩),require_bind_error.mpr (.inl ⟨own,rfl⟩)⟩

theorem Alike.update (alike : Alike sessionId a b) (key : String) {f : BrokerRequest → BrokerRequest}
    (keeps : ∀ r, (f r).idempotencyKey = r.idempotencyKey)
    (masks : ∀ r s, Masked sessionId r s → Masked sessionId (f r) (f s)) :
    Alike sessionId {a with requests := a.requests.update (fun r => r.idempotencyKey = key) f keeps}
      {b with requests := b.requests.update (fun r => r.idempotencyKey = key) f keeps} := by
  refine ⟨?_,alike.reconciliations,alike.supervisor,alike.audits⟩
  intro k
  rw [Table.get_update,Table.get_update]
  rcases alike.lookup k with ⟨first,second⟩ | ⟨r,s,first,second,masked⟩
  · rw [first,second]
    exact .none
  · rw [first,second]
    have one : r.idempotencyKey = k := (Table.get_eq_some.mp first).2
    have two : s.idempotencyKey = k := (Table.get_eq_some.mp second).2
    refine .some ?_
    dsimp only
    rw [one,two]
    split
    next => exact masks r s masked
    next => exact masked

theorem Alike.markRequestApplying (alike : Alike sessionId a b) {key : String}
    (own : ∀ row ∈ a.requests.get key, row.sessionId = sessionId) (now : Instant) :
    Agrees (fun v w => Alike sessionId v.2 w.2) (a.markRequestApplying key now) (b.markRequestApplying key now) := by
  have same : a.requests.get key = b.requests.get key := by
    rcases alike.lookup key with ⟨first,second⟩ | ⟨r,s,first,second,masked⟩
    · rw [first,second]
    · rw [first,second,masked.own (own r first)]
  unfold Journal.markRequestApplying
  rw [← same]
  by_cases reserved : (a.requests.get key).map BrokerRequest.state = some .reserved
  · refine .inr ⟨_,_,require_bind_ok.mpr ⟨reserved,pure_ok.mpr rfl⟩,require_bind_ok.mpr ⟨reserved,pure_ok.mpr rfl⟩,?_⟩
    refine @Alike.update _ _ _ alike key (fun r => {r with state := .applying,updatedAt := now.isoText}) (fun _ => rfl) ?_
    rintro r s (rfl | ⟨other,differs⟩)
    · exact .inl rfl
    · refine .inr ⟨other,?_⟩
      rw [differs]
  · exact .inl ⟨_,require_bind_error.mpr (.inl ⟨reserved,rfl⟩),require_bind_error.mpr (.inl ⟨reserved,rfl⟩)⟩

theorem Alike.finishRequest (alike : Alike sessionId a b) (key : String) (state : RequestState) (response : Response)
    (now : Instant) :
    Agrees (fun v w => Alike sessionId v.2 w.2) (a.finishRequest key state response now)
      (b.finishRequest key state response now) := by
  unfold Journal.finishRequest
  by_cases terminal : state = .succeeded ∨ state = .failed ∨ state = .verifyPending
  · refine .inr ⟨_,_,require_bind_ok.mpr ⟨terminal,pure_ok.mpr rfl⟩,require_bind_ok.mpr ⟨terminal,pure_ok.mpr rfl⟩,?_⟩
    refine @Alike.update _ _ _ alike key (fun r => {r with state,response := some response,updatedAt := now.isoText})
      (fun _ => rfl) ?_
    rintro r s (rfl | ⟨other,differs⟩)
    · exact .inl rfl
    · left
      rw [differs]
  · exact .inl ⟨_,require_bind_error.mpr (.inl ⟨terminal,rfl⟩),require_bind_error.mpr (.inl ⟨terminal,rfl⟩)⟩

theorem Alike.abandonReadRequest (alike : Alike sessionId a b) (key : String) :
    Alike sessionId (a.abandonReadRequest key) (b.abandonReadRequest key) := by
  refine ⟨?_,alike.reconciliations,alike.supervisor,alike.audits⟩
  intro k
  unfold Journal.abandonReadRequest
  rw [Table.get_delete,Table.get_delete]
  rcases alike.lookup k with ⟨first,second⟩ | ⟨r,s,first,second,masked⟩
  · rw [first,second]
    exact .none
  · rw [first,second]
    have one : r.idempotencyKey = k := (Table.get_eq_some.mp first).2
    have two : s.idempotencyKey = k := (Table.get_eq_some.mp second).2
    rw [Option.filter_some,Option.filter_some,one,two,masked.fields.2.1]
    split
    next => exact .some masked
    next => exact .none

theorem Alike.audit (alike : Alike sessionId a b) (entry : AuditEntry) :
    Alike sessionId (a.audit entry) (b.audit entry) :=
  ⟨alike.requests,alike.reconciliations,alike.supervisor,congrArg (· ++ [entry]) alike.audits⟩

end Journal

structure Store.Alike (sessionId : String) (a b : Store) : Prop where
  runtime : a.runtime = b.runtime
  queue : a.queue = b.queue
  journal : a.journal.Alike sessionId b.journal

/-- A call that has reserved its key and not yet begun holds a row of its own session. -/
def Call.Owning (c : Call) (db : Journal) : Prop :=
  ∀ session, c.phase = .reserved session → ∀ row ∈ db.requests.get c.key, row.sessionId = c.sessionId

namespace Call
variable {Facts : Type} {gate : Gate Facts} {c : Call} {a b : Store} {outside : Outside Facts}

theorem guarded_agrees {α : Type} {related : α → α → Prop} {x y : Except StoreError α} (agrees : Agrees related x y)
    (outside : Outside Facts) : Agrees related (guarded outside x) (guarded outside y) := by
  unfold guarded
  cases outside.failure with
  | some message => exact .inl ⟨.other message,rfl,rfl⟩
  | none =>
    rcases agrees with ⟨e,rfl,rfl⟩ | ⟨v,w,rfl,rfl,related⟩
    · exact .inl ⟨.ofStore e,rfl,rfl⟩
    · exact .inr ⟨v,w,rfl,rfl,related⟩

theorem caught_owning (session : Option Session) (applying : Bool) (e : Raised) (other : Session) :
    c.caught session applying e ≠ .reserved other := by
  cases e <;> simp only [caught]
  · split <;> rintro ⟨⟩
  · rintro ⟨⟩
  · split <;> rintro ⟨⟩
  · split <;> rintro ⟨⟩

/-- One step of a call takes no notice of what other sessions have been answered. -/
theorem next_alike (alike : a.Alike c.sessionId b) (owning : c.Owning a.journal) :
    (c.next gate a outside).1 = (c.next gate b outside).1 ∧
      (c.next gate a outside).2.Alike c.sessionId (c.next gate b outside).2 ∧
      Owning {c with phase := (c.next gate a outside).1} (c.next gate a outside).2 := by
  have idle {phase : Phase} {journal other : Journal} (same : journal.Alike c.sessionId other)
      (free : ∀ session, phase ≠ .reserved session) :
      phase = phase ∧ journal.Alike c.sessionId other ∧ Owning {c with phase} journal :=
    ⟨rfl,same,fun session held => absurd held (free session)⟩
  have raised (session : Option Session) (applying : Bool) (e : Raised) :=
    idle alike.journal (caught_owning (c := c) session applying e)
  unfold next
  cases at_ : c.phase with
  | entered =>
    dsimp only
    rw [← alike.runtime]
    cases guarded outside (a.runtime.session c.sessionId outside.now) with
    | error e => exact raised _ _ _
    | ok session =>
      dsimp only
      cases gate.validateRequest session c.operation c.arguments with
      | error e => exact raised _ _ _
      | ok done => exact idle alike.journal (by rintro _ ⟨⟩)
  | validated session =>
    dsimp only
    rw [← alike.journal.priorRequest]
    cases guarded outside (a.journal.priorRequest c.sessionId c.key c.operation
        (gate.sha256 (gate.canonical c.arguments))) with
    | error e => exact raised _ _ _
    | ok prior =>
      cases prior with
      | none => exact idle alike.journal (by rintro _ ⟨⟩)
      | some answer => exact idle alike.journal (by rintro _ ⟨⟩)
  | unseen session =>
    dsimp only
    split
    next => exact raised _ _ _
    next facts _ =>
      cases gate.authorize session c.operation c.arguments facts with
      | error e => exact raised _ _ _
      | ok done => exact idle alike.journal (by rintro _ ⟨⟩)
  | authorized session =>
    dsimp only
    rw [← alike.runtime]
    have agrees := guarded_agrees (alike.journal.reserveRequest a.runtime.sessions c.key c.operation
      (gate.sha256 (gate.canonical c.arguments)) (gate.canonical c.arguments) outside.now) outside
    rcases agrees with ⟨e,first,second⟩ | ⟨⟨prior,here⟩,⟨prior,there⟩,first,second,rfl,same,own⟩
    · rw [first,second]
      exact raised _ _ _
    · rw [first,second]
      cases prior with
      | some answer => exact idle same (by rintro _ ⟨⟩)
      | none => exact ⟨rfl,same,fun _ _ => own rfl⟩
  | reserved session =>
    dsimp only
    have agrees := guarded_agrees (alike.journal.markRequestApplying (owning session at_) outside.now) outside
    rcases agrees with ⟨e,first,second⟩ | ⟨⟨_,here⟩,⟨_,there⟩,first,second,same⟩
    · rw [first,second]
      exact raised _ _ _
    · rw [first,second]
      exact idle same (by rintro _ ⟨⟩)
  | applying session =>
    dsimp only
    cases outside.result with
    | error e => exact raised _ _ _
    | ok result => exact idle alike.journal (by rintro _ ⟨⟩)
  | executed session result =>
    dsimp only
    have agrees := guarded_agrees (alike.journal.finishRequest c.key .succeeded (reply "ok" none (some result))
      outside.now) outside
    rcases agrees with ⟨e,first,second⟩ | ⟨⟨_,here⟩,⟨_,there⟩,first,second,same⟩
    · rw [first,second]
      exact raised _ _ _
    · rw [first,second]
      exact idle same (by rintro _ ⟨⟩)
  | recorded session result =>
    dsimp only
    cases outside.failure with
    | some message => exact raised (some session) true (.other message)
    | none => exact idle (alike.journal.audit _) (by rintro _ ⟨⟩)
  | refusing session message =>
    dsimp only
    have agrees := guarded_agrees (alike.journal.finishRequest c.key .failed (reply "denied" (some message) none)
      outside.now) outside
    rcases agrees with ⟨e,first,second⟩ | ⟨⟨_,here⟩,⟨_,there⟩,first,second,same⟩
    · rw [first,second]
      exact idle alike.journal (by rintro _ ⟨⟩)
    · rw [first,second]
      exact idle same (by rintro _ ⟨⟩)
  | denying session message =>
    dsimp only
    cases outside.failure with
    | some message => exact idle alike.journal (by rintro _ ⟨⟩)
    | none => exact idle (alike.journal.audit _) (by rintro _ ⟨⟩)
  | pending response =>
    dsimp only
    have agrees := guarded_agrees (alike.journal.finishRequest c.key .verifyPending response outside.now) outside
    rcases agrees with ⟨e,first,second⟩ | ⟨⟨_,here⟩,⟨_,there⟩,first,second,same⟩
    · rw [first,second]
      exact idle alike.journal (by rintro _ ⟨⟩)
    · rw [first,second]
      exact idle same (by rintro _ ⟨⟩)
  | abandoning response =>
    dsimp only
    cases outside.failure with
    | some message => exact idle alike.journal (by rintro _ ⟨⟩)
    | none => exact idle (alike.journal.abandonReadRequest c.key) (by rintro _ ⟨⟩)
  | done response => exact idle alike.journal (by rintro _ ⟨⟩)

end Call

/-- The phases of a call whose key is held for another session; no response of theirs carries a
result. -/
def Phase.barren : Phase → Prop
  | .entered | .validated _ | .denying _ _ => True
  | .abandoning response | .done response => response.result = none
  | _ => False

namespace Call
variable {Facts : Type} {gate : Gate Facts} {c : Call} {db : Store} {outside : Outside Facts}

theorem caught_barren (session : Option Session) (e : Raised) : (c.caught session false e).barren := by
  cases e <;> simp [caught,Phase.barren,reply]

theorem next_barren (barren : c.phase.barren)
    (foreign : (∃ response, c.phase = .done response) ∨
      ∃ row ∈ db.journal.requests.get c.key, row.sessionId ≠ c.sessionId) :
    (c.next gate db outside).1.barren ∧ ((∃ response, (c.next gate db outside).1 = .done response) ∨
      ∃ row ∈ (c.next gate db outside).2.requests.get c.key, row.sessionId ≠ c.sessionId) := by
  rcases foreign with ⟨response,at_⟩ | foreign
  · unfold next
    rw [at_] at barren ⊢
    exact ⟨barren,.inl ⟨response,rfl⟩⟩
  have raised (session : Option Session) (e : Raised) :
      (c.caught session false e).barren ∧ ((∃ response, c.caught session false e = .done response) ∨
        ∃ row ∈ db.journal.requests.get c.key, row.sessionId ≠ c.sessionId) :=
    ⟨caught_barren session e,.inr foreign⟩
  unfold next
  cases at_ : c.phase with
  | entered =>
    dsimp only
    split
    next => exact raised _ _
    next =>
      split
      next => exact raised _ _
      next => exact ⟨trivial,.inr foreign⟩
  | validated session =>
    dsimp only
    obtain ⟨row,held,other⟩ := foreign
    have refused : ∀ prior, db.journal.priorRequest c.sessionId c.key c.operation
        (gate.sha256 (gate.canonical c.arguments)) ≠ .ok prior := by
      intro prior found
      simp only [Journal.priorRequest,Option.mem_def.mp held,require_bind_ok,Prod.mk.injEq] at found
      exact other found.1.1
    split
    next => exact raised _ _
    next prior found => exact absurd (guarded_ok found) (refused _)
    next found => exact absurd (guarded_ok found) (refused _)
  | denying session message =>
    dsimp only
    exact ⟨rfl,.inl ⟨_,rfl⟩⟩
  | abandoning response =>
    rw [at_] at barren
    exact ⟨barren,.inl ⟨_,rfl⟩⟩
  | done response =>
    rw [at_] at barren
    exact ⟨barren,.inl ⟨_,rfl⟩⟩
  | _ =>
    rw [at_] at barren
    exact barren.elim

end Call

namespace Handling
variable {B Facts : Type} (gate : Gate Facts) (backend : BackendProtocol B Facts)

/-- Two handlings of one request that have gone alike. -/
structure Alike (g h : Handling B) : Prop where
  store : g.store.Alike g.call.sessionId h.store
  backend : g.backend = h.backend
  call : g.call = h.call
  asked : g.asked = h.asked
  owning : g.call.Owning g.store.journal

variable {gate backend}

theorem Alike.advance {g h : Handling B} (alike : Alike g h) (m : Juncture) :
    Alike (g.advance gate backend m) (h.advance gate backend m) := by
  obtain ⟨store,b,call,asked⟩ := g
  obtain ⟨store',b',call',asked'⟩ := h
  obtain ⟨stores,sameBackend,sameCall,sameAsked,owning⟩ := alike
  dsimp only at stores sameBackend sameCall sameAsked owning
  subst sameBackend sameCall sameAsked
  have consulted : consult gate backend ⟨store',b,call,asked⟩ = consult gate backend ⟨store,b,call,asked⟩ := rfl
  let answers := consult gate backend ⟨store,b,call,asked⟩
  obtain ⟨phase,journal,next⟩ :=
    @Call.next_alike Facts gate call store store' ⟨m.now,m.failure,answers.1,answers.2.1⟩ stores owning
  refine ⟨⟨stores.runtime,stores.queue,journal⟩,rfl,?_,rfl,next⟩
  exact congrArg (fun phase => {call with phase}) phase

theorem Alike.drive {g h : Handling B} (alike : Alike g h) (n : Nat) (moments : Nat → Juncture) :
    Alike (drive gate backend n moments g) (drive gate backend n moments h) := by
  induction n generalizing moments g h with
  | zero => exact alike
  | succ n ih => exact ih (alike.advance (moments 0)) (fun i => moments (i + 1))

/-- The key of the call is held for another session, or the call is over, with no result, and has
asked nothing of the backend. -/
structure Shut (h : Handling B) : Prop where
  barren : h.call.phase.barren
  foreign : (∃ response, h.call.phase = .done response) ∨
    ∃ row ∈ h.store.journal.requests.get h.call.key, row.sessionId ≠ h.call.sessionId
  unasked : h.asked = []

theorem Shut.advance {h : Handling B} (shut : Shut h) (m : Juncture) : Shut (h.advance gate backend m) := by
  have silent : (consult gate backend h).2.2.2 = [] := by
    have barren := shut.barren
    unfold consult
    cases at_ : h.call.phase with
    | unseen session =>
      rw [at_] at barren
      exact barren.elim
    | applying session =>
      rw [at_] at barren
      exact barren.elim
    | _ => rfl
  obtain ⟨barren,foreign⟩ := @Call.next_barren Facts gate h.call h.store _ shut.barren shut.foreign
  refine ⟨barren,foreign,?_⟩
  simp only [Handling.advance,shut.unasked,silent,List.append_nil]

theorem Shut.drive {h : Handling B} (shut : Shut h) (n : Nat) (moments : Nat → Juncture) :
    Shut (drive gate backend n moments h) := by
  induction n generalizing moments h with
  | zero => exact shut
  | succ n ih => exact ih (shut.advance (moments 0)) (fun i => moments (i + 1))

theorem intake_shut {store : Store} {b : B} {sessionId : String} {request : Fields}
    (foreign : ∃ row ∈ store.journal.requests.get (Call.intake gate sessionId request).key, row.sessionId ≠ sessionId) :
    Shut ⟨store,b,.intake gate sessionId request,[]⟩ := by
  obtain ⟨same,phase⟩ := Call.intake_begins gate sessionId request
  refine ⟨?_,.inr (by rwa [same]),rfl⟩
  rcases phase with at_ | ⟨response,at_,none_,_⟩
  · simp [at_,Phase.barren]
  · simp [at_,Phase.barren,none_]

theorem Alike.response {g h : Handling B} (alike : Alike g h) : g.response = h.response := by
  unfold Handling.response
  rw [alike.call]

theorem Alike.stores {g h : Handling B} {sessionId : String} (alike : Alike g h) (own : g.call.sessionId = sessionId) :
    g.store.Alike sessionId h.store := own ▸ alike.store

theorem Shut.response {h : Handling B} (shut : Shut h) : ∀ response ∈ h.response, response.result = none := by
  intro response answered
  have barren := shut.barren
  unfold Handling.response at answered
  cases at_ : h.call.phase with
  | done last =>
    rw [at_] at barren answered
    rw [← Option.some.inj answered]
    exact barren
  | _ =>
    rw [at_] at answered
    cases answered

theorem handle_alike (gate : Gate Facts) (backend : BackendProtocol B Facts) (b : B) {sessionId : String}
    (request : Fields) (moments : Nat → Juncture) {one other : Store} (alike : one.Alike sessionId other) :
    Alike (handle gate backend one b sessionId request moments) (handle gate backend other b sessionId request moments) := by
  obtain ⟨same,phase⟩ := Call.intake_begins gate sessionId request
  unfold handle
  refine Alike.drive ?_ 10 moments
  refine ⟨by rwa [same],rfl,rfl,rfl,?_⟩
  intro session reserved
  rcases phase with at_ | ⟨response,at_,_⟩
  · cases at_.symm.trans reserved
  · cases at_.symm.trans reserved

theorem handle_shut (gate : Gate Facts) (backend : BackendProtocol B Facts) (b : B) {sessionId : String}
    {request : Fields} (moments : Nat → Juncture) {store : Store}
    (foreign : ∃ row ∈ store.journal.requests.get (Call.intake gate sessionId request).key, row.sessionId ≠ sessionId) :
    Shut (handle gate backend store b sessionId request moments) := by
  unfold handle
  exact (intake_shut foreign).drive 10 moments

theorem handle_session (gate : Gate Facts) (backend : BackendProtocol B Facts) (store : Store) (b : B)
    (sessionId : String) (request : Fields) (moments : Nat → Juncture) :
    (handle gate backend store b sessionId request moments).call.sessionId = sessionId := by
  unfold handle
  rw [drive_identity]
  exact (Call.intake_begins gate sessionId request).1

end Handling

/-- A session reads nothing of what other sessions have been answered: over stores that differ in
nothing else, a request of its meets the same response and asks the same of the backend, and it
leaves stores that are again alike. Under a key of another session it asks nothing, and its
response carries no result. -/
theorem sessions_isolated {B Facts : Type} (gate : Gate Facts) (backend : BackendProtocol B Facts) (b : B)
    (sessionId : String) (request : Fields) (moments : Nat → Juncture) (one other : Store)
    (alike : one.Alike sessionId other) :
    let first := Handling.handle gate backend one b sessionId request moments
    let second := Handling.handle gate backend other b sessionId request moments
    first.response = second.response ∧ first.asked = second.asked ∧ first.backend = second.backend ∧
      first.store.Alike sessionId second.store ∧
      ((∃ row ∈ one.journal.requests.get (Call.intake gate sessionId request).key, row.sessionId ≠ sessionId) →
        first.asked = [] ∧ ∀ response ∈ first.response, response.result = none) := by
  have ended := Handling.handle_alike gate backend b request moments alike
  have stores := ended.stores (Handling.handle_session gate backend one b sessionId request moments)
  refine ⟨ended.response,ended.asked,ended.backend,stores,?_⟩
  intro foreign
  have shut := Handling.handle_shut gate backend b moments foreign
  exact ⟨shut.unasked,shut.response⟩

theorem Store.alike_update {sessionId : String} (db : Store) (p : BrokerRequest → Prop) [DecidablePred p]
    (foreign : ∀ r, p r → r.sessionId ≠ sessionId) (state : RequestState) (response : Option Response) :
    db.Alike sessionId {db with journal := {db.journal with
      requests := db.journal.requests.update p (fun r => {r with state,response}) (fun _ => rfl)}} := by
  refine ⟨rfl,rfl,?_,rfl,rfl,rfl⟩
  intro key
  dsimp only
  rw [Table.get_update]
  cases db.journal.requests.get key with
  | none => exact .none
  | some r =>
    refine .some ?_
    dsimp only
    split
    next other => exact .inr ⟨foreign r other,rfl⟩
    next => exact .inl rfl

/-- A key that another session has taken for a read. -/
def taken : Store :=
  (Desk.session.step (.runtime (.createSession "other" "wake-2" "org" "ro" "" [] ⟨0,Instant.zero_bounded⟩ 600 4))).step
    (.reserveRequest "other" "request-00000001" "read.issue.get" "" "" ⟨0,Instant.zero_bounded⟩)

def answering : BackendProtocol Unit Unit := ⟨fun b _ _ => (.ok (),b),fun b _ _ _ _ => (.ok .null,b)⟩

theorem sessions_isolated_taken :
    (∃ row ∈ taken.journal.requests.get "request-00000001", row.sessionId ≠ "session") ∧
    (let answered : Store := {taken with journal := {taken.journal with
        requests := taken.journal.requests.update (fun r => r.sessionId ≠ "session")
          (fun r => {r with state := .succeeded,response := some (reply "ok" none (some (.str "secret")))}) (fun _ => rfl)}}
      let first := Handling.handle Desk.openGate answering taken () "session" (Desk.requestFor "read.issue.get")
        (fun _ => ⟨⟨0,Instant.zero_bounded⟩,none⟩)
      let second := Handling.handle Desk.openGate answering answered () "session" (Desk.requestFor "read.issue.get")
        (fun _ => ⟨⟨0,Instant.zero_bounded⟩,none⟩)
      first.response = second.response ∧ first.asked = second.asked ∧ first.backend = second.backend ∧
        first.store.Alike "session" second.store ∧
        ((∃ row ∈ taken.journal.requests.get (Call.intake Desk.openGate "session" (Desk.requestFor "read.issue.get")).key,
            row.sessionId ≠ "session") →
          first.asked = [] ∧ ∀ response ∈ first.response, response.result = none)) := by
  refine ⟨?_,?_⟩
  · decide
  · exact sessions_isolated Desk.openGate answering () "session" (Desk.requestFor "read.issue.get")
      (fun _ => ⟨⟨0,Instant.zero_bounded⟩,none⟩) taken _
      (taken.alike_update (fun r => r.sessionId ≠ "session") (fun _ other => other) .succeeded
        (some (reply "ok" none (some (.str "secret")))))

end SjgControl

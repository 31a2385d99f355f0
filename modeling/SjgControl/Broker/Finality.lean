import SjgControl.Broker.Account

/-! Final outcomes. `finish_request` writes without looking at the row, and `resolve_pending`
works through a list it has read before; `abandon_read_request` deletes by key alone. The
office is the desk together with any number of resolvers, and with a note of which call took
each key last. -/
namespace SjgControl
open Relational Machine

inductive Proof where
  | present | absent | conflict | unknown
  deriving DecidableEq

def Proof.value : Proof → String
  | .present => "present"
  | .absent => "absent"
  | .conflict => "conflict"
  | .unknown => "unknown"

structure Verification where
  proof : Proof
  result : Option Fields
  detail : Option String

/-- The state and the response that `resolve_pending` writes, if the answer decides. -/
def Verification.verdict (v : Verification) : Option (RequestState × Response) :=
  match v.proof with
  | .present => some (.succeeded,reply "ok" none
      (some (.obj ((v.result.filter (fun fields => !fields.isEmpty)).getD [("verified",.bool true)]))))
  | .absent | .conflict => some (.failed,reply "denied"
      (some ((v.detail.filter (· ≠ "")).getD ("remote effect proved " ++ v.proof.value ++ "; use a new request"))) none)
  | .unknown => none

def BrokerRequest.final (r : BrokerRequest) : Prop := r.state = .succeeded ∨ r.state = .failed

instance : DecidablePred BrokerRequest.final := fun r =>
  inferInstanceAs (Decidable (r.state = .succeeded ∨ r.state = .failed))

def BrokerRequest.unsettled (r : BrokerRequest) : Prop := r.state = .reserved ∨ r.state = .applying

theorem BrokerRequest.unsettled_not_final {r : BrokerRequest} (open_ : r.unsettled) : ¬ r.final := by
  intro final
  unfold unsettled at open_
  unfold BrokerRequest.final at final
  rcases open_ with at_ | at_ <;> simp [at_] at final

/-- `pending_broker_verifications`: `ORDER BY created_at,idempotency_key`. -/
def Journal.pendingBrokerVerifications (db : Journal) : List BrokerRequest :=
  (db.requests.select (fun r => r.state = .verifyPending)).insertionSort (fun a b =>
    a.createdAt < b.createdAt ∨ a.createdAt = b.createdAt ∧ a.idempotencyKey ≤ b.idempotencyKey)

/-- `resolvers` holds the rows that each run of `resolve_pending` is still to visit. -/
structure Office where
  desk : Desk
  owner : String → Option Nat
  resolvers : Nat → Option (List BrokerRequest)

inductive OfficeAction (Facts : Type) where
  | desk (action : DeskAction Facts)
  | resolve (j : Nat)
  | visit (j : Nat) (answer : Verification) (now : Instant) (failure : Option String)

/-- What is asked of the step of a call: the audit log takes the entry of a recorded success,
and a call that did not take its key forgets no row under it. -/
def Call.prudent (c : Call) (owner : String → Option Nat) (db : Journal) (i : Nat) (failure : Option String) : Prop :=
  match c.phase with
  | .recorded _ _ => failure = none
  | .abandoning _ => owner c.key = some i ∨ ∀ row ∈ db.requests.get c.key, row.operation ∉ readOperations
  | _ => True

instance (c : Call) (owner : String → Option Nat) (db : Journal) (i : Nat) (failure : Option String) :
    Decidable (c.prudent owner db i failure) := by
  unfold Call.prudent
  split <;> infer_instance

namespace Office
variable {Facts : Type}

def initial : Office := ⟨.initial,fun _ => none,fun _ => none⟩

def takes (gate : Gate Facts) (s : Desk) : DeskAction Facts → Option (Nat × String)
  | .advance i outside =>
    match s.calls i with
    | some c => if (c.next gate s.store outside).1.reservedNow then some (i,c.key) else none
    | none => none
  | _ => none

def assign (s : Office) (taken : Option (Nat × String)) : String → Option Nat :=
  match taken with
  | some (i,key) => fun k => if k = key then some i else s.owner k
  | none => s.owner

def setRows (s : Office) (j : Nat) (rows : List BrokerRequest) : Nat → Option (List BrokerRequest) :=
  fun k => if k = j then some rows else s.resolvers k

def setJournal (s : Office) (journal : Journal) : Desk :=
  {s.desk with store := {s.desk.store with journal}}

def step (gate : Gate Facts) (s : Office) : OfficeAction Facts → Office
  | .desk action => {s with desk := s.desk.step gate action,owner := s.assign (takes gate s.desk action)}
  | .resolve j => {s with resolvers := s.setRows j s.desk.store.journal.pendingBrokerVerifications}
  | .visit j answer now failure =>
    match s.resolvers j with
    | some (row::rest) =>
      match answer.verdict,failure with
      | none,_ => {s with resolvers := s.setRows j rest}
      -- a failed write ends the run
      | some _,some _ => {s with resolvers := s.setRows j []}
      | some (state,response),none =>
        match s.desk.store.journal.finishRequest row.idempotencyKey state response now with
        | .ok ((),journal) => {s with desk := s.setJournal journal,resolvers := s.setRows j rest}
        | .error _ => {s with resolvers := s.setRows j []}
    | _ => s

/-- Each step of a call is prudent, and a verdict finds its row still pending. -/
def prudent (s : Office) : OfficeAction Facts → Prop
  | .desk (.advance i outside) => ∀ c ∈ s.desk.calls i, c.prudent s.owner s.desk.store.journal i outside.failure
  | .visit j answer _ _ => ∀ row ∈ (s.resolvers j).bind List.head?, answer.verdict ≠ none →
      ∀ held ∈ s.desk.store.journal.requests.get row.idempotencyKey, held.state = .verifyPending
  | _ => True

instance (s : Office) (action : OfficeAction Facts) : Decidable (s.prudent action) := by
  unfold prudent
  split <;> infer_instance

end Office

def Phase.rowState : Phase → Option RequestState
  | .reserved _ => some .reserved
  | .applying _ | .executed _ _ | .refusing _ _ | .pending _ => some .applying
  | _ => none

def Phase.untaken : Phase → Bool
  | .entered | .validated _ | .unseen _ | .authorized _ => true
  | _ => false

def Phase.forgetting : Phase → Bool
  | .abandoning _ => true
  | _ => false

/-- The call relies on a row that is its own and still open. -/
structure Holds (owner : String → Option Nat) (db : Journal) (i : Nat) (c : Call) : Prop where
  relies : ∀ state ∈ c.phase.rowState, owner c.key = some i ∧ ∃ row ∈ db.requests.get c.key, row.state = state
  forgets : c.phase.forgetting = true → owner c.key = some i → ∀ row ∈ db.requests.get c.key, row.unsettled

theorem Holds.still {owner : String → Option Nat} {db : Journal} {i : Nat} {c : Call} (holds : Holds owner db i c)
    {state : RequestState} (relies : c.phase.rowState = some state) (early : state = .reserved ∨ state = .applying) :
    ∀ row ∈ db.requests.get c.key, row.unsettled := by
  obtain ⟨_,row,found,at_⟩ := holds.relies state relies
  intro other present
  rw [Option.mem_def.mp found] at present
  cases present
  unfold BrokerRequest.unsettled
  rw [at_]
  exact early

theorem Holds.shared {owner next : String → Option Nat} {db after : Journal} {i : Nat} {c : Call}
    (holds : Holds owner db i c) (same : next c.key = owner c.key)
    (row : after.requests.get c.key = db.requests.get c.key) : Holds next after i c where
  relies state member := by
    rw [same,row]
    exact holds.relies state member
  forgets forgetting mine := by
    rw [row]
    exact holds.forgets forgetting (same ▸ mine)

theorem Holds.foreign {owner next : String → Option Nat} {db after : Journal} {i : Nat} {c : Call}
    (holds : Holds owner db i c) (other : owner c.key ≠ some i) (after_ : next c.key ≠ some i) :
    Holds next after i c where
  relies state member := absurd (holds.relies state member).1 other
  forgets _ mine := absurd mine after_

/-- What a step of a call may do to the row of its key. -/
inductive RowEffect (owner : String → Option Nat) (i : Nat) (c : Call) (db next : Journal) (phase : Phase) : Prop
  | quiet (same : next.requests.get c.key = db.requests.get c.key) (holds : Holds owner next i {c with phase})
      (untaken : phase.reservedNow = false)
  | took (absent : db.requests.get c.key = none) (row : ∃ row ∈ next.requests.get c.key, row.state = .reserved)
      (taken : ∃ session, phase = .reserved session)
  | wrote (mine : owner c.key = some i) (still : ∀ row ∈ db.requests.get c.key, row.unsettled)
      (holds : Holds owner next i {c with phase}) (untaken : phase.reservedNow = false)

namespace Journal
variable {db next : Journal} {key other : String} {now : Instant}

theorem get_finishRequest_other {state : RequestState} {response : Response} (apart : other ≠ key)
    (ok : db.finishRequest key state response now = .ok ((),next)) :
    next.requests.get other = db.requests.get other := by
  obtain ⟨_,rfl⟩ := finishRequest_effect ok
  cases found : db.requests.get other with
  | none => simp [found]
  | some row =>
    have own : row.idempotencyKey = other := (Table.get_eq_some.mp found).2
    simp [found,own,apart]

theorem get_markRequestApplying_other (apart : other ≠ key)
    (ok : db.markRequestApplying key now = .ok ((),next)) : next.requests.get other = db.requests.get other := by
  obtain ⟨_,rfl⟩ := markRequestApplying_effect ok
  cases found : db.requests.get other with
  | none => simp [found]
  | some row =>
    have own : row.idempotencyKey = other := (Table.get_eq_some.mp found).2
    simp [found,own,apart]

theorem get_abandonReadRequest_other (apart : other ≠ key) :
    (db.abandonReadRequest key).requests.get other = db.requests.get other := by
  unfold abandonReadRequest
  rw [Table.get_delete]
  cases found : db.requests.get other with
  | none => rfl
  | some row =>
    have own : row.idempotencyKey = other := (Table.get_eq_some.mp found).2
    simp [own,apart]

theorem get_abandonReadRequest_kept (mutation : ∀ row ∈ db.requests.get key, row.operation ∉ readOperations) :
    (db.abandonReadRequest key).requests.get key = db.requests.get key := by
  unfold abandonReadRequest
  rw [Table.get_delete]
  cases found : db.requests.get key with
  | none => rfl
  | some row =>
    have kept := mutation row found
    simp [kept]

theorem reserveRequest_cases {sessions : Table WakeSession} {sessionId operation hash json : String}
    {prior : Option Response}
    (ok : db.reserveRequest sessions sessionId key operation hash json now = .ok (prior,next)) :
    (prior ≠ none ∧ next = db) ∨ prior = none ∧ db.requests.get key = none ∧
      (∃ row ∈ next.requests.get key, row.state = .reserved) ∧
      ∀ other, other ≠ key → next.requests.get other = db.requests.get other := by
  rcases reserveRequest_effect ok with ⟨row,_,_,rfl,rfl⟩ | ⟨absent,_,requests,inserted,rfl,rfl⟩
  · exact .inl ⟨by rintro ⟨⟩,rfl⟩
  · have lookup := Table.get_insert inserted
    have here : requests.get key = some _ := (lookup key).trans (if_pos rfl)
    refine .inr ⟨rfl,absent,⟨_,here,rfl⟩,?_⟩
    intro other apart
    exact (lookup other).trans (if_neg (Ne.symm apart))

end Journal

namespace Call
variable {Facts : Type} {gate : Gate Facts} {db : Store} {c : Call} {outside : Outside Facts}

theorem next_others {other : String} (apart : other ≠ c.key) :
    (c.next gate db outside).2.requests.get other = db.journal.requests.get other := by
  unfold next
  cases at_ : c.phase with
  | entered =>
    dsimp only
    split
    next => rfl
    next => split <;> rfl
  | validated session =>
    dsimp only
    split <;> rfl
  | unseen session =>
    dsimp only
    split
    next => rfl
    next => split <;> rfl
  | authorized session =>
    dsimp only
    split
    next => rfl
    next prior journal ok =>
      rcases Journal.reserveRequest_cases (guarded_ok ok) with ⟨_,rfl⟩ | ⟨_,_,_,others⟩
      · rfl
      · exact others other apart
    next journal ok =>
      rcases Journal.reserveRequest_cases (guarded_ok ok) with ⟨_,rfl⟩ | ⟨_,_,_,others⟩
      · rfl
      · exact others other apart
  | reserved session =>
    dsimp only
    split
    next => rfl
    next journal ok => exact Journal.get_markRequestApplying_other apart (guarded_ok ok)
  | applying session =>
    dsimp only
    split <;> rfl
  | executed session result =>
    dsimp only
    split
    next => rfl
    next journal ok => exact Journal.get_finishRequest_other apart (guarded_ok ok)
  | recorded session result =>
    dsimp only
    split <;> rfl
  | refusing session message =>
    dsimp only
    split
    next => rfl
    next journal ok => exact Journal.get_finishRequest_other apart (guarded_ok ok)
  | denying session message =>
    dsimp only
    split <;> rfl
  | pending response =>
    dsimp only
    split
    next => rfl
    next journal ok => exact Journal.get_finishRequest_other apart (guarded_ok ok)
  | abandoning response =>
    dsimp only
    split
    next => rfl
    next => exact Journal.get_abandonReadRequest_other apart
  | done response => rfl

variable {owner : String → Option Nat} {i : Nat}

theorem holds_idle {next : Journal} {phase : Phase} (free : phase.rowState = none) (keeps : phase.forgetting = false) :
    Holds owner next i {c with phase} := by
  constructor
  · intro state member
    rw [free] at member
    cases member
  · intro forgetting
    rw [keeps] at forgetting
    cases forgetting

theorem holds_caught {session : Option Session} {applying : Bool} {e : Raised}
    (still : owner c.key = some i → ∀ row ∈ db.journal.requests.get c.key, row.unsettled)
    (row : applying = true → owner c.key = some i ∧ ∃ row ∈ db.journal.requests.get c.key, row.state = .applying) :
    Holds owner db.journal i {c with phase := c.caught session applying e} := by
  have abandon (response : Response) : Holds owner db.journal i {c with phase := .abandoning response} := by
    constructor
    · intro state member
      cases member
    · intro _ mine
      exact still mine
  cases e with
  | authorization message =>
    cases applying with
    | false => exact holds_idle rfl rfl
    | true =>
      refine ⟨?_,by rintro ⟨⟩⟩
      intro state member
      cases member
      exact row rfl
  | state message => exact holds_idle rfl rfl
  | timeout message =>
    cases applying with
    | false => exact holds_idle rfl rfl
    | true =>
      refine ⟨?_,by rintro ⟨⟩⟩
      intro state member
      cases member
      exact row rfl
  | other message =>
    simp only [caught]
    split
    next => exact abandon _
    next early =>
      cases applying with
      | false => exact absurd (.inl rfl) early
      | true =>
        refine ⟨?_,by rintro ⟨⟩⟩
        intro state member
        cases member
        exact row rfl

theorem caught_reservedNow (session : Option Session) (applying : Bool) (e : Raised) :
    (c.caught session applying e).reservedNow = false := by
  cases e <;> simp only [caught]
  · split <;> rfl
  · rfl
  · split <;> rfl
  · split <;> rfl

theorem next_row (holds : Holds owner db.journal i c) (early : c.phase.untaken = true → owner c.key ≠ some i)
    (prudent : c.prudent owner db.journal i outside.failure) :
    RowEffect owner i c db.journal (c.next gate db outside).2 (c.next gate db outside).1 := by
  -- an exception before the reservation finds no row of this call
  have raised (session : Option Session) (e : Raised) (before : c.phase.untaken = true) :
      RowEffect owner i c db.journal db.journal (c.caught session false e) :=
    .quiet rfl (holds_caught (fun mine => absurd mine (early before)) (by rintro ⟨⟩)) (c.caught_reservedNow session false e)
  have calm {phase : Phase} (free : phase.rowState = none) (keeps : phase.forgetting = false) :
      RowEffect owner i c db.journal db.journal phase := by
    refine .quiet rfl (holds_idle free keeps) ?_
    cases phase <;> first | rfl | cases free
  unfold next
  cases at_ : c.phase with
  | entered =>
    dsimp only
    split
    next => exact raised _ _ (by rw [at_]; rfl)
    next =>
      split
      next => exact raised _ _ (by rw [at_]; rfl)
      next => exact calm rfl rfl
  | validated session =>
    dsimp only
    split
    next => exact raised _ _ (by rw [at_]; rfl)
    next => exact calm rfl rfl
    next => exact calm rfl rfl
  | unseen session =>
    dsimp only
    split
    next => exact raised _ _ (by rw [at_]; rfl)
    next =>
      split
      next => exact raised _ _ (by rw [at_]; rfl)
      next => exact calm rfl rfl
  | authorized session =>
    dsimp only
    split
    next => exact raised _ _ (by rw [at_]; rfl)
    next prior journal ok =>
      rcases Journal.reserveRequest_cases (guarded_ok ok) with ⟨_,rfl⟩ | ⟨none_,_⟩
      · exact calm rfl rfl
      · cases none_
    next journal ok =>
      rcases Journal.reserveRequest_cases (guarded_ok ok) with ⟨some_,_⟩ | ⟨_,absent,row,_⟩
      · exact absurd rfl some_
      · exact .took absent row ⟨session,rfl⟩
  | reserved session =>
    have relies : c.phase.rowState = some .reserved := by rw [at_]; rfl
    have still := holds.still relies (.inl rfl)
    obtain ⟨mine,row,found,_⟩ := holds.relies .reserved relies
    dsimp only
    split
    next => exact .quiet rfl (holds_caught (fun _ => still) (by rintro ⟨⟩)) (c.caught_reservedNow _ _ _)
    next journal ok =>
      refine .wrote mine still ⟨?_,by rintro ⟨⟩⟩ rfl
      intro state member
      cases member
      have after : journal.requests.get c.key =
          some {row with state := .applying,updatedAt := outside.now.isoText} := by
        rw [Journal.get_markRequestApplying (guarded_ok ok),Option.mem_def.mp found]
        rfl
      exact ⟨mine,_,after,rfl⟩
  | applying session =>
    have relies : c.phase.rowState = some .applying := by rw [at_]; rfl
    have still := holds.still relies (.inr rfl)
    have row := holds.relies .applying relies
    dsimp only
    split
    next => exact .quiet rfl (holds_caught (fun _ => still) (fun _ => row)) (c.caught_reservedNow _ _ _)
    next =>
      refine .quiet rfl ⟨?_,by rintro ⟨⟩⟩ rfl
      intro state member
      cases member
      exact row
  | executed session result =>
    have relies : c.phase.rowState = some .applying := by rw [at_]; rfl
    have still := holds.still relies (.inr rfl)
    have row := holds.relies .applying relies
    dsimp only
    split
    next => exact .quiet rfl (holds_caught (fun _ => still) (fun _ => row)) (c.caught_reservedNow _ _ _)
    next => exact .wrote row.1 still (holds_idle rfl rfl) rfl
  | recorded session result =>
    have recorded : outside.failure = none := by
      simpa only [Call.prudent,at_] using prudent
    simp only [recorded]
    exact .quiet rfl (holds_idle rfl rfl) rfl
  | refusing session message =>
    have relies : c.phase.rowState = some .applying := by rw [at_]; rfl
    dsimp only
    split
    next => exact calm rfl rfl
    next => exact .wrote (holds.relies .applying relies).1 (holds.still relies (.inr rfl)) (holds_idle rfl rfl) rfl
  | denying session message =>
    refine .quiet ?_ (holds_idle rfl rfl) rfl
    dsimp only
    split <;> rfl
  | pending response =>
    have relies : c.phase.rowState = some .applying := by rw [at_]; rfl
    dsimp only
    split
    next => exact calm rfl rfl
    next => exact .wrote (holds.relies .applying relies).1 (holds.still relies (.inr rfl)) (holds_idle rfl rfl) rfl
  | abandoning response =>
    dsimp only
    split
    next => exact calm rfl rfl
    next =>
      have allowed : owner c.key = some i ∨
          ∀ row ∈ db.journal.requests.get c.key, row.operation ∉ readOperations := by
        simpa only [Call.prudent,at_] using prudent
      rcases allowed with mine | mutation
      · exact .wrote mine (holds.forgets (by rw [at_]; rfl) mine) (holds_idle rfl rfl) rfl
      · exact .quiet (Journal.get_abandonReadRequest_kept mutation) (holds_idle rfl rfl) rfl
  | done response => exact calm rfl rfl

end Call

theorem Phase.untaken_next {Facts : Type} {gate : Gate Facts} {db : Store} {c : Call} {outside : Call.Outside Facts}
    (taken : c.phase.untaken = false) : (c.next gate db outside).1.untaken = false := by
  have raised (session : Option Session) (applying : Bool) (e : Raised) :
      (c.caught session applying e).untaken = false := by
    cases e <;> simp only [Call.caught]
    · split <;> rfl
    · rfl
    · split <;> rfl
    · split <;> rfl
  unfold Call.next
  cases at_ : c.phase with
  | reserved session =>
    dsimp only
    split
    next => exact raised _ _ _
    next => rfl
  | applying session =>
    dsimp only
    split
    next => exact raised _ _ _
    next => rfl
  | executed session result =>
    dsimp only
    split
    next => exact raised _ _ _
    next => rfl
  | recorded session result =>
    dsimp only
    split
    next message _ => exact raised (some session) true (.other message)
    next => rfl
  | refusing => rfl
  | denying => rfl
  | pending => rfl
  | abandoning => rfl
  | done => rfl
  | _ =>
    rw [at_] at taken
    cases taken

namespace Office
variable {Facts : Type}

/-- Every call relies on nothing but an open row of its own, and every key that was taken
was taken by a call. -/
structure Sane (s : Office) : Prop where
  holds : ∀ i c, s.desk.calls i = some c → Holds s.owner s.desk.store.journal i c
  known : ∀ k i, s.owner k = some i → ∃ c, s.desk.calls i = some c ∧ c.key = k ∧ c.phase.untaken = false

theorem Sane.early {s : Office} (sane : s.Sane) {i : Nat} {c : Call} (found : s.desk.calls i = some c)
    (early : c.phase.untaken = true) : s.owner c.key ≠ some i := by
  intro mine
  obtain ⟨d,present,_,taken⟩ := sane.known c.key i mine
  rw [found] at present
  cases present
  rw [early] at taken
  cases taken

section Step
variable {gate : Gate Facts} {s : Office}

theorem takes_advance {i : Nat} {c : Call} {outside : Call.Outside Facts} (found : s.desk.calls i = some c) :
    takes gate s.desk (.advance i outside) =
      if (c.next gate s.desk.store outside).1.reservedNow then some (i,c.key) else none := by
  simp only [takes,found]

theorem Sane.advance (sane : s.Sane) {i : Nat} {c : Call} {outside : Call.Outside Facts}
    (found : s.desk.calls i = some c) (prudent : c.prudent s.owner s.desk.store.journal i outside.failure) :
    (s.step gate (.desk (.advance i outside))).Sane := by
  have desk : s.desk.step gate (.advance i outside) =
      ⟨{s.desk.store with journal := (c.next gate s.desk.store outside).2},
        s.desk.put i {c with phase := (c.next gate s.desk.store outside).1}⟩ := by
    simp only [Desk.step,found]
  have effect := @Call.next_row Facts gate s.desk.store c outside s.owner i (sane.holds i c found)
    (sane.early found) prudent
  have others := fun other => @Call.next_others Facts gate s.desk.store c outside other
  simp only [step,desk,takes_advance found]
  have later := @Phase.untaken_next Facts gate s.desk.store c outside
  generalize (c.next gate s.desk.store outside).2 = journal at effect others ⊢
  generalize (c.next gate s.desk.store outside).1 = phase at effect later ⊢
  -- the owner changes only when the call takes its key
  have known (untaken : phase.reservedNow = false) : ∀ k j, s.owner k = some j →
      ∃ d, s.desk.put i {c with phase} j = some d ∧ d.key = k ∧ d.phase.untaken = false := by
    intro k j mine
    obtain ⟨d,present,name,taken⟩ := sane.known k j mine
    by_cases here : j = i
    · subst here
      rw [found] at present
      cases present
      exact ⟨_,if_pos rfl,name,later taken⟩
    · exact ⟨d,(if_neg here).trans present,name,taken⟩
  have rest {owner : String → Option Nat} (same : ∀ k, k ≠ c.key → owner k = s.owner k)
      (own : Holds owner journal i {c with phase})
      (foreign : ∀ j d, j ≠ i → s.desk.calls j = some d → d.key = c.key → Holds owner journal j d) :
      ∀ j d, s.desk.put i {c with phase} j = some d → Holds owner journal j d := by
    intro j d present
    by_cases here : j = i
    · subst here
      rw [Desk.put,if_pos rfl] at present
      cases present
      exact own
    · rw [Desk.put,if_neg here] at present
      by_cases key : d.key = c.key
      · exact foreign j d here present key
      · exact (sane.holds j d present).shared (same d.key key) (others d.key key)
  cases effect with
  | quiet same holds untaken =>
    rw [untaken]
    refine ⟨rest (fun _ _ => rfl) holds ?_,known untaken⟩
    intro j d _ present key
    exact (sane.holds j d present).shared rfl (key ▸ same)
  | wrote mine still holds untaken =>
    rw [untaken]
    refine ⟨rest (fun _ _ => rfl) holds ?_,known untaken⟩
    intro j d apart present key
    have other : s.owner d.key ≠ some j := by
      rw [key,mine]
      exact fun same => apart (Option.some.inj same).symm
    exact (sane.holds j d present).foreign other other
  | took absent row taken =>
    obtain ⟨session,rfl⟩ := taken
    change Sane ⟨⟨_,_⟩,fun k => if k = c.key then some i else s.owner k,_⟩
    have mine : (fun k => if k = c.key then some i else s.owner k) c.key = some i := if_pos rfl
    refine ⟨rest (fun _ apart => if_neg apart) ⟨?_,by rintro ⟨⟩⟩ ?_,?_⟩
    · intro state member
      cases member
      exact ⟨mine,row⟩
    · intro j d apart present key
      have foreign : (fun k => if k = c.key then some i else s.owner k) d.key ≠ some j := by
        rw [key,mine]
        exact fun same => apart (Option.some.inj same).symm
      refine ⟨?_,fun _ held => absurd held foreign⟩
      intro state member
      obtain ⟨_,held,there,_⟩ := (sane.holds j d present).relies state member
      rw [key,absent] at there
      cases there
    · intro k j held
      by_cases here : k = c.key
      · have held := held.symm.trans (if_pos here)
        cases held
        exact ⟨_,if_pos rfl,here.symm,rfl⟩
      · have held := (if_neg here).symm.trans held
        obtain ⟨d,present,name,taken⟩ := sane.known k j held
        by_cases same : j = i
        · subst same
          rw [found] at present
          cases present
          exact absurd name.symm here
        · exact ⟨d,(if_neg same).trans present,name,taken⟩

theorem desk_elsewhere (op : Op) :
    (s.desk.step gate (.elsewhere op)).calls = s.desk.calls ∧
      (s.desk.step gate (.elsewhere op)).store.journal.requests = s.desk.store.journal.requests := by
  simp only [Desk.step]
  split
  next elsewhere => exact ⟨rfl,Store.step_requests elsewhere⟩
  next => exact ⟨rfl,rfl⟩

theorem visit_cases (j : Nat) (answer : Verification) (now : Instant) (failure : Option String) :
    ∃ journal resolvers, s.step gate (.visit j answer now failure) = ⟨s.setJournal journal,s.owner,resolvers⟩ ∧
      (journal = s.desk.store.journal ∨ ∃ row state response, (s.resolvers j).bind List.head? = some row ∧
        answer.verdict ≠ none ∧
        s.desk.store.journal.finishRequest row.idempotencyKey state response now = .ok ((),journal)) := by
  have still (resolvers : Nat → Option (List BrokerRequest)) : ∃ journal resolvers',
      ({s with resolvers} : Office) = ⟨s.setJournal journal,s.owner,resolvers'⟩ ∧
        (journal = s.desk.store.journal ∨ ∃ row state response, (s.resolvers j).bind List.head? = some row ∧
          answer.verdict ≠ none ∧
          s.desk.store.journal.finishRequest row.idempotencyKey state response now = .ok ((),journal)) :=
    ⟨s.desk.store.journal,resolvers,rfl,.inl rfl⟩
  simp only [step]
  split
  next row rest rows =>
    split
    next => exact still _
    next => exact still _
    next state response verdict =>
      split
      next journal ok =>
        refine ⟨journal,_,rfl,.inr ⟨row,state,response,?_,?_,ok⟩⟩
        · rw [rows]
          rfl
        · rw [verdict]
          simp
      next => exact still _
  next => exact still s.resolvers

theorem Sane.step (sane : s.Sane) {action : OfficeAction Facts} (prudent : s.prudent action) :
    (s.step gate action).Sane := by
  cases action with
  | desk action =>
    cases action with
    | receive i sessionId request =>
      cases present : s.desk.calls i with
      | some c =>
        simp only [Office.step,Desk.step,present]
        exact sane
      | none =>
        simp only [Office.step,Desk.step,present]
        refine ⟨?_,?_⟩
        · intro j d there
          simp only [Desk.put] at there
          split at there
          next =>
            cases there
            have free := Desk.intake_free gate sessionId request
            unfold Call.intake
            dsimp only
            split
            next => exact ⟨by rintro _ ⟨⟩,by rintro ⟨⟩⟩
            next => split <;> exact ⟨by rintro _ ⟨⟩,by rintro ⟨⟩⟩
          next => exact sane.holds j d there
        · intro k j held
          obtain ⟨d,there,name,taken⟩ := sane.known k j held
          refine ⟨d,(if_neg ?_).trans there,name,taken⟩
          intro same
          rw [same,present] at there
          cases there
    | advance i outside =>
      cases found : s.desk.calls i with
      | none =>
        simp only [Office.step,Desk.step,takes,found]
        exact sane
      | some c => exact sane.advance found (prudent c found)
    | elsewhere op =>
      obtain ⟨calls,requests⟩ := @desk_elsewhere Facts gate s op
      refine ⟨?_,?_⟩
      · intro i c found
        simp only [Office.step,calls] at found
        exact (sane.holds i c found).shared rfl (by simp only [Office.step,requests])
      · intro k i held
        simp only [Office.step,calls]
        exact sane.known k i held
  | resolve j => exact ⟨sane.holds,sane.known⟩
  | visit j answer now failure =>
    obtain ⟨journal,resolvers,after,same | ⟨row,state,response,head,decides,ok⟩⟩ := @visit_cases Facts gate s j answer now failure
    · rw [after,same]
      exact ⟨sane.holds,sane.known⟩
    · rw [after]
      refine ⟨?_,sane.known⟩
      intro i c found
      have holds := sane.holds i c found
      by_cases key : c.key = row.idempotencyKey
      · -- the row is pending, so no call relies on it
        have pending := prudent row head decides
        have closed (held : BrokerRequest) (there : s.desk.store.journal.requests.get c.key = some held)
            (open_ : held.unsettled) : False := by
          have at_ := pending held (key ▸ there)
          unfold BrokerRequest.unsettled at open_
          simp [at_] at open_
        constructor
        · intro want member
          obtain ⟨_,held,there,at_⟩ := holds.relies want member
          refine (closed held there ?_).elim
          exact holds.still member (by cases phase : c.phase <;> rw [phase] at member <;> cases member <;> simp) held there
        · intro forgetting mine after_ there
          cases present : s.desk.store.journal.requests.get c.key with
          | none =>
            simp only [setJournal] at there
            rw [key,Journal.get_finishRequest ok,← key,present] at there
            cases there
          | some held => exact (closed held present (holds.forgets forgetting mine held present)).elim
      · exact holds.shared rfl (Journal.get_finishRequest_other key ok)

theorem Sane.final (sane : s.Sane) {action : OfficeAction Facts} (prudent : s.prudent action) {key : String}
    {row : BrokerRequest} (found : s.desk.store.journal.requests.get key = some row) (final : row.final) :
    (s.step gate action).desk.store.journal.requests.get key = some row := by
  cases action with
  | desk action =>
    cases action with
    | receive i sessionId request =>
      simp only [Office.step,Desk.step]
      split <;> exact found
    | advance i outside =>
      cases present : s.desk.calls i with
      | none =>
        simp only [Office.step,Desk.step,present]
        exact found
      | some c =>
        have after : (s.step gate (.desk (.advance i outside))).desk.store.journal =
            (c.next gate s.desk.store outside).2 := by
          simp only [Office.step,Desk.step,present]
        rw [after]
        by_cases own : key = c.key
        · subst own
          cases @Call.next_row Facts gate s.desk.store c outside s.owner i (sane.holds i c present)
              (sane.early present) (prudent c present) with
          | quiet same => exact same.trans found
          | took absent =>
            rw [absent] at found
            cases found
          | wrote mine still => exact absurd final (BrokerRequest.unsettled_not_final (still row found))
        · exact (Call.next_others own).trans found
    | elsewhere op =>
      simp only [Office.step]
      rw [(@desk_elsewhere Facts gate s op).2]
      exact found
  | resolve j => exact found
  | visit j answer now failure =>
    obtain ⟨journal,resolvers,after,same | ⟨other,state,response,head,decides,ok⟩⟩ := @visit_cases Facts gate s j answer now failure
    · rw [after,same]
      exact found
    · rw [after]
      by_cases own : key = other.idempotencyKey
      · have pending := prudent other head decides row (own ▸ found)
        unfold BrokerRequest.final at final
        simp [pending] at final
      · exact (Journal.get_finishRequest_other own ok).trans found

end Step

theorem sane_initial : initial.Sane := by
  constructor
  · intro i c found
    cases found
  · intro k i held
    cases held

/-- In a prudent run a row that is `succeeded` or `failed` never changes again, and neither
does the answer to a replay. -/
theorem outcomes_final (gate : Gate Facts) (earlier later : List (OfficeAction Facts))
    (prudently : Along (step gate) prudent initial (earlier ++ later)) (key : String) (row : BrokerRequest)
    (found : (run (step gate) initial earlier).desk.store.journal.requests.get key = some row) (final : row.final) :
    (run (step gate) initial (earlier ++ later)).desk.store.journal.requests.get key = some row ∧
      ∀ sessionId operation hash,
        (run (step gate) initial (earlier ++ later)).desk.store.journal.priorRequest sessionId key operation hash =
          (run (step gate) initial earlier).desk.store.journal.priorRequest sessionId key operation hash := by
  obtain ⟨front,back⟩ := (along_append (step gate)).mp prudently
  have sane := @invariant_along _ _ (step gate) prudent Sane (fun _ _ sane prudent => sane.step prudent) _
    sane_initial _ front
  have kept := @invariant_along _ _ (step gate) prudent
    (fun s => s.Sane ∧ s.desk.store.journal.requests.get key = some row)
    (fun _ _ both prudent => ⟨both.1.step prudent,both.1.final prudent both.2 final⟩) _ ⟨sane,found⟩ _ back
  rw [run_append]
  refine ⟨kept.2,?_⟩
  intro sessionId operation hash
  simp only [Journal.priorRequest,kept.2,found]

/-! A comment whose outcome stays open until it is resolved. -/

def timedOut : Call.Outside Unit := ⟨⟨0,Instant.zero_bounded⟩,none,.ok (),.error (.timeout "timed out")⟩

def commented (outside : Call.Outside Unit) (steps : Nat) : List (OfficeAction Unit) :=
  .desk (.elsewhere (.runtime (.createSession "session" "wake" "org" "po" "" [] ⟨0,Instant.zero_bounded⟩ 600 4)))::
    .desk (.receive 0 "session" (Desk.requestFor "pm.issue.comment"))::
    List.replicate steps (.desk (.advance 0 outside))

def proved (j : Nat) (proof : Proof) : OfficeAction Unit := .visit j ⟨proof,none,none⟩ ⟨0,Instant.zero_bounded⟩ none

def outcome (actions : List (OfficeAction Unit)) : Option RequestState :=
  ((run (step Desk.openGate) initial actions).desk.store.journal.requests.get "request-00000001").map BrokerRequest.state

/-- The comment is resolved, and the call is made again. -/
theorem outcomes_final_replayed : ∃ row,
    (run (step Desk.openGate) initial (commented timedOut 7 ++ [.resolve 0,proved 0 .present] ++
      .resolve 0::.desk (.receive 1 "session" (Desk.requestFor "pm.issue.comment"))::
        List.replicate 4 (.desk (.advance 1 Desk.smoothly)))).desk.store.journal.requests.get "request-00000001" =
      some row ∧ row.final := by
  have resolved : ∃ row ∈ (run (step Desk.openGate) initial (commented timedOut 7 ++
      [.resolve 0,proved 0 .present])).desk.store.journal.requests.get "request-00000001", row.final := by decide
  obtain ⟨row,found,final⟩ := resolved
  exact ⟨row,(outcomes_final Desk.openGate _ _ (by decide) "request-00000001" row found final).1,final⟩

/-- Two resolvers that read the same list, and an audit log that fails after a success. -/
theorem final_outcomes_change :
    (outcome (commented timedOut 7 ++ [.resolve 0,.resolve 1,proved 0 .present]) = some .succeeded ∧
      outcome (commented timedOut 7 ++ [.resolve 0,.resolve 1,proved 0 .present,proved 1 .absent]) = some .failed) ∧
    outcome (commented Desk.smoothly 7) = some .succeeded ∧
      outcome (commented Desk.smoothly 7 ++
        [.desk (.advance 0 ⟨⟨0,Instant.zero_bounded⟩,some "database is locked",.ok (),.ok .null⟩),
          .desk (.advance 0 Desk.smoothly)]) = some .verifyPending := by
  decide

end Office
end SjgControl

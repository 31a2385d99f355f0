import SjgControl.Broker.Finality

/-! `Broker.handle` from the request to the response: the steps of one call with nothing between
them, over a backend that keeps a state of its own. -/
namespace SjgControl
open Relational Machine

structure BackendProtocol (B Facts : Type) where
  facts : B → String → Fields → Except Raised Facts × B
  execute : B → String → Fields → Session → String → Except Raised Json × B

inductive BackendCall where
  | facts (operation : String) (arguments : Fields)
  | execute (operation : String) (arguments : Fields) (session : Session) (key : String)

structure Asked where
  call : BackendCall
  raised : Option Raised

def Asked.executes (a : Asked) : Bool :=
  match a.call with
  | .execute _ _ _ _ => true
  | .facts _ _ => false

/-- The clock at a step, and the failure of the database that the step meets. -/
structure Juncture where
  now : Instant
  failure : Option String

structure Handling (B : Type) where
  store : Store
  backend : B
  call : Call
  asked : List Asked

def raisedBy {α : Type} : Except Raised α → Option Raised
  | .ok _ => none
  | .error e => some e

def Phase.rank : Phase → Nat
  | .entered => 10
  | .validated _ => 9
  | .unseen _ => 8
  | .authorized _ => 7
  | .reserved _ => 6
  | .applying _ => 5
  | .executed _ _ => 4
  | .recorded _ _ => 3
  | .refusing _ _ => 2
  | .denying _ _ | .pending _ | .abandoning _ => 1
  | .done _ => 0

namespace Handling
variable {B Facts : Type} (gate : Gate Facts) (backend : BackendProtocol B Facts)

/-- What the backend answers in a step, what it is after it, and how it was asked. -/
def consult (h : Handling B) : Except Raised Facts × Except Raised Json × B × List Asked :=
  match h.call.phase with
  | .unseen _ =>
    if h.call.operation ∈ readOperations ++ repositoryOperations ++ workerOperations then
      (.ok gate.noFacts,.ok .null,h.backend,[])
    else
      let (facts,after) := backend.facts h.backend h.call.operation h.call.arguments
      (facts,.ok .null,after,[⟨.facts h.call.operation h.call.arguments,raisedBy facts⟩])
  | .applying session =>
    let (result,after) := backend.execute h.backend h.call.operation h.call.arguments session h.call.key
    (.ok gate.noFacts,result,after,
      [⟨.execute h.call.operation h.call.arguments session h.call.key,raisedBy result⟩])
  | _ => (.ok gate.noFacts,.ok .null,h.backend,[])

def advance (h : Handling B) (m : Juncture) : Handling B :=
  let (facts,result,after,asked) := consult gate backend h
  let (phase,journal) := h.call.next gate h.store ⟨m.now,m.failure,facts,result⟩
  ⟨{h.store with journal},after,{h.call with phase},h.asked ++ asked⟩

def drive : Nat → (Nat → Juncture) → Handling B → Handling B
  | 0,_,h => h
  | n + 1,moments,h => drive n (fun i => moments (i + 1)) (advance gate backend h (moments 0))

/-- `Broker.handle`; no call takes more than ten steps. -/
@[irreducible] def handle (store : Store) (b : B) (sessionId : String) (request : Fields) (moments : Nat → Juncture) : Handling B :=
  drive gate backend 10 moments ⟨store,b,.intake gate sessionId request,[]⟩

def response (h : Handling B) : Option Response :=
  match h.call.phase with
  | .done response => some response
  | _ => none

end Handling

namespace Call
variable {Facts : Type}

theorem caught_rank (c : Call) (session : Option Session) (applying : Bool) (e : Raised) :
    (c.caught session applying e).rank ≤ 2 := by
  cases e <;> simp only [caught]
  · split <;> simp [Phase.rank]
  · simp [Phase.rank]
  · split <;> simp [Phase.rank]
  · split <;> simp [Phase.rank]

theorem caught_other_rank (c : Call) (session : Option Session) (applying : Bool) (message : String) :
    (c.caught session applying (.other message)).rank ≤ 1 := by
  simp only [caught]
  split <;> simp [Phase.rank]

/-- Every step of a call brings it nearer to its response. -/
theorem next_rank (gate : Gate Facts) (db : Store) (c : Call) (outside : Outside Facts) :
    (c.next gate db outside).1.rank ≤ c.phase.rank - 1 := by
  have raised (session : Option Session) (applying : Bool) (e : Raised) {n : Nat} (room : 2 ≤ n) :
      (c.caught session applying e).rank ≤ n := (c.caught_rank session applying e).trans room
  unfold next
  cases at_ : c.phase with
  | entered =>
    dsimp only
    split
    next => exact raised _ _ _ (by simp [Phase.rank])
    next =>
      split
      next => exact raised _ _ _ (by simp [Phase.rank])
      next => exact le_rfl
  | validated session =>
    dsimp only
    split
    next => exact raised _ _ _ (by simp [Phase.rank])
    next => exact Nat.zero_le _
    next => exact le_rfl
  | unseen session =>
    dsimp only
    split
    next => exact raised _ _ _ (by simp [Phase.rank])
    next =>
      split
      next => exact raised _ _ _ (by simp [Phase.rank])
      next => exact le_rfl
  | authorized session =>
    dsimp only
    split
    next => exact raised _ _ _ (by simp [Phase.rank])
    next => exact Nat.zero_le _
    next => exact le_rfl
  | reserved session =>
    dsimp only
    split
    next => exact raised _ _ _ (by simp [Phase.rank])
    next => exact le_rfl
  | applying session =>
    dsimp only
    split
    next => exact raised _ _ _ (by simp [Phase.rank])
    next => exact le_rfl
  | executed session result =>
    dsimp only
    split
    next => exact raised _ _ _ (by simp [Phase.rank])
    next => exact le_rfl
  | recorded session result =>
    dsimp only
    split
    next message failure => exact (c.caught_other_rank (some session) true message).trans (by simp [Phase.rank])
    next => exact Nat.zero_le _
  | refusing session message => exact le_rfl
  | denying session message => exact le_rfl
  | pending response => exact le_rfl
  | abandoning response => exact le_rfl
  | done response => exact le_rfl

theorem intake_begins (gate : Gate Facts) (sessionId : String) (request : Fields) :
    (intake gate sessionId request).sessionId = sessionId ∧
      ((intake gate sessionId request).phase = .entered ∨
        ∃ response, (intake gate sessionId request).phase = .done response ∧ response.result = none ∧
          response.status = "denied") := by
  unfold intake
  dsimp only
  split
  next => exact ⟨rfl,.inr ⟨_,rfl,rfl,rfl⟩⟩
  next =>
    split
    next => exact ⟨rfl,.inl rfl⟩
    next => exact ⟨rfl,.inr ⟨_,rfl,rfl,rfl⟩⟩

theorem intake_rank (gate : Gate Facts) (sessionId : String) (request : Fields) :
    (intake gate sessionId request).phase.rank ≤ 10 := by
  rcases (intake_begins gate sessionId request).2 with at_ | ⟨response,at_,_⟩
  · exact (congrArg Phase.rank at_).le
  · exact (congrArg Phase.rank at_).le.trans (Nat.zero_le _)

end Call

namespace Handling
variable {B Facts : Type} (gate : Gate Facts) (backend : BackendProtocol B Facts)

@[simp] theorem advance_key (h : Handling B) (m : Juncture) : (advance gate backend h m).call.key = h.call.key := rfl

theorem drive_identity (n : Nat) (moments : Nat → Juncture) (h : Handling B) :
    (drive gate backend n moments h).call = {h.call with phase := (drive gate backend n moments h).call.phase} := by
  induction n generalizing moments h with
  | zero => rfl
  | succ n ih => exact ih (fun i => moments (i + 1)) (advance gate backend h (moments 0))

theorem advance_rank (h : Handling B) (m : Juncture) :
    (advance gate backend h m).call.phase.rank ≤ h.call.phase.rank - 1 := Call.next_rank gate h.store h.call _

theorem drive_rank (n : Nat) (moments : Nat → Juncture) (h : Handling B) :
    (drive gate backend n moments h).call.phase.rank ≤ h.call.phase.rank - n := by
  induction n generalizing moments h with
  | zero => exact le_rfl
  | succ n ih =>
    have first := advance_rank gate backend h (moments 0)
    have rest := ih (fun i => moments (i + 1)) (advance gate backend h (moments 0))
    exact rest.trans (by omega)

theorem handle_returns (store : Store) (b : B) (sessionId : String) (request : Fields) (moments : Nat → Juncture) :
    ∃ response, (handle gate backend store b sessionId request moments).response = some response := by
  have start := Call.intake_rank gate sessionId request
  have finished := drive_rank gate backend 10 moments ⟨store,b,.intake gate sessionId request,[]⟩
  have zero : (handle gate backend store b sessionId request moments).call.phase.rank = 0 := by
    unfold handle
    dsimp only at finished
    omega
  unfold response
  cases at_ : (handle gate backend store b sessionId request moments).call.phase with
  | done answer => exact ⟨answer,rfl⟩
  | _ =>
    rw [at_] at zero
    cases zero

theorem drive_add (m n : Nat) (moments : Nat → Juncture) (h : Handling B) :
    drive gate backend (m + n) moments h =
      drive gate backend n (fun i => moments (i + m)) (drive gate backend m moments h) := by
  induction m generalizing moments h with
  | zero =>
    rw [Nat.zero_add]
    rfl
  | succ m ih =>
    rw [Nat.add_right_comm]
    exact ih (fun i => moments (i + 1)) (advance gate backend h (moments 0))

end Handling
end SjgControl

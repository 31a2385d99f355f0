import SjgControl.Broker

/-! Termination of a session while a call of it is under way. The handler reads the session
once, fetches facts, and reserves its key later; the reservation does not look at the
session's state again. -/
namespace SjgControl
open Relational Machine

/-- The call has read its session and not yet reserved its key. -/
def Phase.admitted : Phase → Bool
  | .validated _ | .unseen _ | .authorized _ => true
  | _ => false

def Phase.holding : Phase → Bool
  | .reserved _ => true
  | _ => false

def DeskAction.receives {Facts : Type} : DeskAction Facts → Option Nat
  | .receive i _ _ => some i
  | _ => none

namespace Desk
variable {Facts : Type}

def reservesInactive (t : Event Facts) : Option Nat :=
  match t.action with
  | .advance i _ =>
    match t.before.calls i,t.after.calls i with
    | some c,some d =>
      if c.phase.admitted ∧ d.phase.holding ∧ ¬ t.before.store.runtime.sessionActive c.sessionId then some i else none
    | _,_ => none
  | _ => none

/-- A call that reserves its key while its session is not active never reaches the backend. -/
def guardsRevoked (history : List (Event Facts)) : Prop :=
  ∀ t ∈ history, ∀ u ∈ history, ∀ i, reservesInactive t = some i → (executing u).map Prod.fst ≠ some i

/-- The action ends no session between a call's reading of it and the call's reservation. -/
def undisturbed (gate : Gate Facts) (s : Desk) : DeskAction Facts → Prop
  | .elsewhere op => ∀ i c, s.calls i = some c → c.phase.admitted → s.store.runtime.sessionActive c.sessionId →
      (s.step gate (.elsewhere op)).store.runtime.sessionActive c.sessionId
  | _ => True

def Standing (s : Desk) : Prop :=
  ∀ i c, s.calls i = some c → c.phase.admitted → s.store.runtime.sessionActive c.sessionId

end Desk

theorem Runtime.session_active {db : Runtime} {sessionId : String} {now : Instant} {session : Session}
    (ok : db.session sessionId now = .ok session) : db.sessionActive sessionId := by
  simp only [Runtime.session,fetch_bind_ok,require_bind_ok,Option.filter_eq_some_iff] at ok
  obtain ⟨row,⟨found,active⟩,_⟩ := ok
  unfold Runtime.sessionActive
  rw [found,Option.map_some,of_decide_eq_true active]

namespace Call
variable {Facts : Type}

theorem caught_admitted (c : Call) (session : Option Session) (applying : Bool) (e : Raised) :
    (c.caught session applying e).admitted = false := by
  cases e <;> simp only [caught]
  · split <;> rfl
  · rfl
  · split <;> rfl
  · split <;> rfl

/-- A call is admitted by reading its session, and only then. -/
theorem next_admitted (gate : Gate Facts) (db : Store) (c : Call) (outside : Outside Facts)
    (admitted : (c.next gate db outside).1.admitted = true) :
    c.phase.admitted = true ∨ db.runtime.sessionActive c.sessionId := by
  have raised (session : Option Session) (applying : Bool) (e : Raised) :
      (c.caught session applying e).admitted ≠ true := by
    rw [c.caught_admitted session applying e]
    exact Bool.false_ne_true
  unfold next at admitted
  cases at_ : c.phase with
  | entered =>
    simp only [at_] at admitted
    split at admitted
    next => exact absurd admitted (raised _ _ _)
    next session ok => exact .inr (Runtime.session_active (guarded_ok ok))
  | validated session => exact .inl rfl
  | unseen session => exact .inl rfl
  | authorized session => exact .inl rfl
  | reserved session =>
    simp only [at_] at admitted
    split at admitted
    next => exact absurd admitted (raised _ _ _)
    next => cases admitted
  | applying session =>
    simp only [at_] at admitted
    split at admitted
    next => exact absurd admitted (raised _ _ _)
    next => cases admitted
  | executed session result =>
    simp only [at_] at admitted
    split at admitted
    next => exact absurd admitted (raised _ _ _)
    next => cases admitted
  | recorded session result =>
    simp only [at_] at admitted
    split at admitted
    next message _ => exact absurd admitted (raised (some session) true (.other message))
    next => cases admitted
  | _ =>
    rw [at_] at admitted
    cases admitted

end Call

namespace Desk
variable {Facts : Type}

theorem intake_admitted (gate : Gate Facts) (sessionId : String) (request : Fields) :
    (Call.intake gate sessionId request).phase.admitted = false := by
  unfold Call.intake
  dsimp only
  split
  next => rfl
  next => split <;> rfl

theorem Standing.step {gate : Gate Facts} {s : Desk} {action : DeskAction Facts} (standing : s.Standing)
    (calm : s.undisturbed gate action) : (s.step gate action).Standing := by
  cases action with
  | receive i sessionId request =>
    cases present : s.calls i with
    | some c =>
      simp only [Desk.step,present]
      exact standing
    | none =>
      intro j c found admitted
      simp only [Desk.step,present,put] at found ⊢
      split at found
      next =>
        cases found
        rw [intake_admitted] at admitted
        cases admitted
      next => exact standing j c found admitted
  | advance i outside =>
    cases present : s.calls i with
    | none =>
      simp only [Desk.step,present]
      exact standing
    | some c =>
      intro j d found admitted
      simp only [Desk.step,present,put] at found ⊢
      split at found
      next =>
        cases found
        rcases Call.next_admitted gate s.store c outside admitted with before | active
        · exact standing i c present before
        · exact active
      next => exact standing j d found admitted
  | elsewhere op =>
    intro i c found admitted
    have calls : (s.step gate (.elsewhere op)).calls = s.calls := by
      simp only [Desk.step]
      split <;> rfl
    rw [calls] at found
    exact calm i c found admitted (standing i c found admitted)

/-- Where no session ends under a call that is still to reserve, no call reserves its key
with an inactive session, and none that did reaches the backend. -/
theorem revoked_never_executes (gate : Gate Facts) (actions : List (DeskAction Facts))
    (calm : Along (step gate) (undisturbed gate) initial actions) :
    guardsRevoked (trace (step gate) initial actions) := by
  have initially : initial.Standing := by
    intro i c found
    cases found
  intro t member u _ i reserves
  have standing := invariant_before_along (step gate)
    (fun s action standing calm => Standing.step standing calm) initially calm member
  unfold reservesInactive at reserves
  split at reserves
  next =>
    split at reserves
    next c d found _ =>
      split at reserves
      next inactive => exact absurd (standing _ c found inactive.1) inactive.2.2
      next => cases reserves
    next => cases reserves
  next => cases reserves

theorem calls_unreceived (gate : Gate Facts) {i : Nat} {actions : List (DeskAction Facts)}
    (unreceived : ∀ a ∈ actions, a.receives ≠ some i) : (run (step gate) initial actions).calls i = none := by
  refine @invariant_along _ _ (step gate) _ (fun s => s.calls i = none) ?_ _ rfl _
    (along_of_forall (step gate) unreceived)
  intro s action absent other
  cases action with
  | receive j sessionId request =>
    have apart : i ≠ j := fun same => other (congrArg some same.symm)
    simp only [step]
    split
    next => exact absent
    next => exact (if_neg apart).trans absent
  | advance j outside =>
    simp only [step]
    split
    next => exact absent
    next c found =>
      have apart : i ≠ j := by
        intro same
        rw [← same,absent] at found
        cases found
      exact (if_neg apart).trans absent
  | elsewhere op =>
    simp only [step]
    split <;> exact absent

/-! A call, and the revocation of its session before or after its reservation. -/

def admission : List (DeskAction Unit) :=
  [.elsewhere (.runtime (.createSession "session" "wake" "org" "po" "" [] ⟨0,Instant.zero_bounded⟩ 600 4)),
    .receive 0 "session" (requestFor "pm.issue.comment"),.advance 0 smoothly,.advance 0 smoothly,.advance 0 smoothly]

/-- The session is revoked once the key is reserved, and the call goes on. -/
theorem revoked_never_executes_reserved :
    guardsRevoked (trace (step openGate) initial
      (admission ++ [.advance 0 smoothly,.elsewhere (.runtime (.revokeSession "session")),.advance 0 smoothly,
        .advance 0 smoothly])) := by
  have alone (i : Nat) (c : Call) (found : (run (step openGate) initial
      (admission ++ [.advance 0 smoothly])).calls i = some c) : c.phase.admitted = false := by
    have only : i = 0 := by
      by_contra other
      rw [calls_unreceived openGate (by simpa [admission,DeskAction.receives] using Ne.symm other)] at found
      cases found
    subst only
    have past : ((run (step openGate) initial (admission ++ [.advance 0 smoothly])).calls 0).map
        (fun c => c.phase.admitted) = some false := by decide
    rw [found] at past
    exact Option.some.inj past
  apply revoked_never_executes
  rw [show admission ++ [.advance 0 smoothly,.elsewhere (.runtime (.revokeSession "session")),.advance 0 smoothly,
    .advance 0 smoothly] = (admission ++ [.advance 0 smoothly]) ++ [.elsewhere (.runtime (.revokeSession "session")),
      .advance 0 smoothly,.advance 0 smoothly] from rfl,along_append]
  constructor
  · intro t member
    simp only [admission,List.cons_append,List.nil_append,trace,List.mem_cons,List.not_mem_nil,or_false] at member
    rcases member with rfl | rfl | rfl | rfl | rfl | rfl
    · intro i c found
      cases found
    all_goals trivial
  · intro t member
    simp only [trace,List.mem_cons,List.not_mem_nil,or_false] at member
    rcases member with rfl | rfl | rfl
    · intro i c found admitted
      rw [alone i c found] at admitted
      cases admitted
    all_goals trivial

/-- The session is revoked between the authorization and the reservation. -/
theorem revoked_executes : ¬ guardsRevoked (trace (step openGate) initial
    (admission ++ [.elsewhere (.runtime (.revokeSession "session")),.advance 0 smoothly,.advance 0 smoothly,
      .advance 0 smoothly])) := by
  intro guards
  have reserved : ∃ t ∈ trace (step openGate) initial (admission ++
      [.elsewhere (.runtime (.revokeSession "session")),.advance 0 smoothly,.advance 0 smoothly,
        .advance 0 smoothly]), reservesInactive t = some 0 := by decide
  have executed : ∃ u ∈ trace (step openGate) initial (admission ++
      [.elsewhere (.runtime (.revokeSession "session")),.advance 0 smoothly,.advance 0 smoothly,
        .advance 0 smoothly]), (executing u).map Prod.fst = some 0 := by decide
  obtain ⟨t,first,reserves⟩ := reserved
  obtain ⟨u,second,executes⟩ := executed
  exact guards t first u second 0 reserves executes

end Desk
end SjgControl

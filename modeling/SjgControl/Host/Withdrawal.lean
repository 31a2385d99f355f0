import SjgControl.Host.Backlog
import SjgControl.Host.Solvency

/-! A wake that fails before its provider exists, from any state of the host's store: what its
handlers find, and what they leave behind. -/
namespace SjgControl
open Relational Machine

/-- Where each permitted step of a good state leads to a good one, any other to a doomed one,
and all of them come closer to the end, a run of enough steps ends well just if every step
of it is permitted. -/
theorem ends_iff_along {S A : Type} {step : S → A → S} {good doomed ended : S → Prop} {valid allowed : S → A → Prop}
    {rank : S → Nat}
    (permitted : ∀ s a, good s → valid s a → allowed s a → good (step s a) ∧ rank (step s a) ≤ rank s - 1)
    (refused : ∀ s a, good s → ¬ allowed s a → doomed (step s a) ∧ rank (step s a) ≤ rank s - 1)
    (lost : ∀ s a, doomed s → doomed (step s a) ∧ rank (step s a) ≤ rank s - 1)
    (well : ∀ s, good s → rank s = 0 → ended s) (badly : ∀ s, doomed s → rank s = 0 → ¬ ended s)
    {s : S} (initially : good s) {actions : List A} (every : Along step valid s actions)
    (enough : rank s ≤ actions.length) : ended (run step s actions) ↔ Along step allowed s actions := by
  have fails {s : S} (doom : doomed s) (actions : List A) (enough : rank s ≤ actions.length) :
      ¬ ended (run step s actions) := by
    induction actions generalizing s with
    | nil => exact badly s doom (Nat.le_zero.mp enough)
    | cons a rest ih =>
      obtain ⟨still,closer⟩ := lost s a doom
      rw [List.length_cons] at enough
      exact ih still (by omega)
  induction actions generalizing s with
  | nil => exact iff_of_true (well s initially (Nat.le_zero.mp enough)) (by simp [Along,trace])
  | cons a rest ih =>
    obtain ⟨now,later⟩ := (along_cons step).mp every
    rw [List.length_cons] at enough
    rw [along_cons,run_cons]
    by_cases allow : allowed s a
    · obtain ⟨still,closer⟩ := permitted s a initially now allow
      have rest_ := ih still later (by omega)
      exact rest_.trans (and_iff_right allow).symm
    · obtain ⟨doom,closer⟩ := refused s a initially allow
      exact iff_of_false (fails doom rest (by omega)) (fun both => allow both.1)

namespace Queue

/-- The delivery waits for another lease, its routes with it. -/
def Parked (db : Queue) (d : String) : Prop :=
  (∃ row ∈ db.deliveries.get d, row.state = .retryWait ∨ row.state = .budgetHold) ∧
    ∀ r ∈ db.routes.rows, r.deliveryId = some d → r.state = .queued

def LeasedTo (db : Queue) (owner d : String) : Prop :=
  ∃ row ∈ db.deliveries.get d, row.state = .leased ∧ row.leaseOwner = some owner

instance (db : Queue) (owner d : String) : Decidable (db.LeasedTo owner d) :=
  inferInstanceAs (Decidable (∃ row ∈ db.deliveries.get d, row.state = .leased ∧ row.leaseOwner = some owner))

theorem parked_setDeliveries {db : Queue} {d : String} {f : Delivery → Delivery}
    {keeps : ∀ r, (f r).deliveryId = r.deliveryId} {row : Delivery} (found : db.deliveries.get d = some row)
    (state : (f row).state = .retryWait ∨ (f row).state = .budgetHold) :
    (db.setDeliveries [d] f keeps .queued).Parked d := by
  have own : row.deliveryId = d := (Table.get_eq_some.mp found).2
  constructor
  · refine ⟨f row,?_,state⟩
    rw [Option.mem_def,get_setDeliveries,found,Option.map_some,if_pos (by simp [own])]
  · intro r member bound
    change r ∈ (setRoutes db.routes [d] .queued).rows at member
    unfold setRoutes at member
    obtain ⟨old,_,equal⟩ := Table.mem_update.mp member
    split at equal
    next =>
      cases equal
      rfl
    next away =>
      cases equal
      exact absurd ⟨d,bound,List.mem_singleton_self d⟩ away

theorem LeasedTo.retried {db : Queue} {owner d : String} (leased : db.LeasedTo owner d) (eligibleAt error : String) :
    ∃ next, db.retryLeasedDelivery d eligibleAt error = .ok next ∧ next.Parked d := by
  obtain ⟨row,found,state,_⟩ := leased
  refine ⟨_,require_bind_ok.mpr ⟨?_,rfl⟩,parked_setDeliveries found (.inl rfl)⟩
  rw [Option.mem_def.mp found,Option.map_some,state]

theorem LeasedTo.finished {db : Queue} {owner d : String} (leased : db.LeasedTo owner d) {outcome : DeliveryOutcome}
    (parks : outcome = .retry ∨ outcome = .budgetHold) (error eligibleAt : Option String) (now : Instant) :
    ∃ next, db.finishDelivery d owner outcome error eligibleAt now = .ok ((),next) ∧ next.Parked d := by
  obtain ⟨row,found,state,held⟩ := leased
  have fetched : (db.deliveries.get d).filter (fun r => r.state.held ∧ r.leaseOwner = some owner) = some row := by
    rw [Option.mem_def.mp found]
    simp [DeliveryState.held,state,held]
  rcases parks with rfl | rfl
  · refine ⟨_,fetch_bind_ok.mpr ⟨row,fetched,require_bind_ok.mpr ⟨by rw [state]; decide,rfl⟩⟩,?_⟩
    exact parked_setDeliveries found (.inl rfl)
  · refine ⟨_,fetch_bind_ok.mpr ⟨row,fetched,require_bind_ok.mpr ⟨by rw [state]; decide,rfl⟩⟩,?_⟩
    exact parked_setDeliveries found (.inr rfl)

end Queue

namespace Runtime
open Table

/-- The session is new since `before` and has nothing but its row. -/
structure Opened (before db : Runtime) (x : String) : Prop where
  active : db.sessionActive x
  sole : ∀ r ∈ db.sessions.rows, r.sessionId = x ∨ before.sessions.get r.sessionId ≠ none
  processes : db.processCount x = 0
  workers : db.workerCount x = 0
  wakes : ∀ w ∈ db.wakes.rows, w.sessionId ≠ x
  unbooked : ∀ r ∈ db.reservations.rows, r.sessionId ≠ x
  reservations : db.reservations = before.reservations
  solvent : db.Solvent

/-- The same once it may have a reservation, which its buckets cover. -/
structure Engaged (before db : Runtime) (x : String) : Prop where
  active : db.sessionActive x
  sole : ∀ r ∈ db.sessions.rows, r.sessionId = x ∨ before.sessions.get r.sessionId ≠ none
  processes : db.processCount x = 0
  workers : db.workerCount x = 0
  booked : ∀ r ∈ db.reservations.rows, r.sessionId = x ∨ before.reservations.get r.reservationId ≠ none
  one : ∀ r ∈ db.reservations.rows, ∀ q ∈ db.reservations.rows, r.sessionId = x → q.sessionId = x → r = q
  covered : ∀ r ∈ db.reservations.rows, r.sessionId = x → r.state = .active ∧
    ∃ row, db.sessions.get x = some row ∧ Covers db.buckets (bucketKeys row r.epoch) r.reservedTokens

structure Closed (before db : Runtime) : Prop where
  sessions : ∀ r ∈ db.sessions.rows, r.state = .active → before.sessions.get r.sessionId ≠ none
  reservations : ∀ r ∈ db.reservations.rows, before.reservations.get r.reservationId = none → r.state = .released

/-- The record of a wake that waits for its provider. -/
def Launched (db : Runtime) (session : Session) (delivery : Option String) : Prop :=
  ∃ wake, db.wakes.get session.wakeId = some wake ∧ wake.sessionId = session.sessionId ∧ wake.state = .prepared ∧
    wake.deliveryId = delivery

variable {before db next : Runtime} {x : String}

theorem createSession_opened {wakeId orgId role digest : String} {aliases : List String} {now : Instant}
    {ttl cap : Int} {session : Session} (orderly : Orderly x before) (solvent : before.Solvent)
    (ok : before.createSession x wakeId orgId role digest aliases now ttl cap = .ok (session,next)) :
    session.sessionId = x ∧ Opened before next x := by
  obtain ⟨_,_,_,_,_,_,sessions,inserted,rfl,rfl⟩ := createSession_effect ok
  have fresh : ∀ r ∈ before.sessions.rows, r.sessionId ≠ x := get_eq_none.mp (insert_fresh inserted)
  have unnamed : ∀ w ∈ before.wakes.rows, w.sessionId ≠ x := by
    intro w member own
    obtain ⟨s,present,same,_⟩ := orderly.named w member own
    exact fresh s present same
  refine ⟨rfl,?_,?_,?_,?_,unnamed,?_,rfl,solvent.same rfl⟩
  · exact sessionActive_iff.mpr ⟨_,(mem_insert inserted).mpr (.inr rfl),rfl,rfl⟩
  · intro r member
    rcases (mem_insert inserted).mp member with old | rfl
    · have there : before.sessions.get r.sessionId = some r := get_key old
      exact .inr (by simp [there])
    · exact .inl rfl
  · refine count_eq_zero.mpr (fun p member own => ?_)
    obtain ⟨w,present,same⟩ := orderly.recorded p member own
    exact unnamed w present same
  · refine count_eq_zero.mpr (fun a member own => ?_)
    obtain ⟨w,present,same⟩ := orderly.attended a member own
    exact unnamed w present same
  · intro r member own
    obtain ⟨s,present,same⟩ := orderly.entered r member own
    exact fresh s present same

theorem Opened.held (opened : Opened before db x) : Engaged before db x where
  active := opened.active
  sole := opened.sole
  processes := opened.processes
  workers := opened.workers
  booked r member := .inr (by
    have there : db.reservations.get r.reservationId = some r := get_key member
    simp [← opened.reservations,there])
  one r member _ _ own := absurd own (opened.unbooked r member)
  covered r member own := absurd own (opened.unbooked r member)

theorem reserveBudget_shape {reservationId epoch value : String} {requested : Int}
    {buckets : List (String × String × Int)} {now : Instant}
    (ok : db.reserveBudget reservationId x epoch requested buckets now = .ok (value,next)) :
    ∃ charged reservations, next = {db with buckets := charged,reservations} := by
  obtain ⟨_,_,_,_,_,_,_,_,_,_,_,rfl⟩ := reserveBudget_effect ok
  exact ⟨_,_,rfl⟩

theorem reserveBudget_held {reservationId epoch value : String} {requested : Int}
    {buckets : List (String × String × Int)} {now : Instant} (opened : Opened before db x)
    (ok : db.reserveBudget reservationId x epoch requested buckets now = .ok (value,next)) :
    Engaged before next x ∧ ∀ w ∈ next.wakes.rows, w.sessionId ≠ x := by
  obtain ⟨positive,_,inserted,row,found,_,own⟩ := reserveBudget_ok ok
  obtain ⟨charged,reservations,rfl⟩ := reserveBudget_shape ok
  have drawn {r : BudgetReservation} (member : r ∈ reservations.rows) (mine : r.sessionId = x) :
      r = ⟨reservationId,x,epoch,requested,.active⟩ := by
    rcases (mem_insert inserted).mp member with old | new
    · exact absurd mine (opened.unbooked r old)
    · exact new
  refine ⟨⟨opened.active,opened.sole,opened.processes,opened.workers,?_,?_,?_⟩,opened.wakes⟩
  · intro r member
    rcases (mem_insert inserted).mp member with old | rfl
    · exact opened.held.booked r old
    · exact .inl rfl
  · intro r member q other mine too
    rw [drawn member mine,drawn other too]
  · intro r member mine
    cases drawn member mine
    refine ⟨rfl,row,found,?_⟩
    intro key inside
    obtain ⟨b,there,reserved,_⟩ := own key inside
    have before := opened.solvent.reservedAt key
    exact ⟨b,there,by dsimp only; omega⟩

theorem mem_endSession {state : SessionState} (ended : state ≠ .active) {r : WakeSession}
    (member : r ∈ (db.endSession x state).rows) (active : r.state = .active) :
    r ∈ db.sessions.rows ∧ r.sessionId ≠ x := by
  unfold endSession at member
  obtain ⟨old,present,equal⟩ := mem_update.mp member
  split at equal
  next =>
    cases equal
    exact absurd active ended
  next other =>
    cases equal
    exact ⟨present,fun own => other ⟨own,active⟩⟩

theorem revoked_sessions (sole : ∀ r ∈ db.sessions.rows, r.sessionId = x ∨ before.sessions.get r.sessionId ≠ none) :
    ∀ r ∈ (db.endSession x .revoked).rows, r.state = .active → before.sessions.get r.sessionId ≠ none := by
  intro r member active
  obtain ⟨present,other⟩ := mem_endSession (by simp) member active
  exact (sole r present).resolve_left other

theorem Opened.revoked (opened : Opened before db x) : ∃ next, db.revokeSession x = .ok ((),next) ∧ Closed before next ∧
    ¬ next.sessionActive x ∧ ∀ w ∈ next.wakes.rows, w.sessionId ≠ x := by
  have idle : db.activeWorkers x = 0 := count_eq_zero.mpr
    (fun a member live => count_eq_zero.mp opened.workers a member live.1)
  refine ⟨_,require_bind_ok.mpr ⟨idle,require_bind_ok.mpr ⟨opened.active,rfl⟩⟩,?_,?_,opened.wakes⟩
  · constructor
    · exact revoked_sessions opened.sole
    · intro r member new
      have there : db.reservations.get r.reservationId = some r := get_key member
      rw [opened.reservations,new] at there
      cases there
  · intro active
    obtain ⟨r,member,own,state⟩ := sessionActive_iff.mp active
    exact (mem_endSession (by simp) member state).2 own

theorem Engaged.closed {middle : Runtime} {wakes : Table WakeRuntime} (held : Engaged before db x)
    (ok : db.releaseReservationFor x = .ok middle) :
    Closed before {middle with sessions := middle.endSession x .revoked,wakes} := by
  rcases releaseReservationFor_ok ok with ⟨rfl,free⟩ | ⟨r,member,own,_,_,rfl⟩
  · constructor
    · exact revoked_sessions held.sole
    · intro r member new
      exact absurd new ((held.booked r member).resolve_left (free r member))
  · constructor
    · exact revoked_sessions held.sole
    · intro q present new
      obtain ⟨old,listed,equal⟩ := List.mem_map.mp present
      split at equal
      next =>
        cases equal
        rfl
      next other =>
        cases equal
        have mine := (held.booked q listed).resolve_right (fun known => known new)
        exact absurd (congrArg BudgetReservation.reservationId (held.one q listed r member mine own)) other

end Runtime

namespace Store
variable {before : Runtime} {db : Store} {x owner error : String} {delivery : Option String}

theorem prepareWake_launched {session : Session} {reservationId socketPath reason : String} {now : Instant} {next : Store}
    (held : Runtime.Engaged before db.runtime session.sessionId)
    (ok : db.prepareWake session delivery reservationId socketPath reason now = .ok ((),next)) :
    next.queue = db.queue ∧ Runtime.Engaged before next.runtime session.sessionId ∧ next.runtime.Launched session delivery := by
  obtain ⟨_,_,runtime,entry,rfl⟩ := prepareWake_effect ok
  obtain ⟨_,wakes,inserted,rfl⟩ := Runtime.insertWake_effect entry
  refine ⟨rfl,⟨held.active,held.sole,held.processes,held.workers,held.booked,held.one,held.covered⟩,?_⟩
  exact ⟨_,Table.get_eq_some.mpr ⟨(Table.mem_insert inserted).mpr (.inr rfl),rfl⟩,rfl,rfl,rfl⟩

/-- Where no wake is on record, the session and its delivery are given back. -/
theorem orphan_recovered (held : Runtime.Engaged before db.runtime x)
    (unlaunched : ∀ w ∈ db.runtime.wakes.rows, w.sessionId ≠ x)
    (leased : ∀ d ∈ delivery, db.queue.LeasedTo owner d) (time : String) :
    ∃ next, db.recoverOrphanSession x delivery (delivery.map (fun _ => time)) error = .ok ((),next) ∧
      Runtime.Closed before next.runtime ∧ ∀ d ∈ delivery, next.queue.Parked d := by
  obtain ⟨middle,released⟩ := Runtime.releasable held.covered
  have guard := And.intro held.active (And.intro (Table.count_eq_zero.mpr unlaunched)
    (And.intro held.processes held.workers))
  cases delivery with
  | none =>
    refine ⟨{db with runtime := {middle with sessions := middle.endSession x .revoked}},
      require_bind_ok.mpr ⟨guard,bind_ok.mpr ⟨middle,released,rfl⟩⟩,held.closed released,?_⟩
    intro d named
    cases named
  | some d =>
    obtain ⟨queue,retried,parked⟩ := (leased d rfl).retried time error
    refine ⟨{db with runtime := {middle with sessions := middle.endSession x .revoked},queue},
      require_bind_ok.mpr ⟨guard,bind_ok.mpr ⟨middle,released,fetch_bind_ok.mpr ⟨time,rfl,
        bind_ok.mpr ⟨queue,retried,rfl⟩⟩⟩⟩,held.closed released,?_⟩
    intro d' named
    cases named
    exact parked

theorem prepared_recovered {session : Session} (held : Runtime.Engaged before db.runtime session.sessionId)
    (launched : db.runtime.Launched session delivery)
    (leased : ∀ d ∈ delivery, d ≠ "" ∧ db.queue.LeasedTo owner d) (time : String) (now : Instant) :
    ∃ next, db.recoverPreparedWake session.wakeId time error now = .ok ((),next) ∧
      Runtime.Closed before next.runtime ∧ ∀ d ∈ delivery, next.queue.Parked d := by
  obtain ⟨wake,found,own,prepared,target⟩ := launched
  obtain ⟨middle,released⟩ := Runtime.releasable held.covered
  have fetched : (db.runtime.wakes.get session.wakeId).filter (fun r => r.state = .prepared) = some wake := by
    simp [found,prepared]
  have guard := And.intro held.active (And.intro held.processes held.workers)
  rw [← own] at guard released
  let runtime : Runtime := {middle with
    wakes := middle.wakes.update (fun r => r.wakeId = session.wakeId)
      (fun r => {r with
        state := .failed
        finishedAt := some now.isoText
        errorDetail := some error}) (fun _ => rfl)
    sessions := middle.endSession wake.sessionId .revoked}
  have closed : Runtime.Closed before runtime := by
    unfold runtime
    rw [own]
    exact held.closed (own ▸ released)
  cases delivery with
  | none =>
    refine ⟨{db with runtime},fetch_bind_ok.mpr ⟨wake,fetched,require_bind_ok.mpr ⟨guard,bind_ok.mpr ⟨middle,released,?_⟩⟩⟩,
      closed,?_⟩
    · rw [target]
      rfl
    · intro d named
      cases named
  | some d =>
    obtain ⟨nonempty,lease⟩ := leased d rfl
    obtain ⟨queue,retried,parked⟩ := lease.retried time error
    refine ⟨{db with runtime,queue},fetch_bind_ok.mpr ⟨wake,fetched,require_bind_ok.mpr ⟨guard,bind_ok.mpr
      ⟨middle,released,?_⟩⟩⟩,closed,?_⟩
    · rw [target]
      dsimp only
      rw [if_neg nonempty]
      exact bind_ok.mpr ⟨queue,retried,rfl⟩
    · intro d' named
      cases named
      exact parked

end Store

namespace WakeThread

section Alone
variable (cfg : Settings)

/-- The thread on its own. -/
def alone (s : World × WakeThread) (input : Input) : World × WakeThread := s.1.perform (s.2.access cfg input)

/-- No provider comes into being: what stands between the record of the wake and its process raises. -/
def unspawned (s : World × WakeThread) (input : Input) : Prop := ∀ g, s.2.point = .prepared g → input.fault ≠ none

def reserving (t : WakeThread) (session : Session) (input : Input) : Op :=
  .runtime (.reserveBudget input.uuid session.sessionId input.now.dateText (cfg.roleTokenReservations t.role)
    [("org",cfg.orgId,cfg.organizationDailyTokenBudget),("role",t.role,cfg.dailyTokenBudget t.role)] input.now)

/-- If the reservation is refused, it is for want of budget and there is a delivery to put on hold. -/
def spares (s : World × WakeThread) (input : Input) : Prop :=
  ∀ session message, s.2.point = .sessioned session →
    (s.1.store.apply (s.2.reserving cfg session input)).result = .error (.stateError message) →
      s.2.delivery ≠ none ∧ budgetHold message

end Alone

structure Cleaned (before : Store) (s : World × WakeThread) : Prop where
  returned : ∃ status tokens, s.2.point = .returned status tokens
  closed : Runtime.Closed before.runtime s.1.store.runtime
  parked : ∀ d ∈ s.2.delivery, s.1.store.queue.Parked d

/-- The points up to the provider, each with what holds of the store there. -/
inductive Sound (before : Store) (delivery : Option String) : Store → WakePoint → Prop
  | entered : Sound before delivery before .entered
  | unpaused : Sound before delivery before .unpaused
  | paused {d : String} (named : delivery = some d) : Sound before delivery before (.paused d)
  | declining {error : String} : Sound before delivery before (.declining error)
  | sessioned {db : Store} {session : Session} (queue : db.queue = before.queue)
      (opened : Runtime.Opened before.runtime db.runtime session.sessionId) :
      Sound before delivery db (.sessioned session)
  | refused {db : Store} {session : Session} {message : String} (queue : db.queue = before.queue)
      (opened : Runtime.Opened before.runtime db.runtime session.sessionId)
      (holds : delivery ≠ none ∧ budgetHold message) : Sound before delivery db (.refused session message)
  | overdrawn {db : Store} {session : Session} {d message : String} (queue : db.queue = before.queue)
      (closed : Runtime.Closed before.runtime db.runtime) (named : delivery = some d) :
      Sound before delivery db (.overdrawn session d message)
  | budgeted {db : Store} {g : Grant} (queue : db.queue = before.queue)
      (held : Runtime.Engaged before.runtime db.runtime g.session.sessionId)
      (unlaunched : ∀ w ∈ db.runtime.wakes.rows, w.sessionId ≠ g.session.sessionId) :
      Sound before delivery db (.budgeted g)
  | prepared {db : Store} {g : Grant} (queue : db.queue = before.queue)
      (held : Runtime.Engaged before.runtime db.runtime g.session.sessionId)
      (launched : db.runtime.Launched g.session delivery) : Sound before delivery db (.prepared g)
  | withdrawing {db : Store} {session : Session} {error : String} (queue : db.queue = before.queue)
      (held : Runtime.Engaged before.runtime db.runtime session.sessionId)
      (found : (∀ w ∈ db.runtime.wakes.rows, w.sessionId ≠ session.sessionId) ∨ db.runtime.Launched session delivery) :
      Sound before delivery db (.withdrawing session error)
  | orphaned {db : Store} {session : Session} {error : String} (queue : db.queue = before.queue)
      (held : Runtime.Engaged before.runtime db.runtime session.sessionId)
      (unlaunched : ∀ w ∈ db.runtime.wakes.rows, w.sessionId ≠ session.sessionId) :
      Sound before delivery db (.orphaned session error)
  | unlaunched {db : Store} {session : Session} {error : String} (queue : db.queue = before.queue)
      (held : Runtime.Engaged before.runtime db.runtime session.sessionId)
      (launched : db.runtime.Launched session delivery) : Sound before delivery db (.unlaunched session error)
  | returned {db : Store} {status : String} {tokens : Option Nat} (closed : Runtime.Closed before.runtime db.runtime)
      (parked : ∀ d ∈ delivery, db.queue.Parked d) : Sound before delivery db (.returned status tokens)

/-- The points behind a refusal that the outer handler cannot clean up after: the inner one has
revoked the session. -/
inductive Doomed (before : Store) (delivery : Option String) : Store → WakePoint → Prop
  | refused {db : Store} {session : Session} {message : String}
      (opened : Runtime.Opened before.runtime db.runtime session.sessionId)
      (lost : ¬ (delivery ≠ none ∧ budgetHold message)) : Doomed before delivery db (.refused session message)
  | withdrawing {db : Store} {session : Session} {error : String} (inactive : ¬ db.runtime.sessionActive session.sessionId)
      (unlaunched : ∀ w ∈ db.runtime.wakes.rows, w.sessionId ≠ session.sessionId) :
      Doomed before delivery db (.withdrawing session error)
  | orphaned {db : Store} {session : Session} {error : String}
      (inactive : ¬ db.runtime.sessionActive session.sessionId) : Doomed before delivery db (.orphaned session error)
  | raised {db : Store} {error : String} : Doomed before delivery db (.raised error)

def rank : WakePoint → Nat
  | .entered => 7
  | .unpaused => 6
  | .sessioned _ => 5
  | .budgeted _ | .refused _ _ => 4
  | .prepared _ => 3
  | .withdrawing _ _ | .paused _ => 2
  | .orphaned _ _ | .unlaunched _ _ | .overdrawn _ _ _ | .declining _ => 1
  | _ => 0

variable {cfg : Settings} {before : Store} {delivery : Option String} {input : Input}

theorem atomically_of_ok {S : Type} {state next : S} {body : Except StoreError (Unit × S)} (ok : body = .ok ((),next)) :
    atomically state body = ⟨.ok (),next⟩ := by
  rw [ok]
  rfl

theorem closed_refl (db : Runtime) : Runtime.Closed db db where
  sessions r member _ := by
    have there : db.sessions.get r.sessionId = some r := Table.get_key member
    simp [there]
  reservations r member new := by
    have there : db.reservations.get r.reservationId = some r := Table.get_key member
    rw [new] at there
    cases there

/-- A good state, the thread's delivery included. -/
def Good (before : Store) (delivery : Option String) (s : World × WakeThread) : Prop :=
  s.2.delivery = delivery ∧ Sound before delivery s.1.store s.2.point

def Lost (before : Store) (delivery : Option String) (s : World × WakeThread) : Prop :=
  s.2.delivery = delivery ∧ Doomed before delivery s.1.store s.2.point

theorem finish_call {db : Store} {owner d : String} (leased : db.queue.LeasedTo owner d) {outcome : DeliveryOutcome}
    (parks : outcome = .retry ∨ outcome = .budgetHold) (error eligibleAt : Option String) (now : Instant) :
    ∃ queue, db.apply (.queue (.finishDelivery d owner outcome error eligibleAt now)) = ⟨.ok (),{db with queue}⟩ ∧
      queue.Parked d := by
  obtain ⟨queue,finished,parked⟩ := leased.finished parks error eligibleAt now
  refine ⟨queue,?_,parked⟩
  have body : db.queue.body (.finishDelivery d owner outcome error eligibleAt now) = .ok ((),queue) := finished
  simp only [Store.apply,Store.lift,atomically_of_ok body]

section Steps
variable (orderly : ∀ x, Runtime.Orderly x before.runtime) (solvent : before.runtime.Solvent)
  (leased : ∀ d ∈ delivery, d ≠ "" ∧ before.queue.LeasedTo cfg.owner d)
include orderly solvent leased

theorem Good.step {s : World × WakeThread} (good : Good before delivery s) (valid : unspawned s input)
    (spare : spares cfg s input) :
    Good before delivery (alone cfg s input) ∧ rank (alone cfg s input).2.point ≤ rank s.2.point - 1 := by
  obtain ⟨⟨db,providers,usage,uncertainUsage⟩,⟨role,named,reason,point⟩⟩ := s
  obtain ⟨assigned,sound⟩ := good
  dsimp only at assigned sound
  subst assigned
  cases sound with
  | entered =>
    simp only [alone,access,World.perform]
    split
    next =>
      cases named with
      | none => exact ⟨⟨rfl,.returned (closed_refl _) (by simp)⟩,by simp [rank,at_]⟩
      | some d => exact ⟨⟨rfl,.paused rfl⟩,by simp [rank,at_]⟩
    next => exact ⟨⟨rfl,.unpaused⟩,by simp [rank,at_]⟩
  | @paused d equal =>
    obtain ⟨queue,finished,parked⟩ := finish_call (leased d equal).2 (.inl rfl) (some "supervisor is paused")
      (some input.retryTime) input.now
    simp only [alone,access,finishDelivery,World.perform,Store.step,finished,proceed]
    refine ⟨⟨rfl,.returned (closed_refl _) ?_⟩,by simp [rank,at_]⟩
    intro other own
    cases Option.some.inj (equal.symm.trans own)
    exact parked
  | @declining error =>
    cases named with
    | none => exact ⟨⟨rfl,.returned (closed_refl _) (by simp)⟩,by simp [rank,alone,access,World.perform,at_]⟩
    | some d =>
      obtain ⟨queue,finished,parked⟩ := finish_call (leased d rfl).2 (.inl rfl) (some error)
        (some input.retryTime) input.now
      simp only [alone,access,finishDelivery,World.perform,Store.step,finished]
      refine ⟨⟨rfl,.returned (closed_refl _) ?_⟩,by simp [rank,at_]⟩
      intro other own
      cases own
      exact parked
  | unpaused =>
    simp only [alone,access,World.perform]
    cases created : before.runtime.createSession input.uuid input.wakeUuid cfg.orgId role cfg.policyDigest
        (cfg.repositories role) input.now cfg.sessionTtlSeconds cfg.globalMaxAgents with
    | error e => exact ⟨⟨rfl,.declining⟩,by simp [rank,atomically,at_]⟩
    | ok both =>
      obtain ⟨own,opened⟩ := Runtime.createSession_opened (orderly input.uuid) solvent created
      exact ⟨⟨rfl,.sessioned rfl (own ▸ opened)⟩,by simp [rank,atomically,at_]⟩
  | @sessioned _ session queue opened =>
    cases booked : db.runtime.reserveBudget input.uuid session.sessionId input.now.dateText
        (cfg.roleTokenReservations role) [("org",cfg.orgId,cfg.organizationDailyTokenBudget),
          ("role",role,cfg.dailyTokenBudget role)] input.now with
    | ok both =>
      obtain ⟨held,unlaunched⟩ := Runtime.reserveBudget_held opened booked
      simp only [alone,access,World.perform,Store.step,Store.apply,Runtime.apply,Runtime.body,discard,booked,Except.map,
        atomically,Store.lift]
      exact ⟨⟨rfl,.budgeted queue held unlaunched⟩,by simp [rank,at_]⟩
    | error e =>
      have refusal : (db.apply (reserving cfg ⟨role,named,reason,.sessioned session⟩ session input)).result = .error e := by
        simp only [reserving,Store.apply,Runtime.apply,Runtime.body,discard,booked,Except.map,atomically,Store.lift]
      simp only [alone,access,World.perform,Store.step,Store.apply,Runtime.apply,Runtime.body,discard,booked,Except.map,
        atomically,Store.lift]
      cases e with
      | stateError message =>
        have holds := spare session message rfl refusal
        exact ⟨⟨rfl,.refused queue opened holds⟩,by simp [rank,at_]⟩
      | _ => exact ⟨⟨rfl,.withdrawing queue opened.held (.inl opened.wakes)⟩,by simp [rank,at_,unstarted]⟩
  | @refused _ session message queue opened holds =>
    obtain ⟨next,revoked,closed,_⟩ := opened.revoked
    obtain ⟨present,hold⟩ := holds
    obtain ⟨d,rfl⟩ := Option.ne_none_iff_exists'.mp present
    simp only [alone,access,World.perform,Store.step,Store.apply,Runtime.apply,Runtime.body,revoked,atomically,Store.lift,
      if_pos hold]
    exact ⟨⟨rfl,.overdrawn queue closed rfl⟩,by simp [rank,at_]⟩
  | @overdrawn _ session d message queue closed equal =>
    obtain ⟨queue',finished,parked⟩ := @finish_call db cfg.owner d (queue ▸ (leased d equal).2) .budgetHold (.inr rfl)
      (some message) (some input.tomorrow) input.now
    simp only [alone,access,finishDelivery,World.perform,Store.step,finished,proceed]
    refine ⟨⟨rfl,.returned closed ?_⟩,by simp [rank,at_]⟩
    intro other own
    cases Option.some.inj (equal.symm.trans own)
    exact parked
  | @budgeted _ g queue held unlaunched =>
    simp only [alone,access,World.perform,Store.step,Store.apply]
    cases launched : db.prepareWake g.session named g.reservation (socketPath cfg g.session.wakeId) reason input.now with
    | error e => exact ⟨⟨rfl,.withdrawing queue held (.inl unlaunched)⟩,by simp [rank,at_,atomically,proceed,unstarted]⟩
    | ok both =>
      obtain ⟨same,held,launched⟩ := Store.prepareWake_launched held launched
      exact ⟨⟨rfl,.prepared (same.trans queue) held launched⟩,by simp [rank,at_,atomically,proceed]⟩
  | @prepared _ g queue held launched =>
    obtain ⟨fault,raises⟩ := Option.ne_none_iff_exists'.mp (valid g rfl)
    simp only [alone,access,raises,World.perform]
    exact ⟨⟨rfl,.withdrawing queue held (.inr launched)⟩,by simp [rank,at_,unstarted]⟩
  | @withdrawing _ session error queue held found =>
    simp only [alone,access,World.perform]
    split
    next none_ =>
      refine ⟨⟨rfl,.orphaned queue held ?_⟩,by simp [rank,at_]⟩
      exact Table.first_none.mp none_
    next row there =>
      obtain ⟨member,own⟩ := Table.first_some there
      exact ⟨⟨rfl,.unlaunched queue held (found.resolve_left (fun none_ => none_ row member own))⟩,by simp [rank,at_]⟩
  | @orphaned _ session error queue held unlaunched =>
    obtain ⟨next,recovered,closed,parked⟩ := @Store.orphan_recovered before.runtime db session.sessionId cfg.owner error
      named held unlaunched (fun d own => queue ▸ (leased d own).2) input.retryTime
    simp only [alone,access,World.perform,Store.step,Store.apply,atomically_of_ok recovered,proceed]
    exact ⟨⟨rfl,.returned closed parked⟩,by simp [rank,at_]⟩
  | @unlaunched _ session error queue held launched =>
    obtain ⟨next,recovered,closed,parked⟩ := @Store.prepared_recovered before.runtime db cfg.owner error named session
      held launched (fun d own => queue ▸ leased d own) input.retryTime input.now
    simp only [alone,access,World.perform,Store.step,Store.apply,atomically_of_ok recovered,proceed]
    exact ⟨⟨rfl,.returned closed parked⟩,by simp [rank,at_]⟩
  | returned closed parked => exact ⟨⟨rfl,.returned closed parked⟩,by simp [rank,alone,access,World.perform]⟩

end Steps

/-- A refusal that the handlers do not foresee. -/
theorem Good.refuse {s : World × WakeThread} (good : Good before delivery s) (refusal : ¬ spares cfg s input) :
    Lost before delivery (alone cfg s input) ∧ rank (alone cfg s input).2.point ≤ rank s.2.point - 1 := by
  obtain ⟨⟨db,providers,usage,uncertainUsage⟩,⟨role,named,reason,point⟩⟩ := s
  obtain ⟨assigned,sound⟩ := good
  dsimp only at assigned sound
  subst assigned
  simp only [spares] at refusal
  push Not at refusal
  obtain ⟨session,message,rfl,refused,lost⟩ := refusal
  have unforeseen : ¬ (named ≠ none ∧ budgetHold message) := fun both => lost both.1 both.2
  cases sound with
  | sessioned queue opened =>
    cases booked : db.runtime.reserveBudget input.uuid session.sessionId input.now.dateText
        (cfg.roleTokenReservations role) [("org",cfg.orgId,cfg.organizationDailyTokenBudget),
          ("role",role,cfg.dailyTokenBudget role)] input.now with
    | ok both =>
      simp only [reserving,Store.apply,Runtime.apply,Runtime.body,discard,booked,Except.map,atomically,Store.lift] at refused
      cases refused
    | error e =>
      simp only [reserving,Store.apply,Runtime.apply,Runtime.body,discard,booked,Except.map,atomically,Store.lift] at refused
      cases refused
      simp only [alone,access,World.perform,Store.step,Store.apply,Runtime.apply,Runtime.body,discard,booked,Except.map,
        atomically,Store.lift]
      exact ⟨⟨rfl,.refused opened unforeseen⟩,by simp [rank,at_]⟩

theorem Lost.step {s : World × WakeThread} (lost : Lost before delivery s) :
    Lost before delivery (alone cfg s input) ∧ rank (alone cfg s input).2.point ≤ rank s.2.point - 1 := by
  obtain ⟨⟨db,providers,usage,uncertainUsage⟩,⟨role,named,reason,point⟩⟩ := s
  obtain ⟨assigned,doomed⟩ := lost
  dsimp only at assigned doomed
  subst assigned
  cases doomed with
  | @refused session message opened unforeseen =>
    obtain ⟨next,revoked,_,inactive,unlaunched⟩ := opened.revoked
    simp only [alone,access,World.perform,Store.step,Store.apply,Runtime.apply,Runtime.body,revoked,atomically,Store.lift]
    split
    next d =>
      rw [if_neg (fun hold => unforeseen ⟨by simp,hold⟩)]
      exact ⟨⟨rfl,.withdrawing inactive unlaunched⟩,by simp [rank,at_,unstarted]⟩
    next => exact ⟨⟨rfl,.withdrawing inactive unlaunched⟩,by simp [rank,at_,unstarted]⟩
  | @withdrawing session error inactive unlaunched =>
    have none_ := Table.first_none.mpr unlaunched
    simp only [alone,access,World.perform,none_]
    exact ⟨⟨rfl,.orphaned inactive⟩,by simp [rank,at_]⟩
  | @orphaned session error inactive =>
    simp only [alone,access,World.perform,Store.step,Store.apply]
    cases recovered : db.recoverOrphanSession session.sessionId named (named.map (fun _ => input.retryTime)) error with
    | ok both =>
      exact absurd (Store.recoverOrphanSession_effect recovered).1.1 inactive
    | error e =>
      simp only [atomically,proceed]
      exact ⟨⟨rfl,.raised⟩,by simp [rank,at_]⟩
  | raised => exact ⟨⟨rfl,.raised⟩,by simp [rank,alone,access,World.perform]⟩

theorem Good.cleaned {s : World × WakeThread} (good : Good before delivery s) (ended : rank s.2.point = 0) :
    Cleaned before s := by
  obtain ⟨⟨db,providers,usage,uncertainUsage⟩,⟨role,named,reason,point⟩⟩ := s
  obtain ⟨assigned,sound⟩ := good
  dsimp only at assigned sound ended
  subst assigned
  cases sound with
  | returned closed parked => exact ⟨⟨_,_,rfl⟩,closed,parked⟩
  | _ => simp [rank] at ended

theorem Lost.not_cleaned {s : World × WakeThread} (lost : Lost before delivery s) : ¬ Cleaned before s := by
  intro cleaned
  obtain ⟨status,tokens,returned⟩ := cleaned.returned
  have doomed := lost.2
  rw [returned] at doomed
  cases doomed

/-- A wake that comes to nothing before its provider exists leaves nothing behind, unless its
reservation is refused for a reason that the inner handler does not settle: then that handler
has revoked the session, and the outer one raises. -/
theorem unspawned_cleaned_iff (cfg : Settings) (actions : List HostAction) (role reason : String) (delivery : Option String)
    (inputs : List Input) :
    let w := (run (Host.step cfg) Host.initial actions).world
    let s := (w,(⟨role,delivery,reason,.entered⟩ : WakeThread))
    (∀ d ∈ delivery, d ≠ "" ∧ w.store.queue.LeasedTo cfg.owner d) → 7 ≤ inputs.length →
      Along (alone cfg) unspawned s inputs →
        (Cleaned w.store (run (alone cfg) s inputs) ↔ Along (alone cfg) (spares cfg) s inputs) := by
  intro w s leased enough every
  have regular := Host.regular_run cfg actions
  obtain ⟨_,ledger⟩ := Host.audited_run cfg actions
  exact @ends_iff_along _ _ (alone cfg) (Good w.store delivery) (Lost w.store delivery) (Cleaned w.store) unspawned
    (spares cfg) (fun s => rank s.2.point)
    (fun _ _ good valid spare => good.step regular.orderly ledger.solvent leased valid spare)
    (fun _ _ good refusal => good.refuse refusal) (fun _ _ lost => lost.step) (fun _ good ended => good.cleaned ended)
    (fun _ lost _ => lost.not_cleaned) s ⟨rfl,.entered⟩ inputs every enough

theorem unspawned_of_faults {s : World × WakeThread} {inputs : List Input} (faulty : ∀ input ∈ inputs, input.fault ≠ none) :
    Along (alone cfg) unspawned s inputs := by
  intro t member g _
  exact along_of_forall (alone cfg) faulty t member

/-- The socket of the wake does not come up. -/
def unserved : Input := {Host.smooth "b" with fault := some (.other "wake socket failed to start")}

def leasedOnce : List HostAction := Host.enqueued ++ [.store (.queue (.leaseDelivery "supervisor" Host.midnight 300 3))]

theorem unspawned_cleaned_iff_unserved :
    let w := (run (Host.step Host.smallOrganization) Host.initial leasedOnce).world
    let s := (w,(⟨"dev",some "delivery","routed GitHub events",.entered⟩ : WakeThread))
    Cleaned w.store (run (alone Host.smallOrganization) s (List.replicate 7 unserved)) ↔
      Along (alone Host.smallOrganization) (spares Host.smallOrganization) s (List.replicate 7 unserved) := by
  refine unspawned_cleaned_iff Host.smallOrganization leasedOnce "dev" "routed GitHub events" (some "delivery") _ ?_ (by decide) ?_
  · intro d named
    cases named
    exact ⟨by decide,by decide⟩
  · apply unspawned_of_faults
    intro input member
    cases List.eq_of_mem_replicate member
    simp [unserved]

/-- The orchestrator's wake has a reservation that leaves too little for another one. -/
def reservedElsewhere : List HostAction :=
  .wake "po" none "operator"::List.replicate 3 (.wakeStep 0 (Host.smooth "a"))

/-- A manual wake of the developer, who finds the day's budget taken, raises. -/
theorem manual_wake_raises :
    let w := (run (Host.step Host.smallOrganization) Host.initial reservedElsewhere).world
    let s := (w,(⟨"dev",none,"operator",.entered⟩ : WakeThread))
    Along (alone Host.smallOrganization) unspawned s (List.replicate 7 unserved) ∧
      ¬ Cleaned w.store (run (alone Host.smallOrganization) s (List.replicate 7 unserved)) := by
  constructor
  · apply unspawned_of_faults
    intro input member
    cases List.eq_of_mem_replicate member
    simp [unserved]
  · intro cleaned
    obtain ⟨status,tokens,returned⟩ := cleaned.returned
    cases returned

end WakeThread
end SjgControl

import SjgControl.Host.Backlog

/-! What the retry ceiling counts. `lease_delivery` counts an attempt when it leases, a wake
opens its session later, and only a budget hold takes the attempt back. The roster keeps
beside the host how many sessions were opened for each delivery. -/
namespace SjgControl
open Relational Machine

/-- The deliveries whose lease the operation ends while it keeps the attempt counted for it. -/
def Op.surrenders (db : Store) : Op → List String
  | .queue (.finishDelivery delivery _ outcome _ _ _) => if outcome = .retry then [delivery] else []
  | .queue (.leaseDelivery _ instant _ _) =>
    Queue.ids (db.queue.deliveries.select (fun r => r.state = .leased ∧ Queue.leaseExpired instant.isoText r))
  | .recoverOrphanSession _ deliveryId _ _ => deliveryId.toList
  | .recoverPreparedWake wakeId _ _ _ => ((db.runtime.wakes.get wakeId).bind WakeRuntime.deliveryId).toList
  | _ => []

def Op.maxAttempts : Op → Option Int
  | .queue (.leaseDelivery _ _ _ maxAttempts) => some maxAttempts
  | _ => none

namespace Queue
variable {db next : Queue} {d : String} {row after : Delivery}

theorem get_setOne_other {delivery : String} {f : Delivery → Delivery}
    {keeps : ∀ r, (f r).deliveryId = r.deliveryId} {route : RouteState}
    (found : db.deliveries.get d = some row) (other : delivery ≠ d) :
    (db.setDeliveries [delivery] f keeps route).deliveries.get d = some row := by
  have own : row.deliveryId = d := (Table.get_eq_some.mp found).2
  have away : row.deliveryId ∉ [delivery] := by
    rw [own,List.mem_singleton]
    exact fun same => other same.symm
  rw [get_setDeliveries,found,Option.map_some,if_neg away]

theorem leaseDelivery_leased {owner : String} {instant : Instant} {leaseSeconds maxAttempts : Int}
    {found : Option Delivery} (ok : db.leaseDelivery owner instant leaseSeconds maxAttempts = .ok (found,next))
    (before : db.deliveries.get d = some row) (leased : row.state = .leased)
    (valid : ¬ leaseExpired instant.isoText row) :
    next.deliveries.get d = some row ∧ leaseTurn found d = .idle := by
  have same : sweepRow instant.isoText maxAttempts row = row := by
    simp [sweepRow,quarantineRow,reclaimRow,buryRow,leased,valid,DeliveryState.leasable]
  have swept : (db.swept instant.isoText maxAttempts).deliveries.get d = some row := by
    rw [get_swept,before,Option.map_some,same]
  obtain ⟨_,⟨_,rfl,rfl⟩ | ⟨chosen,expiry,first,rfl,rfl⟩⟩ := leaseDelivery_ok ok
  · exact ⟨swept,by simp [leaseTurn]⟩
  · obtain ⟨present,leasable,_⟩ := nextEligible_some first
    have other : chosen.deliveryId ≠ d := by
      intro own
      have equal := Table.get_key present
      rw [show Keyed.key chosen = d from own,swept] at equal
      rw [← Option.some.inj equal,leased] at leasable
      simp [DeliveryState.leasable] at leasable
    have held : (db.swept instant.isoText maxAttempts).deliveries.get chosen.deliveryId = some chosen :=
      Table.get_key present
    refine ⟨get_setOne_other swept other,?_⟩
    rw [get_leaseTo,held,Option.map_some,if_pos rfl]
    simp [leaseTurn,leaseRow,other]

theorem sweepRow_deadLetter (timestamp : String) (maxAttempts : Int) (r : Delivery) :
    (sweepRow timestamp maxAttempts r).state = .deadLetter ↔ r.state = .deadLetter ∨
      (r.state.leasable ∨ r.state = .leased ∧ leaseExpired timestamp r) ∧ maxAttempts ≤ r.attempt := by
  by_cases expired : leaseExpired timestamp r <;> by_cases spent : maxAttempts ≤ r.attempt <;>
    cases state : r.state <;>
    simp [sweepRow,quarantineRow,reclaimRow,buryRow,state,expired,spent,DeliveryState.leasable]

theorem leaseDelivery_buries {owner : String} {instant : Instant} {leaseSeconds maxAttempts : Int}
    {found : Option Delivery} (ok : db.leaseDelivery owner instant leaseSeconds maxAttempts = .ok (found,next))
    (before : db.deliveries.get d = some row) (alive : row.state ≠ .deadLetter)
    (final : next.deliveries.get d = some after) (dead : after.state = .deadLetter) :
    (row.state.leasable ∨ row.state = .leased ∧ leaseExpired instant.isoText row) ∧ maxAttempts ≤ row.attempt := by
  have swept : (db.swept instant.isoText maxAttempts).deliveries.get d = some after := by
    obtain ⟨_,⟨_,rfl,rfl⟩ | ⟨chosen,expiry,_,rfl,rfl⟩⟩ := leaseDelivery_ok ok
    · exact final
    · rw [get_leaseTo] at final
      obtain ⟨old,present,equal⟩ := Option.map_eq_some_iff.mp final
      split at equal
      next =>
        rw [← equal] at dead
        contradiction
      next => rw [present,equal]
  rw [get_swept,before,Option.map_some] at swept
  rw [← Option.some.inj swept] at dead
  exact ((sweepRow_deadLetter _ _ row).mp dead).resolve_left alive

theorem retryLeasedDelivery_other {delivery eligibleAt error : String}
    (ok : db.retryLeasedDelivery delivery eligibleAt error = .ok next)
    (before : db.deliveries.get d = some row) (other : delivery ≠ d) : next.deliveries.get d = some row := by
  obtain ⟨_,rfl⟩ := retryLeasedDelivery_effect ok
  exact get_setOne_other before other

/-- Where a leased delivery may be after an operation that does not give its lease back. -/
structure Stays (maxAttempts : Option Int) (turn : Turn) (after : Option Delivery) : Prop where
  closed : ∀ r ∈ after, ¬ r.state.leasable
  unleased : turn ≠ .lease
  unburied : maxAttempts.isSome → ∀ r ∈ after, r.state ≠ .deadLetter

theorem Stays.same {maxAttempts : Option Int} (leased : row.state = .leased) :
    Stays maxAttempts .idle (some row) := by
  refine ⟨?_,by simp,?_⟩
  · intro r found
    cases found
    simp [leased,DeliveryState.leasable]
  · intro _ r found
    cases found
    simp [leased]

theorem Stays.closed_only (closed : ¬ after.state.leasable) {turn : Turn} (unleased : turn ≠ .lease) :
    Stays none turn (some after) := by
  refine ⟨?_,unleased,by simp⟩
  intro r found
  cases found
  exact closed

theorem body_stays {runtime : Runtime} {journal : Journal} {q : QueueOp} (ok : db.body q = .ok ((),next))
    (before : db.deliveries.get d = some row) (leased : row.state = .leased)
    (kept : d ∉ (Op.queue q).surrenders ⟨runtime,db,journal⟩) :
    Stays (Op.queue q).maxAttempts (db.turn q d) (next.deliveries.get d) := by
  have quietly (quiet : next.deliveries = db.deliveries) (idle : db.turn q d = .idle) :
      Stays (Op.queue q).maxAttempts (db.turn q d) (next.deliveries.get d) := by
    rw [quiet,before,idle]
    exact .same leased
  cases q with
  | checkpoint => cases ok; exact quietly rfl rfl
  | beginSnapshot =>
    obtain ⟨_,ok⟩ := discard_ok.mp ok
    exact quietly (beginSnapshot_quiet ok).1 rfl
  | stageObservation =>
    obtain ⟨_,ok⟩ := discard_ok.mp ok
    exact quietly (stageObservation_quiet ok).1 rfl
  | finishSnapshot =>
    obtain ⟨_,ok⟩ := discard_ok.mp ok
    exact quietly (finishSnapshot_quiet ok).1 rfl
  | finishEventRouting => exact quietly (finishEventRouting_quiet ok).1 rfl
  | addRoute => exact quietly (addRoute_quiet ok).1 rfl
  | enqueueDelivery =>
    obtain ⟨_,ok⟩ := discard_ok.mp ok
    obtain rfl | ⟨fresh,_,_,_,_,inserted,_⟩ := enqueueDelivery_ok ok
    · exact quietly rfl rfl
    · have other : Keyed.key fresh ≠ d := by
        intro same
        have absent := Table.insert_fresh inserted
        rw [same,before] at absent
        contradiction
      rw [Table.get_insert inserted,if_neg other,before]
      exact .same leased
  | leaseDelivery owner instant seconds attempts =>
    obtain ⟨found,ok⟩ := discard_ok.mp ok
    have valid : ¬ leaseExpired instant.isoText row := by
      intro expired
      obtain ⟨member,own⟩ := Table.get_eq_some.mp before
      exact kept (own ▸ (Table.key_mem_select member).mpr ⟨leased,expired⟩)
    obtain ⟨remains,idle⟩ := leaseDelivery_leased ok before leased valid
    have turned : db.turn (.leaseDelivery owner instant seconds attempts) d = .idle := by
      simp only [turn,ok,idle]
    rw [remains,turned]
    exact .same leased
  | startDelivery delivery owner timestamp =>
    obtain ⟨_,rfl⟩ := startDelivery_effect ok
    rw [Table.get_update,before,Option.map_some]
    apply Stays.closed_only
    · split <;> simp [leased,DeliveryState.leasable]
    · simp [turn]
  | finishDelivery delivery owner outcome error eligibleAt now =>
    have unleased : db.turn (.finishDelivery delivery owner outcome error eligibleAt now) d ≠ .lease := by
      simp only [turn]
      split
      next => split <;> simp
      next => simp
    obtain ⟨_,_,_,rfl⟩ := finishDelivery_effect ok
    by_cases own : delivery = d
    · have back : outcome ≠ .retry := by
        intro retry
        simp [Op.surrenders,retry,own] at kept
      rw [get_setDeliveries,before,Option.map_some]
      apply Stays.closed_only ?_ unleased
      split
      · cases outcome <;> simp [DeliveryOutcome.targets,DeliveryState.leasable] at *
      · simp [leased,DeliveryState.leasable]
    · rw [get_setOne_other before own]
      apply Stays.closed_only ?_ unleased
      simp [leased,DeliveryState.leasable]
  | releaseBudgetHold delivery eligibleAt now =>
    obtain ⟨held,rfl⟩ := releaseBudgetHold_effect ok
    have other : delivery ≠ d := by
      intro same
      rw [same,before,Option.map_some,leased] at held
      contradiction
    rw [get_setOne_other before other]
    exact .same leased
  | forceDeliveryUncertain delivery error =>
    obtain ⟨_,rfl⟩ := forceDeliveryUncertain_effect ok
    rw [get_setDeliveries,before,Option.map_some]
    apply Stays.closed_only
    · split <;> simp [leased,DeliveryState.leasable]
    · simp [turn]

end Queue

namespace Store
variable {db : Store} {d : String} {row : Delivery}

theorem step_stays {op : Op} (before : db.queue.deliveries.get d = some row) (leased : row.state = .leased)
    (kept : d ∉ op.surrenders db) :
    Queue.Stays op.maxAttempts (db.turn op d) ((db.step op).queue.deliveries.get d) := by
  cases op with
  | runtime | journal | reserveRequest =>
    change Queue.Stays _ _ (db.queue.deliveries.get d)
    rw [before]
    exact .same leased
  | queue q =>
    change Queue.Stays _ (db.queue.turn q d) ((atomically db.queue (db.queue.body q)).state.deliveries.get d)
    cases result : db.queue.body q with
    | error e =>
      rw [Queue.turn_error result]
      change Queue.Stays _ _ (db.queue.deliveries.get d)
      rw [before]
      exact .same leased
    | ok value => exact Queue.body_stays result before leased kept
  | prepareWake session deliveryId reservationId socketPath reason now =>
    change Queue.Stays _ _ ((atomically db (db.prepareWake _ _ _ _ _ _)).state.queue.deliveries.get d)
    rcases atomically_cases db (db.prepareWake session deliveryId reservationId socketPath reason now)
      with same | ⟨value,ok⟩
    · rw [same,before]
      exact .same leased
    · rw [prepareWake_queue ok,before]
      exact .same leased
  | recoverOrphanSession sessionId deliveryId eligibleAt error =>
    change Queue.Stays _ _ ((atomically db (db.recoverOrphanSession _ _ _ _)).state.queue.deliveries.get d)
    rcases atomically_cases db (db.recoverOrphanSession sessionId deliveryId eligibleAt error)
      with same | ⟨value,ok⟩
    · rw [same,before]
      exact .same leased
    · rcases recoverOrphanSession_queue ok with same | ⟨delivery,eligible,named,retried⟩
      · rw [same,before]
        exact .same leased
      · have other : delivery ≠ d := by
          intro same
          simp [Op.surrenders,named,same] at kept
        rw [Queue.retryLeasedDelivery_other retried before other]
        exact .same leased
  | recoverPreparedWake wakeId eligibleAt error now =>
    change Queue.Stays _ _ ((atomically db (db.recoverPreparedWake _ _ _ _)).state.queue.deliveries.get d)
    rcases atomically_cases db (db.recoverPreparedWake wakeId eligibleAt error now) with same | ⟨value,ok⟩
    · rw [same,before]
      exact .same leased
    · rcases recoverPreparedWake_queue ok with same | ⟨delivery,eligible,⟨wake,found,named⟩,retried⟩
      · rw [same,before]
        exact .same leased
      · have other : delivery ≠ d := by
          intro same
          simp [Op.surrenders,Option.mem_def.mp found,named,same] at kept
        rw [Queue.retryLeasedDelivery_other retried before other]
        exact .same leased

/-- The ceiling buries a delivery that is open or whose lease has expired, with its attempts spent. -/
theorem step_buries {op : Op} {M : Int} {after : Delivery} (call : op.maxAttempts = some M)
    (before : db.queue.deliveries.get d = some row) (alive : row.state ≠ .deadLetter)
    (final : (db.step op).queue.deliveries.get d = some after) (dead : after.state = .deadLetter) :
    M ≤ row.attempt ∧ (row.state.leasable ∨ row.state = .leased ∧ d ∈ op.surrenders db) := by
  cases op with
  | queue q =>
    cases q with
    | leaseDelivery owner instant seconds attempts =>
      cases call
      change (atomically db.queue (discard (db.queue.leaseDelivery owner instant seconds M))).state.deliveries.get d =
        some after at final
      rcases atomically_cases db.queue (discard (db.queue.leaseDelivery owner instant seconds M))
        with same | ⟨_,ok⟩
      · rw [same,before] at final
        exact absurd (Option.some.inj final ▸ dead) alive
      · obtain ⟨found,ok⟩ := discard_ok.mp ok
        obtain ⟨open_,spent⟩ := Queue.leaseDelivery_buries ok before alive final dead
        refine ⟨spent,open_.imp_right ?_⟩
        rintro ⟨leased,expired⟩
        obtain ⟨member,own⟩ := Table.get_eq_some.mp before
        exact ⟨leased,own ▸ (Table.key_mem_select member).mpr ⟨leased,expired⟩⟩
    | _ => contradiction
  | _ => contradiction

end Store

/-! The roster. -/

def WakeThread.opens (cfg : Settings) (w : World) (t : WakeThread) (input : Input) : Bool :=
  match t.point,(w.perform (t.access cfg input)).2.point with
  | .unpaused,.sessioned _ => true
  | _,_ => false

def Host.opens (cfg : Settings) (s : Host) (d : String) : HostAction → Bool
  | .wakeStep i input => s.wakes[i]?.any (fun t => t.delivery = some d && t.opens cfg s.world input)
  | _ => false

def Host.turn (cfg : Settings) (s : Host) (d : String) (action : HostAction) : Turn :=
  ((s.operation cfg action).map (fun op => s.world.store.turn op d)).getD .idle

/-- `sessions` counts the sessions created for a delivery; `tried` says that one was created
since it was last leased. -/
structure Roster where
  host : Host
  sessions : String → Nat
  tried : String → Bool

namespace Roster
variable (cfg : Settings)

def initial : Roster := ⟨.initial,fun _ => 0,fun _ => false⟩

def step (s : Roster) (action : HostAction) : Roster where
  host := s.host.step cfg action
  sessions d := s.sessions d + if s.host.opens cfg d action then 1 else 0
  tried d := if s.host.turn cfg d action = .lease then false else s.tried d || s.host.opens cfg d action

/-- A lease that ends here with its attempt counted has had its session. -/
def counted (s : Roster) (action : HostAction) : Prop :=
  ∀ op ∈ s.host.operation cfg action, ∀ d ∈ op.surrenders s.host.world.store, s.tried d = true

instance (s : Roster) (action : HostAction) : Decidable (s.counted cfg action) :=
  inferInstanceAs (Decidable (∀ op ∈ s.host.operation cfg action, ∀ d ∈ op.surrenders s.host.world.store,
    s.tried d = true))

def buries (s : Roster) (action : HostAction) (d : String) (M : Int) : Prop :=
  (s.host.operation cfg action).bind Op.maxAttempts = some M ∧
    (s.host.world.store.queue.deliveries.get d).map Delivery.state ≠ some .deadLetter ∧
    ((s.step cfg action).host.world.store.queue.deliveries.get d).map Delivery.state = some .deadLetter

instance (s : Roster) (action : HostAction) (d : String) (M : Int) : Decidable (s.buries cfg action d M) :=
  inferInstanceAs (Decidable (_ ∧ _ ∧ _))

end Roster

structure Fair (sessions : Nat) (tried : Bool) (state : DeliveryState) (attempt : Int) : Prop where
  waiting : state.leasable ∨ state = .budgetHold → attempt ≤ sessions
  leased : state = .leased → attempt ≤ sessions + if tried then 0 else 1

theorem Fair.move {ceiling : Int} {turn : Turn} {s t : DeliveryState} {a b : Int} {sessions : Nat}
    {tried opens : Bool} (fair : Fair sessions tried s a) (move : Move ceiling turn s a t b)
    (back : s = .leased → t.leasable ∨ turn = .lease → tried = true) :
    Fair (sessions + if opens then 1 else 0) (if turn = .lease then false else tried || opens) t b := by
  have given : s = .leased → tried = true → a ≤ sessions := by
    intro leased tried
    simpa [tried] using fair.leased leased
  cases move with
  | stay =>
    refine ⟨fun free => ?_,fun leased => ?_⟩
    · have bound := fair.waiting free
      split <;> omega
    · have bound := fair.leased leased
      cases tried <;> cases opens <;> simp at bound ⊢ <;> omega
  | reclaim =>
    refine ⟨fun _ => ?_,by simp⟩
    have bound := given rfl (back rfl (.inl (.inr rfl)))
    split <;> omega
  | lease s a free below =>
    refine ⟨by simp [DeliveryState.leasable],fun _ => ?_⟩
    have bound : a ≤ sessions := by
      rcases free with free | leased
      · exact fair.waiting (.inl free)
      · exact given leased (back leased (.inr rfl))
    simp only [if_true,Bool.false_eq_true,if_false]
    split <;> omega
  | finish s a outcome held allowed kept =>
    refine ⟨fun free => ?_,fun leased => ?_⟩
    · have retry : outcome = .retry := by
        cases outcome <;> simp [DeliveryOutcome.targets,DeliveryState.leasable] at free kept ⊢
      subst retry
      have own : s = .leased := by
        by_contra other
        simp [DeliveryOutcome.allowed,other] at allowed
      have bound := given own (back own (.inl (.inr rfl)))
      split <;> omega
    · cases outcome <;> simp [DeliveryOutcome.targets] at leased
  | hold a =>
    refine ⟨fun _ => ?_,by simp⟩
    have bound := fair.leased rfl
    cases tried <;> simp at bound <;> split <;> omega
  | unhold a =>
    refine ⟨fun _ => ?_,by simp⟩
    have bound := fair.waiting (.inr rfl)
    split <;> omega
  | quarantine | bury | start | force =>
    exact ⟨by simp [DeliveryState.leasable],by simp⟩

namespace Host
variable {cfg : Settings} {s : Host} {action : HostAction} {d : String}

theorem step_life (cfg : Settings) (s : Host) (action : HostAction) (d : String) :
    ∃ ceiling, Life ceiling (s.turn cfg d action) (s.world.store.queue.deliveries.get d)
      ((s.step cfg action).world.store.queue.deliveries.get d) := by
  rw [step_queue]
  unfold turn
  cases s.operation cfg action with
  | none => exact ⟨0,.same _ _⟩
  | some op =>
    obtain ⟨ceiling,same⟩ := op.ceiling_exists
    exact ⟨ceiling,s.world.store.step_life same d⟩

/-- A lease comes back, or is renewed, only by an operation that surrenders it. -/
theorem step_returns {row after : Delivery} (before : s.world.store.queue.deliveries.get d = some row)
    (leased : row.state = .leased) (found : (s.step cfg action).world.store.queue.deliveries.get d = some after)
    (back : after.state.leasable ∨ s.turn cfg d action = .lease) :
    ∃ op ∈ s.operation cfg action, d ∈ op.surrenders s.world.store := by
  rw [step_queue] at found
  unfold turn at back
  cases called : s.operation cfg action with
  | none =>
    rw [called] at found back
    cases before.symm.trans found
    simp [leased,DeliveryState.leasable] at back
  | some op =>
    rw [called] at found back
    refine ⟨op,rfl,?_⟩
    by_contra kept
    have stays := Store.step_stays before leased kept
    rcases back with open_ | renewed
    · exact stays.closed after found open_
    · exact stays.unleased renewed

end Host

namespace Roster
variable {cfg : Settings} {s : Roster} {action : HostAction}

/-- No delivery has more attempts counted than sessions, but for a lease still waiting for its own. -/
def Even (s : Roster) : Prop :=
  ∀ d, ∀ row ∈ s.host.world.store.queue.deliveries.get d, Fair (s.sessions d) (s.tried d) row.state row.attempt

theorem Even.step (even : s.Even) (counted : s.counted cfg action) : (s.step cfg action).Even := by
  intro d after found
  obtain ⟨ceiling,life⟩ := s.host.step_life cfg action d
  change (s.host.step cfg action).world.store.queue.deliveries.get d = some after at found
  have returns := @Host.step_returns cfg s.host action d
  rw [found] at life returns
  generalize before : s.host.world.store.queue.deliveries.get d = old at life returns
  generalize turned : s.host.turn cfg d action = turn at life returns
  change Fair (s.sessions d + if s.host.opens cfg d action then 1 else 0)
    (if s.host.turn cfg d action = .lease then false else s.tried d || s.host.opens cfg d action)
    after.state after.attempt
  rw [turned]
  cases life with
  | born r queued unused =>
    refine ⟨fun _ => ?_,by simp [queued]⟩
    rw [unused]
    exact Int.natCast_nonneg _
  | moved r next move =>
    apply (even d r before).move move
    intro leased back
    obtain ⟨op,called,given⟩ := returns rfl leased rfl back
    exact counted op called d given

theorem even_initial : initial.Even := by
  intro d row found
  cases found

theorem Even.buries (even : s.Even) (counted : s.counted cfg action) {d : String} {M : Int}
    (buried : s.buries cfg action d M) : M ≤ s.sessions d := by
  obtain ⟨call,alive,dead⟩ := buried
  obtain ⟨op,called,limit⟩ := Option.bind_eq_some_iff.mp call
  obtain ⟨after,found,dead⟩ := Option.map_eq_some_iff.mp dead
  change (s.host.step cfg action).world.store.queue.deliveries.get d = some after at found
  rw [Host.step_queue,called] at found
  cases before : s.host.world.store.queue.deliveries.get d with
  | none =>
    -- what is not there yet starts as queued
    obtain ⟨ceiling,same⟩ := op.ceiling_exists
    have life := s.host.world.store.step_life same d
    rw [before,show (s.host.world.store.step op).queue.deliveries.get d = some after from found] at life
    generalize s.host.world.store.turn op d = turned at life
    cases life with
    | born r queued => simp [queued] at dead
  | some row =>
    have living : row.state ≠ .deadLetter := by simpa [before] using alive
    have fair := even d row before
    obtain ⟨spent,open_ | ⟨leased,given⟩⟩ := Store.step_buries limit before living found dead
    · exact spent.trans (fair.waiting (.inl open_))
    · have tried := counted op called d given
      have bound := fair.leased leased
      simp only [tried,if_true,add_zero] at bound
      exact spent.trans bound

/-- While every lease that ends with its attempt counted has had its session, the ceiling buries
a delivery only after as many sessions, and no delivery that waits has more attempts. -/
theorem ceiling_counts_sessions (cfg : Settings) (actions : List HostAction)
    (counted : Along (step cfg) (Roster.counted cfg) initial actions) :
    (∀ t ∈ trace (step cfg) initial actions, ∀ d M, t.before.buries cfg t.action d M → M ≤ t.before.sessions d) ∧
      ∀ d, ∀ row ∈ (run (step cfg) initial actions).host.world.store.queue.deliveries.get d,
        row.state.leasable ∨ row.state = .budgetHold → row.attempt ≤ (run (step cfg) initial actions).sessions d := by
  have preserved : ∀ s a, Even s → s.counted cfg a → Even (step cfg s a) := fun _ _ even counted => even.step counted
  constructor
  · intro t member d M buried
    have even := invariant_before_along (step cfg) preserved even_initial counted member
    exact even.buries (counted t member) buried
  · intro d row found
    exact (invariant_along (step cfg) preserved even_initial counted d row found).waiting

/-! Four ticks, a minute apart. -/

def minute (n : Nat) : Instant := ((⟨0,Instant.zero_bounded⟩ : Instant).later (60 * n)).getD ⟨0,Instant.zero_bounded⟩

def at_ (n : Nat) (uuid : String) : Input := {Host.smooth uuid with now := minute n}

def leased (n : Nat) : HostAction := .store (.queue (.leaseDelivery "supervisor" (minute n) 300 3))

/-- The tick leases the delivery, and its wake fails before the provider starts. -/
def unlaunchedTick (n : Nat) (uuid : String) : List HostAction :=
  [leased n,.wake "dev" (some "delivery") "routed GitHub events",
    .wakeStep n (at_ n uuid),.wakeStep n (at_ n uuid),.wakeStep n (at_ n uuid),.wakeStep n (at_ n uuid),
    .wakeStep n {at_ n uuid with fault := some (.other "socket is taken")},
    .wakeStep n (at_ n uuid),.wakeStep n (at_ n uuid)]

/-- The role is awake already, so the wake gives the delivery back. -/
def declinedTick (n : Nat) (uuid : String) : List HostAction :=
  [leased n,.wake "dev" (some "delivery") "routed GitHub events",
    .wakeStep (n + 1) (at_ n uuid),.wakeStep (n + 1) (at_ n uuid),.wakeStep (n + 1) (at_ n uuid)]

def unlaunched : List HostAction :=
  Host.enqueued ++ unlaunchedTick 0 "a" ++ unlaunchedTick 1 "b" ++ unlaunchedTick 2 "c"

def declined : List HostAction :=
  Host.enqueued ++ [.wake "dev" none "operator",.wakeStep 0 (at_ 0 "m"),.wakeStep 0 (at_ 0 "m")] ++
    declinedTick 0 "a" ++ declinedTick 1 "b" ++ declinedTick 2 "c"

/-- Three wakes that opened their sessions are what the ceiling allows. -/
theorem ceiling_counts_sessions_unlaunched :
    (run (step Host.smallOrganization) initial unlaunched).buries Host.smallOrganization (leased 3) "delivery" 3 ∧
      3 ≤ (run (step Host.smallOrganization) initial unlaunched).sessions "delivery" := by
  have buried : (run (step Host.smallOrganization) initial unlaunched).buries Host.smallOrganization (leased 3)
      "delivery" 3 := by decide +kernel
  have counted : Along (step Host.smallOrganization) (counted Host.smallOrganization) initial
      (unlaunched ++ [leased 3]) := by decide +kernel
  have last : ⟨run (step Host.smallOrganization) initial unlaunched,leased 3,
      step Host.smallOrganization (run (step Host.smallOrganization) initial unlaunched) (leased 3)⟩ ∈
        trace (step Host.smallOrganization) initial (unlaunched ++ [leased 3]) := by
    rw [trace_concat]
    exact List.mem_append_right _ (List.mem_singleton_self _)
  have sessions := (ceiling_counts_sessions Host.smallOrganization _ counted).1 _ last "delivery" 3 buried
  exact ⟨buried,by exact_mod_cast sessions⟩

/-- A manual wake keeps the role busy: the delivery is deferred three times and buried with no
session ever opened for it. -/
theorem ceiling_counts_deferrals :
    (run (step Host.smallOrganization) initial declined).buries Host.smallOrganization (leased 3) "delivery" 3 ∧
      (run (step Host.smallOrganization) initial declined).sessions "delivery" = 0 := by
  decide +kernel

end Roster
end SjgControl

import SjgControl.Host.Standing

/-! What a restart makes of the wakes a crash has cut off. Recovery takes a session for
unstarted when the store has no process record of it, and the record is written after the
process is created. -/
namespace SjgControl
open Relational Machine

namespace Runtime
open Table

/-- The store shows that the session has gone beyond its preparation: a process or a worker
is on record, or the reservation has been given up. -/
def Committed (db : Runtime) (x : String) : Prop :=
  db.processCount x ≠ 0 ∨ db.workerCount x ≠ 0 ∨ ∃ r ∈ db.reservations.rows, r.sessionId = x ∧ r.state ≠ .active

instance (db : Runtime) (x : String) : Decidable (db.Committed x) :=
  inferInstanceAs (Decidable (_ ∨ _ ∨ ∃ r ∈ db.reservations.rows, _))

theorem processCount_ne_zero {db : Runtime} {x : String} :
    db.processCount x ≠ 0 ↔ ∃ p ∈ db.processes.rows, p.sessionId = x := by
  unfold processCount
  rw [Ne,count_eq_zero]
  simp

theorem workerCount_ne_zero {db : Runtime} {x : String} :
    db.workerCount x ≠ 0 ↔ ∃ a ∈ db.attempts.rows, a.sessionId = x := by
  unfold workerCount
  rw [Ne,count_eq_zero]
  simp

theorem Shift.processCount {y x : String} {db next : Runtime} (shift : Shift y db next) (some_ : db.processCount x ≠ 0) :
    next.processCount x ≠ 0 := by
  obtain ⟨p,member,own⟩ := processCount_ne_zero.mp some_
  obtain ⟨q,present,moves⟩ := shift.keptProcesses p member
  exact processCount_ne_zero.mpr ⟨q,present,moves.2.1.trans own⟩

theorem Shift.workerCount {y x : String} {db next : Runtime} (shift : Shift y db next) (some_ : db.workerCount x ≠ 0) :
    next.workerCount x ≠ 0 := by
  obtain ⟨a,member,own⟩ := workerCount_ne_zero.mp some_
  obtain ⟨b,present,moves⟩ := shift.keptAttempts a member
  exact workerCount_ne_zero.mpr ⟨b,present,moves.2.trans own⟩

theorem Shift.committed {y x : String} {db next : Runtime} (shift : Shift y db next) (committed : db.Committed x) :
    next.Committed x := by
  rcases committed with processes | workers | ⟨r,member,own,spent⟩
  · exact .inl (shift.processCount processes)
  · exact .inr (.inl (shift.workerCount workers))
  · obtain ⟨after,present,moves⟩ := shift.keptReservations r member
    exact .inr (.inr ⟨after,present,moves.2.1.trans own,fun active => spent (moves.2.2 active)⟩)

/-- What `recover_orphan_session` and `recover_prepared_wake` ask before they release. -/
theorem not_committed {db middle : Runtime} {x : String} (orderly : Orderly x db) (processes : db.processCount x = 0)
    (workers : db.workerCount x = 0) (ok : db.releaseReservationFor x = .ok middle) : ¬ db.Committed x := by
  rintro (some_ | some_ | ⟨r,member,own,spent⟩)
  · exact some_ processes
  · exact some_ workers
  · rcases releaseReservationFor_ok ok with ⟨_,none_⟩ | ⟨q,present,same,active,_⟩
    · exact none_ r member own
    · have equal := orderly.oneReservation r member q present own same
      exact spent (equal ▸ active)

theorem released_cases {db middle : Runtime} {x : String} (ok : db.releaseReservationFor x = .ok middle) :
    ∀ r ∈ middle.reservations.rows, r ∈ db.reservations.rows ∨ r.sessionId = x := by
  intro r member
  rcases releaseReservationFor_ok ok with ⟨rfl,_⟩ | ⟨q,present,own,_,buckets,rfl⟩
  · exact .inl member
  · obtain ⟨old,before,⟨same,rfl⟩ | ⟨_,rfl⟩⟩ := mem_update_cases member
    · have equal : old = q := mem_unique before present same
      exact .inr (equal ▸ own)
    · exact .inl before

end Runtime

/-! What a recovery's step releases and what it puts back. -/

section Recovering
variable {w : World} {input : Input}
open SjgControl.Runtime Table

inductive Recovers : Op → Prop
  | finishProcess (key : String) (state : ProcessState) (exitCode : Option Int) (now : Instant) :
      Recovers (.runtime (.finishProcess key state exitCode now))
  | forceDelivery (delivery error : String) : Recovers (.queue (.forceDeliveryUncertain delivery error))
  | forceTerminate (x : String) (expired : Bool) (now : Instant) :
      Recovers (.runtime (.forceTerminateSession x expired now))
  | orphan (x error : String) : Recovers (.recoverOrphanSession x none none error)
  | prepared (wakeId eligibleAt error : String) (now : Instant) : Recovers (.recoverPreparedWake wakeId eligibleAt error now)

theorem Recovers.released {op : Op} (recovers : Recovers op) (orderly : ∀ x, Orderly x w.store.runtime) :
    ∀ r ∈ (w.store.step op).runtime.reservations.rows, r.state = .released →
      r ∈ w.store.runtime.reservations.rows ∨ ¬ w.store.runtime.Committed r.sessionId := by
  intro r member released
  have effect := w.store.step_runtime op
  generalize (w.store.step op).runtime = next at effect member
  cases effect with
  | unchanged => exact .inl member
  | prepared => cases recovers
  | committed op next ok =>
    cases recovers with
    | finishProcess =>
      obtain ⟨_,_,rfl⟩ := Runtime.finishProcess_effect ok
      exact .inl member
    | forceTerminate =>
      obtain ⟨_,rfl⟩ := forceTerminateSession_effect ok
      obtain ⟨old,before,⟨_,rfl⟩ | ⟨_,rfl⟩⟩ := mem_update_cases member
      · cases released
      · exact .inl before
  | orphaned sessionId guard middle ok =>
    rcases released_cases ok r member with before | own
    · exact .inl before
    · exact .inr (own ▸ not_committed (orderly sessionId) guard.2.2.1 guard.2.2.2 ok)
  | recovered wakeId error now wake found prepared guard middle ok =>
    rcases released_cases ok r member with before | own
    · exact .inl before
    · exact .inr (own ▸ not_committed (orderly wake.sessionId) guard.2.1 guard.2.2 ok)

/-- A delivery that an operation of a recovery puts back belongs to a wake that has not gone
beyond its preparation. -/
theorem Recovers.retried {op : Op} (recovers : Recovers op) (orderly : ∀ x, Orderly x w.store.runtime) {d : String}
    {row next : Delivery} (before : w.store.queue.deliveries.get d = some row)
    (after : (w.store.step op).queue.deliveries.get d = some next) (other : row.state ≠ .retryWait)
    (waits : next.state = .retryWait) :
    ∃ wake ∈ w.store.runtime.wakes.rows, wake.state.live ∧ wake.deliveryId = some d ∧
      ¬ w.store.runtime.Committed wake.sessionId := by
  have untouched (same : (w.store.step op).queue = w.store.queue) : False := by
    rw [same,before] at after
    cases after
    exact other waits
  cases recovers with
  | finishProcess => exact (untouched rfl).elim
  | forceTerminate => exact (untouched rfl).elim
  | forceDelivery delivery error =>
    have effect := w.store.step_queue (.queue (.forceDeliveryUncertain delivery error))
    generalize (w.store.step _).queue = q at effect after
    cases effect with
    | unchanged | failed =>
      rw [before] at after
      cases after
      exact absurd waits other
    | committed _ _ ok =>
      obtain ⟨_,rfl⟩ := Queue.forceDeliveryUncertain_effect ok
      rw [Queue.get_setDeliveries,before,Option.map_some] at after
      split at after
      next => cases after; cases waits
      next => cases after; exact absurd waits other
    | retried _ _ _ _ impossible => exact absurd rfl (impossible _)
  | orphan x error =>
    cases result : w.store.recoverOrphanSession x none none error with
    | error e =>
      refine (untouched ?_).elim
      simp only [Store.step,Store.apply,atomically,result]
    | ok value =>
      refine (untouched ?_).elim
      rcases Store.recoverOrphanSession_queue result with same | ⟨_,_,impossible,_⟩
      · simp only [Store.step,Store.apply,atomically,result,same]
      · cases impossible
  | prepared wakeId eligibleAt error now =>
    cases result : w.store.recoverPreparedWake wakeId eligibleAt error now with
    | error e =>
      refine (untouched ?_).elim
      simp only [Store.step,Store.apply,atomically,result]
    | ok value =>
      have queue : (w.store.step (.recoverPreparedWake wakeId eligibleAt error now)).queue = value.2.queue := by
        simp only [Store.step,Store.apply,atomically,result]
      rcases Store.recoverPreparedWake_queue result with same | ⟨delivery,eligible,⟨wake,found,named⟩,retried⟩
      · exact (untouched (queue.trans same)).elim
      · have uncommitted : ∃ guard : wake.state = .prepared, ¬ w.store.runtime.Committed wake.sessionId := by
          obtain ⟨row,⟨present,prepared⟩,guard,middle,released,_⟩ := Store.recoverPreparedWake_effect result
          cases found.symm.trans present
          exact ⟨prepared,not_committed (orderly wake.sessionId) guard.2.1 guard.2.2 released⟩
        obtain ⟨prepared,uncommitted⟩ := uncommitted
        refine ⟨wake,(get_eq_some.mp found).1,by rw [prepared]; exact .inl rfl,?_,uncommitted⟩
        rw [queue] at after
        rw [(Queue.retryLeasedDelivery_effect retried).2,Queue.get_setDeliveries,before,Option.map_some] at after
        split at after
        next here =>
          have own : d = delivery := (get_eq_some.mp before).2.symm.trans (List.mem_singleton.mp here)
          exact own ▸ named
        next => cases after; exact absurd waits other

theorem Sweep.recovers {P : Type} {sweep : Sweep} {x reason : String} {more : Sweep → P}
    {done : Except StoreError Bool → P} {op : Op} (calls : (sweep.access x reason input more done).operation = some op) :
    Recovers op := by
  unfold access at calls
  split at calls
  next t =>
    unfold Terminate.access at calls
    split at calls
    next => cases calls
    next => cases calls
    next => cases calls
    next => cases calls; exact .finishProcess ..
  next => cases calls
  next =>
    split at calls
    next => cases calls
    next => cases calls; exact .forceDelivery ..
  next => cases calls; exact .forceTerminate ..
  next => cases calls

theorem RecoverPoint.recovers {point : RecoverPoint} {op : Op} (calls : (point.access input).operation = some op) :
    Recovers op := by
  cases point with
  | orphans sessions listed recovered =>
    cases sessions with
    | nil => cases calls
    | cons => cases calls; exact .orphan ..
  | wakes listed recovered uncertain => cases listed <;> cases calls
  | preparing wake rest recovered uncertain => cases calls; exact .prepared ..
  | sweeping wake sweep rest recovered uncertain =>
    simp only [access] at calls
    exact Sweep.recovers calls
  | _ => cases calls

theorem RecoverPoint.reservations {point : RecoverPoint} (silent : (point.access input).operation = none) :
    (w.perform (point.access input)).1.store.runtime.reservations = w.store.runtime.reservations := by
  generalize point.access input = a at silent
  cases a with
  | create => cases silent
  | call => cases silent
  | spawn p stay next =>
    simp only [World.perform]
    split <;> rfl
  | report _ _ _ tokens => cases tokens <;> rfl
  | _ => rfl

theorem World.perform_call {P : Type} {a : Access P} {op : Op} (calls : a.operation = some op) :
    (w.perform a).1.store = w.store.step op := by
  cases a with
  | create =>
    cases calls
    exact perform_create ..
  | call =>
    cases calls
    rfl
  | _ => cases calls

end Recovering

namespace Host
open SjgControl.Runtime Table

/-- Processes and what the store shows of their sessions. Once no thread is left, the store
shows them all. -/
structure Traced (s : Host) : Prop where
  hired : ∀ p ∈ s.world.providers, p.kind = .worker → s.world.store.runtime.workerCount p.sessionId ≠ 0
  shown : s.wakes = [] → s.workers = [] → ∀ p ∈ s.world.providers, s.world.store.runtime.Committed p.sessionId

/-- No wake is between the creation of its provider and the record of it, unless its session
shows in the store otherwise. -/
def recorded (s : Host) : Prop :=
  ∀ p ∈ s.world.providers, p.kind = .parent → s.world.store.runtime.Committed p.sessionId

instance (s : Host) : Decidable s.recorded :=
  inferInstanceAs (Decidable (∀ p ∈ s.world.providers, p.kind = .parent → s.world.store.runtime.Committed p.sessionId))

def crashesRecorded (s : Host) : HostAction → Prop
  | .crash => s.recorded
  | _ => True

instance (s : Host) (action : HostAction) : Decidable (s.crashesRecorded action) :=
  match action with
  | .crash => inferInstanceAs (Decidable s.recorded)
  | .store _ | .exit _ _ | .wake _ _ _ | .request _ _ | .wakeStep _ _ | .workerStep _ _ | .pause | .pauseStep _
  | .resume _ | .recover | .recoverStep _ => isTrue trivial

section Step
variable {cfg : Settings} {s : Host} {action : HostAction}

theorem empty_before (alone : action ≠ .crash) (wakes : (s.step cfg action).wakes = [])
    (workers : (s.step cfg action).workers = []) : s.wakes = [] ∧ s.workers = [] := by
  cases step_threads cfg s action with
  | same wakes_ workers_ => exact ⟨wakes_ ▸ wakes,workers_ ▸ workers⟩
  | wake is found wakes_ workers_ => exact ⟨by simpa [wakes_] using wakes,workers_ ▸ workers⟩
  | worker is found wakes_ workers_ => exact ⟨wakes_ ▸ wakes,by simpa [workers_] using workers⟩
  | woken is assigned entered wakes_ => simp [wakes_] at wakes
  | requested is served requested wakes_ workers_ => simp [workers_] at workers
  | crashed is => exact absurd is alone

theorem Traced.step (regular : s.Regular) (traced : s.Traced) (action : HostAction)
    (crashes : s.crashesRecorded action) : (s.step cfg action).Traced := by
  obtain ⟨y,shift⟩ := regular.step_shift cfg action
  have peopled := step_peopled cfg s action
  have hired : ∀ p ∈ (s.step cfg action).world.providers, p.kind = .worker →
      (s.step cfg action).world.store.runtime.workerCount p.sessionId ≠ 0 := by
    intro q member kind
    rcases peopled.drawn q member with ⟨p,present,moves⟩ | spawns
    · rw [moves.2.1]
      exact shift.workerCount (traced.hired p present (moves.2.2.1 ▸ kind))
    · rcases spawned_cases spawns with ⟨_,_,_,_,_,_,_,_,rfl⟩ | ⟨i,input,t,attempt,_,found,point,_,rfl⟩
      · cases kind
      · obtain ⟨row,present,_,own⟩ := (regular.employed t (List.mem_of_getElem? found)).attempt attempt
          (by rw [point]; rfl)
        exact shift.workerCount (workerCount_ne_zero.mpr ⟨row,present,own⟩)
  refine ⟨hired,?_⟩
  by_cases crash : action = .crash
  · subst crash
    intro _ _ p member
    cases kind : p.kind with
    | parent => exact crashes p member kind
    | worker => exact .inr (.inl (hired p member kind))
  · intro wakes workers q member
    obtain ⟨before,before'⟩ := empty_before crash wakes workers
    rcases peopled.drawn q member with ⟨p,present,moves⟩ | spawns
    · rw [moves.2.1]
      exact shift.committed (traced.shown before before' p present)
    · rcases spawned_cases spawns with ⟨i,_,t,_,_,found,_⟩ | ⟨i,_,t,_,_,found,_⟩
      · rw [before] at found
        cases found
      · rw [before'] at found
        cases found

theorem traced_initial : initial.Traced := by
  refine ⟨?_,?_⟩
  · intro p member
    cases member
  · intro _ _ p member
    cases member

end Step

/-- The transition takes for unstarted only sessions that no process was ever created for:
those whose reservation it releases, and the one whose wake brings a delivery back. -/
def Unstarted (t : Transition Host HostAction) : Prop :=
  (∀ r ∈ t.after.world.store.runtime.reservations.rows, r.state = .released →
      r ∉ t.before.world.store.runtime.reservations.rows →
      ∀ p ∈ t.before.world.providers, p.sessionId ≠ r.sessionId) ∧
    ∀ d row next, t.before.world.store.queue.deliveries.get d = some row →
      t.after.world.store.queue.deliveries.get d = some next → row.state ≠ .retryWait → next.state = .retryWait →
      (∃ w ∈ t.before.world.store.runtime.wakes.rows, w.deliveryId = some d ∧ w.state.live) ∧
      ∀ w ∈ t.before.world.store.runtime.wakes.rows, w.deliveryId = some d →
        t.before.world.store.runtime.sessionActive w.sessionId →
        ∀ p ∈ t.before.world.providers, p.sessionId ≠ w.sessionId

theorem Posted.one_session {cfg : Settings} {s : Host} (posted : s.Posted cfg) (regular : s.Regular) {d : String}
    {v w : WakeRuntime} (row : v ∈ s.world.store.runtime.wakes.rows) (row' : w ∈ s.world.store.runtime.wakes.rows)
    (named : v.deliveryId = some d) (named' : w.deliveryId = some d)
    (active : s.world.store.runtime.sessionActive v.sessionId) (active' : s.world.store.runtime.sessionActive w.sessionId) :
    v.sessionId = w.sessionId := by
  have role : v.role = w.role := by
    obtain ⟨a,member,name,own⟩ := posted.carried v row d named
    obtain ⟨b,present,name',own'⟩ := posted.carried w row' d named'
    have equal : a = b := mem_unique member present (name.trans name'.symm)
    exact own.symm.trans (equal ▸ own')
  have standing (u : WakeRuntime) (member : u ∈ s.world.store.runtime.wakes.rows)
      (active : s.world.store.runtime.sessionActive u.sessionId) :
      ∃ r ∈ s.world.store.runtime.sessions.rows, r.sessionId = u.sessionId ∧ r.role = u.role ∧ r.state = .active := by
    obtain ⟨r,present,own,_,role⟩ := (regular.orderly u.sessionId).named u member rfl
    obtain ⟨q,present',own',state⟩ := sessionActive_iff.mp active
    have equal : r = q := mem_unique present present' (own.trans own'.symm)
    exact ⟨r,present,own,role,equal ▸ state⟩
  obtain ⟨r,member,own,roleR,state⟩ := standing v row active
  obtain ⟨q,present,own',roleQ,state'⟩ := standing w row' active'
  rw [← own,← own']
  exact posted.lone r member q present state state' (roleR.trans (role.trans roleQ.symm))

theorem recoverStep_unstarted {cfg : Settings} {s : Host} (regular : s.Regular) (posted : s.Posted cfg)
    (traced : s.Traced) (input : Input) :
    Unstarted ⟨s,.recoverStep input,s.step cfg (.recoverStep input)⟩ := by
  by_cases resting : s.recovery.resting = true
  · have same : s.step cfg (.recoverStep input) = s := by
      simp only [step,RecoverPoint.rests resting]
    refine ⟨?_,?_⟩
    · intro r member _ fresh
      rw [same] at member
      exact absurd member fresh
    · intro d row next before after other waits
      rw [same] at after
      cases before.symm.trans after
      exact absurd waits other
  · have stopped := stopped_iff.mp (regular.exclusive (by simpa using resting))
    have shown := traced.shown (List.isEmpty_iff.mp stopped.1) (List.isEmpty_iff.mp stopped.2.1)
    cases calls : (s.recovery.access input).operation with
    | none =>
      have queue := s.world.perform_queue (s.recovery.access input)
      rw [calls] at queue
      refine ⟨?_,?_⟩
      · intro r member _ fresh
        exact absurd (RecoverPoint.reservations calls ▸ member) fresh
      · intro d row next before after other waits
        have found := before.symm.trans (queue ▸ after)
        cases found
        exact absurd waits other
    | some op =>
      have store := World.perform_call (w := s.world) calls
      have recovers := RecoverPoint.recovers calls
      refine ⟨?_,?_⟩
      · intro r member released fresh p present own
        have cases_ := recovers.released regular.orderly r (store ▸ member) released
        exact (cases_.resolve_left fresh) (own ▸ shown p present)
      · intro d row next before after other waits
        obtain ⟨v,row',live,named,uncommitted⟩ :=
          recovers.retried regular.orderly before (store ▸ after) other waits
        have active := (regular.orderly v.sessionId).manned v row' rfl live
        refine ⟨⟨v,row',named,live⟩,?_⟩
        intro w member named' active' p present own
        have same := posted.one_session regular row' member named named' active active'
        exact uncommitted (same ▸ own ▸ shown p present)

/-- In every run that crashes only where the store shows each provider that has been created,
no recovery takes a started session for unstarted. -/
theorem started_never_unstarted (cfg : Settings) (actions : List HostAction)
    (crashes : Along (step cfg) crashesRecorded initial actions) :
    ∀ t ∈ trace (step cfg) initial actions, ∀ input, t.action = .recoverStep input → Unstarted t := by
  intro t member input recovering
  have holds : t.before.Regular ∧ t.before.Posted cfg ∧ t.before.Traced := by
    refine @invariant_before_along _ _ (step cfg) _ (fun s => s.Regular ∧ s.Posted cfg ∧ s.Traced) ?_ _ ?_ _ crashes _
      member
    · rintro s action ⟨regular,posted,traced⟩ crash
      exact ⟨regular.step action,posted.step regular action,traced.step regular action crash⟩
    · exact ⟨regular_initial,posted_initial cfg,traced_initial⟩
  obtain ⟨regular,posted,traced⟩ := holds
  have unstarted := @recoverStep_unstarted cfg _ regular posted traced input
  obtain ⟨before,action,after⟩ := t
  have next := trace_step (step cfg) member
  change action = .recoverStep input at recovering
  change after = step cfg before action at next
  subst recovering
  subst next
  exact unstarted

/-! The developer's wake creates its provider, and the host is killed. -/

/-- The tick leases the delivery and wakes the developer, up to the call of `Popen`. -/
def launching : List HostAction :=
  enqueued ++ [.store (.queue (.leaseDelivery "supervisor" midnight 300 3)),
    .wake "dev" (some "delivery") "routed GitHub events",
    .wakeStep 0 (smooth "a"),.wakeStep 0 (smooth "a"),.wakeStep 0 (smooth "a"),.wakeStep 0 (smooth "a"),
    .wakeStep 0 (smooth "a")]

def restarted : List HostAction :=
  [.crash,.recover,.recoverStep (smooth "b"),.recoverStep (smooth "b"),.recoverStep (smooth "b"),
    .recoverStep (smooth "b"),.recoverStep (smooth "b")]

/-- With the process on record, the recovery goes on to terminate it. -/
theorem started_never_unstarted_recorded :
    (∃ p ∈ (run (step smallOrganization) initial (launching ++ [.wakeStep 0 (smooth "a")] ++ restarted)).world.providers,
      p.kind = .parent) ∧
    ∀ t ∈ trace (step smallOrganization) initial (launching ++ [.wakeStep 0 (smooth "a")] ++ restarted),
      ∀ input, t.action = .recoverStep input → Unstarted t :=
  ⟨by decide +kernel,started_never_unstarted smallOrganization _ (by decide +kernel)⟩

def releasing : Transition Host HostAction :=
  let s := run (step smallOrganization) initial (launching ++ restarted.take 5)
  ⟨s,.recoverStep (smooth "b"),s.step smallOrganization (.recoverStep (smooth "b"))⟩

/-- Before the record is committed, the recovery releases the reservation of a session whose
provider is running, and gives its delivery to another wake. -/
theorem started_provider_unstarted :
    releasing ∈ trace (step smallOrganization) initial (launching ++ restarted) ∧ ¬ Unstarted releasing ∧
      (∃ p ∈ releasing.after.world.providers, p.kind = .parent ∧ p.sessionId = "a" ∧ p.status = .running) ∧
      ∃ row ∈ releasing.after.world.store.queue.deliveries.get "delivery", row.state = .retryWait := by
  have released : ∃ r ∈ releasing.after.world.store.runtime.reservations.rows, r.state = .released ∧
      r ∉ releasing.before.world.store.runtime.reservations.rows ∧
      ∃ p ∈ releasing.before.world.providers, p.sessionId = r.sessionId := by decide +kernel
  refine ⟨?_,?_,by decide +kernel,by decide +kernel⟩
  · have split : launching ++ restarted =
        (launching ++ restarted.take 5) ++ .recoverStep (smooth "b")::restarted.drop 6 := by rfl
    rw [split,trace_append]
    exact List.mem_append_right _ List.mem_cons_self
  · intro unstarted
    obtain ⟨r,member,released,fresh,p,present,own⟩ := released
    exact unstarted.1 r member released fresh p present own

end Host
end SjgControl

import SjgControl.Intake.Binding

/-! Where an event stands between its publication and its delivery, along every run of ticks
that stop anywhere. -/
namespace SjgControl
open Relational Machine

theorem routeText_inj {role role' : String} {events events' : List String}
    (same : routeText role events = routeText role' events') : role = role' ∧ events.Perm events' := by
  have chars := String.ofList_injective same
  obtain ⟨named,rest⟩ := JsonText.text_delimited role role' _ _ (List.cons.inj chars).2
  obtain ⟨sorted,_⟩ := JsonText.texts_delimited _ _ _ _ (List.cons.inj rest).2
  refine ⟨named,?_⟩
  have front := List.perm_insertionSort (· ≤ ·) events
  rw [sorted] at front
  exact front.symm.trans (List.perm_insertionSort (· ≤ ·) events')

namespace Queue

/-- The batch holds unassigned routes. -/
def Ready (db : Queue) (batch : Batch) : Prop :=
  batch.role ≠ "" ∧ batch.eventIds ≠ [] ∧ db.Unassigned batch.role batch.eventIds

/-- The delivery was made from this batch, whose text is one of `texts`. -/
def MadeFrom (sha256 : String → String) (texts : Set String) (db : Queue) (row : Delivery) : Prop :=
  ∃ batch : Batch, batch.eventIds ≠ [] ∧ routeText batch.role batch.eventIds ∈ texts ∧
    origin row = (routeKey sha256 batch.role batch.eventIds,batch.role) ∧
    ∀ event ∈ batch.eventIds, ⟨row.deliveryId,event,batch.role⟩ ∈ db.deliveryEvents.rows

theorem pendingRoutes_ready {db : Queue} {role : String} {limit : Int} {values : List (RouteTarget × String)}
    (ok : db.pendingRoutes role limit = .ok values) (some_ : values ≠ []) :
    db.Ready ⟨role,values.map (fun row => row.1.eventId)⟩ := by
  simp only [pendingRoutes,require_bind_ok,pure_ok] at ok
  obtain ⟨given,equal⟩ := ok
  refine ⟨fun empty => given (.inl empty),by simpa using some_,?_⟩
  intro event inside
  obtain ⟨row,member,rfl⟩ := List.mem_map.mp inside
  rw [← equal] at member
  have joined := (List.mem_insertionSort _).mp (List.mem_of_mem_take member)
  obtain ⟨r,selected,found⟩ := List.mem_filterMap.mp joined
  obtain ⟨e,_,rfl⟩ := Option.map_eq_some_iff.mp found
  obtain ⟨present,_,free,named⟩ := Table.mem_select.mp selected
  exact ⟨r,present,rfl,named,free⟩

theorem Carried.ready {db next : Queue} (carried : Carried db next) {batch : Batch} (ready : db.Ready batch) :
    next.Ready batch := by
  obtain ⟨named,some_,unassigned⟩ := ready
  refine ⟨named,some_,?_⟩
  intro event inside
  obtain ⟨r,member,event_,role_,free⟩ := unassigned event inside
  obtain ⟨last,final,moves⟩ := carried.kept r member
  exact ⟨last,final,moves.same.1.trans event_,moves.same.2.1.trans role_,moves.same.2.2.trans free⟩

theorem Bound.ready {db next : Queue} {deliveryId role key : String} {events : List String}
    (bound : Bound db next deliveryId role key events) {batch : Batch} (other : batch.role ≠ role)
    (ready : db.Ready batch) : next.Ready batch := by
  obtain ⟨named,some_,unassigned⟩ := ready
  refine ⟨named,some_,?_⟩
  intro event inside
  obtain ⟨r,member,event_,role_,free⟩ := unassigned event inside
  refine ⟨r,bound.mem_routes.mpr ⟨r,member,if_neg ?_⟩,event_,role_,free⟩
  exact fun taken => other (role_.symm.trans taken.2)

theorem Carried.madeFrom {db next : Queue} (carried : Carried db next) {sha256 : String → String}
    {texts : Set String} (made : ∀ row ∈ db.deliveries.rows, db.MadeFrom sha256 texts row) :
    ∀ row ∈ next.deliveries.rows, next.MadeFrom sha256 texts row := by
  intro row member
  have origins := carried.origins row.deliveryId
  rw [show next.deliveries.get row.deliveryId = some row from Table.get_key member] at origins
  obtain ⟨old,found,same⟩ := Option.map_eq_some_iff.mp origins.symm
  obtain ⟨present,own⟩ := Table.get_eq_some.mp found
  obtain ⟨batch,some_,listed,equal,events⟩ := made old present
  have named : old.deliveryId = row.deliveryId := own
  refine ⟨batch,some_,listed,same.symm.trans equal,?_⟩
  rw [carried.deliveryEvents,← named]
  exact events

theorem Bound.madeFrom {db next : Queue} {deliveryId : String} {batch : Batch} {sha256 : String → String}
    {texts : Set String} (bound : Bound db next deliveryId batch.role (routeKey sha256 batch.role batch.eventIds)
      batch.eventIds) (some_ : batch.eventIds ≠ []) (listed : routeText batch.role batch.eventIds ∈ texts)
    (made : ∀ row ∈ db.deliveries.rows, db.MadeFrom sha256 texts row) :
    ∀ row ∈ next.deliveries.rows, next.MadeFrom sha256 texts row := by
  obtain ⟨new,own,origin_,_,inserted⟩ := bound.inserted
  intro row member
  rcases (Table.mem_insert inserted).mp member with old | rfl
  · obtain ⟨first,nonempty,known,equal,events⟩ := made row old
    exact ⟨first,nonempty,known,equal,fun event inside => (bound.deliveryEvents _).mpr (.inl (events event inside))⟩
  · exact ⟨batch,some_,listed,origin_,fun event inside => (bound.deliveryEvents _).mpr (.inr ⟨own,rfl,inside⟩)⟩

theorem key_unused {db : Queue} (threaded : Threaded db) {sha256 : String → String} {texts : Set String}
    (apart : Set.InjOn sha256 texts) (made : ∀ row ∈ db.deliveries.rows, db.MadeFrom sha256 texts row)
    {batch : Batch} (listed : routeText batch.role batch.eventIds ∈ texts)
    (unassigned : db.Unassigned batch.role batch.eventIds) :
    ∀ row ∈ db.deliveries.rows, row.idempotencyKey ≠ routeKey sha256 batch.role batch.eventIds := by
  intro row member same
  obtain ⟨first,some_,known,equal,events⟩ := made row member
  have keys : routeKey sha256 first.role first.eventIds = routeKey sha256 batch.role batch.eventIds :=
    (congrArg Prod.fst equal).symm.trans same
  obtain ⟨named,perm⟩ := routeText_inj (apart known listed keys)
  obtain ⟨event,rest,front⟩ := List.exists_cons_of_ne_nil some_
  have inside : event ∈ first.eventIds := front ▸ List.mem_cons_self
  obtain ⟨r,present,event_,_,bound⟩ := (threaded.agree _).mp (events event inside)
  obtain ⟨twin,present',event',_,free⟩ := unassigned event (perm.mem_iff.mp inside)
  rw [threaded.single r present twin present' (event'.trans event_.symm),bound] at free
  contradiction

end Queue

namespace Intake

/-- Each batch of the tick is ready, and no role has two. -/
def Placed (s : Intake) : Prop :=
  match s.point with
  | .gathering roles batches => (∀ batch ∈ batches, s.db.queue.Ready batch) ∧ (batches.map Batch.role ++ roles).Nodup
  | .enqueuing batches => (∀ batch ∈ batches, s.db.queue.Ready batch) ∧ (batches.map Batch.role).Nodup
  | _ => True

structure Sound (sha256 : String → String) (texts : Set String) (s : Intake) : Prop where
  threaded : s.db.queue.Threaded
  made : ∀ row ∈ s.db.queue.deliveries.rows, s.db.queue.MadeFrom sha256 texts row
  placed : s.Placed

theorem sound_start (sha256 : String → String) (texts : Set String) : Sound sha256 texts start := by
  refine ⟨Queue.threaded_empty,?_,trivial⟩
  intro row member
  cases member

variable {sha256 : String → String} {texts : Set String}

theorem Sound.move {s : Intake} (sound : Sound sha256 texts s) (point : IntakePoint)
    (placed : Placed {s with point}) : Sound sha256 texts {s with point} :=
  ⟨sound.threaded,sound.made,placed⟩

theorem Sound.other {s : Intake} (sound : Sound sha256 texts s) {op : Op} (outside : op.intake = false) :
    Sound sha256 texts {s with db := s.db.step op} := by
  have carried := s.db.step_carried outside
  refine ⟨carried.threaded sound.threaded,carried.madeFrom sound.made,?_⟩
  have placed := sound.placed
  unfold Placed at placed ⊢
  cases point : s.point with
  | gathering roles batches =>
    simp only [point] at placed ⊢
    exact ⟨fun batch member => carried.ready (placed.1 batch member),placed.2⟩
  | enqueuing batches =>
    simp only [point] at placed ⊢
    exact ⟨fun batch member => carried.ready (placed.1 batch member),placed.2⟩
  | _ => trivial

theorem Sound.route {s : Intake} (sound : Sound sha256 texts s) (eventId : String) (role : Option String)
    (rest : List ObservedEvent) :
    Sound sha256 texts (s.call (s.db.queue.finishEventRouting eventId role) (.routing rest)) := by
  unfold call
  cases result : s.db.queue.finishEventRouting eventId role with
  | error e => exact ⟨sound.threaded,sound.made,trivial⟩
  | ok value =>
    have routed := Queue.finishEventRouting_ok result
    refine ⟨Queue.finishEventRouting_threaded sound.threaded result,?_,trivial⟩
    intro row member
    change row ∈ value.2.deliveries.rows at member
    rw [routed.2.1] at member
    obtain ⟨batch,some_,listed,equal,events⟩ := sound.made row member
    refine ⟨batch,some_,listed,equal,?_⟩
    change ∀ event ∈ batch.eventIds, _ ∈ value.2.deliveryEvents.rows
    rw [routed.2.2.1]
    exact events

theorem Sound.gather {s : Intake} (sound : Sound sha256 texts s) {role : String} {rest : List String}
    {batches : List Batch} (point : s.point = .gathering (role::rest) batches)
    {values : List (RouteTarget × String)}
    (ok : s.db.queue.pendingRoutes role maxEventsPerWake = .ok values) :
    Placed {s with point := .gathering rest (if values = [] then batches
      else batches ++ [⟨role,values.map (fun row => row.1.eventId)⟩])} := by
  have placed := sound.placed
  simp only [Placed,point] at placed ⊢
  obtain ⟨ready,nodup⟩ := placed
  split
  next => exact ⟨ready,nodup.sublist ((List.sublist_cons_self role rest).append_left _)⟩
  next some_ =>
    refine ⟨?_,by simpa using nodup⟩
    intro batch member
    rcases List.mem_append.mp member with old | new
    · exact ready batch old
    · rw [List.mem_singleton.mp new]
      exact Queue.pendingRoutes_ready ok some_

theorem Sound.binds {s : Intake} (sound : Sound sha256 texts s) (digest : ∀ text, sha256 text ≠ "")
    (apart : Set.InjOn sha256 texts) {batch : Batch} {rest : List Batch}
    (point : s.point = .enqueuing (batch::rest)) {deliveryId : String}
    (fresh : s.db.queue.deliveries.get deliveryId = none)
    (listed : routeText batch.role batch.eventIds ∈ texts) (now : Instant) :
    ∃ next, enqueueBody sha256 s.db.queue deliveryId batch now = .ok (deliveryId,next) ∧
      Queue.Bound s.db.queue next deliveryId batch.role (routeKey sha256 batch.role batch.eventIds) batch.eventIds := by
  have placed := sound.placed
  simp only [Placed,point] at placed
  obtain ⟨named,some_,unassigned⟩ := placed.1 batch List.mem_cons_self
  exact Queue.enqueueDelivery_new sound.threaded now fresh named some_ (digest _)
    (Queue.key_unused sound.threaded apart sound.made listed unassigned) unassigned

theorem Sound.enqueue {s : Intake} (sound : Sound sha256 texts s) {batch : Batch} {rest : List Batch}
    (point : s.point = .enqueuing (batch::rest)) (listed : routeText batch.role batch.eventIds ∈ texts)
    {deliveryId : String} {next : Queue}
    (bound : Queue.Bound s.db.queue next deliveryId batch.role (routeKey sha256 batch.role batch.eventIds)
      batch.eventIds) : Sound sha256 texts ⟨{s.db with queue := next},.enqueuing rest⟩ := by
  have placed := sound.placed
  simp only [Placed,point] at placed
  obtain ⟨ready,nodup⟩ := placed
  obtain ⟨_,some_,unassigned⟩ := ready batch List.mem_cons_self
  obtain ⟨absent,nodup⟩ := List.nodup_cons.mp nodup
  refine ⟨bound.threaded sound.threaded unassigned,bound.madeFrom some_ listed sound.made,?_,nodup⟩
  intro other member
  apply bound.ready _ (ready other (List.mem_cons_of_mem _ member))
  exact fun same => absent (same ▸ List.mem_map_of_mem member)

theorem step_sound {s : Intake} {action : IntakeAction} (digest : ∀ text, sha256 text ≠ "")
    (apart : Set.InjOn sha256 texts) (sound : Sound sha256 texts s)
    (allowed : draws s action ∧ ∀ text ∈ digested s action, text ∈ texts) :
    Sound sha256 texts (step sha256 s action) := by
  cases action with
  | begin =>
    simp only [step]
    split
    · split
      · exact sound
      · exact sound.move _ trivial
    · exact sound
  | read =>
    simp only [step]
    split
    · cases read : s.db.queue.unroutedEvents 500 with
      | ok events => exact sound.move _ trivial
      | error e => exact sound.move _ trivial
    · exact sound
  | route role =>
    simp only [step]
    split
    · exact sound.route _ role _
    · exact sound
  | policy roles =>
    simp only [step]
    split
    · apply sound.move
      refine ⟨by simp,?_⟩
      exact (List.perm_insertionSort _ _).nodup_iff.mpr (List.nodup_dedup roles)
    · exact sound
  | gather =>
    simp only [step]
    split
    next role rest batches point =>
      cases read : s.db.queue.pendingRoutes role maxEventsPerWake with
      | ok values => exact sound.move _ (sound.gather point read)
      | error e => exact sound.move _ trivial
    next batches point =>
      apply sound.move
      have placed := sound.placed
      simp only [Placed,point,List.append_nil] at placed ⊢
      exact placed
    next => exact sound
  | enqueue deliveryId now =>
    obtain ⟨fresh,listed⟩ := allowed
    simp only [step]
    split
    next batch rest point =>
      have known : routeText batch.role batch.eventIds ∈ texts := by
        apply listed
        simp [digested,point]
      obtain ⟨next,ok,bound⟩ := sound.binds digest apart point fresh known now
      unfold call
      rw [ok]
      exact sound.enqueue point known bound
    next => exact sound
  | stop => exact sound.move _ trivial
  | other op outside => exact sound.other outside

inductive Situation where
  | awaiting | ignored | unassigned | bound

def onlyRoute (db : Queue) (e : ObservedEvent) (r : RouteTarget) : Prop :=
  r ∈ db.routes.rows ∧ r.eventId = e.eventId ∧ ∀ other ∈ db.routes.rows, other.eventId = e.eventId → other = r

def stands (db : Queue) (e : ObservedEvent) : Situation → Prop
  | .awaiting => e.enrichmentState = .pending ∧ ∀ r ∈ db.routes.rows, r.eventId ≠ e.eventId
  | .ignored => e.enrichmentState = .ignored ∧ ∀ r ∈ db.routes.rows, r.eventId ≠ e.eventId
  | .unassigned => e.enrichmentState = .routed ∧ ∃ r, onlyRoute db e r ∧ r.state = .pending ∧ r.deliveryId = none ∧
      ∀ ev ∈ db.deliveryEvents.rows, ev.eventId ≠ e.eventId
  | .bound => e.enrichmentState = .routed ∧ ∃ r d, onlyRoute db e r ∧ r.state ≠ .pending ∧ r.deliveryId = some d ∧
      db.deliveries.get d ≠ none ∧
      db.deliveryEvents.count (fun ev => ev.deliveryId = d ∧ ev.eventId = e.eventId ∧ ev.role = r.role) = 1 ∧
      ∀ ev ∈ db.deliveryEvents.rows, ev.eventId = e.eventId → ev.deliveryId = d ∧ ev.role = r.role

theorem stands_exactly_once {db : Queue} (threaded : db.Threaded) {e : ObservedEvent} (member : e ∈ db.observed.rows) :
    ∃! situation, stands db e situation := by
  -- a pending or ignored event has no route, a routed one has one
  cases state : e.enrichmentState with
  | pending =>
    refine ⟨.awaiting,⟨state,threaded.unrouted member (by simp [state])⟩,?_⟩
    intro other holds
    cases other <;> simp_all [stands]
  | ignored =>
    refine ⟨.ignored,⟨state,threaded.unrouted member (by simp [state])⟩,?_⟩
    intro other holds
    cases other <;> simp_all [stands]
  | routed =>
    obtain ⟨r,present,named⟩ := threaded.routed e member state
    have only : onlyRoute db e r :=
      ⟨present,named,fun other listed same => threaded.single r present other listed (same.trans named.symm)⟩
    -- an event of a delivery is there by the one route
    have drawn : ∀ ev ∈ db.deliveryEvents.rows, ev.eventId = e.eventId →
        r.role = ev.role ∧ r.deliveryId = some ev.deliveryId := by
      intro ev listed same
      obtain ⟨twin,present',event,role,bound⟩ := (threaded.agree ev).mp listed
      rw [only.2.2 twin present' (event.trans same)] at role bound
      exact ⟨role,bound⟩
    cases bound : r.deliveryId with
    | none =>
      have pending := (threaded.free r present).mpr bound
      refine ⟨.unassigned,⟨state,r,only,pending,bound,?_⟩,?_⟩
      · intro ev listed same
        rw [(drawn ev listed same).2] at bound
        contradiction
      · intro other holds
        cases other with
        | unassigned => rfl
        | bound =>
          obtain ⟨_,twin,d,alone,_,taken,_⟩ := holds
          rw [only.2.2 twin alone.1 alone.2.1,bound] at taken
          contradiction
        | awaiting => simp [stands,state] at holds
        | ignored => simp [stands,state] at holds
    | some d =>
      have known : r.state ≠ .pending := by
        rw [Ne,threaded.free r present,bound]
        exact Option.some_ne_none d
      have inside : (⟨d,e.eventId,r.role⟩ : DeliveryEvent) ∈ db.deliveryEvents.rows :=
        (threaded.agree _).mpr ⟨r,present,named,rfl,bound⟩
      refine ⟨.bound,⟨state,r,d,only,known,bound,threaded.target r present d bound,?_,?_⟩,?_⟩
      · have once := Table.count_key inside
        rw [← once]
        apply Table.count_congr
        intro ev _
        simp [Keyed.key]
      · intro ev listed same
        obtain ⟨role,taken⟩ := drawn ev listed same
        rw [bound] at taken
        exact ⟨(Option.some.inj taken).symm,role.symm⟩
      · intro other holds
        cases other with
        | bound => rfl
        | unassigned =>
          obtain ⟨_,twin,alone,_,free,_⟩ := holds
          rw [only.2.2 twin alone.1 alone.2.1,bound] at free
          contradiction
        | awaiting => simp [stands,state] at holds
        | ignored => simp [stands,state] at holds

def digests (sha256 : String → String) (actions : List IntakeAction) : Set String :=
  {text | ∃ t ∈ trace (step sha256) start actions, digested t.before t.action = some text}

theorem digests_along {actions : List IntakeAction} (fresh : Along (step sha256) draws start actions) :
    Along (step sha256) (fun s action => draws s action ∧ ∀ text ∈ digested s action, text ∈ digests sha256 actions)
      start actions :=
  fun t member => ⟨fresh t member,fun _ hashed => ⟨t,member,hashed⟩⟩

/-- Every event of every run stands in exactly one situation, the events of the deliveries and
the bound routes agree, and every batch that is bound makes a new delivery. -/
theorem events_routed_exactly_once (sha256 : String → String) (digest : ∀ text, sha256 text ≠ "")
    (actions : List IntakeAction) (apart : Set.InjOn sha256 (digests sha256 actions))
    (fresh : Along (step sha256) draws start actions) :
    (∀ e ∈ (run (step sha256) start actions).db.queue.observed.rows,
      ∃! situation, stands (run (step sha256) start actions).db.queue e situation) ∧
    (∀ ev, ev ∈ (run (step sha256) start actions).db.queue.deliveryEvents.rows ↔
      ∃ r ∈ (run (step sha256) start actions).db.queue.routes.rows,
        r.eventId = ev.eventId ∧ r.role = ev.role ∧ r.deliveryId = some ev.deliveryId) ∧
    ∀ t ∈ trace (step sha256) start actions, ∀ batch rest deliveryId now,
      t.before.point = .enqueuing (batch::rest) → t.action = .enqueue deliveryId now →
      ∃ next, enqueueBody sha256 t.before.db.queue deliveryId batch now = .ok (deliveryId,next) ∧
        t.after = ⟨{t.before.db with queue := next},.enqueuing rest⟩ ∧
        t.before.db.queue.deliveries.get deliveryId = none ∧ next.deliveries.get deliveryId ≠ none := by
  have along := digests_along fresh
  have preserved := fun s action sound allowed =>
    @step_sound sha256 (digests sha256 actions) s action digest apart sound allowed
  have start_ := sound_start sha256 (digests sha256 actions)
  have sound := invariant_along (step sha256) preserved start_ along
  refine ⟨fun e member => stands_exactly_once sound.threaded member,sound.threaded.agree,?_⟩
  intro t member batch rest deliveryId now point action
  have before := invariant_before_along (step sha256) preserved start_ along member
  have unused : t.before.db.queue.deliveries.get deliveryId = none := by
    have drawn := fresh t member
    rw [action] at drawn
    exact drawn
  have listed : routeText batch.role batch.eventIds ∈ digests sha256 actions :=
    ⟨t,member,by simp [digested,action,point]⟩
  obtain ⟨next,ok,bound⟩ := before.binds digest apart point unused listed now
  refine ⟨next,ok,?_,unused,?_⟩
  · rw [trace_step (step sha256) member,action]
    simp only [step,point,call,ok]
    rfl
  · obtain ⟨row,own,_,_,inserted⟩ := bound.inserted
    rw [Table.get_insert inserted]
    have here : Keyed.key row = deliveryId := own
    rw [if_pos here]
    exact Option.some_ne_none row

/-- Two events are published and batched together; the tick dies before it binds them, and
the next one does. -/
def interrupted : List IntakeAction :=
  [.other (.queue (.checkpoint "org-issues" "")) rfl,
    .other (.queue (.beginSnapshot "snapshot" "org-issues" ⟨0,Instant.zero_bounded⟩)) rfl,
    .other (.queue (.stageObservation "snapshot" "event-1" "org-issues" "1" "v1" "" .null)) rfl,
    .other (.queue (.stageObservation "snapshot" "event-2" "org-issues" "2" "v1" "" .null)) rfl,
    .other (.queue (.finishSnapshot "snapshot" true 1 none (some "next") none none none ⟨0,Instant.zero_bounded⟩)) rfl,
    .begin,.read,.route (some "project-orchestrator"),.route (some "project-orchestrator"),
    .policy ["project-orchestrator"],.gather,.gather,.stop,
    .begin,.read,.policy ["project-orchestrator"],.gather,.gather,.enqueue "delivery-1" ⟨0,Instant.zero_bounded⟩,.stop]

def orchestratorText : String := "[\"project-orchestrator\",[\"event-1\",\"event-2\"]]"

def orchestratorKey (text : String) : String :=
  if text = orchestratorText then "ca186f907faf806b6a718629e20659039e24b35b65050c96db17bafacaa4cc0a"
  else "sha256 of " ++ text

theorem interrupted_digests : digests orchestratorKey interrupted ⊆ {orchestratorText} := by
  have every : ∀ t ∈ trace (step orchestratorKey) start interrupted,
      digested t.before t.action = none ∨ digested t.before t.action = some orchestratorText := by decide +kernel
  intro text hashed
  obtain ⟨t,member,found⟩ := hashed
  rcases every t member with none_ | same
  · rw [none_] at found
    contradiction
  · rw [same] at found
    exact (Option.some.inj found).symm

theorem orchestratorKey_digest (text : String) : orchestratorKey text ≠ "" := by
  unfold orchestratorKey
  split
  next => decide
  next => simp

theorem events_routed_exactly_once_interrupted :
    (run (step orchestratorKey) start interrupted).db.queue.observed.rows.length = 2 ∧
      ∀ e ∈ (run (step orchestratorKey) start interrupted).db.queue.observed.rows,
        ∃! situation, stands (run (step orchestratorKey) start interrupted).db.queue e situation :=
  ⟨by decide +kernel,(events_routed_exactly_once orchestratorKey orchestratorKey_digest interrupted
    (Set.InjOn.mono interrupted_digests (Set.injOn_singleton _ _)) (by decide +kernel)).1⟩

end Intake
end SjgControl

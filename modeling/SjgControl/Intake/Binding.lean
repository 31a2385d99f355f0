import Mathlib.Data.List.Dedup
import Mathlib.Data.Set.Function
import SjgControl.Intake.Routing

/-! Batches and the deliveries they become: a batch holds unassigned routes of its role until
it is bound, so its key was never used and binding it always makes a new delivery. -/
namespace SjgControl
open Relational Machine

namespace Queue

theorem bindRoutes_succeeds {deliveryId role : String} {events : List String} {db : Queue} (nodup : events.Nodup)
    (observed : ∀ event ∈ events, db.observed.get event ≠ none)
    (fresh : ∀ event ∈ events, db.deliveryEvents.get (deliveryId,event,role) = none) :
    ∃ next, events.foldlM (bindRoute deliveryId role) db = .ok next ∧ next.observed = db.observed ∧
      next.deliveries = db.deliveries ∧ ∀ ev, ev ∈ next.deliveryEvents.rows ↔
        ev ∈ db.deliveryEvents.rows ∨ ev.deliveryId = deliveryId ∧ ev.role = role ∧ ev.eventId ∈ events := by
  induction events generalizing db with
  | nil => exact ⟨db,rfl,rfl,rfl,by simp⟩
  | cons event rest ih =>
    obtain ⟨absent,nodup⟩ := List.nodup_cons.mp nodup
    obtain ⟨rows,inserted⟩ := @Table.insert_of_fresh _ _ _ _ db.deliveryEvents ⟨deliveryId,event,role⟩
      (fresh event List.mem_cons_self)
    let middle : Queue := {db with
      deliveryEvents := rows
      routes := db.routes.update (fun r => r.eventId = event ∧ r.role = role)
        (fun r => {r with state := .queued,deliveryId := some deliveryId}) (fun _ => rfl)}
    have first : bindRoute deliveryId role db event = .ok middle := by
      simp only [bindRoute,require_bind_ok,fetch_bind_ok]
      exact ⟨observed event List.mem_cons_self,rows,inserted,rfl⟩
    have later : ∀ other ∈ rest, middle.deliveryEvents.get (deliveryId,other,role) = none := by
      intro other inside
      have apart : ¬ (deliveryId,event,role) = (deliveryId,other,role) := by
        intro same
        have equal : event = other := (Prod.mk.inj (Prod.mk.inj same).2).1
        exact absent (equal ▸ inside)
      have found := Table.get_insert inserted (deliveryId,other,role)
      exact (found.trans (if_neg apart)).trans (fresh other (List.mem_cons_of_mem _ inside))
    obtain ⟨next,folded,sameObserved,sameDeliveries,events_⟩ := @ih middle nodup
      (fun other inside => observed other (List.mem_cons_of_mem _ inside)) later
    refine ⟨next,?_,sameObserved,sameDeliveries,?_⟩
    · rw [List.foldlM_cons,first]
      exact folded
    · intro ev
      have bound := Table.mem_insert inserted (x := ev)
      rw [events_,show middle.deliveryEvents = rows from rfl,bound,List.mem_cons]
      constructor
      · intro either
        rcases either with (old | rfl) | ⟨own,named,inside⟩
        · exact .inl old
        · exact .inr ⟨rfl,rfl,.inl rfl⟩
        · exact .inr ⟨own,named,.inr inside⟩
      · intro either
        rcases either with old | ⟨own,named,here | inside⟩
        · exact .inl (.inl old)
        · left
          right
          cases ev
          cases own
          cases named
          cases here
          rfl
        · exact .inr ⟨own,named,inside⟩

/-- What binding leaves: one more delivery, and the routes of the batch bound to it. -/
structure Bound (db next : Queue) (deliveryId role key : String) (events : List String) : Prop where
  fresh : db.deliveries.get deliveryId = none
  observed : next.observed = db.observed
  inserted : ∃ row, row.deliveryId = deliveryId ∧ origin row = (key,role) ∧ row.state = .queued ∧
    db.deliveries.insert row = some next.deliveries
  routes : ∀ k, next.routes.get k = (db.routes.get k).map (fun r => if r.eventId ∈ events ∧ r.role = role
    then {r with state := .queued,deliveryId := some deliveryId} else r)
  deliveryEvents : ∀ ev, ev ∈ next.deliveryEvents.rows ↔
    ev ∈ db.deliveryEvents.rows ∨ ev.deliveryId = deliveryId ∧ ev.role = role ∧ ev.eventId ∈ events

/-- The routes of these events, for this role, are there and unassigned. -/
def Unassigned (db : Queue) (role : String) (events : List String) : Prop :=
  ∀ event ∈ events, ∃ r ∈ db.routes.rows, r.eventId = event ∧ r.role = role ∧ r.deliveryId = none

theorem enqueueDelivery_new {db : Queue} (threaded : Threaded db) {deliveryId role key : String}
    {events : List String} (now : Instant) (fresh : db.deliveries.get deliveryId = none) (named : role ≠ "")
    (some_ : events ≠ []) (digest : key ≠ "") (unused : ∀ row ∈ db.deliveries.rows, row.idempotencyKey ≠ key)
    (unassigned : Unassigned db role events) :
    ∃ next, db.enqueueDelivery deliveryId role events key none now = .ok (deliveryId,next) ∧
      Bound db next deliveryId role key events := by
  have listed (event : String) : event ∈ events.dedup.insertionSort (· ≤ ·) ↔ event ∈ events := by
    rw [List.mem_insertionSort,List.mem_dedup]
  have nodup : (events.dedup.insertionSort (· ≤ ·)).Nodup :=
    (List.perm_insertionSort _ _).nodup_iff.mpr (List.nodup_dedup events)
  generalize sorted : events.dedup.insertionSort (· ≤ ·) = unique at listed nodup
  have given : ¬ (role = "" ∨ unique = [] ∨ key = "") := by
    intro missing
    rcases missing with empty | empty | empty
    · exact named empty
    · obtain ⟨event,rest,equal⟩ := List.exists_cons_of_ne_nil some_
      have inside := (listed event).mpr (equal ▸ List.mem_cons_self)
      rw [empty] at inside
      cases inside
    · exact digest empty
  have none_ : db.deliveries.first (fun r => r.idempotencyKey = key) = none :=
    Table.first_none.mpr unused
  have open_ : ∀ event ∈ unique, ∃ route ∈ db.routes.get (event,role),
      route.state = .pending ∧ route.deliveryId = none := by
    intro event inside
    obtain ⟨r,member,event_,role_,free⟩ := unassigned event ((listed event).mp inside)
    subst event_ role_
    exact ⟨r,Table.get_key member,(threaded.free r member).mpr free,free⟩
  obtain ⟨deliveries,inserted⟩ := @Table.insert_of_fresh _ _ _ _ db.deliveries
    ⟨deliveryId,key,role,.queued,0,now.isoText,none,none,none⟩ fresh
  have observed : ∀ event ∈ unique, db.observed.get event ≠ none := by
    intro event inside missing
    obtain ⟨r,member,event_,_⟩ := unassigned event ((listed event).mp inside)
    obtain ⟨e,present,same,_⟩ := threaded.observed r member
    exact Table.get_eq_none.mp missing e present (same.trans event_)
  -- a bound event of the new delivery would have a route bound to it
  have unbound : ∀ event ∈ unique, db.deliveryEvents.get (deliveryId,event,role) = none := by
    intro event _
    rw [Table.get_eq_none]
    intro ev member same
    obtain ⟨r,present,_,_,bound⟩ := (threaded.agree ev).mp member
    have own : ev.deliveryId = deliveryId := (Prod.mk.inj same).1
    exact threaded.target r present _ bound (own ▸ fresh)
  obtain ⟨next,folded,sameObserved,sameDeliveries,events_⟩ :=
    @bindRoutes_succeeds deliveryId role unique {db with deliveries} nodup observed unbound
  have kept : next.deliveries = deliveries := sameDeliveries
  refine ⟨next,?_,fresh,sameObserved,⟨_,rfl,rfl,rfl,kept ▸ inserted⟩,?_,?_⟩
  · unfold enqueueDelivery
    rw [sorted]
    dsimp only
    rw [none_]
    simp only [require_bind_ok,fetch_bind_ok]
    exact ⟨given,open_,deliveries,inserted,bind_ok.mpr ⟨next,folded,rfl⟩⟩
  · intro k
    rw [bindRoutes_routes folded k]
    simp only [listed]
  · intro ev
    rw [events_,listed]

theorem Bound.mem_routes {db next : Queue} {deliveryId role key : String} {events : List String}
    (bound : Bound db next deliveryId role key events) {r : RouteTarget} :
    r ∈ next.routes.rows ↔ ∃ old ∈ db.routes.rows, (if old.eventId ∈ events ∧ old.role = role
      then {old with state := .queued,deliveryId := some deliveryId} else old) = r :=
  Table.mem_of_lookup bound.routes

theorem Bound.threaded {db next : Queue} {deliveryId role key : String} {events : List String}
    (bound : Bound db next deliveryId role key events) (threaded : Threaded db)
    (unassigned : Unassigned db role events) : Threaded next := by
  -- a route of the batch is bound, any other is as it was
  have old {r : RouteTarget} (member : r ∈ next.routes.rows) : ∃ old ∈ db.routes.rows,
      old.eventId = r.eventId ∧ old.role = r.role ∧
        ((old.eventId ∈ events ∧ old.role = role) ∧ r.state = .queued ∧ r.deliveryId = some deliveryId ∨
          ¬ (old.eventId ∈ events ∧ old.role = role) ∧ old = r) := by
    obtain ⟨old,present,equal⟩ := bound.mem_routes.mp member
    refine ⟨old,present,?_⟩
    split at equal
    next taken =>
      subst equal
      exact ⟨rfl,rfl,.inl ⟨taken,rfl,rfl⟩⟩
    next other =>
      subst equal
      exact ⟨rfl,rfl,.inr ⟨other,rfl⟩⟩
  have moved {r : RouteTarget} (member : r ∈ db.routes.rows) : ∃ last ∈ next.routes.rows,
      last.eventId = r.eventId ∧ last.role = r.role ∧
        (r.eventId ∈ events ∧ r.role = role → last.deliveryId = some deliveryId) ∧
        (¬ (r.eventId ∈ events ∧ r.role = role) → last = r) := by
    refine ⟨_,bound.mem_routes.mpr ⟨r,member,rfl⟩,?_⟩
    split
    next taken => exact ⟨rfl,rfl,fun _ => rfl,fun other => absurd taken other⟩
    next other => exact ⟨rfl,rfl,fun taken => absurd taken other,fun _ => rfl⟩
  obtain ⟨row,own,_,_,inserted⟩ := bound.inserted
  have deliveries (d : String) : next.deliveries.get d = if row.deliveryId = d then some row else db.deliveries.get d :=
    Table.get_insert inserted d
  -- a route that was bound is none of the batch
  have apart {r : RouteTarget} (member : r ∈ db.routes.rows) {d : String} (taken : r.deliveryId = some d) :
      ¬ (r.eventId ∈ events ∧ r.role = role) := by
    rintro ⟨inside,_⟩
    obtain ⟨twin,present,same,_,free⟩ := unassigned r.eventId inside
    rw [threaded.single r member twin present same,taken] at free
    contradiction
  constructor
  · intro r member
    obtain ⟨was,present,event,_⟩ := old member
    obtain ⟨e,listed,named,routed⟩ := threaded.observed was present
    rw [bound.observed]
    exact ⟨e,listed,named.trans event,routed⟩
  · intro e member routed
    rw [bound.observed] at member
    obtain ⟨r,present,named⟩ := threaded.routed e member routed
    obtain ⟨last,final,event,_⟩ := moved present
    exact ⟨last,final,event.trans named⟩
  · intro r member s other same
    obtain ⟨was,present,event,named,_⟩ := old member
    obtain ⟨twin,listed,event',named',_⟩ := old other
    have equal : twin = was := threaded.single was present twin listed (event'.trans (same.trans event.symm))
    subst equal
    exact Table.mem_unique other member (Prod.ext same (named'.symm.trans named))
  · intro r member
    obtain ⟨was,present,_,_,⟨_,queued,taken⟩ | ⟨_,rfl⟩⟩ := old member
    · rw [queued,taken]
      simp
    · exact threaded.free was present
  · intro r member d taken
    rw [deliveries]
    split
    next => exact Option.some_ne_none _
    next other =>
      obtain ⟨was,present,_,_,⟨_,_,ours⟩ | ⟨_,rfl⟩⟩ := old member
      · rw [ours] at taken
        exact absurd (own.trans (Option.some.inj taken)) other
      · exact threaded.target was present d taken
  · intro ev
    rw [bound.deliveryEvents,threaded.agree]
    constructor
    · intro either
      rcases either with ⟨r,member,event,named,taken⟩ | ⟨ours,named,inside⟩
      · obtain ⟨last,final,_,_,_,same⟩ := moved member
        have equal := same (apart member taken)
        subst equal
        exact ⟨last,final,event,named,taken⟩
      · obtain ⟨r,member,event,role_,_⟩ := unassigned ev.eventId inside
        obtain ⟨last,final,event',role',taken,_⟩ := moved member
        refine ⟨last,final,event'.trans event,role'.trans (role_.trans named.symm),?_⟩
        rw [ours]
        exact taken ⟨event ▸ inside,role_⟩
    · rintro ⟨r,member,event,named,taken⟩
      obtain ⟨was,present,event',named',⟨⟨inside,role_⟩,_,ours⟩ | ⟨_,rfl⟩⟩ := old member
      · rw [ours] at taken
        exact .inr ⟨(Option.some.inj taken).symm,named.symm.trans (named'.symm.trans role_),
          event ▸ event' ▸ inside⟩
      · exact .inl ⟨was,present,event,named,taken⟩

end Queue
end SjgControl

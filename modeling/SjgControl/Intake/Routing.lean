import SjgControl.Intake

/-! The tables between an event and its delivery agree with each other, and every operation
of the host keeps them so. -/
namespace SjgControl
open Relational

namespace Queue

/-- The event of a route was routed, once, and the events of the deliveries are those of
the bound routes. -/
structure Threaded (db : Queue) : Prop where
  observed : ∀ r ∈ db.routes.rows, ∃ e ∈ db.observed.rows, e.eventId = r.eventId ∧ e.enrichmentState = .routed
  routed : ∀ e ∈ db.observed.rows, e.enrichmentState = .routed → ∃ r ∈ db.routes.rows, r.eventId = e.eventId
  single : ∀ r ∈ db.routes.rows, ∀ s ∈ db.routes.rows, s.eventId = r.eventId → s = r
  free : ∀ r ∈ db.routes.rows, r.state = .pending ↔ r.deliveryId = none
  target : ∀ r ∈ db.routes.rows, ∀ d ∈ r.deliveryId, db.deliveries.get d ≠ none
  agree : ∀ ev : DeliveryEvent, ev ∈ db.deliveryEvents.rows ↔
    ∃ r ∈ db.routes.rows, r.eventId = ev.eventId ∧ r.role = ev.role ∧ r.deliveryId = some ev.deliveryId

theorem threaded_empty : Threaded .empty := by
  constructor
  · intro r member
    cases member
  · intro e member
    cases member
  · intro r member
    cases member
  · intro r member
    cases member
  · intro r member
    cases member
  · intro ev
    refine iff_of_false List.not_mem_nil ?_
    rintro ⟨r,member,_⟩
    cases member

theorem Threaded.unrouted {db : Queue} (threaded : Threaded db) {e : ObservedEvent} (member : e ∈ db.observed.rows)
    (state : e.enrichmentState ≠ .routed) : ∀ r ∈ db.routes.rows, r.eventId ≠ e.eventId := by
  intro r present same
  obtain ⟨other,listed,named,routed⟩ := threaded.observed r present
  have equal : other = e := Table.mem_unique listed member (named.trans same)
  exact state (equal ▸ routed)

theorem advanced_free {r next : RouteTarget} (moves : r.Advanced next)
    (free : r.state = .pending ↔ r.deliveryId = none) : next.state = .pending ↔ next.deliveryId = none := by
  rcases moves with rfl | ⟨bound,state,known,rfl⟩
  · exact free
  · exact iff_of_false known bound

theorem Carried.threaded {db next : Queue} (carried : Carried db next) (threaded : Threaded db) :
    Threaded next := by
  have drawn := carried.drawn
  constructor
  · intro r member
    obtain ⟨old,present,moves⟩ := drawn r member
    obtain ⟨e,listed,named,routed⟩ := threaded.observed old present
    exact ⟨e,carried.arrives.stays e listed,named.trans moves.same.1.symm,routed⟩
  · intro e member routed
    rcases carried.arrives.arrived e member with here | ⟨pending,_⟩
    · obtain ⟨r,present,named⟩ := threaded.routed e here routed
      obtain ⟨last,final,moves⟩ := carried.kept r present
      exact ⟨last,final,moves.same.1.trans named⟩
    · rw [pending] at routed
      contradiction
  · intro r member s other same
    obtain ⟨old,present,moves⟩ := drawn r member
    obtain ⟨twin,listed,steps⟩ := drawn s other
    have equal : twin = old := threaded.single old present twin listed
      (steps.same.1.symm.trans (same.trans moves.same.1))
    subst equal
    exact Table.mem_unique other member (Prod.ext same (steps.same.2.1.trans moves.same.2.1.symm))
  · intro r member
    obtain ⟨old,present,moves⟩ := drawn r member
    exact advanced_free moves (threaded.free old present)
  · intro r member d bound missing
    obtain ⟨old,present,moves⟩ := drawn r member
    have origins := carried.origins d
    rw [missing] at origins
    rw [moves.same.2.2] at bound
    exact threaded.target old present d bound (Option.map_eq_none_iff.mp origins.symm)
  · intro ev
    rw [carried.deliveryEvents,threaded.agree]
    constructor
    · rintro ⟨r,present,event,role,bound⟩
      obtain ⟨last,final,moves⟩ := carried.kept r present
      exact ⟨last,final,moves.same.1.trans event,moves.same.2.1.trans role,moves.same.2.2.trans bound⟩
    · rintro ⟨r,member,event,role,bound⟩
      obtain ⟨old,present,moves⟩ := drawn r member
      exact ⟨old,present,moves.same.1.symm.trans event,moves.same.2.1.symm.trans role,
        moves.same.2.2.symm.trans bound⟩

/-- A pending event leaves for a role, with one new route, or is ignored. -/
theorem finishEventRouting_ok {db next : Queue} {eventId : String} {role : Option String} {value : Unit}
    (ok : db.finishEventRouting eventId role = .ok (value,next)) :
    (∃ e, db.observed.get eventId = some e ∧ e.enrichmentState = .pending) ∧
      next.deliveries = db.deliveries ∧ next.deliveryEvents = db.deliveryEvents ∧
      (∀ r, r ∈ next.routes.rows ↔ r ∈ db.routes.rows ∨ ∃ name, role = some name ∧ r = ⟨eventId,name,.pending,none⟩) ∧
      ∀ e, e ∈ next.observed.rows ↔ ∃ old ∈ db.observed.rows, (if old.eventId = eventId then
        {old with enrichmentState := if role.isSome then .routed else .ignored} else old) = e := by
  obtain ⟨pending,_,routed,rfl⟩ := finishEventRouting_effect ok
  obtain ⟨e,found,state⟩ := Option.map_eq_some_iff.mp pending
  refine ⟨⟨e,found,state⟩,?_⟩
  rcases routed with ⟨rfl,rfl⟩ | ⟨name,rfl,inserted⟩
  · exact ⟨rfl,rfl,by simp,by simp only [Table.mem_update,implies_true]⟩
  · exact ⟨rfl,rfl,by simp [Table.mem_insert inserted],by simp only [Table.mem_update,implies_true]⟩

theorem finishEventRouting_threaded {db next : Queue} {eventId : String} {role : Option String} {value : Unit}
    (threaded : Threaded db) (ok : db.finishEventRouting eventId role = .ok (value,next)) : Threaded next := by
  obtain ⟨⟨event,found,pending⟩,deliveries,deliveryEvents,routes,observed⟩ := finishEventRouting_ok ok
  obtain ⟨listed,named⟩ := Table.get_eq_some.mp found
  have unrouted := threaded.unrouted listed (by simp [pending])
  have away : ∀ r ∈ db.routes.rows, r.eventId ≠ eventId := by
    intro r member
    exact fun same => unrouted r member (same.trans named.symm)
  -- an event with another id is as it was
  have stays {e : ObservedEvent} (member : e ∈ db.observed.rows) (other : e.eventId ≠ eventId) :
      e ∈ next.observed.rows := (observed e).mpr ⟨e,member,if_neg other⟩
  constructor
  · intro r member
    rcases (routes r).mp member with old | ⟨name,chosen,rfl⟩
    · obtain ⟨e,present,same,routed⟩ := threaded.observed r old
      exact ⟨e,stays present (same ▸ away r old),same,routed⟩
    · refine ⟨_,(observed _).mpr ⟨event,listed,if_pos named⟩,named,?_⟩
      simp [chosen]
  · intro e member routed
    obtain ⟨old,present,equal⟩ := (observed e).mp member
    split at equal
    next here =>
      subst equal
      cases role with
      | none => contradiction
      | some name => exact ⟨_,(routes _).mpr (.inr ⟨name,rfl,rfl⟩),here.symm⟩
    next =>
      subst equal
      obtain ⟨r,old,same⟩ := threaded.routed _ present routed
      exact ⟨r,(routes r).mpr (.inl old),same⟩
  · intro r member s other same
    rcases (routes r).mp member with old | ⟨name,chosen,rfl⟩
    · rcases (routes s).mp other with twin | ⟨_,_,rfl⟩
      · exact threaded.single r old s twin same
      · exact absurd same.symm (away r old)
    · rcases (routes s).mp other with twin | ⟨again,chosen',rfl⟩
      · exact absurd same (away s twin)
      · rw [chosen] at chosen'
        cases chosen'
        rfl
  · intro r member
    rcases (routes r).mp member with old | ⟨_,_,rfl⟩
    · exact threaded.free r old
    · exact iff_of_true rfl rfl
  · intro r member d bound
    rw [deliveries]
    rcases (routes r).mp member with old | ⟨_,_,rfl⟩
    · exact threaded.target r old d bound
    · cases bound
  · intro ev
    rw [deliveryEvents,threaded.agree]
    constructor
    · rintro ⟨r,present,rest⟩
      exact ⟨r,(routes r).mpr (.inl present),rest⟩
    · rintro ⟨r,member,event,role,bound⟩
      rcases (routes r).mp member with old | ⟨_,_,rfl⟩
      · exact ⟨r,old,event,role,bound⟩
      · cases bound

end Queue
end SjgControl

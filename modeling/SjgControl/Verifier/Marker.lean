import SjgControl.Encoding
import SjgControl.Machine
import SjgControl.Verifier

/-! What the search for a marker proves. A marker is found in every body its own request
wrote, and in the body of another request exactly when that request's text holds it. -/
namespace SjgControl
open Relational PythonText Machine

theorem keyChar_of_mem {key : String} (conforms : requestId key) {c : Char} (member : c ∈ key.toList) : keyChar c := by
  unfold requestId at conforms
  cases chars : key.toList with
  | nil =>
    rw [chars] at member
    cases member
  | cons first rest =>
    rw [chars] at conforms member
    obtain ⟨head,every,_⟩ := conforms
    rcases List.mem_cons.mp member with rfl | inside
    · exact .inl head
    · simpa using List.all_eq_true.mp every c inside

theorem absent_of_conforms {key : String} (conforms : requestId key) {c : Char} (other : ¬ keyChar c) :
    c ∉ key.toList :=
  fun member => other (keyChar_of_mem conforms member)

theorem infix_skip {c : Char} {text front base : List Char} (absent : c ∉ front)
    (found : c::text <:+: front ++ base) : c::text <:+: base := by
  induction front with
  | nil => exact found
  | cons d rest ih =>
    obtain ⟨other,missing⟩ := not_or.mp (fun either => absent (List.mem_cons.mpr either))
    rw [List.cons_append] at found
    rcases List.infix_cons_iff.mp found with ⟨tail,equal⟩ | later
    · exact absurd (List.cons.inj equal).1 other
    · exact ih missing later

def markerTail (key : String) : List Char := "!-- sjg-idempotency:".toList ++ (key.toList ++ ' '::"-->".toList)

theorem markerOf_toList (key : String) : (markerOf key).toList = '<'::markerTail key := by
  unfold markerOf markerTail
  rw [String.toList_append,String.toList_append]
  simp

theorem markerTail_absent {key : String} (conforms : requestId key) : '<' ∉ markerTail key := by
  have absent := absent_of_conforms conforms (by decide : ¬ keyChar '<')
  unfold markerTail
  simp [absent]

theorem idempotentBody_own (body key : String) : contains (idempotentBody body key) (markerOf key) := by
  unfold idempotentBody
  split
  next found => exact found
  next =>
    unfold contains
    rw [String.toList_append,String.toList_append,List.append_assoc]
    exact (List.prefix_append _ _).isInfix

/-- The marker of another key is found in a body only if the text held it. -/
theorem idempotentBody_other {body key other : String} (conforms : requestId key) (conforms' : requestId other)
    (apart : key ≠ other) : contains (idempotentBody body key) (markerOf other) ↔ contains body (markerOf other) := by
  unfold idempotentBody
  split
  next => exact Iff.rfl
  next =>
    unfold contains
    rw [String.toList_append,String.toList_append,markerOf_toList,markerOf_toList,List.append_assoc]
    constructor
    · intro found
      rw [List.cons_append] at found
      rcases List.infix_cons_iff.mp found with ⟨tail,equal⟩ | later
      · -- at the front, the two markers would be one
        rw [List.cons_append] at equal
        have rest := (List.cons.inj equal).2
        unfold markerTail at rest
        simp only [List.append_assoc] at rest
        have keys := List.append_cancel_left rest
        simp only [List.cons_append] at keys
        have space : ¬ keyChar ' ' := by decide
        have same := (Encoding.cut_unique (absent_of_conforms conforms' space) (absent_of_conforms conforms space) keys).1
        exact absurd (String.toList_inj.mp same).symm apart
      · apply infix_skip _ (infix_skip (markerTail_absent conforms) later)
        decide
    · intro found
      exact found.trans ((List.suffix_append _ _).trans (List.suffix_append _ _)).isInfix

end SjgControl

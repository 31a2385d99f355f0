import SjgControl.GitHubWrite.Bodies
import SjgControl.Verifier.Presence

/-! The attribution of a demo comment. The evidence gate believes a comment that starts with
the marker of a request and the name of the planner; what precedes the agent's own text in a
comment leaves no other role that start. -/
namespace SjgControl
open Relational PythonText

/-- `^<!-- sjg-idempotency:[A-Za-z0-9][A-Za-z0-9._:-]{15,127} -->\n\*\*Commercial Planner —\*\* `. -/
def trustedAttribution (body : List Char) : Prop :=
  "<!-- sjg-idempotency:".toList <+: body ∧ requestIdChars ((body.drop 21).takeWhile (fun c => keyChar c)) ∧
    " -->\n**Commercial Planner —** ".toList <+: (body.drop 21).dropWhile (fun c => keyChar c)

instance : DecidablePred trustedAttribution := fun body =>
  inferInstanceAs (Decidable ("<!-- sjg-idempotency:".toList <+: body ∧
    requestIdChars ((body.drop 21).takeWhile (fun c => keyChar c)) ∧
    " -->\n**Commercial Planner —** ".toList <+: (body.drop 21).dropWhile (fun c => keyChar c)))

/-- Behind the marker of a request the planner's name must follow at once. -/
theorem trusted_behind {key : String} (conforms : requestId key) {rest : List Char}
    (trusted : trustedAttribution ((markerOf key).toList ++ '\n'::rest)) :
    "**Commercial Planner —** ".toList <+: rest := by
  obtain ⟨_,_,named⟩ := trusted
  have shape : (markerOf key).toList ++ '\n'::rest =
      "<!-- sjg-idempotency:".toList ++ (key.toList ++ ' '::("-->\n".toList ++ rest)) := by
    unfold markerOf
    simp
  have start : ((markerOf key).toList ++ '\n'::rest).drop 21 = key.toList ++ ' '::("-->\n".toList ++ rest) := by
    rw [shape]
    exact List.drop_left' (by decide)
  have behind : (key.toList ++ ' '::("-->\n".toList ++ rest)).dropWhile (fun c => keyChar c) =
      ' '::("-->\n".toList ++ rest) := by
    rw [List.dropWhile_append_of_pos (fun c member => decide_eq_true (keyChar_of_mem conforms member))]
    exact List.dropWhile_cons_of_neg (by decide)
  rw [start,behind] at named
  have literal : " -->\n**Commercial Planner —** ".toList =
      " -->\n".toList ++ "**Commercial Planner —** ".toList := by decide +kernel
  rw [literal] at named
  exact (List.prefix_append_right_inj " -->\n".toList).mp named

theorem trusted_front {first : Char} {rest : List Char} (other : first ≠ '<') : ¬ trustedAttribution (first::rest) := by
  rintro ⟨⟨more,same⟩,_⟩
  have literal : "<!-- sjg-idempotency:".toList = '<'::"!-- sjg-idempotency:".toList := by decide
  rw [literal] at same
  exact other (List.cons.inj same).1.symm

theorem named_planner {role : String} (canonical : role ∈ roleCapabilities.map Prod.fst) {rest : List Char}
    (named : "**Commercial Planner —** ".toList <+: "**".toList ++ ((heading role).toList ++ rest)) :
    role = "commercial-planner" := by
  have every : ∀ role ∈ roleCapabilities.map Prod.fst,
      role = "commercial-planner" ∨ ∃ initial ∈ (heading role).toList.head?, initial ≠ 'C' := by decide +kernel
  rcases every role canonical with own | ⟨initial,first,other⟩
  · exact own
  · obtain ⟨more,shape⟩ := List.head?_eq_some_iff.mp first
    rw [shape] at named
    have literal : "**Commercial Planner —** ".toList = "**".toList ++ 'C'::"ommercial Planner —** ".toList := by decide
    rw [literal] at named
    have inner := (List.prefix_append_right_inj "**".toList).mp named
    exact absurd (List.cons_prefix_cons.mp inner).1.symm other

namespace Backend
open Trail
variable {b : Backend} {lib : TextLibrary} {remote : GitHub} {a : Assigned} {c : BrokerCall}

/-- A comment that passes for the planner's is the planner's. -/
theorem demo_attribution (b : Backend) (lib : TextLibrary) (remote : GitHub) (a : Assigned) (c : BrokerCall)
    (conforms : requestId c.key) (canonical : c.session.role ∈ roleCapabilities.map Prod.fst) {slug : String}
    {number : Int} {item : Fields} (posted : .postComment slug number item ∈ (b.trail lib remote a c).writes)
    (trusted : trustedAttribution (bodyOf lib item).toList) :
    (c.operation = "pm.issue.comment" ∨ c.operation = "pr.comment") ∧ c.session.role = "commercial-planner" := by
  have kept : ∀ text, bodyOf lib (commentItem a text) = text := fun text => bodyOf_str rfl
  cases trail_wrote posted with
  | noted _ _ note =>
    refine ⟨note,?_⟩
    rw [kept] at trusted
    have create : c.operation ≠ "pm.issue.create" := by
      rcases note with own | own
      all_goals rw [own]; decide
    have front : (attributed lib c.session.role (Json.get c.arguments "body")).toList = "**".toList ++
        ((heading c.session.role).toList ++ (" —** ".toList ++ ((Json.get c.arguments "body").text lib.render).toList)) := by
      unfold attributed
      simp
    unfold writtenBody rawBody at trusted
    rw [if_neg create,if_pos note] at trusted
    unfold idempotentBody at trusted
    split at trusted
    next =>
      rw [front] at trusted
      exact absurd trusted (trusted_front (by decide : '*' ≠ '<'))
    next =>
      have shape : (markerOf c.key ++ "\n" ++ attributed lib c.session.role (Json.get c.arguments "body")).toList =
          (markerOf c.key).toList ++ '\n'::(attributed lib c.session.role (Json.get c.arguments "body")).toList := by simp
      rw [shape] at trusted
      have named := trusted_behind conforms trusted
      rw [front] at named
      exact named_planner canonical named
  | done =>
    rw [kept] at trusted
    have shape : (doneBody c).toList = (markerOf c.key).toList ++ '\n':: '['::("CLOSE]\n```json\n".toList ++
        (JsonText.dumps (.obj c.arguments) ++ "\n```".toList)) := by
      unfold doneBody
      simp
    rw [shape] at trusted
    exact absurd (List.cons_prefix_cons.mp (trusted_behind conforms trusted)).1 (by decide)
  | dropped =>
    rw [kept] at trusted
    have shape : (dropBody lib c).toList = (markerOf c.key).toList ++ '\n':: '['::("DROP]\nreason: ".toList ++
        (formatted lib c.arguments "reason").toList) := by
      unfold dropBody
      simp
    rw [shape] at trusted
    exact absurd (List.cons_prefix_cons.mp (trusted_behind conforms trusted)).1 (by decide)

def demonstrated : BrokerCall := Served.commentCall "planner-comment-0001" "[DEMO] invoices"

theorem demo_attribution_demonstrated :
    (demonstrated.operation = "pm.issue.comment" ∨ demonstrated.operation = "pr.comment") ∧
      demonstrated.session.role = "commercial-planner" :=
  @demo_attribution Served.plannerBackend Served.quietLibrary Served.oneStory ⟨2001,0,"comment-2001"⟩ demonstrated
    (by decide) (by decide) "example/org" 7
    (commentItem ⟨2001,0,"comment-2001"⟩ (writtenBody Served.quietLibrary demonstrated)) (List.mem_singleton.mpr rfl)
    (by decide +kernel)

end Backend
end SjgControl

import Mathlib.Tactic.Common

/-! JSON values as the controller holds them after `json.loads`, and the Python
readings of them that the modelled code uses. -/
namespace SjgControl

/-- A number is an integer or, for every other numeral, the text `repr` gives it. -/
inductive Json where
  | null
  | bool (value : Bool)
  | int (value : Int)
  | float (text : String)
  | str (value : String)
  | arr (items : List Json)
  | obj (fields : List (String × Json))

namespace Json

/-- `value.get(name)` on a mapping; `null` where the key is absent. -/
def get (fields : List (String × Json)) (name : String) : Json :=
  ((fields.find? (fun field => field.1 = name)).map Prod.snd).getD .null

def has (fields : List (String × Json)) (name : String) : Prop :=
  ∃ field ∈ fields, field.1 = name

instance (fields : List (String × Json)) (name : String) : Decidable (has fields name) :=
  inferInstanceAs (Decidable (∃ field ∈ fields, field.1 = name))

/-- Python truth of a decoded value. -/
def truthy : Json → Bool
  | .null => false
  | .bool value => value
  | .int value => value ≠ 0
  | .float text => text ≠ "0.0" ∧ text ≠ "-0.0"
  | .str value => value ≠ ""
  | .arr items => !items.isEmpty
  | .obj fields => !fields.isEmpty

/-- `str(value)`. The rendering of containers is left to `render`: no accepted
argument depends on it, and no result below assumes anything about it. -/
def text (render : Json → String) : Json → String
  | .null => "None"
  | .bool true => "True"
  | .bool false => "False"
  | .int value => toString value
  | .float text => text
  | .str value => value
  | value => render value

/-- `str(value or "")`. -/
def textOr (render : Json → String) (value : Json) : String :=
  if value.truthy then value.text render else ""

@[simp] theorem textOr_str (render : Json → String) (value : String) : textOr render (.str value) = value := by
  by_cases empty : value = "" <;> simp [textOr,truthy,text,empty]

end Json

def isText (value : Json) (text : String) : Bool :=
  match value with
  | .str given => given = text
  | _ => false

theorem isText_iff {value : Json} {text : String} : isText value text = true ↔ value = .str text := by
  cases value with
  | _ => simp [isText]

end SjgControl

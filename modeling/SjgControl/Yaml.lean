import Mathlib.Tactic.Common

/-! YAML values as the controller holds them after `yaml.safe_load`, and the Python readings
of them that the modelled code uses. -/
namespace SjgControl

/-- Floats and dates are the text that `str` gives them; so is a collection where it comes up
again inside itself. -/
inductive Yaml where
  | null
  | bool (value : Bool)
  | int (value : Int)
  | float (text : String)
  | str (value : String)
  | date (text : String)
  | binary (bytes : List UInt8)
  | seq (items : List Yaml)
  | mapping (entries : List (Yaml × Yaml))
  | set (members : List Yaml)
  | loop (text : String)

namespace Yaml

def isText (value : Yaml) (text : String) : Bool :=
  match value with
  | .str given => given = text
  | _ => false

def get (entries : List (Yaml × Yaml)) (name : String) : Yaml :=
  ((entries.find? (fun entry => entry.1.isText name)).map Prod.snd).getD .null

/-- `required <= set(value) and not set(value) - required - optional`. -/
def HasFields (required optional : List String) (entries : List (Yaml × Yaml)) : Prop :=
  (∀ name ∈ required, ∃ entry ∈ entries, entry.1.isText name = true) ∧
    ∀ entry ∈ entries, ∃ name ∈ required ++ optional, entry.1.isText name = true

instance (required optional : List String) (entries : List (Yaml × Yaml)) :
    Decidable (HasFields required optional entries) :=
  inferInstanceAs (Decidable ((∀ name ∈ required, ∃ entry ∈ entries, entry.1.isText name = true) ∧
    ∀ entry ∈ entries, ∃ name ∈ required ++ optional, entry.1.isText name = true))

def truthy : Yaml → Bool
  | .null => false
  | .bool value => value
  | .int value => value ≠ 0
  | .float text => text ≠ "0.0" ∧ text ≠ "-0.0"
  | .str value => value ≠ ""
  | .date _ => true
  | .binary bytes => !bytes.isEmpty
  | .seq items => !items.isEmpty
  | .mapping entries => !entries.isEmpty
  | .set members => !members.isEmpty
  | .loop _ => true

/-- The digits that `str` gives an integer at most; with more it raises. -/
def maxStrDigits : Nat := 4300

/-- `str(value)`, where it returns. `printed` gives the texts of bytes and collections. -/
def text (printed : Yaml → Option String) : Yaml → Option String
  | .null => some "None"
  | .bool true => some "True"
  | .bool false => some "False"
  | .int value => if value.natAbs.repr.length ≤ maxStrDigits then some (toString value) else none
  | .float text => some text
  | .str value => some value
  | .date text => some text
  | .loop text => some text
  | value => printed value

def textOr (printed : Yaml → Option String) (value : Yaml) : Option String :=
  if value.truthy then value.text printed else some ""

def hashable : Yaml → Bool
  | .seq _ => false
  | .mapping _ => false
  | .loop _ => false
  | _ => true

/-- The keys that `json.dumps` writes. -/
def isKey : Yaml → Bool
  | .null => true
  | .bool _ => true
  | .int _ => true
  | .float _ => true
  | .str _ => true
  | _ => false

mutual

/-- The values that `json.dumps` has a text for. -/
def jsonable : Yaml → Bool
  | .null => true
  | .bool _ => true
  | .int _ => true
  | .float _ => true
  | .str _ => true
  | .seq items => jsonableItems items
  | .mapping entries => jsonableEntries entries
  | _ => false

def jsonableItems : List Yaml → Bool
  | [] => true
  | item::rest => jsonable item && jsonableItems rest

def jsonableEntries : List (Yaml × Yaml) → Bool
  | [] => true
  | (key,value)::rest => isKey key && jsonable value && jsonableEntries rest

end

end Yaml
end SjgControl

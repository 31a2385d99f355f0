import Mathlib.Data.List.Basic

/-! Methods of Python's `str`. -/
namespace PythonText

/-! A condition on the characters of a text is decided along the text. -/

instance (priority := 2000) everyChar (text : List Char) (p : Char → Prop) [DecidablePred p] :
    Decidable (∀ c ∈ text, p c) := List.decidableBAll p text

instance (priority := 2000) someChar (text : List Char) (p : Char → Prop) [DecidablePred p] :
    Decidable (∃ c ∈ text, p c) := List.decidableBEx p text

instance (priority := 2000) firstChar (c : Option Char) (p : Char → Prop) [DecidablePred p] :
    Decidable (∃ d ∈ c, p d) := Option.decidableExistsMem c

/-- The characters of `str.isspace`. -/
def spaces : List Nat :=
  [0x09,0x0a,0x0b,0x0c,0x0d,0x1c,0x1d,0x1e,0x1f,0x20,0x85,0xa0,0x1680,0x2000,0x2001,0x2002,0x2003,0x2004,
    0x2005,0x2006,0x2007,0x2008,0x2009,0x200a,0x2028,0x2029,0x202f,0x205f,0x3000]

def isSpace (c : Char) : Bool := spaces.contains c.toNat

def lstrip (text : String) : String := String.ofList (text.toList.dropWhile isSpace)

def strip (text : String) : String :=
  String.ofList ((text.toList.dropWhile isSpace).reverse.dropWhile isSpace).reverse

/-- `part in text`. -/
def contains (text part : String) : Prop := part.toList <:+: text.toList

instance (text part : String) : Decidable (contains text part) :=
  inferInstanceAs (Decidable (part.toList <:+: text.toList))

/-- Each run of letters capitalized, from the kind of the character before. -/
def titleChars : Bool → List Char → List Char
  | _,[] => []
  | cased,c::rest => (if cased then c.toLower else c.toUpper)::titleChars c.isAlpha rest

/-- `text.replace("-", " ").title()`, on ASCII texts. -/
def heading (text : String) : String :=
  String.ofList (titleChars false (text.toList.map (fun c => if c = '-' then ' ' else c)))

/-- The lines of a text, as `^` and `$` see them under `(?m)`. -/
def lines : List Char → List (List Char)
  | [] => [[]]
  | c::rest =>
    if c = '\n' then []::lines rest
    else match lines rest with
      | [] => [[c]]
      | line::others => (c::line)::others

theorem lines_cons (c : Char) (rest : List Char) :
    ∃ line others, lines rest = line::others ∧
      lines (c::rest) = if c = '\n' then []::line::others else (c::line)::others := by
  have nonempty : lines rest ≠ [] := by
    cases rest with
    | nil => simp [lines]
    | cons d more =>
      rw [lines]
      split
      next => simp
      next =>
        split
        next => simp
        next => simp
  obtain ⟨line,others,split⟩ := List.exists_cons_of_ne_nil nonempty
  refine ⟨line,others,split,?_⟩
  rw [lines,split]

theorem lines_append {front rest line : List Char} {others : List (List Char)} (plain : '\n' ∉ front)
    (split : lines rest = line::others) : lines (front ++ rest) = (front ++ line)::others := by
  induction front with
  | nil => exact split
  | cons c front ih =>
    obtain ⟨other,inside⟩ := not_or.mp (fun either => plain (List.mem_cons.mpr either))
    obtain ⟨line',others',own,whole⟩ := lines_cons c (front ++ rest)
    rw [ih inside] at own
    cases own
    rw [List.cons_append,whole,if_neg (Ne.symm other)]
    rfl

theorem lines_plain {text : List Char} (plain : '\n' ∉ text) : lines text = [text] := by
  have alone : lines [] = [[]] := rfl
  have whole := lines_append plain alone
  rwa [List.append_nil] at whole

theorem lines_break (front rest : List Char) : lines (front ++ '\n'::rest) = lines front ++ lines rest := by
  induction front with
  | nil => rfl
  | cons c front ih =>
    obtain ⟨line,others,own,whole⟩ := lines_cons c (front ++ '\n'::rest)
    obtain ⟨line',others',own',whole'⟩ := lines_cons c front
    rw [ih,own',List.cons_append] at own
    cases own
    rw [List.cons_append,whole,whole']
    split
    next => rfl
    next => rfl

theorem lines_starts (text : List Char) :
    ∃ line others, lines text = line::others ∧ line <+: text ∧
      ∀ other ∈ others, ∃ before rest, text = before ++ '\n'::rest ∧ other <+: rest := by
  induction text with
  | nil => exact ⟨[],[],rfl,List.nil_prefix,by simp⟩
  | cons c rest ih =>
    obtain ⟨line,others,own,front,later⟩ := ih
    obtain ⟨line',others',own',whole⟩ := lines_cons c rest
    rw [own] at own'
    cases own'
    split at whole
    next newline =>
      refine ⟨[],line::others,whole,List.nil_prefix,?_⟩
      intro other member
      rcases List.mem_cons.mp member with rfl | member
      · exact ⟨[],rest,by rw [newline]; rfl,front⟩
      · obtain ⟨before,behind,equal,start⟩ := later other member
        exact ⟨c::before,behind,by rw [equal]; rfl,start⟩
    next =>
      refine ⟨c::line,others,whole,List.cons_prefix_cons.mpr ⟨rfl,front⟩,?_⟩
      intro other member
      obtain ⟨before,behind,equal,start⟩ := later other member
      exact ⟨c::before,behind,by rw [equal]; rfl,start⟩

end PythonText

import Mathlib.Tactic.Common

/-! POSIX paths as `PurePosixPath` reads them: the text is cut at its slashes, empty
components and single dots are dropped, and the rest is joined again. -/
namespace PosixPath

abbrev Name := List Char

instance lawfulName : LawfulBEq Name := inferInstance

instance lawfulNames : LawfulBEq (List Name) := inferInstance

/-- The components of a text between its slashes; there is always at least one. -/
def split : List Char → List Name
  | [] => [[]]
  | c::rest =>
    if c = '/' then []::split rest
    else match split rest with
      | [] => [[c]]
      | head::tail => (c::head)::tail

def join : List Name → List Char
  | [] => []
  | [name] => name
  | name::other::rest => name ++ '/' :: join (other::rest)

def parts (raw : List Char) : List Name :=
  (split raw).filter (fun name => name ≠ [] ∧ name ≠ ['.'])

/-- The root: two slashes exactly are kept, any other number counts as one. -/
def root : List Char → List Char
  | '/' :: '/' :: '/' :: _ => ['/']
  | '/' :: '/' :: _ => ['/','/']
  | '/' :: _ => ['/']
  | _ => []

/-- `str(PurePosixPath(raw))`. -/
def text (raw : List Char) : List Char :=
  if root raw = [] ∧ parts raw = [] then ['.'] else root raw ++ join (parts raw)

theorem split_ne_nil (raw : List Char) : split raw ≠ [] := by
  cases raw with
  | nil => simp [split]
  | cons c rest =>
    unfold split
    split
    next => simp
    next => split <;> simp

theorem join_split (raw : List Char) : join (split raw) = raw := by
  induction raw with
  | nil => rfl
  | cons c rest ih =>
    unfold split
    obtain ⟨head,tail,cut⟩ := List.exists_cons_of_ne_nil (split_ne_nil rest)
    rw [cut] at ih ⊢
    split
    next slash =>
      subst slash
      simp [join,ih]
    next =>
      cases tail with
      | nil => simpa [join] using ih
      | cons other more => simpa [join] using ih

theorem slash_not_mem_split {raw : List Char} : ∀ name ∈ split raw, '/' ∉ name := by
  induction raw with
  | nil => simp [split]
  | cons c rest ih =>
    unfold split
    split
    next => exact List.forall_mem_cons.mpr ⟨by simp,ih⟩
    next other =>
      obtain ⟨head,tail,cut⟩ := List.exists_cons_of_ne_nil (split_ne_nil rest)
      rw [cut] at ih ⊢
      obtain ⟨first,later⟩ := List.forall_mem_cons.mp ih
      refine List.forall_mem_cons.mpr ⟨?_,later⟩
      intro slash
      rcases List.mem_cons.mp slash with here | inside
      · exact other here.symm
      · exact first inside

theorem split_cons {name : Name} (plain : '/' ∉ name) (rest : List Char) :
    split (name ++ '/' :: rest) = name :: split rest := by
  induction name with
  | nil => simp [split]
  | cons c chars ih =>
    rw [List.mem_cons,not_or] at plain
    rw [List.cons_append,split,if_neg (Ne.symm plain.1),ih plain.2]

theorem split_join {names : List Name} (some_ : names ≠ []) (plain : ∀ name ∈ names, '/' ∉ name) :
    split (join names) = names := by
  induction names with
  | nil => exact absurd rfl some_
  | cons name rest ih =>
    obtain ⟨first,later⟩ := List.forall_mem_cons.mp plain
    cases rest with
    | nil =>
      clear ih some_ plain later
      induction name with
      | nil => rfl
      | cons c chars ih =>
        rw [List.mem_cons,not_or] at first
        have tail := ih first.2
        rw [join] at tail ⊢
        rw [split,if_neg (Ne.symm first.1),tail]
    | cons other rest =>
      rw [join,split_cons first,ih (by simp) later]

/-- Components joined by single slashes, none of them empty or made of dots that mean
something, and no backslash or control character. -/
structure Canonical (raw : List Char) : Prop where
  joined : ∃ names, names ≠ [] ∧ raw = join names ∧
    ∀ name ∈ names, '/' ∉ name ∧ name ≠ [] ∧ name ≠ ['.'] ∧ name ≠ ['.','.']
  plain : ∀ c ∈ raw, c ≠ '\\' ∧ 32 ≤ c.toNat

theorem root_join {names : List Name} (named : ∀ name ∈ names, '/' ∉ name ∧ name ≠ []) : root (join names) = [] := by
  cases names with
  | nil => rfl
  | cons name rest =>
    obtain ⟨⟨plain,some_⟩,_⟩ := List.forall_mem_cons.mp named
    obtain ⟨c,chars,rfl⟩ := List.exists_cons_of_ne_nil some_
    have solid : c ≠ '/' := fun slash => plain (slash ▸ List.mem_cons_self)
    have starts : ∃ tail, join ((c::chars)::rest) = c::tail := by
      cases rest with
      | nil => exact ⟨chars,rfl⟩
      | cons other rest => exact ⟨chars ++ '/' :: join (other::rest),rfl⟩
    obtain ⟨tail,equal⟩ := starts
    rw [equal]
    unfold root
    split
    next same => exact absurd (List.cons.inj same).1 solid
    next same => exact absurd (List.cons.inj same).1 solid
    next same => exact absurd (List.cons.inj same).1 solid
    next => rfl

theorem parts_join {names : List Name} (some_ : names ≠ [])
    (named : ∀ name ∈ names, '/' ∉ name ∧ name ≠ [] ∧ name ≠ ['.']) : parts (join names) = names := by
  unfold parts
  rw [split_join some_ (fun name member => (named name member).1),List.filter_eq_self]
  intro name member
  exact decide_eq_true (named name member).2

theorem mem_parts {raw : List Char} {name : Name} (member : name ∈ parts raw) : '/' ∉ name ∧ name ≠ [] ∧ name ≠ ['.'] := by
  obtain ⟨cut,kept⟩ := List.mem_filter.mp member
  exact ⟨slash_not_mem_split name cut,of_decide_eq_true kept⟩

theorem root_cases (raw : List Char) : root raw = [] ∨ root raw = ['/'] ∨ root raw = ['/','/'] := by
  unfold root
  split
  next => exact .inr (.inl rfl)
  next => exact .inr (.inr rfl)
  next => exact .inr (.inl rfl)
  next => exact .inl rfl

theorem parts_slash (raw : List Char) : parts ('/' :: raw) = parts raw := by
  unfold parts
  rw [split,if_pos rfl,List.filter_cons_of_neg (by simp)]

theorem parts_text {raw : List Char} (rooted : root raw ≠ []) : parts (text raw) = parts raw := by
  have inner : parts (join (parts raw)) = parts raw := by
    by_cases bare : parts raw = []
    · rw [bare]
      rfl
    · exact parts_join bare (fun name member => mem_parts member)
  rw [text,if_neg (fun both => rooted both.1)]
  rcases root_cases raw with none_ | one | two
  · exact absurd none_ rooted
  · rw [one,List.singleton_append,parts_slash,inner]
  · rw [two,List.cons_append,List.singleton_append,parts_slash,parts_slash,inner]

theorem root_text {raw : List Char} (rooted : root raw ≠ []) : root (text raw) ≠ [] := by
  have starts (rest : List Char) : root ('/' :: rest) ≠ [] := by
    unfold root
    split
    next => exact List.cons_ne_nil _ _
    next => exact List.cons_ne_nil _ _
    next => exact List.cons_ne_nil _ _
    next none_ => exact absurd rfl (none_ rest)
  rw [text,if_neg (fun both => rooted both.1)]
  rcases root_cases raw with none_ | one | two
  · exact absurd none_ rooted
  · rw [one]
    exact starts _
  · rw [two]
    exact starts _

theorem Canonical.parts_ne_nil {raw : List Char} (canonical : Canonical raw) : parts raw ≠ [] := by
  obtain ⟨⟨names,some_,rfl,named⟩,_⟩ := canonical
  rwa [parts_join some_ (fun name member => ⟨(named name member).1,(named name member).2.1,(named name member).2.2.1⟩)]

theorem mem_join {names : List Name} {c : Char} (member : c ∈ join names) : c = '/' ∨ ∃ name ∈ names, c ∈ name := by
  induction names with
  | nil => cases member
  | cons name rest ih =>
    cases rest with
    | nil => exact .inr ⟨name,List.mem_cons_self,member⟩
    | cons other rest =>
      rw [join,List.mem_append,List.mem_cons] at member
      rcases member with here | slash | later
      · exact .inr ⟨name,List.mem_cons_self,here⟩
      · exact .inl slash
      · rcases ih later with slash | ⟨inner,listed,own⟩
        · exact .inl slash
        · exact .inr ⟨inner,List.mem_cons_of_mem _ listed,own⟩

theorem join_append {front back : List Name} (some_ : front ≠ []) (more : back ≠ []) :
    join (front ++ back) = join front ++ '/' :: join back := by
  induction front with
  | nil => exact absurd rfl some_
  | cons name rest ih =>
    cases rest with
    | nil =>
      obtain ⟨head,tail,rfl⟩ := List.exists_cons_of_ne_nil more
      rfl
    | cons other rest =>
      have tail := ih (by simp)
      simp only [List.cons_append,join] at tail ⊢
      rw [tail]
      simp

end PosixPath

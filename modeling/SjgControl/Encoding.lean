import Mathlib.Data.List.Basic
import Mathlib.Tactic.Common

/-! Self-delimiting codes: texts from which, whatever follows, the coded value and the
rest can be told apart. Such codes can be written one after another, and one code can be
repeated up to a character that none of its words starts with. -/
namespace Encoding

variable {α β : Type}

def SelfDelimiting (code : α → List Char) : Prop :=
  ∀ a b s t, code a ++ s = code b ++ t → a = b ∧ s = t

/-- No word is empty or starts with `stop`. -/
def Avoids (code : α → List Char) (stop : Char) : Prop :=
  ∀ a, ∃ first rest, code a = first::rest ∧ first ≠ stop

theorem SelfDelimiting.pair {first : α → List Char} {second : β → List Char}
    (one : SelfDelimiting first) (two : SelfDelimiting second) :
    SelfDelimiting (fun p : α × β => first p.1 ++ second p.2) := by
  intro a b s t same
  simp only [List.append_assoc] at same
  obtain ⟨left,rest⟩ := one _ _ _ _ same
  obtain ⟨right,rest⟩ := two _ _ _ _ rest
  exact ⟨Prod.ext left right,rest⟩

theorem SelfDelimiting.after {code : α → List Char} (delimited : SelfDelimiting code) (text : List Char) :
    SelfDelimiting (fun a => text ++ code a) := by
  intro a b s t same
  simp only [List.append_assoc] at same
  exact delimited a b s t (List.append_cancel_left same)

theorem SelfDelimiting.before {code : α → List Char} (delimited : SelfDelimiting code) (text : List Char) :
    SelfDelimiting (fun a => code a ++ text) := by
  intro a b s t same
  simp only [List.append_assoc] at same
  obtain ⟨equal,rest⟩ := delimited a b _ _ same
  exact ⟨equal,List.append_cancel_left rest⟩

/-- A word after another, up to a character that starts no word. -/
theorem SelfDelimiting.repeated {code : α → List Char} (delimited : SelfDelimiting code) {stop : Char}
    (avoids : Avoids code stop) : SelfDelimiting (fun items : List α => items.flatMap code ++ [stop]) := by
  intro items others
  induction items generalizing others with
  | nil =>
    intro s t same
    cases others with
    | nil => exact ⟨rfl,by simpa using same⟩
    | cons b others =>
      obtain ⟨first,rest,word,other⟩ := avoids b
      simp only [List.flatMap_nil,List.flatMap_cons,word,List.nil_append,List.cons_append] at same
      exact absurd (List.cons.inj same).1.symm other
  | cons a items ih =>
    intro s t same
    cases others with
    | nil =>
      obtain ⟨first,rest,word,other⟩ := avoids a
      simp only [List.flatMap_nil,List.flatMap_cons,word,List.nil_append,List.cons_append] at same
      exact absurd (List.cons.inj same).1 other
    | cons b others =>
      simp only [List.flatMap_cons,List.append_assoc] at same ih
      obtain ⟨head,rest⟩ := delimited a b _ _ same
      obtain ⟨tail,rest⟩ := ih others s t rest
      exact ⟨by rw [head,tail],rest⟩

/-- Words with `between` between them, up to a character that no word starts with: where each
word can be told apart from what may follow, all of them can. -/
theorem joined_delimited {code : α → List Char} {related : α → α → Prop} {between stop : Char} {items others : List α}
    (words : ∀ a, a ∈ items ∨ a ∈ others → ∃ first rest, code a = first::rest ∧ first ≠ stop) (apart : between ≠ stop)
    (each : ∀ a ∈ items, ∀ b ∈ others, ∀ c ∈ [between,stop], ∀ d ∈ [between,stop], ∀ s t,
      code a ++ c::s = code b ++ d::t → related a b ∧ c::s = d::t) {s t : List Char}
    (same : List.intercalate [between] (items.map code) ++ stop::s = List.intercalate [between] (others.map code) ++ stop::t) :
    List.Forall₂ related items others ∧ s = t := by
  have start (a : α) (rest : List α) (s : List Char) (word : ∃ first rest, code a = first::rest ∧ first ≠ stop) :
      ∃ first tail, List.intercalate [between] ((a::rest).map code) ++ stop::s = first::tail ∧ first ≠ stop := by
    obtain ⟨first,more,word,other⟩ := word
    cases rest with
    | nil => exact ⟨first,more ++ stop::s,by simp [word],other⟩
    | cons b rest => exact ⟨first,_,by rw [List.map_cons,List.map_cons,List.intercalate_cons_cons,word]; rfl,other⟩
  have split (a : α) (rest : List α) (s : List Char) :
      ∃ c ∈ [between,stop], ∃ tail, List.intercalate [between] ((a::rest).map code) ++ stop::s = code a ++ c::tail ∧
        c::tail = (if rest = [] then stop::s else between::(List.intercalate [between] (rest.map code) ++ stop::s)) := by
    cases rest with
    | nil => exact ⟨stop,by simp,s,by simp,rfl⟩
    | cons b rest => exact ⟨between,by simp,_,by simp [List.intercalate_cons_cons],rfl⟩
  induction items generalizing others with
  | nil =>
    cases others with
    | nil => exact ⟨.nil,(List.cons.inj same).2⟩
    | cons b others =>
      obtain ⟨first,tail,word,other⟩ := start b others t (words b (.inr List.mem_cons_self))
      rw [word] at same
      exact absurd (List.cons.inj same).1.symm other
  | cons a items ih =>
    cases others with
    | nil =>
      obtain ⟨first,tail,word,other⟩ := start a items s (words a (.inl List.mem_cons_self))
      rw [word] at same
      exact absurd (List.cons.inj same).1 other
    | cons b others =>
      obtain ⟨c,among,x,front,rest⟩ := split a items s
      obtain ⟨d,within,y,front',rest'⟩ := split b others t
      rw [front,front'] at same
      obtain ⟨head,tails⟩ := each a List.mem_cons_self b List.mem_cons_self c among d within x y same
      rw [rest,rest'] at tails
      by_cases last : items = []
      · by_cases last' : others = []
        · subst last last'
          exact ⟨.cons head .nil,(List.cons.inj tails).2⟩
        · rw [if_pos last,if_neg last'] at tails
          exact absurd (List.cons.inj tails).1.symm apart
      · by_cases last' : others = []
        · rw [if_neg last,if_pos last'] at tails
          exact absurd (List.cons.inj tails).1 apart
        · rw [if_neg last,if_neg last'] at tails
          have later (a : α) (member : a ∈ items) (b : α) (listed : b ∈ others) :=
            each a (List.mem_cons_of_mem _ member) b (List.mem_cons_of_mem _ listed)
          have started (a : α) (member : a ∈ items ∨ a ∈ others) :=
            words a (member.imp (List.mem_cons_of_mem _) (List.mem_cons_of_mem _))
          obtain ⟨remaining,ends⟩ := ih started later (List.cons.inj tails).2
          exact ⟨.cons head remaining,ends⟩

theorem cut_unique {c : α} {a b x y : List α} (absent : c ∉ a) (missing : c ∉ b)
    (same : a ++ c::x = b ++ c::y) : a = b ∧ x = y := by
  induction a generalizing b with
  | nil =>
    cases b with
    | nil => exact ⟨rfl,(List.cons.inj same).2⟩
    | cons d rest =>
      have equal : c = d := (List.cons.inj same).1
      exact absurd (equal ▸ List.mem_cons_self) missing
  | cons d rest ih =>
    cases b with
    | nil =>
      have equal : d = c := (List.cons.inj same).1
      exact absurd (equal ▸ List.mem_cons_self) absent
    | cons e other =>
      obtain ⟨head,tail⟩ := List.cons.inj same
      have front : c ∉ rest := fun inside => absent (List.mem_cons_of_mem _ inside)
      have back : c ∉ other := fun inside => missing (List.mem_cons_of_mem _ inside)
      obtain ⟨rfl,rfl⟩ := ih front back tail
      exact ⟨by rw [head],rfl⟩

theorem prefix_split {c : Char} {word a b : List Char} (absent : c ∉ word) (start : word <+: a ++ c::b) :
    word <+: a := by
  by_cases short : word.length ≤ a.length
  · exact List.prefix_of_prefix_length_le start (List.prefix_append _ _) short
  · have front : a ++ [c] <+: a ++ c::b := by simp
    have inside : a ++ [c] <+: word := by
      apply List.prefix_of_prefix_length_le front start
      rw [List.length_append,List.length_singleton]
      omega
    exact absurd (inside.subset (by simp)) absent

theorem infix_split {c : Char} {word a b : List Char} (absent : c ∉ word) :
    word <:+: a ++ c::b ↔ word <:+: a ∨ word <:+: b := by
  constructor
  · intro found
    induction a with
    | nil =>
      rcases List.infix_cons_iff.mp found with front | later
      · exact .inl (prefix_split (a := []) absent front).isInfix
      · exact .inr later
    | cons d rest ih =>
      rw [List.cons_append] at found
      rcases List.infix_cons_iff.mp found with front | later
      · have start := prefix_split (a := d::rest) absent front
        exact .inl start.isInfix
      · rcases ih later with inside | behind
        · exact .inl (List.infix_cons_iff.mpr (.inr inside))
        · exact .inr behind
  · rintro (before | behind)
    · exact before.trans (List.prefix_append _ _).isInfix
    · exact behind.trans ((List.suffix_cons _ _).trans (List.suffix_append _ _)).isInfix

theorem infix_at_cut {c : Char} {front a b : List Char} (absent : c ∉ front) (missing : c ∉ b) :
    front ++ c::a <:+: front ++ c::b ↔ a <+: b := by
  constructor
  · rintro ⟨x,y,same⟩
    have first := List.count_eq_zero_of_not_mem absent
    have second := List.count_eq_zero_of_not_mem missing
    have counts := congrArg (List.count c) same
    simp only [List.count_append,List.count_cons_self] at counts
    have outside : c ∉ x ++ front := by
      rw [← List.count_eq_zero,List.count_append]
      omega
    have aligned : (x ++ front) ++ c::(a ++ y) = front ++ c::b := by
      rw [← same]
      simp
    exact ⟨y,(cut_unique outside absent aligned).2⟩
  · rintro ⟨y,same⟩
    rw [← same]
    exact ⟨[],y,by simp⟩

theorem append_lt_append_iff {a b s t : List Char} (same : a.length = b.length) :
    a ++ s < b ++ t ↔ a < b ∨ a = b ∧ s < t := by
  induction a generalizing b with
  | nil =>
    have empty : b = [] := List.length_eq_zero_iff.mp same.symm
    subst empty
    simp
  | cons c a ih =>
    cases b with
    | nil => cases same
    | cons d b =>
      simp only [List.cons_append,List.cons_lt_cons_iff,ih (Nat.succ.inj same),List.cons.injEq]
      constructor
      · rintro (less | ⟨equal,less | ⟨rest,tail⟩⟩)
        · exact .inl (.inl less)
        · exact .inl (.inr ⟨equal,less⟩)
        · exact .inr ⟨⟨equal,rest⟩,tail⟩
      · rintro ((less | ⟨equal,less⟩) | ⟨⟨equal,rest⟩,tail⟩)
        · exact .inl less
        · exact .inr ⟨equal,.inl less⟩
        · exact .inr ⟨equal,.inr ⟨rest,tail⟩⟩

/-! Records of a name and contents, each of the two closed by `stop`, which may also stand in
the contents. -/

section Framing
variable [DecidableEq α] {stop : α}

def frame (stop : α) (record : List α × List α) : List α := record.1 ++ stop::(record.2 ++ [stop])

/-- What stands between the stops of a record. -/
def pieces (stop : α) (record : List α × List α) : List (List α) := record.1::record.2.splitOn stop

theorem length_splitOn (contents : List α) : (contents.splitOn stop).length = contents.count stop + 1 := by
  induction contents with
  | nil => rfl
  | cons c rest ih =>
    rw [List.splitOn_cons_eq_if_modifyHead,List.count_cons]
    split
    next => rw [List.length_cons,ih]
    next => rw [List.length_modifyHead,ih,Nat.add_zero]

theorem splitOn_closed {words : List (List α)} (plain : ∀ word ∈ words, stop ∉ word) :
    (words.flatMap (fun word => word ++ [stop])).splitOn stop = words ++ [[]] := by
  induction words with
  | nil => rfl
  | cons word rest ih =>
    obtain ⟨first,later⟩ := List.forall_mem_cons.mp plain
    rw [List.flatMap_cons,List.append_assoc,List.singleton_append,List.splitOn_append_cons_self_of_not_mem first,ih later]
    rfl

theorem splitOn_framed {records : List (List α × List α)} (plain : ∀ record ∈ records, stop ∉ record.1) :
    (records.flatMap (frame stop)).splitOn stop = records.flatMap (pieces stop) ++ [[]] := by
  induction records with
  | nil => rfl
  | cons record rest ih =>
    obtain ⟨first,later⟩ := List.forall_mem_cons.mp plain
    have stream : (record::rest).flatMap (frame stop) =
        record.1 ++ stop::(record.2 ++ stop::rest.flatMap (frame stop)) := by
      simp [frame]
    rw [stream,List.splitOn_append_cons_self_of_not_mem first,List.splitOn_append_cons_self,ih later]
    simp [pieces]

/-- A stream of records says no more than its pieces. -/
theorem framed_eq_iff {records others : List (List α × List α)} (plain : ∀ record ∈ records, stop ∉ record.1)
    (solid : ∀ record ∈ others, stop ∉ record.1) :
    records.flatMap (frame stop) = others.flatMap (frame stop) ↔
      records.flatMap (pieces stop) = others.flatMap (pieces stop) := by
  constructor
  · intro same
    have cut := congrArg (fun stream => stream.splitOn stop) same
    simp only [splitOn_framed plain,splitOn_framed solid] at cut
    exact List.append_cancel_right cut
  · intro same
    have back (stream : List α) : [stop].intercalate (stream.splitOn stop) = stream := List.intercalate_splitOn stop
    rw [← back (records.flatMap (frame stop)),← back (others.flatMap (frame stop)),splitOn_framed plain,
      splitOn_framed solid,same]

theorem records_of_pieces {records others : List (List α × List α)}
    (same : records.flatMap (pieces stop) = others.flatMap (pieces stop))
    (counts : records.map (fun record => record.2.count stop) = others.map (fun record => record.2.count stop)) :
    records = others := by
  induction records generalizing others with
  | nil =>
    cases others with
    | nil => rfl
    | cons => cases counts
  | cons record rest ih =>
    cases others with
    | nil => cases counts
    | cons other more =>
      obtain ⟨count,counts⟩ := List.cons.inj counts
      rw [List.flatMap_cons,List.flatMap_cons] at same
      have lengths : (pieces stop record).length = (pieces stop other).length := by
        simp only [pieces,List.length_cons,length_splitOn,count]
      obtain ⟨head,tail⟩ := List.append_inj same lengths
      obtain ⟨name,contents⟩ := List.cons.inj head
      have back (contents : List α) : [stop].intercalate (contents.splitOn stop) = contents := List.intercalate_splitOn stop
      have whole : record.2 = other.2 := by rw [← back record.2,contents,back]
      rw [Prod.ext name whole,ih tail counts]

end Framing

end Encoding

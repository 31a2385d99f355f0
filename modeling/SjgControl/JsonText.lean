import Mathlib.Data.List.Sort
import SjgControl.Encoding
import SjgControl.Json
import SjgControl.PythonText

/-! `json.dumps(…, separators=(",",":"))` on texts and lists of texts, with the default
`ensure_ascii`: everything outside the printable ASCII characters is escaped. -/
namespace SjgControl
namespace JsonText
open Encoding

/-- `ESCAPE_DCT`: the characters with an escape of two characters. -/
def escapeDct : List (Char × Char) :=
  [('"','"'),('\\','\\'),('\n','n'),('\r','r'),('\t','t'),('\x0c','f'),('\x08','b')]

def shortEscape (c : Char) : Option Char := (escapeDct.find? (fun entry => entry.1 = c)).map Prod.snd

/-- `'\\u{0:04x}'`. -/
def unit (n : Nat) : List Char :=
  ['\\','u',Nat.digitChar (n / 4096 % 16),Nat.digitChar (n / 256 % 16),Nat.digitChar (n / 16 % 16),
    Nat.digitChar (n % 16)]

/-- A character beyond the basic plane becomes a surrogate pair. -/
def unicodeEscape (n : Nat) : List Char :=
  if n < 0x10000 then unit n
  else unit (0xd800 + (n - 0x10000) / 1024) ++ unit (0xdc00 + (n - 0x10000) % 1024)

def escape (c : Char) : List Char :=
  match shortEscape c with
  | some named => ['\\',named]
  | none => if ' ' ≤ c ∧ c ≤ '~' then [c] else unicodeEscape c.toNat

def text (value : String) : List Char := '"' :: (value.toList.flatMap escape ++ ['"'])

def texts : List String → List Char
  | [] => ['[',']']
  | first::rest => '[' :: (text first ++ (rest.flatMap (fun value => ',' :: text value) ++ [']']))

theorem digitChar_injective {a b : Nat} (first : a < 16) (second : b < 16)
    (same : Nat.digitChar a = Nat.digitChar b) : a = b := by
  have every : ∀ a < 16, ∀ b < 16, Nat.digitChar a = Nat.digitChar b → a = b := by decide
  exact every a first b second same

theorem unit_delimited {m n : Nat} (first : m < 65536) (second : n < 65536) {s t : List Char}
    (same : unit m ++ s = unit n ++ t) : m = n ∧ s = t := by
  simp only [unit,List.cons_append,List.nil_append,List.cons.injEq,true_and] at same
  obtain ⟨a,b,c,d,rest⟩ := same
  have one := digitChar_injective (by omega) (by omega) a
  have two := digitChar_injective (by omega) (by omega) b
  have three := digitChar_injective (by omega) (by omega) c
  have four := digitChar_injective (by omega) (by omega) d
  exact ⟨by omega,rest⟩

/-- A code point, which is none of a surrogate. -/
def Scalar (n : Nat) : Prop := n < 0xd800 ∨ 0xdfff < n ∧ n < 0x110000

theorem scalar_toNat (c : Char) : Scalar c.toNat := c.valid

theorem unicodeEscape_delimited {m n : Nat} (first : Scalar m) (second : Scalar n) {s t : List Char}
    (same : unicodeEscape m ++ s = unicodeEscape n ++ t) : m = n ∧ s = t := by
  unfold Scalar at first second
  unfold unicodeEscape at same
  split at same
  next small =>
    split at same
    next small' => exact unit_delimited small small' same
    next large =>
      rw [List.append_assoc] at same
      obtain ⟨equal,_⟩ := unit_delimited small (by omega) same
      omega
  next large =>
    split at same
    next small =>
      rw [List.append_assoc] at same
      obtain ⟨equal,_⟩ := unit_delimited (by omega) small same
      omega
    next large' =>
      rw [List.append_assoc,List.append_assoc] at same
      obtain ⟨high,same⟩ := unit_delimited (by omega) (by omega) same
      obtain ⟨low,rest⟩ := unit_delimited (by omega) (by omega) same
      exact ⟨by omega,rest⟩

theorem unicodeEscape_start (n : Nat) : ∃ rest, unicodeEscape n = '\\' :: 'u' :: rest := by
  unfold unicodeEscape
  split
  next => exact ⟨_,rfl⟩
  next => exact ⟨_,rfl⟩

theorem shortEscape_mem {c named : Char} (found : shortEscape c = some named) : (c,named) ∈ escapeDct := by
  obtain ⟨entry,listed,rfl⟩ := Option.map_eq_some_iff.mp found
  have own : entry.1 = c := by simpa using List.find?_some listed
  exact own ▸ List.mem_of_find?_eq_some listed

theorem shortEscape_injective {a b named : Char} (first : shortEscape a = some named)
    (second : shortEscape b = some named) : a = b := by
  have every : ∀ p ∈ escapeDct, ∀ q ∈ escapeDct, p.2 = q.2 → p.1 = q.1 := by decide
  exact every _ (shortEscape_mem first) _ (shortEscape_mem second) rfl

theorem shortEscape_not_u {c named : Char} (found : shortEscape c = some named) : named ≠ 'u' := by
  have every : ∀ p ∈ escapeDct, p.2 ≠ 'u' := by decide
  exact every _ (shortEscape_mem found)

theorem escape_cases (c : Char) :
    (∃ named, shortEscape c = some named ∧ escape c = ['\\',named]) ∨
      (c ≠ '\\' ∧ c ≠ '"' ∧ escape c = [c]) ∨ escape c = unicodeEscape c.toNat := by
  unfold escape
  cases found : shortEscape c with
  | some named => exact .inl ⟨named,rfl,rfl⟩
  | none =>
    have plain : c ≠ '\\' ∧ c ≠ '"' := by
      constructor
      · rintro rfl
        contradiction
      · rintro rfl
        contradiction
    dsimp only
    split
    next => exact .inr (.inl ⟨plain.1,plain.2,rfl⟩)
    next => exact .inr (.inr rfl)

theorem escape_delimited : SelfDelimiting escape := by
  intro a b s t same
  obtain ⟨u,word⟩ := unicodeEscape_start a.toNat
  obtain ⟨v,word'⟩ := unicodeEscape_start b.toNat
  rcases escape_cases a with ⟨named,short,first⟩ | ⟨plain,_,first⟩ | first
  · rcases escape_cases b with ⟨other,short',second⟩ | ⟨plain,_,second⟩ | second
    · rw [first,second] at same
      simp only [List.cons_append,List.nil_append,List.cons.injEq,true_and] at same
      obtain ⟨rfl,rest⟩ := same
      exact ⟨shortEscape_injective short short',rest⟩
    · rw [first,second] at same
      exact absurd (List.cons.inj same).1.symm plain
    · rw [first,second,word'] at same
      exact absurd (List.cons.inj (List.cons.inj same).2).1 (shortEscape_not_u short)
  · rcases escape_cases b with ⟨other,short',second⟩ | ⟨_,_,second⟩ | second
    · rw [first,second] at same
      exact absurd (List.cons.inj same).1 plain
    · rw [first,second] at same
      exact List.cons.inj same
    · rw [first,second,word'] at same
      exact absurd (List.cons.inj same).1 plain
  · rcases escape_cases b with ⟨other,short',second⟩ | ⟨plain,_,second⟩ | second
    · rw [first,second,word] at same
      exact absurd (List.cons.inj (List.cons.inj same).2).1.symm (shortEscape_not_u short')
    · rw [first,second,word] at same
      exact absurd (List.cons.inj same).1.symm plain
    · rw [first,second] at same
      obtain ⟨code,rest⟩ := unicodeEscape_delimited (scalar_toNat a) (scalar_toNat b) same
      exact ⟨Char.toNat_inj.mp code,rest⟩

theorem escape_avoids : Avoids escape '"' := by
  intro c
  obtain ⟨rest,word⟩ := unicodeEscape_start c.toNat
  rcases escape_cases c with ⟨named,_,written⟩ | ⟨_,plain,written⟩ | written
  · exact ⟨_,_,written,by decide⟩
  · exact ⟨_,_,written,plain⟩
  · exact ⟨_,_,written.trans word,by decide⟩

theorem text_delimited : SelfDelimiting text := by
  intro a b s t same
  obtain ⟨chars,rest⟩ := (escape_delimited.repeated escape_avoids).after ['"'] a.toList b.toList s t same
  exact ⟨String.ext chars,rest⟩

theorem texts_delimited : SelfDelimiting texts := by
  have tail : SelfDelimiting (fun items : List String => items.flatMap (fun value => ',' :: text value) ++ [']']) := by
    apply SelfDelimiting.repeated (text_delimited.after [','])
    intro value
    exact ⟨_,_,rfl,by decide⟩
  have full := (text_delimited.pair tail).after ['[']
  intro items others s t same
  cases items with
  | nil =>
    cases others with
    | nil => exact ⟨rfl,by simpa [texts] using same⟩
    | cons first rest =>
      have inner := (List.cons.inj same).2
      exact absurd (List.cons.inj inner).1 (by decide)
  | cons first rest =>
    cases others with
    | nil =>
      have inner := (List.cons.inj same).2
      exact absurd (List.cons.inj inner).1 (by decide)
    | cons first' rest' =>
      obtain ⟨equal,after⟩ := full (first,rest) (first',rest') s t same
      obtain ⟨head,rest⟩ := Prod.mk.inj equal
      exact ⟨by rw [head,rest],after⟩

/-! The text of any value, all of it printable ASCII characters. -/

def numeralChar (c : Char) : Bool := c.isAlphanum ∨ c ∈ ['+','-','.']

/-- The texts between items and behind a key. -/
structure Separators where
  item : List Char
  key : List Char

def field (by_ : Separators) (entry : String × List Char) : List Char := text entry.1 ++ by_.key ++ entry.2

mutual

/-- `json.dumps(value, sort_keys=True)`. The text of a number has no other characters than
those of numerals. -/
def dumpsWith (by_ : Separators) : Json → List Char
  | .null => "null".toList
  | .bool true => "true".toList
  | .bool false => "false".toList
  | .int value => (toString value).toList
  | .float numeral => numeral.toList.takeWhile numeralChar
  | .str value => text value
  | .arr items => '['::(List.intercalate by_.item (dumpsItems by_ items) ++ [']'])
  | .obj fields =>
    '\x7b'::(List.intercalate by_.item
      (((dumpsFields by_ fields).insertionSort (fun a b => a.1 ≤ b.1)).map (field by_)) ++ ['\x7d'])

def dumpsItems (by_ : Separators) : List Json → List (List Char)
  | [] => []
  | item::rest => dumpsWith by_ item::dumpsItems by_ rest

def dumpsFields (by_ : Separators) : List (String × Json) → List (String × List Char)
  | [] => []
  | (name,value)::rest => (name,dumpsWith by_ value)::dumpsFields by_ rest

end

def dumps (value : Json) : List Char := dumpsWith ⟨[',',' '],[':',' ']⟩ value

/-- `json.dumps(value, sort_keys=True, separators=(",", ":"))`. -/
def compact (value : Json) : List Char := dumpsWith ⟨[','],[':']⟩ value

def graphic (c : Char) : Prop := ' ' ≤ c ∧ c ≤ '~'

instance : DecidablePred graphic := fun c => inferInstanceAs (Decidable (' ' ≤ c ∧ c ≤ '~'))

theorem digitChar_graphic (n : Nat) : graphic (Nat.digitChar (n % 16)) := by
  have every : ∀ k < 16, graphic (Nat.digitChar k) := by decide
  exact every _ (Nat.mod_lt n (by decide))

theorem unit_graphic (n : Nat) : ∀ c ∈ unit n, graphic c := by
  intro c member
  simp only [unit,List.mem_cons,List.not_mem_nil,or_false] at member
  rcases member with rfl | rfl | rfl | rfl | rfl | rfl
  · decide
  · decide
  all_goals exact digitChar_graphic _

theorem escape_graphic (a : Char) : ∀ c ∈ escape a, graphic c := by
  intro c member
  unfold escape at member
  split at member
  next named found =>
    have every : ∀ p ∈ escapeDct, graphic p.2 := by decide
    rcases List.mem_cons.mp member with rfl | member
    · decide
    · cases List.mem_singleton.mp member
      exact every _ (shortEscape_mem found)
  next =>
    split at member
    next plain =>
      cases List.mem_singleton.mp member
      exact plain
    next =>
      unfold unicodeEscape at member
      split at member
      next => exact unit_graphic _ c member
      next => exact (List.mem_append.mp member).elim (unit_graphic _ c) (unit_graphic _ c)

theorem text_graphic (value : String) : ∀ c ∈ text value, graphic c := by
  intro c member
  simp only [text,List.mem_cons,List.mem_append,List.mem_flatMap,List.not_mem_nil,or_false] at member
  rcases member with rfl | ⟨a,_,inside⟩ | rfl
  · decide
  · exact escape_graphic a c inside
  · decide

theorem intercalate_graphic {between : List Char} {parts : List (List Char)} (plain : ∀ c ∈ between, graphic c)
    (every : ∀ part ∈ parts, ∀ c ∈ part, graphic c) : ∀ c ∈ List.intercalate between parts, graphic c := by
  induction parts with
  | nil => simp
  | cons part rest ih =>
    have front := every part List.mem_cons_self
    have later := ih (fun other member => every other (List.mem_cons_of_mem _ member))
    intro c member
    cases rest with
    | nil =>
      rw [List.intercalate_singleton] at member
      exact front c member
    | cons next others =>
      rw [List.intercalate_cons_cons] at member
      rcases List.mem_append.mp member with inside | inside
      · exact (List.mem_append.mp inside).elim (front c) (plain c)
      · exact later c inside

theorem alphanum_graphic {c : Char} (numeral : c.isAlphanum = true) : graphic c := by
  have upper : c.isUpper = decide (c.val ≥ 'A'.val ∧ c.val ≤ 'Z'.val) := rfl
  have lower : c.isLower = (decide (c.val ≥ 'a'.val) && decide (c.val ≤ 'z'.val)) := rfl
  have alpha : c.isAlpha = (c.isUpper || c.isLower) := rfl
  simp only [Char.isAlphanum,alpha,upper,lower,Char.isDigit,Bool.or_eq_true,Bool.and_eq_true,decide_eq_true_eq,
    ge_iff_le] at numeral
  simp only [graphic,Char.le_def]
  have low : ' '.val = 32 := rfl
  have high : '~'.val = 126 := rfl
  rw [low,high]
  simp only [UInt32.le_iff_toNat_le] at numeral ⊢
  simp at numeral ⊢
  omega

theorem toString_negSucc (m : Nat) : (toString (Int.negSucc m)).toList = '-'::(m + 1).repr.toList := by
  change ("-" ++ (m + 1).repr).toList = _
  rw [String.toList_append]
  rfl

theorem int_injective {m n : Int} (same : (toString m).toList = (toString n).toList) : m = n := by
  have digits {i j : Nat} (same : i.repr.toList = j.repr.toList) : i = j := by
    rw [Nat.toList_repr,Nat.toList_repr] at same
    have equal := congrArg (fun chars => Nat.ofDigitChars 10 chars 0) same
    simpa only [Nat.ofDigitChars_ten_toDigits] using equal
  have unsigned (i j : Nat) : i.repr.toList ≠ '-'::j.repr.toList := by
    intro same
    have sign : '-' ∈ i.repr.toList := same ▸ List.mem_cons_self
    rw [Nat.toList_repr] at sign
    exact absurd (Nat.isDigit_of_mem_toDigits (by decide) (by decide) sign) (by decide)
  cases m with
  | ofNat i =>
    cases n with
    | ofNat j => rw [digits same]
    | negSucc j =>
      rw [toString_negSucc] at same
      exact absurd same (unsigned i (j + 1))
  | negSucc i =>
    cases n with
    | ofNat j =>
      rw [toString_negSucc] at same
      exact absurd same.symm (unsigned j (i + 1))
    | negSucc j =>
      rw [toString_negSucc,toString_negSucc] at same
      have equal := digits (List.cons.inj same).2
      rw [Nat.add_right_cancel equal]

theorem int_graphic (n : Int) : ∀ c ∈ (toString n).toList, graphic c := by
  have digits : ∀ m : Nat, ∀ c ∈ m.repr.toList, graphic c := by
    intro m c member
    rw [Nat.toList_repr] at member
    have digit := Nat.isDigit_of_mem_toDigits (by decide) (by decide) member
    exact alphanum_graphic (by simp [Char.isAlphanum,digit])
  intro c member
  cases n with
  | ofNat m => exact digits m c member
  | negSucc m =>
    rw [toString_negSucc] at member
    rcases List.mem_cons.mp member with rfl | digit
    · decide
    · exact digits _ c digit

section
variable {by_ : Separators}

theorem field_graphic (key : ∀ c ∈ by_.key, graphic c) {entry : String × List Char}
    (value : ∀ c ∈ entry.2, graphic c) : ∀ c ∈ field by_ entry, graphic c := by
  intro c member
  rcases List.mem_append.mp member with front | own
  · exact (List.mem_append.mp front).elim (text_graphic _ c) (key c)
  · exact value c own

theorem bracketed_graphic {first last : Char} {chars : List Char} (opens : graphic first) (closes : graphic last)
    (inside : ∀ c ∈ chars, graphic c) : ∀ c ∈ first::(chars ++ [last]), graphic c := by
  intro c member
  rcases List.mem_cons.mp member with rfl | member
  · exact opens
  · rcases List.mem_append.mp member with own | own
    · exact inside c own
    · cases List.mem_singleton.mp own
      exact closes

/-- Separators of printable ASCII characters. -/
def Separators.Plain (by_ : Separators) : Prop := (∀ c ∈ by_.item, graphic c) ∧ ∀ c ∈ by_.key, graphic c

mutual

theorem dumpsWith_graphic (plain : by_.Plain) : ∀ value : Json, ∀ c ∈ dumpsWith by_ value, graphic c
  | .null => by unfold dumpsWith; decide
  | .bool true => by unfold dumpsWith; decide
  | .bool false => by unfold dumpsWith; decide
  | .int value => by
    unfold dumpsWith
    exact int_graphic value
  | .float numeral => by
    intro c member
    unfold dumpsWith at member
    have own : numeralChar c = true := List.all_eq_true.mp List.all_takeWhile c member
    unfold numeralChar at own
    rcases of_decide_eq_true own with letter | sign
    · exact alphanum_graphic letter
    · have every : ∀ d ∈ ['+','-','.'], graphic d := by decide
      exact every c sign
  | .str value => by
    unfold dumpsWith
    exact text_graphic value
  | .arr items => by
    unfold dumpsWith
    exact bracketed_graphic (by decide) (by decide) (intercalate_graphic plain.1 (dumpsItems_graphic plain items))
  | .obj fields => by
    unfold dumpsWith
    refine bracketed_graphic (by decide) (by decide) (intercalate_graphic plain.1 ?_)
    intro part member
    obtain ⟨entry,sorted,rfl⟩ := List.mem_map.mp member
    exact field_graphic plain.2 (dumpsFields_graphic plain fields entry ((List.mem_insertionSort _).mp sorted))

theorem dumpsItems_graphic (plain : by_.Plain) :
    ∀ items : List Json, ∀ part ∈ dumpsItems by_ items, ∀ c ∈ part, graphic c
  | [] => by simp [dumpsItems]
  | item::rest => by
    intro part member
    rcases List.mem_cons.mp member with rfl | later
    · exact dumpsWith_graphic plain item
    · exact dumpsItems_graphic plain rest part later

theorem dumpsFields_graphic (plain : by_.Plain) :
    ∀ fields : List (String × Json), ∀ entry ∈ dumpsFields by_ fields, ∀ c ∈ entry.2, graphic c
  | [] => by simp [dumpsFields]
  | (name,value)::rest => by
    intro entry member
    rcases List.mem_cons.mp member with rfl | later
    · exact dumpsWith_graphic plain value
    · exact dumpsFields_graphic plain rest entry later

end
end

theorem dumps_graphic (value : Json) : ∀ c ∈ dumps value, graphic c :=
  dumpsWith_graphic (by unfold Separators.Plain; decide) value

/-! Reading a text back. -/

def hexDigit (c : Char) : Nat := "0123456789abcdef".toList.idxOf c

def codeUnit : List Char → Option (Nat × List Char)
  | a::b::c::d::rest => some (((hexDigit a * 16 + hexDigit b) * 16 + hexDigit c) * 16 + hexDigit d,rest)
  | _ => none

/-- What follows `\u`; a surrogate pair is one character. -/
def readUnicode (chars : List Char) : Option (Char × List Char) :=
  match codeUnit chars with
  | none => none
  | some (high,rest) =>
    if 0xd800 ≤ high ∧ high < 0xdc00 then
      (codeUnit (rest.drop 2)).map (fun (low,rest) => (Char.ofNat (0x10000 + (high - 0xd800) * 1024 + (low - 0xdc00)),rest))
    else some (Char.ofNat high,rest)

def readChar : List Char → Option (Char × List Char)
  | [] => none
  | c::rest =>
    if c = '\\' then
      match rest with
      | [] => none
      | named::rest =>
        if named = 'u' then readUnicode rest
        else (escapeDct.find? (fun entry => entry.2 = named)).map (fun entry => (entry.1,rest))
    else some (c,rest)

/-- The characters up to the closing quotation mark, at most `fuel` of them. -/
def readChars : Nat → List Char → Option (List Char × List Char)
  | 0,_ => none
  | fuel + 1,chars =>
    if chars.head? = some '"' then some ([],chars.drop 1)
    else
      match readChar chars with
      | none => none
      | some (c,rest) => (readChars fuel rest).map (fun (more,rest) => (c::more,rest))

theorem codeUnit_unit {n : Nat} (small : n < 65536) (rest : List Char) :
    codeUnit ((unit n).drop 2 ++ rest) = some (n,rest) := by
  have digit : ∀ k < 16, hexDigit (Nat.digitChar k) = k := by decide
  have every (m : Nat) : hexDigit (Nat.digitChar (m % 16)) = m % 16 := digit _ (Nat.mod_lt m (by decide))
  simp only [unit,List.drop_succ_cons,List.drop_zero,List.cons_append,List.nil_append,codeUnit,every,
    Option.some.injEq,Prod.mk.injEq,and_true]
  omega

theorem readUnicode_escape (c : Char) (rest : List Char) :
    readUnicode ((unicodeEscape c.toNat).drop 2 ++ rest) = some (c,rest) := by
  have scalar := scalar_toNat c
  unfold Scalar at scalar
  unfold readUnicode
  by_cases small : c.toNat < 0x10000
  · have word : unicodeEscape c.toNat = unit c.toNat := if_pos small
    rw [word,codeUnit_unit small]
    dsimp only
    rw [if_neg (by omega),Char.ofNat_toNat]
  · have word : (unicodeEscape c.toNat).drop 2 ++ rest = (unit (0xd800 + (c.toNat - 0x10000) / 1024)).drop 2 ++
        (unit (0xdc00 + (c.toNat - 0x10000) % 1024) ++ rest) := by
      unfold unicodeEscape
      rw [if_neg small]
      simp [unit]
    rw [word,codeUnit_unit (by omega)]
    dsimp only
    rw [if_pos (by omega)]
    have low : (unit (0xdc00 + (c.toNat - 0x10000) % 1024) ++ rest).drop 2 =
        (unit (0xdc00 + (c.toNat - 0x10000) % 1024)).drop 2 ++ rest := by simp [unit]
    rw [low,codeUnit_unit (by omega),Option.map_some]
    have whole : 0x10000 + (0xd800 + (c.toNat - 0x10000) / 1024 - 0xd800) * 1024 +
        (0xdc00 + (c.toNat - 0x10000) % 1024 - 0xdc00) = c.toNat := by omega
    dsimp only
    rw [whole,Char.ofNat_toNat]

theorem readChar_escape (c : Char) (rest : List Char) : readChar (escape c ++ rest) = some (c,rest) := by
  rcases escape_cases c with ⟨named,short,written⟩ | ⟨plain,_,written⟩ | written
  · have found : (escapeDct.find? (fun entry => entry.2 = named)).map (fun entry => (entry.1,rest)) = some (c,rest) := by
      have every : ∀ p ∈ escapeDct, escapeDct.find? (fun entry => entry.2 = p.2) = some p := by decide
      rw [every _ (shortEscape_mem short)]
      rfl
    rw [written]
    change (if named = 'u' then _ else _) = _
    rw [if_neg (shortEscape_not_u short)]
    exact found
  · rw [written]
    change (if c = '\\' then _ else _) = _
    rw [if_neg plain]
    rfl
  · obtain ⟨tail,start⟩ := unicodeEscape_start c.toNat
    have read := readUnicode_escape c rest
    rw [written]
    rw [start] at read ⊢
    exact read

theorem readChars_text {chars : List Char} {fuel : Nat} (enough : chars.length < fuel) (rest : List Char) :
    readChars fuel (chars.flatMap escape ++ '"' :: rest) = some (chars,rest) := by
  induction chars generalizing fuel with
  | nil =>
    cases fuel with
    | zero => omega
    | succ fuel => rfl
  | cons c chars ih =>
    cases fuel with
    | zero => omega
    | succ fuel =>
      obtain ⟨first,more,written,apart⟩ := escape_avoids c
      have shape : (c::chars).flatMap escape ++ '"' :: rest = escape c ++ (chars.flatMap escape ++ '"' :: rest) := by simp
      rw [readChars,shape,if_neg]
      · rw [readChar_escape]
        dsimp only
        rw [ih (by simpa using enough)]
        rfl
      · rw [written]
        exact fun same => apart (Option.some.inj same)

end JsonText
end SjgControl

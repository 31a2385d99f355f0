import SjgControl.Headroom
import SjgControl.Workers.Scope

/-! The digest binds the policy. The canonical text of a value tells everything about it but
the order of mapping keys, and the digest is taken of such a text. -/
namespace SjgControl
open Relational PythonText Encoding

namespace Policy

/-! The canonical text of a text and of a number. -/

theorem canonicalChar_cases (c : Char) :
    (∃ named, JsonText.shortEscape c = some named ∧ canonicalChar c = ['\\',named]) ∨
      (c ≠ '\\' ∧ c ≠ '"' ∧ canonicalChar c = [c]) ∨ (c.toNat < 32 ∧ canonicalChar c = JsonText.unit c.toNat) := by
  unfold canonicalChar
  cases found : JsonText.shortEscape c with
  | some named => exact .inl ⟨named,rfl,rfl⟩
  | none =>
    right
    by_cases control : c < ' '
    · exact .inr ⟨control,if_pos control⟩
    · left
      refine ⟨?_,?_,if_neg control⟩
      · rintro rfl
        revert found
        decide
      · rintro rfl
        revert found
        decide

theorem canonicalChar_delimited : SelfDelimiting canonicalChar := by
  intro a b s t same
  rcases canonicalChar_cases a with ⟨named,short,first⟩ | ⟨plain,_,first⟩ | ⟨low,first⟩ <;>
    rcases canonicalChar_cases b with ⟨other,short',second⟩ | ⟨plain',_,second⟩ | ⟨low',second⟩ <;>
    rw [first,second] at same
  · obtain ⟨_,same⟩ := List.cons.inj same
    obtain ⟨rfl,rest⟩ := List.cons.inj same
    exact ⟨JsonText.shortEscape_injective short short',rest⟩
  · exact absurd (List.cons.inj same).1.symm plain'
  · exact absurd (List.cons.inj (List.cons.inj same).2).1 (JsonText.shortEscape_not_u short)
  · exact absurd (List.cons.inj same).1 plain
  · exact List.cons.inj same
  · exact absurd (List.cons.inj same).1 plain
  · exact absurd (List.cons.inj (List.cons.inj same).2).1.symm (JsonText.shortEscape_not_u short')
  · exact absurd (List.cons.inj same).1.symm plain'
  · obtain ⟨code,rest⟩ := JsonText.unit_delimited (by omega) (by omega) same
    exact ⟨Char.toNat_inj.mp code,rest⟩

theorem canonicalChar_avoids : Avoids canonicalChar '"' := by
  intro c
  rcases canonicalChar_cases c with ⟨named,_,written⟩ | ⟨_,plain,written⟩ | ⟨_,written⟩
  · exact ⟨_,_,written,by decide⟩
  · exact ⟨_,_,written,plain⟩
  · exact ⟨_,_,written,by decide⟩

theorem canonicalText_delimited : SelfDelimiting canonicalText := by
  intro a b s t same
  obtain ⟨chars,rest⟩ :=
    (canonicalChar_delimited.repeated canonicalChar_avoids).after ['"'] a.toList b.toList s t same
  exact ⟨String.ext chars,rest⟩

def numeral (c : Char) : Bool := c = '-' ∨ c.isDigit

theorem int_numeral (n : Int) : (toString n).toList.all numeral := by
  have digits (m : Nat) : m.repr.toList.all numeral := by
    rw [Nat.toList_repr,List.all_eq_true]
    intro c member
    have digit := Nat.isDigit_of_mem_toDigits (by decide) (by decide) member
    simp [numeral,digit]
  cases n with
  | ofNat m => exact digits m
  | negSucc m =>
    rw [JsonText.toString_negSucc,List.all_cons,digits]
    decide

theorem int_ne_nil (n : Int) : (toString n).toList ≠ [] := by
  cases n with
  | ofNat m =>
    change m.repr.toList ≠ []
    rw [Nat.toList_repr]
    exact Nat.toDigits_ne_nil
  | negSucc m =>
    rw [JsonText.toString_negSucc]
    exact List.cons_ne_nil _ _

theorem int_delimited {m n : Int} {c d : Char} {s t : List Char} (stops : numeral c = false) (ends : numeral d = false)
    (same : (toString m).toList ++ c::s = (toString n).toList ++ d::t) : m = n ∧ c::s = d::t := by
  have front (n : Int) {c : Char} {s : List Char} (stops : numeral c = false) :
      ((toString n).toList ++ c::s).takeWhile numeral = (toString n).toList := by
    rw [List.takeWhile_append_of_pos (List.all_eq_true.mp (int_numeral n)),List.takeWhile_cons,stops]
    exact List.append_nil _
  have equal : m = n := by
    apply JsonText.int_injective
    rw [← front m stops (s := s),same,front n ends]
  subst equal
  exact ⟨rfl,List.append_cancel_left same⟩

/-! The normal form of a value: at every depth, the keys of mappings in order. -/

mutual

def normal : Json → Json
  | .arr items => .arr (normalItems items)
  | .obj fields => .obj ((normalFields fields).insertionSort (fun a b => a.1 ≤ b.1))
  | value => value

def normalItems : List Json → List Json
  | [] => []
  | item::rest => normal item::normalItems rest

def normalFields : List (String × Json) → List (String × Json)
  | [] => []
  | (name,value)::rest => (name,normal value)::normalFields rest

end

def inOrder {α : Type} (entries : List (String × α)) : List (String × α) := entries.insertionSort (fun a b => a.1 ≤ b.1)

theorem inOrder_map {α β : Type} (f : α → β) (entries : List (String × α)) :
    inOrder (entries.map (fun entry => (entry.1,f entry.2))) = (inOrder entries).map (fun entry => (entry.1,f entry.2)) :=
  (List.map_insertionSort (fun a b : String × α => a.1 ≤ b.1) (fun a b : String × β => a.1 ≤ b.1)
    (fun entry => (entry.1,f entry.2)) entries (fun _ _ _ _ => Iff.rfl)).symm

theorem mem_inOrder {α : Type} {entries : List (String × α)} {entry : String × α} :
    entry ∈ inOrder entries ↔ entry ∈ entries := List.mem_insertionSort _

theorem normal_arr (items : List Json) : normal (.arr items) = .arr (items.map normal) := by
  have each (items : List Json) : normalItems items = items.map normal := by
    induction items with
    | nil => rfl
    | cons item rest ih => rw [normalItems,ih,List.map_cons]
  rw [normal,each]

theorem normal_obj (fields : Fields) :
    normal (.obj fields) = .obj ((inOrder fields).map (fun entry => (entry.1,normal entry.2))) := by
  have each (fields : Fields) : normalFields fields = fields.map (fun entry => (entry.1,normal entry.2)) := by
    induction fields with
    | nil => rfl
    | cons entry rest ih => rw [normalFields,ih,List.map_cons]
  rw [normal,each]
  exact congrArg Json.obj (inOrder_map normal fields)

def entryText (entry : String × Json) : List Char := canonicalText entry.1 ++ ':' :: canonical entry.2

theorem canonical_arr (items : List Json) :
    canonical (.arr items) = '[' :: (List.intercalate [','] (items.map canonical) ++ [']']) := by
  have each (items : List Json) : canonicalItems items = items.map canonical := by
    induction items with
    | nil => rfl
    | cons item rest ih => rw [canonicalItems,ih,List.map_cons]
  rw [canonical,each]

theorem canonical_obj (fields : Fields) :
    canonical (.obj fields) = '\x7b' :: (List.intercalate [','] ((inOrder fields).map entryText) ++ ['\x7d']) := by
  have each (fields : Fields) : canonicalFields fields = fields.map (fun entry => (entry.1,canonical entry.2)) := by
    induction fields with
    | nil => rfl
    | cons entry rest ih => rw [canonicalFields,ih,List.map_cons]
  have sorted := inOrder_map canonical fields
  unfold inOrder at sorted
  rw [canonical,each,sorted,List.map_map]
  rfl

/-- A value without numbers that are no integers. -/
inductive Whole : Json → Prop where
  | null : Whole .null
  | bool (value : Bool) : Whole (.bool value)
  | int (value : Int) : Whole (.int value)
  | str (value : String) : Whole (.str value)
  | arr (items : List Json) (each : ∀ item ∈ items, Whole item) : Whole (.arr items)
  | obj (fields : Fields) (each : ∀ entry ∈ fields, Whole entry.2) : Whole (.obj fields)

/-- The kinds of values that begin in different ways. -/
def kind : Json → Nat
  | .null => 0
  | .bool true => 1
  | .bool false => 2
  | .int _ => 3
  | .float _ => 4
  | .str _ => 5
  | .arr _ => 6
  | .obj _ => 7

def kindOf (c : Char) : Nat :=
  if c = 'n' then 0 else if c = 't' then 1 else if c = 'f' then 2 else if c = '"' then 5 else if c = '[' then 6
  else if c = '\x7b' then 7 else 3

def closing : List Char := [',',']','\x7d']

theorem canonical_start {v : Json} (whole : Whole v) :
    ∃ first rest, canonical v = first::rest ∧ kindOf first = kind v ∧ first ∉ closing := by
  cases whole with
  | null => exact ⟨_,_,by unfold canonical; rfl,rfl,by decide⟩
  | bool value => cases value <;> exact ⟨_,_,by unfold canonical; rfl,rfl,by decide⟩
  | int value =>
    obtain ⟨first,rest,written⟩ := List.exists_cons_of_ne_nil (int_ne_nil value)
    have own : numeral first = true := List.all_eq_true.mp (int_numeral value) first (written ▸ List.mem_cons_self)
    have apart {c : Char} (other : numeral c = false) : first ≠ c := by
      rintro rfl
      rw [own] at other
      cases other
    refine ⟨first,rest,by unfold canonical; exact written,?_,?_⟩
    · simp only [kindOf,kind,if_neg (apart (show numeral 'n' = false by decide)),
        if_neg (apart (show numeral 't' = false by decide)),if_neg (apart (show numeral 'f' = false by decide)),
        if_neg (apart (show numeral '"' = false by decide)),if_neg (apart (show numeral '[' = false by decide)),
        if_neg (apart (show numeral '\x7b' = false by decide))]
    · intro among
      have every : ∀ c ∈ closing, numeral c = false := by decide
      exact apart (every first among) rfl
  | str value => exact ⟨_,_,by unfold canonical; rfl,rfl,by decide⟩
  | arr items => exact ⟨_,_,canonical_arr items,rfl,by decide⟩
  | obj fields => exact ⟨_,_,canonical_obj fields,rfl,by decide⟩

/-- The text of the value ends at a closing character, and tells its normal form. -/
def Told (v : Json) : Prop := ∀ w, Whole w → ∀ c ∈ closing, ∀ d ∈ closing, ∀ s t,
  canonical v ++ c::s = canonical w ++ d::t → normal v = normal w ∧ c::s = d::t

theorem map_of_related {α β : Type} {f : α → β} {items others : List α}
    (related : List.Forall₂ (fun a b => f a = f b) items others) : items.map f = others.map f := by
  induction related with
  | nil => rfl
  | cons head _ ih => rw [List.map_cons,List.map_cons,head,ih]

theorem items_told {items others : List Json} (each : ∀ item ∈ items, Whole item) (each' : ∀ item ∈ others, Whole item)
    (told : ∀ item ∈ items, Told item) {s t : List Char}
    (same : List.intercalate [','] (items.map canonical) ++ ']'::s = List.intercalate [','] (others.map canonical) ++ ']'::t) :
    items.map normal = others.map normal ∧ s = t := by
  have words (v : Json) (member : v ∈ items ∨ v ∈ others) : ∃ first rest, canonical v = first::rest ∧ first ≠ ']' := by
    obtain ⟨first,rest,written,_,outside⟩ := canonical_start (member.elim (each v) (each' v))
    exact ⟨first,rest,written,fun closes => outside (closes ▸ by decide)⟩
  have apart (v : Json) (member : v ∈ items) (w : Json) (listed : w ∈ others) (c : Char) (among : c ∈ [',',']'])
      (d : Char) (within : d ∈ [',',']']) (s t : List Char) (same : canonical v ++ c::s = canonical w ++ d::t) :
      normal v = normal w ∧ c::s = d::t := by
    have closes : ∀ c ∈ [',',']'], c ∈ closing := by decide
    exact told v member w (each' w listed) c (closes c among) d (closes d within) s t same
  obtain ⟨related,rest⟩ := joined_delimited words (by decide) apart same
  exact ⟨map_of_related related,rest⟩

theorem entries_told {fields others : Fields} (each' : ∀ entry ∈ others, Whole entry.2)
    (told : ∀ entry ∈ fields, Told entry.2) {s t : List Char}
    (same : List.intercalate [','] (fields.map entryText) ++ '\x7d'::s =
      List.intercalate [','] (others.map entryText) ++ '\x7d'::t) :
    fields.map (fun entry => (entry.1,normal entry.2)) = others.map (fun entry => (entry.1,normal entry.2)) ∧ s = t := by
  have words (entry : String × Json) (_ : entry ∈ fields ∨ entry ∈ others) :
      ∃ first rest, entryText entry = first::rest ∧ first ≠ '\x7d' := ⟨_,_,rfl,by decide⟩
  have apart (a : String × Json) (member : a ∈ fields) (b : String × Json) (listed : b ∈ others) (c : Char)
      (among : c ∈ [',','\x7d']) (d : Char) (within : d ∈ [',','\x7d']) (s t : List Char)
      (same : entryText a ++ c::s = entryText b ++ d::t) : (a.1,normal a.2) = (b.1,normal b.2) ∧ c::s = d::t := by
    have closes : ∀ c ∈ [',','\x7d'], c ∈ closing := by decide
    unfold entryText at same
    rw [List.append_assoc,List.append_assoc] at same
    obtain ⟨name,after⟩ := canonicalText_delimited a.1 b.1 _ _ same
    obtain ⟨value,rest⟩ := told a member b.2 (each' b listed) c (closes c among) d (closes d within) s t (List.cons.inj after).2
    exact ⟨by rw [name,value],rest⟩
  obtain ⟨related,rest⟩ := joined_delimited words (by decide) apart same
  exact ⟨map_of_related related,rest⟩

theorem canonical_told {v : Json} (whole : Whole v) : Told v := by
  have stops : ∀ c ∈ closing, numeral c = false := by decide
  have alike {v w : Json} (whole : Whole v) (other : Whole w) {c d : Char} {s t : List Char}
      (same : canonical v ++ c::s = canonical w ++ d::t) : kind v = kind w := by
    obtain ⟨first,_,one,own,_⟩ := canonical_start whole
    obtain ⟨first',_,two,own',_⟩ := canonical_start other
    rw [one,two] at same
    rw [← own,← own',(List.cons.inj same).1]
  induction whole with
  | null =>
    intro w other c among d within s t same
    have kinds := alike .null other same
    cases other with
    | null => exact ⟨rfl,List.append_cancel_left same⟩
    | bool value => cases value <;> cases kinds
    | _ => cases kinds
  | bool value =>
    intro w other c among d within s t same
    have kinds := alike (.bool value) other same
    cases other with
    | bool value' =>
      have equal : value = value' := by cases value <;> cases value' <;> first | rfl | cases kinds
      subst equal
      exact ⟨rfl,List.append_cancel_left same⟩
    | _ => cases value <;> cases kinds
  | int value =>
    intro w other c among d within s t same
    have kinds := alike (.int value) other same
    cases other with
    | int value' =>
      unfold canonical at same
      obtain ⟨rfl,rest⟩ := int_delimited (stops c among) (stops d within) same
      exact ⟨rfl,rest⟩
    | bool value => cases value <;> cases kinds
    | _ => cases kinds
  | str value =>
    intro w other c among d within s t same
    have kinds := alike (.str value) other same
    cases other with
    | str value' =>
      unfold canonical at same
      obtain ⟨rfl,rest⟩ := canonicalText_delimited value value' _ _ same
      exact ⟨rfl,rest⟩
    | bool value => cases value <;> cases kinds
    | _ => cases kinds
  | arr items each ih =>
    intro w other c among d within s t same
    have kinds := alike (.arr items each) other same
    cases other with
    | arr others each' =>
      rw [canonical_arr,canonical_arr] at same
      simp only [List.cons_append,List.append_assoc,List.nil_append] at same
      obtain ⟨equal,rest⟩ := items_told each each' ih (List.cons.inj same).2
      exact ⟨by rw [normal_arr,normal_arr,equal],rest⟩
    | bool value => cases value <;> cases kinds
    | _ => cases kinds
  | obj fields each ih =>
    intro w other c among d within s t same
    have kinds := alike (.obj fields each) other same
    cases other with
    | obj others each' =>
      rw [canonical_obj,canonical_obj] at same
      simp only [List.cons_append,List.append_assoc,List.nil_append] at same
      obtain ⟨equal,rest⟩ := entries_told (fun entry member => each' entry (mem_inOrder.mp member))
        (fun entry member => ih entry (mem_inOrder.mp member)) (List.cons.inj same).2
      exact ⟨by rw [normal_obj,normal_obj,equal],rest⟩
    | bool value => cases value <;> cases kinds
    | _ => cases kinds

theorem inOrder_idem {α : Type} (entries : List (String × α)) : inOrder (inOrder entries) = inOrder entries := by
  apply List.Pairwise.insertionSort_eq
  exact List.pairwise_insertionSort _ _

theorem canonical_normal {v : Json} (whole : Whole v) : canonical (normal v) = canonical v := by
  induction whole with
  | arr items each ih =>
    rw [normal_arr,canonical_arr,canonical_arr,List.map_map]
    rw [List.map_congr_left (f := canonical ∘ normal) ih]
  | obj fields each ih =>
    rw [normal_obj,canonical_obj,canonical_obj,inOrder_map,inOrder_idem,List.map_map]
    have texts : ∀ entry ∈ inOrder fields, (entryText ∘ fun entry => (entry.1,normal entry.2)) entry = entryText entry := by
      intro entry member
      exact congrArg (fun text => canonicalText entry.1 ++ ':' :: text) (ih entry (mem_inOrder.mp member))
    rw [List.map_congr_left texts]
  | _ => rfl

/-- Two values have the same canonical text just when they differ in nothing but the order of
mapping keys. -/
theorem canonical_eq_iff {v w : Json} (whole : Whole v) (other : Whole w) :
    canonical v = canonical w ↔ normal v = normal w := by
  constructor
  · intro same
    have closes : ',' ∈ closing := by decide
    exact (canonical_told whole w other ',' closes ',' closes [] [] (congrArg (fun text => text ++ [',']) same)).1
  · intro same
    rw [← canonical_normal whole,same,canonical_normal other]

/-! The digest of a policy. -/

theorem inOrder_eq_iff {α : Type} {entries others : List (String × α)} (distinct : (entries.map Prod.fst).Nodup) :
    inOrder entries = inOrder others ↔ entries.Perm others := by
  constructor
  · intro same
    have front : (inOrder entries).Perm entries := List.perm_insertionSort _ entries
    have back : (inOrder others).Perm others := List.perm_insertionSort _ others
    exact front.symm.trans (same ▸ back)
  · intro reordered
    have sorted (entries : List (String × α)) : (inOrder entries).Pairwise (fun a b => a.1 ≤ b.1) :=
      List.pairwise_insertionSort _ entries
    refine List.Perm.eq_of_pairwise ?_ (sorted entries) (sorted others)
      ((List.perm_insertionSort _ entries).trans (reordered.trans (List.perm_insertionSort _ others).symm))
    intro a b one two le ge
    exact List.inj_on_of_nodup_map distinct (mem_inOrder.mp one) (reordered.mem_iff.mpr (mem_inOrder.mp two)) (le_antisymm le ge)

theorem inOrder_inj {α : Type} {entries others : List (String × α)} (distinct : (entries.map Prod.fst).Nodup)
    (names : entries.map Prod.fst = others.map Prod.fst) : inOrder entries = inOrder others ↔ entries = others := by
  rw [inOrder_eq_iff distinct]
  refine ⟨?_,fun same => same ▸ .refl _⟩
  intro reordered
  induction entries generalizing others with
  | nil => exact (List.nil_perm.mp reordered).symm
  | cons entry rest ih =>
    cases others with
    | nil => cases names
    | cons other more =>
      have head : entry = other := List.inj_on_of_nodup_map distinct List.mem_cons_self
        (reordered.mem_iff.mpr List.mem_cons_self) (List.cons.inj names).1
      have later := (List.cons.inj names).2
      subst head
      rw [ih (List.nodup_cons.mp distinct).2 later ((List.perm_cons entry).mp reordered)]

theorem perm_iff_lookup {α : Type} {entries others : List (String × α)} (distinct : (entries.map Prod.fst).Nodup)
    (distinct' : (others.map Prod.fst).Nodup) :
    entries.Perm others ↔ ∀ name, lookup entries name = lookup others name := by
  have held {table : List (String × α)} (distinct : (table.map Prod.fst).Nodup) (entry : String × α) :
      entry ∈ table ↔ lookup table entry.1 = some entry.2 := ⟨lookup_of_mem distinct,mem_of_lookup⟩
  have pairs {table : List (String × α)} (distinct : (table.map Prod.fst).Nodup) : table.Nodup := .of_map _ distinct
  rw [List.perm_ext_iff_of_nodup (pairs distinct) (pairs distinct')]
  constructor
  · intro same name
    ext value
    exact (held distinct (name,value)).symm.trans ((same (name,value)).trans (held distinct' (name,value)))
  · intro same entry
    rw [held distinct,held distinct',same]

theorem normal_fields {fields others : Fields} (distinct : (fields.map Prod.fst).Nodup)
    (names : fields.map Prod.fst = others.map Prod.fst) :
    normal (.obj fields) = normal (.obj others) ↔
      fields.map (fun entry => (entry.1,normal entry.2)) = others.map (fun entry => (entry.1,normal entry.2)) := by
  have keys (fields : Fields) : (fields.map (fun entry => (entry.1,normal entry.2))).map Prod.fst = fields.map Prod.fst := by
    rw [List.map_map]
    rfl
  rw [normal_obj,normal_obj,← inOrder_map,← inOrder_map,Json.obj.injEq]
  exact inOrder_inj (by rwa [keys]) (by rw [keys,keys,names])

theorem normal_table {α : Type} {entries others : List (String × α)} {input : String × α → String × Json}
    (distinct : (entries.map Prod.fst).Nodup) (distinct' : (others.map Prod.fst).Nodup)
    (named : ∀ entry, (input entry).1 = entry.1)
    (told : ∀ a b : String × α, a.1 = b.1 → normal (input a).2 = normal (input b).2 → a = b) :
    normal (.obj (entries.map input)) = normal (.obj (others.map input)) ↔
      ∀ name, lookup entries name = lookup others name := by
  let form (entry : String × α) : String × Json := (entry.1,normal (input entry).2)
  have forms (entries : List (String × α)) :
      (entries.map input).map (fun entry => (entry.1,normal entry.2)) = entries.map form := by
    rw [List.map_map]
    apply List.map_congr_left
    intro entry _
    simp [form,named]
  have keys (entries : List (String × α)) : (entries.map form).map Prod.fst = entries.map Prod.fst := by
    rw [List.map_map]
    rfl
  have injective : Function.Injective form := by
    intro a b same
    exact told a b (Prod.mk.inj same).1 (Prod.mk.inj same).2
  rw [normal_obj,normal_obj,← inOrder_map,← inOrder_map,Json.obj.injEq,forms,forms,
    inOrder_eq_iff (by rwa [keys]),List.map_perm_map_iff injective,perm_iff_lookup distinct distinct']

theorem normal_texts (values : List String) : normal (.arr (values.map Json.str)) = .arr (values.map Json.str) := by
  rw [normal_arr,List.map_map]
  exact congrArg Json.arr (List.map_congr_left (fun _ _ => by unfold Function.comp normal; rfl))

theorem texts_inj {values others : List String} (same : values.map Json.str = others.map Json.str) : values = others :=
  List.map_injective_iff.mpr (fun _ _ same => Json.str.inj same) same

theorem roleInput_told (a b : String × CompiledRole) (name : a.1 = b.1)
    (same : normal (roleInput a).2 = normal (roleInput b).2) : a = b := by
  obtain ⟨first,⟨⟨repositories⟩,workers,wake,concurrent,budget⟩⟩ := a
  obtain ⟨second,⟨⟨repositories'⟩,workers',wake',concurrent',budget'⟩⟩ := b
  cases name
  unfold roleInput at same
  rw [normal_fields] at same
  · simp only [List.map_cons,List.map_nil,normal_texts,List.cons.injEq,Prod.mk.injEq,true_and,and_true,Json.arr.injEq] at same
    obtain ⟨types,wakes,concurrents,aliases,budgets⟩ := same
    cases texts_inj types
    cases texts_inj aliases
    cases wakes
    cases concurrents
    cases budgets
    rfl
  · exact (by decide : ["workers","max_per_wake","max_concurrent","repositories","daily_token_budget"].Nodup)
  · rfl

theorem repositoryInput_told (a b : String × PolicyRepository) (name : a.1 = b.1)
    (same : normal (repositoryInput a).2 = normal (repositoryInput b).2) : a = b := by
  obtain ⟨first,⟨slug,branch⟩⟩ := a
  obtain ⟨second,⟨slug',branch'⟩⟩ := b
  cases name
  unfold repositoryInput at same
  rw [normal_fields] at same
  · simp only [List.map_cons,List.map_nil,List.cons.injEq,Prod.mk.injEq,true_and,and_true] at same
    obtain ⟨slugs,branches⟩ := same
    cases slugs
    cases branches
    rfl
  · exact (by decide : ["alias","slug","default_branch"].Nodup)
  · rfl

/-- What the digest stands for: every field of the compiled policy but itself, the two mappings
as mappings. -/
structure Agrees (a b : CompiledPolicy) : Prop where
  orgId : a.orgId = b.orgId
  principalGithub : a.principalGithub = b.principalGithub
  repositories : ∀ alias_, lookup a.repositories alias_ = lookup b.repositories alias_
  sourceCommit : a.sourceCommit = b.sourceCommit
  controlVersion : a.controlVersion = b.controlVersion
  sourceTreeSha256 : a.sourceTreeSha256 = b.sourceTreeSha256
  organizationDailyTokenBudget : a.organizationDailyTokenBudget = b.organizationDailyTokenBudget
  globalMaxAgents : a.globalMaxAgents = b.globalMaxAgents
  roles : ∀ role, lookup a.roles role = lookup b.roles role

/-- The repositories and the roles by their names. -/
def Keyed (p : CompiledPolicy) : Prop := (p.repositories.map Prod.fst).Nodup ∧ (p.roles.map Prod.fst).Nodup

theorem digestInput_iff {a b : CompiledPolicy} (keyed : Keyed a) (keyed' : Keyed b) :
    normal (digestInput a) = normal (digestInput b) ↔ Agrees a b := by
  unfold digestInput
  rw [normal_fields]
  · simp only [List.map_cons,List.map_nil,List.cons.injEq,Prod.mk.injEq,true_and,and_true,
      normal_table keyed.1 keyed'.1 (fun _ => rfl) repositoryInput_told,
      normal_table keyed.2 keyed'.2 (fun _ => rfl) roleInput_told]
    constructor
    · rintro ⟨commits,orgs,principals,versions,digests,budgets,caps,repositories,roles⟩
      exact ⟨Json.str.inj orgs,Json.str.inj principals,repositories,Json.str.inj commits,Json.str.inj versions,
        Json.str.inj digests,Json.int.inj budgets,Json.int.inj caps,roles⟩
    · intro agrees
      exact ⟨congrArg Json.str agrees.sourceCommit,congrArg Json.str agrees.orgId,congrArg Json.str agrees.principalGithub,
        congrArg Json.str agrees.controlVersion,congrArg Json.str agrees.sourceTreeSha256,
        congrArg Json.int agrees.organizationDailyTokenBudget,congrArg Json.int agrees.globalMaxAgents,
        agrees.repositories,agrees.roles⟩
  · exact (by decide : ["source_commit","org_id","principal","control_version","source_tree_sha256",
      "organization_daily_token_budget","global_max_agents","repositories","roles"].Nodup)
  · rfl

theorem digestInput_whole (p : CompiledPolicy) : Whole (digestInput p) := by
  have texts (values : List String) : Whole (.arr (values.map Json.str)) := by
    refine .arr _ ?_
    intro item member
    obtain ⟨value,_,rfl⟩ := List.mem_map.mp member
    exact .str value
  have repository (entry : String × PolicyRepository) : Whole (repositoryInput entry).2 := by
    refine .obj _ ?_
    simp only [List.forall_mem_cons]
    exact ⟨.str _,.str _,.str _,by simp⟩
  have role (entry : String × CompiledRole) : Whole (roleInput entry).2 := by
    refine .obj _ ?_
    simp only [List.forall_mem_cons]
    exact ⟨texts _,.int _,.int _,texts _,.int _,by simp⟩
  refine .obj _ ?_
  simp only [List.forall_mem_cons]
  refine ⟨.str _,.str _,.str _,.str _,.str _,.int _,.int _,.obj _ ?_,.obj _ ?_,by simp⟩
  · exact List.forall_mem_map.mpr (fun entry _ => repository entry)
  · exact List.forall_mem_map.mpr (fun entry _ => role entry)

/-! What a document is read as. -/

variable {lib : TextLibrary} {data data' : Json} {commit commit' : String} {a b : CompiledPolicy}

/-- The entry that one agent adds to the roles. -/
def Enters (lib : TextLibrary) (raw : Json) (entry : String × CompiledRole) : Prop :=
  ∃ fields workers, raw = .obj fields ∧ Json.get fields "workers" = .obj workers ∧
    strip (textArgument lib fields "id") = entry.1 ∧
    textsArgument lib workers "allowed" [] = .ok entry.2.workerTypes ∧
    intArgument lib workers "maxPerWake" = .ok entry.2.maxWorkersPerWake ∧
    intArgument lib workers "maxConcurrent" = .ok entry.2.maxWorkersConcurrent ∧
    textsArgument lib fields "repositories" ["org"] = .ok entry.2.repositories ∧
    intArgument lib fields "dailyTokenBudget" = .ok entry.2.dailyTokenBudget

theorem exactKeys_ok {value : Json} {expected : List String} {path : String} {fields : Fields}
    (ok : exactKeys value expected path = .ok fields) : value = .obj fields := by
  unfold exactKeys at ok
  split at ok
  next => rw [pure_ok.mp (require_bind_ok.mp ok).2]
  next => cases ok

theorem compileRole_enters {budget : Int} {roles next : List (String × CompiledRole)} {raw : Json}
    (ok : compileRole lib budget roles raw = .ok next) : ∃ entry, next = roles ++ [entry] ∧ Enters lib raw entry := by
  unfold compileRole at ok
  split at ok
  next fields =>
    obtain ⟨read,exact_,ok⟩ := bind_ok.mp ok
    cases exactKeys_ok exact_
    simp only [require_bind_ok] at ok
    obtain ⟨_,_,ok⟩ := ok
    obtain ⟨workers,mapping,ok⟩ := bind_ok.mp ok
    obtain ⟨allowed,types,ok⟩ := bind_ok.mp ok
    obtain ⟨_,ok⟩ := require_bind_ok.mp ok
    obtain ⟨maxPerWake,wake,ok⟩ := bind_ok.mp ok
    obtain ⟨maxConcurrent,concurrent,ok⟩ := bind_ok.mp ok
    simp only [require_bind_ok] at ok
    obtain ⟨_,_,_,ok⟩ := ok
    obtain ⟨aliases,repositories,ok⟩ := bind_ok.mp ok
    obtain ⟨_,ok⟩ := require_bind_ok.mp ok
    obtain ⟨dailyTokenBudget,tokens,ok⟩ := bind_ok.mp ok
    obtain ⟨_,ok⟩ := require_bind_ok.mp ok
    exact ⟨_,(pure_ok.mp ok).symm,fields,workers,rfl,exactKeys_ok mapping,rfl,types,wake,concurrent,repositories,tokens⟩
  next => cases ok

theorem foldlM_appends {ε α β : Type} {f : List β → α → Except ε (List β)} {added : α → β → Prop}
    (round : ∀ s a next, f s a = .ok next → ∃ entry, next = s ++ [entry] ∧ added a entry) {items : List α}
    {s next : List β} (ok : items.foldlM f s = .ok next) : ∃ entries, next = s ++ entries ∧ List.Forall₂ added items entries := by
  induction items generalizing s with
  | nil =>
    cases pure_ok.mp ok
    exact ⟨[],(List.append_nil _).symm,.nil⟩
  | cons item rest ih =>
    rw [List.foldlM_cons] at ok
    obtain ⟨middle,one,ok⟩ := bind_ok.mp ok
    obtain ⟨entry,rfl,first⟩ := round s item middle one
    obtain ⟨entries,rfl,later⟩ := ih ok
    exact ⟨entry::entries,by simp,.cons first later⟩

/-- The mappings of a document and what the fields of the policy are read from. -/
structure Reading (lib : TextLibrary) (data : Json) (sourceCommit : String) (p : CompiledPolicy) : Prop where
  document : ∃ fields, data = .obj fields ∧
    (∃ metadata, Json.get fields "metadata" = .obj metadata ∧ strip (textArgument lib metadata "id") = p.orgId) ∧
    (∃ authority, Json.get fields "authority" = .obj authority ∧
      strip (textArgument lib authority "principalGitHub") = p.principalGithub) ∧
    (∃ control, Json.get fields "controlRelease" = .obj control ∧ textArgument lib control "version" = p.controlVersion ∧
      textArgument lib control "sourceTreeSha256" = p.sourceTreeSha256) ∧
    (∃ budgets, Json.get fields "budgets" = .obj budgets ∧
      intArgument lib budgets "organizationDailyTokens" = .ok p.organizationDailyTokenBudget) ∧
    (∃ limits, Json.get fields "limits" = .obj limits ∧ intArgument lib limits "globalMaxAgents" = .ok p.globalMaxAgents) ∧
    (∃ repositories, Json.get fields "repositories" = .obj repositories ∧
      ["org","product"].mapM (compileRepository lib repositories) = .ok p.repositories) ∧
    ∃ agents, Json.get fields "agents" = .arr agents ∧ List.Forall₂ (Enters lib) agents p.roles
  sourceCommit_ : p.sourceCommit = sourceCommit
  digest : p.policyDigest = digestOf lib p

theorem digestOf_with (p : CompiledPolicy) (digest : String) : digestOf lib {p with policyDigest := digest} = digestOf lib p := by
  have same : digestInput {p with policyDigest := digest} = digestInput p := rfl
  rw [digestOf,digestOf,same]

theorem compilePolicy_reading (ok : compilePolicy lib data commit = .ok a) : Reading lib data commit a := by
  unfold compilePolicy at ok
  split at ok
  next fields =>
    obtain ⟨read,exact_,ok⟩ := bind_ok.mp ok
    cases exactKeys_ok exact_
    obtain ⟨_,ok⟩ := require_bind_ok.mp ok
    obtain ⟨metadata,one,ok⟩ := bind_ok.mp ok
    obtain ⟨authority,two,ok⟩ := bind_ok.mp ok
    simp only [require_bind_ok] at ok
    obtain ⟨_,_,ok⟩ := ok
    obtain ⟨control,three,ok⟩ := bind_ok.mp ok
    obtain ⟨budgets,four,ok⟩ := bind_ok.mp ok
    obtain ⟨budget,tokens,ok⟩ := bind_ok.mp ok
    obtain ⟨limits,five,ok⟩ := bind_ok.mp ok
    obtain ⟨globalMaxAgents,cap,ok⟩ := bind_ok.mp ok
    simp only [require_bind_ok] at ok
    obtain ⟨_,_,_,_,_,_,ok⟩ := ok
    obtain ⟨repositoryData,six,ok⟩ := bind_ok.mp ok
    obtain ⟨repositories,compiled,ok⟩ := bind_ok.mp ok
    split at ok
    next agents listed =>
      obtain ⟨roles,gathered,ok⟩ := bind_ok.mp ok
      simp only [require_bind_ok] at ok
      obtain ⟨_,_,ok⟩ := ok
      obtain ⟨workflows,_,ok⟩ := bind_ok.mp ok
      obtain ⟨_,ok⟩ := require_bind_ok.mp ok
      obtain ⟨entries,rfl,entered⟩ := foldlM_appends (fun _ _ _ ok => compileRole_enters ok) gathered
      cases pure_ok.mp ok
      exact ⟨⟨fields,rfl,⟨metadata,exactKeys_ok one,rfl⟩,⟨authority,exactKeys_ok two,rfl⟩,⟨control,exactKeys_ok three,rfl,rfl⟩,
        ⟨budgets,exactKeys_ok four,tokens⟩,⟨limits,exactKeys_ok five,cap⟩,⟨repositoryData,exactKeys_ok six,compiled⟩,
        agents,listed,entered⟩,rfl,(digestOf_with _ _).symm⟩
    next => cases ok
  next => cases ok

theorem compileRepository_named {fields : Fields} {name : String} {entry : String × PolicyRepository}
    (ok : compileRepository lib fields name = .ok entry) : entry.1 = name := by
  unfold compileRepository at ok
  obtain ⟨raw,_,ok⟩ := bind_ok.mp ok
  simp only [require_bind_ok] at ok
  rw [← pure_ok.mp ok.2.2]

theorem both_compiled {fields : Fields} {compiled : List (String × PolicyRepository)}
    (ok : ["org","product"].mapM (compileRepository lib fields) = .ok compiled) :
    ∃ org product, compileRepository lib fields "org" = .ok org ∧ compileRepository lib fields "product" = .ok product ∧
      compiled = [org,product] := by
  rw [List.mapM_cons,List.mapM_cons,List.mapM_nil] at ok
  obtain ⟨org,first,ok⟩ := bind_ok.mp ok
  obtain ⟨rest,inner,ok⟩ := bind_ok.mp ok
  obtain ⟨product,second,inner⟩ := bind_ok.mp inner
  cases pure_ok.mp inner
  exact ⟨org,product,first,second,(pure_ok.mp ok).symm⟩

theorem Reading.keyed (reading : Reading lib data commit a) (sound : RolesSound a.roles) : Keyed a := by
  obtain ⟨_,_,_,_,_,_,_,⟨repositories,_,compiled⟩,_⟩ := reading.document
  refine ⟨?_,sound.1⟩
  obtain ⟨org,product,first,second,equal⟩ := both_compiled compiled
  rw [equal]
  simp only [List.map_cons,List.map_nil,compileRepository_named first,compileRepository_named second]
  decide

/-! Documents that differ in the order of mapping keys and list entries. -/

/-- Two mappings whose values under each key are related; one value is the same as itself. -/
def SameMapping (related : String → Json → Json → Prop) (v w : Json) : Prop :=
  v = w ∨ ∃ fields others, v = .obj fields ∧ w = .obj others ∧
    ∀ name, related name (Json.get fields name) (Json.get others name)

/-- Two lists each of whose entries is related to one of the other. -/
def SameEntries (related : Json → Json → Prop) (v w : Json) : Prop :=
  v = w ∨ ∃ items others, v = .arr items ∧ w = .arr others ∧ (∀ item ∈ items, ∃ other ∈ others, related item other) ∧
    ∀ other ∈ others, ∃ item ∈ items, related item other

def SameAgent : Json → Json → Prop := SameMapping (fun name =>
  if name = "workers" then SameMapping (fun name => if name = "allowed" then SameEntries Eq else Eq)
  else if name = "repositories" then SameEntries Eq
  else Eq)

/-- The same document up to the order of agents, worker types, repositories and mapping keys. -/
def SameDocument : Json → Json → Prop := SameMapping (fun name =>
  if name = "agents" then SameEntries SameAgent
  else if name = "repositories" then SameMapping (fun _ => SameMapping (fun _ => Eq))
  else if name ∈ ["metadata","authority","controlRelease","budgets","limits","workflows"] then SameMapping (fun _ => Eq)
  else Eq)

theorem SameMapping.fields {related : String → Json → Json → Prop} (equal : ∀ name v, related name v v)
    {fields others : Fields} (same : SameMapping related (.obj fields) (.obj others)) (name : String) :
    related name (Json.get fields name) (Json.get others name) := by
  rcases same with one | ⟨_,_,one,two,each⟩
  · cases one
    exact equal name _
  · cases one
    cases two
    exact each name

theorem SameMapping.plain {fields others : Fields} (same : SameMapping (fun _ => Eq) (.obj fields) (.obj others)) :
    Json.get fields = Json.get others := funext (same.fields (fun _ _ => rfl))

theorem SameMapping.symm {related : String → Json → Json → Prop} (turns : ∀ name v w, related name v w → related name w v)
    {v w : Json} (same : SameMapping related v w) : SameMapping related w v := by
  rcases same with rfl | ⟨fields,others,rfl,rfl,each⟩
  · exact .inl rfl
  · exact .inr ⟨others,fields,rfl,rfl,fun name => turns name _ _ (each name)⟩

theorem SameEntries.symm {related : Json → Json → Prop} (turns : ∀ v w, related v w → related w v) {v w : Json}
    (same : SameEntries related v w) : SameEntries related w v := by
  rcases same with rfl | ⟨items,others,rfl,rfl,forth,back⟩
  · exact .inl rfl
  · refine .inr ⟨others,items,rfl,rfl,?_,?_⟩
    · intro other member
      obtain ⟨item,among,same⟩ := back other member
      exact ⟨item,among,turns _ _ same⟩
    · intro item member
      obtain ⟨other,among,same⟩ := forth item member
      exact ⟨other,among,turns _ _ same⟩

theorem SameAgent.symm {v w : Json} (same : SameAgent v w) : SameAgent w v := by
  unfold SameAgent at same ⊢
  refine SameMapping.symm ?_ same
  intro name v w
  split
  next =>
    refine SameMapping.symm ?_
    intro name v w
    split
    next => exact SameEntries.symm (fun _ _ => Eq.symm)
    next => exact Eq.symm
  next =>
    split
    next => exact SameEntries.symm (fun _ _ => Eq.symm)
    next => exact Eq.symm

theorem SameAgent.fields {fields others : Fields} (same : SameAgent (.obj fields) (.obj others)) (name : String) :
    (if name = "workers" then SameMapping (fun name => if name = "allowed" then SameEntries Eq else Eq)
      else if name = "repositories" then SameEntries Eq
      else Eq) (Json.get fields name) (Json.get others name) := by
  refine SameMapping.fields ?_ same name
  intro name v
  split
  next => exact .inl rfl
  next =>
    split
    next => exact .inl rfl
    next => rfl

theorem SameDocument.fields {fields others : Fields} (same : SameDocument (.obj fields) (.obj others)) (name : String) :
    (if name = "agents" then SameEntries SameAgent
      else if name = "repositories" then SameMapping (fun _ => SameMapping (fun _ => Eq))
      else if name ∈ ["metadata","authority","controlRelease","budgets","limits","workflows"] then SameMapping (fun _ => Eq)
      else Eq) (Json.get fields name) (Json.get others name) := by
  refine SameMapping.fields ?_ same name
  intro name v
  split
  next => exact .inl rfl
  next =>
    split
    next => exact .inl rfl
    next =>
      split
      next => exact .inl rfl
      next => rfl

theorem textsArgument_same {fields others : Fields} {name : String} {default texts texts' : List String}
    (same : SameEntries Eq (Json.get fields name) (Json.get others name)) (one : textsArgument lib fields name default = .ok texts)
    (two : textsArgument lib others name default = .ok texts') : texts = texts' := by
  unfold textsArgument at one two
  rcases same with equal | ⟨items,items',left,right,forth,back⟩
  · rw [equal] at one
    exact Except.ok.inj (one.symm.trans two)
  · have members (item : Json) : item ∈ items ↔ item ∈ items' := by
      constructor
      · intro member
        obtain ⟨other,listed,rfl⟩ := forth item member
        exact listed
      · intro member
        obtain ⟨other,listed,rfl⟩ := back item member
        exact listed
    have empty : items.isEmpty = items'.isEmpty := by
      rw [Bool.eq_iff_iff,List.isEmpty_iff,List.isEmpty_iff,List.eq_nil_iff_forall_not_mem,List.eq_nil_iff_forall_not_mem]
      exact forall_congr' (fun item => not_congr (members item))
    have rendered : frozen (items.map (Json.text lib.render)) = frozen (items'.map (Json.text lib.render)) := by
      apply frozen_eq_iff.mpr
      intro value
      simp only [List.mem_map,members]
    rw [left] at one
    rw [right] at two
    simp only [Json.truthy,empty,rendered] at one two
    exact Except.ok.inj (one.symm.trans two)

theorem enters_same {raw raw' : Json} {entry entry' : String × CompiledRole} (same : SameAgent raw raw')
    (one : Enters lib raw entry) (two : Enters lib raw' entry') : entry = entry' := by
  obtain ⟨fields,workers,rfl,mapping,name,types,wake,concurrent,repositories,tokens⟩ := one
  obtain ⟨others,workers',rfl,mapping',name',types',wake',concurrent',repositories',tokens'⟩ := two
  have inner := same.fields "workers"
  rw [if_pos rfl,mapping,mapping'] at inner
  have inner := inner.fields (fun name v => by split; exact .inl rfl; rfl)
  have ids : Json.get fields "id" = Json.get others "id" := same.fields "id"
  have budgets : Json.get fields "dailyTokenBudget" = Json.get others "dailyTokenBudget" := same.fields "dailyTokenBudget"
  have wakes : Json.get workers "maxPerWake" = Json.get workers' "maxPerWake" := inner "maxPerWake"
  have concurrents : Json.get workers "maxConcurrent" = Json.get workers' "maxConcurrent" := inner "maxConcurrent"
  have allowed := textsArgument_same (inner "allowed") types types'
  have aliases := textsArgument_same (same.fields "repositories") repositories repositories'
  unfold textArgument at name name'
  unfold intArgument at wake wake' concurrent concurrent' tokens tokens'
  rw [ids] at name
  rw [budgets] at tokens
  rw [wakes] at wake
  rw [concurrents] at concurrent
  obtain ⟨role,⟨⟨_⟩,_,_,_,_⟩⟩ := entry
  obtain ⟨role',⟨⟨_⟩,_,_,_,_⟩⟩ := entry'
  cases name.symm.trans name'
  cases Except.ok.inj (wake.symm.trans wake')
  cases Except.ok.inj (concurrent.symm.trans concurrent')
  cases Except.ok.inj (tokens.symm.trans tokens')
  cases allowed
  cases aliases
  rfl

theorem compileRepository_same {fields others : Fields} {name : String} {entry entry' : String × PolicyRepository}
    (same : SameMapping (fun _ => Eq) (Json.get fields name) (Json.get others name))
    (one : compileRepository lib fields name = .ok entry) (two : compileRepository lib others name = .ok entry') :
    entry = entry' := by
  unfold compileRepository at one two
  obtain ⟨raw,mapping,one⟩ := bind_ok.mp one
  obtain ⟨raw',mapping',two⟩ := bind_ok.mp two
  rw [exactKeys_ok mapping,exactKeys_ok mapping'] at same
  have equal := same.plain
  simp only [require_bind_ok] at one two
  rw [← pure_ok.mp one.2.2,← pure_ok.mp two.2.2]
  unfold textArgument Backend.textOrElse
  rw [equal]

theorem repositories_same {fields others : Fields} {compiled compiled' : List (String × PolicyRepository)}
    (same : ∀ name, SameMapping (fun _ => Eq) (Json.get fields name) (Json.get others name))
    (one : ["org","product"].mapM (compileRepository lib fields) = .ok compiled)
    (two : ["org","product"].mapM (compileRepository lib others) = .ok compiled') : compiled = compiled' := by
  obtain ⟨org,product,first,second,rfl⟩ := both_compiled one
  obtain ⟨org',product',first',second',rfl⟩ := both_compiled two
  rw [compileRepository_same (same "org") first first',compileRepository_same (same "product") second second']

theorem source_of {α β : Type} {related : α → β → Prop} {items : List α} {results : List β}
    (each : List.Forall₂ related items results) : ∀ b ∈ results, ∃ a ∈ items, related a b := by
  induction each with
  | nil => simp
  | cons head _ ih =>
    refine List.forall_mem_cons.mpr ⟨⟨_,List.mem_cons_self,head⟩,?_⟩
    intro b member
    obtain ⟨a,listed,own⟩ := ih b member
    exact ⟨a,List.mem_cons_of_mem _ listed,own⟩

theorem entered_subset {agents agents' : List Json} {roles roles' : List (String × CompiledRole)}
    (same : SameEntries SameAgent (.arr agents) (.arr agents')) (one : List.Forall₂ (Enters lib) agents roles)
    (two : List.Forall₂ (Enters lib) agents' roles') : roles ⊆ roles' := by
  have each : ∀ item ∈ agents, ∃ other ∈ agents', SameAgent item other := by
    rcases same with equal | ⟨_,_,left,right,each,_⟩
    · cases equal
      exact fun item member => ⟨item,member,.inl rfl⟩
    · cases left
      cases right
      exact each
  intro entry member
  obtain ⟨item,listed,enters⟩ := source_of one entry member
  obtain ⟨other,among,same⟩ := each item listed
  obtain ⟨entry',within,enters'⟩ := source_of two.flip other among
  exact enters_same same enters enters' ▸ within

theorem reading_same (same : SameDocument data data') (one : Reading lib data commit a) (two : Reading lib data' commit b)
    (keyed : Keyed a) (keyed' : Keyed b) : Agrees a b := by
  obtain ⟨fields,rfl,⟨metadata,m,orgId⟩,⟨authority,y,principal⟩,⟨control,c,version,digest⟩,⟨budgets,g,budget⟩,⟨limits,l,cap⟩,
    ⟨repositories,r,compiled⟩,agents,listed,entered⟩ := one.document
  obtain ⟨others,rfl,⟨metadata',m',orgId'⟩,⟨authority',y',principal'⟩,⟨control',c',version',digest'⟩,⟨budgets',g',budget'⟩,
    ⟨limits',l',cap'⟩,⟨repositories',r',compiled'⟩,agents',listed',entered'⟩ := two.document
  have plain {name : String} (among : name ∈ ["metadata","authority","controlRelease","budgets","limits","workflows"])
      {inner inner' : Fields} (left : Json.get fields name = .obj inner) (right : Json.get others name = .obj inner') :
      Json.get inner = Json.get inner' := by
    have related := same.fields name
    have apart : name ≠ "agents" ∧ name ≠ "repositories" := by
      constructor <;> (rintro rfl; revert among; decide)
    rw [if_neg apart.1,if_neg apart.2,if_pos among,left,right] at related
    exact related.plain
  have same_metadata := plain (by decide) m m'
  have same_authority := plain (by decide) y y'
  have same_control := plain (by decide) c c'
  have same_budgets := plain (by decide) g g'
  have same_limits := plain (by decide) l l'
  unfold textArgument at orgId orgId' principal principal' version version' digest digest'
  unfold intArgument at budget budget' cap cap'
  rw [same_metadata] at orgId
  rw [same_authority] at principal
  rw [same_control] at version digest
  rw [same_budgets] at budget
  rw [same_limits] at cap
  refine ⟨orgId.symm.trans orgId',principal.symm.trans principal',?_,one.sourceCommit_.trans two.sourceCommit_.symm,
    version.symm.trans version',digest.symm.trans digest',Except.ok.inj (budget.symm.trans budget'),
    Except.ok.inj (cap.symm.trans cap'),?_⟩
  · have related := same.fields "repositories"
    rw [if_neg (by decide),if_pos rfl,r,r'] at related
    rw [repositories_same (related.fields (fun _ _ => .inl rfl)) compiled compiled']
    exact fun _ => rfl
  · have related := same.fields "agents"
    rw [if_pos rfl,listed,listed'] at related
    have forward := entered_subset related entered entered'
    have backward := entered_subset (related.symm (fun _ _ => SameAgent.symm)) entered' entered
    have pairs {table : List (String × CompiledRole)} (distinct : (table.map Prod.fst).Nodup) : table.Nodup := .of_map _ distinct
    exact (perm_iff_lookup keyed.2 keyed'.2).mp
      ((List.perm_ext_iff_of_nodup (pairs keyed.2) (pairs keyed'.2)).mpr (fun _ => ⟨fun own => forward own,fun own => backward own⟩))

/-- The digest binds the policy. -/
theorem digest_binds (collisionFree : Function.Injective lib.sha256) (one : compilePolicy lib data commit = .ok a)
    (two : compilePolicy lib data' commit' = .ok b) :
    (a.policyDigest = b.policyDigest ↔ Agrees a b) ∧
      (SameDocument data data' → commit = commit' → a.policyDigest = b.policyDigest) := by
  have reading := compilePolicy_reading one
  have reading' := compilePolicy_reading two
  have keyed := reading.keyed (compilePolicy_ok one).1
  have keyed' := reading'.keyed (compilePolicy_ok two).1
  have bound : a.policyDigest = b.policyDigest ↔ Agrees a b := by
    rw [reading.digest,reading'.digest,← digestInput_iff keyed keyed',
      ← canonical_eq_iff (digestInput_whole a) (digestInput_whole b)]
    unfold digestOf
    have prefixed {s t : String} : "sha256:" ++ s = "sha256:" ++ t ↔ s = t := by
      rw [← String.toList_inj,← String.toList_inj,String.toList_append,String.toList_append,List.append_cancel_left_eq]
    rw [prefixed,collisionFree.eq_iff]
    constructor
    · intro same
      have texts := ByteArray.ext (Array.toList_inj.mp same)
      exact String.ofList_injective (String.toByteArray_inj.mp texts)
    · intro same
      rw [same]
  refine ⟨bound,?_⟩
  rintro same rfl
  exact bound.mpr (reading_same same reading reading' keyed keyed')

theorem sameDocument_perm {settings : Fields} {agents others : List Json} (unset : ∀ entry ∈ settings, entry.1 ≠ "agents")
    (reordered : agents.Perm others) :
    SameDocument (.obj (settings ++ [("agents",.arr agents)])) (.obj (settings ++ [("agents",.arr others)])) := by
  have own (items : List Json) : Json.get (settings ++ [("agents",.arr items)]) "agents" = .arr items := by
    have absent : settings.find? (fun entry => entry.1 = "agents") = none :=
      List.find?_eq_none.mpr (fun entry member => by simpa using unset entry member)
    simp [Json.get,List.find?_append,absent]
  have rest (items : List Json) (name : String) (other : name ≠ "agents") :
      Json.get (settings ++ [("agents",.arr items)]) name = Json.get settings name := by
    have apart : [("agents",Json.arr items)].find? (fun entry => entry.1 = name) = none :=
      List.find?_eq_none.mpr (fun entry member => by simpa [List.mem_singleton.mp member] using other.symm)
    simp [Json.get,List.find?_append,apart]
  refine .inr ⟨_,_,rfl,rfl,?_⟩
  intro name
  by_cases named : name = "agents"
  · subst named
    rw [if_pos rfl,own,own]
    exact .inr ⟨agents,others,rfl,rfl,fun item member => ⟨item,reordered.mem_iff.mp member,.inl rfl⟩,
      fun item member => ⟨item,reordered.mem_iff.mpr member,.inl rfl⟩⟩
  · rw [if_neg named,rest agents name named,rest others name named]
    split
    next => exact .inl rfl
    next =>
      split
      next => exact .inl rfl
      next => rfl

/-! The document of the four required roles, its agents in one order and the other. -/

def textLibrary : TextLibrary := {Served.quietLibrary with sha256 := PosixHost.bytesText}

def settings : Fields :=
  match CompiledPolicy.document with
  | .obj fields => fields.filter (fun entry => entry.1 ≠ "agents")
  | _ => []

def roster : List Json :=
  match CompiledPolicy.document with
  | .obj fields =>
    match Json.get fields "agents" with
    | .arr agents => agents
    | _ => []
  | _ => []

def rosterDocument (agents : List Json) : Json := .obj (settings ++ [("agents",.arr agents)])

def compiledRoster (agents : List Json) (sourceCommit : String) : CompiledPolicy :=
  match compilePolicy textLibrary (rosterDocument agents) sourceCommit with
  | .ok policy => policy
  | .error _ => CompiledPolicy.documented

theorem compiledRoster_ok (agents : List Json) (sourceCommit : String)
    (accepted : (compilePolicy textLibrary (rosterDocument agents) sourceCommit).isOk = true) :
    compilePolicy textLibrary (rosterDocument agents) sourceCommit = .ok (compiledRoster agents sourceCommit) := by
  unfold compiledRoster
  cases compiled : compilePolicy textLibrary (rosterDocument agents) sourceCommit with
  | ok policy => rfl
  | error e =>
    rw [compiled] at accepted
    cases accepted

/-- The order of the agents is nothing to the digest, the source commit is. -/
theorem digest_binds_rosters : (compiledRoster roster "0").policyDigest = (compiledRoster roster.reverse "0").policyDigest ∧
    (compiledRoster roster "0").policyDigest ≠ (compiledRoster roster "1").policyDigest := by
  have collisionFree : Function.Injective textLibrary.sha256 := PosixHost.digests_injective
  have first := compiledRoster_ok roster "0" (by decide +kernel)
  have turned := compiledRoster_ok roster.reverse "0" (by decide +kernel)
  have later := compiledRoster_ok roster "1" (by decide +kernel)
  constructor
  · exact (digest_binds collisionFree first turned).2 (sameDocument_perm (by decide) (List.reverse_perm roster).symm) rfl
  · intro same
    have commits := ((digest_binds collisionFree first later).1.mp same).sourceCommit
    rw [(compilePolicy_reading first).sourceCommit_,(compilePolicy_reading later).sourceCommit_] at commits
    exact absurd commits (by decide)

end Policy
end SjgControl

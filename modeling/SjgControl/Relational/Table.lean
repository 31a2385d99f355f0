import Mathlib.Data.List.Nodup
import Mathlib.Algebra.BigOperators.Group.List.Basic
import Mathlib.Algebra.Order.BigOperators.Group.List
import Mathlib.Algebra.Order.Group.Int
import Mathlib.Tactic.Abel

/-! Tables with a primary key. A table is the list of its rows in insertion
order; that no two rows share a key is part of the type, so every statement
below is total on tables and no caller carries a uniqueness premise. -/
namespace Relational

class Keyed (Row : Type) (Key : outParam Type) where
  key : Row → Key

open Keyed (key)

structure Table (Row : Type) {Key : Type} [Keyed Row Key] where
  rows : List Row
  distinct : (rows.map key).Nodup

namespace Table
variable {Row Key : Type} [Keyed Row Key]

@[ext] theorem ext {t u : Table Row} (same : t.rows = u.rows) : t = u := by
  cases t; cases u; cases same; rfl

instance [DecidableEq Row] : DecidableEq (Table Row) := fun t u =>
  decidable_of_iff (t.rows = u.rows) ⟨ext,congrArg rows⟩

def empty : Table Row := ⟨[],List.nodup_nil⟩

instance : Inhabited (Table Row) := ⟨empty⟩

/-- `UPDATE … SET f WHERE p`. No statement of the modelled stores writes a key column. -/
def update (t : Table Row) (p : Row → Prop) [DecidablePred p] (f : Row → Row)
    (keeps : ∀ r, key (f r) = key r) : Table Row :=
  ⟨t.rows.map (fun r => if p r then f r else r),by
    have same : key ∘ (fun r => if p r then f r else r) = (key : Row → Key) := by
      funext r
      by_cases h : p r <;> simp [h,keeps]
    rw [List.map_map,same]
    exact t.distinct⟩

def delete (t : Table Row) (p : Row → Prop) [DecidablePred p] : Table Row :=
  ⟨t.rows.filter (fun r => ¬ p r),
    List.Nodup.sublist (List.Sublist.map key List.filter_sublist) t.distinct⟩

def select (t : Table Row) (p : Row → Prop) [DecidablePred p] : List Row :=
  t.rows.filter (fun r => p r)

def first (t : Table Row) (p : Row → Prop) [DecidablePred p] : Option Row :=
  t.rows.find? (fun r => p r)

def count (t : Table Row) (p : Row → Prop) [DecidablePred p] : Nat :=
  t.rows.countP (fun r => p r)

def sum (t : Table Row) (weight : Row → Int) : Int := (t.rows.map weight).sum

section Lookup
variable [DecidableEq Key]

def get (t : Table Row) (k : Key) : Option Row := t.rows.find? (fun r => key r = k)

/-- `INSERT`, refused on a duplicate key. -/
def insert (t : Table Row) (r : Row) : Option (Table Row) :=
  if fresh : key r ∉ t.rows.map key then
    some ⟨t.rows ++ [r],by
      rw [List.map_append,List.map_singleton]
      exact List.Nodup.append t.distinct (List.nodup_singleton _) (by simpa using fresh)⟩
  else none

/-- `INSERT OR IGNORE`. -/
def insertOrIgnore (t : Table Row) (r : Row) : Table Row := (t.insert r).getD t

theorem get_eq_some {t : Table Row} {k : Key} {r : Row} :
    t.get k = some r ↔ r ∈ t.rows ∧ key r = k := by
  constructor
  · intro found
    exact ⟨List.mem_of_find?_eq_some found,by simpa using List.find?_some found⟩
  · rintro ⟨member,rfl⟩
    cases found : t.get (key r) with
    | none =>
      have absent := List.find?_eq_none.mp found r member
      simp at absent
    | some other =>
      have present := List.mem_of_find?_eq_some found
      have same : key other = key r := by simpa using List.find?_some found
      exact congrArg some (List.inj_on_of_nodup_map t.distinct present member same)

theorem get_eq_none {t : Table Row} {k : Key} : t.get k = none ↔ ∀ r ∈ t.rows, key r ≠ k := by
  simp [get,List.find?_eq_none]

theorem get_key {t : Table Row} {r : Row} (member : r ∈ t.rows) : t.get (key r) = some r :=
  get_eq_some.mpr ⟨member,rfl⟩

omit [DecidableEq Key] in
theorem mem_unique {t : Table Row} {r other : Row} (member : r ∈ t.rows) (present : other ∈ t.rows)
    (same : key r = key other) : r = other :=
  List.inj_on_of_nodup_map t.distinct member present same

theorem get_map {t u : Table Row} {f : Row → Row} (keeps : ∀ r, key (f r) = key r)
    (rows : u.rows = t.rows.map f) (k : Key) : u.get k = (t.get k).map f := by
  simp only [get,rows,List.find?_map]
  congr 2
  funext r
  simp [keeps]

@[simp] theorem get_update (t : Table Row) (p : Row → Prop) [DecidablePred p] (f : Row → Row)
    (keeps : ∀ r, key (f r) = key r) (k : Key) :
    (t.update p f keeps).get k = (t.get k).map (fun r => if p r then f r else r) := by
  refine get_map ?_ rfl k
  intro r
  by_cases h : p r <;> simp [h,keeps]

theorem get_insert {t u : Table Row} {r : Row} (inserted : t.insert r = some u) (k : Key) :
    u.get k = if key r = k then some r else t.get k := by
  unfold insert at inserted
  split at inserted
  next fresh =>
    cases Option.some.inj inserted
    simp only [get,List.find?_append,List.find?_singleton,decide_eq_true_eq]
    by_cases same : key r = k
    · subst same
      have absent : t.rows.find? (fun x => key x = key r) = none := by
        rw [List.find?_eq_none]
        intro x member
        simp only [decide_eq_true_eq]
        intro equal
        exact fresh (equal ▸ List.mem_map_of_mem member)
      simp [absent]
    · simp [same]
  next => contradiction

theorem insert_rows {t u : Table Row} {r : Row} (inserted : t.insert r = some u) :
    u.rows = t.rows ++ [r] := by
  unfold insert at inserted
  split at inserted
  next => cases Option.some.inj inserted; rfl
  next => contradiction

theorem insert_fresh {t u : Table Row} {r : Row} (inserted : t.insert r = some u) :
    t.get (key r) = none := by
  unfold insert at inserted
  split at inserted
  next fresh =>
    rw [get_eq_none]
    intro x member equal
    exact fresh (equal ▸ List.mem_map_of_mem member)
  next => contradiction

theorem insert_of_fresh {t : Table Row} {r : Row} (fresh : t.get (key r) = none) :
    ∃ u, t.insert r = some u := by
  have absent : key r ∉ t.rows.map key := by
    intro member
    obtain ⟨x,present,equal⟩ := List.mem_map.mp member
    exact get_eq_none.mp fresh x present equal
  exact ⟨_,dif_pos absent⟩

theorem get_insertOrIgnore (t : Table Row) (r : Row) (k : Key) :
    (t.insertOrIgnore r).get k =
      if key r = k then some ((t.get k).getD r) else t.get k := by
  unfold insertOrIgnore
  cases inserted : t.insert r with
  | some u =>
    rw [Option.getD_some,get_insert inserted]
    have absent := insert_fresh inserted
    by_cases same : key r = k
    · subst same
      simp [absent]
    · simp [same]
  | none =>
    rw [Option.getD_none]
    by_cases same : key r = k
    · subst same
      cases found : t.get (key r) with
      | some x => simp
      | none =>
        obtain ⟨u,accepted⟩ := insert_of_fresh found
        rw [inserted] at accepted
        contradiction
    · simp [same]

theorem get_delete (t : Table Row) (p : Row → Prop) [DecidablePred p] (k : Key) :
    (t.delete p).get k = (t.get k).filter (fun r => ¬ p r) := by
  cases found : t.get k with
  | none =>
    rw [get_eq_none] at found
    rw [Option.filter_none,get_eq_none]
    intro r member
    exact found r (List.mem_of_mem_filter member)
  | some r =>
    obtain ⟨member,own⟩ := get_eq_some.mp found
    by_cases gone : p r
    · rw [Option.filter_some,if_neg (by simpa using gone),get_eq_none]
      intro other inside same
      obtain ⟨present,kept⟩ := List.mem_filter.mp inside
      have equal := List.inj_on_of_nodup_map t.distinct present member (same.trans own.symm)
      simp [equal,gone] at kept
    · rw [Option.filter_some,if_pos (by simpa using gone),get_eq_some]
      exact ⟨List.mem_filter.mpr ⟨member,by simpa using gone⟩,own⟩

theorem rows_eq_filterMap (t : Table Row) : t.rows = (t.rows.map key).filterMap t.get := by
  rw [List.filterMap_map]
  have every : ∀ r ∈ t.rows, (t.get ∘ key) r = some r := fun r member => get_key member
  rw [List.filterMap_congr every,List.filterMap_some]

theorem rows_of_get {t u : Table Row} {f : Row → Row} (keys : u.rows.map key = t.rows.map key)
    (lookup : ∀ k, u.get k = (t.get k).map f) : u.rows = t.rows.map f := by
  have every : ∀ k ∈ t.rows.map key, u.get k = (t.get k).map f := fun k _ => lookup k
  rw [rows_eq_filterMap u,keys,List.filterMap_congr every]
  conv_rhs => rw [rows_eq_filterMap t,List.map_filterMap]

theorem mem_of_lookup {t u : Table Row} {f : Row → Row} (lookup : ∀ k, u.get k = (t.get k).map f) {r : Row} :
    r ∈ u.rows ↔ ∃ x ∈ t.rows, f x = r := by
  constructor
  · intro member
    have found := get_key member
    rw [lookup] at found
    obtain ⟨x,old,equal⟩ := Option.map_eq_some_iff.mp found
    exact ⟨x,(get_eq_some.mp old).1,equal⟩
  · rintro ⟨x,member,equal⟩
    have found := lookup (key x)
    rw [get_key member,Option.map_some,equal] at found
    exact (get_eq_some.mp found).1

end Lookup

@[simp] theorem mem_update {t : Table Row} {p : Row → Prop} [DecidablePred p] {f : Row → Row}
    {keeps : ∀ r, key (f r) = key r} {r : Row} :
    r ∈ (t.update p f keeps).rows ↔ ∃ x ∈ t.rows, (if p x then f x else x) = r := by
  simp [update]

theorem mem_update_cases {rows : List Row} {p : Row → Prop} [DecidablePred p] {f : Row → Row} {r : Row}
    (member : r ∈ rows.map (fun x => if p x then f x else x)) :
    ∃ x ∈ rows, p x ∧ r = f x ∨ ¬ p x ∧ r = x := by
  obtain ⟨x,present,equal⟩ := List.mem_map.mp member
  refine ⟨x,present,?_⟩
  split at equal
  next selected => exact .inl ⟨selected,equal.symm⟩
  next other => exact .inr ⟨other,equal.symm⟩

theorem mem_insert [DecidableEq Key] {t u : Table Row} {r x : Row} (inserted : t.insert r = some u) :
    x ∈ u.rows ↔ x ∈ t.rows ∨ x = r := by
  simp [insert_rows inserted]

theorem mem_insertOrIgnore [DecidableEq Key] {t : Table Row} {r x : Row} :
    x ∈ (t.insertOrIgnore r).rows ↔ x ∈ t.rows ∨ x = r ∧ t.get (key r) = none := by
  unfold insertOrIgnore
  cases inserted : t.insert r with
  | some u =>
    have fresh := insert_fresh inserted
    simp [mem_insert inserted,fresh]
  | none =>
    have taken : t.get (key r) ≠ none := by
      intro fresh
      obtain ⟨u,accepted⟩ := insert_of_fresh fresh
      rw [inserted] at accepted
      contradiction
    simp [taken]

@[simp] theorem mem_select {t : Table Row} {p : Row → Prop} [DecidablePred p] {r : Row} :
    r ∈ t.select p ↔ r ∈ t.rows ∧ p r := by
  simp [select]

theorem key_mem_select {t : Table Row} {p : Row → Prop} [DecidablePred p] {r : Row}
    (member : r ∈ t.rows) : key r ∈ (t.select p).map key ↔ p r := by
  constructor
  · intro inside
    obtain ⟨other,selected,same⟩ := List.mem_map.mp inside
    obtain ⟨present,holds⟩ := mem_select.mp selected
    exact List.inj_on_of_nodup_map t.distinct present member same ▸ holds
  · intro holds
    exact List.mem_map_of_mem (mem_select.mpr ⟨member,holds⟩)

theorem first_some {t : Table Row} {p : Row → Prop} [DecidablePred p] {r : Row}
    (found : t.first p = some r) : r ∈ t.rows ∧ p r :=
  ⟨List.mem_of_find?_eq_some found,by simpa using List.find?_some found⟩

theorem first_none {t : Table Row} {p : Row → Prop} [DecidablePred p] :
    t.first p = none ↔ ∀ r ∈ t.rows, ¬ p r := by
  simp [first,List.find?_eq_none]

theorem count_eq_zero {t : Table Row} {p : Row → Prop} [DecidablePred p] :
    t.count p = 0 ↔ ∀ r ∈ t.rows, ¬ p r := by
  simp [count,List.countP_eq_zero]

theorem count_map_le {t u : Table Row} {f : Row → Row} (rows : u.rows = t.rows.map f)
    {p q : Row → Prop} [DecidablePred p] [DecidablePred q] (fewer : ∀ r ∈ t.rows, q (f r) → p r) :
    u.count q ≤ t.count p := by
  simp only [count,rows,List.countP_map]
  apply List.countP_mono_left
  intro r member holds
  simp only [Function.comp,decide_eq_true_eq] at holds
  exact decide_eq_true (fewer r member holds)

theorem count_insert [DecidableEq Key] {t u : Table Row} {r : Row} (inserted : t.insert r = some u)
    (p : Row → Prop) [DecidablePred p] : u.count p = t.count p + if p r then 1 else 0 := by
  simp [count,insert_rows inserted,List.countP_append,List.countP_singleton]

theorem count_congr {t : Table Row} {p q : Row → Prop} [DecidablePred p] [DecidablePred q]
    (same : ∀ r ∈ t.rows, p r ↔ q r) : t.count p = t.count q := by
  unfold count
  apply List.countP_congr
  intro r member
  simp [same r member]

theorem count_key [DecidableEq Key] {t : Table Row} {r : Row} (member : r ∈ t.rows) :
    t.count (fun x => key x = key r) = 1 := by
  have once : (t.rows.map key).count (key r) = 1 :=
    List.count_eq_one_of_mem t.distinct (List.mem_map_of_mem member)
  rw [List.count,List.countP_map] at once
  rw [← once,count]
  apply List.countP_congr
  intro x _
  simp

/-- Two weightings that agree off one key differ, in total, by their values there. -/
theorem sum_at {t u : Table Row} (move : Row → Row) (moved : u.rows = t.rows.map move)
    {before after : Row → Int} {r : Row} (member : r ∈ t.rows)
    (elsewhere : ∀ x ∈ t.rows, key x ≠ key r → after (move x) = before x) :
    u.sum after = t.sum before - before r + after (move r) := by
  obtain ⟨front,back,split⟩ := List.append_of_mem member
  have nodup := t.distinct
  rw [split,List.map_append,List.map_cons,List.nodup_middle] at nodup
  have away : ∀ x ∈ front ++ back, key x ≠ key r := by
    intro x present equal
    apply (List.nodup_cons.mp nodup).1
    rw [← List.map_append,← equal]
    exact List.mem_map_of_mem present
  have agree : ∀ x ∈ front ++ back, after (move x) = before x := by
    intro x present
    apply elsewhere x _ (away x present)
    rw [split]
    rcases List.mem_append.mp present with left | right
    · exact List.mem_append_left _ left
    · exact List.mem_append_right _ (List.mem_cons_of_mem _ right)
  have frontSame : (front.map (fun x => after (move x))).sum = (front.map before).sum := by
    rw [List.map_congr_left (fun x present => agree x (List.mem_append_left _ present))]
  have backSame : (back.map (fun x => after (move x))).sum = (back.map before).sum := by
    rw [List.map_congr_left (fun x present => agree x (List.mem_append_right _ present))]
  simp only [sum,moved,split,List.map_append,List.map_cons,List.map_map,Function.comp_def,
    List.sum_append,List.sum_cons,frontSame,backSame]
  abel

theorem sum_congr {t : Table Row} {before after : Row → Int}
    (agree : ∀ r ∈ t.rows, after r = before r) : t.sum after = t.sum before := by
  simp only [sum]
  rw [List.map_congr_left agree]

theorem sum_insert [DecidableEq Key] {t u : Table Row} {r : Row} (inserted : t.insert r = some u)
    (weight : Row → Int) : u.sum weight = t.sum weight + weight r := by
  simp [sum,insert_rows inserted]

theorem sum_nonneg {t : Table Row} {weight : Row → Int} (nonneg : ∀ r ∈ t.rows, 0 ≤ weight r) :
    0 ≤ t.sum weight := by
  apply List.sum_nonneg
  intro x member
  obtain ⟨r,present,rfl⟩ := List.mem_map.mp member
  exact nonneg r present

theorem le_sum {t : Table Row} {weight : Row → Int} {r : Row} (member : r ∈ t.rows)
    (nonneg : ∀ x ∈ t.rows, 0 ≤ weight x) : weight r ≤ t.sum weight :=
  List.single_le_sum (by
    intro x present
    obtain ⟨y,inside,rfl⟩ := List.mem_map.mp present
    exact nonneg y inside) _ (List.mem_map_of_mem member)

/-! What a change leaves alone, and what becomes of each row. -/

section Change
variable {Owner : Type} (owner : Row → Owner) (y : Owner) (rel : Row → Row → Prop)

/-- The rows of every owner but `y` are the same in both tables. -/
def Apart (t u : Table Row) : Prop := ∀ r, owner r ≠ y → (r ∈ u.rows ↔ r ∈ t.rows)

/-- Every row is still there, related to what it was. -/
def Kept (t u : Table Row) : Prop := ∀ r ∈ t.rows, ∃ next ∈ u.rows, rel r next

variable {owner y rel}

theorem Apart.refl (t : Table Row) : Apart owner y t t := fun _ _ => Iff.rfl

theorem Apart.trans {t u v : Table Row} (first : Apart owner y t u) (second : Apart owner y u v) :
    Apart owner y t v :=
  fun r other => (second r other).trans (first r other)

theorem apart_update {t : Table Row} {p : Row → Prop} [DecidablePred p] {f : Row → Row}
    {keeps : ∀ r, key (f r) = key r} (selects : ∀ r ∈ t.rows, p r → owner r = y)
    (stays : ∀ r, owner (f r) = owner r) : Apart owner y t (t.update p f keeps) := by
  intro r other
  rw [mem_update]
  constructor
  · rintro ⟨x,member,equal⟩
    split at equal
    next selected =>
      have own := selects x member selected
      exact absurd (by rw [← equal,stays,own]) other
    next => exact equal ▸ member
  · intro member
    refine ⟨r,member,if_neg ?_⟩
    exact fun selected => other (selects r member selected)

theorem apart_insert [DecidableEq Key] {t u : Table Row} {r : Row} (inserted : t.insert r = some u)
    (own : owner r = y) : Apart owner y t u := by
  intro x other
  rw [mem_insert inserted]
  constructor
  · intro present
    rcases present with member | equal
    · exact member
    · exact absurd (equal ▸ own) other
  · exact .inl

theorem Kept.refl (reflexive : ∀ r, rel r r) (t : Table Row) : Kept rel t t :=
  fun r member => ⟨r,member,reflexive r⟩

theorem Kept.trans {t u v : Table Row} (transitive : ∀ a b c, rel a b → rel b c → rel a c)
    (first : Kept rel t u) (second : Kept rel u v) : Kept rel t v := by
  intro r member
  obtain ⟨middle,present,one⟩ := first r member
  obtain ⟨last,final,two⟩ := second middle present
  exact ⟨last,final,transitive _ _ _ one two⟩

theorem kept_update {t : Table Row} {p : Row → Prop} [DecidablePred p] {f : Row → Row}
    {keeps : ∀ r, key (f r) = key r} (reflexive : ∀ r, rel r r) (moves : ∀ r, p r → rel r (f r)) :
    Kept rel t (t.update p f keeps) := by
  intro r member
  refine ⟨_,mem_update.mpr ⟨r,member,rfl⟩,?_⟩
  split
  next selected => exact moves r selected
  next => exact reflexive r

@[simp] theorem update_keys {t : Table Row} {p : Row → Prop} [DecidablePred p] {f : Row → Row}
    (keeps : ∀ r, key (f r) = key r) : (t.update p f keeps).rows.map key = t.rows.map key := by
  simp only [update,List.map_map]
  apply List.map_congr_left
  intro r _
  by_cases selected : p r <;> simp [selected,keeps]

theorem Kept.drawn {t u : Table Row} (kept : Kept rel t u) (keys : u.rows.map key = t.rows.map key)
    (named : ∀ a b, rel a b → key b = key a) : ∀ r ∈ u.rows, ∃ old ∈ t.rows, rel old r := by
  intro r member
  have listed : key r ∈ t.rows.map key := keys ▸ List.mem_map_of_mem member
  obtain ⟨old,present,same⟩ := List.mem_map.mp listed
  obtain ⟨next,final,moves⟩ := kept old present
  have equal : next = r := mem_unique final member ((named old next moves).trans same)
  exact ⟨old,present,equal ▸ moves⟩

theorem kept_insert [DecidableEq Key] {t u : Table Row} {r : Row} (reflexive : ∀ r, rel r r)
    (inserted : t.insert r = some u) : Kept rel t u :=
  fun x member => ⟨x,(mem_insert inserted).mpr (.inl member),reflexive x⟩

end Change

end Table
end Relational

import Mathlib.Algebra.Group.Nat.Defs
import SjgControl.Encoding
import SjgControl.Instant

/-! The order of the texts of instants. -/
namespace SjgControl
open Encoding

namespace Instant

/-! Numbers of a fixed width. -/

theorem length_padded (width n : Nat) : (padded width n).length = width := by
  induction width generalizing n with
  | zero => rfl
  | succ width ih => rw [padded,List.length_append,ih]; rfl

theorem digit_lt_iff (m n : Nat) : digit m < digit n ↔ m % 10 < n % 10 := by
  have every : ∀ i < 10, ∀ j < 10, Char.ofNat (48 + i) < Char.ofNat (48 + j) ↔ i < j := by decide
  exact every _ (Nat.mod_lt _ (by omega)) _ (Nat.mod_lt _ (by omega))

theorem padded_inj {width m n : Nat} (small : m < 10 ^ width) (small' : n < 10 ^ width)
    (same : padded width m = padded width n) : m = n := by
  induction width generalizing m n with
  | zero => omega
  | succ width ih =>
    rw [Nat.pow_succ] at small small'
    obtain ⟨front,last⟩ := List.append_inj same (by rw [length_padded,length_padded])
    have high := ih (by omega) (by omega) front
    have least : digit m = digit n := (List.cons.inj last).1
    have low : ¬ (m % 10 < n % 10) ∧ ¬ (n % 10 < m % 10) := by
      rw [← digit_lt_iff,← digit_lt_iff,least]
      simp
    omega

theorem padded_lt_iff {width m n : Nat} (small : m < 10 ^ width) (small' : n < 10 ^ width) :
    padded width m < padded width n ↔ m < n := by
  induction width generalizing m n with
  | zero =>
    have zero : m = 0 ∧ n = 0 := by omega
    simp [zero]
  | succ width ih =>
    rw [Nat.pow_succ] at small small'
    rw [padded,padded,append_lt_append_iff (by rw [length_padded,length_padded]),ih (by omega) (by omega),
      List.cons_lt_cons_iff,digit_lt_iff]
    constructor
    · rintro (less | ⟨front,less | ⟨_,less⟩⟩)
      · omega
      · have high := padded_inj (by omega) (by omega) front
        omega
      · cases less
    · intro less
      by_cases high : m / 10 < n / 10
      · exact .inl high
      · have equal : m / 10 = n / 10 := by omega
        exact .inr ⟨by rw [equal],.inl (by omega)⟩

theorem padded_append_lt_iff {width m n : Nat} (small : m < 10 ^ width) (small' : n < 10 ^ width) (s t : List Char) :
    padded width m ++ s < padded width n ++ t ↔ m < n ∨ m = n ∧ s < t := by
  rw [append_lt_append_iff (by rw [length_padded,length_padded]),padded_lt_iff small small']
  have same : padded width m = padded width n ↔ m = n := ⟨padded_inj small small',fun equal => by rw [equal]⟩
  rw [same]

/-! The calendar. -/

/-- Month and day of the day of a year with the given number, day 0 being the first of January. -/
def monthDay (leap : Bool) (n : Nat) : Nat × Nat :=
  let month := (n + 50) / 32
  let preceding := daysBeforeMonth month + if month > 2 ∧ leap then 1 else 0
  if preceding > n then
    let month := month - 1
    (month,n - (preceding - (daysInMonth month + if month = 2 ∧ leap then 1 else 0)) + 1)
  else (month,n - preceding + 1)

/-- The days before the year `y + 1`. -/
def daysBefore (y : Nat) : Nat := 365 * y + y / 4 - y / 100 + y / 400

/-- What `civil` makes of a day: its year, and the month and day in that year. -/
structure Dated (day y n : Nat) (leap : Bool) : Prop where
  civil : civil day = (y + 1,monthDay leap n)
  day : day = daysBefore y + n
  within : n < 365 + if leap then 1 else 0
  next : daysBefore (y + 1) = daysBefore y + 365 + if leap then 1 else 0

theorem daysBefore_digits {a b c d : Nat} (hundreds : b ≤ 3) (fours : c ≤ 24) (ones : d ≤ 3) :
    daysBefore (400 * a + 100 * b + 4 * c + d) = 146097 * a + 36524 * b + 1461 * c + 365 * d := by
  have quarter : (400 * a + 100 * b + 4 * c + d) / 4 = 100 * a + 25 * b + c := by omega
  have century : (400 * a + 100 * b + 4 * c + d) / 100 = 4 * a + b := by omega
  have cycle : (400 * a + 100 * b + 4 * c + d) / 400 = a := by omega
  unfold daysBefore
  rw [quarter,century,cycle]
  omega

/-- A year is leap if it is the fourth of four, unless it ends a century that does not end a cycle. -/
theorem daysBefore_next {a b c d : Nat} (hundreds : b ≤ 3) (fours : c ≤ 24) (ones : d ≤ 3) :
    daysBefore (400 * a + 100 * b + 4 * c + d + 1) = 146097 * a + 36524 * b + 1461 * c + 365 * d + 365 +
      if d = 3 ∧ (c ≠ 24 ∨ b = 3) then 1 else 0 := by
  by_cases last : d = 3
  · by_cases final : c = 24
    · by_cases whole : b = 3
      · have shape : 400 * a + 100 * b + 4 * c + d + 1 = 400 * (a + 1) + 100 * 0 + 4 * 0 + 0 := by omega
        rw [shape,daysBefore_digits (by omega) (by omega) (by omega),if_pos ⟨last,.inr whole⟩]
        omega
      · have shape : 400 * a + 100 * b + 4 * c + d + 1 = 400 * a + 100 * (b + 1) + 4 * 0 + 0 := by omega
        rw [shape,daysBefore_digits (by omega) (by omega) (by omega),if_neg (by omega)]
        omega
    · have shape : 400 * a + 100 * b + 4 * c + d + 1 = 400 * a + 100 * b + 4 * (c + 1) + 0 := by omega
      rw [shape,daysBefore_digits (by omega) (by omega) (by omega),if_pos ⟨last,.inl final⟩]
      omega
  · have shape : 400 * a + 100 * b + 4 * c + d + 1 = 400 * a + 100 * b + 4 * c + (d + 1) := by omega
    rw [shape,daysBefore_digits (by omega) (by omega) (by omega),if_neg (by omega)]
    omega

theorem civil_common (day : Nat)
    (common : ¬ (day % 146097 % 36524 % 1461 / 365 = 4 ∨ day % 146097 / 36524 = 4)) :
    civil day = (day / 146097 * 400 + 1 + day % 146097 / 36524 * 100 + day % 146097 % 36524 / 1461 * 4 +
      day % 146097 % 36524 % 1461 / 365,
      monthDay (day % 146097 % 36524 % 1461 / 365 = 3 ∧ (day % 146097 % 36524 / 1461 ≠ 24 ∨ day % 146097 / 36524 = 3))
        (day % 146097 % 36524 % 1461 % 365)) := by
  unfold civil monthDay
  dsimp only
  rw [if_neg common]
  simp only [decide_eq_true_eq]
  exact (apply_ite (Prod.mk _) _ _ _).symm

theorem civil_dated (day : Nat) : ∃ y n leap, Dated day y n leap := by
  obtain ⟨a,cycle⟩ : ∃ a, day / 146097 = a := ⟨_,rfl⟩
  obtain ⟨b,century⟩ : ∃ b, day % 146097 / 36524 = b := ⟨_,rfl⟩
  obtain ⟨c,four⟩ : ∃ c, day % 146097 % 36524 / 1461 = c := ⟨_,rfl⟩
  obtain ⟨d,year⟩ : ∃ d, day % 146097 % 36524 % 1461 / 365 = d := ⟨_,rfl⟩
  by_cases whole : b = 4
  · -- the last day of a cycle
    have digits := @daysBefore_digits a 3 24 3 (by omega) (by omega) (by omega)
    have next := @daysBefore_next a 3 24 3 (by omega) (by omega) (by omega)
    refine ⟨400 * a + 100 * 3 + 4 * 24 + 3,365,true,?_,?_,?_,?_⟩
    · unfold civil
      dsimp only
      rw [if_pos (by omega)]
      have shape : monthDay true 365 = (12,31) := by decide
      rw [shape,Prod.mk.injEq]
      exact ⟨by omega,rfl⟩
    · rw [digits]
      omega
    · simp
    · rw [next,digits]
      simp
  by_cases last : d = 4
  · -- the last day of a leap year
    have fours : c ≤ 23 := by omega
    have digits := @daysBefore_digits a b c 3 (by omega) (by omega) (by omega)
    have next := @daysBefore_next a b c 3 (by omega) (by omega) (by omega)
    refine ⟨400 * a + 100 * b + 4 * c + 3,365,true,?_,?_,?_,?_⟩
    · unfold civil
      dsimp only
      rw [if_pos (by omega)]
      have shape : monthDay true 365 = (12,31) := by decide
      rw [shape,Prod.mk.injEq]
      exact ⟨by omega,rfl⟩
    · rw [digits]
      omega
    · simp
    · rw [next,digits,if_pos ⟨rfl,.inl (by omega)⟩]
      simp
  · have digits := @daysBefore_digits a b c d (by omega) (by omega) (by omega)
    have next := @daysBefore_next a b c d (by omega) (by omega) (by omega)
    refine ⟨400 * a + 100 * b + 4 * c + d,day % 146097 % 36524 % 1461 % 365,d = 3 ∧ (c ≠ 24 ∨ b = 3),?_,?_,?_,?_⟩
    · rw [civil_common day (by omega),cycle,century,four,year,Prod.mk.injEq]
      exact ⟨by omega,rfl⟩
    · rw [digits]
      omega
    · have bound : day % 146097 % 36524 % 1461 % 365 < 365 := Nat.mod_lt _ (by omega)
      omega
    · rw [next,digits]
      simp only [decide_eq_true_eq]

theorem monthDay_bounds {leap : Bool} {n : Nat} (within : n < 365 + if leap then 1 else 0) :
    (monthDay leap n).1 < 10 ^ 2 ∧ (monthDay leap n).2 < 10 ^ 2 := by
  have every : ∀ leap : Bool, ∀ n < 366, (monthDay leap n).1 < 10 ^ 2 ∧ (monthDay leap n).2 < 10 ^ 2 := by decide +kernel
  apply every
  cases leap <;> simp at within <;> omega

theorem monthDay_lt {leap : Bool} {m n : Nat} (less : m < n) (within : n < 365 + if leap then 1 else 0) :
    (monthDay leap m).1 < (monthDay leap n).1 ∨
      (monthDay leap m).1 = (monthDay leap n).1 ∧ (monthDay leap m).2 < (monthDay leap n).2 := by
  have every : ∀ leap : Bool, ∀ n < 365, n + 1 < 365 + (if leap then 1 else 0) →
      (monthDay leap n).1 < (monthDay leap (n + 1)).1 ∨
        (monthDay leap n).1 = (monthDay leap (n + 1)).1 ∧ (monthDay leap n).2 < (monthDay leap (n + 1)).2 := by
    decide +kernel
  induction less with
  | refl => exact every leap m (by cases leap <;> simp at within <;> omega) within
  | @step n less ih =>
    rw [Nat.succ_eq_add_one] at within ⊢
    have step := every leap n (by cases leap <;> simp at within <;> omega) within
    have front := ih (by omega)
    omega

theorem daysBefore_mono {y z : Nat} (less : y ≤ z) : daysBefore y ≤ daysBefore z := by
  induction less with
  | refl => exact Nat.le_refl _
  | @step z less ih =>
    have step : daysBefore z ≤ daysBefore (z + 1) := by
      unfold daysBefore
      omega
    exact Nat.le_trans ih step

theorem Dated.year_le {day day' y z m n : Nat} {leap leap' : Bool} (one : Dated day y m leap) (other : Dated day' z n leap')
    (before : day < day') : y ≤ z := by
  by_contra later
  have least := daysBefore_mono (Nat.lt_of_not_le later : z + 1 ≤ y)
  have within := other.within
  rw [other.next] at least
  have first := one.day
  have second := other.day
  omega

theorem civil_bounds {day : Nat} (represented : day < 3652059) :
    (civil day).1 < 10 ^ 4 ∧ (civil day).2.1 < 10 ^ 2 ∧ (civil day).2.2 < 10 ^ 2 := by
  obtain ⟨y,n,leap,dated⟩ := civil_dated day
  rw [dated.civil]
  refine ⟨?_,monthDay_bounds dated.within⟩
  by_contra late
  have least : daysBefore 9999 ≤ daysBefore y := daysBefore_mono (by omega)
  have whole : daysBefore 9999 = 3652059 := by decide
  have start := dated.day
  omega

theorem civil_lt {day day' : Nat} (before : day < day') :
    (civil day).1 < (civil day').1 ∨ (civil day).1 = (civil day').1 ∧
      ((civil day).2.1 < (civil day').2.1 ∨ (civil day).2.1 = (civil day').2.1 ∧ (civil day).2.2 < (civil day').2.2) := by
  obtain ⟨y,m,leap,one⟩ := civil_dated day
  obtain ⟨z,n,leap',other⟩ := civil_dated day'
  rw [one.civil,other.civil]
  have years := one.year_le other before
  by_cases same : y = z
  · subst same
    have lengths : leap = leap' := by
      have equal := one.next.symm.trans other.next
      cases leap <;> cases leap' <;> simp at equal ⊢
    subst lengths
    have first := one.day
    have second := other.day
    exact .inr ⟨rfl,monthDay_lt (by omega) other.within⟩
  · exact .inl (by dsimp only; omega)

/-! The text. -/

def seconds (t : Instant) : Nat := t.micros / 1000000

def fraction (t : Instant) : Nat := t.micros % 1000000

def tail (t : Instant) : List Char := (if t.fraction = 0 then [] else '.'::padded 6 t.fraction) ++ ['Z']

theorem isoChars_eq (t : Instant) : t.isoChars =
    padded 4 (civil (t.seconds / 86400)).1 ++ '-'::(padded 2 (civil (t.seconds / 86400)).2.1 ++
      '-'::(padded 2 (civil (t.seconds / 86400)).2.2 ++ 'T'::(padded 2 (t.seconds % 86400 / 3600) ++
        ':'::(padded 2 (t.seconds % 86400 / 60 % 60) ++ ':'::(padded 2 (t.seconds % 86400 % 60) ++ t.tail))))) := by
  have shape : t.isoChars =
      padded 4 (civil (t.seconds / 86400)).1 ++ '-'::padded 2 (civil (t.seconds / 86400)).2.1 ++
        '-'::padded 2 (civil (t.seconds / 86400)).2.2 ++ 'T'::padded 2 (t.seconds % 86400 / 3600) ++
        ':'::padded 2 (t.seconds % 86400 / 60 % 60) ++ ':'::padded 2 (t.seconds % 86400 % 60) ++
        (if t.fraction = 0 then [] else '.'::padded 6 t.fraction) ++ ['Z'] := rfl
  rw [shape]
  simp only [tail,List.append_assoc,List.cons_append]

theorem tail_lt_iff (a b : Instant) :
    a.tail < b.tail ↔ a.fraction ≠ 0 ∧ (b.fraction = 0 ∨ a.fraction < b.fraction) := by
  have small : a.fraction < 10 ^ 6 := Nat.mod_lt _ (by decide)
  have small' : b.fraction < 10 ^ 6 := Nat.mod_lt _ (by decide)
  have dot : '.' < 'Z' := by decide
  have zed : ¬ 'Z' < '.' := by decide
  unfold tail
  by_cases whole : a.fraction = 0
  · by_cases whole' : b.fraction = 0
    · simp [whole,whole']
    · rw [if_pos whole,if_neg whole',List.nil_append,List.cons_append,List.cons_lt_cons_iff]
      simp [whole,zed]
  · by_cases whole' : b.fraction = 0
    · rw [if_neg whole,if_pos whole',List.nil_append,List.cons_append,List.cons_lt_cons_iff]
      simp [whole,whole',dot]
    · simp [whole,whole',padded_append_lt_iff small small']

theorem cons_lt_iff {c : Char} {s t : List Char} : c::s < c::t ↔ s < t := by simp

theorem isoChars_lt_iff (a b : Instant) : a.isoChars < b.isoChars ↔
    a.seconds < b.seconds ∨ a.seconds = b.seconds ∧ a.tail < b.tail := by
  have represented (t : Instant) : t.seconds / 86400 < 3652059 := by
    have bounded := t.bounded
    unfold seconds
    omega
  obtain ⟨year,month,day⟩ := civil_bounds (represented a)
  obtain ⟨year',month',day'⟩ := civil_bounds (represented b)
  have two {n : Nat} (small : n < 60) : n < 10 ^ 2 := by omega
  rw [isoChars_eq,isoChars_eq,padded_append_lt_iff year year',cons_lt_iff,padded_append_lt_iff month month',cons_lt_iff,
    padded_append_lt_iff day day',cons_lt_iff,padded_append_lt_iff (by omega) (by omega),cons_lt_iff,
    padded_append_lt_iff (by omega) (by omega),cons_lt_iff,padded_append_lt_iff (by omega) (by omega)]
  rcases Nat.lt_trichotomy (a.seconds / 86400) (b.seconds / 86400) with before | same | behind
  · have dates := civil_lt before
    omega
  · rw [same]
    by_cases rest : a.tail < b.tail
    · simp only [rest,Nat.lt_irrefl,false_or,true_and,and_true]
      omega
    · simp only [rest,Nat.lt_irrefl,false_or,true_and,and_false,or_false]
      omega
  · have dates := civil_lt behind
    omega

/-- A text is smaller than another if its second is earlier, or if the seconds are the same and it
has the smaller fraction or the other one has none. -/
theorem isoText_lt_iff (a b : Instant) : a.isoText < b.isoText ↔ a.seconds < b.seconds ∨
    a.seconds = b.seconds ∧ a.fraction ≠ 0 ∧ (b.fraction = 0 ∨ a.fraction < b.fraction) := by
  have order : a.isoText < b.isoText ↔ a.isoText.toList < b.isoText.toList := Iff.rfl
  rw [← tail_lt_iff,← isoChars_lt_iff,order]
  unfold isoText
  rw [String.toList_ofList,String.toList_ofList]

theorem micros_lt_iff (a b : Instant) : a.micros < b.micros ↔
    a.seconds < b.seconds ∨ a.seconds = b.seconds ∧ a.fraction < b.fraction := by
  unfold seconds fraction
  omega

end Instant
end SjgControl

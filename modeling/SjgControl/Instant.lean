import Mathlib.Tactic.Common

/-! UTC instants of microsecond resolution and the text the store keeps for them.
The calendar arithmetic is the proleptic Gregorian one of `datetime`; `isoText` is
`isoformat()` with the zero offset written as `Z`, so a zero fraction is omitted. -/
namespace SjgControl

/-- Microseconds since 0001-01-01T00:00:00Z, up to the end of year 9999. -/
structure Instant where
  micros : Nat
  bounded : micros < 315537897600 * 1000000
  deriving DecidableEq

namespace Instant

theorem zero_bounded : 0 < 315537897600 * 1000000 := by decide

/-- `instant + timedelta(seconds=…)`; `none` is the `OverflowError`. -/
def later (t : Instant) (seconds : Int) : Option Instant :=
  let moved := (t.micros : Int) + seconds * 1000000
  if h : 0 ≤ moved ∧ moved.toNat < 315537897600 * 1000000 then some ⟨moved.toNat,h.2⟩ else none

def daysBeforeMonth (month : Nat) : Nat :=
  [0,0,31,59,90,120,151,181,212,243,273,304,334].getD month 0

def daysInMonth (month : Nat) : Nat :=
  [0,31,28,31,30,31,30,31,31,30,31,30,31].getD month 0

/-- Year, month and day of the day with the given number, day 0 being 0001-01-01. -/
def civil (day : Nat) : Nat × Nat × Nat :=
  let n400 := day / 146097
  let n := day % 146097
  let n100 := n / 36524
  let n := n % 36524
  let n4 := n / 1461
  let n := n % 1461
  let n1 := n / 365
  let n := n % 365
  let year := n400 * 400 + 1 + n100 * 100 + n4 * 4 + n1
  if n1 = 4 ∨ n100 = 4 then (year - 1,12,31)
  else
    let leap := n1 = 3 ∧ (n4 ≠ 24 ∨ n100 = 3)
    let month := (n + 50) / 32
    let preceding := daysBeforeMonth month + if month > 2 ∧ leap then 1 else 0
    if preceding > n then
      let month := month - 1
      let preceding := preceding - (daysInMonth month + if month = 2 ∧ leap then 1 else 0)
      (year,month,n - preceding + 1)
    else (year,month,n - preceding + 1)

def digit (n : Nat) : Char := Char.ofNat (48 + n % 10)

/-- Decimal digits of `n`, padded to `width`. -/
def padded : Nat → Nat → List Char
  | 0,_ => []
  | width + 1,n => padded width (n / 10) ++ [digit n]

def isoChars (t : Instant) : List Char :=
  let seconds := t.micros / 1000000
  let fraction := t.micros % 1000000
  let (year,month,day) := civil (seconds / 86400)
  let clock := seconds % 86400
  padded 4 year ++ '-'::padded 2 month ++ '-'::padded 2 day ++ 'T'::padded 2 (clock / 3600) ++
    ':'::padded 2 (clock / 60 % 60) ++ ':'::padded 2 (clock % 60) ++
    (if fraction = 0 then [] else '.'::padded 6 fraction) ++ ['Z']

def isoText (t : Instant) : String := String.ofList t.isoChars

def dateText (t : Instant) : String := String.ofList (t.isoChars.take 10)

end Instant
end SjgControl

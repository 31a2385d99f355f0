import Mathlib.Data.List.Basic
import Mathlib.Tactic.Common

/-! Base64: bytes as texts of sixty-four digits, and back. -/
namespace Base64

def alphabet : List Char := "ABCDEFGHIJKLMNOPQRSTUVWXYZabcdefghijklmnopqrstuvwxyz0123456789+/".toList

def digit (n : Nat) : Char := alphabet.getD n 'A'

def value (c : Char) : Option Nat := alphabet.findIdx? (· = c)

/-- Three bytes are four digits; the last digit of an incomplete group is filled up with zeros. -/
def sextets : List UInt8 → List Nat
  | a::b::c::rest =>
    a.toNat / 4::(a.toNat % 4 * 16 + b.toNat / 16)::(b.toNat % 16 * 4 + c.toNat / 64)::c.toNat % 64::sextets rest
  | [a,b] => [a.toNat / 4,a.toNat % 4 * 16 + b.toNat / 16,b.toNat % 16 * 4]
  | [a] => [a.toNat / 4,a.toNat % 4 * 16]
  | [] => []

def padding (data : List UInt8) : List Char := List.replicate ((3 - data.length % 3) % 3) '='

def b64encode (data : List UInt8) : String := String.ofList ((sextets data).map digit ++ padding data)

/-- The bytes of the digits; the low bits of an incomplete group are dropped. -/
def octets : List Nat → List UInt8
  | w::x::y::z::rest =>
    UInt8.ofNat (w * 4 + x / 16)::UInt8.ofNat (x % 16 * 16 + y / 4)::UInt8.ofNat (y % 4 * 64 + z)::octets rest
  | [w,x,y] => [UInt8.ofNat (w * 4 + x / 16),UInt8.ofNat (x % 16 * 16 + y / 4)]
  | [w,x] => [UInt8.ofNat (w * 4 + x / 16)]
  | _ => []

/-- The signs of padding that complete a last group of so many digits. Where nothing is
missing, up to two are passed over. -/
def Completes (digits signs : Nat) : Prop :=
  signs ≤ 2 ∧ (digits % 4 = 0 ∨ digits % 4 = 2 ∧ signs = 2 ∨ digits % 4 = 3 ∧ 1 ≤ signs)

instance (digits signs : Nat) : Decidable (Completes digits signs) :=
  inferInstanceAs (Decidable (signs ≤ 2 ∧ (digits % 4 = 0 ∨ digits % 4 = 2 ∧ signs = 2 ∨ digits % 4 = 3 ∧ 1 ≤ signs)))

/-- `base64.b64decode(text, validate=True)`. -/
def b64decode (text : String) : Option (List UInt8) := do
  let body := text.toList.takeWhile (· ≠ '=')
  let signs := text.toList.dropWhile (· ≠ '=')
  let values ← body.mapM value
  if signs.all (fun c => c = '=') = true ∧ Completes body.length signs.length then return octets values
  else none

theorem value_digit {n : Nat} (small : n < 64) : value (digit n) = some n := by
  have every : ∀ n < 64, value (digit n) = some n := by decide +kernel
  exact every n small

theorem digit_ne_padding {n : Nat} (small : n < 64) : digit n ≠ '=' := by
  have every : ∀ n < 64, digit n ≠ '=' := by decide +kernel
  exact every n small

theorem sextets_small {data : List UInt8} : ∀ n ∈ sextets data, n < 64 := by
  fun_induction sextets data with
  | case1 a b c rest ih =>
    have first := a.toNat_lt
    have second := b.toNat_lt
    have third := c.toNat_lt
    intro n member
    simp only [List.mem_cons] at member
    rcases member with rfl | rfl | rfl | rfl | member
    · omega
    · omega
    · omega
    · omega
    · exact ih n member
  | case2 a b =>
    have first := a.toNat_lt
    have second := b.toNat_lt
    intro n member
    simp only [List.mem_cons,List.not_mem_nil,or_false] at member
    omega
  | case3 a =>
    have first := a.toNat_lt
    intro n member
    simp only [List.mem_cons,List.not_mem_nil,or_false] at member
    omega
  | case4 => simp

theorem ofNat_eq {b : UInt8} {n : Nat} (same : n = b.toNat) : UInt8.ofNat n = b := by
  rw [same]
  exact UInt8.ofNat_toNat

theorem octets_sextets (data : List UInt8) : octets (sextets data) = data := by
  fun_induction sextets data with
  | case1 a b c rest ih =>
    have first := a.toNat_lt
    have second := b.toNat_lt
    have third := c.toNat_lt
    rw [octets,ih,@ofNat_eq a,@ofNat_eq b,@ofNat_eq c]
    · omega
    · omega
    · omega
  | case2 a b =>
    have first := a.toNat_lt
    have second := b.toNat_lt
    rw [octets,@ofNat_eq a,@ofNat_eq b]
    · omega
    · omega
  | case3 a =>
    have first := a.toNat_lt
    rw [octets,@ofNat_eq a]
    omega
  | case4 => rfl

theorem length_sextets (data : List UInt8) : (sextets data).length = (data.length * 4 + 2) / 3 := by
  fun_induction sextets data with
  | case1 a b c rest ih =>
    simp only [List.length_cons,ih]
    omega
  | case2 a b => simp
  | case3 a => simp
  | case4 => rfl

theorem length_b64encode (data : List UInt8) : (b64encode data).length = (data.length + 2) / 3 * 4 := by
  rw [b64encode,String.length_ofList,List.length_append,List.length_map,length_sextets,padding,List.length_replicate]
  omega

theorem mapM_value {values : List Nat} (small : ∀ n ∈ values, n < 64) : (values.map digit).mapM value = some values := by
  induction values with
  | nil => rfl
  | cons n rest ih =>
    obtain ⟨first,later⟩ := List.forall_mem_cons.mp small
    rw [List.map_cons,List.mapM_cons,value_digit first,ih later]
    rfl

theorem completes_padding (data : List UInt8) : Completes (sextets data).length (padding data).length := by
  rw [length_sextets,padding,List.length_replicate]
  have groups := Nat.div_add_mod data.length 3
  unfold Completes
  obtain whole | one | two : data.length % 3 = 0 ∨ data.length % 3 = 1 ∨ data.length % 3 = 2 := by omega
  · rw [whole]
    omega
  · rw [one]
    omega
  · rw [two]
    omega

theorem b64decode_b64encode (data : List UInt8) : b64decode (b64encode data) = some data := by
  have plain : ∀ c ∈ (sextets data).map digit, decide (c ≠ '=') = true := by
    intro c member
    obtain ⟨n,listed,rfl⟩ := List.mem_map.mp member
    exact decide_eq_true (digit_ne_padding (sextets_small n listed))
  have signs : (padding data).takeWhile (· ≠ '=') = [] ∧ (padding data).dropWhile (· ≠ '=') = padding data := by
    unfold padding
    cases (3 - data.length % 3) % 3 with
    | zero => exact ⟨rfl,rfl⟩
    | succ n => exact ⟨rfl,rfl⟩
  simp only [b64decode,b64encode,String.toList_ofList]
  rw [List.takeWhile_append_of_pos plain,List.dropWhile_append_of_pos plain,signs.1,signs.2,List.append_nil,mapM_value sextets_small]
  simp only [Option.bind_eq_bind,Option.bind_some,List.length_map]
  have same : (padding data).all (fun c => c = '=') = true :=
    List.all_eq_true.mpr (fun c member => decide_eq_true (List.eq_of_mem_replicate member))
  rw [if_pos ⟨same,completes_padding data⟩,octets_sextets]
  rfl

end Base64

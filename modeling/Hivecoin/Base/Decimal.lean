import Mathlib.Algebra.Order.Field.Rat
import Mathlib.Data.List.Induction
import Mathlib.Data.Nat.Digits.Defs
import Mathlib.Tactic.FieldSimp
import Mathlib.Tactic.Ring

/-!
# Decimal numbers as text
-/

namespace Decimal

open List

abbrev Digit := Fin 10

instance neZero : NeZero 10 := ⟨by decide⟩

variable (ds : List Digit) (d : Digit)

def value : Nat := ds.foldl (fun n d => 10 * n + d) 0

@[simp] theorem value_nil : value [] = 0 := rfl

@[simp] theorem value_concat : value (ds ++ [d]) = 10 * value ds + d := by
  simp [value, foldl_append]

theorem value_append (es : List Digit) : value (ds ++ es) = value ds * 10 ^ es.length + value es := by
  induction es using reverseRecOn with
  | nil => simp
  | append_singleton es e ih =>
    rw [← append_assoc, value_concat, value_concat, ih, length_append, length_singleton]
    ring

def decimal (n : Nat) : List Digit := if n < 10 then [Fin.ofNat 10 n] else decimal (n / 10) ++ [Fin.ofNat 10 n]

theorem value_decimal (n : Nat) : value (decimal n) = n := by
  fun_induction decimal n with
  | case1 n h =>
    rw [← nil_append [Fin.ofNat 10 n], value_concat]
    simp [Nat.mod_eq_of_lt h]
  | case2 n h ih =>
    rw [value_concat, ih, Fin.val_ofNat]
    omega

theorem decimal_ok (n : Nat) : decimal n = [0] ∨ ∃ d ds, d ≠ 0 ∧ decimal n = d :: ds := by
  fun_induction decimal n with
  | case1 n h =>
    by_cases hn : n = 0
    · exact Or.inl (by rw [hn]; rfl)
    · refine Or.inr ⟨Fin.ofNat 10 n, [], fun h0 => hn ?_, rfl⟩
      rw [Fin.ext_iff, Fin.val_ofNat, Fin.val_zero, Nat.mod_eq_of_lt h] at h0
      exact h0
  | case2 n h ih =>
    rcases ih with h0 | ⟨d, ds, hd, hds⟩
    · have hvalue := value_decimal (n / 10)
      rw [h0] at hvalue
      simp [value] at hvalue
      omega
    · exact Or.inr ⟨d, ds ++ [Fin.ofNat 10 n], hd, by rw [hds, cons_append]⟩

def padded : Nat → Nat → List Digit
  | 0, _ => []
  | k + 1, n => padded k (n / 10) ++ [Fin.ofNat 10 n]

@[simp] theorem length_padded (k n : Nat) : (padded k n).length = k := by
  induction k generalizing n with
  | zero => rfl
  | succ k ih => rw [padded, length_append, ih, length_singleton]

theorem value_padded {k n} (h : n < 10 ^ k) : value (padded k n) = n := by
  induction k generalizing n with
  | zero =>
    rw [pow_zero] at h
    rw [padded, value_nil]
    omega
  | succ k ih =>
    rw [padded, value_concat, ih (by rw [pow_succ] at h; omega), Fin.val_ofNat]
    omega

/-- A number as its significant part and the zeros after it. -/
structure Significand where
  digits : Nat
  zeros : Nat
deriving DecidableEq

def Significand.push (s : Significand) (d : Digit) : Significand :=
  if d = 0 then ⟨s.digits, s.zeros + 1⟩ else ⟨s.digits * 10 ^ (s.zeros + 1) + d, 0⟩

def significand : Significand := ds.foldl .push ⟨0, 0⟩

@[simp] theorem significand_nil : significand [] = ⟨0, 0⟩ := rfl

@[simp] theorem significand_concat : significand (ds ++ [d]) = (significand ds).push d := by
  simp [significand, foldl_append]

theorem significand_value : (significand ds).digits * 10 ^ (significand ds).zeros = value ds := by
  induction ds using reverseRecOn with
  | nil => rfl
  | append_singleton ds d ih =>
    rw [significand_concat, value_concat, ← ih, Significand.push]
    split
    · rename_i hd
      subst hd
      simp only [Fin.val_zero]
      ring
    · simp only [pow_zero, mul_one]
      ring

theorem significand_mod : (significand ds).digits = 0 ∨ (significand ds).digits % 10 ≠ 0 := by
  induction ds using reverseRecOn with
  | nil => exact Or.inl rfl
  | append_singleton ds d ih =>
    rw [significand_concat, Significand.push]
    split
    · exact ih
    · rename_i hd
      refine Or.inr ?_
      have hd' : d.val ≠ 0 := fun h => hd (Fin.ext h)
      have hlt := d.isLt
      simp only [pow_succ, ← mul_assoc]
      omega

/-- Only zeros have no significant digit, and they are all counted. -/
theorem significand_zeros {ds} (h : (significand ds).digits = 0) : (significand ds).zeros = ds.length := by
  induction ds using reverseRecOn with
  | nil => rfl
  | append_singleton ds d ih =>
    rw [significand_concat, Significand.push] at h ⊢
    split at h <;> rename_i hd
    · rw [if_pos hd, ih h, length_append, length_singleton]
    · exact absurd (Fin.ext (by simp only at h; simp only [Fin.val_zero]; omega)) hd

theorem Significand.digits_le_push (s : Significand) (d : Digit) : s.digits ≤ (s.push d).digits := by
  rw [push]
  split
  · exact le_refl _
  · exact (Nat.le_mul_of_pos_right _ (by positivity)).trans (Nat.le_add_right _ _)

theorem significand_digits_mono (es : List Digit) : (significand ds).digits ≤ (significand (ds ++ es)).digits := by
  induction es using reverseRecOn with
  | nil => rw [append_nil]
  | append_singleton es e ih =>
    rw [← append_assoc, significand_concat]
    exact ih.trans (Significand.digits_le_push _ _)

/-! ## Numbers of the JSON grammar -/

def digitChar : UInt8 := 48 + UInt8.ofNat d

theorem digitChar_toNat : (digitChar d).toNat = 48 + d := by decide +revert

theorem digitChar_eq_zero : digitChar d = 48 ↔ d = 0 := by decide +revert

theorem exists_digitChar {c} (h : 48 ≤ c ∧ c ≤ 57) : ∃ d, digitChar d = c := by
  have hlo : 48 ≤ c.toNat := h.1
  have hhi : c.toNat ≤ 57 := h.2
  refine ⟨⟨c.toNat - 48, by omega⟩, UInt8.toNat_inj.mp ?_⟩
  rw [digitChar_toNat]
  exact Nat.add_sub_cancel' hlo

/-- The part after `e`; `some true` is a minus sign. -/
structure Exponent where
  capital : Bool
  sign : Option Bool
  digits : List Digit
  digits_ne : digits ≠ []

def Exponent.text (e : Exponent) : List UInt8 :=
  (if e.capital then 69 else 101) :: ((match e.sign with | none => [] | some false => [43] | some true => [45]) ++
    e.digits.map digitChar)

def Exponent.toInt (e : Exponent) : Int := if e.sign = some true then -value e.digits else value e.digits

/-- A number of the JSON grammar; without digits of a fraction there is no point. -/
structure JsonNumber where
  negative : Bool
  whole : List Digit
  whole_ok : whole = [0] ∨ ∃ d ds, d ≠ 0 ∧ whole = d :: ds
  fraction : List Digit
  exponent : Option Exponent

namespace JsonNumber

def text (s : JsonNumber) : List UInt8 :=
  (if s.negative then [45] else []) ++ (s.whole.map digitChar ++
    ((if s.fraction = [] then [] else 46 :: s.fraction.map digitChar) ++ s.exponent.elim [] Exponent.text))

def exponentValue (s : JsonNumber) : Int := s.exponent.elim 0 Exponent.toInt

def value (s : JsonNumber) : ℚ :=
  (if s.negative then -1 else 1) * Decimal.value (s.whole ++ s.fraction) * 10 ^ (s.exponentValue - s.fraction.length)

end JsonNumber

end Decimal

import Hivecoin.Rpc.FixedPoint
import Hivecoin.Base.Outcome

/-!
# Amounts of the interface

`AmountFromValue` of `rpc/server.cpp` and `ValueFromAmount` of `core_write.cpp`.
-/

namespace Hivecoin

open Decimal Outcome List Option

inductive VType where
  | VNULL | VOBJ | VARR | VSTR | VNUM | VBOOL
deriving DecidableEq, Repr

/-- A JSON value, with the text of a number or of a string. -/
structure UniValue where
  typ : VType
  val : Bytes

/-- Fails with the text of the error of type `RPC_TYPE_ERROR`. -/
def amountFromValue (value : UniValue) (p_isHVN : Bool) : Except String CAmount := do
  require (value.typ == .VNUM || value.typ == .VSTR) "Amount is not a number or string"
  let amount ← orError (parseFixedPoint value.val 8) ("Invalid amount (3): " ++ String.ofList (value.val.map fun c => Char.ofNat c.toNat))
  let amount := Int64.ofInt amount
  require (!p_isHVN || moneyRange amount) ("Amount out of range: " ++ toString amount.toInt)
  return amount

/-- The remainder is divided in floating point, exactly for eight digits. -/
def valueFromAmountString (amount : CAmount) (units : Nat) : Bytes :=
  let sign : Bytes := if amount < 0 then [45] else []
  let n_abs := amount.toInt.natAbs
  let quotient := n_abs / 100000000
  let remainder := n_abs % 100000000 / 10 ^ (8 - units)
  if units = 0 ∧ remainder = 0 then sign ++ (decimal quotient).map digitChar
  else sign ++ ((decimal quotient).map digitChar ++ 46 :: (padded units remainder).map digitChar)

def valueFromAmount (amount : CAmount) : UniValue := ⟨.VNUM, valueFromAmountString amount 8⟩

theorem toFixedPoint_eq_some {mantissa exponent amount} (h : toFixedPoint mantissa exponent = some amount) :
    0 ≤ exponent ∧ exponent < 18 ∧ amount = mantissa * 10 ^ exponent.toNat := by
  rw [toFixedPoint] at h
  split at h
  · cases h
  · rename_i hexponent
    split at h
    · cases h
    · rename_i hsmall
      simp only [multiplyByTen_eq, some_iff] at h
      obtain ⟨m, ⟨-, rfl⟩, -, rfl⟩ := h
      exact ⟨not_lt.mp hexponent, not_le.mp hsmall, rfl⟩

theorem toFixedPoint_of_le {mantissa exponent : Nat} (hexponent : exponent < 18) (h : mantissa * 10 ^ exponent ≤ 2100000000000000000) :
    toFixedPoint mantissa exponent = some (mantissa * 10 ^ exponent : Nat) := by
  have hcast : ∀ i : Nat, (mantissa : Int) * 10 ^ i = (mantissa * 10 ^ i : Nat) := by
    intro i
    push_cast
    rfl
  have hbelow : ∀ i < exponent, mantissa * 10 ^ i ≤ 210000000000000000 := by
    intro i hi
    have hstep : mantissa * 10 ^ i * 10 ≤ mantissa * 10 ^ exponent := by
      rw [mul_assoc, ← pow_succ]
      exact Nat.mul_le_mul_left _ (Nat.pow_le_pow_right (by omega) hi)
    omega
  have hfits : ∀ i < exponent, (decide ((mantissa : Int) * 10 ^ i ≤ 420000000000000000) &&
      decide (-(UPPER_BOUND / 10) ≤ (mantissa : Int) * 10 ^ i)) = true := by
    intro i hi
    have := hbelow i hi
    rw [hcast, Bool.and_eq_true, decide_eq_true_eq, decide_eq_true_eq, UPPER_BOUND]
    omega
  rw [toFixedPoint, if_neg (by omega), if_neg (by omega), multiplyByTen_eq, Int.toNat_natCast, if_pos hfits, hcast]
  simp only [Option.bind_eq_bind, Option.bind_some]
  rw [if_neg (by rw [UPPER_BOUND]; omega), Option.pure_def]

theorem value_mul_pow (s : JsonNumber) (k : Nat) :
    s.value * 10 ^ k = (if s.negative then -1 else 1) * (significand (countedDigits s)).digits *
      (10 : ℚ) ^ (s.exponentValue - s.fraction.length + (significand (countedDigits s)).zeros + k) := by
  have hvalue : (value (s.whole ++ s.fraction) : ℚ) =
      (significand (countedDigits s)).digits * 10 ^ (significand (countedDigits s)).zeros := by
    rw [← value_countedDigits, ← significand_value]
    push_cast
    rfl
  rw [JsonNumber.value, hvalue, zpow_add₀ (by norm_num), zpow_add₀ (by norm_num), zpow_natCast, zpow_natCast]
  ring

theorem parseFixedPoint_value {s : JsonNumber} {decimals amount} (h : parseFixedPoint s.text decimals = some amount) :
    s.value * 10 ^ decimals = amount := by
  rw [parseFixedPoint_text, ite_none_right_eq_some] at h
  obtain ⟨hexponent, -, hamount⟩ := toFixedPoint_eq_some h.2
  rw [value_mul_pow, hamount, ← Int.toNat_of_nonneg hexponent, zpow_natCast, Int.toNat_natCast]
  cases s.negative with
  | false => simp
  | true => simp

/-- The amounts that the bounds of the parser let through. -/
def Readable (n : Int) : Prop := n < 10 ^ 18 ∨ (10 ∣ n ∧ n ≠ 10 ^ 18 ∧ n ≠ 2 * 10 ^ 18)

theorem readable_iff {m e} (hm : m % 10 ≠ 0) (h : m * 10 ^ e ≤ 2100000000000000000) :
    m < 10 ^ 18 ∧ e < 18 ↔ Readable (m * 10 ^ e : Nat) := by
  have hpos : 0 < 10 ^ e := by positivity
  have hle : m ≤ m * 10 ^ e := Nat.le_mul_of_pos_right _ hpos
  have hpow : 10 ^ e ≤ m * 10 ^ e := Nat.le_mul_of_pos_left _ (by omega)
  -- with less than eighteen zeros a multiple of `10 ^ 18` would leave one in the significant part
  have hround : ∀ c, e < 18 → m * 10 ^ e ≠ c * 10 ^ 18 := by
    intro c he heq
    have hsplit : 10 ^ 18 = 10 ^ (17 - e) * 10 * 10 ^ e := by
      rw [← pow_succ, ← pow_add]
      congr 1
      omega
    rw [hsplit, ← mul_assoc, ← mul_assoc] at heq
    have := Nat.eq_of_mul_eq_mul_right hpos heq
    omega
  constructor
  · rintro ⟨hlt, he⟩
    by_cases hn : m * 10 ^ e < 10 ^ 18
    · exact Or.inl (by exact_mod_cast hn)
    · refine Or.inr ⟨?_, fun heq => hround 1 he (by omega), fun heq => hround 2 he (by omega)⟩
      cases e with
      | zero => omega
      | succ e => exact ⟨(m * 10 ^ e : Nat), by push_cast; ring⟩
  · rintro (hlt | ⟨⟨c, hc⟩, hone, htwo⟩)
    · have hlt' : m * 10 ^ e < 10 ^ 18 := by exact_mod_cast hlt
      exact ⟨by omega, (Nat.pow_lt_pow_iff_right (by omega)).mp (lt_of_le_of_lt hpow hlt')⟩
    · have he : e ≠ 0 := by
        rintro rfl
        omega
      refine ⟨?_, ?_⟩
      · have hten : m * 10 ≤ m * 10 ^ e := Nat.mul_le_mul_left _ (Nat.le_self_pow he 10)
        omega
      · by_contra hge
        have hsplit : m * 10 ^ e = m * 10 ^ (e - 18) * 10 ^ 18 := by
          rw [mul_assoc, ← pow_add]
          congr 2
          omega
        omega

/-- A number of this amount is read: zero only with a small exponent. -/
def ReadableAs (s : JsonNumber) (n : Int) : Prop :=
  if n = 0 then -8 ≤ s.exponentValue ∧ s.exponentValue < 10 else s.exponentValue.natAbs < 10 ^ 18 ∧ Readable n

theorem zeros_of_no_digits {s} (h : (significand (countedDigits s)).digits = 0) :
    (significand (countedDigits s)).zeros = s.fraction.length := by
  have hwhole : countedWhole s.whole = [] := by
    rcases s.whole_ok with hzero | ⟨d, ds, hd, hds⟩
    · rw [countedWhole, if_pos hzero]
    · rw [countedDigits, countedWhole, if_neg (by rw [hds]; exact fun heq => hd (List.cons.inj heq).1), hds] at h
      have hmono := significand_digits_mono [d] (ds ++ s.fraction)
      have hpush : (significand [d]).digits = d := by simp [significand, Significand.push, hd]
      have hd' : d.val ≠ 0 := fun h0 => hd (Fin.ext h0)
      rw [hpush, ← append_assoc] at hmono
      simp only [cons_append, nil_append] at hmono h
      omega
  rw [significand_zeros h, countedDigits, hwhole, nil_append]

theorem parseFixedPoint_zero {s} (h : (significand (countedDigits s)).digits = 0) :
    parseFixedPoint s.text 8 = some 0 ↔ -8 ≤ s.exponentValue ∧ s.exponentValue < 10 := by
  have hexponent : s.exponentValue - s.fraction.length + s.fraction.length + (8 : Nat) = s.exponentValue + 8 := by omega
  rw [parseFixedPoint_text, ite_none_right_eq_some, zeros_of_no_digits h, hexponent, h]
  simp only [Nat.cast_zero, neg_zero, ite_self]
  constructor
  · rintro ⟨-, hfixed⟩
    obtain ⟨hnonneg, hlt, -⟩ := toFixedPoint_eq_some hfixed
    omega
  · rintro ⟨hlo, hhi⟩
    refine ⟨⟨by omega, by omega⟩, ?_⟩
    have hfixed := @toFixedPoint_of_le 0 (s.exponentValue + 8).toNat (by omega) (by omega)
    rw [Int.toNat_of_nonneg (by omega), Nat.zero_mul] at hfixed
    exact hfixed

theorem exists_zeros {s : JsonNumber} {n : Int} (hvalue : s.value * 10 ^ 8 = n) (hn : 0 < n) :
    s.negative = false ∧ ∃ e : Nat, s.exponentValue - s.fraction.length + (significand (countedDigits s)).zeros + (8 : Nat) = e ∧
      n = ((significand (countedDigits s)).digits * 10 ^ e : Nat) := by
  have hmul := value_mul_pow s 8
  rw [hvalue] at hmul
  generalize s.exponentValue - s.fraction.length + (significand (countedDigits s)).zeros + (8 : Nat) = x at hmul ⊢
  have hpos : (0 : ℚ) < 10 ^ x := zpow_pos (by norm_num) x
  have hnq : (0 : ℚ) < n := by exact_mod_cast hn
  have hnegative : s.negative = false := by
    by_contra h
    rw [Bool.not_eq_false] at h
    rw [h, if_pos rfl] at hmul
    have hdigits : (0 : ℚ) ≤ (significand (countedDigits s)).digits := by positivity
    nlinarith [mul_nonneg hdigits hpos.le]
  rw [hnegative, if_neg (by decide), one_mul] at hmul
  refine ⟨hnegative, ?_⟩
  cases x with
  | ofNat e =>
    rw [Int.ofNat_eq_natCast, zpow_natCast] at hmul
    exact ⟨e, rfl, by exact_mod_cast hmul⟩
  | negSucc k =>
    -- a negative scale would leave a zero at the end of the significant digits
    rw [zpow_negSucc, eq_mul_inv_iff_mul_eq₀ (by positivity)] at hmul
    have hmul' : n * 10 ^ (k + 1) = (significand (countedDigits s)).digits := by exact_mod_cast hmul
    rcases significand_mod (countedDigits s) with h0 | hmod
    · rw [h0, Nat.cast_zero, mul_eq_zero] at hmul'
      rcases hmul' with h | h
      · omega
      · exact absurd h (by positivity)
    · rw [pow_succ, ← mul_assoc] at hmul'
      omega

theorem parseFixedPoint_iff {s : JsonNumber} {n : Int} (hvalue : s.value * 10 ^ 8 = n) (hnonneg : 0 ≤ n) (hn : n ≤ MAX_MONEY.toInt) :
    parseFixedPoint s.text 8 = some n ↔ ReadableAs s n := by
  have hmax : MAX_MONEY.toInt = 2100000000000000000 := by decide
  rcases hnonneg.eq_or_lt with rfl | hpos
  · have hdigits : (significand (countedDigits s)).digits = 0 := by
      have hmul := value_mul_pow s 8
      rw [hvalue, Int.cast_zero, eq_comm, mul_eq_zero, mul_eq_zero] at hmul
      rcases hmul with (hsign | hzero) | hpow
      · split at hsign <;> norm_num at hsign
      · exact_mod_cast hzero
      · exact absurd hpow (zpow_ne_zero _ (by norm_num))
    rw [ReadableAs, if_pos rfl]
    exact parseFixedPoint_zero hdigits
  · obtain ⟨hnegative, e, he, rfl⟩ := exists_zeros hvalue hpos
    have hle : (significand (countedDigits s)).digits * 10 ^ e ≤ 2100000000000000000 := by omega
    have hmod : (significand (countedDigits s)).digits % 10 ≠ 0 := by
      refine (significand_mod _).resolve_left fun h0 => ?_
      rw [h0, Nat.zero_mul] at hpos
      exact absurd hpos (by decide)
    rw [ReadableAs, if_neg (ne_of_gt hpos), ← readable_iff hmod hle, parseFixedPoint_text, ite_none_right_eq_some, he, hnegative]
    simp only [test_iff]
    constructor
    · rintro ⟨⟨hdigits, hexponent⟩, hfixed⟩
      obtain ⟨-, hlt, -⟩ := toFixedPoint_eq_some hfixed
      exact ⟨hexponent, hdigits, by omega⟩
    · rintro ⟨hexponent, hdigits, hlt⟩
      exact ⟨⟨hdigits, hexponent⟩, toFixedPoint_of_le hlt hle⟩

def amountNumber (n : Nat) : JsonNumber := ⟨false, decimal (n / 100000000), decimal_ok _, padded 8 (n % 100000000), none⟩

theorem amountNumber_value (n : Nat) : (amountNumber n).value * 10 ^ 8 = n := by
  have hdigits : value ((amountNumber n).whole ++ (amountNumber n).fraction) = n := by
    simp only [amountNumber, value_append, value_decimal, length_padded]
    rw [value_padded (show n % 100000000 < 10 ^ 8 from Nat.mod_lt _ (by decide))]
    exact Nat.div_add_mod' n 100000000
  rw [JsonNumber.value, hdigits]
  have hscale : (amountNumber n).exponentValue - (amountNumber n).fraction.length = -(8 : Nat) := by
    simp [amountNumber, JsonNumber.exponentValue]
  rw [hscale, zpow_neg, zpow_natCast]
  simp [amountNumber]

theorem valueFromAmountString_eq {n} (h : 0 ≤ n) : valueFromAmountString n 8 = (amountNumber n.toInt.natAbs).text := by
  have hfraction : (amountNumber n.toInt.natAbs).fraction ≠ [] := by
    intro h0
    have hlength := congrArg List.length h0
    rw [amountNumber, length_padded] at hlength
    cases hlength
  have hsign : ¬ n < 0 := by
    rw [Int64.lt_iff_toInt_lt]
    exact not_lt.mpr (Int64.le_iff_toInt_le.mp h)
  rw [valueFromAmountString, JsonNumber.text, if_neg hfraction]
  simp [hsign, amountNumber]

theorem amountFromValue_valueFromAmount {n : CAmount} (hn : moneyRange n = true) :
    amountFromValue (valueFromAmount n) true = .ok n ↔ Readable n.toInt := by
  simp only [moneyRange, test_iff] at hn
  have hnonneg : 0 ≤ n.toInt := Int64.le_iff_toInt_le.mp hn.1
  have habs : (n.toInt.natAbs : Int) = n.toInt := Int.natAbs_of_nonneg hnonneg
  have hvalue : (amountNumber n.toInt.natAbs).value * 10 ^ 8 = n.toInt := by
    rw [amountNumber_value, ← habs]
    rfl
  have hparse := parseFixedPoint_iff hvalue hnonneg (Int64.le_iff_toInt_le.mp hn.2)
  have hexponent : (-8 ≤ (amountNumber n.toInt.natAbs).exponentValue ∧ (amountNumber n.toInt.natAbs).exponentValue < 10) ∧
      (amountNumber n.toInt.natAbs).exponentValue.natAbs < 10 ^ 18 := by
    rw [show (amountNumber n.toInt.natAbs).exponentValue = 0 from rfl]
    decide
  have hreadable : ReadableAs (amountNumber n.toInt.natAbs) n.toInt ↔ Readable n.toInt := by
    rw [ReadableAs]
    split
    · rename_i h0
      exact iff_of_true hexponent.1 (Or.inl (by rw [h0]; norm_num))
    · exact and_iff_right hexponent.2
  rw [← hreadable, ← hparse]
  simp only [amountFromValue, valueFromAmount, valueFromAmountString_eq hn.1, ok_iff]
  constructor
  · rintro ⟨-, a, ha, -, -⟩
    have heq := parseFixedPoint_value ha
    rw [hvalue] at heq
    rw [ha, show n.toInt = a from by exact_mod_cast heq]
  · intro h
    exact ⟨rfl, n.toInt, h, by simp [moneyRange, hn], Int64.ofInt_toInt n⟩

/-- What the parser accepts it reads exactly; of the amounts in the money range it accepts the readable ones. -/
theorem amounts_read_exactly_iff (val : Bytes) (s : JsonNumber) (n : CAmount) :
    (∀ amount, parseFixedPoint val 8 = some amount → ∃ s : JsonNumber, s.text = val ∧ s.value * 10 ^ 8 = amount) ∧
    (∀ m : Int, s.value * 10 ^ 8 = m → 0 ≤ m → m ≤ MAX_MONEY.toInt → (parseFixedPoint s.text 8 = some m ↔ ReadableAs s m)) ∧
    (moneyRange n = true → (amountFromValue (valueFromAmount n) true = .ok n ↔ Readable n.toInt)) := by
  refine ⟨fun amount h => ?_, fun m hvalue hnonneg hm => parseFixedPoint_iff hvalue hnonneg hm, amountFromValue_valueFromAmount⟩
  obtain ⟨s, rfl⟩ := exists_number_of_parse h
  exact ⟨s, rfl, parseFixedPoint_value h⟩

def tenBillion : JsonNumber := ⟨false, [1, 0, 0, 0, 0, 0, 0, 0, 0, 0, 0], Or.inr ⟨1, _, by decide, rfl⟩, [], none⟩

/-- Eighteen zeros are too many for the parser, and nineteen digits too. -/
theorem large_amounts_refused :
    tenBillion.text = ascii "10000000000" ∧ tenBillion.value * 10 ^ 8 = (1000000000000000000 : Int) ∧
      moneyRange 1000000000000000000 = true ∧ parseFixedPoint tenBillion.text 8 = none ∧
      amountFromValue (valueFromAmount 1000000000000000000) true ≠ .ok 1000000000000000000 ∧
      parseFixedPoint (ascii "20999999999.99999999") 8 = none ∧ parseFixedPoint (ascii "0e10") 8 = none := by
  have hrange : moneyRange 1000000000000000000 = true := by decide
  have hdigits : value (tenBillion.whole ++ tenBillion.fraction) = 10000000000 := by decide
  refine ⟨by decide, ?_, hrange, by decide +kernel, fun h => ?_, by decide +kernel, by decide +kernel⟩
  · rw [JsonNumber.value, hdigits]
    norm_num [tenBillion, JsonNumber.exponentValue]
  · rcases (amountFromValue_valueFromAmount hrange).mp h with hlt | ⟨-, hne, -⟩
    · exact absurd hlt (by decide)
    · exact hne (by decide)

/-- An amount beyond eighteen digits is read, also through a round trip. -/
theorem round_amount_read :
    parseFixedPoint (ascii "20999999999.9999999") 8 = some 2099999999999999990 ∧
      amountFromValue (valueFromAmount 2099999999999999990) true = .ok 2099999999999999990 :=
  ⟨by decide +kernel, ((amounts_read_exactly_iff [] tenBillion _).2.2 (by decide)).mpr (Or.inr (by decide))⟩

end Hivecoin

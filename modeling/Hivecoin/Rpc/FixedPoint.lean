import Hivecoin.Assets.Types
import Hivecoin.Base.Decimal

/-!
# Amounts as text

`ParseFixedPoint` of `utilstrencodings.cpp`. Its tests keep mantissa and exponent within 64 bits, so both are integers here.
-/

namespace Hivecoin

open Decimal List Option Exponent

variable {rest s : Bytes} {st : MantissaState}

/-! ## The parser -/

def UPPER_BOUND : Int := 1000000000000000000 - 1

def isDecimalDigit (c : UInt8) : Bool := 48 ≤ c && c ≤ 57

/-- The loops that multiply by ten, with the test made before each turn. -/
def multiplyByTen (fits : Int → Bool) : Nat → Int → Option Int
  | 0, mantissa => some mantissa
  | n + 1, mantissa => if fits mantissa then multiplyByTen fits n (mantissa * 10) else none

structure MantissaState where
  mantissa : Int := 0
  mantissa_tzeros : Nat := 0
deriving DecidableEq

def processMantissaDigit (st : MantissaState) (ch : UInt8) : Option MantissaState :=
  if ch = 48 then some { st with mantissa_tzeros := st.mantissa_tzeros + 1 }
  else (multiplyByTen (fun mantissa => mantissa ≤ UPPER_BOUND / 10) (st.mantissa_tzeros + 1) st.mantissa).map fun mantissa =>
    ⟨mantissa + (ch.toNat - 48 : Nat), 0⟩

/-- The loop over digits of the mantissa, with the rest of the text. -/
def readMantissa (st : MantissaState) (s : Bytes) : Option (MantissaState × Bytes) :=
  ((s.takeWhile isDecimalDigit).foldlM processMantissaDigit st).map fun st => (st, s.dropWhile isDecimalDigit)

/-- The digits before the point: a zero or a number without leading zeros. -/
def readWhole (s : Bytes) : Option (MantissaState × Bytes) :=
  match s with
  | [] => none
  | c :: rest => if c = 48 then some ({}, rest) else if isDecimalDigit c then readMantissa {} s else none

/-- The digits after the point, with `point_ofs`. -/
def readFraction (st : MantissaState) (s : Bytes) : Option (MantissaState × Nat × Bytes) :=
  if s.head? = some 46 then
    if s.tail.head?.any isDecimalDigit then
      (readMantissa st s.tail).map fun r => (r.1, (s.tail.takeWhile isDecimalDigit).length, r.2)
    else none
  else some (st, 0, s)

def addExponentDigit (exponent : Int) (ch : UInt8) : Option Int :=
  if exponent > UPPER_BOUND / 10 then none else some (exponent * 10 + (ch.toNat - 48 : Nat))

def readSign (s : Bytes) : Bool × Bytes :=
  if s.head? = some 43 then (false, s.tail) else if s.head? = some 45 then (true, s.tail) else (false, s)

def readExponent (s : Bytes) : Option (Int × Bytes) :=
  if s.head? = some 101 ∨ s.head? = some 69 then
    let (exponent_sign, rest) := readSign s.tail
    if rest.head?.any isDecimalDigit then
      ((rest.takeWhile isDecimalDigit).foldlM addExponentDigit 0).map fun exponent =>
        (if exponent_sign then -exponent else exponent, rest.dropWhile isDecimalDigit)
    else none
  else some (0, s)

def toFixedPoint (mantissa exponent : Int) : Option Int :=
  if exponent < 0 then none
  else if exponent ≥ 18 then none
  else do
    let mantissa ← multiplyByTen (fun mantissa => mantissa ≤ 420000000000000000 && -(UPPER_BOUND / 10) ≤ mantissa)
      exponent.toNat mantissa
    if mantissa > 4200000000000000000 ∨ mantissa < -UPPER_BOUND then none else some mantissa

def parseFixedPoint (val : Bytes) (decimals : Nat) : Option Int := do
  let mantissa_sign := val.head? = some 45
  let (st, s) ← readWhole (if mantissa_sign then val.tail else val)
  let (st, point_ofs, s) ← readFraction st s
  let (exponent, s) ← readExponent s
  if s ≠ [] then none
  else
    toFixedPoint (if mantissa_sign then -st.mantissa else st.mantissa)
      (exponent - point_ofs + st.mantissa_tzeros + decimals)

/-! ## What each reader does -/

theorem multiplyByTen_eq (fits : Int → Bool) (n : Nat) (m : Int) :
    multiplyByTen fits n m = if ∀ i < n, fits (m * 10 ^ i) = true then some (m * 10 ^ n) else none := by
  induction n generalizing m with
  | zero => simp [multiplyByTen]
  | succ n ih =>
    have hsplit : (∀ i < n + 1, fits (m * 10 ^ i) = true) ↔ fits m = true ∧ ∀ i < n, fits (m * 10 * 10 ^ i) = true := by
      rw [Nat.forall_lt_succ_left]
      simp only [pow_zero, mul_one, pow_succ']
      simp only [mul_assoc]
    simp only [multiplyByTen, ih, hsplit, pow_succ', mul_assoc]
    by_cases hm : fits m = true
    · simp [hm]
    · simp [hm]

/-- The state of the loop that has read digits with this significant part. -/
def MantissaState.of (s : Significand) : MantissaState := ⟨s.digits, s.zeros⟩

theorem processMantissaDigit_eq {s} (hs : s.digits < 10 ^ 18) (d : Digit) :
    processMantissaDigit (.of s) (digitChar d) = if (s.push d).digits < 10 ^ 18 then some (.of (s.push d)) else none := by
  rw [processMantissaDigit, Significand.push]
  simp only [MantissaState.of]
  by_cases hd : d = 0
  · rw [if_pos ((digitChar_eq_zero d).mpr hd), if_pos hd, if_pos hs]
  · rw [if_neg (mt (digitChar_eq_zero d).mp hd), if_neg hd, multiplyByTen_eq, digitChar_toNat]
    -- the last of the tests is the strongest
    have hlast : (∀ i < s.zeros + 1, decide ((s.digits : Int) * 10 ^ i ≤ UPPER_BOUND / 10) = true) ↔
        s.digits * 10 ^ s.zeros ≤ 99999999999999999 := by
      have hbound : ∀ i, (decide ((s.digits : Int) * 10 ^ i ≤ UPPER_BOUND / 10) = true) ↔ s.digits * 10 ^ i ≤ 99999999999999999 := by
        intro i
        rw [decide_eq_true_eq, show UPPER_BOUND / 10 = ((99999999999999999 : Nat) : Int) from rfl]
        norm_cast
      simp only [hbound]
      refine ⟨fun h => h _ (Nat.lt_succ_self _), fun h i hi => le_trans ?_ h⟩
      exact Nat.mul_le_mul_left _ (Nat.pow_le_pow_right (by omega) (by omega))
    have hdigit := d.isLt
    have hfits : s.digits * 10 ^ s.zeros ≤ 99999999999999999 ↔ s.digits * 10 ^ (s.zeros + 1) + d < 10 ^ 18 := by
      rw [pow_succ, ← mul_assoc]
      omega
    simp only [Nat.add_sub_cancel_left]
    by_cases hlt : s.digits * 10 ^ (s.zeros + 1) + d < 10 ^ 18
    · rw [if_pos (hlast.mpr (hfits.mpr hlt)), if_pos hlt]
      simp
    · rw [if_neg (fun h => hlt (hfits.mp (hlast.mp h))), if_neg hlt]
      rfl

theorem foldlM_processMantissaDigit (ds : List Digit) :
    (ds.map digitChar).foldlM processMantissaDigit {} =
      if (significand ds).digits < 10 ^ 18 then some (MantissaState.of (significand ds)) else none := by
  induction ds using List.reverseRecOn with
  | nil => rfl
  | append_singleton ds d ih =>
    rw [List.map_append, List.foldlM_append, ih, significand_concat]
    have hle := Significand.digits_le_push (significand ds) d
    by_cases hs : (significand ds).digits < 10 ^ 18
    · rw [if_pos hs]
      simp only [List.map_cons, List.map_nil, List.foldlM_cons, List.foldlM_nil, Option.bind_eq_bind, Option.bind_some,
        processMantissaDigit_eq hs, Option.pure_def, Option.bind_fun_some]
    · rw [if_neg hs, if_neg (by omega)]
      rfl

theorem isDecimalDigit_digitChar (d : Digit) : isDecimalDigit (digitChar d) = true := by decide +revert

def Stops (rest : Bytes) : Prop := rest.head?.any isDecimalDigit = false

theorem takeWhile_digits {rest} (h : Stops rest) (ds : List Digit) :
    (ds.map digitChar ++ rest).takeWhile isDecimalDigit = ds.map digitChar := by
  have hds : ∀ c ∈ ds.map digitChar, isDecimalDigit c = true := by
    intro c hc
    obtain ⟨d, -, rfl⟩ := mem_map.mp hc
    exact isDecimalDigit_digitChar d
  rw [takeWhile_append_of_pos hds]
  cases rest with
  | nil => simp
  | cons c rest => simp [show isDecimalDigit c = false from h]

theorem dropWhile_digits {rest} (h : Stops rest) (ds : List Digit) :
    (ds.map digitChar ++ rest).dropWhile isDecimalDigit = rest := by
  have hsplit := takeWhile_append_dropWhile (p := isDecimalDigit) (l := ds.map digitChar ++ rest)
  rw [takeWhile_digits h] at hsplit
  exact append_cancel_left hsplit

theorem readMantissa_digits {ds} (hds : (significand ds).digits < 10 ^ 18) (es : List Digit) {rest}
    (h : Stops rest) :
    readMantissa (.of (significand ds)) (es.map digitChar ++ rest) =
      if (significand (ds ++ es)).digits < 10 ^ 18 then some (.of (significand (ds ++ es)), rest) else none := by
  have hfold := foldlM_processMantissaDigit (ds ++ es)
  rw [map_append, foldlM_append, foldlM_processMantissaDigit, if_pos hds, bind_eq_bind, bind_some] at hfold
  rw [readMantissa, takeWhile_digits h, dropWhile_digits h, hfold]
  split
  · rfl
  · rfl

/-- The counted digits: a single zero before the point is passed over. -/
def countedWhole (whole : List Digit) : List Digit := if whole = [0] then [] else whole

theorem readWhole_digits {whole} (hwhole : whole = [0] ∨ ∃ d ds, d ≠ 0 ∧ whole = d :: ds) (h : Stops rest) :
    readWhole (whole.map digitChar ++ rest) =
      if (significand (countedWhole whole)).digits < 10 ^ 18 then some (.of (significand (countedWhole whole)), rest) else none := by
  rcases hwhole with rfl | ⟨d, ds, hd, rfl⟩
  · rfl
  · have hne : d :: ds ≠ [0] := fun heq => hd (List.cons.inj heq).1
    have hread := @readMantissa_digits [] (by decide) (d :: ds) _ h
    rw [nil_append, map_cons, cons_append] at hread
    rw [countedWhole, if_neg hne, map_cons, cons_append, readWhole]
    simp only [mt (digitChar_eq_zero d).mp hd, if_false, isDecimalDigit_digitChar, if_true]
    exact hread

theorem readFraction_digits {ds} (hds : (significand ds).digits < 10 ^ 18) (fraction : List Digit) (h : Stops rest)
    (hpoint : rest.head? ≠ some 46) :
    readFraction (.of (significand ds)) ((if fraction = [] then [] else 46 :: fraction.map digitChar) ++ rest) =
      if (significand (ds ++ fraction)).digits < 10 ^ 18 then some (.of (significand (ds ++ fraction)), fraction.length, rest)
      else none := by
  cases fraction with
  | nil =>
    rw [append_nil, if_pos hds]
    simp [readFraction, hpoint]
  | cons d fraction =>
    have hread := readMantissa_digits hds (d :: fraction) h
    have htake := takeWhile_digits h (d :: fraction)
    simp only [map_cons, cons_append] at hread htake
    simp only [readFraction, reduceCtorEq, if_false, map_cons, cons_append, List.head?_cons, tail_cons, if_true,
      any_some, isDecimalDigit_digitChar, hread, htake]
    split
    · simp
    · rfl

theorem foldlM_addExponentDigit (ds : List Digit) :
    (ds.map digitChar).foldlM addExponentDigit 0 = if value ds < 10 ^ 18 then some (value ds : Int) else none := by
  induction ds using List.reverseRecOn with
  | nil => rfl
  | append_singleton ds d ih =>
    have hdigit := d.isLt
    rw [map_append, foldlM_append, ih, value_concat]
    by_cases hs : value ds < 10 ^ 18
    · rw [if_pos hs]
      simp only [map_cons, map_nil, foldlM_cons, foldlM_nil, bind_eq_bind, bind_some,
        addExponentDigit, digitChar_toNat, Nat.add_sub_cancel_left, UPPER_BOUND]
      by_cases hlt : 10 * value ds + d < 10 ^ 18
      · rw [if_pos hlt, if_neg (by omega)]
        simp [mul_comm]
      · rw [if_neg hlt, if_pos (by omega)]
        rfl
    · rw [if_neg hs, if_neg (by omega)]
      rfl

theorem readSign_text (sign : Option Bool) {digits} (hne : digits ≠ []) :
    readSign ((match sign with | none => [] | some false => [43] | some true => [45]) ++ digits.map digitChar) =
      (decide (sign = some true), digits.map digitChar) := by
  obtain ⟨d, ds, rfl⟩ := exists_cons_of_ne_nil hne
  match sign with
  | none =>
    have hsign : ∀ d : Digit, digitChar d ≠ 43 ∧ digitChar d ≠ 45 := by decide
    simp [readSign, hsign d]
  | some false => simp [readSign]
  | some true => simp [readSign]

theorem readExponent_text (exponent : Option Exponent) :
    readExponent (exponent.elim [] Exponent.text) =
      if (exponent.elim 0 toInt).natAbs < 10 ^ 18 then some (exponent.elim 0 toInt, []) else none := by
  cases exponent with
  | none => rfl
  | some e =>
    have hhead : e.text.head? = some 101 ∨ e.text.head? = some 69 := by
      simp only [Exponent.text, List.head?_cons]
      cases e.capital
      · exact Or.inl rfl
      · exact Or.inr rfl
    have htake := @takeWhile_digits [] rfl e.digits
    have hdrop := @dropWhile_digits [] rfl e.digits
    rw [append_nil] at htake hdrop
    have hany : (e.digits.map digitChar).head?.any isDecimalDigit = true := by
      obtain ⟨d, ds, hds⟩ := exists_cons_of_ne_nil e.digits_ne
      simp [hds, isDecimalDigit_digitChar]
    have habs : e.toInt.natAbs = value e.digits := by
      rw [toInt]
      split <;> simp
    have htail : readSign e.text.tail = (decide (e.sign = some true), e.digits.map digitChar) := readSign_text e.sign e.digits_ne
    simp only [elim_some, readExponent, hhead, if_true, htail, hany, htake, hdrop, foldlM_addExponentDigit, habs]
    by_cases hlt : value e.digits < 10 ^ 18
    · rw [if_pos hlt, if_pos hlt]
      simp [toInt]
    · rw [if_neg hlt, if_neg hlt]
      rfl

def countedDigits (s : JsonNumber) : List Digit := countedWhole s.whole ++ s.fraction

theorem value_countedDigits (s : JsonNumber) : value (countedDigits s) = value (s.whole ++ s.fraction) := by
  rw [countedDigits, countedWhole]
  split
  · rename_i h
    rw [h, value_append [0]]
    simp [value]
  · rfl

theorem stops_exponent (exponent : Option Exponent) :
    Stops (exponent.elim [] Exponent.text) ∧ (exponent.elim [] Exponent.text).head? ≠ some 46 := by
  cases exponent with
  | none => exact ⟨rfl, by simp⟩
  | some e =>
    simp only [elim_some, Stops, Exponent.text, List.head?_cons, any_some]
    cases e.capital
    · exact ⟨rfl, by simp⟩
    · exact ⟨rfl, by simp⟩

theorem parseFixedPoint_text (s : JsonNumber) (decimals : Nat) :
    parseFixedPoint s.text decimals =
      if (significand (countedDigits s)).digits < 10 ^ 18 ∧ s.exponentValue.natAbs < 10 ^ 18 then
        toFixedPoint (if s.negative then -(significand (countedDigits s)).digits else (significand (countedDigits s)).digits)
          (s.exponentValue - s.fraction.length + (significand (countedDigits s)).zeros + decimals)
      else none := by
  obtain ⟨hstops, hpoint⟩ := stops_exponent s.exponent
  have hfraction : Stops ((if s.fraction = [] then [] else 46 :: s.fraction.map digitChar) ++ s.exponent.elim [] Exponent.text) := by
    split
    · exact hstops
    · rfl
  have hhead : ∀ rest, (s.whole.map digitChar ++ rest).head? ≠ some 45 := by
    intro rest hhead
    have hdigit : ∀ d : Digit, digitChar d ≠ 45 := by decide
    rcases s.whole_ok with h | ⟨d, ds, -, h⟩
    · rw [h] at hhead
      exact hdigit 0 (Option.some.inj hhead)
    · rw [h] at hhead
      exact hdigit d (Option.some.inj hhead)
  have hsign : (s.text.head? = some 45 ↔ s.negative = true) ∧ (if s.text.head? = some 45 then s.text.tail else s.text) =
      s.whole.map digitChar ++ ((if s.fraction = [] then [] else 46 :: s.fraction.map digitChar) ++ s.exponent.elim [] Exponent.text) := by
    rw [JsonNumber.text]
    cases s.negative with
    | false =>
      simp only [Bool.false_eq_true, if_false, nil_append]
      exact ⟨iff_of_false (hhead _) not_false, if_neg (hhead _)⟩
    | true => simp
  rw [parseFixedPoint, hsign.2, readWhole_digits s.whole_ok hfraction]
  have hmono := significand_digits_mono (countedWhole s.whole) s.fraction
  by_cases hwhole : (significand (countedWhole s.whole)).digits < 10 ^ 18
  · rw [if_pos hwhole]
    simp only [bind_eq_bind, bind_some, readFraction_digits hwhole s.fraction hstops hpoint]
    by_cases hdigits : (significand (countedWhole s.whole ++ s.fraction)).digits < 10 ^ 18
    · rw [if_pos hdigits]
      simp only [bind_some, readExponent_text]
      by_cases hexponent : (s.exponent.elim 0 toInt).natAbs < 10 ^ 18
      · refine Eq.trans ?_ (if_pos ⟨hdigits, hexponent⟩).symm
        rw [if_pos hexponent]
        simp only [bind_some, ne_eq, not_true_eq_false, if_false, hsign.1]
        rfl
      · refine Eq.trans ?_ (if_neg fun h => hexponent h.2).symm
        rw [if_neg hexponent]
        rfl
    · rw [if_neg hdigits, if_neg (fun h => hdigits h.1)]
      rfl
  · rw [if_neg hwhole, if_neg (fun h => hwhole (lt_of_le_of_lt hmono h.1))]
    rfl

theorem exists_digits (s : Bytes) : ∃ ds : List Digit, s.takeWhile isDecimalDigit = ds.map digitChar := by
  induction s with
  | nil => exact ⟨[], rfl⟩
  | cons c s ih =>
    by_cases hc : isDecimalDigit c = true
    · obtain ⟨ds, hds⟩ := ih
      obtain ⟨d, rfl⟩ := exists_digitChar (c := c) (by simpa [isDecimalDigit] using hc)
      exact ⟨d :: ds, by rw [takeWhile_cons_of_pos hc, hds, map_cons]⟩
    · exact ⟨[], by rw [takeWhile_cons_of_neg hc, map_nil]⟩

theorem readMantissa_split {st'} (h : readMantissa st s = some (st', rest)) :
    ∃ ds : List Digit, s.takeWhile isDecimalDigit = ds.map digitChar ∧ s = ds.map digitChar ++ rest := by
  obtain ⟨ds, hds⟩ := exists_digits s
  simp only [readMantissa, map_eq_some_iff, Prod.mk.injEq] at h
  obtain ⟨_, -, -, rfl⟩ := h
  exact ⟨ds, hds, by rw [← hds, takeWhile_append_dropWhile]⟩

theorem readWhole_split (h : readWhole s = some (st, rest)) :
    ∃ whole : List Digit, (whole = [0] ∨ ∃ d ds, d ≠ 0 ∧ whole = d :: ds) ∧ s = whole.map digitChar ++ rest := by
  cases s with
  | nil => cases h
  | cons c s =>
    rw [readWhole] at h
    split at h
    · rename_i hc
      cases h
      exact ⟨[0], Or.inl rfl, by rw [hc]; rfl⟩
    · rename_i hc
      split at h
      · rename_i hdigit
        obtain ⟨ds, htake, hs⟩ := readMantissa_split h
        rw [takeWhile_cons_of_pos hdigit] at htake
        cases ds with
        | nil => cases htake
        | cons d ds =>
          refine ⟨d :: ds, Or.inr ⟨d, ds, fun hd => hc ?_, rfl⟩, hs⟩
          rw [(List.cons.inj htake).1, hd]
          rfl
      · cases h

theorem readFraction_split {st' point_ofs} (h : readFraction st s = some (st', point_ofs, rest)) :
    ∃ fraction : List Digit, s = (if fraction = [] then [] else 46 :: fraction.map digitChar) ++ rest := by
  rw [readFraction] at h
  split at h
  · rename_i hpoint
    obtain ⟨s, rfl⟩ : ∃ t, s = 46 :: t := by
      cases s with
      | nil => cases hpoint
      | cons c t => exact ⟨t, by rw [Option.some.inj hpoint]⟩
    split at h
    · rename_i hdigit
      simp only [map_eq_some_iff, tail_cons, Prod.mk.injEq] at h
      obtain ⟨r, hr, -, -, rfl⟩ := h
      obtain ⟨ds, htake, hs⟩ := readMantissa_split hr
      refine ⟨ds, ?_⟩
      have hne : ds ≠ [] := by
        rintro rfl
        cases s with
        | nil => cases hdigit
        | cons c s => rw [takeWhile_cons_of_pos (by simpa using hdigit)] at htake; cases htake
      rw [if_neg hne, cons_append, ← hs]
    · cases h
  · cases h
    exact ⟨[], rfl⟩

theorem readSign_split (s : Bytes) :
    ∃ sign : Option Bool, s = (match sign with | none => [] | some false => [43] | some true => [45]) ++ (readSign s).2 := by
  rw [readSign]
  cases s with
  | nil => exact ⟨none, rfl⟩
  | cons c s =>
    split
    · rename_i hc
      exact ⟨some false, by rw [Option.some.inj hc]; rfl⟩
    · split
      · rename_i hc
        exact ⟨some true, by rw [Option.some.inj hc]; rfl⟩
      · exact ⟨none, rfl⟩

theorem readExponent_split {x} (h : readExponent s = some (x, rest)) :
    ∃ exponent : Option Exponent, s = exponent.elim [] Exponent.text ++ rest := by
  rw [readExponent] at h
  split at h
  · rename_i hhead
    obtain ⟨capital, t, rfl⟩ : ∃ (capital : Bool) (t : Bytes), s = (if capital then 69 else 101) :: t := by
      cases s with
      | nil => rcases hhead with h | h <;> cases h
      | cons c t =>
        rcases hhead with h | h
        · exact ⟨false, t, by rw [Option.some.inj h]; rfl⟩
        · exact ⟨true, t, by rw [Option.some.inj h]; rfl⟩
    obtain ⟨sign, hsign⟩ := readSign_split t
    by_cases hdigit : (readSign t).2.head?.any isDecimalDigit = true
    · simp only [tail_cons, hdigit, if_true, map_eq_some_iff, Prod.mk.injEq] at h
      obtain ⟨_, -, -, rfl⟩ := h
      obtain ⟨ds, hds⟩ := exists_digits (readSign t).2
      have hne : ds ≠ [] := by
        rintro rfl
        cases hrest : (readSign t).2 with
        | nil => rw [hrest] at hdigit; cases hdigit
        | cons c r =>
          rw [hrest] at hds hdigit
          rw [takeWhile_cons_of_pos (by simpa using hdigit)] at hds
          cases hds
      refine ⟨some ⟨capital, sign, ds, hne⟩, ?_⟩
      rw [elim_some, Exponent.text, ← hds, cons_append, append_assoc, takeWhile_append_dropWhile]
      exact congrArg _ hsign
    · simp [hdigit] at h
  · cases h
    exact ⟨none, rfl⟩

theorem exists_number_of_parse {val decimals amount} (h : parseFixedPoint val decimals = some amount) :
    ∃ s : JsonNumber, s.text = val := by
  simp only [parseFixedPoint, bind_eq_bind, bind_eq_some_iff] at h
  obtain ⟨⟨st, s1⟩, hwhole, ⟨st', point_ofs, s2⟩, hfraction, ⟨x, s3⟩, hexponent, hend⟩ := h
  obtain ⟨whole, hok, hs⟩ := readWhole_split hwhole
  obtain ⟨fraction, hs1⟩ := readFraction_split hfraction
  obtain ⟨exponent, hs2⟩ := readExponent_split hexponent
  have hs3 : s3 = [] := by
    by_contra hne
    simp [hne] at hend
  rw [hs3, append_nil] at hs2
  refine ⟨⟨decide (val.head? = some 45), whole, hok, fraction, exponent⟩, ?_⟩
  simp only [JsonNumber.text, ← hs2, ← hs1, ← hs, decide_eq_true_eq]
  cases val with
  | nil => rfl
  | cons c val =>
    by_cases hc : c = 45
    · simp [hc]
    · simp [hc]

end Hivecoin

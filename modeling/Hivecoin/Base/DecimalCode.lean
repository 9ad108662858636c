import Mathlib.Algebra.Order.Group.Nat
import Mathlib.Tactic.Ring

/-!
# A code for round numbers
-/

namespace DecimalCode

/-- Takes at most `k` zeros off the end of a number, and counts them. -/
def strip : Nat → Nat → Nat × Nat
  | 0, n => (n, 0)
  | k + 1, n => if n % 10 = 0 then ((strip k (n / 10)).1, (strip k (n / 10)).2 + 1) else (n, 0)

/-- The code of `m * 10 ^ e`. -/
def pack (m e : Nat) : Nat := if e < 9 then 1 + (m / 10 * 9 + m % 10 - 1) * 10 + e else 1 + (m - 1) * 10 + 9

def encode (n : Nat) : Nat := if n = 0 then 0 else pack (strip 9 n).1 (strip 9 n).2

def decode (x : Nat) : Nat :=
  if x = 0 then 0
  else
    let e := (x - 1) % 10
    let y := (x - 1) / 10
    (if e < 9 then y / 9 * 10 + (y % 9 + 1) else y + 1) * 10 ^ e

/-- `m` is what is left of a number with `e` zeros taken off, of at most `k`. -/
structure Stripped (k m e : Nat) : Prop where
  pos : 0 < m
  le : e ≤ k
  last : e < k → m % 10 ≠ 0

theorem strip_spec {n} (hn : 0 < n) (k : Nat) :
    (strip k n).1 * 10 ^ (strip k n).2 = n ∧ Stripped k (strip k n).1 (strip k n).2 := by
  induction k generalizing n with
  | zero => exact ⟨by simp [strip], ⟨hn, le_refl _, by simp [strip]⟩⟩
  | succ k ih =>
    unfold strip
    split
    · rename_i h10
      obtain ⟨hmul, hs⟩ := ih (show 0 < n / 10 by omega)
      refine ⟨?_, hs.pos, Nat.succ_le_succ hs.le, fun h => hs.last (by simpa using h)⟩
      rw [pow_succ, ← mul_assoc, hmul]
      omega
    · rename_i h10
      exact ⟨by simp, ⟨hn, Nat.zero_le _, fun _ => h10⟩⟩

theorem strip_mul {k m e} (h : Stripped k m e) : strip k (m * 10 ^ e) = (m, e) := by
  induction e generalizing k with
  | zero =>
    cases k with
    | zero => simp [strip]
    | succ k => simp [strip, h.last (by omega)]
  | succ e ih =>
    cases k with
    | zero => exact absurd h.le (by omega)
    | succ k =>
      have hdiv : m * 10 ^ (e + 1) / 10 = m * 10 ^ e := by
        rw [pow_succ, ← mul_assoc, Nat.mul_div_cancel _ (by omega)]
      have hmod : m * 10 ^ (e + 1) % 10 = 0 := by rw [pow_succ, ← mul_assoc, Nat.mul_mod_left]
      have hs : Stripped k m e := ⟨h.pos, Nat.le_of_succ_le_succ h.le, fun he => h.last (by omega)⟩
      simp only [strip, hmod, if_true, hdiv, ih hs]

theorem decode_pack {m e} (h : Stripped 9 m e) : decode (pack m e) = m * 10 ^ e := by
  have hle := h.le
  have hpos := h.pos
  have hlast := h.last
  unfold pack decode
  split
  · rename_i he
    have hm := hlast he
    have hmod : (1 + (m / 10 * 9 + m % 10 - 1) * 10 + e - 1) % 10 = e := by omega
    have hdiv : (1 + (m / 10 * 9 + m % 10 - 1) * 10 + e - 1) / 10 = m / 10 * 9 + m % 10 - 1 := by omega
    rw [if_neg (by omega)]
    simp only [hmod, hdiv, if_pos he]
    congr 1
    omega
  · have he : e = 9 := by omega
    subst he
    have hmod : (1 + (m - 1) * 10 + 9 - 1) % 10 = 9 := by omega
    have hdiv : (1 + (m - 1) * 10 + 9 - 1) / 10 = m - 1 := by omega
    rw [if_neg (by omega)]
    simp only [hmod, hdiv, Nat.lt_irrefl, if_false]
    congr 1
    omega

theorem decode_encode (n : Nat) : decode (encode n) = n := by
  unfold encode
  split
  · rename_i hn; subst hn; rfl
  · rename_i hn
    obtain ⟨hmul, hs⟩ := strip_spec (Nat.pos_of_ne_zero hn) 9
    rw [decode_pack hs, hmul]

theorem encode_mul {m e} (h : Stripped 9 m e) : encode (m * 10 ^ e) = pack m e := by
  have hpos : m * 10 ^ e ≠ 0 := Nat.mul_ne_zero (Nat.pos_iff_ne_zero.mp h.pos) (by simp)
  rw [encode, if_neg hpos, strip_mul h]

end DecimalCode

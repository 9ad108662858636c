import Mathlib.Data.Nat.Size
import Mathlib.Data.Nat.Bitwise
import Mathlib.Tactic.IntervalCases
import Mathlib.Tactic.Ring
import Mathlib.Tactic.GCongr
import Hivecoin.Assets.Types

/-!
# Compact targets

`SetCompact` and `GetCompact` of `arith_uint256.cpp`: what the compact form stands for is short by less than one part in 2¹⁵.
-/

namespace Hivecoin

variable (n : Nat)

/-- `base_uint::bits`: the position of the highest bit plus one. -/
def bits : Nat := n.size

def setCompact (nCompact : Nat) : Nat :=
  let nSize := nCompact >>> 24
  let nWord := nCompact &&& 0x007fffff
  if nSize ≤ 3 then nWord >>> (8 * (3 - nSize)) else (nWord <<< (8 * (nSize - 3))) % 2 ^ 256

def getCompact : Nat :=
  let nSize := (bits n + 7) / 8
  let nCompact := if nSize ≤ 3 then ((n % 2 ^ 64) <<< (8 * (3 - nSize))) % 2 ^ 32 else (n >>> (8 * (nSize - 3))) % 2 ^ 64 % 2 ^ 32
  -- the sign bit of the mantissa has to stay free
  if nCompact &&& 0x00800000 ≠ 0 then (nCompact >>> 8) ||| ((nSize + 1) <<< 24) else nCompact ||| (nSize <<< 24)

theorem pack_eq {w k} (hw : w < 2 ^ 24) : w ||| (k <<< 24) = w + k * 2 ^ 24 := by
  rw [Nat.or_comm, ← Nat.shiftLeft_add_eq_or_of_lt hw, Nat.shiftLeft_eq, Nat.add_comm]

theorem setCompact_pack {w k} (hw : w < 2 ^ 23) :
    setCompact (w + k * 2 ^ 24) = if k ≤ 3 then w / 2 ^ (8 * (3 - k)) else w * 2 ^ (8 * (k - 3)) % 2 ^ 256 := by
  have hsize : (w + k * 2 ^ 24) >>> 24 = k := by
    rw [Nat.shiftRight_eq_div_pow]
    omega
  have hword : (w + k * 2 ^ 24) &&& 0x007fffff = w := by
    rw [show (0x007fffff : Nat) = 2 ^ 23 - 1 from rfl, Nat.and_two_pow_sub_one_eq_mod]
    omega
  rw [setCompact]
  simp only [hsize, hword, Nat.shiftRight_eq_div_pow, Nat.shiftLeft_eq]

def byteSize : Nat := (bits n + 7) / 8

theorem lt_of_byteSize : n < 2 ^ (8 * byteSize n) := by
  have h : n < 2 ^ n.size := Nat.lt_size_self n
  refine h.trans_le (Nat.pow_le_pow_right (by decide) ?_)
  rw [byteSize, bits]
  omega

theorem le_of_byteSize {n} (h : 0 < byteSize n) : 2 ^ (8 * (byteSize n - 1)) ≤ n := by
  have hbits : 8 * (byteSize n - 1) < n.size := by
    rw [byteSize, bits] at h ⊢
    omega
  exact Nat.lt_size.1 hbits

def leading : Nat := if byteSize n ≤ 3 then n * 2 ^ (8 * (3 - byteSize n)) else n / 2 ^ (8 * (byteSize n - 3))

theorem leading_lt : leading n < 2 ^ 24 := by
  have hlt := lt_of_byteSize n
  unfold leading
  split
  · rename_i hsmall
    calc n * 2 ^ (8 * (3 - byteSize n)) < 2 ^ (8 * byteSize n) * 2 ^ (8 * (3 - byteSize n)) :=
          Nat.mul_lt_mul_of_pos_right hlt (Nat.two_pow_pos _)
      _ = 2 ^ 24 := by rw [← Nat.pow_add]; congr 1; omega
  · rw [Nat.div_lt_iff_lt_mul (Nat.two_pow_pos _), ← Nat.pow_add]
    rwa [show 24 + 8 * (byteSize n - 3) = 8 * byteSize n by omega]

theorem signBit_iff {m} (hm : m < 2 ^ 24) : m &&& 0x00800000 ≠ 0 ↔ 2 ^ 23 ≤ m := by
  rw [show (0x00800000 : Nat) = 2 ^ 23 from rfl, Nat.and_two_pow, Nat.testBit_eq_decide_div_mod_eq]
  by_cases h : m / 2 ^ 23 % 2 = 1
  · simp only [h, decide_true, Bool.toNat_true]
    omega
  · simp only [h, decide_false, Bool.toNat_false, Nat.zero_mul]
    omega

theorem getCompact_eq : getCompact n =
    if 2 ^ 23 ≤ leading n then leading n / 2 ^ 8 + (byteSize n + 1) * 2 ^ 24 else leading n + byteSize n * 2 ^ 24 := by
  have hlt := leading_lt n
  have hlead : (if byteSize n ≤ 3 then ((n % 2 ^ 64) <<< (8 * (3 - byteSize n))) % 2 ^ 32
      else (n >>> (8 * (byteSize n - 3))) % 2 ^ 64 % 2 ^ 32) = leading n := by
    unfold leading at hlt ⊢
    split
    · rename_i hsmall
      rw [if_pos hsmall] at hlt
      have hn : n < 2 ^ 64 := (lt_of_byteSize n).trans_le (Nat.pow_le_pow_right (by decide) (by omega))
      rw [Nat.mod_eq_of_lt hn, Nat.shiftLeft_eq, Nat.mod_eq_of_lt (hlt.trans (by decide))]
    · rename_i hlarge
      rw [if_neg hlarge] at hlt
      rw [Nat.shiftRight_eq_div_pow, Nat.mod_eq_of_lt (hlt.trans (by decide)), Nat.mod_eq_of_lt (hlt.trans (by decide))]
  have hsize : (bits n + 7) / 8 = byteSize n := rfl
  rw [getCompact]
  simp only [hsize, hlead]
  simp only [signBit_iff hlt, Nat.shiftRight_eq_div_pow]
  split
  · exact pack_eq (lt_of_le_of_lt (Nat.div_le_self _ _) hlt)
  · exact pack_eq hlt

theorem leading_mul_le {n} (h : ¬byteSize n ≤ 3) : leading n * 2 ^ (8 * (byteSize n - 3)) ≤ n := by
  rw [leading, if_neg h]
  exact Nat.div_mul_le_self _ _

theorem setCompact_getCompact {n} (hn : n < 2 ^ 256) (h : ¬byteSize n ≤ 3) : setCompact (getCompact n) =
    if 2 ^ 23 ≤ leading n then leading n / 2 ^ 8 * 2 ^ (8 * (byteSize n - 2)) else leading n * 2 ^ (8 * (byteSize n - 3)) := by
  have hlt := leading_lt n
  have hle := leading_mul_le h
  rw [getCompact_eq]
  split
  · have hdiv : leading n / 2 ^ 8 * 2 ^ (8 * (byteSize n - 2)) ≤ n := by
      refine le_trans ?_ hle
      calc leading n / 2 ^ 8 * 2 ^ (8 * (byteSize n - 2)) = leading n / 2 ^ 8 * 2 ^ 8 * 2 ^ (8 * (byteSize n - 3)) := by
            rw [mul_assoc, ← Nat.pow_add]
            congr 2
            omega
        _ ≤ leading n * 2 ^ (8 * (byteSize n - 3)) := Nat.mul_le_mul_right _ (Nat.div_mul_le_self _ _)
    rw [setCompact_pack (by omega), if_neg (by omega), show byteSize n + 1 - 3 = byteSize n - 2 by omega,
      Nat.mod_eq_of_lt (hdiv.trans_lt hn)]
  · rw [setCompact_pack (by omega), if_neg h, Nat.mod_eq_of_lt (hle.trans_lt hn)]

theorem setCompact_getCompact_le {n} (hn : n < 2 ^ 256) : setCompact (getCompact n) ≤ n := by
  have hlt := leading_lt n
  by_cases h : byteSize n ≤ 3
  · have hlead : leading n = n * 2 ^ (8 * (3 - byteSize n)) := if_pos h
    rw [getCompact_eq]
    generalize byteSize n = k at h hlead
    split
    · rw [setCompact_pack (by omega)]
      interval_cases k <;> simp only [Nat.reduceSub, Nat.reduceMul, Nat.reduceLeDiff, Nat.reduceAdd, if_true, if_false] at hlead ⊢ <;>
        omega
    · rw [setCompact_pack (by omega)]
      interval_cases k <;> simp only [Nat.reduceSub, Nat.reduceMul, Nat.reduceLeDiff, if_true] at hlead ⊢ <;> omega
  · have hle := leading_mul_le h
    rw [setCompact_getCompact hn h]
    split
    · refine le_trans ?_ hle
      rw [show 8 * (byteSize n - 2) = 8 + 8 * (byteSize n - 3) by omega, Nat.pow_add, ← mul_assoc]
      exact Nat.mul_le_mul_right _ (Nat.div_mul_le_self _ _)
    · exact hle

/-- The compact form of more than three bytes is short by less than one part in 2¹⁵. -/
theorem lt_setCompact_getCompact {n} (hn : n < 2 ^ 256) (h : 2 ^ 24 ≤ n) :
    n * 2 ^ 15 < setCompact (getCompact n) * (2 ^ 15 + 1) := by
  have hsize : ¬byteSize n ≤ 3 := by
    intro hsmall
    have := (lt_of_byteSize n).trans_le (Nat.pow_le_pow_right (by decide) (Nat.mul_le_mul_left 8 hsmall))
    omega
  obtain ⟨p, hp⟩ : ∃ p, 2 ^ (8 * (byteSize n - 3)) = p := ⟨_, rfl⟩
  have hppos : 0 < p := hp ▸ Nat.two_pow_pos _
  have hlead : leading n = n / p := by rw [leading, if_neg hsize, hp]
  have hbelow : n < (leading n + 1) * p := by
    rw [hlead, Nat.mul_comm]
    exact Nat.lt_mul_div_succ n hppos
  have hlow : 2 ^ 16 ≤ leading n := by
    have hle := le_of_byteSize (show 0 < byteSize n by omega)
    rw [show 8 * (byteSize n - 1) = 16 + 8 * (byteSize n - 3) by omega, Nat.pow_add, hp] at hle
    rw [hlead]
    exact (Nat.le_div_iff_mul_le hppos).2 hle
  rw [setCompact_getCompact hn hsize]
  split
  · rw [show 8 * (byteSize n - 2) = 8 + 8 * (byteSize n - 3) by omega, Nat.pow_add, hp]
    have hq : leading n + 1 ≤ (leading n / 2 ^ 8 + 1) * 2 ^ 8 := by omega
    have hqlow : 2 ^ 15 ≤ leading n / 2 ^ 8 := by omega
    calc n * 2 ^ 15 < (leading n + 1) * p * 2 ^ 15 := Nat.mul_lt_mul_of_pos_right hbelow (Nat.two_pow_pos 15)
      _ ≤ (leading n / 2 ^ 8 + 1) * 2 ^ 8 * p * 2 ^ 15 := by gcongr
      _ = (2 ^ 8 * p) * (leading n / 2 ^ 8 * 2 ^ 15 + 2 ^ 15) := by ring
      _ ≤ (2 ^ 8 * p) * (leading n / 2 ^ 8 * 2 ^ 15 + leading n / 2 ^ 8) := by gcongr
      _ = leading n / 2 ^ 8 * (2 ^ 8 * p) * (2 ^ 15 + 1) := by ring
  · rw [hp]
    calc n * 2 ^ 15 < (leading n + 1) * p * 2 ^ 15 := Nat.mul_lt_mul_of_pos_right hbelow (Nat.two_pow_pos 15)
      _ = p * (leading n * 2 ^ 15 + 2 ^ 15) := by ring
      _ ≤ p * (leading n * 2 ^ 15 + leading n) := by gcongr; omega
      _ = leading n * p * (2 ^ 15 + 1) := by ring

theorem lt_of_getCompact_eq {a b} (ha : a < 2 ^ 256) (hb : b < 2 ^ 256) (hlarge : 2 ^ 24 ≤ b)
    (h : getCompact a = getCompact b) : b * 2 ^ 15 < a * (2 ^ 15 + 1) :=
  calc b * 2 ^ 15 < setCompact (getCompact b) * (2 ^ 15 + 1) := lt_setCompact_getCompact hb hlarge
    _ = setCompact (getCompact a) * (2 ^ 15 + 1) := by rw [h]
    _ ≤ a * (2 ^ 15 + 1) := Nat.mul_le_mul_right _ (setCompact_getCompact_le ha)

end Hivecoin

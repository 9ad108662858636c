import Hivecoin.Base.ByteStream
import Mathlib.Tactic.Common

/-!
# Variable-length integers
-/

namespace ByteWriter

/-- The bytes of a number, at most `size`; `more` marks one that others follow. -/
def varIntGroups (more : UInt8) : Nat → Nat → List UInt8
  | 0, _ => []
  | size + 1, n =>
    let last := UInt8.ofNat (n % 128) ||| more
    if n ≤ 0x7F then [last] else varIntGroups 0x80 size (n / 128 - 1) ++ [last]

/-- A number of an unsigned type, whose buffer holds `size` bytes. -/
def varInt (size n : Nat) : List UInt8 := varIntGroups 0 size n

end ByteWriter

namespace ByteReader

/-- The loop over the groups; `max` is the largest number of the type. -/
def varIntLoop (max : Nat) : Nat → List UInt8 → Option (Nat × List UInt8)
  | _, [] => none
  | n, chData :: s =>
    if n > max / 128 then none
    else
      let n := n * 128 + (chData &&& 0x7F).toNat
      if chData &&& 0x80 ≠ 0 then
        if n = max then none else varIntLoop max (n + 1) s
      else some (n, s)

def varInt (max : Nat) : ByteReader Nat := varIntLoop max 0

theorem group_of_byte : ∀ k < 128, (UInt8.ofNat k &&& 0x7F).toNat = k ∧ UInt8.ofNat k &&& 0x80 = 0 ∧
    ((UInt8.ofNat k ||| 0x80) &&& 0x7F).toNat = k ∧ (UInt8.ofNat k ||| 0x80) &&& 0x80 ≠ 0 := by
  decide +kernel

theorem varIntLoop_more_cons {max n m k} (hn : n ≤ max / 128) (hk : k < 128) (hm : n * 128 + k = m)
    (hmax : m < max) (s : List UInt8) :
    varIntLoop max n ((UInt8.ofNat k ||| 0x80) :: s) = varIntLoop max (m + 1) s := by
  obtain ⟨-, -, hlow, hmore⟩ := group_of_byte k hk
  rw [varIntLoop, if_neg (by omega), hlow, hm, if_pos hmore, if_neg (by omega)]

theorem varIntLoop_last_cons {max n m k} (hn : n ≤ max / 128) (hk : k < 128) (hm : n * 128 + k = m)
    (s : List UInt8) : varIntLoop max n (UInt8.ofNat k :: s) = some (m, s) := by
  obtain ⟨hlow, hlast, -, -⟩ := group_of_byte k hk
  rw [varIntLoop, if_neg (by omega), hlow, hm, if_neg (by simp [hlast])]

/-- Groups that others follow leave the reader one above their number. -/
theorem varIntLoop_more {max size n} (hn : n < max) (hsize : n < 128 ^ (size + 1)) (s : List UInt8) :
    varIntLoop max 0 (ByteWriter.varIntGroups 0x80 (size + 1) n ++ s) = varIntLoop max (n + 1) s := by
  induction size generalizing n s with
  | zero =>
    have hsmall : n ≤ 0x7F := by simp at hsize; omega
    rw [ByteWriter.varIntGroups, if_pos hsmall]
    exact varIntLoop_more_cons (by omega) (by omega) (by omega) hn s
  | succ size ih =>
    rw [ByteWriter.varIntGroups]
    by_cases hsmall : n ≤ 0x7F
    · rw [if_pos hsmall]
      exact varIntLoop_more_cons (by omega) (by omega) (by omega) hn s
    · have hrest : n / 128 - 1 < 128 ^ (size + 1) := by
        rw [Nat.pow_succ] at hsize
        omega
      rw [if_neg hsmall, List.append_assoc, ih (by omega) hrest]
      exact varIntLoop_more_cons (by omega) (by omega) (by omega) hn s

theorem varInt_write {max size n} (hn : n ≤ max) (hsize : n < 128 ^ (size + 1)) (s : List UInt8) :
    varInt max (ByteWriter.varInt (size + 1) n ++ s) = some (n, s) := by
  unfold varInt ByteWriter.varInt
  rw [ByteWriter.varIntGroups]
  simp only [UInt8.or_zero]
  by_cases hsmall : n ≤ 0x7F
  · rw [if_pos hsmall]
    exact varIntLoop_last_cons (by omega) (by omega) (by omega) s
  · cases size with
    | zero => simp at hsize; omega
    | succ size =>
      have hrest : n / 128 - 1 < 128 ^ (size + 1) := by
        rw [Nat.pow_succ] at hsize
        omega
      rw [if_neg hsmall, List.append_assoc, varIntLoop_more (by omega) hrest]
      exact varIntLoop_last_cons (by omega) (by omega) (by omega) s

end ByteReader

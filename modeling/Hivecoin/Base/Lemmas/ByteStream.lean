import Hivecoin.Base.ByteStream
import Mathlib.Tactic.Common

/-!
# Readers give back what the writers wrote
-/

namespace ByteReader

open List Option

variable {α β : Type} {s s' : List UInt8} {a : α}
variable {k max n : Nat} {w : List UInt8}

theorem bind_read {r} (h : r s = some (a, s')) (f : α → ByteReader β) : (r >>= f) s = f a s' := by
  change (r s).bind (fun p => f p.1 p.2) = _
  rw [h]
  rfl

theorem map_read {r : ByteReader α} (h : r s = some (a, s')) (f : α → β) : (f <$> r) s = some (f a, s') := by
  rw [map_eq_pure_bind]
  exact bind_read h _

theorem pure_read (a : α) (s : List UInt8) : (pure a : ByteReader α) s = some (a, s) := rfl

theorem remaining_read (s : List UInt8) : remaining s = some (s.length, s) := rfl

theorem bytes_write (w rest : List UInt8) : bytes w.length (w ++ rest) = some (w, rest) := by
  simp [bytes]

theorem length_natLE (n k : Nat) : (ByteWriter.natLE n k).length = n := by
  induction n generalizing k with
  | zero => rfl
  | succ n ih => simp [ByteWriter.natLE, ih]

theorem foldr_natLE (h : k < 256 ^ n) :
    (ByteWriter.natLE n k).foldr (fun b acc => b.toNat + 256 * acc) 0 = k := by
  induction n generalizing k with
  | zero => simp at h; simp [ByteWriter.natLE, h]
  | succ n ih =>
    have hdiv : k / 256 < 256 ^ n := by rw [Nat.pow_succ] at h; omega
    rw [ByteWriter.natLE, foldr_cons, ih hdiv, UInt8.toNat_ofNat']
    omega

theorem natLE_write (h : k < 256 ^ n) (rest : List UInt8) :
    natLE n (ByteWriter.natLE n k ++ rest) = some (k, rest) := by
  have hread := bytes_write (ByteWriter.natLE n k) rest
  rw [length_natLE] at hread
  rw [natLE, bind_read hread, foldr_natLE h]
  rfl

theorem int8_write (k : Int8) (rest : List UInt8) : int8 (ByteWriter.int8 k ++ rest) = some (k, rest) := by
  have hlt := k.toUInt8.toNat_lt
  have hbyte : ByteWriter.int8 k = ByteWriter.natLE 1 k.toUInt8.toNat := by
    simp [ByteWriter.int8, ByteWriter.natLE]
  rw [hbyte, int8, bind_read (natLE_write (by omega) rest), UInt8.ofNat_toNat]
  rfl

theorem int64_write (k : Int64) (rest : List UInt8) : int64 (ByteWriter.int64 k ++ rest) = some (k, rest) := by
  have hlt := k.toUInt64.toNat_lt
  rw [ByteWriter.int64, int64, bind_read (natLE_write (by omega) rest), UInt64.ofNat_toNat]
  rfl

theorem compactSize_write {n max} (hn : n ≤ max) (hmax : max < 2 ^ 64) (rest : List UInt8) :
    compactSize max (ByteWriter.compactSize n ++ rest) = some (n, rest) := by
  have hle : ¬ n > max := by omega
  have htag : ∀ (c : Nat) (s : List UInt8), c < 256 → natLE 1 (UInt8.ofNat c :: s) = some (c, s) := fun c s hc => by
    simpa [ByteWriter.natLE] using natLE_write (n := 1) (k := c) (by omega) s
  unfold compactSize ByteWriter.compactSize
  by_cases h1 : n < 253
  · rw [if_pos h1, bind_read (natLE_write (by omega) rest)]
    simp only [if_pos h1, pure_bind, if_neg hle]
    rfl
  rw [if_neg h1]
  by_cases h2 : n < 0x10000
  · rw [if_pos h2, cons_append, show (253 : UInt8) = UInt8.ofNat 253 from rfl, bind_read (htag 253 _ (by omega))]
    simp only [show ¬ (253 < 253) by omega, if_false, if_true]
    rw [bind_read (natLE_write (by omega) rest)]
    simp only [if_neg h1, pure_bind, if_neg hle]
    rfl
  rw [if_neg h2]
  by_cases h3 : n < 0x100000000
  · rw [if_pos h3, cons_append, show (254 : UInt8) = UInt8.ofNat 254 from rfl, bind_read (htag 254 _ (by omega))]
    simp only [show ¬ (254 < 253) by omega, show ¬ (254 = 253) by omega, if_false, if_true]
    rw [bind_read (natLE_write (by omega) rest)]
    simp only [if_neg h2, pure_bind, if_neg hle]
    rfl
  · rw [if_neg h3, cons_append, show (255 : UInt8) = UInt8.ofNat 255 from rfl, bind_read (htag 255 _ (by omega))]
    simp only [show ¬ (255 < 253) by omega, show ¬ (255 = 253) by omega, show ¬ (255 = 254) by omega, if_false]
    rw [bind_read (natLE_write (by omega) rest)]
    simp only [if_neg h3, pure_bind, if_neg hle]
    rfl

/-- The whole length tells the length of the string. -/
theorem lengthPrefixed_inj {s t} (h : ByteWriter.lengthPrefixed s = ByteWriter.lengthPrefixed t) : s = t := by
  have hsize : ∀ n, (ByteWriter.compactSize n).length = if n < 253 then 1 else if n < 0x10000 then 3 else if n < 0x100000000 then 5 else 9 := by
    intro n
    unfold ByteWriter.compactSize
    split_ifs <;> simp [length_natLE]
  have hlen := congrArg length h
  simp only [ByteWriter.lengthPrefixed, length_append, hsize] at hlen
  have heq : s.length = t.length := by split_ifs at hlen <;> omega
  rw [ByteWriter.lengthPrefixed, ByteWriter.lengthPrefixed, heq] at h
  exact append_cancel_left h

theorem lengthPrefixed_write (hw : w.length ≤ max) (hmax : max < 2 ^ 64) (rest : List UInt8) : lengthPrefixed max (ByteWriter.lengthPrefixed w ++ rest) = some (w, rest) := by
  rw [lengthPrefixed, ByteWriter.lengthPrefixed, append_assoc, bind_read (compactSize_write hw hmax _)]
  exact bytes_write w rest

theorem eq_of_lengthPrefixed_isPrefix {s t rest} (hs : s.length ≤ max) (ht : t.length ≤ max) (hmax : max < 2 ^ 64)
    (h : ByteWriter.lengthPrefixed s <+: ByteWriter.lengthPrefixed t ++ rest) : s = t := by
  obtain ⟨tail, h⟩ := h
  have hread := lengthPrefixed_write hs hmax tail
  rw [h, lengthPrefixed_write ht hmax] at hread
  exact (Prod.mk.inj (some.inj hread)).1.symm

theorem bind_sound {r : ByteReader α} {f : α → ByteReader β} {b : β} (h : (r >>= f) s = some (b, s')) :
    ∃ a t, r s = some (a, t) ∧ f a t = some (b, s') := by
  change (r s).bind (fun p => f p.1 p.2) = _ at h
  obtain ⟨⟨a, t⟩, hr, hf⟩ := bind_eq_some_iff.1 h
  exact ⟨a, t, hr, hf⟩

theorem bytes_sound (h : bytes n s = some (w, s')) : s = w ++ s' ∧ w.length = n := by
  simp only [bytes, ite_none_right_eq_some, some.injEq, Prod.mk.injEq] at h
  obtain ⟨hle, rfl, rfl⟩ := h
  exact ⟨(take_append_drop n s).symm, by simp [hle]⟩

theorem natLE_foldr (w : List UInt8) :
    ByteWriter.natLE w.length (w.foldr (fun b acc => b.toNat + 256 * acc) 0) = w ∧
      w.foldr (fun b acc => b.toNat + 256 * acc) 0 < 256 ^ w.length := by
  induction w with
  | nil => simp [ByteWriter.natLE]
  | cons b w ih =>
    obtain ⟨hw, hlt⟩ := ih
    have hb := b.toNat_lt
    simp only [foldr_cons, length_cons, ByteWriter.natLE]
    generalize foldr (fun b acc => b.toNat + 256 * acc) 0 w = k at hw hlt
    rw [show (b.toNat + 256 * k) / 256 = k by omega, hw, Nat.pow_succ]
    refine ⟨?_, by omega⟩
    rw [cons.injEq, and_iff_left rfl, ← UInt8.toNat_inj, UInt8.toNat_ofNat']
    omega

theorem natLE_sound (h : natLE n s = some (k, s')) : s = ByteWriter.natLE n k ++ s' ∧ k < 256 ^ n := by
  unfold natLE at h
  obtain ⟨w, t, hw, hrest⟩ := bind_sound h
  obtain ⟨rfl, rfl⟩ := bytes_sound hw
  rw [pure_read, some.injEq, Prod.mk.injEq] at hrest
  obtain ⟨rfl, rfl⟩ := hrest
  obtain ⟨heq, hlt⟩ := natLE_foldr w
  exact ⟨by rw [heq], hlt⟩

theorem int8_sound {k : Int8} (h : int8 s = some (k, s')) : s = ByteWriter.int8 k ++ s' := by
  unfold int8 at h
  obtain ⟨n, t, hn, hrest⟩ := bind_sound h
  obtain ⟨rfl, -⟩ := natLE_sound hn
  rw [pure_read, some.injEq, Prod.mk.injEq] at hrest
  obtain ⟨rfl, rfl⟩ := hrest
  simp [ByteWriter.int8, ByteWriter.natLE]

theorem guard_sound {p : Prop} [Decidable p] {r : ByteReader α}
    (h : (if p then failure >>= fun _ : Unit => r else r) s = some (a, s')) : ¬ p ∧ r s = some (a, s') := by
  by_cases hp : p
  · rw [if_pos hp] at h
    cases h
  · rw [if_neg hp] at h
    exact ⟨hp, h⟩

/-- A length prefix is accepted in its shortest form only. -/
theorem compactSize_sound (h : compactSize max s = some (n, s')) :
    s = ByteWriter.compactSize n ++ s' ∧ n ≤ max := by
  have hpure : ∀ {k : Nat} {t : List UInt8}, (pure k : ByteReader Nat) t = some (n, s') → k = n ∧ t = s' := by
    intro k t hp
    rwa [pure_read, some.injEq, Prod.mk.injEq] at hp
  unfold compactSize at h
  obtain ⟨c, t, hc, hlong⟩ := bind_sound h
  obtain ⟨rfl, hlt⟩ := natLE_sound hc
  simp only [pure_bind] at hlong
  unfold ByteWriter.compactSize
  clear h hc
  split at hlong
  · obtain ⟨hmax, hlong⟩ := guard_sound hlong
    obtain ⟨rfl, rfl⟩ := hpure hlong
    rw [if_pos (by assumption)]
    exact ⟨rfl, by omega⟩
  split at hlong
  · obtain ⟨k, u, hk, hrest⟩ := bind_sound hlong
    obtain ⟨rfl, hlt'⟩ := natLE_sound hk
    obtain ⟨hleast, hrest⟩ := guard_sound hrest
    obtain ⟨hmax, hrest⟩ := guard_sound hrest
    obtain ⟨rfl, rfl⟩ := hpure hrest
    subst c
    rw [if_neg hleast, if_pos (by omega)]
    exact ⟨rfl, by omega⟩
  split at hlong
  · obtain ⟨k, u, hk, hrest⟩ := bind_sound hlong
    obtain ⟨rfl, hlt'⟩ := natLE_sound hk
    obtain ⟨hleast, hrest⟩ := guard_sound hrest
    obtain ⟨hmax, hrest⟩ := guard_sound hrest
    obtain ⟨rfl, rfl⟩ := hpure hrest
    subst c
    rw [if_neg (by omega), if_neg hleast, if_pos (by omega)]
    exact ⟨rfl, by omega⟩
  · obtain ⟨k, u, hk, hrest⟩ := bind_sound hlong
    obtain ⟨rfl, hlt'⟩ := natLE_sound hk
    obtain ⟨hleast, hrest⟩ := guard_sound hrest
    obtain ⟨hmax, hrest⟩ := guard_sound hrest
    obtain ⟨rfl, rfl⟩ := hpure hrest
    obtain rfl : c = 255 := by omega
    rw [if_neg (by omega), if_neg (by omega), if_neg hleast]
    exact ⟨rfl, by omega⟩

theorem lengthPrefixed_sound (h : lengthPrefixed max s = some (w, s')) :
    s = ByteWriter.lengthPrefixed w ++ s' ∧ w.length ≤ max := by
  unfold lengthPrefixed at h
  obtain ⟨n, t, hn, hrest⟩ := bind_sound h
  obtain ⟨rfl, hmax⟩ := compactSize_sound hn
  obtain ⟨rfl, rfl⟩ := bytes_sound hrest
  exact ⟨by rw [ByteWriter.lengthPrefixed, append_assoc], hmax⟩

end ByteReader

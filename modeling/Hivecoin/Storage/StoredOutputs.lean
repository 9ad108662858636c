import Hivecoin.Assets.Lemmas.Construct
import Hivecoin.Base.DecimalCode
import Hivecoin.Storage.Compressor
import Mathlib.Tactic.IntervalCases

/-!
# Reading stored outputs back

The code of amounts wraps in 64 bits for large amounts that are not divisible by ten.
-/

namespace Hivecoin

open Script List Option DecimalCode ByteReader Write

theorem toNat_stripZeros (k : Nat) (n : UInt64) :
    ((stripZeros k n).1.toNat, (stripZeros k n).2) = strip k n.toNat := by
  induction k generalizing n with
  | zero => rfl
  | succ k ih =>
    have h10 : n % 10 = 0 ↔ n.toNat % 10 = 0 := by
      rw [← UInt64.toNat_inj, UInt64.toNat_mod]; rfl
    have hdiv : (n / 10).toNat = n.toNat / 10 := UInt64.toNat_div n 10
    unfold stripZeros strip
    by_cases h : n % 10 = 0
    · rw [if_pos h, if_pos (h10.mp h), ← hdiv, ← ih]
    · rw [if_neg h, if_neg (fun h' => h (h10.mpr h'))]

theorem toNat_compressAmount (n : UInt64) : (compressAmount n).toNat = encode n.toNat % 2 ^ 64 := by
  unfold compressAmount encode
  by_cases h0 : n = 0
  · subst h0; rfl
  · have hn : n.toNat ≠ 0 := fun h => h0 (UInt64.toNat_inj.mp h)
    rw [if_neg h0, if_neg hn, ← toNat_stripZeros]
    obtain ⟨-, hs⟩ := strip_spec (Nat.pos_of_ne_zero hn) 9
    rw [← toNat_stripZeros] at hs
    revert hs
    generalize stripZeros 9 n = r
    obtain ⟨m, e⟩ := r
    rintro ⟨hpos, hle, hlast⟩
    have hlt := m.toNat_lt
    simp only [pack] at *
    split
    · rename_i he
      have hm := hlast he
      simp only [UInt64.toNat_add, UInt64.toNat_mul, UInt64.toNat_sub, UInt64.toNat_div, UInt64.toNat_mod,
        UInt64.toNat_ofNat', UInt64.reduceToNat]
      omega
    · simp only [UInt64.toNat_add, UInt64.toNat_mul, UInt64.toNat_sub, UInt64.reduceToNat]
      omega

theorem toNat_timesTen (e : Nat) (n : UInt64) : (timesTen e n).toNat = n.toNat * 10 ^ e % 2 ^ 64 := by
  induction e generalizing n with
  | zero => simp [timesTen, Nat.mod_eq_of_lt n.toNat_lt]
  | succ e ih =>
    have hmul : n.toNat * 10 ^ (e + 1) = n.toNat * 10 * 10 ^ e := by ring
    rw [timesTen, ih, UInt64.toNat_mul, hmul, Nat.mod_mul_mod]
    rfl

theorem toNat_decompressAmount (x : UInt64) : (decompressAmount x).toNat = decode x.toNat % 2 ^ 64 := by
  unfold decompressAmount decode
  by_cases h0 : x = 0
  · subst h0; rfl
  · have hx : x.toNat ≠ 0 := fun h => h0 (UInt64.toNat_inj.mp h)
    have hlt := x.toNat_lt
    have hpred : (x - 1).toNat = x.toNat - 1 := by
      rw [UInt64.toNat_sub]; simp only [UInt64.reduceToNat]; omega
    have he : ((x - 1) % 10).toNat = (x.toNat - 1) % 10 := by rw [UInt64.toNat_mod, hpred]; rfl
    have hy : ((x - 1) / 10).toNat = (x.toNat - 1) / 10 := by rw [UInt64.toNat_div, hpred]; rfl
    have h9 : (x - 1) % 10 < 9 ↔ (x.toNat - 1) % 10 < 9 := by rw [UInt64.lt_iff_toNat_lt, he]; rfl
    simp only [if_neg h0, if_neg hx, toNat_timesTen, he]
    congr 2
    by_cases h : (x - 1) % 10 < 9
    · rw [if_pos h, if_pos (h9.mp h)]
      simp only [UInt64.toNat_add, UInt64.toNat_mul, UInt64.toNat_div, UInt64.toNat_mod, UInt64.reduceToNat, hpred]
      omega
    · rw [if_neg h, if_neg (fun h' => h (h9.mpr h'))]
      simp only [UInt64.toNat_add, UInt64.reduceToNat, hy]
      omega

/-- The largest amount whose code fits whatever its last digit is. -/
def MAX_COMPRESSIBLE : Nat := 2049638230412172402

theorem encode_of_last {n} (h : n % 10 ≠ 0) : encode n = 1 + (n / 10 * 9 + n % 10 - 1) * 10 := by
  have hs : DecimalCode.Stripped 9 n 0 := ⟨by omega, by omega, fun _ => h⟩
  simpa [pack] using encode_mul hs

theorem encode_le_of_round {n} (h : n % 10 = 0) : encode n ≤ n := by
  by_cases h0 : n = 0
  · subst h0; exact le_refl _
  · obtain ⟨hmul, hpos, hle, hlast⟩ := strip_spec (Nat.pos_of_ne_zero h0) 9
    rw [encode, if_neg h0]
    revert hmul hpos hle hlast
    generalize strip 9 n = r
    obtain ⟨m, e⟩ := r
    simp only
    intro hmul hpos hle hlast
    have hten : 10 * m ≤ n := by
      cases e with
      | zero => exact absurd h (by simpa [← hmul] using hlast (by omega))
      | succ e =>
        have hone : m * 1 ≤ m * 10 ^ e := Nat.mul_le_mul_left m (Nat.one_le_pow _ _ (by omega))
        simp only [pow_succ, ← mul_assoc] at hmul
        omega
    simp only [pack]
    split <;> omega

theorem encode_lt_iff {n} (h : n ≤ 2100000000000000000) :
    encode n < 2 ^ 64 ↔ n % 10 = 0 ∨ n ≤ MAX_COMPRESSIBLE := by
  unfold MAX_COMPRESSIBLE
  by_cases h10 : n % 10 = 0
  · have := encode_le_of_round h10
    exact ⟨fun _ => Or.inl h10, fun _ => by omega⟩
  · rw [encode_of_last h10]
    omega

theorem decode_wrapped_ne {n} (h : n ≤ 2100000000000000000) (h10 : n % 10 ≠ 0) (hbig : MAX_COMPRESSIBLE < n) :
    decode (encode n % 2 ^ 64) % 2 ^ 64 ≠ n := by
  unfold MAX_COMPRESSIBLE at hbig
  have hwrap : encode n % 2 ^ 64 = 1 + (n / 10 * 9 + n % 10 - 1) * 10 - 2 ^ 64 := by
    rw [encode_of_last h10]
    omega
  have he : (1 + (n / 10 * 9 + n % 10 - 1) * 10 - 2 ^ 64 - 1) % 10 = 4 := by omega
  rw [hwrap, decode, if_neg (by omega)]
  simp only [he, show (4 : Nat) < 9 by omega, if_true]
  have hrest : (1 + (n / 10 * 9 + n % 10 - 1) * 10 - 2 ^ 64 - 1) / 10 =
      n / 10 * 9 + n % 10 - 1844674407370955163 := by omega
  rw [hrest]
  clear hrest hwrap he
  generalize hq : (n / 10 * 9 + n % 10 - 1844674407370955163) / 9 * 10 +
    ((n / 10 * 9 + n % 10 - 1844674407370955163) % 9 + 1) = q
  have hcases : q + 2049638230412172402 = n ∨ q + 2049638230412172403 = n := by omega
  clear hq
  have hle : q * 10 ^ 4 / 2 ^ 64 ≤ 27 := by
    rw [Nat.div_le_iff_le_mul_add_pred (by decide)]
    omega
  intro hback
  have hdiv := Nat.div_add_mod (q * 10 ^ 4) (2 ^ 64)
  rw [hback] at hdiv
  generalize q * 10 ^ 4 / 2 ^ 64 = j at hdiv hle
  interval_cases j <;> omega

theorem decompressAmount_compressAmount_iff {n} (h : n.toNat ≤ 2100000000000000000) :
    decompressAmount (compressAmount n) = n ↔ n.toNat % 10 = 0 ∨ n.toNat ≤ MAX_COMPRESSIBLE := by
  rw [← UInt64.toNat_inj, toNat_decompressAmount, toNat_compressAmount]
  constructor
  · intro hback
    by_contra hcond
    exact decode_wrapped_ne h (by omega) (by omega) hback
  · intro hcond
    rw [Nat.mod_eq_of_lt ((encode_lt_iff h).mpr hcond), decode_encode, Nat.mod_eq_of_lt n.toNat_lt]

/-! ## Scripts -/

theorem isToKeyID_eq {script keyID} (h : isToKeyID script = some keyID) :
    keyID.length = 20 ∧ script = [OP_DUP, OP_HASH160, 20] ++ keyID ++ [OP_EQUALVERIFY, OP_CHECKSIG] := by
  simp only [isToKeyID, Outcome.some_iff] at h
  obtain ⟨⟨hlen, h0, h1, h2, h23, h24⟩, rfl⟩ := h
  refine ⟨by simp [hlen], ?_⟩
  have htail : script.drop 23 = [OP_EQUALVERIFY, OP_CHECKSIG] := by
    rw [drop_eq_byteAt_cons (by omega), drop_eq_byteAt_cons (by omega), drop_of_length_le (by omega), h23, h24]
  calc script = script.drop 0 := rfl
    _ = [OP_DUP, OP_HASH160, 20] ++ script.drop 3 := by
        rw [drop_eq_byteAt_cons (by omega), drop_eq_byteAt_cons (by omega), drop_eq_byteAt_cons (by omega), h0, h1, h2]
        rfl
    _ = [OP_DUP, OP_HASH160, 20] ++ ((script.drop 3).take 20 ++ script.drop 23) :=
        congrArg _ (drop_eq_take_append script 3 20)
    _ = _ := by rw [htail, append_assoc]

theorem isToScriptID_eq {script scriptID} (h : isToScriptID script = some scriptID) :
    scriptID.length = 20 ∧ script = [OP_HASH160, 20] ++ scriptID ++ [OP_EQUAL] := by
  simp only [isToScriptID, Outcome.some_iff] at h
  obtain ⟨⟨hlen, h0, h1, h22⟩, rfl⟩ := h
  refine ⟨by simp [hlen], ?_⟩
  have htail : script.drop 22 = [OP_EQUAL] := by
    rw [drop_eq_byteAt_cons (by omega), drop_of_length_le (by omega), h22]
  calc script = script.drop 0 := rfl
    _ = [OP_HASH160, 20] ++ script.drop 2 := by
        rw [drop_eq_byteAt_cons (by omega), drop_eq_byteAt_cons (by omega), h0, h1]
        rfl
    _ = [OP_HASH160, 20] ++ ((script.drop 2).take 20 ++ script.drop 22) :=
        congrArg _ (drop_eq_take_append script 2 20)
    _ = _ := by rw [htail, append_assoc]

section

variable {P : PointCodec}

theorem isToPubKey_eq {script pubkey} (h : isToPubKey P script = some pubkey) :
    script = UInt8.ofNat pubkey.length :: pubkey ++ [OP_CHECKSIG] ∧
      ((pubkey.length = 33 ∧ (byteAt pubkey 0 = 2 ∨ byteAt pubkey 0 = 3)) ∨
        (pubkey.length = 65 ∧ byteAt pubkey 0 = 4 ∧ P.isFullyValid pubkey = true)) := by
  have hkey : ∀ n, script.length = n + 2 → byteAt script 0 = UInt8.ofNat n → byteAt script (n + 1) = OP_CHECKSIG →
      script = UInt8.ofNat n :: (script.drop 1).take n ++ [OP_CHECKSIG] := by
    intro n hlen h0 hlast
    have htail : script.drop (1 + n) = [OP_CHECKSIG] := by
      rw [drop_eq_byteAt_cons (by omega), drop_of_length_le (by omega), Nat.add_comm 1 n, hlast]
    calc script = script.drop 0 := rfl
      _ = UInt8.ofNat n :: script.drop 1 := by rw [drop_eq_byteAt_cons (by omega), h0]
      _ = UInt8.ofNat n :: ((script.drop 1).take n ++ script.drop (1 + n)) :=
          congrArg _ (drop_eq_take_append script 1 n)
      _ = _ := by rw [htail]; rfl
  have hbyte : ∀ n, 0 < n → n + 2 = script.length → byteAt ((script.drop 1).take n) 0 = byteAt script 1 := by
    intro n hn hlen
    simp [byteAt, getD_eq_getElem?_getD, hn]
  unfold isToPubKey at h
  split at h
  · rename_i hc
    obtain ⟨hlen, h0, hlast, h1⟩ := hc
    cases h
    have hl : ((script.drop 1).take 33).length = 33 := by simp [hlen]
    rw [hl, hbyte 33 (by omega) (by omega)]
    exact ⟨hkey 33 hlen h0 hlast, Or.inl ⟨rfl, h1⟩⟩
  · simp only [Outcome.some_iff] at h
    obtain ⟨⟨hlen, h0, hlast, h1⟩, hvalid, rfl⟩ := h
    have hl : ((script.drop 1).take 65).length = 65 := by simp [hlen]
    rw [hl, hbyte 65 (by omega) (by omega)]
    exact ⟨hkey 65 hlen h0 hlast, Or.inr ⟨rfl, h1, hvalid⟩⟩

theorem byteAt_zero_cons {key} (h : 0 < key.length) : key = byteAt key 0 :: key.drop 1 := by
  rw [← drop_eq_byteAt_cons h, drop_zero]

/-- A compressed script: a number below `nSpecialScripts` and its bytes. -/
theorem compress_spec {script compr} (h : compress P script = some compr) :
    ∃ nSize data, compr = UInt8.ofNat nSize :: data ∧ nSize < nSpecialScripts ∧
      data.length = getSpecialSize nSize ∧ decompress P nSize data = some script := by
  unfold compress at h
  split at h
  · rename_i keyID hid
    cases h
    obtain ⟨hlen, rfl⟩ := isToKeyID_eq hid
    exact ⟨0, keyID, rfl, by decide, hlen, rfl⟩
  split at h
  · rename_i scriptID hid
    cases h
    obtain ⟨hlen, rfl⟩ := isToScriptID_eq hid
    exact ⟨1, scriptID, rfl, by decide, hlen, rfl⟩
  split at h
  · rename_i pubkey hkey
    obtain ⟨rfl, ⟨hlen, hfirst⟩ | ⟨hlen, hfirst, hvalid⟩⟩ := isToPubKey_eq hkey
    · have hall : (pubkey.drop 1).take 32 = pubkey.drop 1 := take_of_length_le (by simp [hlen])
      have hcons := @byteAt_zero_cons pubkey (by omega)
      rw [if_pos hfirst, hall] at h
      cases h
      rcases hfirst with hfirst | hfirst
      · refine ⟨2, pubkey.drop 1, by rw [hfirst]; rfl, by decide, by simp [hlen, getSpecialSize], ?_⟩
        rw [hfirst] at hcons
        simp only [decompress, hlen]
        nth_rewrite 2 [hcons]
        rfl
      · refine ⟨3, pubkey.drop 1, by rw [hfirst]; rfl, by decide, by simp [hlen, getSpecialSize], ?_⟩
        rw [hfirst] at hcons
        simp only [decompress, hlen]
        nth_rewrite 2 [hcons]
        rfl
    · rw [if_neg (by rw [hfirst]; decide), if_pos hfirst] at h
      cases h
      have hback := P.decompress_compress pubkey hlen hfirst hvalid
      have hdata : ((pubkey.drop 1).take 32).length = 32 := by simp [hlen]
      have hparity : byteAt pubkey 64 &&& 1 = 0 ∨ byteAt pubkey 64 &&& 1 = 1 := by
        simp only [← UInt8.toNat_inj, UInt8.toNat_and, UInt8.reduceToNat, Nat.and_one_is_mod]
        omega
      rcases hparity with hp | hp <;> rw [hp] at hback ⊢
      · refine ⟨4, (pubkey.drop 1).take 32, rfl, by decide, hdata, ?_⟩
        rw [decompress, show UInt8.ofNat (4 - 2) = 2 + 0 from rfl, hback, hlen]
        rfl
      · refine ⟨5, (pubkey.drop 1).take 32, rfl, by decide, hdata, ?_⟩
        rw [decompress, show UInt8.ofNat (5 - 2) = 2 + 1 from rfl, hback, hlen]
        rfl
  · cases h

theorem readScript_writeScript {script} (h : script.length ≤ MAX_SCRIPT_SIZE) (rest : Bytes) :
    Read.compressedScript P (compressedScript P script ++ rest) = some (script, rest) := by
  unfold Read.compressedScript compressedScript
  cases hc : compress P script with
  | none =>
    unfold MAX_SCRIPT_SIZE at h
    have hread : varInt (2 ^ 32 - 1) (ByteWriter.varInt 5 (script.length + nSpecialScripts) ++
        (script ++ rest)) = some (script.length + nSpecialScripts, script ++ rest) :=
      varInt_write (by unfold nSpecialScripts; omega) (by unfold nSpecialScripts; omega) _
    rw [append_assoc, bind_read hread, if_neg (by omega), Nat.add_sub_cancel,
      if_neg (by unfold MAX_SCRIPT_SIZE; omega)]
    exact bytes_write script rest
  | some compr =>
    obtain ⟨nSize, data, rfl, hsize, hlen, hdec⟩ := compress_spec hc
    have hread : varInt (2 ^ 32 - 1) (UInt8.ofNat nSize :: (data ++ rest)) = some (nSize, data ++ rest) :=
      varIntLoop_last_cons (by omega) (by unfold nSpecialScripts at hsize; omega) (by omega) _
    rw [cons_append, bind_read hread, if_pos hsize, ← hlen,
      bind_read (bytes_write data rest), hdec]
    rfl

theorem readTxOut_writeTxOut_iff {out : CTxOut} (hrange : moneyRange out.nValue = true)
    (hscript : out.scriptPubKey.length ≤ MAX_SCRIPT_SIZE) (rest : Bytes) :
    (Read.txOut P (txOut P out ++ rest) = some (out, rest) ↔
      out.nValue % 10 = 0 ∨ out.nValue ≤ Int64.ofNat MAX_COMPRESSIBLE) ∧
    (decompressAmount (compressAmount out.nValue.toUInt64) = out.nValue.toUInt64 ↔
      out.nValue % 10 = 0 ∨ out.nValue ≤ Int64.ofNat MAX_COMPRESSIBLE) := by
  unfold moneyRange at hrange
  simp only [Outcome.test_iff] at hrange
  obtain ⟨h0, hmax⟩ := hrange
  rw [Int64.le_iff_toInt_le, Int64.toInt_zero] at h0
  rw [Int64.le_iff_toInt_le, show MAX_MONEY.toInt = 2100000000000000000 from rfl] at hmax
  have hcast : (out.nValue.toUInt64.toNat : Int) = out.nValue.toInt := by
    rw [Int64.toNat_toUInt64_of_le (by rwa [Int64.le_iff_toInt_le, Int64.toInt_zero]), Int64.toNatClampNeg]
    omega
  have hcond : (out.nValue % 10 = 0 ∨ out.nValue ≤ Int64.ofNat MAX_COMPRESSIBLE) ↔
      out.nValue.toUInt64.toNat % 10 = 0 ∨ out.nValue.toUInt64.toNat ≤ MAX_COMPRESSIBLE := by
    rw [Int64.le_iff_toInt_le, ← Int64.toInt_inj, Int64.toInt_mod, Int64.toInt_zero,
      show (10 : Int64).toInt = 10 from rfl, Int.tmod_eq_emod_of_nonneg h0,
      show (Int64.ofNat MAX_COMPRESSIBLE).toInt = 2049638230412172402 from rfl, MAX_COMPRESSIBLE]
    omega
  have hnat : out.nValue.toUInt64.toNat ≤ 2100000000000000000 := by omega
  rw [hcond, ← decompressAmount_compressAmount_iff hnat]
  refine ⟨?_, Iff.rfl⟩
  have hread : varInt (2 ^ 64 - 1) (ByteWriter.varInt 10 (compressAmount out.nValue.toUInt64).toNat ++
      (compressedScript P out.scriptPubKey ++ rest)) =
        some ((compressAmount out.nValue.toUInt64).toNat, compressedScript P out.scriptPubKey ++ rest) := by
    have hlt := (compressAmount out.nValue.toUInt64).toNat_lt
    exact varInt_write (by omega) (by omega) _
  rw [Read.txOut, txOut, append_assoc, bind_read hread,
    bind_read (readScript_writeScript hscript rest), pure_read, UInt64.ofNat_toNat]
  constructor
  · intro h
    have hvalue : (decompressAmount (compressAmount out.nValue.toUInt64)).toInt64 = out.nValue := by
      have h := congrArg (fun r => r.map fun p => p.1.nValue) h
      exact Option.some.inj h
    rw [← UInt64.toUInt64_toInt64 (decompressAmount _), hvalue]
  · intro h
    rw [h, Int64.toInt64_toUInt64]

end

namespace Regtest

/-- The base point of the curve, as an uncompressed key. -/
def basePoint : Bytes :=
  [0x04, 0x79, 0xbe, 0x66, 0x7e, 0xf9, 0xdc, 0xbb, 0xac, 0x55, 0xa0, 0x62, 0x95, 0xce, 0x87, 0x0b, 0x07, 0x02,
    0x9b, 0xfc, 0xdb, 0x2d, 0xce, 0x28, 0xd9, 0x59, 0xf2, 0x81, 0x5b, 0x16, 0xf8, 0x17, 0x98, 0x48, 0x3a, 0xda,
    0x77, 0x26, 0xa3, 0xc4, 0x65, 0x5d, 0xa4, 0xfb, 0xfc, 0x0e, 0x11, 0x08, 0xa8, 0xfd, 0x17, 0xb4, 0x48, 0xa6,
    0x85, 0x54, 0x19, 0x9c, 0x47, 0xd0, 0x8f, 0xfb, 0x10, 0xd4, 0xb8]

/-- The codec that knows the base point alone. -/
def points : PointCodec where
  isFullyValid key := key == basePoint
  decompress key := if key = 0x02 :: (basePoint.drop 1).take 32 then some basePoint else none
  decompress_compress key _ _ hvalid := by
    rw [eq_of_beq hvalid]
    decide +kernel

def largeOut : CTxOut := ⟨MAX_MONEY - 1, scriptForKeyID alice⟩

/-- Its code wraps around, and another amount is read back. -/
theorem largeOut_read_back :
    moneyRange largeOut.nValue = true ∧ largeOut.scriptPubKey.length ≤ MAX_SCRIPT_SIZE ∧
      decompressAmount (compressAmount largeOut.nValue.toUInt64) = 5555605888118076368 ∧
      (∃ out, Read.txOut points (txOut points largeOut) = some (out, []) ∧
        out.nValue = 5555605888118076368 ∧ out ≠ largeOut) := by
  refine ⟨by decide +kernel, by decide +kernel, by decide +kernel, ?_⟩
  exact ⟨⟨5555605888118076368, scriptForKeyID alice⟩, by decide +kernel, rfl, by decide +kernel⟩

theorem largeOut_read_back_iff :
    (Read.txOut points (txOut points largeOut ++ []) = some (largeOut, []) ↔
      largeOut.nValue % 10 = 0 ∨ largeOut.nValue ≤ Int64.ofNat MAX_COMPRESSIBLE) ∧
    (decompressAmount (compressAmount largeOut.nValue.toUInt64) = largeOut.nValue.toUInt64 ↔
      largeOut.nValue % 10 = 0 ∨ largeOut.nValue ≤ Int64.ofNat MAX_COMPRESSIBLE) :=
  readTxOut_writeTxOut_iff (by decide +kernel) (by decide +kernel) []

end Regtest

end Hivecoin

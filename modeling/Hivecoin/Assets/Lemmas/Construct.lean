import Hivecoin.Assets.Construct
import Hivecoin.Assets.Lemmas.Name
import Hivecoin.Base.Lemmas.ByteStream

/-!
# The shape of built scripts
-/

namespace Hivecoin

open Script List

variable {E : Env} {dest data : Bytes} {kind : UInt8}
variable {s : Bytes} {i : Nat} {a : AssetScript}

theorem byteAt_append_left {t} (h : i < s.length) : byteAt (s ++ t) i = byteAt s i := by
  rw [byteAt, byteAt, getD_eq_getElem?_getD, getD_eq_getElem?_getD, List.getElem?_append_left h]

theorem byteAt_append_right {t n} (h : s.length = n) : byteAt (s ++ t) (n + i) = byteAt t i := by
  rw [byteAt, byteAt, getD_eq_getElem?_getD, getD_eq_getElem?_getD,
    List.getElem?_append_right (by omega), h, Nat.add_sub_cancel_left]

theorem drop_eq_byteAt_cons (h : i < s.length) : s.drop i = byteAt s i :: s.drop (i + 1) := by
  rw [drop_eq_getElem_cons h, byteAt, getD_eq_getElem?_getD, List.getElem?_eq_getElem h]
  rfl

theorem drop_eq_take_append (s : Bytes) (i n : Nat) : s.drop i = (s.drop i).take n ++ s.drop (i + n) := by
  rw [← drop_drop, take_append_drop]

theorem length_scriptForKeyID (h : dest.length = 20) : (scriptForKeyID dest).length = 25 := by
  simp [scriptForKeyID, pushBytes, h, OP_PUSHDATA1]

theorem scriptForKeyID_eq (h : dest.length = 20) :
    scriptForKeyID dest = OP_DUP :: OP_HASH160 :: 20 :: (dest ++ [OP_EQUALVERIFY, OP_CHECKSIG]) := by
  simp only [scriptForKeyID, pushBytes, h, OP_PUSHDATA1]
  rfl

theorem pushBytes_short (h : s.length < 76) : pushBytes s = UInt8.ofNat s.length :: s := by
  rw [pushBytes, if_pos (by simpa [OP_PUSHDATA1] using h)]

theorem pushBytes_long (h : 76 ≤ s.length) (h' : s.length ≤ 255) :
    pushBytes s = OP_PUSHDATA1 :: UInt8.ofNat s.length :: s := by
  rw [pushBytes, if_neg (by simp [OP_PUSHDATA1]; omega), if_pos h']
  rfl

theorem lt_length_pushBytes (s : Bytes) : s.length < (pushBytes s).length := by
  unfold pushBytes
  split
  · rw [length_cons]
    omega
  split
  · rw [length_append, length_cons]
    omega
  split
  · rw [length_append, length_cons]
    omega
  · rw [length_append, length_cons]
    omega

/-- How many bytes the push of the asset part takes before the marker. -/
def pushSize (data : Bytes) : Nat := if data.length + 4 < 76 then 1 else 2

/-- Payloads of 110 bytes and more never occur: the length byte could be read as the marker. -/
theorem markerIndex_built (kind : UInt8) (hdest : dest.length = 20) (hdata : data.length < 110) :
    markerIndex (scriptForKeyID dest ++ assetPart kind data) = some (29 + pushSize data) ∧
      byteAt (scriptForKeyID dest ++ assetPart kind data) (29 + pushSize data) = kind ∧
      (scriptForKeyID dest ++ assetPart kind data).drop (30 + pushSize data) = data ++ [OP_DROP] := by
  have hlen := length_scriptForKeyID hdest
  have hat : ∀ i, byteAt (scriptForKeyID dest ++ assetPart kind data) (25 + i) = byteAt (assetPart kind data) i :=
    fun i => byteAt_append_right hlen
  have hdrop : ∀ i, (scriptForKeyID dest ++ assetPart kind data).drop (25 + i) = (assetPart kind data).drop i := by
    intro i
    rw [← hlen, drop_append]
    simp
  rw [markerIndex, hat 2, hat 3, hat 4, hat 5]
  unfold pushSize
  by_cases hshort : data.length + 4 < 76
  · have hpart : assetPart kind data =
        OP_HVN_ASSET :: UInt8.ofNat (data.length + 4) :: HVN_H :: HVN_V :: HVN_N :: kind :: (data ++ [OP_DROP]) := by
      rw [assetPart, pushBytes_short (by simp; omega)]
      rfl
    rw [if_pos hshort, hat 5, hdrop 6, hpart]
    exact ⟨rfl, rfl, rfl⟩
  · have hpart : assetPart kind data = OP_HVN_ASSET :: OP_PUSHDATA1 :: UInt8.ofNat (data.length + 4) ::
        HVN_H :: HVN_V :: HVN_N :: kind :: (data ++ [OP_DROP]) := by
      rw [assetPart, pushBytes_long (by simp; omega) (by simp; omega)]
      rfl
    rw [if_neg hshort, hat 6, hdrop 7, hpart]
    have hne : UInt8.ofNat (data.length + 4) ≠ HVN_H := by
      intro h
      have := congrArg UInt8.toNat h
      rw [UInt8.toNat_ofNat', show HVN_H.toNat = 114 from rfl] at this
      omega
    exact ⟨(if_neg hne).trans rfl, rfl, rfl⟩

theorem length_built (kind : UInt8) (data : Bytes) (hdest : dest.length = 20) :
    31 + data.length < (scriptForKeyID dest ++ assetPart kind data).length := by
  have h := lt_length_pushBytes ([HVN_H, HVN_V, HVN_N, kind] ++ data)
  rw [length_append, length_scriptForKeyID hdest, assetPart]
  simp only [length_append, length_cons, length_nil] at h ⊢
  omega

theorem byteAt_built (hdest : dest.length = 20) :
    byteAt (scriptForKeyID dest ++ assetPart kind data) 25 = OP_HVN_ASSET :=
  byteAt_append_right (i := 0) (length_scriptForKeyID hdest)

theorem isAssetScript_built (hdest : dest.length = 20) (hdata : data.length < 110) :
    isAssetScript (scriptForKeyID dest ++ assetPart kind data) =
      if kind = HVN_T then some ⟨.TX_TRANSFER_ASSET, false, 30 + pushSize data⟩
      else if kind = HVN_Q ∧ (scriptForKeyID dest ++ assetPart kind data).length > 39 then
        some ⟨.TX_NEW_ASSET, false, 30 + pushSize data⟩
      else if kind = HVN_O then some ⟨.TX_NEW_ASSET, true, 30 + pushSize data⟩
      else if kind = HVN_H then some ⟨.TX_REISSUE_ASSET, false, 30 + pushSize data⟩
      else none := by
  obtain ⟨hindex, hkind, -⟩ := markerIndex_built kind hdest hdata
  have hlen := length_built kind data hdest
  rw [isAssetScript, if_pos ⟨by omega, byteAt_built hdest⟩, hindex]
  simp only [hkind, show 29 + pushSize data + 1 = 30 + pushSize data by omega]

theorem isAssetScript_nType (h : isAssetScript s = some a) :
    a.nType = .TX_TRANSFER_ASSET ∨ a.nType = .TX_NEW_ASSET ∨ a.nType = .TX_REISSUE_ASSET := by
  unfold isAssetScript at h
  split at h
  · split at h
    · cases h
    split at h
    · cases h; exact Or.inl rfl
    split at h
    · cases h; exact Or.inr (Or.inl rfl)
    split at h
    · cases h; exact Or.inr (Or.inl rfl)
    split at h
    · cases h; exact Or.inr (Or.inr rfl)
    · cases h
  · cases h

theorem isAssetScript_marker (h : isAssetScript s = some a) : 31 < s.length ∧ byteAt s 25 = OP_HVN_ASSET := by
  unfold isAssetScript at h
  split at h
  · assumption
  · cases h

theorem scriptAddress_asset (h : isAssetScript s = some a) :
    E.scriptAddress s = E.encodeDestination (.keyID ((s.drop 3).take 20)) := by
  have hp2sh : isPayToScriptHash s = false := by
    have hlength : s.length ≠ 23 := by have := (isAssetScript_marker h).1; omega
    simp [isPayToScriptHash, hlength]
  rw [Env.scriptAddress, Env.extractDestination, solver, hp2sh, h]
  simp only [Outcome.test_iff]
  rcases isAssetScript_nType h with ht | ht | ht <;> rw [ht] <;> rfl

theorem scriptAddress_built (hdest : dest.length = 20) (h : isAssetScript (scriptForKeyID dest ++ assetPart kind data) = some a) :
    E.scriptAddress (scriptForKeyID dest ++ assetPart kind data) = E.encodeDestination (.keyID dest) := by
  have hhash : ((scriptForKeyID dest ++ assetPart kind data).drop 3).take 20 = dest := by
    rw [scriptForKeyID_eq hdest]
    simp [← hdest]
  rw [scriptAddress_asset h, hhash]

theorem getOp_push {rest} (h : s.length < 76) :
    getOp (pushBytes s ++ rest) = some (UInt8.ofNat s.length, s, rest) := by
  have hto : (UInt8.ofNat s.length).toNat = s.length := by rw [UInt8.toNat_ofNat']; omega
  have hle : UInt8.ofNat s.length ≤ OP_PUSHDATA4 := by
    rw [UInt8.le_iff_toNat_le, hto, show OP_PUSHDATA4.toNat = 78 from rfl]; omega
  have hlt : UInt8.ofNat s.length < OP_PUSHDATA1 := by
    rw [UInt8.lt_iff_toNat_lt, hto, show OP_PUSHDATA1.toNat = 76 from rfl]; omega
  rw [pushBytes_short h, cons_append, getOp, if_pos hle, if_pos hlt]
  simp [hto]

theorem isPushOnlyUpTo_push {s rest} (h : s.length < 76) (n : Nat) :
    isPushOnlyUpTo (n + 1) (pushBytes s ++ rest) = isPushOnlyUpTo n rest := by
  have hop : UInt8.ofNat s.length ≤ OP_16 := by
    rw [UInt8.le_iff_toNat_le, UInt8.toNat_ofNat', show OP_16.toNat = 96 from rfl]; omega
  have hcons : pushBytes s ++ rest = UInt8.ofNat s.length :: (s ++ rest) := by rw [pushBytes_short h]; rfl
  rw [isPushOnlyUpTo, getOp_push h]
  · simp [hop]
  · simp [hcons]

theorem isPushOnlyUpTo_nil (n : Nat) : isPushOnlyUpTo n [] = true := by cases n <;> rfl

theorem nullScript_eq (hdest : dest.length = 20) (hdata : data.length < 76) :
    OP_HVN_ASSET :: pushBytes dest ++ pushBytes data =
      OP_HVN_ASSET :: 20 :: (dest ++ UInt8.ofNat data.length :: data) := by
  rw [pushBytes_short (by omega), pushBytes_short hdata, hdest]
  rfl

theorem isAssetScript_null (hdest : dest.length = 20) (hdata : data.length < 76) (hsecond : byteAt data 2 ≠ OP_HVN_ASSET) :
    isAssetScript (OP_HVN_ASSET :: pushBytes dest ++ pushBytes data) = none := by
  have hsplit : OP_HVN_ASSET :: pushBytes dest ++ pushBytes data =
      (OP_HVN_ASSET :: 20 :: dest ++ [UInt8.ofNat data.length]) ++ data := by
    rw [nullScript_eq hdest hdata]; simp
  have hat : byteAt (OP_HVN_ASSET :: pushBytes dest ++ pushBytes data) 25 = byteAt data 2 := by
    rw [hsplit]
    exact byteAt_append_right (n := 23) (i := 2) (by simp [hdest])
  rw [isAssetScript, if_neg (fun h => hsecond (hat ▸ h.2))]

/-- A script of two pushes after the marker, if no asset script, pays to the first. -/
theorem scriptAddress_null (hdest : dest.length = 20) (hdata : data.length < 76)
    (hasset : isAssetScript (OP_HVN_ASSET :: pushBytes dest ++ pushBytes data) = none) :
    E.scriptAddress (OP_HVN_ASSET :: pushBytes dest ++ pushBytes data) = E.encodeDestination (.keyID dest) := by
  have hscript := nullScript_eq hdest hdata
  have hpush : isPushOnly (pushBytes dest ++ pushBytes data) = true := by
    have hlen : (pushBytes dest ++ pushBytes data).length = (dest.length + data.length) + 1 + 1 := by
      rw [pushBytes_short (by omega), pushBytes_short hdata]; simp; omega
    have hnil := @isPushOnlyUpTo_push _ [] hdata (dest.length + data.length)
    rw [isPushOnly, hlen, isPushOnlyUpTo_push (by omega)]
    rw [append_nil] at hnil
    rw [hnil, isPushOnlyUpTo_nil]
  have hp2sh : isPayToScriptHash (OP_HVN_ASSET :: pushBytes dest ++ pushBytes data) = false := by
    rw [hscript]
    simp [isPayToScriptHash, byteAt, OP_HVN_ASSET, OP_HASH160]
  have hwitness : isWitnessProgram (OP_HVN_ASSET :: pushBytes dest ++ pushBytes data) = none := by
    rw [hscript, isWitnessProgram]
    split
    · rfl
    · rw [if_pos ⟨show OP_HVN_ASSET ≠ 0 by decide, Or.inr (show OP_HVN_ASSET > OP_16 by decide)⟩]
  rw [Env.scriptAddress, Env.extractDestination, solver, hp2sh, hasset, hwitness]
  simp only [Outcome.test_iff]
  rw [if_neg (by rintro ⟨-, h, -⟩; cases h), if_pos ⟨by simp, rfl, hpush⟩, hscript,
    if_pos ⟨by simp; omega, show (20 : UInt8) ≠ OP_RESERVED by decide⟩]
  simp [← hdest]

end Hivecoin

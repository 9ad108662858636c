import Hivecoin.Assets.Lemmas.Decode
import Mathlib.Data.List.GetD

/-!
# Two readers of an amount

`GetAssetAmountFromScript` and `GetAssetData` differ on owner tokens and on old transfers behind a two-byte push.
-/

namespace Hivecoin

open Script Env ByteReader

variable {isOwner : Bool} {i : Nat}

namespace Read

def transferAfter (strName : Bytes) : ByteReader CAssetTransfer := do
  let nAmount ← int64
  let (message, validIPFS) ← assetHash
  let nExpireTime ← if validIPFS ∧ (← remaining) ≥ 8 then int64 else pure 0
  return { strName, nAmount, message, nExpireTime }

/-- A transfer whose name is taken to have 116 bytes, the code of `t`. -/
def transferOfLetter : ByteReader CAssetTransfer := bytes 116 >>= transferAfter

theorem assetTransfer_eq : assetTransfer = string >>= transferAfter := rfl

theorem string_letter (s : Bytes) : string (HVN_T :: s) = bytes 116 s := by
  have hsize : compactSize MAX_SIZE (HVN_T :: s) = some (116, s) :=
    @ByteReader.compactSize_write 116 MAX_SIZE (by decide) (by decide) s
  rw [string, lengthPrefixed, bind_read hsize]

theorem assetTransfer_letter {script} (hletter : byteAt script 31 = HVN_T) (hlong : script.length > 31) :
    from_ assetTransfer script 31 = from_ transferOfLetter script 32 := by
  have hdrop : script.drop 31 = HVN_T :: script.drop 32 := by
    rw [List.drop_eq_getElem_cons hlong, ← hletter, byteAt, List.getD_eq_getElem _ _ hlong]
  have hread : assetTransfer (HVN_T :: script.drop 32) = transferOfLetter (script.drop 32) := by
    rw [assetTransfer_eq, transferOfLetter]
    simp only [bind, StateT.bind, string_letter]
  rw [from_, from_, hdrop]
  exact congrArg _ hread

end Read

variable {E : Env} {script : Bytes}

theorem isAssetScript_transfer (h : isAssetScript script = some ⟨.TX_TRANSFER_ASSET, isOwner, i⟩) :
    i = 31 ∨ i = 32 ∧ byteAt script 31 = HVN_T ∧ script.length > 31 := by
  unfold isAssetScript at h
  split at h
  · rename_i hlong
    split at h
    · cases h
    · rename_i index hmarker
      have hindex : index = 30 ∨ index = 31 := by
        unfold markerIndex at hmarker
        split at hmarker <;> split at hmarker <;> simp_all
      split at h
      · rename_i hletter
        obtain rfl : index + 1 = i := by
          injection h with h
          injection h
        rcases hindex with rfl | rfl
        · exact Or.inl rfl
        · exact Or.inr ⟨rfl, hletter, hlong.1⟩
      · repeat' split at h
        all_goals cases h
  · cases h

/-- The name of an owner token reads, and an old transfer with its data at byte 32 gives the same amount. -/
structure AmountsReadable (E : Env) (script : Bytes) : Prop where
  owner : ∀ i, isScriptOwnerAsset script = some i → Read.from_ Read.string script i ≠ none
  transfer : E.areTransferScriptsSizeDeployed = false → isScriptTransferAsset script = some 32 →
    (·.nAmount) <$> Read.from_ Read.transferOfLetter script 32 = (·.nAmount) <$> Read.from_ Read.assetTransfer script 32

theorem owner_amount (h : isAssetScript script = some ⟨.TX_NEW_ASSET, true, i⟩) :
    (E.getAssetData script).map (·.nAmount) = getAssetAmountFromScript script ↔ Read.from_ Read.string script i ≠ none := by
  have hi := isScriptOwnerAsset_eq_some.2 h
  simp only [getAssetData, getAssetAmountFromScript, h, ownerAssetFromScript, hi]
  cases hread : Read.from_ Read.string script i <;> simp [hread]

theorem transfer_amount (h : isAssetScript script = some ⟨.TX_TRANSFER_ASSET, isOwner, i⟩) :
    (E.getAssetData script).map (·.nAmount) = getAssetAmountFromScript script ↔
      (·.nAmount) <$> Read.from_ Read.assetTransfer script (if E.areTransferScriptsSizeDeployed then i else 31) =
        (·.nAmount) <$> Read.from_ Read.assetTransfer script i := by
  have hi := isScriptTransferAsset_eq_some.2 ⟨isOwner, h⟩
  simp only [getAssetData, getAssetAmountFromScript, h, transferAssetFromScript, hi]
  cases hread : Read.from_ Read.assetTransfer script (if E.areTransferScriptsSizeDeployed then i else 31) <;> simp [hread]

theorem newAsset_amount (h : isAssetScript script = some ⟨.TX_NEW_ASSET, false, i⟩) :
    (E.getAssetData script).map (·.nAmount) = getAssetAmountFromScript script := by
  have hi := isScriptNewAsset_eq_some.2 h
  simp only [getAssetData, getAssetAmountFromScript, h, assetFromScript, hi]
  cases hread : Read.from_ Read.newAsset script i <;> simp [hread]

theorem reissue_amount (h : isAssetScript script = some ⟨.TX_REISSUE_ASSET, isOwner, i⟩) :
    (E.getAssetData script).map (·.nAmount) = getAssetAmountFromScript script := by
  have hi := isScriptReissueAsset_eq_some.2 ⟨isOwner, h⟩
  simp only [getAssetData, getAssetAmountFromScript, h, reissueAssetFromScript, hi]
  cases hread : Read.from_ Read.reissueAsset script i <;> simp [hread]

theorem transferOfLetter_amount (h : isAssetScript script = some ⟨.TX_TRANSFER_ASSET, isOwner, i⟩) :
    ((·.nAmount) <$> Read.from_ Read.assetTransfer script (if E.areTransferScriptsSizeDeployed then i else 31) =
        (·.nAmount) <$> Read.from_ Read.assetTransfer script i) ↔
      (E.areTransferScriptsSizeDeployed = false → i = 32 →
        (·.nAmount) <$> Read.from_ Read.transferOfLetter script 32 = (·.nAmount) <$> Read.from_ Read.assetTransfer script 32) := by
  cases hrule : E.areTransferScriptsSizeDeployed with
  | true => simp
  | false =>
    rcases isAssetScript_transfer h with rfl | ⟨rfl, hletter, hlong⟩
    · simp
    · simp [Read.assetTransfer_letter hletter hlong]

/-- The two readers agree on whether a script has an amount and which it is. -/
theorem amounts_agree_iff (E : Env) (script : Bytes) :
    (E.getAssetData script).map (·.nAmount) = getAssetAmountFromScript script ↔ AmountsReadable E script := by
  have hkinds : AmountsReadable E script ↔ (∀ i, isScriptOwnerAsset script = some i → Read.from_ Read.string script i ≠ none) ∧
      (E.areTransferScriptsSizeDeployed = false → isScriptTransferAsset script = some 32 →
        (·.nAmount) <$> Read.from_ Read.transferOfLetter script 32 = (·.nAmount) <$> Read.from_ Read.assetTransfer script 32) :=
    ⟨fun h => ⟨h.owner, h.transfer⟩, fun h => ⟨h.1, h.2⟩⟩
  rw [hkinds]
  cases hscript : isAssetScript script with
  | none => simp [getAssetData, getAssetAmountFromScript, isScriptOwnerAsset, isScriptTransferAsset, hscript]
  | some a =>
    obtain ⟨type, isOwner, i⟩ := a
    cases type with
    | TX_NEW_ASSET =>
      cases isOwner with
      | true =>
        rw [owner_amount hscript]
        simp [isScriptOwnerAsset, isScriptTransferAsset, hscript]
      | false =>
        rw [newAsset_amount hscript]
        simp [isScriptOwnerAsset, isScriptTransferAsset, hscript]
    | TX_TRANSFER_ASSET =>
      rw [transfer_amount hscript, transferOfLetter_amount hscript]
      simp [isScriptOwnerAsset, isScriptTransferAsset, hscript]
    | TX_REISSUE_ASSET =>
      rw [reissue_amount hscript]
      simp [isScriptOwnerAsset, isScriptTransferAsset, hscript]
    | _ => simp [getAssetData, getAssetAmountFromScript, isScriptOwnerAsset, isScriptTransferAsset, hscript]

namespace Regtest

/-- An owner script that announces a name of five bytes and ends there. -/
def cutOwnerScript : Bytes :=
  [0x76, 0xa9, 0x14] ++ List.replicate 20 1 ++ [0x88, 0xac, OP_HVN_ASSET, 5, HVN_H, HVN_V, HVN_N, HVN_O, 5]

/-- The script module gives a cut owner script an amount, the asset module refuses it. -/
theorem cut_owner_amounts_differ :
    (env.getAssetData cutOwnerScript).map (·.nAmount) ≠ getAssetAmountFromScript cutOwnerScript := by
  have hdata : (env.getAssetData cutOwnerScript).map (·.nAmount) = none := by decide +kernel
  have hamount : getAssetAmountFromScript cutOwnerScript = some OWNER_ASSET_AMOUNT := by decide +kernel
  rw [hdata, hamount]
  exact fun h => by cases h

end Regtest

end Hivecoin

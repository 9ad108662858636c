import Hivecoin.Assets.Lemmas.Construct

/-!
# What the decoders of asset scripts report
-/

namespace Hivecoin

open Script Option Env Read

variable {E : Env} {s address : Bytes}

theorem isScriptNewAsset_eq_some {i} :
    isScriptNewAsset s = some i ↔ isAssetScript s = some ⟨.TX_NEW_ASSET, false, i⟩ := by
  unfold isScriptNewAsset
  split <;> simp_all

theorem isScriptOwnerAsset_eq_some {i} :
    isScriptOwnerAsset s = some i ↔ isAssetScript s = some ⟨.TX_NEW_ASSET, true, i⟩ := by
  unfold isScriptOwnerAsset
  split <;> simp_all

theorem isScriptReissueAsset_eq_some {i} :
    isScriptReissueAsset s = some i ↔ ∃ b, isAssetScript s = some ⟨.TX_REISSUE_ASSET, b, i⟩ := by
  unfold isScriptReissueAsset
  split <;> simp_all

theorem isScriptTransferAsset_eq_some {i} :
    isScriptTransferAsset s = some i ↔ ∃ b, isAssetScript s = some ⟨.TX_TRANSFER_ASSET, b, i⟩ := by
  unfold isScriptTransferAsset
  split <;> simp_all

theorem assetFromScript_eq_some {asset} :
    E.assetFromScript s = some (asset, address) ↔
      ∃ i, isAssetScript s = some ⟨.TX_NEW_ASSET, false, i⟩ ∧ from_ newAsset s i = some asset ∧
        E.scriptAddress s = address := by
  simp only [assetFromScript, Outcome.some_iff, isScriptNewAsset_eq_some, Prod.mk.injEq, ← and_assoc, exists_and_right,
    exists_eq_right]

theorem ownerAssetFromScript_eq_some {name} :
    E.ownerAssetFromScript s = some (name, address) ↔
      ∃ i, isAssetScript s = some ⟨.TX_NEW_ASSET, true, i⟩ ∧ from_ string s i = some name ∧
        E.scriptAddress s = address := by
  simp only [ownerAssetFromScript, Outcome.some_iff, isScriptOwnerAsset_eq_some, Prod.mk.injEq, ← and_assoc, exists_and_right,
    exists_eq_right]

theorem reissueAssetFromScript_eq_some {reissue} :
    E.reissueAssetFromScript s = some (reissue, address) ↔
      ∃ i b, isAssetScript s = some ⟨.TX_REISSUE_ASSET, b, i⟩ ∧ from_ reissueAsset s i = some reissue ∧
        E.scriptAddress s = address := by
  simp only [reissueAssetFromScript, Outcome.some_iff, isScriptReissueAsset_eq_some, Prod.mk.injEq, ← and_assoc,
    exists_and_right, exists_eq_right]

theorem transferAssetFromScript_eq_some {transfer} :
    E.transferAssetFromScript s = some (transfer, address) ↔
      ∃ i b, isAssetScript s = some ⟨.TX_TRANSFER_ASSET, b, i⟩ ∧
        from_ assetTransfer s (if E.areTransferScriptsSizeDeployed then i else 31) = some transfer ∧
        E.scriptAddress s = address := by
  simp only [transferAssetFromScript, Outcome.some_iff, isScriptTransferAsset_eq_some, Prod.mk.injEq, ← and_assoc,
    exists_and_right, exists_eq_right]

theorem decodeDestination_asset {a} (h : isAssetScript s = some a) :
    E.decodeDestination (E.scriptAddress s) = .keyID ((s.drop 3).take 20) := by
  rw [scriptAddress_asset h]
  exact E.codec.decode_encode _ (by have := (isAssetScript_marker h).1; simp; omega)

theorem getAssetData_destination {data} (h : E.getAssetData s = some data) :
    (isAssetScript s).isSome ∧ data.destination = .keyID ((s.drop 3).take 20) := by
  unfold getAssetData at h
  split at h <;> rename_i hscript
  · simp only [Outcome.some_iff, Prod.exists, assetFromScript_eq_some] at h
    obtain ⟨_, _, ⟨_, _, _, rfl⟩, rfl⟩ := h
    exact ⟨by rw [hscript]; rfl, decodeDestination_asset hscript⟩
  · simp only [Outcome.some_iff, Prod.exists, transferAssetFromScript_eq_some] at h
    obtain ⟨_, _, ⟨_, _, _, _, rfl⟩, rfl⟩ := h
    exact ⟨by rw [hscript]; rfl, decodeDestination_asset hscript⟩
  · simp only [Outcome.some_iff, Prod.exists, ownerAssetFromScript_eq_some] at h
    obtain ⟨_, _, ⟨_, _, _, rfl⟩, rfl⟩ := h
    exact ⟨by rw [hscript]; rfl, decodeDestination_asset hscript⟩
  · simp only [Outcome.some_iff, Prod.exists, reissueAssetFromScript_eq_some] at h
    obtain ⟨_, _, ⟨_, _, _, _, rfl⟩, rfl⟩ := h
    exact ⟨by rw [hscript]; rfl, decodeDestination_asset hscript⟩
  · cases h

end Hivecoin

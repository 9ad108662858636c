import Hivecoin.Cache.MarkRound
import Hivecoin.Chain.Lemmas.Blocks
import Hivecoin.Tx.Lemmas.CheckAssets

/-!
# Accepted null data
-/

namespace Hivecoin

open Outcome CAssetsCache List Option Script

variable {E : Env} {S : Store} {c : CAssetsCache}

theorem verifyMarkChange_ok {flag current already missing}
    (h : verifyMarkChange flag current already missing = .ok ()) : current = !decide (flag ≠ 0) := by
  simp only [verifyMarkChange, ok_iff] at h
  obtain ⟨-, h⟩ := h
  split at h
  · rename_i hf
    simpa [require_eq_ok, hf] using h
  · rename_i hf
    simpa [require_eq_ok, hf] using h

theorem isAssetNameAQualifier_of_isTag {name} (h : IsTag name) : isAssetNameAQualifier name = true := by
  rcases h with h | h
  · simp [isAssetNameAQualifier, nameValid, isAssetNameValid_eq h, (qualifier_shape h).1, Except.toBool]
  · simp [isAssetNameAQualifier, nameValid, isAssetNameValid_eq h, (subQualifier_shape h).1, Except.toBool]

theorem isAssetNameAQualifier_restricted {name} (h : assetTypeOf name = .RESTRICTED) :
    isAssetNameAQualifier name = false ∧ isAssetNameAnRestricted name = true := by
  have hv := isAssetNameValid_eq h (by decide)
  have hr := restrictedIndicator_of_valid hv
  obtain ⟨rest, rfl, -⟩ := markedName_eq hr
  refine ⟨?_, by simp [isAssetNameAnRestricted, nameValid, hv, hr, Except.toBool]⟩
  have hne : (RESTRICTED_CHAR == QUALIFIER_CHAR) = false := by decide
  simp [isAssetNameAQualifier, QUALIFIER_INDICATOR, SUB_QUALIFIER_INDICATOR, markedName, hne]

theorem isUnspendable_of_isNullAsset {script} (h : isNullAsset script = true) :
    isUnspendable script = true := by
  have hfirst : 0 < script.length ∧ byteAt script 0 = OP_HVN_ASSET := by
    simp only [isNullAsset, isNullAssetTxDataScript, isNullGlobalRestrictionAssetTxDataScript, isNullAssetVerifierTxDataScript,
      test_iff] at h
    rcases h with (h | h) | h
    · exact ⟨by omega, h.1.2⟩
    · exact ⟨by omega, h.1.1.2⟩
    · exact ⟨by omega, h.1.1.2⟩
  simp [isUnspendable, hfirst.1, hfirst.2]

theorem contextualCheckNullAssetTxOut_ok {out} (h : contextualCheckNullAssetTxOut E S out = .ok ()) :
    ∃ data address, E.assetNullDataFromScript out.scriptPubKey = some (data, address) ∧
      (IsTag data.asset_name →
        (qualifierType data.flag).isAdd = !checkForAddressQualifier S ∅ data.asset_name address) ∧
      (assetTypeOf data.asset_name = .RESTRICTED →
        (restrictedType data.flag).isFreeze = !checkForAddressRestriction S ∅ data.asset_name address) := by
  simp only [contextualCheckNullAssetTxOut, ok_iff] at h
  obtain ⟨⟨data, address⟩, hd, h⟩ := h
  refine ⟨data, address, hd, fun ht => ?_, fun hr => ?_⟩
  · rw [if_pos (isAssetNameAQualifier_of_isTag ht)] at h
    rw [verifyMarkChange_ok h]
    by_cases hf : data.flag = 0 <;> simp [qualifierType, hf, QualifierType.isAdd]
  · obtain ⟨hq, hr⟩ := isAssetNameAQualifier_restricted hr
    rw [if_neg (by simp [hq]), if_pos hr] at h
    rw [verifyMarkChange_ok h]
    by_cases hf : data.flag = 0 <;> simp [restrictedType, hf, RestrictedType.isFreeze]

theorem contextualCheckGlobalAssetTxOut_ok {out} (h : contextualCheckGlobalAssetTxOut S out = .ok ()) :
    ∃ data, globalAssetNullDataFromScript out.scriptPubKey = some data ∧
      (globalRestrictedType data.flag).isFreeze = !checkForGlobalRestriction S ∅ data.asset_name := by
  simp only [contextualCheckGlobalAssetTxOut, ok_iff] at h
  obtain ⟨data, hd, h⟩ := h
  refine ⟨data, hd, ?_⟩
  rw [verifyMarkChange_ok h]
  by_cases hf : data.flag = 0 <;> simp [globalRestrictedType, hf, GlobalRestrictedType.isFreeze]

theorem nullDataOp_verified {out} (h : checkNullAssetOutput E S c out = .ok ()) :
    (∀ op, nullDataOp E out.scriptPubKey = some op → op.Verified S ∧ E.areRestrictedAssetsDeployed = true) ∧
      undoNullDataOp E out = (nullDataOp E out.scriptPubKey).map CacheOp.inverse := by
  unfold checkNullAssetOutput at h
  unfold undoNullDataOp nullDataOp
  by_cases hd : isNullAssetTxDataScript out.scriptPubKey = true
  · have hn : isNullAsset out.scriptPubKey = true := by simp [isNullAsset, hd]
    simp only [hn, hd, if_true, ok_iff, Check.orReject] at h
    obtain ⟨hdep, h⟩ := h
    obtain ⟨data, address, hdata, htag, hres⟩ := contextualCheckNullAssetTxOut_ok h
    simp only [isUnspendable_of_isNullAsset hn, hd, hdata, test_iff, Bool.not_true, getD_some, bind_some]
    cases ht : assetTypeOf data.asset_name with
    | QUALIFIER => exact ⟨by rintro _ ⟨⟩; exact ⟨⟨Or.inl ht, htag (Or.inl ht)⟩, hdep⟩, rfl⟩
    | SUB_QUALIFIER => exact ⟨by rintro _ ⟨⟩; exact ⟨⟨Or.inr ht, htag (Or.inr ht)⟩, hdep⟩, rfl⟩
    | RESTRICTED => exact ⟨by rintro _ ⟨⟩; exact ⟨hres ht, hdep⟩, rfl⟩
    | _ => exact ⟨by rintro _ ⟨⟩, rfl⟩
  · by_cases hg : isNullGlobalRestrictionAssetTxDataScript out.scriptPubKey = true
    · have hn : isNullAsset out.scriptPubKey = true := by simp [isNullAsset, hg]
      simp only [hn, hd, hg, test_iff, ok_iff, Check.orReject] at h
      obtain ⟨hdep, h⟩ := h
      obtain ⟨data, hdata, hglobal⟩ := contextualCheckGlobalAssetTxOut_ok h
      simp only [isUnspendable_of_isNullAsset hn, hd, hg, hdata, test_iff, Bool.not_true, getD_some, map_some]
      exact ⟨by rintro _ ⟨⟩; exact ⟨hglobal, hdep⟩, rfl⟩
    · simp [hd, hg]

theorem checkTxAssets_nullOutputs {view mempool fm fu tx v} (h : checkTxAssets E S c view mempool fm fu tx = .ok v) :
    ∀ out ∈ tx.vout, checkNullAssetOutput E S c out = .ok () := by
  simp only [checkTxAssets, ok_iff] at h
  obtain ⟨-, _, -, _, hout, -⟩ := h
  intro out hmem
  obtain ⟨_, _, hstep⟩ := foldlM_step hout hmem
  simp only [addOutput, ok_iff] at hstep
  exact hstep.2.1

def AcceptedTx (E : Env) (S : Store) (tx : CTransaction) : Prop :=
  ∃ c view mempool fCheckMempool v, checkTxAssets E S c view mempool fCheckMempool false tx = .ok v

theorem nullOps_verified {tx} (h : AcceptedTx E S tx) :
    (∀ op ∈ nullOps E tx, op.Verified S) ∧ undoNullOps E tx = (nullOps E tx).map CacheOp.inverse := by
  obtain ⟨c, view, mempool, fm, v, h⟩ := h
  have hout := checkTxAssets_nullOutputs h
  unfold nullOps undoNullOps
  cases hdep : E.areAssetsDeployed with
  | false => simp
  | true =>
    simp only [if_true, Bool.true_and]
    refine ⟨fun op hop => ?_, ?_⟩
    · obtain ⟨out, hmem, hop⟩ := mem_filterMap.mp hop
      exact ((nullDataOp_verified (hout out hmem)).1 op hop).1
    · rw [map_filterMap]
      split
      · exact filterMap_congr fun out hmem => (nullDataOp_verified (hout out hmem)).2
      · rename_i hres
        refine (filterMap_eq_nil_iff.mpr fun out hmem => ?_).symm
        cases hop : nullDataOp E out.scriptPubKey with
        | none => rfl
        | some op => exact absurd ((nullDataOp_verified (hout out hmem)).1 op hop).2 hres

end Hivecoin

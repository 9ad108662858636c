import Hivecoin.Cache.Operations

/-!
# What each cache operation changes
-/

namespace Hivecoin

open CAssetsCache Option

/-! ## Records and balances -/

namespace CAssetsCache

/-- `c'` differs from `c` in balances, owner tokens and transfers only. -/
def SameRecords (c c' : CAssetsCache) : Prop :=
  c' = { c with
    mapAssetsAddressAmount := c'.mapAssetsAddressAmount
    newOwnerAssets := c'.newOwnerAssets
    newTransferAssets := c'.newTransferAssets
    vUndoAssetAmount := c'.vUndoAssetAmount
    vSpentAssets := c'.vSpentAssets }

variable {E : Env} {S : Store} {c c' : CAssetsCache}

theorem SameRecords.refl (c : CAssetsCache) : SameRecords c c := rfl

theorem SameRecords.trans {c1 c2 c3} (h : SameRecords c1 c2) (h' : SameRecords c2 c3) : SameRecords c1 c3 := by
  unfold SameRecords at *
  rw [h']
  rw [h]

theorem sameRecords_setAmount (pair : Bytes × Bytes) (amount : CAmount) :
    SameRecords c (c.setAmount pair amount) := rfl

theorem sameRecords_setAmountIfIndexed (pair : Bytes × Bytes) (amount : CAmount) :
    SameRecords c (c.setAmountIfIndexed E pair amount) := by
  unfold setAmountIfIndexed
  split <;> rfl

theorem sameRecords_addTransferAsset (transfer : CAssetTransfer) (address : Bytes) (out : COutPoint) :
    SameRecords c (c.addTransferAsset E S transfer address out) := by
  have h := @sameRecords_setAmountIfIndexed E c
  unfold addTransferAsset addToAssetBalance
  exact (h _ _).trans rfl

theorem sameRecords_addOwnerAsset (name address : Bytes) : SameRecords c (c.addOwnerAsset E name address) :=
  @SameRecords.trans c { c with newOwnerAssets := c.newOwnerAssets.addKeep name address } _ rfl
    (sameRecords_setAmountIfIndexed _ _)

theorem sameRecords_removeOwnerAsset (name address : Bytes) :
    SameRecords c (c.removeOwnerAsset E name address) :=
  @SameRecords.trans c { c with newOwnerAssets := c.newOwnerAssets.removeKeep name address } _ rfl
    (sameRecords_setAmountIfIndexed _ _)

theorem sameRecords_removeTransfer {transfer address out}
    (h : c.removeTransfer E S transfer address out = some c') : SameRecords c c' := by
  simp only [removeTransfer, undoTransfer, Outcome.some_iff] at h
  obtain ⟨c1, hu, rfl⟩ := h
  have h1 : SameRecords c c1 := by
    split at hu
    · simp only [bind_eq_some_iff] at hu
      obtain ⟨best, -, hb⟩ := hu
      split at hb
      · cases hb
      · cases hb; rfl
    · cases hu; rfl
  exact h1.trans rfl

theorem sameRecords_trySpendCoin {txOut} (h : c.trySpendCoin E S txOut = some c') : SameRecords c c' := by
  unfold trySpendCoin at h
  split at h
  · split at h
    · split at h
      · cases h
        unfold spendAmount
        split
        · split <;> rfl
        · rfl
      · cases h
    · cases h
  · cases h; rfl

theorem sameRecords_undoAssetCoin {coin} (h : c.undoAssetCoin E S coin = some c') : SameRecords c c' := by
  simp only [undoAssetCoin, bind_eq_bind, bind_eq_some_iff] at h
  obtain ⟨⟨name, address, nAmount⟩, -, h⟩ := h
  split at h
  · cases h
  · cases h
    exact (sameRecords_setAmountIfIndexed _ _).trans rfl

theorem addNewAsset_spec {asset address nHeight blockHash}
    (h : c.addNewAsset E S asset address nHeight blockHash = some c') :
    checkIfAssetExists E S c asset.strName = false ∧
      SameRecords { c with newAssets := c.newAssets.addKeep asset.strName ⟨asset, address, nHeight, blockHash⟩ }
        c' := by
  unfold addNewAsset at h
  split at h
  · cases h
  · rename_i he
    cases h
    exact ⟨by simpa using he, sameRecords_setAmountIfIndexed _ _⟩

theorem removeNewAsset_spec {asset address}
    (h : c.removeNewAsset E S asset address = some c') :
    checkIfAssetExists E S c asset.strName = true ∧
      SameRecords { c with newAssets := c.newAssets.removeKeep asset.strName ⟨asset, address, 0, 0⟩ } c' := by
  unfold removeNewAsset at h
  split at h
  · rename_i he
    cases h
    exact ⟨he, sameRecords_setAmountIfIndexed _ _⟩
  · cases h

theorem addReissueAsset_spec {reissue address out}
    (h : c.addReissueAsset E S reissue address out = some c') :
    ∃ data, getAssetMetaDataIfExists E S c reissue.strName = some data ∧
      SameRecords { c with
        mapReissuedAssetData := c.mapReissuedAssetData.insert reissue.strName
          (applyReissue ((c.mapReissuedAssetData.get? reissue.strName).getD data.asset) reissue)
        newReissue := c.newReissue.addKeep out ⟨reissue, address, data.nHeight, data.blockHash⟩ } c' := by
  simp only [addReissueAsset, Outcome.some_iff] at h
  obtain ⟨data, hd, rfl⟩ := h
  exact ⟨data, hd, sameRecords_setAmountIfIndexed _ _⟩

theorem removeReissueAsset_spec {reissue address out vUndo}
    (h : c.removeReissueAsset E S reissue address out vUndo = some c') :
    ∃ data, getAssetMetaDataIfExists E S c reissue.strName = some data ∧
      let undo := findUndo vUndo reissue.strName
      let assetData := unapplyReissue data.asset reissue undo
      SameRecords ({ c with
        mapReissuedAssetData := c.mapReissuedAssetData.insert assetData.strName assetData
        newReissue := c.newReissue.removeKeep out ⟨reissue, address, data.nHeight, data.blockHash⟩
        : CAssetsCache }.undoVerifier assetData.strName undo) c' := by
  simp only [removeReissueAsset, Outcome.some_iff] at h
  obtain ⟨data, hd, h⟩ := h
  refine ⟨data, hd, ?_⟩
  split at h
  · split at h
    · cases h
    · split at h
      · cases h
      · cases h; exact sameRecords_setAmount _ _
  · cases h; exact SameRecords.refl _

end CAssetsCache

theorem CAssetsCache.undoVerifier_eq (c : CAssetsCache) (name : Bytes) (undo : Option CBlockAssetUndo) :
    c.undoVerifier name undo =
      { c with newRestrictedVerifier := (c.undoVerifier name undo).newRestrictedVerifier } := by
  unfold undoVerifier
  split
  · split <;> rfl
  · rfl

theorem CAssetsCache.noteRootQualifier_eq (c : CAssetsCache) (name address : Bytes) (gets : Bool) :
    c.noteRootQualifier name address gets =
      { c with
        mapRootQualifierAddressesAdd := (c.noteRootQualifier name address gets).mapRootQualifierAddressesAdd
        mapRootQualifierAddressesRemove :=
          (c.noteRootQualifier name address gets).mapRootQualifierAddressesRemove } := by
  unfold noteRootQualifier
  split
  · split <;> rfl
  · rfl

namespace CacheOp

def onRecords (E : Env) (S : Store) (c : CAssetsCache) : CacheOp → Option CAssetsCache
  | addNewAsset asset address nHeight blockHash =>
    if checkIfAssetExists E S c asset.strName then none
    else some { c with
      newAssets := c.newAssets.addKeep asset.strName ⟨asset, address, nHeight, blockHash⟩ }
  | removeNewAsset asset address =>
    if checkIfAssetExists E S c asset.strName then
      some { c with newAssets := c.newAssets.removeKeep asset.strName ⟨asset, address, 0, 0⟩ }
    else none
  | addReissueAsset reissue address out =>
    (getAssetMetaDataIfExists E S c reissue.strName).map fun data => { c with
      mapReissuedAssetData := c.mapReissuedAssetData.insert reissue.strName
        (applyReissue ((c.mapReissuedAssetData.get? reissue.strName).getD data.asset) reissue)
      newReissue := c.newReissue.addKeep out ⟨reissue, address, data.nHeight, data.blockHash⟩ }
  | removeReissueAsset reissue address out vUndo =>
    (getAssetMetaDataIfExists E S c reissue.strName).map fun data =>
      let undo := findUndo vUndo reissue.strName
      let assetData := unapplyReissue data.asset reissue undo
      { c with
        mapReissuedAssetData := c.mapReissuedAssetData.insert assetData.strName assetData
        newReissue := c.newReissue.removeKeep out ⟨reissue, address, data.nHeight, data.blockHash⟩
        : CAssetsCache }.undoVerifier assetData.strName undo
  | addRestrictedVerifier name verifier => some (c.addRestrictedVerifier name verifier)
  | removeRestrictedVerifier name verifier undoing => some (c.removeRestrictedVerifier name verifier undoing)
  | addQualifierAddress name address type => some (c.addQualifierAddress name address type)
  | removeQualifierAddress name address type => some (c.removeQualifierAddress name address type)
  | addRestrictedAddress name address type => some (c.addRestrictedAddress name address type)
  | removeRestrictedAddress name address type => some (c.removeRestrictedAddress name address type)
  | addGlobalRestricted name type => some (c.addGlobalRestricted name type)
  | removeGlobalRestricted name type => some (c.removeGlobalRestricted name type)
  | _ => some c

variable {E : Env} {S : Store} {c c' : CAssetsCache} {op : CacheOp}

theorem apply_records (h : op.apply E S c = some c') :
    ∃ c1, op.onRecords E S c = some c1 ∧ SameRecords c1 c' := by
  cases op with
  | addNewAsset =>
    obtain ⟨he, hs⟩ := addNewAsset_spec h
    exact ⟨_, by simp only [onRecords, he, Outcome.test_iff], hs⟩
  | removeNewAsset =>
    obtain ⟨he, hs⟩ := removeNewAsset_spec h
    exact ⟨_, by simp only [onRecords, he, if_true], hs⟩
  | addReissueAsset =>
    obtain ⟨data, hd, hs⟩ := addReissueAsset_spec h
    exact ⟨_, by simp only [onRecords, hd, map_some], hs⟩
  | removeReissueAsset =>
    obtain ⟨data, hd, hs⟩ := removeReissueAsset_spec h
    exact ⟨_, by simp only [onRecords, hd, map_some], hs⟩
  | addOwnerAsset => cases h; exact ⟨c, rfl, sameRecords_addOwnerAsset _ _⟩
  | removeOwnerAsset => cases h; exact ⟨c, rfl, sameRecords_removeOwnerAsset _ _⟩
  | addTransferAsset => cases h; exact ⟨c, rfl, sameRecords_addTransferAsset _ _ _⟩
  | removeTransfer => exact ⟨c, rfl, sameRecords_removeTransfer h⟩
  | trySpendCoin => exact ⟨c, rfl, sameRecords_trySpendCoin h⟩
  | undoAssetCoin => exact ⟨c, rfl, sameRecords_undoAssetCoin h⟩
  | _ => exact ⟨c', h, rfl⟩

def onNewAssets (p : Pending Bytes CAssetCacheNewAsset) : CacheOp → Pending Bytes CAssetCacheNewAsset
  | addNewAsset asset address nHeight blockHash => p.addKeep asset.strName ⟨asset, address, nHeight, blockHash⟩
  | removeNewAsset asset address => p.removeKeep asset.strName ⟨asset, address, 0, 0⟩
  | _ => p

theorem apply_newAssets (h : op.apply E S c = some c') : c'.newAssets = op.onNewAssets c.newAssets := by
  obtain ⟨c1, h1, hs⟩ := apply_records h
  rw [hs]
  cases op with
  | addNewAsset =>
    simp only [onRecords, Outcome.some_iff] at h1
    rw [← h1.2]; rfl
  | removeNewAsset =>
    simp only [onRecords, Outcome.some_iff] at h1
    rw [← h1.2]; rfl
  | addReissueAsset =>
    simp only [onRecords, map_eq_some_iff] at h1
    obtain ⟨_, _, rfl⟩ := h1; rfl
  | removeReissueAsset =>
    simp only [onRecords, map_eq_some_iff] at h1
    obtain ⟨_, _, rfl⟩ := h1
    rw [undoVerifier_eq]; rfl
  | addQualifierAddress name address type =>
    cases h1
    rw [CAssetsCache.addQualifierAddress, noteRootQualifier_eq]; rfl
  | removeQualifierAddress name address type =>
    cases h1
    rw [CAssetsCache.removeQualifierAddress, noteRootQualifier_eq]; rfl
  | _ => cases h1; rfl

end CacheOp

section

variable {E : Env} {S : Store} {c c' : CAssetsCache} {reissue : CReissueAsset} {address : Bytes} {out : COutPoint}
  {vUndo : List (Bytes × CBlockAssetUndo)}

theorem takeReissued_eq (pair : Bytes × Bytes) (nAmount : CAmount) :
    (if (takeReissued E S c pair nAmount).1 then some (takeReissued E S c pair nAmount).2 else none) =
      if E.fAssetIndex then
        if bestAssetAddressAmount E S c pair = none ∧ nAmount ≠ 0 then none
        else if (bestAssetAddressAmount E S c pair).getD 0 - nAmount < 0 then none
        else some (c.setAmount pair ((bestAssetAddressAmount E S c pair).getD 0 - nAmount))
      else some c := by
  unfold takeReissued
  by_cases hindex : E.fAssetIndex = true
  · by_cases hnone : bestAssetAddressAmount E S c pair = none ∧ nAmount ≠ 0
    · simp [hindex, hnone]
    · by_cases hneg : (bestAssetAddressAmount E S c pair).getD 0 - nAmount < 0 <;> simp [hindex, hnone, hneg]
  · simp [hindex]

theorem removeReissueAsset_eq_call : c.removeReissueAsset E S reissue address out vUndo =
    if (removeReissueAssetCall E S c reissue address out vUndo).1 then
      some (removeReissueAssetCall E S c reissue address out vUndo).2 else none := by
  unfold removeReissueAsset removeReissueAssetCall
  cases getAssetMetaDataIfExists E S c reissue.strName with
  | none => rfl
  | some data => exact (takeReissued_eq ..).symm

/-- No record is both to be added and to be removed. -/
structure CAssetsCache.Disjoint (c : CAssetsCache) : Prop where
  newAssets : c.newAssets.Disjoint
  owner : c.newOwnerAssets.Disjoint
  reissue : c.newReissue.Disjoint
  transfer : c.newTransferAssets.Disjoint
  verifier : c.newRestrictedVerifier.Disjoint
  qualifier : c.newQualifierAddress.Disjoint
  restricted : c.newRestrictedAddress.Disjoint
  global : c.newRestrictedGlobal.Disjoint

theorem disjoint_empty : (∅ : CAssetsCache).Disjoint := by
  constructor <;> exact Pending.disjoint_empty

/-- Balances and root qualifiers are kept elsewhere. -/
theorem CAssetsCache.Disjoint.congr (h : c.Disjoint) (hsame : c' = { c with
      mapAssetsAddressAmount := c'.mapAssetsAddressAmount
      mapReissuedAssetData := c'.mapReissuedAssetData
      vUndoAssetAmount := c'.vUndoAssetAmount
      vSpentAssets := c'.vSpentAssets
      mapRootQualifierAddressesAdd := c'.mapRootQualifierAddressesAdd
      mapRootQualifierAddressesRemove := c'.mapRootQualifierAddressesRemove }) : c'.Disjoint := by
  rw [hsame]
  exact ⟨h.newAssets, h.owner, h.reissue, h.transfer, h.verifier, h.qualifier, h.restricted, h.global⟩

theorem CAssetsCache.Disjoint.setAmountIfIndexed (h : c.Disjoint) (pair : Bytes × Bytes) (amount : CAmount) :
    (c.setAmountIfIndexed E pair amount).Disjoint := by
  unfold CAssetsCache.setAmountIfIndexed
  split
  · exact h.congr rfl
  · exact h

theorem CAssetsCache.Disjoint.undoVerifier (h : c.Disjoint) (name : Bytes) (undo : Option CBlockAssetUndo) :
    (c.undoVerifier name undo).Disjoint := by
  unfold CAssetsCache.undoVerifier
  repeat' split
  · exact { h with verifier := h.verifier.removeKeep _ _ }
  · exact h
  · exact h

theorem CAssetsCache.Disjoint.noteRootQualifier (h : c.Disjoint) (name address : Bytes) (gets : Bool) :
    (c.noteRootQualifier name address gets).Disjoint := by
  rw [noteRootQualifier_eq]
  exact h.congr rfl

theorem CAssetsCache.Disjoint.removeReissueAssetCall (h : c.Disjoint) :
    (CAssetsCache.removeReissueAssetCall E S c reissue address out vUndo).2.Disjoint := by
  unfold CAssetsCache.removeReissueAssetCall
  cases getAssetMetaDataIfExists E S c reissue.strName with
  | none => exact h
  | some data =>
    have hedited : (c.unappliedReissue reissue address out data (findUndo vUndo reissue.strName)).Disjoint := by
      apply CAssetsCache.Disjoint.undoVerifier
      exact ⟨h.newAssets, h.owner, h.reissue.removeKeep _ _, h.transfer, h.verifier, h.qualifier, h.restricted, h.global⟩
    unfold takeReissued
    dsimp only
    repeat' split
    · exact hedited
    · exact hedited.congr rfl
    · exact hedited

theorem CAssetsCache.Disjoint.apply {op : CacheOp} (h : c.Disjoint) (happ : op.apply E S c = some c') : c'.Disjoint := by
  cases op with
  | addNewAsset asset address nHeight blockHash =>
    simp only [CacheOp.apply, addNewAsset, Outcome.some_iff] at happ
    rw [← happ.2]
    apply CAssetsCache.Disjoint.setAmountIfIndexed
    exact { h with newAssets := h.newAssets.addKeep _ _ }
  | removeNewAsset asset address =>
    simp only [CacheOp.apply, removeNewAsset, Outcome.some_iff] at happ
    rw [← happ.2]
    apply CAssetsCache.Disjoint.setAmountIfIndexed
    exact { h with newAssets := h.newAssets.removeKeep _ _ }
  | addReissueAsset reissue address out =>
    simp only [CacheOp.apply, addReissueAsset, Outcome.some_iff] at happ
    obtain ⟨data, -, rfl⟩ := happ
    apply CAssetsCache.Disjoint.setAmountIfIndexed
    exact { h with reissue := h.reissue.addKeep _ _ }
  | removeReissueAsset reissue address out vUndo =>
    rw [CacheOp.apply, removeReissueAsset_eq_call, ite_none_right_eq_some, some.injEq] at happ
    rw [← happ.2]
    exact h.removeReissueAssetCall
  | addOwnerAsset name address =>
    cases happ
    apply CAssetsCache.Disjoint.setAmountIfIndexed
    exact { h with owner := h.owner.addKeep _ _ }
  | removeOwnerAsset name address =>
    cases happ
    apply CAssetsCache.Disjoint.setAmountIfIndexed
    exact { h with owner := h.owner.removeKeep _ _ }
  | addTransferAsset transfer address out =>
    cases happ
    have hamount : (addToAssetBalance E S c transfer.strName address transfer.nAmount).Disjoint := h.setAmountIfIndexed _ _
    exact { hamount with transfer := hamount.transfer.addKeep _ _ }
  | removeTransfer transfer address out =>
    simp only [CacheOp.apply, removeTransfer, Outcome.some_iff] at happ
    obtain ⟨c1, hundo, rfl⟩ := happ
    have hamount : c1.Disjoint := by
      simp only [undoTransfer, bind_eq_bind] at hundo
      split at hundo
      · obtain ⟨best, -, hundo⟩ := bind_eq_some_iff.mp hundo
        rw [ite_none_left_eq_some, some.injEq] at hundo
        exact hundo.2 ▸ h.congr rfl
      · cases hundo
        exact h
    exact { hamount with transfer := hamount.transfer.removeKeep _ _ }
  | trySpendCoin txOut =>
    simp only [CacheOp.apply, trySpendCoin] at happ
    repeat' split at happ
    all_goals cases happ
    · unfold spendAmount
      repeat' split
      · exact h.congr rfl
      · exact h
      · exact h
    · exact h
  | undoAssetCoin coin =>
    simp only [CacheOp.apply, undoAssetCoin, Outcome.some_iff] at happ
    obtain ⟨spent, -, -, rfl⟩ := happ
    exact (h.setAmountIfIndexed _ _).congr rfl
  | addRestrictedVerifier name verifier => cases happ; exact { h with verifier := h.verifier.addKeep _ _ }
  | removeRestrictedVerifier name verifier undoing => cases happ; exact { h with verifier := h.verifier.removeKeep _ _ }
  | addQualifierAddress name address type =>
    cases happ
    have hnoted := h.noteRootQualifier name address type.isAdd
    exact { hnoted with qualifier := hnoted.qualifier.addOver _ _ }
  | removeQualifierAddress name address type =>
    cases happ
    have hnoted := h.noteRootQualifier name address (!type.isAdd)
    exact { hnoted with qualifier := hnoted.qualifier.removeOver _ _ }
  | addRestrictedAddress name address type => cases happ; exact { h with restricted := h.restricted.addOver _ _ }
  | removeRestrictedAddress name address type => cases happ; exact { h with restricted := h.restricted.removeOver _ _ }
  | addGlobalRestricted name type => cases happ; exact { h with global := h.global.addOver _ _ }
  | removeGlobalRestricted name type => cases happ; exact { h with global := h.global.removeOver _ _ }

end

theorem runOps_disjoint {E S} {c : CAssetsCache} {ops}
    (h : runOps E S ∅ ops = some c) : c.Disjoint :=
  runOps_induct CAssetsCache.Disjoint h disjoint_empty fun _ _ _ _ happ hc => hc.apply happ

end Hivecoin

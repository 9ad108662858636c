import Hivecoin.Cache.Lemmas.Marks
import Hivecoin.Chain.Block

/-!
# The asset effects of a transaction as cache operations

The calls of cache operations that `AddCoins` and `DisconnectBlock` make, listed.
-/

namespace Hivecoin

open CAssetsCache List Option CNullAssetTxData CNewAsset

/-! ## Connecting -/

section

variable (E : Env) (S : Store)

def issueOp (issue : Option (CNewAsset × Bytes)) (nHeight : Nat) (blockHash : Uint256) : CacheOp :=
  .addNewAsset (issue.getD (null, [])).1 (issue.getD (null, [])).2 nHeight blockHash

def reissuedAsset (c : CAssetsCache) (name : Bytes) : CNewAsset :=
  match getAssetMetaDataIfExists E S c name with
  | some data => data.asset
  | none => null

def reissueOps (c : CAssetsCache) (tx : CTransaction) : List CacheOp :=
  let r := (E.reissueAssetFromTransaction tx).getD (CReissueAsset.null, [])
  let asset := reissuedAsset E S c r.1.strName
  .addReissueAsset r.1 r.2 ⟨tx.hash, tx.vout.length - 1⟩ ::
    ((reissueVerifier asset tx).map (CacheOp.addRestrictedVerifier asset.strName)).toList

def restrictedOps (tx : CTransaction) (nHeight : Nat) (blockHash : Uint256) : List CacheOp :=
  let issue := E.restrictedAssetFromTransaction tx
  issueOp issue nHeight blockHash ::
    ((firstVerifier tx).map fun v =>
      .addRestrictedVerifier (issue.getD (null, [])).1.strName (v.getD [])).toList

def uniqueOps (tx : CTransaction) (nHeight : Nat) (blockHash : Uint256) : List CacheOp :=
  (tx.vout.filter fun out => E.isScriptNewUniqueAsset out.scriptPubKey).map fun out =>
    issueOp (E.assetFromScript out.scriptPubKey) nHeight blockHash

def kindOps (c : CAssetsCache) (tx : CTransaction) (nHeight : Nat) (blockHash : Uint256) : List CacheOp :=
  if E.isNewAsset tx then
    let owner := (E.ownerFromTransaction tx).getD ([], [])
    [issueOp (E.assetFromTransaction tx) nHeight blockHash, .addOwnerAsset owner.1 owner.2]
  else if Env.isReissueAsset tx then reissueOps E S c tx
  else if E.isNewUniqueAsset tx then uniqueOps E tx nHeight blockHash
  else if E.isNewMsgChannelAsset tx then [issueOp (E.msgChannelAssetFromTransaction tx) nHeight blockHash]
  else if E.isNewQualifierAsset tx then [issueOp (E.qualifierAssetFromTransaction tx) nHeight blockHash]
  else if E.isNewRestrictedAsset tx then restrictedOps E tx nHeight blockHash
  else []

variable (script : Bytes)

def transferOp (out : COutPoint) : Option CacheOp :=
  match E.getAssetData script with
  | some data =>
    if data.type = .TX_TRANSFER_ASSET ∧ 0 < data.nAmount then
      some (.addTransferAsset ⟨data.assetName, data.nAmount, data.message,
        if data.message = [] then 0 else data.expireTime⟩ (E.encodeDestination data.destination) out)
    else none
  | none => none

def nullDataOp : Option CacheOp :=
  if Script.isNullAssetTxDataScript script then
    let d := (E.assetNullDataFromScript script).getD (null, [])
    match assetTypeOf d.1.asset_name with
    | .RESTRICTED => some (.addRestrictedAddress d.1.asset_name d.2 (restrictedType d.1.flag))
    | .QUALIFIER | .SUB_QUALIFIER => some (.addQualifierAddress d.1.asset_name d.2 (qualifierType d.1.flag))
    | _ => none
  else if Script.isNullGlobalRestrictionAssetTxDataScript script then
    let data := (globalAssetNullDataFromScript script).getD null
    some (.addGlobalRestricted data.asset_name (globalRestrictedType data.flag))
  else none

def outOps (txid : Uint256) (out : CTxOut × Nat) : List CacheOp :=
  (transferOp E out.1.scriptPubKey ⟨txid, out.2⟩).toList ++ (nullDataOp E out.1.scriptPubKey).toList

def txOps (c : CAssetsCache) (tx : CTransaction) (nHeight : Nat) (blockHash : Uint256) : List CacheOp :=
  if E.areAssetsDeployed then
    kindOps E S c tx nHeight blockHash ++ tx.vout.zipIdx.flatMap (outOps E tx.hash)
  else []

variable {E S} {c : CAssetsCache} {tx : CTransaction} {nHeight : Nat} {blockHash : Uint256}

theorem issueAsset_eq (issue : Option (CNewAsset × Bytes)) :
    issueAsset E S c issue nHeight blockHash = tryOps E S c [issueOp issue nHeight blockHash] := rfl

theorem addUniqueTx_eq :
    addUniqueTx E S c tx nHeight blockHash = tryOps E S c (uniqueOps E tx nHeight blockHash) := by
  rw [addUniqueTx, tryOps, uniqueOps, foldl_map, foldl_filter]
  rfl

theorem addReissueTx_fst : (addReissueTx E S c tx).1 = tryOps E S c (reissueOps E S c tx) := by
  simp only [addReissueTx, reissueOps, reissuedAsset, tryOps_cons]
  cases reissueVerifier _ tx <;> rfl

theorem addRestrictedTx_eq :
    addRestrictedTx E S c tx nHeight blockHash = tryOps E S c (restrictedOps E tx nHeight blockHash) := by
  simp only [addRestrictedTx, restrictedOps, issueAsset_eq, tryOps_cons]
  cases firstVerifier tx <;> rfl

theorem addAssetTx_fst :
    (addAssetTx E S c tx nHeight blockHash).1 = tryOps E S c (kindOps E S c tx nHeight blockHash) := by
  unfold addAssetTx kindOps
  split
  · rfl
  split
  · exact addReissueTx_fst
  split
  · exact addUniqueTx_eq
  split
  · rfl
  split
  · rfl
  split
  · exact addRestrictedTx_eq
  · rfl

theorem addTransferOut_eq (out : COutPoint) :
    addTransferOut E S c script out = tryOps E S c (transferOp E script out).toList := by
  unfold addTransferOut transferOp
  cases E.getAssetData script with
  | none => rfl
  | some data =>
    simp only
    split <;> rfl

theorem addNullDataOut_eq : addNullDataOut E c script = tryOps E S c (nullDataOp E script).toList := by
  unfold addNullDataOut nullDataOp
  split
  · generalize (E.assetNullDataFromScript script).getD (null, []) = d
    obtain ⟨data, address⟩ := d
    simp only
    cases assetTypeOf data.asset_name <;> rfl
  · split <;> rfl

theorem addAssets_fst :
    (addAssets E S c tx nHeight blockHash).1 = tryOps E S c (txOps E S c tx nHeight blockHash) := by
  unfold addAssets txOps
  split
  · simp only [tryOps_append, ← addAssetTx_fst]
    generalize (addAssetTx E S c tx nHeight blockHash).1 = c1
    rw [tryOps, foldl_flatMap]
    congr 1
    funext c out
    rw [addOutAssets, addTransferOut_eq, @addNullDataOut_eq E S, ← tryOps_append]
    rfl
  · rfl

end

/-! ## Disconnecting -/

section

variable (E : Env) (S : Store)

def unissueOp (issue : CNewAsset × Bytes) : CacheOp := .removeNewAsset issue.1 issue.2

/-- The verifier that comes with the issuance of a restricted asset, as it is undone. -/
def unissueVerifierOp (tx : CTransaction) : Option CacheOp := do
  let issue ← E.restrictedAssetFromTransaction tx
  let out ← lastVerifierOut E tx
  let verifier ← assetNullVerifierDataFromScript out.scriptPubKey
  return .removeRestrictedVerifier issue.1.strName verifier false

/-- A reissue is undone only while its asset exists. -/
def undoReissueOps (c : CAssetsCache) (tx : CTransaction) (vUndo : List (Bytes × CBlockAssetUndo)) :
    List CacheOp :=
  match E.reissueAssetFromTransaction tx with
  | some r =>
    if checkIfAssetExists E S c r.1.strName then
      [.removeReissueAsset r.1 r.2 ⟨tx.hash, tx.vout.length - 1⟩ vUndo]
    else []
  | none => []

def undoKindOps (c : CAssetsCache) (tx : CTransaction) (vUndo : List (Bytes × CBlockAssetUndo)) :
    List CacheOp :=
  if E.isNewAsset tx then
    ((E.assetFromTransaction tx).map unissueOp).toList ++
      ((E.ownerFromTransaction tx).map fun o => CacheOp.removeOwnerAsset o.1 o.2).toList
  else if Env.isReissueAsset tx then undoReissueOps E S c tx vUndo
  else if E.isNewUniqueAsset tx then
    (tx.vout.filter fun out => E.isScriptNewUniqueAsset out.scriptPubKey).filterMap fun out =>
      (E.assetFromScript out.scriptPubKey).map unissueOp
  else if E.isNewMsgChannelAsset tx then ((E.msgChannelAssetFromTransaction tx).map unissueOp).toList
  else if E.isNewQualifierAsset tx then ((E.qualifierAssetFromTransaction tx).map unissueOp).toList
  else if E.isNewRestrictedAsset tx then
    ((E.restrictedAssetFromTransaction tx).map unissueOp).toList ++ (unissueVerifierOp E tx).toList
  else []

def undoTransferOp (txid : Uint256) (out : CTxOut × Nat) : Option CacheOp :=
  if !isUnspendable out.1.scriptPubKey && (Env.isScriptTransferAsset out.1.scriptPubKey).isSome then
    (E.transferAssetFromScript out.1.scriptPubKey).map fun t => .removeTransfer t.1 t.2 ⟨txid, out.2⟩
  else none

def undoNullDataOp (out : CTxOut) : Option CacheOp :=
  if !isUnspendable out.scriptPubKey then none
  else if Script.isNullAssetTxDataScript out.scriptPubKey then
    (E.assetNullDataFromScript out.scriptPubKey).bind fun d =>
      match assetTypeOf d.1.asset_name with
      | .QUALIFIER | .SUB_QUALIFIER =>
        some (.removeQualifierAddress d.1.asset_name d.2 (qualifierType d.1.flag))
      | .RESTRICTED => some (.removeRestrictedAddress d.1.asset_name d.2 (restrictedType d.1.flag))
      | _ => none
  else if Script.isNullGlobalRestrictionAssetTxDataScript out.scriptPubKey then
    (globalAssetNullDataFromScript out.scriptPubKey).map fun data =>
      .removeGlobalRestricted data.asset_name (globalRestrictedType data.flag)
  else none

def undoTxOps (c : CAssetsCache) (tx : CTransaction) (vUndo : List (Bytes × CBlockAssetUndo)) : List CacheOp :=
  if E.areAssetsDeployed then
    undoKindOps E S c tx vUndo ++ tx.vout.zipIdx.filterMap (undoTransferOp E tx.hash) ++
      (if E.areRestrictedAssetsDeployed then tx.vout.filterMap (undoNullDataOp E) else [])
  else []

variable {E S} {c c' : CAssetsCache} {tx : CTransaction} {vUndo : List (Bytes × CBlockAssetUndo)}

theorem unissueAsset_eq (issue : Option (CNewAsset × Bytes)) :
    unissueAsset E S c issue = issue.map fun i => tryOps E S c [unissueOp i] := by
  cases issue with
  | none => rfl
  | some i =>
    simp only [unissueAsset, bind_eq_bind, bind_some, map_some, unissueOp, tryOps_cons,
      tryOps_nil, CacheOp.apply, removeNewAsset]
    split <;> rfl

theorem foldlM_tryOps {α : Type} {f g}
    (h : ∀ c a c', f c a = some c' → c' = tryOps E S c (g a).toList) {l : List α}
    (hl : l.foldlM f c = some c') : c' = tryOps E S c (l.filterMap g) := by
  induction l generalizing c with
  | nil =>
    cases hl
    rfl
  | cons a l ih =>
    obtain ⟨c1, ha, hl⟩ := Outcome.foldlM_cons_some.mp hl
    rw [ih hl, h c a c1 ha]
    cases hg : g a with
    | none => simp [hg]
    | some op => simp [hg]

theorem removeReissueTx_eq (h : removeReissueTx E S c tx vUndo = some c') :
    c' = tryOps E S c (undoReissueOps E S c tx vUndo) := by
  simp only [removeReissueTx, Outcome.some_iff] at h
  obtain ⟨⟨reissue, address⟩, hr, h⟩ := h
  simp only [undoReissueOps, hr]
  split at h
  · rename_i he
    simp [he, CacheOp.apply, h]
  · rename_i he
    cases h
    simp [he]

theorem removeUniqueTx_eq (h : removeUniqueTx E S c tx = some c') :
    c' = tryOps E S c ((tx.vout.filter fun out => E.isScriptNewUniqueAsset out.scriptPubKey).filterMap fun out =>
      (E.assetFromScript out.scriptPubKey).map unissueOp) := by
  rw [filterMap_filter]
  refine foldlM_tryOps (fun c out c1 hc => ?_) h
  simp only [unissueAsset_eq] at hc
  split at hc
  · rename_i hu
    simp only [map_eq_some_iff] at hc
    obtain ⟨i, hi, rfl⟩ := hc
    simp [hu, hi]
  · rename_i hu
    cases hc
    simp [hu]

theorem removeRestrictedTx_eq (h : removeRestrictedTx E S c tx = some c') :
    c' = tryOps E S c (((E.restrictedAssetFromTransaction tx).map unissueOp).toList ++
      (unissueVerifierOp E tx).toList) := by
  simp only [removeRestrictedTx, unissueAsset_eq, Outcome.some_iff] at h
  obtain ⟨_, ⟨i, hi, rfl⟩, issue, hissue, out, hout, verifier, hv, rfl⟩ := h
  rw [hi] at hissue
  cases hissue
  simp [unissueVerifierOp, hi, hout, hv, CacheOp.apply]

theorem removeAssetTx_eq (h : removeAssetTx E S c tx vUndo = some c') :
    c' = tryOps E S c (undoKindOps E S c tx vUndo) := by
  unfold removeAssetTx at h
  unfold undoKindOps
  split at h
  · rename_i hk
    simp only [unissueAsset_eq, Outcome.some_iff, Prod.exists] at h
    obtain ⟨_, ⟨asset, address, hi, rfl⟩, name, owner, ho, rfl⟩ := h
    simp [hk, hi, ho, CacheOp.apply]
  rename_i hk1
  rw [if_neg hk1]
  split at h
  · rename_i hk; rw [if_pos hk]; exact removeReissueTx_eq h
  rename_i hk2
  rw [if_neg hk2]
  split at h
  · rename_i hk; rw [if_pos hk]; exact removeUniqueTx_eq h
  rename_i hk3
  rw [if_neg hk3]
  split at h
  · rename_i hk
    rw [unissueAsset_eq, Option.map_eq_some_iff] at h
    obtain ⟨i, hi, rfl⟩ := h
    simp [hk, hi]
  rename_i hk4
  rw [if_neg hk4]
  split at h
  · rename_i hk
    rw [unissueAsset_eq, Option.map_eq_some_iff] at h
    obtain ⟨i, hi, rfl⟩ := h
    simp [hk, hi]
  rename_i hk5
  rw [if_neg hk5]
  split at h
  · rename_i hk; rw [if_pos hk]; exact removeRestrictedTx_eq h
  · rename_i hk
    cases h
    simp [hk]

theorem removeTransferOut_eq {txid out}
    (h : removeTransferOut E S txid c out = some c') :
    c' = tryOps E S c (undoTransferOp E txid out).toList := by
  unfold removeTransferOut at h
  unfold undoTransferOp
  split at h
  · rename_i hk
    simp only [Outcome.some_iff, Prod.exists] at h
    obtain ⟨transfer, address, ht, h⟩ := h
    simp [hk, ht, CacheOp.apply, h]
  · rename_i hk
    cases h
    simp [hk]

theorem removeNullDataOut_eq {out} (h : removeNullDataOut E c out = some c') :
    c' = tryOps E S c (undoNullDataOp E out).toList := by
  unfold removeNullDataOut at h
  unfold undoNullDataOp
  split at h
  · rename_i hk; cases h; rw [if_pos hk]; rfl
  rename_i hk
  rw [if_neg hk]
  split at h
  · rename_i hd
    simp only [Outcome.some_iff, Prod.exists] at h
    obtain ⟨data, address, hdata, h⟩ := h
    simp only [hd, if_true, hdata, Option.bind_some]
    cases ht : assetTypeOf data.asset_name <;> simp only [ht, Outcome.some_iff] at h <;>
      subst h <;> rfl
  rename_i hd
  rw [if_neg hd]
  split at h
  · rename_i hg
    simp only [Outcome.some_iff] at h
    obtain ⟨data, hdata, rfl⟩ := h
    simp [hg, hdata, CacheOp.apply]
  · rename_i hg
    cases h
    rw [if_neg hg]
    rfl

theorem removeAssets_eq (h : removeAssets E S c tx vUndo = some c') :
    c' = tryOps E S c (undoTxOps E S c tx vUndo) := by
  unfold removeAssets at h
  unfold undoTxOps
  split at h
  · rename_i hd
    simp only [Outcome.some_iff] at h
    obtain ⟨c1, h1, c2, h2, h3⟩ := h
    have e1 := removeAssetTx_eq h1
    have e2 : c2 = tryOps E S c1 (tx.vout.zipIdx.filterMap (undoTransferOp E tx.hash)) :=
      foldlM_tryOps (fun _ _ _ hc => removeTransferOut_eq hc) h2
    rw [if_pos hd, tryOps_append, tryOps_append, ← e1, ← e2]
    split at h3
    · rename_i hr
      rw [if_pos hr]
      exact foldlM_tryOps (fun _ _ _ hc => removeNullDataOut_eq hc) h3
    · rename_i hr
      cases h3
      rw [if_neg hr]
      rfl
  · rename_i hd
    cases h
    rw [if_neg hd]
    rfl

end

end Hivecoin

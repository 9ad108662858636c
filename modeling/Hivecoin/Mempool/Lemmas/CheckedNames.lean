import Hivecoin.Chain.Lemmas.AssetOutputs
import Hivecoin.Mempool.Accept

/-!
# The names of a checked transaction
-/

namespace Hivecoin

open Outcome CAssetsCache List Option Env Read

variable {E : Env} {S : Store} {c : CAssetsCache} {mempool : MempoolMaps} {tx : CTransaction} {out : CTxOut} {name : Bytes}

def issuedName (out : CTxOut) : Option Bytes :=
  (isScriptNewAsset out.scriptPubKey).bind fun i => (from_ newAsset out.scriptPubKey i).map CNewAsset.strName

def reissuedName (out : CTxOut) : Option Bytes :=
  (isScriptReissueAsset out.scriptPubKey).bind fun i => (from_ reissueAsset out.scriptPubKey i).map CReissueAsset.strName

def issuedNames (tx : CTransaction) : List Bytes := tx.vout.filterMap issuedName

def reissuedNames (tx : CTransaction) : List Bytes := tx.vout.filterMap reissuedName

/-- The name under which `AcceptToMemoryPoolWorker` records an output. -/
def Env.recordedName (E : Env) (out : CTxOut) : Option Bytes :=
  (E.getAssetData out.scriptPubKey).bind fun data =>
    if data.type = .TX_NEW_ASSET ∧ ¬ isAssetNameAnOwner data.assetName then some data.assetName else none

theorem issuedName_eq (E : Env) (out : CTxOut) : issuedName out = (issuedOfOut E out).map Prod.fst := by
  unfold issuedName issuedOfOut assetFromScript
  cases isScriptNewAsset out.scriptPubKey with
  | none => rfl
  | some i => cases hread : from_ newAsset out.scriptPubKey i <;> simp [hread]

theorem reissuedName_eq (E : Env) (out : CTxOut) : reissuedName out = (reissuedOfOut E out).map Prod.fst := by
  unfold reissuedName reissuedOfOut reissueAssetFromScript
  cases isScriptReissueAsset out.scriptPubKey with
  | none => rfl
  | some i => cases hread : from_ reissueAsset out.scriptPubKey i <;> simp [hread]

theorem issuedName_of_no_script (h : Script.isAssetScript out.scriptPubKey = none) : issuedName out = none := by
  cases hi : isScriptNewAsset out.scriptPubKey with
  | none => rw [issuedName, hi]; rfl
  | some i => rw [isScriptNewAsset_eq_some, h] at hi; cases hi

theorem reissuedName_of_no_script (h : Script.isAssetScript out.scriptPubKey = none) : reissuedName out = none := by
  cases hi : isScriptReissueAsset out.scriptPubKey with
  | none => rw [reissuedName, hi]; rfl
  | some i =>
    obtain ⟨b, hb⟩ := isScriptReissueAsset_eq_some.1 hi
    rw [h] at hb
    cases hb

theorem reissue_mem_kindEvents {r verifier} (h : AssetEvent.reissue r verifier ∈ kindEvents E tx) :
    E.isNewAsset tx = false ∧ isReissueAsset tx = true := by
  have hno : ∀ issues, AssetEvent.reissue r verifier ∉ issueEvents issues := by
    intro issues hmem
    obtain ⟨issue, -, heq⟩ := mem_map.1 hmem
    cases heq
  unfold kindEvents at h
  split at h
  · exact absurd h (hno _)
  rename_i hn
  split at h
  · exact ⟨Bool.eq_false_iff.2 hn, ‹_›⟩
  split at h
  · exact absurd h (hno _)
  split at h
  · exact absurd h (hno _)
  split at h
  · exact absurd h (hno _)
  split at h
  · obtain ⟨issue, -, heq⟩ := mem_map.1 h
    cases heq
  · cases h

theorem event_of_issued {action} (h : E.checkKind tx = .ok action) (hname : name ∈ issuedNames tx) :
    ∃ asset verifier undoVerifier, AssetEvent.issue asset verifier undoVerifier ∈ kindEvents E tx ∧ asset.strName = name := by
  obtain ⟨out, hout, hissued⟩ := mem_filterMap.1 hname
  rw [issuedName_eq E, map_eq_some_iff] at hissued
  obtain ⟨entry, hissued, rfl⟩ := hissued
  have hminted : entry ∈ tx.vout.filterMap (mintedOfOut E) := mem_filterMap.2 ⟨out, hout, by rw [mintedOfOut, hissued]; rfl⟩
  rw [(checkKind_outputs h).minted] at hminted
  obtain ⟨e, he, rfl⟩ := mem_map.1 hminted
  cases e with
  | issue asset verifier undoVerifier => exact ⟨asset, verifier, undoVerifier, he, rfl⟩
  | reissue r verifier =>
    -- a transaction that reissues issues nothing
    obtain ⟨hn, hr⟩ := reissue_mem_kindEvents he
    have hnone : tx.vout.filterMap (issuedOfOut E) = [] := by
      cases checkKind_cases h with
      | reissue _ _ hverify =>
        obtain ⟨_, _, _, -, -, -, -, -, hzero⟩ := verifyReissueAsset_ok hverify
        exact issued_of_no_issue hzero
      | issue hn' => rw [hn] at hn'; cases hn'
      | unique _ hr' => rw [hr] at hr'; cases hr'
      | msgChannel _ hr' => rw [hr] at hr'; cases hr'
      | qualifier _ hr' => rw [hr] at hr'; cases hr'
      | restricted _ hr' => rw [hr] at hr'; cases hr'
      | plain _ hr' => rw [hr] at hr'; cases hr'
    exact absurd (mem_filterMap.2 ⟨out, hout, hissued⟩) (hnone ▸ not_mem_nil)

/-- The checks look up all issued names in the mempool but unique ones. -/
structure IssueChecked (E : Env) (mempool : MempoolMaps) (tx : CTransaction) (name : Bytes) : Prop where
  valid : nameValid name = true
  notOwner : isAssetNameAnOwner name = false
  free : E.isNewUniqueAsset tx = false → mempool.mapAssetToHash.get? name = none

theorem issued_checked {action} (h : E.checkKind tx = .ok action)
    (hcontext : contextualCheckKind E S c mempool true tx = .ok ()) (hname : name ∈ issuedNames tx) : IssueChecked E mempool tx name := by
  obtain ⟨asset, verifier, undoVerifier, he, rfl⟩ := event_of_issued h hname
  have hchecked : contextualCheckNewAsset E S c mempool asset _ = .ok () := checkedWith_of_checks hcontext _ he
  simp only [contextualCheckNewAsset, ok_iff, Bool.not_eq_true', Bool.true_and] at hchecked
  obtain ⟨-, hnew, -, hfree, -⟩ := hchecked
  refine ⟨checkNewAsset_name hnew, checkNewAsset_not_owner hnew, fun hu => ?_⟩
  rw [hu, Bool.not_false, Bool.true_and, Table.contains_eq_false] at hfree
  exact hfree

theorem recordedName_of_issued (hissued : issuedName out = some name) (howner : isAssetNameAnOwner name = false) :
    E.recordedName out = some name := by
  rw [issuedName_eq E, Option.map_eq_some_iff] at hissued
  obtain ⟨⟨_, amount⟩, hissued, rfl⟩ := hissued
  obtain ⟨⟨asset, address⟩, hread, heq⟩ := Option.map_eq_some_iff.1 hissued
  cases heq
  obtain ⟨i, hscript, -⟩ := assetFromScript_eq_some.1 hread
  simp only [recordedName, getAssetData, hscript, hread, some_iff, Option.bind_some]
  simp [howner]

theorem recordedName_cases (h : E.recordedName out = some name) :
    issuedName out = some name ∨ (ownerOfOut E out = some (name, OWNER_ASSET_AMOUNT) ∧ isAssetNameAnOwner name = false) := by
  obtain ⟨data, hdata, h⟩ := bind_eq_some_iff.1 h
  split at h
  · rename_i hnew
    cases h
    unfold getAssetData at hdata
    split at hdata
    · rw [bind_eq_bind, bind_eq_some_iff] at hdata
      obtain ⟨⟨asset, address⟩, hread, hdata⟩ := hdata
      cases hdata
      left
      rw [issuedName_eq E, issuedOfOut, hread]
      rfl
    · rw [bind_eq_bind, bind_eq_some_iff] at hdata
      obtain ⟨_, -, hdata⟩ := hdata
      cases hdata
      cases hnew.1
    · rw [bind_eq_bind, bind_eq_some_iff] at hdata
      obtain ⟨⟨owner, address⟩, hread, hdata⟩ := hdata
      cases hdata
      right
      exact ⟨by rw [ownerOfOut, hread]; rfl, Bool.eq_false_iff.2 hnew.2⟩
    · rw [bind_eq_bind, bind_eq_some_iff] at hdata
      obtain ⟨_, -, hdata⟩ := hdata
      cases hdata
      cases hnew.1
    · cases hdata
  · cases h

theorem issued_of_recorded {action} (h : E.checkKind tx = .ok action) (hmem : out ∈ tx.vout)
    (hrecorded : E.recordedName out = some name) (hvalid : nameValid name = true) : name ∈ issuedNames tx := by
  rcases recordedName_cases hrecorded with hissued | ⟨howner, hnot⟩
  · exact mem_filterMap.2 ⟨out, hmem, hissued⟩
  · have hmem : (name, OWNER_ASSET_AMOUNT) ∈ tx.vout.filterMap (ownerOfOut E) := mem_filterMap.2 ⟨out, hmem, howner⟩
    rw [(checkKind_outputs h).owners] at hmem
    split at hmem
    · obtain ⟨e, -, heq⟩ := mem_map.1 hmem
      cases heq
      rw [isAssetNameAnOwner_of_tag hvalid] at hnot
      cases hnot
    · cases hmem

/-- A reissue that is new to the mempool. -/
def newReissue (mempool : MempoolMaps) (out : CTxOut) : Option Bytes :=
  (reissuedName out).bind fun name => if (mempool.mapReissuedAssets.get? name).isNone then some name else none

theorem reissuedName_of_read {reissue address} (h : E.reissueAssetFromScript out.scriptPubKey = some (reissue, address)) :
    reissuedName out = some reissue.strName := by
  rw [reissuedName_eq E, reissuedOfOut, h]
  rfl

theorem reissuedName_of_type {type} (h : (Script.isAssetScript out.scriptPubKey).map Script.AssetScript.nType = type)
    (hne : type ≠ some .TX_REISSUE_ASSET) : reissuedName out = none := by
  cases hi : isScriptReissueAsset out.scriptPubKey with
  | none => rw [reissuedName, hi]; rfl
  | some i =>
    obtain ⟨b, hb⟩ := isScriptReissueAsset_eq_some.1 hi
    rw [hb] at h
    exact absurd h.symm hne

theorem addOutput_reissues {fu txid st st'} (h : addOutput E S c mempool fu txid st out = .ok st') :
    st'.vPairReissueAssets = ((newReissue mempool out).elim st.vPairReissueAssets fun name => st.vPairReissueAssets ++ [(name, txid)]) ∧
      ∀ name hash, reissuedName out = some name → mempool.mapReissuedAssets.get? name = some hash → hash = txid := by
  have hplain : reissuedName out = none → st'.vPairReissueAssets = st.vPairReissueAssets →
      st'.vPairReissueAssets = ((newReissue mempool out).elim st.vPairReissueAssets fun name => st.vPairReissueAssets ++ [(name, txid)]) ∧
        ∀ name hash, reissuedName out = some name → mempool.mapReissuedAssets.get? name = some hash → hash = txid := by
    intro hnone heq
    refine ⟨by rw [newReissue, hnone]; exact heq, fun name hash hname => ?_⟩
    rw [hnone] at hname
    cases hname
  simp only [addOutput, ok_iff] at h
  obtain ⟨-, -, h⟩ := h
  split at h
  · rename_i htype
    obtain ⟨transfer, address, -, -, -, rfl⟩ := addTransferOutput_ok h
    exact hplain (reissuedName_of_type htype (by simp)) rfl
  · obtain ⟨reissue, address, hread, hfree, -⟩ := addReissueOutput_ok h
    have hname := reissuedName_of_read hread
    refine ⟨?_, fun name hash hname' hget => ?_⟩
    · simp only [addReissueOutput, ok_iff, hread, some.injEq, exists_eq_left'] at h
      cases hget : mempool.mapReissuedAssets.get? reissue.strName with
      | none =>
        simp only [hget, pure_eq_ok] at h
        simp [newReissue, hname, hget, ← h]
      | some hash =>
        simp only [hget, ok_iff] at h
        simp [newReissue, hname, hget, ← h.2]
    · rw [hname, some.injEq] at hname'
      exact hfree hash (hname' ▸ hget)
  · rename_i hne
    rw [pure_eq_ok] at h
    exact hplain (reissuedName_of_type rfl hne) (h ▸ rfl)

/-- The reissues that `CheckTxAssets` reports, and the others. -/
structure ReissuesChecked (mempool : MempoolMaps) (tx : CTransaction) (v : List (Bytes × Uint256)) : Prop where
  reported : v = (tx.vout.filterMap (newReissue mempool)).map fun name => (name, tx.hash)
  own : ∀ name ∈ reissuedNames tx, ∀ hash, mempool.mapReissuedAssets.get? name = some hash → hash = tx.hash

theorem checkTxAssets_reissues {view fm fu v}
    (h : checkTxAssets E S c view mempool fm fu tx = .ok v) : ReissuesChecked mempool tx v := by
  simp only [checkTxAssets, ok_iff] at h
  obtain ⟨-, ti, -, st, hst, -, -, rfl⟩ := h
  refine ⟨?_, fun name hname hash hget => ?_⟩
  · have hfold := foldlM_filterMap OutputTotals.vPairReissueAssets (newReissue mempool) (fun v name => v ++ [(name, tx.hash)]) hst
      fun s x s' _ hs => (addOutput_reissues hs).1
    rw [hfold, foldl_append_eq_append]
    exact map_eq_flatMap.symm
  · obtain ⟨out, hout, hname⟩ := mem_filterMap.1 hname
    obtain ⟨s1, s2, hs⟩ := foldlM_step hst hout
    exact (addOutput_reissues hs).2 name hash hname hget

theorem ReissuesChecked.known {v} (h : ReissuesChecked mempool tx v) (hname : name ∈ reissuedNames tx) :
    (name, tx.hash) ∈ v ∨ mempool.mapReissuedAssets.get? name = some tx.hash := by
  obtain ⟨out, hout, hreissued⟩ := mem_filterMap.1 hname
  cases hget : mempool.mapReissuedAssets.get? name with
  | none =>
    left
    rw [h.reported]
    refine mem_map.2 ⟨name, mem_filterMap.2 ⟨out, hout, ?_⟩, rfl⟩
    simp [newReissue, hreissued, hget]
  | some hash => exact Or.inr (by rw [h.own name hname hash hget])

end Hivecoin

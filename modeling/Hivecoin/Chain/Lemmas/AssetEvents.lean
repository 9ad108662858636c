import Hivecoin.Cache.Named
import Hivecoin.Chain.AssetEvents
import Hivecoin.Chain.Lemmas.Blocks
import Hivecoin.Tx.Lemmas.AssetRecords
import Hivecoin.Tx.Lemmas.Classify

/-!
# Blocks act on a name by its events
-/

namespace Hivecoin

open Outcome CAssetsCache List Option AssetEvent StoreView Env

variable {E : Env} {S : Store} {c c' : CAssetsCache} {tx : CTransaction}
variable {op : CacheOp} {action : Env.RestrictedAction} {mempool : MempoolMaps} {fm : Bool}

def CacheOp.isAssetOp : CacheOp → Bool
  | addNewAsset .. | removeNewAsset .. | addReissueAsset .. | removeReissueAsset ..
  | addRestrictedVerifier .. | removeRestrictedVerifier .. => true
  | _ => false

theorem CacheOp.view_apply (hop : op.isAssetOp = false) (h : op.apply E S c = some c') (name : Bytes) : c'.view name = c.view name := by
  obtain ⟨c1, h1, hs⟩ := apply_records h
  rw [SameRecords.view_eq hs]
  cases op with
  | addQualifierAddress =>
    cases h1
    rw [CAssetsCache.addQualifierAddress, noteRootQualifier_eq]; rfl
  | removeQualifierAddress =>
    cases h1
    rw [CAssetsCache.removeQualifierAddress, noteRootQualifier_eq]; rfl
  | _ => first | (cases h1; rfl) | cases hop

theorem view_tryOps {ops} (h : ∀ op ∈ ops, op.isAssetOp = false) (name : Bytes) :
    (tryOps E S c ops).view name = c.view name := by
  induction ops generalizing c with
  | nil => rfl
  | cons op ops ih =>
    rw [tryOps_cons, ih fun o ho => h o (mem_cons_of_mem _ ho)]
    cases happ : op.apply E S c with
    | none => rfl
    | some c1 => exact CacheOp.view_apply (h op mem_cons_self) happ name

theorem CacheOp.not_isAssetOp_of_isCoinOp (h : op.isCoinOp = true) : op.isAssetOp = false := by
  cases op <;> first | rfl | cases h

theorem transferOp_not_isAssetOp {script out} (h : transferOp E script out = some op) : op.isAssetOp = false := by
  obtain ⟨_, _, rfl⟩ := exists_of_transferOp h
  rfl

theorem CacheOp.not_isAssetOp_of_isMark (h : op.isMark = true) : op.isAssetOp = false := by
  cases op <;> first | rfl | cases h

theorem view_tryIssue (issue : CNewAsset × Bytes) (nHeight : Nat) (blockHash : Uint256) (name : Bytes) :
    (((issueOp (some issue) nHeight blockHash).apply E S c).getD c).view name =
      if name = issue.1.strName then { c.view name with
        issued := if (S.view E name).has (c.view name) then (c.view name).issued
          else (c.view name).issued.addKeep issue.1 }
      else c.view name := by
  cases hop : (issueOp (some issue) nHeight blockHash).apply E S c with
  | none =>
    have hhas : (S.view E issue.1.strName).has (c.view issue.1.strName) = true := by
      rw [← checkIfAssetExists_eq]
      simpa [issueOp, CacheOp.apply, addNewAsset] using hop
    by_cases hn : name = issue.1.strName
    · subst hn; simp [hhas]
    · simp [hn]
  | some c1 =>
    have hadd : c.addNewAsset E S issue.1 issue.2 nHeight blockHash = some c1 := hop
    have hhas : (S.view E issue.1.strName).has (c.view issue.1.strName) = false := by
      rw [← checkIfAssetExists_eq]
      by_contra hex
      simp [addNewAsset, hex] at hadd
    rw [getD_some, view_addNewAsset hadd]
    by_cases hn : name = issue.1.strName
    · subst hn; simp [hhas]
    · simp [hn]

theorem connect_issues (issues : List (CNewAsset × Bytes)) (nHeight : Nat) (blockHash : Uint256) (name : Bytes)
    (undo : Option CBlockAssetUndo) :
    ((issueEvents issues).filter fun e => e.name == name).foldl (S.view E name).connect (c.view name, undo) =
      ((tryOps E S c (issues.map fun i => issueOp (some i) nHeight blockHash)).view name, undo) := by
  induction issues generalizing c with
  | nil => rfl
  | cons issue issues ih =>
    rw [map_cons, tryOps_cons, ← ih, view_tryIssue]
    simp only [issueEvents, map_cons, filter_cons, AssetEvent.name, beq_iff_eq]
    by_cases hn : issue.1.strName = name
    · simp [hn, connect, Slot.addVerifier]
    · simp [hn, Ne.symm hn]

theorem connect_restricted (issue : CNewAsset × Bytes) (nHeight : Nat) (blockHash : Uint256)
    (verifier undoVerifier : Option Bytes) (name : Bytes) (undo : Option CBlockAssetUndo) :
    ([AssetEvent.issue issue.1 verifier undoVerifier].filter fun e => e.name == name).foldl
        (S.view E name).connect (c.view name, undo) =
      ((tryOps E S c (issueOp (some issue) nHeight blockHash ::
        (verifier.map (CacheOp.addRestrictedVerifier issue.1.strName)).toList)).view name, undo) := by
  have hv : ∀ c1 : CAssetsCache,
      (tryOps E S c1 (verifier.map (CacheOp.addRestrictedVerifier issue.1.strName)).toList).view name =
      if name = issue.1.strName then
        { c1.view name with verifier := Slot.addVerifier (c1.view name).verifier verifier } else c1.view name := by
    intro c1
    cases verifier with
    | none => simp [Slot.addVerifier]
    | some v => exact view_addRestrictedVerifier _ _ _
  rw [tryOps_cons, hv, view_tryIssue]
  simp only [filter_cons, filter_nil, AssetEvent.name, beq_iff_eq]
  by_cases hn : issue.1.strName = name
  · simp [hn, connect]
  · simp [hn, Ne.symm hn]

theorem uniqueOps_eq (nHeight : Nat) (blockHash : Uint256) :
    uniqueOps E tx nHeight blockHash = (uniqueIssues E tx).map fun i => issueOp (some i) nHeight blockHash := by
  unfold uniqueOps uniqueIssues
  induction tx.vout with
  | nil => rfl
  | cons out vout ih =>
    cases hu : E.isScriptNewUniqueAsset out.scriptPubKey with
    | false => simpa [hu] using ih
    | true =>
      cases hread : E.assetFromScript out.scriptPubKey with
      | none => simp [isScriptNewUniqueAsset, isScriptNewAssetOf, hread] at hu
      | some issue => simpa [hu, hread] using ih

theorem findUndo_singleton (name item : Bytes) (undo : CBlockAssetUndo) :
    findUndo [(item, undo)] name = if item = name then some undo else none := by
  by_cases h : item = name <;> simp [findUndo, h]

theorem connect_reissue (hS : S.Named) (hc : c.Named) {r}
    (hr : E.reissueAssetFromTransaction tx = some r) {known}
    (hknown : known r.1.strName = (getAssetMetaDataIfExists E S c r.1.strName).isSome) (name : Bytes)
    (undo : Option CBlockAssetUndo) :
    ([(AssetEvent.reissue r.1 (newVerifier tx r.1.strName)).whereKnown known].filter fun e => e.name == name).foldl
        (S.view E name).connect (c.view name, undo) =
      ((addReissueTx E S c tx).1.view name, undo.or (findUndo (addReissueTx E S c tx).2.toList name)) := by
  have hitem : ∀ (u : CBlockAssetUndo) (v : Option Bytes),
      findUndo (if r.1.changes v then some (r.1.strName, u) else none).toList name =
        if r.1.strName = name ∧ r.1.changes v = true then some u else none := by
    intro u v
    by_cases hch : r.1.changes v = true
    · simp [hch, findUndo_singleton]
    · simp [hch, findUndo]
  simp only [AssetEvent.whereKnown, hknown, filter_cons, filter_nil, AssetEvent.name, beq_iff_eq]
  cases hdata : getAssetMetaDataIfExists E S c r.1.strName with
  | none =>
    have hadd : c.addReissueAsset E S r.1 r.2 ⟨tx.hash, tx.vout.length - 1⟩ = none := by
      simp [addReissueAsset, hdata]
    have hmeta : (S.view E r.1.strName).metaData (c.view r.1.strName) = none := by
      rw [← getAssetMetaDataIfExists_eq, hdata]; rfl
    have hnone : reissueVerifier CNewAsset.null tx = none := rfl
    simp only [addReissueTx, hr, getD_some, hdata, hadd, hnone]
    change _ = (c.view name, undo.or (findUndo (if r.1.changes none then some (r.1.strName,
      ⟨r.1.strIPFSHash != [], r.1.nUnits != -1, CNewAsset.null.strIPFSHash, CNewAsset.null.units, false, []⟩)
        else none).toList name))
    rw [hitem]
    by_cases hn : r.1.strName = name
    · subst hn
      simp [connect, hmeta, undoItem, Slot.addVerifier]
    · simp [hn]
  | some data =>
    have hadd : ∃ c1, c.addReissueAsset E S r.1 r.2 ⟨tx.hash, tx.vout.length - 1⟩ = some c1 := by
      simp [addReissueAsset, hdata]
    obtain ⟨c1, hadd⟩ := hadd
    obtain ⟨asset, hasset, hview⟩ := view_addReissueAsset hadd
    have heq : data.asset = asset := by
      rw [← getAssetMetaDataIfExists_eq, hdata, map_some, some.injEq] at hasset
      exact hasset
    have hname : asset.strName = r.1.strName := metaData_named hS hc hasset
    have hnew : reissueVerifier asset tx = newVerifier tx r.1.strName := by
      rw [reissueVerifier, newVerifier, hname]
    have hold : getAssetVerifierStringIfExists S c1 r.1.strName =
        (S.view E r.1.strName).verifierText (c.view r.1.strName) := by
      rw [getAssetVerifierStringIfExists_eq (E := E), hview, if_pos rfl]
      rfl
    simp only [addReissueTx, hr, getD_some, hdata, hadd, heq, hnew, hname, hold, isSome_some, if_true]
    generalize newVerifier tx r.1.strName = verifier
    cases verifier with
    | none =>
      change _ = (c1.view name, undo.or (findUndo (if r.1.changes none then some (r.1.strName,
        ⟨r.1.strIPFSHash != [], r.1.nUnits != -1, asset.strIPFSHash, asset.units, false, []⟩) else none).toList
          name))
      rw [hitem, hview]
      by_cases hn : r.1.strName = name
      · subst hn
        simp [connect, hasset, undoItem, Slot.addVerifier]
      · simp [hn, Ne.symm hn]
    | some v =>
      change _ = ((c1.addRestrictedVerifier r.1.strName v).view name,
        undo.or (findUndo (if r.1.changes (some v) then some (r.1.strName,
          ⟨r.1.strIPFSHash != [], r.1.nUnits != -1, asset.strIPFSHash, asset.units, true,
            ((S.view E r.1.strName).verifierText (c.view r.1.strName)).getD []⟩) else none).toList name))
      rw [hitem, view_addRestrictedVerifier, hview]
      by_cases hn : r.1.strName = name
      · subst hn
        simp [connect, hasset, undoItem, Slot.addVerifier]
      · simp [hn, Ne.symm hn]

theorem kindEvents_nodup (h : E.checkKind tx = .ok action) : ((kindEvents E tx).map name).Nodup := by
  cases checkKind_cases h with
  | issue hn _ hread => simp [kindEvents, hn, hread, issueEvents]
  | reissue hn hr _ hread => simp [kindEvents, hn, hr, hread]
  | unique hn hr hu hverify =>
    simp only [kindEvents, hn, hr, hu, test_iff, issueEvents, List.map_map]
    exact verifyNewUniqueAsset_nodup hverify
  | msgChannel hn hr hu hm _ hread => simp [kindEvents, hn, hr, hu, hm, hread, issueEvents]
  | qualifier hn hr hu hm hq _ hread => simp [kindEvents, hn, hr, hu, hm, hq, hread, issueEvents]
  | restricted hn hr hu hm hq hre _ hread => simp [kindEvents, hn, hr, hu, hm, hq, hre, hread]
  | plain hn hr hu hm hq hre => simp [kindEvents, hn, hr, hu, hm, hq, hre]

structure EventsPass (E : Env) (S : Store) (c : CAssetsCache) (tx : CTransaction) : Prop where
  free : ∀ e ∈ kindEvents E tx, e.isIssue = true → checkIfAssetExists E S c e.name = false
  there : ∀ e ∈ kindEvents E tx, e.isIssue = false → (getAssetMetaDataIfExists E S c e.name).isSome = true

/-- The event has passed the checks against the asset state. -/
def AssetEvent.Checked (E : Env) (S : Store) (c : CAssetsCache) (tx : CTransaction) : AssetEvent → Prop
  | issue asset _ _ => ∃ mempool fm, contextualCheckNewAsset E S c mempool asset fm = .ok ()
  | reissue r _ => contextualCheckReissueAsset E S c r tx = .ok ()

/-- The event has passed the checks with these maps of the mempool. -/
def AssetEvent.CheckedWith (E : Env) (S : Store) (c : CAssetsCache) (mempool : MempoolMaps) (fm : Bool) (tx : CTransaction) :
    AssetEvent → Prop
  | issue asset _ _ => contextualCheckNewAsset E S c mempool asset fm = .ok ()
  | reissue r _ => contextualCheckReissueAsset E S c r tx = .ok ()

theorem isNewUniqueAsset_of_isNewAsset (h : E.isNewAsset tx = true) : E.isNewUniqueAsset tx = false := by
  simp only [isNewAsset, lastIssues, Bool.and_eq_true] at h
  unfold isNewUniqueAsset lastIssues
  cases hlast : tx.lastOut with
  | none => rfl
  | some last =>
    rw [hlast] at h
    simp only [test_iff] at h
    simp only [h.2.2.1, Bool.and_false]

theorem checkedWith_of_checks (h : contextualCheckKind E S c mempool fm tx = .ok ()) :
    ∀ e ∈ kindEvents E tx, e.CheckedWith E S c mempool (fm && !E.isNewUniqueAsset tx) tx := by
  generalize hlook : (fm && !E.isNewUniqueAsset tx) = look
  have hone : ∀ asset verifier undoVerifier, E.isNewUniqueAsset tx = false → kindEvents E tx = [.issue asset verifier undoVerifier] →
      contextualCheckNewAsset E S c mempool asset fm = .ok () → ∀ e ∈ kindEvents E tx, e.CheckedWith E S c mempool look tx := by
    intro asset verifier undoVerifier hu hev hc e he
    rw [hu, Bool.not_false, Bool.and_true] at hlook
    rw [hev, mem_singleton] at he
    subst he hlook
    exact hc
  unfold contextualCheckKind at h
  cases hn : E.isNewAsset tx with
  | true =>
    simp only [hn, if_true, ok_iff, Check.orReject] at h
    obtain ⟨⟨asset, address⟩, ha, hc⟩ := h
    have hread : E.assetFromTransaction tx = some (asset, address) := by
      simpa [assetFromTransaction, lastOutRead, hn] using ha
    exact hone asset none none (isNewUniqueAsset_of_isNewAsset hn) (by simp [kindEvents, hn, hread, issueEvents]) hc
  | false =>
  cases hr : isReissueAsset tx with
  | true =>
    simp only [hn, hr, test_iff, ok_iff, Check.orReject] at h
    obtain ⟨⟨reissue, address⟩, ha, hc⟩ := h
    have hread : E.reissueAssetFromTransaction tx = some (reissue, address) := by
      simpa [reissueAssetFromTransaction, lastOutRead, hr] using ha
    intro e he
    simp only [kindEvents, hn, hr, hread, test_iff, toList_some, map_cons, map_nil, mem_singleton] at he
    subst he
    exact hc
  | false =>
  cases hu : E.isNewUniqueAsset tx with
  | true =>
    simp only [hn, hr, hu, test_iff, Check.orReject, mapError_eq_ok, contextualCheckUniqueAssetTx, forM_eq_ok] at h
    intro e he
    rw [show kindEvents E tx = issueEvents (uniqueIssues E tx) by simp [kindEvents, hn, hr, hu]] at he
    obtain ⟨⟨asset, address⟩, hmem, rfl⟩ := mem_map.mp he
    obtain ⟨out, hout, hread⟩ := mem_filterMap.mp hmem
    obtain ⟨hout, hscript⟩ := mem_filter.mp hout
    have hc := h out hout
    simp only [hscript, if_true, hread, ok_iff, some.injEq, exists_eq_left'] at hc
    rw [hu, Bool.not_true, Bool.and_false] at hlook
    subst hlook
    exact hc
  | false =>
  cases hm : E.isNewMsgChannelAsset tx with
  | true =>
    simp only [hn, hr, hu, hm, test_iff, ok_iff, Check.orReject] at h
    obtain ⟨-, ⟨asset, address⟩, hread, hc⟩ := h
    exact hone asset none none hu (by simp [kindEvents, hn, hr, hu, hm, hread, issueEvents]) hc
  | false =>
  cases hq : E.isNewQualifierAsset tx with
  | true =>
    simp only [hn, hr, hu, hm, hq, test_iff, ok_iff, Check.orReject] at h
    obtain ⟨-, ⟨asset, address⟩, hread, hc⟩ := h
    exact hone asset none none hu (by simp [kindEvents, hn, hr, hu, hm, hq, hread, issueEvents]) hc
  | false =>
  cases hre : E.isNewRestrictedAsset tx with
  | true =>
    simp only [hn, hr, hu, hm, hq, hre, test_iff, ok_iff, Check.orReject] at h
    obtain ⟨-, ⟨asset, address⟩, hread, hc, -⟩ := h
    exact hone asset ((firstVerifier tx).map fun v => v.getD []) (undoneVerifier E tx) hu
      (by simp [kindEvents, hn, hr, hu, hm, hq, hre, hread]) hc
  | false =>
    intro e he
    simp [kindEvents, hn, hr, hu, hm, hq, hre] at he

theorem checked_of_checks (h : contextualCheckKind E S c mempool fm tx = .ok ()) :
    ∀ e ∈ kindEvents E tx, e.Checked E S c tx := by
  intro e he
  have hchecked := checkedWith_of_checks h e he
  cases e with
  | issue asset verifier undoVerifier => exact ⟨mempool, _, hchecked⟩
  | reissue r verifier => exact hchecked

theorem eventsPass_of_checks (h : contextualCheckKind E S c mempool fm tx = .ok ()) : EventsPass E S c tx := by
  refine ⟨fun e he hi => ?_, fun e he hi => ?_⟩
  · cases e with
    | issue asset v u =>
      obtain ⟨_, _, hc⟩ := checked_of_checks h _ he
      exact contextualCheckNewAsset_ok hc
    | reissue => cases hi
  · cases e with
    | issue => cases hi
    | reissue r v =>
      obtain ⟨data, hdata, -⟩ := reissueAllowed_of_checks (checked_of_checks h _ he)
      rw [name, hdata]
      rfl

theorem findUndo_nil (name : Bytes) : findUndo [] name = none := rfl

theorem map_whereKnown_issueEvents (known : Bytes → Bool) (issues : List (CNewAsset × Bytes)) :
    (issueEvents issues).map (whereKnown known) = issueEvents issues := by
  rw [issueEvents, List.map_map]
  rfl

theorem connect_kind (hS : S.Named) (hc : c.Named) (hkind : CheckedKind E tx) {known}
    (hknown : ∀ e ∈ kindEvents E tx, e.isIssue = false →
      known e.name = (getAssetMetaDataIfExists E S c e.name).isSome) {nHeight blockHash}
    (name : Bytes) (undo : Option CBlockAssetUndo) :
    (((kindEvents E tx).map (AssetEvent.whereKnown known)).filter fun e => e.name == name).foldl
        (S.view E name).connect (c.view name, undo) =
      ((addAssetTx E S c tx nHeight blockHash).1.view name,
        undo.or (findUndo (addAssetTx E S c tx nHeight blockHash).2.toList name)) := by
  have hissue : ∀ issue : CNewAsset × Bytes, (((issueEvents [issue]).map (AssetEvent.whereKnown known)).filter
      fun e => e.name == name).foldl (S.view E name).connect (c.view name, undo) =
        ((issueAsset E S c (some issue) nHeight blockHash).view name, undo) := by
    intro issue
    rw [map_whereKnown_issueEvents, connect_issues _ nHeight blockHash, issueAsset_eq]
    rfl
  cases hkind with
  | issue hn _ hread =>
    simp only [addAssetTx, kindEvents, hn, hread, if_true, toList_some, toList_none, findUndo_nil, or_none]
    rw [hissue, SameRecords.view_eq (sameRecords_addOwnerAsset _ _)]
  | reissue hn hr _ hread =>
    simp only [addAssetTx, kindEvents, hn, hr, hread, test_iff, toList_some, map_cons, map_nil, mem_singleton, forall_eq] at hknown ⊢
    exact connect_reissue hS hc hread (hknown rfl) name undo
  | unique hn hr hu =>
    simp only [addAssetTx, kindEvents, hn, hr, hu, test_iff, toList_none, findUndo_nil, or_none]
    rw [map_whereKnown_issueEvents, connect_issues _ nHeight blockHash, addUniqueTx_eq, uniqueOps_eq]
  | msgChannel hn hr hu hm _ hread =>
    simp only [addAssetTx, kindEvents, hn, hr, hu, hm, hread, test_iff, toList_some, toList_none, findUndo_nil, or_none]
    exact hissue _
  | qualifier hn hr hu hm hq _ hread =>
    simp only [addAssetTx, kindEvents, hn, hr, hu, hm, hq, hread, test_iff, toList_some, toList_none, findUndo_nil, or_none]
    exact hissue _
  | @restricted asset address hn hr hu hm hq hre _ hread =>
    have hrestr := connect_restricted (E := E) (S := S) (c := c) (asset, address) nHeight blockHash
      ((firstVerifier tx).map fun v => v.getD []) (undoneVerifier E tx) name undo
    simp only [addAssetTx, kindEvents, hn, hr, hu, hm, hq, hre, hread, test_iff, toList_some, toList_none, findUndo_nil,
      or_none]
    rw [addRestrictedTx_eq, restrictedOps, hread]
    rw [Option.map_map] at hrestr
    exact hrestr
  | plain hn hr hu hm hq hre => simp [addAssetTx, kindEvents, hn, hr, hu, hm, hq, hre, findUndo_nil]

theorem addAssets_view {nHeight blockHash} (hdep : E.areAssetsDeployed = true) (name : Bytes) :
    (addAssets E S c tx nHeight blockHash).1.view name = (addAssetTx E S c tx nHeight blockHash).1.view name := by
  rw [addAssets_fst, txOps, if_pos hdep, tryOps_append, ← addAssetTx_fst]
  refine view_tryOps (fun op hop => ?_) name
  obtain ⟨out, -, hop⟩ := mem_flatMap.mp hop
  rcases mem_append.mp hop with hop | hop
  · exact transferOp_not_isAssetOp (mem_toList.mp hop)
  · exact CacheOp.not_isAssetOp_of_isMark (nullDataOp_isMark (mem_toList.mp hop)).1

theorem connect_tx (hS : S.Named) (hc : c.Named) (hkind : E.checkKind tx = .ok action)
    (hknown : E.areAssetsDeployed = true → ∀ e ∈ kindEvents E tx, e.isIssue = false → (!tx.isCoinBase || (getAssetMetaDataIfExists E S ∅ e.name).isSome) = (getAssetMetaDataIfExists E S c e.name).isSome)
    (nHeight : Nat) (blockHash : Uint256) (name : Bytes) (undo : Option CBlockAssetUndo) :
    ((assetEvents E S tx).filter fun e => e.name == name).foldl (S.view E name).connect (c.view name, undo) =
      ((addAssets E S c tx nHeight blockHash).1.view name,
        undo.or (findUndo (addAssets E S c tx nHeight blockHash).2.toList name)) := by
  cases hdep : E.areAssetsDeployed with
  | false => simp [assetEvents, addAssets, hdep, findUndo_nil]
  | true =>
    have hundo : (addAssets E S c tx nHeight blockHash).2 = (addAssetTx E S c tx nHeight blockHash).2 := by
      simp [addAssets, hdep]
    rw [addAssets_view hdep, hundo, assetEvents, if_pos hdep]
    exact connect_kind hS hc (checkKind_cases hkind) (hknown hdep) name undo

section

variable {vUndo : List (Bytes × CBlockAssetUndo)}

theorem disconnect_issue {issue} (h : unissueAsset E S c (some issue) = some c')
    (name : Bytes) (undo : Option CBlockAssetUndo) :
    ([AssetEvent.issue issue.1 none none].filter fun e => e.name == name).foldlM
      ((S.view E name).disconnect undo) (c.view name) = some (c'.view name) := by
  simp only [unissueAsset, bind_eq_bind, bind_some] at h
  simp only [filter_cons, filter_nil, AssetEvent.name, beq_iff_eq]
  split at h
  · rename_i hex
    rw [view_removeNewAsset h]
    by_cases hn : issue.1.strName = name
    · subst hn
      rw [checkIfAssetExists_eq] at hex
      simp [disconnect, hex]
    · simp [hn, Ne.symm hn]
  · rename_i hex
    cases h
    by_cases hn : issue.1.strName = name
    · subst hn
      rw [checkIfAssetExists_eq] at hex
      simp [disconnect, hex]
    · simp [hn]

theorem disconnect_reissue (hS : S.Named) (hc : c.Named) {r}
    (hr : E.reissueAssetFromTransaction tx = some r) (h : removeReissueTx E S c tx vUndo = some c')
    (verifier : Option Bytes) (name : Bytes) :
    ([AssetEvent.reissue r.1 verifier].filter fun e => e.name == name).foldlM
      ((S.view E name).disconnect (findUndo vUndo name)) (c.view name) = some (c'.view name) := by
  simp only [removeReissueTx, hr, bind_eq_bind, bind_some] at h
  simp only [filter_cons, filter_nil, AssetEvent.name, beq_iff_eq]
  split at h
  · rename_i hex
    obtain ⟨asset, hasset, hview⟩ := view_removeReissueAsset h fun _ hm => metaData_named hS hc hm
    rw [hview]
    by_cases hn : r.1.strName = name
    · subst hn
      rw [checkIfAssetExists_eq] at hex
      simp [disconnect, hex, hasset]
    · simp [hn, Ne.symm hn]
  · rename_i hex
    cases h
    by_cases hn : r.1.strName = name
    · subst hn
      rw [checkIfAssetExists_eq] at hex
      simp [disconnect, hex]
    · simp [hn]

theorem disconnect_unique (h : removeUniqueTx E S c tx = some c') (name : Bytes) (undo : Option CBlockAssetUndo) :
    ((issueEvents (uniqueIssues E tx)).filter fun e => e.name == name).foldlM
      ((S.view E name).disconnect undo) (c.view name) = some (c'.view name) := by
  unfold removeUniqueTx at h
  unfold uniqueIssues
  generalize tx.vout = vout at h
  induction vout generalizing c with
  | nil =>
    cases h
    simp [issueEvents]
  | cons out vout ih =>
    obtain ⟨c1, h1, h2⟩ := foldlM_cons_some.mp h
    cases hu : E.isScriptNewUniqueAsset out.scriptPubKey with
    | false =>
      simp only [hu, test_iff, Option.some.injEq] at h1
      subst h1
      simpa [hu] using ih h2
    | true =>
      simp only [hu, if_true] at h1
      cases hread : E.assetFromScript out.scriptPubKey with
      | none => simp [hread, unissueAsset] at h1
      | some issue =>
        rw [hread] at h1
        have hhead := disconnect_issue h1 name undo
        have hcons : issueEvents (((out :: vout).filter fun out =>
            E.isScriptNewUniqueAsset out.scriptPubKey).filterMap fun out => E.assetFromScript out.scriptPubKey) =
            [AssetEvent.issue issue.1 none none] ++ issueEvents ((vout.filter fun out =>
              E.isScriptNewUniqueAsset out.scriptPubKey).filterMap fun out =>
                E.assetFromScript out.scriptPubKey) := by
          simp [hu, hread, issueEvents]
        rw [hcons, List.filter_append, List.foldlM_append, hhead]
        exact ih h2

theorem disconnect_restricted (h : removeRestrictedTx E S c tx = some c') (name : Bytes)
    (undo : Option CBlockAssetUndo) :
    (((E.restrictedAssetFromTransaction tx).toList.map fun issue =>
      AssetEvent.issue issue.1 ((firstVerifier tx).map fun v => v.getD []) (undoneVerifier E tx)).filter
        fun e => e.name == name).foldlM ((S.view E name).disconnect undo) (c.view name) = some (c'.view name) := by
  simp only [removeRestrictedTx, some_iff] at h
  obtain ⟨c1, h1, issue, hread, out, hout, verifier, hv, rfl⟩ := h
  rw [hread] at h1
  have hhead := disconnect_issue h1 name undo
  have hundone : undoneVerifier E tx = some verifier := by simp [undoneVerifier, hout, hv]
  rw [hread, hundone, view_removeRestrictedVerifier]
  simp only [Option.toList_some, List.map_cons, List.map_nil, List.filter_cons, List.filter_nil, AssetEvent.name,
    beq_iff_eq] at hhead ⊢
  by_cases hn : issue.1.strName = name
  · subst hn
    simp only [if_true, List.foldlM_cons, List.foldlM_nil, disconnect, some_iff, Option.bind_some, Option.elim_none,
      Option.elim_some] at hhead ⊢
    rw [← hhead]
  · simp only [if_neg hn, List.foldlM_nil, some_iff] at hhead ⊢
    rw [if_neg (Ne.symm hn), hhead]

theorem unissueAsset_some {issue} (h : unissueAsset E S c issue = some c') :
    ∃ i, issue = some i ∧ unissueAsset E S c (some i) = some c' := by
  cases issue with
  | none => simp [unissueAsset] at h
  | some i => exact ⟨i, rfl, h⟩

theorem disconnect_kind (hS : S.Named) (hc : c.Named) (h : removeAssetTx E S c tx vUndo = some c') (name : Bytes) :
    ((kindEvents E tx).filter fun e => e.name == name).foldlM
      ((S.view E name).disconnect (findUndo vUndo name)) (c.view name) = some (c'.view name) := by
  unfold removeAssetTx at h
  unfold kindEvents
  split at h
  · rename_i hk
    simp only [some_iff, Prod.exists] at h
    obtain ⟨c1, hu, ownerName, ownerAddress, -, rfl⟩ := h
    obtain ⟨i, hi, hu⟩ := unissueAsset_some hu
    rw [if_pos hk, hi, SameRecords.view_eq (sameRecords_removeOwnerAsset _ _)]
    exact disconnect_issue hu name _
  rename_i hk1
  rw [if_neg hk1]
  split at h
  · rename_i hk
    have hread : ∃ r, E.reissueAssetFromTransaction tx = some r := by
      simp only [removeReissueTx, some_iff] at h
      exact ⟨_, h.choose_spec.1⟩
    obtain ⟨r, hr⟩ := hread
    rw [if_pos hk, hr]
    exact disconnect_reissue hS hc hr h _ name
  rename_i hk2
  rw [if_neg hk2]
  split at h
  · rename_i hk; rw [if_pos hk]; exact disconnect_unique h name _
  rename_i hk3
  rw [if_neg hk3]
  split at h
  · rename_i hk
    obtain ⟨i, hi, hu⟩ := unissueAsset_some h
    rw [if_pos hk, hi]
    exact disconnect_issue hu name _
  rename_i hk4
  rw [if_neg hk4]
  split at h
  · rename_i hk
    obtain ⟨i, hi, hu⟩ := unissueAsset_some h
    rw [if_pos hk, hi]
    exact disconnect_issue hu name _
  rename_i hk5
  rw [if_neg hk5]
  split at h
  · rename_i hk; rw [if_pos hk]; exact disconnect_restricted h name _
  · rename_i hk
    cases h
    simp [hk]

theorem undoTransferOp_not_isAssetOp {txid out} (h : undoTransferOp E txid out = some op) : op.isAssetOp = false := by
  obtain ⟨_, _, rfl⟩ := exists_of_undoTransferOp h
  rfl

theorem foldlM_disconnect_whereKnown (known : Bytes → Bool) (es : List AssetEvent) (g : StoreView)
    (undo : Option CBlockAssetUndo) (s : NameView) (name : Bytes) :
    ((es.map (whereKnown known)).filter fun e => e.name == name).foldlM (g.disconnect undo) s =
      (es.filter fun e => e.name == name).foldlM (g.disconnect undo) s := by
  induction es generalizing s with
  | nil => rfl
  | cons e es ih =>
    have hname : (e.whereKnown known).name = e.name := by cases e <;> rfl
    have hstep : g.disconnect undo s (e.whereKnown known) = g.disconnect undo s e := by cases e <;> rfl
    simp only [map_cons, filter_cons, hname]
    split
    · simp only [foldlM_cons, hstep, ih]
    · exact ih s

theorem disconnect_tx (hS : S.Named) (hc : c.Named) (h : removeAssets E S c tx vUndo = some c') (S0 : Store)
    (name : Bytes) :
    ((assetEvents E S0 tx).filter fun e => e.name == name).foldlM
      ((S.view E name).disconnect (findUndo vUndo name)) (c.view name) = some (c'.view name) := by
  unfold removeAssets at h
  unfold assetEvents
  split at h
  · rename_i hd
    simp only [some_iff] at h
    obtain ⟨c1, h1, c2, h2, h3⟩ := h
    have hview2 : c2.view name = c1.view name := by
      rw [foldlM_tryOps (fun _ _ _ hc => removeTransferOut_eq hc) h2]
      refine view_tryOps (fun op hop => ?_) name
      obtain ⟨_, _, hop⟩ := mem_filterMap.mp hop
      exact undoTransferOp_not_isAssetOp hop
    have hview3 : c'.view name = c2.view name := by
      split at h3
      · rw [foldlM_tryOps (S := S) (fun _ _ _ hc => removeNullDataOut_eq hc) h3]
        refine view_tryOps (fun op hop => ?_) name
        obtain ⟨_, _, hop⟩ := mem_filterMap.mp hop
        exact CacheOp.not_isAssetOp_of_isMark (undoNullDataOp_isMark hop).1
      · cases h3; rfl
    rw [if_pos hd, hview3, hview2, foldlM_disconnect_whereKnown]
    exact disconnect_kind hS hc h1 name
  · rename_i hd
    cases h
    simp [hd]

end

end Hivecoin

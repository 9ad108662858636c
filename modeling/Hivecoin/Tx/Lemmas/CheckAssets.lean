import Hivecoin.Tx.CheckAssets

/-!
# What `CheckTxAssets` has seen when it accepts
-/

namespace Hivecoin

open Outcome CAssetsCache Tally Table

variable {E : Env} {S : Store} {c : CAssetsCache} {view : CoinsView} {mempool : MempoolMaps}
variable {fu : Bool} {st st' : OutputTotals} {out : CTxOut}

def assetOfCoin (E : Env) (coin : Coin) : Option (Bytes × CAmount) :=
  (E.getAssetData coin.out.scriptPubKey).map fun data => (data.assetName, data.nAmount)

def spentAssets (E : Env) (view : CoinsView) (tx : CTransaction) : List (Bytes × CAmount) :=
  tx.vin.filterMap fun txin => (view txin.prevout).bind (assetOfCoin E)

def transferOfOut (E : Env) (out : CTxOut) : Option (Bytes × CAmount) :=
  (E.transferAssetFromScript out.scriptPubKey).map fun t => (t.1.strName, t.1.nAmount)

def transferOutputs (E : Env) (tx : CTransaction) : List (Bytes × CAmount) :=
  tx.vout.filterMap (transferOfOut E)

theorem getAssetData_eq_none {script} (h : Script.isAssetScript script = none) :
    E.getAssetData script = none := by
  simp [Env.getAssetData, h]

theorem transferAssetFromScript_eq_none {script}
    (h : (Script.isAssetScript script).map (·.nType) ≠ some .TX_TRANSFER_ASSET) :
    E.transferAssetFromScript script = none := by
  have hno : Env.isScriptTransferAsset script = none := by
    unfold Env.isScriptTransferAsset
    split
    · rename_i ha; simp [ha] at h
    · rfl
  simp [Env.transferAssetFromScript, hno]

theorem addInput_ok {t t' txin} (h : addInput E S view t txin = .ok t') :
    t' = ((view txin.prevout).bind (assetOfCoin E)).elim t fun e => add t e.1 e.2 := by
  unfold addInput at h
  cases hv : view txin.prevout with
  | none =>
    simp only [hv, Except.ok.injEq] at h
    simp [h]
  | some coin =>
    simp only [hv] at h
    cases ha : Script.isAssetScript coin.out.scriptPubKey with
    | none =>
      simp only [ha, Option.isNone_none, if_true, Except.ok.injEq] at h
      simp [assetOfCoin, getAssetData_eq_none ha, h]
    | some a =>
      simp only [ha, Option.isNone_some, test_iff, ok_iff] at h
      obtain ⟨data, hd, -, rfl⟩ := h
      simp [assetOfCoin, hd]

theorem addTransferOutput_ok (h : addTransferOutput E S c fu st out = .ok st') :
    ∃ transfer address, E.transferAssetFromScript out.scriptPubKey = some (transfer, address) ∧
      contextualCheckTransferAsset E S c transfer address = .ok () ∧
      (fu = false → checkTransferUnits E S c transfer = .ok ()) ∧
      st' = { st with totalOutputs := add st.totalOutputs transfer.strName transfer.nAmount } := by
  simp only [addTransferOutput, ok_iff, Check.orReject] at h
  obtain ⟨⟨transfer, address⟩, ht, hc, h⟩ := h
  refine ⟨transfer, address, ht, hc, ?_⟩
  cases fu with
  | true =>
    simp only [Bool.not_true, test_iff, pure_eq_ok] at h
    exact ⟨by simp, h.symm⟩
  | false =>
    simp only [Bool.not_false, if_true, ok_iff] at h
    exact ⟨fun _ => h.1, h.2.symm⟩

theorem addReissueOutput_ok {txid} (h : addReissueOutput E mempool txid st out = .ok st') :
    ∃ reissue address, E.reissueAssetFromScript out.scriptPubKey = some (reissue, address) ∧
      (∀ hash, mempool.mapReissuedAssets.get? reissue.strName = some hash → hash = txid) ∧
      st'.totalOutputs = st.totalOutputs := by
  simp only [addReissueOutput, ok_iff] at h
  obtain ⟨⟨reissue, address⟩, hr, h⟩ := h
  refine ⟨reissue, address, hr, ?_⟩
  cases hm : mempool.mapReissuedAssets.get? reissue.strName with
  | none =>
    simp only [hm, pure_eq_ok] at h
    exact ⟨by simp, h ▸ rfl⟩
  | some hash =>
    simp only [hm, ok_iff, beq_iff_eq] at h
    obtain ⟨hh, rfl⟩ := h
    exact ⟨fun _ he => by cases he; exact hh, rfl⟩

theorem addOutput_ok {txid} (h : addOutput E S c mempool fu txid st out = .ok st') :
    st'.totalOutputs =
      (transferOfOut E out).elim st.totalOutputs fun e => add st.totalOutputs e.1 e.2 := by
  simp only [addOutput, ok_iff] at h
  obtain ⟨-, -, h⟩ := h
  split at h
  · obtain ⟨transfer, address, ht, -, -, rfl⟩ := addTransferOutput_ok h
    simp [transferOfOut, ht]
  · rename_i hr
    obtain ⟨-, -, -, -, hst⟩ := addReissueOutput_ok h
    simp [transferOfOut, transferAssetFromScript_eq_none (E := E) (by rw [hr]; simp), hst]
  · rename_i hnt _
    simp only [pure_eq_ok] at h
    simp [transferOfOut, transferAssetFromScript_eq_none (E := E) (fun he => hnt he), h]

theorem compareTotals_ok {ti to_} (h : compareTotals ti to_ = .ok ()) (name : Bytes) :
    ti.get? name = to_.get? name := by
  simp only [compareTotals, ok_iff, beq_iff_eq] at h
  obtain ⟨hall, hsize⟩ := h
  rw [forM_eq_ok] at hall
  have hin : ∀ n v, to_.get? n = some v → ti.get? n = some v := by
    intro n v hv
    have hstep := hall (n, v) (mem_toList.mpr hv)
    simp only [ok_iff, beq_iff_eq] at hstep
    obtain ⟨w, hw, rfl⟩ := hstep
    exact hw
  cases hv : to_.get? name with
  | some v => exact hin name v hv
  | none =>
    by_contra hne
    have hsub : ∀ k, to_.contains k → ti.contains k := fun k hk => by
      obtain ⟨v, hv⟩ := contains_iff.mp hk
      exact contains_iff.mpr ⟨v, hin k v hv⟩
    have hc : ti.contains name := by
      cases hg : ti.get? name with
      | none => exact absurd hg hne
      | some v => exact contains_iff.mpr ⟨v, hg⟩
    obtain ⟨v, hv'⟩ := contains_iff.mp (contains_of_size_eq hsub hsize hc)
    rw [hv] at hv'
    cases hv'

/-- An accepted transaction: its inputs exist, its kind passed, and both tallies are the same. -/
theorem checkTxAssets_ok {fm tx v}
    (h : checkTxAssets E S c view mempool fm fu tx = .ok v) :
    haveInputs view tx = true ∧ contextualCheckKind E S c mempool fm tx = .ok () ∧
      ∀ name, (ofList (spentAssets E view tx)).get? name =
        (ofList (transferOutputs E tx)).get? name := by
  simp only [checkTxAssets, ok_iff] at h
  obtain ⟨hin, ti, hti, st, hst, hkind, hcmp, -⟩ := h
  have hi : ti = ofList (spentAssets E view tx) :=
    foldlM_filterMap id (fun txin : CTxIn => (view txin.prevout).bind (assetOfCoin E))
      (fun t e => add t e.1 e.2) hti fun s x s' _ hs => addInput_ok hs
  have ho : st.totalOutputs = ofList (transferOutputs E tx) :=
    foldlM_filterMap OutputTotals.totalOutputs (transferOfOut E) (fun t e => add t e.1 e.2) hst
      fun s x s' _ hs => addOutput_ok hs
  refine ⟨hin, hkind, fun name => ?_⟩
  rw [← hi, ← ho]
  exact compareTotals_ok hcmp name

theorem contextualCheckNewAsset_ok {asset fm}
    (h : contextualCheckNewAsset E S c mempool asset fm = .ok ()) :
    checkIfAssetExists E S c asset.strName = false := by
  simp only [contextualCheckNewAsset, ok_iff, Bool.not_eq_true'] at h
  exact h.2.2.1

end Hivecoin

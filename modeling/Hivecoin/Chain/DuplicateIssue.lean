import Hivecoin.Cache.Lemmas.Operations
import Hivecoin.Chain.Block
import Hivecoin.Tx.Lemmas.CheckAssets

/-!
# Issuing a name twice in one block

A removal left pending in `passets` hides a name from the block that issues it again.
-/

namespace Hivecoin

open Outcome CAssetsCache Pending

variable {E : Env} {S : Store} {c c' : CAssetsCache}

def CacheOp.removesAsset (name : Bytes) : CacheOp → Prop
  | .removeNewAsset asset _ => asset.strName = name
  | _ => False

def HoldsIssue (c : CAssetsCache) (name : Bytes) : Prop :=
  (c.newAssets.slot name).add ≠ none ∧ (c.newAssets.slot name).rem = none

theorem HoldsIssue.addKeep {p : Pending Bytes CAssetCacheNewAsset} (name : Bytes) (v : CAssetCacheNewAsset) :
    ((p.addKeep name v).slot name).add ≠ none ∧ ((p.addKeep name v).slot name).rem = none := by
  simp [slot_addKeep, Slot.addKeep]

theorem HoldsIssue.apply {name} {op : CacheOp} (h : HoldsIssue c name)
    (happ : op.apply E S c = some c') (hop : ¬ op.removesAsset name) : HoldsIssue c' name := by
  unfold HoldsIssue
  rw [CacheOp.apply_newAssets happ]
  cases op with
  | addNewAsset asset =>
    by_cases hn : name = asset.strName
    · subst hn; exact HoldsIssue.addKeep _ _
    · simp only [CacheOp.onNewAssets, slot_addKeep, if_neg hn]
      exact h
  | removeNewAsset asset =>
    have hn : ¬ name = asset.strName := fun hn => hop hn.symm
    simp only [CacheOp.onNewAssets, slot_removeKeep, if_neg hn]
    exact h
  | _ => exact h

theorem HoldsIssue.checkIfAssetExists_iff {name} (h : HoldsIssue c name) (hre : E.fReindex = false) :
    checkIfAssetExists E S c name = true ↔ S.passets.newAssets.toRemove.contains name = false := by
  obtain ⟨hadd, hrem⟩ := h
  obtain ⟨v, hv⟩ := Option.ne_none_iff_exists'.mp hadd
  rw [Table.contains_eq_false]
  have hg : S.passets.newAssets.toRemove.get? name = (S.passets.newAssets.slot name).rem := rfl
  cases hs : (S.passets.newAssets.slot name).rem with
  | none => simp [checkIfAssetExists, hre, Pending.read, Slot.read, hrem, hv, hs, hg]
  | some w => simp [checkIfAssetExists, hre, Pending.read, Slot.read, hrem, hs, hg]

theorem exists_after_addNewAsset_iff {c₁ c₂ : CAssetsCache} {asset : CNewAsset} {address : Bytes}
    {nHeight : Int} {blockHash : Uint256} {ops : List CacheOp} (hre : E.fReindex = false)
    (hadd : c.addNewAsset E S asset address nHeight blockHash = some c₁)
    (hops : runOps E S c₁ ops = some c₂) (hkeep : ∀ op ∈ ops, ¬ op.removesAsset asset.strName) :
    (checkIfAssetExists E S c₂ asset.strName = true ∧
      ∀ mempool again fCheckMempool, again.strName = asset.strName →
        contextualCheckNewAsset E S c₂ mempool again fCheckMempool ≠ .ok ()) ↔
    S.passets.newAssets.toRemove.contains asset.strName = false := by
  have h₁ : HoldsIssue c₁ asset.strName := by
    obtain ⟨-, hs⟩ := addNewAsset_spec hadd
    unfold HoldsIssue
    rw [hs]
    exact HoldsIssue.addKeep _ _
  have h₂ : HoldsIssue c₂ asset.strName :=
    runOps_induct (HoldsIssue · asset.strName) hops h₁
      fun _ op _ hmem happ hc => hc.apply happ (hkeep op hmem)
  rw [← h₂.checkIfAssetExists_iff hre]
  refine ⟨fun h => h.1, fun h => ⟨h, fun mempool again f hname => ?_⟩⟩
  intro hok
  rw [← hname, contextualCheckNewAsset_ok hok] at h
  cases h

namespace Regtest

def issueGold (funds txid : Uint256) : CTransaction :=
  ⟨[⟨⟨funds, 0⟩, []⟩],
    [burnOut .ROOT, ⟨0, ownerAssetScript alice gold⟩, ⟨0, newAssetScript alice gold⟩], txid⟩

def fundedState : ChainState where
  coins out := if out = ⟨1, 0⟩ ∨ out = ⟨2, 0⟩ then some ⟨⟨60000000000, scriptForKeyID alice⟩, 5, false⟩ else none
  store := ∅

def issueBlock : CBlock := ⟨[coinbase, issueGold 1 7], 50, 6⟩
def doubleIssueBlock : CBlock := ⟨[coinbase, issueGold 1 7, issueGold 2 8], 51, 6⟩

def reorgedState : Option ChainState :=
  (connectTip env .none ⟨∅, ∅⟩ fundedState issueBlock).toOption.bind fun r =>
    disconnectTip env r.1 issueBlock r.2

/-- After the reorganisation an issued name is not seen, and is issued twice. -/
theorem goldIssuedTwice :
    ∃ st, reorgedState = some st ∧
      (∃ c, addNewAsset env st.store ∅ gold (addressOf alice) 6 51 = some c ∧
        checkIfAssetExists env st.store c (ascii "GOLD") = false) ∧
      (connectTip env .none ⟨∅, ∅⟩ st doubleIssueBlock).toOption.isSome = true := by
  have h : (reorgedState.map fun st =>
      ((addNewAsset env st.store ∅ gold (addressOf alice) 6 51).map fun c =>
          checkIfAssetExists env st.store c (ascii "GOLD"),
        (connectTip env .none ⟨∅, ∅⟩ st doubleIssueBlock).toOption.isSome)) = some (some false, true) := by
    decide +kernel
  obtain ⟨st, hst, h⟩ := Option.map_eq_some_iff.mp h
  obtain ⟨hc, hok⟩ := Prod.mk.inj h
  exact ⟨st, hst, Option.map_eq_some_iff.mp hc, hok⟩

theorem gold_exists_iff :
    ∃ c, addNewAsset env ∅ ∅ gold (addressOf alice) 6 50 = some c ∧
      ((checkIfAssetExists env ∅ c (ascii "GOLD") = true ∧
        ∀ mempool again fCheckMempool, again.strName = ascii "GOLD" →
          contextualCheckNewAsset env ∅ c mempool again fCheckMempool ≠ .ok ()) ↔
        (∅ : Store).passets.newAssets.toRemove.contains (ascii "GOLD") = false) := by
  obtain ⟨c, hc⟩ := Option.isSome_iff_exists.mp
    (show (addNewAsset env ∅ ∅ gold (addressOf alice) 6 50).isSome = true by decide +kernel)
  exact ⟨c, hc, @exists_after_addNewAsset_iff env ∅ ∅ c c gold (addressOf alice) 6 50 [] rfl hc rfl
    (by simp)⟩

end Regtest

end Hivecoin

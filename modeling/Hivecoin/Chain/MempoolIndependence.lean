import Hivecoin.Chain.Block

/-!
# What a block's validity takes from the mempool

`CheckTxAssets` reads `mapReissuedAssets` also where it checks a transaction of a block.
-/

namespace Hivecoin

open Outcome CAssetsCache Option

variable {E : Env} {S : Store} {c : CAssetsCache} {view : CoinsView} {R : Rules}

def MempoolMaps.empty : MempoolMaps := ⟨∅, ∅⟩

/-- The output does not reissue an asset that another transaction reissues. -/
def FreeOut (E : Env) (mempool : MempoolMaps) (txid : Uint256) (out : CTxOut) : Prop :=
  ∀ reissue address, E.reissueAssetFromScript out.scriptPubKey = some (reissue, address) →
    ∀ hash, mempool.mapReissuedAssets.get? reissue.strName = some hash → hash = txid

/-- No reissue of the block is in `mapReissuedAssets` under another transaction. -/
def ReissuesFree (E : Env) (mempool : MempoolMaps) (block : CBlock) : Prop :=
  E.areAssetsDeployed = true → ∀ tx ∈ block.vtx, tx.isCoinBase = false →
    ∀ out ∈ tx.vout, FreeOut E mempool tx.hash out

theorem freeOut_empty (txid : Uint256) (out : CTxOut) : FreeOut E .empty txid out := by
  intro reissue _ _ hash h
  simp [MempoolMaps.empty] at h

theorem reissueAssetFromScript_eq_none {script}
    (h : (Script.isAssetScript script).map (·.nType) ≠ some .TX_REISSUE_ASSET) :
    E.reissueAssetFromScript script = none := by
  have hno : Env.isScriptReissueAsset script = none := by
    unfold Env.isScriptReissueAsset
    split
    · rename_i ha; simp [ha] at h
    · rfl
  simp [Env.reissueAssetFromScript, hno]

theorem addReissueOutput_iff {mempool txid st out t} :
    (∃ st', addReissueOutput E mempool txid st out = .ok st' ∧ st'.totalOutputs = t) ↔
      (∃ r, E.reissueAssetFromScript out.scriptPubKey = some r) ∧ FreeOut E mempool txid out ∧
        st.totalOutputs = t := by
  simp only [addReissueOutput, ok_iff]
  constructor
  · rintro ⟨st', ⟨⟨reissue, address⟩, hr, hm⟩, ht⟩
    refine ⟨⟨_, hr⟩, ?_, ?_⟩
    · intro reissue' address' hr' hash hhash
      obtain ⟨rfl, -⟩ := Prod.mk.inj (some.inj (hr.symm.trans hr'))
      simp only [hhash, ok_iff, beq_iff_eq] at hm
      exact hm.1
    · cases hg : mempool.mapReissuedAssets.get? reissue.strName with
      | none =>
        simp only [hg, pure_eq_ok] at hm
        rw [← ht, ← hm]
      | some hash =>
        simp only [hg, ok_iff] at hm
        rw [← ht, hm.2]
  · rintro ⟨⟨⟨reissue, address⟩, hr⟩, hfree, ht⟩
    cases hg : mempool.mapReissuedAssets.get? reissue.strName with
    | none =>
      refine ⟨⟨st.totalOutputs, st.vPairReissueAssets ++ [(reissue.strName, txid)]⟩, ⟨_, hr, ?_⟩, ht⟩
      simp only [hg, pure_eq_ok]
    | some hash =>
      refine ⟨st, ⟨_, hr, ?_⟩, ht⟩
      simp only [hg, ok_iff, beq_iff_eq, and_true]
      exact hfree reissue address hr hash hg

theorem addTransferOutput_totals {u st out t} :
    (∃ st', addTransferOutput E S c u st out = .ok st' ∧ st'.totalOutputs = t) ↔
      ∃ st', addTransferOutput E S c u ⟨st.totalOutputs, []⟩ out = .ok st' ∧ st'.totalOutputs = t := by
  cases u with
  | false => simp [addTransferOutput, -bind_pure_comp, ok_iff]
  | true => simp [addTransferOutput, -bind_pure_comp, ok_iff]

/-- What an output adds to the totals where no mempool transaction is known. -/
def outputTotals (E : Env) (S : Store) (c : CAssetsCache) (u : Bool) (txid : Uint256) (t : Totals)
    (out : CTxOut) : Except Reject Totals :=
  (addOutput E S c .empty u txid ⟨t, []⟩ out).map (·.totalOutputs)

theorem map_eq_ok {ε α β : Type} {x : Except ε α} {f : α → β} {b : β} :
    x.map f = .ok b ↔ ∃ a, x = .ok a ∧ f a = b := by
  cases x <;> simp [Except.map]

theorem addOutput_iff {mempool : MempoolMaps} {u : Bool} {txid : Uint256} (st : OutputTotals)
    (out : CTxOut) (t : Totals) :
    (∃ st', addOutput E S c mempool u txid st out = .ok st' ∧ st'.totalOutputs = t) ↔
      FreeOut E mempool txid out ∧ outputTotals E S c u txid st.totalOutputs out = .ok t := by
  have hfree : (Script.isAssetScript out.scriptPubKey).map (·.nType) ≠ some .TX_REISSUE_ASSET →
      FreeOut E mempool txid out := by
    intro h reissue address hr
    rw [reissueAssetFromScript_eq_none h] at hr
    cases hr
  simp only [outputTotals, map_eq_ok, addOutput, ok_iff]
  cases hk : (Script.isAssetScript out.scriptPubKey).map Script.AssetScript.nType with
  | none =>
    have := hfree (by rw [hk]; simp)
    simp [this]
  | some kind =>
    by_cases hre : kind = .TX_REISSUE_ASSET
    · subst hre
      have h1 := @addReissueOutput_iff E mempool txid st out t
      have h2 := @addReissueOutput_iff E .empty txid ⟨st.totalOutputs, []⟩ out t
      simp only [freeOut_empty, true_and] at h2
      grind
    · have := hfree (by rw [hk]; simpa using hre)
      by_cases htr : kind = .TX_TRANSFER_ASSET
      · subst htr
        have := @addTransferOutput_totals E S c u st out t
        grind
      · cases kind <;> simp_all

theorem contextualCheckKind_mempool (mempool mempool' : MempoolMaps) (tx : CTransaction) :
    contextualCheckKind E S c mempool false tx = contextualCheckKind E S c mempool' false tx := by
  simp [contextualCheckKind, contextualCheckNewAsset, contextualCheckUniqueAssetTx]

theorem checkTxAssets_mempool {mempool tx} :
    (∃ v, checkTxAssets E S c view mempool false false tx = .ok v) ↔
      (∀ out ∈ tx.vout, FreeOut E mempool tx.hash out) ∧
        ∃ v, checkTxAssets E S c view .empty false false tx = .ok v := by
  have hloop := fun m t => @foldlM_guarded _ _ _ _ _ OutputTotals.totalOutputs _ _ _
    (@addOutput_iff E S c m false tx.hash) tx.vout ⟨∅, []⟩ t
  have hempty := fun t => (hloop .empty t).trans (and_iff_right fun out _ => freeOut_empty tx.hash out)
  have hkind := @contextualCheckKind_mempool E S c mempool .empty tx
  simp only [checkTxAssets, ok_iff, hkind]
  constructor
  · rintro ⟨v, hin, ti, hti, st, hst, hk, hcmp, -⟩
    obtain ⟨hfree, htot⟩ := (hloop mempool st.totalOutputs).mp ⟨st, hst, rfl⟩
    obtain ⟨st', hst', heq⟩ := (hempty st.totalOutputs).mpr htot
    exact ⟨hfree, _, hin, ti, hti, st', hst', hk, heq ▸ hcmp, rfl⟩
  · rintro ⟨hfree, v, hin, ti, hti, st, hst, hk, hcmp, -⟩
    obtain ⟨st', hst', heq⟩ :=
      (hloop mempool st.totalOutputs).mpr ⟨hfree, (hempty st.totalOutputs).mp ⟨st, hst, rfl⟩⟩
    exact ⟨_, hin, ti, hti, st', hst', hk, heq ▸ hcmp, rfl⟩

theorem connectChecks_mempool {mempool nHeight st tx nFees} :
    connectChecks E S mempool nHeight st tx = .ok nFees ↔
      (E.areAssetsDeployed = true → ∀ out ∈ tx.vout, FreeOut E mempool tx.hash out) ∧
        connectChecks E S .empty nHeight st tx = .ok nFees := by
  unfold connectChecks
  cases hd : E.areAssetsDeployed with
  | false => simp
  | true =>
    have h := @checkTxAssets_mempool E S st.assets st.view mempool tx
    simp only [if_true, ok_iff, forall_const]
    grind

theorem connectTx_mempool {mempool block} (st : ConnectState) (tx : CTransaction)
    (st' : ConnectState) :
    connectTx E S R mempool block st tx = .ok st' ↔
      (E.areAssetsDeployed = true → tx.isCoinBase = false → ∀ out ∈ tx.vout, FreeOut E mempool tx.hash out) ∧
        connectTx E S R .empty block st tx = .ok st' := by
  unfold connectTx
  cases hcb : tx.isCoinBase with
  | true => simp
  | false =>
    simp only [test_iff, bind_eq_ok, forall_const]
    constructor
    · rintro ⟨nFees, hc, hrest⟩
      obtain ⟨hfree, hc⟩ := connectChecks_mempool.mp hc
      exact ⟨hfree, nFees, hc, hrest⟩
    · rintro ⟨hfree, nFees, hc, hrest⟩
      exact ⟨nFees, connectChecks_mempool.mpr ⟨hfree, hc⟩, hrest⟩

/-- A block is accepted under given maps where it is under empty ones and its reissues are free, with the same state. -/
theorem connectTxs_mempool {mempool block st} :
    connectTxs E S R mempool view c block = .ok st ↔
      ReissuesFree E mempool block ∧ connectTxs E S R .empty view c block = .ok st := by
  have h := foldlM_guarded id (fun s tx t => by
    simpa using @connectTx_mempool E S R mempool block s tx t) block.vtx ⟨view, c, 0, ⟨[], []⟩⟩ st
  simp only [id_eq, exists_eq_right] at h
  rw [connectTxs, h]
  exact and_congr_left fun _ => ⟨fun h hd tx htx hcb => h tx htx hd hcb, fun h tx htx hd hcb => h hd tx htx hcb⟩

/-- The coins and the asset cache that the loop leaves, if it accepts the block. -/
def loopOutcome (E : Env) (S : Store) (R : Rules) (mempool : MempoolMaps) (view : CoinsView)
    (c : CAssetsCache) (block : CBlock) : Option (CoinsView × CAssetsCache) :=
  (connectTxs E S R mempool view c block).toOption.map fun st => (st.view, st.assets)

theorem loopOutcome_eq_some {mempool block r} :
    loopOutcome E S R mempool view c block = some r ↔
      ReissuesFree E mempool block ∧ loopOutcome E S R .empty view c block = some r := by
  simp only [loopOutcome, map_eq_some_iff, toOption_eq_some, @connectTxs_mempool E S c view R mempool]
  grind

theorem loopOutcome_eq_iff (E : Env) (S : Store) (R : Rules) (view : CoinsView) (c : CAssetsCache)
    (block : CBlock) (mempool₁ mempool₂ : MempoolMaps) :
    loopOutcome E S R mempool₁ view c block = loopOutcome E S R mempool₂ view c block ↔
      ((loopOutcome E S R .empty view c block).isSome →
        (ReissuesFree E mempool₁ block ↔ ReissuesFree E mempool₂ block)) := by
  have h₁ := fun r => @loopOutcome_eq_some E S c view R mempool₁ block r
  have h₂ := fun r => @loopOutcome_eq_some E S c view R mempool₂ block r
  cases hv : loopOutcome E S R .empty view c block with
  | none =>
    simp only [hv, reduceCtorEq, and_false, iff_false] at h₁ h₂
    rw [Option.eq_none_iff_forall_ne_some.mpr h₁, Option.eq_none_iff_forall_ne_some.mpr h₂]
    simp
  | some r₀ =>
    simp only [hv, Option.some.injEq] at h₁ h₂
    simp only [Option.isSome_some, forall_const]
    rw [Option.ext_iff]
    simp only [h₁, h₂]
    exact ⟨fun h => by simpa using h r₀, fun h r => and_congr_left fun _ => h⟩

namespace Regtest

def reissueGold : CTransaction :=
  ⟨[⟨⟨1, 0⟩, []⟩, ⟨⟨1, 1⟩, []⟩],
    [burnOut .REISSUE, ownerGoldOut, ⟨0, reissueScript alice ⟨ascii "GOLD", 500, -1, 1, []⟩⟩], 7⟩

def reissueBlock : CBlock := ⟨[coinbase, reissueGold], 50, 6⟩

/-- The mempool holds another reissue of `GOLD`, under the transaction 8. -/
def otherReissue : MempoolMaps := ⟨∅, (∅ : Table Bytes Uint256).insert (ascii "GOLD") 8⟩

theorem reissueBlock_depends_on_mempool :
    checkBlock env .none reissueBlock = .ok () ∧
      (loopOutcome env goldStore .none .empty ownerView ∅ reissueBlock).isSome = true ∧
      loopOutcome env goldStore .none otherReissue ownerView ∅ reissueBlock = none := by
  have hsome : (loopOutcome env goldStore .none .empty ownerView ∅ reissueBlock).isSome = true := by
    decide +kernel
  have hnone : (loopOutcome env goldStore .none otherReissue ownerView ∅ reissueBlock).isNone = true := by
    decide +kernel
  exact ⟨by decide +kernel, hsome, isNone_iff_eq_none.mp hnone⟩

end Regtest

end Hivecoin

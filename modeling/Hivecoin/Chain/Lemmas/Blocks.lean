import Hivecoin.Cache.Reachable
import Hivecoin.Chain.Effects

/-!
# The caches that blocks leave
-/

namespace Hivecoin

open Outcome CAssetsCache List Option CacheOp MarkRecords

variable {E : Env} {S : Store} {R : Rules} {mempool : MempoolMaps}
variable {c : CAssetsCache} {tx : CTransaction} {block : CBlock} {st st' : DisconnectState} {nHeight : Nat}
  {vUndo : List (Bytes × CBlockAssetUndo)} {op : CacheOp} {ops : List CacheOp}

def CacheOp.isCoinOp : CacheOp → Bool
  | .trySpendCoin _ | .undoAssetCoin _ => true
  | _ => false

def CoinOps (E : Env) (S : Store) (c c' : CAssetsCache) : Prop :=
  ∃ ops : List CacheOp, (∀ op ∈ ops, op.isCoinOp) ∧ c' = tryOps E S c ops

theorem CoinOps.foldlM {σ α : Type} {A : σ → CAssetsCache} {f : σ → α → Option σ} {l : List α} {s s' : σ}
    (h : l.foldlM f s = some s') (step : ∀ s x s', f s x = some s' → CoinOps E S (A s) (A s')) :
    CoinOps E S (A s) (A s') := by
  induction l generalizing s with
  | nil =>
    cases h
    exact ⟨[], by simp, rfl⟩
  | cons x l ih =>
    obtain ⟨s1, h1, h2⟩ := foldlM_cons_some.mp h
    obtain ⟨ops1, hops1, heq1⟩ := step s x s1 h1
    obtain ⟨ops2, hops2, heq2⟩ := ih h2
    refine ⟨ops1 ++ ops2, ?_, by rw [tryOps_append, ← heq1, heq2]⟩
    intro op hop
    rcases mem_append.mp hop with hop | hop
    · exact hops1 op hop
    · exact hops2 op hop

theorem spendCoin_assets {view c out} : CoinOps E S c (spendCoin E S view c out).assets := by
  unfold spendCoin
  cases view out with
  | none => exact ⟨[], by simp, rfl⟩
  | some coin =>
    simp only
    split
    · refine ⟨[.trySpendCoin coin.out], by simp [isCoinOp], ?_⟩
      simp only [tryOps_cons, tryOps_nil, apply]
      cases trySpendCoin E S c coin.out <;> rfl
    · exact ⟨[], by simp, rfl⟩

theorem spendInput_assets {st st' txin} (h : spendInput E S st txin = some st') : CoinOps E S st.assets st'.assets := by
  obtain ⟨ops, hops, heq⟩ := @spendCoin_assets E S st.view st.assets txin.prevout
  refine ⟨ops, hops, ?_⟩
  unfold spendInput at h
  simp only at h
  split at h
  · cases h; exact heq
  · cases h

theorem spendInputs_assets {view st} (h : spendInputs E S view c tx = some st) : CoinOps E S c st.assets := by
  unfold spendInputs at h
  split at h
  · cases h; exact ⟨[], by simp, rfl⟩
  · exact CoinOps.foldlM (A := SpendState.assets) h fun _ _ _ => spendInput_assets

theorem connectTx_ok {st st'} (h : connectTx E S R mempool block st tx = .ok st') :
    ∃ nFees r, (tx.isCoinBase = false → connectChecks E S mempool block.nHeight st tx = .ok nFees) ∧
      (tx.isCoinBase = true → nFees = st.nFees) ∧ R.tx st.view tx block.nHeight = true ∧
      updateCoins E S st.view st.assets tx block.nHeight block.hash = some r ∧
      st' = ⟨r.view, r.assets, nFees,
        ⟨if tx.isCoinBase then st.undo.vtxundo else st.undo.vtxundo ++ [r.vprevout],
          st.undo.vUndoAssetData ++ r.undoAssetData.toList⟩⟩ := by
  unfold connectTx at h
  cases hcb : tx.isCoinBase with
  | true =>
    simp only [hcb, if_true, ok_iff] at h
    obtain ⟨nFees, hf, hR, r, hr, rfl⟩ := h
    exact ⟨nFees, r, by simp, fun _ => (Except.ok.inj hf).symm, hR, hr, rfl⟩
  | false =>
    simp only [hcb, test_iff, ok_iff] at h
    obtain ⟨nFees, hc, hR, r, hr, rfl⟩ := h
    exact ⟨nFees, r, fun _ => hc, by simp, hR, hr, rfl⟩

/-- A transaction's inputs are spent, then its operations run. -/
theorem connectTx_assets {st st'} (h : connectTx E S R mempool block st tx = .ok st') :
    ∃ spends : List CacheOp, (∀ op ∈ spends, op.isCoinOp) ∧
      let c := tryOps E S st.assets spends
      st'.assets = tryOps E S c (txOps E S c tx block.nHeight block.hash) ∧
      st'.undo.vUndoAssetData =
        st.undo.vUndoAssetData ++ (addAssets E S c tx block.nHeight block.hash).2.toList := by
  obtain ⟨nFees, r, -, -, -, hr, rfl⟩ := connectTx_ok h
  simp only [updateCoins, some_iff] at hr
  obtain ⟨spent, hspent, rfl⟩ := hr
  obtain ⟨ops, hops, heq⟩ := spendInputs_assets hspent
  refine ⟨ops, hops, ?_, ?_⟩
  · rw [← heq, ← addAssets_fst]
  · rw [← heq]

theorem applyTxInUndo_assets {undo out} (h : applyTxInUndo E S st undo out = some st') :
    CoinOps E S st.assets st'.assets := by
  simp only [applyTxInUndo, map_eq_some_iff] at h
  obtain ⟨coin, -, rfl⟩ := h
  split
  · refine ⟨[.undoAssetCoin undo], by simp [isCoinOp], ?_⟩
    simp only [tryOps_cons, tryOps_nil, apply]
    cases undoAssetCoin E S st.assets undo <;> rfl
  · exact ⟨[], by simp, rfl⟩

theorem restoreInputs_assets {vprevout} (h : restoreInputs E S st tx vprevout = some st') :
    CoinOps E S st.assets st'.assets := by
  unfold restoreInputs at h
  split at h
  · cases h
  · exact CoinOps.foldlM (A := DisconnectState.assets) h fun _ _ _ => applyTxInUndo_assets

theorem removeOutCoins_assets (tx : CTransaction) (nHeight : Nat) (outs : List (CTxOut × Nat))
    (st : DisconnectState) : (outs.foldl (removeOutCoin E S tx nHeight) st).assets = st.assets := by
  induction outs generalizing st with
  | nil => rfl
  | cons out outs ih =>
    rw [foldl_cons, ih]
    unfold removeOutCoin
    split <;> rfl

/-- To undo a transaction its operations run, then its inputs come back. -/
theorem disconnectTx_assets {entry} (h : disconnectTx E S nHeight vUndo st entry = some st') :
    ∃ coins : List CacheOp, (∀ op ∈ coins, op.isCoinOp) ∧
      st'.assets = tryOps E S (tryOps E S st.assets (undoTxOps E S st.assets entry.1 vUndo)) coins := by
  obtain ⟨tx, txundo⟩ := entry
  simp only [disconnectTx, some_iff, removeOutCoins_assets] at h
  obtain ⟨assets, hrem, h⟩ := h
  have heq := removeAssets_eq hrem
  split at h
  · obtain ⟨ops, hops, hst⟩ := restoreInputs_assets h
    exact ⟨ops, hops, by rw [hst, ← heq]⟩
  · cases h
    exact ⟨[], by simp, by simp [heq]⟩

/-! ## Marks -/

def nullOps (E : Env) (tx : CTransaction) : List CacheOp :=
  if E.areAssetsDeployed then tx.vout.filterMap fun out => nullDataOp E out.scriptPubKey else []

def undoNullOps (E : Env) (tx : CTransaction) : List CacheOp :=
  if E.areAssetsDeployed && E.areRestrictedAssetsDeployed then tx.vout.filterMap (undoNullDataOp E) else []

/-- The operation sets no mark, and a reissue is that of the transaction. -/
def CacheOp.OwnOf (E : Env) (tx : CTransaction) : CacheOp → Prop
  | addReissueAsset r a out | removeReissueAsset r a out _ =>
    (E.reissueAssetFromTransaction tx).getD (CReissueAsset.null, []) = (r, a) ∧ out.hash = tx.hash
  | op => op.isMark = false

theorem CacheOp.OwnOf.isMark (h : op.OwnOf E tx) : op.isMark = false := by
  cases op <;> first | rfl | exact h

theorem kindOps_ownOf {blockHash} : ∀ op ∈ kindOps E S c tx nHeight blockHash, op.OwnOf E tx := by
  intro op hop
  unfold kindOps at hop
  split at hop
  · rcases mem_pair.mp hop with rfl | rfl <;> rfl
  split at hop
  · rcases mem_cons.mp hop with rfl | hop
    · exact ⟨rfl, rfl⟩
    · simp only [mem_toList, map_eq_some_iff] at hop
      obtain ⟨_, _, rfl⟩ := hop; rfl
  split at hop
  · obtain ⟨_, _, rfl⟩ := mem_map.mp hop; rfl
  split at hop
  · rw [mem_singleton.mp hop]; rfl
  split at hop
  · rw [mem_singleton.mp hop]; rfl
  split at hop
  · rcases mem_cons.mp hop with rfl | hop
    · rfl
    · simp only [mem_toList, map_eq_some_iff] at hop
      obtain ⟨_, _, rfl⟩ := hop; rfl
  · cases hop

theorem undoKindOps_ownOf : ∀ op ∈ undoKindOps E S c tx vUndo, op.OwnOf E tx := by
  have hissue : ∀ (issue : Option (CNewAsset × Bytes)) op, op ∈ (issue.map unissueOp).toList → op.OwnOf E tx := by
    intro issue op hop
    simp only [Option.mem_toList, Option.map_eq_some_iff] at hop
    obtain ⟨_, _, rfl⟩ := hop; rfl
  intro op hop
  unfold undoKindOps at hop
  split at hop
  · rcases List.mem_append.mp hop with hop | hop
    · exact hissue _ op hop
    · simp only [Option.mem_toList, Option.map_eq_some_iff] at hop
      obtain ⟨_, _, rfl⟩ := hop; rfl
  split at hop
  · unfold undoReissueOps at hop
    split at hop
    · rename_i r hr
      split at hop
      · rw [List.mem_singleton.mp hop]
        exact ⟨by rw [hr]; rfl, rfl⟩
      · cases hop
    · cases hop
  split at hop
  · simp only [List.mem_filterMap, Option.map_eq_some_iff] at hop
    obtain ⟨_, _, _, _, rfl⟩ := hop; rfl
  split at hop
  · exact hissue _ op hop
  split at hop
  · exact hissue _ op hop
  split at hop
  · rcases List.mem_append.mp hop with hop | hop
    · exact hissue _ op hop
    · simp only [Option.mem_toList, unissueVerifierOp, some_iff] at hop
      obtain ⟨_, _, _, _, _, _, rfl⟩ := hop; rfl
  · cases hop

theorem exists_of_transferOp {script out} (h : transferOp E script out = some op) :
    ∃ transfer address, op = addTransferAsset transfer address out := by
  unfold transferOp at h
  split at h
  · split at h
    · cases h; exact ⟨_, _, rfl⟩
    · cases h
  · cases h

theorem exists_of_undoTransferOp {txid out} (h : undoTransferOp E txid out = some op) :
    ∃ transfer address, op = removeTransfer transfer address ⟨txid, out.2⟩ := by
  unfold undoTransferOp at h
  split at h
  · simp only [map_eq_some_iff] at h
    obtain ⟨_, _, rfl⟩ := h; exact ⟨_, _, rfl⟩
  · cases h

theorem nullDataOp_isMark {script} (h : nullDataOp E script = some op) : op.isMark = true ∧ op.WellNamed := by
  unfold nullDataOp at h
  split at h
  · simp only at h
    split at h
    · cases h; exact ⟨rfl, trivial⟩
    · rename_i ht; cases h; exact ⟨rfl, Or.inl ht⟩
    · rename_i ht; cases h; exact ⟨rfl, Or.inr ht⟩
    · cases h
  · split at h
    · cases h; exact ⟨rfl, trivial⟩
    · cases h

theorem undoNullDataOp_isMark {out} (h : undoNullDataOp E out = some op) : op.isMark = true ∧ op.WellNamed := by
  unfold undoNullDataOp at h
  split at h
  · cases h
  split at h
  · simp only [bind_eq_some_iff] at h
    obtain ⟨d, -, h⟩ := h
    split at h
    · rename_i ht; cases h; exact ⟨rfl, Or.inl ht⟩
    · rename_i ht; cases h; exact ⟨rfl, Or.inr ht⟩
    · cases h; exact ⟨rfl, trivial⟩
    · cases h
  split at h
  · simp only [map_eq_some_iff] at h
    obtain ⟨_, _, rfl⟩ := h; exact ⟨rfl, trivial⟩
  · cases h

theorem txOps_filter_isMark (c : CAssetsCache) (tx : CTransaction) (nHeight : Nat) (blockHash : Uint256) :
    (txOps E S c tx nHeight blockHash).filter isMark = nullOps E tx := by
  unfold txOps nullOps
  split
  · have hkind : (kindOps E S c tx nHeight blockHash).filter isMark = [] :=
      filter_eq_nil_iff.mpr fun op hop => by simp [(kindOps_ownOf op hop).isMark]
    have hout : ∀ out : CTxOut × Nat, (outOps E tx.hash out).filter isMark =
        (nullDataOp E out.1.scriptPubKey).toList := by
      intro out
      rw [outOps, filter_append]
      have h1 : ((transferOp E out.1.scriptPubKey ⟨tx.hash, out.2⟩).toList.filter isMark) = [] :=
        filter_eq_nil_iff.mpr fun op hop => by
          obtain ⟨_, _, rfl⟩ := exists_of_transferOp (mem_toList.mp hop)
          simp [isMark]
      have h2 : ((nullDataOp E out.1.scriptPubKey).toList.filter isMark) =
          (nullDataOp E out.1.scriptPubKey).toList :=
        filter_eq_self.mpr fun op hop => (nullDataOp_isMark (mem_toList.mp hop)).1
      rw [h1, h2, nil_append]
    rw [filter_append, hkind, nil_append, filter_flatMap]
    simp only [hout]
    have hzip : tx.vout = tx.vout.zipIdx.map Prod.fst := by simp
    nth_rewrite 2 [hzip]
    rw [filterMap_map, filterMap_eq_flatMap_toList]
    rfl
  · rfl

theorem undoTxOps_filter_isMark (c : CAssetsCache) (tx : CTransaction)
    (vUndo : List (Bytes × CBlockAssetUndo)) :
    (undoTxOps E S c tx vUndo).filter isMark = undoNullOps E tx := by
  unfold undoTxOps undoNullOps
  cases hd : E.areAssetsDeployed with
  | false => rfl
  | true =>
    have hkind : (undoKindOps E S c tx vUndo).filter isMark = [] :=
      filter_eq_nil_iff.mpr fun op hop => by simp [(undoKindOps_ownOf op hop).isMark]
    have htr : (tx.vout.zipIdx.filterMap (undoTransferOp E tx.hash)).filter isMark = [] :=
      filter_eq_nil_iff.mpr fun op hop => by
        obtain ⟨_, _, h⟩ := mem_filterMap.mp hop
        obtain ⟨_, _, rfl⟩ := exists_of_undoTransferOp h
        simp [isMark]
    simp only [if_true, filter_append, hkind, htr, nil_append, Bool.true_and]
    split
    · exact filter_eq_self.mpr fun op hop => by
        obtain ⟨_, _, h⟩ := mem_filterMap.mp hop
        exact (undoNullDataOp_isMark h).1
    · rfl

theorem CacheOp.wellNamed_of_not_isMark (h : op.isMark = false) : op.WellNamed := by
  cases op <;> trivial

theorem CacheOp.isMark_of_isCoinOp (h : op.isCoinOp = true) : op.isMark = false := by
  cases op <;> first | rfl | cases h

theorem txOps_wellNamed {blockHash} : ∀ op ∈ txOps E S c tx nHeight blockHash, op.WellNamed := by
  intro op hop
  cases hm : op.isMark with
  | false => exact wellNamed_of_not_isMark hm
  | true =>
    have hmem := mem_filter.mpr ⟨hop, hm⟩
    rw [txOps_filter_isMark, nullOps] at hmem
    split at hmem
    · obtain ⟨_, _, h⟩ := mem_filterMap.mp hmem
      exact (nullDataOp_isMark h).2
    · cases hmem

theorem undoTxOps_wellNamed : ∀ op ∈ undoTxOps E S c tx vUndo, op.WellNamed := by
  intro op hop
  cases hm : op.isMark with
  | false => exact wellNamed_of_not_isMark hm
  | true =>
    have hmem := mem_filter.mpr ⟨hop, hm⟩
    rw [undoTxOps_filter_isMark, undoNullOps] at hmem
    split at hmem
    · obtain ⟨_, _, h⟩ := mem_filterMap.mp hmem
      exact (undoNullDataOp_isMark h).2
    · cases hmem

theorem tryOps_marks_coinOps (h : ∀ op ∈ ops, op.isCoinOp) : (tryOps E S c ops).marks = c.marks := by
  have hnil : ops.filter isMark = [] :=
    filter_eq_nil_iff.mpr fun op hop => by simp [isMark_of_isCoinOp (h op hop)]
  rw [tryOps_marks, hnil]
  rfl

def BuiltFrom (E : Env) (S : Store) (c c' : CAssetsCache) : Prop :=
  ∃ ops, runOps E S c ops = some c' ∧ ∀ op ∈ ops, op.WellNamed

theorem BuiltFrom.refl (c : CAssetsCache) : BuiltFrom E S c c := ⟨[], rfl, by simp⟩

theorem BuiltFrom.trans {c1 c2 c3} (h : BuiltFrom E S c1 c2) (h' : BuiltFrom E S c2 c3) :
    BuiltFrom E S c1 c3 := by
  obtain ⟨ops, hrun, hops⟩ := h
  obtain ⟨ops', hrun', hops'⟩ := h'
  exact ⟨ops ++ ops', runOps_append hrun hrun', fun op hop =>
    (mem_append.mp hop).elim (hops op) (hops' op)⟩

theorem BuiltFrom.tryOps (h : ∀ op ∈ ops, op.WellNamed) : BuiltFrom E S c (tryOps E S c ops) := by
  obtain ⟨ops', hsub, hrun⟩ := exists_runOps_tryOps E S c ops
  exact ⟨ops', hrun, fun op hop => h op (hsub.subset hop)⟩

theorem BuiltFrom.coinOps (h : ∀ op ∈ ops, op.isCoinOp) : BuiltFrom E S c (Hivecoin.tryOps E S c ops) :=
  .tryOps fun op hop => wellNamed_of_not_isMark (isMark_of_isCoinOp (h op hop))

/-- Connecting builds the cache, with the marks of the null data. -/
theorem connectTxs_assets {vtx : List CTransaction} {st st' : ConnectState}
    (h : vtx.foldlM (connectTx E S R mempool block) st = .ok st') :
    BuiltFrom E S st.assets st'.assets ∧
      st'.assets.marks = (vtx.flatMap (nullOps E)).foldl exec st.assets.marks := by
  induction vtx generalizing st with
  | nil =>
    cases h
    exact ⟨.refl _, rfl⟩
  | cons tx vtx ih =>
    obtain ⟨st1, h1, h2⟩ := foldlM_cons_ok.mp h
    obtain ⟨spends, hspends, hassets, -⟩ := connectTx_assets h1
    obtain ⟨hbuilt, hmarks⟩ := ih h2
    refine ⟨?_, ?_⟩
    · refine BuiltFrom.trans ?_ hbuilt
      rw [hassets]
      exact (BuiltFrom.coinOps hspends).trans (.tryOps txOps_wellNamed)
    · rw [hmarks, hassets, tryOps_marks, txOps_filter_isMark, tryOps_marks_coinOps hspends,
        flatMap_cons, foldl_append]

theorem disconnectTxs_assets {entries : List (CTransaction × Option (List Coin))}
    (h : entries.foldlM (disconnectTx E S nHeight vUndo) st = some st') :
    BuiltFrom E S st.assets st'.assets ∧
      st'.assets.marks =
        ((entries.map Prod.fst).flatMap (undoNullOps E)).foldl exec st.assets.marks := by
  induction entries generalizing st with
  | nil =>
    cases h
    exact ⟨.refl _, rfl⟩
  | cons entry entries ih =>
    obtain ⟨st1, h1, h2⟩ := foldlM_cons_some.mp h
    obtain ⟨coins, hcoins, hassets⟩ := disconnectTx_assets h1
    obtain ⟨hbuilt, hmarks⟩ := ih h2
    refine ⟨?_, ?_⟩
    · refine BuiltFrom.trans ?_ hbuilt
      rw [hassets]
      exact (BuiltFrom.tryOps undoTxOps_wellNamed).trans (.coinOps hcoins)
    · rw [hmarks, hassets, tryOps_marks_coinOps hcoins, tryOps_marks, undoTxOps_filter_isMark,
        List.map_cons, List.flatMap_cons, List.foldl_append]

def blockFlags : CheckFlags := { fCheckDuplicateInputs := true, fMempoolCheck := false, fBlockCheck := true }

theorem connectBlock_ok {view assets cs}
    (h : connectBlock E S R mempool view assets block = .ok cs) :
    ∃ coinbase vtx cs0, block.vtx = coinbase :: vtx ∧ coinbase.isCoinBase = true ∧
      (∀ tx ∈ vtx, tx.isCoinBase = false) ∧ (∀ tx ∈ block.vtx, E.checkTransaction blockFlags tx = .ok ()) ∧
      connectTx E S R mempool block ⟨view, assets, 0, ⟨[], []⟩⟩ coinbase = .ok cs0 ∧
      vtx.foldlM (connectTx E S R mempool block) cs0 = .ok cs ∧ R.reward block cs.nFees = true := by
  simp only [connectBlock, connectTxs, checkBlock, ok_iff, forM_eq_ok] at h
  obtain ⟨⟨-, hfirst, hrest, hcheck⟩, cs', hloop, hreward, rfl⟩ := h
  cases hvtx : block.vtx with
  | nil => simp [hvtx] at hfirst
  | cons coinbase vtx =>
    simp only [hvtx, List.tail_cons, List.all_eq_true, Bool.not_eq_true'] at hfirst hrest
    simp only [hvtx, List.foldlM_cons, bind_eq_ok] at hloop
    obtain ⟨cs0, h0, hloop⟩ := hloop
    exact ⟨coinbase, vtx, cs0, rfl, hfirst, hrest, hvtx ▸ hcheck, h0, hloop, hreward⟩

theorem connectTip_ok {st r} (h : connectTip E R mempool st block = .ok r) :
    ∃ coinbase vtx cs0 cs, block.vtx = coinbase :: vtx ∧ coinbase.isCoinBase = true ∧
      (∀ tx ∈ vtx, tx.isCoinBase = false) ∧ (∀ tx ∈ block.vtx, E.checkTransaction blockFlags tx = .ok ()) ∧
      connectTx E st.store R mempool block ⟨st.coins, ∅, 0, ⟨[], []⟩⟩ coinbase = .ok cs0 ∧
      vtx.foldlM (connectTx E st.store R mempool block) cs0 = .ok cs ∧
      R.reward block cs.nFees = true ∧ r = (⟨cs.view, st.store.flush cs.assets⟩, cs.undo) := by
  simp only [connectTip, ok_iff] at h
  obtain ⟨cs, hblock, rfl⟩ := h
  obtain ⟨coinbase, vtx, cs0, hvtx, hfirst, hrest, hcheck, h0, hloop, hreward⟩ := connectBlock_ok hblock
  exact ⟨coinbase, vtx, cs0, cs, hvtx, hfirst, hrest, hcheck, h0, hloop, hreward, rfl⟩

theorem connectTip_store {st : ChainState} {r : ChainState × CBlockUndo} (h : connectTip E R mempool st block = .ok r) :
    ∃ c, r.1.store = st.store.flush c ∧ BuiltFrom E st.store ∅ c ∧
      c.marks = (block.vtx.flatMap (nullOps E)).foldl exec (∅ : CAssetsCache).marks := by
  simp only [connectTip, connectBlock, connectTxs, ok_iff] at h
  obtain ⟨cs, ⟨-, cs', hloop, -, rfl⟩, rfl⟩ := h
  exact ⟨cs'.assets, rfl, connectTxs_assets hloop⟩

theorem disconnectTip_eq {st st' undo} (h : disconnectTip E st block undo = some st') :
    undo.vtxundo.length + 1 = block.vtx.length ∧ ∃ ds : DisconnectState,
      (block.vtx.zip (none :: undo.vtxundo.map some)).reverse.foldlM
        (disconnectTx E st.store block.nHeight undo.vUndoAssetData) ⟨st.coins, ∅, ∅, true⟩ = some ds ∧
      ds.fClean = true ∧ st' = ⟨ds.view, st.store.flush ds.assets⟩ := by
  unfold disconnectTip disconnectBlock at h
  by_cases hlen : undo.vtxundo.length + 1 = block.vtx.length
  · simp only [ne_eq, hlen, not_true_eq_false, if_false] at h
    refine ⟨hlen, ?_⟩
    cases hloop : (block.vtx.zip (none :: undo.vtxundo.map some)).reverse.foldlM
        (disconnectTx E st.store block.nHeight undo.vUndoAssetData) ⟨st.coins, ∅, ∅, true⟩ with
    | none => simp [hloop] at h
    | some ds =>
      refine ⟨ds, rfl, ?_⟩
      cases hclean : ds.fClean with
      | false => simp [hloop, hclean] at h
      | true =>
        simp only [hloop, hclean, if_true, some.injEq] at h
        exact ⟨rfl, h.symm⟩
  · simp only [ne_eq, hlen, not_false_eq_true, if_true] at h
    cases h

theorem disconnectTip_store {st st' : ChainState} {undo} (h : disconnectTip E st block undo = some st') :
    ∃ c, st'.store = st.store.flush c ∧ BuiltFrom E st.store ∅ c ∧
      c.marks = (block.vtx.reverse.flatMap (undoNullOps E)).foldl exec (∅ : CAssetsCache).marks := by
  obtain ⟨hlen, ds, hloop, -, rfl⟩ := disconnectTip_eq h
  obtain ⟨hbuilt, hmarks⟩ := disconnectTxs_assets hloop
  refine ⟨ds.assets, rfl, hbuilt, ?_⟩
  rw [hmarks, map_reverse, map_fst_zip (by simp [hlen])]

end Hivecoin

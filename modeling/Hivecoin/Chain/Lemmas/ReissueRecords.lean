import Hivecoin.Cache.DumpAssets
import Hivecoin.Chain.Lemmas.BlockEvents

/-!
# Blocks record reissues under their outpoints
-/

namespace Hivecoin

open Outcome CAssetsCache List Option CacheOp

variable {E : Env} {S : Store} {R : Rules} {mempool : MempoolMaps} {ids : Uint256 → CTransaction} {tx : CTransaction}

/-- The reissue of a transaction, which does not depend on deployments. -/
def reissueOf (tx : CTransaction) : CReissueAsset :=
  (Env.lastOutRead tx (Env.isReissueAsset tx) fun script =>
    (Env.isScriptReissueAsset script).bind (Read.from_ Read.reissueAsset script)).getD CReissueAsset.null

def reissuedAt (ids : Uint256 → CTransaction) (out : COutPoint) : Bytes := (reissueOf (ids out.hash)).strName

theorem reissueOf_eq (E : Env) (tx : CTransaction) :
    ((E.reissueAssetFromTransaction tx).getD (CReissueAsset.null, [])).1 = reissueOf tx := by
  unfold Env.reissueAssetFromTransaction reissueOf Env.lastOutRead
  split
  · cases tx.lastOut with
    | none => rfl
    | some out =>
      simp only [bind_some, Env.reissueAssetFromScript]
      cases Env.isScriptReissueAsset out.scriptPubKey with
      | none => rfl
      | some i =>
        simp only [bind_eq_bind, bind_some]
        cases Read.from_ Read.reissueAsset out.scriptPubKey i <;> rfl
  · rfl

theorem CacheOp.namedAt_of_not_isAssetOp {op : CacheOp} (h : op.isAssetOp = false) : op.NamedAt (reissuedAt ids) := by
  cases op <;> trivial

theorem coinOps_namedAt {ops : List CacheOp} (h : ∀ op ∈ ops, op.isCoinOp) : ∀ op ∈ ops, op.NamedAt (reissuedAt ids) :=
  fun op hop => namedAt_of_not_isAssetOp (not_isAssetOp_of_isCoinOp (h op hop))

theorem CacheOp.OwnOf.namedAt (hids : ids tx.hash = tx) {op : CacheOp} (h : op.OwnOf E tx) : op.NamedAt (reissuedAt ids) := by
  have hreissue : ∀ r a (out : COutPoint), (E.reissueAssetFromTransaction tx).getD (CReissueAsset.null, []) = (r, a) →
      out.hash = tx.hash → r.strName = reissuedAt ids out := by
    intro r a out hr hout
    rw [reissuedAt, hout, hids, ← reissueOf_eq E, hr]
  cases op with
  | addReissueAsset r a out | removeReissueAsset r a out => exact hreissue r a out h.1 h.2
  | _ => trivial

theorem txOps_namedAt (hids : ids tx.hash = tx) (c : CAssetsCache) (nHeight : Nat) (blockHash : Uint256) :
    ∀ op ∈ txOps E S c tx nHeight blockHash, op.NamedAt (reissuedAt ids) := by
  intro op hop
  unfold txOps at hop
  split at hop
  · rcases mem_append.mp hop with hop | hop
    · exact (kindOps_ownOf op hop).namedAt hids
    · obtain ⟨out, -, hop⟩ := mem_flatMap.mp hop
      rcases mem_append.mp hop with hop | hop
      · exact namedAt_of_not_isAssetOp (transferOp_not_isAssetOp (mem_toList.mp hop))
      · exact namedAt_of_not_isAssetOp
          (not_isAssetOp_of_isMark (nullDataOp_isMark (mem_toList.mp hop)).1)
  · cases hop

theorem connectTx_covers {block : CBlock} {st st' : ConnectState} (hids : ids tx.hash = tx) (hS : S.Named)
    (hc : st.assets.Named) (hcov : st.assets.Covers (reissuedAt ids))
    (h : connectTx E S R mempool block st tx = .ok st') : st'.assets.Covers (reissuedAt ids) := by
  obtain ⟨spends, hspends, hassets, -⟩ := connectTx_assets h
  rw [hassets]
  exact (hcov.tryOps (coinOps_namedAt hspends) hS hc).tryOps (txOps_namedAt hids _ _ _) hS (hc.tryOps hS _)

theorem connectTip_settled {st block r}
    (hS : st.store.Settled (reissuedAt ids)) (hids : ∀ tx ∈ block.vtx, ids tx.hash = tx)
    (h : connectTip E R mempool st block = .ok r) : r.1.store.Settled (reissuedAt ids) := by
  simp only [connectTip, connectBlock, connectTxs, ok_iff] at h
  obtain ⟨cs, ⟨-, cs', hloop, -, rfl⟩, rfl⟩ := h
  have hcov : cs'.assets.Named ∧ cs'.assets.Covers (reissuedAt ids) := by
    refine foldlM_induct (fun cs => cs.assets.Named ∧ cs.assets.Covers (reissuedAt ids)) hloop ⟨named_empty, .empty⟩ ?_
    intro cs tx cs1 htx hstep hcs
    exact ⟨connectTx_named hS.named hcs.1 hstep, connectTx_covers (hids tx htx) hS.named hcs.1 hcs.2 hstep⟩
  exact hS.flush hcov.1 hcov.2

theorem undoTxOps_namedAt (hids : ids tx.hash = tx) (c : CAssetsCache) (vUndo : List (Bytes × CBlockAssetUndo)) :
    ∀ op ∈ undoTxOps E S c tx vUndo, op.NamedAt (reissuedAt ids) := by
  intro op hop
  unfold undoTxOps at hop
  split at hop
  · rcases mem_append.mp hop with hop | hop
    · rcases mem_append.mp hop with hop | hop
      · exact (undoKindOps_ownOf op hop).namedAt hids
      · obtain ⟨_, _, hop⟩ := mem_filterMap.mp hop
        exact namedAt_of_not_isAssetOp (undoTransferOp_not_isAssetOp hop)
    · split at hop
      · obtain ⟨_, _, hop⟩ := mem_filterMap.mp hop
        exact namedAt_of_not_isAssetOp (not_isAssetOp_of_isMark (undoNullDataOp_isMark hop).1)
      · cases hop
  · cases hop

theorem disconnectTx_covers {nHeight : Nat} {vUndo : List (Bytes × CBlockAssetUndo)} {st st' : DisconnectState}
    {entry : CTransaction × Option (List Coin)} (hids : ids entry.1.hash = entry.1) (hS : S.Named) (hc : st.assets.Named)
    (hcov : st.assets.Covers (reissuedAt ids)) (h : disconnectTx E S nHeight vUndo st entry = some st') :
    st'.assets.Named ∧ st'.assets.Covers (reissuedAt ids) := by
  obtain ⟨coins, hcoins, hassets⟩ := disconnectTx_assets h
  rw [hassets]
  exact ⟨(hc.tryOps hS _).tryOps hS _,
    (hcov.tryOps (undoTxOps_namedAt hids _ _) hS hc).tryOps (coinOps_namedAt hcoins) hS (hc.tryOps hS _)⟩

theorem disconnectTxs_covers {nHeight vUndo} {st st' : DisconnectState}
    {entries : List (CTransaction × Option (List Coin))} (hids : ∀ entry ∈ entries, ids entry.1.hash = entry.1)
    (hS : S.Named) (hc : st.assets.Named) (hcov : st.assets.Covers (reissuedAt ids))
    (h : entries.foldlM (disconnectTx E S nHeight vUndo) st = some st') :
    st'.assets.Named ∧ st'.assets.Covers (reissuedAt ids) := by
  induction entries generalizing st with
  | nil =>
    cases h
    exact ⟨hc, hcov⟩
  | cons entry entries ih =>
    obtain ⟨st1, h1, h2⟩ := foldlM_cons_some.mp h
    obtain ⟨hc1, hcov1⟩ := disconnectTx_covers (hids entry List.mem_cons_self) hS hc hcov h1
    exact ih (fun e he => hids e (List.mem_cons_of_mem _ he)) hc1 hcov1 h2

theorem disconnectTip_settled {st st' : ChainState} {block : CBlock} {undo}
    (hS : st.store.Settled (reissuedAt ids)) (hids : ∀ tx ∈ block.vtx, ids tx.hash = tx)
    (h : disconnectTip E st block undo = some st') : st'.store.Settled (reissuedAt ids) := by
  obtain ⟨-, ds, hloop, -, rfl⟩ := disconnectTip_eq h
  obtain ⟨hc, hcov⟩ := disconnectTxs_covers (fun entry hentry => hids entry.1
    (of_mem_zip (mem_reverse.1 hentry)).1) hS.named named_empty .empty hloop
  exact hS.flush hc hcov

end Hivecoin

import Hivecoin.Chain.Lemmas.TxHistory
import Hivecoin.Chain.Reward

/-!
# The coins of a node through reorganisations
-/

namespace Hivecoin

open Outcome Writes CAssetsCache

variable {E : Env} {R : Rules} {mempool : MempoolMaps} {ids : Uint256 → CTransaction} {chain : List (CBlock × CBlockUndo)}
  {block : CBlock} {undo : CBlockUndo} {st st' : ChainState} {view view' : CoinsView}

def chainTxs (chain : List (CBlock × CBlockUndo)) : List CTransaction := chain.flatMap fun entry => entry.1.vtx

inductive ChainHistory (ids : Uint256 → CTransaction) : List (CBlock × CBlockUndo) → CoinsView → Prop
  | genesis : ChainHistory ids [] fun _ => none
  | next {chain : List (CBlock × CBlockUndo)} {view view' block undo}
      (h : ChainHistory ids chain view) (hlength : undo.vtxundo.length + 1 = block.vtx.length)
      (hsteps : ConnectedTxs ids block.nHeight (chainTxs chain) view (undoEntries block undo) view')
      (hhistory : TxHistory ids (chain.length + 1) (chainTxs chain ++ block.vtx) view') :
      ChainHistory ids (chain ++ [(block, undo)]) view'

namespace ChainHistory

theorem history (h : ChainHistory ids chain view) : TxHistory ids chain.length (chainTxs chain) view := by
  cases h with
  | genesis => exact .empty ids
  | next h hlength hsteps hhistory =>
    rw [chainTxs, List.flatMap_append, List.flatMap_singleton, List.length_append, List.length_singleton]
    exact hhistory

theorem last (h : ChainHistory ids (chain ++ [(block, undo)]) view') :
    ∃ view, ChainHistory ids chain view ∧ undo.vtxundo.length + 1 = block.vtx.length ∧
      ConnectedTxs ids block.nHeight (chainTxs chain) view (undoEntries block undo) view' := by
  generalize hchain : chain ++ [(block, undo)] = all at h
  cases h with
  | genesis => simp at hchain
  | next h hlength hsteps hhistory =>
    obtain ⟨rfl, hlast⟩ := List.append_inj' hchain rfl
    cases hlast
    exact ⟨_, h, hlength, hsteps⟩

theorem connectBlock {S assets cs} (h : ChainHistory ids chain view)
    (hids : ∀ tx ∈ block.vtx, ids tx.hash = tx) (hheight : block.nHeight = chain.length + 1)
    (hcoinbase : checkCoinbaseHeight block = true) (hblock : Hivecoin.connectBlock E S R mempool view assets block = .ok cs) :
    ChainHistory ids (chain ++ [(block, cs.undo)]) cs.view := by
  obtain ⟨hlength, hsteps, hhistory⟩ := connectBlock_history h.history hids hheight hcoinbase hblock
  exact .next h hlength hsteps hhistory

theorem undo_eq (hsteps : ConnectedTxs ids block.nHeight (chainTxs chain) view (undoEntries block undo) view') {S ds ds'} (hview : ds.view = view')
    (hloop : (undoEntries block undo).reverse.foldlM (disconnectTx E S block.nHeight undo.vUndoAssetData) ds = some ds') :
    ds'.view = view := by
  have hkept : ∀ entry ∈ (undoEntries block undo).reverse, KeptEntry entry := fun entry hentry =>
    hsteps.kept entry (List.mem_reverse.mp hentry)
  rw [disconnectTxs_run hkept hloop, hview, hsteps.run]
  exact hsteps.undoes.run_run

end ChainHistory

end Hivecoin

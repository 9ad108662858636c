import Hivecoin.Chain.CoinRecovery
import Hivecoin.Chain.UnspentIndex

/-!
# The coins of the active chain

Through any reorganisations the coins of a node are those of its active chain, and no coin is spent twice there.
-/

namespace Hivecoin

open Outcome Writes List

variable {P : ChainParams} {R : Rules} {E : Env} {ids : Uint256 → CTransaction} {C : StepConditions} {st : ChainState}
  {chain : List (CBlock × CBlockUndo)} {view view' : CoinsView} {txs : List CTransaction}

/-- The outpoints that transactions spend; a coinbase spends none. -/
def spentBy (txs : List CTransaction) : List COutPoint := (txs.filter (!·.isCoinBase)).flatMap fun tx => tx.vin.map (·.prevout)

theorem mem_spentBy {out} : out ∈ spentBy txs ↔ ∃ tx ∈ txs, tx.isCoinBase = false ∧ ∃ txin ∈ tx.vin, txin.prevout = out := by
  simp [spentBy, and_assoc]

theorem spentBy_append (txs txs' : List CTransaction) : spentBy (txs ++ txs') = spentBy txs ++ spentBy txs' := by
  simp [spentBy]

theorem ConnectedTxs.spends_once {nHeight entries} (h : ConnectedTxs ids nHeight txs view entries view')
    (hnodup : ∀ entry ∈ entries, (entry.1.vin.map (·.prevout)).Nodup) (hold : (spentBy txs).Nodup) :
    (spentBy (txs ++ entries.map Prod.fst)).Nodup := by
  induction h with
  | nil => simpa using hold
  | @cons txs view view' entry entries m hhistory hundo _ _ ih =>
    rw [map_cons, append_cons]
    refine ih (fun e he => hnodup e (mem_cons_of_mem _ he)) ?_
    rw [spentBy_append]
    refine hold.append ?_ fun out hspent hinput => ?_
    · have hinputs := hnodup entry mem_cons_self
      cases hcb : entry.1.isCoinBase <;> simp [spentBy, hcb, hinputs]
    · -- what is spent already is not found, and the inputs are found
      obtain ⟨tx, htx, hcb, txin, htxin, rfl⟩ := mem_spentBy.mp hspent
      obtain ⟨tx', htx', hcb', txin', htxin', heq⟩ := mem_spentBy.mp hinput
      cases mem_singleton.mp htx'
      obtain ⟨coins, hcoins⟩ := Option.ne_none_iff_exists'.mp fun hnone => by simp [hundo.coinbase.mp hnone] at hcb'
      have hfound := mem_map_of_mem (f := fun txin => view txin.prevout) htxin'
      rw [← hundo.coins coins hcoins, heq, (hhistory.spent tx htx hcb txin htxin).1] at hfound
      simp at hfound

theorem ChainHistory.run (h : ChainHistory ids chain view) : view = Writes.run (chain.flatMap fun b => blockWrites b.1) fun _ => none := by
  induction h with
  | genesis => rfl
  | next _ hlength hsteps _ ih =>
    rw [hsteps.run, flatMap_txWrites_undoEntries hlength, ih, flatMap_append, run_append, flatMap_singleton]

theorem NodeRun.history (h : NodeRun P R E ids C chain st) : ChainHistory ids chain st.coins ∧ (spentBy (chainTxs chain)).Nodup := by
  induction h with
  | genesis => exact ⟨.genesis, nodup_nil⟩
  | connect _ hids hheight hcoinbase _ hblock ih =>
    simp only [connectTip, ok_iff, Prod.mk.injEq] at hblock
    obtain ⟨cs, hconnect, rfl, rfl⟩ := hblock
    obtain ⟨-, -, -, -, -, -, hcheck, -⟩ := connectBlock_ok hconnect
    obtain ⟨hlength, hsteps, -⟩ := connectBlock_history ih.1.history hids hheight hcoinbase hconnect
    have htxs := map_fst_undoEntries hlength
    refine ⟨ih.1.connectBlock hids hheight hcoinbase hconnect, ?_⟩
    rw [chainTxs, flatMap_append, flatMap_singleton, ← htxs]
    exact hsteps.spends_once (fun _ he => (checkTransaction_ok (hcheck _ (htxs ▸ mem_map_of_mem he))).nodup rfl) ih.2
  | disconnect _ _ hblock ih =>
    obtain ⟨view, hview, -, hsteps⟩ := ih.1.last
    obtain ⟨-, ds, hloop, -, rfl⟩ := disconnectTip_eq hblock
    have hspent := ih.2
    rw [chainTxs, flatMap_append, spentBy_append] at hspent
    exact ⟨ChainHistory.undo_eq hsteps rfl hloop ▸ hview, hspent.of_append_left⟩
  | dump _ _ ih => exact ih
  | cacheEvent _ _ ih => exact ih

/-- However a node has come to its active chain, its coins are what the blocks of that chain write. -/
theorem coins_of_active_chain (h : NodeRun P R E ids C chain st) :
    st.coins = run (chain.flatMap fun b => blockWrites b.1) fun _ => none := h.history.1.run

/-- The active chain spends no coin twice, and no coin that it spends is left. -/
theorem active_chain_spends_once (h : NodeRun P R E ids C chain st) :
    (spentBy (chainTxs chain)).Nodup ∧ ∀ out ∈ spentBy (chainTxs chain), st.coins out = none := by
  refine ⟨h.history.2, fun out hout => ?_⟩
  obtain ⟨tx, htx, hcb, txin, htxin, rfl⟩ := mem_spentBy.mp hout
  exact (h.history.1.history.spent tx htx hcb txin htxin).1

namespace Regtest

theorem goldChain_run : ∃ chain st, NodeRun params .none env (chainIds [issueGold 1001 7]) .none chain st ∧ chain.map Prod.fst = goldChain := by
  have h : (runBlocks env goldChain).toOption.isSome = true := by decide +kernel
  obtain ⟨st, hst⟩ := Option.isSome_iff_exists.mp h
  have hids := @goldChain_ids [issueGold 1001 7] (by decide +kernel) (by decide +kernel)
  obtain ⟨chain, hrun, hblocks⟩ := runBlocks_run (toOption_eq_some.mp hst) (by decide +kernel) hids (by decide +kernel)
  exact ⟨chain, st, hrun, hblocks⟩

theorem goldChain_coins : ∃ chain st, NodeRun params .none env (chainIds [issueGold 1001 7]) .none chain st ∧
    st.coins = run (goldChain.flatMap Hivecoin.blockWrites) fun _ => none := by
  obtain ⟨chain, st, hrun, hblocks⟩ := goldChain_run
  exact ⟨chain, st, hrun, by rw [coins_of_active_chain hrun, ← hblocks, flatMap_map]⟩

theorem goldChain_spends_once : (spentBy (goldChain.flatMap CBlock.vtx)).Nodup := by
  obtain ⟨chain, st, hrun, hblocks⟩ := goldChain_run
  rw [← hblocks, flatMap_map]
  exact (active_chain_spends_once hrun).1

end Regtest

end Hivecoin

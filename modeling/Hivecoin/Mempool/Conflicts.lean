import Mathlib.Data.List.Flatten
import Hivecoin.Mempool.PendingNames

/-!
# Conflicts in the mempool

A transaction comes in only after those that spend one of its inputs have gone.
-/

namespace Hivecoin

open List

namespace CTxMemPool

variable {E : Env} {O : AcceptOptions} {tip : TipState} {pool pool' : CTxMemPool} {tx : CTransaction}

def spends (pool : CTxMemPool) : List COutPoint := pool.txs.flatMap fun tx => tx.vin.map (·.prevout)

theorem Removes.spends (h : Removes pool pool') (hspends : pool.spends.Nodup) : pool'.spends.Nodup := by
  obtain ⟨stage, rfl⟩ := h
  rw [CTxMemPool.spends, txs_removeStaged]
  exact hspends.sublist (filter_sublist.flatMap _)

/-- What `mapNextTx` has for an input is the transaction that spends it. -/
theorem nextTx_eq (h : pool.spends.Nodup) (htx : tx ∈ pool.txs) {out} (hout : out ∈ tx.vin.map (·.prevout)) : pool.nextTx out = some tx := by
  have hsymm : Std.Symm (Function.onFun List.Disjoint fun tx : CTransaction => tx.vin.map (·.prevout)) := ⟨fun _ _ hd => hd.symm⟩
  have hsome : (pool.nextTx out).isSome = true := find?_isSome.2 ⟨tx, htx, by simpa using hout⟩
  obtain ⟨tx', hnext⟩ := Option.isSome_iff_exists.1 hsome
  have hout' : out ∈ tx'.vin.map (·.prevout) := by simpa [nextTx] using find?_some hnext
  rw [hnext, Option.some.injEq]
  by_contra hne
  exact (nodup_flatMap.1 h).2.forall (mem_of_find?_eq_some hnext) htx hne hout' hout

theorem AcceptChecked.spends {v conflicts} (h : AcceptChecked E tip pool tx v conflicts) (hspends : pool.spends.Nodup) :
    (pool.storeTx E O tip conflicts tx).spends.Nodup := by
  rw [CTxMemPool.spends, storeTx_stores.txs, flatMap_append, flatMap_singleton]
  refine (Removes.spends ⟨conflicts, rfl⟩ hspends).append ((checkTransaction_ok h.checked).nodup rfl) fun out hold hnew => ?_
  obtain ⟨tx', htx', hout⟩ := mem_flatMap.1 hold
  obtain ⟨hmem, hkept⟩ := mem_removeStaged.1 htx'
  obtain ⟨txin, htxin, rfl⟩ := mem_map.1 hnew
  have hconflict : tx' ∈ pool.setConflicts tx := mem_filterMap.2 ⟨txin, htxin, nextTx_eq hspends hmem hout⟩
  exact hkept (h.conflicts_eq ▸ (calculateDescendants_spec contains_of_setConflicts).1 _ (mem_map_of_mem hconflict))

theorem spends_apply (h : pool.spends.Nodup) (e : PoolEvent) : (e.apply pool).spends.Nodup := by
  cases e with
  | accept E P O tip tx =>
    rcases acceptToMemoryPoolWorker_cases E P O tip pool tx with heq | ⟨v, conflicts, hchecked, ⟨-, heq⟩ | ⟨-, heq⟩⟩
    · rw [PoolEvent.apply, heq]
      exact h
    · rw [PoolEvent.apply, heq]
      exact (removes_limitSize _ P O).spends (hchecked.spends h)
    · obtain ⟨names, rfl, -⟩ := hchecked.names
      rw [PoolEvent.apply, heq, CTxMemPool.spends, (recordTx_records (checkTransaction_changes hchecked.checked)).txs]
      exact (removes_limitSize _ P O).spends (hchecked.spends h)
  | removeStaged stage => exact Removes.spends ⟨stage, rfl⟩ h
  | removeRecursive tx => exact (removes_removeRecursive pool tx).spends h
  | removeConflicts tx => exact (removes_removeConflicts pool tx).spends h
  | removeForBlock E S view vtx data => exact (removes_removeForBlock pool).spends h
  | connectBlock E S view vtx data =>
    refine (removes_removeForBlock _).spends ?_
    have htxs : (vtx.foldl releaseMinedReissue pool).txs = pool.txs :=
      foldlRecOn vtx (motive := fun p => p.txs = pool.txs) _ rfl fun p hp tx _ => (releaseMinedReissue_frame p tx).1.trans hp
    rwa [CTxMemPool.spends, htxs]
  | clear => exact nodup_nil
  | restart saved => exact nodup_nil

end CTxMemPool

end Hivecoin

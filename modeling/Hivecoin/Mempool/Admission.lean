import Hivecoin.Mempool.PendingNames

/-!
# Refused transactions

A refused transaction leaves the mempool as it was, evictions apart, unless others were replaced or it was stored for good.
-/

namespace Hivecoin

open Outcome List Option CTransaction

namespace CTxMemPool

section

variable (E : Env) (P : MempoolPolicy) (O : AcceptOptions) (tip : TipState) (pool : CTxMemPool) (tx : CTransaction)

/-- The pool without transactions, indexes of addresses and spent coins. -/
def assetMaps : CTxMemPool :=
  { pool with
    mapTx := []
    vTxHashes := []
    mapAddress := ∅
    mapAddressInserted := ∅
    mapSpent := ∅
    mapSpentInserted := ∅ }

def replaced : List Uint256 := pool.calculateDescendants ((pool.setConflicts tx).map hash)

/-- What the size limit takes out once the transaction is stored. -/
def evictions : List Uint256 := if O.bypass_limits then [] else P.evicted (pool.storeTx E O tip (pool.replaced tx) tx)

/-- Transactions and asset maps are those of the pool, some evictions apart. -/
def SameButEvicted (evicted : List Uint256) (pool' : CTxMemPool) : Prop :=
  ∃ stage ⊆ evicted, pool'.txs = (pool.removeStaged stage).txs ∧ pool'.assetMaps = (pool.removeStaged stage).assetMaps

/-- Once stored, it is evicted without having replaced any, or it stays and no other transaction makes its changes. -/
def StoredSafely : Prop :=
  if tx.hash ∈ pool.evictions E P O tip tx then pool.setConflicts tx = []
  else E.areAssetsDeployed = true → ∀ ch ∈ E.changes tx,
    (pool.removeStaged (pool.replaced tx ++ pool.evictions E P O tip tx)).tracks ch = false

end

variable {E : Env} {P : MempoolPolicy} {O : AcceptOptions} {tip : TipState} {pool : CTxMemPool} {tx : CTransaction}

theorem assetMaps_removeUnchecked (pool : CTxMemPool) (hash : Uint256) :
    (pool.removeUnchecked hash).assetMaps = (pool.assetMaps.removeUnchecked hash).assetMaps := by
  have hreissue : ∀ p : CTxMemPool, (p.releaseReissue hash).assetMaps = p.assetMaps.releaseReissue hash := by
    intro p
    simp only [releaseReissue, assetMaps]
    cases p.mapReissuedTx.get? hash with
    | none => rfl
    | some name => cases h : p.mapReissuedAssets.contains name <;> simp [h]
  have hasset : ∀ p : CTxMemPool, (p.releaseAsset hash).assetMaps = p.assetMaps.releaseAsset hash := by
    intro p
    simp only [releaseAsset, assetMaps]
    split <;> rfl
  have hrestricted : ∀ p : CTxMemPool, (p.releaseRestricted hash).assetMaps = p.assetMaps.releaseRestricted hash := fun _ => rfl
  simp only [removeUnchecked, hrestricted, hasset, hreissue]
  rfl

theorem assetMaps_removeStaged {pool' : CTxMemPool} (h : pool'.assetMaps = pool.assetMaps) (stage : List Uint256) :
    (pool'.removeStaged stage).assetMaps = (pool.removeStaged stage).assetMaps := by
  induction stage generalizing pool pool' with
  | nil => exact h
  | cons hash stage ih =>
    apply ih
    rw [assetMaps_removeUnchecked, h, ← assetMaps_removeUnchecked]

theorem assetMaps_storeTx (conflicts : List Uint256) :
    (pool.storeTx E O tip conflicts tx).assetMaps = (pool.removeStaged conflicts).assetMaps := by
  unfold storeTx
  simp only
  split <;> split <;> rfl

theorem tracks_eq_of_assetMaps {pool' : CTxMemPool} (h : pool'.assetMaps = pool.assetMaps) (ch : Change) :
    pool'.tracks ch = pool.tracks ch := by
  have htracks : ∀ p : CTxMemPool, p.tracks ch = p.assetMaps.tracks ch := by
    intro p
    cases ch <;> rfl
  rw [htracks, h, ← htracks]

theorem limitSize_storeTx :
    (pool.storeTx E O tip (pool.replaced tx) tx).limitSize P O =
      (pool.storeTx E O tip (pool.replaced tx) tx).removeStaged (pool.evictions E P O tip tx) := by
  unfold limitSize evictions
  split <;> rfl

theorem contains_limitSize :
    ((pool.storeTx E O tip (pool.replaced tx) tx).limitSize P O).contains tx.hash = true ↔ tx.hash ∉ pool.evictions E P O tip tx := by
  rw [limitSize_storeTx, contains_iff]
  refine ⟨fun ⟨tx', htx', hhash⟩ => hhash ▸ (mem_removeStaged.1 htx').2, fun hnot => ⟨tx, mem_removeStaged.2 ⟨?_, hnot⟩, rfl⟩⟩
  rw [storeTx_stores.txs]
  exact mem_append_right _ (mem_singleton_self _)

theorem tracks_limitSize (ch : Change) :
    ((pool.storeTx E O tip (pool.replaced tx) tx).limitSize P O).tracks ch =
      (pool.removeStaged (pool.replaced tx ++ pool.evictions E P O tip tx)).tracks ch := by
  rw [limitSize_storeTx]
  apply tracks_eq_of_assetMaps
  rw [assetMaps_removeStaged (assetMaps_storeTx _), removeStaged, removeStaged, removeStaged, foldl_append]

theorem mem_replaced {tx'} (h : tx' ∈ pool.setConflicts tx) : tx'.hash ∈ pool.replaced tx :=
  (calculateDescendants_spec contains_of_setConflicts).1 _ (mem_map_of_mem h)

theorem sameButEvicted_of_evicted (hevicted : tx.hash ∈ pool.evictions E P O tip tx) (hnone : pool.setConflicts tx = []) :
    pool.SameButEvicted (pool.evictions E P O tip tx) ((pool.storeTx E O tip (pool.replaced tx) tx).limitSize P O) := by
  have hreplaced : pool.replaced tx = [] := by
    rw [replaced, hnone]
    rfl
  refine ⟨_, Subset.refl _, ?_, ?_⟩
  · have htxs : (pool.removeStaged []).txs = pool.txs := rfl
    rw [limitSize_storeTx, txs_removeStaged, storeTx_stores.txs, hreplaced, htxs, filter_append, txs_removeStaged]
    simp [hevicted]
  · rw [limitSize_storeTx]
    exact assetMaps_removeStaged (hreplaced ▸ assetMaps_storeTx _) _

theorem not_sameButEvicted_of_replaced (hpresent : ∀ pool' : CTxMemPool, ∀ hash ∈ P.evicted pool', pool'.contains hash = true)
    (hnew : pool.contains tx.hash = false) {tx'} (htx' : tx' ∈ pool.setConflicts tx) :
    ¬ pool.SameButEvicted (pool.evictions E P O tip tx) ((pool.storeTx E O tip (pool.replaced tx) tx).limitSize P O) := by
  rintro ⟨stage, hstage, htxs, -⟩
  have hmem := mem_of_setConflicts htx'
  have hgone : ∀ tx'' ∈ (pool.storeTx E O tip (pool.replaced tx) tx).txs, tx''.hash ≠ tx'.hash := by
    rw [storeTx_stores.txs]
    intro tx'' htx'' heq
    rcases mem_append.1 htx'' with hold | hnow
    · exact (mem_removeStaged.1 hold).2 (heq ▸ mem_replaced htx')
    · rw [mem_singleton.1 hnow] at heq
      rw [contains_iff.2 ⟨tx', hmem, heq.symm⟩] at hnew
      cases hnew
  have hkept : tx'.hash ∉ stage := by
    intro hin
    have hevicted := hstage hin
    unfold evictions at hevicted
    split at hevicted
    · cases hevicted
    · obtain ⟨tx'', htx'', heq⟩ := contains_iff.1 (hpresent _ _ hevicted)
      exact hgone tx'' htx'' heq
  have hthere : tx' ∈ (pool.removeStaged stage).txs := mem_removeStaged.2 ⟨hmem, hkept⟩
  rw [← htxs, limitSize_storeTx] at hthere
  exact hgone tx' (mem_removeStaged.1 hthere).1 rfl

theorem recordTx_fst {v} (hnodup : (E.changes tx).Nodup)
    (htracks : ∀ ch, (v.foldl recordReissue pool).tracks ch = pool.tracks ch) :
    (pool.recordTx E tip v tx).1 = .ok () ↔ (E.areAssetsDeployed = true → ∀ ch ∈ E.changes tx, pool.tracks ch = false) := by
  unfold recordTx
  cases E.areAssetsDeployed with
  | false => simp
  | true =>
    have hok := recordOutputs_ok_iff tx.hash (v.foldl recordReissue pool) hnodup
    simp only [htracks] at hok
    simp only [if_true, forall_const, Env.changes]
    rw [← hok]
    generalize recordOutputs E tx.hash tx.vout (v.foldl recordReissue pool) = result
    obtain ⟨_ | _, _⟩ := result <;> simp

/-- A refusal changes no more than the size limit does, just where the transaction is not stored or stored safely. -/
theorem refusal_sameButEvicted_iff (E : Env) (P : MempoolPolicy) (O : AcceptOptions) (tip : TipState) (pool : CTxMemPool) (tx : CTransaction)
    (hpresent : ∀ pool' : CTxMemPool, ∀ hash ∈ P.evicted pool', pool'.contains hash = true) :
    ((pool.acceptToMemoryPoolWorker E P O tip tx).1 ≠ .ok () →
      pool.SameButEvicted (pool.evictions E P O tip tx) (pool.acceptToMemoryPoolWorker E P O tip tx).2) ↔
    ((pool.acceptChecks E P tip tx).isOk = true → O.test_accept = false → pool.StoredSafely E P O tip tx) := by
  unfold acceptToMemoryPoolWorker
  cases hchecks : pool.acceptChecks E P tip tx with
  | error e => exact ⟨fun _ h => (by cases h), fun _ _ => ⟨[], nil_subset _, rfl, rfl⟩⟩
  | ok result =>
    obtain ⟨v, conflicts⟩ := result
    have hchecked := acceptChecks_ok hchecks
    obtain rfl : conflicts = pool.replaced tx := hchecked.conflicts_eq
    cases htest : O.test_accept with
    | true => simp
    | false =>
      simp only [test_iff, contains_limitSize, Except.isOk, Except.toBool, forall_const]
      by_cases hevicted : tx.hash ∈ pool.evictions E P O tip tx
      · rw [if_neg (not_not_intro hevicted), StoredSafely, if_pos hevicted]
        refine ⟨fun h => ?_, fun hnone _ => sameButEvicted_of_evicted hevicted hnone⟩
        refine eq_nil_iff_forall_not_mem.2 fun tx' htx' => ?_
        exact not_sameButEvicted_of_replaced hpresent hchecked.new htx' (h (by simp))
      · obtain ⟨names, rfl, -⟩ := hchecked.names
        have hnodup := checkTransaction_changes hchecked.checked
        rw [if_pos hevicted, StoredSafely, if_neg hevicted]
        simp only [← tracks_limitSize]
        rw [← recordTx_fst hnodup (foldl_recordReissue _ _ _).2.2.1]
        refine ⟨fun h => ?_, fun hok hne => absurd hok hne⟩
        by_contra hfails
        obtain ⟨stage, -, htxs, -⟩ := h hfails
        -- the refused transaction is in the pool now, and it was not before
        obtain ⟨tx', htx', hhash⟩ := contains_iff.1 (contains_limitSize.2 hevicted)
        rw [← (recordTx_records hnodup).txs, htxs] at htx'
        have hnew := hchecked.new
        rw [contains_iff.2 ⟨tx', (mem_removeStaged.1 htx').1, hhash⟩] at hnew
        cases hnew

end CTxMemPool

namespace Regtest

def freezeGold (token : COutPoint) (txid : Uint256) : CTransaction :=
  ⟨[⟨token, []⟩], [ownerGoldOut, ⟨0, globalRestrictionScript ⟨ascii "$GOLD", 1⟩⟩], txid⟩

def restrictedTip : TipState := ⟨ownerView, restrictedGoldStore, 10⟩

def freezePool : CTxMemPool := (CTxMemPool.acceptToMemoryPoolWorker env lenientPolicy plainAccept restrictedTip ∅ (freezeGold ⟨1, 1⟩ 2)).2

/-- The second freeze is refused, and stays in the mempool. -/
theorem second_freeze_stays :
    (freezePool.txs.map hash) = [2] ∧
      (freezePool.acceptToMemoryPoolWorker env lenientPolicy plainAccept restrictedTip (freezeGold ⟨2, 0⟩ 3)).1 =
        .error ⟨0, "bad-txns-global-freeze-already-in-mempool"⟩ ∧
      (freezePool.acceptToMemoryPoolWorker env lenientPolicy plainAccept restrictedTip (freezeGold ⟨2, 0⟩ 3)).2.txs.map hash =
        [2, 3] :=
  ⟨by decide +kernel, by decide +kernel, by decide +kernel⟩

def narrowPolicy : MempoolPolicy := { lenientPolicy with evicted := fun pool => (pool.txs.drop 1).map hash }

/-- The second freeze is evicted before its change is looked at. -/
theorem evicted_freeze_leaves_pool :
    (freezePool.acceptToMemoryPoolWorker env narrowPolicy plainAccept restrictedTip (freezeGold ⟨2, 0⟩ 3)).1 =
        .error ⟨0, "mempool full"⟩ ∧
      freezePool.SameButEvicted (freezePool.evictions env narrowPolicy plainAccept restrictedTip (freezeGold ⟨2, 0⟩ 3))
        (freezePool.acceptToMemoryPoolWorker env narrowPolicy plainAccept restrictedTip (freezeGold ⟨2, 0⟩ 3)).2 := by
  have hrefused : (freezePool.acceptToMemoryPoolWorker env narrowPolicy plainAccept restrictedTip (freezeGold ⟨2, 0⟩ 3)).1 =
      .error ⟨0, "mempool full"⟩ := by decide +kernel
  have hpresent : ∀ pool' : CTxMemPool, ∀ hash ∈ narrowPolicy.evicted pool', pool'.contains hash = true := by
    intro pool' hash hmem
    obtain ⟨tx, htx, rfl⟩ := mem_map.1 hmem
    exact CTxMemPool.contains_iff.2 ⟨tx, mem_of_mem_drop htx, rfl⟩
  refine ⟨hrefused, (CTxMemPool.refusal_sameButEvicted_iff env narrowPolicy plainAccept restrictedTip freezePool (freezeGold ⟨2, 0⟩ 3)
    hpresent).2 (fun _ _ => ?_) (by rw [hrefused]; nofun)⟩
  rw [CTxMemPool.StoredSafely, if_pos (by decide +kernel)]
  exact eq_nil_of_length_eq_zero (by decide +kernel)

end Regtest

end Hivecoin

import Hivecoin.Base.Reservations
import Hivecoin.Mempool.Lemmas.Changes
import Hivecoin.Mempool.Lemmas.CheckedNames
import Hivecoin.Mempool.Run

/-!
# What the operations of the mempool leave alone
-/

namespace Hivecoin

open Outcome List Option CTransaction

variable {ch : Change} {v : List (Bytes × Uint256)}

namespace CTxMemPool

variable {E : Env} {pool pool' : CTxMemPool} {tx : CTransaction} {hash : Uint256}

/-- The names that are issued, with the name that each transaction is known by. -/
def issues (pool : CTxMemPool) : Reservations Bytes Uint256 := ⟨pool.mapAssetToHash, pool.mapHashToAsset⟩

def reissues (pool : CTxMemPool) : Reservations Bytes Uint256 := ⟨pool.mapReissuedAssets, pool.mapReissuedTx⟩

theorem contains_iff : pool.contains hash = true ↔ ∃ tx ∈ pool.txs, tx.hash = hash := by
  simp [contains, get, List.find?_isSome]

theorem releaseReissue_frame : (pool.releaseReissue hash).txs = pool.txs ∧ (pool.releaseReissue hash).issues = pool.issues ∧
    (∀ ch, (pool.releaseReissue hash).tracks ch = pool.tracks ch) ∧
    (pool.releaseReissue hash).reissues = pool.reissues.releaseReserved hash := by
  unfold releaseReissue Reservations.releaseReserved
  cases h : pool.mapReissuedTx.get? hash with
  | none => exact ⟨rfl, rfl, fun _ => rfl, by simp only [reissues, h]⟩
  | some name =>
    simp only [reissues, h]
    split <;> rename_i hc <;> exact ⟨rfl, rfl, fun ch => by cases ch <;> rfl, by simp only [hc]; rfl⟩

theorem releaseAsset_frame : (pool.releaseAsset hash).txs = pool.txs ∧ (pool.releaseAsset hash).reissues = pool.reissues ∧
    (∀ ch, (pool.releaseAsset hash).tracks ch = pool.tracks ch) ∧ (pool.releaseAsset hash).issues = pool.issues.release hash := by
  unfold releaseAsset Reservations.release
  cases h : pool.mapHashToAsset.get? hash <;>
  exact ⟨rfl, rfl, fun ch => by cases ch <;> rfl, by simp only [issues, h]⟩

theorem txs_removeUnchecked (hash : Uint256) : (pool.removeUnchecked hash).txs = pool.txs.filter fun tx => !(tx.hash == hash) := by
  change (releaseAsset _ hash).txs = _
  rw [releaseAsset_frame.1, releaseReissue_frame.1, txs, txs, List.filter_map]
  rfl

theorem issues_removeUnchecked (hash : Uint256) : (pool.removeUnchecked hash).issues = pool.issues.release hash := by
  change (releaseAsset _ hash).issues = _
  rw [releaseAsset_frame.2.2.2, releaseReissue_frame.2.1]
  rfl

theorem reissues_removeUnchecked (hash : Uint256) : (pool.removeUnchecked hash).reissues = pool.reissues.releaseReserved hash := by
  change (releaseAsset _ hash).reissues = _
  rw [releaseAsset_frame.2.1, releaseReissue_frame.2.2.2]
  rfl

theorem tracks_of_releaseRestricted (h : (pool.releaseRestricted hash).tracks ch = true) : pool.tracks ch = true := by
  cases ch <;> exact TwoWay.contains_of_vacateAll h

theorem tracks_of_removeUnchecked (h : (pool.removeUnchecked hash).tracks ch = true) : pool.tracks ch = true := by
  have h := tracks_of_releaseRestricted h
  rw [releaseAsset_frame.2.2.1, releaseReissue_frame.2.2.1] at h
  cases ch <;> exact h

/-! ## Removing several -/

theorem txs_removeStaged (stage : List Uint256) : (pool.removeStaged stage).txs = pool.txs.filter fun tx => !stage.contains tx.hash := by
  unfold removeStaged
  induction stage generalizing pool with
  | nil => simp
  | cons hash stage ih =>
    rw [List.foldl_cons, ih, txs_removeUnchecked, List.filter_filter]
    refine List.filter_congr fun tx _ => ?_
    rw [List.contains_cons, Bool.not_or, Bool.and_comm]

theorem mem_removeStaged {stage} : tx ∈ (pool.removeStaged stage).txs ↔ tx ∈ pool.txs ∧ tx.hash ∉ stage := by
  rw [txs_removeStaged, mem_filter, Bool.not_eq_true', contains_eq_mem, decide_eq_false_iff_not]

/-- The pool is what some removals leave. -/
def Removes (pool pool' : CTxMemPool) : Prop := ∃ stage, pool' = pool.removeStaged stage

theorem Removes.refl (pool : CTxMemPool) : Removes pool pool := ⟨[], rfl⟩

theorem Removes.trans {pool1 pool2 pool3} (h1 : Removes pool1 pool2) (h2 : Removes pool2 pool3) : Removes pool1 pool3 := by
  obtain ⟨stage1, rfl⟩ := h1
  obtain ⟨stage2, rfl⟩ := h2
  exact ⟨stage1 ++ stage2, (foldl_append ..).symm⟩

theorem Removes.foldl {α : Type} {f} (hf : ∀ pool a, Removes pool (f pool a)) (as : List α) (pool : CTxMemPool) :
    Removes pool (as.foldl f pool) := by
  induction as generalizing pool with
  | nil => exact .refl pool
  | cons a as ih => exact (hf pool a).trans (ih _)

theorem removes_removeRecursive (pool : CTxMemPool) (tx : CTransaction) : Removes pool (pool.removeRecursive tx) := ⟨_, rfl⟩

theorem removes_removeConflict (tx : CTransaction) (pool : CTxMemPool) (txin : CTxIn) : Removes pool (pool.removeConflict tx txin) := by
  unfold removeConflict
  split
  · split
    · exact removes_removeRecursive _ _
    · exact .refl _
  · exact .refl _

theorem removes_removeConflicts (pool : CTxMemPool) (tx : CTransaction) : Removes pool (pool.removeConflicts tx) :=
  Removes.foldl (removes_removeConflict tx) tx.vin pool

theorem removes_removeMined (pool : CTxMemPool) (tx : CTransaction) : Removes pool (pool.removeMined tx) := by
  unfold removeMined
  refine Removes.trans ?_ (removes_removeConflicts _ tx)
  split
  · exact ⟨_, rfl⟩
  · exact .refl _

theorem removes_removeForBlock {S view vtx data} (pool : CTxMemPool) :
    Removes pool (pool.removeForBlock E S view vtx data) :=
  (Removes.foldl removes_removeMined vtx pool).trans (Removes.foldl removes_removeMined _ _)

theorem Removes.mem (h : Removes pool pool') (htx : tx ∈ pool'.txs) : tx ∈ pool.txs := by
  obtain ⟨stage, rfl⟩ := h
  exact (mem_removeStaged.1 htx).1

theorem Removes.tracks (h : Removes pool pool') (htracks : pool'.tracks ch = true) : pool.tracks ch = true := by
  obtain ⟨stage, rfl⟩ := h
  induction stage generalizing pool with
  | nil => exact htracks
  | cons hash stage ih => exact tracks_of_removeUnchecked (ih htracks)

theorem not_mem_removeMined {tx'} (htx : tx' ∈ (pool.removeMined tx).txs) : tx'.hash ≠ tx.hash := by
  unfold removeMined at htx
  have hmem := (removes_removeConflicts _ tx).mem htx
  intro heq
  split at hmem
  · exact (mem_removeStaged.1 hmem).2 (mem_singleton.2 heq)
  · rename_i hnot
    exact hnot (contains_iff.2 ⟨tx', hmem, heq⟩)

theorem not_mem_removeForBlock {S view vtx data tx'} (htx' : tx' ∈ (pool.removeForBlock E S view vtx data).txs) : tx'.hash ∉ vtx.map CTransaction.hash := by
  have hmem : tx' ∈ (vtx.foldl removeMined pool).txs := (Removes.foldl removes_removeMined _ _).mem htx'
  clear htx'
  induction vtx generalizing pool with
  | nil => exact not_mem_nil
  | cons tx vtx ih =>
    rw [map_cons, mem_cons, not_or]
    exact ⟨not_mem_removeMined ((Removes.foldl removes_removeMined vtx _).mem hmem), ih hmem⟩

section

variable {O : AcceptOptions} {tip : TipState} {conflicts : List Uint256}

/-- A transaction is added that is not recorded yet. -/
structure Stores (tx : CTransaction) (pool pool' : CTxMemPool) : Prop where
  txs : pool'.txs = pool.txs ++ [tx]
  issues : pool'.issues = pool.issues
  reissues : pool'.reissues = pool.reissues
  tracks : ∀ ch, pool'.tracks ch = pool.tracks ch

theorem storeTx_stores : Stores tx (pool.removeStaged conflicts) (pool.storeTx E O tip conflicts tx) := by
  unfold storeTx
  simp only
  split <;> split <;> exact ⟨map_append, rfl, rfl, fun ch => by cases ch <;> rfl⟩

end

theorem removes_limitSize (pool : CTxMemPool) (P : MempoolPolicy) (O : AcceptOptions) : Removes pool (pool.limitSize P O) := by
  unfold limitSize
  split
  · exact .refl pool
  · exact ⟨_, rfl⟩

theorem record_frame (out : CTxOut) : (record E hash pool out).txs = pool.txs ∧ (record E hash pool out).reissues = pool.reissues := by
  unfold record recordAsset
  cases E.changeOf out with
  | some ch => cases ch <;> exact ⟨rfl, rfl⟩
  | none =>
    cases E.getAssetData out.scriptPubKey with
    | none => exact ⟨rfl, rfl⟩
    | some data =>
      simp only [elim_none, elim_some, recordAssetOutput]
      split <;> split <;> exact ⟨rfl, rfl⟩

theorem recordedName_of_change {out} (h : E.changeOf out = some ch) : E.recordedName out = none := by
  unfold Env.changeOf at h
  split at h
  · cases h
  · rename_i hasset
    rw [Env.recordedName, getAssetData_eq_none (by simpa using hasset)]
    rfl

theorem issues_record (out : CTxOut) :
    (record E hash pool out).issues = (E.recordedName out).elim pool.issues (pool.issues.reserve hash) := by
  cases hch : E.changeOf out with
  | some ch =>
    rw [record, hch, recordedName_of_change hch]
    cases ch <;> rfl
  | none =>
    unfold record recordAsset Env.recordedName
    rw [hch]
    cases E.getAssetData out.scriptPubKey with
    | none => rfl
    | some data =>
      simp only [elim_none, elim_some, recordAssetOutput, bind_some]
      split <;> split <;> rfl

theorem foldl_record (E : Env) (hash : Uint256) (outs : List CTxOut) (pool : CTxMemPool) : (outs.foldl (record E hash) pool).txs = pool.txs ∧
    (outs.foldl (record E hash) pool).reissues = pool.reissues ∧
    (outs.foldl (record E hash) pool).issues = (outs.filterMap E.recordedName).foldl (fun r name => r.reserve hash name) pool.issues := by
  induction outs generalizing pool with
  | nil => exact ⟨rfl, rfl, rfl⟩
  | cons out outs ih =>
    obtain ⟨htxs, hreissues, hissues⟩ := ih (record E hash pool out)
    rw [foldl_cons]
    refine ⟨htxs.trans (record_frame out).1, hreissues.trans (record_frame out).2, hissues.trans ?_⟩
    rw [issues_record]
    cases hname : E.recordedName out with
    | none => rw [filterMap_cons_none hname]; rfl
    | some name => rw [filterMap_cons_some hname]; rfl

theorem recordInput_frame (E : Env) (tip : TipState) (hash : Uint256) (pool : CTxMemPool) (txin : CTxIn) : (pool.recordInput E tip hash txin).txs = pool.txs ∧
    (pool.recordInput E tip hash txin).issues = pool.issues ∧ (pool.recordInput E tip hash txin).reissues = pool.reissues := by
  unfold recordInput
  split
  · exact ⟨rfl, rfl, rfl⟩
  · split <;> exact ⟨rfl, rfl, rfl⟩

theorem recordInputs_frame (tip : TipState) (tx : CTransaction) (pool : CTxMemPool) : (pool.recordInputs E tip tx).txs = pool.txs ∧
    (pool.recordInputs E tip tx).issues = pool.issues ∧ (pool.recordInputs E tip tx).reissues = pool.reissues := by
  unfold recordInputs
  split
  · generalize tx.vin = vin
    induction vin generalizing pool with
    | nil => exact ⟨rfl, rfl, rfl⟩
    | cons txin vin ih =>
      obtain ⟨htxs, hissues, hreissues⟩ := ih (pool.recordInput E tip tx.hash txin)
      obtain ⟨htxs', hissues', hreissues'⟩ := recordInput_frame E tip tx.hash pool txin
      exact ⟨htxs.trans htxs', hissues.trans hissues', hreissues.trans hreissues'⟩
  · exact ⟨rfl, rfl, rfl⟩

theorem foldl_recordReissue (hash : Uint256) (names : List Bytes) (pool : CTxMemPool) :
    ((names.map fun name => (name, hash)).foldl recordReissue pool).txs = pool.txs ∧
    ((names.map fun name => (name, hash)).foldl recordReissue pool).issues = pool.issues ∧
    (∀ ch, ((names.map fun name => (name, hash)).foldl recordReissue pool).tracks ch = pool.tracks ch) ∧
    ((names.map fun name => (name, hash)).foldl recordReissue pool).reissues =
      names.foldl (fun r name => r.reserveNew hash name) pool.reissues := by
  induction names generalizing pool with
  | nil => exact ⟨rfl, rfl, fun _ => rfl, rfl⟩
  | cons name names ih =>
    obtain ⟨htxs, hissues, htracks, hreissues⟩ := ih (pool.recordReissue (name, hash))
    refine ⟨htxs, hissues, fun ch => (htracks ch).trans ?_, hreissues⟩
    cases ch <;> rfl

/-- What is recorded of a stored transaction, up to a change tracked already. -/
structure Records (E : Env) (tx : CTransaction) (names : List Bytes) (pool pool' : CTxMemPool) : Prop where
  txs : pool'.txs = pool.txs
  reissues : pool'.reissues = names.foldl (fun r name => r.reserveNew tx.hash name) pool.reissues
  issues : ∃ done rest, tx.vout = done ++ rest ∧
    pool'.issues = (done.filterMap E.recordedName).foldl (fun r name => r.reserve tx.hash name) pool.issues ∧
    ((E.areAssetsDeployed = true ∧ ∀ ch ∈ E.changes tx, pool.tracks ch = false) → rest = [])

theorem recordTx_records {names} (hnodup : (E.changes tx).Nodup) :
    Records E tx names pool (pool.recordTx E tip (names.map fun name => (name, tx.hash)) tx).2 := by
  obtain ⟨htxs, hissues, htracks, hreissues⟩ := foldl_recordReissue tx.hash names pool
  unfold recordTx
  generalize (names.map fun name => (name, tx.hash)).foldl recordReissue pool = pool1 at *
  cases hdeployed : E.areAssetsDeployed with
  | false =>
    obtain ⟨htxs', hissues', hreissues'⟩ := recordInputs_frame (E := E) tip tx pool1
    simp only [test_iff]
    refine ⟨htxs'.trans htxs, hreissues'.trans hreissues, [], tx.vout, rfl, hissues'.trans hissues, fun h => ?_⟩
    rw [hdeployed] at h
    cases h.1
  | true =>
    simp only [if_true]
    obtain ⟨done, rest, hvout, hpool, hrest⟩ := recordOutputs_spec E tx.hash tx.vout pool1
    have hdone : (∀ ch ∈ E.changes tx, pool.tracks ch = false) → rest = [] := fun hfree =>
      hrest ((recordOutputs_ok_iff tx.hash pool1 hnodup).2 fun ch hch => (htracks ch).trans (hfree ch hch))
    generalize recordOutputs E tx.hash tx.vout pool1 = result at *
    obtain ⟨r, pool2⟩ := result
    obtain ⟨htxs', hreissues', hissues'⟩ := foldl_record E tx.hash done pool1
    rw [← (hpool : pool2 = _)] at htxs' hreissues' hissues'
    rw [hissues] at hissues'
    cases r with
    | error e => exact ⟨htxs'.trans htxs, hreissues'.trans hreissues, done, rest, hvout, hissues', fun h => hdone h.2⟩
    | ok u =>
      obtain ⟨htxs3, hissues3, hreissues3⟩ := recordInputs_frame (E := E) tip tx pool2
      exact ⟨htxs3.trans (htxs'.trans htxs), hreissues3.trans (hreissues'.trans hreissues), done, rest, hvout,
        hissues3.trans hissues', fun h => hdone h.2⟩

/-- The parts of successful checks that speak of the mempool and the assets. -/
structure AcceptChecked (E : Env) (tip : TipState) (pool : CTxMemPool) (tx : CTransaction) (v : List (Bytes × Uint256))
    (conflicts : List Uint256) : Prop where
  checked : E.checkTransaction { fCheckDuplicateInputs := true, fMempoolCheck := true } tx = .ok ()
  new : pool.contains tx.hash = false
  inputs : haveInputs (pool.coins tip.coins) tx = true
  assets : pool.checkAssets E tip (pool.coins tip.coins) tx = .ok v
  conflicts_eq : conflicts = pool.calculateDescendants ((pool.setConflicts tx).map CTransaction.hash)

theorem acceptChecks_ok {P} (h : pool.acceptChecks E P tip tx = .ok (v, conflicts)) : AcceptChecked E tip pool tx v conflicts := by
  simp only [acceptChecks, ok_iff, Bool.not_eq_true', Prod.mk.injEq] at h
  obtain ⟨hchecked, -, -, hnew, -, hinputs, -, fees, -, v', hassets, -, -, -, -, rfl, rfl⟩ := h
  exact ⟨hchecked, hnew, hinputs, hassets, rfl⟩

theorem calculateDescendants_spec {seeds} (hseeds : ∀ hash ∈ seeds, pool.contains hash = true) :
    (∀ hash ∈ seeds, hash ∈ pool.calculateDescendants seeds) ∧
      ∀ hash ∈ pool.calculateDescendants seeds, pool.contains hash = true := by
  have hU : ∀ a ∈ pool.txs.map hash, ∀ c ∈ pool.children a, c ∈ pool.txs.map hash := by
    intro a _ c hc
    obtain ⟨tx, htx, rfl⟩ := mem_map.1 hc
    exact mem_map.2 ⟨tx, (mem_filter.1 htx).1, rfl⟩
  have hin : ∀ a, pool.contains a = true ↔ a ∈ pool.txs.map hash := fun a => contains_iff.trans mem_map.symm
  have hstart : ∀ a ∈ seeds, a ∈ pool.txs.map hash := fun a ha => (hin a).1 (hseeds a ha)
  have hlength : (pool.txs.map hash).length ≤ pool.mapTx.length := by simp [txs]
  exact ⟨fun _ h => Worklist.mem_collectAll_of_seed hU hstart hlength h,
    fun hash h => (hin hash).2 (Worklist.mem_universe_of_collectAll hU hstart hlength h)⟩

theorem mem_of_setConflicts {tx'} (h : tx' ∈ pool.setConflicts tx) : tx' ∈ pool.txs := by
  obtain ⟨txin, -, hnext⟩ := mem_filterMap.1 h
  exact mem_of_find?_eq_some hnext

theorem contains_of_setConflicts : ∀ hash ∈ (pool.setConflicts tx).map CTransaction.hash, pool.contains hash = true := by
  intro hash hmem
  obtain ⟨tx', htx', rfl⟩ := mem_map.1 hmem
  exact contains_iff.2 ⟨tx', mem_of_setConflicts htx', rfl⟩

theorem AcceptChecked.not_conflict (h : AcceptChecked E tip pool tx v conflicts) : tx.hash ∉ conflicts := by
  intro hmem
  rw [h.conflicts_eq] at hmem
  have hcontains := (calculateDescendants_spec contains_of_setConflicts).2 _ hmem
  rw [h.new] at hcontains
  cases hcontains

/-- A call changes nothing, or stores a checked transaction, which may be evicted again. -/
theorem acceptToMemoryPoolWorker_cases (E : Env) (P : MempoolPolicy) (O : AcceptOptions) (tip : TipState) (pool : CTxMemPool) (tx : CTransaction) :
    (pool.acceptToMemoryPoolWorker E P O tip tx).2 = pool ∨
      ∃ v conflicts, AcceptChecked E tip pool tx v conflicts ∧
        ((((pool.storeTx E O tip conflicts tx).limitSize P O).contains tx.hash = false ∧
          (pool.acceptToMemoryPoolWorker E P O tip tx).2 = (pool.storeTx E O tip conflicts tx).limitSize P O) ∨
        (((pool.storeTx E O tip conflicts tx).limitSize P O).contains tx.hash = true ∧
          pool.acceptToMemoryPoolWorker E P O tip tx = ((pool.storeTx E O tip conflicts tx).limitSize P O).recordTx E tip v tx)) := by
  unfold acceptToMemoryPoolWorker
  cases hchecks : pool.acceptChecks E P tip tx with
  | error e => exact Or.inl rfl
  | ok r =>
    obtain ⟨v, conflicts⟩ := r
    simp only
    split
    · exact Or.inl rfl
    · refine Or.inr ⟨v, conflicts, acceptChecks_ok hchecks, ?_⟩
      split
      · exact Or.inr ⟨‹_›, rfl⟩
      · exact Or.inl ⟨Bool.eq_false_iff.2 ‹_›, rfl⟩

end CTxMemPool

end Hivecoin

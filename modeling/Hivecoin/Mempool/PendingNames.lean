import Hivecoin.Mempool.Lemmas.Frames

/-!
# Pending issuances and reissues

At most one transaction issues or reissues a name, while no issuance is half recorded.
-/

namespace Hivecoin

open Outcome List Option Reservations

namespace CTxMemPool

variable {E : Env} {P : MempoolPolicy} {O : AcceptOptions} {tip : TipState} {pool pool' : CTxMemPool} {tx : CTransaction} {X : List Uint256}

/-- The maps have the names of every transaction of the pool that is not in `X`. -/
structure Recorded (X : List Uint256) (pool : CTxMemPool) : Prop where
  distinct : (pool.txs.map CTransaction.hash).Nodup
  valid : ∀ tx ∈ pool.txs, ∀ name ∈ issuedNames tx, nameValid name = true
  issued : ∀ tx ∈ pool.txs, tx.hash ∉ X → ∀ name ∈ issuedNames tx, pool.issues.holder.get? name = some tx.hash
  issuesPaired : pool.issues.Paired fun name => nameValid name = true
  reissued : ∀ tx ∈ pool.txs, tx.hash ∉ X → ∀ name ∈ reissuedNames tx, pool.reissues.holder.get? name = some tx.hash
  reissuesPaired : pool.reissues.Paired fun _ => True

theorem recorded_of_no_txs (htxs : pool.txs = []) (hissues : pool.issues.Paired fun name => nameValid name = true)
    (hreissues : pool.reissues.Paired fun _ => True) : Recorded X pool := by
  refine ⟨by rw [htxs]; exact nodup_nil, ?_, ?_, hissues, ?_, hreissues⟩
  all_goals
    intro tx htx
    rw [htxs] at htx
    cases htx

theorem Recorded.mono {Y} (h : Recorded X pool) (hXY : ∀ tx ∈ pool.txs, tx.hash ∈ X → tx.hash ∈ Y) : Recorded Y pool :=
  ⟨h.distinct, h.valid, fun tx htx hY => h.issued tx htx fun hX => hY (hXY tx htx hX), h.issuesPaired,
    fun tx htx hY => h.reissued tx htx fun hX => hY (hXY tx htx hX), h.reissuesPaired⟩

theorem Recorded.removeUnchecked (h : Recorded X pool) (hash : Uint256) : Recorded X (pool.removeUnchecked hash) := by
  have hmem : ∀ tx ∈ (pool.removeUnchecked hash).txs, tx ∈ pool.txs ∧ tx.hash ≠ hash := by
    intro tx htx
    rw [txs_removeUnchecked] at htx
    simpa using mem_filter.1 htx
  have hreissues : (pool.removeUnchecked hash).reissues = pool.reissues.release hash := by
    rw [reissues_removeUnchecked, h.reissuesPaired.releaseReserved_eq]
  refine ⟨?_, fun tx htx => h.valid tx (hmem tx htx).1, fun tx htx hX name hname => ?_, ?_, fun tx htx hX name hname => ?_, ?_⟩
  · rw [txs_removeUnchecked]
    exact h.distinct.sublist (filter_sublist.map _)
  · obtain ⟨htx, hne⟩ := hmem tx htx
    rw [issues_removeUnchecked]
    exact h.issuesPaired.holder_release (h.valid tx htx name hname) hne (h.issued tx htx hX name hname)
  · rw [issues_removeUnchecked]
    exact h.issuesPaired.release hash
  · obtain ⟨htx, hne⟩ := hmem tx htx
    rw [hreissues]
    exact h.reissuesPaired.holder_release trivial hne (h.reissued tx htx hX name hname)
  · rw [hreissues]
    exact h.reissuesPaired.release hash

theorem Recorded.removes (h : Recorded X pool) (hremoves : Removes pool pool') : Recorded X pool' := by
  obtain ⟨stage, rfl⟩ := hremoves
  induction stage generalizing pool with
  | nil => exact h
  | cons hash stage ih => exact ih (h.removeUnchecked hash)

theorem Removes.holders (h : Removes pool pool') (hpaired : pool.reissues.Paired fun _ => True) {name hash} :
    (pool'.issues.holder.get? name = some hash → pool.issues.holder.get? name = some hash) ∧
      (pool'.reissues.holder.get? name = some hash → pool.reissues.holder.get? name = some hash) := by
  obtain ⟨stage, rfl⟩ := h
  induction stage generalizing pool with
  | nil => exact ⟨id, id⟩
  | cons hash' stage ih =>
    have hreissues : (pool.removeUnchecked hash').reissues = pool.reissues.release hash' := by
      rw [reissues_removeUnchecked, hpaired.releaseReserved_eq]
    obtain ⟨hissued, hreissued⟩ := @ih (pool.removeUnchecked hash') (hreissues ▸ hpaired.release hash')
    refine ⟨fun hget => ?_, fun hget => ?_⟩
    · have hget := hissued hget
      rw [issues_removeUnchecked] at hget
      exact holder_of_release hget
    · have hget := hreissued hget
      rw [hreissues] at hget
      exact holder_of_release hget

theorem Recorded.storeTx (h : Recorded [] pool) {conflicts} (hnew : pool.contains tx.hash = false)
    (hvalid : ∀ name ∈ issuedNames tx, nameValid name = true) : Recorded [tx.hash] (pool.storeTx E O tip conflicts tx) := by
  have hstaged := h.removes ⟨conflicts, rfl⟩
  have hfresh : ∀ tx' ∈ (pool.removeStaged conflicts).txs, tx'.hash ≠ tx.hash := by
    intro tx' htx' heq
    rw [contains_iff.2 ⟨tx', (mem_removeStaged.1 htx').1, heq⟩] at hnew
    cases hnew
  have hold : ∀ tx' ∈ (pool.removeStaged conflicts).txs ++ [tx], tx'.hash ∉ [tx.hash] → tx' ∈ (pool.removeStaged conflicts).txs := by
    intro tx' htx' hX
    refine (mem_append.1 htx').resolve_right fun hmem => hX ?_
    rw [mem_singleton.1 hmem]
    exact mem_singleton_self _
  refine ⟨?_, ?_, ?_, ?_, ?_, ?_⟩
  · rw [storeTx_stores.txs, map_append]
    refine nodup_append.2 ⟨hstaged.distinct, nodup_singleton _, fun a ha b hb hab => ?_⟩
    obtain ⟨tx', htx', rfl⟩ := mem_map.1 ha
    exact hfresh tx' htx' (hab.trans (mem_singleton.1 hb))
  · rw [storeTx_stores.txs]
    intro tx' htx'
    rcases mem_append.1 htx' with htx' | htx'
    · exact hstaged.valid tx' htx'
    · rw [mem_singleton.1 htx']
      exact hvalid
  · rw [storeTx_stores.txs, storeTx_stores.issues]
    exact fun tx' htx' hX => hstaged.issued tx' (hold tx' htx' hX) not_mem_nil
  · rw [storeTx_stores.issues]
    exact hstaged.issuesPaired
  · rw [storeTx_stores.txs, storeTx_stores.reissues]
    exact fun tx' htx' hX => hstaged.reissued tx' (hold tx' htx' hX) not_mem_nil
  · rw [storeTx_stores.reissues]
    exact hstaged.reissuesPaired

/-- What is known about the names of a transaction before they are recorded. -/
structure Ready (E : Env) (tx : CTransaction) (names : List Bytes) (pool : CTxMemPool) : Prop where
  notOwner : ∀ name ∈ issuedNames tx, isAssetNameAnOwner name = false
  free : ∀ name ∈ issuedNames tx, pool.issues.holder.get? name = none
  recorded : ∀ out ∈ tx.vout, ∀ name, E.recordedName out = some name → nameValid name = true → name ∈ issuedNames tx
  completes : issuedNames tx ≠ [] → E.areAssetsDeployed = true ∧ ∀ ch ∈ E.changes tx, pool.tracks ch = false
  own : ∀ name ∈ names, ∀ hash, pool.reissues.holder.get? name = some hash → hash = tx.hash
  known : ∀ name ∈ reissuedNames tx, name ∈ names ∨ pool.reissues.holder.get? name = some tx.hash

theorem Recorded.recordTx {names} (h : Recorded [tx.hash] pool) (htx : tx ∈ pool.txs) (hready : Ready E tx names pool)
    (hrecords : Records E tx names pool pool') : Recorded [] pool' := by
  obtain ⟨done, rest, hvout, hissues, hrest⟩ := hrecords.issues
  have hdone : ∀ name ∈ done.filterMap E.recordedName, nameValid name = true → name ∈ issuedNames tx := by
    intro name hname hvalid
    obtain ⟨out, hout, hname⟩ := mem_filterMap.1 hname
    exact hready.recorded out (hvout ▸ mem_append_left _ hout) name hname hvalid
  have hother : ∀ tx' ∈ pool.txs, tx' ≠ tx → tx'.hash ∉ [tx.hash] := by
    intro tx' htx' hne heq
    exact hne (inj_on_of_nodup_map h.distinct htx' htx (mem_singleton.1 heq))
  refine ⟨hrecords.txs ▸ h.distinct, hrecords.txs ▸ h.valid, ?_, ?_, ?_, ?_⟩
  · rw [hrecords.txs, hissues]
    intro tx' htx' _ name hname
    rw [holder_foldl_reserve]
    by_cases heq : tx' = tx
    · subst heq
      have hall : rest = [] := hrest (hready.completes (ne_nil_of_mem hname))
      obtain ⟨out, hout, hissued⟩ := mem_filterMap.1 hname
      rw [hvout, hall, append_nil] at hout
      rw [if_pos (mem_filterMap.2 ⟨out, hout, recordedName_of_issued hissued (hready.notOwner name hname)⟩)]
    · have hheld := h.issued tx' htx' (hother tx' htx' heq) name hname
      rw [if_neg fun hmem => ?_]
      · exact hheld
      · rw [hready.free name (hdone name hmem (h.valid tx' htx' name hname))] at hheld
        cases hheld
  · rw [hissues]
    refine h.issuesPaired.foldl_reserve fun name hname hvalid hash hget => ?_
    rw [hready.free name (hdone name hname hvalid)] at hget
    cases hget
  · rw [hrecords.txs, hrecords.reissues]
    intro tx' htx' _ name hname
    by_cases heq : tx' = tx
    · subst heq
      rcases hready.known name hname with hmem | hheld
      · exact holder_foldl_reserveNew_self hready.own hmem
      · exact holder_foldl_reserveNew hheld
    · exact holder_foldl_reserveNew (h.reissued tx' htx' (hother tx' htx' heq) name hname)
  · rw [hrecords.reissues]
    exact h.reissuesPaired.foldl_reserveNew hready.own

theorem reissues_removeStaged {stage} (hpaired : pool.reissues.Paired fun _ => True) {hash} (hnot : hash ∉ stage)
    {name} (hget : pool.reissues.holder.get? name = some hash) : (pool.removeStaged stage).reissues.holder.get? name = some hash := by
  induction stage generalizing pool with
  | nil => exact hget
  | cons hash' stage ih =>
    rw [mem_cons, not_or] at hnot
    have hreissues : (pool.removeUnchecked hash').reissues = pool.reissues.release hash' := by
      rw [reissues_removeUnchecked, hpaired.releaseReserved_eq]
    exact @ih (pool.removeUnchecked hash') (hreissues ▸ hpaired.release hash') hnot.2 (hreissues ▸ hpaired.holder_release trivial hnot.1 hget)

theorem checkAssets_cases {view v} (h : pool.checkAssets E tip view tx = .ok v) :
    (E.areAssetsDeployed = true ∧ checkTxAssets E tip.store tip.store.passets view pool.maps true false tx = .ok v) ∨
      (v = [] ∧ ∀ out ∈ tx.vout, Script.isAssetScript out.scriptPubKey = none) := by
  unfold checkAssets at h
  split at h
  · exact Or.inl ⟨‹_›, h⟩
  · simp only [ok_iff, List.all_eq_true, Option.isNone_iff_eq_none] at h
    exact Or.inr ⟨h.2.symm, h.1⟩

/-- What the checks say about the names, and those recorded as reissued. -/
structure NamesChecked (E : Env) (pool : CTxMemPool) (tx : CTransaction) (names : List Bytes) : Prop where
  issued : ∀ name ∈ issuedNames tx, E.areAssetsDeployed = true ∧ IssueChecked E pool.maps tx name
  recorded : ∀ out ∈ tx.vout, ∀ name, E.recordedName out = some name → nameValid name = true → name ∈ issuedNames tx
  own : ∀ name ∈ reissuedNames tx, ∀ hash, pool.reissues.holder.get? name = some hash → hash = tx.hash
  known : ∀ name ∈ reissuedNames tx, name ∈ names ∨ pool.reissues.holder.get? name = some tx.hash
  reissued : ∀ name ∈ names, name ∈ reissuedNames tx

theorem AcceptChecked.names {v conflicts} (h : AcceptChecked E tip pool tx v conflicts) :
    ∃ names, v = (names.map fun name => (name, tx.hash)) ∧ NamesChecked E pool tx names := by
  obtain ⟨action, hkind⟩ := checkTransaction_kind h.checked
  rcases checkAssets_cases h.assets with ⟨hdeployed, hassets⟩ | ⟨rfl, hnone⟩
  · have hreissues := checkTxAssets_reissues hassets
    refine ⟨_, hreissues.reported, fun name hname => ⟨hdeployed, issued_checked hkind (checkTxAssets_ok hassets).2.1 hname⟩,
      fun out hout name hrecorded => issued_of_recorded hkind hout hrecorded, hreissues.own, fun name hname => ?_, fun name hname => ?_⟩
    · refine (hreissues.known hname).imp_left fun hmem => ?_
      rw [hreissues.reported] at hmem
      obtain ⟨name', hname', heq⟩ := mem_map.1 hmem
      cases heq
      exact hname'
    · obtain ⟨out, hout, hnew⟩ := mem_filterMap.1 hname
      obtain ⟨name', hname', hnew⟩ := bind_eq_some_iff.1 hnew
      split at hnew
      · cases hnew
        exact mem_filterMap.2 ⟨out, hout, hname'⟩
      · cases hnew
  · have hissued : issuedNames tx = [] := filterMap_eq_nil_iff.2 fun out hout => issuedName_of_no_script (hnone out hout)
    have hreissued : reissuedNames tx = [] := filterMap_eq_nil_iff.2 fun out hout => reissuedName_of_no_script (hnone out hout)
    have hempty : ∀ {P : Bytes → Prop}, ∀ name ∈ ([] : List Bytes), P name := fun name hname => absurd hname not_mem_nil
    refine ⟨[], rfl, ?_, fun out hout name hrecorded => ?_, ?_, ?_, hempty⟩
    · rw [hissued]
      exact hempty
    · rw [Env.recordedName, getAssetData_eq_none (hnone out hout)] at hrecorded
      cases hrecorded
    · rw [hreissued]
      exact hempty
    · rw [hreissued]
      exact hempty

/-- Unique names are new to the mempool, and issuances come without a tracked change. -/
def Undisputed (pool : CTxMemPool) : PoolEvent → Prop
  | .accept E _ _ _ tx =>
    (E.isNewUniqueAsset tx = true → ∀ name ∈ issuedNames tx, pool.mapAssetToHash.contains name = false) ∧
      (issuedNames tx ≠ [] → ∀ ch ∈ E.changes tx, pool.tracks ch = false)
  | _ => True

theorem NamesChecked.ready {names conflicts} (h : NamesChecked E pool tx names) (hrecorded : Recorded [] pool)
    (hregular : Undisputed pool (.accept E P O tip tx)) (hnot : tx.hash ∉ conflicts)
    (htx : tx ∈ ((pool.storeTx E O tip conflicts tx).limitSize P O).txs) :
    Ready E tx names ((pool.storeTx E O tip conflicts tx).limitSize P O) := by
  have hpaired := hrecorded.reissuesPaired
  have hstaged : Removes pool (pool.removeStaged conflicts) := ⟨conflicts, rfl⟩
  have hpaired' := (hrecorded.removes hstaged).reissuesPaired
  have hlimit := removes_limitSize (pool.storeTx E O tip conflicts tx) P O
  have hissues : ∀ {name hash}, ((pool.storeTx E O tip conflicts tx).limitSize P O).issues.holder.get? name = some hash →
      pool.issues.holder.get? name = some hash := by
    intro name hash hget
    have hget := (hlimit.holders (storeTx_stores.reissues ▸ hpaired')).1 hget
    rw [storeTx_stores.issues] at hget
    exact (hstaged.holders hpaired).1 hget
  refine ⟨fun name hname => (h.issued name hname).2.notOwner, fun name hname => ?_, h.recorded, fun hne => ?_, fun name hname hash hget => ?_,
    fun name hname => (h.known name hname).imp_right fun hget => ?_⟩
  · have hfree : pool.mapAssetToHash.get? name = none := by
      cases hu : E.isNewUniqueAsset tx with
      | false => exact (h.issued name hname).2.free hu
      | true => exact Table.contains_eq_false.1 (hregular.1 hu name hname)
    rw [eq_none_iff_forall_ne_some]
    intro hash hget
    rw [show pool.mapAssetToHash.get? name = some hash from hissues hget] at hfree
    cases hfree
  · obtain ⟨name, hname⟩ := exists_mem_of_ne_nil _ hne
    refine ⟨(h.issued name hname).1, fun ch hch => Bool.eq_false_iff.2 fun htracks => ?_⟩
    have htracks := hlimit.tracks htracks
    rw [storeTx_stores.tracks] at htracks
    have htracks := hstaged.tracks htracks
    rw [hregular.2 hne ch hch] at htracks
    cases htracks
  · have hget := (hlimit.holders (storeTx_stores.reissues ▸ hpaired')).2 hget
    rw [storeTx_stores.reissues] at hget
    exact h.own name (h.reissued name hname) hash ((hstaged.holders hpaired).2 hget)
  · have hget : (pool.storeTx E O tip conflicts tx).reissues.holder.get? name = some tx.hash := by
      rw [storeTx_stores.reissues]
      exact reissues_removeStaged hpaired hnot hget
    obtain ⟨stage, hstage⟩ := hlimit
    rw [hstage] at htx ⊢
    exact reissues_removeStaged (storeTx_stores.reissues ▸ hpaired') (mem_removeStaged.1 htx).2 hget

theorem Recorded.accept (h : Recorded [] pool) (hregular : Undisputed pool (.accept E P O tip tx)) :
    Recorded [] (pool.acceptToMemoryPoolWorker E P O tip tx).2 := by
  rcases acceptToMemoryPoolWorker_cases E P O tip pool tx with heq | ⟨v, conflicts, hchecked, hcases⟩
  · rw [heq]
    exact h
  obtain ⟨names, rfl, hnames⟩ := hchecked.names
  have hstored : Recorded [tx.hash] (pool.storeTx E O tip conflicts tx) :=
    h.storeTx hchecked.new fun name hname => (hnames.issued name hname).2.valid
  have hlimit := removes_limitSize (pool.storeTx E O tip conflicts tx) P O
  rcases hcases with ⟨hgone, heq⟩ | ⟨hthere, heq⟩
  · rw [heq]
    refine (hstored.removes hlimit).mono fun tx' htx' hmem => ?_
    rw [contains_iff.2 ⟨tx', htx', mem_singleton.1 hmem⟩] at hgone
    cases hgone
  · obtain ⟨tx', htx', hhash⟩ := contains_iff.1 hthere
    have hsame : tx' = tx := by
      refine inj_on_of_nodup_map hstored.distinct (hlimit.mem htx') ?_ hhash
      rw [storeTx_stores.txs]
      exact mem_append_right _ (mem_singleton_self _)
    subst hsame
    rw [heq]
    exact (hstored.removes hlimit).recordTx htx' (hnames.ready h hregular hchecked.not_conflict htx')
      (recordTx_records (checkTransaction_changes hchecked.checked))

/-! ## Blocks and starts -/

theorem releaseMinedReissue_frame (pool : CTxMemPool) (tx : CTransaction) : (pool.releaseMinedReissue tx).txs = pool.txs ∧
    (pool.releaseMinedReissue tx).issues = pool.issues ∧ (pool.releaseMinedReissue tx).reissues = pool.reissues.release tx.hash := by
  unfold releaseMinedReissue release
  cases h : pool.mapReissuedTx.get? tx.hash with
  | none => simp only [reissues, h, and_self]
  | some name => exact ⟨rfl, rfl, by simp only [reissues, h]⟩

theorem Recorded.releaseMined (h : Recorded X pool) (vtx : List CTransaction) (hX : ∀ tx ∈ vtx, tx.hash ∈ X) :
    Recorded X (vtx.foldl releaseMinedReissue pool) := by
  induction vtx generalizing pool with
  | nil => exact h
  | cons tx vtx ih =>
    obtain ⟨htxs, hissues, hreissues⟩ := releaseMinedReissue_frame pool tx
    refine ih ⟨htxs ▸ h.distinct, htxs ▸ h.valid, hissues ▸ htxs ▸ h.issued, hissues ▸ h.issuesPaired, ?_, hreissues ▸ h.reissuesPaired.release _⟩
      fun tx' htx' => hX tx' (mem_cons_of_mem _ htx')
    rw [htxs, hreissues]
    intro tx' htx' hnot name hname
    refine h.reissuesPaired.holder_release trivial (fun heq => ?_) (h.reissued tx' htx' hnot name hname)
    exact hnot (heq ▸ hX tx mem_cons_self)

theorem Recorded.connectBlock (h : Recorded [] pool) (S : Store) (view : CoinsView) (vtx : List CTransaction) (data : ConnectedBlockAssetData) :
    Recorded [] (pool.connectBlock E S view vtx data) := by
  have hX : Recorded (vtx.map CTransaction.hash) pool := h.mono fun _ _ hmem => absurd hmem not_mem_nil
  have hreleased := hX.releaseMined vtx fun tx htx => mem_map.2 ⟨tx, htx, rfl⟩
  refine (hreleased.removes (removes_removeForBlock _)).mono fun tx' htx' hmem => ?_
  exact absurd hmem (not_mem_removeForBlock htx')

theorem restart_paired (saved : Table Bytes Uint256) : (restart saved).reissues.Paired fun _ => True := by
  have hpaired : ∀ (entries : List (Bytes × Uint256)) (t : Table Uint256 Bytes), (∀ entry ∈ entries, saved.get? entry.1 = some entry.2) →
      (∀ hash name, t.get? hash = some name → saved.get? name = some hash) →
      ∀ hash name, (entries.foldl (fun t entry => t.insertNew entry.2 entry.1) t).get? hash = some name → saved.get? name = some hash := by
    intro entries
    induction entries with
    | nil => exact fun t _ ht => ht
    | cons entry entries ih =>
      intro t hentries ht
      refine ih _ (fun e he => hentries e (mem_cons_of_mem _ he)) fun hash name hget => ?_
      rw [Table.get?_insertNew] at hget
      split at hget
      · rename_i heq
        subst heq
        cases hold : t.get? entry.2 with
        | none =>
          rw [hold, getD_none, some.injEq] at hget
          exact hget ▸ hentries entry mem_cons_self
        | some name' =>
          rw [hold, getD_some, some.injEq] at hget
          exact hget ▸ ht _ _ hold
      · exact ht hash name hget
  intro hash name hget _
  exact hpaired saved.toList ∅ (fun entry hentry => Table.mem_toList.1 hentry) (by simp) hash name hget

theorem empty_paired (V : Bytes → Prop) : Reservations.Paired V (⟨∅, ∅⟩ : Reservations Bytes Uint256) := by
  intro hash name hget
  simp at hget

theorem Recorded.apply (h : Recorded [] pool) {e} (hregular : Undisputed pool e) : Recorded [] (e.apply pool) := by
  cases e with
  | accept E P O tip tx => exact h.accept hregular
  | removeStaged stage => exact h.removes ⟨stage, rfl⟩
  | removeRecursive tx => exact h.removes (removes_removeRecursive pool tx)
  | removeConflicts tx => exact h.removes (removes_removeConflicts pool tx)
  | removeForBlock E S view vtx data => exact h.removes (removes_removeForBlock pool)
  | connectBlock E S view vtx data => exact h.connectBlock S view vtx data
  | clear => exact recorded_of_no_txs rfl (empty_paired _) h.reissuesPaired
  | restart saved => exact recorded_of_no_txs rfl (empty_paired _) (restart_paired saved)

theorem recorded_of_run (h : PoolRun Undisputed pool) : Recorded [] pool := by
  induction h with
  | empty => exact recorded_of_no_txs rfl (empty_paired _) (empty_paired _)
  | step _ hregular ih => exact ih.apply hregular

/-- No two transactions of the mempool issue one name or reissue one name. -/
theorem pending_names_distinct (h : PoolRun Undisputed pool) {tx₁ tx₂ : CTransaction} (h₁ : tx₁ ∈ pool.txs) (h₂ : tx₂ ∈ pool.txs)
    (hne : tx₁ ≠ tx₂) (name : Bytes) :
    ¬ (name ∈ issuedNames tx₁ ∧ name ∈ issuedNames tx₂) ∧ ¬ (name ∈ reissuedNames tx₁ ∧ name ∈ reissuedNames tx₂) := by
  have hrecorded := recorded_of_run h
  have hhash : tx₁.hash ≠ tx₂.hash := fun heq => hne (inj_on_of_nodup_map hrecorded.distinct h₁ h₂ heq)
  refine ⟨fun ⟨hn₁, hn₂⟩ => ?_, fun ⟨hn₁, hn₂⟩ => ?_⟩
  · have hholder := hrecorded.issued tx₁ h₁ not_mem_nil name hn₁
    rw [hrecorded.issued tx₂ h₂ not_mem_nil name hn₂, some.injEq] at hholder
    exact hhash hholder.symm
  · have hholder := hrecorded.reissued tx₁ h₁ not_mem_nil name hn₁
    rw [hrecorded.reissued tx₂ h₂ not_mem_nil name hn₂, some.injEq] at hholder
    exact hhash hholder.symm

end CTxMemPool

namespace Regtest

/-- Issues a unique asset of `GOLD` and keeps the owner token. -/
def issueUnique (name : Bytes) (funds token : COutPoint) (change : CAmount) (txid : Uint256) : CTransaction :=
  ⟨[⟨funds, []⟩, ⟨token, []⟩], [burnOut .UNIQUE, ⟨change, scriptForKeyID alice⟩, ownerGoldOut,
    ⟨0, newAssetScript alice ⟨name, 100000000, 0, 0, 0, []⟩⟩], txid⟩

def firstUnique : CTransaction := issueUnique (ascii "GOLD#1") ⟨1, 0⟩ ⟨1, 1⟩ 50000000000 7

/-- Spends what the first one has left and issues a name once more or a new one. -/
def secondUnique (name : Bytes) : CTransaction := issueUnique name ⟨7, 1⟩ ⟨7, 2⟩ 40000000000 8

def acceptOnGold (tx : CTransaction) : PoolEvent := .accept env lenientPolicy plainAccept goldTip tx

def uniquePool (name : Bytes) : CTxMemPool := (acceptOnGold (secondUnique name)).apply ((acceptOnGold firstUnique).apply ∅)

theorem unique_name_pending_twice :
    PoolRun (fun _ _ => True) (uniquePool (ascii "GOLD#1")) ∧
      firstUnique ∈ (uniquePool (ascii "GOLD#1")).txs ∧ secondUnique (ascii "GOLD#1") ∈ (uniquePool (ascii "GOLD#1")).txs ∧
      firstUnique ≠ secondUnique (ascii "GOLD#1") ∧
      ascii "GOLD#1" ∈ issuedNames firstUnique ∧ ascii "GOLD#1" ∈ issuedNames (secondUnique (ascii "GOLD#1")) :=
  ⟨.step (.step .empty trivial) trivial, by decide +kernel, by decide +kernel, by decide +kernel, by decide +kernel, by decide +kernel⟩

theorem unique_names_pending :
    ¬ (ascii "GOLD#1" ∈ issuedNames firstUnique ∧ ascii "GOLD#1" ∈ issuedNames (secondUnique (ascii "GOLD#2"))) ∧
      ¬ (ascii "GOLD#1" ∈ reissuedNames firstUnique ∧ ascii "GOLD#1" ∈ reissuedNames (secondUnique (ascii "GOLD#2"))) := by
  have hfirst : CTxMemPool.Undisputed ∅ (acceptOnGold firstUnique) := by
    refine ⟨fun _ => ?_, fun _ => ?_⟩ <;> decide +kernel
  have hsecond : CTxMemPool.Undisputed ((acceptOnGold firstUnique).apply ∅) (acceptOnGold (secondUnique (ascii "GOLD#2"))) := by
    refine ⟨fun _ => ?_, fun _ => ?_⟩ <;> decide +kernel
  exact CTxMemPool.pending_names_distinct (.step (.step .empty hfirst) hsecond) (by decide +kernel) (by decide +kernel) (by decide +kernel) _

end Regtest

end Hivecoin

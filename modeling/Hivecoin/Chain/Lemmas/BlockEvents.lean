import Hivecoin.Chain.Lemmas.AssetEvents

/-!
# Whole blocks act on a name by its events
-/

namespace Hivecoin

open Outcome CAssetsCache List Option AssetEvent

variable {E : Env} {S : Store} {R : Rules} {mempool : MempoolMaps} {tx : CTransaction}
variable {action : Env.RestrictedAction} {block : CBlock} {st st' : ConnectState} {undo : CBlockUndo}

theorem filter_name_cases {es : List AssetEvent} (h : (es.map name).Nodup) (name : Bytes) :
    (es.filter fun e => e.name == name) = [] ∨
      ∃ e ∈ es, e.name = name ∧ (es.filter fun e => e.name == name) = [e] := by
  induction es with
  | nil => exact Or.inl rfl
  | cons e es ih =>
    obtain ⟨hnot, hnodup⟩ := nodup_cons.mp h
    by_cases hn : e.name = name
    · have hnil : (es.filter fun e => e.name == name) = [] := by
        refine filter_eq_nil_iff.mpr fun e' he' => ?_
        simpa using fun he => hnot (mem_map.mpr ⟨e', he', he.trans hn.symm⟩)
      exact Or.inr ⟨e, mem_cons_self, hn, by simp [hn, hnil]⟩
    · rw [filter_cons, if_neg (by simpa using hn)]
      rcases ih hnodup with h | ⟨e', he', hn', h⟩
      · exact Or.inl h
      · exact Or.inr ⟨e', mem_cons_of_mem _ he', hn', h⟩

theorem map_name_whereKnown (known : Bytes → Bool) (es : List AssetEvent) :
    (es.map (whereKnown known)).map name = es.map name := by
  rw [List.map_map]
  exact List.map_congr_left fun e _ => by cases e <;> rfl

theorem assetEvents_nodup (h : E.checkKind tx = .ok action) (S : Store) :
    ((assetEvents E S tx).map name).Nodup := by
  unfold assetEvents
  split
  · rw [map_name_whereKnown]; exact kindEvents_nodup h
  · exact nodup_nil

theorem assetEvents_checked (hcb : tx.isCoinBase = false) (hdep : E.areAssetsDeployed = true) :
    assetEvents E S tx = kindEvents E tx := by
  have hid : ∀ e : AssetEvent, e.whereKnown (fun name => !tx.isCoinBase ||
      (getAssetMetaDataIfExists E S ∅ name).isSome) = e := by
    intro e; cases e <;> simp [whereKnown, hcb]
  rw [assetEvents, if_pos hdep]
  exact (map_congr_left fun e _ => hid e).trans (map_id _)

theorem findUndo_append (items items' : List (Bytes × CBlockAssetUndo)) (name : Bytes) :
    findUndo (items ++ items') name = (findUndo items name).or (findUndo items' name) := by
  rw [findUndo, List.find?_append, map_or]
  rfl

theorem connectTx_named (hS : S.Named) (hc : st.assets.Named) (h : connectTx E S R mempool block st tx = .ok st') : st'.assets.Named := by
  obtain ⟨spends, -, hassets, -⟩ := connectTx_assets h
  rw [hassets]
  exact (hc.tryOps hS _).tryOps hS _

theorem connectTx_eventsPass (h : connectTx E S R mempool block st tx = .ok st') (hcb : tx.isCoinBase = false)
    (hdep : E.areAssetsDeployed = true) : EventsPass E S st.assets tx := by
  obtain ⟨nFees, -, hchecks, -⟩ := connectTx_ok h
  have hchecks := hchecks hcb
  simp only [connectChecks, hdep, if_true, ok_iff] at hchecks
  obtain ⟨-, -, -, v, hassets, -⟩ := hchecks
  exact eventsPass_of_checks (checkTxAssets_ok hassets).2.1

/-- A transaction connected, if `assetEvents` asks for the data of the cache. -/
theorem connectTx_events (hS : S.Named) (hc : st.assets.Named) (h : connectTx E S R mempool block st tx = .ok st')
    (hkind : E.checkKind tx = .ok action)
    (hknown : E.areAssetsDeployed = true → ∀ e ∈ kindEvents E tx, e.isIssue = false → (!tx.isCoinBase || (getAssetMetaDataIfExists E S ∅ e.name).isSome) = ((S.view E e.name).metaData (st.assets.view e.name)).isSome)
    (name : Bytes) :
    ((assetEvents E S tx).filter fun e => e.name == name).foldl (S.view E name).connect
        (st.assets.view name, findUndo st.undo.vUndoAssetData name) =
      (st'.assets.view name, findUndo st'.undo.vUndoAssetData name) := by
  obtain ⟨spends, hspends, hassets, hundo⟩ := connectTx_assets h
  have hview : ∀ n, (tryOps E S st.assets spends).view n = st.assets.view n :=
    view_tryOps fun op hop => CacheOp.not_isAssetOp_of_isCoinOp (hspends op hop)
  have hconn := connect_tx (c := tryOps E S st.assets spends) hS (hc.tryOps hS _) hkind
    (fun hd e he hi => by
      rw [hknown hd e he hi, ← hview, ← getAssetMetaDataIfExists_eq, isSome_map]) block.nHeight block.hash name
    (findUndo st.undo.vUndoAssetData name)
  rw [hview] at hconn
  rw [hconn, hassets, addAssets_fst, hundo, findUndo_append]

theorem connectTx_checked (hS : S.Named) (hc : st.assets.Named) (h : connectTx E S R mempool block st tx = .ok st')
    (hkind : E.checkKind tx = .ok action) (hcb : tx.isCoinBase = false) (name : Bytes) :
    ((assetEvents E S tx).filter fun e => e.name == name).foldlM (S.view E name).connectChecked
        (st.assets.view name, findUndo st.undo.vUndoAssetData name) =
      some (st'.assets.view name, findUndo st'.undo.vUndoAssetData name) := by
  have hpass := connectTx_eventsPass h hcb
  have hmeta : ∀ n, ((S.view E n).metaData (st.assets.view n)).isSome =
      (getAssetMetaDataIfExists E S st.assets n).isSome := fun n => by
    rw [← getAssetMetaDataIfExists_eq, isSome_map]
  rw [← connectTx_events hS hc h hkind (fun hd e he hi => by
    rw [hcb, Bool.not_false, Bool.true_or, hmeta, (hpass hd).there e he hi]) name]
  rcases filter_name_cases (assetEvents_nodup hkind S) name with hnil | ⟨e, he, hn, hone⟩
  · rw [hnil]; rfl
  · have hdep : E.areAssetsDeployed = true := by
      by_contra hd
      simp [assetEvents, hd] at he
    rw [assetEvents_checked hcb hdep] at he
    have hpasses : (S.view E name).passes (st.assets.view name) e = true := by
      subst hn
      cases e with
      | issue asset v u =>
        have hfree := (hpass hdep).free _ he rfl
        rw [checkIfAssetExists_eq] at hfree
        simp [StoreView.passes, hfree]
      | reissue r v => rw [StoreView.passes, hmeta]; exact (hpass hdep).there _ he rfl
    simp [hone, StoreView.connectChecked, hpasses]

theorem connectTxs_checked {vtx} (hS : S.Named) (hc : st.assets.Named)
    (h : vtx.foldlM (connectTx E S R mempool block) st = .ok st') (hcb : ∀ tx ∈ vtx, tx.isCoinBase = false)
    (hkind : ∀ tx ∈ vtx, ∃ action, E.checkKind tx = .ok action) (name : Bytes) :
    (eventsOf E S vtx name).foldlM (S.view E name).connectChecked
        (st.assets.view name, findUndo st.undo.vUndoAssetData name) =
      some (st'.assets.view name, findUndo st'.undo.vUndoAssetData name) := by
  induction vtx generalizing st with
  | nil =>
    cases h
    simp [eventsOf]
  | cons tx vtx ih =>
    obtain ⟨st1, h1, h2⟩ := foldlM_cons_ok.mp h
    obtain ⟨action, hk⟩ := hkind tx mem_cons_self
    rw [eventsOf, flatMap_cons, filter_append, foldlM_append,
      connectTx_checked hS hc h1 hk (hcb tx mem_cons_self)]
    exact ih (connectTx_named hS hc h1) h2 (fun t ht => hcb t (mem_cons_of_mem _ ht))
      fun t ht => hkind t (mem_cons_of_mem _ ht)

theorem connectTip_named {st r} (hS : st.store.Named)
    (h : connectTip E R mempool st block = .ok r) : r.1.store.Named := by
  obtain ⟨c, hc, ⟨ops, hrun, -⟩, -⟩ := connectTip_store h
  rw [hc, runOps_eq_tryOps hrun]
  exact hS.flush (named_empty.tryOps hS ops)

theorem disconnectTip_named {st st'} (hS : st.store.Named) (h : disconnectTip E st block undo = some st') : st'.store.Named := by
  obtain ⟨c, hc, ⟨ops, hrun, -⟩, -⟩ := disconnectTip_store h
  rw [hc, runOps_eq_tryOps hrun]
  exact hS.flush (named_empty.tryOps hS ops)

/-- An accepted block leaves what its events leave, with the first undo item of each name. -/
theorem connectTip_events {st st1} (hS : st.store.Named) (h : connectTip E R mempool st block = .ok (st1, undo)) :
    ∃ c, st1.store = st.store.flush c ∧ ∀ name,
      (checkedEvents E st.store block name).foldlM (st.store.view E name).connectChecked
          ((coinbaseEvents E st.store block name).foldl (st.store.view E name).connect (∅, none)) =
        some (c.view name, findUndo undo.vUndoAssetData name) := by
  obtain ⟨tx, vtx, cs1, cs, hvtx, hcb, hrest, hcheck, h1, h2, -, heq⟩ := connectTip_ok h
  have hkind : ∀ tx ∈ block.vtx, ∃ action, E.checkKind tx = .ok action :=
    fun tx htx => checkTransaction_kind (hcheck tx htx)
  cases heq
  rw [hvtx] at hkind
  refine ⟨_, rfl, fun name => ?_⟩
  obtain ⟨action, hk⟩ := hkind tx mem_cons_self
  have hhead := connectTx_events hS named_empty h1 hk (fun _ e _ _ => by
    rw [hcb, view_empty, Bool.not_true, Bool.false_or, ← view_empty e.name, ← getAssetMetaDataIfExists_eq,
      isSome_map]) name
  rw [view_empty] at hhead
  have hev : coinbaseEvents E st.store block name =
      (assetEvents E st.store tx).filter fun e => e.name == name := by
    simp [coinbaseEvents, eventsOf, hvtx]
  rw [hev, checkedEvents, hvtx, tail_cons]
  have htail := connectTxs_checked hS (connectTx_named hS named_empty h1) h2 hrest
    (fun t ht => hkind t (mem_cons_of_mem _ ht)) name
  rw [← hhead] at htail
  exact htail

theorem disconnectTx_events {nHeight vUndo st st' entry} (hS : S.Named) (hc : st.assets.Named)
    (h : disconnectTx E S nHeight vUndo st entry = some st') (S0 : Store) :
    st'.assets.Named ∧ ∀ name,
      ((assetEvents E S0 entry.1).filter fun e => e.name == name).foldlM
        ((S.view E name).disconnect (findUndo vUndo name)) (st.assets.view name) = some (st'.assets.view name) := by
  obtain ⟨tx, txundo⟩ := entry
  simp only [disconnectTx, some_iff, removeOutCoins_assets] at h
  obtain ⟨assets, hrem, h⟩ := h
  have hnamed : assets.Named := removeAssets_eq hrem ▸ hc.tryOps hS _
  have hevents := disconnect_tx hS hc hrem S0
  split at h
  · obtain ⟨coins, hcoins, hst⟩ := restoreInputs_assets h
    rw [hst]
    refine ⟨hnamed.tryOps hS _, fun name => ?_⟩
    rw [view_tryOps fun op hop => CacheOp.not_isAssetOp_of_isCoinOp (hcoins op hop)]
    exact hevents name
  · cases h
    exact ⟨hnamed, hevents⟩

theorem disconnectTxs_events {nHeight vUndo} {st st' : DisconnectState}
    {entries : List (CTransaction × Option (List Coin))} (hS : S.Named) (hc : st.assets.Named)
    (h : entries.foldlM (disconnectTx E S nHeight vUndo) st = some st') (S0 : Store) (name : Bytes) :
    (eventsOf E S0 (entries.map Prod.fst) name).foldlM
      ((S.view E name).disconnect (findUndo vUndo name)) (st.assets.view name) = some (st'.assets.view name) := by
  induction entries generalizing st with
  | nil =>
    cases h
    simp [eventsOf]
  | cons entry entries ih =>
    obtain ⟨st1, h1, h2⟩ := foldlM_cons_some.mp h
    obtain ⟨hnamed, hevents⟩ := disconnectTx_events hS hc h1 S0
    rw [eventsOf, List.map_cons, List.flatMap_cons, List.filter_append, List.foldlM_append, hevents]
    exact ih hnamed h2

/-- Where a name occurs once in a transaction, its events backwards are those of the block. -/
theorem eventsOf_reverse {vtx name}
    (h : ∀ tx ∈ vtx, ((assetEvents E S tx).filter fun e => e.name == name).length ≤ 1) :
    (eventsOf E S vtx name).reverse = eventsOf E S vtx.reverse name := by
  unfold eventsOf
  induction vtx with
  | nil => rfl
  | cons tx vtx ih =>
    have hone : ((assetEvents E S tx).filter fun e => e.name == name).reverse =
        (assetEvents E S tx).filter fun e => e.name == name := by
      have hlen := h tx mem_cons_self
      generalize (assetEvents E S tx).filter (fun e => e.name == name) = events at hlen ⊢
      match events with
      | [] => rfl
      | [e] => rfl
    rw [flatMap_cons, filter_append, reverse_append, hone,
      ih fun t ht => h t (mem_cons_of_mem _ ht), reverse_cons, flatMap_append, filter_append]
    simp

theorem coinbaseEvents_append_checkedEvents (E : Env) (S : Store) (block : CBlock) (name : Bytes) :
    coinbaseEvents E S block name ++ checkedEvents E S block name = eventsOf E S block.vtx name := by
  rw [coinbaseEvents, checkedEvents, eventsOf, eventsOf, ← filter_append, ← flatMap_append, eventsOf]
  cases block.vtx <;> rfl

theorem assetEvents_length (h : E.checkKind tx = .ok action) (S : Store) (name : Bytes) :
    ((assetEvents E S tx).filter fun e => e.name == name).length ≤ 1 := by
  rcases filter_name_cases (assetEvents_nodup h S) name with hnil | ⟨e, -, -, hone⟩
  · simp [hnil]
  · simp [hone]

theorem coinbaseEvents_length (h : ∀ tx ∈ block.vtx, ∃ action, E.checkKind tx = .ok action) (S : Store) (name : Bytes) : (coinbaseEvents E S block name).length ≤ 1 := by
  unfold coinbaseEvents eventsOf
  cases hvtx : block.vtx with
  | nil => simp
  | cons tx vtx =>
    obtain ⟨action, hkind⟩ := h tx (hvtx ▸ mem_cons_self)
    rw [show (tx :: vtx).take 1 = [tx] from rfl, flatMap_singleton]
    exact assetEvents_length hkind S name

/-- Disconnecting a block undoes its events backwards, which may be those on an earlier state. -/
theorem disconnectTip_events {st st' : ChainState} (hS : st.store.Named) (h : disconnectTip E st block undo = some st') :
    ∃ c, st'.store = st.store.flush c ∧ ∀ S0 name,
      (∀ tx ∈ block.vtx, ((assetEvents E S0 tx).filter fun e => e.name == name).length ≤ 1) →
      (eventsOf E S0 block.vtx name).reverse.foldlM
        ((st.store.view E name).disconnect (findUndo undo.vUndoAssetData name)) ∅ = some (c.view name) := by
  obtain ⟨hlen, ds, hloop, -, rfl⟩ := disconnectTip_eq h
  refine ⟨ds.assets, rfl, fun S0 name hone => ?_⟩
  have hevents := disconnectTxs_events hS named_empty hloop S0 name
  rw [map_reverse, map_fst_zip (by simp [hlen]), view_empty] at hevents
  rw [eventsOf_reverse hone]
  exact hevents

end Hivecoin

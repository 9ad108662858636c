import Hivecoin.Chain.DuplicateIssue
import Hivecoin.Chain.Lemmas.History
import Hivecoin.Chain.Lemmas.ReissueRecords

/-!
# Asset data follows the chain

What the lookups answer is what the chain says, as long as each disconnected block can be undone.
-/

namespace Hivecoin

open CAssetsCache List Option Store

variable {E : Env} {S : Store} {ids : Uint256 → CTransaction} {chain : List ConnectedBlock} {name : Bytes}

namespace AssetEvent

def bare (e : AssetEvent) : AssetEvent := e.whereKnown fun _ => false

theorem bare_whereKnown (known : Bytes → Bool) (e : AssetEvent) : (e.whereKnown known).bare = e.bare := by
  cases e <;> rfl

theorem name_whereKnown (known : Bytes → Bool) (e : AssetEvent) : (e.whereKnown known).name = e.name := by
  cases e <;> rfl

end AssetEvent

theorem foldl_applyTo_bare (es : List AssetEvent) (data : Option CNewAsset) :
    (es.map AssetEvent.bare).foldl AssetEvent.applyTo data = es.foldl AssetEvent.applyTo data := by
  rw [foldl_map]
  congr 1
  funext data e
  cases e <;> rfl

theorem foldlM_disconnect_bare (g : StoreView) (undo : Option CBlockAssetUndo) (es : List AssetEvent) (s : NameView) :
    (es.map AssetEvent.bare).reverse.foldlM (g.disconnect undo) s = es.reverse.foldlM (g.disconnect undo) s := by
  rw [← map_reverse, foldlM_map]
  congr 1
  funext s e
  cases e <;> rfl

theorem filter_assetEvents (E : Env) (S : Store) (tx : CTransaction) (name : Bytes) :
    ((assetEvents E S tx).filter fun e => e.name == name) = (txEventsOf E name tx).map
      (AssetEvent.whereKnown fun n => !tx.isCoinBase || (getAssetMetaDataIfExists E S ∅ n).isSome) := by
  have hmap : assetEvents E S tx = (txEvents E tx).map
      (AssetEvent.whereKnown fun n => !tx.isCoinBase || (getAssetMetaDataIfExists E S ∅ n).isSome) := by
    unfold assetEvents txEvents
    split <;> rfl
  rw [hmap, List.filter_map, txEventsOf]
  congr 1
  exact List.filter_congr fun e _ => by rw [Function.comp_apply, AssetEvent.name_whereKnown]

theorem map_bare_eventsOf (E : Env) (S : Store) (vtx : List CTransaction) (name : Bytes) :
    (eventsOf E S vtx name).map AssetEvent.bare = (vtx.flatMap (txEventsOf E name)).map AssetEvent.bare := by
  rw [eventsOf, List.filter_flatMap, List.map_flatMap, List.map_flatMap]
  congr 1
  funext tx
  rw [filter_assetEvents, List.map_map]
  exact List.map_congr_left fun e _ => e.bare_whereKnown _

theorem eventsOf_of_known (h : (getAssetMetaDataIfExists E S ∅ name).isSome = true) (vtx : List CTransaction) :
    eventsOf E S vtx name = vtx.flatMap (txEventsOf E name) := by
  rw [eventsOf, filter_flatMap]
  congr 1
  funext tx
  rw [filter_assetEvents]
  refine (map_congr_left fun e he => ?_).trans (map_id _)
  have hname : e.name = name := by simpa using (mem_filter.1 he).2
  cases e with
  | issue => rfl
  | reissue r v => simp [AssetEvent.whereKnown, show r.strName = name from hname, h]

/-! ## What holds along a run -/

structure Recorded (ids : Uint256 → CTransaction) (before : List ConnectedBlock) (b : ConnectedBlock) (name : Bytes) :
    Prop where
  ids : ∀ tx ∈ b.block.vtx, ids tx.hash = tx
  once : ∀ tx ∈ b.block.vtx, (txEventsOf b.env name tx).length ≤ 1
  undo : ∀ m, chainData before name = some m → ∃ changed text,
    findUndo b.undo.vUndoAssetData name = (firstChange (b.events name)).map (undoItemOf m changed text)

structure Tracks (ids : Uint256 → CTransaction) (chain : List ConnectedBlock) (S : Store) (name : Bytes) : Prop where
  settled : S.Settled (reissuedAt ids)
  follows : ∀ E : Env, E.fReindex = false → (S.view E name).Shows (chainData chain name)
  recorded : ∀ before b, before ++ [b] <+: chain → Recorded ids before b name

theorem Store.view_reindex {E E'} (h : E.fReindex = E'.fReindex) (S : Store) (name : Bytes) :
    S.view E name = S.view E' name := by
  rw [view, view, h]

theorem Tracks.connect {st st' R mempool block undo}
    (h : Tracks ids chain st.store name) (hE : E.fReindex = false) (hids : ∀ tx ∈ block.vtx, ids tx.hash = tx)
    (hblock : connectTip E R mempool st block = .ok (st', undo)) :
    Tracks ids (chain ++ [⟨E, block, undo⟩]) st'.store name := by
  obtain ⟨-, -, -, -, -, -, -, hcheck, -⟩ := connectTip_ok hblock
  have hkind : ∀ tx ∈ block.vtx, ∃ action, E.checkKind tx = .ok action :=
    fun tx htx => checkTransaction_kind (hcheck tx htx)
  obtain ⟨c, hc, hevents⟩ := connectTip_events h.settled.named hblock
  have hshows := h.follows E hE
  have hevents := hevents name
  refine ⟨connectTip_settled h.settled hids hblock, fun E' hE' => ?_, fun before b hpre => ?_⟩
  · have hdisjoint : (st.store.view E name).pending.issued.Disjoint := by
      have hd := h.settled.disjoint name
      simpa [Store.view, CAssetsCache.view, Slot.map, Slot.Disjoint] using hd
    have hnext := shows_connect hshows hdisjoint (coinbaseEvents_length hkind st.store name) hevents
    rw [coinbaseEvents_append_checkedEvents, ← foldl_applyTo_bare, map_bare_eventsOf, foldl_applyTo_bare] at hnext
    rw [Store.view_reindex (hE'.trans hE.symm), hc, view_flush, chainData_append_singleton]
    exact hnext
  · rcases prefix_concat_iff.1 hpre with heq | hpre
    · obtain ⟨rfl, hb⟩ := append_inj' heq rfl
      cases hb
      refine ⟨hids, fun tx htx => ?_, fun m hm => ?_⟩
      · have hlen := assetEvents_length (hkind tx htx).choose_spec st.store name
        rwa [filter_assetEvents, length_map] at hlen
      · rw [hm] at hshows
        have hknown : (getAssetMetaDataIfExists E st.store ∅ name).isSome = true := by
          rw [← isSome_map, getAssetMetaDataIfExists_eq, view_empty, hshows.found]
          rfl
        have hconnect := foldl_connect_of_checked hevents
        rw [← foldl_append, coinbaseEvents_append_checkedEvents, eventsOf_of_known hknown] at hconnect
        exact ⟨_, _, connect_undoItem hshows.found hconnect⟩
    · exact h.recorded before b hpre

theorem Tracks.disconnect {st st' b} (h : Tracks ids (chain ++ [b]) st.store name)
    (hE : E.fReindex = false) (hundoable : Undoable name chain b E st.store)
    (hblock : disconnectTip E st b.block b.undo = some st') : Tracks ids chain st'.store name := by
  have hrec := h.recorded chain b (prefix_refl _)
  refine ⟨disconnectTip_settled h.settled hrec.ids hblock, fun E' hE' => ?_,
    fun before b' hpre => h.recorded before b' (hpre.trans (prefix_append _ _))⟩
  obtain ⟨c, hc, hevents⟩ := disconnectTip_events h.settled.named hblock
  have hevents := hevents st.store name fun tx htx => by
    rw [filter_assetEvents, length_map, hundoable.classified tx htx]
    exact hrec.once tx htx
  have hsame : b.block.vtx.flatMap (txEventsOf E name) = b.events name :=
    flatMap_congr fun tx htx => hundoable.classified tx htx
  rw [← foldlM_disconnect_bare, map_bare_eventsOf, foldlM_disconnect_bare, hsame] at hevents
  have hreverted := disconnect_reverted (fun hre => by rw [show (st.store.view E name).reindex = false from hE] at hre; cases hre)
    hevents
  have hshows := h.follows E hE
  rw [chainData_append_singleton] at hshows
  rw [view_reindex (hE'.trans hE.symm), hc, view_flush]
  cases hdata : chainData chain name with
  | none =>
    rw [hdata] at hshows
    exact shows_disconnect_none hshows (hundoable.issued hdata) hreverted
  | some m =>
    rw [hdata] at hshows
    obtain ⟨hno, hreverts⟩ := hundoable.reissued m hdata
    obtain ⟨changed, text, hitem⟩ := hrec.undo m hdata
    exact shows_disconnect_some hshows hno hreverts hitem hreverted

theorem Tracks.dump (h : Tracks ids chain S name) (E : Env) : Tracks ids chain (S.dumpCacheToDatabase E) name := by
  refine ⟨h.settled.dump E, fun E' hE' => ?_, h.recorded⟩
  have hshows := h.follows E' hE'
  have hdata : ((S.dumpCacheToDatabase E).view E' name).metaData ∅ = chainData chain name := by
    rw [← hshows.found]
    refine metaData_dump h.settled E fun hr => ?_
    -- reissued data belongs to a name that is known, so its issuance is not being removed
    obtain ⟨a, ha⟩ := isSome_iff_exists.1 hr
    have hfound := StoreView.metaData_of_reissued (s := ∅) (g := S.view E' name) (by rw [ha]; rfl)
    have hhas := hshows.known
    rw [← hshows.found, hfound] at hhas
    cases hrem : (S.view E' name).pending.issued.rem with
    | none => rfl
    | some r => simp [StoreView.has, hshows.reindex, Slot.read, hrem] at hhas
  refine ⟨hE', hdata, ?_⟩
  rw [has_eq_isSome_of_dumped hE', hdata]

theorem Tracks.cacheEvent (h : Tracks ids chain S name) (event : Store.CacheEvent) :
    Tracks ids chain (S.cacheEvent event) name := by
  refine ⟨h.settled.cacheEvent event, fun E hE => ?_, h.recorded⟩
  obtain ⟨hdata, hhas⟩ := metaData_cacheEvent (E := E) h.settled.coherent event name
  have hshows := h.follows E hE
  exact ⟨hE, hdata.trans hshows.found, hhas.trans hshows.known⟩

theorem ChainRun.tracks {st} (h : ChainRun ids (Undoable name) chain st) : Tracks ids chain st.store name := by
  induction h with
  | start coins =>
    refine ⟨.empty, fun E hE => ?_, fun before b hpre => ?_⟩
    · rw [Store.view_empty, hE]
      exact ⟨rfl, rfl, rfl⟩
    · exact absurd (prefix_nil.1 hpre) (by simp)
  | connect h hE hids hblock ih => exact ih.connect hE hids hblock
  | disconnect h hE hallowed hblock ih => exact ih.disconnect hE hallowed hblock
  | dump E h ih => exact ih.dump E
  | cacheEvent event h ih => exact ih.cacheEvent event

/-- In a run whose disconnected blocks can all be undone, the lookups follow the chain. -/
theorem followsChain_of_undoable {st : ChainState} (h : ChainRun ids (Undoable name) chain st) (hE : E.fReindex = false) :
    FollowsChain E chain st.store name := by
  have hshows := h.tracks.follows E hE
  have hdata : (getAssetMetaDataIfExists E st.store ∅ name).map CDatabasedAssetData.asset = chainData chain name := by
    rw [getAssetMetaDataIfExists_eq, view_empty, hshows.found]
  have hhas : checkIfAssetExists E st.store ∅ name = (chainData chain name).isSome := by
    rw [checkIfAssetExists_eq, view_empty, hshows.known]
  refine ⟨?_, ?_, hdata⟩
  · rw [hhas, ← hdata, Option.isSome_map]
  · rw [hhas, chainData_isSome, List.any_eq_true]

namespace Regtest

def moreGold : CTransaction :=
  ⟨[⟨⟨2, 0⟩, []⟩, ⟨⟨7, 1⟩, []⟩],
    [burnOut .REISSUE, ownerGoldOut, ⟨0, reissueScript alice ⟨ascii "GOLD", 500, -1, 1, []⟩⟩], 8⟩

def moreGoldBlock : CBlock := ⟨[{ coinbase with hash := 101 }, moreGold], 51, 7⟩

def goldIds (id : Uint256) : CTransaction :=
  if id = 7 then issueGold 1 7 else if id = 8 then moreGold else if id = 101 then { coinbase with hash := 101 } else coinbase

/-- `GOLD` is issued and reissued, and both blocks are disconnected. -/
def goldUndone : Option (ChainState × ChainState × ChainState × CBlockUndo × CBlockUndo) := do
  let (st1, undo1) ← (connectTip env .none ⟨∅, ∅⟩ fundedState issueBlock).toOption
  let (st2, undo2) ← (connectTip env .none ⟨∅, ∅⟩ st1 moreGoldBlock).toOption
  let st3 ← disconnectTip env st2 moreGoldBlock undo2
  let st4 ← disconnectTip env st3 issueBlock undo1
  return (st2, st3, st4, undo1, undo2)

theorem goldBlocks_run {allowed : List ConnectedBlock → ConnectedBlock → Env → Store → Prop} :
    ∃ st2 st3 st4 undo1 undo2,
      ChainRun goldIds allowed ([⟨env, issueBlock, undo1⟩] ++ [⟨env, moreGoldBlock, undo2⟩]) st2 ∧
      disconnectTip env st2 moreGoldBlock undo2 = some st3 ∧ disconnectTip env st3 issueBlock undo1 = some st4 ∧
      (getAssetMetaDataIfExists env st4.store ∅ (ascii "GOLD")).isSome = true := by
  have h : (goldUndone.map fun r => (getAssetMetaDataIfExists env r.2.2.1.store ∅ (ascii "GOLD")).isSome) = some true := by
    decide +kernel
  obtain ⟨⟨st2, st3, st4, undo1, undo2⟩, h, hfound⟩ := Option.map_eq_some_iff.mp h
  simp only [goldUndone, Outcome.some_iff, Outcome.toOption_eq_some, Prod.exists, Prod.mk.injEq] at h
  obtain ⟨st1, undo1, h1, _, _, h2, _, h3, _, h4, rfl, rfl, rfl, rfl, rfl⟩ := h
  refine ⟨_, _, _, _, _, .connect (.connect (.start _) rfl ?_ h1) rfl ?_ h2, h3, h4, hfound⟩
  · simp [issueBlock, goldIds, issueGold, coinbase]
  · simp [moreGoldBlock, goldIds, moreGold, coinbase]

/-- `GOLD` has data although the chain is empty. -/
theorem gold_outlives_chain :
    ∃ st, ChainRun goldIds (fun _ _ _ _ => True) [] st ∧ ¬ FollowsChain env [] st.store (ascii "GOLD") := by
  obtain ⟨st₂, st₃, st₄, undo₁, undo₂, hrun, h₃, h₄, hfound⟩ := @goldBlocks_run fun _ _ _ _ => True
  refine ⟨st₄, .disconnect (.disconnect hrun rfl trivial h₃) rfl trivial h₄, fun hfollows => ?_⟩
  rw [← isSome_map, hfollows.data] at hfound
  cases hfound

theorem moreGold_undoable (undo1 undo2 : CBlockUndo) (S : Store) :
    Undoable (ascii "GOLD") [⟨env, issueBlock, undo1⟩] ⟨env, moreGoldBlock, undo2⟩ env S := by
  have hdata : chainData [⟨env, issueBlock, undo1⟩] (ascii "GOLD") = some gold :=
    show historyData (issueBlock.vtx.flatMap (txEventsOf env (ascii "GOLD")) ++ []) = some gold by decide +kernel
  refine ⟨fun _ _ => rfl, fun hnone => ?_, fun m hm => ?_⟩
  · rw [hdata] at hnone
    cases hnone
  · rw [hdata, some.injEq] at hm
    subst hm
    have hevents : reissuesOf (moreGoldBlock.vtx.flatMap (txEventsOf env (ascii "GOLD"))) =
        [⟨ascii "GOLD", 500, -1, 1, []⟩] := by decide +kernel
    have hfirst : firstChange (moreGoldBlock.vtx.flatMap (txEventsOf env (ascii "GOLD"))) = none := by decide +kernel
    refine ⟨show (moreGoldBlock.vtx.flatMap (txEventsOf env (ascii "GOLD"))).any AssetEvent.isIssue = false by
      decide +kernel, ?_⟩
    rw [ConnectedBlock.events, hevents, hfirst]
    exact ⟨rfl, by decide, by decide, by decide, by decide⟩

theorem gold_follows_chain :
    ∃ st undo₁, ChainRun goldIds (Undoable (ascii "GOLD")) [⟨env, issueBlock, undo₁⟩] st ∧
      FollowsChain env [⟨env, issueBlock, undo₁⟩] st.store (ascii "GOLD") := by
  obtain ⟨st₂, st₃, -, undo₁, undo₂, hrun, h₃, -, -⟩ := @goldBlocks_run (Undoable (ascii "GOLD"))
  have hback : ChainRun goldIds (Undoable (ascii "GOLD")) [⟨env, issueBlock, undo₁⟩] st₃ :=
    .disconnect hrun rfl (moreGold_undoable undo₁ undo₂ _) h₃
  exact ⟨_, undo₁, hback.dump env, followsChain_of_undoable (hback.dump env) rfl⟩

end Regtest

end Hivecoin

import Hivecoin.Cache.NameView
import Hivecoin.Cache.Reachable

/-!
# Asset data stands under its own name

In every reachable state asset data is held under the name in it.
-/

namespace Hivecoin

open CAssetsCache Option Table CacheOp Store

/-- The data of a cache stands under its own name. -/
structure CAssetsCache.Named (c : CAssetsCache) : Prop where
  reissued : ∀ name a, c.mapReissuedAssetData.get? name = some a → a.strName = name
  issued : ∀ name a, (c.newAssets.slot name).add = some a → a.asset.strName = name

structure Store.Named (S : Store) : Prop where
  passets : S.passets.Named
  cached : ∀ name d, S.passetsCache.get? name = some d → d.asset.strName = name
  stored : ∀ name d, S.assetData.get? name = some d → d.asset.strName = name

variable {E : Env} {S : Store} {c c' : CAssetsCache}

theorem named_empty : (∅ : CAssetsCache).Named := by
  refine ⟨fun name a h => ?_, fun name a h => ?_⟩
  · rw [show (∅ : CAssetsCache).mapReissuedAssetData = ∅ from rfl, get?_empty] at h
    cases h
  · rw [show (∅ : CAssetsCache).newAssets = ∅ from rfl, Pending.slot_empty] at h
    cases h

theorem Store.Named.databased (h : S.Named) {name d}
    (hd : databased S name = some d) : d.asset.strName = name := by
  rcases or_eq_some_iff.mp hd with hd | ⟨-, hd⟩
  · exact h.cached name d hd
  · exact h.stored name d hd

theorem metaData_named (h : S.Named) (hc : c.Named) {name asset}
    (hm : (S.view E name).metaData (c.view name) = some asset) : asset.strName = name := by
  rcases or_eq_some_iff.mp hm with hr | ⟨-, hr⟩
  · rcases or_eq_some_iff.mp hr with hr | ⟨-, hr⟩
    · exact hc.reissued name asset hr
    · exact h.passets.reissued name asset hr
  · have hdata : ∀ a, (S.view E name).data = some a → a.strName = name := by
      intro a ha
      obtain ⟨d, hd, rfl⟩ := map_eq_some_iff.mp ha
      exact h.databased hd
    have hadd : ∀ (p : CAssetsCache), p.Named → ∀ a, ((p.view name).issued).add = some a → a.strName = name := by
      intro p hp a ha
      obtain ⟨d, hd, rfl⟩ := map_eq_some_iff.mp ha
      exact hp.issued name d hd
    unfold Slot.read at hr
    split at hr
    · cases hr
    split at hr
    · cases hr
    split at hr
    · rename_i v hv; cases hr; exact hadd c hc _ hv
    split at hr
    · rename_i v hv; cases hr; exact hadd S.passets h.passets _ hv
    · exact hdata asset hr

theorem CAssetsCache.Named.sameRecords (h : c.Named) (hs : SameRecords c c') : c'.Named := by
  rw [hs]
  exact ⟨h.reissued, h.issued⟩

theorem CAssetsCache.Named.addNew (h : c.Named) {asset name}
    (hn : asset.asset.strName = name) : ({ c with newAssets := c.newAssets.addKeep name asset }).Named := by
  refine ⟨h.reissued, fun x a ha => ?_⟩
  simp only [Pending.slot_addKeep] at ha
  split at ha
  · rename_i hx
    subst hx
    rcases Slot.add_addKeep ha with ha | rfl
    · exact h.issued x a ha
    · exact hn
  · exact h.issued x a ha

theorem CAssetsCache.Named.removeNew (h : c.Named) (asset : CAssetCacheNewAsset) (name : Bytes) :
    ({ c with newAssets := c.newAssets.removeKeep name asset }).Named := by
  refine ⟨h.reissued, fun x a ha => ?_⟩
  simp only [Pending.slot_removeKeep] at ha
  split at ha
  · cases ha
  · exact h.issued x a ha

theorem CAssetsCache.Named.setReissued (h : c.Named) {asset name}
    (hn : asset.strName = name) (r : Pending COutPoint CAssetCacheReissueAsset) :
    ({ c with mapReissuedAssetData := c.mapReissuedAssetData.insert name asset, newReissue := r }).Named := by
  refine ⟨fun x a ha => ?_, h.issued⟩
  simp only [get?_insert] at ha
  split at ha
  · rename_i hx; cases ha; rw [hx, hn]
  · exact h.reissued x a ha

theorem CAssetsCache.Named.apply {op : CacheOp} (h : c.Named) (hS : S.Named)
    (happ : op.apply E S c = some c') : c'.Named := by
  have hmeta : ∀ name data, getAssetMetaDataIfExists E S c name = some data → data.asset.strName = name := by
    intro name data hd
    refine metaData_named (E := E) hS h ?_
    rw [← getAssetMetaDataIfExists_eq, hd]; rfl
  obtain ⟨c1, h1, hs⟩ := apply_records happ
  refine CAssetsCache.Named.sameRecords ?_ hs
  cases op with
  | addNewAsset asset =>
    simp only [onRecords, Outcome.some_iff] at h1
    rw [← h1.2]
    exact h.addNew rfl
  | removeNewAsset asset =>
    simp only [onRecords, Outcome.some_iff] at h1
    rw [← h1.2]
    exact h.removeNew _ _
  | addReissueAsset reissue =>
    simp only [onRecords, map_eq_some_iff] at h1
    obtain ⟨data, hd, rfl⟩ := h1
    refine h.setReissued ?_ _
    cases hr : c.mapReissuedAssetData.get? reissue.strName with
    | none => exact hmeta _ _ hd
    | some a => exact h.reissued _ a hr
  | removeReissueAsset reissue address out vUndo =>
    simp only [onRecords, map_eq_some_iff] at h1
    obtain ⟨data, hd, rfl⟩ := h1
    rw [undoVerifier_eq]
    have hset := h.setReissued
      (Eq.refl (unapplyReissue data.asset reissue (findUndo vUndo reissue.strName)).strName) c.newReissue
    exact ⟨hset.reissued, hset.issued⟩
  | addQualifierAddress name address type =>
    cases h1
    rw [CAssetsCache.addQualifierAddress, noteRootQualifier_eq]
    exact ⟨h.reissued, h.issued⟩
  | removeQualifierAddress name address type =>
    cases h1
    rw [CAssetsCache.removeQualifierAddress, noteRootQualifier_eq]
    exact ⟨h.reissued, h.issued⟩
  | _ => cases h1; exact ⟨h.reissued, h.issued⟩

theorem CAssetsCache.Named.tryOps (h : c.Named) (hS : S.Named) (ops : List CacheOp) :
    (tryOps E S c ops).Named := by
  induction ops generalizing c with
  | nil => exact h
  | cons op ops ih =>
    rw [tryOps_cons]
    refine ih ?_
    cases happ : op.apply E S c with
    | none => exact h
    | some c1 => exact h.apply hS happ

theorem Store.Named.flush (h : S.Named) (hc : c.Named) : (S.flush c).Named := by
  refine ⟨⟨fun name a ha => ?_, fun name a ha => ?_⟩, h.cached, h.stored⟩
  · have ha' : (S.passets.mapReissuedAssetData.absorb c.mapReissuedAssetData).get? name = some a := ha
    rw [get?_absorb] at ha'
    rcases or_eq_some_iff.mp ha' with ha | ⟨-, ha⟩
    · exact hc.reissued name a ha
    · exact h.passets.reissued name a ha
  · have ha' : ((S.passets.newAssets.flushKeep c.newAssets).slot name).add = some a := ha
    rw [Pending.slot_flushKeep] at ha'
    rcases Slot.add_flushKeep ha' with ha | ha
    · exact h.passets.issued name a ha
    · exact hc.issued name a ha

/-- A database and its LRU cache whose data stands under its own name. -/
def Store.AssetDb.Named (d : Store.AssetDb) : Prop :=
  (∀ name a, d.lru.get? name = some a → a.asset.strName = name) ∧
    ∀ name a, d.db.get? name = some a → a.asset.strName = name

theorem Store.AssetDb.Named.writeReissued {d : Store.AssetDb} (h : d.Named) (reissued : Table Bytes CNewAsset)
    (r : CAssetCacheReissueAsset) : (d.writeReissued reissued r).Named := by
  unfold Store.AssetDb.writeReissued
  split
  · refine ⟨fun name a ha => ?_, fun name a ha => ?_⟩
    · simp only [get?_erase] at ha
      split at ha
      · cases ha
      · exact h.1 name a ha
    · simp only [get?_insert] at ha
      split at ha
      · rename_i hn; cases ha; exact hn.symm
      · exact h.2 name a ha
  · exact h

theorem dumpAssets_named {p : CAssetsCache} (hp : p.Named) {d : Store.AssetDb} (h : d.Named) :
    (dumpAssets p d).Named := by
  have h1 : (p.newAssets.toRemove.foldl (fun d name _ => d.removeNew name) d).Named := by
    refine foldl_induct Store.AssetDb.Named _ _ _ h fun d k _ _ hd => ⟨fun name a ha => ?_, fun name a ha => ?_⟩
    all_goals
      simp only [Store.AssetDb.removeNew, get?_erase] at ha
      split at ha
      · cases ha
    · exact hd.1 name a ha
    · exact hd.2 name a ha
  have h2 : (p.newAssets.toAdd.foldl (fun d name a => d.addNew name a)
      (p.newAssets.toRemove.foldl (fun d name _ => d.removeNew name) d)).Named := by
    refine foldl_induct Store.AssetDb.Named _ _ _ h1 fun d k v hk hd => ⟨fun name a ha => ?_, fun name a ha => ?_⟩
    all_goals
      simp only [Store.AssetDb.addNew, get?_insert] at ha
      split at ha
      · rename_i hn; cases ha; exact (hp.issued k v hk).trans hn.symm
    · exact hd.1 name a ha
    · exact hd.2 name a ha
  have h3 := foldl_induct Store.AssetDb.Named
    (fun (d : Store.AssetDb) _ r => d.writeReissued p.mapReissuedAssetData r) p.newReissue.toAdd _ h2
    fun d _ r _ hd => hd.writeReissued p.mapReissuedAssetData r
  unfold dumpAssets
  exact List.foldlRecOn (undoneReissues p) _ h3 fun d hd r _ => hd.writeReissued p.mapReissuedAssetData r.2

theorem Store.Named.dump (h : S.Named) (E : Env) : (S.dumpCacheToDatabase E).Named := by
  have hd := dumpAssets_named h.passets (d := ⟨S.passetsCache, S.assetData⟩) ⟨h.cached, h.stored⟩
  exact ⟨named_empty, hd.1, hd.2⟩

theorem Store.Named.cacheEvent (h : S.Named) (event : Store.CacheEvent) : (S.cacheEvent event).Named := by
  cases event with
  | fillAsset name =>
    refine ⟨h.passets, fun x d hd => ?_, h.stored⟩
    simp only [Store.cacheEvent, Store.fill] at hd
    split at hd
    · rename_i v hv
      rw [get?_insertNew] at hd
      split at hd
      · rename_i hx
        subst hx
        cases hl : S.passetsCache.get? x with
        | none => rw [hl] at hd; cases hd; exact h.stored x v hv
        | some w => rw [hl] at hd; cases hd; exact h.cached x w hl
      · exact h.cached x d hd
    · exact h.cached x d hd
  | dropAsset name =>
    refine ⟨h.passets, fun x d hd => ?_, h.stored⟩
    simp only [Store.cacheEvent, get?_erase] at hd
    split at hd
    · cases hd
    · exact h.cached x d hd
  | _ => exact ⟨h.passets, h.cached, h.stored⟩

theorem Store.Named.empty : (∅ : Store).Named := by
  refine ⟨named_empty, fun name d hd => ?_, fun name d hd => ?_⟩
  · rw [show (∅ : Store).passetsCache = ∅ from rfl, get?_empty] at hd
    cases hd
  · rw [show (∅ : Store).assetData = ∅ from rfl, get?_empty] at hd
    cases hd

theorem Store.Reachable.named (h : Store.Reachable E S) : S.Named := by
  induction h with
  | empty => exact .empty
  | flush _ hc _ ih =>
    refine ih.flush ?_
    rw [runOps_eq_tryOps hc]
    exact named_empty.tryOps ih _
  | dump _ ih => exact ih.dump E
  | cacheEvent _ event ih => exact ih.cacheEvent event

end Hivecoin

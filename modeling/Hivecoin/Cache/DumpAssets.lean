import Hivecoin.Cache.Named

/-!
# Asset data through a dump

A dump writes reissued data where it finds the record of a reissue. While an outpoint belongs to one asset it keeps all data.
-/

namespace Hivecoin

open CAssetsCache List Option Table Store Pending StoreView CacheOp

variable {E : Env} {S : Store} {c c' : CAssetsCache} {nameAt : COutPoint → Bytes}
variable {name : Bytes} {p : CAssetsCache}

/-- Records stand under the outpoints of their assets, and all reissued data has one. -/
structure CAssetsCache.Covers (nameAt : COutPoint → Bytes) (c : CAssetsCache) : Prop where
  added : ∀ out r, (c.newReissue.slot out).add = some r → r.reissue.strName = nameAt out
  removed : ∀ out r, (c.newReissue.slot out).rem = some r → r.reissue.strName = nameAt out
  found : ∀ name a, c.mapReissuedAssetData.get? name = some a → ∃ out, nameAt out = name ∧ c.newReissue.slot out ≠ ∅

/-- The operation records a reissue under an outpoint of its asset. -/
def CacheOp.NamedAt (nameAt : COutPoint → Bytes) : CacheOp → Prop
  | addReissueAsset reissue _ out | removeReissueAsset reissue _ out _ => reissue.strName = nameAt out
  | _ => True

theorem unapplyReissue_strName (asset : CNewAsset) (reissue : CReissueAsset) (undo : Option CBlockAssetUndo) :
    (unapplyReissue asset reissue undo).strName = asset.strName := by
  cases undo <;> rfl

namespace CAssetsCache.Covers

theorem empty : (∅ : CAssetsCache).Covers nameAt := by
  refine ⟨fun out r h => ?_, fun out r h => ?_, fun name a h => ?_⟩
  · rw [show (∅ : CAssetsCache).newReissue = ∅ from rfl, slot_empty] at h
    cases h
  · rw [show (∅ : CAssetsCache).newReissue = ∅ from rfl, slot_empty] at h
    cases h
  · rw [show (∅ : CAssetsCache).mapReissuedAssetData = ∅ from rfl, get?_empty] at h
    cases h

theorem record (h : c.Covers nameAt) {p : Pending COutPoint CAssetCacheReissueAsset} {out : COutPoint}
    {f : Slot CAssetCacheReissueAsset → Slot CAssetCacheReissueAsset}
    (hp : ∀ o, p.slot o = if o = out then f (c.newReissue.slot o) else c.newReissue.slot o)
    (hadd : ∀ r, (f (c.newReissue.slot out)).add = some r → r.reissue.strName = nameAt out)
    (hrem : ∀ r, (f (c.newReissue.slot out)).rem = some r → r.reissue.strName = nameAt out) (hne : ∀ s, f s ≠ ∅)
    (hname : name = nameAt out) (a : CNewAsset) :
    ({ c with mapReissuedAssetData := c.mapReissuedAssetData.insert name a, newReissue := p }).Covers nameAt := by
  refine ⟨fun o r hr => ?_, fun o r hr => ?_, fun x b hb => ?_⟩
  · simp only [hp] at hr
    split at hr
    · rename_i ho; subst ho; exact hadd r hr
    · exact h.added o r hr
  · simp only [hp] at hr
    split at hr
    · rename_i ho; subst ho; exact hrem r hr
    · exact h.removed o r hr
  · simp only [get?_insert] at hb
    split at hb
    · rename_i hx
      exact ⟨out, by rw [hx, hname], by simpa [hp] using hne _⟩
    · obtain ⟨o, ho, hslot⟩ := h.found x b hb
      refine ⟨o, ho, ?_⟩
      simp only [hp]
      split
      · exact hne _
      · exact hslot

theorem sameRecords (h : c.Covers nameAt) (hs : SameRecords c c') : c'.Covers nameAt := by
  rw [hs]
  exact ⟨h.added, h.removed, h.found⟩

theorem apply {op : CacheOp} (h : c.Covers nameAt) (hop : op.NamedAt nameAt) (hS : S.Named) (hc : c.Named)
    (happ : op.apply E S c = some c') : c'.Covers nameAt := by
  obtain ⟨c1, h1, hs⟩ := apply_records happ
  refine sameRecords ?_ hs
  cases op with
  | addNewAsset asset =>
    simp only [onRecords, Outcome.some_iff] at h1
    rw [← h1.2]
    exact ⟨h.added, h.removed, h.found⟩
  | removeNewAsset asset =>
    simp only [onRecords, Outcome.some_iff] at h1
    rw [← h1.2]
    exact ⟨h.added, h.removed, h.found⟩
  | addReissueAsset reissue address out =>
    simp only [onRecords, map_eq_some_iff] at h1
    obtain ⟨data, -, rfl⟩ := h1
    have hname : reissue.strName = nameAt out := hop
    refine h.record (f := fun s => s.addKeep ⟨reissue, address, data.nHeight, data.blockHash⟩)
      (fun o => slot_addKeep _ _ _ _) (fun r hr => ?_) (fun r hr => by cases hr) (fun s hs => by cases hs) hname _
    rcases Slot.add_addKeep hr with hr | rfl
    · exact h.added out r hr
    · exact hname
  | removeReissueAsset reissue address out vUndo =>
    simp only [onRecords, map_eq_some_iff] at h1
    obtain ⟨data, hd, rfl⟩ := h1
    have hname : reissue.strName = nameAt out := hop
    have hdata : (unapplyReissue data.asset reissue (findUndo vUndo reissue.strName)).strName = nameAt out := by
      rw [unapplyReissue_strName, ← hname]
      refine metaData_named (E := E) hS hc ?_
      rw [← getAssetMetaDataIfExists_eq, hd]; rfl
    have hrec := h.record (f := fun s => s.removeKeep ⟨reissue, address, data.nHeight, data.blockHash⟩)
      (fun o => slot_removeKeep _ _ _ _) (fun r hr => by cases hr) (fun r hr => by
        rcases Slot.rem_removeKeep hr with hr | rfl
        · exact h.removed out r hr
        · exact hname) (fun s hs => by cases hs) hdata
      (unapplyReissue data.asset reissue (findUndo vUndo reissue.strName))
    rw [undoVerifier_eq]
    exact ⟨hrec.added, hrec.removed, hrec.found⟩
  | addQualifierAddress name address type =>
    cases h1
    rw [CAssetsCache.addQualifierAddress, noteRootQualifier_eq]
    exact ⟨h.added, h.removed, h.found⟩
  | removeQualifierAddress name address type =>
    cases h1
    rw [CAssetsCache.removeQualifierAddress, noteRootQualifier_eq]
    exact ⟨h.added, h.removed, h.found⟩
  | _ => cases h1; exact ⟨h.added, h.removed, h.found⟩

theorem tryOps (h : c.Covers nameAt) {ops} (hops : ∀ op ∈ ops, op.NamedAt nameAt) (hS : S.Named)
    (hc : c.Named) : (tryOps E S c ops).Covers nameAt := by
  induction ops generalizing c with
  | nil => exact h
  | cons op ops ih =>
    rw [tryOps_cons]
    have hrest := fun o ho => hops o (mem_cons_of_mem _ ho)
    cases happ : op.apply E S c with
    | none => exact ih h hrest hc
    | some c1 => exact ih (h.apply (hops op mem_cons_self) hS hc happ) hrest (hc.apply hS happ)

theorem flushInto {g : CAssetsCache} (hg : g.Covers nameAt) (hc : c.Covers nameAt) : (g.flushInto c).Covers nameAt := by
  have hslot : ∀ out, (g.flushInto c).newReissue.slot out = (g.newReissue.slot out).flushKeep (c.newReissue.slot out) :=
    slot_flushKeep _ _
  refine ⟨fun out r hr => ?_, fun out r hr => ?_, fun name a ha => ?_⟩
  · rw [hslot] at hr
    exact (Slot.add_flushKeep hr).elim (hg.added out r) (hc.added out r)
  · rw [hslot] at hr
    exact (Slot.rem_flushKeep hr).elim (hg.removed out r) (hc.removed out r)
  · have ha' : (g.mapReissuedAssetData.absorb c.mapReissuedAssetData).get? name = some a := ha
    rw [get?_absorb] at ha'
    rcases or_eq_some_iff.mp ha' with ha | ⟨-, ha⟩
    · obtain ⟨out, ho, hne⟩ := hc.found name a ha
      exact ⟨out, ho, fun he => hne (Slot.flushKeep_eq_empty.1 (hslot out ▸ he)).2⟩
    · obtain ⟨out, ho, hne⟩ := hg.found name a ha
      exact ⟨out, ho, fun he => hne (Slot.flushKeep_eq_empty.1 (hslot out ▸ he)).1⟩

end CAssetsCache.Covers

namespace Store.AssetDb

def entry (d : AssetDb) (name : Bytes) : Option CDatabasedAssetData × Option CDatabasedAssetData :=
  (d.lru.get? name, d.db.get? name)

def dataAt (d : AssetDb) (name : Bytes) : Option CNewAsset :=
  ((d.entry name).1.or (d.entry name).2).map CDatabasedAssetData.asset

def Coherent (d : AssetDb) : Prop := ∀ name data, d.lru.get? name = some data → d.db.get? name = some data

variable {d : AssetDb} {reissued : Table Bytes CNewAsset}

theorem entry_removeNew (d : AssetDb) (k name : Bytes) :
    (d.removeNew k).entry name = if name = k then (none, none) else d.entry name := by
  by_cases h : name = k <;> simp [entry, removeNew, get?_erase, h]

theorem entry_addNew (d : AssetDb) (k : Bytes) (a : CAssetCacheNewAsset) (name : Bytes) :
    (d.addNew k a).entry name = if name = k then
      (some ⟨a.asset, a.blockHeight, a.blockHash⟩, some ⟨a.asset, a.blockHeight, a.blockHash⟩) else d.entry name := by
  by_cases h : name = k <;> simp [entry, addNew, get?_insert, h]

theorem entry_writeReissued (hnamed : ∀ name a, reissued.get? name = some a → a.strName = name)
    (r : CAssetCacheReissueAsset) (name : Bytes) :
    (d.writeReissued reissued r).entry name = match reissued.get? name with
      | some a => if name = r.reissue.strName then (none, some ⟨a, r.blockHeight, r.blockHash⟩) else d.entry name
      | none => d.entry name := by
  unfold writeReissued
  by_cases h : name = r.reissue.strName
  · subst h
    cases hr : reissued.get? r.reissue.strName with
    | none => rfl
    | some a => simp [entry, hnamed _ a hr]
  · cases hr : reissued.get? r.reissue.strName with
    | none => cases reissued.get? name <;> simp [h]
    | some a =>
      have hne : name ≠ a.strName := by rw [hnamed _ a hr]; exact h
      cases reissued.get? name <;> simp [entry, get?_erase, get?_insert, h, hne]

theorem dataAt_writeReissued (hnamed : ∀ name a, reissued.get? name = some a → a.strName = name)
    (r : CAssetCacheReissueAsset) (name : Bytes) :
    (d.writeReissued reissued r).dataAt name =
      if name = r.reissue.strName then (reissued.get? name).or (d.dataAt name) else d.dataAt name := by
  rw [dataAt, entry_writeReissued hnamed]
  cases reissued.get? name with
  | none => simp [dataAt]
  | some a => by_cases h : name = r.reissue.strName <;> simp [h, dataAt]

theorem dataAt_writeReissueds (hnamed : ∀ name a, reissued.get? name = some a → a.strName = name)
    (records : List CAssetCacheReissueAsset) (d : AssetDb) (name : Bytes) :
    (records.foldl (writeReissued reissued) d).dataAt name =
      if ∃ r ∈ records, name = r.reissue.strName then (reissued.get? name).or (d.dataAt name) else d.dataAt name := by
  induction records generalizing d with
  | nil => simp
  | cons r records ih =>
    rw [List.foldl_cons, ih, dataAt_writeReissued hnamed]
    simp only [List.mem_cons, exists_eq_or_imp]
    by_cases hr : name = r.reissue.strName
    · split <;> simp [hr, ← Option.or_assoc]
    · simp [hr]

theorem Coherent.of_entry (h : d.Coherent) {d' : AssetDb}
    (hentry : ∀ name, (d'.entry name).1 = none ∨ (d'.entry name).1 = (d'.entry name).2 ∨ d'.entry name = d.entry name) :
    d'.Coherent := by
  intro name data hdata
  rcases hentry name with hnone | heq | hsame
  · rw [show d'.lru.get? name = none from hnone] at hdata
    cases hdata
  · rw [← show d'.lru.get? name = d'.db.get? name from heq, hdata]
  · obtain ⟨hlru, hdb⟩ := Prod.mk.inj hsame
    rw [hdb]
    exact h name data (hlru ▸ hdata)

end Store.AssetDb

open Store in
def writtenReissues (p : CAssetsCache) : List CAssetCacheReissueAsset :=
  (p.newReissue.toAdd.toList ++ undoneReissues p).map Prod.snd

theorem dumpAssets_eq (p : CAssetsCache) (d : Store.AssetDb) :
    dumpAssets p d = (writtenReissues p).foldl (Store.AssetDb.writeReissued p.mapReissuedAssetData)
      (p.newAssets.toAdd.foldl (fun d name a => d.addNew name a)
        (p.newAssets.toRemove.foldl (fun d name _ => d.removeNew name) d)) := by
  rw [writtenReissues, foldl_map, foldl_append]
  rfl

theorem entry_issuances (p : CAssetsCache) (d : Store.AssetDb) (name : Bytes) :
    (p.newAssets.toAdd.foldl (fun d name a => d.addNew name a)
        (p.newAssets.toRemove.foldl (fun d name _ => d.removeNew name) d)).entry name =
      match p.newAssets.toAdd.get? name with
      | some a => (some ⟨a.asset, a.blockHeight, a.blockHash⟩, some ⟨a.asset, a.blockHeight, a.blockHash⟩)
      | none => match p.newAssets.toRemove.get? name with
        | some _ => (none, none)
        | none => d.entry name := by
  rw [foldl_pointwise Store.AssetDb.entry _ (fun _ a _ =>
      (some ⟨a.asset, a.blockHeight, a.blockHash⟩, some ⟨a.asset, a.blockHeight, a.blockHash⟩))
      (fun d k v a => d.entry_addNew k v a),
    foldl_pointwise Store.AssetDb.entry _ (fun _ _ _ => (none, none)) (fun d k _ a => d.entry_removeNew k a)]
  cases p.newAssets.toAdd.get? name with
  | some a => rfl
  | none => cases p.newAssets.toRemove.get? name <;> rfl

theorem mem_writtenReissues (hp : p.Covers nameAt) {a} (ha : p.mapReissuedAssetData.get? name = some a)
    (hrem : p.newAssets.toRemove.get? name = none) :
    ∃ r ∈ writtenReissues p, name = r.reissue.strName := by
  obtain ⟨out, rfl, hslot⟩ := hp.found name a ha
  simp only [writtenReissues, List.mem_map, List.mem_append, Prod.exists, exists_eq_right]
  cases hadd : p.newReissue.toAdd.get? out with
  | some r => exact ⟨r, ⟨out, Or.inl (Table.mem_toList.2 hadd)⟩, (hp.added out r hadd).symm⟩
  | none =>
    cases hremoved : p.newReissue.toRemove.get? out with
    | none => exact absurd (by rw [slot, hadd, hremoved]; rfl) hslot
    | some r =>
      have hname := hp.removed out r hremoved
      refine ⟨r, ⟨out, Or.inr (List.mem_filter.2 ⟨Table.mem_toList.2 hremoved, ?_⟩)⟩, hname.symm⟩
      simp [Table.contains, hname, hrem]

theorem dumpAssets_dataAt (hnamed : p.Named) (hp : p.Covers nameAt) (d : Store.AssetDb)
    (hdisjoint : (p.newAssets.slot name).Disjoint)
    (hrem : (p.mapReissuedAssetData.get? name).isSome → p.newAssets.toRemove.get? name = none) :
    (dumpAssets p d).dataAt name = (p.mapReissuedAssetData.get? name).or
      ((∅ : Slot CAssetCacheNewAsset).read (p.newAssets.slot name) (fun _ => none) (fun a => some a.asset)
        (d.dataAt name)) := by
  rw [dumpAssets_eq, Store.AssetDb.dataAt_writeReissueds hnamed.reissued]
  have hbase : Store.AssetDb.dataAt (p.newAssets.toAdd.foldl (fun d name a => d.addNew name a)
      (p.newAssets.toRemove.foldl (fun d name _ => d.removeNew name) d)) name =
      (∅ : Slot CAssetCacheNewAsset).read (p.newAssets.slot name) (fun _ => none) (fun a => some a.asset)
        (d.dataAt name) := by
    rw [Store.AssetDb.dataAt, entry_issuances]
    simp only [Slot.read, Slot.empty_rem, Slot.empty_add]
    rcases hdisjoint with hnone | hnone
    · rw [show p.newAssets.toAdd.get? name = none from hnone, hnone]
      cases hr : p.newAssets.toRemove.get? name <;> simp [slot, hr, Store.AssetDb.dataAt]
    · rw [show p.newAssets.toRemove.get? name = none from hnone, hnone]
      cases ha : p.newAssets.toAdd.get? name <;> simp [slot, ha, Store.AssetDb.dataAt]
  rw [hbase]
  cases ha : p.mapReissuedAssetData.get? name with
  | none => split <;> rfl
  | some a => rw [if_pos (mem_writtenReissues hp ha (hrem (by rw [ha]; rfl)))]

theorem dumpAssets_coherent (hnamed : p.Named) {d : Store.AssetDb} (h : d.Coherent) :
    (dumpAssets p d).Coherent := by
  have hbase : Store.AssetDb.Coherent (p.newAssets.toAdd.foldl (fun d name a => d.addNew name a)
      (p.newAssets.toRemove.foldl (fun d name _ => d.removeNew name) d)) := by
    refine h.of_entry fun name => ?_
    rw [entry_issuances]
    cases p.newAssets.toAdd.get? name with
    | some a => exact Or.inr (Or.inl rfl)
    | none =>
      cases p.newAssets.toRemove.get? name with
      | some a => exact Or.inl rfl
      | none => exact Or.inr (Or.inr rfl)
  rw [dumpAssets_eq]
  refine List.foldlRecOn _ _ hbase fun d hd r _ => hd.of_entry fun name => ?_
  rw [Store.AssetDb.entry_writeReissued hnamed.reissued]
  cases p.mapReissuedAssetData.get? name with
  | none => exact Or.inr (Or.inr rfl)
  | some a =>
    by_cases hn : name = r.reissue.strName
    · exact Or.inl (by simp [hn])
    · exact Or.inr (Or.inr (by simp [hn]))

def Store.assetDb (S : Store) : Store.AssetDb := ⟨S.passetsCache, S.assetData⟩

/-- What keeps the asset data of the store through dumps. -/
structure Store.Settled (nameAt : COutPoint → Bytes) (S : Store) : Prop where
  named : S.Named
  covers : S.passets.Covers nameAt
  disjoint : S.passets.newAssets.Disjoint
  coherent : S.assetDb.Coherent

theorem Store.Settled.empty : (∅ : Store).Settled nameAt where
  named := .empty
  covers := .empty
  disjoint := Pending.disjoint_empty
  coherent name data h := by
    rw [show (∅ : Store).assetDb.lru = ∅ from rfl, get?_empty] at h
    cases h

theorem Store.Settled.flush (h : S.Settled nameAt) (hc : c.Named) (hcov : c.Covers nameAt) :
    (S.flush c).Settled nameAt where
  named := h.named.flush hc
  covers := h.covers.flushInto hcov
  disjoint name := by
    rw [show (S.flush c).passets.newAssets = S.passets.newAssets.flushKeep c.newAssets from rfl, slot_flushKeep]
    exact Slot.flushKeep_disjoint _ (h.disjoint name)
  coherent := h.coherent

theorem Store.Settled.dump (h : S.Settled nameAt) (E : Env) : (S.dumpCacheToDatabase E).Settled nameAt where
  named := h.named.dump E
  covers := .empty
  disjoint := Pending.disjoint_empty
  coherent := dumpAssets_coherent h.named.passets h.coherent

/-- A dump keeps the data of a name, unless it is reissued while its issuance is removed. -/
theorem metaData_dump (h : S.Settled nameAt) (E' : Env)
    (hrem : (S.view E name).pending.reissued.isSome → (S.view E name).pending.issued.rem = none) :
    ((S.dumpCacheToDatabase E').view E name).metaData ∅ = (S.view E name).metaData ∅ := by
  have hafter : ((S.dumpCacheToDatabase E').view E name).metaData ∅ = (Store.dumpAssets S.passets S.assetDb).dataAt name := by
    simp only [metaData, Store.view, show (S.dumpCacheToDatabase E').passets = ∅ from rfl, view_empty]
    rfl
  rw [hafter, dumpAssets_dataAt h.named.passets h.covers S.assetDb (h.disjoint name) fun hr => by
    simpa [Store.view, CAssetsCache.view, Slot.map, slot] using hrem hr]
  simp only [metaData, NameView.empty_reissued, none_or]
  exact congrArg _ (Slot.read_map CAssetCacheNewAsset.asset ∅ _ (fun _ => none) some _).symm

theorem has_eq_isSome_of_dumped (hre : E.fReindex = false) (E' : Env) (name : Bytes) :
    ((S.dumpCacheToDatabase E').view E name).has ∅ = (((S.dumpCacheToDatabase E').view E name).metaData ∅).isSome := by
  refine (metaData_isSome ?_ hre).symm
  simp only [Store.view, show (S.dumpCacheToDatabase E').passets = ∅ from rfl, view_empty]
  rfl

theorem databased_cacheEvent (h : S.assetDb.Coherent) (event : Store.CacheEvent) (name : Bytes) :
    databased (S.cacheEvent event) name = databased S name := by
  cases event with
  | fillAsset k =>
    simp only [databased, cacheEvent, fill]
    split
    · rename_i v hv
      rw [get?_insertNew]
      split
      · rename_i hk
        subst hk
        cases S.passetsCache.get? name <;> simp [hv]
      · rfl
    · rfl
  | dropAsset k =>
    simp only [databased, cacheEvent, get?_erase]
    split
    · rename_i hk
      subst hk
      cases hl : S.passetsCache.get? name with
      | none => rfl
      | some d => exact h name d hl
    · rfl
  | _ => rfl

theorem metaData_cacheEvent (h : S.assetDb.Coherent) (event : Store.CacheEvent) (name : Bytes) :
    ((S.cacheEvent event).view E name).metaData ∅ = (S.view E name).metaData ∅ ∧
      ((S.cacheEvent event).view E name).has ∅ = (S.view E name).has ∅ := by
  have hpassets : (S.cacheEvent event).passets = S.passets := by cases event <;> rfl
  simp only [metaData, has, Store.view, hpassets, databased_cacheEvent h, and_self]

theorem Store.Settled.cacheEvent (h : S.Settled nameAt) (event : Store.CacheEvent) :
    (S.cacheEvent event).Settled nameAt := by
  have hpassets : (S.cacheEvent event).passets = S.passets := by cases event <;> rfl
  refine ⟨h.named.cacheEvent event, hpassets ▸ h.covers, hpassets ▸ h.disjoint, ?_⟩
  cases event with
  | fillAsset k =>
    intro name data hdata
    simp only [Store.assetDb, Store.cacheEvent, Store.fill] at hdata ⊢
    split at hdata
    · rename_i v hv
      rw [get?_insertNew] at hdata
      split at hdata
      · rename_i hk
        subst hk
        cases hl : S.passetsCache.get? name with
        | none => rw [hl] at hdata; cases hdata; exact hv
        | some w => rw [hl] at hdata; cases hdata; exact h.coherent name w hl
      · exact h.coherent name data hdata
    · exact h.coherent name data hdata
  | dropAsset k =>
    intro name data hdata
    simp only [Store.assetDb, Store.cacheEvent, get?_erase] at hdata ⊢
    split at hdata
    · cases hdata
    · exact h.coherent name data hdata
  | _ => exact h.coherent

end Hivecoin

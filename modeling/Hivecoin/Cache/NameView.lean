import Hivecoin.Cache.Lemmas.Operations

/-!
# One asset name

What a cache and the store under it hold for one name. The queries depend on nothing else.
-/

namespace Hivecoin

open CAssetsCache Pending CDatabasedAssetData Slot

/-- What a cache holds for one name. -/
structure NameView where
  reissued : Option CNewAsset
  issued : Slot CNewAsset
  verifier : Slot CAssetCacheRestrictedVerifiers

instance : EmptyCollection NameView := ⟨⟨none, ∅, ∅⟩⟩

@[simp] theorem NameView.empty_reissued : (∅ : NameView).reissued = none := rfl
@[simp] theorem NameView.empty_issued : (∅ : NameView).issued = ∅ := rfl

/-- What the store holds for one name; with `reindex` every name counts as existing. -/
structure StoreView where
  reindex : Bool
  pending : NameView
  data : Option CNewAsset
  verifier : Option Bytes

def CAssetsCache.view (c : CAssetsCache) (name : Bytes) : NameView where
  reissued := c.mapReissuedAssetData.get? name
  issued := (c.newAssets.slot name).map CAssetCacheNewAsset.asset
  verifier := c.newRestrictedVerifier.slot name

def Store.view (E : Env) (S : Store) (name : Bytes) : StoreView where
  reindex := E.fReindex
  pending := S.passets.view name
  data := (databased S name).map asset
  verifier := (S.passetsVerifierCache.get? name).or (S.verifiers.get? name)

@[simp] theorem view_empty (name : Bytes) : (∅ : CAssetsCache).view name = ∅ := by
  have hr : (∅ : CAssetsCache).mapReissuedAssetData.get? name = none := Table.get?_empty name
  have hi : (∅ : CAssetsCache).newAssets.slot name = ∅ := slot_empty name
  have hv : (∅ : CAssetsCache).newRestrictedVerifier.slot name = ∅ := slot_empty name
  rw [CAssetsCache.view, hr, hi, hv]
  rfl

theorem Store.view_empty (E : Env) (name : Bytes) : (∅ : Store).view E name = ⟨E.fReindex, ∅, none, none⟩ := by
  have hdata : databased (∅ : Store) name = none := by
    rw [databased, show (∅ : Store).passetsCache = ∅ from rfl, show (∅ : Store).assetData = ∅ from rfl, Table.get?_empty]
    rfl
  have hverifier : ((∅ : Store).passetsVerifierCache.get? name).or ((∅ : Store).verifiers.get? name) = none := by
    rw [show (∅ : Store).passetsVerifierCache = ∅ from rfl, show (∅ : Store).verifiers = ∅ from rfl, Table.get?_empty]
    rfl
  rw [Store.view, show (∅ : Store).passets = ∅ from rfl, Hivecoin.view_empty, hdata, hverifier]
  rfl

namespace StoreView

def has (g : StoreView) (s : NameView) : Bool :=
  g.reindex || s.issued.read g.pending.issued (fun _ => false) (fun _ => true) g.data.isSome

def metaData (g : StoreView) (s : NameView) : Option CNewAsset :=
  (s.reissued.or g.pending.reissued).or
    (s.issued.read g.pending.issued (fun _ => none) some g.data)

def verifierText (g : StoreView) (s : NameView) : Option Bytes :=
  s.verifier.read g.pending.verifier (fun v => if v.fUndoingRessiue then some v.verifier else none)
    (fun v => some v.verifier) g.verifier

theorem metaData_isSome {g : StoreView} {s : NameView} (h : s.reissued.or g.pending.reissued = none)
    (hr : g.reindex = false) : (g.metaData s).isSome = g.has s := by
  rw [metaData, h, has, hr, Option.none_or, Bool.false_or, apply_read Option.isSome]
  rfl

end StoreView

section

variable {E : Env} {S : Store} {c c' : CAssetsCache} (name : Bytes)

theorem checkIfAssetExists_eq : checkIfAssetExists E S c name = (S.view E name).has (c.view name) := by
  simp only [checkIfAssetExists, Pending.read, StoreView.has, Store.view, CAssetsCache.view, read_map,
    Option.isSome_map]
  rfl

theorem getAssetMetaDataIfExists_eq :
    (getAssetMetaDataIfExists E S c name).map asset =
      (S.view E name).metaData (c.view name) := by
  simp only [getAssetMetaDataIfExists, StoreView.metaData, Store.view, CAssetsCache.view, read_map]
  split
  · rename_i a ha; rw [ha]; rfl
  · rename_i ha
    rw [ha, Pending.read, apply_read (Option.map asset)]
    rfl

theorem getAssetVerifierStringIfExists_eq :
    getAssetVerifierStringIfExists S c name = (S.view E name).verifierText (c.view name) := rfl

theorem SameRecords.view_eq (h : SameRecords c c') (name : Bytes) : c'.view name = c.view name := by
  rw [h]
  rfl

theorem view_addNewAsset {asset address nHeight blockHash}
    (h : c.addNewAsset E S asset address nHeight blockHash = some c') (name : Bytes) :
    c'.view name = if name = asset.strName then
      { c.view name with issued := (c.view name).issued.addKeep asset } else c.view name := by
  obtain ⟨-, hs⟩ := addNewAsset_spec h
  rw [SameRecords.view_eq hs]
  simp only [CAssetsCache.view, slot_addKeep]
  split
  · rw [map_addKeep]
  · rfl

theorem view_removeNewAsset {asset address}
    (h : c.removeNewAsset E S asset address = some c') (name : Bytes) :
    c'.view name = if name = asset.strName then
      { c.view name with issued := (c.view name).issued.removeKeep asset } else c.view name := by
  obtain ⟨-, hs⟩ := removeNewAsset_spec h
  rw [SameRecords.view_eq hs]
  simp only [CAssetsCache.view, slot_removeKeep]
  split
  · rw [map_removeKeep]
  · rfl

theorem view_addReissueAsset {reissue address out}
    (h : c.addReissueAsset E S reissue address out = some c') :
    ∃ asset, (S.view E reissue.strName).metaData (c.view reissue.strName) = some asset ∧
      ∀ name, c'.view name = if name = reissue.strName then
        { c.view name with reissued := some (applyReissue asset reissue) } else c.view name := by
  obtain ⟨data, hd, hs⟩ := addReissueAsset_spec h
  have hm : (S.view E reissue.strName).metaData (c.view reissue.strName) = some data.asset := by
    rw [← getAssetMetaDataIfExists_eq, hd]; rfl
  refine ⟨data.asset, hm, fun name => ?_⟩
  -- the data that is changed is what the query returns
  have hprev : (c.mapReissuedAssetData.get? reissue.strName).getD data.asset = data.asset := by
    cases hr : c.mapReissuedAssetData.get? reissue.strName with
    | none => rfl
    | some a =>
      simp only [StoreView.metaData, CAssetsCache.view, hr, Option.some_or, Option.some.injEq] at hm
      simp [hm]
  rw [SameRecords.view_eq hs]
  simp only [CAssetsCache.view, Table.get?_insert, hprev]
  split <;> rfl

theorem view_addRestrictedVerifier (assetName verifier name : Bytes) :
    (c.addRestrictedVerifier assetName verifier).view name = if name = assetName then
      { c.view name with verifier := (c.view name).verifier.addKeep ⟨verifier, false⟩ } else c.view name := by
  simp only [CAssetsCache.view, addRestrictedVerifier, slot_addKeep]
  split <;> rfl

theorem view_removeRestrictedVerifier (assetName verifier : Bytes) (undoing : Bool) (name : Bytes) :
    (c.removeRestrictedVerifier assetName verifier undoing).view name = if name = assetName then
      { c.view name with verifier := (c.view name).verifier.removeKeep ⟨verifier, undoing⟩ } else c.view name := by
  simp only [CAssetsCache.view, removeRestrictedVerifier, slot_removeKeep]
  split <;> rfl

def Slot.undoVerifier (s : Slot CAssetCacheRestrictedVerifiers) (undo : Option CBlockAssetUndo) :
    Slot CAssetCacheRestrictedVerifiers :=
  match undo with
  | some u => if u.fChangedVerifierString then s.removeKeep ⟨u.verifierString, true⟩ else s
  | none => s

theorem view_undoVerifier (assetName : Bytes) (undo : Option CBlockAssetUndo) (name : Bytes) :
    (c.undoVerifier assetName undo).view name = if name = assetName then
      { c.view name with verifier := Slot.undoVerifier (c.view name).verifier undo } else c.view name := by
  unfold undoVerifier Slot.undoVerifier
  cases undo with
  | none => simp
  | some u =>
    simp only
    split
    · exact view_removeRestrictedVerifier _ _ _ _
    · simp

theorem view_removeReissueAsset {reissue address out vUndo} (h : c.removeReissueAsset E S reissue address out vUndo = some c')
    (hname : ∀ asset, (S.view E reissue.strName).metaData (c.view reissue.strName) = some asset →
      asset.strName = reissue.strName) :
    ∃ asset, (S.view E reissue.strName).metaData (c.view reissue.strName) = some asset ∧
      ∀ name, c'.view name = if name = reissue.strName then
        { c.view name with
          reissued := some (unapplyReissue asset reissue (findUndo vUndo reissue.strName))
          verifier := Slot.undoVerifier (c.view name).verifier (findUndo vUndo reissue.strName) }
        else c.view name := by
  obtain ⟨data, hd, hs⟩ := removeReissueAsset_spec h
  have hm : (S.view E reissue.strName).metaData (c.view reissue.strName) = some data.asset := by
    rw [← getAssetMetaDataIfExists_eq, hd]; rfl
  refine ⟨data.asset, hm, fun name => ?_⟩
  have hstr : ∀ u, (unapplyReissue data.asset reissue u).strName = reissue.strName := by
    intro u
    rw [← hname _ hm]
    cases u <;> rfl
  rw [SameRecords.view_eq hs]
  simp only [hstr, view_undoVerifier]
  simp only [CAssetsCache.view, Table.get?_insert]
  split <;> rfl

def NameView.flush (g s : NameView) : NameView where
  reissued := s.reissued.or g.reissued
  issued := g.issued.flushKeep s.issued
  verifier := g.verifier.flushOver s.verifier

theorem passets_view_flush : (S.flush c).passets.view name = (S.passets.view name).flush (c.view name) := by
  simp only [CAssetsCache.view, NameView.flush, Store.flush, flushInto, Table.get?_absorb, slot_flushKeep,
    slot_flushOver, map_flushKeep]

theorem view_flush :
    (S.flush c).view E name = { S.view E name with pending := (S.view E name).pending.flush (c.view name) } := by
  simp only [Store.view, passets_view_flush]
  rfl

end

end Hivecoin

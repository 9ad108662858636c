import Hivecoin.Cache.Update

/-!
# Flush and dump

`Flush` moves the changes of a local cache into `passets`, `DumpCacheToDatabase` those of `passets` to the databases.
-/

namespace Hivecoin

namespace CAssetsCache

/-- The sets of `l` added, root by root, to those of `t`. -/
def mergeRoots (t l : Table (Bytes × Bytes) (Finset Bytes)) : Table (Bytes × Bytes) (Finset Bytes) :=
  l.foldl (fun t key names => t.modify key ∅ fun s => s ∪ names) t

/-- `c` written into `g`; removed sub-qualifiers of `c` go where the added ones go. -/
def flushInto (g c : CAssetsCache) : CAssetsCache where
  newAssets := g.newAssets.flushKeep c.newAssets
  mapAssetsAddressAmount := g.mapAssetsAddressAmount.absorb c.mapAssetsAddressAmount
  mapReissuedAssetData := g.mapReissuedAssetData.absorb c.mapReissuedAssetData
  newOwnerAssets := g.newOwnerAssets.flushKeep c.newOwnerAssets
  newReissue := g.newReissue.flushKeep c.newReissue
  newTransferAssets := g.newTransferAssets.flushKeep c.newTransferAssets
  vSpentAssets := g.vSpentAssets ++ c.vSpentAssets
  vUndoAssetAmount := g.vUndoAssetAmount ++ c.vUndoAssetAmount
  newQualifierAddress := g.newQualifierAddress.flushOver c.newQualifierAddress
  newRestrictedAddress := g.newRestrictedAddress.flushOver c.newRestrictedAddress
  newRestrictedGlobal := g.newRestrictedGlobal.flushOver c.newRestrictedGlobal
  newRestrictedVerifier := g.newRestrictedVerifier.flushOver c.newRestrictedVerifier
  mapRootQualifierAddressesAdd :=
    mergeRoots (mergeRoots g.mapRootQualifierAddressesAdd c.mapRootQualifierAddressesAdd)
      c.mapRootQualifierAddressesRemove
  mapRootQualifierAddressesRemove := g.mapRootQualifierAddressesRemove

end CAssetsCache

namespace Store

open CAssetsCache

def flush (S : Store) (c : CAssetsCache) : Store := { S with passets := S.passets.flushInto c }

/-! ## Dump -/

def writeQuantity (amounts : Table (Bytes × Bytes) CAmount) (eraseZero : Bool)
    (db : Table (Bytes × Bytes) CAmount) (pair : Bytes × Bytes) : Table (Bytes × Bytes) CAmount :=
  match amounts.get? pair with
  | some amount => if eraseZero && amount == 0 then db.erase pair else db.insert pair amount
  | none => db

def writePositive (amounts db : Table (Bytes × Bytes) CAmount) (pair : Bytes × Bytes) :
    Table (Bytes × Bytes) CAmount :=
  match amounts.get? pair with
  | some amount => if 0 < amount then db.insert pair amount else db
  | none => db

variable (p : CAssetsCache)

/-- The reissues that are undone while their issuance is not. -/
def undoneReissues : List (COutPoint × CAssetCacheReissueAsset) :=
  p.newReissue.toRemove.toList.filter fun r => !p.newAssets.toRemove.contains r.2.reissue.strName

/-- The balances after a dump with the asset index on, loop by loop. -/
def dumpQuantities (db : Table (Bytes × Bytes) CAmount) : Table (Bytes × Bytes) CAmount :=
  let amounts := p.mapAssetsAddressAmount
  let db := p.newAssets.toRemove.foldl (fun db name a => db.erase (name, a.address)) db
  let db := p.newAssets.toAdd.foldl (fun db name a => db.insert (name, a.address) a.asset.nAmount) db
  let db := p.newOwnerAssets.toRemove.foldl (fun db name address => db.erase (name, address)) db
  let db := p.newOwnerAssets.toAdd.foldl (fun db name address => writePositive amounts db (name, address)) db
  let db := p.newTransferAssets.toRemove.foldl
    (fun db _ t => writeQuantity amounts true db (t.transfer.strName, t.address)) db
  let db := p.newTransferAssets.toAdd.foldl
    (fun db _ t => writeQuantity amounts false db (t.transfer.strName, t.address)) db
  let db := p.newReissue.toAdd.foldl
    (fun db _ r => if p.mapReissuedAssetData.contains r.reissue.strName then
      writePositive amounts db (r.reissue.strName, r.address) else db) db
  let db := (undoneReissues p).foldl
    (fun db r => if p.mapReissuedAssetData.contains r.2.reissue.strName then
      writeQuantity amounts true db (r.2.reissue.strName, r.2.address) else db) db
  let db := p.vUndoAssetAmount.foldl
    (fun db u => writeQuantity amounts false db (u.assetName, u.address)) db
  p.vSpentAssets.foldl (fun db s => writeQuantity amounts true db (s.assetName, s.address)) db

/-- The database's asset data with the LRU cache over it. -/
structure AssetDb where
  lru : Table Bytes CDatabasedAssetData
  db : Table Bytes CDatabasedAssetData

namespace AssetDb

def removeNew (d : AssetDb) (name : Bytes) : AssetDb := ⟨d.lru.erase name, d.db.erase name⟩

def addNew (d : AssetDb) (name : Bytes) (a : CAssetCacheNewAsset) : AssetDb :=
  let data : CDatabasedAssetData := ⟨a.asset, a.blockHeight, a.blockHash⟩
  ⟨d.lru.insert name data, d.db.insert name data⟩

def writeReissued (reissued : Table Bytes CNewAsset) (d : AssetDb) (r : CAssetCacheReissueAsset) : AssetDb :=
  match reissued.get? r.reissue.strName with
  | some asset =>
    ⟨d.lru.erase r.reissue.strName, d.db.insert asset.strName ⟨asset, r.blockHeight, r.blockHash⟩⟩
  | none => d

end AssetDb

def dumpAssets (d : AssetDb) : AssetDb :=
  let d := p.newAssets.toRemove.foldl (fun d name _ => d.removeNew name) d
  let d := p.newAssets.toAdd.foldl (fun d name a => d.addNew name a) d
  let d := p.newReissue.toAdd.foldl (fun d _ r => d.writeReissued p.mapReissuedAssetData r) d
  (undoneReissues p).foldl (fun d r => d.writeReissued p.mapReissuedAssetData r.2) d

/-- The stored verifiers with the LRU cache over them. -/
structure VerifierDb where
  lru : Table Bytes Bytes
  db : Table Bytes Bytes

def dumpVerifiers (d : VerifierDb) : VerifierDb :=
  -- the removal of an asset erases its stored verifier but not the cached one
  let d := p.newAssets.toRemove.foldl (fun d name _ => ⟨d.lru, d.db.erase name⟩) d
  let d := p.newRestrictedVerifier.toAdd.foldl
    (fun d name v => ⟨d.lru.erase name, d.db.insert name v.verifier⟩) d
  p.newRestrictedVerifier.toRemove.foldl
    (fun d name v => ⟨d.lru.erase name,
      if v.fUndoingRessiue then d.db.insert name v.verifier else d.db.erase name⟩) d

def dumpCacheToDatabase (E : Env) (S : Store) : Store :=
  let p := S.passets
  let assets := dumpAssets p ⟨S.passetsCache, S.assetData⟩
  let verifiers := dumpVerifiers p ⟨S.passetsVerifierCache, S.verifiers⟩
  { passets := ∅
    passetsCache := assets.lru
    assetData := assets.db
    passetsVerifierCache := verifiers.lru
    verifiers := verifiers.db
    assetAddressQuantity :=
      if E.fAssetIndex then dumpQuantities p S.assetAddressQuantity else S.assetAddressQuantity
    addressQualifier := p.newQualifierAddress.dumpMarks QualifierType.isAdd S.addressQualifier
    restrictedAddress := p.newRestrictedAddress.dumpMarks RestrictedType.isFreeze S.restrictedAddress
    globalRestriction := p.newRestrictedGlobal.dumpMarks GlobalRestrictedType.isFreeze S.globalRestriction }

/-- A read that fills an LRU cache, or an entry that falls out of one. -/
inductive CacheEvent where
  | fillAsset (name : Bytes)
  | dropAsset (name : Bytes)
  | fillVerifier (name : Bytes)
  | dropVerifier (name : Bytes)
  | fillQualifier (key : Bytes × Bytes)
  | dropQualifier (key : Bytes × Bytes)
  | fillRestriction (key : Bytes × Bytes)
  | dropRestriction (key : Bytes × Bytes)
  | fillGlobal (name : Bytes)
  | dropGlobal (name : Bytes)

def fill {K V : Type} [DecidableEq K] (lru db : Table K V) (k : K) : Table K V :=
  match db.get? k with
  | some v => lru.insertNew k v
  | none => lru

def fillMark {K : Type} [DecidableEq K] (m : Marks K) (k : K) : Marks K :=
  if k ∈ m.stored then ⟨insert k m.cached, m.stored⟩ else m

def dropMark {K : Type} [DecidableEq K] (m : Marks K) (k : K) : Marks K := ⟨m.cached.erase k, m.stored⟩

def cacheEvent (S : Store) : CacheEvent → Store
  | .fillAsset name => { S with passetsCache := fill S.passetsCache S.assetData name }
  | .dropAsset name => { S with passetsCache := S.passetsCache.erase name }
  | .fillVerifier name => { S with passetsVerifierCache := fill S.passetsVerifierCache S.verifiers name }
  | .dropVerifier name => { S with passetsVerifierCache := S.passetsVerifierCache.erase name }
  | .fillQualifier key => { S with addressQualifier := fillMark S.addressQualifier key }
  | .dropQualifier key => { S with addressQualifier := dropMark S.addressQualifier key }
  | .fillRestriction key => { S with restrictedAddress := fillMark S.restrictedAddress key }
  | .dropRestriction key => { S with restrictedAddress := dropMark S.restrictedAddress key }
  | .fillGlobal name => { S with globalRestriction := fillMark S.globalRestriction name }
  | .dropGlobal name => { S with globalRestriction := dropMark S.globalRestriction name }

end Store

end Hivecoin

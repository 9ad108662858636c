import Hivecoin.Assets.Types
import Hivecoin.Base.Marks

/-!
# The asset cache and the stores under it

`CAssetsCache` of `assets/assets.h`, and the `Store` that all caches share: `passets`, LRU caches and databases.
-/

namespace Hivecoin

/-- `CAssetCacheNewAsset`, keyed by the asset's name. -/
structure CAssetCacheNewAsset where
  asset : CNewAsset
  address : Bytes
  blockHeight : Int
  blockHash : Uint256
deriving DecidableEq

structure CDatabasedAssetData where
  asset : CNewAsset
  nHeight : Int
  blockHash : Uint256
deriving DecidableEq

/-- `CAssetCacheReissueAsset`, keyed by its outpoint. -/
structure CAssetCacheReissueAsset where
  reissue : CReissueAsset
  address : Bytes
  blockHeight : Int
  blockHash : Uint256
deriving DecidableEq

/-- `CAssetCacheNewTransfer`, keyed by its outpoint. -/
structure CAssetCacheNewTransfer where
  transfer : CAssetTransfer
  address : Bytes
deriving DecidableEq

/-- `CAssetCacheRestrictedVerifiers`, keyed by the asset's name. -/
structure CAssetCacheRestrictedVerifiers where
  verifier : Bytes
  fUndoingRessiue : Bool
deriving DecidableEq

/-- `CAssetCacheUndoAssetAmount` and `CAssetCacheSpendAsset` -/
structure CAssetCacheAmount where
  assetName : Bytes
  address : Bytes
  nAmount : CAmount
deriving DecidableEq

structure CAssetsCache where
  mapAssetsAddressAmount : Table (Bytes × Bytes) CAmount
  mapReissuedAssetData : Table Bytes CNewAsset
  newAssets : Pending Bytes CAssetCacheNewAsset
  newReissue : Pending COutPoint CAssetCacheReissueAsset
  newOwnerAssets : Pending Bytes Bytes
  newTransferAssets : Pending COutPoint CAssetCacheNewTransfer
  vUndoAssetAmount : List CAssetCacheAmount
  vSpentAssets : List CAssetCacheAmount
  newQualifierAddress : Pending (Bytes × Bytes) QualifierType
  newRestrictedAddress : Pending (Bytes × Bytes) RestrictedType
  newRestrictedGlobal : Pending Bytes GlobalRestrictedType
  newRestrictedVerifier : Pending Bytes CAssetCacheRestrictedVerifiers
  mapRootQualifierAddressesAdd : Table (Bytes × Bytes) (Finset Bytes)
  mapRootQualifierAddressesRemove : Table (Bytes × Bytes) (Finset Bytes)

instance : EmptyCollection CAssetsCache := ⟨⟨∅, ∅, ∅, ∅, ∅, ∅, [], [], ∅, ∅, ∅, ∅, ∅, ∅⟩⟩

structure Store where
  passets : CAssetsCache
  passetsCache : Table Bytes CDatabasedAssetData
  passetsVerifierCache : Table Bytes Bytes
  /-- `passetsdb`: asset data, and amounts by name and address -/
  assetData : Table Bytes CDatabasedAssetData
  assetAddressQuantity : Table (Bytes × Bytes) CAmount
  /-- `prestricteddb` with the LRU caches of its marks, all keyed by name and address -/
  verifiers : Table Bytes Bytes
  addressQualifier : Marks (Bytes × Bytes)
  restrictedAddress : Marks (Bytes × Bytes)
  globalRestriction : Marks Bytes

instance : EmptyCollection Store := ⟨⟨∅, ∅, ∅, ∅, ∅, ∅, ∅, ∅, ∅⟩⟩

def QualifierType.isAdd : QualifierType → Bool
  | .ADD_QUALIFIER => true
  | .REMOVE_QUALIFIER => false

def RestrictedType.isFreeze : RestrictedType → Bool
  | .FREEZE_ADDRESS => true
  | .UNFREEZE_ADDRESS => false

def GlobalRestrictedType.isFreeze : GlobalRestrictedType → Bool
  | .GLOBAL_FREEZE => true
  | .GLOBAL_UNFREEZE => false

end Hivecoin

import Hivecoin.Assets.Name
import Hivecoin.Cache.State
import Hivecoin.Env

/-!
# Queries of the asset cache

What a cache `c` over the shared store `S` answers. Filling the LRU caches is a step of its own.
-/

namespace Hivecoin

namespace CAssetsCache

variable (E : Env) (S : Store) (c : CAssetsCache)

/-- The asset under the pending changes: the LRU cache over the database. -/
def databased (S : Store) (name : Bytes) : Option CDatabasedAssetData :=
  (S.passetsCache.get? name).or (S.assetData.get? name)

def checkIfAssetExists (name : Bytes) : Bool :=
  E.fReindex ||
    c.newAssets.read S.passets.newAssets name (fun _ => false) (fun _ => true)
      (databased S name).isSome

/-- `GetAssetMetaDataIfExists`; reissued data comes without height and block hash. -/
def getAssetMetaDataIfExists (name : Bytes) : Option CDatabasedAssetData :=
  match (c.mapReissuedAssetData.get? name).or (S.passets.mapReissuedAssetData.get? name) with
  | some asset => some ⟨asset, E.uninitialised, 0⟩
  | none =>
    c.newAssets.read S.passets.newAssets name (fun _ => none)
      (fun a => some ⟨a.asset, a.blockHeight, a.blockHash⟩) (databased S name)

def getAssetVerifierStringIfExists (name : Bytes) : Option Bytes :=
  c.newRestrictedVerifier.read S.passets.newRestrictedVerifier name
    (fun v => if v.fUndoingRessiue then some v.verifier else none) (fun v => some v.verifier)
    ((S.passetsVerifierCache.get? name).or (S.verifiers.get? name))

/-- `CheckForAddressRootQualifier`: the qualifier or a sub-qualifier is stored. -/
def checkForAddressRootQualifier (S : Store) (address qualifier_name : Bytes) : Bool :=
  decide (∃ t ∈ S.addressQualifier.stored, t.2 = address ∧
    (t.1 = qualifier_name ∨ (qualifier_name ++ [SUB_NAME_DELIMITER]).isPrefixOf t.1 = true))

/-- The root qualifiers noted in memory, then the store. -/
def rootQualifier (qualifier_name address : Bytes) : Bool :=
  decide (c.mapRootQualifierAddressesAdd.getD (qualifier_name, address) ∅ ≠ ∅) ||
  decide (S.passets.mapRootQualifierAddressesAdd.getD (qualifier_name, address) ∅ ≠ ∅) ||
  S.addressQualifier.has (qualifier_name, address) ||
  checkForAddressRootQualifier S address qualifier_name

def checkForAddressQualifier (qualifier_name address : Bytes) : Bool :=
  Pending.mark QualifierType.isAdd c.newQualifierAddress S.passets.newQualifierAddress
    (qualifier_name, address) (rootQualifier S c qualifier_name address)

def checkForAddressRestriction (restricted_name address : Bytes) : Bool :=
  Pending.mark RestrictedType.isFreeze c.newRestrictedAddress S.passets.newRestrictedAddress
    (restricted_name, address) (S.restrictedAddress.has (restricted_name, address))

def checkForGlobalRestriction (restricted_name : Bytes) : Bool :=
  Pending.mark GlobalRestrictedType.isFreeze c.newRestrictedGlobal S.passets.newRestrictedGlobal
    restricted_name (S.globalRestriction.has restricted_name)

/-- What `GetBestAssetAddressAmount` finds and loads. -/
def bestAssetAddressAmount (pair : Bytes × Bytes) : Option CAmount :=
  if E.fAssetIndex then
    ((c.mapAssetsAddressAmount.get? pair).or (S.passets.mapAssetsAddressAmount.get? pair)).or
      (S.assetAddressQuantity.get? pair)
  else none

end CAssetsCache

end Hivecoin

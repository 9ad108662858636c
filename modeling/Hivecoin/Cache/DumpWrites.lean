import Hivecoin.Cache.Flush

/-!
# The writes of a dump

`DumpCacheToDatabase` as the single writes that it makes, of which a process that stops has made the first.
-/

namespace Hivecoin

open CAssetsCache List GlobalRestrictedType

/-- A write to the asset databases; a record without a value is erased. -/
inductive DbWrite where
  | assetData (name : Bytes) (data : Option CDatabasedAssetData)
  | assetAddressQuantity (pair : Bytes × Bytes) (amount : Option CAmount)
  | addressAssetQuantity (pair : Bytes × Bytes) (amount : Option CAmount)
  | verifier (name : Bytes) (verifier : Option Bytes)
  | addressQualifier (key : Bytes × Bytes) (stored : Bool)
  | restrictedAddress (key : Bytes × Bytes) (stored : Bool)
  | globalRestriction (name : Bytes) (stored : Bool)

namespace Store

/-- The write made, memory and the balances by address apart. -/
def write (S : Store) : DbWrite → Store
  | .assetData name data => { S with assetData := S.assetData.put name data }
  | .assetAddressQuantity pair amount => { S with assetAddressQuantity := S.assetAddressQuantity.put pair amount }
  | .addressAssetQuantity _ _ => S
  | .verifier name verifier => { S with verifiers := S.verifiers.put name verifier }
  | .addressQualifier key stored => { S with addressQualifier := S.addressQualifier.record key stored }
  | .restrictedAddress key stored => { S with restrictedAddress := S.restrictedAddress.record key stored }
  | .globalRestriction name stored => { S with globalRestriction := S.globalRestriction.record name stored }

/-- What a process that starts finds: the databases, and no memory. -/
def restart (S : Store) : Store :=
  { S with
    passets := ∅
    passetsCache := ∅
    passetsVerifierCache := ∅
    addressQualifier := ⟨∅, S.addressQualifier.stored⟩
    restrictedAddress := ⟨∅, S.restrictedAddress.stored⟩
    globalRestriction := ⟨∅, S.globalRestriction.stored⟩ }

end Store

/-! ## The loops -/

variable (amounts t : Table (Bytes × Bytes) CAmount) (pair : Bytes × Bytes)

def quantityWrites (amount : Option CAmount) : List DbWrite :=
  [.assetAddressQuantity pair amount, .addressAssetQuantity pair amount]

def balanceWrites (eraseZero : Bool) (pair : Bytes × Bytes) : List DbWrite :=
  match amounts.get? pair with
  | some amount => quantityWrites pair (if eraseZero && amount == 0 then none else some amount)
  | none => []

def positiveWrites : List DbWrite :=
  match amounts.get? pair with
  | some amount => if 0 < amount then quantityWrites pair (some amount) else []
  | none => []

section

variable (E : Env) (p : CAssetsCache)

def indexed (ws : List DbWrite) : List DbWrite := if E.fAssetIndex then ws else []

def removalWrites : List DbWrite :=
  p.newAssets.toRemove.toList.flatMap fun e =>
    .assetData e.1 none :: .verifier e.1 none :: indexed E (quantityWrites (e.1, e.2.address) none)

def issuanceWrites : List DbWrite :=
  p.newAssets.toAdd.toList.flatMap fun e =>
    .assetData e.1 (some ⟨e.2.asset, e.2.blockHeight, e.2.blockHash⟩) ::
      indexed E (quantityWrites (e.1, e.2.address) (some e.2.asset.nAmount))

def transferWrites : List DbWrite :=
  (p.newOwnerAssets.toRemove.toList.flatMap fun e => quantityWrites e none) ++
  (p.newOwnerAssets.toAdd.toList.flatMap (positiveWrites p.mapAssetsAddressAmount)) ++
  (p.newTransferAssets.toRemove.toList.flatMap fun e =>
    balanceWrites p.mapAssetsAddressAmount true (e.2.transfer.strName, e.2.address)) ++
  (p.newTransferAssets.toAdd.toList.flatMap fun e =>
    balanceWrites p.mapAssetsAddressAmount false (e.2.transfer.strName, e.2.address))

/-- The reissued data of an asset, if any, and the balance that goes with it. -/
def reissueWrites (balance : Bytes × Bytes → List DbWrite) (r : CAssetCacheReissueAsset) : List DbWrite :=
  match p.mapReissuedAssetData.get? r.reissue.strName with
  | some asset => .assetData asset.strName (some ⟨asset, r.blockHeight, r.blockHash⟩) ::
      indexed E (balance (r.reissue.strName, r.address))
  | none => []

def verifierWrites : List DbWrite :=
  (p.newRestrictedVerifier.toAdd.toList.map fun e => .verifier e.1 (some e.2.verifier)) ++
  (p.newRestrictedVerifier.toRemove.toList.map fun e =>
    .verifier e.1 (if e.2.fUndoingRessiue then some e.2.verifier else none))

/-- The commands of one kind of mark, those that are undone last. -/
def markWrites {K V : Type} (write : K → Bool → DbWrite) (on : V → Bool) (commands : Pending K V) : List DbWrite :=
  (commands.toAdd.toList.map fun e => write e.1 (on e.2)) ++ (commands.toRemove.toList.map fun e => write e.1 (!on e.2))

def spendWrites : List DbWrite :=
  (p.vUndoAssetAmount.flatMap fun u => balanceWrites p.mapAssetsAddressAmount false (u.assetName, u.address)) ++
  (p.vSpentAssets.flatMap fun s => balanceWrites p.mapAssetsAddressAmount true (s.assetName, s.address))

def dumpWrites : List DbWrite :=
  removalWrites E p ++ issuanceWrites E p ++ indexed E (transferWrites p) ++
  (p.newReissue.toAdd.toList.flatMap fun e => reissueWrites E p (positiveWrites p.mapAssetsAddressAmount) e.2) ++
  ((Store.undoneReissues p).flatMap fun e => reissueWrites E p (balanceWrites p.mapAssetsAddressAmount true) e.2) ++
  verifierWrites p ++
  markWrites .addressQualifier QualifierType.isAdd p.newQualifierAddress ++
  markWrites .restrictedAddress RestrictedType.isFreeze p.newRestrictedAddress ++
  markWrites .globalRestriction isFreeze p.newRestrictedGlobal ++
  indexed E (spendWrites p)

end

theorem foldl_part {A X Y : Type} (π : X → Y) (f : X → A → X) (g : Y → A → Y) (h : ∀ x a, π (f x a) = g (π x) a)
    (l : List A) (x : X) : π (l.foldl f x) = l.foldl g (π x) := by
  induction l generalizing x with
  | nil => rfl
  | cons a l ih => rw [foldl_cons, ih, h, foldl_cons]

theorem foldl_indexed {X : Type} {g : X → DbWrite → X} (E : Env) (ws : List DbWrite) (x : X) :
    (indexed E ws).foldl g x = if E.fAssetIndex then ws.foldl g x else x := by
  unfold indexed
  split <;> rfl

variable (E : Env) (S : Store)

def writeBalance : DbWrite → Table (Bytes × Bytes) CAmount
  | .assetAddressQuantity pair amount => t.put pair amount
  | _ => t

theorem writeBalance_quantity (amount : Option CAmount) :
    (quantityWrites pair amount).foldl writeBalance t = t.put pair amount := rfl

theorem writeBalance_balance (eraseZero : Bool) (pair : Bytes × Bytes) :
    (balanceWrites amounts eraseZero pair).foldl writeBalance t = Store.writeQuantity amounts eraseZero t pair := by
  unfold balanceWrites Store.writeQuantity
  cases amounts.get? pair with
  | none => rfl
  | some amount =>
    dsimp only
    split <;> rfl

theorem writeBalance_positive :
    (positiveWrites amounts pair).foldl writeBalance t = Store.writePositive amounts t pair := by
  unfold positiveWrites Store.writePositive
  cases amounts.get? pair with
  | none => rfl
  | some amount =>
    dsimp only
    split <;> rfl

theorem writeBalance_reissue (p : CAssetsCache) (balance : Bytes × Bytes → List DbWrite) (r : CAssetCacheReissueAsset)
    (t : Table (Bytes × Bytes) CAmount) : (reissueWrites E p balance r).foldl writeBalance t =
      if E.fAssetIndex && p.mapReissuedAssetData.contains r.reissue.strName then
        (balance (r.reissue.strName, r.address)).foldl writeBalance t else t := by
  unfold reissueWrites Table.contains
  cases p.mapReissuedAssetData.get? r.reissue.strName with
  | none => simp
  | some asset => simp [foldl_indexed, writeBalance]

theorem quantities_dumpWrites : ((dumpWrites E S.passets).foldl Store.write S).assetAddressQuantity =
    (S.dumpCacheToDatabase E).assetAddressQuantity := by
  rw [foldl_part Store.assetAddressQuantity Store.write writeBalance fun S w => by cases w <;> rfl]
  simp only [dumpWrites, removalWrites, issuanceWrites, transferWrites, spendWrites, verifierWrites, markWrites,
    foldl_append, foldl_flatMap, foldl_map, foldl_indexed, foldl_cons, writeBalance, foldl_fixed,
    writeBalance_quantity, writeBalance_balance, writeBalance_positive, writeBalance_reissue, Store.dumpCacheToDatabase]
  cases E.fAssetIndex with
  | false => simp only [Bool.false_and, Bool.false_eq_true, if_false, foldl_fixed]
  | true =>
    simp only [Bool.true_and, if_true]
    rfl

end Hivecoin

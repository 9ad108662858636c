import Hivecoin.Base.MachineSums
import Hivecoin.Base.SubsetSum
import Hivecoin.Cache.Update
import Mathlib.Data.List.Sort

/-!
# Selection of asset coins

`SelectAssets`, `SelectAssetsMinConf` and `ApproximateBestAssetSubset` of `wallet.cpp`.
-/

namespace Hivecoin

open MachineSums

def CENT : CAmount := 1000000
def MIN_CHANGE : CAmount := CENT

/-- An output of the wallet, with what the selection asks of its transaction. -/
structure COutput where
  outpoint : COutPoint
  txout : CTxOut
  nDepth : Int
  fFromMe : Bool
  fSpendable : Bool
deriving DecidableEq

/-- Coins are compared by their outpoint. -/
structure CInputCoin where
  outpoint : COutPoint
  txout : CTxOut
deriving DecidableEq

def COutput.coin (output : COutput) : CInputCoin := ⟨output.outpoint, output.txout⟩

/-- The outcomes of the random choices of one selection. -/
structure Randomness where
  shuffle : List COutput → List COutput
  shuffle_perm : ∀ vCoins, (shuffle vCoins).Perm vCoins
  bits : Nat → Nat → Nat → Bool

/-- The settings of the wallet and of the mempool that a selection reads. -/
structure WalletSettings where
  transactionWithinChainLimit : Uint256 → Nat → Bool
  bSpendZeroConfChange : Bool
  fRejectLongChains : Bool
  nMaxChainLength : Nat

/-- `setCoinsRet` and `nValueRet`. -/
structure Selection where
  setCoinsRet : List CInputCoin := []
  nValueRet : CAmount := 0
deriving DecidableEq

def insertCoin (coins : List CInputCoin) (coin : CInputCoin) : List CInputCoin :=
  if coins.any (·.outpoint == coin.outpoint) then coins else coins ++ [coin]

def Selection.add (r : Selection) (coin : CInputCoin × CAmount) : Selection :=
  ⟨insertCoin r.setCoinsRet coin.1, r.nValueRet + coin.2⟩

/-- The confirmations and the chain that a try of the selection allows. -/
structure Eligibility where
  nConfMine : Int
  nConfTheirs : Int
  nMaxAncestors : Nat

section

variable (E : Env) (W : WalletSettings)

/-- The coin of an output with its amount, unless the loop passes it over. -/
def eligibleCoin (p : Eligibility) (output : COutput) : Option (CInputCoin × CAmount) :=
  if !output.fSpendable then none
  else if output.nDepth < (if output.fFromMe then p.nConfMine else p.nConfTheirs) then none
  else if !W.transactionWithinChainLimit output.outpoint.hash p.nMaxAncestors then none
  else (CAssetsCache.spentAsset E output.txout.scriptPubKey).map fun asset => (output.coin, asset.2.2)

/-- The locals of the loop over the coins. -/
structure CoinScan where
  vValue : List (CInputCoin × CAmount) := []
  nTotalLower : CAmount := 0
  coinLowestLarger : Option (CInputCoin × CAmount) := none

/-- One turn of the loop. A coin of exactly the target ends the selection. -/
def scanCoin (nTargetValue : CAmount) (scan : CoinScan) (coin : CInputCoin × CAmount) : Except (CInputCoin × CAmount) CoinScan :=
  if coin.2 = nTargetValue then .error coin
  else if coin.2 < nTargetValue + MIN_CHANGE then
    .ok { scan with vValue := scan.vValue ++ [coin], nTotalLower := scan.nTotalLower + coin.2 }
  else if scan.coinLowestLarger.all fun larger => coin.2 < larger.2 then .ok { scan with coinLowestLarger := some coin }
  else .ok scan

def approximateBestAssetSubset (bits : Nat → Nat → Bool) (vValue : List (CInputCoin × CAmount)) (nTotalLower nTargetValue : CAmount) :
    (Nat → Bool) × CAmount :=
  let st := SubsetSum.search (fun i => (vValue.map Prod.snd).getD i 0) nTargetValue vValue.length nTotalLower bits 1000
  (st.vfBest, st.nBest)

/-- The subset that is approximated, of coins in descending order. -/
def bestSubset (bits : Nat → Nat → Nat → Bool) (vValue : List (CInputCoin × CAmount)) (nTotalLower nTargetValue : CAmount) :
    (Nat → Bool) × CAmount :=
  let best := approximateBestAssetSubset (bits 0) vValue nTotalLower nTargetValue
  if best.2 ≠ nTargetValue ∧ nTargetValue + MIN_CHANGE ≤ nTotalLower then
    approximateBestAssetSubset (bits 1) vValue nTotalLower (nTargetValue + MIN_CHANGE)
  else best

/-- The coins inserted into `setCoinsRet`, in order; `none` where it fails. -/
def chosenCoins (rnd : Randomness) (nTargetValue : CAmount) (coins : List (CInputCoin × CAmount)) :
    Option (List (CInputCoin × CAmount)) :=
  match coins.foldlM (scanCoin nTargetValue) {} with
  | .error coin => some [coin]
  | .ok scan =>
    if scan.nTotalLower = nTargetValue then some scan.vValue
    else if scan.nTotalLower < nTargetValue then scan.coinLowestLarger.map fun coin => [coin]
    else
      let vValue := (scan.vValue.mergeSort fun a b => decide (a.2 ≤ b.2)).reverse
      let (vfBest, nBest) := bestSubset rnd.bits vValue scan.nTotalLower nTargetValue
      match scan.coinLowestLarger with
      | some coin =>
        if (nBest ≠ nTargetValue ∧ nBest < nTargetValue + MIN_CHANGE) ∨ coin.2 ≤ nBest then some [coin]
        else some ((vValue.zipIdx.filter fun p => vfBest p.2).map Prod.fst)
      | none => some ((vValue.zipIdx.filter fun p => vfBest p.2).map Prod.fst)

def selectAssetsMinConf (rnd : Randomness) (nTargetValue : CAmount) (p : Eligibility) (vCoins : List COutput) : Option Selection :=
  (chosenCoins rnd nTargetValue ((rnd.shuffle vCoins).filterMap (eligibleCoin E W p))).map fun coins => coins.foldl .add {}

/-- The tries that are made one after the other. -/
def selectionTries : List Eligibility :=
  [⟨1, 6, 0⟩, ⟨1, 1, 0⟩] ++
    (if W.bSpendZeroConfChange then
      [⟨0, 1, 2⟩, ⟨0, 1, min 4 (W.nMaxChainLength / 3)⟩, ⟨0, 1, W.nMaxChainLength / 2⟩, ⟨0, 1, W.nMaxChainLength⟩] else []) ++
    if W.bSpendZeroConfChange && !W.fRejectLongChains then [⟨0, 1, 2 ^ 64 - 1⟩] else []

/-- `setCoinsRet` and `mapValueRet`. -/
structure AssetSelection where
  setCoinsRet : List CInputCoin := []
  mapValueRet : Table Bytes CAmount := ∅

/-- One turn of the loop over the available assets, with its random choices. -/
def selectAsset (rnd : Bytes → Nat → Randomness) (mapAssetTargetValue : Table Bytes CAmount) (r : AssetSelection)
    (asset : Bytes × List COutput) : Option AssetSelection :=
  match mapAssetTargetValue.get? asset.1 with
  | none => some r
  | some nTempTargetValue =>
    if nTempTargetValue ≤ 0 then some r
    else ((selectionTries W).zipIdx.findSome? fun p =>
        selectAssetsMinConf E W (rnd asset.1 p.2) nTempTargetValue p.1 asset.2).map fun selection =>
      ⟨selection.setCoinsRet.foldl insertCoin r.setCoinsRet, r.mapValueRet.insert asset.1 selection.nValueRet⟩

/-- `SelectAssets` from empty results; `none` where it returns false. -/
def selectAssets (rnd : Bytes → Nat → Randomness) (mapAvailableAssets : Table Bytes (List COutput))
    (mapAssetTargetValue : Table Bytes CAmount) : Option AssetSelection :=
  if !E.areAssetsDeployed then none
  else mapAvailableAssets.toList.foldlM (selectAsset E W rnd mapAssetTargetValue) {}

end

end Hivecoin

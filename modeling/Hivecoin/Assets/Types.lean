import Mathlib.Data.Finset.Basic
import Hivecoin.Base.Table

/-!
# Asset data

The records of `assets/assettypes.h`, `amount.h` and `primitives/transaction.h`, with integers of their width.
-/

namespace Hivecoin

/-- `std::string` and `std::vector<unsigned char>`. -/
abbrev Bytes := List UInt8

abbrev CAmount := Int64

abbrev Uint256 := BitVec 256

def ascii (s : String) : Bytes := s.toList.map fun c => c.toNat.toUInt8

/-! ## Constants -/

def COIN : CAmount := 100000000
def MAX_MONEY : CAmount := 21000000000 * COIN
def MAX_UNIT : Int8 := 8
def OWNER_ASSET_AMOUNT : CAmount := 1 * COIN
def UNIQUE_ASSET_AMOUNT : CAmount := 1 * COIN
def UNIQUE_ASSET_UNITS : Int8 := 0
def QUALIFIER_ASSET_MIN_AMOUNT : CAmount := 1 * COIN
def QUALIFIER_ASSET_MAX_AMOUNT : CAmount := 10 * COIN
def QUALIFIER_ASSET_UNITS : Int8 := 0
def MIN_ASSET_LENGTH : Nat := 3
def OWNER_LENGTH : Nat := 1

def OWNER_TAG : Bytes := ascii "!"
def RESTRICTED_CHAR : UInt8 := 36
def QUALIFIER_CHAR : UInt8 := 35

def moneyRange (nValue : CAmount) : Bool := 0 ≤ nValue && nValue ≤ MAX_MONEY

inductive AssetType where
  | ROOT | SUB | UNIQUE | MSGCHANNEL | QUALIFIER | SUB_QUALIFIER | RESTRICTED | VOTE | REISSUE | OWNER
  | NULL_ADD_QUALIFIER | INVALID
deriving DecidableEq, Repr

inductive QualifierType where
  | REMOVE_QUALIFIER | ADD_QUALIFIER
deriving DecidableEq, Repr

/-- The members of `RestrictedType` that a change of an address carries. -/
inductive RestrictedType where
  | UNFREEZE_ADDRESS | FREEZE_ADDRESS
deriving DecidableEq, Repr

/-- The members of `RestrictedType` that a global change carries. -/
inductive GlobalRestrictedType where
  | GLOBAL_UNFREEZE | GLOBAL_FREEZE
deriving DecidableEq, Repr

inductive TxnOutType where
  | TX_NONSTANDARD | TX_PUBKEY | TX_PUBKEYHASH | TX_SCRIPTHASH | TX_MULTISIG | TX_NULL_DATA
  | TX_RESTRICTED_ASSET_DATA | TX_WITNESS_V0_SCRIPTHASH | TX_WITNESS_V0_KEYHASH
  | TX_NEW_ASSET | TX_REISSUE_ASSET | TX_TRANSFER_ASSET
deriving DecidableEq, Repr

inductive CTxDestination where
  | none
  | keyID (hash : Bytes)
  | scriptID (hash : Bytes)
deriving DecidableEq, Repr

structure CNewAsset where
  strName : Bytes
  nAmount : CAmount
  units : Int8
  nReissuable : Int8
  nHasIPFS : Int8
  strIPFSHash : Bytes
deriving DecidableEq

structure CAssetTransfer where
  strName : Bytes
  nAmount : CAmount
  message : Bytes
  nExpireTime : Int64
deriving DecidableEq

structure CReissueAsset where
  strName : Bytes
  nAmount : CAmount
  nUnits : Int8
  nReissuable : Int8
  strIPFSHash : Bytes
deriving DecidableEq

structure CNullAssetTxData where
  asset_name : Bytes
  flag : Int8
deriving DecidableEq

structure CAssetOutputEntry where
  type : TxnOutType
  assetName : Bytes
  destination : CTxDestination
  nAmount : CAmount
  message : Bytes
  expireTime : Int64
deriving DecidableEq

structure COutPoint where
  hash : Uint256
  n : Nat
deriving DecidableEq

def COutPoint.isNull (o : COutPoint) : Bool := o.hash == 0 && o.n == 4294967295

structure CTxIn where
  prevout : COutPoint
  scriptSig : Bytes
deriving DecidableEq

structure CTxOut where
  nValue : CAmount
  scriptPubKey : Bytes
deriving DecidableEq

/-- A transaction with its id, which the program computes once. -/
structure CTransaction where
  vin : List CTxIn
  vout : List CTxOut
  hash : Uint256
deriving DecidableEq

def CTransaction.isCoinBase (tx : CTransaction) : Bool :=
  match tx.vin with
  | [txin] => txin.prevout.isNull
  | _ => false

structure Coin where
  out : CTxOut
  nHeight : Nat
  fCoinBase : Bool
deriving DecidableEq

end Hivecoin

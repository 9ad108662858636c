import Hivecoin.Base.Writes
import Hivecoin.Chain.Block

/-!
# The address, address-unspent and spent indexes

The entries that blocks collect and the batches of `txdb.cpp` that write them.
-/

namespace Hivecoin

open Outcome

/-- The name under which the indexes file the coin of the chain itself. -/
def HVN : Bytes := ascii "HVQ"

namespace Script

def isPayToPublicKeyHash (s : Bytes) : Bool :=
  s.length == 25 && byteAt s 0 == OP_DUP && byteAt s 1 == OP_HASH160 && byteAt s 2 == 0x14 && byteAt s 23 == OP_EQUALVERIFY &&
    byteAt s 24 == OP_CHECKSIG

def isPayToPublicKey (s : Bytes) : Bool :=
  if s.length = 35 then (byteAt s 1 == 0x02 || byteAt s 1 == 0x03) && byteAt s 34 == OP_CHECKSIG
  else s.length == 67 && byteAt s 1 == 0x04 && byteAt s 66 == OP_CHECKSIG

end Script

structure CAddressIndexKey where
  type : Nat
  hashBytes : Bytes
  asset : Bytes
  blockHeight : Nat
  txindex : Nat
  txhash : Uint256
  index : Nat
  spending : Bool
deriving DecidableEq

structure CAddressUnspentKey where
  type : Nat
  hashBytes : Bytes
  asset : Bytes
  txhash : Uint256
  index : Nat
deriving DecidableEq

structure CAddressUnspentValue where
  satoshis : CAmount
  script : Bytes
  blockHeight : Nat
deriving DecidableEq

def CAddressUnspentValue.null : CAddressUnspentValue := ⟨-1, [], 0⟩

def CAddressUnspentValue.isNull (value : CAddressUnspentValue) : Bool := value.satoshis == -1

/-- The height is `-1` in the mempool. -/
structure CSpentIndexValue where
  txid : Uint256
  inputIndex : Nat
  blockHeight : Int
  satoshis : CAmount
  addressType : Nat
  addressHash : Bytes
deriving DecidableEq

def CSpentIndexValue.null : CSpentIndexValue := ⟨0, 0, 0, 0, 0, List.replicate 20 0⟩

def CSpentIndexValue.isNull (value : CSpentIndexValue) : Bool := value.txid == 0

namespace Env

variable (E : Env)

def parseAssetScript (script : Bytes) : Option (Bytes × Bytes × CAmount) :=
  (E.getAssetData script).map fun data => ((script.drop 3).take 20, data.assetName, data.nAmount)

/-- Type, address, asset and amount of an output in the address index. -/
def addressOfOut (out : CTxOut) : Option (Nat × Bytes × Bytes × CAmount) :=
  let script := out.scriptPubKey
  if Script.isPayToScriptHash script then some (2, (script.drop 2).take 20, HVN, out.nValue)
  else if Script.isPayToPublicKeyHash script then some (1, (script.drop 3).take 20, HVN, out.nValue)
  else if Script.isPayToPublicKey script then some (1, E.hash160 (script.tail.dropLast), HVN, out.nValue)
  else if E.areAssetsDeployed then (E.parseAssetScript script).map fun (hashBytes, assetName, assetAmount) => (1, hashBytes, assetName, assetAmount)
  else none

/-- The output that `AccessCoin` reports; a missing coin is an empty one. -/
def accessOut (view : CoinsView) (out : COutPoint) : CTxOut := ((view out).map (·.out)).getD ⟨-1, []⟩

end Env

/-! ## The databases -/

structure IndexOptions where
  fAddressIndex : Bool
  fSpentIndex : Bool

structure Indexes where
  addressIndex : Table CAddressIndexKey CAmount
  addressUnspentIndex : Table CAddressUnspentKey CAddressUnspentValue
  spentIndex : Table COutPoint CSpentIndexValue

instance : EmptyCollection Indexes := ⟨⟨∅, ∅, ∅⟩⟩

structure IndexEntries where
  addressIndex : List (CAddressIndexKey × CAmount)
  addressUnspentIndex : List (CAddressUnspentKey × CAddressUnspentValue)
  spentIndex : List (COutPoint × CSpentIndexValue)

instance : EmptyCollection IndexEntries := ⟨⟨[], [], []⟩⟩

instance : Append IndexEntries :=
  ⟨fun a b => ⟨a.addressIndex ++ b.addressIndex, a.addressUnspentIndex ++ b.addressUnspentIndex, a.spentIndex ++ b.spentIndex⟩⟩

namespace Indexes

variable (db : Indexes)

def writeAddressIndex (vect : List (CAddressIndexKey × CAmount)) : Indexes :=
  { db with addressIndex := Writes.putAll (vect.map fun e => (e.1, some e.2)) db.addressIndex }

def eraseAddressIndex (vect : List (CAddressIndexKey × CAmount)) : Indexes :=
  { db with addressIndex := Writes.putAll (vect.map fun e => (e.1, none)) db.addressIndex }

def updateAddressUnspentIndex (vect : List (CAddressUnspentKey × CAddressUnspentValue)) : Indexes :=
  { db with addressUnspentIndex :=
      Writes.putAll (vect.map fun e => (e.1, if e.2.isNull then none else some e.2)) db.addressUnspentIndex }

def updateSpentIndex (vect : List (COutPoint × CSpentIndexValue)) : Indexes :=
  { db with spentIndex := Writes.putAll (vect.map fun e => (e.1, if e.2.isNull then none else some e.2)) db.spentIndex }

/-- What `ConnectBlock` writes at its end. -/
def connect (O : IndexOptions) (entries : IndexEntries) : Indexes :=
  let db := if O.fAddressIndex then
    (db.writeAddressIndex entries.addressIndex).updateAddressUnspentIndex entries.addressUnspentIndex else db
  if O.fSpentIndex then db.updateSpentIndex entries.spentIndex else db

/-- What `DisconnectBlock` writes at its end, without a call of `UpdateSpentIndex`. -/
def disconnect (O : IndexOptions) (entries : IndexEntries) : Indexes :=
  if O.fAddressIndex then
    (db.eraseAddressIndex entries.addressIndex).updateAddressUnspentIndex entries.addressUnspentIndex
  else db

end Indexes

section

variable (E : Env) (S : Store) (R : Rules) (O : IndexOptions)

/-- The key of an output's or input's record in the address index. -/
def activityKey (address : Nat × Bytes × Bytes × CAmount) (nHeight txindex : Nat) (txhash : Uint256) (index : Nat) (spending : Bool) :
    CAddressIndexKey :=
  ⟨address.1, address.2.1, address.2.2.1, nHeight, txindex, txhash, index, spending⟩

def unspentKey (address : Nat × Bytes × Bytes × CAmount) (out : COutPoint) : CAddressUnspentKey :=
  ⟨address.1, address.2.1, address.2.2.1, out.hash, out.n⟩

def unspentValue (address : Nat × Bytes × Bytes × CAmount) (script : Bytes) (nHeight : Nat) : CAddressUnspentValue :=
  ⟨address.2.2.2, script, nHeight⟩

variable (nHeight i : Nat) (tx : CTransaction)

/-- Type and address in the spent index; type 0 where the address index knows none. -/
def spentIndexValue (j nHeight : Nat) (prevout : CTxOut) : CSpentIndexValue :=
  match E.addressOfOut prevout with
  | some address => ⟨tx.hash, j, nHeight, prevout.nValue, address.1, address.2.1⟩
  | none => ⟨tx.hash, j, nHeight, prevout.nValue, 0, List.replicate 20 0⟩

def inputEntries (prevout : CTxOut) (input : CTxIn × Nat) : IndexEntries where
  addressIndex := if O.fAddressIndex then (E.addressOfOut prevout).toList.map fun address =>
      (activityKey address nHeight i tx.hash input.2 true, address.2.2.2 * -1)
    else []
  addressUnspentIndex := if O.fAddressIndex then (E.addressOfOut prevout).toList.map fun address =>
      (unspentKey address input.1.prevout, .null)
    else []
  spentIndex := if O.fSpentIndex then [(input.1.prevout, spentIndexValue E tx input.2 nHeight prevout)] else []

def outputEntries (output : CTxOut × Nat) : IndexEntries where
  addressIndex := if O.fAddressIndex then (E.addressOfOut output.1).toList.map fun address =>
      (activityKey address nHeight i tx.hash output.2 false, address.2.2.2)
    else []
  addressUnspentIndex := if O.fAddressIndex then (E.addressOfOut output.1).toList.map fun address =>
      (unspentKey address ⟨tx.hash, output.2⟩, unspentValue address output.1.scriptPubKey nHeight)
    else []
  spentIndex := []

def collect (entries : List IndexEntries) : IndexEntries := entries.foldl (· ++ ·) ∅

def connectEntries (view : CoinsView) (entry : CTransaction × Nat) : IndexEntries :=
  let (tx, i) := entry
  let inputs := if tx.isCoinBase then [] else tx.vin.zipIdx
  collect (inputs.map fun input => inputEntries E O nHeight i tx (Env.accessOut view input.1.prevout) input) ++
    collect (tx.vout.zipIdx.map (outputEntries E O nHeight i tx))

/-- One transaction of the loop of `ConnectBlock`, with the entries so far. -/
def connectTxIndexed (mempool : MempoolMaps) (block : CBlock) (st : ConnectState × IndexEntries) (entry : CTransaction × Nat) :
    Except Reject (ConnectState × IndexEntries) := do
  let cs ← connectTx E S R mempool block st.1 entry.1
  return (cs, st.2 ++ connectEntries E O block.nHeight st.1.view entry)

def connectBlockIndexed (mempool : MempoolMaps) (view : CoinsView) (assets : CAssetsCache) (db : Indexes) (block : CBlock) :
    Except Reject (ConnectState × Indexes) := do
  checkBlock E R block
  let st ← block.vtx.zipIdx.foldlM (connectTxIndexed E S R O mempool block) (⟨view, assets, 0, ⟨[], []⟩⟩, ∅)
  require (R.reward block st.1.nFees) ⟨100, "bad-cb-amount"⟩
  return (st.1, db.connect O st.2)

def undoOutputEntries (output : CTxOut × Nat) : IndexEntries where
  addressIndex := if O.fAddressIndex then (E.addressOfOut output.1).toList.map fun address =>
      (activityKey address nHeight i tx.hash output.2 false, address.2.2.2)
    else []
  addressUnspentIndex := if O.fAddressIndex then (E.addressOfOut output.1).toList.map fun address =>
      (unspentKey address ⟨tx.hash, output.2⟩, .null)
    else []
  spentIndex := []

/-- What `DisconnectBlock` collects for an input. The entries of a pay-to-pubkey coin are those of an output at its position. -/
def undoInputEntries (prevout : CTxOut) (nCoinHeight : Nat) (input : CTxIn × Nat) :
    IndexEntries where
  addressIndex := if O.fAddressIndex then
      if Script.isPayToPublicKey prevout.scriptPubKey then
        [(⟨1, E.hash160 prevout.scriptPubKey.tail.dropLast, HVN, nHeight, i, tx.hash, input.2, false⟩, prevout.nValue)]
      else (E.addressOfOut prevout).toList.map fun address =>
        (activityKey address nHeight i tx.hash input.2 true, address.2.2.2 * -1)
    else []
  addressUnspentIndex := if O.fAddressIndex then
      if Script.isPayToPublicKey prevout.scriptPubKey then
        [(⟨1, E.hash160 prevout.scriptPubKey.tail.dropLast, HVN, tx.hash, input.2⟩, .null)]
      else (E.addressOfOut prevout).toList.map fun address =>
        (unspentKey address input.1.prevout, unspentValue address prevout.scriptPubKey nCoinHeight)
    else []
  spentIndex := if O.fSpentIndex then [(input.1.prevout, .null)] else []

/-- One input that comes back, with the entries so far. -/
def restoreInputIndexed (st : DisconnectState × IndexEntries) (input : (CTxIn × Coin) × Nat) :
    Option (DisconnectState × IndexEntries) := do
  let ((txin, undo), j) := input
  let ds ← applyTxInUndo E S st.1 undo txin.prevout
  -- `ApplyTxInUndo` has set the height of old undo data in place
  let coin ← restoredCoin st.1.view undo txin.prevout
  return (ds, st.2 ++ undoInputEntries E O nHeight i tx (Env.accessOut ds.view txin.prevout) coin.nHeight (txin, j))

def restoreInputsIndexed (st : DisconnectState × IndexEntries) (vprevout : List Coin) :
    Option (DisconnectState × IndexEntries) :=
  if vprevout.length ≠ tx.vin.length then none
  else (tx.vin.zip vprevout).zipIdx.reverse.foldlM (restoreInputIndexed E S O nHeight i tx) st

def disconnectTxIndexed (vUndo : List (Bytes × CBlockAssetUndo)) (st : DisconnectState × IndexEntries)
    (entry : (CTransaction × Option (List Coin)) × Nat) : Option (DisconnectState × IndexEntries) := do
  let ((tx, txundo), i) := entry
  let entries := st.2 ++ collect (tx.vout.zipIdx.reverse.map (undoOutputEntries E O nHeight i tx))
  let ds := tx.vout.zipIdx.foldl (removeOutCoin E S tx nHeight) st.1
  let assets ← removeAssets E S ds.assets tx vUndo
  match txundo with
  | some vprevout => restoreInputsIndexed E S O nHeight i tx ({ ds with assets }, entries) vprevout
  | none => some ({ ds with assets }, entries)

/-- The indexes are written unless the block cannot be undone at all. -/
def disconnectBlockIndexed (view : CoinsView) (assets : CAssetsCache) (db : Indexes) (block : CBlock) (undo : CBlockUndo) :
    DisconnectResult × CoinsView × CAssetsCache × Indexes :=
  if undo.vtxundo.length + 1 ≠ block.vtx.length then (.DISCONNECT_FAILED, view, assets, db)
  else
    let entries := (block.vtx.zip (none :: undo.vtxundo.map some)).zipIdx
    match entries.reverse.foldlM (disconnectTxIndexed E S O block.nHeight undo.vUndoAssetData) (⟨view, assets, assets, true⟩, ∅) with
    | some (ds, entries) => (if ds.fClean then .DISCONNECT_OK else .DISCONNECT_UNCLEAN, ds.view, ds.assets, db.disconnect O entries)
    | none => (.DISCONNECT_FAILED, view, assets, db)

structure IndexedNode where
  chain : ChainState
  db : Indexes

def connectTipIndexed (mempool : MempoolMaps) (node : IndexedNode) (block : CBlock) : Except Reject (IndexedNode × CBlockUndo) := do
  let (cs, db) ← connectBlockIndexed E node.chain.store R O mempool node.chain.coins ∅ node.db block
  return (⟨⟨cs.view, node.chain.store.flush cs.assets⟩, db⟩, cs.undo)

def disconnectTipIndexed (node : IndexedNode) (block : CBlock) (undo : CBlockUndo) : Option IndexedNode :=
  match disconnectBlockIndexed E node.chain.store O node.chain.coins ∅ node.db block undo with
  | (.DISCONNECT_OK, view, assets, db) => some ⟨⟨view, node.chain.store.flush assets⟩, db⟩
  | _ => none

end

end Hivecoin

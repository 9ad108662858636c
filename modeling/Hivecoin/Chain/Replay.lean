import Hivecoin.Base.Writes
import Hivecoin.Chain.BlockIndex

/-!
# The coin database and its recovery

`CCoinsViewDB::BatchWrite` with the states that its batches leave, and `ReplayBlocks`.
-/

namespace Hivecoin

open Outcome CAssetsCache

/-- An entry of the coin cache as it is written: a spent coin is erased. -/
abbrev CoinWrite := COutPoint × Option Coin

structure CCoinsViewDB where
  coins : CoinsView
  bestBlock : Option Uint256
  headBlocks : List Uint256

namespace CCoinsViewDB

/-- `GetBestBlock`, null where nothing is stored. -/
def getBestBlock (db : CCoinsViewDB) : Uint256 := db.bestBlock.getD 0

/-- The tip that the database comes from; `none` where an assertion fails. -/
def oldTip (db : CCoinsViewDB) (hashBlock : Uint256) : Option Uint256 :=
  if db.getBestBlock = 0 then
    match db.headBlocks with
    -- in the middle of replaying
    | [head, old] => if head = hashBlock then some old else none
    | _ => some 0
  else some db.getBestBlock

/-- The databases after each batch. The last marks the database as consistent. -/
def writeBatches (hashBlock old_tip : Uint256) (last : List CoinWrite) :
    CCoinsViewDB → List (List CoinWrite) → List CCoinsViewDB
  | db, [] => [⟨Writes.run last db.coins, some hashBlock, []⟩]
  | db, batch :: batches =>
    let db : CCoinsViewDB := ⟨Writes.run batch db.coins, none, [hashBlock, old_tip]⟩
    db :: writeBatches hashBlock old_tip last db batches

/-- `BatchWrite` with the entries as they are split into batches. -/
def batchWrite (db : CCoinsViewDB) (batches : List (List CoinWrite)) (last : List CoinWrite) (hashBlock : Uint256) :
    Option (List CCoinsViewDB) :=
  (db.oldTip hashBlock).map fun old_tip => writeBatches hashBlock old_tip last db batches

end CCoinsViewDB

/-- The entries that a cache over `base` writes: what it holds, for all coins it changed. -/
def DirtyEntries (base view : CoinsView) (entries : List CoinWrite) : Prop :=
  (∀ entry ∈ entries, entry.2 = view entry.1) ∧ ∀ out, out ∉ Writes.keys entries → view out = base out

/-! ## ReplayBlocks -/

/-- What can be read back of blocks and undo data, by the hash of the block. -/
structure BlockFiles where
  block : Uint256 → Option CBlock
  undo : Uint256 → Option CBlockUndo

structure ReplayState where
  view : CoinsView
  assets : CAssetsCache

def CoinsView.spend (view : CoinsView) (out : COutPoint) : CoinsView :=
  match view out with
  | none => view
  | some _ => view.remove out

def rollforwardTx (nHeight : Nat) (view : CoinsView) (tx : CTransaction) : CoinsView :=
  let view := if tx.isCoinBase then view else tx.vin.foldl (fun view txin => view.spend txin.prevout) view
  addOutCoins view tx nHeight

section

variable (E : Env) (S : Store) (files : BlockFiles) (hashGenesisBlock : Uint256)

def rollforwardBlock (pindex : CBlockIndex) (view : CoinsView) : Except String CoinsView := do
  let block ← orError (files.block (pindex.hash hashGenesisBlock)) "ReplayBlock(): ReadBlockFromDisk failed"
  return block.vtx.foldl (rollforwardTx pindex.nHeight) view

/-- One block of the old branch, undone cleanly or not. -/
def rollbackBlock (pindex : CBlockIndex) (st : ReplayState) : Except String ReplayState :=
  if pindex.nHeight > 0 then do
    let block ← orError (files.block (pindex.hash hashGenesisBlock)) "RollbackBlock(): ReadBlockFromDisk() failed"
    let undo ← orError (files.undo (pindex.hash hashGenesisBlock)) "RollbackBlock(): DisconnectBlock failed"
    match disconnectBlock E S st.view st.assets block undo with
    | (.DISCONNECT_FAILED, _, _) => .error "RollbackBlock(): DisconnectBlock failed"
    | (_, view, assets) => return ⟨view, assets⟩
  else return st

/-- The loop down the old branch, into a null pointer below the genesis block. -/
def rollback (pindexFork : CBlockIndex) : CBlockIndex → ReplayState → Except String ReplayState
  | .genesis, st => if .genesis = pindexFork then .ok st else .error "pindexOld"
  | .next pprev block, st =>
    if .next pprev block = pindexFork then .ok st
    else do rollback pindexFork pprev (← rollbackBlock E S files hashGenesisBlock (.next pprev block) st)

def rollforward (pindexNew : CBlockIndex) (nForkHeight : Nat) (view : CoinsView) : Except String CoinsView :=
  (List.range' (nForkHeight + 1) (pindexNew.nHeight - nForkHeight)).foldlM (fun view nHeight => do
    let pindex ← orError (pindexNew.getAncestor nHeight) "pindexNew"
    rollforwardBlock files hashGenesisBlock pindex view) view

def rollbackTo (mapBlockIndex : Uint256 → Option CBlockIndex) (pindexNew : CBlockIndex) (hashOld : Uint256)
    (st : ReplayState) : Except String (Option CBlockIndex × ReplayState) :=
  if hashOld = 0 then return (none, st)
  else do
    let pindexOld ← orError (mapBlockIndex hashOld) "ReplayBlocks(): reorganization from unknown block requested"
    let pindexFork ← orError (pindexOld.lastCommonAncestor pindexNew) "pindexFork"
    return (some pindexFork, ← rollback E S files hashGenesisBlock pindexFork pindexOld st)

/-- What `ReplayBlocks` flushes, with the best block of the coins. -/
structure Replayed where
  view : CoinsView
  hashBlock : Uint256
  assets : CAssetsCache

/-- `ReplayBlocks` up to its flush; `none` is a database that needs no recovery. -/
def replayBlocks (mapBlockIndex : Uint256 → Option CBlockIndex) (db : CCoinsViewDB) : Except String (Option Replayed) :=
  match db.headBlocks with
  | [] => return none
  | [hashNew, hashOld] => do
      let pindexNew ← orError (mapBlockIndex hashNew) "ReplayBlocks(): reorganization to unknown block requested"
      let (pindexFork, st) ← rollbackTo E S files hashGenesisBlock mapBlockIndex pindexNew hashOld
        ⟨db.coins, S.passets⟩
      let view ← rollforward files hashGenesisBlock pindexNew (pindexFork.elim 0 CBlockIndex.nHeight) st.view
      return some ⟨view, pindexNew.hash hashGenesisBlock, st.assets⟩
  | _ => .error "ReplayBlocks(): unknown inconsistent state"

end

end Hivecoin

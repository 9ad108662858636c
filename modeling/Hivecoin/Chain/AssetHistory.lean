import Hivecoin.Chain.UndoMetadata

/-!
# The asset history of a chain

What the blocks of a chain say about an asset, and runs from an empty state on.
-/

namespace Hivecoin

open CAssetsCache

def txEvents (E : Env) (tx : CTransaction) : List AssetEvent := if E.areAssetsDeployed then kindEvents E tx else []

def txEventsOf (E : Env) (name : Bytes) (tx : CTransaction) : List AssetEvent :=
  (txEvents E tx).filter fun e => e.name == name

structure ConnectedBlock where
  env : Env
  block : CBlock
  undo : CBlockUndo

def ConnectedBlock.events (b : ConnectedBlock) (name : Bytes) : List AssetEvent :=
  b.block.vtx.flatMap (txEventsOf b.env name)

variable (chain : List ConnectedBlock)

def chainEvents (name : Bytes) : List AssetEvent := chain.flatMap fun b => b.events name

/-- An asset with reissues: amounts add up, the rest is as last changed. -/
def reissuedData (asset : CNewAsset) (rs : List CReissueAsset) : CNewAsset :=
  { asset with
    nAmount := asset.nAmount + reissuedAmount rs
    nReissuable := (lastSet (fun r => some r.nReissuable) rs).getD asset.nReissuable
    units := (lastSet CReissueAsset.setUnits rs).getD asset.units
    nHasIPFS := if (lastSet CReissueAsset.setHash rs).isSome then 1 else asset.nHasIPFS
    strIPFSHash := (lastSet CReissueAsset.setHash rs).getD asset.strIPFSHash }

/-- The data of a name: its issuance with the reissues after it. -/
def historyData (es : List AssetEvent) : Option CNewAsset :=
  match es.dropWhile fun e => !e.isIssue with
  | .issue asset _ _ :: later => some (reissuedData asset (reissuesOf later))
  | _ => none

def chainData (name : Bytes) : Option CNewAsset := historyData (chainEvents chain name)

namespace AssetEvent

/-- One more event: only the first issuance counts. -/
def applyTo (data : Option CNewAsset) : AssetEvent → Option CNewAsset
  | issue asset _ _ => data.or (some asset)
  | reissue r _ => data.map fun asset => applyReissue asset r

end AssetEvent

variable {es : List AssetEvent} {name : Bytes}

theorem foldl_applyTo_some (m : CNewAsset) (es : List AssetEvent) :
    es.foldl AssetEvent.applyTo (some m) = some ((reissuesOf es).foldl applyReissue m) := by
  induction es generalizing m with
  | nil => rfl
  | cons e es ih =>
    cases e with
    | issue a v u => exact ih m
    | reissue r v => exact ih (applyReissue m r)

theorem foldl_applyTo_of_no_issue (h : es.any AssetEvent.isIssue = false) : es.foldl AssetEvent.applyTo none = none := by
  induction es with
  | nil => rfl
  | cons e es ih =>
    cases e with
    | issue a v u => cases h
    | reissue r v => exact ih h

theorem historyData_eq (es : List AssetEvent) : historyData es = es.foldl AssetEvent.applyTo none := by
  induction es with
  | nil => rfl
  | cons e es ih =>
    cases e with
    | reissue r v => exact ih
    | issue a v u => exact ((foldl_applyTo_some a es).trans (congrArg some (foldl_applyReissue a _))).symm

theorem isSome_foldl_applyTo (data : Option CNewAsset) (es : List AssetEvent) :
    (es.foldl AssetEvent.applyTo data).isSome = (data.isSome || es.any AssetEvent.isIssue) := by
  induction es generalizing data with
  | nil => simp
  | cons e es ih =>
    rw [List.foldl_cons, ih]
    cases e <;> cases data <;> simp [AssetEvent.applyTo, AssetEvent.isIssue]

theorem chainData_isSome (name : Bytes) :
    (chainData chain name).isSome = (chainEvents chain name).any AssetEvent.isIssue := by
  rw [chainData, historyData_eq, isSome_foldl_applyTo, Option.isSome_none, Bool.false_or]

theorem chainData_append_singleton (b : ConnectedBlock) (name : Bytes) :
    chainData (chain ++ [b]) name = (b.events name).foldl AssetEvent.applyTo (chainData chain name) := by
  rw [chainData, chainData, historyData_eq, historyData_eq, chainEvents, List.flatMap_append, List.foldl_append,
    List.flatMap_singleton]
  rfl

/-- Blocks are connected, the last block is disconnected with its undo data, `passets` is dumped and the LRU caches change. `ids`
gives the transaction of an id; `allowed` can keep blocks from being disconnected. -/
inductive ChainRun (ids : Uint256 → CTransaction)
    (allowed : List ConnectedBlock → ConnectedBlock → Env → Store → Prop) : List ConnectedBlock → ChainState → Prop
  | start (coins : CoinsView) : ChainRun ids allowed [] ⟨coins, ∅⟩
  | connect {chain : List ConnectedBlock} {st st' E R mempool block undo} (h : ChainRun ids allowed chain st) (hE : E.fReindex = false)
      (hids : ∀ tx ∈ block.vtx, ids tx.hash = tx) (hblock : connectTip E R mempool st block = .ok (st', undo)) :
      ChainRun ids allowed (chain ++ [⟨E, block, undo⟩]) st'
  | disconnect {chain : List ConnectedBlock} {b st st' E}
      (h : ChainRun ids allowed (chain ++ [b]) st) (hE : E.fReindex = false) (hallowed : allowed chain b E st.store)
      (hblock : disconnectTip E st b.block b.undo = some st') : ChainRun ids allowed chain st'
  | dump {chain : List ConnectedBlock} {st} (E : Env) (h : ChainRun ids allowed chain st) :
      ChainRun ids allowed chain ⟨st.coins, st.store.dumpCacheToDatabase E⟩
  | cacheEvent {chain : List ConnectedBlock} {st} (event : Store.CacheEvent)
      (h : ChainRun ids allowed chain st) : ChainRun ids allowed chain ⟨st.coins, st.store.cacheEvent event⟩

/-- The asset exists just where the chain has its issuance, and its data is that of the chain. -/
structure FollowsChain (E : Env) (chain : List ConnectedBlock) (S : Store) (name : Bytes) : Prop where
  agree : checkIfAssetExists E S ∅ name = (getAssetMetaDataIfExists E S ∅ name).isSome
  found : checkIfAssetExists E S ∅ name = true ↔ ∃ e ∈ chainEvents chain name, e.isIssue = true
  data : (getAssetMetaDataIfExists E S ∅ name).map CDatabasedAssetData.asset = chainData chain name

/-- The last block can be undone for the name: it is classified as before; an asset that it issues is not reissued in it, nor has
reissued data in memory; of others, reissues are undone to what they changed. -/
structure Undoable (name : Bytes) (chain : List ConnectedBlock) (b : ConnectedBlock) (E : Env) (S : Store) : Prop where
  classified : ∀ tx ∈ b.block.vtx, txEventsOf E name tx = txEventsOf b.env name tx
  issued : chainData chain name = none → (b.events name).any AssetEvent.isIssue = true →
    S.passets.mapReissuedAssetData.get? name = none ∧ revertedReissues true (b.events name) = []
  reissued : ∀ m, chainData chain name = some m → (b.events name).any AssetEvent.isIssue = false ∧
    Reverts m (firstChange (b.events name)) (reissuesOf (b.events name)) (reissuesOf (b.events name))

end Hivecoin

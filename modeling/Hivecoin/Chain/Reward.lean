import Hivecoin.Chain.BlockIndex
import Hivecoin.Chain.DuplicateIssue
import Hivecoin.Tx.Conservation

/-!
# Block rewards and accepted chains

`GetBlockSubsidy`, the rule for the coinbase, and the chains that a node builds from genesis.
-/

namespace Hivecoin

open List

variable {blocks : List CBlock} {st : ChainState}

/-- The parameters of a network that the reward depends on. -/
structure ChainParams where
  nSubsidyHalvingInterval : Nat
  communityAutonomousAddress : Bytes
  communityAutonomousAmount : CAmount

def getBlockSubsidy (P : ChainParams) (nHeight : Nat) : CAmount :=
  let halvings := nHeight / P.nSubsidyHalvingInterval
  if halvings ≥ 64 then 0 else (5000 * COIN) >>> Int64.ofNat halvings

/-- The coinbase pays at most fees and subsidy, with the community's share second. -/
def checkReward (E : Env) (P : ChainParams) (block : CBlock) (nFees : CAmount) : Bool :=
  let nSubsidy := getBlockSubsidy P block.nHeight
  match block.vtx.head? with
  | none => false
  | some coinbase =>
    (match getValueOut E coinbase with
      | .ok nValueOut => nValueOut ≤ nFees + nSubsidy
      | .error _ => false) &&
    match coinbase.vout.getD 1 ⟨-1, []⟩ with
    | ⟨nValue, scriptPubKey⟩ => nValue == nSubsidy * P.communityAutonomousAmount / 100 &&
        scriptPubKey == scriptForDestination (E.decodeDestination P.communityAutonomousAddress)

def Rules.withReward (R : Rules) (E : Env) (P : ChainParams) : Rules := { R with reward := checkReward E P }

/-- The chains that are accepted from genesis. Between blocks `passets` may be dumped and the LRU caches may change. -/
inductive AcceptedChain (P : ChainParams) (R : Rules) : List (Env × CBlock) → ChainState → Prop
  | genesis : AcceptedChain P R [] ⟨fun _ => none, ∅⟩
  | connect {chain st st' undo E block mempool} (h : AcceptedChain P R chain st) (hheight : block.nHeight = chain.length + 1)
      (hblock : connectTip E (R.withReward E P) mempool st block = .ok (st', undo)) :
      AcceptedChain P R (chain ++ [(E, block)]) st'
  | dump {chain st} (E : Env) (h : AcceptedChain P R chain st) :
      AcceptedChain P R chain ⟨st.coins, st.store.dumpCacheToDatabase E⟩
  | cacheEvent {chain st} (event : Store.CacheEvent) (h : AcceptedChain P R chain st) :
      AcceptedChain P R chain ⟨st.coins, st.store.cacheEvent event⟩

/-- What a program with `E` reads at a moment: whether it reindexes, and an unset `int`. -/
def Env.during (E : Env) (fReindex : Bool) (uninitialised : Int) : Env := { E with fReindex, uninitialised }

structure StepConditions where
  connect : Env → ChainState → CBlock → Prop
  disconnect : Env → ChainState → CBlock → CBlockUndo → Prop
  dump : Store → Prop

def StepConditions.none : StepConditions := ⟨fun _ _ _ => True, fun _ _ _ _ => True, fun _ => True⟩

/-- Blocks are connected, the last block is disconnected with its undo data, `passets` is dumped and the LRU caches change. `ids`
gives the transaction of an id. -/
inductive NodeRun (P : ChainParams) (R : Rules) (E : Env) (ids : Uint256 → CTransaction) (C : StepConditions) :
    List (CBlock × CBlockUndo) → ChainState → Prop
  | genesis : NodeRun P R E ids C [] ⟨fun _ => Option.none, ∅⟩
  | connect {chain st st' undo block mempool r u} (h : NodeRun P R E ids C chain st) (hids : ∀ tx ∈ block.vtx, ids tx.hash = tx)
      (hheight : block.nHeight = chain.length + 1) (hcoinbase : checkCoinbaseHeight block = true)
      (hok : C.connect (E.during r u) st block)
      (hblock : connectTip (E.during r u) (R.withReward (E.during r u) P) mempool st block = .ok (st', undo)) :
      NodeRun P R E ids C (chain ++ [(block, undo)]) st'
  | disconnect {chain st st' undo block r u} (h : NodeRun P R E ids C (chain ++ [(block, undo)]) st)
      (hok : C.disconnect (E.during r u) st block undo)
      (hblock : disconnectTip (E.during r u) st block undo = some st') : NodeRun P R E ids C chain st'
  | dump {chain st} (h : NodeRun P R E ids C chain st) (hok : C.dump st.store) :
      NodeRun P R E ids C chain ⟨st.coins, st.store.dumpCacheToDatabase E⟩
  | cacheEvent {chain st} (event : Store.CacheEvent)
      (h : NodeRun P R E ids C chain st) : NodeRun P R E ids C chain ⟨st.coins, st.store.cacheEvent event⟩

namespace Regtest

def params : ChainParams := ⟨150, ascii "JCPncGFawSDgP3CmG19MB6cbKP5XuhXY4u", 10⟩

/-! ## Chains of the test network -/

variable {E : Env}

def runBlocks (E : Env) (blocks : List CBlock) : Except Reject ChainState :=
  blocks.foldlM (fun st block => (connectTip E (Rules.none.withReward E params) ⟨∅, ∅⟩ st block).map Prod.fst)
    ⟨fun _ => none, ∅⟩

theorem runBlocks_induct {p : List CBlock → ChainState → Prop} (h : runBlocks E blocks = .ok st)
    (hheights : blocks.map CBlock.nHeight = (List.range blocks.length).map (· + 1)) (hgenesis : p [] ⟨fun _ => none, ∅⟩)
    (hconnect : ∀ bs, ∀ block ∈ blocks, ∀ st st' undo, p bs st → block.nHeight = bs.length + 1 → connectTip E (Rules.none.withReward E params) ⟨∅, ∅⟩ st block = .ok (st', undo) → p (bs ++ [block]) st') : p blocks st := by
  induction blocks using List.reverseRecOn generalizing st with
  | nil =>
    cases h
    exact hgenesis
  | append_singleton blocks block ih =>
    simp only [runBlocks, foldlM_append, Outcome.bind_eq_ok, foldlM_cons, foldlM_nil] at h
    obtain ⟨st1, h1, st2, h2, h3⟩ := h
    cases h3
    rw [length_append, length_singleton, range_succ, map_append, map_append] at hheights
    obtain ⟨hbefore, hlast⟩ := append_inj' hheights rfl
    have hprev := ih h1 hbefore fun bs b hb => hconnect bs b (mem_append_left _ hb)
    cases htip : connectTip E (Rules.none.withReward E params) ⟨∅, ∅⟩ st1 block with
    | error e => rw [htip] at h2; cases h2
    | ok r =>
      rw [htip] at h2
      cases h2
      exact hconnect blocks block (by simp) st1 r.1 r.2 hprev (by simpa using hlast) htip

theorem runBlocks_accepted (h : runBlocks E blocks = .ok st)
    (hheights : blocks.map CBlock.nHeight = (List.range blocks.length).map (· + 1)) :
    AcceptedChain params .none (blocks.map fun block => (E, block)) st := by
  refine runBlocks_induct (p := fun bs st => AcceptedChain params .none (bs.map fun block => (E, block)) st) h hheights .genesis
    fun bs block _ st st' undo hprev hheight htip => ?_
  rw [map_append]
  exact .connect hprev (by simpa using hheight) htip

theorem runBlocks_run {ids} (h : runBlocks E blocks = .ok st)
    (hheights : blocks.map CBlock.nHeight = (List.range blocks.length).map (· + 1))
    (hids : ∀ block ∈ blocks, ∀ tx ∈ block.vtx, ids tx.hash = tx)
    (hcoinbase : ∀ block ∈ blocks, checkCoinbaseHeight block = true) :
    ∃ chain, NodeRun params .none E ids .none chain st ∧ chain.map Prod.fst = blocks := by
  refine runBlocks_induct (p := fun bs st => ∃ chain, NodeRun params .none E ids .none chain st ∧ chain.map Prod.fst = bs) h
    hheights ⟨[], .genesis, rfl⟩ fun bs block hblock st st' undo hprev hheight htip => ?_
  obtain ⟨chain, hrun, rfl⟩ := hprev
  rw [length_map] at hheight
  exact ⟨_, .connect (r := E.fReindex) (u := E.uninitialised) hrun (hids block hblock) hheight (hcoinbase block hblock) trivial htip,
    by rw [map_append]; rfl⟩

def indexEnv : Env := { env with fAssetIndex := true }

/-- The coinbase at height `n` pays the miner, the community and these outputs. -/
def coinbaseAt (n : Nat) (outs : List CTxOut) : CTransaction :=
  ⟨[⟨⟨0, 4294967295⟩, heightScript n ++ [0]⟩], ⟨400000000000, scriptForKeyID alice⟩ ::
    ⟨50000000000, scriptForDestination (codec.decode params.communityAutonomousAddress)⟩ :: outs, 1000 + n⟩

def blockAt (n : Nat) (vtx : List CTransaction) (outs : List CTxOut) : CBlock := ⟨coinbaseAt n outs :: vtx, 5000 + n, n⟩

def emptyBlocks (n : Nat) : List CBlock := (List.range n).map fun k => blockAt (k + 1) [] []

/-- Blocks until the first coinbase can be spent, and one that issues `GOLD`. -/
def goldChain : List CBlock := (List.range 100).map (fun k => blockAt (k + 1) [] []) ++ [blockAt 101 [issueGold 1001 7] []]

def goldChainThen (tx : CTransaction) : List CBlock := goldChain ++ [blockAt 102 [tx] []]

theorem goldChainThen_accepted {tx p}
    (h : (runBlocks E (goldChainThen tx)).toOption.any p = true) :
    ∃ st, AcceptedChain params .none ((goldChainThen tx).map fun block => (E, block)) st ∧ p st = true := by
  obtain ⟨st, hrun, hst⟩ := (Option.any_eq_true ..).mp h
  have hheights : goldChain.map CBlock.nHeight = (List.range 101).map (· + 1) := by decide +kernel
  have hlength : goldChain.length = 101 := by decide +kernel
  refine ⟨st, runBlocks_accepted (Outcome.toOption_eq_some.mp hrun) ?_, hst⟩
  rw [goldChainThen, map_append, length_append, hheights, hlength, length_singleton,
    range_succ, map_append]
  rfl

def moveGold (amounts : List CAmount) : CTransaction := ⟨[⟨⟨7, 2⟩, []⟩], amounts.map (goldOut bob), 8⟩

def moveBlock : CBlock := blockAt 102 [moveGold [1000]] []

def chainIds (txs : List CTransaction) (id : Uint256) : CTransaction :=
  (txs.find? fun tx => tx.hash == id).getD (coinbaseAt (id.toNat - 1000) [])

theorem chainIds_coinbase {txs} (h : ∀ tx ∈ txs, tx.hash.toNat < 1000) {n} (hn : n < 2000) :
    chainIds txs (coinbaseAt n []).hash = coinbaseAt n [] := by
  have hid : (coinbaseAt n []).hash.toNat = 1000 + n := by
    simp [coinbaseAt, BitVec.toNat_add]
    omega
  have hnone : txs.find? (fun tx => tx.hash == (coinbaseAt n []).hash) = none := by
    refine List.find?_eq_none.mpr fun tx htx heq => ?_
    have hlt := h tx htx
    rw [beq_iff_eq.mp heq, hid] at hlt
    omega
  rw [chainIds, hnone, Option.getD_none, hid, Nat.add_sub_cancel_left]

theorem goldChain_blocks {p : CBlock → Prop} (h : ∀ n < 2000, p (blockAt n [] []))
    (hissue : p (blockAt 101 [issueGold 1001 7] [])) : ∀ block ∈ goldChain, p block := by
  intro block hblock
  rcases mem_append.mp hblock with hblock | hblock
  · obtain ⟨k, hk, rfl⟩ := mem_map.mp hblock
    exact h _ (by have := mem_range.mp hk; omega)
  · rw [mem_singleton.mp hblock]
    exact hissue

theorem goldChain_ids {txs} (hlow : ∀ tx ∈ txs, tx.hash.toNat < 1000)
    (hissue : chainIds txs 7 = issueGold 1001 7) : ∀ block ∈ goldChain, ∀ tx ∈ block.vtx, chainIds txs tx.hash = tx := by
  refine goldChain_blocks (p := fun block => ∀ tx ∈ block.vtx, chainIds txs tx.hash = tx)
    (fun n hn tx htx => ?_) fun tx htx => ?_
  · rw [mem_singleton.mp htx]
    exact chainIds_coinbase hlow hn
  · rcases mem_pair.mp htx with rfl | rfl
    · exact chainIds_coinbase hlow (by omega)
    · exact hissue

theorem goldChainThen_blocks {tx} {p : CBlock → Prop} (h : ∀ block ∈ goldChain, p block)
    (hlast : p (blockAt 102 [tx] [])) : ∀ block ∈ goldChainThen tx, p block := by
  intro block hblock
  rcases mem_append.mp hblock with hblock | hblock
  · exact h block hblock
  · rw [mem_singleton.mp hblock]
    exact hlast

end Regtest

end Hivecoin

import Hivecoin.Chain.BlockIndex

/-!
# The choice of the active chain

The functions of `validation.cpp` that move the tip. Whether a block connects is left open; nothing is pruned.
-/

namespace Hivecoin

namespace CBlockIndex

def ancestors : CBlockIndex → List CBlockIndex
  | genesis => [genesis]
  | next pprev block => next pprev block :: pprev.ancestors

def downTo (i stop : CBlockIndex) : List CBlockIndex := i.ancestors.takeWhile (· ≠ stop)

end CBlockIndex

open CBlockIndex

/-- The proof of work of a block and the order of the entries in memory. -/
structure WorkRules where
  getBlockProof : CBlock → Nat
  proof_pos : ∀ block, 0 < getBlockProof block
  address : CBlockIndex → Int

/-- How far an entry has been checked, from `BLOCK_VALID_TREE` on. -/
inductive ValidityLevel where
  | TREE | TRANSACTIONS | SCRIPTS
deriving DecidableEq

def ValidityLevel.toNat : ValidityLevel → Nat
  | .TREE => 2
  | .TRANSACTIONS => 3
  | .SCRIPTS => 5

/-- The flags of an entry; `linked` says that `nChainTx` is not zero. -/
structure BlockStatus where
  valid : ValidityLevel := .TREE
  haveData : Bool := false
  failedValid : Bool := false
  failedChild : Bool := false
  linked : Bool := false
  nSequenceId : Int := 0

namespace BlockStatus

variable (s : BlockStatus)

def failed : Bool := s.failedValid || s.failedChild

def isValid (nUpTo : ValidityLevel) : Bool := !s.failed && nUpTo.toNat ≤ s.valid.toNat

def raiseValidity (nUpTo : ValidityLevel) : BlockStatus :=
  if s.failed then s else if s.valid.toNat < nUpTo.toNat then { s with valid := nUpTo } else s

def clearFailed : BlockStatus := { s with failedValid := false, failedChild := false }

end BlockStatus

/-- The block index of a node with its active chain, which ends in `tip`. -/
structure BlockTree where
  index : List CBlockIndex
  status : CBlockIndex → BlockStatus
  candidates : List CBlockIndex
  unlinked : List (CBlockIndex × CBlockIndex)
  failedBlocks : List CBlockIndex
  tip : CBlockIndex
  nBlockSequenceId : Int

/-- Which blocks can be connected to and disconnected from the tip of a node. -/
structure Outcomes where
  connects : BlockTree → CBlockIndex → Bool
  disconnects : BlockTree → CBlockIndex → Bool

namespace BlockTree

variable (W : WorkRules) (o : Outcomes) (n : BlockTree)

def contains (i : CBlockIndex) : Bool := n.tip.ancestors.contains i

def failed (i : CBlockIndex) : Bool := (n.status i).failed

def mark (p : CBlockIndex → Bool) (f : BlockStatus → BlockStatus) : BlockTree :=
  { n with status := fun i => if p i then f (n.status i) else n.status i }

def erase (p : CBlockIndex → Bool) : BlockTree := { n with candidates := n.candidates.filter fun i => !p i }

variable (pindex i : CBlockIndex)

def insertCandidate : BlockTree :=
  if n.candidates.contains i then n else { n with candidates := n.candidates ++ [i] }

def nChainWork : CBlockIndex → Nat
  | genesis => 1
  | next pprev block => nChainWork pprev + W.getBlockProof block

/-- `CBlockIndexWorkComparator` -/
def comparator (pa pb : CBlockIndex) : Bool :=
  if nChainWork W pa > nChainWork W pb then false
  else if nChainWork W pa < nChainWork W pb then true
  else if (n.status pa).nSequenceId < (n.status pb).nSequenceId then false
  else if (n.status pa).nSequenceId > (n.status pb).nSequenceId then true
  else if W.address pa < W.address pb then false
  else W.address pa > W.address pb

/-- `setBlockIndexCandidates.rbegin()` -/
def lastCandidate : Option CBlockIndex :=
  n.candidates.foldl (fun best i =>
    match best with
    | none => some i
    | some b => if n.comparator W b i then some i else some b) none

def pruneBlockIndexCandidates : BlockTree := n.erase fun i => n.comparator W i n.tip

def missingData : Bool := !(n.status i).haveData

/-- The first entry on the way down to the active chain that cannot be used. -/
def findUnusable : Option CBlockIndex :=
  (i.ancestors.takeWhile fun j => !n.contains j).find? fun j => n.failed j || n.missingData j

/-- Takes a candidate with an unusable chain out, with the entries down to `pindexTest`. -/
def discardChain (pindexNew pindexTest : CBlockIndex) : BlockTree :=
  let path := pindexNew.downTo pindexTest
  let n' := n.erase fun i => path.contains i || i == pindexTest
  if n.failed pindexTest then n'.mark path.contains fun s => { s with failedChild := true }
  else { n' with unlinked := n'.unlinked ++ path.filterMap fun i =>
    match i with
    | genesis => none
    | next pprev block => some (pprev, next pprev block) }

/-- The loop of `FindMostWorkChain`; each round takes a candidate out. -/
def searchCandidates : Nat → BlockTree → Option (BlockTree × Option CBlockIndex)
  | 0, _ => none
  | fuel + 1, n =>
    match n.lastCandidate W with
    | none => some (n, none)
    | some pindexNew =>
      match n.findUnusable pindexNew with
      | none => some (n, some pindexNew)
      | some pindexTest => searchCandidates fuel (n.discardChain pindexNew pindexTest)

def findMostWorkChain : Option (BlockTree × Option CBlockIndex) := searchCandidates W (n.candidates.length + 1) n

/-- `DisconnectTip` until the tip is `stop` or it fails: whether it got there, and the tip. -/
def disconnectTo (stop : CBlockIndex) : CBlockIndex → Bool × CBlockIndex
  | genesis => (true, genesis)
  | next pprev block =>
    if next pprev block = stop then (true, next pprev block)
    else if o.disconnects { n with tip := next pprev block } (next pprev block) then disconnectTo stop pprev
    else (false, next pprev block)

/-- `ConnectTip` of a block that is connected. -/
def connected : BlockTree :=
  { n.mark (· == i) fun s => s.raiseValidity .SCRIPTS with tip := i }

def invalidBlockFound : BlockTree :=
  { (n.mark (· == i) fun s => { s with failedValid := true }).erase (· == i) with failedBlocks := i :: n.failedBlocks }

/-- Connects blocks until one is rejected or the tip has more work than `pindexOldTip`. -/
def connectBlocks (pindexOldTip : CBlockIndex) : List CBlockIndex → BlockTree → Bool × BlockTree
  | [], n => (false, n)
  | i :: rest, n =>
    if o.connects n i then
      let n' := (n.connected i).pruneBlockIndexCandidates W
      if nChainWork W pindexOldTip < nChainWork W n'.tip then (false, n') else connectBlocks pindexOldTip rest n'
    else (true, n.invalidBlockFound i)

def findFork : CBlockIndex := (i.ancestors.find? n.contains).getD genesis

structure StepResult where
  ret : Bool
  fInvalidFound : Bool
  tree : BlockTree

def activateBestChainStep (pindexMostWork : CBlockIndex) : StepResult :=
  let pindexFork := n.findFork pindexMostWork
  match n.disconnectTo o pindexFork n.tip with
  | (false, tip) => ⟨false, false, { n with tip }⟩
  | (true, tip) =>
    let r := connectBlocks W o n.tip (pindexMostWork.downTo pindexFork).reverse { n with tip }
    ⟨true, r.1, r.2⟩

/-- `pindexMostWork`, kept from step to step while no block is rejected. -/
def mostWork (cached : Option CBlockIndex) : Option (BlockTree × Option CBlockIndex) :=
  match cached with
  | some pindexMostWork => some (n, some pindexMostWork)
  | none => n.findMostWorkChain W

/-- `ActivateBestChain` with at most `fuel` steps: what it returns, and the node. -/
def activateBestChain : Nat → Option CBlockIndex → BlockTree → Option (Bool × BlockTree)
  | 0, _, _ => none
  | fuel + 1, cached, n => do
      let (n, most) ← n.mostWork W cached
      match most with
      | none => some (true, n)
      | some pindexMostWork =>
        if pindexMostWork = n.tip then some (true, n)
        else
          let r := n.activateBestChainStep W o pindexMostWork
          if !r.ret then some (false, r.tree)
          else
            let most := if r.fInvalidFound then none else some pindexMostWork
            if most = some r.tree.tip then some (true, r.tree) else activateBestChain fuel most r.tree

/-- Puts the entries that are not worse than the tip back into the set. -/
def reinsertCandidates : BlockTree :=
  (n.index.filter fun i => (n.status i).isValid .TRANSACTIONS && (n.status i).linked && !n.comparator W i n.tip).foldl
    insertCandidate n

/-- Marks a block as failed, and those above it in the active chain. -/
def failBlocks (above : List CBlockIndex) (pindex : CBlockIndex) : BlockTree :=
  let n1 := (n.mark above.contains fun s => { s with failedChild := true }).erase above.contains
  let n2 := (n1.mark (· == pindex) fun s => { s with failedValid := true }).erase (· == pindex)
  { n2 with failedBlocks := pindex :: n2.failedBlocks }

/-- `InvalidateBlock` of an entry above the genesis block. -/
def invalidateBlock (pprev : CBlockIndex) (block : CBlock) : BlockTree :=
  let pindex := next pprev block
  let wasInChain := n.contains pindex
  match if wasInChain then n.disconnectTo o pprev n.tip else (true, n.tip) with
  | (false, tip) => { n with tip }
  | (true, tip) =>
    let above := if wasInChain then n.tip.downTo pindex else []
    ({ n with tip }.failBlocks above pindex).reinsertCandidates W

/-- The entries that the first loop of `ResetBlockFailureFlags` looks at. -/
def resets : Bool :=
  n.index.contains i && !(n.status i).isValid .TRANSACTIONS && i.ancestors.contains pindex

def resetBlockFailureFlags : BlockTree :=
  let n1 := n.mark (n.resets pindex) BlockStatus.clearFailed
  let n2 := (n.index.filter fun i => n.resets pindex i && (n1.status i).isValid .TRANSACTIONS && (n1.status i).linked &&
    n1.comparator W n1.tip i).foldl insertCandidate n1
  { n2 with failedBlocks := n2.failedBlocks.filter fun i => !n.resets pindex i }.mark pindex.ancestors.contains BlockStatus.clearFailed

/-- `AcceptBlockHeader` of a header that passes the checks of its own. -/
def acceptBlockHeader (pprev : CBlockIndex) (block : CBlock) : BlockTree :=
  let pindex := next pprev block
  if n.index.contains pindex || !n.index.contains pprev || n.failed pprev then n
  else
    match if (n.status pprev).isValid .SCRIPTS then none else n.failedBlocks.find? pprev.ancestors.contains with
    | some failedit => n.mark (pprev.downTo failedit).contains fun s => { s with failedChild := true }
    | none => { n with
        index := n.index ++ [pindex]
        status := fun i => if i = pindex then {} else n.status i }

/-- An entry whose block fails `CheckBlock`. -/
def rejectBlockData : BlockTree := n.mark (· == pindex) fun s => { s with failedValid := true }

/-- One round of `ReceivedBlockTransactions`: a block whose parent is linked is linked. -/
def linkBlock : BlockTree :=
  let n1 := { n.mark (· == pindex) (fun s => { s with linked := true, nSequenceId := n.nBlockSequenceId }) with
    nBlockSequenceId := n.nBlockSequenceId + 1 }
  if n1.comparator W pindex n1.tip then n1 else n1.insertCandidate pindex

/-- The queue of `ReceivedBlockTransactions`. -/
def linkBlocks : Nat → List CBlockIndex → BlockTree → BlockTree
  | 0, _, n => n
  | _ + 1, [], n => n
  | fuel + 1, pindex :: queue, n =>
    let n' := n.linkBlock W pindex
    let children := n'.unlinked.filter fun q => q.1 == pindex
    linkBlocks fuel (queue ++ children.map Prod.snd) { n' with unlinked := n'.unlinked.filter fun q => !(q.1 == pindex) }

/-- `ReceivedBlockTransactions` of an entry above the genesis block. -/
def receivedBlockTransactions (pprev : CBlockIndex) (block : CBlock) : BlockTree :=
  let pindex := next pprev block
  let n1 := n.mark (· == pindex) fun s => { s with haveData := true, linked := false }.raiseValidity .TRANSACTIONS
  if (n1.status pprev).linked then linkBlocks W (n1.unlinked.length + 1) [pindex] n1
  else if (n1.status pprev).isValid .TREE then { n1 with unlinked := n1.unlinked ++ [(pprev, pindex)] }
  else n1

/-- What `AcceptBlock` says of a block: an unrequested one may be left aside. -/
inductive BlockVerdict where
  | valid | invalid | leftAside
deriving DecidableEq

def acceptBlock (verdict : BlockVerdict) (pprev : CBlockIndex) (block : CBlock) : BlockTree :=
  let pindex := next pprev block
  let n1 := n.acceptBlockHeader pprev block
  if !n1.index.contains pindex || n1.failed pindex then n1
  else if (n1.status pindex).haveData then n1
  else
    match verdict with
    | .valid => n1.receivedBlockTransactions W pprev block
    | .invalid => n1.rejectBlockData pindex
    | .leftAside => n1

/-- The calls that change the node; one on an unknown block does nothing. -/
inductive Event where
  | header (pprev : CBlockIndex) (block : CBlock)
  | block (verdict : BlockVerdict) (pprev : CBlockIndex) (block : CBlock)
  | invalidate (o : Outcomes) (pindex : CBlockIndex)
  | reset (pindex : CBlockIndex)
  | activate (o : Outcomes) (fuel : Nat)

/-- The node after an event, unless an activation takes more steps. -/
def apply : Event → Option BlockTree
  | .header pprev block => some (n.acceptBlockHeader pprev block)
  | .block verdict pprev block => some (n.acceptBlock W verdict pprev block)
  -- the genesis block has no undo data, so that it is never disconnected
  | .invalidate o genesis => some { n with tip := (n.disconnectTo o genesis n.tip).2 }
  | .invalidate o (next pprev block) =>
    some (if n.index.contains (next pprev block) then n.invalidateBlock W o pprev block else n)
  | .reset pindex => some (if n.index.contains pindex then n.resetBlockFailureFlags W pindex else n)
  | .activate o fuel => (n.activateBestChain W o fuel none).map Prod.snd

/-- The node after the genesis block has been connected. -/
def initial : BlockTree where
  index := [genesis]
  status := fun i => if i = genesis then { valid := .SCRIPTS, haveData := true, linked := true } else {}
  candidates := [genesis]
  unlinked := []
  failedBlocks := []
  tip := genesis
  nBlockSequenceId := 1

/-- The nodes that events lead to, each of which is allowed where it happens. -/
inductive History (allowed : BlockTree → Event → Prop) : BlockTree → Prop
  | initial : History allowed initial
  | event {n n' e} : History allowed n → allowed n e → n.apply W e = some n' → History allowed n'

end BlockTree

end Hivecoin

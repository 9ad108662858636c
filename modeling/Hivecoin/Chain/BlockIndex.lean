import Mathlib.Data.Nat.Digits.Defs
import Hivecoin.Chain.Block

/-!
# The block index

The entries of the block tree, each the path to it from the genesis block, with the walks of `chain.cpp`.
-/

namespace Hivecoin

open List

inductive CBlockIndex where
  | genesis
  | next (pprev : CBlockIndex) (block : CBlock)

deriving instance DecidableEq for CBlock, CBlockIndex

namespace CBlockIndex

def nHeight : CBlockIndex → Nat
  | genesis => 0
  | next pprev _ => pprev.nHeight + 1

/-- `GetBlockHash`, with the hash of the genesis block of the network. -/
def hash (hashGenesisBlock : Uint256) : CBlockIndex → Uint256
  | genesis => hashGenesisBlock
  | next _ block => block.hash

/-- The entry below this one at a height, or this one where it is not above it. -/
def walkTo (height : Nat) : CBlockIndex → CBlockIndex
  | genesis => genesis
  | next pprev block => if pprev.nHeight + 1 > height then pprev.walkTo height else next pprev block

variable (i : CBlockIndex) (bs : List CBlock)

/-- `GetAncestor` along `pprev`; the source also jumps. -/
def getAncestor (height : Nat) : Option CBlockIndex :=
  if height > i.nHeight then none else some (i.walkTo height)

/-- Both entries go back together until they meet. -/
def meet : CBlockIndex → CBlockIndex → Option CBlockIndex
  | next p b, next q c => if next p b = next q c then some (next p b) else meet p q
  | genesis, genesis => some genesis
  | _, _ => none

/-- The higher of two entries goes back to the height of the other. -/
def level (pa pb : CBlockIndex) : Option CBlockIndex :=
  if pa.nHeight > pb.nHeight then pa.getAncestor pb.nHeight else some pa

/-- `LastCommonAncestor`; `none` is where an assertion fails. -/
def lastCommonAncestor (pa pb : CBlockIndex) : Option CBlockIndex := do
  let pa' ← pa.level pb
  let pb' ← pb.level pa
  pa'.meet pb'

def extend (blocks : List CBlock) : CBlockIndex := blocks.foldl next i

def blocks : CBlockIndex → List CBlock
  | genesis => []
  | next pprev block => pprev.blocks ++ [block]

@[simp] theorem extend_nil : i.extend [] = i := rfl

theorem extend_append (cs : List CBlock) : i.extend (bs ++ cs) = (i.extend bs).extend cs :=
  foldl_append

theorem extend_concat (b : CBlock) : i.extend (bs ++ [b]) = next (i.extend bs) b :=
  extend_append i bs [b]

theorem nHeight_extend : (i.extend bs).nHeight = i.nHeight + bs.length := by
  induction bs using List.reverseRecOn with
  | nil => rfl
  | append_singleton bs b ih =>
    rw [extend_concat, nHeight, ih, length_append, length_singleton]
    omega

theorem extend_blocks : genesis.extend i.blocks = i := by
  induction i with
  | genesis => rfl
  | next pprev block ih => rw [blocks, extend_concat, ih]

theorem blocks_extend : (i.extend bs).blocks = i.blocks ++ bs := by
  induction bs using List.reverseRecOn with
  | nil => rw [extend_nil, append_nil]
  | append_singleton bs b ih => rw [extend_concat, blocks, ih, append_assoc]

theorem walkTo_extend {i : CBlockIndex} {height} (h : i.nHeight ≤ height) (bs : List CBlock) :
    (i.extend bs).walkTo height = i.extend (bs.take (height - i.nHeight)) := by
  induction bs using List.reverseRecOn with
  | nil =>
    rw [take_nil, extend_nil]
    cases i with
    | genesis => rfl
    | next pprev block => rw [walkTo, if_neg (by rw [nHeight] at h; omega)]
  | append_singleton bs b ih =>
    rw [extend_concat, walkTo, nHeight_extend]
    split
    · rw [ih, take_append_of_le_length (by omega)]
    · rw [take_of_length_le (by rw [length_append, length_singleton]; omega), extend_concat]

theorem getAncestor_extend {bs : List CBlock} {n} (h : n ≤ bs.length) :
    (i.extend bs).getAncestor (i.nHeight + n) = some (i.extend (bs.take n)) := by
  rw [getAncestor, if_neg (by rw [nHeight_extend]; omega), walkTo_extend (by omega), Nat.add_sub_cancel_left]

theorem walkTo_spec {height} (h : height ≤ i.nHeight) :
    (i.walkTo height).nHeight = height ∧ ∃ bs, i = (i.walkTo height).extend bs := by
  induction i with
  | genesis => exact ⟨(Nat.le_zero.mp h).symm, [], rfl⟩
  | next pprev block ih =>
    rw [walkTo]
    split
    · obtain ⟨hheight, bs, hbs⟩ := ih (by omega)
      exact ⟨hheight, bs ++ [block], by rw [extend_concat, ← hbs]⟩
    · rw [nHeight] at h
      exact ⟨by rw [nHeight]; omega, [], rfl⟩

theorem meet_spec {pa pb : CBlockIndex} (h : pa.nHeight = pb.nHeight) :
    ∃ fork bs cs, pa.meet pb = some fork ∧ pa = fork.extend bs ∧ pb = fork.extend cs := by
  induction pa generalizing pb with
  | genesis => cases pb with
    | genesis => exact ⟨genesis, [], [], rfl, rfl, rfl⟩
    | next q c => simp only [nHeight] at h; omega
  | next p b ih => cases pb with
    | genesis => simp only [nHeight] at h; omega
    | next q c =>
      rw [meet]
      split
      · rename_i heq
        exact ⟨_, [], [], rfl, rfl, heq.symm⟩
      · obtain ⟨fork, bs, cs, hmeet, rfl, rfl⟩ := ih (Nat.succ.inj h)
        exact ⟨fork, bs ++ [b], cs ++ [c], hmeet, (extend_concat ..).symm, (extend_concat ..).symm⟩

theorem level_spec (pa pb : CBlockIndex) :
    ∃ i bs, pa.level pb = some i ∧ pa = i.extend bs ∧ i.nHeight = min pa.nHeight pb.nHeight := by
  unfold level
  split
  · obtain ⟨hheight, bs, hbs⟩ := @walkTo_spec pa pb.nHeight (by omega)
    exact ⟨_, bs, if_neg (by omega), hbs, by omega⟩
  · exact ⟨pa, [], rfl, rfl, by omega⟩

theorem lastCommonAncestor_spec (pa pb : CBlockIndex) :
    ∃ fork bs cs, pa.lastCommonAncestor pb = some fork ∧ pa = fork.extend bs ∧ pb = fork.extend cs := by
  obtain ⟨pa', bs, hpa, hbs, ha⟩ := level_spec pa pb
  obtain ⟨pb', cs, hpb, hcs, hb⟩ := level_spec pb pa
  obtain ⟨fork, ds, es, hmeet, rfl, rfl⟩ := @meet_spec pa' pb' (by omega)
  refine ⟨fork, ds ++ bs, es ++ cs, ?_, by rw [extend_append, ← hbs], by rw [extend_append, ← hcs]⟩
  rw [lastCommonAncestor, hpa, hpb]
  exact hmeet

theorem meet_self : i.meet i = some i := by
  cases i with
  | genesis => rfl
  | next pprev block => exact if_pos rfl

theorem lastCommonAncestor_extend : i.lastCommonAncestor (i.extend bs) = some i := by
  have hlow : i.level (i.extend bs) = some i := if_neg (by rw [nHeight_extend]; omega)
  have hhigh : (i.extend bs).level i = some i := by
    cases bs with
    | nil => exact if_neg (Nat.lt_irrefl _)
    | cons b bs =>
      rw [level, if_pos (by rw [nHeight_extend, length_cons]; omega)]
      exact getAncestor_extend i (Nat.zero_le _)
  rw [lastCommonAncestor, hlow, hhigh]
  exact meet_self i

theorem lastCommonAncestor_siblings {b c} (h : b ≠ c) : (next i b).lastCommonAncestor (next i c) = some i := by
  have hlevel : ∀ b c, (next i b).level (next i c) = some (next i b) := fun b c => if_neg (Nat.lt_irrefl _)
  rw [lastCommonAncestor, hlevel, hlevel]
  exact (if_neg fun heq => h (next.inj heq).2).trans (meet_self i)

end CBlockIndex

/-- `CScriptNum::serialize` of a number that is not negative. -/
def scriptNum (n : Nat) : Bytes :=
  let result := (Nat.digits 256 n).map UInt8.ofNat
  if result.getLastD 0 ≥ 0x80 then result ++ [0] else result

def heightScript (nHeight : Nat) : Bytes :=
  if 1 ≤ nHeight ∧ nHeight ≤ 16 then [UInt8.ofNat (nHeight + (OP_1.toNat - 1))]
  else if nHeight = 0 then [0]
  else pushBytes (scriptNum nHeight)

def coinbaseScript (tx : CTransaction) : Bytes := (tx.vin.map (·.scriptSig)).headD []

/-- The part of `ContextualCheckBlock` that keeps coinbases apart. -/
def checkCoinbaseHeight (block : CBlock) : Bool :=
  (heightScript block.nHeight).isPrefixOf ((block.vtx.map coinbaseScript).headD [])

end Hivecoin

import Hivecoin.Chain.Lemmas.BlockTree

/-!
# Skip pointers and the active chain

`GetAncestor`, `LastCommonAncestor` and `CChain` against the walks along `pprev`.
-/

namespace Hivecoin

open List

/-- Turns the lowest one bit into a zero. -/
def invertLowestOne (n : Nat) : Nat := n &&& (n - 1)

def getSkipHeight (height : Nat) : Nat :=
  if height < 2 then 0
  else if height &&& 1 ≠ 0 then invertLowestOne (invertLowestOne (height - 1)) + 1
  else invertLowestOne height

/-- The walk jumps, unless the jump from the parent is better. -/
def followsSkip (height heightWalk : Nat) : Bool :=
  let heightSkip := getSkipHeight heightWalk
  let heightSkipPrev := getSkipHeight (heightWalk - 1)
  heightSkip == height || heightSkip > height && !(heightSkipPrev < heightSkip - 2 && heightSkipPrev ≥ height)

/-- An entry in memory. The entries without `pskip` have a null pointer there. -/
inductive SkipIndex where
  | genesis
  | plain (pprev : SkipIndex) (block : CBlock)
  | skip (pprev pskip : SkipIndex) (block : CBlock)
deriving DecidableEq

namespace SkipIndex

def nHeight : SkipIndex → Nat
  | genesis => 0
  | plain pprev _ | skip pprev _ _ => pprev.nHeight + 1

/-- The loop of `GetAncestor`, from `pindexWalk`; `none` where an assertion fails. -/
def walk (height : Nat) : (pindexWalk : SkipIndex) → (heightWalk : Nat) → Option SkipIndex
  | genesis, heightWalk => if heightWalk > height then none else some genesis
  | plain pprev block, heightWalk =>
    if heightWalk > height then walk height pprev (heightWalk - 1) else some (plain pprev block)
  | skip pprev pskip block, heightWalk =>
    if heightWalk > height then
      if followsSkip height heightWalk then walk height pskip (getSkipHeight heightWalk) else walk height pprev (heightWalk - 1)
    else some (skip pprev pskip block)

def getAncestor (i : SkipIndex) (height : Int) : Option SkipIndex :=
  if height > i.nHeight ∨ height < 0 then none else walk height.toNat i i.nHeight

/-- A new entry, with what `BuildSkip` sets. -/
def addToBlockIndex (pprev : SkipIndex) (block : CBlock) : SkipIndex :=
  match pprev.getAncestor (getSkipHeight (pprev.nHeight + 1)) with
  | some pskip => skip pprev pskip block
  | none => plain pprev block

end SkipIndex

namespace CBlockIndex

/-- The entry in memory that `AddToBlockIndex` leaves for each block of a path. -/
def entry : CBlockIndex → SkipIndex
  | genesis => .genesis
  | next pprev block => pprev.entry.addToBlockIndex block

def ofEntry : SkipIndex → CBlockIndex
  | .genesis => genesis
  | .plain pprev block | .skip pprev _ block => next (ofEntry pprev) block

/-- `GetAncestor` with its jumps, as a function of paths. -/
def skipAncestor (i : CBlockIndex) (height : Int) : Option CBlockIndex := (i.entry.getAncestor height).map ofEntry

/-- `LastCommonAncestor`; `none` is where an assertion fails. -/
def lastCommonEntry (pa pb : CBlockIndex) : Option CBlockIndex :=
  if pa.nHeight > pb.nHeight then (pa.skipAncestor pb.nHeight).bind (·.meet pb)
  else if pb.nHeight > pa.nHeight then (pb.skipAncestor pa.nHeight).bind pa.meet
  else pa.meet pb

end CBlockIndex

/-- `CChain::vChain`; a null pointer is `none`. -/
abbrev CChain := List (Option CBlockIndex)

namespace CChain

variable (vChain : CChain)

def resize (n : Nat) : CChain := vChain.take n ++ replicate (n - vChain.length) none

def contains (pindex : CBlockIndex) : Bool := vChain[pindex.nHeight]? = some (some pindex)

/-- The loop of `SetTip` down from the first of the entries, up to one that is there already. -/
def write : List CBlockIndex → CChain → CChain
  | [], vChain => vChain
  | pindex :: below, vChain => if contains vChain pindex then vChain else write below (vChain.set pindex.nHeight (some pindex))

def setTip : Option CBlockIndex → CChain
  | none => []
  | some pindex => write pindex.ancestors (resize vChain (pindex.nHeight + 1))

/-- `FindFork` of an entry. The height of an empty chain is `-1`. -/
def findFork (pindex : CBlockIndex) : Option CBlockIndex :=
  (if (pindex.nHeight : Int) > vChain.length - 1 then pindex.skipAncestor (vChain.length - 1) else some pindex).bind
    (·.ancestors.find? (contains vChain))

end CChain

theorem getSkipHeight_lt {n} (h : 0 < n) : getSkipHeight n < n := by
  have hinvert : ∀ m, invertLowestOne m ≤ m - 1 := fun m => Nat.and_le_right
  unfold getSkipHeight
  split_ifs with hlow hodd
  · exact h
  · have hfirst := hinvert (n - 1)
    have hsecond := hinvert (invertLowestOne (n - 1))
    omega
  · have hfirst := hinvert n
    omega

theorem le_of_followsSkip {height n} (h : followsSkip height n = true) : height ≤ getSkipHeight n := by
  simp only [followsSkip, Outcome.test_iff] at h
  omega

namespace CBlockIndex

variable {a b f i j t : CBlockIndex} {n : Nat} {vChain : CChain}

theorem ofEntry_entry (i : CBlockIndex) : ofEntry i.entry = i := by
  induction i with
  | genesis => rfl
  | next pprev block ih =>
    rw [entry, SkipIndex.addToBlockIndex]
    split <;> rw [ofEntry, ih]

theorem nHeight_entry (i : CBlockIndex) : i.entry.nHeight = i.nHeight := by
  induction i with
  | genesis => rfl
  | next pprev block ih =>
    rw [entry, SkipIndex.addToBlockIndex]
    split <;> rw [SkipIndex.nHeight, ih, nHeight]

theorem walkTo_walkTo {m} (h : n ≤ m) (i : CBlockIndex) : (i.walkTo m).walkTo n = i.walkTo n := by
  induction i with
  | genesis => rfl
  | next pprev block ih =>
    by_cases hm : pprev.nHeight + 1 > m
    · rw [walkTo, if_pos hm, ih, walkTo, if_pos (by omega)]
    · rw [show (next pprev block).walkTo m = next pprev block from if_neg hm]

theorem getAncestor_entry (hwalk : i.entry.walk n i.nHeight = some (i.walkTo n).entry) (hn : n ≤ i.nHeight) :
    i.entry.getAncestor n = some (i.walkTo n).entry := by
  rw [SkipIndex.getAncestor, nHeight_entry, if_neg (by omega), Int.toNat_natCast, hwalk]

/-- The walk with jumps ends at the entry that `pprev` leads to. -/
theorem walk_entry (i : CBlockIndex) : ∀ n ≤ i.nHeight, i.entry.walk n i.nHeight = some (i.walkTo n).entry := by
  induction hk : i.nHeight using Nat.strong_induction_on generalizing i with
  | _ k ih =>
    subst hk
    intro n hn
    cases i with
    | genesis => rfl
    | next pprev block =>
      have hskip : getSkipHeight (pprev.nHeight + 1) < pprev.nHeight + 1 := getSkipHeight_lt (Nat.succ_pos _)
      have hpprev := ih _ (Nat.lt_succ_self _) pprev rfl
      obtain ⟨hheight, -⟩ := walkTo_spec pprev (Nat.lt_succ_iff.1 hskip)
      have hentry : (next pprev block).entry =
          .skip pprev.entry (pprev.walkTo (getSkipHeight (pprev.nHeight + 1))).entry block := by
        rw [entry, SkipIndex.addToBlockIndex, nHeight_entry, getAncestor_entry (hpprev _ (by omega)) (by omega)]
      by_cases habove : pprev.nHeight + 1 > n
      · rw [show (next pprev block).walkTo n = pprev.walkTo n from if_pos habove, hentry, SkipIndex.walk, nHeight, if_pos habove]
        split
        · rename_i hjump
          have hlow := ih _ (hheight.trans_lt hskip) _ rfl n (by rw [hheight]; exact le_of_followsSkip hjump)
          rw [hheight] at hlow
          rw [hlow, walkTo_walkTo (le_of_followsSkip hjump)]
        · exact hpprev n (by omega)
      · rw [show (next pprev block).walkTo n = next pprev block from if_neg habove, hentry, SkipIndex.walk, nHeight, if_neg habove]

theorem skipAncestor_eq (h : n ≤ i.nHeight) : i.skipAncestor n = some (i.walkTo n) := by
  rw [skipAncestor, getAncestor_entry (walk_entry i n h) h, Option.map_some, ofEntry_entry]

theorem nHeight_le_of_mem_ancestors (h : a ∈ i.ancestors) : a.nHeight ≤ i.nHeight := by
  induction i with
  | genesis => rw [mem_ancestors_genesis.1 h]
  | next pprev block ih =>
    rcases mem_ancestors_next.1 h with rfl | h
    · exact le_rfl
    · exact (ih h).trans (Nat.le_succ _)

theorem not_mem_ancestors {pprev block} (h : i.nHeight ≤ pprev.nHeight) : next pprev block ∉ i.ancestors := by
  intro hmem
  have hle := nHeight_le_of_mem_ancestors hmem
  rw [nHeight] at hle
  omega

/-- The deepest entry that is an ancestor of both. -/
def LastCommon (f a b : CBlockIndex) : Prop :=
  f ∈ a.ancestors ∧ f ∈ b.ancestors ∧ ∀ c ∈ a.ancestors, c ∈ b.ancestors → c ∈ f.ancestors

namespace LastCommon

theorem symm (h : LastCommon f a b) : LastCommon f b a := ⟨h.2.1, h.1, fun c hb ha => h.2.2 c ha hb⟩

theorem of_mem (h : a ∈ b.ancestors) : LastCommon a a b := ⟨self_mem_ancestors a, h, fun _ ha _ => ha⟩

theorem next {pprev block} (h : LastCommon f pprev t) (ht : CBlockIndex.next pprev block ∉ t.ancestors) :
    LastCommon f (CBlockIndex.next pprev block) t := by
  refine ⟨mem_ancestors_next.2 (Or.inr h.1), h.2.1, fun c hc hct => ?_⟩
  rcases mem_ancestors_next.1 hc with rfl | hc
  · exact absurd hct ht
  · exact h.2.2 c hc hct

theorem of_walkTo (hn : t.nHeight ≤ n) (h : LastCommon f (i.walkTo n) t) : LastCommon f i t := by
  induction i with
  | genesis => exact h
  | next pprev block ih =>
    rw [walkTo] at h
    split_ifs at h with habove
    · exact (ih h).next (not_mem_ancestors (by omega))
    · exact h

end LastCommon

theorem meet_last (h : i.nHeight = j.nHeight) : ∃ f, i.meet j = some f ∧ LastCommon f i j := by
  induction i generalizing j with
  | genesis => cases j with
    | genesis => exact ⟨genesis, rfl, .of_mem (self_mem_ancestors _)⟩
    | next q c => simp only [nHeight] at h; omega
  | next p b ih => cases j with
    | genesis => simp only [nHeight] at h; omega
    | next q c =>
      rw [meet]
      split_ifs with heq
      · exact ⟨_, rfl, heq ▸ .of_mem (self_mem_ancestors _)⟩
      · have hpq := Nat.succ.inj h
        obtain ⟨f, hf, hlast⟩ := ih hpq
        refine ⟨f, hf, ((hlast.next (not_mem_ancestors hpq.ge)).symm.next fun hmem => ?_).symm⟩
        rcases mem_ancestors_next.1 hmem with hqp | hmem
        · exact heq hqp.symm
        · exact not_mem_ancestors hpq.le hmem

theorem lastCommonEntry_spec (i j : CBlockIndex) : ∃ fork, i.lastCommonEntry j = some fork ∧ LastCommon fork i j := by
  unfold lastCommonEntry
  split_ifs with hi hj
  · rw [skipAncestor_eq hi.le]
    obtain ⟨f, hf, hlast⟩ := meet_last (walkTo_spec i hi.le).1
    exact ⟨f, hf, hlast.of_walkTo le_rfl⟩
  · rw [skipAncestor_eq hj.le]
    obtain ⟨f, hf, hlast⟩ := meet_last (walkTo_spec j hj.le).1.symm
    exact ⟨f, hf, (hlast.symm.of_walkTo le_rfl).symm⟩
  · exact meet_last (by omega)

/-- What the active chain holds with this tip. -/
def activeChain (tip : CBlockIndex) : CChain := (tip.ancestors.map some).reverse

theorem activeChain_next (pprev : CBlockIndex) (block : CBlock) :
    (next pprev block).activeChain = pprev.activeChain ++ [some (next pprev block)] := reverse_cons

theorem length_activeChain (i : CBlockIndex) : i.activeChain.length = i.nHeight + 1 := by
  induction i with
  | genesis => rfl
  | next pprev block ih => rw [activeChain_next, length_append, ih, length_singleton, nHeight]

theorem take_activeChain (h : i ∈ t.ancestors) : t.activeChain.take (i.nHeight + 1) = i.activeChain := by
  induction t with
  | genesis => rw [mem_ancestors_genesis.1 h]; rfl
  | next pprev block ih =>
    rcases mem_ancestors_next.1 h with rfl | h
    · exact take_of_length_le (length_activeChain _).le
    · have hle := nHeight_le_of_mem_ancestors h
      rw [activeChain_next, take_append_of_le_length (by rw [length_activeChain]; omega), ih h]

theorem contains_activeChain : t.activeChain.contains i = true ↔ i ∈ t.ancestors := by
  rw [CChain.contains, decide_eq_true_eq]
  constructor
  · intro h
    simpa [activeChain] using mem_of_getElem? h
  · intro h
    rw [← getElem?_take_of_lt (Nat.lt_succ_self _), take_activeChain h]
    cases i with
    | genesis => rfl
    | next pprev block => rw [activeChain_next, nHeight, ← length_activeChain, getElem?_concat_length]

/-- The loop of `SetTip` may stop at an entry if all is right below it. -/
theorem write_ancestors (hlen : i.nHeight < vChain.length)
    (hchain : ∀ j, j.nHeight ≤ i.nHeight → vChain.contains j = true → vChain.take (j.nHeight + 1) = j.activeChain) :
    vChain.write i.ancestors = i.activeChain ++ vChain.drop (i.nHeight + 1) := by
  induction i generalizing vChain with
  | genesis =>
    rw [ancestors, CChain.write]
    split_ifs with h
    · rw [← hchain genesis le_rfl h]
      exact (take_append_drop ..).symm
    · rw [CChain.write, set_eq_take_append_cons_drop, if_pos hlen]
      rfl
  | next pprev block ih =>
    rw [ancestors, CChain.write]
    split_ifs with h
    · rw [← hchain _ le_rfl h, take_append_drop]
    · rw [nHeight] at hlen ⊢
      rw [ih (by rw [length_set]; omega) ?_, activeChain_next, set_eq_take_append_cons_drop, if_pos hlen,
        drop_left' (by rw [length_take]; omega), append_assoc]
      · rfl
      · intro j hj hcontains
        rw [CChain.contains, getElem?_set_ne (by omega)] at hcontains
        rw [take_set_of_le (by omega)]
        exact hchain j (by rw [nHeight]; omega) hcontains

theorem setTip_eq (i : CBlockIndex) (h : vChain = [] ∨ ∃ t, vChain = activeChain t) : vChain.setTip (some i) = i.activeChain := by
  have hlen : (vChain.resize (i.nHeight + 1)).length = i.nHeight + 1 := by
    rw [CChain.resize, length_append, length_take, length_replicate]
    omega
  rw [CChain.setTip, write_ancestors (by omega) ?_, drop_of_length_le hlen.le, append_nil]
  intro j hj hcontains
  rw [CChain.contains, decide_eq_true_eq, CChain.resize, getElem?_append] at hcontains
  split_ifs at hcontains with hlt
  · rw [length_take] at hlt
    rw [getElem?_take_of_lt (by omega)] at hcontains
    obtain rfl | ⟨t, rfl⟩ := h
    · cases hcontains
    · rw [CChain.resize, take_append_of_le_length (by rw [length_take]; omega), take_take, Nat.min_eq_left (by omega),
        take_activeChain (contains_activeChain.1 (decide_eq_true hcontains))]
  · cases (mem_replicate.1 (mem_of_getElem? hcontains)).2

theorem setTips (tips : List (Option CBlockIndex)) :
    tips.foldl CChain.setTip [] = (tips.getLast?.join.map activeChain).getD [] := by
  induction tips using List.reverseRecOn with
  | nil => rfl
  | append_singleton tips tip ih =>
    rw [foldl_concat, ih, getLast?_concat]
    cases tip with
    | none => rfl
    | some i =>
      refine setTip_eq i ?_
      cases tips.getLast?.join with
      | none => exact Or.inl rfl
      | some t => exact Or.inr ⟨t, rfl⟩

theorem find_ancestors (i t : CBlockIndex) : ∃ f, i.ancestors.find? t.activeChain.contains = some f ∧ LastCommon f i t := by
  induction i with
  | genesis =>
    have hmem := genesis_mem_ancestors t
    exact ⟨genesis, find?_cons_of_pos (contains_activeChain.2 hmem), .of_mem hmem⟩
  | next pprev block ih =>
    by_cases h : next pprev block ∈ t.ancestors
    · exact ⟨_, find?_cons_of_pos (contains_activeChain.2 h), .of_mem h⟩
    · obtain ⟨f, hf, hlast⟩ := ih
      exact ⟨f, (find?_cons_of_neg (mt contains_activeChain.1 h)).trans hf, hlast.next h⟩

theorem findFork_activeChain (i t : CBlockIndex) : ∃ fork, t.activeChain.findFork i = some fork ∧ LastCommon fork i t := by
  have hheight : (t.activeChain.length : Int) - 1 = t.nHeight := by
    rw [length_activeChain]
    omega
  rw [CChain.findFork, hheight]
  split_ifs with h
  · rw [skipAncestor_eq (by omega)]
    obtain ⟨f, hf, hlast⟩ := find_ancestors (i.walkTo t.nHeight) t
    exact ⟨f, hf, hlast.of_walkTo le_rfl⟩
  · exact find_ancestors i t

/-- Jumps change nothing: `GetAncestor` and `LastCommonAncestor` find what `pprev` leads to. After any calls of `SetTip` the active
chain is the path to the tip, and `FindFork` finds where another path leaves it. -/
theorem skip_list_exact (i j : CBlockIndex) (tips : List (Option CBlockIndex)) :
    (∀ height : Int, i.skipAncestor height = if 0 ≤ height then i.getAncestor height.toNat else none) ∧
    (∃ fork, i.lastCommonEntry j = some fork ∧ LastCommon fork i j) ∧
    let vChain : CChain := tips.foldl CChain.setTip []
    match tips.getLast?.join with
    | none => vChain = [] ∧ vChain.findFork i = none
    | some tip => vChain = (tip.ancestors.map some).reverse ∧ ∃ fork, vChain.findFork i = some fork ∧ LastCommon fork i tip := by
  refine ⟨fun height => ?_, lastCommonEntry_spec i j, ?_⟩
  · by_cases h : 0 ≤ height ∧ height ≤ i.nHeight
    · obtain ⟨n, rfl⟩ := Int.eq_ofNat_of_zero_le h.1
      rw [skipAncestor_eq (by omega), if_pos h.1, Int.toNat_natCast, getAncestor, if_neg (by omega)]
    · rw [skipAncestor, SkipIndex.getAncestor, nHeight_entry, if_pos (by omega), Option.map_none]
      split_ifs
      · exact (if_pos (by omega)).symm
      · rfl
  · rw [setTips]
    cases tips.getLast?.join with
    | none => exact ⟨rfl, rfl⟩
    | some tip => exact ⟨rfl, findFork_activeChain i tip⟩

end CBlockIndex

end Hivecoin

import Mathlib.Algebra.BigOperators.Group.Finset.Basic
import Mathlib.Algebra.BigOperators.Group.List.Lemmas

/-!
# Subset sums by trial
-/

namespace SubsetSum

open List

variable {α : Type} [AddCommGroup α]

def sumOf (value : Nat → α) (n : Nat) (included : Nat → Bool) : α := ∑ i ∈ Finset.range n, if included i then value i else 0

theorem sumOf_include (value : Nat → α) {n included i} (hi : i < n) (h : included i = false) :
    sumOf value n (Function.update included i true) = sumOf value n included + value i := by
  have hmem : i ∈ Finset.range n := Finset.mem_range.mpr hi
  have hrest : ∀ j ∈ (Finset.range n).erase i,
      (if Function.update included i true j then value j else 0) = if included j then value j else 0 := fun j hj => by
    rw [Function.update_of_ne (Finset.ne_of_mem_erase hj)]
  rw [sumOf, sumOf, ← Finset.add_sum_erase _ _ hmem, ← Finset.add_sum_erase _ (fun j => if included j then value j else 0) hmem,
    Finset.sum_congr rfl hrest]
  simp [h, add_comm]

variable [LE α] [LT α] [DecidableLE α] [DecidableLT α]

/-- The search so far: sum and members of the current subset, and of the best. -/
structure State (α : Type) where
  nTotal : α
  vfIncluded : Nat → Bool
  fReachedTarget : Bool
  nBest : α
  vfBest : Nat → Bool

section

variable (value : Nat → α) (target : α)

/-- Takes one more value; one that reaches the target is noted and left out again. -/
def includeValue (st : State α) (i : Nat) : State α :=
  let nTotal := st.nTotal + value i
  let vfIncluded := Function.update st.vfIncluded i true
  if target ≤ nTotal then
    { nTotal := nTotal - value i
      vfIncluded := Function.update vfIncluded i false
      fReachedTarget := true
      nBest := if nTotal < st.nBest then nTotal else st.nBest
      vfBest := if nTotal < st.nBest then vfIncluded else st.vfBest }
  else { st with nTotal, vfIncluded }

/-- The first pass takes values at random. -/
def randomPass (n : Nat) (bits : Nat → Bool) (st : State α) : State α :=
  (range n).foldl (fun st i => if bits i then includeValue value target st i else st) st

/-- The second pass takes the values that are not included. -/
def restPass (n : Nat) (st : State α) : State α :=
  (range n).foldl (fun st i => if !st.vfIncluded i then includeValue value target st i else st) st

def round (n : Nat) (bits : Nat → Bool) (st : State α) : State α :=
  let st := randomPass value target n bits { st with nTotal := 0, vfIncluded := fun _ => false, fReachedTarget := false }
  if st.fReachedTarget then st else restPass value target n st

/-- The rounds stop when the target is met exactly. -/
def search [DecidableEq α] (n : Nat) (total : α) (bits : Nat → Nat → Bool) (iterations : Nat) : State α :=
  (range iterations).foldl (fun st nRep => if st.nBest = target then st else round value target n (bits nRep) st)
    ⟨0, fun _ => false, false, total, fun _ => true⟩

end

variable {value : Nat → α} {target : α} {n : Nat}

/-- The sums are those of the subsets, and the best one reaches the target. -/
structure Sound (value : Nat → α) (target : α) (n : Nat) (st : State α) : Prop where
  total : st.nTotal = sumOf value n st.vfIncluded
  best : st.nBest = sumOf value n st.vfBest
  reaches : target ≤ st.nBest

theorem Sound.includeValue {st} (h : Sound value target n st) {i} (hi : i < n) (hout : st.vfIncluded i = false) :
    Sound value target n (includeValue value target st i) := by
  have hsum := sumOf_include value hi hout
  have hback : Function.update (Function.update st.vfIncluded i true) i false = st.vfIncluded := by
    rw [Function.update_idem, ← hout, Function.update_eq_self]
  rw [SubsetSum.includeValue]
  split
  · rename_i hreach
    refine ⟨?_, ?_, ?_⟩
    · simp only [hback, add_sub_cancel_right]
      exact h.total
    · dsimp only
      split
      · rw [hsum, h.total]
      · exact h.best
    · dsimp only
      split
      · exact hreach
      · exact h.reaches
  · exact ⟨by rw [hsum, h.total], h.best, h.reaches⟩

theorem includeValue_included_of_ne (st : State α) {i j} (h : j ≠ i) :
    (includeValue value target st i).vfIncluded j = st.vfIncluded j := by
  rw [includeValue]
  split
  · simp [h]
  · simp [h]

/-- In the first pass the values to come are not included. -/
theorem Sound.randomPass {st} (h : Sound value target n st) (hnone : ∀ i, st.vfIncluded i = false) (bits : Nat → Bool) :
    Sound value target n (randomPass value target n bits st) := by
  have hpass : ∀ k ≤ n, ∀ st', st' = (range k).foldl
      (fun st i => if bits i then SubsetSum.includeValue value target st i else st) st →
      Sound value target n st' ∧ ∀ j, k ≤ j → st'.vfIncluded j = false := by
    intro k
    induction k with
    | zero =>
      rintro - st' rfl
      exact ⟨h, fun j _ => hnone j⟩
    | succ k ih =>
      rintro hk st' rfl
      obtain ⟨hsound, hout⟩ := ih (by omega) _ rfl
      rw [range_succ, foldl_append, foldl_cons, foldl_nil]
      split
      · exact ⟨hsound.includeValue hk (hout k (le_refl k)), fun j hj => by
          rw [includeValue_included_of_ne _ (by omega), hout j (by omega)]⟩
      · exact ⟨hsound, fun j hj => hout j (by omega)⟩
  exact (hpass n (le_refl n) _ rfl).1

theorem Sound.restPass {st} (h : Sound value target n st) : Sound value target n (restPass value target n st) := by
  refine foldlRecOn (motive := Sound value target n) _ _ h fun st hst i hi => ?_
  split
  · rename_i hout
    exact hst.includeValue (mem_range.mp hi) (by simpa using hout)
  · exact hst

theorem Sound.round {st} (h : Sound value target n st) (bits : Nat → Bool) : Sound value target n (round value target n bits st) := by
  have hstart : Sound value target n { st with nTotal := 0, vfIncluded := fun _ => false, fReachedTarget := false } :=
    ⟨by simp [sumOf], h.best, h.reaches⟩
  rw [SubsetSum.round]
  split
  · exact hstart.randomPass (fun _ => rfl) bits
  · exact (hstart.randomPass (fun _ => rfl) bits).restPass

/-- Where all values together reach the target, the search keeps a subset that does. -/
theorem search_sound [DecidableEq α] {total} (htotal : total = sumOf value n fun _ => true) (h : target ≤ total) (bits : Nat → Nat → Bool)
    (iterations : Nat) : Sound value target n (search value target n total bits iterations) := by
  refine foldlRecOn (motive := Sound value target n) _ _ ⟨by simp [sumOf], htotal, h⟩ fun st hst nRep _ => ?_
  split
  · exact hst
  · exact hst.round _

end SubsetSum

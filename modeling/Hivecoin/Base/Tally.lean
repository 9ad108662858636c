import Mathlib.Algebra.Order.BigOperators.Group.List
import Mathlib.Algebra.Ring.Int.Defs
import Mathlib.Data.List.Induction
import Hivecoin.Base.Table

/-!
# Tallies in machine arithmetic
-/

abbrev Tally (K : Type) : Type := Table K Int64

/-- Twice the first number that a signed 64-bit total cannot hold. -/
abbrev Tally.modulus : Nat := 2 ^ 64

namespace Tally

open List

variable {K : Type} [DecidableEq K]

def add (t : Tally K) (k : K) (v : Int64) : Tally K :=
  match t.get? k with
  | some total => t.insert k (total + v)
  | none => t.insert k v

def ofList (l : List (K × Int64)) : Tally K := l.foldl (fun t e => t.add e.1 e.2) (∅ : Table K Int64)

def exact (l : List (K × Int64)) (k : K) : Int :=
  ((l.filter fun e => e.1 = k).map fun e => e.2.toInt).sum

/-- How often a 64-bit total wraps on its way to an exact value. -/
def wraps (x : Int) : Int := x.bdiv modulus

theorem get?_add (t : Tally K) (k a : K) (v : Int64) :
    (t.add k v).get? a = if a = k then some ((t.get? k).getD 0 + v) else t.get? a := by
  unfold add
  cases h : t.get? k with
  | none => by_cases ha : a = k <;> simp [Table.get?_insert, ha]
  | some total => by_cases ha : a = k <;> simp [Table.get?_insert, ha]

theorem exact_append (l1 l2 : List (K × Int64)) (k : K) : exact (l1 ++ l2) k = exact l1 k + exact l2 k := by
  simp [exact]

theorem exact_cons (e : K × Int64) (l : List (K × Int64)) (k : K) : exact (e :: l) k = exact [e] k + exact l k :=
  exact_append [e] l k

theorem exact_perm {l1 l2} (h : l1.Perm l2) (k : K) : exact l1 k = exact l2 k :=
  ((h.filter _).map _).sum_eq

theorem exact_filterMap {α : Type} (f : α → Option (K × Int64)) (l : List α) (k : K) :
    exact (l.filterMap f) k = (l.map fun a => exact (f a).toList k).sum := by
  induction l with
  | nil => rfl
  | cons a l ih =>
    rw [map_cons, sum_cons, ← ih, ← exact_append]
    cases h : f a <;> simp [h]

theorem exact_singleton (e : K × Int64) (k : K) : exact [e] k = if e.1 = k then e.2.toInt else 0 := by
  by_cases h : e.1 = k <;> simp [exact, h]

/-- There is an entry for each key that occurs, with the wrapped total. -/
theorem get?_ofList (l : List (K × Int64)) (k : K) :
    (((ofList l).get? k).isSome ↔ ∃ v, (k, v) ∈ l) ∧
    (((ofList l).get? k).getD 0).toInt = (exact l k).bmod modulus := by
  induction l using reverseRecOn with
  | nil => simp [ofList, exact]
  | append_singleton l e ih =>
    obtain ⟨ih1, ih2⟩ := ih
    have hstep : ofList (l ++ [e]) = (ofList l).add e.1 e.2 := by simp [ofList]
    rw [hstep, get?_add, exact_append, exact_singleton]
    by_cases h : k = e.1
    · subst h
      refine ⟨by simp; exact ⟨e.2, Or.inr rfl⟩, ?_⟩
      simp only [if_true, Option.getD_some, Int64.toInt_add, ih2]
      rw [Int.bmod_add_bmod]
    · have h' : ¬ e.1 = k := fun he => h he.symm
      refine ⟨?_, by simpa [h, h'] using ih2⟩
      rw [if_neg h, ih1]
      constructor
      · rintro ⟨v, hv⟩; exact ⟨v, mem_append_left _ hv⟩
      · rintro ⟨v, hv⟩
        rcases mem_append.mp hv with hv | hv
        · exact ⟨v, hv⟩
        · exact absurd (by simpa using congrArg Prod.fst (mem_singleton.mp hv)) h

theorem exact_eq_zero {l : List (K × Int64)} {k} (h : ¬ ∃ v, (k, v) ∈ l) : exact l k = 0 := by
  have hnil : l.filter (fun e => e.1 = k) = [] := by
    rw [filter_eq_nil_iff]
    rintro ⟨a, v⟩ he hk
    simp only [decide_eq_true_eq] at hk
    exact h ⟨v, hk ▸ he⟩
  simp [exact, hnil]

theorem exact_nonneg {l} (h : ∀ e ∈ l, 0 ≤ e.2.toInt) (k : K) : 0 ≤ exact l k := by
  refine sum_nonneg fun x hx => ?_
  obtain ⟨e, he, rfl⟩ := mem_map.mp hx
  exact h e (mem_filter.mp he).1

/-- Where every key has one entry, its total is this entry. -/
theorem exact_of_nodup {l : List (K × Int64)} (h : (l.map Prod.fst).Nodup) {e : K × Int64} (he : e ∈ l) :
    exact l e.1 = e.2.toInt := by
  induction l with
  | nil => cases he
  | cons a l ih =>
    obtain ⟨hnot, hnodup⟩ := nodup_cons.mp h
    rw [exact_cons, exact_singleton]
    rcases mem_cons.mp he with rfl | he
    · rw [if_pos rfl, exact_eq_zero fun ⟨v, hv⟩ => hnot (mem_map.mpr ⟨_, hv, rfl⟩), Int.add_zero]
    · rw [ih hnodup he, if_neg fun heq : a.1 = e.1 => hnot (heq ▸ mem_map_of_mem he), Int.zero_add]

/-- Tallies that agree have the same exact totals where they wrap equally often. -/
theorem exact_eq_iff_wraps_eq {l1 l2 : List (K × Int64)} {k : K}
    (h : (ofList l1).get? k = (ofList l2).get? k) :
    exact l1 k = exact l2 k ↔ wraps (exact l1 k) = wraps (exact l2 k) := by
  have hmod : (exact l1 k).bmod modulus = (exact l2 k).bmod modulus := by
    rw [← (get?_ofList l1 k).2, ← (get?_ofList l2 k).2, h]
  constructor
  · intro he; rw [he]
  · intro hw
    rw [← Int.bmod_add_bdiv (exact l1 k) modulus, ← Int.bmod_add_bdiv (exact l2 k) modulus, hmod]
    rw [wraps, wraps] at hw
    rw [hw]

/-- Of tallies that agree, one that has not wrapped is not above the other. -/
theorem exact_le_of_get?_eq {l1 l2 : List (K × Int64)} {k : K} (h : (ofList l1).get? k = (ofList l2).get? k)
    (h1 : exact l1 k < 2 ^ 63) (h2 : 0 ≤ exact l2 k) : exact l1 k ≤ exact l2 k := by
  have hmod : (exact l1 k).bmod modulus = (exact l2 k).bmod modulus := by
    rw [← (get?_ofList l1 k).2, ← (get?_ofList l2 k).2, h]
  have hw1 := Int.bmod_add_bdiv (exact l1 k) modulus
  have hw2 := Int.bmod_add_bdiv (exact l2 k) modulus
  rw [← hmod] at hw2
  simp only [modulus] at hw1 hw2
  omega

end Tally

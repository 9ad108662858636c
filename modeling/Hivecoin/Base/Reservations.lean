import Hivecoin.Base.Table

/-!
# Reserved names
-/

structure Reservations (N H : Type) where
  holder : Table N H
  held : Table H N

namespace Reservations

open Table Option List

variable {N H : Type} [DecidableEq N] [DecidableEq H]

def release (r : Reservations N H) (h : H) : Reservations N H :=
  match r.held.get? h with
  | none => r
  | some n => ⟨r.holder.erase n, r.held.erase h⟩

/-- The same where the name is reserved. -/
def releaseReserved (r : Reservations N H) (h : H) : Reservations N H :=
  match r.held.get? h with
  | none => r
  | some n => if r.holder.contains n then ⟨r.holder.erase n, r.held.erase h⟩ else r

def reserve (r : Reservations N H) (h : H) (n : N) : Reservations N H := ⟨r.holder.insert n h, r.held.insert h n⟩

/-- Leaves earlier entries as they are. -/
def reserveNew (r : Reservations N H) (h : H) (n : N) : Reservations N H := ⟨r.holder.insertNew n h, r.held.insertNew h n⟩

/-- The table back leads to names of the holder, as far as the names are in `V`. -/
def Paired (V : N → Prop) (r : Reservations N H) : Prop := ∀ h n, r.held.get? h = some n → V n → r.holder.get? n = some h

variable {V : N → Prop} {r : Reservations N H} {h k : H} {n a : N}

theorem release_of_none (hnone : r.held.get? h = none) : r.release h = r := by
  simp only [release, hnone]

theorem release_of_some (hsome : r.held.get? h = some n) : r.release h = ⟨r.holder.erase n, r.held.erase h⟩ := by
  simp only [release, hsome]

theorem Paired.releaseReserved_eq (hpaired : r.Paired fun _ => True) (h : H) : r.releaseReserved h = r.release h := by
  cases hheld : r.held.get? h with
  | none => simp only [releaseReserved, release, hheld]
  | some n =>
    have hcontains : r.holder.contains n = true := contains_iff.2 ⟨h, hpaired h n hheld trivial⟩
    simp only [releaseReserved, release, hheld, hcontains, if_true]

theorem holder_of_release (hget : (r.release h).holder.get? a = some k) : r.holder.get? a = some k := by
  cases hheld : r.held.get? h with
  | none => rwa [release_of_none hheld] at hget
  | some n =>
    rw [release_of_some hheld, get?_erase] at hget
    split at hget
    · cases hget
    · exact hget

theorem held_of_release (hget : (r.release h).held.get? k = some a) : k ≠ h ∧ r.held.get? k = some a := by
  cases hheld : r.held.get? h with
  | none =>
    rw [release_of_none hheld] at hget
    refine ⟨?_, hget⟩
    rintro rfl
    rw [hheld] at hget
    cases hget
  | some n =>
    rw [release_of_some hheld, get?_erase] at hget
    split at hget
    · cases hget
    · exact ⟨‹_›, hget⟩

/-- The names of the other holders stay reserved. -/
theorem Paired.holder_release (hpaired : r.Paired V) (ha : V a) (hne : k ≠ h) (hget : r.holder.get? a = some k) :
    (r.release h).holder.get? a = some k := by
  cases hheld : r.held.get? h with
  | none => rwa [release_of_none hheld]
  | some n =>
    rw [release_of_some hheld, get?_erase]
    split
    · rename_i heq
      subst heq
      rw [hpaired h _ hheld ha, some.injEq] at hget
      exact absurd hget.symm hne
    · exact hget

theorem Paired.release (hpaired : r.Paired V) (h : H) : (r.release h).Paired V := by
  intro k a hget ha
  obtain ⟨hne, hheld⟩ := held_of_release hget
  exact hpaired.holder_release ha hne (hpaired k a hheld ha)

theorem of_holder_reserve (hget : (r.reserve h n).holder.get? a = some k) : k = h ∨ r.holder.get? a = some k := by
  simp only [reserve, get?_insert] at hget
  split at hget
  · exact Or.inl (some.inj hget).symm
  · exact Or.inr hget

theorem of_holder_reserveNew (hget : (r.reserveNew h n).holder.get? a = some k) : k = h ∨ r.holder.get? a = some k := by
  simp only [reserveNew, get?_insertNew] at hget
  split at hget
  · rename_i heq
    subst heq
    cases hn : r.holder.get? a with
    | none =>
      rw [hn, getD_none, some.injEq] at hget
      exact Or.inl hget.symm
    | some j =>
      rw [hn, getD_some] at hget
      exact Or.inr hget
  · exact Or.inr hget

theorem Paired.reserve (hpaired : r.Paired V) (hfree : V n → ∀ k, r.holder.get? n = some k → k = h) : (r.reserve h n).Paired V := by
  intro k a hget ha
  simp only [Reservations.reserve, get?_insert] at hget ⊢
  split at hget
  · cases hget
    rename_i heq
    rw [if_pos rfl, heq]
  · rename_i hne
    have hholder := hpaired k a hget ha
    split
    · rename_i heq
      subst heq
      exact absurd (hfree ha k hholder) hne
    · exact hholder

theorem holder_reserveNew (hget : r.holder.get? a = some k) : (r.reserveNew h n).holder.get? a = some k := by
  simp only [reserveNew, get?_insertNew]
  split
  · rename_i heq
    rw [← heq, hget, getD_some]
  · exact hget

theorem holder_reserveNew_self (hfree : ∀ k, r.holder.get? n = some k → k = h) : (r.reserveNew h n).holder.get? n = some h := by
  simp only [reserveNew, get?_insertNew, if_true, some.injEq]
  cases hget : r.holder.get? n with
  | none => rfl
  | some k => exact hfree k hget

theorem Paired.reserveNew (hpaired : r.Paired V) (hfree : V n → ∀ k, r.holder.get? n = some k → k = h) : (r.reserveNew h n).Paired V := by
  intro k a hget ha
  cases hheld : r.held.get? k with
  | some m =>
    have hsame : m = a := by
      simp only [Reservations.reserveNew, get?_insertNew] at hget
      split at hget
      · rename_i heq
        subst heq
        simpa [hheld] using hget
      · rw [hheld, some.injEq] at hget
        exact hget
    subst hsame
    exact holder_reserveNew (hpaired k m hheld ha)
  | none =>
    simp only [Reservations.reserveNew, get?_insertNew, hheld] at hget
    split at hget
    · rename_i heq
      subst heq
      rw [hheld, getD_none, some.injEq] at hget
      subst hget
      exact holder_reserveNew_self (hfree ha)
    · cases hget

theorem holder_foldl_reserve (h : H) (names : List N) (a : N) :
    (names.foldl (fun r n => r.reserve h n) r).holder.get? a = if a ∈ names then some h else r.holder.get? a := by
  induction names generalizing r with
  | nil => simp
  | cons n names ih =>
    rw [foldl_cons, ih, reserve, get?_insert]
    by_cases ha : a ∈ names
    · simp [ha]
    · simp [ha]

theorem Paired.foldl_reserve {names : List N} (hpaired : r.Paired V) (hfree : ∀ n ∈ names, V n → ∀ k, r.holder.get? n = some k → k = h) :
    (names.foldl (fun r n => r.reserve h n) r).Paired V := by
  induction names generalizing r with
  | nil => exact hpaired
  | cons n names ih =>
    refine ih (hpaired.reserve (hfree n mem_cons_self)) fun m hm hV k hget => ?_
    exact (of_holder_reserve hget).elim id (hfree m (mem_cons_of_mem _ hm) hV k)

theorem holder_foldl_reserveNew {names : List N} (hget : r.holder.get? a = some k) :
    (names.foldl (fun r n => r.reserveNew h n) r).holder.get? a = some k := by
  induction names generalizing r with
  | nil => exact hget
  | cons n names ih => exact ih (holder_reserveNew hget)

theorem holder_foldl_reserveNew_self {names : List N} (hfree : ∀ n ∈ names, ∀ k, r.holder.get? n = some k → k = h) (ha : a ∈ names) :
    (names.foldl (fun r n => r.reserveNew h n) r).holder.get? a = some h := by
  induction names generalizing r with
  | nil => cases ha
  | cons n names ih =>
    rw [foldl_cons]
    rcases mem_cons.1 ha with rfl | ha
    · exact holder_foldl_reserveNew (holder_reserveNew_self (hfree a mem_cons_self))
    · exact ih (fun m hm k hget => (of_holder_reserveNew hget).elim id (hfree m (mem_cons_of_mem _ hm) k)) ha

theorem Paired.foldl_reserveNew {names : List N} (hpaired : r.Paired V) (hfree : ∀ n ∈ names, ∀ k, r.holder.get? n = some k → k = h) :
    (names.foldl (fun r n => r.reserveNew h n) r).Paired V := by
  induction names generalizing r with
  | nil => exact hpaired
  | cons n names ih =>
    refine ih (hpaired.reserveNew fun _ => hfree n mem_cons_self) fun m hm k hget => ?_
    exact (of_holder_reserveNew hget).elim id (hfree m (mem_cons_of_mem _ hm) k)

end Reservations

import Mathlib.Algebra.BigOperators.Group.List.Basic
import Mathlib.Algebra.Ring.Int.Defs

/-!
# Splitting outside brackets
-/

namespace TopLevel

open List

variable {α : Type}

def depth (w : α → Int) (s : List α) : Int := (s.map w).sum

def Nested (w : α → Int) : Int → List α → Prop
  | d, [] => 0 ≤ d
  | d, c :: s => 0 ≤ d ∧ Nested w (d + w c) s

def parts [DecidableEq α] (w : α → Int) (sep : α) (d : Int) : List α → List (List α)
  | [] => [[]]
  | c :: s => if d = 0 ∧ c = sep then [] :: parts w sep 0 s else (parts w sep (d + w c) s).modifyHead (c :: ·)

variable {w : α → Int} {d : Int} {c : α} {s t : List α}

@[simp] theorem depth_nil : depth w ([] : List α) = 0 := rfl

@[simp] theorem depth_cons : depth w (c :: s) = w c + depth w s := rfl

@[simp] theorem depth_append : depth w (s ++ t) = depth w s + depth w t := by
  simp [depth]

theorem depth_eq_zero (h : ∀ c ∈ s, w c = 0) : depth w s = 0 := by
  induction s with
  | nil => rfl
  | cons c s ih =>
    rw [depth_cons, h c mem_cons_self, ih fun x hx => h x (mem_cons_of_mem _ hx), Int.add_zero]

theorem nested_of_weightless (hd : 0 ≤ d) (h : ∀ c ∈ s, w c = 0) : Nested w d s := by
  induction s with
  | nil => exact hd
  | cons c s ih =>
    refine ⟨hd, ?_⟩
    rw [h c mem_cons_self, Int.add_zero]
    exact ih fun x hx => h x (mem_cons_of_mem _ hx)

theorem Nested.append (hs : Nested w d s) (ht : Nested w (d + depth w s) t) : Nested w d (s ++ t) := by
  induction s generalizing d with
  | nil => simpa using ht
  | cons c s ih =>
    rw [depth_cons, ← Int.add_assoc] at ht
    exact ⟨hs.1, ih hs.2 ht⟩

theorem Nested.mono {d'} (hs : Nested w d s) (hd : d ≤ d') : Nested w d' s := by
  induction s generalizing d d' with
  | nil => exact Int.le_trans hs hd
  | cons c s ih => exact ⟨Int.le_trans hs.1 hd, ih hs.2 (Int.add_le_add_right hd _)⟩

/-! ## Parts -/

variable [DecidableEq α] {sep : α}

theorem parts_ne_nil (w : α → Int) (sep : α) (d : Int) (s : List α) : parts w sep d s ≠ [] := by
  induction s generalizing d with
  | nil => simp [parts]
  | cons c s ih =>
    rw [parts]
    split
    · simp
    · intro h
      exact ih (d + w c) (modifyHead_eq_nil_iff.1 h)

theorem parts_sep : parts w sep 0 (sep :: s) = [] :: parts w sep 0 s := by
  simp [parts]

theorem parts_cons (h : ¬(d = 0 ∧ c = sep)) : parts w sep d (c :: s) = (parts w sep (d + w c) s).modifyHead (c :: ·) := by
  rw [parts, if_neg h]

theorem Nested.parts (h : Nested w d s) : parts w sep (d + 1) s = [s] := by
  induction s generalizing d with
  | nil => rfl
  | cons c s ih =>
    have hd : 0 ≤ d := h.1
    rw [parts_cons (by omega), show d + 1 + w c = d + w c + 1 by omega, ih h.2, modifyHead_cons]

theorem parts_append (h : parts w sep d s = [s]) (t : List α) :
    parts w sep d (s ++ t) = (parts w sep (d + depth w s) t).modifyHead (s ++ ·) := by
  induction s generalizing d with
  | nil =>
    rw [nil_append, depth_nil, Int.add_zero]
    cases parts w sep d t <;> rfl
  | cons c s ih =>
    by_cases hc : d = 0 ∧ c = sep
    · obtain ⟨rfl, rfl⟩ := hc
      rw [parts_sep] at h
      cases h
    · rw [parts_cons hc] at h
      have hs : parts w sep (d + w c) s = [s] := by
        cases hp : parts w sep (d + w c) s with
        | nil => exact absurd hp (parts_ne_nil _ _ _ _)
        | cons p ps =>
          rw [hp, modifyHead_cons] at h
          obtain ⟨hhead, rfl⟩ := cons.inj h
          rw [(cons.inj hhead).2]
      rw [cons_append, parts_cons hc, ih hs, depth_cons, Int.add_assoc, modifyHead_modifyHead]
      rfl

theorem parts_append_sep (h : parts w sep 0 s = [s]) (hd : depth w s = 0) (t : List α) :
    parts w sep 0 (s ++ sep :: t) = s :: parts w sep 0 t := by
  rw [parts_append h, hd, Int.add_zero, parts_sep, modifyHead_cons, append_nil]

theorem parts_of_not_mem (h : sep ∉ s) (d : Int) : parts w sep d s = [s] := by
  induction s generalizing d with
  | nil => rfl
  | cons c s ih =>
    rw [mem_cons, not_or] at h
    rw [parts_cons fun hc => h.1 hc.2.symm, ih h.2, modifyHead_cons]

/-- A list without separators outside brackets, cut anywhere. -/
theorem parts_eq_of_append (h : parts w sep d (s ++ t) = [s ++ t]) :
    parts w sep d s = [s] ∧ parts w sep (d + depth w s) t = [t] := by
  induction s generalizing d with
  | nil => exact ⟨rfl, by simpa using h⟩
  | cons c s ih =>
    by_cases hc : d = 0 ∧ c = sep
    · obtain ⟨rfl, rfl⟩ := hc
      rw [cons_append, parts_sep] at h
      cases h
    · rw [cons_append, parts_cons hc] at h
      have hrest : parts w sep (d + w c) (s ++ t) = [s ++ t] := by
        cases hp : parts w sep (d + w c) (s ++ t) with
        | nil => exact absurd hp (parts_ne_nil _ _ _ _)
        | cons p ps =>
          rw [hp, modifyHead_cons] at h
          obtain ⟨hhead, rfl⟩ := cons.inj h
          rw [(cons.inj hhead).2]
      obtain ⟨hs, ht⟩ := ih hrest
      rw [parts_cons hc, hs, modifyHead_cons, depth_cons, ← Int.add_assoc]
      exact ⟨rfl, ht⟩

/-- Each part is a part of its own; the first one is read at `d`. -/
theorem parts_self (d : Int) (s : List α) :
    (∀ p ∈ (parts w sep d s).tail, parts w sep 0 p = [p]) ∧ ∀ p ∈ (parts w sep d s).head?, parts w sep d p = [p] := by
  induction s generalizing d with
  | nil => simp [parts]
  | cons c s ih =>
    by_cases hc : d = 0 ∧ c = sep
    · obtain ⟨rfl, rfl⟩ := hc
      rw [parts_sep]
      refine ⟨fun p hp => ?_, fun p hp => ?_⟩
      · cases hs : parts w c 0 s with
        | nil => exact absurd hs (parts_ne_nil _ _ _ _)
        | cons q qs =>
          rw [tail_cons, hs, mem_cons] at hp
          rcases hp with rfl | hp
          · exact (ih 0).2 p (by rw [hs]; rfl)
          · exact (ih 0).1 p (by rw [hs]; exact hp)
      · obtain rfl : [] = p := by simpa using hp
        rfl
    · rw [parts_cons hc]
      cases hs : parts w sep (d + w c) s with
      | nil => exact absurd hs (parts_ne_nil _ _ _ _)
      | cons q qs =>
        rw [modifyHead_cons]
        refine ⟨fun p hp => (ih (d + w c)).1 p (by rw [hs]; exact hp), fun p hp => ?_⟩
        obtain rfl : c :: q = p := by simpa using hp
        rw [parts_cons hc, (ih (d + w c)).2 q (by rw [hs]; rfl), modifyHead_cons]

theorem parts_of_mem {p} (h : p ∈ parts w sep 0 s) : parts w sep 0 p = [p] := by
  have hself := @parts_self α w _ sep 0 s
  cases hs : parts w sep 0 s with
  | nil => exact absurd hs (parts_ne_nil _ _ _ _)
  | cons q qs =>
    rw [hs] at h hself
    rcases mem_cons.1 h with rfl | h
    · exact hself.2 p rfl
    · exact hself.1 p h

/-- The parts with the separators between them are the list. -/
theorem intercalate_parts (d : Int) (s : List α) : [sep].intercalate (parts w sep d s) = s := by
  induction s generalizing d with
  | nil => rfl
  | cons c s ih =>
    by_cases hc : d = 0 ∧ c = sep
    · obtain ⟨rfl, rfl⟩ := hc
      rw [parts_sep, intercalate_cons_of_ne_nil (parts_ne_nil _ _ _ _), ih]
      rfl
    · rw [parts_cons hc]
      have hs := ih (d + w c)
      cases hp : parts w sep (d + w c) s with
      | nil => exact absurd hp (parts_ne_nil _ _ _ _)
      | cons q qs =>
        rw [hp] at hs
        rw [modifyHead_cons]
        cases qs with
        | nil => simpa using hs
        | cons r rs =>
          rw [intercalate_cons_of_ne_nil (by simp)] at hs ⊢
          rw [cons_append, cons_append, ← hs]

end TopLevel

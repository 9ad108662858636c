import Mathlib.Init

/-!
# Write-back caches

An entry may be erased, may differ from the parent (`dirty`) and may have no value there (`fresh`).
-/

namespace WriteBack

structure Entry (V : Type) where
  value : Option V
  dirty : Bool
  fresh : Bool

variable {V : Type}

/-- What is seen through a cache: its entry, or else the parent. -/
def seen (parent : Option V) : Option (Entry V) → Option V
  | some e => e.value
  | none => parent

structure Sound (parent : Option V) (entry : Option (Entry V)) : Prop where
  clean : ∀ e ∈ entry, e.dirty = false → e.value = parent
  fresh : ∀ e ∈ entry, e.fresh = true → parent = none

variable {parent : Option V} {entry : Option (Entry V)}

theorem sound_none : Sound parent none where
  clean := by
    rintro e he
    cases he
  fresh := by
    rintro e he
    cases he

theorem sound_fetched {fresh} (h : fresh = true → parent = none) : Sound parent (some ⟨parent, false, fresh⟩) where
  clean := by
    rintro e he -
    cases he
    rfl
  fresh := by
    rintro e he hfresh
    cases he
    exact h hfresh

theorem sound_dirty {value fresh} (h : fresh = true → parent = none) :
    Sound parent (some ⟨value, true, fresh⟩) where
  clean := by
    rintro e he hclean
    cases he
    cases hclean
  fresh := by
    rintro e he hfresh
    cases he
    exact h hfresh

theorem Sound.seen_of_clean {e} (h : Sound parent (some e)) (hclean : e.dirty = false) :
    seen parent (some e) = parent := h.clean e rfl hclean

/-- An entry the parent does not have is dropped, any other kept for the next write. -/
def erase (e : Entry V) : Option (Entry V) := if e.fresh then none else some ⟨none, true, e.fresh⟩

theorem Sound.erase {e} (h : Sound parent (some e)) : Sound parent (WriteBack.erase e) ∧
    seen parent (WriteBack.erase e) = none := by
  unfold WriteBack.erase
  split
  · exact ⟨sound_none, h.fresh e rfl ‹_›⟩
  · exact ⟨sound_dirty fun hfresh => absurd hfresh ‹_›, rfl⟩

/-- What a dirty entry of a child does to the entry of its parent. -/
def merge (child : Entry V) : Option (Entry V) → Option (Entry V)
  | none => if child.fresh && child.value.isNone then none else some ⟨child.value, true, child.fresh⟩
  | some e => if e.fresh && child.value.isNone then none else some ⟨child.value, true, e.fresh⟩

/-- A child that calls its entry fresh finds no value in the parent. -/
theorem Sound.value_of_fresh {child e} (h : Sound (seen parent (some e)) (some child)) (hfresh : child.fresh = true) :
    e.value = none := h.fresh child rfl hfresh

/-- After the merge the parent shows the value of the child. -/
theorem Sound.merge {child} (h : Sound parent entry) (hchild : Sound (seen parent entry) (some child)) :
    Sound parent (WriteBack.merge child entry) ∧ seen parent (WriteBack.merge child entry) = child.value := by
  cases entry with
  | none =>
    have hparent : child.fresh = true → parent = none := hchild.fresh child rfl
    rw [WriteBack.merge]
    split
    · rename_i hgone
      rw [Bool.and_eq_true, Option.isNone_iff_eq_none] at hgone
      exact ⟨sound_none, by rw [hgone.2]; exact hparent hgone.1⟩
    · exact ⟨sound_dirty hparent, rfl⟩
  | some e =>
    rw [WriteBack.merge]
    split
    · rename_i hgone
      rw [Bool.and_eq_true, Option.isNone_iff_eq_none] at hgone
      exact ⟨sound_none, by rw [hgone.2]; exact h.fresh e rfl hgone.1⟩
    · exact ⟨sound_dirty (h.fresh e rfl), rfl⟩

end WriteBack

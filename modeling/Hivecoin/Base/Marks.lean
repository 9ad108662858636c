import Mathlib.Data.Finset.Basic
import Hivecoin.Base.Pending

/-!
# Stored marks
-/

/-- A stored set of keys and the part of it that is held in memory. -/
structure Marks (K : Type) where
  cached : Finset K
  stored : Finset K

namespace Marks

variable {K : Type} [DecidableEq K]

instance : EmptyCollection (Marks K) := ⟨⟨∅, ∅⟩⟩

variable (m : Marks K)

def has (k : K) : Bool := k ∈ m.cached || k ∈ m.stored

/-- Switches the mark of a key on or off, in the store and in memory. -/
def write (k : K) (on : Bool) : Marks K :=
  if on then ⟨insert k m.cached, insert k m.stored⟩ else ⟨m.cached.erase k, m.stored.erase k⟩

/-- Switches the mark of a key on or off in the store only. -/
def record (k : K) (on : Bool) : Marks K := ⟨m.cached, if on then insert k m.stored else m.stored.erase k⟩

def Coherent : Prop := m.cached ⊆ m.stored

theorem has_write (k a : K) (on : Bool) : (m.write k on).has a = if a = k then on else m.has a := by
  by_cases h : a = k <;> cases on <;> simp [write, has, h]

theorem mem_stored_write (k a : K) (on : Bool) :
    decide (a ∈ (m.write k on).stored) = if a = k then on else decide (a ∈ m.stored) := by
  by_cases h : a = k <;> cases on <;> simp [write, h]

theorem Coherent.write {m : Marks K} (h : m.Coherent) (k : K) (on : Bool) : (m.write k on).Coherent := by
  intro a ha
  cases on with
  | true =>
    simp only [Marks.write, if_true, Finset.mem_insert] at ha ⊢
    exact ha.imp id fun ha => h ha
  | false =>
    simp only [Marks.write, Bool.false_eq_true, if_false, Finset.mem_erase] at ha ⊢
    exact ⟨ha.1, h ha.2⟩

theorem Coherent.has_eq {m : Marks K} (h : m.Coherent) (k : K) : m.has k = decide (k ∈ m.stored) := by
  by_cases hs : k ∈ m.stored
  · simp [has, hs]
  · have hc : k ∉ m.cached := fun hc => hs (h hc)
    simp [has, hs, hc]

end Marks

namespace Pending

variable {K V : Type} [DecidableEq K]

/-- The mark of `k` through the local commands `l` over `g`; undoing counts as the opposite. -/
def mark (on : V → Bool) (l g : Pending K V) (k : K) (base : Bool) : Bool :=
  l.read g k (fun v => !on v) on base

/-- Carries out the pending commands on stored marks, undone commands last. -/
def dumpMarks (on : V → Bool) (p : Pending K V) (m : Marks K) : Marks K :=
  p.toRemove.foldl (fun m k v => m.write k (!on v)) (p.toAdd.foldl (fun m k v => m.write k (on v)) m)

theorem dumpMarks_pointwise (on : V → Bool) (obs : Marks K → K → Bool)
    (h : ∀ (m : Marks K) (k a : K) (b : Bool), obs (m.write k b) a = if a = k then b else obs m a)
    (p : Pending K V) (m : Marks K) (a : K) :
    obs (p.dumpMarks on m) a = mark on ∅ p a (obs m a) := by
  rw [dumpMarks, Table.foldl_pointwise obs _ (fun _ v _ => !on v) (fun m k v a => h m k a _),
    Table.foldl_pointwise obs _ (fun _ v _ => on v) (fun m k v a => h m k a _)]
  rw [mark, read, slot_empty]
  cases hr : p.toRemove.get? a with
  | none => cases ha : p.toAdd.get? a <;> simp [slot, Slot.read, hr, ha]
  | some v => simp [slot, Slot.read, hr]

theorem has_dumpMarks (on : V → Bool) (p : Pending K V) (m : Marks K) (a : K) :
    (p.dumpMarks on m).has a = mark on ∅ p a (m.has a) :=
  dumpMarks_pointwise on Marks.has Marks.has_write p m a

theorem mem_stored_dumpMarks (on : V → Bool) (p : Pending K V) (m : Marks K) (a : K) :
    decide (a ∈ (p.dumpMarks on m).stored) = mark on ∅ p a (decide (a ∈ m.stored)) :=
  dumpMarks_pointwise on (fun m a => decide (a ∈ m.stored)) Marks.mem_stored_write p m a

theorem coherent_dumpMarks (on : V → Bool) (p : Pending K V) {m : Marks K} (h : m.Coherent) :
    (p.dumpMarks on m).Coherent :=
  Table.foldl_induct _ _ _ _ (Table.foldl_induct _ _ _ _ h fun _ k v _ hm => hm.write k (on v))
    fun _ k v _ hm => hm.write k (!on v)

/-- What is read after commands are written over others. -/
theorem mark_flushOver (on : V → Bool) (l g : Pending K V) (k : K) (base : Bool) :
    mark on ∅ (g.flushOver l) k base = mark on l ∅ k (mark on ∅ g k base) := by
  simp only [mark, read, slot_flushOver, slot_empty]
  exact Slot.read_flushOver _ _ _ _ _

theorem mark_empty (on : V → Bool) (k : K) (base : Bool) : mark on ∅ ∅ k base = base := by
  rw [mark, read, slot_empty]; rfl

def Cmd.on (on : V → Bool) : Cmd K V → Bool
  | add _ v => on v
  | remove _ v => !on v

omit [DecidableEq K] in
@[simp] theorem Cmd.on_inverse (on : V → Bool) (cmd : Cmd K V) : cmd.inverse.on on = !cmd.on on := by
  cases cmd <;> simp [inverse, Cmd.on]

theorem mark_exec (on : V → Bool) (p : Pending K V) (cmd : Cmd K V) (k : K) (base : Bool) :
    mark on (p.exec cmd) ∅ k base = if k = cmd.key then cmd.on on else mark on p ∅ k base := by
  rw [mark, read, slot_exec]
  split
  · cases cmd <;> rfl
  · rfl

/-- Commands that all leave the mark of a key the same leave it so together. -/
theorem mark_foldl_exec {on} {cmds : List (Cmd K V)} {k b}
    (h : ∀ cmd ∈ cmds, cmd.key = k → cmd.on on = b) (p : Pending K V) (base : Bool) :
    mark on (cmds.foldl exec p) ∅ k base = if ∃ cmd ∈ cmds, cmd.key = k then b else mark on p ∅ k base := by
  induction cmds generalizing p with
  | nil => simp
  | cons cmd cmds ih =>
    rw [List.foldl_cons, ih fun c hc => h c (List.mem_cons_of_mem _ hc), mark_exec]
    by_cases hk : k = cmd.key
    · simp [← hk, h cmd List.mem_cons_self hk.symm]
    · simp [hk, Ne.symm hk]

end Pending

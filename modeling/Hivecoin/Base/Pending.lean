import Hivecoin.Base.Table

/-!
# Pending changes

Tables of what is to be added to a store and what is to be removed. A key has its two entries in a `Slot`.
-/

/-- Pending additions and removals, one entry of each per key. -/
structure Pending (K V : Type) where
  toAdd : Table K V
  toRemove : Table K V

structure Slot (V : Type) where
  add : Option V
  rem : Option V
deriving DecidableEq

namespace Slot

variable {V A : Type}

instance : EmptyCollection (Slot V) := ⟨⟨none, none⟩⟩

@[simp] theorem empty_add : (∅ : Slot V).add = none := rfl
@[simp] theorem empty_rem : (∅ : Slot V).rem = none := rfl

variable (s : Slot V) (v : V)

def Disjoint : Prop := s.add = none ∨ s.rem = none

/-- Looks through a local slot over a shared one: removals first, local before shared. -/
def read (l g : Slot V) (onRem onAdd : V → A) (base : A) : A :=
  match l.rem with
  | some v => onRem v
  | none => match g.rem with
    | some v => onRem v
    | none => match l.add with
      | some v => onAdd v
      | none => match g.add with
        | some v => onAdd v
        | none => base

def addKeep : Slot V := ⟨some (s.add.getD v), none⟩
def removeKeep : Slot V := ⟨none, some (s.rem.getD v)⟩
def addOver (_ : Slot V) (v : V) : Slot V := ⟨some v, none⟩
def removeOver (_ : Slot V) (v : V) : Slot V := ⟨none, some v⟩

/-- The local slot `l` written into `g`, entries of `g` kept. -/
def flushKeep (g l : Slot V) : Slot V :=
  let g1 := match l.add with | some v => g.addKeep v | none => g
  match l.rem with | some v => g1.removeKeep v | none => g1

/-- The local slot `l` written into `g`, entries of `g` replaced. -/
def flushOver (g l : Slot V) : Slot V :=
  let g1 := match l.add with | some v => g.addOver v | none => g
  match l.rem with | some v => g1.removeOver v | none => g1

theorem addKeep_disjoint : (s.addKeep v).Disjoint := Or.inr rfl
theorem removeKeep_disjoint : (s.removeKeep v).Disjoint := Or.inl rfl
theorem addOver_disjoint : (s.addOver v).Disjoint := Or.inr rfl
theorem removeOver_disjoint : (s.removeOver v).Disjoint := Or.inl rfl

@[simp] theorem flushKeep_empty (g : Slot V) : g.flushKeep ∅ = g := rfl
@[simp] theorem flushOver_empty (g : Slot V) : g.flushOver ∅ = g := rfl

theorem flushKeep_disjoint {g : Slot V} (l : Slot V) (h : g.Disjoint) : (g.flushKeep l).Disjoint := by
  obtain ⟨la, lr⟩ := l
  cases la <;> cases lr <;> simp_all [flushKeep, Disjoint, addKeep, removeKeep]

@[simp] theorem mk_eq_empty {a r : Option V} : (⟨a, r⟩ : Slot V) = ∅ ↔ a = none ∧ r = none :=
  Slot.mk.injEq .. ▸ Iff.rfl

theorem flushOver_eq_empty {g l : Slot V} : g.flushOver l = ∅ ↔ g = ∅ ∧ l = ∅ := by
  obtain ⟨la, lr⟩ := l
  cases la <;> cases lr <;> simp [flushOver, addOver, removeOver]

theorem flushKeep_eq_empty {g l : Slot V} : g.flushKeep l = ∅ ↔ g = ∅ ∧ l = ∅ := by
  obtain ⟨la, lr⟩ := l
  cases la <;> cases lr <;> simp [flushKeep, addKeep, removeKeep]

theorem flushOver_disjoint {g : Slot V} (l : Slot V) (h : g.Disjoint) : (g.flushOver l).Disjoint := by
  obtain ⟨la, lr⟩ := l
  cases la <;> cases lr <;> simp_all [flushOver, Disjoint, addOver, removeOver]

/-- Reading through `l` is reading `g` replaced by `l`, unless `g` removes what `l` adds. -/
theorem read_eq_flushOver_iff {l g : Slot V} (h : l.Disjoint) (onRem onAdd : V → A) (base : A) :
    l.read g onRem onAdd base = (∅ : Slot V).read (g.flushOver l) onRem onAdd base ↔
      ∀ v w, l.add = some v → g.rem = some w → onRem w = onAdd v := by
  obtain ⟨la, lr⟩ := l
  obtain ⟨ga, gr⟩ := g
  cases la <;> cases lr <;> cases gr <;> simp_all [read, flushOver, addOver, removeOver, Disjoint]

/-- The same where entries of `g` are kept, and then win over those of `l`. -/
theorem read_eq_flushKeep_iff {l g : Slot V} (h : l.Disjoint) (removed : A) (onAdd : V → A) (base : A) :
    l.read g (fun _ => removed) onAdd base =
        (∅ : Slot V).read (g.flushKeep l) (fun _ => removed) onAdd base ↔
      ∀ v, l.add = some v → (g.rem.elim (onAdd v) fun _ => removed) = onAdd (g.add.getD v) := by
  obtain ⟨la, lr⟩ := l
  obtain ⟨ga, gr⟩ := g
  cases la <;> cases lr <;> cases gr <;> simp_all [read, flushKeep, addKeep, removeKeep, Disjoint]

theorem add_flushKeep {g l : Slot V} {v} (h : (g.flushKeep l).add = some v) :
    g.add = some v ∨ l.add = some v := by
  obtain ⟨la, lr⟩ := l
  obtain ⟨ga, gr⟩ := g
  cases la <;> cases lr <;> cases ga <;> simp_all [flushKeep, addKeep, removeKeep]

theorem rem_flushKeep {g l : Slot V} {v} (h : (g.flushKeep l).rem = some v) :
    g.rem = some v ∨ l.rem = some v := by
  obtain ⟨la, lr⟩ := l
  obtain ⟨ga, gr⟩ := g
  cases la <;> cases lr <;> cases gr <;> simp_all [flushKeep, addKeep, removeKeep]

theorem add_addKeep {s : Slot V} {v w} (h : (s.addKeep v).add = some w) : s.add = some w ∨ v = w := by
  obtain ⟨a, r⟩ := s
  cases a <;> simp_all [addKeep]

theorem rem_removeKeep {s : Slot V} {v w} (h : (s.removeKeep v).rem = some w) : s.rem = some w ∨ v = w := by
  obtain ⟨a, r⟩ := s
  cases r <;> simp_all [removeKeep]

def map {W : Type} (f : V → W) (s : Slot V) : Slot W := ⟨s.add.map f, s.rem.map f⟩

section

variable {W : Type} (f : V → W)

theorem map_addKeep (s : Slot V) (v : V) : (s.addKeep v).map f = (s.map f).addKeep (f v) := by
  obtain ⟨a, r⟩ := s
  cases a <;> rfl

theorem map_removeKeep (s : Slot V) (v : V) : (s.removeKeep v).map f = (s.map f).removeKeep (f v) := by
  obtain ⟨a, r⟩ := s
  cases r <;> rfl

theorem map_flushKeep (g l : Slot V) : (g.flushKeep l).map f = (g.map f).flushKeep (l.map f) := by
  obtain ⟨la, lr⟩ := l
  obtain ⟨ga, gr⟩ := g
  cases la <;> cases lr <;> cases ga <;> cases gr <;> rfl

theorem read_map (l g : Slot V) (onRem onAdd : W → A) (base : A) :
    (l.map f).read (g.map f) onRem onAdd base = l.read g (onRem ∘ f) (onAdd ∘ f) base := by
  obtain ⟨la, lr⟩ := l
  obtain ⟨ga, gr⟩ := g
  cases la <;> cases lr <;> cases ga <;> cases gr <;> rfl

end

theorem apply_read {B : Type} (f : A → B) (l g : Slot V) (onRem onAdd : V → A) (base : A) :
    f (l.read g onRem onAdd base) = l.read g (f ∘ onRem) (f ∘ onAdd) (f base) := by
  obtain ⟨la, lr⟩ := l
  obtain ⟨ga, gr⟩ := g
  cases la <;> cases lr <;> cases ga <;> cases gr <;> rfl

/-- Reading `g` replaced by `l` is reading `l` over what was read before. -/
theorem read_flushOver (l g : Slot V) (onRem onAdd : V → A) (base : A) :
    (∅ : Slot V).read (g.flushOver l) onRem onAdd base =
      l.read ∅ onRem onAdd ((∅ : Slot V).read g onRem onAdd base) := by
  obtain ⟨la, lr⟩ := l
  cases la <;> cases lr <;> rfl

theorem read_base {l g : Slot V} (h : l = ∅ → g ≠ ∅) (onRem onAdd : V → A) (base base' : A) :
    l.read g onRem onAdd base = l.read g onRem onAdd base' := by
  obtain ⟨la, lr⟩ := l
  obtain ⟨ga, gr⟩ := g
  cases la <;> cases lr <;> cases ga <;> cases gr <;> first | rfl | exact absurd rfl (h rfl)

end Slot

namespace Pending

variable {K V A : Type}

instance : EmptyCollection (Pending K V) := ⟨⟨∅, ∅⟩⟩

variable [DecidableEq K] (p : Pending K V) (k : K)

def slot : Slot V := ⟨p.toAdd.get? k, p.toRemove.get? k⟩

/-- Records an addition; an addition already recorded for the key stays. -/
def addKeep (v : V) : Pending K V where
  toRemove := if p.toRemove.contains k then p.toRemove.erase k else p.toRemove
  toAdd := p.toAdd.insertNew k v

def removeKeep (v : V) : Pending K V where
  toAdd := if p.toAdd.contains k then p.toAdd.erase k else p.toAdd
  toRemove := p.toRemove.insertNew k v

/-- Records an addition in place of whatever is recorded for the key. -/
def addOver (v : V) : Pending K V where
  toRemove := if p.toRemove.contains k then p.toRemove.erase k else p.toRemove
  toAdd := (if p.toAdd.contains k then p.toAdd.erase k else p.toAdd).insertNew k v

def removeOver (v : V) : Pending K V where
  toAdd := if p.toAdd.contains k then p.toAdd.erase k else p.toAdd
  toRemove := (if p.toRemove.contains k then p.toRemove.erase k else p.toRemove).insertNew k v

/-- Writes the local changes `l` into `g`, additions first; entries of `g` stay. -/
def flushKeep (g l : Pending K V) : Pending K V :=
  l.toRemove.foldl removeKeep (l.toAdd.foldl addKeep g)

/-- Writes `l` into `g`, additions first; entries of `g` are replaced. -/
def flushOver (g l : Pending K V) : Pending K V :=
  l.toRemove.foldl removeOver (l.toAdd.foldl addOver g)

def read (l g : Pending K V) (k : K) (onRem onAdd : V → A) (base : A) : A :=
  (l.slot k).read (g.slot k) onRem onAdd base

def Disjoint (p : Pending K V) : Prop := ∀ k, (p.slot k).Disjoint

@[simp] theorem slot_empty : (∅ : Pending K V).slot k = ∅ := by
  simp [slot, show (∅ : Pending K V) = ⟨∅, ∅⟩ from rfl, show (∅ : Slot V) = ⟨none, none⟩ from rfl]

theorem get?_eraseIf (t : Table K V) (k a : K) :
    (if t.contains k then t.erase k else t).get? a = if a = k then none else t.get? a := by
  split
  · exact t.get?_erase k a
  · rename_i h
    simp only [Bool.not_eq_true, Table.contains_eq_false] at h
    by_cases ha : a = k
    · subst ha; simp [h]
    · simp [ha]

theorem slot_addKeep (a : K) (v : V) :
    (p.addKeep k v).slot a = if a = k then (p.slot a).addKeep v else p.slot a := by
  by_cases h : a = k
  · subst h; simp [slot, addKeep, Slot.addKeep, get?_eraseIf, Table.get?_insertNew]
  · simp [slot, addKeep, get?_eraseIf, Table.get?_insertNew, h]

theorem slot_removeKeep (a : K) (v : V) :
    (p.removeKeep k v).slot a = if a = k then (p.slot a).removeKeep v else p.slot a := by
  by_cases h : a = k
  · subst h; simp [slot, removeKeep, Slot.removeKeep, get?_eraseIf, Table.get?_insertNew]
  · simp [slot, removeKeep, get?_eraseIf, Table.get?_insertNew, h]

theorem slot_addOver (a : K) (v : V) :
    (p.addOver k v).slot a = if a = k then (p.slot a).addOver v else p.slot a := by
  by_cases h : a = k
  · subst h; simp [slot, addOver, Slot.addOver, get?_eraseIf, Table.get?_insertNew]
  · simp [slot, addOver, get?_eraseIf, Table.get?_insertNew, h]

theorem slot_removeOver (a : K) (v : V) :
    (p.removeOver k v).slot a = if a = k then (p.slot a).removeOver v else p.slot a := by
  by_cases h : a = k
  · subst h; simp [slot, removeOver, Slot.removeOver, get?_eraseIf, Table.get?_insertNew]
  · simp [slot, removeOver, get?_eraseIf, Table.get?_insertNew, h]

theorem slot_flushKeep (g l : Pending K V) (a : K) :
    (g.flushKeep l).slot a = (g.slot a).flushKeep (l.slot a) := by
  rw [flushKeep, Table.foldl_pointwise slot removeKeep (fun _ v s => s.removeKeep v)
      (fun s k v a => slot_removeKeep s k a v),
    Table.foldl_pointwise slot addKeep (fun _ v s => s.addKeep v)
      (fun s k v a => slot_addKeep s k a v)]
  rfl

theorem slot_flushOver (g l : Pending K V) (a : K) :
    (g.flushOver l).slot a = (g.slot a).flushOver (l.slot a) := by
  rw [flushOver, Table.foldl_pointwise slot removeOver (fun _ v s => s.removeOver v)
      (fun s k v a => slot_removeOver s k a v),
    Table.foldl_pointwise slot addOver (fun _ v s => s.addOver v)
      (fun s k v a => slot_addOver s k a v)]
  rfl

/-! ## Disjoint changes -/

theorem disjoint_empty : (∅ : Pending K V).Disjoint := fun k => by
  rw [slot_empty]; exact Or.inl rfl

theorem Disjoint.addKeep {p : Pending K V} (h : p.Disjoint) (k : K) (v : V) : (p.addKeep k v).Disjoint := by
  intro a
  rw [slot_addKeep]
  split
  · exact Slot.addKeep_disjoint _ _
  · exact h a

theorem Disjoint.removeKeep {p : Pending K V} (h : p.Disjoint) (k : K) (v : V) :
    (p.removeKeep k v).Disjoint := by
  intro a
  rw [slot_removeKeep]
  split
  · exact Slot.removeKeep_disjoint _ _
  · exact h a

theorem Disjoint.addOver {p : Pending K V} (h : p.Disjoint) (k : K) (v : V) : (p.addOver k v).Disjoint := by
  intro a
  rw [slot_addOver]
  split
  · exact Slot.addOver_disjoint _ _
  · exact h a

theorem Disjoint.removeOver {p : Pending K V} (h : p.Disjoint) (k : K) (v : V) :
    (p.removeOver k v).Disjoint := by
  intro a
  rw [slot_removeOver]
  split
  · exact Slot.removeOver_disjoint _ _
  · exact h a

theorem Disjoint.flushKeep {g : Pending K V} (h : g.Disjoint) (l : Pending K V) : (g.flushKeep l).Disjoint := by
  intro k
  rw [slot_flushKeep]
  exact Slot.flushKeep_disjoint _ (h k)

theorem Disjoint.flushOver {g : Pending K V} (h : g.Disjoint) (l : Pending K V) : (g.flushOver l).Disjoint := by
  intro k
  rw [slot_flushOver]
  exact Slot.flushOver_disjoint _ (h k)

theorem slot_removeKeep_same {p : Pending K V} {k v} :
    (∀ a, (p.removeKeep k v).slot a = p.slot a) ↔ p.toAdd.get? k = none ∧ p.toRemove.contains k = true := by
  have hslot : (p.slot k).removeKeep v = p.slot k ↔ p.toAdd.get? k = none ∧ p.toRemove.contains k = true := by
    rw [← Bool.not_eq_false, Table.contains_eq_false, slot, Slot.removeKeep, Slot.mk.injEq, eq_comm]
    cases p.toRemove.get? k <;> simp
  refine ⟨fun h => hslot.mp ?_, fun h a => ?_⟩
  · have hk := h k
    rwa [slot_removeKeep, if_pos rfl] at hk
  · rw [slot_removeKeep]
    split
    · rename_i hak
      rw [hak, hslot.mpr h]
    · rfl

/-- No key is in both tables, and each has one entry for a key. -/
def Separate : Prop :=
  (∀ k, ¬ (p.toAdd.contains k = true ∧ p.toRemove.contains k = true)) ∧ (p.toAdd.toList.map Prod.fst).Nodup ∧
    (p.toRemove.toList.map Prod.fst).Nodup

theorem Disjoint.separate {p : Pending K V} (h : p.Disjoint) : p.Separate := by
  refine ⟨fun k hk => ?_, Table.nodup_keys _, Table.nodup_keys _⟩
  rcases h k with hadd | hrem
  · rw [Table.contains_eq_false.mpr hadd] at hk
    cases hk.1
  · rw [Table.contains_eq_false.mpr hrem] at hk
    cases hk.2

theorem read_eq_flushOver_iff {l : Pending K V} (h : l.Disjoint) (g : Pending K V) (k : K)
    (onRem onAdd : V → A) (base : A) :
    l.read g k onRem onAdd base = (∅ : Pending K V).read (g.flushOver l) k onRem onAdd base ↔
      ∀ v w, l.toAdd.get? k = some v → g.toRemove.get? k = some w → onRem w = onAdd v := by
  rw [read, read, slot_empty, slot_flushOver]
  exact Slot.read_eq_flushOver_iff (h k) onRem onAdd base

theorem read_eq_flushKeep_iff {l : Pending K V} (h : l.Disjoint) (g : Pending K V) (k : K)
    (removed : A) (onAdd : V → A) (base : A) :
    l.read g k (fun _ => removed) onAdd base =
        (∅ : Pending K V).read (g.flushKeep l) k (fun _ => removed) onAdd base ↔
      ∀ v, l.toAdd.get? k = some v →
        ((g.toRemove.get? k).elim (onAdd v) fun _ => removed) = onAdd ((g.toAdd.get? k).getD v) := by
  rw [read, read, slot_empty, slot_flushKeep]
  exact Slot.read_eq_flushKeep_iff (h k) removed onAdd base

/-- A command to pending changes, in place of whatever is recorded for its key. -/
inductive Cmd (K V : Type)
  | add (k : K) (v : V)
  | remove (k : K) (v : V)

namespace Cmd

def key : Cmd K V → K
  | add k _ => k
  | remove k _ => k

def inverse : Cmd K V → Cmd K V
  | add k v => remove k v
  | remove k v => add k v

omit [DecidableEq K] in
@[simp] theorem key_inverse (cmd : Cmd K V) : cmd.inverse.key = cmd.key := by cases cmd <;> rfl

def slot : Cmd K V → Slot V
  | add _ v => ⟨some v, none⟩
  | remove _ v => ⟨none, some v⟩

end Cmd

def exec : Cmd K V → Pending K V
  | .add k v => p.addOver k v
  | .remove k v => p.removeOver k v

theorem slot_exec (cmd : Cmd K V) (k : K) :
    (p.exec cmd).slot k = if k = cmd.key then cmd.slot else p.slot k := by
  cases cmd with
  | add a v => rw [exec, slot_addOver]; rfl
  | remove a v => rw [exec, slot_removeOver]; rfl

omit [DecidableEq K] in
theorem Cmd.slot_ne_empty (cmd : Cmd K V) : cmd.slot ≠ ∅ := by
  cases cmd <;> intro h <;> cases h

/-- Nothing is recorded for a key just where no command was for it. -/
theorem slot_foldl_exec_eq_empty {cmds : List (Cmd K V)} {k} {p : Pending K V} :
    (cmds.foldl exec p).slot k = ∅ ↔ (∀ cmd ∈ cmds, cmd.key ≠ k) ∧ p.slot k = ∅ := by
  induction cmds generalizing p with
  | nil => simp
  | cons cmd cmds ih =>
    rw [List.foldl_cons, ih, slot_exec, List.forall_mem_cons]
    by_cases hk : k = cmd.key
    · simp [hk, cmd.slot_ne_empty]
    · simp [hk, Ne.symm hk]

end Pending

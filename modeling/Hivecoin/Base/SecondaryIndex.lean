import Hivecoin.Base.Writes

/-!
# Indexes kept beside the items they describe
-/

namespace SecondaryIndex

open Writes Option

variable {P C K V : Type}

/-- Which record an item has at a position. -/
structure Indexing (P C K V : Type) where
  record : P → C → Option (K × V)
  pos : K → P
  pos_key : ∀ {p c k v}, record p c = some (k, v) → pos k = p

/-- An item is added at a free position, or the item at a position is removed. -/
inductive Change (P C : Type) where
  | add (p : P) (c : C)
  | remove (p : P) (c : C)

namespace Change

def write : Change P C → P × Option C
  | add p c => (p, some c)
  | remove p _ => (p, none)

def recordWrites (I : Indexing P C K V) : Change P C → List (K × Option V)
  | add p c => (I.record p c).toList.map fun r => (r.1, some r.2)
  | remove p c => (I.record p c).toList.map fun r => (r.1, none)

def inverse : Change P C → Change P C
  | add p c => remove p c
  | remove p c => add p c

def Valid (items : P → Option C) : Change P C → Prop
  | add p _ => items p = none
  | remove p c => items p = some c

end Change

variable [DecidableEq P]

def ValidRun (items : P → Option C) : List (Change P C) → Prop
  | [] => True
  | c :: cs => c.Valid items ∧ ValidRun (run [c.write] items) cs

theorem validRun_append {items} {cs ds : List (Change P C)} :
    ValidRun items (cs ++ ds) ↔ ValidRun items cs ∧ ValidRun (run (cs.map Change.write) items) ds := by
  induction cs generalizing items with
  | nil => simp [ValidRun]
  | cons c cs ih =>
    rw [List.cons_append, ValidRun, ValidRun, ih, and_assoc, List.map_cons, run_cons]
    rfl

/-- Changes at different positions, each of which is possible at the start. -/
theorem validRun_map {A : Type} {items : P → Option C} {l : List A} {change : A → Change P C}
    (h : ∀ x ∈ l, (change x).Valid items) (hnodup : (l.map fun x => (change x).write.1).Nodup) : ValidRun items (l.map change) := by
  induction l generalizing items with
  | nil => trivial
  | cons x l ih =>
    rw [List.map_cons, List.nodup_cons] at hnodup
    refine ⟨h x List.mem_cons_self, ih (fun y hy => ?_) hnodup.2⟩
    have hne : (change y).write.1 ≠ (change x).write.1 := fun heq =>
      hnodup.1 (List.mem_map.mpr ⟨y, hy, heq⟩)
    have hy := h y (List.mem_cons_of_mem _ hy)
    generalize change y = c at *
    cases c <;> exact (Function.update_of_ne hne _ _).trans hy

variable [DecidableEq K]

namespace Indexing

variable (I : Indexing P C K V) {items : P → Option C}

omit [DecidableEq P] in
def lookup (items : P → Option C) (k : K) : Option V :=
  (items (I.pos k)).bind fun c => (I.record (I.pos k) c).bind fun r => if r.1 = k then some r.2 else none

omit [DecidableEq P] in
theorem lookup_eq_some {k v} : I.lookup items k = some v ↔ ∃ p c, items p = some c ∧ I.record p c = some (k, v) := by
  simp only [lookup, bind_eq_some_iff, ite_none_right_eq_some, some.injEq]
  constructor
  · rintro ⟨c, hc, ⟨k', v'⟩, hr, rfl, rfl⟩
    exact ⟨_, c, hc, hr⟩
  · rintro ⟨p, c, hc, hr⟩
    have hp := I.pos_key hr
    subst hp
    exact ⟨c, hc, _, hr, rfl, rfl⟩

omit [DecidableEq P] in
theorem lookup_of_none {k} (h : items (I.pos k) = none) : I.lookup items k = none := by
  rw [lookup, h, bind_none]

omit [DecidableEq P] in
theorem lookup_of_some {k c} (h : items (I.pos k) = some c) :
    I.lookup items k = (I.record (I.pos k) c).bind fun r => if r.1 = k then some r.2 else none := by
  rw [lookup, h, bind_some]

theorem lookup_change {c : Change P C} (h : c.Valid items) :
    run (c.recordWrites I) (I.lookup items) = I.lookup (run [c.write] items) := by
  funext k
  cases c with
  | add p c =>
    have hfree : items p = none := h
    rw [Change.recordWrites, Change.write, run_cons, run_nil]
    by_cases hp : I.pos k = p
    · rw [I.lookup_of_some (c := c) (by rw [hp, Function.update_self]), hp]
      cases hr : I.record p c with
      | none => exact I.lookup_of_none (hp ▸ hfree)
      | some r =>
        rw [toList_some, List.map_cons, List.map_nil, run_cons, run_nil, bind_some, Function.update_apply]
        by_cases hk : k = r.1
        · rw [if_pos hk, if_pos hk.symm]
        · rw [if_neg hk, if_neg (Ne.symm hk), I.lookup_of_none (hp ▸ hfree)]
    · have hout : k ∉ keys ((I.record p c).toList.map fun r => (r.1, some r.2)) := by
        intro hk
        rw [keys, List.map_map] at hk
        obtain ⟨r, hr, rfl⟩ := List.mem_map.mp hk
        exact hp (I.pos_key (mem_toList.mp hr))
      rw [run_of_not_mem hout, lookup, lookup, Function.update_of_ne hp]
  | remove p c =>
    have hitem : items p = some c := h
    rw [Change.recordWrites, Change.write, run_cons, run_nil]
    by_cases hp : I.pos k = p
    · have hgone : Function.update items p none (I.pos k) = none := by rw [hp, Function.update_self]
      rw [I.lookup_of_none hgone]
      cases hr : I.record p c with
      | none => rw [toList_none, List.map_nil, run_nil, I.lookup_of_some (hp ▸ hitem), hp, hr, bind_none]
      | some r =>
        rw [toList_some, List.map_cons, List.map_nil, run_cons, run_nil, Function.update_apply]
        by_cases hk : k = r.1
        · rw [if_pos hk]
        · rw [if_neg hk, I.lookup_of_some (hp ▸ hitem), hp, hr, bind_some, if_neg (Ne.symm hk)]
    · have hout : k ∉ keys ((I.record p c).toList.map fun r => ((r.1, none) : K × Option V)) := by
        intro hk
        rw [keys, List.map_map] at hk
        obtain ⟨r, hr, rfl⟩ := List.mem_map.mp hk
        exact hp (I.pos_key (mem_toList.mp hr))
      rw [run_of_not_mem hout, lookup, lookup, Function.update_of_ne hp]

theorem lookup_run {cs : List (Change P C)} (h : ValidRun items cs) :
    run (cs.flatMap (Change.recordWrites I)) (I.lookup items) = I.lookup (run (cs.map Change.write) items) := by
  induction cs generalizing items with
  | nil => rfl
  | cons c cs ih => rw [List.flatMap_cons, run_append, I.lookup_change h.1, ih h.2, List.map_cons, run_cons, run_cons, run_nil]

omit [DecidableEq P] in
/-- The records of a change are undone by those of its inverse. -/
theorem undoes_change {c : Change P C} (h : c.Valid items) :
    Undoes (c.inverse.recordWrites I) (c.recordWrites I) (I.lookup items) := by
  refine .of_values (fun k => ?_) fun w hw => ?_
  · cases c <;> simp only [Change.inverse, Change.recordWrites, keys, List.map_map] <;> rfl
  · cases c with
    | add p c =>
      obtain ⟨⟨k, v⟩, hr, rfl⟩ := List.mem_map.mp hw
      have hpos := I.pos_key (mem_toList.mp hr)
      subst hpos
      exact (I.lookup_of_none h).symm
    | remove p c =>
      obtain ⟨r, hr, rfl⟩ := List.mem_map.mp hw
      exact (I.lookup_eq_some.mpr ⟨p, c, h, mem_toList.mp hr⟩).symm

/-- The records of a run are undone by those of the inverse changes backwards. -/
theorem undoes_run {cs : List (Change P C)} (h : ValidRun items cs) :
    Undoes ((cs.reverse.map Change.inverse).flatMap (Change.recordWrites I)) (cs.flatMap (Change.recordWrites I))
      (I.lookup items) := by
  induction cs generalizing items with
  | nil => exact .nil _
  | cons c cs ih =>
    rw [List.reverse_cons, List.map_append, List.flatMap_append, List.flatMap_cons, List.map_singleton, List.flatMap_singleton]
    exact (I.undoes_change h.1).append (I.lookup_change h.1 ▸ ih h.2)

end Indexing

end SecondaryIndex

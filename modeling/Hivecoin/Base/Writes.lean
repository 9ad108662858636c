import Mathlib.Logic.Function.Basic
import Mathlib.Data.List.Basic
import Hivecoin.Base.Table

/-!
# Lists of writes
-/

namespace Writes

open List

variable {K V : Type}

def keys (ws : List (K × V)) : List K := ws.map Prod.fst

@[simp] theorem keys_append (ws vs : List (K × V)) : keys (ws ++ vs) = keys ws ++ keys vs := map_append

variable [DecidableEq K]

def run (ws : List (K × V)) (f : K → V) : K → V := ws.foldl (fun f w => Function.update f w.1 w.2) f

@[simp] theorem run_nil (f : K → V) : run [] f = f := rfl

theorem run_cons (w : K × V) (ws : List (K × V)) (f : K → V) : run (w :: ws) f = run ws (Function.update f w.1 w.2) := rfl

theorem run_append (ws vs : List (K × V)) (f : K → V) : run (ws ++ vs) f = run vs (run ws f) := foldl_append

theorem run_of_not_mem {ws k} (h : k ∉ keys ws) (f : K → V) : run ws f k = f k := by
  induction ws generalizing f with
  | nil => rfl
  | cons w ws ih =>
    rw [keys, map_cons, mem_cons, not_or] at h
    rw [run_cons, ih h.2, Function.update_of_ne h.1]

theorem run_of_mem {ws k} (h : k ∈ keys ws) (f g : K → V) : run ws f k = run ws g k := by
  induction ws generalizing f g with
  | nil => cases h
  | cons w ws ih =>
    rw [run_cons, run_cons]
    by_cases hk : k ∈ keys ws
    · exact ih hk _ _
    · rcases mem_cons.mp h with rfl | h
      · rw [run_of_not_mem hk, run_of_not_mem hk, Function.update_self, Function.update_self]
      · exact absurd h hk

theorem exists_run_eq {ws k} (h : k ∈ keys ws) (f : K → V) : ∃ v, (k, v) ∈ ws ∧ run ws f k = v := by
  induction ws generalizing f with
  | nil => cases h
  | cons w ws ih =>
    rw [run_cons]
    by_cases hk : k ∈ keys ws
    · obtain ⟨v, hv, heq⟩ := ih hk (Function.update f w.1 w.2)
      exact ⟨v, mem_cons_of_mem _ hv, heq⟩
    · rcases mem_cons.mp h with rfl | h
      · exact ⟨w.2, mem_cons_self, by rw [run_of_not_mem hk, Function.update_self]⟩
      · exact absurd h hk

theorem run_values {ws : List (K × V)} {k : K} {f : K → V} (h : ∀ w ∈ ws, w.2 = f w.1) (hk : k ∈ keys ws) (g : K → V) :
    run ws g k = f k := by
  obtain ⟨v, hv, heq⟩ := exists_run_eq hk g
  rw [heq, ← h _ hv]

theorem run_const {ws k v} (h : ∀ w ∈ ws, w.1 = k → w.2 = v) (f : K → V) :
    run ws f k = if k ∈ keys ws then v else f k := by
  split
  · rename_i hk
    obtain ⟨v', hv', heq⟩ := exists_run_eq hk f
    exact heq.trans (h _ hv' rfl)
  · rename_i hk
    exact run_of_not_mem hk f

/-- A batch: each key gets its value, or loses the one it has. -/
def putAll (ws : List (K × Option V)) (t : Table K V) : Table K V := ws.foldl (fun t w => t.put w.1 w.2) t

theorem get?_putAll (ws : List (K × Option V)) (t : Table K V) : (putAll ws t).get? = run ws t.get? := by
  induction ws generalizing t with
  | nil => rfl
  | cons w ws ih =>
    rw [putAll, foldl_cons, run_cons, ← putAll, ih]
    congr 1
    funext k
    rw [Table.get?_put, Function.update_apply]

/-- The writes `us` put back what `ws` change of `f`. -/
structure Undoes (us ws : List (K × V)) (f : K → V) : Prop where
  keys : ∀ k, k ∈ keys us ↔ k ∈ keys ws
  restores : ∀ k ∈ Writes.keys us, ∀ g, run us g k = f k

variable {us us' ws ws' : List (K × V)} {f d : K → V}

theorem Undoes.nil (f : K → V) : Undoes [] [] f := ⟨fun _ => Iff.rfl, fun _ hk => by cases hk⟩

/-- Writes of what `f` holds undo every change of the same keys. -/
theorem Undoes.of_values (hkeys : ∀ k, k ∈ Writes.keys us ↔ k ∈ Writes.keys ws) (h : ∀ w ∈ us, w.2 = f w.1) : Undoes us ws f :=
  ⟨hkeys, fun _ hk g => run_values h hk g⟩

theorem Undoes.append (h : Undoes us ws f) (h' : Undoes us' ws' (run ws f)) : Undoes (us' ++ us) (ws ++ ws') f := by
  refine ⟨fun k => ?_, fun k hk g => ?_⟩
  · rw [keys_append, keys_append, mem_append, mem_append, h.keys, h'.keys, or_comm]
  · rw [run_append]
    by_cases hus : k ∈ Writes.keys us
    · exact h.restores k hus _
    · rw [keys_append, mem_append, or_iff_left hus] at hk
      rw [run_of_not_mem hus, h'.restores k hk, run_of_not_mem (mt (h.keys k).mpr hus)]

def Between (f g d : K → V) : Prop := ∀ k, d k = f k ∨ d k = g k

theorem Between.run {g : K → V} (h : Between f g d) (hws : ∀ w ∈ ws, w.2 = g w.1) : Between f g (run ws d) := by
  intro k
  by_cases hk : k ∈ Writes.keys ws
  · exact Or.inr (run_values hws hk d)
  · rw [run_of_not_mem hk]
    exact h k

/-- Undoing `ws` and making `ws'` again gives the result of `ws'` from any state in between. -/
theorem Undoes.recover (h : Undoes us ws f) (hd : Between (run ws f) (run ws' f) d) : run ws' (run us d) = run ws' f := by
  funext k
  by_cases hk : k ∈ Writes.keys ws'
  · exact run_of_mem hk _ _
  · rw [run_of_not_mem hk, run_of_not_mem hk]
    by_cases hus : k ∈ Writes.keys us
    · exact h.restores k hus d
    · have hold : run ws f k = f k := run_of_not_mem (mt (h.keys k).mpr hus) f
      rw [run_of_not_mem hus]
      rcases hd k with hk' | hk'
      · rw [hk', hold]
      · rw [hk', run_of_not_mem hk]

theorem Undoes.run_run (h : Undoes us ws f) : run us (run ws f) = f := by
  have hd : Between (run ws f) (run [] f) (run ws f) := fun _ => .inl rfl
  exact h.recover hd

end Writes

import Mathlib.Data.List.Nodup
import Mathlib.Data.List.Perm.Subperm
import Mathlib.Logic.Relation

/-!
# Collecting what is reachable
-/

namespace Worklist

open List

variable {α : Type} [DecidableEq α]

/-- Puts the unseen successors on the list. -/
def stageNew (seen stage successors : List α) : List α :=
  successors.foldl (fun stage c => if c ∈ seen then stage else stage.insert c) stage

def run (next : α → List α) : Nat → List α → List α → List α
  | 0, _, seen => seen
  | _ + 1, [], seen => seen
  | fuel + 1, a :: stage, seen => run next fuel (stageNew (a :: seen) stage (next a)) (a :: seen)

/-- Adds what is reachable from `a` to a set that is closed already. -/
def collect (next : α → List α) (fuel : Nat) (seen : List α) (a : α) : List α :=
  if a ∈ seen then seen else run next fuel [a] seen

def collectAll (next : α → List α) (fuel : Nat) (seeds : List α) : List α := seeds.foldl (collect next fuel) []

variable {next : α → List α} {U stage seen : List α} {a x : α} {fuel : Nat}

theorem mem_stageNew (seen stage successors : List α) (x : α) :
    x ∈ stageNew seen stage successors ↔ x ∈ stage ∨ (x ∈ successors ∧ x ∉ seen) := by
  unfold stageNew
  induction successors generalizing stage with
  | nil => simp
  | cons c successors ih =>
    rw [foldl_cons, ih]
    split
    · rename_i hc
      rw [mem_cons]
      constructor
      · rintro (h | ⟨h, hx⟩)
        · exact Or.inl h
        · exact Or.inr ⟨Or.inr h, hx⟩
      · rintro (h | ⟨rfl | h, hx⟩)
        · exact Or.inl h
        · exact absurd hc hx
        · exact Or.inr ⟨h, hx⟩
    · rename_i hc
      rw [mem_insert_iff, mem_cons]
      constructor
      · rintro ((rfl | h) | ⟨h, hx⟩)
        · exact Or.inr ⟨Or.inl rfl, hc⟩
        · exact Or.inl h
        · exact Or.inr ⟨Or.inr h, hx⟩
      · rintro (h | ⟨rfl | h, hx⟩)
        · exact Or.inl (Or.inr h)
        · exact Or.inl (Or.inl rfl)
        · exact Or.inr ⟨h, hx⟩

theorem nodup_stageNew (h : stage.Nodup) (seen successors : List α) : (stageNew seen stage successors).Nodup := by
  unfold stageNew
  induction successors generalizing stage with
  | nil => exact h
  | cons c successors ih =>
    rw [foldl_cons]
    split
    · exact ih h
    · exact ih h.insert

/-- The successors of what has been seen are seen or on the list. -/
structure Staged (next : α → List α) (U stage seen : List α) : Prop where
  nodup : stage.Nodup
  seenNodup : seen.Nodup
  fresh : ∀ a ∈ stage, a ∉ seen
  stageIn : ∀ a ∈ stage, a ∈ U
  seenIn : ∀ a ∈ seen, a ∈ U
  closed : ∀ a ∈ seen, ∀ c ∈ next a, c ∈ seen ∨ c ∈ stage

theorem Staged.step (hU : ∀ a ∈ U, ∀ c ∈ next a, c ∈ U) (h : Staged next U (a :: stage) seen) :
    Staged next U (stageNew (a :: seen) stage (next a)) (a :: seen) := by
  obtain ⟨ha, hstage⟩ := nodup_cons.1 h.nodup
  refine ⟨nodup_stageNew hstage _ _, nodup_cons.2 ⟨h.fresh a mem_cons_self, h.seenNodup⟩, fun x hx => ?_, fun x hx => ?_,
    fun x hx => ?_, fun x hx c hc => ?_⟩
  · rcases (mem_stageNew _ _ _ _).1 hx with hstaged | hnew
    · rw [mem_cons]
      rintro (rfl | hseen)
      · exact ha hstaged
      · exact h.fresh x (mem_cons_of_mem _ hstaged) hseen
    · exact hnew.2
  · rcases (mem_stageNew _ _ _ _).1 hx with hx | hx
    · exact h.stageIn x (mem_cons_of_mem _ hx)
    · exact hU a (h.stageIn a mem_cons_self) x hx.1
  · rcases mem_cons.1 hx with rfl | hx
    · exact h.stageIn x mem_cons_self
    · exact h.seenIn x hx
  · rw [mem_stageNew]
    by_cases hseen : c ∈ a :: seen
    · exact Or.inl hseen
    · refine Or.inr ?_
      rcases mem_cons.1 hx with rfl | hx
      · exact Or.inr ⟨hc, hseen⟩
      · rcases h.closed x hx c hc with hc | hc
        · exact absurd (mem_cons_of_mem _ hc) hseen
        · exact Or.inl ((mem_cons.1 hc).resolve_left fun heq => hseen (heq ▸ mem_cons_self))

/-- With fuel for all unseen elements the list is empty in the end. -/
theorem run_spec (hU : ∀ a ∈ U, ∀ c ∈ next a, c ∈ U) (h : Staged next U stage seen) (hfuel : U.length ≤ seen.length + fuel) :
    Staged next U [] (run next fuel stage seen) ∧ (∀ a ∈ seen, a ∈ run next fuel stage seen) ∧ ∀ a ∈ stage, a ∈ run next fuel stage seen := by
  induction fuel generalizing stage seen with
  | zero =>
    have hempty : stage = [] := by
      cases stage with
      | nil => rfl
      | cons a stage =>
        have hlength := (subperm_of_subset (h.step hU).seenNodup (h.step hU).seenIn).length_le
        rw [length_cons] at hlength
        omega
    subst hempty
    exact ⟨h, fun a ha => ha, nofun⟩
  | succ fuel ih =>
    cases stage with
    | nil => exact ⟨h, fun a ha => ha, nofun⟩
    | cons a stage =>
      obtain ⟨hstaged, hseen, hstage⟩ := ih (h.step hU) (by rw [length_cons]; omega)
      refine ⟨hstaged, fun x hx => hseen x (mem_cons_of_mem _ hx), fun x hx => ?_⟩
      rcases mem_cons.1 hx with rfl | hx
      · exact hseen x mem_cons_self
      · exact hstage x ((mem_stageNew _ _ _ _).2 (Or.inl hx))

theorem collect_spec (hU : ∀ a ∈ U, ∀ c ∈ next a, c ∈ U) (h : Staged next U [] seen) (ha : a ∈ U) (hfuel : U.length ≤ fuel) :
    Staged next U [] (collect next fuel seen a) ∧ a ∈ collect next fuel seen a ∧ ∀ b ∈ seen, b ∈ collect next fuel seen a := by
  unfold collect
  split
  · rename_i hseen
    exact ⟨h, hseen, fun b hb => hb⟩
  · rename_i hnew
    have hstaged : Staged next U [a] seen :=
      ⟨nodup_singleton a, h.seenNodup, fun b hb => mem_singleton.1 hb ▸ hnew, fun b hb => mem_singleton.1 hb ▸ ha, h.seenIn,
        fun b hb c hc => Or.inl ((h.closed b hb c hc).resolve_right not_mem_nil)⟩
    obtain ⟨hdone, hseen, hstage⟩ := run_spec hU hstaged (Nat.le_add_left_of_le hfuel)
    exact ⟨hdone, hstage a (mem_singleton_self a), hseen⟩

theorem foldl_collect_spec (hU : ∀ a ∈ U, ∀ c ∈ next a, c ∈ U) {seeds : List α} (h : Staged next U [] seen) (hseeds : ∀ a ∈ seeds, a ∈ U)
    (hfuel : U.length ≤ fuel) : Staged next U [] (seeds.foldl (collect next fuel) seen) ∧
      (∀ a ∈ seeds, a ∈ seeds.foldl (collect next fuel) seen) ∧ ∀ a ∈ seen, a ∈ seeds.foldl (collect next fuel) seen := by
  induction seeds generalizing seen with
  | nil => exact ⟨h, nofun, fun a ha => ha⟩
  | cons s seeds ih =>
    obtain ⟨hdone, hs, hkept⟩ := collect_spec hU h (hseeds s mem_cons_self) hfuel
    obtain ⟨hstaged, hmem, hseen⟩ := ih hdone fun a ha => hseeds a (mem_cons_of_mem _ ha)
    refine ⟨hstaged, fun a ha => ?_, fun a ha => hseen a (hkept a ha)⟩
    rcases mem_cons.1 ha with rfl | ha
    · exact hseen a hs
    · exact hmem a ha

omit [DecidableEq α] in
theorem staged_empty : Staged next U [] [] := ⟨nodup_nil, nodup_nil, nofun, nofun, nofun, nofun⟩

section

variable {seeds : List α} (hU : ∀ a ∈ U, ∀ c ∈ next a, c ∈ U) (hseeds : ∀ a ∈ seeds, a ∈ U) (hfuel : U.length ≤ fuel)

include hU hseeds hfuel

theorem mem_collectAll_of_seed (ha : a ∈ seeds) : a ∈ collectAll next fuel seeds :=
  (foldl_collect_spec hU staged_empty hseeds hfuel).2.1 a ha

theorem mem_universe_of_collectAll (ha : a ∈ collectAll next fuel seeds) : a ∈ U :=
  (foldl_collect_spec hU staged_empty hseeds hfuel).1.seenIn a ha

end

end Worklist

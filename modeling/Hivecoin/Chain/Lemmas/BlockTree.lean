import Mathlib.Data.Prod.Lex
import Hivecoin.Chain.ChainSelection

/-!
# Entries of the block tree and their order
-/

namespace Hivecoin

open List

namespace CBlockIndex

variable {a b i : CBlockIndex}

theorem self_mem_ancestors (i : CBlockIndex) : i ∈ i.ancestors := by
  cases i with
  | genesis => exact mem_singleton.2 rfl
  | next pprev block => exact mem_cons_self

theorem mem_ancestors_next {pprev block} :
    a ∈ (next pprev block).ancestors ↔ a = next pprev block ∨ a ∈ pprev.ancestors := mem_cons

theorem mem_ancestors_genesis : a ∈ genesis.ancestors ↔ a = genesis := mem_singleton

theorem ancestors_trans (hab : a ∈ b.ancestors) (hbi : b ∈ i.ancestors) : a ∈ i.ancestors := by
  induction i with
  | genesis =>
    rw [mem_ancestors_genesis.1 hbi] at hab
    exact hab
  | next pprev block ih =>
    rcases mem_ancestors_next.1 hbi with rfl | hbi
    · exact hab
    · exact mem_ancestors_next.2 (Or.inr (ih hbi))

theorem genesis_mem_ancestors (i : CBlockIndex) : genesis ∈ i.ancestors := by
  induction i with
  | genesis => exact self_mem_ancestors _
  | next pprev block ih => exact mem_ancestors_next.2 (Or.inr ih)

theorem pprev_mem_ancestors {pprev block} : pprev ∈ (next pprev block).ancestors :=
  mem_ancestors_next.2 (Or.inr (self_mem_ancestors pprev))

theorem self_mem_downTo {stop} (h : i ≠ stop) : i ∈ i.downTo stop := by
  cases i with
  | genesis => simp [downTo, ancestors, h]
  | next p b => simp [downTo, ancestors, h]

theorem stop_mem_ancestors {stop} (hstop : stop ∈ i.ancestors) (h : a ∈ i.downTo stop) : stop ∈ a.ancestors := by
  induction i with
  | genesis =>
    rw [mem_ancestors_genesis.1 hstop, downTo, ancestors] at h
    simp at h
  | next pprev block ih =>
    rw [downTo, ancestors, takeWhile_cons] at h
    split at h
    · rename_i hne
      rcases mem_cons.1 h with rfl | h
      · exact hstop
      · refine ih ((mem_ancestors_next.1 hstop).resolve_left fun heq => ?_) h
        simp [heq] at hne
    · cases h

end CBlockIndex

namespace BlockTree

open CBlockIndex

variable {W : WorkRules} {n : BlockTree} {a b i : CBlockIndex}

theorem nChainWork_lt_next (pprev : CBlockIndex) (block : CBlock) : nChainWork W pprev < nChainWork W (next pprev block) :=
  Nat.lt_add_of_pos_right (W.proof_pos block)

theorem nChainWork_le (h : a ∈ i.ancestors) : nChainWork W a ≤ nChainWork W i := by
  induction i with
  | genesis => rw [mem_ancestors_genesis.1 h]
  | next pprev block ih =>
    rcases mem_ancestors_next.1 h with rfl | h
    · exact le_rfl
    · exact (ih h).trans (nChainWork_lt_next pprev block).le

def rank (W : WorkRules) (n : BlockTree) (i : CBlockIndex) : ℕ ×ₗ ℤ ×ₗ ℤ :=
  toLex (nChainWork W i, toLex (-(n.status i).nSequenceId, -W.address i))

theorem comparator_iff : n.comparator W a b = true ↔ n.rank W a < n.rank W b := by
  simp only [rank, Prod.Lex.toLex_lt_toLex, comparator]
  split_ifs <;> simp <;> omega

theorem comparator_false_iff : n.comparator W a b = false ↔ n.rank W b ≤ n.rank W a := by
  rw [← Bool.not_eq_true, comparator_iff, not_lt]

theorem rank_lt_of_work (h : nChainWork W a < nChainWork W b) : n.rank W a < n.rank W b :=
  Prod.Lex.toLex_lt_toLex.2 (Or.inl h)

theorem rank_pprev_lt (pprev : CBlockIndex) (block : CBlock) : n.rank W pprev < n.rank W (next pprev block) :=
  rank_lt_of_work (nChainWork_lt_next pprev block)

theorem rank_le_of_mem_ancestors (h : a ∈ i.ancestors) : n.rank W a ≤ n.rank W i := by
  induction i with
  | genesis => rw [mem_ancestors_genesis.1 h]
  | next pprev block ih =>
    rcases mem_ancestors_next.1 h with rfl | h
    · exact le_rfl
    · exact (ih h).trans (rank_pprev_lt pprev block).le

theorem rank_congr {n' : BlockTree} (h : (n'.status i).nSequenceId = (n.status i).nSequenceId) : n'.rank W i = n.rank W i := by
  rw [rank, rank, h]

theorem foldl_last_spec (l : List CBlockIndex) (best : Option CBlockIndex) {m}
    (h : l.foldl (fun best i =>
      match best with
      | none => some i
      | some b => if n.comparator W b i then some i else some b) best = some m) :
    (m ∈ l ∨ best = some m) ∧ (∀ i ∈ l, n.rank W i ≤ n.rank W m) ∧ ∀ b, best = some b → n.rank W b ≤ n.rank W m := by
  induction l generalizing best with
  | nil =>
    cases h
    exact ⟨Or.inr rfl, nofun, fun b hb => by cases hb; exact le_rfl⟩
  | cons i l ih =>
    rw [foldl_cons] at h
    obtain ⟨hmem, hall, hbest⟩ := ih _ h
    cases best with
    | none =>
      refine ⟨Or.inl ?_, forall_mem_cons.2 ⟨hbest i rfl, hall⟩, nofun⟩
      rcases hmem with hmem | hmem
      · exact mem_cons_of_mem _ hmem
      · cases hmem
        exact mem_cons_self
    | some b =>
      simp only at hmem hbest
      split at hmem
      · rename_i hlt
        simp only [hlt, if_true] at hbest
        have hib := comparator_iff.1 hlt
        refine ⟨Or.inl ?_, forall_mem_cons.2 ⟨hbest i rfl, hall⟩, fun c hc => ?_⟩
        · rcases hmem with hmem | hmem
          · exact mem_cons_of_mem _ hmem
          · cases hmem
            exact mem_cons_self
        · cases hc
          exact hib.le.trans (hbest i rfl)
      · rename_i hge
        simp only [hge] at hbest
        have hib := comparator_false_iff.1 (Bool.not_eq_true _ ▸ hge)
        refine ⟨hmem.imp_left (mem_cons_of_mem _), forall_mem_cons.2 ⟨hib.trans (hbest b rfl), hall⟩, fun c hc => ?_⟩
        cases hc
        exact hbest b rfl

theorem lastCandidate_spec {m} (h : n.lastCandidate W = some m) :
    m ∈ n.candidates ∧ ∀ i ∈ n.candidates, n.rank W i ≤ n.rank W m := by
  obtain ⟨hmem, hall, -⟩ := foldl_last_spec _ _ h
  exact ⟨hmem.resolve_right nofun, hall⟩

theorem lastCandidate_eq_none (h : n.lastCandidate W = none) : n.candidates = [] := by
  have hsome : ∀ (l : List CBlockIndex) (b : CBlockIndex), ∃ m, l.foldl (fun best i =>
      match best with
      | none => some i
      | some b => if n.comparator W b i then some i else some b) (some b) = some m := by
    intro l
    induction l with
    | nil => exact fun b => ⟨b, rfl⟩
    | cons i l ih =>
      intro b
      rw [foldl_cons]
      simp only
      split
      · exact ih i
      · exact ih b
  cases hc : n.candidates with
  | nil => rfl
  | cons i l =>
    obtain ⟨m, hm⟩ := hsome l i
    rw [lastCandidate, hc, foldl_cons] at h
    cases hm.symm.trans h

end BlockTree

end Hivecoin

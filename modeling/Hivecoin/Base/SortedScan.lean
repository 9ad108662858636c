import Mathlib.Algebra.Ring.Nat
import Mathlib.Data.List.TakeWhile
import Mathlib.Tactic.Common

/-!
# Scans of a sorted table
-/

namespace SortedScan

open List

variable {α R : Type} {l : List R}

theorem takeWhile_eq_filter {p : R → Bool} (h : l.Pairwise fun a b => p b = true → p a = true) : l.takeWhile p = l.filter p := by
  induction h with
  | nil => rfl
  | @cons a l hal _ ih =>
    cases ha : p a with
    | true => rw [takeWhile_cons_of_pos ha, filter_cons_of_pos ha, ih]
    | false =>
      have hnone : l.filter p = [] := filter_eq_nil_iff.2 fun b hb hpb => by simp [hal b hb hpb] at ha
      rw [takeWhile_cons_of_neg (by simp [ha]), filter_cons_of_neg (by simp [ha]), hnone]

theorem dropWhile_eq_filter {p : R → Bool} (h : l.Pairwise fun a b => p b = true → p a = true) :
    l.dropWhile p = l.filter fun a => !p a := by
  induction h with
  | nil => rfl
  | @cons a l hal _ ih =>
    cases ha : p a with
    | true => rw [dropWhile_cons_of_pos ha, filter_cons_of_neg (by simp [ha]), ih]
    | false =>
      have hall : l.filter (fun b => !p b) = l := filter_eq_self.2 fun b hb => by
        cases hb' : p b with
        | false => rfl
        | true => simp [hal b hb hb'] at ha
      rw [dropWhile_cons_of_neg (by simp [ha]), filter_cons_of_pos (by simp [ha]), hall]

section

variable [LT α]

theorem append_lt_append_iff [Std.Irrefl (α := α) (· < ·)] (p a b : List α) : p ++ a < p ++ b ↔ a < b := by
  induction p with
  | nil => rfl
  | cons c p ih => simp [ih]

theorem not_lt_of_isPrefix [Std.Irrefl (α := α) (· < ·)] {p b : List α} (h : p <+: b) : ¬ b < p := by
  obtain ⟨t, rfl⟩ := h
  induction p with
  | nil => exact List.not_lt_nil _
  | cons c p ih => simpa [cons_lt_cons_iff, Std.Irrefl.irrefl] using ih

/-- What lies between a beginning and a key that has it has it as well. -/
theorem isPrefix_of_lt {p a b : List α} (hp : ¬ a < p) (hab : a < b) (h : p <+: b) : p <+: a := by
  induction p generalizing a b with
  | nil => exact nil_prefix
  | cons c p ih =>
    obtain ⟨t, rfl⟩ := h
    cases a with
    | nil => exact absurd (nil_lt_cons ..) hp
    | cons d a =>
      rw [cons_append, cons_lt_cons_iff] at hab
      rw [cons_lt_cons_iff, not_or, not_and] at hp
      obtain ⟨rfl, hrest⟩ := hab.resolve_left hp.1
      exact cons_prefix_cons.2 ⟨rfl, ih (hp.2 rfl) hrest ⟨t, rfl⟩⟩

end

def natBE : Nat → Nat → List UInt8
  | 0, _ => []
  | n + 1, a => UInt8.ofNat (a / 256 ^ n) :: natBE n (a % 256 ^ n)

theorem natBE_lt {n a b} (hab : a < b) (hb : b < 256 ^ n) (x y : List UInt8) : natBE n a ++ x < natBE n b ++ y := by
  induction n generalizing a b with
  | zero => simp at hb; omega
  | succ n ih =>
    have hhigh : ∀ {c}, c < 256 ^ (n + 1) → (UInt8.ofNat (c / 256 ^ n)).toNat = c / 256 ^ n := fun hc => by
      rw [UInt8.toNat_ofNat', Nat.mod_eq_of_lt]
      exact Nat.div_lt_of_lt_mul (by rwa [Nat.pow_succ] at hc)
    rw [natBE, natBE, cons_append, cons_append, cons_lt_cons_iff, UInt8.lt_iff_toNat_lt, hhigh (hab.trans hb), hhigh hb]
    obtain hlt | heq := (Nat.div_le_div_right hab.le : a / 256 ^ n ≤ b / 256 ^ n).lt_or_eq
    · exact .inl hlt
    · refine .inr ⟨by rw [heq], ih ?_ (Nat.mod_lt _ (Nat.pow_pos (by decide)))⟩
      rw [← Nat.div_add_mod a (256 ^ n), ← Nat.div_add_mod b (256 ^ n), heq] at hab
      exact Nat.lt_of_add_lt_add_left hab

section

variable {K : Type} [LT K] [DecidableLT K] (key : R → K)

def seek (s : K) (l : List R) : List R := l.dropWhile fun r => decide (key r < s)

variable {key}

theorem seek_eq_self {s} (h : ∀ r ∈ l.head?, ¬ key r < s) : seek key s l = l := by
  cases l with
  | nil => rfl
  | cons a l => exact dropWhile_cons_of_neg (by simpa using h a rfl)

theorem pairwise_seek (hsorted : l.Pairwise (key · < key ·)) (s : K) : (seek key s l).Pairwise (key · < key ·) :=
  hsorted.sublist (dropWhile_sublist _)

theorem seek_eq_filter [Trans (· < · : K → K → Prop) (· < ·) (· < ·)] (hsorted : l.Pairwise (key · < key ·)) (s : K) :
    seek key s l = l.filter fun r => !decide (key r < s) :=
  dropWhile_eq_filter (hsorted.imp fun {a b} hab hb => by
    have hb : key b < s := by simpa using hb
    simpa using (Trans.trans hab hb : key a < s))

/-- The records of a test that holds together are found from a place before them. -/
theorem scan_eq_filter [Trans (· < · : K → K → Prop) (· < ·) (· < ·)] (hsorted : l.Pairwise (key · < key ·)) {s}
    {p : R → Bool} (hseek : ∀ r ∈ l, p r = true → ¬ key r < s)
    (hbetween : ∀ a ∈ l, ∀ b ∈ l, ¬ key a < s → key a < key b → p b = true → p a = true) :
    (seek key s l).takeWhile p = l.filter p := by
  have hlate : ∀ {a}, a ∈ seek key s l → a ∈ l ∧ ¬ key a < s := by
    intro a ha
    rw [seek_eq_filter hsorted, mem_filter] at ha
    exact ⟨ha.1, by simpa using ha.2⟩
  rw [takeWhile_eq_filter ((pairwise_seek hsorted s).imp_of_mem fun ha hb hab => hbetween _ (hlate ha).1 _ (hlate hb).1 (hlate ha).2 hab),
    seek_eq_filter hsorted, filter_filter]
  refine filter_congr fun r hr => ?_
  cases hp : p r with
  | false => rfl
  | true => simpa using hseek r hr hp

omit [DecidableLT K] in
theorem mem_takeWhile_iff [Trans (· < · : K → K → Prop) (· < ·) (· < ·)] (hirrefl : ∀ k : K, ¬ k < k)
    (hsorted : l.Pairwise (key · < key ·)) {p : R → Bool} {r} :
    r ∈ l.takeWhile p ↔ r ∈ l ∧ p r = true ∧ ∀ a ∈ l, key a < key r → p a = true := by
  induction hsorted with
  | nil => simp
  | @cons b l hbl _ ih =>
    cases hb : p b with
    | false =>
      rw [takeWhile_cons_of_neg (by simp [hb])]
      refine iff_of_false not_mem_nil fun ⟨hr, hpr, hbefore⟩ => ?_
      obtain rfl | hr := mem_cons.1 hr
      · simp [hb] at hpr
      · simp [hb] at hbefore
        exact hbefore.1 (hbl r hr)
    | true =>
      rw [takeWhile_cons_of_pos hb, mem_cons, ih]
      constructor
      · rintro (rfl | ⟨hr, hpr, hbefore⟩)
        · refine ⟨mem_cons_self, hb, fun a ha har => ?_⟩
          obtain rfl | ha := mem_cons.1 ha
          · exact hb
          · exact absurd (Trans.trans har (hbl a ha) : key a < key a) (hirrefl _)
        · exact ⟨mem_cons_of_mem _ hr, hpr, forall_mem_cons.2 ⟨fun _ => hb, hbefore⟩⟩
      · rintro ⟨hr, hpr, hbefore⟩
        exact (mem_cons.1 hr).imp_right fun hr => ⟨hr, hpr, (forall_mem_cons.1 hbefore).2⟩

theorem mem_scan_iff [Trans (· < · : K → K → Prop) (· < ·) (· < ·)] (hirrefl : ∀ k : K, ¬ k < k)
    (hsorted : l.Pairwise (key · < key ·)) {s} {p : R → Bool} {r} :
    r ∈ (seek key s l).takeWhile p ↔
      r ∈ l ∧ ¬ key r < s ∧ p r = true ∧ ∀ a ∈ l, ¬ key a < s → key a < key r → p a = true := by
  rw [mem_takeWhile_iff hirrefl (pairwise_seek hsorted s), seek_eq_filter hsorted]
  simp only [mem_filter, Bool.not_eq_true', decide_eq_false_iff_not, and_imp, and_assoc]

omit [DecidableLT K] in
theorem eq_of_mem_iff [Trans (· < · : K → K → Prop) (· < ·) (· < ·)] (hirrefl : ∀ k : K, ¬ k < k) {l' : List R}
    (hl : l.Pairwise (key · < key ·)) (hl' : l'.Pairwise (key · < key ·)) (h : ∀ r, r ∈ l ↔ r ∈ l') : l = l' := by
  have hnodup : ∀ {l : List R}, l.Pairwise (key · < key ·) → l.Nodup := fun hl => hl.imp fun hab => by
    rintro rfl
    exact hirrefl _ hab
  refine Perm.eq_of_pairwise (fun a b _ _ hab hba => ?_) hl hl' ((perm_ext_iff_of_nodup (hnodup hl) (hnodup hl')).2 h)
  exact absurd (Trans.trans hab hba : key a < key a) (hirrefl _)

end

section

variable {V : Type} (inTable : R → Bool) (pick : R → Option V)

/-- The records picked while the test holds, without the first `skip` and at most `limit`. -/
def load : Nat → Nat → List R → List V
  | _, _, [] => []
  | 0, _, _ => []
  | limit + 1, skip, r :: l =>
    if inTable r then
      match pick r, skip with
      | none, _ => load (limit + 1) skip l
      | some _, skip + 1 => load (limit + 1) skip l
      | some v, 0 => v :: load limit 0 l
    else []

theorem load_eq (limit skip : Nat) (l : List R) :
    load inTable pick limit skip l = (((l.takeWhile inTable).filterMap pick).drop skip).take limit := by
  fun_induction load with
  | case1 => simp
  | case2 => simp
  | case3 limit skip r l hr hpick ih => rw [takeWhile_cons_of_pos hr, filterMap_cons_none hpick, ih]
  | case4 limit r l hr v skip hpick ih => rw [takeWhile_cons_of_pos hr, filterMap_cons_some hpick, drop_succ_cons, ih]
  | case5 limit r l hr v hpick ih => rw [takeWhile_cons_of_pos hr, filterMap_cons_some hpick, ih]; rfl
  | case6 limit skip r l hr => rw [takeWhile_cons_of_neg hr]; simp

end

end SortedScan

import Mathlib.Data.List.AList

/-!
# Finite tables

Maps with finitely many entries, one per key. A loop that touches at each step only the key of its entry acts key by key.
-/

def Table (K V : Type) : Type := AList fun _ : K => V

namespace Table

open List

variable {K V W S X : Type}

instance : EmptyCollection (Table K V) := ⟨(∅ : AList fun _ : K => V)⟩

def toList (t : Table K V) : List (K × V) := (AList.entries t).map fun e => (e.1, e.2)

def size (t : Table K V) : Nat := (AList.entries t).length

def foldl (f : S → K → V → S) (s : S) (t : Table K V) : S := t.toList.foldl (fun s e => f s e.1 e.2) s

variable [DecidableEq K] (t : Table K V) (k a : K)

def get? : Option V := AList.lookup k t

def contains : Bool := (t.get? k).isSome

def insert (t : Table K V) (k : K) (v : V) : Table K V := AList.insert k v t

def erase (t : Table K V) (k : K) : Table K V := AList.erase k t

def insertNew (v : V) : Table K V := if t.contains k then t else t.insert k v

def getD (t : Table K V) (k : K) (v : V) : V := (t.get? k).getD v

def put : Option V → Table K V
  | some v => t.insert k v
  | none => t.erase k

/-- Changes the value of a key, starting from a default where it has none. -/
def modify (d : V) (f : V → V) : Table K V := t.insert k (f (t.getD k d))

/-! ## Lookups -/

@[simp] theorem get?_empty : (∅ : Table K V).get? k = none := AList.lookup_empty k

theorem get?_insert (v : V) : (t.insert k v).get? a = if a = k then some v else t.get? a := by
  by_cases h : a = k
  · subst h; simp only [if_true]; exact AList.lookup_insert t
  · simp only [h, if_false]; exact AList.lookup_insert_ne h

theorem get?_insert_same {t : Table K V} {k v} : (∀ a, (t.insert k v).get? a = t.get? a) ↔ t.get? k = some v := by
  refine ⟨fun h => ?_, fun h a => ?_⟩
  · rw [← h k, get?_insert, if_pos rfl]
  · rw [get?_insert]
    split
    · rename_i hak
      rw [hak, h]
    · rfl

theorem get?_erase : (t.erase k).get? a = if a = k then none else t.get? a := by
  by_cases h : a = k
  · subst h; simp only [if_true]; exact AList.lookup_erase a t
  · simp only [h, if_false]; exact AList.lookup_erase_ne h

theorem get?_insertNew (v : V) :
    (t.insertNew k v).get? a = if a = k then some ((t.get? k).getD v) else t.get? a := by
  unfold insertNew
  split
  · rename_i hk
    obtain ⟨w, hw⟩ := Option.isSome_iff_exists.mp hk
    by_cases h : a = k
    · subst h; simp [hw]
    · simp [h]
  · rename_i hk
    simp only [contains, Bool.not_eq_true, Option.isSome_eq_false_iff, Option.isNone_iff_eq_none] at hk
    simp [get?_insert, hk]

theorem get?_put (v : Option V) : (t.put k v).get? a = if a = k then v else t.get? a := by
  cases v with
  | none => exact get?_erase t k a
  | some v => exact get?_insert t k a v

@[simp] theorem get?_insert_self (v : V) : (t.insert k v).get? k = some v := by
  simp [get?_insert]

@[simp] theorem get?_erase_self : (t.erase k).get? k = none := by
  simp [get?_erase]

theorem getD_modify (d : V) (f : V → V) :
    (t.modify k d f).getD a d = if a = k then f (t.getD a d) else t.getD a d := by
  by_cases h : a = k
  · subst h; simp [getD, modify]
  · simp [getD, modify, get?_insert, h]

theorem contains_iff {t : Table K V} {k} : t.contains k = true ↔ ∃ v, t.get? k = some v := by
  simp [contains, Option.isSome_iff_exists]

theorem contains_eq_false {t : Table K V} {k} : t.contains k = false ↔ t.get? k = none := by
  simp [contains]

theorem mem_toList {t : Table K V} {k v} : (k, v) ∈ t.toList ↔ t.get? k = some v := by
  have h : (k, v) ∈ t.toList ↔ (⟨k, v⟩ : Sigma fun _ : K => V) ∈ AList.entries t := by
    simp only [toList, mem_map, Prod.mk.injEq]
    constructor
    · rintro ⟨⟨_, _⟩, h, rfl, rfl⟩; exact h
    · intro h; exact ⟨_, h, rfl, rfl⟩
  rw [h]
  exact AList.mem_lookup_iff.symm

omit [DecidableEq K] in
theorem nodup_keys : (t.toList.map Prod.fst).Nodup := by
  have h : t.toList.map Prod.fst = AList.keys t := by
    simp only [toList, map_map, AList.keys, keys]; rfl
  rw [h]
  exact AList.keys_nodup t

/-- Of two tables of one size, one with all keys of the other has no more. -/
theorem contains_of_size_eq {s : Table K V} {t : Table K W} (hsub : ∀ k, s.contains k → t.contains k)
    (hsize : s.size = t.size) {k} (hk : t.contains k) : s.contains k := by
  have mem_keys : ∀ {U : Type} (u : Table K U) (a : K), a ∈ u.toList.map Prod.fst ↔ u.contains a := by
    intro U u a
    simp only [mem_map, Prod.exists, exists_and_right, exists_eq_right, mem_toList, contains_iff]
  have hlen : ∀ {U : Type} (u : Table K U), (u.toList.map Prod.fst).length = u.size := by
    intro U u; simp [toList, size]
  have hsubset : s.toList.map Prod.fst ⊆ t.toList.map Prod.fst := fun a ha =>
    (mem_keys t a).mpr (hsub a ((mem_keys s a).mp ha))
  have hperm := (subperm_of_subset s.nodup_keys hsubset).perm_of_length_le
    (by rw [hlen, hlen, hsize])
  exact (mem_keys s k).mp (hperm.mem_iff.mpr ((mem_keys t k).mpr hk))

/-- A loop that keeps a property at every step keeps it. -/
theorem foldl_induct (p : S → Prop) (f : S → K → V → S) (t : Table K V) (s : S) (h0 : p s)
    (h : ∀ s k v, t.get? k = some v → p s → p (f s k v)) : p (t.foldl f s) := by
  have key : ∀ l : List (K × V), (∀ e ∈ l, t.get? e.1 = some e.2) →
      ∀ s, p s → p (l.foldl (fun s e => f s e.1 e.2) s) := by
    intro l
    induction l with
    | nil => intro _ s hs; exact hs
    | cons e l ih =>
      intro hl s hs
      exact ih (fun e' he' => hl e' (mem_cons_of_mem _ he')) _
        (h s e.1 e.2 (hl e mem_cons_self) hs)
  exact key t.toList (fun e he => mem_toList.mp he) s h0

def foldlM {ε : Type} (f : S → K → V → Except ε S) (s : S) (t : Table K V) : Except ε S :=
  t.toList.foldlM (fun s e => f s e.1 e.2) s

/-- A loop that may fail and whose steps change only the observation of their own key: if each succeeds at the start, the loop acts
key by key. -/
theorem foldlM_pointwise {ε : Type} (obs : S → K → X) (f : S → K → V → Except ε S) (upd : K → V → X → X) (ok : K → V → X → Prop)
    (h : ∀ s k v, ok k v (obs s k) → ∃ s', f s k v = .ok s' ∧ ∀ a, obs s' a = if a = k then upd k v (obs s a) else obs s a)
    (t : Table K V) (s : S) (hok : ∀ k v, t.get? k = some v → ok k v (obs s k)) :
    ∃ s', t.foldlM f s = .ok s' ∧ ∀ a, obs s' a = match t.get? a with
      | some v => upd a v (obs s a)
      | none => obs s a := by
  have key : ∀ (l : List (K × V)) (s : S), (l.map Prod.fst).Nodup → (∀ e ∈ l, ok e.1 e.2 (obs s e.1)) →
      ∃ s', l.foldlM (fun s e => f s e.1 e.2) s = .ok s' ∧ ∀ a,
        ((∀ v, (a, v) ∉ l) → obs s' a = obs s a) ∧ (∀ v, (a, v) ∈ l → obs s' a = upd a v (obs s a)) := by
    intro l
    induction l with
    | nil =>
      intro s _ _
      exact ⟨s, rfl, fun a => ⟨fun _ => rfl, fun v hv => absurd hv not_mem_nil⟩⟩
    | cons e l ih =>
      obtain ⟨k, w⟩ := e
      intro s hnd hok
      simp only [map_cons, nodup_cons, mem_map, Prod.exists, exists_and_right, exists_eq_right, not_exists] at hnd
      obtain ⟨s1, hstep, hobs⟩ := h s k w (hok (k, w) mem_cons_self)
      -- a later entry has another key, so its step finds what was there at the start
      have hlater : ∀ e ∈ l, ok e.1 e.2 (obs s1 e.1) := by
        intro e he
        have hne : e.1 ≠ k := fun heq => hnd.1 e.2 (heq ▸ he)
        rw [hobs, if_neg hne]
        exact hok e (mem_cons_of_mem _ he)
      obtain ⟨s', hrun, hpoint⟩ := ih s1 hnd.2 hlater
      refine ⟨s', ?_, fun a => ?_⟩
      · rw [foldlM_cons, hstep]
        exact hrun
      · by_cases hak : a = k
        · subst hak
          refine ⟨fun hno => absurd mem_cons_self (hno w), fun v hv => ?_⟩
          rcases mem_cons.mp hv with hv | hv
          · cases hv
            rw [(hpoint a).1 hnd.1, hobs, if_pos rfl]
          · exact absurd hv (hnd.1 v)
        · refine ⟨fun hno => ?_, fun v hv => ?_⟩
          · rw [(hpoint a).1 fun v hv => hno v (mem_cons_of_mem _ hv), hobs, if_neg hak]
          · rcases mem_cons.mp hv with hv | hv
            · cases hv
              exact absurd rfl hak
            · rw [(hpoint a).2 v hv, hobs, if_neg hak]
  obtain ⟨s', hrun, hpoint⟩ := key t.toList s t.nodup_keys fun e he => hok e.1 e.2 (mem_toList.mp he)
  refine ⟨s', hrun, fun a => ?_⟩
  cases ht : t.get? a with
  | none => exact (hpoint a).1 fun v hv => by rw [mem_toList, ht] at hv; cases hv
  | some v => exact (hpoint a).2 v (mem_toList.mpr ht)

/-- A loop whose step changes only the observation of its own key acts key by key. -/
theorem foldl_pointwise (obs : S → K → X) (f : S → K → V → S) (upd : K → V → X → X)
    (h : ∀ s k v a, obs (f s k v) a = if a = k then upd k v (obs s a) else obs s a)
    (t : Table K V) (s : S) (a : K) :
    obs (t.foldl f s) a = match t.get? a with
      | some v => upd a v (obs s a)
      | none => obs s a := by
  have hpure : t.foldlM (fun s k v => (.ok (f s k v) : Except Unit S)) s = .ok (t.foldl f s) := by
    unfold foldlM foldl
    generalize t.toList = l
    induction l generalizing s with
    | nil => rfl
    | cons e l ih => exact ih _
  obtain ⟨s', hrun, hobs⟩ := foldlM_pointwise obs (fun s k v => (.ok (f s k v) : Except Unit S)) upd (fun _ _ _ => True)
    (fun s k v _ => ⟨_, rfl, h s k v⟩) t s fun _ _ _ => trivial
  cases hpure.symm.trans hrun
  exact hobs a

/-- All entries of `src` written into `t`. -/
def absorb (src : Table K V) : Table K V := src.foldl (fun d k v => d.insert k v) t

theorem get?_absorb (src : Table K V) (a : K) : (t.absorb src).get? a = (src.get? a).or (t.get? a) := by
  rw [absorb, foldl_pointwise get? _ (fun _ v _ => some v) (fun s k v a => get?_insert s k a v)]
  cases src.get? a <;> rfl

end Table

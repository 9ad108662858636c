import Hivecoin.Base.Table

/-!
# Memoised recursion along predecessors
-/

namespace Memo

variable {K V : Type} [DecidableEq K]

/-- Goes back from a key until its value is known, for so many steps at most. -/
def back (known : K → Option V) (prev : K → K) : Nat → Table K V → K → List K → Option (Table K V × V × List K)
  | 0, _, _, _ => none
  | fuel + 1, cache, k, passed =>
    match cache.get? k with
    | some v => some (cache, v, passed)
    | none => match known k with
      | some v => some (cache.insert k v, v, passed)
      | none => back known prev fuel cache (prev k) (k :: passed)

/-- Goes forward over the keys that were passed and stores the value of each. -/
def forward (next : V → K → V) (cache : Table K V) (v : V) (passed : List K) : V × Table K V :=
  passed.foldl (fun s k => (next s.1 k, s.2.insert k (next s.1 k))) (v, cache)

def Agrees (f : K → V) (cache : Table K V) : Prop := ∀ k v, cache.get? k = some v → v = f k

variable {f : K → V} {cache : Table K V} {k : K}

theorem agrees_empty : Agrees f ∅ := fun k v h => by simp at h

theorem Agrees.insert (h : Agrees f cache) (k : K) : Agrees f (cache.insert k (f k)) := by
  intro a v hget
  rw [Table.get?_insert] at hget
  split at hget
  · rename_i hak
    cases hget
    rw [hak]
  · exact h a v hget

/-- The function satisfies the recursion on `D`, and every way back ends. -/
structure Recursion (known : K → Option V) (prev : K → K) (next : V → K → V) (f : K → V) (size : K → Nat) (D : K → Prop) : Prop where
  outright : ∀ k v, D k → known k = some v → v = f k
  goesBack : ∀ k, D k → known k = none → D (prev k) ∧ size (prev k) < size k
  goesOn : ∀ k, D k → known k = none → f k = next (f (prev k)) k

variable {known : K → Option V} {prev : K → K} {next : V → K → V} {size : K → Nat} {D : K → Prop}

theorem back_forward (h : Recursion known prev next f size D) (hcache : Agrees f cache) (hk : D k) {fuel}
    (hfuel : size k < fuel) (passed : List K) : ∃ cache1 v passed1 cache2, back known prev fuel cache k passed = some (cache1, v, passed1) ∧
      forward next cache1 v passed1 = forward next cache2 (f k) passed ∧ Agrees f cache2 := by
  induction fuel generalizing k passed with
  | zero => omega
  | succ fuel ih =>
    rw [back]
    cases hget : cache.get? k with
    | some v => exact ⟨cache, v, passed, cache, rfl, by rw [hcache k v hget], hcache⟩
    | none =>
      cases hknown : known k with
      | some v =>
        obtain rfl := h.outright k v hk hknown
        exact ⟨_, f k, passed, _, rfl, rfl, hcache.insert k⟩
      | none =>
        obtain ⟨hprev, hsize⟩ := h.goesBack k hk hknown
        obtain ⟨cache1, v, passed1, cache2, hback, hforward, hagrees⟩ := ih hprev (by omega) (k :: passed)
        refine ⟨cache1, v, passed1, cache2.insert k (f k), hback, hforward.trans ?_, hagrees.insert k⟩
        rw [forward, List.foldl_cons, ← h.goesOn k hk hknown]
        rfl

end Memo

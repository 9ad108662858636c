import Hivecoin.Base.Table

/-!
# Two-way indexes
-/

structure TwoWay (K H : Type) where
  holders : Table K (List H)
  keys : Table H (List K)

namespace TwoWay

variable {K H : Type}

instance : EmptyCollection (TwoWay K H) := ⟨⟨∅, ∅⟩⟩

variable [DecidableEq K] [DecidableEq H]

def contains (t : TwoWay K H) (k : K) : Bool := t.holders.contains k

def under (t : TwoWay K H) (k : K) : List H := t.holders.getD k []

def track (t : TwoWay K H) (k : K) (h : H) : TwoWay K H :=
  ⟨t.holders.modify k [] (List.insert h), t.keys.modify h [] (List.insert k)⟩

def leave (h : H) (t : TwoWay K H) (k : K) : TwoWay K H :=
  match t.holders.get? k with
  | some hs => { t with holders := t.holders.insert k (hs.erase h) }
  | none => t

/-- Takes a holder out of the list of a key; the key goes with its last holder. -/
def vacate (h : H) (t : TwoWay K H) (k : K) : TwoWay K H :=
  match t.holders.get? k with
  | some hs => { t with holders := if hs.erase h = [] then t.holders.erase k else t.holders.insert k (hs.erase h) }
  | none => t

def forget (h : H) (t : TwoWay K H) : TwoWay K H := { t with keys := t.keys.erase h }

def leaveAll (h : H) (t : TwoWay K H) : TwoWay K H := (t.keys.getD h []).foldl (leave h) t

def vacateAll (h : H) (t : TwoWay K H) : TwoWay K H := (t.keys.getD h []).foldl (vacate h) t

theorem contains_track (t : TwoWay K H) (k a : K) (h : H) : (t.track k h).contains a = (a == k || t.contains a) := by
  unfold contains track Table.contains Table.modify
  by_cases ha : a = k
  · simp [ha]
  · simp [ha, Table.get?_insert]

theorem contains_of_vacate {t : TwoWay K H} {k a h} (hcontains : (vacate h t k).contains a = true) : t.contains a = true := by
  unfold vacate at hcontains
  split at hcontains
  · rename_i hs hget
    simp only [contains] at hcontains ⊢
    by_cases ha : a = k
    · exact Table.contains_iff.2 ⟨hs, ha ▸ hget⟩
    · rw [Table.contains] at hcontains ⊢
      split at hcontains
      · rwa [Table.get?_erase, if_neg ha] at hcontains
      · rwa [Table.get?_insert, if_neg ha] at hcontains
  · exact hcontains

theorem contains_of_vacateAll {t : TwoWay K H} {a h} (hcontains : (vacateAll h t).contains a = true) : t.contains a = true := by
  unfold vacateAll at hcontains
  generalize t.keys.getD h [] = ks at hcontains
  induction ks generalizing t with
  | nil => exact hcontains
  | cons k ks ih => exact contains_of_vacate (ih hcontains)

end TwoWay

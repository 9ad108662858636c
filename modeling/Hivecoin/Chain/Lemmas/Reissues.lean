import Hivecoin.Chain.AssetEvents

/-!
# Several reissues of one asset
-/

namespace Hivecoin

open CAssetsCache List CReissueAsset

def lastSet {α : Type} (set : CReissueAsset → Option α) (rs : List CReissueAsset) : Option α :=
  rs.reverse.findSome? set

def CReissueAsset.setUnits (r : CReissueAsset) : Option Int8 := if r.nUnits ≠ -1 then some r.nUnits else none

def CReissueAsset.setHash (r : CReissueAsset) : Option Bytes := if r.strIPFSHash ≠ [] then some r.strIPFSHash else none

def reissuedAmount (rs : List CReissueAsset) : CAmount := (rs.map (·.nAmount)).sum

variable {m : CNewAsset} {rs : List CReissueAsset}

theorem lastSet_append_singleton {α : Type} (set : CReissueAsset → Option α) (rs : List CReissueAsset)
    (r : CReissueAsset) : lastSet set (rs ++ [r]) = (set r).or (lastSet set rs) := by
  simp only [lastSet, reverse_append, reverse_singleton, singleton_append, List.findSome?_cons]
  cases set r <;> rfl

theorem reissuedAmount_append_singleton (rs : List CReissueAsset) (r : CReissueAsset) :
    reissuedAmount (rs ++ [r]) = reissuedAmount rs + r.nAmount := by
  induction rs with
  | nil => simp [reissuedAmount]
  | cons r' rs ih =>
    simp only [reissuedAmount, cons_append, map_cons, sum_cons] at ih ⊢
    rw [ih, Int64.add_assoc]

theorem foldl_applyReissue (m : CNewAsset) (rs : List CReissueAsset) :
    rs.foldl applyReissue m =
      { m with
        nAmount := m.nAmount + reissuedAmount rs
        nReissuable := (lastSet (fun r => some r.nReissuable) rs).getD m.nReissuable
        units := (lastSet setUnits rs).getD m.units
        nHasIPFS := if (lastSet setHash rs).isSome then 1 else m.nHasIPFS
        strIPFSHash := (lastSet setHash rs).getD m.strIPFSHash } := by
  induction rs using List.reverseRecOn with
  | nil => simp [lastSet, reissuedAmount]
  | append_singleton rs r ih =>
    rw [foldl_append, ih]
    simp only [foldl_cons, foldl_nil, applyReissue, lastSet_append_singleton,
      reissuedAmount_append_singleton, Int64.add_assoc, setUnits, setHash]
    congr 1
    · split <;> rfl
    · split <;> rfl
    · split <;> rfl

theorem foldr_unapplyReissue (m : CNewAsset) (undo : Option CBlockAssetUndo) (h : rs ≠ []) :
    rs.foldr (fun r a => unapplyReissue a r undo) m =
      let hash := (undo.bind fun u => if u.fChangedIPFS then some u.strIPFS else none).getD m.strIPFSHash
      { m with
        nAmount := m.nAmount - reissuedAmount rs
        nReissuable := 1
        units := (undo.bind fun u => if u.fChangedUnits then some u.nUnits else none).getD m.units
        strIPFSHash := hash
        nHasIPFS := if undo.isSome ∧ hash = [] then 0 else m.nHasIPFS } := by
  induction rs with
  | nil => exact absurd rfl h
  | cons r rs ih =>
    have hamount : m.nAmount - reissuedAmount (r :: rs) = m.nAmount - reissuedAmount rs - r.nAmount := by
      simp only [reissuedAmount, map_cons, sum_cons]
      grind
    rw [hamount, foldr_cons]
    by_cases hrs : rs = []
    · subst hrs
      rw [foldr_nil, show reissuedAmount [] = 0 from rfl, Int64.sub_zero]
      cases undo with
      | none => simp [unapplyReissue]
      | some u => cases hi : u.fChangedIPFS <;> cases hv : u.fChangedUnits <;> simp [unapplyReissue, hi, hv]
    · rw [ih hrs]
      cases undo with
      | none => simp [unapplyReissue]
      | some u =>
        -- undoing once more with the same item changes nothing but the amount
        cases hi : u.fChangedIPFS <;> cases hv : u.fChangedUnits <;> simp [unapplyReissue, hi, hv]
        all_goals exact fun hempty hne => absurd hempty hne

end Hivecoin

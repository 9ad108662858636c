import Hivecoin.Chain.AssetHistory

/-!
# Blocks carry the data of a name forward and back
-/

namespace Hivecoin

open CAssetsCache List Option StoreView AssetEvent NameView

variable {g : StoreView} {es cb ce : List AssetEvent} {s : NameView} {undo : Option CBlockAssetUndo} {m : CNewAsset}

structure StoreView.Shows (g : StoreView) (data : Option CNewAsset) : Prop where
  reindex : g.reindex = false
  found : g.metaData ∅ = data
  known : g.has ∅ = data.isSome

/-! ## Connecting -/

def AssetEvent.asset? : AssetEvent → Option CNewAsset
  | issue asset _ _ => some asset
  | reissue .. => none

theorem foldl_applyTo_of_no_reissue (h : reissuesOf es = []) (data : Option CNewAsset) :
    es.foldl applyTo data = data.or (es.findSome? asset?) := by
  induction es generalizing data with
  | nil => simp
  | cons e es ih =>
    cases e with
    | issue a v u => rw [foldl_cons, ih h]; cases data <;> rfl
    | reissue => cases h

theorem shows_connect_some (hg : g.Shows (some m)) (hs : (es.foldl g.connect (∅, none)).1 = s) :
    (g.flushed s).Shows (es.foldl applyTo (some m)) := by
  obtain ⟨hrem, hadd⟩ := connect_issued g es
  obtain ⟨-, hreissued⟩ := connect_data hg.found es
  rw [hs] at hrem hadd hreissued
  rw [hg.known, isSome_some, Bool.not_true, Bool.false_and, isSome_eq_false_iff,
    isNone_iff_eq_none] at hadd
  have hissued : g.pending.issued.flushKeep s.issued = g.pending.issued := by
    rw [Slot.eq_empty hadd hrem, Slot.flushKeep_empty]
  rw [foldl_applyTo_some]
  refine ⟨hg.reindex, ?_, ?_⟩
  · by_cases hL : reissuesOf es = []
    · rw [if_pos hL] at hreissued
      rw [hL, foldl_nil, ← hg.found]
      simp only [metaData, flushed, NameView.flush, hissued, hreissued, none_or]
    · rw [if_neg hL] at hreissued
      exact metaData_of_reissued (by simp [flushed, NameView.flush, hreissued])
  · rw [isSome_some, ← isSome_some (a := m), ← hg.known]
    simp only [has, flushed, NameView.flush, hissued]

structure StoreView.Free (g : StoreView) : Prop where
  reindex : g.reindex = false
  reissued : g.pending.reissued = none
  issued : g.pending.issued = ∅
  data : g.data = none

theorem StoreView.Shows.free (hg : g.Shows none) (hrem : g.pending.issued.rem = none) : g.Free := by
  have hnone := hg.found
  simp only [metaData, or_eq_none_iff, Slot.read, empty_issued, Slot.empty_rem, Slot.empty_add,
    hrem] at hnone
  cases hadd : g.pending.issued.add with
  | some a => simp [hadd] at hnone
  | none => exact ⟨hg.reindex, hnone.1.2, Slot.eq_empty hadd hrem, by simpa [hadd] using hnone.2⟩

theorem StoreView.Free.read (hg : g.Free) (hrem : s.issued.rem = none) :
    g.metaData s = s.reissued.or s.issued.add ∧ g.has s = s.issued.add.isSome := by
  simp only [metaData, has, hg.reindex, hg.reissued, hg.issued, hg.data, Slot.read, hrem,
    Slot.empty_rem, Slot.empty_add]
  cases s.issued.add <;> simp

theorem connect_free (hg : g.Free) (es : List AssetEvent) :
    (es.foldl g.connect (∅, none)).1.issued.rem = none ∧
      g.metaData (es.foldl g.connect (∅, none)).1 = es.foldl applyTo none ∧
      g.has (es.foldl g.connect (∅, none)).1 = (es.foldl applyTo none).isSome := by
  induction es using List.reverseRecOn with
  | nil => exact ⟨rfl, hg.read rfl⟩
  | append_singleton es e ih =>
    obtain ⟨hrem, hdata, hhas⟩ := ih
    simp only [foldl_append, foldl_cons, foldl_nil]
    generalize es.foldl g.connect (∅, none) = st at hrem hdata hhas ⊢
    generalize es.foldl applyTo none = data at hdata hhas ⊢
    obtain ⟨hfound, hknown⟩ := hg.read hrem
    cases e with
    | issue a v u =>
      cases data with
      | some d =>
        have hsame : (g.connect st (.issue a v u)).1.issued = st.1.issued := by simp [connect, hhas]
        refine ⟨hsame ▸ hrem, ?_, (has_of_issued hsame).trans hhas⟩
        rw [metaData, hsame]
        exact hdata
      | none =>
        have hadd : (g.connect st (.issue a v u)).1.issued = st.1.issued.addKeep a := by
          simp [connect, hhas]
        have hnone : st.1.reissued = none ∧ st.1.issued.add = none := by
          simpa [hdata] using hfound.symm
        have hread := hg.read (s := (g.connect st (.issue a v u)).1) (by rw [hadd]; rfl)
        rw [hread.1, hread.2, hadd]
        refine ⟨rfl, ?_, rfl⟩
        rw [show (g.connect st (.issue a v u)).1.reissued = none from hnone.1, Slot.addKeep, hnone.2]
        rfl
    | reissue r v =>
      have hread := hg.read (s := (g.connect st (.reissue r v)).1) hrem
      have hsame : (g.connect st (.reissue r v)).1.issued = st.1.issued := rfl
      refine ⟨hrem, ?_, ?_⟩
      · rw [hread.1, hsame]
        cases data with
        | none =>
          have hnone : st.1.reissued = none ∧ st.1.issued.add = none := by
            simpa [hdata] using hfound.symm
          simp [connect, hdata, hnone, applyTo]
        | some d => simp [connect, hdata, applyTo]
      · rw [has_of_issued hsame, hhas]
        cases data <;> rfl

theorem Slot.empty_flushKeep {V : Type} {l} (h : l.rem = none) : (∅ : Slot V).flushKeep l = l := by
  obtain ⟨a, r⟩ := l
  cases h
  cases a <;> rfl

theorem shows_connect_free (hg : g.Free) (hs : (es.foldl g.connect (∅, none)).1 = s) :
    (g.flushed s).Shows (es.foldl applyTo none) := by
  obtain ⟨hrem, hdata, hhas⟩ := connect_free hg es
  rw [hs] at hrem hdata hhas
  rw [(hg.read hrem).1] at hdata
  rw [(hg.read hrem).2] at hhas
  refine ⟨hg.reindex, ?_, ?_⟩
  · rw [← hdata]
    simp only [metaData, flushed, NameView.flush, hg.issued, hg.reissued, hg.data,
      Slot.empty_flushKeep hrem, empty_issued, empty_reissued, Slot.read, Slot.empty_rem, Slot.empty_add,
      hrem, none_or, or_none]
    cases s.issued.add <;> rfl
  · rw [← hhas]
    simp only [has, flushed, NameView.flush, hg.issued, hg.data, hg.reindex, Slot.empty_flushKeep hrem,
      empty_issued, Slot.read, Slot.empty_rem, Slot.empty_add, hrem, Bool.false_or]
    cases s.issued.add <;> rfl

structure StoreView.Removed (g : StoreView) : Prop where
  reindex : g.reindex = false
  reissued : g.pending.reissued = none
  add : g.pending.issued.add = none
  rem : g.pending.issued.rem.isSome = true

theorem StoreView.Removed.read (hg : g.Removed) (hr : s.reissued = none) (hrem : s.issued.rem = none) :
    g.metaData s = none ∧ g.has s = false := by
  obtain ⟨r, hrem'⟩ := isSome_iff_exists.1 hg.rem
  simp [metaData, has, hg.reindex, hg.reissued, hr, Slot.read, hrem, hrem']

theorem connect_removed (hg : g.Removed) (es : List AssetEvent) :
    (es.foldl g.connect (∅, none)).1.reissued = none ∧ (es.foldl g.connect (∅, none)).1.issued.rem = none ∧
      (es.foldl g.connect (∅, none)).1.issued.add = es.findSome? asset? := by
  induction es using List.reverseRecOn with
  | nil => exact ⟨rfl, rfl, rfl⟩
  | append_singleton es e ih =>
    obtain ⟨hr, hrem, hadd⟩ := ih
    rw [List.findSome?_append]
    simp only [foldl_append, foldl_cons, foldl_nil]
    generalize es.foldl g.connect (∅, none) = st at hr hrem hadd ⊢
    obtain ⟨hdata, hhas⟩ := hg.read hr hrem
    cases e with
    | issue a v u =>
      refine ⟨hr, ?_, ?_⟩
      · simp [connect, hhas, Slot.addKeep]
      · rw [← hadd]
        cases hold : st.1.issued.add <;>
          simp [connect, hhas, Slot.addKeep, hold, asset?]
    | reissue r v => exact ⟨by simp [connect, hdata, hr], hrem, by simp [connect, hadd, asset?]⟩

theorem shows_connect_removed (hg : g.Removed) (hcb : cb.length ≤ 1)
    (h : ce.foldlM g.connectChecked (cb.foldl g.connect (∅, none)) = some (s, undo)) :
    (g.flushed s).Shows ((cb ++ ce).foldl applyTo none) := by
  have hconnect := foldl_connect_of_checked h
  rw [← foldl_append] at hconnect
  obtain ⟨hr, hrem, hadd⟩ := connect_removed hg (cb ++ ce)
  rw [hconnect] at hr hrem hadd
  dsimp only at hr hrem hadd
  have hce : reissuesOf ce = [] := by
    have hchecked := connectChecked_reissued h
    rw [hr, (connect_removed hg cb).1] at hchecked
    simpa using hchecked
  have hfirst : cb.foldl applyTo none = cb.findSome? asset? := by
    obtain rfl | ⟨a, v, u, rfl⟩ | ⟨r, v, rfl⟩ := AssetEvent.cases_of_length hcb <;> rfl
  rw [foldl_append, foldl_applyTo_of_no_reissue hce, hfirst, ← List.findSome?_append, ← hadd]
  obtain ⟨r, hrem'⟩ := isSome_iff_exists.1 hg.rem
  refine ⟨hg.reindex, ?_, ?_⟩
  · simp only [metaData, flushed, NameView.flush, hg.reissued, hr, Slot.flushKeep, hrem, Slot.read]
    cases s.issued.add <;> simp [Slot.addKeep, hg.add, hrem']
  · simp only [has, flushed, NameView.flush, hg.reindex, Slot.flushKeep, hrem, Slot.read]
    cases s.issued.add <;> simp [Slot.addKeep, hrem']

theorem shows_connect {data} (hg : g.Shows data) (hd : g.pending.issued.Disjoint)
    (hcb : cb.length ≤ 1) (h : ce.foldlM g.connectChecked (cb.foldl g.connect (∅, none)) = some (s, undo)) :
    (g.flushed s).Shows ((cb ++ ce).foldl applyTo data) := by
  have hs : ((cb ++ ce).foldl g.connect (∅, none)).1 = s := by
    rw [foldl_append, foldl_connect_of_checked h]
  cases data with
  | some m => exact shows_connect_some hg hs
  | none =>
    cases hrem : g.pending.issued.rem with
    | none => exact shows_connect_free (hg.free hrem) hs
    | some r =>
      have hnone := hg.found
      simp only [metaData, or_eq_none_iff] at hnone
      refine shows_connect_removed ⟨hg.reindex, hnone.1.2, hd.resolve_right ?_, by rw [hrem]; rfl⟩ hcb h
      rw [hrem]
      exact some_ne_none r

theorem revertedReissues_of_no_issue (h : es.any isIssue = false) : revertedReissues true es = reissuesOf es := by
  induction es with
  | nil => rfl
  | cons e es ih =>
    cases e with
    | issue => cases h
    | reissue r v =>
      have hrest : es.any isIssue = false := h
      rw [revertedReissues, ih hrest, if_pos (by simp [hrest])]
      rfl

theorem revertedReissues_unknown (es : List AssetEvent) : revertedReissues false es = [] := by
  induction es with
  | nil => rfl
  | cons e es ih => cases e <;> simpa [revertedReissues] using ih

theorem shows_disconnect_some {changed text} (hg : g.Shows (es.foldl applyTo (some m)))
    (hno : es.any isIssue = false) (hreverts : Reverts m (firstChange es) (reissuesOf es) (reissuesOf es))
    (hundo : undo = (firstChange es).map (undoItemOf m changed text)) (h : Reverted g undo es s) :
    (g.flushed s).Shows (some m) := by
  rw [foldl_applyTo_some] at hg
  have hissued : s.issued = ∅ := by
    refine Slot.eq_empty h.add ?_
    simpa [hno] using h.rem
  have hreissued := h.reissued
  rw [hg.known, isSome_some, revertedReissues_of_no_issue hno, hg.found] at hreissued
  refine ⟨hg.reindex, ?_, ?_⟩
  · have hback := (reverts_iff changed text).2 hreverts
    rw [← hundo] at hback
    by_cases hL : reissuesOf es = []
    · rw [if_pos hL] at hreissued
      rw [hL, foldl_nil] at hg
      rw [← hg.found]
      simp only [metaData, flushed, NameView.flush, hissued, hreissued, Slot.flushKeep_empty,
        none_or]
    · rw [if_neg hL, map_some] at hreissued
      rw [if_neg hL] at hback
      rw [hback] at hreissued
      exact metaData_of_reissued (by simp [flushed, NameView.flush, hreissued])
  · rw [isSome_some, ← isSome_some (a := (reissuesOf es).foldl applyReissue m), ← hg.known]
    simp only [has, flushed, NameView.flush, hissued, Slot.flushKeep_empty]

theorem shows_disconnect_none (hg : g.Shows (es.foldl applyTo none))
    (hissue : es.any isIssue = true → g.pending.reissued = none ∧ revertedReissues true es = [])
    (h : Reverted g undo es s) : (g.flushed s).Shows none := by
  have hreissued := h.reissued
  have hrem := h.rem
  rw [hg.known, isSome_foldl_applyTo, isSome_none, Bool.false_or] at hreissued hrem
  rw [Bool.and_self] at hrem
  cases hany : es.any isIssue with
  | false =>
    rw [hany, revertedReissues_unknown, if_pos rfl] at hreissued
    rw [hany, isSome_eq_false_iff, isNone_iff_eq_none] at hrem
    rw [foldl_applyTo_of_no_issue hany] at hg
    have hissued := Slot.eq_empty h.add hrem
    refine ⟨hg.reindex, ?_, ?_⟩
    · rw [← hg.found]
      simp only [metaData, flushed, NameView.flush, hissued, hreissued, Slot.flushKeep_empty,
        none_or]
    · rw [← hg.known]
      simp only [has, flushed, NameView.flush, hissued, Slot.flushKeep_empty]
  | true =>
    obtain ⟨hpending, hnone⟩ := hissue hany
    rw [hany, hnone, if_pos rfl] at hreissued
    rw [hany] at hrem
    obtain ⟨a, ha⟩ := isSome_iff_exists.1 hrem
    have hslot : s.issued = ⟨none, some a⟩ := by rw [← h.add, ← ha]
    refine ⟨hg.reindex, ?_, ?_⟩
    · simp [metaData, flushed, NameView.flush, hslot, hreissued, hpending, Slot.flushKeep,
        Slot.removeKeep, Slot.read]
    · simp [has, flushed, NameView.flush, hslot, hg.reindex, Slot.flushKeep, Slot.removeKeep, Slot.read]

end Hivecoin

import Hivecoin.Chain.AssetEvents

/-!
# What the events of a block leave for a name
-/

namespace Hivecoin

open CAssetsCache List Option AssetEvent

variable {g : StoreView} {es : List AssetEvent} {m : CNewAsset}
variable {s : NameView} {st st' : NameView × Option CBlockAssetUndo} {undo : Option CBlockAssetUndo}

namespace StoreView

theorem has_of_issued {t} (h : s.issued = t.issued) : g.has s = g.has t := by
  rw [has, has, h]

theorem has_of_metaData (hr : s.reissued.or g.pending.reissued = none) (h : (g.metaData s).isSome = true) : g.has s = true := by
  cases hre : g.reindex with
  | true => simp [has, hre]
  | false => rwa [metaData_isSome hr hre] at h

theorem metaData_of_reissued {a} (h : s.reissued.or g.pending.reissued = some a) : g.metaData s = some a := by
  rw [metaData, h]; rfl

end StoreView

theorem Slot.addVerifier_addVerifier (v w : Option Bytes) :
    Slot.addVerifier (Slot.addVerifier ∅ v) w = Slot.addVerifier ∅ (v.or w) := by
  cases v <;> cases w <;> rfl

theorem Slot.eq_empty {V : Type} {s : Slot V} (hadd : s.add = none) (hrem : s.rem = none) : s = ∅ := by
  obtain ⟨a, r⟩ := s
  cases hadd; cases hrem; rfl

theorem Slot.removeKeep_of_rem {V : Type} (r : Option V) (v : V) :
    (⟨none, r⟩ : Slot V).removeKeep v = ⟨none, r.or (some v)⟩ := by
  cases r <;> rfl

theorem reissuesOf_append (es es' : List AssetEvent) : reissuesOf (es ++ es') = reissuesOf es ++ reissuesOf es' :=
  filterMap_append

theorem revertedReissues_eq_nil (known : Bool) (h : reissuesOf es = []) : revertedReissues known es = [] := by
  induction es with
  | nil => rfl
  | cons e es ih =>
    cases e with
    | issue => exact ih h
    | reissue => cases h

theorem connect_issued (g : StoreView) (es : List AssetEvent) :
    (es.foldl g.connect (∅, none)).1.issued.rem = none ∧
      (es.foldl g.connect (∅, none)).1.issued.add.isSome = (!g.has ∅ && es.any isIssue) := by
  induction es using List.reverseRecOn with
  | nil => exact ⟨rfl, by simp⟩
  | append_singleton es e ih =>
    obtain ⟨hrem, hadd⟩ := ih
    rw [foldl_append, foldl_cons, foldl_nil]
    generalize es.foldl g.connect (∅, none) = st at hrem hadd ⊢
    have hempty : (!g.has ∅ && es.any isIssue) = false → g.has st.1 = g.has ∅ := by
      intro hfalse
      refine StoreView.has_of_issued (Slot.eq_empty ?_ hrem)
      rw [hfalse] at hadd
      simpa using hadd
    cases e with
    | reissue r v => simpa [StoreView.connect, isIssue] using ⟨hrem, hadd⟩
    | issue a v u =>
      simp only [StoreView.connect, any_append, any_cons, isIssue, any_nil,
        Bool.or_false, Bool.or_true, Bool.and_true]
      cases hhas : g.has st.1 with
      | true =>
        refine ⟨hrem, ?_⟩
        rw [if_pos rfl, hadd]
        cases h0 : g.has ∅ with
        | true => rfl
        | false =>
          cases hany : es.any isIssue with
          | true => rfl
          | false => rw [hempty (by simp [hany]), h0] at hhas; cases hhas
      | false =>
        refine ⟨rfl, ?_⟩
        cases h0 : g.has ∅ with
        | true => rw [hempty (by simp [h0]), h0] at hhas; cases hhas
        | false => rfl

theorem connect_verifier (g : StoreView) (es : List AssetEvent) :
    (es.foldl g.connect (∅, none)).1.verifier = Slot.addVerifier ∅ (es.findSome? verifier?) := by
  induction es using List.reverseRecOn with
  | nil => rfl
  | append_singleton es e ih =>
    rw [foldl_append, foldl_cons, foldl_nil, List.findSome?_append, ← Slot.addVerifier_addVerifier, ← ih]
    cases e with
    | issue a v u => cases v <;> rfl
    | reissue r v => cases v <;> rfl

theorem connect_data (hm : g.metaData ∅ = some m) (es : List AssetEvent) :
    g.metaData (es.foldl g.connect (∅, none)).1 = some ((reissuesOf es).foldl applyReissue m) ∧
      (es.foldl g.connect (∅, none)).1.reissued =
        if reissuesOf es = [] then none else some ((reissuesOf es).foldl applyReissue m) := by
  induction es using List.reverseRecOn with
  | nil => exact ⟨hm, rfl⟩
  | append_singleton es e ih =>
    obtain ⟨hdata, hreissued⟩ := ih
    obtain ⟨hrem, hadd⟩ := connect_issued g es
    rw [foldl_append, foldl_cons, foldl_nil, reissuesOf_append]
    generalize es.foldl g.connect (∅, none) = st at hdata hreissued hrem hadd ⊢
    cases e with
    | reissue r v =>
      have hstep : (g.connect st (.reissue r v)).1.reissued =
          some ((reissuesOf es ++ reissuesOf [.reissue r v]).foldl applyReissue m) := by
        simp [StoreView.connect, hdata, reissuesOf, reissue?]
      refine ⟨StoreView.metaData_of_reissued (by rw [hstep]; rfl), ?_⟩
      rw [hstep, if_neg (by simp [reissuesOf, reissue?])]
    | issue a v u =>
      rw [show reissuesOf [.issue a v u] = [] from rfl, append_nil]
      refine ⟨?_, hreissued⟩
      rw [← hdata]
      cases hr : st.1.reissued.or g.pending.reissued with
      | some b =>
        have hr' : (g.connect st (.issue a v u)).1.reissued.or g.pending.reissued = some b := hr
        rw [StoreView.metaData_of_reissued hr, StoreView.metaData_of_reissued hr']
      | none =>
        -- the name is known from the start, so nothing is issued
        have hissued : (g.connect st (.issue a v u)).1.issued = st.1.issued := by
          have hhas := StoreView.has_of_metaData hr (by rw [hdata]; rfl)
          simp [StoreView.connect, hhas]
        rw [StoreView.metaData, StoreView.metaData, hissued]
        rfl

def StoreView.overwritten (g : StoreView) (es : List AssetEvent) : Option Bytes :=
  (es.find? changes).bind fun e => e.verifier?.map fun _ =>
    (g.verifierText { (∅ : NameView) with
      verifier := Slot.addVerifier ∅ ((es.takeWhile fun e => !e.changes).findSome? verifier?) }).getD []

/-- The undo item of the first change of the block, which overwrites data `a`. -/
def StoreView.firstUndo (g : StoreView) (a : CNewAsset) (es : List AssetEvent) : Option CBlockAssetUndo :=
  (es.find? changes).bind fun e => e.reissue?.map fun r =>
    ⟨r.strIPFSHash != [], r.nUnits != -1, a.strIPFSHash, a.units, (g.overwritten es).isSome, (g.overwritten es).getD []⟩

theorem foldl_applyReissue_of_no_change (h : ∀ e ∈ es, e.changes = false) :
    ((reissuesOf es).foldl applyReissue m).units = m.units ∧
      ((reissuesOf es).foldl applyReissue m).strIPFSHash = m.strIPFSHash := by
  induction es using List.reverseRecOn with
  | nil => exact ⟨rfl, rfl⟩
  | append_singleton es e ih =>
    obtain ⟨hunits, hhash⟩ := ih fun e' he' => h e' (mem_append_left _ he')
    have he := h e (mem_append_right _ (mem_singleton.2 rfl))
    cases e with
    | issue a v u => simpa [reissuesOf, reissue?] using ⟨hunits, hhash⟩
    | reissue r v =>
      simp only [changes, CReissueAsset.changes, Bool.or_eq_false_iff, bne_eq_false_iff_eq] at he
      simp only [reissuesOf_append, foldl_append]
      simp [reissuesOf, reissue?, applyReissue, he.1.1, he.1.2] at hunits hhash ⊢
      exact ⟨hunits, hhash⟩

theorem connect_undo (g : StoreView) (es : List AssetEvent) :
    ∃ a, (es.foldl g.connect (∅, none)).2 = g.firstUndo a es ∧
      ∀ m, g.metaData ∅ = some m → a.units = m.units ∧ a.strIPFSHash = m.strIPFSHash := by
  induction es using List.reverseRecOn with
  | nil => exact ⟨(g.metaData ∅).getD .null, rfl, fun m hm => by rw [hm]; exact ⟨rfl, rfl⟩⟩
  | append_singleton es e ih =>
    obtain ⟨a, ih, ha⟩ := ih
    have hdata : ∀ m, g.metaData ∅ = some m → g.metaData (es.foldl g.connect (∅, none)).1 =
        some ((reissuesOf es).foldl applyReissue m) := fun m hm => (connect_data hm es).1
    have hver := connect_verifier g es
    rw [foldl_append, foldl_cons, foldl_nil]
    generalize es.foldl g.connect (∅, none) = st at ih hdata hver ⊢
    cases hfirst : es.find? changes with
    | some e0 =>
      obtain ⟨hch, l, l', rfl, hl⟩ := List.find?_eq_some_iff_append.1 hfirst
      have hl' : ∀ a ∈ l, (!a.changes) = true := hl
      have hwhile : (l ++ e0 :: l' ++ [e]).takeWhile (fun e => !e.changes) =
          (l ++ e0 :: l').takeWhile fun e => !e.changes := by
        simp [append_assoc, takeWhile_append_of_pos hl', hch]
      have hfind : (l ++ e0 :: l' ++ [e]).find? changes = some e0 := by
        rw [List.find?_append, hfirst]; rfl
      have hsame : g.firstUndo a (l ++ e0 :: l' ++ [e]) = g.firstUndo a (l ++ e0 :: l') := by
        rw [StoreView.firstUndo, StoreView.firstUndo, StoreView.overwritten, StoreView.overwritten, hfind, hfirst, hwhile]
      have hsome : (g.firstUndo a (l ++ e0 :: l')).isSome = true := by
        rw [StoreView.firstUndo, hfirst]
        cases e0 with
        | issue => cases hch
        | reissue => rfl
      obtain ⟨u, hu⟩ := isSome_iff_exists.1 hsome
      refine ⟨a, ?_, ha⟩
      rw [hsame]
      cases e with
      | issue => exact ih
      | reissue => simp only [StoreView.connect, ih, hu, some_or]
    | none =>
      have hno : ∀ e' ∈ es, e'.changes = false := fun e' he' => by simpa using List.find?_eq_none.1 hfirst e' he'
      have hall : (es ++ [e]).takeWhile (fun e => !e.changes) = es ++ [e].takeWhile fun e => !e.changes :=
        takeWhile_append_of_pos fun a ha => by simp [hno a ha]
      rw [StoreView.firstUndo, hfirst] at ih
      refine ⟨(g.metaData st.1).getD .null, ?_, fun m hm => ?_⟩
      · simp only [StoreView.firstUndo, StoreView.overwritten, List.find?_append, hfirst, hall]
        cases e with
        | issue => exact ih
        | reissue r v =>
          have htext : g.verifierText st.1 = g.verifierText { (∅ : NameView) with
              verifier := Slot.addVerifier ∅ (es.findSome? verifier?) } := by
            rw [StoreView.verifierText, hver]; rfl
          cases hch : r.changes v with
          | false => simp [StoreView.connect, ih, StoreView.undoItem, changes, hch]
          | true =>
            cases v <;> simp [StoreView.connect, ih, StoreView.undoItem, changes, hch, htext,
              reissue?, verifier?]
      · rw [hdata m hm]
        exact foldl_applyReissue_of_no_change hno

theorem revertedVerifier_firstUndo (a : CNewAsset) (es : List AssetEvent) :
    revertedVerifier (g.firstUndo a es) = g.overwritten es := by
  unfold StoreView.firstUndo
  cases hfirst : es.find? changes with
  | none => simp [StoreView.overwritten, hfirst, revertedVerifier]
  | some e =>
    have hch := List.find?_some hfirst
    cases e with
    | issue => cases hch
    | reissue r v =>
      cases h : g.overwritten es <;> simp [revertedVerifier, reissue?]

theorem foldl_connect_of_checked (h : es.foldlM g.connectChecked st = some st') : es.foldl g.connect st = st' := by
  induction es generalizing st with
  | nil => simpa using h
  | cons e es ih =>
    simp only [foldlM_cons, StoreView.connectChecked, Outcome.some_iff] at h
    obtain ⟨_, ⟨-, rfl⟩, h⟩ := h
    exact ih h

theorem connectChecked_reissued (h : es.foldlM g.connectChecked st = some st') :
    st'.1.reissued.isSome = (st.1.reissued.isSome || !(reissuesOf es).isEmpty) := by
  induction es generalizing st with
  | nil =>
    cases h
    simp [reissuesOf]
  | cons e es ih =>
    simp only [List.foldlM_cons, StoreView.connectChecked, Outcome.some_iff] at h
    obtain ⟨_, ⟨hpass, rfl⟩, h⟩ := h
    rw [ih h]
    cases e with
    | issue => rfl
    | reissue r v =>
      obtain ⟨a, ha⟩ := Option.isSome_iff_exists.1 hpass
      simp [StoreView.connect, ha, reissuesOf, reissue?]

theorem connectChecked_reindex (hre : g.reindex = true) (h : es.foldlM g.connectChecked st = some st') : es.any isIssue = false := by
  induction es generalizing st with
  | nil => rfl
  | cons e es ih =>
    simp only [foldlM_cons, StoreView.connectChecked, Outcome.some_iff] at h
    obtain ⟨_, ⟨hpass, rfl⟩, h⟩ := h
    cases e with
    | issue => simp [StoreView.passes, StoreView.has, hre] at hpass
    | reissue => simpa [isIssue] using ih h

theorem StoreView.has_of_removed (hadd : s.issued.add = none) :
    g.has s = (g.reindex || (s.issued.rem.isNone && g.has ∅)) := by
  cases hrem : s.issued.rem with
  | some a => simp [has, Slot.read, hrem]
  | none =>
    rw [has_of_issued (show s.issued = (∅ : NameView).issued from Slot.eq_empty hadd hrem)]
    simp only [has, isNone_none, Bool.true_and]
    cases g.reindex <;> rfl

/-- What undoing the events of a block backwards leaves. -/
structure Reverted (g : StoreView) (undo : Option CBlockAssetUndo) (es : List AssetEvent) (s : NameView) : Prop where
  add : s.issued.add = none
  rem : s.issued.rem.isSome = (g.has ∅ && es.any isIssue)
  reissued : s.reissued = if revertedReissues (g.has ∅) es = [] then none else
    (g.metaData ∅).map ((revertedReissues (g.has ∅) es).foldr fun r a => unapplyReissue a r undo)
  found : revertedReissues (g.has ∅) es ≠ [] → (g.metaData ∅).isSome = true
  verifier : s.verifier = ⟨none,
    ((if revertedReissues (g.has ∅) es = [] then none else revertedVerifier undo).map fun v =>
        (⟨v, true⟩ : CAssetCacheRestrictedVerifiers)).or
      ((es.reverse.findSome? undoVerifier?).map fun v => ⟨v, false⟩)⟩

theorem Reverted.has_eq (h : Reverted g undo es s) (hre : g.reindex = true → es.any isIssue = false) :
    g.has s = (g.has ∅ && !es.any isIssue) := by
  have hrem := h.rem
  rw [StoreView.has_of_removed h.add]
  cases hr : g.reindex with
  | true => simp [hre hr, StoreView.has, hr]
  | false => cases hg : g.has ∅ <;> cases ha : es.any isIssue <;> simp_all

theorem Reverted.issue (h : Reverted g undo es s) (hhas : g.has s = (g.has ∅ && !es.any AssetEvent.isIssue)) (a : CNewAsset)
    (v u : Option Bytes) :
    Reverted g undo (.issue a v u :: es) { s with
      issued := if g.has s then s.issued.removeKeep a else s.issued
      verifier := u.elim s.verifier fun v => s.verifier.removeKeep ⟨v, false⟩ } := by
  refine ⟨?_, ?_, h.reissued, h.found, ?_⟩
  · split
    · rfl
    · exact h.add
  · have hrem := h.rem
    simp only [List.any_cons, AssetEvent.isIssue, Bool.true_or, Bool.and_true]
    split
    · rename_i hk
      rw [hhas, Bool.and_eq_true] at hk
      rw [hk.1]; rfl
    · rename_i hk
      rw [hhas] at hk
      cases hg : g.has ∅ <;> cases ha : es.any AssetEvent.isIssue <;> simp_all
  · rw [List.reverse_cons, List.findSome?_append, h.verifier]
    cases u with
    | none => rw [show [AssetEvent.issue a v none].findSome? AssetEvent.undoVerifier? = none from rfl, Option.or_none]; rfl
    | some w =>
      rw [show [AssetEvent.issue a v (some w)].findSome? AssetEvent.undoVerifier? = some w from rfl, Option.map_or,
        ← Option.or_assoc]
      exact Slot.removeKeep_of_rem _ _

theorem Reverted.hidden (h : Reverted g undo es s) (hhas : (g.has ∅ && !es.any isIssue) = false) (r : CReissueAsset)
    (v : Option Bytes) :
    Reverted g undo (.reissue r v :: es) s := by
  have hsame : revertedReissues (g.has ∅) (.reissue r v :: es) = revertedReissues (g.has ∅) es := by
    simp [revertedReissues, hhas]
  refine ⟨h.add, h.rem, ?_, ?_, ?_⟩
  · rw [hsame]; exact h.reissued
  · rw [hsame]; exact h.found
  · rw [hsame, reverse_cons, List.findSome?_append,
      show [reissue r v].findSome? undoVerifier? = none from rfl, or_none]
    exact h.verifier

/-- The data of a name with nothing removed: that of the start, later reissues undone. -/
theorem Reverted.metaData_eq (h : Reverted g undo es s) (hno : es.any isIssue = false) :
    g.metaData s =
      (g.metaData ∅).map ((revertedReissues (g.has ∅) es).foldr fun r a => unapplyReissue a r undo) := by
  have hissued : s.issued = (∅ : NameView).issued := by
    refine Slot.eq_empty h.add ?_
    simpa [hno] using h.rem
  have hreissued := h.reissued
  by_cases hT : revertedReissues (g.has ∅) es = []
  · rw [if_pos hT] at hreissued
    rw [StoreView.metaData, hissued, hreissued, hT]
    simp [StoreView.metaData]
  · rw [if_neg hT] at hreissued
    obtain ⟨a, ha⟩ := isSome_iff_exists.1 (h.found hT)
    rw [ha, map_some] at hreissued ⊢
    rw [StoreView.metaData, hreissued]
    rfl

theorem Reverted.reissue {undo s} (h : Reverted g undo es s)
    (hhas : (g.has ∅ && !es.any AssetEvent.isIssue) = true) {a} (ha : g.metaData s = some a)
    (r : CReissueAsset) (v : Option Bytes) :
    Reverted g undo (.reissue r v :: es) { s with
      reissued := some (unapplyReissue a r undo), verifier := Slot.undoVerifier s.verifier undo } := by
  have hmore : revertedReissues (g.has ∅) (.reissue r v :: es) = r :: revertedReissues (g.has ∅) es := by
    simp [revertedReissues, hhas]
  simp only [Outcome.test_iff] at hhas
  rw [h.metaData_eq hhas.2] at ha
  obtain ⟨m, hm, rfl⟩ := map_eq_some_iff.1 ha
  have hnone : es.reverse.findSome? AssetEvent.undoVerifier? = none := by
    refine List.findSome?_eq_none_iff.2 fun e he => ?_
    have hissue := any_eq_false.1 hhas.2 e (mem_reverse.1 he)
    cases e with
    | issue => exact absurd rfl hissue
    | reissue => rfl
  have hver := h.verifier
  rw [hnone, map_none, or_none] at hver
  refine ⟨h.add, h.rem, ?_, fun _ => by rw [hm]; rfl, ?_⟩
  · rw [hmore, if_neg (by simp), hm]; rfl
  · rw [hmore, if_neg (by simp), reverse_cons, List.findSome?_append, hnone, none_or,
      show [AssetEvent.reissue r v].findSome? AssetEvent.undoVerifier? = none from rfl, map_none, or_none,
      hver]
    cases undo with
    | none => simp [Slot.undoVerifier, revertedVerifier]
    | some u =>
      cases hu : u.fChangedVerifierString <;> split <;> simp [Slot.undoVerifier, revertedVerifier, hu, Slot.removeKeep]

theorem disconnect_reverted (hre : g.reindex = true → es.tail.any isIssue = false)
    (h : es.reverse.foldlM (g.disconnect undo) ∅ = some s) : Reverted g undo es s := by
  induction es generalizing s with
  | nil =>
    simp only [List.reverse_nil, List.foldlM_nil, Outcome.some_iff] at h
    subst h
    exact ⟨rfl, by simp, rfl, by simp [revertedReissues], rfl⟩
  | cons e es ih =>
    rw [List.tail_cons] at hre
    simp only [List.reverse_cons, List.foldlM_append, List.foldlM_cons, List.foldlM_nil, Outcome.some_iff] at h
    obtain ⟨s1, h1, _, hstep, rfl⟩ := h
    have ih := ih (fun hr => by
      have hnone := hre hr
      rw [List.any_eq_false] at hnone ⊢
      exact fun x hx => hnone x (List.mem_of_mem_tail hx)) h1
    have hhas := ih.has_eq hre
    cases e with
    | issue a v u =>
      simp only [StoreView.disconnect, Option.some.injEq] at hstep
      exact hstep ▸ ih.issue hhas a v u
    | reissue r v =>
      simp only [StoreView.disconnect, hhas] at hstep
      cases hk : (g.has ∅ && !es.any isIssue) with
      | false =>
        rw [hk, if_neg (by simp), Option.some.injEq] at hstep
        exact hstep ▸ ih.hidden hk r v
      | true =>
        rw [hk, if_pos rfl, Option.map_eq_some_iff] at hstep
        obtain ⟨a, ha, rfl⟩ := hstep
        exact ih.reissue hk ha r v

end Hivecoin

import Hivecoin.Cache.DumpAssets
import Hivecoin.Chain.AssetHistory

/-!
# Names on a chain that only grows
-/

namespace Hivecoin

open CAssetsCache Option StoreView

variable {g : StoreView} {s : NameView}

/-- Nothing is pending for removal, data is there just where an issuance is, and there is no second one. -/
structure StoreView.Forward (g : StoreView) (s : NameView) : Prop where
  pending : g.pending.issued.rem = none
  issued : s.issued.rem = none
  known : (g.metaData s).isSome = (s.issued.add.isSome || (g.pending.issued.add.isSome || g.data.isSome))
  fresh : s.issued.add.isSome = true → g.pending.issued.add = none

theorem StoreView.Forward.has (h : g.Forward s) : g.has s = (g.reindex || (g.metaData s).isSome) := by
  rw [StoreView.has, h.known, Slot.read, h.issued, h.pending]
  cases s.issued.add <;> cases g.pending.issued.add <;> rfl

theorem StoreView.Forward.connectChecked {st st' e}
    (h : g.Forward st.1) (hstep : g.connectChecked st e = some st') :
    g.Forward st'.1 ∧ g.metaData st'.1 = e.applyTo (g.metaData st.1) := by
  simp only [StoreView.connectChecked, Outcome.some_iff] at hstep
  obtain ⟨hpass, rfl⟩ := hstep
  cases e with
  | issue asset v u =>
    rw [StoreView.passes, h.has, Bool.not_eq_true', Bool.or_eq_false_iff, isSome_eq_false_iff,
      isNone_iff_eq_none] at hpass
    obtain ⟨hre, hnone⟩ := hpass
    have hknown := h.known
    rw [hnone, isSome_none, eq_comm, Bool.or_eq_false_iff, Bool.or_eq_false_iff, isSome_eq_false_iff,
      isSome_eq_false_iff, isNone_iff_eq_none, isNone_iff_eq_none] at hknown
    obtain ⟨hadd, hpending, -⟩ := hknown
    have hhas : g.has st.1 = false := by rw [h.has, hre, hnone]; rfl
    have hissued : (g.connect st (.issue asset v u)).1.issued = ⟨some asset, none⟩ := by
      simp [StoreView.connect, hhas, Slot.addKeep, hadd]
    have hreissued : (g.connect st (.issue asset v u)).1.reissued.or g.pending.reissued = none := by
      rw [StoreView.metaData, or_eq_none_iff] at hnone
      exact hnone.1
    have hdata : g.metaData (g.connect st (.issue asset v u)).1 = some asset := by
      rw [StoreView.metaData, hreissued, hissued, Slot.read, h.pending]
      rfl
    refine ⟨⟨h.pending, by rw [hissued], ?_, fun _ => hpending⟩, ?_⟩
    · rw [hdata, hissued]; rfl
    · rw [hdata, hnone]; rfl
  | reissue r v =>
    obtain ⟨m, hm⟩ := isSome_iff_exists.mp hpass
    have hdata : g.metaData (g.connect st (.reissue r v)).1 = some (applyReissue m r) :=
      StoreView.metaData_of_reissued (by simp [StoreView.connect, hm])
    refine ⟨⟨h.pending, h.issued, ?_, h.fresh⟩, by rw [hdata, hm]; rfl⟩
    rw [hdata, isSome_some, ← isSome_some (a := m), ← hm]
    exact h.known

theorem StoreView.Forward.run {es : List AssetEvent} {st st' : NameView × Option CBlockAssetUndo} (h : g.Forward st.1)
    (hrun : es.foldlM g.connectChecked st = some st') :
    g.Forward st'.1 ∧ g.metaData st'.1 = es.foldl AssetEvent.applyTo (g.metaData st.1) := by
  induction es generalizing st with
  | nil =>
    cases hrun
    exact ⟨h, rfl⟩
  | cons e es ih =>
    obtain ⟨st1, hstep, hrest⟩ := Outcome.foldlM_cons_some.mp hrun
    obtain ⟨h1, hdata⟩ := h.connectChecked hstep
    rw [List.foldl_cons, ← hdata]
    exact ih h1 hrest

theorem StoreView.Forward.flush (h : g.Forward s) :
    (g.flushed s).Forward ∅ ∧ (g.flushed s).metaData ∅ = g.metaData s := by
  have hissued : (g.flushed s).pending.issued = ⟨s.issued.add.or g.pending.issued.add, none⟩ := by
    show g.pending.issued.flushKeep s.issued = _
    rw [Slot.flushKeep, h.issued]
    cases hadd : s.issued.add with
    | none =>
      show g.pending.issued = ⟨g.pending.issued.add, none⟩
      rw [← h.pending]
    | some a =>
      show g.pending.issued.addKeep a = ⟨some a, none⟩
      rw [Slot.addKeep, h.fresh (by rw [hadd]; rfl)]
      rfl
  have hdata : (g.flushed s).metaData ∅ = g.metaData s := by
    rw [metaData, metaData, hissued, Slot.read, Slot.read, h.issued, h.pending]
    cases s.issued.add <;> rfl
  refine ⟨⟨by rw [hissued], rfl, ?_, fun hadd => by cases hadd⟩, hdata⟩
  rw [hdata, h.known, hissued]
  cases s.issued.add <;> rfl

variable {E : Env} {S : Store} {nameAt : COutPoint → Bytes} {name : Bytes}

theorem StoreView.Forward.empty : ((∅ : Store).view E name).Forward ∅ := by
  rw [Store.view_empty]
  exact ⟨rfl, rfl, rfl, fun h => by cases h⟩

theorem StoreView.Forward.env (h : (S.view E name).Forward s) (E' : Env) :
    (S.view E' name).Forward s ∧ (S.view E' name).metaData s = (S.view E name).metaData s :=
  ⟨⟨h.pending, h.issued, h.known, h.fresh⟩, rfl⟩

theorem StoreView.Forward.dump (hS : S.Settled nameAt) (h : (S.view E name).Forward ∅) (E' : Env) :
    ((S.dumpCacheToDatabase E').view E name).Forward ∅ ∧
      ((S.dumpCacheToDatabase E').view E name).metaData ∅ = (S.view E name).metaData ∅ := by
  have hpending : ((S.dumpCacheToDatabase E').view E name).pending = ∅ := by
    simp only [Store.view, show (S.dumpCacheToDatabase E').passets = ∅ from rfl, view_empty]
  refine ⟨⟨by rw [hpending]; rfl, rfl, ?_, fun hadd => by cases hadd⟩, metaData_dump hS E' fun _ => h.pending⟩
  rw [metaData, hpending]
  rfl

theorem StoreView.Forward.cacheEvent (hS : S.Settled nameAt) (h : (S.view E name).Forward ∅) (event : Store.CacheEvent) :
    ((S.cacheEvent event).view E name).Forward ∅ ∧
      ((S.cacheEvent event).view E name).metaData ∅ = (S.view E name).metaData ∅ := by
  have hpassets : (S.cacheEvent event).passets = S.passets := by cases event <;> rfl
  have hpending : ((S.cacheEvent event).view E name).pending = (S.view E name).pending := by
    rw [Store.view, hpassets]
    rfl
  have hstored : ((S.cacheEvent event).view E name).data = (S.view E name).data := by
    rw [Store.view, databased_cacheEvent hS.coherent]
    rfl
  obtain ⟨hdata, -⟩ := metaData_cacheEvent (E := E) hS.coherent event name
  refine ⟨⟨hpending ▸ h.pending, rfl, ?_, fun hadd => by cases hadd⟩, hdata⟩
  rw [hdata, hpending, hstored]
  exact h.known

end Hivecoin

import Hivecoin.Chain.Lemmas.BlockEvents
import Hivecoin.Chain.Lemmas.NameRuns
import Hivecoin.Chain.Lemmas.Reissues

/-!
# Undoing the asset data of a block

Reissues are undone with the first undo item of a name, and undoing an issuance hides those before.
-/

namespace Hivecoin

open CAssetsCache List Option AssetEvent StoreView CReissueAsset CDatabasedAssetData NameView

/-! ## The conditions -/

/-- The reissues `T` that are undone take back what `L` did to `m`; `first` changes units, hash or verifier first. -/
structure Reverts (m : CNewAsset) (first : Option CReissueAsset) (L T : List CReissueAsset) : Prop where
  amount : reissuedAmount L = reissuedAmount T
  reissuable : m.nReissuable = if T = [] then (lastSet (fun r => some r.nReissuable) L).getD m.nReissuable else 1
  units : (T ≠ [] ∧ (first.bind setUnits).isSome) ∨ (lastSet setUnits L).getD m.units = m.units
  hash : (T ≠ [] ∧ (first.bind setHash).isSome) ∨
    (lastSet setHash L).getD m.strIPFSHash = m.strIPFSHash
  hasIPFS : m.nHasIPFS = if T ≠ [] ∧ first.isSome ∧ m.strIPFSHash = [] then 0 else
    if (lastSet setHash L).isSome then 1 else m.nHasIPFS

section

variable (g : StoreView) (cb ce : List AssetEvent)

def undoneOf : List CReissueAsset :=
  revertedReissues (g.has ∅ || (cb ++ ce).any isIssue) (cb ++ ce)

def firstChange (es : List AssetEvent) : Option CReissueAsset := (es.find? changes).bind reissue?

/-- The data comes back; `cb` are the events of the coinbase, `ce` the others. -/
def DataRestorable : Prop :=
  match g.metaData ∅ with
  | none => reissuesOf ce = []
  | some m =>
    if reissuesOf (cb ++ ce) = [] then (cb ++ ce).any isIssue = false ∨ g.pending.reissued.isSome
    else Reverts m (firstChange (cb ++ ce)) (reissuesOf (cb ++ ce)) (undoneOf g cb ce)

/-- The verifier comes back: from the first undo item, by the removal of the issued one, or because it was there before. -/
def VerifierRestorable : Prop :=
  match if undoneOf g cb ce = [] then none else g.overwritten (cb ++ ce) with
  | some text => g.verifierText ∅ = some text
  | none => match (cb ++ ce).reverse.findSome? undoVerifier? with
    | some _ => g.verifierText ∅ = none
    | none => ∀ v, (cb ++ ce).findSome? verifier? = some v → g.verifierText ∅ = some v

end

/-- The undo item of a reissue that overwrites the data `m`. -/
def undoItemOf (m : CNewAsset) (changed : Bool) (text : Bytes) (r : CReissueAsset) : CBlockAssetUndo :=
  ⟨r.strIPFSHash != [], r.nUnits != -1, m.strIPFSHash, m.units, changed, text⟩

theorem undoItemOf_units (m : CNewAsset) (changed : Bool) (text : Bytes) (first : Option CReissueAsset) :
    ((first.map (undoItemOf m changed text)).bind fun u => if u.fChangedUnits then some u.nUnits else none) =
      (first.bind setUnits).map fun _ => m.units := by
  cases first with
  | none => rfl
  | some r => by_cases h : r.nUnits = -1 <;> simp [undoItemOf, setUnits, h]

theorem undoItemOf_hash (m : CNewAsset) (changed : Bool) (text : Bytes) (first : Option CReissueAsset) :
    ((first.map (undoItemOf m changed text)).bind fun u => if u.fChangedIPFS then some u.strIPFS else none) =
      (first.bind setHash).map fun _ => m.strIPFSHash := by
  cases first with
  | none => rfl
  | some r => by_cases h : r.strIPFSHash = [] <;> simp [undoItemOf, setHash, h]

theorem CNewAsset.mk_eq_iff {m nAmount units nReissuable nHasIPFS hash} :
    (⟨m.strName, nAmount, units, nReissuable, nHasIPFS, hash⟩ : CNewAsset) = m ↔
      nAmount = m.nAmount ∧ nReissuable = m.nReissuable ∧ units = m.units ∧ hash = m.strIPFSHash ∧
        nHasIPFS = m.nHasIPFS := by
  cases m
  simp only [CNewAsset.mk.injEq, true_and]
  tauto

theorem getD_map_const {α β : Type} (o : Option β) (x y : α) : (o.map fun _ => x).getD y = x ↔ o.isSome ∨ y = x := by
  cases o <;> simp

/-- The data after `L` have been connected and `T` undone with the item of `first`. -/
theorem reverts_iff {m first L T} (changed : Bool)
    (text : Bytes) :
    (if T = [] then L.foldl applyReissue m else
      T.foldr (fun r a => unapplyReissue a r (first.map (undoItemOf m changed text))) (L.foldl applyReissue m)) = m ↔
      Reverts m first L T := by
  by_cases hT : T = []
  · subst hT
    rw [if_pos rfl, foldl_applyReissue, CNewAsset.mk_eq_iff]
    constructor
    · rintro ⟨hamount, hflag, hunits, hhash, hipfs⟩
      refine ⟨?_, hflag.symm, Or.inr hunits, Or.inr hhash, by simpa using hipfs.symm⟩
      rw [show reissuedAmount [] = 0 from rfl]
      grind
    · rintro ⟨hamount, hflag, hunits, hhash, hipfs⟩
      refine ⟨?_, hflag.symm, by simpa using hunits, by simpa using hhash, by simpa using hipfs.symm⟩
      rw [hamount]
      exact Int64.add_zero _
  · rw [if_neg hT, foldl_applyReissue, foldr_unapplyReissue _ _ hT, undoItemOf_units, undoItemOf_hash]
    dsimp only
    rw [CNewAsset.mk_eq_iff]
    simp only [getD_map_const, isSome_map]
    constructor
    · rintro ⟨hamount, hflag, hunits, hhash, hipfs⟩
      refine ⟨by grind, by simpa [hT] using hflag.symm, by simpa [hT] using hunits, by simpa [hT] using hhash, ?_⟩
      rw [(getD_map_const _ _ _).2 hhash] at hipfs
      simpa [hT] using hipfs.symm
    · rintro ⟨hamount, hflag, hunits, hhash, hipfs⟩
      replace hhash : (first.bind setHash).isSome = true ∨
          (lastSet setHash L).getD m.strIPFSHash = m.strIPFSHash := by simpa [hT] using hhash
      refine ⟨by grind, by simpa [hT] using hflag.symm, by simpa [hT] using hunits, hhash, ?_⟩
      rw [(getD_map_const _ _ _).2 hhash]
      simpa [hT] using hipfs.symm

theorem connect_undoItem {g : StoreView} {es : List AssetEvent} {m s undo} (hm : g.metaData ∅ = some m) (h : es.foldl g.connect (∅, none) = (s, undo)) :
    undo = (firstChange es).map (undoItemOf m (g.overwritten es).isSome ((g.overwritten es).getD [])) := by
  obtain ⟨a, hundo, ha⟩ := connect_undo g es
  obtain ⟨hunits, hhash⟩ := ha m hm
  rw [h] at hundo
  rw [show undo = g.firstUndo a es from hundo, firstUndo, firstChange, hunits, hhash]
  cases es.find? changes <;> rfl

/-! ## One name -/

/-- What is left for a name after a flush. -/
def StoreView.flushed (g : StoreView) (s : NameView) : StoreView := { g with pending := g.pending.flush s }

/-- The events of a name connected, flushed and disconnected with the undo item. -/
structure Round (g : StoreView) (cb ce : List AssetEvent) (s : NameView) (undo : Option CBlockAssetUndo)
    (s' : NameView) : Prop where
  connected : ce.foldlM g.connectChecked (cb.foldl g.connect (∅, none)) = some (s, undo)
  coinbase : cb.length ≤ 1
  disconnected : (cb ++ ce).reverse.foldlM ((g.flushed s).disconnect undo) ∅ = some s'

namespace Round

variable {g : StoreView} {cb ce : List AssetEvent} {s s' : NameView} {undo : Option CBlockAssetUndo}

theorem connect_eq (h : Round g cb ce s undo s') : (cb ++ ce).foldl g.connect (∅, none) = (s, undo) := by
  rw [foldl_append]
  exact foldl_connect_of_checked h.connected

theorem issued (h : Round g cb ce s undo s') : s.issued.rem = none ∧
    s.issued.add.isSome = (!g.has ∅ && (cb ++ ce).any isIssue) := by
  have := connect_issued g (cb ++ ce)
  rwa [h.connect_eq] at this

theorem has_flushed (h : Round g cb ce s undo s') :
    (g.flushed s).has ∅ = (g.has ∅ || (cb ++ ce).any isIssue) := by
  obtain ⟨hrem, hadd⟩ := h.issued
  cases hs : s.issued.add with
  | none =>
    have hempty : s.issued = ∅ := Slot.eq_empty hs hrem
    have hsame : (g.flushed s).has ∅ = g.has ∅ := by
      simp only [has, flushed, NameView.flush, hempty, Slot.flushKeep_empty]
    rw [hsame]
    rw [hs] at hadd
    cases hg : g.has ∅ <;> simp_all
  | some a =>
    rw [hs] at hadd
    simp only [isSome_some, Bool.true_eq, Outcome.test_iff] at hadd
    have hslot : s.issued = ⟨some a, none⟩ := by
      rw [← hs, ← hrem]
    rw [hadd.2, Bool.or_true, has, flushed, NameView.flush, hslot]
    exact Bool.or_true _

theorem reverted (h : Round g cb ce s undo s') : Reverted (g.flushed s) undo (cb ++ ce) s' := by
  refine disconnect_reverted (fun hre => ?_) h.disconnected
  have hnone := connectChecked_reindex (g := g) hre h.connected
  rw [List.any_eq_false] at hnone ⊢
  intro e he
  obtain rfl | ⟨a, v, u, rfl⟩ | ⟨r, v, rfl⟩ := AssetEvent.cases_of_length h.coinbase
  · exact hnone e (List.mem_of_mem_tail he)
  · exact hnone e he
  · exact hnone e he

theorem undone_eq (h : Round g cb ce s undo s') :
    revertedReissues ((g.flushed s).has ∅) (cb ++ ce) = undoneOf g cb ce := by
  rw [h.has_flushed]; rfl

/-- Removing an issuance hides the name; without one nothing is changed. -/
theorem read_issued (h : Round g cb ce s undo s') :
    (∅ : NameView).issued.read ((g.flushed s).flushed s').pending.issued (fun _ => none) some g.data =
      if (cb ++ ce).any isIssue then none
      else (∅ : NameView).issued.read g.pending.issued (fun _ => none) some g.data := by
  obtain ⟨hrem, hadd⟩ := h.issued
  have hrev := h.reverted
  have hrem' := hrev.rem
  rw [h.has_flushed] at hrem'
  have hadd' := hrev.add
  cases hany : (cb ++ ce).any isIssue with
  | false =>
    rw [hany, Bool.and_false, isSome_eq_false_iff, isNone_iff_eq_none] at hadd hrem'
    rw [if_neg (by simp)]
    simp only [flushed, NameView.flush, Slot.eq_empty hadd hrem, Slot.eq_empty hadd' hrem',
      Slot.flushKeep_empty]
  | true =>
    rw [hany, Bool.or_true, Bool.and_true] at hrem'
    obtain ⟨a, ha⟩ := isSome_iff_exists.1 hrem'
    have hslot : s'.issued = ⟨none, some a⟩ := by rw [← hadd', ← ha]
    simp only [flushed, NameView.flush, hslot]
    rfl

theorem metaData_eq (h : Round g cb ce s undo s') :
    ((g.flushed s).flushed s').metaData ∅ = (s'.reissued.or (s.reissued.or g.pending.reissued)).or
      (if (cb ++ ce).any isIssue then none
        else (∅ : NameView).issued.read g.pending.issued (fun _ => none) some g.data) := by
  rw [← h.read_issued]
  rfl

theorem data_iff_none (h : Round g cb ce s undo s') (hm : g.metaData ∅ = none) :
    ((g.flushed s).flushed s').metaData ∅ = none ↔ reissuesOf ce = [] := by
  have hbase : g.pending.reissued = none ∧
      (∅ : NameView).issued.read g.pending.issued (fun _ => none) some g.data = none := by
    simpa [metaData] using hm
  have hcb : (cb.foldl g.connect (∅, none)).1.reissued = none := by
    obtain rfl | ⟨a, v, u, rfl⟩ | ⟨r, v, rfl⟩ := AssetEvent.cases_of_length h.coinbase
    · rfl
    · rfl
    · simp [connect, hm]
  have hs : s.reissued.isSome = !(reissuesOf ce).isEmpty := by
    have hchecked := connectChecked_reissued h.connected
    rwa [hcb, Option.isSome_none, Bool.false_or] at hchecked
  constructor
  · intro hfinal
    rw [h.metaData_eq] at hfinal
    simp only [Option.or_eq_none_iff] at hfinal
    rw [hfinal.1.2.1, Option.isSome_none, Bool.false_eq, Bool.not_eq_false', List.isEmpty_iff] at hs
    exact hs
  · intro hce
    rw [hce, List.isEmpty_nil, Bool.not_true, Option.isSome_eq_false_iff, Option.isNone_iff_eq_none] at hs
    have hundone : undoneOf g cb ce = [] := by
      by_contra hne
      have hany : (cb ++ ce).any isIssue = false := by
        have hnil := fun known => revertedReissues_eq_nil known hce
        obtain rfl | ⟨a, v, u, rfl⟩ | ⟨r, v, rfl⟩ := AssetEvent.cases_of_length h.coinbase
        · exact absurd (hnil _) hne
        · exact absurd (hnil _) hne
        · -- the coinbase's reissue is undone only if nothing is issued after it
          cases hissue : ce.any isIssue with
          | false => simpa [isIssue] using hissue
          | true =>
            refine absurd ?_ hne
            rw [undoneOf, List.singleton_append, revertedReissues, if_neg (by simp [hissue]), hnil]
      obtain ⟨hrem, hadd⟩ := h.issued
      rw [hany, Bool.and_false, Option.isSome_eq_false_iff, Option.isNone_iff_eq_none] at hadd
      have hfound := h.reverted.found (h.undone_eq ▸ hne)
      have hsame : (g.flushed s).metaData ∅ = g.metaData ∅ := by
        simp only [metaData, flushed, NameView.flush, Slot.eq_empty hadd hrem, Slot.flushKeep_empty,
          hs, Option.none_or]
      rw [hsame, hm] at hfound
      cases hfound
    have hs' := h.reverted.reissued
    rw [h.undone_eq, if_pos hundone] at hs'
    rw [h.metaData_eq, hs, hs', hbase.1, hbase.2]
    simp

theorem data_iff_some {m} (h : Round g cb ce s undo s') (hm : g.metaData ∅ = some m) :
    ((g.flushed s).flushed s').metaData ∅ = some m ↔ DataRestorable g cb ce := by
  obtain ⟨-, hreissued⟩ := connect_data hm (cb ++ ce)
  rw [h.connect_eq] at hreissued
  have hs' := h.reverted.reissued
  rw [h.undone_eq] at hs'
  rw [DataRestorable, hm, h.metaData_eq]
  dsimp only at hreissued ⊢
  by_cases hL : reissuesOf (cb ++ ce) = []
  · -- nothing is reissued, so only the removal of an issuance matters
    have hT : undoneOf g cb ce = [] := revertedReissues_eq_nil _ hL
    rw [if_pos hL] at hreissued ⊢
    rw [if_pos hT] at hs'
    rw [hreissued, hs', none_or, none_or]
    cases hany : (cb ++ ce).any isIssue with
    | false =>
      rw [if_neg (by simp)]
      exact ⟨fun _ => Or.inl rfl, fun _ => hm⟩
    | true =>
      rw [if_pos rfl, or_none]
      constructor
      · intro hp; exact Or.inr (by rw [hp]; rfl)
      · rintro (hfalse | hp)
        · cases hfalse
        · obtain ⟨a, ha⟩ := isSome_iff_exists.1 hp
          rw [metaData_of_reissued (s := ∅) (by rw [ha]; rfl)] at hm
          rw [ha, hm]
  · rw [if_neg hL] at hreissued ⊢
    have hitem := connect_undoItem hm h.connect_eq
    have hdata : (g.flushed s).metaData ∅ = some ((reissuesOf (cb ++ ce)).foldl applyReissue m) :=
      metaData_of_reissued (by simp [flushed, NameView.flush, hreissued])
    rw [← reverts_iff (g.overwritten (cb ++ ce)).isSome ((g.overwritten (cb ++ ce)).getD []), ← hitem, hs', hdata, hreissued]
    by_cases hT : undoneOf g cb ce = []
    · simp [hT]
    · simp [hT]

theorem data_iff (h : Round g cb ce s undo s') :
    ((g.flushed s).flushed s').metaData ∅ = g.metaData ∅ ↔ DataRestorable g cb ce := by
  cases hm : g.metaData ∅ with
  | none => rw [h.data_iff_none hm, DataRestorable, hm]
  | some m => exact h.data_iff_some hm

theorem verifier_eq (h : Round g cb ce s undo s') :
    ((g.flushed s).flushed s').verifierText ∅ =
      match if undoneOf g cb ce = [] then none else g.overwritten (cb ++ ce) with
      | some text => some text
      | none => match (cb ++ ce).reverse.findSome? undoVerifier? with
        | some _ => none
        | none => ((cb ++ ce).findSome? verifier?).or (g.verifierText ∅) := by
  have hs := connect_verifier g (cb ++ ce)
  rw [h.connect_eq] at hs
  obtain ⟨a, hundo, -⟩ := connect_undo g (cb ++ ce)
  rw [h.connect_eq] at hundo
  have hs' := h.reverted.verifier
  rw [h.undone_eq, show undo = _ from hundo, revertedVerifier_firstUndo] at hs'
  have hread : ((g.flushed s).flushed s').verifierText ∅ =
      s'.verifier.read ∅ (fun v => if v.fUndoingRessiue then some v.verifier else none) (fun v => some v.verifier)
        (s.verifier.read ∅ (fun v => if v.fUndoingRessiue then some v.verifier else none) (fun v => some v.verifier)
          (g.verifierText ∅)) := by
    rw [verifierText, verifierText]
    exact (Slot.read_flushOver _ _ _ _ _).trans (congrArg _ (Slot.read_flushOver _ _ _ _ _))
  rw [hread, hs', show s.verifier = _ from hs]
  cases (if undoneOf g cb ce = [] then none else g.overwritten (cb ++ ce)) with
  | some text => rfl
  | none =>
    cases (cb ++ ce).reverse.findSome? undoVerifier? with
    | some v => rfl
    | none => cases (cb ++ ce).findSome? verifier? <;> rfl

theorem verifier_iff (h : Round g cb ce s undo s') :
    ((g.flushed s).flushed s').verifierText ∅ = g.verifierText ∅ ↔ VerifierRestorable g cb ce := by
  rw [h.verifier_eq, VerifierRestorable]
  cases (if undoneOf g cb ce = [] then none else g.overwritten (cb ++ ce)) with
  | some text => exact eq_comm
  | none =>
    cases (cb ++ ce).reverse.findSome? undoVerifier? with
    | some v => exact eq_comm
    | none => cases (cb ++ ce).findSome? verifier? <;> simp [eq_comm]

end Round

/-! ## Blocks -/

variable {E : Env} {R : Rules} {mempool : MempoolMaps}

/-- The lookups of data and verifier answer after the round as before. -/
def AnswersRestored (E : Env) (S S' : Store) (name : Bytes) : Prop :=
  (getAssetMetaDataIfExists E S' ∅ name).map asset =
      (getAssetMetaDataIfExists E S ∅ name).map asset ∧
    getAssetVerifierStringIfExists S' ∅ name = getAssetVerifierStringIfExists S ∅ name

/-- Undoing a block restores data and verifier of a name just where both are restorable. -/
theorem answersRestored_iff {st st₁ st₂ : ChainState} {block : CBlock} {undo : CBlockUndo}
    (hS : st.store.Named) (hconn : connectTip E R mempool st block = .ok (st₁, undo))
    (hdis : disconnectTip E st₁ block undo = some st₂) (name : Bytes) :
    AnswersRestored E st.store st₂.store name ↔
      DataRestorable (st.store.view E name) (coinbaseEvents E st.store block name) (checkedEvents E st.store block name) ∧
        VerifierRestorable (st.store.view E name) (coinbaseEvents E st.store block name)
          (checkedEvents E st.store block name) := by
  obtain ⟨-, -, -, -, -, -, -, hcheck, -⟩ := connectTip_ok hconn
  have hkind : ∀ tx ∈ block.vtx, ∃ action, E.checkKind tx = .ok action :=
    fun tx htx => checkTransaction_kind (hcheck tx htx)
  obtain ⟨c, hc, hevents⟩ := connectTip_events hS hconn
  obtain ⟨c', hc', hundone⟩ := disconnectTip_events (connectTip_named hS hconn) hdis
  have hround : Round (st.store.view E name) (coinbaseEvents E st.store block name)
      (checkedEvents E st.store block name) (c.view name) (findUndo undo.vUndoAssetData name) (c'.view name) := by
    refine ⟨hevents name, coinbaseEvents_length hkind st.store name, ?_⟩
    have hevents := hundone st.store name fun tx htx => assetEvents_length (hkind tx htx).choose_spec st.store name
    rwa [hc, view_flush, ← coinbaseEvents_append_checkedEvents] at hevents
  have hview : st₂.store.view E name = ((st.store.view E name).flushed (c.view name)).flushed (c'.view name) := by
    rw [hc', view_flush, hc, view_flush]; rfl
  rw [AnswersRestored, getAssetMetaDataIfExists_eq, getAssetMetaDataIfExists_eq,
    getAssetVerifierStringIfExists_eq (E := E), getAssetVerifierStringIfExists_eq (E := E), hview, view_empty,
    hround.data_iff, hround.verifier_iff]

namespace Regtest

def silver : CNewAsset := ⟨ascii "SILVER", 1000 * COIN, 0, 1, 0, []⟩

def ownerSilverOut : CTxOut := ⟨0, transferScript alice ⟨ascii "SILVER!", OWNER_ASSET_AMOUNT, [], 0⟩⟩

def silverCache : Option CAssetsCache := runOps env ∅ ∅ [.addNewAsset silver (addressOf alice) 5 1]

/-- `SILVER` with its owner token, and two coins that pay for reissues. -/
def silverState (c : CAssetsCache) : ChainState where
  coins out := if out = ⟨1, 0⟩ ∨ out = ⟨2, 0⟩ then some ⟨⟨60000000000, scriptForKeyID alice⟩, 5, false⟩
    else if out = ⟨1, 1⟩ then some ⟨ownerSilverOut, 5, false⟩ else none
  store := (∅ : Store).flush c

def reissueSilver (funds token : COutPoint) (txid : Uint256) (nUnits : Int8) (hash : Bytes) : CTransaction :=
  ⟨[⟨funds, []⟩, ⟨token, []⟩],
    [burnOut .REISSUE, ownerSilverOut, ⟨0, reissueScript alice ⟨ascii "SILVER", COIN, nUnits, 1, hash⟩⟩], txid⟩

/-- The first reissue sets a hash, the second one raises the units. -/
def twoReissues : CBlock where
  vtx := [coinbase, reissueSilver ⟨1, 0⟩ ⟨1, 1⟩ 7 (-1) (0x12 :: 0x20 :: List.replicate 32 1),
    reissueSilver ⟨2, 0⟩ ⟨7, 1⟩ 8 2 []]
  hash := 50
  nHeight := 6

theorem twoReissues_round :
    ∃ c st1 undo st2, silverCache = some c ∧
      connectTip env .none ⟨∅, ∅⟩ (silverState c) twoReissues = .ok (st1, undo) ∧
      disconnectTip env st1 twoReissues undo = some st2 ∧
      (getAssetMetaDataIfExists env (silverState c).store ∅ (ascii "SILVER")).map asset = some silver ∧
      (getAssetMetaDataIfExists env st2.store ∅ (ascii "SILVER")).map asset =
        some { silver with units := 2 } := by
  have h : (silverCache.bind fun c => (connectTip env .none ⟨∅, ∅⟩ (silverState c) twoReissues).toOption.bind fun r =>
      (disconnectTip env r.1 twoReissues r.2).map fun st2 =>
        ((getAssetMetaDataIfExists env (silverState c).store ∅ (ascii "SILVER")).map asset,
          (getAssetMetaDataIfExists env st2.store ∅ (ascii "SILVER")).map asset)) =
      some (some silver, some { silver with units := 2 }) := by
    decide +kernel
  obtain ⟨c, hc, h⟩ := bind_eq_some_iff.mp h
  obtain ⟨⟨st1, undo⟩, hr, h⟩ := bind_eq_some_iff.mp h
  obtain ⟨st2, hst2, h⟩ := map_eq_some_iff.mp h
  exact ⟨c, st1, undo, st2, hc, Outcome.toOption_eq_some.mp hr, hst2, Prod.mk.inj h⟩

theorem silverState_reachable {c} (h : silverCache = some c) : Store.Reachable env (silverState c).store :=
  .flush .empty h (by simp [CacheOp.WellNamed])

/-- The units stay raised after the block is undone. -/
theorem silver_units_not_restored :
    ∃ c st₁ undo st₂, Store.Reachable env (silverState c).store ∧
      connectTip env .none ⟨∅, ∅⟩ (silverState c) twoReissues = .ok (st₁, undo) ∧
      disconnectTip env st₁ twoReissues undo = some st₂ ∧
      ¬ AnswersRestored env (silverState c).store st₂.store (ascii "SILVER") := by
  obtain ⟨c, st₁, undo, st₂, hc, hconn, hdis, hbefore, hafter⟩ := twoReissues_round
  refine ⟨c, st₁, undo, st₂, silverState_reachable hc, hconn, hdis, fun h => ?_⟩
  have hsame := h.1
  rw [hbefore, hafter] at hsame
  revert hsame
  decide

theorem twoReissues_restored_iff :
    ∃ c st₁ undo st₂, connectTip env .none ⟨∅, ∅⟩ (silverState c) twoReissues = .ok (st₁, undo) ∧
      disconnectTip env st₁ twoReissues undo = some st₂ ∧
      (AnswersRestored env (silverState c).store st₂.store (ascii "SILVER") ↔
        DataRestorable ((silverState c).store.view env (ascii "SILVER"))
            (coinbaseEvents env (silverState c).store twoReissues (ascii "SILVER"))
            (checkedEvents env (silverState c).store twoReissues (ascii "SILVER")) ∧
          VerifierRestorable ((silverState c).store.view env (ascii "SILVER"))
            (coinbaseEvents env (silverState c).store twoReissues (ascii "SILVER"))
            (checkedEvents env (silverState c).store twoReissues (ascii "SILVER"))) := by
  obtain ⟨c, st₁, undo, st₂, hc, hconn, hdis, -⟩ := twoReissues_round
  exact ⟨c, st₁, undo, st₂, hconn, hdis, answersRestored_iff (silverState_reachable hc).named hconn hdis (ascii "SILVER")⟩

end Regtest

end Hivecoin

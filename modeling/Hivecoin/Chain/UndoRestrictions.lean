import Hivecoin.Chain.Lemmas.NullData

/-!
# Undoing tags and freezes

Disconnecting a block runs the inverse operations of its null data.
-/

namespace Hivecoin

open Outcome CAssetsCache List Option

variable {E : Env} {S : Store} {c1 c2 : CAssetsCache} {R : Rules} {mempool : MempoolMaps} {st st1 : ChainState} {block : CBlock} {undo : CBlockUndo}

/-- However the store is dumped, disconnecting the block gives the answers about marks that `st` gave. -/
def UndoRestores (E : Env) (st st1 : ChainState) (block : CBlock) (undo : CBlockUndo) : Prop :=
  ∀ d1 d2 st2, disconnectTip E ⟨st1.coins, st1.store.dumpIf E d1⟩ block undo = some st2 →
    ∀ name address,
      checkForAddressQualifier (st2.store.dumpIf E d2) ∅ name address =
          checkForAddressQualifier st.store ∅ name address ∧
        checkForAddressRestriction (st2.store.dumpIf E d2) ∅ name address =
          checkForAddressRestriction st.store ∅ name address ∧
        checkForGlobalRestriction (st2.store.dumpIf E d2) ∅ name = checkForGlobalRestriction st.store ∅ name

theorem markRound_of_blocks (hacc : ∀ tx ∈ block.vtx, AcceptedTx E S tx)
    (h1 : c1.marks = (block.vtx.flatMap (nullOps E)).foldl MarkRecords.exec (∅ : CAssetsCache).marks)
    (h2 : c2.marks = (block.vtx.reverse.flatMap (undoNullOps E)).foldl MarkRecords.exec (∅ : CAssetsCache).marks) :
    MarkRound S (block.vtx.flatMap (nullOps E)) c1 c2 := by
  refine ⟨fun op hop => ?_, h1, _, fun op => ?_, h2⟩
  · obtain ⟨tx, htx, hop⟩ := mem_flatMap.mp hop
    exact (nullOps_verified (hacc tx htx)).1 op hop
  · simp only [mem_flatMap, mem_reverse]
    constructor
    · rintro ⟨tx, htx, hop⟩
      rw [(nullOps_verified (hacc tx htx)).2] at hop
      obtain ⟨op', hop', rfl⟩ := mem_map.mp hop
      exact ⟨op', ⟨tx, htx, hop'⟩, rfl⟩
    · rintro ⟨op', ⟨tx, htx, hop'⟩, rfl⟩
      refine ⟨tx, htx, ?_⟩
      rw [(nullOps_verified (hacc tx htx)).2]
      exact mem_map_of_mem hop'

theorem undoRestores_iff (hS : Store.Reachable E st.store) (hacc : ∀ tx ∈ block.vtx, AcceptedTx E st.store tx)
    (hcon : connectTip E R mempool st block = .ok (st₁, undo))
    (hdis : ∀ d, (disconnectTip E ⟨st₁.coins, st₁.store.dumpIf E d⟩ block undo).isSome = true) :
    UndoRestores E st st₁ block undo ↔
      ∀ qualifier address, TagsRestorable st.store (block.vtx.flatMap (nullOps E)) qualifier address := by
  obtain ⟨c₁, hstore₁, -, hmarks₁⟩ := connectTip_store hcon
  simp only at hstore₁
  choose st₂ hst₂ using fun d => isSome_iff_exists.mp (hdis d)
  choose c₂ hstore₂ _ hmarks₂ using fun d => disconnectTip_store (hst₂ d)
  have hround := fun d => markRound_of_blocks hacc hmarks₁ (hmarks₂ d)
  have hafter : ∀ d₁ d₂, (st₂ d₁).store.dumpIf E d₂ = st.store.afterRound E d₁ d₂ c₁ (c₂ d₁) := fun d₁ d₂ => by
    rw [hstore₂, hstore₁, Store.afterRound]
  have hiff := fun q a =>
    checkForAddressQualifier_round_iff (E := E) hround hS.marksCoherent hS.tagNames q a
  constructor
  · intro hres q a
    refine (hiff q a).mp fun d₁ d₂ => ?_
    rw [← hafter]
    exact (hres d₁ d₂ _ (hst₂ d₁) q a).1
  · intro hres d₁ d₂ st₃ hst₃ name address
    cases (hst₂ d₁).symm.trans hst₃
    rw [hafter]
    exact ⟨(hiff name address).mpr (hres name address) d₁ d₂,
      (hround d₁).checkForAddressRestriction_eq d₁ d₂ name address,
      (hround d₁).checkForGlobalRestriction_eq d₁ d₂ name⟩

namespace Regtest

def redOut : CTxOut := ⟨0, transferScript alice ⟨redTag, COIN, [], 0⟩⟩

def redCache : Option CAssetsCache :=
  runOps env ∅ ∅ [.addNewAsset ⟨red, COIN, 0, 0, 0, []⟩ (addressOf alice) 5 1,
    .addNewAsset ⟨redTag, COIN, 0, 0, 0, []⟩ (addressOf alice) 5 1]

def redState (c : CAssetsCache) : ChainState where
  coins out := if out = ⟨1, 0⟩ then some ⟨⟨60000000000, scriptForKeyID alice⟩, 5, false⟩
    else if out = ⟨1, 1⟩ then some ⟨redOut, 5, false⟩ else none
  store := (∅ : Store).flush c

def tagBob : CTransaction :=
  ⟨[⟨⟨1, 0⟩, []⟩, ⟨⟨1, 1⟩, []⟩],
    [burnOut .NULL_ADD_QUALIFIER, redOut, ⟨0, nullAssetTxDataScript bob ⟨redTag, 1⟩⟩], 7⟩

def tagBlock : CBlock := ⟨[coinbase, tagBob], 50, 6⟩

theorem redState_reachable {c} (h : redCache = some c) : Store.Reachable env (redState c).store :=
  .flush .empty h (by simp [CacheOp.WellNamed])

theorem tagBlock_accepted {c} (h : redCache = some c) :
    ∀ tx ∈ tagBlock.vtx, AcceptedTx env (redState c).store tx := by
  have hall : (redCache.map fun c => tagBlock.vtx.all fun tx =>
      (checkTxAssets env (redState c).store ∅ (redState c).coins ⟨∅, ∅⟩ false false tx).toOption.isSome) =
        some true := by
    decide +kernel
  rw [h, Option.map_some, Option.some.injEq, List.all_eq_true] at hall
  intro tx htx
  obtain ⟨v, hv⟩ := Option.isSome_iff_exists.mp (hall tx htx)
  exact ⟨∅, (redState c).coins, ⟨∅, ∅⟩, false, v, toOption_eq_some.mp hv⟩

theorem tagBlock_round :
    ∃ c st1 undo, redCache = some c ∧ connectTip env .none ⟨∅, ∅⟩ (redState c) tagBlock = .ok (st1, undo) ∧
      (∀ d, (disconnectTip env ⟨st1.coins, st1.store.dumpIf env d⟩ tagBlock undo).isSome = true) ∧
      (disconnectTip env ⟨st1.coins, st1.store.dumpIf env false⟩ tagBlock undo).map (fun st2 =>
        (checkForAddressQualifier (redState c).store ∅ red (addressOf bob),
          checkForAddressQualifier st2.store ∅ red (addressOf bob))) = some (false, true) := by
  have h : (redCache.bind fun c => (connectTip env .none ⟨∅, ∅⟩ (redState c) tagBlock).toOption.map fun r =>
      (decide (∀ d, (disconnectTip env ⟨r.1.coins, r.1.store.dumpIf env d⟩ tagBlock r.2).isSome = true),
        (disconnectTip env ⟨r.1.coins, r.1.store.dumpIf env false⟩ tagBlock r.2).map fun st2 =>
          (checkForAddressQualifier (redState c).store ∅ red (addressOf bob),
            checkForAddressQualifier st2.store ∅ red (addressOf bob)))) = some (true, some (false, true)) := by
    decide +kernel
  obtain ⟨c, hc, h⟩ := bind_eq_some_iff.mp h
  obtain ⟨⟨st1, undo⟩, hr, h⟩ := map_eq_some_iff.mp h
  obtain ⟨hdis, hans⟩ := Prod.mk.inj h
  exact ⟨c, st1, undo, hc, toOption_eq_some.mp hr, of_decide_eq_true hdis, hans⟩

/-- The address never had `#RED`; after the reorganisation `#RED` is reported. -/
theorem red_reported_after_undo :
    ∃ c st₁ undo, redCache = some c ∧ Store.Reachable env (redState c).store ∧
      (∀ tx ∈ tagBlock.vtx, AcceptedTx env (redState c).store tx) ∧
      connectTip env .none ⟨∅, ∅⟩ (redState c) tagBlock = .ok (st₁, undo) ∧
      checkForAddressQualifier (redState c).store ∅ red (addressOf bob) = false ∧
      (∃ st₂, disconnectTip env st₁ tagBlock undo = some st₂ ∧
        checkForAddressQualifier st₂.store ∅ red (addressOf bob) = true) ∧
      ¬ UndoRestores env (redState c) st₁ tagBlock undo := by
  obtain ⟨c, st₁, undo, hc, hcon, -, hans⟩ := tagBlock_round
  obtain ⟨st₂, hst₂, h⟩ := map_eq_some_iff.mp hans
  obtain ⟨hbefore, hafter⟩ := Prod.mk.inj h
  refine ⟨c, st₁, undo, hc, redState_reachable hc, tagBlock_accepted hc, hcon, hbefore, ⟨st₂, hst₂, hafter⟩,
    fun hres => ?_⟩
  have := (hres false false st₂ hst₂ red (addressOf bob)).1
  rw [show st₂.store.dumpIf env false = st₂.store from rfl, hbefore, hafter] at this
  cases this

theorem tagBlock_undoRestores_iff :
    ∃ c st₁ undo, redCache = some c ∧ connectTip env .none ⟨∅, ∅⟩ (redState c) tagBlock = .ok (st₁, undo) ∧
      (UndoRestores env (redState c) st₁ tagBlock undo ↔
        ∀ qualifier address,
          TagsRestorable (redState c).store (tagBlock.vtx.flatMap (nullOps env)) qualifier address) := by
  obtain ⟨c, st₁, undo, hc, hcon, hdis, -⟩ := tagBlock_round
  exact ⟨c, st₁, undo, hc, hcon, undoRestores_iff (redState_reachable hc) (tagBlock_accepted hc) hcon hdis⟩

end Regtest

end Hivecoin

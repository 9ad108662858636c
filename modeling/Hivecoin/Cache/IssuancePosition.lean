import Hivecoin.Assets.Construct
import Hivecoin.Cache.Named

/-!
# Height and block hash of an issuance

The records of an asset carry the block of its issuance; of reissued data only once dumped.
-/

namespace Hivecoin

open CAssetsCache List Option Pending Table Store CacheOp

structure NodeState where
  store : Store
  cache : CAssetsCache

/-- A call, a `Flush`, a dump, a change of the LRU caches, or a lookup. -/
inductive NodeStep where
  | op (op : CacheOp)
  | flush
  | dump
  | cacheEvent (event : Store.CacheEvent)
  | lookup

namespace NodeState

/-- The state after a step. A call that fails changes nothing; a block starts with an empty cache. -/
def exec (E : Env) (st : NodeState) : NodeStep → NodeState
  | .op op => ⟨st.store, (op.apply E st.store st.cache).getD st.cache⟩
  | .flush => ⟨st.store.flush st.cache, ∅⟩
  | .dump => ⟨st.store.dumpCacheToDatabase E, st.cache⟩
  | .cacheEvent event => ⟨st.store.cacheEvent event, st.cache⟩
  | .lookup => st

/-- What the lookups of a name on the way return. -/
def answers (E : Env) (name : Bytes) : NodeState → List NodeStep → List (Option CDatabasedAssetData)
  | _, [] => []
  | st, .lookup :: steps => getAssetMetaDataIfExists E st.store st.cache name :: answers E name st steps
  | st, step :: steps => answers E name (st.exec E step) steps

def hasReissued (st : NodeState) (name : Bytes) : Bool :=
  st.cache.mapReissuedAssetData.contains name || st.store.passets.mapReissuedAssetData.contains name

end NodeState

def NodeStep.changesIssuance (name : Bytes) : NodeStep → Bool
  | .op (.addNewAsset asset _ _ _) | .op (.removeNewAsset asset _) => asset.strName == name
  | _ => false

def NodeStep.looksUp (name : Bytes) : NodeStep → Bool
  | .op (.addReissueAsset reissue _ _) | .op (.removeReissueAsset reissue _ _ _) => reissue.strName == name
  | .lookup => true
  | _ => false

/-- Every step that looks the name up finds all its reissues dumped. -/
def NodeState.ReadsDumped (E : Env) (name : Bytes) : NodeState → List NodeStep → Prop
  | _, [] => True
  | st, step :: steps =>
    (step.looksUp name = true → st.hasReissued name = false) ∧ ReadsDumped E name (st.exec E step) steps

instance NodeState.decidableReadsDumped (E : Env) (name : Bytes) :
    (st : NodeState) → (steps : List NodeStep) → Decidable (st.ReadsDumped E name steps)
  | _, [] => .isTrue trivial
  | st, step :: steps => @instDecidableAnd _ _ _ (decidableReadsDumped E name (st.exec E step) steps)

/-- Height and hash of all records of the name in a cache are among `P`. -/
structure CAssetsCache.RecordsIn (P : Int × Uint256 → Prop) (name : Bytes) (c : CAssetsCache) : Prop where
  issued : ∀ a, (c.newAssets.slot name).add = some a → P (a.blockHeight, a.blockHash)
  reissued : ∀ out r, (c.newReissue.slot out).add = some r → r.reissue.strName = name → P (r.blockHeight, r.blockHash)
  unreissued : ∀ out r, (c.newReissue.slot out).rem = some r → r.reissue.strName = name →
    P (r.blockHeight, r.blockHash)

structure Store.RecordsIn (P : Int × Uint256 → Prop) (name : Bytes) (S : Store) : Prop where
  passets : S.passets.RecordsIn P name
  cached : ∀ d, S.passetsCache.get? name = some d → P (d.nHeight, d.blockHash)
  stored : ∀ d, S.assetData.get? name = some d → P (d.nHeight, d.blockHash)

variable {E : Env} {S : Store} {c c' : CAssetsCache} {P Q : Int × Uint256 → Prop} {name : Bytes}

theorem CAssetsCache.recordsIn_empty : (∅ : CAssetsCache).RecordsIn P name := by
  refine ⟨fun a h => ?_, fun out r h => ?_, fun out r h => ?_⟩
  · rw [show (∅ : CAssetsCache).newAssets = ∅ from rfl, slot_empty] at h
    cases h
  all_goals
    rw [show (∅ : CAssetsCache).newReissue = ∅ from rfl, slot_empty] at h
    cases h

theorem Store.recordsIn_empty : (∅ : Store).RecordsIn P name := by
  refine ⟨CAssetsCache.recordsIn_empty, fun d hd => ?_, fun d hd => ?_⟩
  · rw [show (∅ : Store).passetsCache = ∅ from rfl, get?_empty] at hd
    cases hd
  · rw [show (∅ : Store).assetData = ∅ from rfl, get?_empty] at hd
    cases hd

theorem CAssetsCache.RecordsIn.mono (h : c.RecordsIn P name) (hPQ : ∀ p, P p → Q p) : c.RecordsIn Q name :=
  ⟨fun a ha => hPQ _ (h.issued a ha), fun out r hr hn => hPQ _ (h.reissued out r hr hn),
    fun out r hr hn => hPQ _ (h.unreissued out r hr hn)⟩

theorem Store.RecordsIn.mono (h : S.RecordsIn P name) (hPQ : ∀ p, P p → Q p) : S.RecordsIn Q name :=
  ⟨h.passets.mono hPQ, fun d hd => hPQ _ (h.cached d hd), fun d hd => hPQ _ (h.stored d hd)⟩

theorem lookup_recordsIn (hS : S.RecordsIn P name) (hc : c.RecordsIn P name)
    (hpend : NodeState.hasReissued ⟨S, c⟩ name = false) {d}
    (h : getAssetMetaDataIfExists E S c name = some d) : P (d.nHeight, d.blockHash) := by
  simp only [NodeState.hasReissued, Bool.or_eq_false_iff, contains_eq_false] at hpend
  simp only [getAssetMetaDataIfExists, hpend.1, hpend.2, or_none, Pending.read] at h
  unfold Slot.read at h
  split at h
  · cases h
  split at h
  · cases h
  split at h
  · rename_i a ha; cases h; exact hc.issued a ha
  split at h
  · rename_i a ha; cases h; exact hS.passets.issued a ha
  · rcases or_eq_some_iff.mp h with h | ⟨-, h⟩
    · exact hS.cached d h
    · exact hS.stored d h

theorem CAssetsCache.RecordsIn.sameRecords (h : c.RecordsIn P name) (hs : SameRecords c c') : c'.RecordsIn P name := by
  rw [hs]
  exact ⟨h.issued, h.reissued, h.unreissued⟩

theorem CAssetsCache.RecordsIn.addReissue (h : c.RecordsIn P name) (out : COutPoint) {r}
    (hr : r.reissue.strName = name → P (r.blockHeight, r.blockHash)) (data : Table Bytes CNewAsset) :
    ({ c with mapReissuedAssetData := data, newReissue := c.newReissue.addKeep out r }).RecordsIn P name := by
  refine ⟨h.issued, fun x r' hr' => ?_, fun x r' hr' => ?_⟩
  · simp only [slot_addKeep] at hr'
    split at hr'
    · rcases Slot.add_addKeep hr' with hr' | rfl
      · exact h.reissued x r' hr'
      · exact hr
    · exact h.reissued x r' hr'
  · simp only [slot_addKeep] at hr'
    split at hr'
    · cases hr'
    · exact h.unreissued x r' hr'

theorem CAssetsCache.RecordsIn.removeReissue (h : c.RecordsIn P name) (out : COutPoint) {r}
    (hr : r.reissue.strName = name → P (r.blockHeight, r.blockHash)) (data : Table Bytes CNewAsset) :
    ({ c with mapReissuedAssetData := data, newReissue := c.newReissue.removeKeep out r }).RecordsIn P name := by
  refine ⟨h.issued, fun x r' hr' => ?_, fun x r' hr' => ?_⟩
  · simp only [slot_removeKeep] at hr'
    split at hr'
    · cases hr'
    · exact h.reissued x r' hr'
  · simp only [slot_removeKeep] at hr'
    split at hr'
    · rcases Slot.rem_removeKeep hr' with hr' | rfl
      · exact h.unreissued x r' hr'
      · exact hr
    · exact h.unreissued x r' hr'

theorem CAssetsCache.RecordsIn.addNew (h : c.RecordsIn P name) {a : CAssetCacheNewAsset}
    (ha : a.asset.strName = name → P (a.blockHeight, a.blockHash)) :
    ({ c with newAssets := c.newAssets.addKeep a.asset.strName a }).RecordsIn P name := by
  refine ⟨fun b hb => ?_, h.reissued, h.unreissued⟩
  simp only [slot_addKeep] at hb
  split at hb
  · rename_i hn
    rcases Slot.add_addKeep hb with hb | rfl
    · exact h.issued b hb
    · exact ha hn.symm
  · exact h.issued b hb

theorem CAssetsCache.RecordsIn.apply {op} (h : c.RecordsIn P name) (hS : S.RecordsIn P name)
    (hkeep : NodeStep.changesIssuance name (.op op) = false)
    (hread : NodeStep.looksUp name (.op op) = true → NodeState.hasReissued ⟨S, c⟩ name = false)
    (happ : op.apply E S c = some c') : c'.RecordsIn P name := by
  obtain ⟨c1, h1, hs⟩ := apply_records happ
  refine CAssetsCache.RecordsIn.sameRecords ?_ hs
  cases op with
  | addNewAsset asset address nHeight blockHash =>
    simp only [onRecords, Outcome.some_iff] at h1
    rw [← h1.2]
    exact h.addNew (a := ⟨asset, address, nHeight, blockHash⟩) fun hn => absurd (beq_iff_eq.2 hn) (ne_true_of_eq_false hkeep)
  | removeNewAsset asset =>
    simp only [onRecords, Outcome.some_iff] at h1
    rw [← h1.2]
    refine ⟨fun a ha => ?_, h.reissued, h.unreissued⟩
    simp only [slot_removeKeep, if_neg (Ne.symm (beq_eq_false_iff_ne.1 hkeep))] at ha
    exact h.issued a ha
  | addReissueAsset reissue =>
    simp only [onRecords, map_eq_some_iff] at h1
    obtain ⟨data, hd, rfl⟩ := h1
    refine h.addReissue _ (fun hn => ?_) _
    exact lookup_recordsIn hS h (hread (beq_iff_eq.2 hn)) (hn ▸ hd)
  | removeReissueAsset reissue address out vUndo =>
    simp only [onRecords, map_eq_some_iff] at h1
    obtain ⟨data, hd, rfl⟩ := h1
    rw [undoVerifier_eq]
    have hrem := h.removeReissue out (r := ⟨reissue, address, data.nHeight, data.blockHash⟩)
      (fun hn => lookup_recordsIn hS h (hread (beq_iff_eq.2 hn)) (hn ▸ hd)) c.mapReissuedAssetData
    exact ⟨hrem.issued, hrem.reissued, hrem.unreissued⟩
  | addQualifierAddress name address type =>
    cases h1
    rw [CAssetsCache.addQualifierAddress, noteRootQualifier_eq]
    exact ⟨h.issued, h.reissued, h.unreissued⟩
  | removeQualifierAddress name address type =>
    cases h1
    rw [CAssetsCache.removeQualifierAddress, noteRootQualifier_eq]
    exact ⟨h.issued, h.reissued, h.unreissued⟩
  | _ => cases h1; exact ⟨h.issued, h.reissued, h.unreissued⟩

theorem Store.RecordsIn.flush (h : S.RecordsIn P name) (hc : c.RecordsIn P name) : (S.flush c).RecordsIn P name := by
  refine ⟨⟨fun a ha => ?_, fun out r hr => ?_, fun out r hr => ?_⟩, h.cached, h.stored⟩
  · have ha' : ((S.passets.newAssets.flushKeep c.newAssets).slot name).add = some a := ha
    rw [slot_flushKeep] at ha'
    exact (Slot.add_flushKeep ha').elim (h.passets.issued a) (hc.issued a)
  · have hr' : ((S.passets.newReissue.flushKeep c.newReissue).slot out).add = some r := hr
    rw [slot_flushKeep] at hr'
    exact (Slot.add_flushKeep hr').elim (h.passets.reissued out r) (hc.reissued out r)
  · have hr' : ((S.passets.newReissue.flushKeep c.newReissue).slot out).rem = some r := hr
    rw [slot_flushKeep] at hr'
    exact (Slot.rem_flushKeep hr').elim (h.passets.unreissued out r) (hc.unreissued out r)

namespace Store.AssetDb

def RecordsIn (P : Int × Uint256 → Prop) (name : Bytes) (d : AssetDb) : Prop :=
  (∀ a, d.lru.get? name = some a → P (a.nHeight, a.blockHash)) ∧
    ∀ a, d.db.get? name = some a → P (a.nHeight, a.blockHash)

variable {d : AssetDb}

theorem RecordsIn.removeNew (h : d.RecordsIn P name) (key : Bytes) : (d.removeNew key).RecordsIn P name := by
  refine ⟨fun a ha => ?_, fun a ha => ?_⟩
  all_goals
    simp only [AssetDb.removeNew, get?_erase] at ha
    split at ha
    · cases ha
  · exact h.1 a ha
  · exact h.2 a ha

theorem RecordsIn.addNew (h : d.RecordsIn P name) {key a}
    (ha : key = name → P (a.blockHeight, a.blockHash)) : (d.addNew key a).RecordsIn P name := by
  refine ⟨fun b hb => ?_, fun b hb => ?_⟩
  all_goals
    simp only [AssetDb.addNew, get?_insert] at hb
    split at hb
    · rename_i hn; cases hb; exact ha hn.symm
  · exact h.1 b hb
  · exact h.2 b hb

theorem RecordsIn.writeReissued (h : d.RecordsIn P name) {reissued}
    (hn : ∀ x a, reissued.get? x = some a → a.strName = x) {r}
    (hr : r.reissue.strName = name → P (r.blockHeight, r.blockHash)) :
    (d.writeReissued reissued r).RecordsIn P name := by
  unfold AssetDb.writeReissued
  split
  · rename_i asset hasset
    refine ⟨fun a ha => ?_, fun a ha => ?_⟩
    · simp only [get?_erase] at ha
      split at ha
      · cases ha
      · exact h.1 a ha
    · simp only [get?_insert] at ha
      split at ha
      · rename_i heq; cases ha; exact hr ((hn _ _ hasset).symm.trans heq.symm)
      · exact h.2 a ha
  · exact h

end Store.AssetDb

theorem dumpAssets_recordsIn {p} (hp : p.RecordsIn P name) (hn : p.Named) {d}
    (h : d.RecordsIn P name) : (dumpAssets p d).RecordsIn P name := by
  have h1 := foldl_induct (Store.AssetDb.RecordsIn P name)
    (fun (d : Store.AssetDb) key (_ : CAssetCacheNewAsset) => d.removeNew key) p.newAssets.toRemove d h
    fun d key _ _ hd => hd.removeNew key
  have h2 := foldl_induct (Store.AssetDb.RecordsIn P name)
    (fun (d : Store.AssetDb) key a => d.addNew key a) p.newAssets.toAdd _ h1
    fun d key a ha hd => hd.addNew fun hk => hp.issued a (hk ▸ ha)
  have h3 := foldl_induct (Store.AssetDb.RecordsIn P name)
    (fun (d : Store.AssetDb) _ r => d.writeReissued p.mapReissuedAssetData r) p.newReissue.toAdd _ h2
    fun d out r hr hd => hd.writeReissued hn.reissued (hp.reissued out r hr)
  unfold dumpAssets
  refine List.foldlRecOn (undoneReissues p) _ h3 fun d hd r hr => hd.writeReissued hn.reissued ?_
  exact hp.unreissued r.1 r.2 (mem_toList.1 (mem_of_mem_filter hr))

theorem Store.RecordsIn.dump (h : S.RecordsIn P name) (hn : S.Named) (E : Env) :
    (S.dumpCacheToDatabase E).RecordsIn P name := by
  have hd := dumpAssets_recordsIn h.passets hn.passets (d := ⟨S.passetsCache, S.assetData⟩) ⟨h.cached, h.stored⟩
  exact ⟨CAssetsCache.recordsIn_empty, hd.1, hd.2⟩

theorem Store.RecordsIn.cacheEvent (h : S.RecordsIn P name) (event : Store.CacheEvent) :
    (S.cacheEvent event).RecordsIn P name := by
  cases event with
  | fillAsset key =>
    refine ⟨h.passets, fun d hd => ?_, h.stored⟩
    simp only [Store.cacheEvent, Store.fill] at hd
    split at hd
    · rename_i v hv
      rw [get?_insertNew] at hd
      split at hd
      · rename_i hx
        subst hx
        cases hl : S.passetsCache.get? name with
        | none => rw [hl] at hd; cases hd; exact h.stored v hv
        | some w => rw [hl] at hd; cases hd; exact h.cached w hl
      · exact h.cached d hd
    · exact h.cached d hd
  | dropAsset key =>
    refine ⟨h.passets, fun d hd => ?_, h.stored⟩
    simp only [Store.cacheEvent, get?_erase] at hd
    split at hd
    · cases hd
    · exact h.cached d hd
  | _ => exact ⟨h.passets, h.cached, h.stored⟩

structure NodeState.RecordsIn (P : Int × Uint256 → Prop) (name : Bytes) (st : NodeState) : Prop where
  store : st.store.RecordsIn P name
  cache : st.cache.RecordsIn P name
  storeNamed : st.store.Named
  cacheNamed : st.cache.Named

theorem NodeState.RecordsIn.exec {st : NodeState} (h : st.RecordsIn P name) {step : NodeStep}
    (hkeep : step.changesIssuance name = false)
    (hread : step.looksUp name = true → st.hasReissued name = false) : (st.exec E step).RecordsIn P name := by
  cases step with
  | op op =>
    cases happ : op.apply E st.store st.cache with
    | none => simpa only [NodeState.exec, happ, getD_none] using h
    | some c' =>
      simp only [NodeState.exec, happ, getD_some]
      exact ⟨h.store, h.cache.apply h.store hkeep hread happ, h.storeNamed, h.cacheNamed.apply h.storeNamed happ⟩
  | flush => exact ⟨h.store.flush h.cache, recordsIn_empty, h.storeNamed.flush h.cacheNamed, named_empty⟩
  | dump => exact ⟨h.store.dump h.storeNamed E, h.cache, h.storeNamed.dump E, h.cacheNamed⟩
  | cacheEvent event => exact ⟨h.store.cacheEvent event, h.cache, h.storeNamed.cacheEvent event, h.cacheNamed⟩
  | lookup => exact h

theorem NodeState.RecordsIn.run {st : NodeState} {steps : List NodeStep} (h : st.RecordsIn P name)
    (hkeep : ∀ step ∈ steps, step.changesIssuance name = false) (hread : st.ReadsDumped E name steps) :
    (steps.foldl (NodeState.exec E) st).RecordsIn P name ∧
      ∀ d, some d ∈ st.answers E name steps → P (d.nHeight, d.blockHash) := by
  induction steps generalizing st with
  | nil => exact ⟨h, fun d hd => by cases hd⟩
  | cons step steps ih =>
    obtain ⟨hread, hrest⟩ := hread
    obtain ⟨hend, hans⟩ := ih (h.exec (hkeep step mem_cons_self) hread)
      (fun s hs => hkeep s (mem_cons_of_mem _ hs)) hrest
    refine ⟨hend, fun d hd => ?_⟩
    cases step with
    | lookup =>
      rcases mem_cons.1 hd with hd | hd
      · exact lookup_recordsIn h.store h.cache (hread rfl) hd.symm
      · exact hans d hd
    | _ => exact hans d hd

/-- Height and hash of the issuance are returned and stored, if nothing of the name was there before and each lookup finds its
reissues dumped. -/
theorem issuancePosition_kept {c₀ : CAssetsCache} {asset : CNewAsset} {address : Bytes} {nHeight : Int}
    {blockHash : Uint256} {steps : List NodeStep}
    (hissue : addNewAsset E S c₀ asset address nHeight blockHash = some c) (hS : S.Named) (hc : c₀.Named)
    (hnone : S.RecordsIn (fun _ => False) asset.strName ∧ c₀.RecordsIn (fun _ => False) asset.strName)
    (hkeep : ∀ step ∈ steps, step.changesIssuance asset.strName = false)
    (hread : NodeState.ReadsDumped E asset.strName ⟨S, c⟩ steps) :
    (∀ d, some d ∈ NodeState.answers E asset.strName ⟨S, c⟩ steps → d.nHeight = nHeight ∧ d.blockHash = blockHash) ∧
      ∀ d, (steps.foldl (NodeState.exec E) ⟨S, c⟩).store.assetData.get? asset.strName = some d →
        d.nHeight = nHeight ∧ d.blockHash = blockHash := by
  have hstart : NodeState.RecordsIn (fun p => p = (nHeight, blockHash)) asset.strName ⟨S, c⟩ := by
    have happ : (addNewAsset asset address nHeight blockHash).apply E S c₀ = some c := hissue
    refine ⟨hnone.1.mono fun _ h => h.elim, ?_, hS, hc.apply hS happ⟩
    obtain ⟨-, hs⟩ := addNewAsset_spec hissue
    refine CAssetsCache.RecordsIn.sameRecords ?_ hs
    exact (hnone.2.mono fun _ h => h.elim).addNew (a := ⟨asset, address, nHeight, blockHash⟩) fun _ => rfl
  obtain ⟨hend, hans⟩ := hstart.run hkeep hread
  exact ⟨fun d hd => Prod.mk.inj (hans d hd), fun d hd => Prod.mk.inj (hend.store.stored d hd)⟩

namespace Regtest

def goldReissue (nAmount : CAmount) : CReissueAsset := ⟨ascii "GOLD", nAmount, -1, 1, []⟩

/-- A reissue is undone before it is dumped. -/
def reissueUndone : List NodeStep :=
  [.flush, .op (.addReissueAsset (goldReissue 500) (addressOf alice) ⟨7, 2⟩), .flush, .lookup,
    .op (.removeReissueAsset (goldReissue 500) (addressOf alice) ⟨7, 2⟩ []), .flush, .dump]

/-- The lookups leave height and hash unset, and so does the database then. -/
theorem gold_position_lost :
    ∃ c, addNewAsset env ∅ ∅ gold (addressOf alice) 6 50 = some c ∧
      NodeState.answers env (ascii "GOLD") ⟨∅, c⟩ reissueUndone =
        [some ⟨⟨ascii "GOLD", 1500, 8, 1, 0, []⟩, env.uninitialised, 0⟩] ∧
      (reissueUndone.foldl (NodeState.exec env) ⟨∅, c⟩).store.assetData.get? (ascii "GOLD") =
        some ⟨gold, env.uninitialised, 0⟩ := by
  have h : ((addNewAsset env ∅ ∅ gold (addressOf alice) 6 50).map fun c =>
      (NodeState.answers env (ascii "GOLD") ⟨∅, c⟩ reissueUndone,
        (reissueUndone.foldl (NodeState.exec env) ⟨∅, c⟩).store.assetData.get? (ascii "GOLD"))) =
      some ([some ⟨⟨ascii "GOLD", 1500, 8, 1, 0, []⟩, env.uninitialised, 0⟩],
        some ⟨gold, env.uninitialised, 0⟩) := by
    decide +kernel
  obtain ⟨c, hc, h⟩ := map_eq_some_iff.mp h
  exact ⟨c, hc, Prod.mk.inj h⟩

/-- A reissue is dumped before it is undone, and both are dumped before the lookups. -/
def reissueDumped : List NodeStep :=
  [.flush, .dump, .op (.addReissueAsset (goldReissue 500) (addressOf alice) ⟨7, 2⟩), .flush, .dump, .lookup,
    .op (.removeReissueAsset (goldReissue 500) (addressOf alice) ⟨7, 2⟩ []), .flush, .dump, .lookup]

theorem gold_position_kept :
    ∃ c, addNewAsset env ∅ ∅ gold (addressOf alice) 6 50 = some c ∧
      (NodeState.answers env (ascii "GOLD") ⟨∅, c⟩ reissueDumped).all Option.isSome = true ∧
      (∀ d, some d ∈ NodeState.answers env (ascii "GOLD") ⟨∅, c⟩ reissueDumped → d.nHeight = 6 ∧ d.blockHash = 50) ∧
      ∀ d, (reissueDumped.foldl (NodeState.exec env) ⟨∅, c⟩).store.assetData.get? (ascii "GOLD") = some d →
        d.nHeight = 6 ∧ d.blockHash = 50 := by
  have h : ((addNewAsset env ∅ ∅ gold (addressOf alice) 6 50).map fun c =>
      (decide (NodeState.ReadsDumped env (ascii "GOLD") ⟨∅, c⟩ reissueDumped),
        (NodeState.answers env (ascii "GOLD") ⟨∅, c⟩ reissueDumped).all Option.isSome)) = some (true, true) := by
    decide +kernel
  obtain ⟨c, hc, h⟩ := map_eq_some_iff.mp h
  obtain ⟨hread, hall⟩ := Prod.mk.inj h
  exact ⟨c, hc, hall, issuancePosition_kept hc (Store.Reachable.empty (E := env)).named named_empty
    ⟨recordsIn_empty, recordsIn_empty⟩ (by decide +kernel) (of_decide_eq_true hread)⟩

end Regtest

end Hivecoin

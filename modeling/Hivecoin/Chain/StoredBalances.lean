import Hivecoin.Base.Writes
import Hivecoin.Cache.DumpWrites
import Hivecoin.Chain.AssetHistory
import Hivecoin.Chain.Reward

/-!
# Balances in the database

`DumpCacheToDatabase` writes balances loop by loop; two loops write zero where others erase.
-/

namespace Hivecoin

open CAssetsCache Writes Option DbWrite

/-- A write of a balance: the pair, and the amount unless the record is erased. -/
abbrev BalanceWrite := (Bytes × Bytes) × Option CAmount

def DbWrite.byAsset : DbWrite → Option BalanceWrite
  | .assetAddressQuantity pair amount => some (pair, amount)
  | _ => none

def DbWrite.byAddress : DbWrite → Option BalanceWrite
  | .addressAssetQuantity pair amount => some (pair, amount)
  | _ => none

def recorded (amount : CAmount) : Option CAmount := if amount = 0 then none else some amount

/-! ## Whose balances a loop writes -/

namespace CAssetsCache

variable (p : CAssetsCache)

def spentPairs : List (Bytes × Bytes) := p.vSpentAssets.map fun s => (s.assetName, s.address)

def givenBackPairs : List (Bytes × Bytes) := p.vUndoAssetAmount.map fun u => (u.assetName, u.address)

def receivedPairs : List (Bytes × Bytes) := p.newTransferAssets.toAdd.toList.map fun e => (e.2.transfer.strName, e.2.address)

def takenBackPairs : List (Bytes × Bytes) :=
  p.newTransferAssets.toRemove.toList.map fun e => (e.2.transfer.strName, e.2.address)

/-- Reissues count while `mapReissuedAssetData` has the asset. -/
def reissuePairs (rs : List (COutPoint × CAssetCacheReissueAsset)) : List (Bytes × Bytes) :=
  (rs.filter fun r => p.mapReissuedAssetData.contains r.2.reissue.strName).map fun r => (r.2.reissue.strName, r.2.address)

def reissuedPairs : List (Bytes × Bytes) := p.reissuePairs p.newReissue.toAdd.toList

def undoneReissuePairs : List (Bytes × Bytes) := p.reissuePairs (Store.undoneReissues p)

def mapWrites (eraseZero : Bool) (pairs : List (Bytes × Bytes)) : List BalanceWrite :=
  pairs.filterMap fun pair => (p.mapAssetsAddressAmount.get? pair).map fun amount =>
    (pair, if eraseZero then recorded amount else some amount)

def positiveMapWrites (pairs : List (Bytes × Bytes)) : List BalanceWrite :=
  pairs.filterMap fun pair => ((p.mapAssetsAddressAmount.get? pair).filter fun amount => 0 < amount).map fun amount =>
    (pair, some amount)

/-- The loops whose values do not come from the map. -/
def fixedWrites : List BalanceWrite :=
  (p.newAssets.toRemove.toList.map fun e => ((e.1, e.2.address), none)) ++
  (p.newAssets.toAdd.toList.map fun e => ((e.1, e.2.address), some e.2.asset.nAmount)) ++
  (p.newOwnerAssets.toRemove.toList.map fun e => (e, none))

def balanceRecords : List BalanceWrite :=
  p.fixedWrites ++ p.positiveMapWrites p.newOwnerAssets.toAdd.toList ++ p.mapWrites true p.takenBackPairs ++
  p.mapWrites false p.receivedPairs ++ p.positiveMapWrites p.reissuedPairs ++ p.mapWrites true p.undoneReissuePairs ++
  p.mapWrites false p.givenBackPairs ++ p.mapWrites true p.spentPairs

end CAssetsCache

/-! ## The writes of a dump -/

theorem mapWrites_flatMap (p : CAssetsCache) (eraseZero : Bool) (pairs : List (Bytes × Bytes)) :
    p.mapWrites eraseZero pairs = pairs.flatMap fun pair => p.mapWrites eraseZero [pair] := by
  simp only [CAssetsCache.mapWrites, List.filterMap_eq_flatMap_toList, List.flatMap_singleton]

theorem positiveMapWrites_flatMap (p : CAssetsCache) (pairs : List (Bytes × Bytes)) :
    p.positiveMapWrites pairs = pairs.flatMap fun pair => p.positiveMapWrites [pair] := by
  simp only [CAssetsCache.positiveMapWrites, List.filterMap_eq_flatMap_toList, List.flatMap_singleton]

/-- A write to one kind of records: balances only, both of a pair as one. -/
structure RecordsOf (f : DbWrite → Option BalanceWrite) : Prop where
  quantity : ∀ pair amount, (quantityWrites pair amount).filterMap f = [(pair, amount)]
  data : ∀ name data, f (.assetData name data) = none
  verifier : ∀ name text, f (.verifier name text) = none
  qualifier : ∀ key on, f (.addressQualifier key on) = none
  restricted : ∀ key on, f (.restrictedAddress key on) = none
  global : ∀ name on, f (.globalRestriction name on) = none

theorem recordsOf_byAsset : RecordsOf byAsset := by constructor <;> intros <;> rfl

theorem recordsOf_byAddress : RecordsOf byAddress := by constructor <;> intros <;> rfl

namespace RecordsOf

variable {E : Env} {p : CAssetsCache} {f : DbWrite → Option BalanceWrite} (hf : RecordsOf f)
include hf

theorem balanceWrites (eraseZero : Bool) (pair : Bytes × Bytes) :
    (Hivecoin.balanceWrites p.mapAssetsAddressAmount eraseZero pair).filterMap f = p.mapWrites eraseZero [pair] := by
  unfold Hivecoin.balanceWrites CAssetsCache.mapWrites
  cases hget : p.mapAssetsAddressAmount.get? pair with
  | none => simp [hget]
  | some amount => cases eraseZero <;> simp [hget, hf.quantity, recorded]

theorem positiveWrites (pair : Bytes × Bytes) :
    (Hivecoin.positiveWrites p.mapAssetsAddressAmount pair).filterMap f = p.positiveMapWrites [pair] := by
  unfold Hivecoin.positiveWrites CAssetsCache.positiveMapWrites
  cases hget : p.mapAssetsAddressAmount.get? pair with
  | none => simp [hget]
  | some amount =>
    dsimp only
    split
    · rename_i hpos
      simp [hget, hf.quantity, Option.filter, hpos]
    · rename_i hpos
      simp [hget, Option.filter, hpos]

theorem flatMap_balanceWrites {A : Type} (eraseZero : Bool) (l : List A) (pairOf : A → Bytes × Bytes) :
    (l.flatMap fun a => Hivecoin.balanceWrites p.mapAssetsAddressAmount eraseZero (pairOf a)).filterMap f =
      p.mapWrites eraseZero (l.map pairOf) := by
  simp only [List.filterMap_flatMap, hf.balanceWrites]
  rw [mapWrites_flatMap, List.flatMap_map]

theorem flatMap_positiveWrites (l : List (Bytes × Bytes)) :
    (l.flatMap (Hivecoin.positiveWrites p.mapAssetsAddressAmount)).filterMap f = p.positiveMapWrites l := by
  simp only [List.filterMap_flatMap, hf.positiveWrites]
  rw [← positiveMapWrites_flatMap]

theorem flatMap_reissueWrites (hE : E.fAssetIndex = true) {balance : Bytes × Bytes → List DbWrite}
    {records : List (Bytes × Bytes) → List BalanceWrite} (hbalance : ∀ pair, (balance pair).filterMap f = records [pair])
    (hrecords : ∀ pairs, records pairs = pairs.flatMap fun pair => records [pair])
    (p : CAssetsCache) (rs : List (COutPoint × CAssetCacheReissueAsset)) :
    (rs.flatMap fun e => reissueWrites E p balance e.2).filterMap f = records (p.reissuePairs rs) := by
  rw [hrecords, CAssetsCache.reissuePairs, List.filterMap_flatMap, List.flatMap_map]
  induction rs with
  | nil => rfl
  | cons r rs ih =>
    rw [List.flatMap_cons, ih, reissueWrites, List.filter_cons, Table.contains]
    cases p.mapReissuedAssetData.get? r.2.reissue.strName with
    | none => rfl
    | some asset =>
      dsimp only
      rw [List.filterMap_cons, hf.data, indexed, if_pos hE, hbalance]
      rfl

theorem dumpWrites (hE : E.fAssetIndex = true) : (Hivecoin.dumpWrites E p).filterMap f = p.balanceRecords := by
  have hreissued := hf.flatMap_reissueWrites hE hf.positiveWrites (positiveMapWrites_flatMap p) p
    p.newReissue.toAdd.toList
  have hundone := hf.flatMap_reissueWrites hE (hf.balanceWrites true) (mapWrites_flatMap p true) p (Store.undoneReissues p)
  simp only [Hivecoin.dumpWrites, transferWrites, spendWrites, indexed, hE, if_true, List.filterMap_append, hreissued, hundone,
    hf.flatMap_balanceWrites, hf.flatMap_positiveWrites]
  simp only [removalWrites, issuanceWrites, verifierWrites, markWrites, indexed, hE, if_true, List.filterMap_append,
    List.filterMap_flatMap, List.filterMap_map, List.filterMap_cons, hf.quantity, hf.data, hf.verifier, hf.qualifier, hf.restricted,
    hf.global, Function.comp_def, List.filterMap_none]
  simp only [← List.map_eq_flatMap, List.append_nil, CAssetsCache.balanceRecords, fixedWrites, List.append_assoc]
  rfl

end RecordsOf

/-! ## What a pair holds after a dump -/

/-- What the loops that do not read the map leave of a stored record. -/
def CAssetsCache.fixedRecord (p : CAssetsCache) (pair : Bytes × Bytes) (stored : Option CAmount) : Option CAmount :=
  if p.newOwnerAssets.toRemove.get? pair.1 = some pair.2 then none
  else match (p.newAssets.toAdd.get? pair.1).filter fun a => a.address = pair.2 with
    | some a => some a.asset.nAmount
    | none => if ((p.newAssets.toRemove.get? pair.1).filter fun a => a.address = pair.2).isSome then none else stored

section

variable {p : CAssetsCache} {pair : Bytes × Bytes} {v : CAmount} (hget : p.mapAssetsAddressAmount.get? pair = some v)
  (f : Bytes × Bytes → Option CAmount)

theorem mem_issuances {t : Table Bytes CAssetCacheNewAsset} {e : Bytes × CAssetCacheNewAsset} :
    e ∈ t.toList ∧ (e.1, e.2.address) = pair ↔ (t.get? pair.1).filter (fun a => a.address = pair.2) = some e.2 ∧ e.1 = pair.1 := by
  obtain ⟨name, a⟩ := e
  obtain ⟨name', address⟩ := pair
  simp only [Table.mem_toList, filter_eq_some_iff, decide_eq_true_eq, Prod.mk.injEq]
  constructor
  · rintro ⟨hmem, rfl, rfl⟩
    exact ⟨⟨hmem, rfl⟩, rfl⟩
  · rintro ⟨⟨hmem, haddress⟩, rfl⟩
    exact ⟨hmem, rfl, haddress⟩

theorem run_removals : run (p.newAssets.toRemove.toList.map fun e => ((e.1, e.2.address), none)) f pair =
    if ((p.newAssets.toRemove.get? pair.1).filter fun a => a.address = pair.2).isSome then none else f pair := by
  rw [run_const (v := none) ?_ f]
  · congr 1
    simp only [keys, List.map_map, List.mem_map, Function.comp_def, mem_issuances, isSome_iff_exists, eq_iff_iff]
    constructor
    · rintro ⟨e, he, -⟩
      exact ⟨e.2, he⟩
    · rintro ⟨a, ha⟩
      exact ⟨(pair.1, a), ha, rfl⟩
  · intro w hw hpair
    obtain ⟨e, -, rfl⟩ := List.mem_map.mp hw
    rfl

theorem run_issuances : run (p.newAssets.toAdd.toList.map fun e => ((e.1, e.2.address), some e.2.asset.nAmount)) f pair =
    match (p.newAssets.toAdd.get? pair.1).filter fun a => a.address = pair.2 with
    | some a => some a.asset.nAmount
    | none => f pair := by
  cases ha : (p.newAssets.toAdd.get? pair.1).filter fun a => a.address = pair.2 with
  | none =>
    refine run_of_not_mem (fun hmem => ?_) f
    simp only [keys, List.map_map, List.mem_map, Function.comp_def, mem_issuances, ha] at hmem
    obtain ⟨e, he, -⟩ := hmem
    cases he
  | some a =>
    rw [run_const (v := some a.asset.nAmount) ?_ f, if_pos]
    · simp only [keys, List.map_map, List.mem_map, Function.comp_def, mem_issuances, ha]
      exact ⟨(pair.1, a), rfl, rfl⟩
    · intro w hw hpair
      obtain ⟨e, he, rfl⟩ := List.mem_map.mp hw
      obtain ⟨ha', -⟩ := mem_issuances.mp ⟨he, hpair⟩
      rw [ha] at ha'
      cases ha'
      rfl

theorem run_fixedWrites : run p.fixedWrites f pair = p.fixedRecord pair (f pair) := by
  rw [fixedWrites, run_append, run_append, run_const (v := none) ?_ _, run_issuances, run_removals, fixedRecord]
  · congr 1
    simp only [keys, List.map_map, Function.comp_def, List.map_id', eq_iff_iff]
    exact Table.mem_toList
  · intro w hw hpair
    obtain ⟨e, -, rfl⟩ := List.mem_map.mp hw
    rfl

include hget

theorem run_mapWrites (eraseZero : Bool) (pairs : List (Bytes × Bytes)) : run (p.mapWrites eraseZero pairs) f pair =
    if pair ∈ pairs then if eraseZero then recorded v else some v else f pair := by
  have hkeys : pair ∈ keys (p.mapWrites eraseZero pairs) ↔ pair ∈ pairs := by
    simp only [keys, CAssetsCache.mapWrites, List.mem_map, List.mem_filterMap, map_eq_some_iff]
    constructor
    · rintro ⟨w, ⟨pair', hmem, a, ha, rfl⟩, rfl⟩
      exact hmem
    · intro hmem
      exact ⟨_, ⟨pair, hmem, v, hget, rfl⟩, rfl⟩
  rw [run_const (v := if eraseZero then recorded v else some v) ?_ f]
  · simp only [hkeys]
  intro w hw hpair
  simp only [CAssetsCache.mapWrites, List.mem_filterMap, map_eq_some_iff] at hw
  obtain ⟨pair', -, a, ha, rfl⟩ := hw
  cases hpair
  rw [hget] at ha
  cases ha
  rfl

theorem run_positiveMapWrites (pairs : List (Bytes × Bytes)) : run (p.positiveMapWrites pairs) f pair =
    if pair ∈ pairs ∧ 0 < v then some v else f pair := by
  have hkeys : pair ∈ keys (p.positiveMapWrites pairs) ↔ pair ∈ pairs ∧ 0 < v := by
    simp only [keys, CAssetsCache.positiveMapWrites, List.mem_map, List.mem_filterMap, map_eq_some_iff,
      filter_eq_some_iff, decide_eq_true_eq]
    constructor
    · rintro ⟨w, ⟨pair', hmem, a, ⟨ha, hpos⟩, rfl⟩, rfl⟩
      rw [hget] at ha
      cases ha
      exact ⟨hmem, hpos⟩
    · rintro ⟨hmem, hpos⟩
      exact ⟨_, ⟨pair, hmem, v, ⟨hget, hpos⟩, rfl⟩, rfl⟩
  rw [run_const (v := some v) ?_ f]
  · simp only [hkeys]
  intro w hw hpair
  simp only [CAssetsCache.positiveMapWrites, List.mem_filterMap, map_eq_some_iff, filter_eq_some_iff] at hw
  obtain ⟨pair', -, a, ⟨ha, -⟩, rfl⟩ := hw
  cases hpair
  rw [hget] at ha
  cases ha
  rfl

theorem run_balanceRecords : run p.balanceRecords f pair =
    if pair ∈ p.spentPairs then recorded v
    else if pair ∈ p.givenBackPairs then some v
    else if pair ∈ p.undoneReissuePairs then recorded v
    else if pair ∈ p.reissuedPairs ∧ 0 < v then some v
    else if pair ∈ p.receivedPairs then some v
    else if pair ∈ p.takenBackPairs then recorded v
    else if pair ∈ p.newOwnerAssets.toAdd.toList ∧ 0 < v then some v
    else p.fixedRecord pair (f pair) := by
  simp only [CAssetsCache.balanceRecords, run_append, run_mapWrites hget, run_positiveMapWrites hget, run_fixedWrites,
    Outcome.test_iff]

end

structure BalanceStored (E : Env) (S : Store) (pair : Bytes × Bytes) (amount : CAmount) : Prop where
  byAsset : (S.dumpCacheToDatabase E).assetAddressQuantity.get? pair = recorded amount
  byAddress : run ((dumpWrites E S.passets).filterMap byAddress) S.assetAddressQuantity.get? pair = recorded amount

/-- A loop that writes the amount reaches the pair, or the others leave it so. -/
def Reached (S : Store) (pair : Bytes × Bytes) (amount : CAmount) : Prop :=
  let p := S.passets
  pair ∈ p.spentPairs ∨ pair ∈ p.givenBackPairs ∨ pair ∈ p.undoneReissuePairs ∨ pair ∈ p.reissuedPairs ∧ 0 < amount ∨
  pair ∈ p.receivedPairs ∨ pair ∈ p.takenBackPairs ∨ pair ∈ p.newOwnerAssets.toAdd.toList ∧ 0 < amount ∨
  p.fixedRecord pair (S.assetAddressQuantity.get? pair) = some amount

/-- The last loop that reaches the pair erases its record, or it has none. -/
def Erased (S : Store) (pair : Bytes × Bytes) : Prop :=
  let p := S.passets
  pair ∈ p.spentPairs ∨ pair ∉ p.givenBackPairs ∧ (pair ∈ p.undoneReissuePairs ∨ pair ∉ p.receivedPairs ∧
    (pair ∈ p.takenBackPairs ∨ p.fixedRecord pair (S.assetAddressQuantity.get? pair) = none))

section

variable {E : Env} {S : Store} {pair : Bytes × Bytes}

theorem get?_foldl_write (ws : List DbWrite) (S : Store) :
    (ws.foldl Store.write S).assetAddressQuantity.get? pair = run (ws.filterMap byAsset) S.assetAddressQuantity.get? pair := by
  induction ws generalizing S with
  | nil => rfl
  | cons w ws ih =>
    rw [List.foldl_cons, ih]
    cases w with
    | assetAddressQuantity pair' amount =>
      have hput : (S.write (.assetAddressQuantity pair' amount)).assetAddressQuantity.get? =
          Function.update S.assetAddressQuantity.get? pair' amount := by
        funext k
        exact (Table.get?_put ..).trans (by rw [Function.update_apply])
      rw [hput]
      rfl
    | _ => rfl

/-- A balance is in the database after a dump just where its last write is of the right kind. -/
theorem balanceStored_iff (hE : E.fAssetIndex = true) {amount : CAmount}
    (hget : S.passets.mapAssetsAddressAmount.get? pair = some amount) :
    BalanceStored E S pair amount ↔ if amount = 0 then Erased S pair else Reached S pair amount := by
  have hasset : (S.dumpCacheToDatabase E).assetAddressQuantity.get? pair = run S.passets.balanceRecords S.assetAddressQuantity.get? pair := by
    rw [← quantities_dumpWrites, get?_foldl_write, recordsOf_byAsset.dumpWrites hE]
  have hiff : BalanceStored E S pair amount ↔ run S.passets.balanceRecords S.assetAddressQuantity.get? pair = recorded amount := by
    constructor
    · intro h
      exact hasset.symm.trans h.byAsset
    · intro h
      exact ⟨hasset.trans h, by rw [recordsOf_byAddress.dumpWrites hE]; exact h⟩
  rw [hiff, run_balanceRecords hget]
  by_cases hzero : amount = 0
  · subst hzero
    have hpositive : ¬ (0 : CAmount) < 0 := by decide
    simp only [recorded, hpositive, and_false, Outcome.test_iff, Erased]
    split_ifs <;> simp [*]
  · simp only [recorded, if_neg hzero, Reached]
    split_ifs <;> simp only [*, and_self, and_true, true_or, or_true, false_or]

end

namespace Regtest

def aliceGold : Bytes × Bytes := (ascii "GOLD", env.encodeDestination (.keyID alice))

/-- The balance of a new asset reaches the database. -/
theorem issued_balance_stored : ∃ st, runBlocks indexEnv goldChain = .ok st ∧
    st.store.passets.mapAssetsAddressAmount.get? aliceGold = some 1000 ∧ BalanceStored indexEnv st.store aliceGold 1000 := by
  have h : ((runBlocks indexEnv goldChain).toOption.any fun st =>
      st.store.passets.mapAssetsAddressAmount.get? aliceGold = some 1000 &&
        st.store.passets.fixedRecord aliceGold (st.store.assetAddressQuantity.get? aliceGold) = some 1000) = true := by
    decide +kernel
  obtain ⟨st, hrun, hst⟩ := (any_eq_true ..).mp h
  rw [Bool.and_eq_true, decide_eq_true_eq, decide_eq_true_eq] at hst
  refine ⟨st, Outcome.toOption_eq_some.mp hrun, hst.1, (balanceStored_iff rfl hst.1).mpr ?_⟩
  rw [if_neg (by decide)]
  exact Or.inr (Or.inr (Or.inr (Or.inr (Or.inr (Or.inr (Or.inr hst.2))))))

def issueBlock101 : CBlock := blockAt 101 [issueGold 1001 7] []

/-- `GOLD` is issued and moved, `passets` is dumped, and both blocks are disconnected. -/
def undoneIssue : Option ChainState := do
  let st ← (runBlocks indexEnv (emptyBlocks 100)).toOption
  let (st1, undo1) ← (connectTip indexEnv (Rules.none.withReward indexEnv params) ⟨∅, ∅⟩ st issueBlock101).toOption
  let (st2, undo2) ← (connectTip indexEnv (Rules.none.withReward indexEnv params) ⟨∅, ∅⟩ st1 moveBlock).toOption
  let st3 ← disconnectTip indexEnv ⟨st2.coins, st2.store.dumpCacheToDatabase indexEnv⟩ moveBlock undo2
  disconnectTip indexEnv st3 issueBlock101 undo1

theorem undoneIssue_run {st} (h : undoneIssue = some st) :
    ∃ chain, NodeRun params .none indexEnv (chainIds [issueGold 1001 7, moveGold [1000]]) .none chain st := by
  have hlow : ∀ tx ∈ [issueGold 1001 7, moveGold [1000]], tx.hash.toNat < 1000 := by decide +kernel
  have hids := goldChain_ids hlow (by decide +kernel)
  simp only [undoneIssue, Outcome.some_iff, Outcome.toOption_eq_some] at h
  obtain ⟨st0, h0, ⟨st1, undo1⟩, h1, ⟨st2, undo2⟩, h2, st3, h3, h4⟩ := h
  obtain ⟨chain, hrun, hblocks⟩ := runBlocks_run h0 (by decide +kernel)
    (fun block hblock => hids block (List.mem_append_left _ hblock)) (by decide +kernel)
  have hlength : chain.length = 100 := by
    rw [← List.length_map, hblocks]
    rfl
  have hrun1 := hrun.connect (r := false) (u := 0) (hids issueBlock101 (by simp [goldChain, issueBlock101]))
    (by rw [hlength]; rfl) (by decide +kernel) trivial h1
  have hmove : ∀ tx ∈ moveBlock.vtx, chainIds [issueGold 1001 7, moveGold [1000]] tx.hash = tx := by
    intro tx htx
    rcases List.mem_pair.mp htx with rfl | rfl
    · exact chainIds_coinbase hlow (by omega)
    · decide +kernel
  have hrun2 := hrun1.connect (r := false) (u := 0) hmove (by rw [List.length_append, hlength]; rfl) (by decide +kernel)
    trivial h2
  have hundone := (hrun2.dump trivial).disconnect (r := false) (u := 0) trivial h3
  exact ⟨chain, hundone.disconnect (r := false) (u := 0) trivial h4⟩

/-- A balance of zero is written where the record should be erased. -/
theorem undone_issue_leaves_record : ∃ chain st,
    NodeRun params .none indexEnv (chainIds [issueGold 1001 7, moveGold [1000]]) .none chain st ∧
      st.store.passets.mapAssetsAddressAmount.get? aliceGold = some 0 ∧ ¬ BalanceStored indexEnv st.store aliceGold 0 := by
  have h : (undoneIssue.any fun st => st.store.passets.mapAssetsAddressAmount.get? aliceGold = some 0 &&
      (st.store.dumpCacheToDatabase indexEnv).assetAddressQuantity.get? aliceGold = some 0) = true := by
    decide +kernel
  obtain ⟨st, hst, hrecords⟩ := (any_eq_true ..).mp h
  rw [Bool.and_eq_true, decide_eq_true_eq, decide_eq_true_eq] at hrecords
  obtain ⟨chain, hrun⟩ := undoneIssue_run hst
  refine ⟨chain, st, hrun, hrecords.1, fun hstored => ?_⟩
  have := hrecords.2.symm.trans hstored.byAsset
  simp [recorded] at this

end Regtest

end Hivecoin

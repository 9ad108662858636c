import Hivecoin.Chain.Reward

/-!
# The pending sets of a cache

No sequence of calls, also of calls that return false, puts a key among what is added and what is removed.
-/

namespace Hivecoin

open CAssetsCache Option Table

variable {E : Env} {S : Store} {c c' g : CAssetsCache}

/-! ## Calls that return false -/

variable {reissue : CReissueAsset} {address : Bytes} {out : COutPoint} {vUndo : List (Bytes × CBlockAssetUndo)}

/-- The four parts that the undo of a reissue works on answer alike. -/
structure SameReissues (c c' : CAssetsCache) : Prop where
  reissued : ∀ name, c'.mapReissuedAssetData.get? name = c.mapReissuedAssetData.get? name
  pending : ∀ out, c'.newReissue.slot out = c.newReissue.slot out
  verifiers : ∀ name, c'.newRestrictedVerifier.slot name = c.newRestrictedVerifier.slot name
  amounts : ∀ pair, c'.mapAssetsAddressAmount.get? pair = c.mapAssetsAddressAmount.get? pair

def BalanceCovers (E : Env) (S : Store) (c : CAssetsCache) (reissue : CReissueAsset) (address : Bytes) : Prop :=
  match bestAssetAddressAmount E S c (reissue.strName, address) with
  | none => reissue.nAmount = 0
  | some amount => ¬ amount - reissue.nAmount < 0

/-- The reissue is undone already: its data are there, and its removals are pending. -/
structure AlreadyUndone (c : CAssetsCache) (reissue : CReissueAsset) (out : COutPoint) (data : CDatabasedAssetData)
    (undo : Option CBlockAssetUndo) : Prop where
  reissued : c.mapReissuedAssetData.get? (unapplyReissue data.asset reissue undo).strName =
    some (unapplyReissue data.asset reissue undo)
  pending : c.newReissue.toAdd.get? out = none ∧ c.newReissue.toRemove.contains out = true
  verifiers : ∀ u, undo = some u → u.fChangedVerifierString = true →
    c.newRestrictedVerifier.toAdd.get? (unapplyReissue data.asset reissue undo).strName = none ∧
      c.newRestrictedVerifier.toRemove.contains (unapplyReissue data.asset reissue undo).strName = true

theorem undoVerifier_same {name undo p}
    (hp : c.newRestrictedVerifier = p) : (∀ a, (c.undoVerifier name undo).newRestrictedVerifier.slot a = p.slot a) ↔
      ∀ u, undo = some u → u.fChangedVerifierString = true → p.toAdd.get? name = none ∧ p.toRemove.contains name = true := by
  subst hp
  cases undo with
  | none => simp [CAssetsCache.undoVerifier]
  | some u =>
    by_cases hchanged : u.fChangedVerifierString = true
    · simp only [CAssetsCache.undoVerifier, hchanged, if_true, removeRestrictedVerifier, some.injEq, forall_eq',
        forall_const]
      exact Pending.slot_removeKeep_same
    · simp [CAssetsCache.undoVerifier, hchanged]

section

variable {data : CDatabasedAssetData} {undo : Option CBlockAssetUndo}

theorem unappliedReissue_amounts :
    (c.unappliedReissue reissue address out data undo).mapAssetsAddressAmount = c.mapAssetsAddressAmount := by
  unfold unappliedReissue
  rw [undoVerifier_eq]

theorem unappliedReissue_same :
    SameReissues c (c.unappliedReissue reissue address out data undo) ↔ AlreadyUndone c reissue out data undo := by
  have hreissued : (c.unappliedReissue reissue address out data undo).mapReissuedAssetData =
      c.mapReissuedAssetData.insert (unapplyReissue data.asset reissue undo).strName (unapplyReissue data.asset reissue undo) := by
    unfold unappliedReissue
    rw [undoVerifier_eq]
  have hpending : (c.unappliedReissue reissue address out data undo).newReissue =
      c.newReissue.removeKeep out ⟨reissue, address, data.nHeight, data.blockHash⟩ := by
    unfold unappliedReissue
    rw [undoVerifier_eq]
  constructor
  · rintro ⟨h1, h2, h3, -⟩
    rw [hreissued] at h1
    rw [hpending] at h2
    exact ⟨get?_insert_same.mp h1, Pending.slot_removeKeep_same.mp h2, (undoVerifier_same (by rfl)).mp h3⟩
  · intro h
    refine ⟨?_, ?_, (undoVerifier_same (by rfl)).mpr h.verifiers, fun pair => by rw [unappliedReissue_amounts]⟩
    · rw [hreissued]
      exact get?_insert_same.mpr h.reissued
    · rw [hpending]
      exact Pending.slot_removeKeep_same.mpr h.pending

end

/-- Lowering a balance leaves the entry exactly where there is one and the amount is zero. -/
theorem amount_kept_iff {pair best nAmount} (hindex : E.fAssetIndex = true)
    (hbest : bestAssetAddressAmount E S c pair = some best) :
    c.mapAssetsAddressAmount.get? pair = some (best - nAmount) ↔
      nAmount = 0 ∧ c.mapAssetsAddressAmount.contains pair = true := by
  rw [bestAssetAddressAmount, if_pos hindex] at hbest
  rw [← Bool.not_eq_false, contains_eq_false]
  cases hget : c.mapAssetsAddressAmount.get? pair with
  | none => simp
  | some amount =>
    rw [hget, some_or, some_or, some.injEq] at hbest
    subst hbest
    have hzero : amount - nAmount = amount ↔ nAmount = 0 := by grind
    simp [eq_comm (a := amount), hzero]

/-- A call that returns false leaves the cache as it was exactly where it finds no asset data, does not look at balances, is covered
by the balance, or has nothing left to write: it writes before it looks at the balance. -/
theorem failed_reissue_undo_iff (E : Env) (S : Store) (c : CAssetsCache) (reissue : CReissueAsset) (address : Bytes)
    (out : COutPoint) (vUndo : List (Bytes × CBlockAssetUndo)) :
    ((removeReissueAssetCall E S c reissue address out vUndo).1 = false →
        SameReissues c (removeReissueAssetCall E S c reissue address out vUndo).2) ↔
      ∀ data, getAssetMetaDataIfExists E S c reissue.strName = some data → E.fAssetIndex = true →
        BalanceCovers E S c reissue address ∨
          AlreadyUndone c reissue out data (findUndo vUndo reissue.strName) ∧
            (bestAssetAddressAmount E S c (reissue.strName, address) = none ∨
              reissue.nAmount = 0 ∧ c.mapAssetsAddressAmount.contains (reissue.strName, address) = true) := by
  unfold removeReissueAssetCall
  cases getAssetMetaDataIfExists E S c reissue.strName with
  | none => exact ⟨fun _ _ h => (by cases h), fun _ _ => ⟨fun _ => rfl, fun _ => rfl, fun _ => rfl, fun _ => rfl⟩⟩
  | some data =>
    by_cases hindex : E.fAssetIndex = true
    · have hread : bestAssetAddressAmount E S (c.unappliedReissue reissue address out data (findUndo vUndo reissue.strName))
          (reissue.strName, address) = bestAssetAddressAmount E S c (reissue.strName, address) := by
        rw [bestAssetAddressAmount, unappliedReissue_amounts, bestAssetAddressAmount]
      simp only [takeReissued, hindex, if_true, some.injEq, forall_eq', forall_const, hread, BalanceCovers]
      cases hbest : bestAssetAddressAmount E S c (reissue.strName, address) with
      | none =>
        by_cases hzero : reissue.nAmount = 0
        · simp [hzero]
        · simp [hzero, unappliedReissue_same]
      | some best =>
        by_cases hneg : best - reissue.nAmount < 0
        · rw [← amount_kept_iff hindex hbest]
          simp only [reduceCtorEq, false_and, if_false, getD_some, hneg, decide_true, Bool.not_true, forall_const,
            not_true_eq_false, false_or]
          constructor
          · intro h
            have hsame := h.amounts
            rw [setAmount, unappliedReissue_amounts] at hsame
            refine ⟨unappliedReissue_same.mp ⟨h.reissued, h.pending, h.verifiers, fun pair => ?_⟩, ?_⟩
            · rw [unappliedReissue_amounts]
            · exact get?_insert_same.mp hsame
          · rintro ⟨hundone, hkept⟩
            have h := (@unappliedReissue_same c reissue address out data _).mpr hundone
            refine ⟨h.reissued, h.pending, h.verifiers, ?_⟩
            rw [setAmount, unappliedReissue_amounts]
            exact get?_insert_same.mpr hkept
        · simp [hneg]
    · simp [takeReissued, hindex]

namespace Regtest

/-- Transfers of more `GOLD` than there is, whose amounts wrap to what there is. -/
def wrappedTransfer : CTransaction :=
  ⟨[⟨⟨7, 2⟩, []⟩], [goldOut alice (2 ^ 63 - 1), goldOut alice (2 ^ 63 - 1), goldOut bob 1002], 8⟩

def addedGold : CReissueAsset := ⟨ascii "GOLD", 500, -1, 1, []⟩

def reissueAddedGold : CTransaction :=
  ⟨[⟨⟨1003, 0⟩, []⟩, ⟨⟨7, 1⟩, []⟩], [burnOut .REISSUE, ownerGoldOut, ⟨0, reissueScript alice addedGold⟩], 9⟩

def wrappedChain : List CBlock := goldChainThen wrappedTransfer ++ [blockAt 103 [reissueAddedGold] []]

/-- Disconnecting the reissue fails, with the reissued data already changed back. -/
theorem failed_undo_edits_cache : ∃ st, AcceptedChain params .none (wrappedChain.map fun block => (indexEnv, block)) st ∧
    (removeReissueAssetCall indexEnv st.store ∅ addedGold (addressOf alice) ⟨9, 2⟩ []).1 = false ∧
    ¬ SameReissues ∅ (removeReissueAssetCall indexEnv st.store ∅ addedGold (addressOf alice) ⟨9, 2⟩ []).2 := by
  have hrun : ((runBlocks indexEnv wrappedChain).toOption.any fun st =>
      let call := removeReissueAssetCall indexEnv st.store ∅ addedGold (addressOf alice) ⟨9, 2⟩ []
      call.1 == false && call.2.mapReissuedAssetData.contains (ascii "GOLD")) = true := by decide +kernel
  obtain ⟨st, hst, hcall⟩ := (any_eq_true ..).mp hrun
  obtain ⟨hfalse, hedited⟩ := Bool.and_eq_true_iff.mp hcall
  refine ⟨st, runBlocks_accepted (Outcome.toOption_eq_some.mp hst) (by decide +kernel), beq_iff_eq.mp hfalse, fun hsame => ?_⟩
  rw [← Bool.not_eq_false, contains_eq_false, hsame.reissued] at hedited
  exact hedited rfl

end Regtest

structure SeparateSets (c : CAssetsCache) : Prop where
  assets : c.newAssets.Separate
  owners : c.newOwnerAssets.Separate
  reissues : c.newReissue.Separate
  transfers : c.newTransferAssets.Separate
  tags : c.newQualifierAddress.Separate
  freezes : c.newRestrictedAddress.Separate
  globals : c.newRestrictedGlobal.Separate
  verifiers : c.newRestrictedVerifier.Separate

theorem CAssetsCache.Disjoint.separate (h : c.Disjoint) : SeparateSets c :=
  ⟨h.newAssets.separate, h.owner.separate, h.reissue.separate, h.transfer.separate, h.qualifier.separate,
    h.restricted.separate, h.global.separate, h.verifier.separate⟩

theorem CAssetsCache.Disjoint.flushInto (h : g.Disjoint) (c : CAssetsCache) : (g.flushInto c).Disjoint :=
  ⟨h.newAssets.flushKeep _, h.owner.flushKeep _, h.reissue.flushKeep _, h.transfer.flushKeep _, h.verifier.flushOver _,
    h.qualifier.flushOver _, h.restricted.flushOver _, h.global.flushOver _⟩

/-- The caches that the operations reach from an empty one, over whatever store. A call that returns false may have loaded balances,
and `RemoveReissueAsset` may have done more. -/
inductive ReachedCache : CAssetsCache → Prop
  | empty : ReachedCache ∅
  | call {c c' : CAssetsCache} (E : Env) (S : Store) (op : CacheOp) (h : ReachedCache c) (hop : op.apply E S c = some c') :
      ReachedCache c'
  | loaded {c : CAssetsCache} (amounts : Table (Bytes × Bytes) CAmount) (h : ReachedCache c) :
      ReachedCache { c with mapAssetsAddressAmount := amounts }
  | undoFailed {c : CAssetsCache} (E : Env) (S : Store) (reissue : CReissueAsset) (address : Bytes) (out : COutPoint)
      (vUndo : List (Bytes × CBlockAssetUndo)) (h : ReachedCache c) :
      ReachedCache (removeReissueAssetCall E S c reissue address out vUndo).2

/-- `passets` after `Flush` calls of such caches; a dump leaves it empty. -/
inductive FlushedPassets : CAssetsCache → Prop
  | empty : FlushedPassets ∅
  | flush {g c : CAssetsCache} (h : FlushedPassets g) (hc : ReachedCache c) : FlushedPassets (g.flushInto c)

theorem ReachedCache.disjoint (h : ReachedCache c) : c.Disjoint := by
  induction h with
  | empty => exact disjoint_empty
  | call E S op _ hop ih => exact ih.apply hop
  | loaded amounts _ ih => exact ih.congr rfl
  | undoFailed E S reissue address out vUndo _ ih => exact ih.removeReissueAssetCall

theorem FlushedPassets.disjoint (h : FlushedPassets g) : g.Disjoint := by
  induction h with
  | empty => exact disjoint_empty
  | flush _ _ ih => exact ih.flushInto _

/-- In every reachable cache, and in `passets` after all flushes, the sets of each kind are separate. -/
theorem pending_sets_separate : (∀ c, ReachedCache c → SeparateSets c) ∧ ∀ g, FlushedPassets g → SeparateSets g :=
  ⟨fun _ h => h.disjoint.separate, fun _ h => h.disjoint.separate⟩

/-- An owner token that is issued and undone is in one set only. -/
theorem Regtest.owner_sets_separate : ∃ c, c.newOwnerAssets.toRemove.contains (ascii "GOLD!") = true ∧
    SeparateSets c ∧ SeparateSets (flushInto ∅ c) := by
  have hreached : ReachedCache (((∅ : CAssetsCache).addOwnerAsset env (ascii "GOLD!") (addressOf alice)).removeOwnerAsset env
      (ascii "GOLD!") (addressOf alice)) :=
    .call env ∅ (.removeOwnerAsset _ _) (.call env ∅ (.addOwnerAsset _ _) .empty rfl) rfl
  exact ⟨_, by decide +kernel, pending_sets_separate.1 _ hreached, pending_sets_separate.2 _ (.flush .empty hreached)⟩

end Hivecoin

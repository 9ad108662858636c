import Hivecoin.Assets.Construct
import Hivecoin.Cache.Lemmas.Marks

/-!
# What a cache answers before and after it is flushed

The answers agree except where a removal is replaced, another issuance is pending or sub-qualifiers are removed.
-/

namespace Hivecoin

open CAssetsCache Option Pending QualifierType

/-- All that a cache answers about a name and an address. -/
structure Answers where
  assetExists : Bool
  metaData : Option CDatabasedAssetData
  verifier : Option Bytes
  qualifier : Bool
  restriction : Bool
  globalRestriction : Bool
deriving DecidableEq

def answers (E : Env) (S : Store) (c : CAssetsCache) (name address : Bytes) : Answers where
  assetExists := checkIfAssetExists E S c name
  metaData := getAssetMetaDataIfExists E S c name
  verifier := getAssetVerifierStringIfExists S c name
  qualifier := checkForAddressQualifier S c name address
  restriction := checkForAddressRestriction S c name address
  globalRestriction := checkForGlobalRestriction S c name

/-- The undoing of `w` in `g` shows what the addition of `v` in `l` shows. -/
def AddShows {K V A : Type} [DecidableEq K] (l g : Pending K V) (k : K) (onRem onAdd : V → A) : Prop :=
  ∀ v w, l.toAdd.get? k = some v → g.toRemove.get? k = some w → onRem w = onAdd v

/-- Nothing in the store under `c` hides what `c` holds about a name and an address. -/
structure Unmasked (E : Env) (S : Store) (c : CAssetsCache) (name address : Bytes) : Prop where
  /-- an issued name is not pending removal -/
  issue : E.fReindex = false → c.newAssets.toAdd.contains name = true →
    S.passets.newAssets.toRemove.contains name = false
  /-- where no reissued data is held, nor is another issuance of the name -/
  data : c.mapReissuedAssetData.get? name = none → S.passets.mapReissuedAssetData.get? name = none →
    ∀ a, c.newAssets.toAdd.get? name = some a → S.passets.newAssets.toRemove.get? name = none ∧
      ∀ b, S.passets.newAssets.toAdd.get? name = some b →
        b.asset = a.asset ∧ b.blockHeight = a.blockHeight ∧ b.blockHash = a.blockHash
  verifier : AddShows c.newRestrictedVerifier S.passets.newRestrictedVerifier name
    (fun v => if v.fUndoingRessiue then some v.verifier else none) (fun v => some v.verifier)
  tag : AddShows c.newQualifierAddress S.passets.newQualifierAddress (name, address)
    (fun t => !t.isAdd) isAdd
  freeze : AddShows c.newRestrictedAddress S.passets.newRestrictedAddress (name, address)
    (fun t => !t.isFreeze) RestrictedType.isFreeze
  globalFreeze : AddShows c.newRestrictedGlobal S.passets.newRestrictedGlobal name
    (fun t => !t.isFreeze) GlobalRestrictedType.isFreeze
  /-- sub-qualifiers that `c` takes away do not count for their root -/
  root : c.newQualifierAddress.slot (name, address) = ∅ →
    S.passets.newQualifierAddress.slot (name, address) = ∅ →
    c.mapRootQualifierAddressesRemove.getD (name, address) ∅ ≠ ∅ → rootQualifier S c name address = true

variable {E : Env} {S : Store} {c : CAssetsCache}

theorem checkIfAssetExists_flush_iff (h : c.Disjoint) (name : Bytes) :
    checkIfAssetExists E S c name = checkIfAssetExists E (S.flush c) ∅ name ↔
      (E.fReindex = false → c.newAssets.toAdd.contains name = true →
        S.passets.newAssets.toRemove.contains name = false) := by
  have hread := read_eq_flushKeep_iff h.newAssets S.passets.newAssets name false (fun _ => true)
    (databased S name).isSome
  have hflush : checkIfAssetExists E (S.flush c) ∅ name = (E.fReindex ||
      (∅ : Pending Bytes CAssetCacheNewAsset).read (S.passets.newAssets.flushKeep c.newAssets) name
        (fun _ => false) (fun _ => true) (databased S name).isSome) := rfl
  rw [hflush, checkIfAssetExists]
  cases E.fReindex with
  | true => simp
  | false =>
    simp only [Bool.false_or, hread, forall_const, Table.contains_iff, Table.contains_eq_false]
    cases hg : S.passets.newAssets.toRemove.get? name with
    | none => simp
    | some w => simp

theorem getAssetMetaDataIfExists_flush_iff (h : c.Disjoint) (name : Bytes) :
    getAssetMetaDataIfExists E S c name = getAssetMetaDataIfExists E (S.flush c) ∅ name ↔
      (c.mapReissuedAssetData.get? name = none → S.passets.mapReissuedAssetData.get? name = none →
        ∀ a, c.newAssets.toAdd.get? name = some a → S.passets.newAssets.toRemove.get? name = none ∧
          ∀ b, S.passets.newAssets.toAdd.get? name = some b →
            b.asset = a.asset ∧ b.blockHeight = a.blockHeight ∧ b.blockHash = a.blockHash) := by
  have hread := read_eq_flushKeep_iff h.newAssets S.passets.newAssets name none
    (fun a => some (⟨a.asset, a.blockHeight, a.blockHash⟩ : CDatabasedAssetData)) (databased S name)
  have hre : (∅ : CAssetsCache).mapReissuedAssetData.get? name = none := Table.get?_empty name
  have hflush : (S.flush c).passets.mapReissuedAssetData.get? name =
      (c.mapReissuedAssetData.get? name).or (S.passets.mapReissuedAssetData.get? name) :=
    Table.get?_absorb _ _ _
  simp only [getAssetMetaDataIfExists, hre, hflush, none_or]
  cases hr : (c.mapReissuedAssetData.get? name).or (S.passets.mapReissuedAssetData.get? name) with
  | some asset =>
    simp only [true_iff]
    intro hc hg
    simp [hc, hg] at hr
  | none =>
    obtain ⟨hc, hg⟩ := or_eq_none_iff.mp hr
    simp only [hc, hg, forall_const]
    refine hread.trans (forall_congr' fun a => imp_congr_right fun ha => ?_)
    cases S.passets.newAssets.toRemove.get? name with
    | some w => simp
    | none =>
      cases S.passets.newAssets.toAdd.get? name with
      | none => simp
      | some b =>
        simp only [elim_none, getD_some, some.injEq, CDatabasedAssetData.mk.injEq,
          true_and, forall_eq']
        rw [eq_comm, @eq_comm _ a.blockHeight, @eq_comm _ a.blockHash]

theorem getAssetVerifierStringIfExists_flush_iff (h : c.Disjoint) (name : Bytes) :
    getAssetVerifierStringIfExists S c name = getAssetVerifierStringIfExists (S.flush c) ∅ name ↔
      AddShows c.newRestrictedVerifier S.passets.newRestrictedVerifier name
        (fun v => if v.fUndoingRessiue then some v.verifier else none) (fun v => some v.verifier) :=
  read_eq_flushOver_iff h.verifier _ _ _ _ _

theorem checkForAddressRestriction_flush_iff (h : c.Disjoint) (name address : Bytes) :
    checkForAddressRestriction S c name address = checkForAddressRestriction (S.flush c) ∅ name address ↔
      AddShows c.newRestrictedAddress S.passets.newRestrictedAddress (name, address)
        (fun t => !t.isFreeze) RestrictedType.isFreeze :=
  read_eq_flushOver_iff h.restricted _ _ _ _ _

theorem checkForGlobalRestriction_flush_iff (h : c.Disjoint) (name : Bytes) :
    checkForGlobalRestriction S c name = checkForGlobalRestriction (S.flush c) ∅ name ↔
      AddShows c.newRestrictedGlobal S.passets.newRestrictedGlobal name
        (fun t => !t.isFreeze) GlobalRestrictedType.isFreeze :=
  read_eq_flushOver_iff h.global _ _ _ _ _

theorem rootQualifier_flush (name address : Bytes) :
    rootQualifier (S.flush c) ∅ name address =
      (rootQualifier S c name address ||
        decide (c.mapRootQualifierAddressesRemove.getD (name, address) ∅ ≠ ∅)) := by
  have hroots : (S.flush c).passets.mapRootQualifierAddressesAdd.getD (name, address) ∅ =
      S.passets.mapRootQualifierAddressesAdd.getD (name, address) ∅ ∪
        c.mapRootQualifierAddressesAdd.getD (name, address) ∅ ∪
        c.mapRootQualifierAddressesRemove.getD (name, address) ∅ := by
    rw [getD_rootAdd_flush, MarkRecords.noted, Finset.union_assoc]
    rfl
  have hempty : (∅ : CAssetsCache).mapRootQualifierAddressesAdd.getD (name, address) ∅ = ∅ := by
    simp [show (∅ : CAssetsCache).mapRootQualifierAddressesAdd = ∅ from rfl, Table.getD]
  have hstored : checkForAddressRootQualifier (S.flush c) address name =
      checkForAddressRootQualifier S address name := rfl
  simp only [rootQualifier, hroots, hempty, hstored, show (S.flush c).addressQualifier = S.addressQualifier from rfl]
  simp only [ne_eq, Finset.union_eq_empty]
  by_cases h1 : S.passets.mapRootQualifierAddressesAdd.getD (name, address) ∅ = ∅ <;>
    by_cases h2 : c.mapRootQualifierAddressesAdd.getD (name, address) ∅ = ∅ <;>
      by_cases h3 : c.mapRootQualifierAddressesRemove.getD (name, address) ∅ = ∅ <;>
        simp [h1, h2, h3]

theorem checkForAddressQualifier_flush_iff (h : c.Disjoint) (name address : Bytes) :
    checkForAddressQualifier S c name address = checkForAddressQualifier (S.flush c) ∅ name address ↔
      AddShows c.newQualifierAddress S.passets.newQualifierAddress (name, address)
          (fun t => !t.isAdd) isAdd ∧
        (c.newQualifierAddress.slot (name, address) = ∅ →
          S.passets.newQualifierAddress.slot (name, address) = ∅ →
          c.mapRootQualifierAddressesRemove.getD (name, address) ∅ ≠ ∅ →
          rootQualifier S c name address = true) := by
  have hread := fun base => Pending.read_eq_flushOver_iff h.qualifier S.passets.newQualifierAddress (name, address)
    (fun t => !t.isAdd) isAdd base
  have hflush : checkForAddressQualifier (S.flush c) ∅ name address =
      (∅ : Pending (Bytes × Bytes) QualifierType).read
        (S.passets.newQualifierAddress.flushOver c.newQualifierAddress) (name, address) (fun t => !t.isAdd)
        isAdd (rootQualifier (S.flush c) ∅ name address) := rfl
  rw [hflush, rootQualifier_flush, checkForAddressQualifier, Pending.mark]
  by_cases hslots : c.newQualifierAddress.slot (name, address) = ∅ →
      S.passets.newQualifierAddress.slot (name, address) ≠ ∅
  · -- an exact entry decides, before and after
    rw [Pending.read, Slot.read_base hslots _ _ _
      (rootQualifier S c name address ||
        decide (c.mapRootQualifierAddressesRemove.getD (name, address) ∅ ≠ ∅)), ← Pending.read, hread]
    exact (and_iff_left fun hc hg => absurd hg (hslots hc)).symm
  · simp only [Classical.not_imp, not_not] at hslots
    obtain ⟨hc, hg⟩ := hslots
    have hadd : AddShows c.newQualifierAddress S.passets.newQualifierAddress (name, address)
        (fun t => !t.isAdd) isAdd := by
      intro v w hv
      have : c.newQualifierAddress.toAdd.get? (name, address) = none := congrArg Slot.add hc
      rw [this] at hv
      cases hv
    simp only [Pending.read, Pending.slot_flushOver, Pending.slot_empty, hc, hg, hadd, true_and, forall_const,
      Slot.flushOver_empty]
    show rootQualifier S c name address = (rootQualifier S c name address || _) ↔ _
    cases rootQualifier S c name address <;> simp

theorem answers_flush_iff {ops : List CacheOp} (hc : runOps E S ∅ ops = some c) (name address : Bytes) :
    answers E S c name address = answers E (S.flush c) ∅ name address ↔ Unmasked E S c name address := by
  have h := runOps_disjoint hc
  simp only [answers, Answers.mk.injEq, checkIfAssetExists_flush_iff h, getAssetMetaDataIfExists_flush_iff h,
    getAssetVerifierStringIfExists_flush_iff h, checkForAddressQualifier_flush_iff h,
    checkForAddressRestriction_flush_iff h, checkForGlobalRestriction_flush_iff h]
  constructor
  · rintro ⟨hi, hd, hv, ⟨ht, hr⟩, hf, hgf⟩
    exact ⟨hi, hd, hv, ht, hf, hgf, hr⟩
  · rintro ⟨hi, hd, hv, ht, hf, hgf, hr⟩
    exact ⟨hi, hd, hv, ⟨ht, hr⟩, hf, hgf⟩

namespace Regtest

/-- `GOLD` has been issued and taken back; both caches have been flushed. -/
def goldTakenBack : Option Store := do
  let c1 ← runOps env ∅ ∅ [.addNewAsset gold (addressOf alice) 6 50]
  let S1 := (∅ : Store).flush c1
  let c2 ← runOps env S1 ∅ [.removeNewAsset gold (addressOf alice)]
  return S1.flush c2

/-- The cache that issues `GOLD` again does not see it before it is flushed. -/
theorem gold_masked_before_flush :
    ∃ S c, goldTakenBack = some S ∧
      runOps env S ∅ [.addNewAsset gold (addressOf alice) 6 51] = some c ∧
      checkIfAssetExists env S c (ascii "GOLD") = false ∧
      checkIfAssetExists env (S.flush c) ∅ (ascii "GOLD") = true ∧
      answers env S c (ascii "GOLD") [] ≠ answers env (S.flush c) ∅ (ascii "GOLD") [] := by
  have h : (goldTakenBack.bind fun S => (runOps env S ∅ [.addNewAsset gold (addressOf alice) 6 51]).map fun c =>
      (checkIfAssetExists env S c (ascii "GOLD"), checkIfAssetExists env (S.flush c) ∅ (ascii "GOLD"))) =
      some (false, true) := by
    decide +kernel
  obtain ⟨S, hS, h⟩ := bind_eq_some_iff.mp h
  obtain ⟨c, hc, h⟩ := map_eq_some_iff.mp h
  obtain ⟨h₁, h₂⟩ := Prod.mk.inj h
  refine ⟨S, c, hS, hc, h₁, h₂, fun heq => ?_⟩
  have := congrArg Answers.assetExists heq
  simp only [answers, h₁, h₂] at this
  cases this

theorem gold_flush_iff :
    ∃ c, runOps env ∅ ∅ [.addNewAsset gold (addressOf alice) 6 50] = some c ∧
      (answers env ∅ c (ascii "GOLD") [] = answers env ((∅ : Store).flush c) ∅ (ascii "GOLD") [] ↔
        Unmasked env ∅ c (ascii "GOLD") []) := by
  obtain ⟨c, hc⟩ := isSome_iff_exists.mp
    (show (runOps env ∅ ∅ [.addNewAsset gold (addressOf alice) 6 50]).isSome = true by decide +kernel)
  exact ⟨c, hc, @answers_flush_iff env ∅ c [.addNewAsset gold (addressOf alice) 6 50] hc _ _⟩

end Regtest

end Hivecoin

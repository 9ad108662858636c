import Hivecoin.Assets.Construct
import Hivecoin.Cache.Tags

/-!
# What the restriction state answers before and after a dump

Freezes read the same. A qualifier does where entries, root qualifiers and the store agree.
-/

namespace Hivecoin

open CAssetsCache Table

variable {E : Env} {S : Store}

theorem checkForAddressRestriction_dump (name address : Bytes) :
    checkForAddressRestriction (S.dumpCacheToDatabase E) ∅ name address =
      checkForAddressRestriction S ∅ name address :=
  Pending.has_dumpMarks RestrictedType.isFreeze S.passets.newRestrictedAddress S.restrictedAddress _

theorem checkForGlobalRestriction_dump (name : Bytes) :
    checkForGlobalRestriction (S.dumpCacheToDatabase E) ∅ name = checkForGlobalRestriction S ∅ name :=
  Pending.has_dumpMarks GlobalRestrictedType.isFreeze S.passets.newRestrictedGlobal S.globalRestriction _

/-- The verifier of one name in memory and in the database. -/
def Store.VerifierDb.at (d : Store.VerifierDb) (name : Bytes) : Option Bytes × Option Bytes :=
  (d.lru.get? name, d.db.get? name)

theorem dumpVerifiers_at (p : CAssetsCache) (d : Store.VerifierDb) (name : Bytes) :
    (Store.dumpVerifiers p d).at name =
      match p.newRestrictedVerifier.toRemove.get? name with
      | some v => (none, if v.fUndoingRessiue then some v.verifier else none)
      | none => match p.newRestrictedVerifier.toAdd.get? name with
        | some v => (none, some v.verifier)
        | none => match p.newAssets.toRemove.get? name with
          | some _ => ((d.at name).1, none)
          | none => d.at name := by
  unfold Store.dumpVerifiers
  rw [foldl_pointwise Store.VerifierDb.at _
      (fun _ v _ => (none, if v.fUndoingRessiue then some v.verifier else none)),
    foldl_pointwise Store.VerifierDb.at _ (fun _ v _ => (none, some v.verifier)),
    foldl_pointwise Store.VerifierDb.at _ (fun _ _ x => (x.1, none))]
  · cases p.newRestrictedVerifier.toRemove.get? name with
    | some v => rfl
    | none =>
      cases p.newRestrictedVerifier.toAdd.get? name with
      | some v => rfl
      | none => cases p.newAssets.toRemove.get? name <;> rfl
  · intro d k v a
    by_cases h : a = k <;> simp [Store.VerifierDb.at, get?_erase, h]
  · intro d k v a
    by_cases h : a = k <;> simp [Store.VerifierDb.at, get?_erase, get?_insert, h]
  · intro d k v a
    by_cases h : a = k
    · subst h; cases hv : v.fUndoingRessiue <;> simp [Store.VerifierDb.at]
    · cases hv : v.fUndoingRessiue <;>
        simp [Store.VerifierDb.at, get?_erase, get?_insert, h]

/-- The stored verifier of an asset pending removal is so too, or in memory. -/
def VerifierSettled (S : Store) (name : Bytes) : Prop :=
  S.passets.newAssets.toRemove.contains name = true → S.passets.newRestrictedVerifier.slot name = ∅ →
    S.passetsVerifierCache.get? name = none → S.verifiers.get? name = none

theorem getAssetVerifierStringIfExists_dump_iff (name : Bytes) :
    getAssetVerifierStringIfExists S ∅ name = getAssetVerifierStringIfExists (S.dumpCacheToDatabase E) ∅ name ↔
      VerifierSettled S name := by
  have hafter : getAssetVerifierStringIfExists (S.dumpCacheToDatabase E) ∅ name =
      (((Store.dumpVerifiers S.passets ⟨S.passetsVerifierCache, S.verifiers⟩).at name).1).or
        ((Store.dumpVerifiers S.passets ⟨S.passetsVerifierCache, S.verifiers⟩).at name).2 := rfl
  have hslot : S.passets.newRestrictedVerifier.slot name = ∅ ↔
      S.passets.newRestrictedVerifier.toAdd.get? name = none ∧
        S.passets.newRestrictedVerifier.toRemove.get? name = none := by
    constructor
    · intro h; exact ⟨congrArg Slot.add h, congrArg Slot.rem h⟩
    · rintro ⟨h1, h2⟩; simp only [Pending.slot, h1, h2]; rfl
  rw [hafter, dumpVerifiers_at, VerifierSettled, hslot, getAssetVerifierStringIfExists, Pending.read,
    show (∅ : CAssetsCache).newRestrictedVerifier = ∅ from rfl, Pending.slot_empty, contains]
  simp only [Slot.read, Slot.empty_rem, Slot.empty_add, Pending.slot]
  cases S.passets.newRestrictedVerifier.toRemove.get? name with
  | some v => simp
  | none =>
    cases S.passets.newRestrictedVerifier.toAdd.get? name with
    | some v => simp
    | none =>
      cases S.passets.newAssets.toRemove.get? name with
      | none => simp [Store.VerifierDb.at]
      | some a =>
        cases hl : S.passetsVerifierCache.get? name <;> cases hd : S.verifiers.get? name <;>
          simp [Store.VerifierDb.at, hl, hd]

/-- A dump changes no answer, and the qualifiers reported are those carried. -/
def DumpTransparent (E : Env) (S : Store) (name address : Bytes) : Prop :=
  getAssetVerifierStringIfExists S ∅ name = getAssetVerifierStringIfExists (S.dumpCacheToDatabase E) ∅ name ∧
  checkForAddressRestriction S ∅ name address =
    checkForAddressRestriction (S.dumpCacheToDatabase E) ∅ name address ∧
  checkForGlobalRestriction S ∅ name = checkForGlobalRestriction (S.dumpCacheToDatabase E) ∅ name ∧
  checkForAddressQualifier S ∅ name address =
    checkForAddressQualifier (S.dumpCacheToDatabase E) ∅ name address ∧
  (checkForAddressQualifier S ∅ name address = true ↔ Carries S name address) ∧
  (checkForAddressQualifier (S.dumpCacheToDatabase E) ∅ name address = true ↔
    Carries (S.dumpCacheToDatabase E) name address)

namespace Regtest

def red : Bytes := ascii "#RED"
def redTag : Bytes := ascii "#RED/#TAG"

/-- An address gets a qualifier and a sub-qualifier, which are dumped, and loses the first. -/
def redRemoved : Option Store := do
  let c1 ← runOps env ∅ ∅ [.addQualifierAddress red alice .ADD_QUALIFIER,
    .addQualifierAddress redTag alice .ADD_QUALIFIER]
  let S1 := ((∅ : Store).flush c1).dumpCacheToDatabase env
  let c2 ← runOps env S1 ∅ [.addQualifierAddress red alice .REMOVE_QUALIFIER]
  return S1.flush c2

theorem redRemoved_reachable {S} (h : redRemoved = some S) : Store.Reachable env S := by
  simp only [redRemoved, Outcome.some_iff] at h
  obtain ⟨c1, hc1, c2, hc2, rfl⟩ := h
  have hred : assetTypeOf red = .QUALIFIER := by decide +kernel
  have htag : assetTypeOf redTag = .SUB_QUALIFIER := by decide +kernel
  refine .flush (.dump (.flush .empty hc1 ?_)) hc2 ?_
  · simp [CacheOp.WellNamed, hred, htag]
  · simp [CacheOp.WellNamed, hred]

end Regtest

end Hivecoin

import Hivecoin.Base.Outcome
import Hivecoin.Cache.Flush

/-!
# Sequences of cache operations

The operations that change a cache, as data.
-/

namespace Hivecoin

open CAssetsCache Option

inductive CacheOp where
  | addNewAsset (asset : CNewAsset) (address : Bytes) (nHeight : Int) (blockHash : Uint256)
  | removeNewAsset (asset : CNewAsset) (address : Bytes)
  | addReissueAsset (reissue : CReissueAsset) (address : Bytes) (out : COutPoint)
  | removeReissueAsset (reissue : CReissueAsset) (address : Bytes) (out : COutPoint)
      (vUndoIPFS : List (Bytes × CBlockAssetUndo))
  | addOwnerAsset (assetsName address : Bytes)
  | removeOwnerAsset (assetsName address : Bytes)
  | addTransferAsset (transfer : CAssetTransfer) (address : Bytes) (out : COutPoint)
  | removeTransfer (transfer : CAssetTransfer) (address : Bytes) (out : COutPoint)
  | trySpendCoin (txOut : CTxOut)
  | undoAssetCoin (coin : Coin)
  | addRestrictedVerifier (assetName verifier : Bytes)
  | removeRestrictedVerifier (assetName verifier : Bytes) (fUndoingReissue : Bool)
  | addQualifierAddress (assetName address : Bytes) (type : QualifierType)
  | removeQualifierAddress (assetName address : Bytes) (type : QualifierType)
  | addRestrictedAddress (assetName address : Bytes) (type : RestrictedType)
  | removeRestrictedAddress (assetName address : Bytes) (type : RestrictedType)
  | addGlobalRestricted (assetName : Bytes) (type : GlobalRestrictedType)
  | removeGlobalRestricted (assetName : Bytes) (type : GlobalRestrictedType)

namespace CacheOp

def apply (E : Env) (S : Store) (c : CAssetsCache) : CacheOp → Option CAssetsCache
  | addNewAsset asset address nHeight blockHash => c.addNewAsset E S asset address nHeight blockHash
  | removeNewAsset asset address => c.removeNewAsset E S asset address
  | addReissueAsset reissue address out => c.addReissueAsset E S reissue address out
  | removeReissueAsset reissue address out vUndo => c.removeReissueAsset E S reissue address out vUndo
  | addOwnerAsset name address => some (c.addOwnerAsset E name address)
  | removeOwnerAsset name address => some (c.removeOwnerAsset E name address)
  | addTransferAsset transfer address out => some (c.addTransferAsset E S transfer address out)
  | removeTransfer transfer address out => c.removeTransfer E S transfer address out
  | trySpendCoin txOut => c.trySpendCoin E S txOut
  | undoAssetCoin coin => c.undoAssetCoin E S coin
  | addRestrictedVerifier name verifier => some (c.addRestrictedVerifier name verifier)
  | removeRestrictedVerifier name verifier undoing => some (c.removeRestrictedVerifier name verifier undoing)
  | addQualifierAddress name address type => some (c.addQualifierAddress name address type)
  | removeQualifierAddress name address type => some (c.removeQualifierAddress name address type)
  | addRestrictedAddress name address type => some (c.addRestrictedAddress name address type)
  | removeRestrictedAddress name address type => some (c.removeRestrictedAddress name address type)
  | addGlobalRestricted name type => some (c.addGlobalRestricted name type)
  | removeGlobalRestricted name type => some (c.removeGlobalRestricted name type)

/-- Tags are set under the names of qualifiers and sub-qualifiers. -/
def WellNamed : CacheOp → Prop
  | addQualifierAddress name _ _ | removeQualifierAddress name _ _ =>
    assetTypeOf name = .QUALIFIER ∨ assetTypeOf name = .SUB_QUALIFIER
  | _ => True

end CacheOp

variable (E : Env) (S : Store) (c : CAssetsCache)

/-- The cache after calls that all return true. One that returns false leaves the cache as it was or ends the block. -/
def runOps (ops : List CacheOp) : Option CAssetsCache :=
  ops.foldlM (fun c op => op.apply E S c) c

/-- The cache after a sequence of calls whose failures are passed over. -/
def tryOps (ops : List CacheOp) : CAssetsCache :=
  ops.foldl (fun c op => (op.apply E S c).getD c) c

@[simp] theorem tryOps_nil : tryOps E S c [] = c := rfl

@[simp] theorem tryOps_cons (op : CacheOp) (ops : List CacheOp) :
    tryOps E S c (op :: ops) = tryOps E S ((op.apply E S c).getD c) ops := rfl

theorem tryOps_append (ops1 ops2 : List CacheOp) :
    tryOps E S c (ops1 ++ ops2) = tryOps E S (tryOps E S c ops1) ops2 := List.foldl_append

theorem exists_runOps_tryOps (ops : List CacheOp) :
    ∃ ops', ops'.Sublist ops ∧ runOps E S c ops' = some (tryOps E S c ops) := by
  induction ops generalizing c with
  | nil => exact ⟨[], .slnil, rfl⟩
  | cons op ops ih =>
    cases h : op.apply E S c with
    | none =>
      obtain ⟨ops', hsub, hrun⟩ := ih c
      exact ⟨ops', hsub.cons _, by simpa [h] using hrun⟩
    | some c' =>
      obtain ⟨ops', hsub, hrun⟩ := ih c'
      refine ⟨op :: ops', hsub.cons_cons _, ?_⟩
      simp only [runOps, List.foldlM_cons, h, bind_eq_bind, bind_some]
      simpa [h, runOps] using hrun

theorem runOps_append {E S c c1 c2 ops1 ops2}
    (h1 : runOps E S c ops1 = some c1) (h2 : runOps E S c1 ops2 = some c2) :
    runOps E S c (ops1 ++ ops2) = some c2 := by
  unfold runOps at *
  rw [List.foldlM_append, h1]
  exact h2

theorem runOps_induct {E S} (p : CAssetsCache → Prop) {ops c c'} (h : runOps E S c ops = some c') (hc : p c)
    (step : ∀ c op c', op ∈ ops → op.apply E S c = some c' → p c → p c') : p c' := by
  induction ops generalizing c with
  | nil =>
    simp only [runOps, List.foldlM_nil, Outcome.some_iff] at h
    exact h ▸ hc
  | cons op ops ih =>
    simp only [runOps, List.foldlM_cons, Outcome.some_iff] at h
    obtain ⟨c1, hop, hrest⟩ := h
    exact ih hrest (step c op c1 List.mem_cons_self hop hc)
      fun c op' c' hmem => step c op' c' (List.mem_cons_of_mem _ hmem)

end Hivecoin

import Hivecoin.Mempool.Accept
import Hivecoin.Tx.NullDataAuthority

/-!
# Changes that only one mempool transaction may make
-/

namespace Hivecoin

open Outcome List Option Env

/-- A tag of an address or a freeze of all coins. -/
inductive Change where
  | freeze (name : Bytes)
  | unfreeze (name : Bytes)
  | addTag (tag : Bytes × Bytes)
  | removeTag (tag : Bytes × Bytes)
deriving DecidableEq

def Env.changeOf (E : Env) (out : CTxOut) : Option Change :=
  if (Script.isAssetScript out.scriptPubKey).isSome then none
  else if Script.isNullGlobalRestrictionAssetTxDataScript out.scriptPubKey then
    (globalAssetNullDataFromScript out.scriptPubKey).bind fun data =>
      if data.flag = 1 then some (.freeze data.asset_name) else if data.flag = 0 then some (.unfreeze data.asset_name) else none
  else (E.assetNullDataFromScript out.scriptPubKey).bind fun (data, address) =>
    if isAssetNameAQualifier data.asset_name then
      some (if data.flag = 1 then .addTag (address, data.asset_name) else .removeTag (address, data.asset_name))
    else none

def Env.changes (E : Env) (tx : CTransaction) : List Change := tx.vout.filterMap E.changeOf

namespace CTxMemPool

variable {E : Env} {pool : CTxMemPool} {hash : Uint256}

def tracks (pool : CTxMemPool) : Change → Bool
  | .freeze name => pool.globalFreezing.contains name
  | .unfreeze name => pool.globalUnFreezing.contains name
  | .addTag tag => pool.addressAddedTag.contains tag
  | .removeTag tag => pool.addressRemoveTag.contains tag

def trackChange (pool : CTxMemPool) (hash : Uint256) : Change → CTxMemPool
  | .freeze name => { pool with globalFreezing := pool.globalFreezing.track name hash }
  | .unfreeze name => { pool with globalUnFreezing := pool.globalUnFreezing.track name hash }
  | .addTag tag => { pool with addressAddedTag := pool.addressAddedTag.track tag hash }
  | .removeTag tag => { pool with addressRemoveTag := pool.addressRemoveTag.track tag hash }

def recordAsset (E : Env) (hash : Uint256) (pool : CTxMemPool) (out : CTxOut) : CTxMemPool :=
  (E.getAssetData out.scriptPubKey).elim pool (pool.recordAssetOutput E hash)

theorem tracks_trackChange (ch ch' : Change) : (pool.trackChange hash ch).tracks ch' = (ch' == ch || pool.tracks ch') := by
  rw [Bool.eq_iff_iff, Bool.or_eq_true, beq_iff_eq]
  cases ch <;> cases ch' <;> simp [tracks, trackChange, TwoWay.contains_track]

theorem tracks_recordAsset (out : CTxOut) (ch : Change) : (recordAsset E hash pool out).tracks ch = pool.tracks ch := by
  unfold recordAsset
  cases E.getAssetData out.scriptPubKey with
  | none => rfl
  | some data =>
    simp only [elim_some, recordAssetOutput]
    split <;> split <;> cases ch <;> rfl

def refusal : Change → Reject
  | .freeze _ => ⟨0, "bad-txns-global-freeze-already-in-mempool"⟩
  | .unfreeze _ => ⟨0, "bad-txns-global-unfreeze-already-in-mempool"⟩
  | .addTag _ => ⟨0, "bad-txns-adding-tag-already-in-mempool"⟩
  | .removeTag _ => ⟨0, "bad-txns-remove-tag-already-in-mempool"⟩

theorem require_not_bind {b : Bool} {e : Reject} {α : Type} {x : α} :
    (do require (!b) e; return x) = if b then Except.error e else Except.ok x := by
  cases b <;> rfl

theorem recordOutput_eq (E : Env) (pool : CTxMemPool) (hash : Uint256) (out : CTxOut) :
    pool.recordOutput E hash out = (E.changeOf out).elim (.ok (recordAsset E hash pool out)) fun ch =>
      if pool.tracks ch then .error (refusal ch) else .ok (pool.trackChange hash ch) := by
  unfold recordOutput changeOf recordAsset
  split
  · cases E.getAssetData out.scriptPubKey <;> rfl
  rename_i hasset
  rw [getAssetData_eq_none (by simpa using hasset)]
  split
  · cases globalAssetNullDataFromScript out.scriptPubKey with
    | none => rfl
    | some data =>
      simp only [bind_some]
      split
      · exact require_not_bind
      · split
        · exact require_not_bind
        · rfl
  · cases hdata : E.assetNullDataFromScript out.scriptPubKey with
    | none => split <;> rfl
    | some entry =>
      obtain ⟨data, address⟩ := entry
      rw [if_pos (isNullAssetTxDataScript_of_read hdata)]
      simp only [bind_some]
      split
      · split <;> exact require_not_bind
      · rfl

def record (E : Env) (hash : Uint256) (pool : CTxMemPool) (out : CTxOut) : CTxMemPool :=
  (E.changeOf out).elim (recordAsset E hash pool out) (pool.trackChange hash)

theorem recordOutputs_spec (E : Env) (hash : Uint256) (outs : List CTxOut) (pool : CTxMemPool) :
    ∃ done rest, outs = done ++ rest ∧ (recordOutputs E hash outs pool).2 = done.foldl (record E hash) pool ∧
      ((recordOutputs E hash outs pool).1 = .ok () → rest = []) := by
  induction outs generalizing pool with
  | nil => exact ⟨[], [], rfl, rfl, fun _ => rfl⟩
  | cons out outs ih =>
    obtain ⟨done, rest, hsplit, hpool, hrest⟩ := ih (record E hash pool out)
    have hgo : ∃ done' rest', out :: outs = done' ++ rest' ∧
        (recordOutputs E hash outs (record E hash pool out)).2 = done'.foldl (record E hash) pool ∧
        ((recordOutputs E hash outs (record E hash pool out)).1 = .ok () → rest' = []) :=
      ⟨out :: done, rest, by rw [hsplit]; rfl, hpool, hrest⟩
    rw [recordOutputs, recordOutput_eq]
    cases hch : E.changeOf out with
    | none => rwa [record, hch] at hgo
    | some ch =>
      rw [record, hch] at hgo
      cases htracks : pool.tracks ch with
      | true => exact ⟨[], out :: outs, rfl, by rw [elim_some, if_pos htracks]; rfl, by rw [elim_some, if_pos htracks]; exact nofun⟩
      | false => rwa [elim_some, if_neg (by rw [htracks]; exact Bool.false_ne_true)]

/-- The loop fails exactly at a change tracked already, if nothing changes twice. -/
theorem recordOutputs_ok_iff (hash : Uint256) (pool : CTxMemPool) {outs} (hnodup : (outs.filterMap E.changeOf).Nodup) :
    (recordOutputs E hash outs pool).1 = .ok () ↔ ∀ ch ∈ outs.filterMap E.changeOf, pool.tracks ch = false := by
  induction outs generalizing pool with
  | nil => simp [recordOutputs]
  | cons out outs ih =>
    rw [recordOutputs, recordOutput_eq]
    cases hch : E.changeOf out with
    | none =>
      rw [filterMap_cons_none hch] at hnodup ⊢
      simp only [elim_none]
      rw [ih _ hnodup]
      exact forall₂_congr fun ch _ => by rw [tracks_recordAsset]
    | some ch =>
      rw [filterMap_cons_some hch] at hnodup ⊢
      obtain ⟨hfresh, hnodup⟩ := nodup_cons.1 hnodup
      cases htracks : pool.tracks ch with
      | true =>
        rw [elim_some, if_pos htracks]
        refine ⟨fun h => ?_, fun h => ?_⟩
        · cases h
        · rw [h ch mem_cons_self] at htracks
          cases htracks
      | false =>
        simp only [elim_some, htracks, test_iff]
        rw [ih _ hnodup]
        have hother : ∀ ch' ∈ outs.filterMap E.changeOf, (pool.trackChange hash ch).tracks ch' = pool.tracks ch' := by
          intro ch' hmem
          rw [tracks_trackChange, beq_eq_false_iff_ne.2 fun (heq : ch' = ch) => hfresh (heq ▸ hmem), Bool.false_or]
        constructor
        · intro h ch' hmem
          rcases mem_cons.1 hmem with rfl | hmem
          · exact htracks
          · rw [← hother ch' hmem]
            exact h ch' hmem
        · intro h ch' hmem
          rw [hother ch' hmem]
          exact h ch' (mem_cons_of_mem _ hmem)

end CTxMemPool

/-- The loop of `CheckTransaction` has seen the change. -/
def OutputScan.Seen (st : OutputScan) : Change → Prop
  | .freeze name | .unfreeze name => name ∈ st.setNullGlobalAssetChanges
  | .addTag (address, name) | .removeTag (address, name) => (name, address) ∈ st.mapNullDataTxCount

variable {E : Env} {flags : CheckFlags} {st st' : OutputScan} {out : CTxOut} {ch : Change}

theorem changeOf_cases (h : E.changeOf out = some ch) :
    (∃ data, globalAssetNullDataFromScript out.scriptPubKey = some data ∧ (ch = .freeze data.asset_name ∨ ch = .unfreeze data.asset_name)) ∨
    ∃ data address, E.assetNullDataFromScript out.scriptPubKey = some (data, address) ∧
      (ch = .addTag (address, data.asset_name) ∨ ch = .removeTag (address, data.asset_name)) := by
  unfold changeOf at h
  split at h
  · cases h
  split at h
  · obtain ⟨data, hdata, h⟩ := bind_eq_some_iff.1 h
    refine Or.inl ⟨data, hdata, ?_⟩
    split at h
    · exact Or.inl (Option.some.inj h).symm
    split at h
    · exact Or.inr (Option.some.inj h).symm
    · cases h
  · obtain ⟨⟨data, address⟩, hdata, h⟩ := bind_eq_some_iff.1 h
    refine Or.inr ⟨data, address, hdata, ?_⟩
    simp only at h
    split at h
    · have heq := (Option.some.inj h).symm
      split at heq
      · exact Or.inl heq
      · exact Or.inr heq
    · cases h

theorem scanOut_seen (h : E.scanOut flags st out = .ok st') (hseen : st.Seen ch) : st'.Seen ch := by
  have hnotes := scanOut_notes h
  cases ch with
  | freeze name => exact hnotes.globals name hseen
  | unfreeze name => exact hnotes.globals name hseen
  | addTag tag => exact hnotes.data _ hseen
  | removeTag tag => exact hnotes.data _ hseen

theorem scanOut_sees (h : E.scanOut flags st out = .ok st') (hch : E.changeOf out = some ch) : st'.Seen ch := by
  have hnotes := scanOut_notes h
  rcases changeOf_cases hch with ⟨data, hdata, rfl | rfl⟩ | ⟨data, address, hdata, rfl | rfl⟩
  · exact hnotes.newGlobal data hdata
  · exact hnotes.newGlobal data hdata
  · exact hnotes.newData data address hdata
  · exact hnotes.newData data address hdata

theorem scanOut_fresh (h : E.scanOut flags st out = .ok st') (hch : E.changeOf out = some ch) : ¬ st.Seen ch := by
  simp only [scanOut, bind_eq_ok] at h
  obtain ⟨st1, hvalue, st2, hnull, -⟩ := h
  obtain ⟨hdata1, hglobal1, -⟩ := scanValue_ok hvalue
  unfold scanNullAsset at hnull
  rcases changeOf_cases hch with ⟨data, hdata, hch⟩ | ⟨data, address, hdata, hch⟩
  · obtain ⟨hglobal, hno⟩ := isNullGlobal_of_read hdata
    rw [if_neg (by rw [hno]; exact Bool.false_ne_true), if_pos hglobal] at hnull
    simp only [scanNullGlobal, hdata, ok_iff, some.injEq, Bool.not_eq_true', exists_eq_left', contains_eq_mem,
      decide_eq_false_iff_not] at hnull
    rw [hglobal1] at hnull
    rcases hch with rfl | rfl
    · exact hnull.2.1
    · exact hnull.2.1
  · rw [if_pos (isNullAssetTxDataScript_of_read hdata)] at hnull
    simp only [scanNullAssetTxData, hdata, ok_iff, some.injEq, Bool.not_eq_true', exists_eq_left', contains_eq_mem,
      decide_eq_false_iff_not] at hnull
    rw [hdata1] at hnull
    rcases hch with rfl | rfl
    · exact hnull.2.1
    · exact hnull.2.1

theorem scan_changes_nodup {outs : List CTxOut} (h : outs.foldlM (E.scanOut flags) st = .ok st') :
    (outs.filterMap E.changeOf).Nodup ∧ ∀ ch ∈ outs.filterMap E.changeOf, ¬ st.Seen ch := by
  induction outs generalizing st with
  | nil => exact ⟨nodup_nil, nofun⟩
  | cons out outs ih =>
    obtain ⟨st1, hout, houts⟩ := foldlM_cons_ok.mp h
    obtain ⟨hnodup, hfresh⟩ := ih houts
    have hrest : ∀ ch ∈ outs.filterMap E.changeOf, ¬ st.Seen ch := fun ch hmem hseen => hfresh ch hmem (scanOut_seen hout hseen)
    cases hch : E.changeOf out with
    | none =>
      rw [filterMap_cons_none hch]
      exact ⟨hnodup, hrest⟩
    | some ch =>
      rw [filterMap_cons_some hch]
      refine ⟨nodup_cons.2 ⟨fun hmem => hfresh ch hmem (scanOut_sees hout hch), hnodup⟩, fun ch' hmem => ?_⟩
      rcases mem_cons.1 hmem with rfl | hmem
      · exact scanOut_fresh hout hch
      · exact hrest ch' hmem

theorem checkTransaction_changes {tx} (h : E.checkTransaction flags tx = .ok ()) : (E.changes tx).Nodup := by
  simp only [checkTransaction, ok_iff] at h
  obtain ⟨-, -, -, scan, hscan, -⟩ := h
  exact (scan_changes_nodup hscan).1

end Hivecoin

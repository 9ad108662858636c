import Hivecoin.Assets.VerifierFormula
import Hivecoin.Tx.Authority
import Hivecoin.Chain.Lemmas.NullData

/-!
# Authority over tags and freezes

Each change needs a spent token. The name of a freeze is not looked up, that of a global freeze not even parsed.
-/

namespace Hivecoin

open Outcome CAssetsCache Script Env

variable {st st' : OutputScan} {txout : CTxOut}

/-- The asset is in the state, pending changes included. -/
def AssetExists (E : Env) (S : Store) (c : CAssetsCache) (name : Bytes) : Prop :=
  (getAssetMetaDataIfExists E S c name).isSome = true

/-- Tags come with a coin of the qualifier, freezes with the owner token, under existing names. -/
structure NullDataAuthorised (E : Env) (S : Store) (c : CAssetsCache) (view : CoinsView) (tx : CTransaction) :
    Prop where
  address : ∀ out ∈ tx.vout, ∀ data address, E.assetNullDataFromScript out.scriptPubKey = some (data, address) →
    AssetExists E S c data.asset_name ∧
      ((IsTag data.asset_name ∧ Spends E view tx data.asset_name) ∨
        (assetTypeOf data.asset_name = .RESTRICTED ∧ Spends E view tx (data.asset_name.drop 1 ++ OWNER_TAG)))
  global : ∀ out ∈ tx.vout, ∀ data, globalAssetNullDataFromScript out.scriptPubKey = some data →
    AssetExists E S c data.asset_name ∧ assetTypeOf data.asset_name = .RESTRICTED ∧
      Spends E view tx (data.asset_name.drop 1 ++ OWNER_TAG)

/-- What is frozen or unfrozen is a restricted asset that exists. -/
structure FreezesExisting (E : Env) (S : Store) (c : CAssetsCache) (tx : CTransaction) : Prop where
  address : ∀ out ∈ tx.vout, ∀ data address, E.assetNullDataFromScript out.scriptPubKey = some (data, address) →
    assetTypeOf data.asset_name = .RESTRICTED → AssetExists E S c data.asset_name
  global : ∀ out ∈ tx.vout, ∀ data, globalAssetNullDataFromScript out.scriptPubKey = some data →
    assetTypeOf data.asset_name = .RESTRICTED ∧ AssetExists E S c data.asset_name

variable {E : Env} {S : Store} {c : CAssetsCache} {view : CoinsView} {mempool : MempoolMaps}
variable {tx : CTransaction} {flags : CheckFlags}

/-- The change that an output asks for is noted, and what was noted stays. -/
structure Notes (E : Env) (txout : CTxOut) (st st' : OutputScan) : Prop where
  data : ∀ p ∈ st.mapNullDataTxCount, p ∈ st'.mapNullDataTxCount
  globals : ∀ n ∈ st.setNullGlobalAssetChanges, n ∈ st'.setNullGlobalAssetChanges
  newData : ∀ data address, E.assetNullDataFromScript txout.scriptPubKey = some (data, address) →
    (data.asset_name, address) ∈ st'.mapNullDataTxCount
  newGlobal : ∀ data, globalAssetNullDataFromScript txout.scriptPubKey = some data →
    data.asset_name ∈ st'.setNullGlobalAssetChanges
  names : ∀ n ∈ st'.setAssetTransferNames, n ∈ st.setAssetTransferNames ∨
    ∃ transfer address, E.transferAssetFromScript txout.scriptPubKey = some (transfer, address) ∧ transfer.strName = n

theorem isNullAssetTxDataScript_of_read {script r}
    (h : E.assetNullDataFromScript script = some r) : isNullAssetTxDataScript script = true := by
  by_contra hno
  simp [assetNullDataFromScript, hno] at h

theorem isNullGlobal_of_read {script data}
    (h : globalAssetNullDataFromScript script = some data) :
    isNullGlobalRestrictionAssetTxDataScript script = true ∧ isNullAssetTxDataScript script = false := by
  simp only [globalAssetNullDataFromScript, Option.ite_none_right_eq_some] at h
  refine ⟨h.1, ?_⟩
  have hsecond := h.1
  simp only [isNullGlobalRestrictionAssetTxDataScript, test_iff] at hsecond
  simp [isNullAssetTxDataScript, hsecond.1.2, OP_RESERVED]

theorem scanValue_ok {nValue} (h : scanValue st nValue = .ok st') :
    st'.mapNullDataTxCount = st.mapNullDataTxCount ∧ st'.setNullGlobalAssetChanges = st.setNullGlobalAssetChanges ∧
      st'.setAssetTransferNames = st.setAssetTransferNames := by
  simp only [scanValue, ok_iff] at h
  obtain ⟨-, -, -, rfl⟩ := h
  exact ⟨rfl, rfl, rfl⟩

theorem scanNullAsset_ok (h : E.scanNullAsset st txout = .ok st') :
    Notes E txout st st' ∧ st'.setAssetTransferNames = st.setAssetTransferNames := by
  unfold scanNullAsset at h
  split at h
  · rename_i hd
    simp only [scanNullAssetTxData, ok_iff] at h
    obtain ⟨⟨data, address⟩, hdata, -, -, rfl⟩ := h
    refine ⟨⟨fun p hp => mem_insertSorted.2 (Or.inr hp), fun n hn => hn, ?_, ?_, fun n hn => Or.inl hn⟩, rfl⟩
    · intro data' address' hdata'
      cases hdata.symm.trans hdata'
      exact mem_insertSorted.2 (Or.inl rfl)
    · intro data' hglobal
      rw [(isNullGlobal_of_read hglobal).2] at hd
      cases hd
  rename_i hd
  have hnodata : ∀ data address, E.assetNullDataFromScript txout.scriptPubKey ≠ some (data, address) :=
    fun _ _ hdata => hd (isNullAssetTxDataScript_of_read hdata)
  split at h
  · simp only [scanNullGlobal, ok_iff] at h
    obtain ⟨data, hdata, -, -, rfl⟩ := h
    refine ⟨⟨fun p hp => hp, fun n hn => mem_insertSorted.2 (Or.inr hn), fun d a hda => absurd hda (hnodata d a), ?_,
      fun n hn => Or.inl hn⟩, rfl⟩
    intro data' hglobal
    cases hdata.symm.trans hglobal
    exact mem_insertSorted.2 (Or.inl rfl)
  rename_i hg
  have hnoglobal : ∀ data, globalAssetNullDataFromScript txout.scriptPubKey ≠ some data :=
    fun _ hdata => hg (isNullGlobal_of_read hdata).1
  have hsame : st'.mapNullDataTxCount = st.mapNullDataTxCount ∧
      st'.setNullGlobalAssetChanges = st.setNullGlobalAssetChanges ∧
      st'.setAssetTransferNames = st.setAssetTransferNames := by
    split at h
    · simp only [scanNullVerifier, ok_iff] at h
      obtain ⟨-, -, rfl⟩ := h
      exact ⟨rfl, rfl, rfl⟩
    · cases h
      exact ⟨rfl, rfl, rfl⟩
  obtain ⟨h1, h2, h3⟩ := hsame
  exact ⟨⟨fun p hp => h1 ▸ hp, fun n hn => h2 ▸ hn, fun d a hda => absurd hda (hnodata d a),
    fun d hdg => absurd hdg (hnoglobal d), fun n hn => Or.inl (h3 ▸ hn)⟩, h3⟩

theorem scanAsset_ok (h : E.scanAsset flags st txout = .ok st') :
    st'.mapNullDataTxCount = st.mapNullDataTxCount ∧ st'.setNullGlobalAssetChanges = st.setNullGlobalAssetChanges ∧
      ∀ n ∈ st'.setAssetTransferNames, n ∈ st.setAssetTransferNames ∨
        ∃ transfer address, E.transferAssetFromScript txout.scriptPubKey = some (transfer, address) ∧
          transfer.strName = n := by
  unfold scanAsset at h
  split at h
  · cases h
    exact ⟨rfl, rfl, fun n hn => Or.inl hn⟩
  split at h
  · simp only [scanTransfer, ok_iff] at h
    obtain ⟨⟨transfer, address⟩, ht, _, -, -, -, -, -, rfl⟩ := h
    refine ⟨rfl, rfl, fun n hn => ?_⟩
    rcases mem_insertSorted.1 hn with rfl | hn
    · exact Or.inr ⟨transfer, address, ht, rfl⟩
    · exact Or.inl hn
  · simp only [ok_iff] at h
    obtain ⟨-, rfl⟩ := h
    exact ⟨rfl, rfl, fun n hn => Or.inl hn⟩
  · simp only [ok_iff] at h
    obtain ⟨-, -, rfl⟩ := h
    exact ⟨rfl, rfl, fun n hn => Or.inl hn⟩
  · cases h

theorem scanOut_notes (h : E.scanOut flags st txout = .ok st') : Notes E txout st st' := by
  simp only [scanOut, bind_eq_ok] at h
  obtain ⟨st1, hvalue, st2, hnull, hasset⟩ := h
  obtain ⟨hd, hg, hn⟩ := scanValue_ok hvalue
  obtain ⟨hnotes, hnames⟩ := scanNullAsset_ok hnull
  obtain ⟨hd', hg', hn'⟩ := scanAsset_ok hasset
  refine ⟨fun p hp => ?_, fun n hp => ?_, fun d a hda => ?_, fun d hda => ?_, fun n hp => ?_⟩
  · rw [hd']; exact hnotes.data p (hd ▸ hp)
  · rw [hg']; exact hnotes.globals n (hg ▸ hp)
  · rw [hd']; exact hnotes.newData d a hda
  · rw [hg']; exact hnotes.newGlobal d hda
  · rcases hn' n hp with h | h
    · rw [hnames, hn] at h; exact Or.inl h
    · exact Or.inr h

/-- What `CheckTransaction` has found: a transfer of the token of every change. -/
theorem checkTransaction_nullData (h : E.checkTransaction flags tx = .ok ()) {out} (hout : out ∈ tx.vout) :
    (∀ data address, E.assetNullDataFromScript out.scriptPubKey = some (data, address) →
      E.hasTransferOf tx (if data.asset_name.headD 0 = RESTRICTED_CHAR then data.asset_name.drop 1 ++ OWNER_TAG
        else data.asset_name) = true) ∧
    ∀ data, globalAssetNullDataFromScript out.scriptPubKey = some data →
      E.hasTransferOf tx (data.asset_name.drop 1 ++ OWNER_TAG) = true := by
  simp only [checkTransaction, bind_eq_ok, exists_unit] at h
  obtain ⟨-, -, -, scan, hscan, -, hauth, -⟩ := h
  have htransfer : ∀ n ∈ scan.setAssetTransferNames, E.hasTransferOf tx n = true := by
    refine foldlM_induct (fun st => ∀ n ∈ st.setAssetTransferNames, E.hasTransferOf tx n = true) hscan
      (fun n hn => by cases hn) fun st txout st' hmem hstep ih n hn => ?_
    rcases (scanOut_notes hstep).names n hn with hold | ⟨transfer, address, ht, rfl⟩
    · exact ih n hold
    · exact hasTransferOf_iff.2 ⟨transfer.nAmount, List.mem_filterMap.2 ⟨txout, hmem, by simp [transferOfOut, ht]⟩⟩
  simp only [checkNullDataAuthority, bind_eq_ok, exists_unit, forM_eq_ok] at hauth
  obtain ⟨hdata, hglobal⟩ := hauth
  constructor
  · intro data address hd
    have hmem : (data.asset_name, address) ∈ scan.mapNullDataTxCount :=
      foldlM_reach (fun st => (data.asset_name, address) ∈ st.mapNullDataTxCount) hscan hout
        (fun _ _ hstep => (scanOut_notes hstep).newData data address hd)
        fun _ _ _ _ hstep hst => (scanOut_notes hstep).data _ hst
    have hreq := hdata _ hmem
    split at hreq
    · rename_i hchar
      rw [if_pos hchar]
      exact htransfer _ (by simpa [require_eq_ok] using hreq)
    · rename_i hchar
      rw [if_neg hchar]
      exact htransfer _ (by simpa [require_eq_ok] using hreq)
  · intro data hd
    have hmem : data.asset_name ∈ scan.setNullGlobalAssetChanges :=
      foldlM_reach (fun st => data.asset_name ∈ st.setNullGlobalAssetChanges) hscan hout
        (fun _ _ hstep => (scanOut_notes hstep).newGlobal data hd)
        fun _ _ _ _ hstep hst => (scanOut_notes hstep).globals _ hst
    have hreq := hglobal _ hmem
    simp only [require_eq_ok] at hreq
    exact htransfer _ (by simpa using hreq.2)

theorem exists_of_hasTransferOf {fCheckMempool v}
    (h : checkTxAssets E S c view mempool fCheckMempool false tx = .ok v) {token}
    (ht : E.hasTransferOf tx token = true) (howner : isAssetNameAnOwner token = false) : AssetExists E S c token := by
  simp only [checkTxAssets, ok_iff] at h
  obtain ⟨-, _, -, _, hout, -⟩ := h
  obtain ⟨nAmount, hpair⟩ := hasTransferOf_iff.1 ht
  obtain ⟨out, hmem, hof⟩ := List.mem_filterMap.1 hpair
  obtain ⟨⟨transfer, address⟩, htransfer, heq⟩ := Option.map_eq_some_iff.1 hof
  obtain ⟨rfl, rfl⟩ := Prod.mk.inj heq
  obtain ⟨_, _, hstep⟩ := foldlM_step hout hmem
  simp only [addOutput, ok_iff] at hstep
  obtain ⟨-, -, hstep⟩ := hstep
  split at hstep
  · obtain ⟨transfer', _, ht', -, hunits, -⟩ := addTransferOutput_ok hstep
    cases htransfer.symm.trans ht'
    have hunits := hunits rfl
    rw [checkTransferUnits, if_neg (by simp [howner])] at hunits
    simp only [ok_iff] at hunits
    obtain ⟨data, hdata, -⟩ := hunits
    rw [AssetExists, hdata]
    rfl
  · rename_i hr
    rw [transferAssetFromScript_eq_none (by rw [hr]; simp)] at htransfer
    cases htransfer
  · rename_i hno _
    rw [transferAssetFromScript_eq_none hno] at htransfer
    cases htransfer

theorem tag_head {name} (h : IsTag name) : ∃ rest, name = QUALIFIER_CHAR :: rest := by
  rcases h with h | h
  · obtain ⟨rest, rfl, -⟩ := markedName_eq (qualifier_shape h).1
    exact ⟨rest, rfl⟩
  · have hs := (subQualifier_shape h).1
    unfold SUB_QUALIFIER_INDICATOR at hs
    split at hs
    · rename_i c rest
      simp only [test_iff] at hs
      exact ⟨rest, by rw [hs.1.1]⟩
    · cases hs

theorem not_owner_of_tag {name} (h : IsTag name) : isAssetNameAnOwner name = false := by
  obtain ⟨rest, rfl⟩ := tag_head h
  have howner := (@not_tagged (QUALIFIER_CHAR :: rest) (Or.inl (by
    rw [List.takeWhile_cons, if_neg (by decide)]))).2
  simp [isAssetNameAnOwner, howner]

theorem nullDataAuthorised_iff_freezesExisting (E : Env) (S : Store) (c : CAssetsCache) (view : CoinsView)
    (mempool : MempoolMaps) (flags : CheckFlags) (fCheckMempool : Bool) (tx : CTransaction)
    (v : List (Bytes × Uint256)) (htx : E.checkTransaction flags tx = .ok ())
    (hassets : checkTxAssets E S c view mempool fCheckMempool false tx = .ok v) :
    NullDataAuthorised E S c view tx ↔ FreezesExisting E S c tx := by
  have hspend := fun token => (spends_iff_hasTransferOf hassets token).2
  constructor
  · intro h
    refine ⟨fun out hout data address hd _ => (h.address out hout data address hd).1, fun out hout data hd => ?_⟩
    exact ⟨(h.global out hout data hd).2.1, (h.global out hout data hd).1⟩
  · intro h
    refine ⟨fun out hout data address hd => ?_, fun out hout data hd => ?_⟩
    · have htoken := (checkTransaction_nullData htx hout).1 data address hd
      have hkind : IsTag data.asset_name ∨ assetTypeOf data.asset_name = .RESTRICTED := by
        have hcheck := checkTxAssets_nullOutputs hassets out hout
        have hnull := isNullAssetTxDataScript_of_read hd
        simp only [checkNullAssetOutput, isNullAsset, hnull, Bool.true_or, if_true, ok_iff, Check.orReject,
          contextualCheckNullAssetTxOut, hd] at hcheck
        obtain ⟨-, _, ⟨⟩, hcheck⟩ := hcheck
        split at hcheck
        · exact Or.inl (isTag_of_isAssetNameAQualifier ‹_›)
        split at hcheck
        · exact Or.inr (restricted_of_isAssetNameAnRestricted ‹_›)
        · cases hcheck
      rcases hkind with htag | hres
      · have hhead : data.asset_name.headD 0 ≠ RESTRICTED_CHAR := by
          obtain ⟨rest, hrest⟩ := tag_head htag
          rw [hrest]
          exact show QUALIFIER_CHAR ≠ RESTRICTED_CHAR by decide
        rw [if_neg hhead] at htoken
        exact ⟨exists_of_hasTransferOf hassets htoken (not_owner_of_tag htag), Or.inl ⟨htag, hspend _ htoken⟩⟩
      · have hhead : data.asset_name.headD 0 = RESTRICTED_CHAR := by
          obtain ⟨rest, hrest, -⟩ := markedName_eq (restrictedIndicator_of_valid (isAssetNameValid_eq hres (by decide)))
          rw [hrest]
          rfl
        rw [if_pos hhead] at htoken
        exact ⟨h.address out hout data address hd hres, Or.inr ⟨hres, hspend _ htoken⟩⟩
    · obtain ⟨hres, hexists⟩ := h.global out hout data hd
      exact ⟨hexists, hres, hspend _ ((checkTransaction_nullData htx hout).2 data hd)⟩

namespace Regtest

/-- Freezes all holders of a name that is no asset and cannot be one. -/
def freezeNothing : CTransaction :=
  ⟨[⟨⟨1, 1⟩, []⟩], [ownerGoldOut, ⟨0, globalRestrictionScript ⟨ascii "?GOLD", 1⟩⟩], 2⟩

theorem freezeNothing_accepted :
    env.checkTransaction {} freezeNothing = .ok () ∧
      checkTxAssets env goldStore ∅ ownerView ⟨∅, ∅⟩ false false freezeNothing = .ok [] ∧
      isAssetNameValid (ascii "?GOLD") ≠ .ok .RESTRICTED ∧
      ¬ NullDataAuthorised env goldStore ∅ ownerView freezeNothing := by
  refine ⟨by decide +kernel, by decide +kernel, by decide +kernel, fun h => ?_⟩
  have hname := (h.global ⟨0, globalRestrictionScript ⟨ascii "?GOLD", 1⟩⟩ (by simp [freezeNothing])
    ⟨ascii "?GOLD", 1⟩ (by decide +kernel)).2.1
  exact absurd hname (by decide +kernel)

/-- `GOLD` with a restricted asset beside it. -/
def restrictedGoldStore : Store :=
  { goldStore with
    assetData := goldStore.assetData.insert (ascii "$GOLD") ⟨⟨ascii "$GOLD", 1000, 8, 1, 0, []⟩, 3, 0⟩ }

def freezeBob : CTransaction :=
  ⟨[⟨⟨1, 1⟩, []⟩], [ownerGoldOut, ⟨0, nullAssetTxDataScript bob ⟨ascii "$GOLD", 1⟩⟩], 2⟩

theorem freezeBob_authorised_iff :
    NullDataAuthorised env restrictedGoldStore ∅ ownerView freezeBob ↔
      FreezesExisting env restrictedGoldStore ∅ freezeBob :=
  nullDataAuthorised_iff_freezesExisting env restrictedGoldStore ∅ ownerView ⟨∅, ∅⟩ {} false freezeBob []
    (by decide +kernel) (by decide +kernel)

end Regtest

end Hivecoin

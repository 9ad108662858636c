import Hivecoin.Chain.UnitConsistency
import Hivecoin.Tx.Authority

/-!
# Asset coins can be read when they are spent

What was readable when it was created is readable when it is spent, also before the rule on script sizes.
-/

namespace Hivecoin

open Outcome CAssetsCache CoinsView List Option Env Script

variable {E E' : Env} {S : Store} {R : Rules} {tx : CTransaction} {coin : Coin} {flags : CheckFlags}
variable {view : CoinsView} {mempool : MempoolMaps} {st : ConnectState}

theorem spentAsset_eq (E : Env) (s : Bytes) : spentAsset E s =
    (E.getAssetData s).map fun data => (data.assetName, E.encodeDestination data.destination, data.nAmount) := by
  have hdest : ∀ {a address}, isAssetScript s = some a → E.scriptAddress s = address →
      E.encodeDestination (E.decodeDestination address) = address := by
    rintro a _ h rfl
    rw [decodeDestination_asset h, scriptAddress_asset h]
  unfold spentAsset getAssetData
  cases hs : isAssetScript s with
  | none => rfl
  | some a =>
    obtain ⟨t, o, i⟩ := a
    cases t with
    | TX_NEW_ASSET =>
      cases o with
      | false =>
        cases hread : E.assetFromScript s with
        | none => rfl
        | some issue =>
          obtain ⟨-, -, -, haddress⟩ := assetFromScript_eq_some.mp hread
          simp [hdest hs haddress]
      | true =>
        cases hread : E.ownerAssetFromScript s with
        | none => rfl
        | some owner =>
          obtain ⟨-, -, -, haddress⟩ := ownerAssetFromScript_eq_some.mp hread
          simp [hdest hs haddress]
    | TX_TRANSFER_ASSET =>
      cases hread : E.transferAssetFromScript s with
      | none => rfl
      | some transfer =>
        obtain ⟨-, -, -, -, haddress⟩ := transferAssetFromScript_eq_some.mp hread
        simp [hdest hs haddress]
    | TX_REISSUE_ASSET =>
      cases hread : E.reissueAssetFromScript s with
      | none => rfl
      | some reissue =>
        obtain ⟨-, -, -, -, haddress⟩ := reissueAssetFromScript_eq_some.mp hread
        simp [hdest hs haddress]
    | _ => rfl

/-- The name of the coin is there and is no longer than names can be. -/
def CoinReadable (E : Env) (coin : Coin) : Prop :=
  (isAssetScript coin.out.scriptPubKey).isSome → ∃ e, assetOfCoin E coin = some e ∧ e.1 ≠ [] ∧ e.1.length < 116

theorem assetOfCoin_deployed (h : E.areTransferScriptsSizeDeployed = true) (coin : Coin) :
    assetOfCoin E coin = carriedAsset coin.out.scriptPubKey := by
  unfold assetOfCoin getAssetData carriedAsset assetFromScript reissueAssetFromScript
    ownerAssetFromScript transferAssetFromScript isScriptNewAsset isScriptReissueAsset isScriptOwnerAsset
    isScriptTransferAsset
  cases hs : isAssetScript coin.out.scriptPubKey with
  | none => rfl
  | some a =>
    obtain ⟨t, o, i⟩ := a
    cases t <;> cases o <;> simp [h, map_eq_bind, bind_assoc]

theorem assetOfCoin_congr (h : E.areTransferScriptsSizeDeployed = E'.areTransferScriptsSizeDeployed) (coin : Coin) :
    assetOfCoin E coin = assetOfCoin E' coin := by
  unfold assetOfCoin getAssetData assetFromScript reissueAssetFromScript
    ownerAssetFromScript transferAssetFromScript isScriptNewAsset isScriptReissueAsset isScriptOwnerAsset
    isScriptTransferAsset
  cases hs : isAssetScript coin.out.scriptPubKey with
  | none => rfl
  | some a =>
    obtain ⟨t, o, i⟩ := a
    cases t <;> cases o <;> simp [h, map_eq_bind, bind_assoc]

/-- A coin stays readable when the rule on script sizes comes into force. -/
theorem CoinReadable.later (h : CoinReadable E coin)
    (hrule : E.areTransferScriptsSizeDeployed = true → E'.areTransferScriptsSizeDeployed = true) : CoinReadable E' coin := by
  intro hscript
  obtain ⟨e, he, hne, hlen⟩ := h hscript
  refine ⟨e, ?_, hne, hlen⟩
  cases hE' : E'.areTransferScriptsSizeDeployed with
  | true =>
    rw [assetOfCoin_deployed hE']
    exact (assetOfCoin_cases he).resolve_right (by omega)
  | false =>
    have hE : E.areTransferScriptsSizeDeployed = false := by
      rw [Bool.eq_false_iff]
      intro hE
      rw [hrule hE] at hE'
      cases hE'
    rw [← he]
    exact assetOfCoin_congr (hE'.trans hE.symm) coin

theorem assetOfCoin_of_type {a} (hs : isAssetScript coin.out.scriptPubKey = some a) :
    assetOfCoin E coin = match a.nType, a.fIsOwner with
      | .TX_NEW_ASSET, false => issuedOfOut E coin.out
      | .TX_NEW_ASSET, true => ownerOfOut E coin.out
      | .TX_TRANSFER_ASSET, _ => transferOfOut E coin.out
      | .TX_REISSUE_ASSET, _ => reissuedOfOut E coin.out
      | _, _ => none := by
  obtain ⟨t, o, i⟩ := a
  unfold assetOfCoin getAssetData
  rw [hs]
  cases t <;> cases o <;> first
    | rfl
    | (simp only [issuedOfOut, ownerOfOut, transferOfOut, reissuedOfOut, map_eq_bind, bind_eq_bind,
        bind_assoc]; rfl)

theorem CheckedTx.transfer (h : CheckedTx E flags tx) {out} (hout : out ∈ tx.vout) {b i}
    (hs : isAssetScript out.scriptPubKey = some ⟨.TX_TRANSFER_ASSET, b, i⟩) :
    ∃ transfer address, E.transferAssetFromScript out.scriptPubKey = some (transfer, address) ∧
      nameValid transfer.strName = true := by
  obtain ⟨st, st', hscan⟩ := h.outs out hout
  simp only [scanOut, scanAsset, hs, scanTransfer, ok_iff, Prod.exists] at hscan
  obtain ⟨_, -, _, -, transfer, address, hread, type, hname, -⟩ := hscan
  exact ⟨transfer, address, hread, nameValid_iff.mpr ⟨type, hname⟩⟩

theorem transferOutputs_valid (h : CheckedTx E flags tx) {e} (he : e ∈ transferOutputs E tx) :
    nameValid e.1 = true := by
  obtain ⟨out, hout, hof⟩ := mem_filterMap.mp he
  obtain ⟨⟨transfer, address⟩, hread, rfl⟩ := map_eq_some_iff.mp hof
  obtain ⟨i, b, hs, -⟩ := transferAssetFromScript_eq_some.mp hread
  obtain ⟨transfer', address', hread', hvalid⟩ := h.transfer hout hs
  rw [hread, some.injEq, Prod.mk.injEq] at hread'
  exact hread'.1 ▸ hvalid

/-- Issued names are valid, reissued ones have an owner token with a valid name. -/
theorem kindEvents_name (h : CheckedTx E flags tx) {e} (he : e ∈ kindEvents E tx) :
    e.name ≠ [] ∧ e.name.length ≤ 40 := by
  have hvalid : ∀ {name : Bytes}, nameValid name = true → name ≠ [] ∧ name.length ≤ 40 := fun h => (nameValid_length h).symm
  cases checkKind_cases h.kind.choose_spec with
  | issue hn _ hread hasset =>
    simp only [kindEvents, hn, hread, if_true, issueEvents, Option.toList_some, List.map_cons, List.map_nil,
      List.mem_singleton] at he
    exact he ▸ hvalid (checkNewAsset_name hasset)
  | @reissue reissue address hn hr hverify hread _ =>
    simp only [verifyReissueAsset, ok_iff] at hverify
    obtain ⟨-, last, hlast, -, ⟨reissue', address'⟩, hlastRead, howner, -⟩ := hverify
    rw [reissueAssetFromTransaction, lastOutRead, if_pos hr, hlast, Option.bind_some, hlastRead,
      Option.some.injEq, Prod.mk.injEq] at hread
    obtain ⟨rfl, rfl⟩ := hread
    obtain ⟨nAmount, htoken⟩ := hasTransferOf_iff.mp howner
    have htoken : nameValid _ = true := transferOutputs_valid h htoken
    have hev : kindEvents E tx = [.reissue reissue' (newVerifier tx reissue'.strName)] := by
      simp [kindEvents, hn, hr, reissueAssetFromTransaction, lastOutRead, hlast, hlastRead]
    rw [hev, List.mem_singleton] at he
    subst he
    refine ⟨fun hnil => ?_, ?_⟩
    · rw [show reissue'.strName = [] from hnil] at htoken
      exact absurd (show nameValid OWNER_TAG = true from htoken) (by decide +kernel)
    · have hlen := (nameValid_length htoken).1
      change reissue'.strName.length ≤ 40
      rw [List.length_append, show OWNER_TAG.length = 1 from rfl] at hlen
      dsimp only at hlen
      split at hlen
      · rw [List.length_drop] at hlen
        omega
      · omega
  | unique hn hr hu hverify hassets =>
    simp only [kindEvents, hn, hr, hu, test_iff, issueEvents, uniqueIssues, List.mem_map, List.mem_filterMap, List.mem_filter] at he
    obtain ⟨issue, ⟨out, ⟨hout, hunique⟩, hread⟩, rfl⟩ := he
    obtain ⟨asset, address, hread', hasset⟩ := hassets out hout hunique
    rw [hread, Option.some.injEq] at hread'
    exact hvalid (checkNewAsset_name (hread' ▸ hasset))
  | msgChannel hn hr hu hm _ hread hasset =>
    simp only [kindEvents, hn, hr, hu, hm, hread, test_iff, issueEvents, Option.toList_some, List.map_cons, List.map_nil,
      List.mem_singleton] at he
    exact he ▸ hvalid (checkNewAsset_name hasset)
  | qualifier hn hr hu hm hq _ hread hasset =>
    simp only [kindEvents, hn, hr, hu, hm, hq, hread, test_iff, issueEvents, Option.toList_some, List.map_cons, List.map_nil,
      List.mem_singleton] at he
    exact he ▸ hvalid (checkNewAsset_name hasset)
  | restricted hn hr hu hm hq hre _ hread hasset =>
    simp only [kindEvents, hn, hr, hu, hm, hq, hre, hread, test_iff, Option.toList_some, List.map_cons, List.map_nil,
      List.mem_singleton] at he
    exact he ▸ hvalid (checkNewAsset_name hasset)
  | plain hn hr hu hm hq hre =>
    simp [kindEvents, hn, hr, hu, hm, hq, hre] at he

theorem CheckedTx.readable (h : CheckedTx E flags tx) (hout : coin.out ∈ tx.vout) : CoinReadable E coin := by
  intro hscript
  obtain ⟨⟨t, o, i⟩, hs⟩ := isSome_iff_exists.mp hscript
  have hkinds := checkKind_outputs h.kind.choose_spec
  have hnamed : ∀ e ∈ tx.vout.filterMap (mintedOfOut E), e.1 ≠ [] ∧ e.1.length < 116 := by
    intro e he
    rw [hkinds.minted] at he
    obtain ⟨event, hevent, rfl⟩ := mem_map.mp he
    have hname := kindEvents_name h hevent
    cases event <;> exact ⟨hname.1, by have := hname.2; exact Nat.lt_of_le_of_lt this (by decide)⟩
  rw [assetOfCoin_of_type hs]
  rcases isAssetScript_nType hs with ht | ht | ht
  · cases ht
    obtain ⟨transfer, address, hread, hvalid⟩ := h.transfer hout hs
    have hname := nameValid_length hvalid
    exact ⟨(transfer.strName, transfer.nAmount), by simp [transferOfOut, hread], hname.2, by dsimp only; omega⟩
  · cases ht
    cases o with
    | false =>
      have hissued : (issuedOfOut E coin.out).isSome :=
        @isSome_of_countP_le _ _ issues (issuedOfOut E) tx.vout (countOuts_issues tx.vout ▸ hkinds.allIssued.le)
          (fun _ => issues_of_issuedOfOut) _ hout (issues_iff.mpr ⟨i, hs⟩)
      obtain ⟨e, he⟩ := isSome_iff_exists.mp hissued
      exact ⟨e, he, hnamed e (mem_filterMap.mpr ⟨_, hout, by rw [mintedOfOut, he, some_or]⟩)⟩
    | true =>
      have hown : (ownerOfOut E coin.out).isSome :=
        @isSome_of_countP_le _ _ checkOwnerDataTx (ownerOfOut E) tx.vout (countOuts_owners tx.vout ▸ hkinds.allOwners.le)
          (fun _ => owners_of_ownerOfOut) _ hout (by simp [checkOwnerDataTx, isScriptOwnerAsset_eq_some.mpr hs])
      obtain ⟨e, he⟩ := isSome_iff_exists.mp hown
      have hmem : e ∈ tx.vout.filterMap (ownerOfOut E) := mem_filterMap.mpr ⟨_, hout, he⟩
      rw [hkinds.owners] at hmem
      split at hmem
      · obtain ⟨event, hevent, rfl⟩ := mem_map.mp hmem
        obtain ⟨hne, hlen⟩ := kindEvents_name h hevent
        refine ⟨_, he, append_ne_nil_of_left_ne_nil hne _, ?_⟩
        rw [length_append, show OWNER_TAG.length = 1 from rfl]
        omega
      · cases hmem
  · cases ht
    have hreissued : (reissuedOfOut E coin.out).isSome :=
      @isSome_of_countP_le _ _ checkReissueDataTx (reissuedOfOut E) tx.vout (countOuts_reissues tx.vout ▸ hkinds.allReissued.le)
        (fun _ => reissues_of_reissuedOfOut) _ hout (by simp [checkReissueDataTx, isScriptReissueAsset_eq_some.mpr ⟨o, hs⟩])
    obtain ⟨e, he⟩ := isSome_iff_exists.mp hreissued
    have hnone : issuedOfOut E coin.out = none := by simp [issuedOfOut, assetFromScript, isScriptNewAsset, hs]
    exact ⟨e, he, hnamed e (mem_filterMap.mpr ⟨_, hout, by rw [mintedOfOut, hnone, he, none_or]⟩)⟩

/-! ## Spending -/

/-- `GetAssetData` and `TrySpendCoin` read the same name and address. -/
def Decoded (E : Env) (script : Bytes) : Prop :=
  ∃ data, E.getAssetData script = some data ∧
    spentAsset E script = some (data.assetName, E.encodeDestination data.destination, data.nAmount) ∧
    data.assetName ≠ [] ∧ E.encodeDestination data.destination ≠ []

theorem CoinReadable.decoded (h : CoinReadable E coin) (hs : (isAssetScript coin.out.scriptPubKey).isSome) :
    Decoded E coin.out.scriptPubKey := by
  obtain ⟨e, he, hname, -⟩ := h hs
  obtain ⟨data, hdata, rfl⟩ := map_eq_some_iff.mp he
  refine ⟨data, hdata, by rw [spentAsset_eq, hdata, map_some], hname, ?_⟩
  obtain ⟨hscript, hdest⟩ := getAssetData_destination hdata
  obtain ⟨a, ha⟩ := isSome_iff_exists.mp hscript
  have hlength := (isAssetScript_marker ha).1
  rw [hdest]
  exact E.codec.encode_ne_nil _ (by simp; omega)

theorem CoinReadable.trySpendCoin (h : CoinReadable E coin) (S : Store) (c : CAssetsCache) :
    (trySpendCoin E S c coin.out).isSome := by
  unfold CAssetsCache.trySpendCoin
  split
  · rename_i hs
    obtain ⟨data, -, hspent, hname, haddress⟩ := h.decoded hs
    rw [hspent]
    dsimp only
    rw [if_pos ⟨haddress, hname⟩]
    rfl
  · rfl

def AllReadable (E : Env) (view : CoinsView) : Prop := ∀ out coin, view out = some coin → CoinReadable E coin

theorem spendCoin_spent (h : AllReadable E view) {out} (hcoin : view out = some coin) (S : Store) (c : CAssetsCache) : ∃ c', spendCoin E S view c out = ⟨true, some coin, view.remove out, c'⟩ := by
  obtain ⟨c', hc'⟩ := isSome_iff_exists.mp ((h out coin hcoin).trySpendCoin S c)
  unfold spendCoin
  rw [hcoin]
  dsimp only
  split
  · exact ⟨c', by rw [hc']⟩
  · exact ⟨c, rfl⟩

theorem AllReadable.remove (h : AllReadable E view) (out : COutPoint) : AllReadable E (view.remove out) := by
  intro out' coin hcoin
  rw [CoinsView.remove] at hcoin
  by_cases heq : out' = out
  · rw [heq, Function.update_self] at hcoin
    cases hcoin
  · rw [Function.update_of_ne heq] at hcoin
    exact h out' coin hcoin

theorem spendLoop_total {vin : List CTxIn} {st : SpendState} (h : AllReadable E st.view)
    (hin : ∀ txin ∈ vin, (st.view txin.prevout).isSome) (hnodup : (vin.map (·.prevout)).Nodup) :
    (vin.foldlM (spendInput E S) st).isSome := by
  induction vin generalizing st with
  | nil => rfl
  | cons txin vin ih =>
    obtain ⟨coin, hcoin⟩ := isSome_iff_exists.mp (hin txin mem_cons_self)
    obtain ⟨c', hspend⟩ := spendCoin_spent h hcoin S st.assets
    rw [map_cons, nodup_cons] at hnodup
    rw [foldlM_cons, spendInput, hspend]
    refine ih (h.remove _) (fun other hother => ?_) hnodup.2
    have hne : other.prevout ≠ txin.prevout := fun heq => hnodup.1 (heq ▸ mem_map_of_mem hother)
    dsimp only
    rw [CoinsView.remove, Function.update_of_ne hne]
    exact hin other (mem_cons_of_mem _ hother)

theorem updateCoins_total (h : AllReadable E view) (hchecked : CheckedTx E flags tx)
    (hflag : flags.fCheckDuplicateInputs = true) (hin : haveInputs view tx = true) (c : CAssetsCache) (nHeight : Nat)
    (blockHash : Uint256) : (updateCoins E S view c tx nHeight blockHash).isSome := by
  have hspent : (spendInputs E S view c tx).isSome := by
    unfold spendInputs
    cases hcb : tx.isCoinBase with
    | true => rfl
    | false =>
      rw [haveInputs, hcb, Bool.false_or, List.all_eq_true] at hin
      exact spendLoop_total h hin (hchecked.nodup hflag)
  obtain ⟨spent, hspent⟩ := Option.isSome_iff_exists.mp hspent
  rw [updateCoins, hspent]
  rfl

theorem connectTx_readable {block st'} (h : AllReadable E st.view) (hchecked : CheckedTx E flags tx)
    (hconnect : connectTx E S R mempool block st tx = .ok st') :
    AllReadable E st'.view := by
  obtain ⟨nFees, r, -, -, -, hr, rfl⟩ := connectTx_ok hconnect
  intro out coin hcoin
  rcases (updateCoins_coinStep hr).kept out coin hcoin with hold | hnew
  · exact h out coin hold
  · exact hchecked.readable hnew

theorem connectTxs_readable {block} {vtx : List CTransaction} {st' : ConnectState} (h : AllReadable E st.view)
    (hchecked : ∀ tx ∈ vtx, E.checkTransaction blockFlags tx = .ok ())
    (hconnect : vtx.foldlM (connectTx E S R mempool block) st = .ok st') : AllReadable E st'.view :=
  foldlM_induct (fun st => AllReadable E st.view) hconnect h fun _ tx _ htx hstep hread =>
    connectTx_readable hread (checkTransaction_ok (hchecked tx htx)) hstep

theorem connectChecks_haveInputs {nHeight nFees} (h : connectChecks E S mempool nHeight st tx = .ok nFees) : haveInputs st.view tx = true := by
  simp only [connectChecks, checkTxInputs, ok_iff] at h
  obtain ⟨-, ⟨hin, -⟩, -⟩ := h
  exact hin

/-- `fTransferScriptIsActive` is never reset, so the rule on script sizes stays in force. -/
def Schedule (envs : List Env) : Prop :=
  envs.Pairwise fun E E' => E.areTransferScriptsSizeDeployed = true → E'.areTransferScriptsSizeDeployed = true

theorem AcceptedChain.allReadable {P} {chain : List (Env × CBlock)} {st : ChainState}
    (h : AcceptedChain P R chain st) (hschedule : Schedule (chain.map Prod.fst ++ [E])) : AllReadable E st.coins := by
  induction h generalizing E with
  | genesis => exact fun out coin hcoin => nomatch hcoin
  | @connect chain st st' undo E1 block mempool h hheight hblock ih =>
    rw [map_append, map_cons, map_nil] at hschedule
    obtain ⟨hbefore, -, hlast⟩ := pairwise_append.mp hschedule
    obtain ⟨coinbase, vtx, cs0, cs, hvtx, -, -, hcheck, h0, hloop, -, hst⟩ := connectTip_ok hblock
    cases hst
    rw [hvtx] at hcheck
    have hread := connectTxs_readable (ih hbefore) hcheck (by rw [foldlM_cons, h0]; exact hloop)
    exact fun out coin hcoin => (hread out coin hcoin).later (hlast E1 (by simp) E (by simp))
  | dump E1 h ih => exact ih hschedule
  | cacheEvent event h ih => exact ih hschedule

/-- At every tip asset coins are decoded, a coin that exists is spent, and `UpdateCoins` does not fail. -/
theorem assetCoins_decodable {P : ChainParams} {chain : List (Env × CBlock)} {st : ChainState}
    (h : AcceptedChain P R chain st) (hschedule : Schedule (chain.map Prod.fst ++ [E])) :
    (∀ out coin, st.coins out = some coin → (isAssetScript coin.out.scriptPubKey).isSome →
      Decoded E coin.out.scriptPubKey) ∧
    (∀ out coin S c, st.coins out = some coin → (spendCoin E S st.coins c out).is_spent = true) ∧
    ∀ mempool block pre tx post cs, checkBlock E (R.withReward E P) block = .ok () → block.vtx = pre ++ tx :: post →
      pre.foldlM (connectTx E st.store (R.withReward E P) mempool block) ⟨st.coins, ∅, 0, ⟨[], []⟩⟩ = .ok cs →
      (tx.isCoinBase = false → ∃ nFees, connectChecks E st.store mempool block.nHeight cs tx = .ok nFees) →
      (updateCoins E st.store cs.view cs.assets tx block.nHeight block.hash).isSome := by
  have hread := h.allReadable hschedule
  refine ⟨fun out coin hcoin hscript => (hread out coin hcoin).decoded hscript, fun out coin S c hcoin => ?_, ?_⟩
  · obtain ⟨c', hspend⟩ := spendCoin_spent hread hcoin S c
    rw [hspend]
  · intro mempool block pre tx post cs hblock hvtx hpre hchecks
    simp only [checkBlock, ok_iff, forM_eq_ok, hvtx] at hblock
    obtain ⟨-, -, -, hcheck⟩ := hblock
    have hview := connectTxs_readable hread (fun tx htx => hcheck tx (mem_append_left _ htx)) hpre
    have htx := checkTransaction_ok (hcheck tx (mem_append_right _ mem_cons_self))
    refine updateCoins_total hview htx rfl ?_ _ _ _
    cases hcb : tx.isCoinBase with
    | true => rw [haveInputs, hcb, Bool.true_or]
    | false =>
      obtain ⟨nFees, hfees⟩ := hchecks hcb
      exact connectChecks_haveInputs hfees

namespace Regtest

/-- The coin with the units of `GOLD` that were issued. -/
theorem goldCoin_decoded :
    ∃ st coin, AcceptedChain params .none (goldChain.map fun block => (env, block)) st ∧ st.coins ⟨7, 2⟩ = some coin ∧
      Decoded env coin.out.scriptPubKey := by
  have h : (((runBlocks env goldChain).toOption.bind fun st => st.coins ⟨7, 2⟩).any fun coin =>
      (isAssetScript coin.out.scriptPubKey).isSome) = true := by decide +kernel
  obtain ⟨coin, hcoin, hscript⟩ := (Option.any_eq_true _ _).mp h
  obtain ⟨st, hrun, hout⟩ := Option.bind_eq_some_iff.mp hcoin
  have hchain := runBlocks_accepted (Outcome.toOption_eq_some.mp hrun) (by decide +kernel)
  refine ⟨st, coin, hchain, hout, (assetCoins_decodable hchain ?_).1 _ coin hout hscript⟩
  refine List.pairwise_of_forall_mem_list fun E _ E' hE' _ => ?_
  simp only [List.map_map, List.mem_append, List.mem_map, List.mem_singleton, Function.comp_apply] at hE'
  rcases hE' with ⟨-, -, rfl⟩ | rfl <;> rfl

end Regtest

end Hivecoin

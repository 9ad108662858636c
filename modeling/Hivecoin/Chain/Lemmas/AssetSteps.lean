import Hivecoin.Chain.AssetLedger
import Hivecoin.Chain.Lemmas.Forward
import Hivecoin.Chain.Lemmas.ReissueRecords

/-!
# Accepted chains take asset steps
-/

namespace Hivecoin

open Outcome CAssetsCache CoinsView List Option Env AssetEvent

variable {E : Env} {S : Store} {R : Rules} {mempool : MempoolMaps} {tx : CTransaction}

theorem spendLoop_kept {vin : List CTxIn} {st st' : SpendState} (h : vin.foldlM (spendInput E S) st = some st')
    {out coin} (hcoin : st'.view out = some coin) : st.view out = some coin := by
  induction vin generalizing st with
  | nil =>
    cases h
    exact hcoin
  | cons txin vin ih =>
    obtain ⟨st1, hstep, hrest⟩ := foldlM_cons_some.mp h
    obtain ⟨-, -, hview, -⟩ := spendInput_view hstep
    have hleft := ih hrest
    rw [hview, CoinsView.remove] at hleft
    by_cases heq : out = txin.prevout
    · rw [heq, Function.update_self] at hleft
      cases hleft
    · rwa [Function.update_of_ne heq] at hleft

theorem addOutCoins_kept {view nHeight out coin}
    (h : addOutCoins view tx nHeight out = some coin) : view out = some coin ∨ coin.out ∈ tx.vout := by
  have hloop : ∀ (outs : List (CTxOut × Nat)) (view : CoinsView), (∀ o ∈ outs, o.1 ∈ tx.vout) →
      outs.foldl (fun view o => view.addCoin ⟨tx.hash, o.2⟩ ⟨o.1, nHeight, tx.isCoinBase⟩) view out = some coin →
      view out = some coin ∨ coin.out ∈ tx.vout := by
    intro outs
    induction outs with
    | nil => exact fun view _ hview => Or.inl hview
    | cons o outs ih =>
      intro view hmem hview
      rcases ih _ (fun o ho => hmem o (mem_cons_of_mem _ ho)) hview with hview | hout
      · dsimp only [CoinsView.addCoin] at hview
        split at hview
        · exact Or.inl hview
        · by_cases heq : out = ⟨tx.hash, o.2⟩
          · rw [heq, Function.update_self, some.injEq] at hview
            exact Or.inr (hview ▸ hmem o mem_cons_self)
          · rw [Function.update_of_ne heq] at hview
            exact Or.inl hview
      · exact Or.inr hout
  exact hloop _ _ (fun o ho => fst_mem_of_mem_zipIdx ho) h

theorem updateCoins_coinStep {view c nHeight blockHash} {r : UpdateResult}
    (h : updateCoins E S view c tx nHeight blockHash = some r) : CoinStep tx view r.view := by
  refine ⟨fun out coin hcoin => ?_, nHeight, fun val B hval hold => ?_⟩
  · simp only [updateCoins, some_iff] at h
    obtain ⟨spent, hspent, rfl⟩ := h
    refine (addOutCoins_kept hcoin).imp_left fun hleft => ?_
    unfold spendInputs at hspent
    split at hspent
    · cases hspent; exact hleft
    · exact spendLoop_kept hspent hleft
  · obtain ⟨hprev, hholds⟩ := updateCoins_holds h hval hold
    unfold spentValue
    split at hprev
    · rename_i hcb
      rw [hprev] at hholds
      rw [if_pos hcb]
      exact hholds
    · rename_i hcb
      rw [if_neg hcb, ← sum_prevouts hprev]
      exact hholds

def NoAssets (tx : CTransaction) : Prop := ∀ out ∈ tx.vout, Script.isAssetScript out.scriptPubKey = none

theorem NoAssets.kindEvents (h : NoAssets tx) (E : Env) : kindEvents E tx = [] := by
  have hlast : ∀ out, tx.lastOut = some out → checkIssueDataTx out = false ∧ checkReissueDataTx out = false := by
    intro out hout
    have hnone := h out (mem_of_getLast? hout)
    simp [checkIssueDataTx, checkReissueDataTx, isScriptNewAsset, isScriptReissueAsset, hnone]
  have hissues : ∀ test, lastIssues tx test = false := by
    intro test
    unfold lastIssues
    cases hout : tx.lastOut with
    | none => rfl
    | some out => simp [(hlast out hout).1]
  have hreissue : isReissueAsset tx = false := by
    unfold isReissueAsset
    cases hout : tx.lastOut with
    | none => rfl
    | some out => exact (hlast out hout).2
  simp [Hivecoin.kindEvents, isNewAsset, isNewUniqueAsset, isNewMsgChannelAsset, isNewQualifierAsset,
    isNewRestrictedAsset, hissues, hreissue]

theorem NoAssets.step (h : NoAssets tx) (view : CoinsView) {data data'} (hsame : ∀ name, data' name = data name) :
    AssetStep E view tx data data' := by
  have hevents : txEvents E tx = [] := by
    unfold txEvents
    split
    · exact h.kindEvents E
    · rfl
  have htransfers : transferOutputs E tx = [] := filterMap_eq_nil_iff.mpr fun out hout => by
    rw [transferOfOut, transferAssetFromScript_eq_none (by rw [h out hout]; simp)]
    rfl
  have hcarried : carriedOutputs tx = [] := filterMap_eq_nil_iff.mpr fun out hout => by
    rw [carriedAsset, h out hout]
  refine ⟨fun name => ?_, ?_, ?_, ?_, ?_, fun hne => absurd htransfers hne⟩
  · rw [txEventsOf, hevents]
    exact hsame name
  · simp [hevents]
  · simp [hevents]
  · simp [hevents, hcarried, htransfers, ownerTokens]
  · simp [htransfers]

theorem lookups_eq (E : Env) (S : Store) (c : CAssetsCache) (name : Bytes) :
    lookups E S c name = (S.view E name).metaData (c.view name) := getAssetMetaDataIfExists_eq name

section

variable {c : CAssetsCache} {view : CoinsView} {fm : Bool} {v : List (Bytes × Uint256)} {action : Env.RestrictedAction}

theorem checked_allowed (hfwd : ∀ name, (S.view E name).Forward (c.view name))
    (h : contextualCheckKind E S c mempool fm tx = .ok ()) :
    ∀ e ∈ kindEvents E tx, e.Allowed (lookups E S c e.name) := by
  intro e he
  have hchecked := checked_of_checks h e he
  cases e with
  | issue asset verifier undoVerifier =>
    obtain ⟨_, _, hc⟩ := hchecked
    have hfree := contextualCheckNewAsset_ok hc
    rw [checkIfAssetExists_eq, (hfwd asset.strName).has, Bool.or_eq_false_iff] at hfree
    simp only [contextualCheckNewAsset, ok_iff] at hc
    refine ⟨?_, sound_of_checkNewAsset hc.2.1⟩
    rw [lookups_eq, name]
    simpa using hfree.2
  | reissue r verifier =>
    obtain ⟨data, hdata, hallowed⟩ := reissueAllowed_of_checks hchecked
    exact ⟨data.asset, by rw [lookups, name, hdata]; rfl, hallowed⟩

theorem checked_transfers (h : checkTxAssets E S c view mempool fm false tx = .ok v) :
    ∀ e ∈ transferOutputs E tx, TransferAllowed (lookups E S c) e := by
  intro e he
  obtain ⟨out, hout, hread⟩ := mem_filterMap.mp he
  have hscript : (isScriptTransferAsset out.scriptPubKey).isSome := by
    cases hs : isScriptTransferAsset out.scriptPubKey with
    | none => simp [transferOfOut, transferAssetFromScript, hs] at hread
    | some i => rfl
  obtain ⟨transfer, address, htransfer, hcheck, hunits⟩ := checkTxAssets_transfer h hout hscript
  rw [transferOfOut, htransfer, map_some, some.injEq] at hread
  subst hread
  obtain ⟨hname, hpos⟩ := contextualCheckTransferAsset_ok hcheck
  refine ⟨hname, hpos, ?_⟩
  unfold checkTransferUnits at hunits
  split at hunits
  · rename_i howner
    exact Or.inl ⟨howner, by simpa using hunits⟩
  · simp only [ok_iff] at hunits
    obtain ⟨data, hdata, -, hfits⟩ := hunits
    exact Or.inr ⟨data.asset, by rw [lookups, hdata]; rfl, hfits⟩

theorem checked_step (hfwd : ∀ name, (S.view E name).Forward (c.view name)) (hkind : E.checkKind tx = .ok action)
    (hcb : tx.isCoinBase = false) (hdep : E.areAssetsDeployed = true)
    (h : checkTxAssets E S c view mempool fm false tx = .ok v) {data'}
    (hdata : ∀ name, data' name = (txEventsOf E name tx).foldl applyTo (lookups E S c name)) :
    AssetStep E view tx (lookups E S c) data' := by
  have hevents : txEvents E tx = kindEvents E tx := if_pos hdep
  obtain ⟨-, hcheck, hbalanced⟩ := checkTxAssets_ok h
  have houtputs := checkKind_outputs hkind
  refine ⟨hdata, hevents ▸ checked_allowed hfwd hcheck, hevents ▸ kindEvents_nodup hkind, ?_, checked_transfers h,
    fun _ => ⟨hcb, hbalanced⟩⟩
  have hperm := carriedOutputs_perm h
  rwa [houtputs.minted, houtputs.owners, ← hevents] at hperm

end

theorem connectTx_step {block st st' flags} (hS : S.Named) (hc : st.assets.Named)
    (hfwd : ∀ name, (S.view E name).Forward (st.assets.view name)) (hcheck : E.checkTransaction flags tx = .ok ())
    (hplain : tx.isCoinBase = true → NoAssets tx) (h : connectTx E S R mempool block st tx = .ok st') :
    (∀ name, (S.view E name).Forward (st'.assets.view name)) ∧ CoinStep tx st.view st'.view ∧
      AssetStep E st.view tx (lookups E S st.assets) (lookups E S st'.assets) := by
  obtain ⟨action, hkind⟩ := checkTransaction_kind hcheck
  have hcoins : CoinStep tx st.view st'.view := by
    obtain ⟨nFees, r, -, -, -, hr, rfl⟩ := connectTx_ok h
    exact updateCoins_coinStep hr
  by_cases hchecked : tx.isCoinBase = false ∧ E.areAssetsDeployed = true
  · obtain ⟨hcb, hdep⟩ := hchecked
    have hrun : ∀ name, (S.view E name).Forward (st'.assets.view name) ∧
        (S.view E name).metaData (st'.assets.view name) =
          (txEventsOf E name tx).foldl applyTo ((S.view E name).metaData (st.assets.view name)) := by
      intro name
      have hevents := connectTx_checked hS hc h hkind hcb name
      rw [assetEvents_checked hcb hdep] at hevents
      have hrun := StoreView.Forward.run (hfwd name) hevents
      rwa [show (kindEvents E tx).filter (fun e => e.name == name) = txEventsOf E name tx by
        rw [txEventsOf, txEvents, if_pos hdep]] at hrun
    obtain ⟨nFees, r, hchecks, -⟩ := connectTx_ok h
    have hchecks := hchecks hcb
    simp only [connectChecks, hdep, if_true, ok_iff] at hchecks
    obtain ⟨-, -, -, v, hassets, -⟩ := hchecks
    refine ⟨fun name => (hrun name).1, hcoins, checked_step hfwd hkind hcb hdep hassets fun name => ?_⟩
    rw [lookups_eq, lookups_eq, (hrun name).2]
  · have hnone : NoAssets tx := by
      by_cases hcb : tx.isCoinBase = true
      · exact hplain hcb
      · have hdep : E.areAssetsDeployed = false := by
          by_contra hd
          exact hchecked ⟨by simpa using hcb, by simpa using hd⟩
        obtain ⟨nFees, r, hchecks, -⟩ := connectTx_ok h
        have hchecks := hchecks (by simpa using hcb)
        simp only [connectChecks, hdep, test_iff, ok_iff, forM_eq_ok, isNone_iff_eq_none] at hchecks
        obtain ⟨-, -, -, houts, -⟩ := hchecks
        exact fun out hout => (houts out hout).1
    have hkindEvents := hnone.kindEvents E
    have hview : ∀ name, st'.assets.view name = st.assets.view name := by
      intro name
      have hevents := connectTx_events hS hc h hkind (fun _ e he => by rw [hkindEvents] at he; cases he) name
      rw [show assetEvents E S tx = [] by simp [assetEvents, hkindEvents], filter_nil, foldl_nil,
        Prod.mk.injEq] at hevents
      exact hevents.1.symm
    refine ⟨fun name => hview name ▸ hfwd name, hcoins, hnone.step st.view fun name => ?_⟩
    rw [lookups_eq, lookups_eq, hview]

section

variable {Q : List AssetLookup → AssetLookup → CoinsView → Prop} (cond : Env → CTransaction → Prop)
  (step : ∀ {E tx history data data' view view'}, cond E tx → CoinStep tx view view' → AssetStep E view tx data data' →
    Q history data view → Q (history ++ [data']) data' view')
include step

theorem connectTxs_induct {block vtx st st' flags history} (hS : S.Named) (hc : st.assets.Named)
    (hfwd : ∀ name, (S.view E name).Forward (st.assets.view name))
    (hcheck : ∀ tx ∈ vtx, E.checkTransaction flags tx = .ok ()) (hplain : ∀ tx ∈ vtx, tx.isCoinBase = true → NoAssets tx)
    (hcond : ∀ tx ∈ vtx, cond E tx) (h : vtx.foldlM (connectTx E S R mempool block) st = .ok st')
    (hQ : Q history (lookups E S st.assets) st.view) :
    (∀ name, (S.view E name).Forward (st'.assets.view name)) ∧
      Q (history ++ (connectStates E S R mempool block st vtx).map fun cs => lookups E S cs.assets)
        (lookups E S st'.assets) st'.view := by
  induction vtx generalizing st history with
  | nil =>
    cases h
    exact ⟨hfwd, by simpa [connectStates] using hQ⟩
  | cons tx vtx ih =>
    obtain ⟨st1, h1, h2⟩ := foldlM_cons_ok.mp h
    obtain ⟨hfwd1, hcoins, hassets⟩ := connectTx_step hS hc hfwd (hcheck tx mem_cons_self)
      (hplain tx mem_cons_self) h1
    have hrest := ih (connectTx_named hS hc h1) hfwd1 (fun t ht => hcheck t (mem_cons_of_mem _ ht))
      (fun t ht => hplain t (mem_cons_of_mem _ ht)) (fun t ht => hcond t (mem_cons_of_mem _ ht)) h2
      (step (hcond tx mem_cons_self) hcoins hassets hQ)
    rw [connectStates, h1]
    simpa using hrest

/-- What holds at genesis and is kept by every transaction holds along every accepted chain whose coinbases carry no assets. -/
theorem AcceptedHistory.induct {P chain history st ids} (h : AcceptedHistory P R chain history st)
    (hids : ∀ entry ∈ chain, ∀ tx ∈ entry.2.vtx, ids tx.hash = tx) (hplain : ∀ entry ∈ chain, CoinbasePlain entry.2)
    (hcond : ∀ entry ∈ chain, ∀ tx ∈ entry.2.vtx, cond entry.1 tx)
    (start : Q [fun _ => none] (fun _ => none) fun _ => none) (E : Env) :
    st.store.Settled (reissuedAt ids) ∧ (∀ name, (st.store.view E name).Forward ∅) ∧
      Q history (lookups E st.store ∅) st.coins := by
  induction h generalizing E with
  | genesis =>
    refine ⟨.empty, fun name => .empty, ?_⟩
    have hnone : lookups E ∅ ∅ = fun _ => none := funext fun name => by
      rw [lookups_eq, Store.view_empty, view_empty]
      rfl
    rwa [hnone]
  | @connect chain history st st' undo E' block mempool h hheight hblock ih =>
    have hlast : (E', block) ∈ chain ++ [(E', block)] := mem_append_right _ mem_cons_self
    obtain ⟨hsettled, hfwd, hQ⟩ := ih (fun entry he => hids entry (mem_append_left _ he))
      (fun entry he => hplain entry (mem_append_left _ he))
      (fun entry he => hcond entry (mem_append_left _ he)) E'
    have hsettled' := connectTip_settled hsettled (hids _ hlast) hblock
    obtain ⟨coinbase, vtx, cs0, cs, hvtx, -, -, hcheck, h0, hloop, -, heq⟩ := connectTip_ok hblock
    have hwhole : block.vtx.foldlM (connectTx E' st.store (R.withReward E' P) mempool block)
        ⟨st.coins, ∅, 0, ⟨[], []⟩⟩ = .ok cs := by
      rw [hvtx, foldlM_cons, bind_eq_ok]
      exact ⟨cs0, h0, hloop⟩
    obtain ⟨hfwd', hQ'⟩ := connectTxs_induct cond step hsettled.named named_empty
      (fun name => by rw [view_empty]; exact hfwd name) hcheck (hplain _ hlast) (hcond _ hlast) hwhole hQ
    cases heq
    have hflush : ∀ name, ((st.store.flush cs.assets).view E' name).Forward ∅ ∧
        ((st.store.flush cs.assets).view E' name).metaData ∅ = (st.store.view E' name).metaData (cs.assets.view name) :=
      fun name => by rw [view_flush]; exact (hfwd' name).flush
    refine ⟨hsettled', fun name => ((hflush name).1.env E).1, ?_⟩
    have hsame : lookups E (st.store.flush cs.assets) ∅ = lookups E' st.store cs.assets := funext fun name => by
      rw [lookups_eq, lookups_eq, view_empty, ← (hflush name).2]
      rfl
    rw [hsame]
    exact hQ'
  | @dump chain history st E' h ih =>
    obtain ⟨hsettled, hfwd, hQ⟩ := ih hids hplain hcond E
    refine ⟨hsettled.dump E', fun name => (StoreView.Forward.dump hsettled (hfwd name) E').1, ?_⟩
    have hsame : lookups E (st.store.dumpCacheToDatabase E') ∅ = lookups E st.store ∅ := funext fun name => by
      rw [lookups_eq, lookups_eq, view_empty, (StoreView.Forward.dump hsettled (hfwd name) E').2]
    rwa [hsame]
  | @cacheEvent chain history st event h ih =>
    obtain ⟨hsettled, hfwd, hQ⟩ := ih hids hplain hcond E
    refine ⟨hsettled.cacheEvent event, fun name => (StoreView.Forward.cacheEvent hsettled (hfwd name) event).1, ?_⟩
    have hsame : lookups E (st.store.cacheEvent event) ∅ = lookups E st.store ∅ := funext fun name => by
      rw [lookups_eq, lookups_eq, view_empty, (StoreView.Forward.cacheEvent hsettled (hfwd name) event).2]
    rwa [hsame]

end

end Hivecoin

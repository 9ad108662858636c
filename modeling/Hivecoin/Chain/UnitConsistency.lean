import Hivecoin.Chain.CoinSupply
import Hivecoin.Chain.Lemmas.AssetSteps

/-!
# Units of assets

Units stay between 0 and 8, never go down, and divide the amounts, while coinbases carry no assets.
-/

namespace Hivecoin

open CAssetsCache Outcome List

variable {E : Env} {view view' : CoinsView} {tx : CTransaction} {data data' : AssetLookup}

structure UnitConsistent (E : Env) (history : List AssetLookup) (st : ChainState) (name : Bytes) : Prop where
  current : ∃ data, history.getLast? = some data ∧ lookups E st.store ∅ name = data name
  units : ∀ data ∈ history, ∀ m, data name = some m →
    0 ≤ m.units.toInt ∧ m.units.toInt ≤ 8 ∧ FitsUnits m.nAmount m.units
  later : history.Pairwise fun data data' => ∀ m, data name = some m → ∃ m', data' name = some m' ∧ m.Later m'
  coins : ∀ m, lookups E st.store ∅ name = some m → ∀ out coin amount, st.coins out = some coin →
    assetOfCoin E coin = some (name, amount) → FitsUnits amount m.units

/-- The amount of a coin fits the data of its asset; owner tokens are whole. -/
def CoinFits (data : AssetLookup) (e : Bytes × CAmount) : Prop :=
  e.2 = OWNER_ASSET_AMOUNT ∨ ∃ m, data e.1 = some m ∧ FitsUnits e.2 m.units

theorem CoinFits.later {e} (h : CoinFits data e) (hlater : data.Later data') : CoinFits data' e := by
  refine h.imp_right fun ⟨m, hm, hfits⟩ => ?_
  obtain ⟨m', hm', hle⟩ := hlater e.1 m hm
  exact ⟨m', hm', hfits.mono hle.units⟩

theorem AssetStep.fits (h : AssetStep E view tx data data') (hdata : data.Sound) {e}
    (he : e ∈ carriedOutputs tx) : CoinFits data' e := by
  obtain ⟨-, hlater⟩ := h.sound_later hdata
  rcases h.carried_cases he with htransfer | ⟨event, hevent, rfl⟩ | howner
  · refine CoinFits.later ?_ hlater
    rcases (h.transfers e htransfer).fits with ⟨-, howner⟩ | ⟨m, hm, hfits⟩
    · exact Or.inl howner
    · exact Or.inr ⟨m, hm, (checkAmountWithUnits_iff (hdata _ m hm).2.units.1).mp hfits⟩
  · have hallowed := h.allowed event hevent
    have hafter := h.event hevent
    cases event with
    | issue asset v u =>
      rw [hallowed.1] at hafter
      exact Or.inr ⟨asset, hafter, hallowed.2.fits⟩
    | reissue r v =>
      obtain ⟨m, hm, hallowed⟩ := hallowed
      have hsound := (hdata _ m hm).2
      rw [hm] at hafter
      exact Or.inr ⟨_, hafter, ((checkAmountWithUnits_iff hsound.units.1).mp hallowed.fits).mono
        (units_applyReissue hsound hallowed).1⟩
  · unfold ownerTokens at howner
    split at howner
    · obtain ⟨event, -, rfl⟩ := mem_map.mp howner
      exact Or.inl rfl
    · cases howner

structure UnitsKept (history : List AssetLookup) (data : AssetLookup) (view : CoinsView) : Prop where
  last : history.getLast? = some data
  sound : ∀ d ∈ history, d.Sound
  later : history.Pairwise AssetLookup.Later
  latest : ∀ d ∈ history, d.Later data
  coins : ∀ out coin e, view out = some coin → carriedAsset coin.out.scriptPubKey = some e → CoinFits data e

theorem UnitsKept.step {history} (h : UnitsKept history data view) (hcoins : CoinStep tx view view')
    (hassets : AssetStep E view tx data data') : UnitsKept (history ++ [data']) data' view' := by
  have hdata : data.Sound := h.sound data (mem_of_getLast? h.last)
  obtain ⟨hsound, hlater⟩ := hassets.sound_later hdata
  refine ⟨by simp, ?_, ?_, ?_, fun out coin e hcoin hcarried => ?_⟩
  · simpa [or_imp, forall_and] using ⟨h.sound, hsound⟩
  · refine pairwise_append.mpr ⟨h.later, pairwise_singleton _ _, fun d hd d' hd' => ?_⟩
    rw [mem_singleton.mp hd']
    exact (h.latest d hd).trans hlater
  · intro d hd
    rcases mem_append.mp hd with hd | hd
    · exact (h.latest d hd).trans hlater
    · rw [mem_singleton.mp hd]
      exact fun name m hm => ⟨m, hm, .refl m⟩
  · rcases hcoins.kept out coin hcoin with hold | hnew
    · exact (h.coins out coin e hold hcarried).later hlater
    · exact hassets.fits hdata (mem_filterMap.mpr ⟨coin.out, hnew, hcarried⟩)

theorem checkTransaction_coinbase {flags} (h : E.checkTransaction flags tx = .ok ())
    (hrule : E.areCoinbaseCheckAssetsDeployed = true) (hcb : tx.isCoinBase = true) : NoAssets tx := by
  simp only [Env.checkTransaction, Env.checkCoinbaseOrPrevouts, hcb, hrule, test_iff, ok_iff, Bool.not_true, Bool.false_or,
    all_eq_true, Option.isNone_iff_eq_none] at h
  obtain ⟨-, -, -, scan, -, -, -, -, ⟨-, hplain⟩, -⟩ := h
  exact fun out hout => (hplain out hout).1

theorem AcceptedChain.coinbasePlain {P R chain st}
    (h : AcceptedChain P R chain st) (hrule : ∀ entry ∈ chain, entry.1.areCoinbaseCheckAssetsDeployed = true) :
    ∀ entry ∈ chain, CoinbasePlain entry.2 := by
  induction h with
  | genesis => simp
  | @connect chain st st' undo E block mempool h hheight hblock ih =>
    intro entry he
    rcases mem_append.mp he with he | he
    · exact ih (fun entry he => hrule entry (mem_append_left _ he)) entry he
    · rw [mem_singleton.mp he]
      have hdeployed := hrule _ (mem_append_right _ mem_cons_self)
      obtain ⟨-, -, -, -, -, -, -, hcheck, -⟩ := connectTip_ok hblock
      exact fun tx htx hcb => checkTransaction_coinbase (hcheck tx htx) hdeployed hcb
  | dump E h ih => exact ih hrule
  | cacheEvent event h ih => exact ih hrule

theorem unitConsistent_of_accepted {P : ChainParams} {R : Rules} {chain : List (Env × CBlock)}
    {history : List AssetLookup} {st : ChainState} (ids : Uint256 → CTransaction)
    (h : AcceptedHistory P R chain history st) (hids : ∀ entry ∈ chain, ∀ tx ∈ entry.2.vtx, ids tx.hash = tx)
    (hrule : ∀ entry ∈ chain, entry.1.areCoinbaseCheckAssetsDeployed = true) (E : Env) (name : Bytes) :
    UnitConsistent E history st name := by
  have hkept : UnitsKept history (lookups E st.store ∅) st.coins :=
    (h.induct (fun _ _ => True) (fun _ hcoins hassets hQ => hQ.step hcoins hassets) hids (h.accepted.coinbasePlain hrule)
      (fun _ _ _ _ => trivial) ⟨rfl, by simp [AssetLookup.Sound], pairwise_singleton _ _,
        by simp [AssetLookup.Later], fun _ _ _ hcoin => by cases hcoin⟩ E).2.2
  refine ⟨⟨_, hkept.last, rfl⟩, fun d hd m hm => ?_, hkept.later.imp fun hlater => hlater name, ?_⟩
  · have hsound := (hkept.sound d hd name m hm).2
    exact ⟨hsound.units.1, hsound.units.2, hsound.fits⟩
  · intro m hm out coin amount hcoin hasset
    obtain ⟨hstr, hsound⟩ := hkept.sound _ (mem_of_getLast? hkept.last) name m hm
    rcases assetOfCoin_cases hasset with hcarried | hlong
    · rcases hkept.coins out coin _ hcoin hcarried with howner | ⟨m', hm', hfits⟩
      · rw [show amount = OWNER_ASSET_AMOUNT from howner]
        exact fitsUnits_owner hsound.units.1
      · rw [hm] at hm'
        cases hm'
        exact hfits
    · have hshort := (nameValid_length hsound.named).1
      rw [hstr] at hshort
      dsimp only at hlong
      omega

namespace Regtest

theorem goldChain_units :
    ∃ history st, AcceptedHistory params .none (goldChain.map fun block => (env, block)) history st ∧
      lookups env st.store ∅ (ascii "GOLD") = some gold ∧ UnitConsistent env history st (ascii "GOLD") := by
  have h : ((runBlocks env goldChain).toOption.map fun st => lookups env st.store ∅ (ascii "GOLD")) = some (some gold) := by
    decide +kernel
  obtain ⟨st, hrun, hgold⟩ := Option.map_eq_some_iff.mp h
  obtain ⟨history, hchain⟩ := (runBlocks_accepted (Outcome.toOption_eq_some.mp hrun) (by decide +kernel)).history
  refine ⟨history, st, hchain, hgold, unitConsistent_of_accepted (chainIds [issueGold 1001 7]) hchain ?_ ?_ env _⟩
  · simpa using @goldChain_ids [issueGold 1001 7] (by simp [issueGold]) rfl
  · simp [env]

end Regtest

end Hivecoin

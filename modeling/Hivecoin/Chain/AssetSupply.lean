import Hivecoin.Chain.UnitConsistency

/-!
# Supply of assets

The unspent coins of an asset hold at most the amount that the lookups report, unless a total of outputs wraps in 64 bits.
-/

namespace Hivecoin

open CAssetsCache CoinsView Outcome List Option Tally AssetEvent

variable {E : Env} {view view' : CoinsView} {tx : CTransaction} {data data' : AssetLookup}

def assetAmount (E : Env) (name : Bytes) (coin : Coin) : Int := exact (assetOfCoin E coin).toList name

structure SupplyBounded (E : Env) (st : ChainState) (name : Bytes) : Prop where
  amount : ∀ m, lookups E st.store ∅ name = some m → 1 ≤ m.nAmount.toInt ∧ m.nAmount.toInt ≤ MAX_MONEY.toInt
  coins : SumsAtMost (st.coins.held (assetAmount E name))
    ((lookups E st.store ∅ name).elim 0 fun m => m.nAmount.toInt)
  owner : SumsAtMost (st.coins.held (assetAmount E (name ++ OWNER_TAG))) OWNER_ASSET_AMOUNT.toInt

/-- The 64-bit totals of what the transaction transfers do not wrap. -/
def TransfersInRange (E : Env) (tx : CTransaction) : Prop := ∀ name, exact (transferOutputs E tx) name < 2 ^ 63

def carriedAmount (name : Bytes) (coin : Coin) : Int := exact (carriedAsset coin.out.scriptPubKey).toList name

theorem held_assetAmount {name} (hname : name.length ≠ 116) (out : COutPoint)
    (h : 0 ≤ view.held (carriedAmount name) out) :
    0 ≤ view.held (assetAmount E name) out ∧ view.held (assetAmount E name) out ≤ view.held (carriedAmount name) out := by
  unfold held at h ⊢
  cases hcoin : view out with
  | none => exact ⟨le_rfl, le_rfl⟩
  | some coin =>
    simp only [hcoin, elim_some] at h ⊢
    cases hasset : assetOfCoin E coin with
    | none => simpa [assetAmount, hasset, exact] using h
    | some e =>
      rcases assetOfCoin_cases hasset with hcarried | hlong
      · rw [assetAmount, hasset, ← hcarried]
        exact ⟨h, le_rfl⟩
      · have hne : e.1 ≠ name := fun heq => hname (heq ▸ hlong)
        simpa [assetAmount, hasset, exact_singleton, hne] using h

theorem exact_spentAssets (name : Bytes) :
    exact (spentAssets E view tx) name = (tx.vin.map fun txin => view.held (assetAmount E name) txin.prevout).sum := by
  rw [spentAssets, exact_filterMap]
  congr 2
  funext txin
  unfold held
  cases view txin.prevout <;> rfl

theorem sum_carriedAmount (name : Bytes) (nHeight : Nat) :
    ((outCoins tx nHeight).map (carriedAmount name)).sum = exact (carriedOutputs tx) name := by
  rw [carriedOutputs, exact_filterMap, outCoins, List.map_map]
  rfl

/-! ## What a transaction may add -/

/-- How much of a name may exist: the amount of the asset, or an owner token. -/
def allowance (data : AssetLookup) (name : Bytes) : Int :=
  ((data name).elim 0 fun m => m.nAmount.toInt) +
    if name = name.dropLast ++ OWNER_TAG then (data name.dropLast).elim 0 fun _ => OWNER_ASSET_AMOUNT.toInt else 0

theorem owner_nonneg : 0 ≤ OWNER_ASSET_AMOUNT.toInt := by decide

theorem minted_name (e : AssetEvent) : e.minted.1 = e.name := by cases e <;> rfl

theorem AssetStep.amount (h : AssetStep E view tx data data') (hdata : data.Sound) (name : Bytes) :
    ((data name).elim 0 fun m => m.nAmount.toInt) + exact ((txEvents E tx).map minted) name =
      (data' name).elim 0 fun m => m.nAmount.toInt := by
  by_cases hevent : ∃ e ∈ txEvents E tx, e.name = name
  · obtain ⟨e, he, rfl⟩ := hevent
    have hnodup : (((txEvents E tx).map minted).map Prod.fst).Nodup := by
      rw [List.map_map, show Prod.fst ∘ minted = name from funext minted_name]
      exact h.once
    have hminted := exact_of_nodup hnodup (List.mem_map_of_mem he)
    rw [minted_name] at hminted
    have hallowed := h.allowed e he
    rw [h.event he, hminted]
    cases e with
    | issue asset v u =>
      rw [hallowed.1]
      exact Int.zero_add _
    | reissue r v =>
      obtain ⟨m, hm, hallowed⟩ := hallowed
      rw [hm]
      exact (toInt_reissuedAmount (hdata _ m hm).2 hallowed).symm
  · have hno : ∀ e ∈ txEvents E tx, e.name ≠ name := fun e he hn => hevent ⟨e, he, hn⟩
    rw [h.same hno, exact_eq_zero, Int.add_zero]
    rintro ⟨v, hv⟩
    obtain ⟨e, he, heq⟩ := List.mem_map.mp hv
    exact hno e he (by rw [← minted_name, heq])

theorem isIssue_of_isNewAsset (h : E.isNewAsset tx = true) {e} (he : e ∈ txEvents E tx) :
    ∃ asset v u, e = .issue asset v u := by
  unfold txEvents kindEvents at he
  rw [h] at he
  split at he
  · obtain ⟨issue, -, rfl⟩ := mem_map.mp he
    exact ⟨_, _, _, rfl⟩
  · cases he

theorem AssetStep.owner (h : AssetStep E view tx data data') (hdata : data.Sound) (name : Bytes) :
    ((data name).elim 0 fun _ => OWNER_ASSET_AMOUNT.toInt) + exact (ownerTokens E tx) (name ++ OWNER_TAG) ≤
      (data' name).elim 0 fun _ => OWNER_ASSET_AMOUNT.toInt := by
  by_cases htoken : ∃ v, (name ++ OWNER_TAG, v) ∈ ownerTokens E tx
  · obtain ⟨v, hv⟩ := htoken
    unfold ownerTokens at hv ⊢
    split at hv
    · rename_i hnew
      rw [if_pos hnew]
      have hnodup : (((txEvents E tx).map fun e => (e.name ++ OWNER_TAG, OWNER_ASSET_AMOUNT)).map Prod.fst).Nodup := by
        have hmap := h.once.map (List.append_left_injective OWNER_TAG)
        rwa [List.map_map] at hmap ⊢
      rw [exact_of_nodup hnodup hv]
      obtain ⟨e, he, heq⟩ := List.mem_map.mp hv
      obtain ⟨hname, rfl⟩ := Prod.mk.injEq .. ▸ heq
      obtain rfl := List.append_cancel_right hname
      obtain ⟨asset, w, u, rfl⟩ := isIssue_of_isNewAsset hnew he
      rw [h.event he, (h.allowed _ he).1, Option.elim_none, Int.zero_add]
      exact le_rfl
    · cases hv
  · rw [exact_eq_zero htoken, Int.add_zero]
    obtain ⟨-, hlater⟩ := h.sound_later hdata
    cases hm : data name with
    | none =>
      cases data' name with
      | none => exact le_rfl
      | some m' => exact owner_nonneg
    | some m =>
      obtain ⟨m', hm', -⟩ := hlater name m hm
      rw [hm', Option.elim_some, Option.elim_some]

theorem AssetStep.allowance (h : AssetStep E view tx data data') (hdata : data.Sound) (name : Bytes) :
    Hivecoin.allowance data name + exact ((txEvents E tx).map minted) name +
      exact (ownerTokens E tx) name ≤ Hivecoin.allowance data' name := by
  have hamount := h.amount hdata name
  unfold Hivecoin.allowance
  split
  · rename_i htag
    have howner := h.owner hdata name.dropLast
    rw [← htag] at howner
    omega
  · rename_i htag
    have hnone : exact (ownerTokens E tx) name = 0 := by
      refine exact_eq_zero ?_
      rintro ⟨v, hv⟩
      refine htag ?_
      unfold ownerTokens at hv
      split at hv
      · obtain ⟨e, -, heq⟩ := mem_map.mp hv
        rw [← (Prod.mk.inj heq).1, show OWNER_TAG = [33] from rfl, dropLast_concat]
      · cases hv
    omega

theorem AssetStep.nonneg (h : AssetStep E view tx data data') : ∀ e ∈ carriedOutputs tx, 0 ≤ e.2.toInt := by
  intro e he
  rcases h.carried_cases he with htransfer | ⟨event, hevent, rfl⟩ | howner
  · exact (h.transfers e htransfer).positive.le
  · have hallowed := h.allowed event hevent
    cases event with
    | issue asset v u => exact hallowed.2.positive.le
    | reissue r v =>
      obtain ⟨m, -, hallowed⟩ := hallowed
      exact hallowed.nonneg
  · unfold ownerTokens at howner
    split at howner
    · obtain ⟨event, -, rfl⟩ := mem_map.mp howner
      exact owner_nonneg
    · cases howner

theorem spentValue_mono {val val'} (h : ∀ out, view.held val out ≤ view.held val' out) :
    spentValue view val tx ≤ spentValue view val' tx := by
  unfold spentValue
  split
  · exact le_rfl
  · exact sum_le_sum fun txin _ => h txin.prevout

theorem spentValue_nonneg {val} (h : ∀ out, 0 ≤ view.held val out) : 0 ≤ spentValue view val tx := by
  unfold spentValue
  split
  · exact le_rfl
  · refine sum_nonneg fun x hx => ?_
    obtain ⟨txin, -, rfl⟩ := mem_map.mp hx
    exact h _

theorem AssetStep.transferred_le (h : AssetStep E view tx data data') (hrange : TransfersInRange E tx) {name}
    (hview : ∀ out, 0 ≤ view.held (carriedAmount name) out) :
    exact (transferOutputs E tx) name ≤ spentValue view (carriedAmount name) tx := by
  by_cases htransfer : ∃ v, (name, v) ∈ transferOutputs E tx
  · obtain ⟨v, hv⟩ := htransfer
    obtain ⟨hcb, hbalance⟩ := h.balanced (ne_nil_of_mem hv)
    have hshort := (nameValid_length (h.transfers _ hv).named).1
    have hseen := fun out => @held_assetAmount E view name (by dsimp only at hshort; omega) out (hview out)
    have hspent : exact (spentAssets E view tx) name = spentValue view (assetAmount E name) tx := by
      rw [exact_spentAssets, spentValue, hcb, if_neg Bool.false_ne_true]
    calc exact (transferOutputs E tx) name
        ≤ exact (spentAssets E view tx) name := exact_le_of_get?_eq (hbalance name).symm (hrange name)
          (hspent ▸ spentValue_nonneg fun out => (hseen out).1)
      _ = spentValue view (assetAmount E name) tx := hspent
      _ ≤ spentValue view (carriedAmount name) tx := spentValue_mono fun out => (hseen out).2
  · rw [exact_eq_zero htransfer]
    exact spentValue_nonneg hview

structure SupplyKept (data : AssetLookup) (view : CoinsView) : Prop where
  sound : data.Sound
  coins : ∀ name, view.Holds (carriedAmount name) (allowance data name)

theorem SupplyKept.step (h : SupplyKept data view) (hrange : TransfersInRange E tx) (hcoins : CoinStep tx view view')
    (hassets : AssetStep E view tx data data') : SupplyKept data' view' := by
  refine ⟨(hassets.sound_later h.sound).1, fun name => ?_⟩
  have hold := h.coins name
  obtain ⟨nHeight, hflow⟩ := hcoins.flow
  have hval : ∀ coin ∈ outCoins tx nHeight, 0 ≤ carriedAmount name coin := by
    intro coin hcoin
    obtain ⟨out, hout, rfl⟩ := mem_map.mp hcoin
    refine exact_nonneg (fun e he => hassets.nonneg e ?_) name
    exact mem_filterMap.mpr ⟨out, hout, mem_toList.mp he⟩
  refine (hflow _ _ hval hold).mono ?_
  have hadded := sum_added_le hval
  rw [sum_carriedAmount, exact_perm hassets.carried, exact_append, exact_append] at hadded
  have htransferred := hassets.transferred_le hrange hold.nonneg
  have hallowance := hassets.allowance h.sound name
  omega

theorem supplyBounded_of_inRange {P : ChainParams} {R : Rules} {chain : List (Env × CBlock)} {st : ChainState}
    (ids : Uint256 → CTransaction) (h : AcceptedChain P R chain st)
    (hids : ∀ entry ∈ chain, ∀ tx ∈ entry.2.vtx, ids tx.hash = tx)
    (hrule : ∀ entry ∈ chain, entry.1.areCoinbaseCheckAssetsDeployed = true)
    (hrange : ∀ entry ∈ chain, ∀ tx ∈ entry.2.vtx, TransfersInRange entry.1 tx) (E : Env) {name : Bytes}
    (hname : nameValid name = true) (howner : isAssetNameAnOwner name = false) : SupplyBounded E st name := by
  obtain ⟨history, hhistory⟩ := h.history
  have hkept : SupplyKept (lookups E st.store ∅) st.coins :=
    (hhistory.induct (Q := fun _ data view => SupplyKept data view) TransfersInRange
      (fun hrange hcoins hassets hQ => hQ.step hrange hcoins hassets) hids (h.coinbasePlain hrule) hrange
      ⟨by simp [AssetLookup.Sound], fun name => by simpa [allowance] using Holds.empty _⟩ E).2.2
  have hshort := (nameValid_length hname).1
  have hseen : ∀ {n : Bytes} {B : Int}, n.length ≠ 116 → allowance (lookups E st.store ∅) n ≤ B →
      SumsAtMost (st.coins.held (assetAmount E n)) B := by
    intro n B hn hB s
    have hcoins := hkept.coins n
    exact (Finset.sum_le_sum fun out _ => (held_assetAmount hn out (hcoins.nonneg out)).2).trans
      ((hcoins.atMost s).trans hB)
  refine ⟨fun m hm => ?_, hseen (by omega) ?_, hseen (by simp [OWNER_TAG, show ascii "!" = [33] from rfl]; omega) ?_⟩
  · have hsound := (hkept.sound name m hm).2
    exact ⟨hsound.positive, hsound.bounded⟩
  · have htag : name ≠ name.dropLast ++ OWNER_TAG := by
      intro heq
      rw [heq] at hname howner
      rw [isAssetNameAnOwner_of_tag hname] at howner
      cases howner
    rw [allowance, if_neg htag, Int.add_zero]
  · have hnone : lookups E st.store ∅ (name ++ OWNER_TAG) = none := by
      refine eq_none_iff_forall_ne_some.mpr fun m hm => ?_
      obtain ⟨hstr, hsound⟩ := hkept.sound _ m hm
      have hnamed := hsound.named
      have hnot := hsound.notOwner
      rw [hstr] at hnamed hnot
      rw [isAssetNameAnOwner_of_tag hnamed] at hnot
      cases hnot
    rw [allowance, hnone, show (name ++ OWNER_TAG).dropLast = name from dropLast_concat, if_pos rfl,
      elim_none, Int.zero_add]
    cases lookups E st.store ∅ name with
    | none => exact owner_nonneg
    | some m => exact le_rfl

namespace Regtest

theorem inRange_of_nil {tx} (h : transferOutputs env tx = []) : TransfersInRange env tx := by
  intro name
  rw [h, exact_eq_zero (by simp)]
  decide

theorem blockAt_inRange {n vtx} (h : ∀ tx ∈ vtx, TransfersInRange env tx) :
    ∀ tx ∈ (blockAt n vtx []).vtx, TransfersInRange env tx := by
  have hnil : transferOutputs env (coinbaseAt 0 []) = [] := by decide +kernel
  intro tx htx
  rcases mem_cons.mp htx with rfl | htx
  · exact inRange_of_nil hnil
  · exact h tx htx

theorem moved_gold_bounded :
    ∃ st, AcceptedChain params .none ((goldChainThen (moveGold [400, 600])).map fun block => (env, block)) st ∧
      lookups env st.store ∅ (ascii "GOLD") = some gold ∧ SupplyBounded env st (ascii "GOLD") := by
  have h : ((runBlocks env (goldChainThen (moveGold [400, 600]))).toOption.any fun st =>
      lookups env st.store ∅ (ascii "GOLD") == some gold) = true := by decide +kernel
  obtain ⟨st, hchain, hgold⟩ := goldChainThen_accepted h
  refine ⟨st, hchain, beq_iff_eq.mp hgold, supplyBounded_of_inRange (chainIds [issueGold 1001 7, moveGold [400, 600]])
    hchain ?_ ?_ ?_ env (by decide +kernel) (by decide +kernel)⟩
  · have hlow : ∀ tx ∈ [issueGold 1001 7, moveGold [400, 600]], tx.hash.toNat < 1000 := by decide +kernel
    simpa using goldChainThen_blocks (goldChain_ids hlow rfl) fun tx htx => by
      rcases mem_pair.mp htx with rfl | rfl
      · exact chainIds_coinbase hlow (by omega)
      · rfl
  · simp [show env.areCoinbaseCheckAssetsDeployed = true from rfl]
  · have hissue : TransfersInRange env (issueGold 1001 7) := inRange_of_nil (by decide +kernel)
    have hmove : TransfersInRange env (moveGold [400, 600]) := by
      intro name
      rw [show transferOutputs env (moveGold [400, 600]) = [(ascii "GOLD", 400), (ascii "GOLD", 600)] by decide +kernel,
        exact_cons, exact_singleton, exact_singleton]
      split <;> decide
    simpa using goldChainThen_blocks (goldChain_blocks (fun n _ => blockAt_inRange (by simp))
      (blockAt_inRange (by simpa using hissue))) (blockAt_inRange (by simpa using hmove))

theorem inflated_gold_unbounded :
    ∃ st, AcceptedChain params .none ((goldChainThen (moveGold [9223372036854775807, 9223372036854775807, 1002])).map
        fun block => (env, block)) st ∧ env.areCoinbaseCheckAssetsDeployed = true ∧ nameValid (ascii "GOLD") = true ∧
      isAssetNameAnOwner (ascii "GOLD") = false ∧ ¬ SupplyBounded env st (ascii "GOLD") := by
  have h : ((runBlocks env (goldChainThen (moveGold [9223372036854775807, 9223372036854775807, 1002]))).toOption.any
      fun st => lookups env st.store ∅ (ascii "GOLD") == some gold &&
        st.coins.held (assetAmount env (ascii "GOLD")) ⟨8, 0⟩ == 9223372036854775807) = true := by decide +kernel
  obtain ⟨st, hchain, hst⟩ := goldChainThen_accepted h
  rw [Bool.and_eq_true, beq_iff_eq, beq_iff_eq] at hst
  refine ⟨st, hchain, rfl, by decide +kernel, by decide +kernel, fun hbounded => ?_⟩
  have hsum := hbounded.coins {⟨8, 0⟩}
  rw [Finset.sum_singleton, hst.1, hst.2] at hsum
  exact absurd hsum (by decide)

end Regtest

end Hivecoin

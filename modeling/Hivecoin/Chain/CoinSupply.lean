import Hivecoin.Chain.CoinFlow
import Hivecoin.Chain.Lemmas.Blocks
import Hivecoin.Chain.Reward

/-!
# The supply of coins

The supply is bounded while outputs with asset scripts, which `GetValueOut` may leave out, carry no money.
-/

namespace Hivecoin

open Outcome CoinsView Script

variable {E : Env} {S : Store} {R : Rules} {mempool : MempoolMaps} {tx : CTransaction}
variable {v : CAmount} {flags : CheckFlags} {out : CTxOut} {block : CBlock} {st st' : ConnectState} {B : Int} {P : ChainParams}

def money (coin : Coin) : Int := coin.out.nValue.toInt

theorem moneyRange_iff : moneyRange v = true ↔ 0 ≤ v.toInt ∧ v.toInt ≤ 2100000000000000000 := by
  simp only [moneyRange, test_iff, Int64.le_iff_toInt_le]
  exact Iff.rfl

theorem toInt_add_of_moneyRange {a} (hv : moneyRange v = true) (h : moneyRange (a + v) = true) :
    (a + v).toInt = a.toInt + v.toInt := by
  rw [moneyRange_iff] at hv h
  have ha := a.le_toInt
  have ha' := a.toInt_lt
  rw [Int64.toInt_add] at h ⊢
  rw [Int.bmod_def] at h ⊢
  split at h <;> omega

def countedValue (E : Env) (out : CTxOut) : Int :=
  if !E.areEnforcedValuesDeployed && (isAssetScript out.scriptPubKey).isSome then 0 else out.nValue.toInt

theorem getValueOut_ok (h : getValueOut E tx = .ok v) :
    0 ≤ v.toInt ∧ v.toInt = (tx.vout.map (countedValue E)).sum := by
  unfold getValueOut at h
  refine ⟨foldlM_induct (fun a : CAmount => 0 ≤ a.toInt) h le_rfl fun a out a' _ hstep ha => ?_, ?_⟩
  · split at hstep
    · cases hstep; exact ha
    · simp only [ok_iff, Bool.and_eq_true] at hstep
      obtain ⟨⟨-, hsum⟩, rfl⟩ := hstep
      exact (moneyRange_iff.1 hsum).1
  · have hsum := foldlM_sum Int64.toInt (countedValue E) h fun a out a' _ hstep => ?_
    · simpa using hsum
    · unfold countedValue
      split at hstep
      · cases hstep
        rw [if_pos (by assumption), Int.add_zero]
      · simp only [ok_iff, Bool.and_eq_true] at hstep
        obtain ⟨⟨hv, hsum⟩, rfl⟩ := hstep
        rw [if_neg (by assumption), toInt_add_of_moneyRange hv hsum]

theorem checkTxInputs_ok {view nSpendHeight fee}
    (h : checkTxInputs E view nSpendHeight tx = .ok fee) :
    moneyRange fee = true ∧ fee.toInt = (tx.vin.map fun txin => view.held money txin.prevout).sum -
      (tx.vout.map (countedValue E)).sum := by
  simp only [checkTxInputs, ok_iff, decide_eq_true_eq] at h
  obtain ⟨-, nValueIn, hin, value_out, hout, hle, hfee, rfl⟩ := h
  obtain ⟨hpos, hvalue⟩ := getValueOut_ok hout
  have hsum := foldlM_sum Int64.toInt (fun txin : CTxIn => view.held money txin.prevout) hin fun a txin a' _ hstep => ?_
  · refine ⟨hfee, ?_⟩
    rw [Int64.toInt_sub_of_le _ _ (Int64.le_iff_toInt_le.2 hpos) hle, hsum, hvalue]
    simp
  · unfold addInputValue at hstep
    cases hcoin : view txin.prevout with
    | none =>
      simp only [hcoin, Except.ok.injEq] at hstep
      simp [held, hcoin, hstep]
    | some coin =>
      simp only [hcoin, ok_iff, Bool.and_eq_true] at hstep
      obtain ⟨-, ⟨hv, hsum⟩, rfl⟩ := hstep
      simp [held, hcoin, money, toInt_add_of_moneyRange hv hsum]

/-- Reissue outputs carry no money, or they are counted. -/
def ValuesCounted (E : Env) (block : CBlock) : Prop :=
  E.areEnforcedValuesDeployed = true ∨ ∀ tx ∈ block.vtx, ∀ out ∈ tx.vout,
    (isAssetScript out.scriptPubKey).map (·.nType) = some .TX_REISSUE_ASSET → out.nValue = 0

theorem scanOut_value {st st'} (h : E.scanOut flags st out = .ok st') :
    0 ≤ out.nValue.toInt ∧ ((isAssetScript out.scriptPubKey).isSome = true →
      out.nValue = 0 ∨ (isAssetScript out.scriptPubKey).map (·.nType) = some .TX_REISSUE_ASSET) := by
  simp only [Env.scanOut, bind_eq_ok] at h
  obtain ⟨st1, hvalue, st2, -, hasset⟩ := h
  simp only [scanValue, ok_iff, decide_eq_true_eq] at hvalue
  refine ⟨Int64.le_iff_toInt_le.1 hvalue.1, fun hsome => ?_⟩
  obtain ⟨a, ha⟩ := Option.isSome_iff_exists.1 hsome
  simp only [Env.scanAsset, ha] at hasset
  split at hasset
  · simp only [Env.scanTransfer, ok_iff, beq_iff_eq] at hasset
    obtain ⟨_, -, _, -, -, -, -, hzero, -⟩ := hasset
    exact Or.inl hzero
  · simp only [ok_iff, beq_iff_eq] at hasset
    exact Or.inl hasset.1
  · rename_i ht
    exact Or.inr (by rw [ha, Option.map_some, ht])
  · cases hasset

theorem checkTransaction_values (h : E.checkTransaction flags tx = .ok ()) (hout : out ∈ tx.vout) : 0 ≤ out.nValue.toInt ∧ ((isAssetScript out.scriptPubKey).isSome = true →
      out.nValue = 0 ∨ (isAssetScript out.scriptPubKey).map (·.nType) = some .TX_REISSUE_ASSET) := by
  simp only [Env.checkTransaction, ok_iff] at h
  obtain ⟨-, -, -, scan, hscan, -⟩ := h
  obtain ⟨_, _, hstep⟩ := foldlM_step hscan hout
  exact scanOut_value hstep

theorem countedValue_eq (hcond : ValuesCounted E block) (hmem : tx ∈ block.vtx) (h : E.checkTransaction flags tx = .ok ())
    (hout : out ∈ tx.vout) :
    countedValue E out = out.nValue.toInt := by
  unfold countedValue
  split
  · rename_i hskip
    simp only [test_iff] at hskip
    have hzero : out.nValue = 0 := by
      rcases (checkTransaction_values h hout).2 hskip.2 with hz | hr
      · exact hz
      · rcases hcond with henf | hcond
        · rw [hskip.1] at henf; cases henf
        · exact hcond tx hmem out hout hr
    rw [hzero]
    rfl
  · rfl

/-- All that the outputs carry is counted, and none of it is negative. -/
structure Counted (E : Env) (tx : CTransaction) : Prop where
  nonneg : ∀ out ∈ tx.vout, 0 ≤ out.nValue.toInt
  counted : ∀ out ∈ tx.vout, countedValue E out = out.nValue.toInt

theorem sum_outCoins_le (h : Counted E tx) (nHeight : Nat) :
    (∀ coin ∈ outCoins tx nHeight, 0 ≤ money coin) ∧
      ((outCoins tx nHeight).map (added money)).sum ≤ (tx.vout.map (countedValue E)).sum := by
  have hpos : ∀ coin ∈ outCoins tx nHeight, 0 ≤ money coin := by
    intro coin hcoin
    obtain ⟨out, hout, rfl⟩ := List.mem_map.1 hcoin
    exact h.nonneg out hout
  refine ⟨hpos, (sum_added_le hpos).trans (le_of_eq ?_)⟩
  rw [outCoins, List.map_map]
  exact congrArg List.sum (List.map_congr_left fun out hout => (h.counted out hout).symm)

theorem connectTx_coinbase (h : connectTx E S R mempool block st tx = .ok st') (hcb : tx.isCoinBase = true)
    (hcount : Counted E tx) (hold : st.view.Holds money B) :
    st'.nFees = st.nFees ∧ st'.view.Holds money (B + (tx.vout.map (countedValue E)).sum) := by
  obtain ⟨nFees, r, -, hfees, -, hr, rfl⟩ := connectTx_ok h
  obtain ⟨hpos, hsum⟩ := sum_outCoins_le hcount block.nHeight
  obtain ⟨hprev, hholds⟩ := updateCoins_holds hr hpos hold
  rw [if_pos hcb] at hprev
  rw [hprev] at hholds
  exact ⟨hfees hcb, hholds.mono (by simp only [List.map_nil, List.sum_nil]; omega)⟩

theorem connectTx_fee (h : connectTx E S R mempool block st tx = .ok st') (hcb : tx.isCoinBase = false) (hcount : Counted E tx)
    (hold : st.view.Holds money B) :
    moneyRange st'.nFees = true ∧ st'.view.Holds money (B + st.nFees.toInt - st'.nFees.toInt) := by
  obtain ⟨nFees, r, hchecks, -, -, hr, rfl⟩ := connectTx_ok h
  obtain ⟨hpos, hsum⟩ := sum_outCoins_le hcount block.nHeight
  obtain ⟨hprev, hholds⟩ := updateCoins_holds hr hpos hold
  rw [if_neg (by simp [hcb])] at hprev
  have hfee : ∃ fee, checkTxInputs E st.view block.nHeight tx = .ok fee ∧ moneyRange (st.nFees + fee) = true ∧
      nFees = st.nFees + fee := by
    have hc := hchecks hcb
    simp only [connectChecks, bind_eq_ok, exists_unit, require_eq_ok] at hc
    obtain ⟨fee, hin, hrange, hc⟩ := hc
    refine ⟨fee, hin, hrange, ?_⟩
    split at hc
    · simp only [bind_eq_ok, pure_eq_ok] at hc
      obtain ⟨_, -, heq⟩ := hc
      exact heq.symm
    · simp only [bind_eq_ok, pure_eq_ok] at hc
      obtain ⟨_, -, heq⟩ := hc
      exact heq.symm
  obtain ⟨fee, hin, hrange, rfl⟩ := hfee
  obtain ⟨hfrange, hexact⟩ := checkTxInputs_ok hin
  refine ⟨hrange, hholds.mono ?_⟩
  rw [toInt_add_of_moneyRange hfrange hrange, sum_prevouts hprev]
  omega

theorem connectTxs_fees {vtx : List CTransaction} (h : vtx.foldlM (connectTx E S R mempool block) st = .ok st')
    (hcb : ∀ tx ∈ vtx, tx.isCoinBase = false) (hcount : ∀ tx ∈ vtx, Counted E tx) (hrange : moneyRange st.nFees = true)
    (hold : st.view.Holds money B) :
    moneyRange st'.nFees = true ∧ st'.view.Holds money (B + st.nFees.toInt - st'.nFees.toInt) := by
  induction vtx generalizing st B with
  | nil =>
    cases h
    exact ⟨hrange, hold.mono (by omega)⟩
  | cons tx vtx ih =>
    obtain ⟨st1, h1, h2⟩ := foldlM_cons_ok.mp h
    obtain ⟨hrange1, hold1⟩ := connectTx_fee h1 (hcb tx (by simp)) (hcount tx (by simp)) hold
    obtain ⟨hrange2, hold2⟩ := ih h2 (fun t ht => hcb t (by simp [ht])) (fun t ht => hcount t (by simp [ht])) hrange1 hold1
    exact ⟨hrange2, hold2.mono (by omega)⟩

def halved (halvings : Nat) : Int := if halvings ≥ 64 then 0 else 500000000000 / 2 ^ halvings

theorem halved_nonneg (halvings : Nat) : 0 ≤ halved halvings := by
  unfold halved
  split
  · exact le_rfl
  · exact Int.ediv_nonneg (by decide) (Int.pow_nonneg (by decide))

theorem toInt_getBlockSubsidy (P : ChainParams) (nHeight : Nat) :
    (getBlockSubsidy P nHeight).toInt = halved (nHeight / P.nSubsidyHalvingInterval) := by
  have hshift : ∀ n < 64, ((5000 * COIN : CAmount) >>> Int64.ofNat n).toInt = 500000000000 / 2 ^ n := by decide +kernel
  simp only [getBlockSubsidy, halved]
  split
  · rfl
  · exact hshift _ (by omega)

theorem getBlockSubsidy_range (P : ChainParams) (nHeight : Nat) :
    0 ≤ (getBlockSubsidy P nHeight).toInt ∧ (getBlockSubsidy P nHeight).toInt ≤ 500000000000 := by
  have hle : ∀ n, halved n ≤ 500000000000 := by
    intro n
    unfold halved
    split
    · decide
    · exact Int.ediv_le_self _ (by decide)
  rw [toInt_getBlockSubsidy]
  exact ⟨halved_nonneg _, hle _⟩

theorem checkReward_ok {coinbase vtx nFees}
    (h : checkReward E P block nFees = true) (hvtx : block.vtx = coinbase :: vtx) (hfees : moneyRange nFees = true) :
    (coinbase.vout.map (countedValue E)).sum ≤ nFees.toInt + (getBlockSubsidy P block.nHeight).toInt := by
  simp only [checkReward, hvtx, List.head?_cons, Bool.and_eq_true] at h
  obtain ⟨h, -⟩ := h
  cases hv : getValueOut E coinbase with
  | error e => simp [hv] at h
  | ok v =>
    simp only [hv, decide_eq_true_eq, Int64.le_iff_toInt_le] at h
    rw [← (getValueOut_ok hv).2]
    obtain ⟨hpos, hle⟩ := getBlockSubsidy_range P block.nHeight
    have hrange := moneyRange_iff.1 hfees
    rw [Int64.toInt_add, Int.bmod_eq_of_le (by omega) (by omega)] at h
    exact h

theorem connectTip_supply {st : ChainState} {r : ChainState × CBlockUndo}
    (h : connectTip E (R.withReward E P) mempool st block = .ok r) (hcond : ValuesCounted E block)
    (hold : st.coins.Holds money B) : r.1.coins.Holds money (B + (getBlockSubsidy P block.nHeight).toInt) := by
  obtain ⟨coinbase, vtx, cs0, cs, hvtx, hcb, hrest, hcheck, h0, hloop, hreward, rfl⟩ := connectTip_ok h
  have hcount : ∀ tx ∈ block.vtx, Counted E tx := fun tx htx =>
    ⟨fun out hout => (checkTransaction_values (hcheck tx htx) hout).1,
      fun out hout => countedValue_eq hcond htx (hcheck tx htx) hout⟩
  rw [hvtx] at hcount
  obtain ⟨hzero, hold0⟩ := connectTx_coinbase h0 hcb (hcount coinbase (by simp)) hold
  obtain ⟨hfees, hold1⟩ := connectTxs_fees hloop hrest (fun tx htx => hcount tx (by simp [htx]))
    (by rw [hzero]; rfl) hold0
  have hpaid := checkReward_ok hreward hvtx hfees
  refine hold1.mono ?_
  rw [hzero, show ((0 : CAmount)).toInt = 0 from rfl]
  omega

open Finset in
theorem acceptedChain_holds {chain st} (h : AcceptedChain P R chain st)
    (hcond : ∀ entry ∈ chain, ValuesCounted entry.1 entry.2) :
    st.coins.Holds money (∑ k ∈ range (chain.length + 1), (getBlockSubsidy P k).toInt) := by
  induction h with
  | genesis => exact (Holds.empty money).mono (sum_nonneg fun k _ => (getBlockSubsidy_range P k).1)
  | connect h hheight hblock ih =>
    have hold := ih fun entry hentry => hcond entry (List.mem_append_left _ hentry)
    have hnext := connectTip_supply hblock (hcond _ (List.mem_append_right _ (List.mem_singleton.2 rfl))) hold
    rw [hheight, ← sum_range_succ] at hnext
    simpa only [List.length_append, List.length_singleton] using hnext
  | dump E h ih => exact ih hcond
  | cacheEvent event h ih => exact ih hcond

open Finset in
theorem sum_subsidies_le (hP : P.nSubsidyHalvingInterval = 2100000) (n : Nat) :
    ∑ k ∈ range n, (getBlockSubsidy P k).toInt ≤ MAX_MONEY.toInt := by
  simp only [toInt_getBlockSubsidy, hP]
  have hseries : (2100000 : Nat) * ∑ i ∈ range 64, halved i ≤ MAX_MONEY.toInt := by decide +kernel
  exact (sum_range_div_le (by decide) halved_nonneg (fun i hi => if_pos hi) n).trans hseries

open Finset in
/-- While reissue outputs are zero or counted, the coins are bounded by the subsidies. -/
theorem coinSupply_bounded {P : ChainParams} {chain : List (Env × CBlock)} {st : ChainState}
    (h : AcceptedChain P R chain st) (hcond : ∀ entry ∈ chain, ValuesCounted entry.1 entry.2) (utxos : Finset COutPoint) :
    ∑ out ∈ utxos, st.coins.held money out ≤ ∑ k ∈ range (chain.length + 1), (getBlockSubsidy P k).toInt ∧
      (P.nSubsidyHalvingInterval = 2100000 → ∑ out ∈ utxos, st.coins.held money out ≤ MAX_MONEY.toInt) := by
  have hsum := (acceptedChain_holds h hcond).atMost utxos
  exact ⟨hsum, fun hP => hsum.trans (sum_subsidies_le hP _)⟩

namespace Regtest

/-- `ENFORCE_VALUE` is the one deployment that is not active. -/
def freeValueEnv : Env := { env with areEnforcedValuesDeployed := false }

/-- A reissue carries ten thousand million coins, which `GetValueOut` does not count. -/
def mintCoins : CTransaction where
  vin := [⟨⟨1002, 0⟩, []⟩, ⟨⟨7, 1⟩, []⟩]
  vout := [burnOut .REISSUE, ownerGoldOut, ⟨10000000000 * COIN, reissueScript alice ⟨ascii "GOLD", 500, -1, 1, []⟩⟩]
  hash := 8

theorem mintCoins_exceeds_subsidies :
    ∃ st, AcceptedChain params .none ((goldChainThen mintCoins).map fun block => (freeValueEnv, block)) st ∧
      ∑ k ∈ Finset.range 103, (getBlockSubsidy params k).toInt < st.coins.held money ⟨8, 2⟩ := by
  obtain ⟨st, hchain, hcoin⟩ := @goldChainThen_accepted freeValueEnv mintCoins
    (fun st => st.coins.held money ⟨8, 2⟩ = 1000000000000000000) (by decide +kernel)
  refine ⟨st, hchain, ?_⟩
  rw [of_decide_eq_true hcoin]
  decide +kernel

theorem goldChain_supply_bounded :
    ∃ st, AcceptedChain params .none (goldChain.map fun block => (env, block)) st ∧
      st.coins.held money ⟨1002, 0⟩ = 400000000000 ∧
      ∀ utxos : Finset COutPoint, ∑ out ∈ utxos, st.coins.held money out ≤
        ∑ k ∈ Finset.range 102, (getBlockSubsidy params k).toInt := by
  have h : ((runBlocks env goldChain).toOption.any fun st => st.coins.held money ⟨1002, 0⟩ == 400000000000) = true := by
    decide +kernel
  obtain ⟨st, hrun, hheld⟩ := (Option.any_eq_true ..).mp h
  have hchain := runBlocks_accepted (toOption_eq_some.mp hrun) (by decide +kernel)
  refine ⟨st, hchain, beq_iff_eq.mp hheld, fun utxos => ?_⟩
  have hsum := (coinSupply_bounded hchain (fun entry hentry => ?_) utxos).1
  · rwa [List.length_map, show goldChain.length = 101 by decide +kernel] at hsum
  · obtain ⟨block, -, rfl⟩ := List.mem_map.mp hentry
    exact Or.inl rfl

end Regtest

end Hivecoin

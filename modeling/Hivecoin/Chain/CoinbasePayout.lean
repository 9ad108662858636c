import Hivecoin.Chain.CoinSupply

/-!
# The payout of the coinbase

The section of `ConnectBlock` that checks the reward, and the coinbase that `CreateNewBlock` builds.
-/

namespace Hivecoin

open Outcome CoinsView List Option

variable {st st' : OutputScan} {out : CTxOut} {flags : CheckFlags}

/-- How the section can end other than by going on. -/
inductive RewardFailure where
  | rejected (reject : Reject)
  | exception (reject : Reject)
  | outOfRange
deriving DecidableEq

def communityScript (E : Env) (P : ChainParams) : Bytes :=
  scriptForDestination (E.decodeDestination P.communityAutonomousAddress)

def communityValue (P : ChainParams) (nHeight : Nat) : CAmount :=
  getBlockSubsidy P nHeight * P.communityAutonomousAmount / 100

def rewardSection (E : Env) (P : ChainParams) (block : CBlock) (nFees : CAmount) : Except RewardFailure Unit := do
  let coinbase ← orError block.vtx.head? .outOfRange
  let nValueOut ← (getValueOut E coinbase).mapError .exception
  require (nValueOut ≤ nFees + getBlockSubsidy P block.nHeight) (.rejected ⟨100, "bad-cb-amount"⟩)
  -- the log line before the two tests reads the second output, which nothing has looked for
  let second ← orError coinbase.vout[1]? .outOfRange
  require (second.nValue == communityValue P block.nHeight) (.rejected ⟨100, "bad-cb-community-autonomous-amount"⟩)
  require (second.scriptPubKey == communityScript E P) (.rejected ⟨100, "bad-cb-community-autonomous-address"⟩)

variable {E : Env} {P : ChainParams} {R : Rules} {block : CBlock} {nFees : CAmount} {tx coinbase : CTransaction}

theorem toInt_share {amount share : CAmount} (hamount : 0 ≤ amount.toInt ∧ amount.toInt ≤ 500000000000)
    (hshare : 0 ≤ share.toInt ∧ share.toInt ≤ 100) : (amount * share / 100).toInt = amount.toInt * share.toInt / 100 := by
  have hnonneg : 0 ≤ amount.toInt * share.toInt := mul_nonneg hamount.1 hshare.1
  have hle : amount.toInt * share.toInt ≤ 500000000000 * 100 := mul_le_mul hamount.2 hshare.2 hshare.1 (by decide)
  have hmul : (amount * share).toInt = amount.toInt * share.toInt := by
    rw [Int64.toInt_mul, Int.bmod_eq_of_le (by omega) (by omega)]
  rw [Int64.toInt_div, hmul, Int.tdiv_eq_ediv_of_nonneg hnonneg]
  have h100 : (100 : CAmount).toInt = 100 := rfl
  rw [h100, Int.bmod_eq_of_le (by omega) (by omega)]

theorem scanNullAsset_value (h : E.scanNullAsset st out = .ok st') : st'.nValueOut = st.nValueOut := by
  unfold Env.scanNullAsset at h
  split at h
  · simp only [Env.scanNullAssetTxData, ok_iff] at h
    obtain ⟨_, -, -, -, rfl⟩ := h
    rfl
  split at h
  · simp only [Env.scanNullGlobal, ok_iff] at h
    obtain ⟨_, -, -, -, rfl⟩ := h
    rfl
  split at h
  · simp only [Env.scanNullVerifier, ok_iff] at h
    obtain ⟨-, -, rfl⟩ := h
    rfl
  · cases h
    rfl

theorem scanAsset_value (h : E.scanAsset flags st out = .ok st') : st'.nValueOut = st.nValueOut := by
  unfold Env.scanAsset at h
  split at h
  · cases h
    rfl
  split at h
  · simp only [Env.scanTransfer, ok_iff] at h
    obtain ⟨_, -, _, -, -, -, -, -, rfl⟩ := h
    rfl
  · simp only [ok_iff] at h
    rw [h.2]
  · simp only [ok_iff] at h
    rw [h.2.2]
  · cases h

theorem scanOut_total (h : E.scanOut flags st out = .ok st') :
    st'.nValueOut.toInt = st.nValueOut.toInt + out.nValue.toInt ∧ moneyRange st'.nValueOut = true := by
  simp only [Env.scanOut, scanValue, ok_iff, decide_eq_true_eq] at h
  obtain ⟨st1, ⟨hpos, hle, hsum, rfl⟩, st2, hnull, hasset⟩ := h
  have hvalue : moneyRange out.nValue = true := by simp [moneyRange, hpos, hle]
  rw [scanAsset_value hasset, scanNullAsset_value hnull]
  exact ⟨toInt_add_of_moneyRange hvalue hsum, hsum⟩

theorem checkTransaction_total (h : E.checkTransaction flags tx = .ok ()) :
    (tx.vout.map fun out => out.nValue.toInt).sum ≤ 2100000000000000000 := by
  simp only [Env.checkTransaction, ok_iff] at h
  obtain ⟨-, -, -, scan, hscan, -⟩ := h
  have hsum := foldlM_sum (fun st : OutputScan => st.nValueOut.toInt) (fun out : CTxOut => out.nValue.toInt) hscan
    fun st out st' _ hstep => (scanOut_total hstep).1
  have hrange := foldlM_induct (fun st : OutputScan => moneyRange st.nValueOut = true) hscan (by decide)
    fun st out st' _ hstep _ => (scanOut_total hstep).2
  have hzero : (0 : CAmount).toInt = 0 := rfl
  rw [hzero, Int.zero_add] at hsum
  exact hsum ▸ (moneyRange_iff.1 hrange).2

theorem getValueOut_succeeds (hpos : ∀ out ∈ tx.vout, 0 ≤ out.nValue.toInt)
    (hsum : (tx.vout.map fun out => out.nValue.toInt).sum ≤ 2100000000000000000) : ∃ v, getValueOut E tx = .ok v := by
  -- what is counted so far and what is still to come stay within the money range
  refine foldlM_succeeds (fun (a : CAmount) outs => 0 ≤ a.toInt ∧ (∀ out ∈ outs, 0 ≤ out.nValue.toInt) ∧
    a.toInt + (outs.map fun out : CTxOut => out.nValue.toInt).sum ≤ 2100000000000000000) (fun a out outs ⟨ha, hpos, hsum⟩ => ?_)
    ⟨le_rfl, hpos, by simpa using hsum⟩
  rw [forall_mem_cons] at hpos
  rw [map_cons, sum_cons] at hsum
  have hrest : 0 ≤ (outs.map fun out : CTxOut => out.nValue.toInt).sum := sum_nonneg (by simpa using hpos.2)
  split
  · exact ⟨a, rfl, ha, hpos.2, by omega⟩
  · have hadd : (a + out.nValue).toInt = a.toInt + out.nValue.toInt := by
      rw [Int64.toInt_add, Int.bmod_eq_of_le (by omega) (by omega)]
    refine ⟨a + out.nValue, ?_, by omega, hpos.2, by omega⟩
    simp only [ok_iff, Bool.and_eq_true, moneyRange_iff, hadd, and_true]
    omega

theorem toInt_reward (hfees : moneyRange nFees = true) (nHeight : Nat) :
    (nFees + getBlockSubsidy P nHeight).toInt = nFees.toInt + (getBlockSubsidy P nHeight).toInt := by
  obtain ⟨hpos, hle⟩ := getBlockSubsidy_range P nHeight
  have hrange := moneyRange_iff.1 hfees
  rw [Int64.toInt_add, Int.bmod_eq_of_le (by omega) (by omega)]

/-! ## What is accepted -/

def coinbaseTotal (E : Env) (coinbase : CTransaction) : Int := (coinbase.vout.map (countedValue E)).sum

def rewardLimit (P : ChainParams) (block : CBlock) (nFees : CAmount) : Int :=
  nFees.toInt + (getBlockSubsidy P block.nHeight).toInt

/-- The community's share of the subsidy is a percentage. -/
def ChainParams.SharesSubsidy (P : ChainParams) : Prop :=
  0 ≤ P.communityAutonomousAmount.toInt ∧ P.communityAutonomousAmount.toInt ≤ 100

/-- The payout within the limit, with the community's share in the second output. -/
def PaysExactly (E : Env) (P : ChainParams) (block : CBlock) (nFees : CAmount) (coinbase : CTransaction) : Prop :=
  coinbaseTotal E coinbase ≤ rewardLimit P block nFees ∧ ∃ second, coinbase.vout[1]? = some second ∧
    second.nValue.toInt = (getBlockSubsidy P block.nHeight).toInt * P.communityAutonomousAmount.toInt / 100 ∧
    second.scriptPubKey = communityScript E P

theorem second_value_iff (hshare : P.SharesSubsidy) (nHeight : Nat) {v : CAmount} :
    v = communityValue P nHeight ↔ v.toInt = (getBlockSubsidy P nHeight).toInt * P.communityAutonomousAmount.toInt / 100 := by
  rw [← toInt_share (getBlockSubsidy_range P nHeight) hshare, Int64.toInt_inj, communityValue]

/-- The section succeeds exactly where the payout is right and `GetValueOut` can add it up. -/
theorem rewardSection_ok_iff (hshare : P.SharesSubsidy) (hfees : moneyRange nFees = true) (hhead : block.vtx.head? = some coinbase) :
    rewardSection E P block nFees = .ok () ↔ (∃ v, getValueOut E coinbase = .ok v) ∧ PaysExactly E P block nFees coinbase := by
  simp only [rewardSection, PaysExactly, hhead, ok_iff, test_iff, second_value_iff hshare, some.injEq, exists_eq_left']
  have hlimit : ∀ v, getValueOut E coinbase = .ok v →
      (v ≤ nFees + getBlockSubsidy P block.nHeight ↔ coinbaseTotal E coinbase ≤ rewardLimit P block nFees) := by
    intro v hv
    rw [Int64.le_iff_toInt_le, toInt_reward hfees, (getValueOut_ok hv).2, coinbaseTotal, rewardLimit]
  constructor
  · rintro ⟨v, hv, hle, hsecond⟩
    exact ⟨⟨v, hv⟩, (hlimit v hv).1 hle, hsecond⟩
  · rintro ⟨⟨v, hv⟩, hle, hsecond⟩
    exact ⟨v, hv, (hlimit v hv).2 hle, hsecond⟩

/-- Past the limit without a second output the section reads an output that is not there. -/
theorem rewardSection_outOfRange_iff {v} (hfees : moneyRange nFees = true) (hhead : block.vtx.head? = some coinbase)
    (hv : getValueOut E coinbase = .ok v) : rewardSection E P block nFees = .error .outOfRange ↔
      coinbaseTotal E coinbase ≤ rewardLimit P block nFees ∧ coinbase.vout.length < 2 := by
  have hlimit : v ≤ nFees + getBlockSubsidy P block.nHeight ↔ coinbaseTotal E coinbase ≤ rewardLimit P block nFees := by
    rw [Int64.le_iff_toInt_le, toInt_reward hfees, (getValueOut_ok hv).2, coinbaseTotal, rewardLimit]
  simp only [rewardSection, hhead, hv, mapError_ok, bind_eq_error, orError_eq_error, require_eq_error, ok_iff,
    reduceCtorEq, and_false, false_or, or_false, exists_false, some.injEq, exists_eq_left', Except.ok.injEq, and_true,
    decide_eq_true_eq, hlimit, List.getElem?_eq_none_iff, Nat.lt_succ_iff]

/-- What a block needs for the section to be total and exact on it. -/
def SecondOutputReached (E : Env) (P : ChainParams) (block : CBlock) (nFees : CAmount) (coinbase : CTransaction) : Prop :=
  2 ≤ coinbase.vout.length ∨ rewardLimit P block nFees < coinbaseTotal E coinbase

theorem checkBlock_coinbase (h : checkBlock E R block = .ok ()) : ∃ coinbase, block.vtx.head? = some coinbase ∧
    ∃ v, getValueOut E coinbase = .ok v := by
  simp only [checkBlock, ok_iff] at h
  obtain ⟨-, hfirst, -, hall⟩ := h
  cases hvtx : block.vtx with
  | nil =>
    rw [hvtx] at hfirst
    cases hfirst
  | cons coinbase vtx =>
    rw [hvtx, forM_eq_ok] at hall
    have htx := hall coinbase mem_cons_self
    exact ⟨coinbase, rfl, getValueOut_succeeds (fun out hout => (checkTransaction_values htx hout).1) (checkTransaction_total htx)⟩

/-- On a block that `CheckBlock` accepts, the section reads only outputs that are there and accepts exactly the right
payouts, if and only if the coinbase has a second output or pays too much. -/
theorem rewardSection_exact_iff (hblock : checkBlock E R block = .ok ()) (hshare : P.SharesSubsidy) (hfees : moneyRange nFees = true) :
    (rewardSection E P block nFees ≠ .error .outOfRange ∧
      (rewardSection E P block nFees = .ok () ↔ ∃ coinbase, block.vtx.head? = some coinbase ∧ PaysExactly E P block nFees coinbase)) ↔
    ∃ coinbase, block.vtx.head? = some coinbase ∧ SecondOutputReached E P block nFees coinbase := by
  obtain ⟨coinbase, hhead, v, hv⟩ := checkBlock_coinbase hblock
  have hok : rewardSection E P block nFees = .ok () ↔ PaysExactly E P block nFees coinbase := by
    rw [rewardSection_ok_iff hshare hfees hhead]
    exact and_iff_right ⟨v, hv⟩
  simp only [hhead, some.injEq, exists_eq_left', hok, and_true]
  rw [Ne, rewardSection_outOfRange_iff hfees hhead hv, SecondOutputReached]
  omega

namespace Regtest

def payoutBlock (outs : List CTxOut) : CBlock := ⟨[⟨[⟨⟨0, 4294967295⟩, heightScript 1 ++ [0]⟩], outs, 1001⟩], 5001, 1⟩

def sharedOutputs : List CTxOut := (coinbaseAt 1 []).vout

/-- A coinbase with one output passes `CheckBlock`, and its second output is read. -/
theorem missing_output_read :
    checkBlock env .none (payoutBlock [⟨400000000000, scriptForKeyID alice⟩]) = .ok () ∧
      rewardSection env params (payoutBlock [⟨400000000000, scriptForKeyID alice⟩]) 0 = .error .outOfRange := by
  decide +kernel

theorem shared_subsidy_accepted :
    rewardSection env params (payoutBlock sharedOutputs) 0 ≠ .error .outOfRange ∧
      (rewardSection env params (payoutBlock sharedOutputs) 0 = .ok () ↔ ∃ coinbase,
        (payoutBlock sharedOutputs).vtx.head? = some coinbase ∧ PaysExactly env params (payoutBlock sharedOutputs) 0 coinbase) :=
  (rewardSection_exact_iff (R := .none) (by decide +kernel) ⟨by decide, by decide⟩ (by decide)).2 ⟨_, rfl, Or.inl (by decide)⟩

end Regtest

/-! ## The coinbase of a block template -/

/-- The coinbase of `CreateNewBlock`, with the hash that it gets. -/
def createCoinbase (E : Env) (P : ChainParams) (nHeight : Nat) (nFees : CAmount) (scriptPubKeyIn : Bytes) (hash : Uint256) :
    CTransaction where
  vin := [⟨⟨0, 4294967295⟩, heightScript nHeight ++ [0]⟩]
  vout := [⟨nFees + (100 - P.communityAutonomousAmount) * getBlockSubsidy P nHeight / 100, scriptPubKeyIn⟩,
    ⟨communityValue P nHeight, communityScript E P⟩]
  hash

def commitmentHeader : Bytes := [OP_RETURN, 0x24, 0xaa, 0x21, 0xa9, 0xed]

/-- `GetWitnessCommitmentIndex` finds an output. -/
def hasWitnessCommitment (coinbase : CTransaction) : Bool :=
  coinbase.vout.any fun out => 38 ≤ out.scriptPubKey.length && out.scriptPubKey.take 6 == commitmentHeader

/-- `GenerateCoinbaseCommitment`; `witnessroot` are the 32 bytes. -/
def generateCoinbaseCommitment (nSegwitEnabled : Bool) (witnessroot : Bytes) (hash : Uint256) (coinbase : CTransaction) : CTransaction :=
  if nSegwitEnabled && !hasWitnessCommitment coinbase then
    { coinbase with vout := coinbase.vout ++ [⟨0, commitmentHeader ++ witnessroot⟩], hash }
  else coinbase

theorem toInt_minerValue (hshare : P.SharesSubsidy) (hfees : moneyRange nFees = true) (nHeight : Nat) :
    0 ≤ (communityValue P nHeight).toInt ∧
    nFees.toInt ≤ (nFees + (100 - P.communityAutonomousAmount) * getBlockSubsidy P nHeight / 100).toInt ∧
    (nFees + (100 - P.communityAutonomousAmount) * getBlockSubsidy P nHeight / 100).toInt + (communityValue P nHeight).toInt ≤
      nFees.toInt + (getBlockSubsidy P nHeight).toInt := by
  obtain ⟨hpos, hle⟩ := getBlockSubsidy_range P nHeight
  have hrange := moneyRange_iff.1 hfees
  have hrest : (100 - P.communityAutonomousAmount).toInt = 100 - P.communityAutonomousAmount.toInt := by
    have h100 : (100 : CAmount).toInt = 100 := rfl
    obtain ⟨hlow, hhigh⟩ := hshare
    rw [Int64.toInt_sub, h100, Int.bmod_eq_of_le (by omega) (by omega)]
  have hminer : ((100 - P.communityAutonomousAmount) * getBlockSubsidy P nHeight / 100).toInt =
      (getBlockSubsidy P nHeight).toInt * (100 - P.communityAutonomousAmount.toInt) / 100 := by
    obtain ⟨hlow, hhigh⟩ := hshare
    rw [Int64.mul_comm, toInt_share ⟨hpos, hle⟩ (by omega), hrest]
  have hcommunity : (communityValue P nHeight).toInt =
      (getBlockSubsidy P nHeight).toInt * P.communityAutonomousAmount.toInt / 100 := toInt_share ⟨hpos, hle⟩ hshare
  have hcommunity_nonneg : 0 ≤ (getBlockSubsidy P nHeight).toInt * P.communityAutonomousAmount.toInt := mul_nonneg hpos hshare.1
  have hminer_nonneg : 0 ≤ (getBlockSubsidy P nHeight).toInt * (100 - P.communityAutonomousAmount.toInt) :=
    mul_nonneg hpos (sub_nonneg.2 hshare.2)
  have hparts : (getBlockSubsidy P nHeight).toInt * (100 - P.communityAutonomousAmount.toInt) +
      (getBlockSubsidy P nHeight).toInt * P.communityAutonomousAmount.toInt = (getBlockSubsidy P nHeight).toInt * 100 := by
    rw [← mul_add, sub_add_cancel]
  have hadd : (nFees + (100 - P.communityAutonomousAmount) * getBlockSubsidy P nHeight / 100).toInt =
      nFees.toInt + (getBlockSubsidy P nHeight).toInt * (100 - P.communityAutonomousAmount.toInt) / 100 := by
    rw [Int64.toInt_add, hminer, Int.bmod_eq_of_le (by omega) (by omega)]
  omega

theorem countedValue_le (h : 0 ≤ out.nValue.toInt) : countedValue E out ≤ out.nValue.toInt := by
  unfold countedValue
  split
  · exact h
  · exact le_rfl

theorem rewardSection_template (scriptPubKeyIn : Bytes) (extra : List CTxOut) (hshare : P.SharesSubsidy) (hfees : moneyRange nFees = true)
    (hlimit : nFees.toInt + (getBlockSubsidy P block.nHeight).toInt ≤ 2100000000000000000)
    (hhead : block.vtx.head? = some coinbase)
    (hvout : coinbase.vout = (createCoinbase E P block.nHeight nFees scriptPubKeyIn coinbase.hash).vout ++ extra)
    (hextra : ∀ out ∈ extra, out.nValue = 0) : rewardSection E P block nFees = .ok () := by
  obtain ⟨hcommunity, hminer, hsum⟩ := toInt_minerValue hshare hfees block.nHeight
  have hfees_nonneg := (moneyRange_iff.1 hfees).1
  have hvalues : ∀ out ∈ coinbase.vout, 0 ≤ out.nValue.toInt := by
    intro out hout
    rw [hvout] at hout
    simp only [createCoinbase, cons_append, nil_append, mem_cons] at hout
    rcases hout with rfl | rfl | hout
    · exact hfees_nonneg.trans hminer
    · exact hcommunity
    · rw [hextra out hout]
      exact le_rfl
  have hextra_sum : (extra.map fun out => out.nValue.toInt).sum = 0 := by
    refine sum_eq_zero fun v hv => ?_
    obtain ⟨out, hout, rfl⟩ := mem_map.1 hv
    rw [hextra out hout]
    rfl
  have htotal : (coinbase.vout.map fun out => out.nValue.toInt).sum ≤ nFees.toInt + (getBlockSubsidy P block.nHeight).toInt := by
    rw [hvout, map_append, sum_append, hextra_sum]
    simpa only [createCoinbase, map_cons, map_nil, sum_cons, sum_nil, add_zero] using hsum
  have hcounted : coinbaseTotal E coinbase ≤ (coinbase.vout.map fun out => out.nValue.toInt).sum :=
    sum_le_sum fun out hout => countedValue_le (hvalues out hout)
  refine (rewardSection_ok_iff hshare hfees hhead).2 ⟨getValueOut_succeeds hvalues (htotal.trans hlimit), hcounted.trans htotal, ?_⟩
  refine ⟨⟨communityValue P block.nHeight, communityScript E P⟩, ?_, (second_value_iff hshare block.nHeight).1 rfl, rfl⟩
  rw [hvout]
  rfl

def templateBlock (nHeight : Nat) (coinbase : CTransaction) (vtx : List CTransaction) (hash : Uint256) : CBlock := ⟨coinbase :: vtx, hash, nHeight⟩

/-- While fees and subsidy are in the money range, the coinbase of a template is accepted. -/
theorem createCoinbase_accepted {nHeight : Nat} {scriptPubKeyIn : Bytes} (hshare : P.SharesSubsidy) (hfees : moneyRange nFees = true)
    (hlimit : nFees.toInt + (getBlockSubsidy P nHeight).toInt ≤ MAX_MONEY.toInt) (vtx : List CTransaction) (nSegwitEnabled : Bool)
    (witnessroot : Bytes) (hash hash' blockHash : Uint256) :
    let coinbase := createCoinbase E P nHeight nFees scriptPubKeyIn hash
    rewardSection E P (templateBlock nHeight coinbase vtx blockHash) nFees = .ok () ∧
    rewardSection E P (templateBlock nHeight (generateCoinbaseCommitment nSegwitEnabled witnessroot hash' coinbase) vtx blockHash) nFees =
      .ok () := by
  intro coinbase
  have hplain : rewardSection E P (templateBlock nHeight coinbase vtx blockHash) nFees = .ok () :=
    rewardSection_template scriptPubKeyIn [] hshare hfees hlimit rfl rfl (by simp)
  refine ⟨hplain, ?_⟩
  unfold generateCoinbaseCommitment
  split
  · exact rewardSection_template scriptPubKeyIn [⟨0, commitmentHeader ++ witnessroot⟩] hshare hfees hlimit rfl rfl (by simp)
  · exact hplain

namespace Regtest

def minedCoinbase (nFees : CAmount) : CTransaction := createCoinbase env params 1 nFees (scriptForKeyID alice) 1001

theorem fees_at_limit_refused : moneyRange MAX_MONEY = true ∧
    rewardSection env params (templateBlock 1 (minedCoinbase MAX_MONEY) [] 5001) MAX_MONEY =
      .error (.exception ⟨0, "GetValueOut: value out of range"⟩) := by
  decide +kernel

theorem mined_fees_accepted :
    rewardSection env params (templateBlock 1 (minedCoinbase 12345) [] 5001) 12345 = .ok () ∧
    rewardSection env params (templateBlock 1 (generateCoinbaseCommitment true (List.replicate 32 7) 1002 (minedCoinbase 12345)) [] 5001)
      12345 = .ok () :=
  createCoinbase_accepted ⟨by decide, by decide⟩ (by decide) (by decide) [] true _ 1001 1002 5001

end Regtest

end Hivecoin

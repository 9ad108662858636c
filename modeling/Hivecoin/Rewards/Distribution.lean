import Hivecoin.Chain.Coins

/-!
# Paying rewards to the holders of an asset

`GenerateDistributionList` and `DistributeRewardSnapshot` of `rewards.cpp`.
-/

namespace Hivecoin

open List Option

structure OwnerAndAmount where
  address : Bytes
  amount : CAmount
deriving DecidableEq

/-- What is read of `CRewardSnapshot`. -/
structure CRewardSnapshot where
  strDistributionAsset : Bytes
  strExceptionAddresses : Bytes
  nDistributionAmount : CAmount

/-- What the node knows at a call: units, whether the owned asset is known, and its holders by address. -/
structure RewardData where
  units : Option Int8
  ownershipKnown : Bool
  ownersAndAmounts : Option (List OwnerAndAmount)
  distinct : ∀ owners ∈ ownersAndAmounts, (owners.map OwnerAndAmount.address).Nodup

def strGlobalBurnAddress : Network → Bytes
  | .MAIN => ascii "HGB9SBEayhhyC978vXh2Pgdjg8md2MKf7x"
  | _ => ascii "JGYQBki6wWWnJLp2dcgdtNZWs9a2e1nXM3"

def isBurnAddress (network : Network) (address : Bytes) : Bool :=
  ([.ROOT, .REISSUE, .SUB, .UNIQUE, .MSGCHANNEL, .QUALIFIER, .SUB_QUALIFIER, .RESTRICTED, .NULL_ADD_QUALIFIER].any fun type =>
    address == getBurnAddress network type) || address == strGlobalBurnAddress network

def MAX_PAYMENTS_PER_TRANSACTION : Nat := 1000

section

variable (network : Network) (portion : CAmount → CAmount → CAmount → CAmount → CAmount) (request : CRewardSnapshot)

def COMMA : UInt8 := 44

/-- The payments; the share `portion owned total payment scale` is computed in `long double`. -/
def generateDistributionList (data : RewardData) : Option (List OwnerAndAmount) := do
  let native := request.strDistributionAsset == ascii "HVN" || request.strDistributionAsset == ascii "HVQ"
  let units ← (if native then some CNewAsset.null.units else data.units)
  let scale : CAmount := Int64.ofInt (10 ^ (8 - units.toInt).toNat)
  let payment := if native then request.nDistributionAmount else request.nDistributionAmount / scale
  guard data.ownershipKnown
  let owners ← data.ownersAndAmounts
  let exceptions := request.strExceptionAddresses.splitOn COMMA
  let owners := owners.filter fun owner => !exceptions.contains owner.address && !isBurnAddress network owner.address
  guard (owners ≠ [])
  let total := (owners.map OwnerAndAmount.amount).sum
  let rewards := owners.map fun owner => OwnerAndAmount.mk owner.address (portion owner.amount total payment scale / scale * scale)
  return rewards.filter fun reward => 0 < reward.amount

def batch (payments : List OwnerAndAmount) (i : Nat) : List OwnerAndAmount :=
  (payments.drop (i * MAX_PAYMENTS_PER_TRANSACTION)).take MAX_PAYMENTS_PER_TRANSACTION

def nNumberOfTransactions (payments : List OwnerAndAmount) : Nat := payments.length / MAX_PAYMENTS_PER_TRANSACTION + 1

def batches (payments : List OwnerAndAmount) : List (List OwnerAndAmount) := (range (nNumberOfTransactions payments)).map (batch payments)

/-- The wallet at a call: whether it is unlocked and synced, its depths, and which batches it submits. -/
structure RewardCall where
  data : RewardData
  ready : Bool
  depth : Uint256 → Option Int
  buildTransaction : Nat → Option Uint256

/-- The transactions by batch number, and the batches that were submitted. -/
structure PayoutState where
  db : Table Nat Uint256
  submitted : List (List OwnerAndAmount)

def payBatches (payments : List OwnerAndAmount) (call : RewardCall) : List Nat → PayoutState → PayoutState
  | [], st => st
  | i :: is, st =>
    match st.db.get? i with
    | some txid =>
      match call.depth txid with
      | some depth => if depth ≤ 0 then st else payBatches payments call is st
      | none => payBatches payments call is st
    | none =>
      match call.buildTransaction i with
      | none => st
      | some txid => payBatches payments call is ⟨st.db.insert i txid, st.submitted ++ [batch payments i]⟩

def distributeRewardSnapshot (st : PayoutState) (call : RewardCall) : PayoutState :=
  if call.ready then
    match generateDistributionList network portion request call.data with
    | none => st
    | some payments => payBatches payments call (range (nNumberOfTransactions payments)) st
  else st

def distributeAll (calls : List RewardCall) : PayoutState := calls.foldl (distributeRewardSnapshot network portion request) ⟨∅, []⟩

end

variable {network : Network} {portion : CAmount → CAmount → CAmount → CAmount → CAmount} {request : CRewardSnapshot}
variable {payments : List OwnerAndAmount} {st : PayoutState}

theorem generateDistributionList_distinct {data} (h : generateDistributionList network portion request data = some payments) :
    (payments.map OwnerAndAmount.address).Nodup := by
  simp only [generateDistributionList, Outcome.some_iff] at h
  obtain ⟨units, -, _, -, owners, howners, _, -, rfl⟩ := h
  refine (data.distinct owners howners).sublist ((filter_sublist.map _).trans ?_)
  rw [List.map_map]
  exact filter_sublist.map _

theorem flatten_batches (payments : List OwnerAndAmount) (k : Nat) :
    ((range k).map (batch payments)).flatten = payments.take (k * MAX_PAYMENTS_PER_TRANSACTION) := by
  induction k with
  | zero => simp
  | succ k ih => rw [range_succ, map_append, flatten_append, ih, Nat.succ_mul, take_add]; simp [batch]

theorem length_batch (payments : List OwnerAndAmount) (i : Nat) :
    (batch payments i).length = min MAX_PAYMENTS_PER_TRANSACTION (payments.length - i * MAX_PAYMENTS_PER_TRANSACTION) := by
  rw [batch, length_take, length_drop]

theorem disjoint_batch {i j} (hdistinct : (payments.map OwnerAndAmount.address).Nodup) (hij : i < j) :
    Disjoint ((batch payments i).map OwnerAndAmount.address) ((batch payments j).map OwnerAndAmount.address) := by
  have hmul : i * MAX_PAYMENTS_PER_TRANSACTION + MAX_PAYMENTS_PER_TRANSACTION ≤ j * MAX_PAYMENTS_PER_TRANSACTION := by
    rw [← Nat.succ_mul]
    exact Nat.mul_le_mul_right _ hij
  intro a hi hj
  refine disjoint_take_drop hdistinct hmul ?_ (?_ : a ∈ _)
  · rw [batch, map_take, map_drop] at hi
    rw [take_add]
    exact mem_append_right _ hi
  · rw [batch, map_take, map_drop] at hj
    exact mem_of_mem_take hj

/-! ## Several calls on one list -/

/-- What was submitted are batches of the list, each once and each remembered. -/
def Remembered (payments : List OwnerAndAmount) (st : PayoutState) : Prop :=
  ∃ sent : List Nat, sent.Nodup ∧ st.submitted = sent.map (batch payments) ∧ ∀ i ∈ sent, st.db.contains i = true

theorem Remembered.payBatches {call} (h : Remembered payments st) (is : List Nat) : Remembered payments (payBatches payments call is st) := by
  induction is generalizing st with
  | nil => exact h
  | cons i is ih =>
    rw [Hivecoin.payBatches]
    split
    · split
      · split
        · exact h
        · exact ih h
      · exact ih h
    · rename_i hnone
      split
      · exact h
      · obtain ⟨sent, hnodup, hsubmitted, hdb⟩ := h
        refine ih ⟨sent ++ [i], ?_, ?_, fun j hj => ?_⟩
        · refine nodup_append.2 ⟨hnodup, nodup_singleton i, fun a ha b hb hab => ?_⟩
          rw [mem_singleton.1 hb] at hab
          have hknown := hdb a ha
          rw [hab, Table.contains, hnone] at hknown
          cases hknown
        · rw [hsubmitted, map_append, map_singleton]
        · rw [Table.contains, Table.get?_insert]
          split
          · rfl
          · rename_i hne
            exact hdb j ((mem_append.1 hj).resolve_right fun hmem => hne (mem_singleton.1 hmem))

theorem Remembered.distributeAll {calls : List RewardCall} (hsame : ∀ call ∈ calls, ∀ l,
    generateDistributionList network portion request call.data = some l → l = payments) :
    Remembered payments (distributeAll network portion request calls) := by
  refine foldlRecOn calls (motive := Remembered payments) _ ⟨[], nodup_nil, rfl, nofun⟩ fun st hst call hcall => ?_
  unfold distributeRewardSnapshot
  split
  · split
    · exact hst
    · rename_i l hl
      obtain rfl := hsame call hcall l hl
      exact hst.payBatches _
  · exact hst

theorem Remembered.paid_once (h : Remembered payments st) (hdistinct : (payments.map OwnerAndAmount.address).Nodup) :
    (st.submitted.flatten.map OwnerAndAmount.address).Nodup := by
  obtain ⟨sent, hnodup, hsubmitted, -⟩ := h
  rw [hsubmitted, map_flatten, List.map_map, nodup_flatten]
  refine ⟨fun l hl => ?_, (pairwise_map.2 (hnodup.imp fun {i j} hne => ?_))⟩
  · obtain ⟨i, -, rfl⟩ := mem_map.1 hl
    exact hdistinct.sublist (((take_sublist _ _).trans (drop_sublist _ _)).map _)
  · rcases Nat.lt_or_gt_of_ne hne with hlt | hlt
    · exact disjoint_batch hdistinct hlt
    · exact (disjoint_batch hdistinct hlt).symm

/-- The batches of a list make up the list, none empty just where their size does not divide its length. Calls that all compute this
list pay no holder twice. -/
theorem payouts_partition_iff {data} (hlist : generateDistributionList network portion request data = some payments) :
    (((∀ b ∈ batches payments, b ≠ [] ∧ b.length ≤ MAX_PAYMENTS_PER_TRANSACTION) ∧ (batches payments).flatten = payments) ↔
      ¬ MAX_PAYMENTS_PER_TRANSACTION ∣ payments.length) ∧
    ∀ calls : List RewardCall, (∀ call ∈ calls, ∀ l, generateDistributionList network portion request call.data = some l → l = payments) →
      ((distributeAll network portion request calls).submitted.flatten.map OwnerAndAmount.address).Nodup := by
  have hmax : MAX_PAYMENTS_PER_TRANSACTION = 1000 := rfl
  refine ⟨⟨fun h hdvd => ?_, fun hdvd => ⟨fun b hb => ?_, ?_⟩⟩, fun calls hsame => ?_⟩
  · -- the last batch starts at the end of the list
    obtain ⟨k, hk⟩ := hdvd
    have hlast := (h.1 _ (mem_map_of_mem (mem_range.2 (Nat.lt_succ_self (payments.length / MAX_PAYMENTS_PER_TRANSACTION))))).1
    refine hlast (length_eq_zero_iff.1 ?_)
    rw [length_batch, hk, hmax]
    omega
  · obtain ⟨i, hi, rfl⟩ := mem_map.1 hb
    rw [mem_range, nNumberOfTransactions] at hi
    rw [← length_pos_iff, length_batch]
    rw [hmax] at hi hdvd ⊢
    omega
  · rw [batches, flatten_batches, nNumberOfTransactions, take_of_length_le]
    rw [hmax]
    omega
  · exact (Remembered.distributeAll hsame).paid_once (generateDistributionList_distinct hlist)

namespace Regtest

def exactPortion (owned total payment scale : CAmount) : CAmount :=
  Int64.ofInt (owned.toInt * payment.toInt * scale.toInt / total.toInt)

def silverReward : CRewardSnapshot := ⟨ascii "SILVER", [], 200000000000⟩

def holder (i : Nat) : OwnerAndAmount :=
  ⟨env.encodeDestination (.scriptID ([UInt8.ofNat (i / 256), UInt8.ofNat i] ++ replicate 18 0)), if i = 0 then 1 else 100000000⟩

theorem holders_distinct : (((range 1001).map holder).map OwnerAndAmount.address).Nodup := by
  rw [List.map_map]
  refine Nodup.map_on (fun i hi j hj heq => ?_) nodup_range
  have hbytes : (UInt8.ofNat (i / 256)).toNat = (UInt8.ofNat (j / 256)).toNat ∧ (UInt8.ofNat i).toNat = (UInt8.ofNat j).toNat := by
    injection (cons.inj heq).2 with hhigh hrest
    exact ⟨congrArg UInt8.toNat hhigh, congrArg UInt8.toNat (cons.inj hrest).1⟩
  simp only [UInt8.toNat_ofNat'] at hbytes
  rw [mem_range] at hi hj
  omega

def holderData (units : Int8) : RewardData :=
  ⟨some units, true, some ((range 1001).map holder), fun _ h => mem_some_iff.1 h ▸ holders_distinct⟩

/-- The first batch is paid, and the second one is empty and fails. -/
def firstCall : RewardCall := ⟨holderData 0, true, fun _ => some 0, fun i => if i = 0 then some 1 else none⟩

/-- A reissue has raised the units: the first holder gets something, the last moves to the second batch. -/
def secondCall : RewardCall := ⟨holderData 8, true, fun _ => some 6, fun _ => some 2⟩

/-- The second batch of the first call is empty, and both submitted ones end with the last holder. -/
theorem last_holder_paid_twice :
    ((generateDistributionList .REGTEST exactPortion silverReward (holderData 0)).any fun payments =>
      nNumberOfTransactions payments == 2 && (batch payments 1).isEmpty) = true ∧
      (distributeAll .REGTEST exactPortion silverReward [firstCall, secondCall]).submitted.map
        (fun batch => batch.getLast?.map OwnerAndAmount.address) = [some (holder 1000).address, some (holder 1000).address] :=
  ⟨by decide +kernel, by decide +kernel⟩

theorem unchanged_list_pays_once :
    ((distributeAll .REGTEST exactPortion silverReward [firstCall, firstCall]).submitted.flatten.map OwnerAndAmount.address).Nodup := by
  have h : (generateDistributionList .REGTEST exactPortion silverReward (holderData 0)).isSome = true := by decide +kernel
  obtain ⟨payments, hpayments⟩ := isSome_iff_exists.1 h
  refine (payouts_partition_iff hpayments).2 _ fun call hcall l hl => ?_
  have hdata : call.data = holderData 0 := by
    simp only [mem_cons, not_mem_nil, or_false] at hcall
    rcases hcall with rfl | rfl <;> rfl
  rw [hdata, hpayments, some.injEq] at hl
  exact hl.symm

end Regtest

end Hivecoin

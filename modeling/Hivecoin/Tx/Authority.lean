import Hivecoin.Tx.Lemmas.CheckAssets
import Hivecoin.Tx.Lemmas.Classify

/-!
# Authority to issue

The branch of `IsNewAsset` looks for the token of the parent under a sub-asset name only.
-/

namespace Hivecoin

open List Option

/-- The token whose holder may issue a name. -/
def authorityOf (name : Bytes) : Option Bytes :=
  match assetTypeOf name with
  | .SUB | .UNIQUE | .MSGCHANNEL => some (getParentName name ++ OWNER_TAG)
  | .RESTRICTED => some (name.drop 1 ++ OWNER_TAG)
  | .SUB_QUALIFIER => some (getParentName name)
  | _ => none

def Spends (E : Env) (view : CoinsView) (tx : CTransaction) (token : Bytes) : Prop :=
  ∃ nAmount, (token, nAmount) ∈ spentAssets E view tx

/-- Every issuance in the transaction spends a coin of the token it needs. -/
def Authorised (E : Env) (view : CoinsView) (tx : CTransaction) : Prop :=
  ∀ out ∈ tx.vout, ∀ asset address, E.assetFromScript out.scriptPubKey = some (asset, address) →
    ∀ token, authorityOf asset.strName = some token → Spends E view tx token

/-- A message channel or sub-qualifier with an owner output comes with its parent's token. -/
def OwnedIssuesCarryToken (E : Env) (tx : CTransaction) : Prop :=
  ∀ asset address, E.assetFromTransaction tx = some (asset, address) →
    (assetTypeOf asset.strName = .MSGCHANNEL ∨ assetTypeOf asset.strName = .SUB_QUALIFIER) →
    ∀ token, authorityOf asset.strName = some token → E.hasTransferOf tx token = true

variable {E : Env} {S : Store} {c : CAssetsCache} {view : CoinsView} {mempool : MempoolMaps}
variable {tx : CTransaction}

theorem hasTransferOf_iff {token} :
    E.hasTransferOf tx token = true ↔ ∃ nAmount, (token, nAmount) ∈ transferOutputs E tx := by
  simp only [Env.hasTransferOf, List.any_eq_true, transferOutputs, List.mem_filterMap, transferOfOut,
    Option.map_eq_some_iff, Prod.mk.injEq]
  constructor
  · rintro ⟨out, hout, h⟩
    cases ht : E.transferAssetFromScript out.scriptPubKey with
    | none => simp [ht] at h
    | some t =>
      simp only [ht, beq_iff_eq] at h
      exact ⟨t.1.nAmount, out, hout, t, ht, h, rfl⟩
  · rintro ⟨_, out, hout, t, ht, h, -⟩
    exact ⟨out, hout, by simp [ht, h]⟩

theorem spends_iff_hasTransferOf {fCheckMempool fRunningUnitTests v}
    (h : checkTxAssets E S c view mempool fCheckMempool fRunningUnitTests tx = .ok v) (token : Bytes) :
    Spends E view tx token ↔ E.hasTransferOf tx token = true := by
  obtain ⟨-, -, hsame⟩ := checkTxAssets_ok h
  rw [hasTransferOf_iff, Spends, ← (Tally.get?_ofList _ _).1, ← (Tally.get?_ofList _ _).1, hsame]

theorem hasTransferOf_of_not_isNewAsset {action} (hk : E.checkKind tx = .ok action)
    (hn : E.isNewAsset tx = false) {out} (hout : out ∈ tx.vout) {asset address token} (ha : E.assetFromScript out.scriptPubKey = some (asset, address))
    (ht : authorityOf asset.strName = some token) : E.hasTransferOf tx token = true := by
  cases checkKind_cases hk with
  | issue hn' => rw [hn] at hn'; cases hn'
  | reissue _ _ h =>
    obtain ⟨_, _, _, -, -, -, -, -, hzero⟩ := verifyReissueAsset_ok h
    rw [countOuts_issues, countP_eq_zero] at hzero
    exact absurd (issues_of_assetFromScript ha) (hzero out hout)
  | unique _ _ _ h =>
    obtain ⟨root, htr, hall⟩ := verifyNewUniqueAsset_ok h
    obtain ⟨hv, rfl⟩ := hall out hout asset address ha
    simp only [authorityOf, assetTypeOf_eq hv, some.injEq] at ht
    exact ht ▸ htr
  | msgChannel _ _ _ _ h =>
    obtain ⟨last, asset', address', hone, hv, htr⟩ := verifyNewMsgChannelAsset_ok h
    obtain ⟨rfl, rfl⟩ := Prod.mk.inj (hone.unique hout ha).2
    simp only [authorityOf, hv, some.injEq] at ht
    exact ht ▸ htr
  | qualifier _ _ _ _ _ h =>
    obtain ⟨last, asset', address', hone, hv, htr⟩ := verifyNewQualfierAsset_ok h
    obtain ⟨rfl, rfl⟩ := Prod.mk.inj (hone.unique hout ha).2
    rcases hv with hv | hv
    · simp [authorityOf, hv] at ht
    · simp only [authorityOf, hv, some.injEq] at ht
      exact ht ▸ htr hv
  | restricted _ _ _ _ _ _ h =>
    obtain ⟨last, asset', address', hone, hv, htr⟩ := verifyNewRestrictedAsset_ok h
    obtain ⟨rfl, rfl⟩ := Prod.mk.inj (hone.unique hout ha).2
    simp only [authorityOf, hv, some.injEq] at ht
    rw [getParentName_restricted hv, ht] at htr
    exact htr
  | plain _ _ _ _ _ _ h =>
    have hi := issues_of_assetFromScript ha
    rw [checkPlainTx_ok h hout] at hi
    cases hi

/-- In the branch of `IsNewAsset` the issuance is the last output, its token looked for under a sub-asset name. Unique and
restricted names never get there. -/
theorem isNewAsset_issuance {action} (hk : E.checkKind tx = .ok action)
    (hn : E.isNewAsset tx = true) {out} (hout : out ∈ tx.vout) {asset address} (ha : E.assetFromScript out.scriptPubKey = some (asset, address)) :
    E.assetFromTransaction tx = some (asset, address) ∧
      ∀ token, authorityOf asset.strName = some token →
        assetTypeOf asset.strName = .MSGCHANNEL ∨ assetTypeOf asset.strName = .SUB_QUALIFIER ∨
          E.hasTransferOf tx token = true := by
  obtain ⟨last, asset', address', _, _, hone, -, -, hsub⟩ := verifyNewAsset_ok (checkKind_verifyNewAsset hk hn)
  obtain ⟨rfl, heq⟩ := hone.unique hout ha
  obtain ⟨rfl, rfl⟩ := Prod.mk.inj heq
  obtain ⟨hnu, hnr⟩ := isNewAsset_type hn hone.isLast ha
  refine ⟨by simp [Env.assetFromTransaction, Env.lastOutRead, hn, hone.isLast, ha], fun token ht => ?_⟩
  unfold authorityOf at ht
  cases htype : assetTypeOf asset.strName <;> simp_all

theorem authorised_iff_ownedIssuesCarryToken {flags : CheckFlags} {fCheckMempool fRunningUnitTests : Bool}
    {v : List (Bytes × Uint256)} (htx : E.checkTransaction flags tx = .ok ())
    (hassets : checkTxAssets E S c view mempool fCheckMempool fRunningUnitTests tx = .ok v) :
    Authorised E view tx ↔ OwnedIssuesCarryToken E tx := by
  obtain ⟨action, hk⟩ := checkTransaction_kind htx
  have hspend := spends_iff_hasTransferOf hassets
  constructor
  · intro hauth asset address ha _ token ht
    simp only [Env.assetFromTransaction, Env.lastOutRead, Outcome.some_iff] at ha
    obtain ⟨-, out, hlast, ha⟩ := ha
    exact (hspend token).mp (hauth out (mem_of_getLast? hlast) asset address ha token ht)
  · intro howned out hout asset address ha token ht
    rw [hspend]
    cases hn : E.isNewAsset tx with
    | false => exact hasTransferOf_of_not_isNewAsset hk hn hout ha ht
    | true =>
      obtain ⟨hlast, hcases⟩ := isNewAsset_issuance hk hn hout ha
      rcases hcases token ht with hm | hq | htr
      · exact howned asset address hlast (Or.inl hm) token ht
      · exact howned asset address hlast (Or.inr hq) token ht
      · exact htr

namespace Regtest

/-- An issuance: the fee, what else is moved, the owner token, the asset. -/
def issueWithOwner (type : AssetType) (name : Bytes) (moved : List CTxOut) : CTransaction :=
  let asset : CNewAsset := ⟨name, 100000000, 0, 0, 0, []⟩
  ⟨[⟨⟨1, 0⟩, []⟩, ⟨⟨1, 1⟩, []⟩],
    burnOut type :: moved ++ [⟨0, ownerAssetScript alice asset⟩, ⟨0, newAssetScript alice asset⟩], 7⟩

/-- The channel `SILVER~NEWS` issued by the holder of another owner token. -/
def strayChannel : CTransaction := issueWithOwner .MSGCHANNEL (ascii "SILVER~NEWS") [ownerGoldOut]

def goldSubAsset : CTransaction := issueWithOwner .SUB (ascii "GOLD/COIN") [ownerGoldOut]

theorem strayChannel_not_authorised :
    env.checkTransaction {} strayChannel = .ok () ∧
      checkTxAssets env ∅ ∅ ownerView ⟨∅, ∅⟩ false false strayChannel = .ok [] ∧
      authorityOf (ascii "SILVER~NEWS") = some (ascii "SILVER!") ∧
      (∀ e ∈ spentAssets env ownerView strayChannel, e.1 ≠ ascii "SILVER!") ∧
      ¬ Authorised env ownerView strayChannel := by
  have hno : ∀ e ∈ spentAssets env ownerView strayChannel, e.1 ≠ ascii "SILVER!" := by decide +kernel
  refine ⟨by decide +kernel, by decide +kernel, by decide +kernel, hno, fun h => ?_⟩
  have hissue : (⟨0, newAssetScript alice ⟨ascii "SILVER~NEWS", 100000000, 0, 0, 0, []⟩⟩ : CTxOut) ∈
      strayChannel.vout := by decide +kernel
  obtain ⟨nAmount, hmem⟩ := h _ hissue ⟨ascii "SILVER~NEWS", 100000000, 0, 0, 0, []⟩ (addressOf alice)
    (by decide +kernel) (ascii "SILVER!") (by decide +kernel)
  exact hno _ hmem rfl

theorem goldSubAsset_authorised_iff :
    Authorised env ownerView goldSubAsset ↔ OwnedIssuesCarryToken env goldSubAsset :=
  @authorised_iff_ownedIssuesCarryToken env ∅ ∅ ownerView ⟨∅, ∅⟩ goldSubAsset {} false false []
    (by decide +kernel) (by decide +kernel)

end Regtest

end Hivecoin

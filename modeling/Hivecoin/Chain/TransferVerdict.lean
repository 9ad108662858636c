import Hivecoin.Chain.AssetLedger
import Hivecoin.Chain.VerifierInForce
import Hivecoin.Tx.VerifierMeaning

/-!
# Restricted transfers and the cache of the block

A restricted transfer is checked against the tip, save the qualifiers of its verifier: the cache of the block has those too.
-/

namespace Hivecoin

open Outcome CAssetsCache LibBoolEE

variable (E : Env) (S : Store) (c : CAssetsCache) (transfer : CAssetTransfer) (address : Bytes)

/-- The checks of a restricted transfer that come before its verifier. -/
structure PassesTip : Prop where
  restricted : isAssetNameValid transfer.strName = .ok .RESTRICTED
  amount : 0 < transfer.nAmount
  message : E.areMessagesDeployed = true → (transfer.message ≠ [] ∨ transfer.nExpireTime ≤ 0) ∧ 0 ≤ transfer.nExpireTime ∧
    (transfer.message ≠ [] → E.checkEncoded transfer.message = .ok ())
  deployed : E.areRestrictedAssetsDeployed = true
  unfrozen : checkForGlobalRestriction S ∅ transfer.strName = false

/-- The verifier can be read, and the tags that the address has at the tip satisfy it. -/
def VerifierHolds (v : Bytes) : Prop :=
  v = ascii "true" ∨ ∃ found, checkVerifierString v = .ok found ∧
    (address = [] ∨ resolve v (valuesOf found (hasQualifier S address)) = .ok true)

def QualifiersIssued (v : Bytes) : Prop :=
  ∀ q ∈ (checkVerifierString v).toOption.getD [], checkIfAssetExists E S c (QUALIFIER_CHAR :: q) = true

variable {E S c transfer address}

theorem contextualCheckVerifierString_ok_iff {v} :
    contextualCheckVerifierString E S c v address = .ok () ↔ VerifierHolds S address v ∧ QualifiersIssued E S c v := by
  by_cases htrue : v = ascii "true"
  · have hnone : QualifiersIssued E S c v := by
      rw [htrue, QualifiersIssued, show checkVerifierString (ascii "true") = .ok [] from rfl]
      exact fun q hq => by cases hq
    rw [contextualCheckVerifierString, if_pos htrue]
    exact iff_of_true rfl ⟨Or.inl htrue, hnone⟩
  cases hfound : checkVerifierString v with
  | error e =>
    rw [contextualCheckVerifierString, if_neg htrue, hfound]
    refine iff_of_false (fun h => by cases h) ?_
    rintro ⟨h | ⟨found, h, -⟩, -⟩
    · exact htrue h
    · cases hfound.symm.trans h
  | ok found =>
    rw [contextualCheckVerifierString_eq htrue hfound, bind_eq_ok]
    simp only [ok_iff, forM_eq_ok, QualifiersIssued, VerifierHolds, hfound, htrue, false_or, Except.ok.injEq, exists_eq_left',
      Except.toOption, Option.getD_some]
    rw [and_comm]
    refine and_congr_left' ?_
    by_cases haddress : address = []
    · simp [haddress]
    · obtain ⟨r, hr⟩ := (accepted_of_checkVerifierString htrue hfound).resolves_all (hasQualifier S address)
      simp [haddress, hr, require_eq_ok]

theorem mapError_const_inj {x y : Check} :
    x.mapError (fun _ => "") = y.mapError (fun _ => "") ↔ (x = .ok () ↔ y = .ok ()) := by
  cases x <;> cases y <;> simp

theorem PassesTip.verdict_eq (h : PassesTip E S transfer) (c : CAssetsCache) (address : Bytes) :
    contextualCheckTransferAsset E S c transfer address =
      (contextualCheckAgainstVerifyString E S c transfer address).mapError fun _ => "" := by
  obtain ⟨hname, hamount, hmessage, hdeployed, hfrozen⟩ := h
  simp only [contextualCheckTransferAsset, bind, Except.bind, hname, mapError_ok, require]
  generalize contextualCheckAgainstVerifyString E S c transfer address = verdict
  cases hm : E.areMessagesDeployed with
  | false => cases verdict <;> simp [hamount, hdeployed, hfrozen]
  | true =>
    obtain ⟨htime, hpositive, hencoded⟩ := hmessage hm
    by_cases hempty : transfer.message = []
    · have hexpire := htime.resolve_left fun h => h hempty
      cases verdict <;> simp [hamount, hdeployed, hfrozen, hempty, hexpire, hpositive]
    · cases verdict <;> simp [hamount, hdeployed, hfrozen, hempty, hpositive, hencoded hempty]

theorem passesTip_of_ne {c₁ c₂}
    (hne : contextualCheckTransferAsset E S c₁ transfer address ≠ contextualCheckTransferAsset E S c₂ transfer address) :
    PassesTip E S transfer := by
  simp only [contextualCheckTransferAsset, bind, Except.bind, require] at hne
  cases hname : isAssetNameValid transfer.strName with
  | error e => simp [hname] at hne
  | ok type =>
    -- each check that fails ends both calls with the same text
    refine ⟨?_, ?_, fun hm => ⟨?_, ?_, fun hempty => ?_⟩, ?_, ?_⟩ <;> by_contra hbad
    · have htype : ¬ type = .RESTRICTED := fun h => hbad (h ▸ hname)
      simp [hname, htype] at hne
    · simp [hname, hbad] at hne
    · simp [hname, hm, hbad] at hne
    · simp [hname, hm, hbad] at hne
    · cases hencoded : E.checkEncoded transfer.message with
      | ok u => exact hbad hencoded
      | error e => simp [hname, hm, hempty, hencoded] at hne
    · simp [hname, hbad] at hne
    · simp [hname, hbad] at hne

theorem contextualCheckAgainstVerifyString_ok_iff :
    contextualCheckAgainstVerifyString E S c transfer address = .ok () ↔
      ∃ v, getAssetVerifierStringIfExists S ∅ transfer.strName = some v ∧ VerifierHolds S address v ∧ QualifiersIssued E S c v := by
  simp only [contextualCheckAgainstVerifyString, ok_iff, contextualCheckVerifierString_ok_iff]

/-- Two caches over one tip give a transfer the same verdict exactly if it fails at the tip, or its verifier names qualifiers
that are issued for both caches or for none. -/
theorem transfer_verdict_eq_iff (E : Env) (S : Store) (c₁ c₂ : CAssetsCache) (transfer : CAssetTransfer) (address : Bytes) :
    contextualCheckTransferAsset E S c₁ transfer address = contextualCheckTransferAsset E S c₂ transfer address ↔
      (PassesTip E S transfer → ∀ v, getAssetVerifierStringIfExists S ∅ transfer.strName = some v →
        VerifierHolds S address v → (QualifiersIssued E S c₁ v ↔ QualifiersIssued E S c₂ v)) := by
  by_cases hpass : PassesTip E S transfer
  · rw [hpass.verdict_eq, hpass.verdict_eq, mapError_const_inj, contextualCheckAgainstVerifyString_ok_iff,
      contextualCheckAgainstVerifyString_ok_iff]
    cases getAssetVerifierStringIfExists S ∅ transfer.strName with
    | none => simp
    | some v => simp [hpass, and_congr_right_iff]
  · exact iff_of_true (not_not.mp fun hne => hpass (passesTip_of_ne hne)) fun h => absurd h hpass

namespace Regtest

def issueLimited : CTransaction :=
  { issueRestricted with vout := issueRestricted.vout.set 2 ⟨0, verifierScript (ascii "!KYC")⟩, hash := 19 }

def liftLimit : CTransaction :=
  { limitRestricted with
    vin := [⟨⟨1004, 0⟩, []⟩, ⟨⟨19, 1⟩, []⟩], vout := limitRestricted.vout.set 2 ⟨0, verifierScript (ascii "true")⟩, hash := 20 }

def limitedBlock : CBlock := blockAt 104 [issueGold 1001 7, issueQualifier, issueLimited, liftLimit] []

/-- The next block at that height: `$GOLD` without a limit, and then the qualifier. -/
def unlimitedBlock : CBlock := blockAt 104 [issueGold 1001 7, issueRestricted, issueQualifier] []

def goldTransfer : CAssetTransfer := ⟨ascii "$GOLD", 10, [], 0⟩

/-- The block that limited `$GOLD` is undone, and the limit stays: it refuses a transfer in the next block until a qualifier of
that name is issued there. -/
theorem qualifier_admits_transfer : ∃ chain st, NodeRun params .none env (chainIds limitedBlock.vtx.tail) .none chain st ∧
    ∃ states, states = connectStates env st.store (Rules.none.withReward env params) ⟨∅, ∅⟩ unlimitedBlock
        ⟨st.coins, ∅, 0, ⟨[], []⟩⟩ unlimitedBlock.vtx ∧
      (∃ cs ∈ states, contextualCheckTransferAsset env st.store cs.assets goldTransfer (addressOf bob) ≠ .ok ()) ∧
      ∃ cs ∈ states, contextualCheckTransferAsset env st.store cs.assets goldTransfer (addressOf bob) = .ok () := by
  have h : ((runBlocks env (emptyBlocks 103)).toOption.any fun st =>
      (connectTip env (Rules.none.withReward env params) ⟨∅, ∅⟩ st limitedBlock).toOption.any fun r =>
      (disconnectTip env r.1 limitedBlock r.2).any fun st =>
        let S := st.store.dumpCacheToDatabase env
        let states := connectStates env S (Rules.none.withReward env params) ⟨∅, ∅⟩ unlimitedBlock ⟨st.coins, ∅, 0, ⟨[], []⟩⟩
          unlimitedBlock.vtx
        let passes (cs : ConnectState) :=
          (contextualCheckTransferAsset env S cs.assets goldTransfer (addressOf bob)).toOption.isSome
        states.any (fun cs => !passes cs) && states.any passes) = true := by
    decide +kernel
  obtain ⟨st, hst, h⟩ := (Option.any_eq_true ..).mp h
  obtain ⟨⟨st₁, undo⟩, hconnect, h⟩ := (Option.any_eq_true ..).mp h
  obtain ⟨st₂, hdisconnect, h⟩ := (Option.any_eq_true ..).mp h
  have hlow : ∀ tx ∈ limitedBlock.vtx.tail, tx.hash.toNat < 1000 := by decide +kernel
  have hids : ∀ tx ∈ limitedBlock.vtx, chainIds limitedBlock.vtx.tail tx.hash = tx := by decide +kernel
  obtain ⟨chain, hrun, hlength⟩ := emptyBlocks_run hlow (toOption_eq_some.mp hst) (by decide) (by decide +kernel)
  have hconnected := hrun.connect (r := false) (u := 0) hids (by rw [hlength]; rfl) (by decide +kernel) trivial
    (toOption_eq_some.mp hconnect)
  have hundone := hconnected.disconnect (r := false) (u := 0) trivial hdisconnect
  simp only [test_iff, List.any_eq_true, Option.isSome_iff_exists, toOption_eq_some, exists_unit, Option.isSome_eq_false_iff] at h
  obtain ⟨⟨cs₁, hcs₁, hrefused⟩, hpasses⟩ := h
  refine ⟨chain, _, hundone.dump trivial, _, rfl, ⟨cs₁, hcs₁, fun hok => ?_⟩, hpasses⟩
  rw [hok] at hrefused
  cases hrefused

end Regtest

end Hivecoin

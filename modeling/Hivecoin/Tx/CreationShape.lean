import Hivecoin.Chain.Lemmas.AssetOutputs
import Hivecoin.Tx.Authority

/-!
# What a transaction creates, and the fee for it

A transaction reissues one asset, issues one asset or issues unique assets under one root, and burns the fee.
-/

namespace Hivecoin

open Outcome List Option Env

def created (tx : CTransaction) : Nat × Nat × Nat :=
  let n := getTxOutAssetTypes tx.vout
  (n.issues, n.owners, n.reissues)

def namesIssued (E : Env) (tx : CTransaction) : List Bytes := (tx.vout.filterMap (issuedOfOut E)).map Prod.fst

/-- An output pays `k` times the fee of a type to its burn address, exactly. -/
def Burns (E : Env) (tx : CTransaction) (type : AssetType) (k : Nat) : Prop :=
  ∃ out ∈ tx.vout, out.nValue.toInt = k * (getBurnAmount type).toInt ∧
    ∃ destination, E.extractDestination out.scriptPubKey = some destination ∧
      E.encodeDestination destination = getBurnAddress E.network type

def HasOwnerToken (type : AssetType) : Prop := type = .ROOT ∨ type = .SUB

/-- The shapes that a transaction with creations should have. -/
inductive CreationShape (E : Env) (tx : CTransaction) : Prop
  | reissue (hcreated : created tx = (0, 0, 1)) (hburn : Burns E tx .REISSUE 1)
  | asset {name} (hname : namesIssued E tx = [name])
      (hwith : HasOwnerToken (assetTypeOf name) → created tx = (1, 1, 0) ∧
        tx.vout.filterMap (ownerOfOut E) = [(name ++ OWNER_TAG, OWNER_ASSET_AMOUNT)])
      (hwithout : ¬ HasOwnerToken (assetTypeOf name) → created tx = (1, 0, 0)) (hburn : Burns E tx (assetTypeOf name) 1)
  | unique (root : Bytes) (k : Nat) (hcreated : created tx = (k, 0, 0)) (hk : 1 ≤ k) (hread : (namesIssued E tx).length = k)
      (hdistinct : (namesIssued E tx).Nodup)
      (hnames : ∀ name ∈ namesIssued E tx, assetTypeOf name = .UNIQUE ∧ getParentName name = root) (hburn : Burns E tx .UNIQUE k)

/-- What `IsNewAsset` takes with an owner output is a root or a sub-asset. -/
def OwnedIssuesPlain (E : Env) (tx : CTransaction) : Prop :=
  ∀ asset address, E.assetFromTransaction tx = some (asset, address) → HasOwnerToken (assetTypeOf asset.strName)

variable {E : Env} {tx : CTransaction} {flags : CheckFlags} {type : AssetType} {k : Nat}

theorem length_vout_le (h : E.checkTransaction flags tx = .ok ()) : tx.vout.length ≤ 2000000 := by
  simp only [checkTransaction, ok_iff] at h
  obtain ⟨-, -, hsize, -⟩ := h
  have hsize : serializeSize tx * 4 ≤ 8000000 := of_decide_eq_true hsize
  have hsum : ∀ g : CTxOut → Nat, tx.vout.length ≤ (tx.vout.map fun o => 8 + g o + o.scriptPubKey.length).sum := by
    intro g
    rw [← length_map (fun o : CTxOut => 8 + g o + o.scriptPubKey.length)]
    refine length_le_sum_of_one_le _ fun i hi => ?_
    obtain ⟨o, -, rfl⟩ := mem_map.mp hi
    omega
  have hout : tx.vout.length ≤ serializeSize tx := ((hsum _).trans (Nat.le_add_left _ _)).trans (Nat.le_add_right _ 4)
  omega

theorem toInt_fee (hk : k ≤ 2000000) : (getBurnAmount type * Int64.ofNat k).toInt = k * (getBurnAmount type).toInt := by
  have hfee : 0 ≤ (getBurnAmount type).toInt ∧ (getBurnAmount type).toInt ≤ 150000000000 := by cases type <;> decide
  have hle : (k : Int) * (getBurnAmount type).toInt ≤ 2000000 * 150000000000 :=
    Int.mul_le_mul (by omega) hfee.2 hfee.1 (by decide)
  have hnonneg : 0 ≤ (k : Int) * (getBurnAmount type).toInt := Int.mul_nonneg (Int.natCast_nonneg k) hfee.1
  rw [Int64.toInt_mul, Int64.toInt_ofNat_of_lt (by omega), Int.mul_comm, Int.bmod_eq_of_le (by omega) (by omega)]

theorem burns_of_paysTo {out} (hk : k ≤ 2000000) (hout : out ∈ tx.vout)
    (h : E.paysTo out (getBurnAmount type * Int64.ofNat k) (getBurnAddress E.network type) = true) : Burns E tx type k := by
  simp only [paysTo, test_iff] at h
  obtain ⟨hvalue, hdest⟩ := h
  refine ⟨out, hout, by rw [hvalue, toInt_fee hk], ?_⟩
  split at hdest
  · simp only [test_iff] at hdest
    exact ⟨_, ‹_›, hdest.2⟩
  · cases hdest

theorem burns_of_hasIssueBurn (hk : k ≤ 2000000) (h : E.hasIssueBurn tx type k = true) : Burns E tx type k := by
  obtain ⟨out, hout, hpays⟩ := any_eq_true.mp h
  unfold checkIssueBurnTx at hpays
  split at hpays
  all_goals first | cases hpays | exact burns_of_paysTo hk hout hpays

section

variable {last : CTxOut} {asset : CNewAsset} {address : Bytes} {owners : Nat}

theorem OneIssue.names (h : OneIssue E tx last asset address owners) : namesIssued E tx = [asset.strName] := by
  rw [namesIssued, issued_of_one_issue h.isLast h.read h.issues]
  rfl

theorem OneIssue.created (h : OneIssue E tx last asset address owners) : created tx = (1, owners, 0) := by
  rw [Hivecoin.created, h.issues, h.owners, h.reissues]

theorem OneIssue.shape (h : OneIssue E tx last asset address 0) (htype : ¬ HasOwnerToken (assetTypeOf asset.strName)) :
    CreationShape E tx :=
  .asset h.names (fun hhas => absurd hhas htype) (fun _ => h.created) (burns_of_hasIssueBurn (by decide) h.burn)

end

theorem created_of_no_events (h : KindOutputs E tx) (hn : E.isNewAsset tx = false) (hev : kindEvents E tx = []) :
    created tx = (0, 0, 0) := by
  have hminted := h.minted
  rw [hev, map_nil, filterMap_eq_nil_iff] at hminted
  have hissued : tx.vout.filterMap (issuedOfOut E) = [] := filterMap_eq_nil_iff.mpr fun out hout => (or_eq_none_iff.mp (hminted out hout)).1
  have hreissued : tx.vout.filterMap (reissuedOfOut E) = [] := filterMap_eq_nil_iff.mpr fun out hout => (or_eq_none_iff.mp (hminted out hout)).2
  have howned := h.owners
  rw [hn] at howned
  simp [created, h.allIssued, h.allReissued, h.allOwners, hissued, hreissued, howned]

theorem unique_shape {action} (h : E.checkTransaction flags tx = .ok ()) (hk : E.checkKind tx = .ok action)
    (hverify : E.verifyNewUniqueAsset tx = .ok ()) : CreationShape E tx := by
  obtain ⟨-, names, -, hne, hburn, -, howners, hreissues, hissues⟩ := verifyNewUniqueAsset_loop hverify
  obtain ⟨root, -, hall⟩ := verifyNewUniqueAsset_ok hverify
  have houts := checkKind_outputs hk
  have hnames : namesIssued E tx = (kindEvents E tx).map AssetEvent.name := by
    rw [namesIssued, ← minted_of_no_reissue hreissues, houts.minted, List.map_map]
    exact map_congr_left fun e _ => by cases e <;> rfl
  have hbound : names.length ≤ 2000000 := hissues ▸ countP_le_length.trans (length_vout_le h)
  refine .unique root names.length (by rw [created, hissues, howners, hreissues]) (by omega) ?_ (hnames ▸ kindEvents_nodup hk)
    (fun name hname => ?_) (burns_of_hasIssueBurn hbound hburn)
  · rw [namesIssued, length_map, ← houts.allIssued, hissues]
  · obtain ⟨e, he, rfl⟩ := mem_map.mp hname
    obtain ⟨out, hout, hread⟩ := mem_filterMap.mp he
    obtain ⟨⟨asset, address⟩, hasset, rfl⟩ := map_eq_some_iff.mp hread
    obtain ⟨hv, hroot⟩ := hall out hout asset address hasset
    exact ⟨assetTypeOf_eq hv, hroot⟩

theorem shape_of_ownedIssuesPlain (h : E.checkTransaction flags tx = .ok ()) (hcreates : created tx ≠ (0, 0, 0))
    (hplain : OwnedIssuesPlain E tx) : CreationShape E tx := by
  obtain ⟨action, hk⟩ := checkTransaction_kind h
  cases checkKind_cases hk with
  | issue hn hverify =>
    obtain ⟨last, asset, address, second, address', hone, hsecond, howner, -⟩ := verifyNewAsset_ok hverify
    have htype := hplain asset address (by simp [assetFromTransaction, lastOutRead, hn, hone.isLast, hone.read])
    exact .asset hone.names (fun _ => ⟨hone.created, owned_of_one_owner hone.owners hsecond howner⟩) (fun hno => absurd htype hno)
      (burns_of_hasIssueBurn (by decide) hone.burn)
  | reissue _ _ hverify =>
    obtain ⟨last, reissue, address, -, -, hburn, howners, hreissues, hissues⟩ := verifyReissueAsset_ok hverify
    obtain ⟨out, hout, hpays⟩ := any_eq_true.mp hburn
    exact .reissue (by rw [created, hissues, howners, hreissues]) (burns_of_paysTo (by decide) hout hpays)
  | unique _ _ _ hverify => exact unique_shape h hk hverify
  | msgChannel _ _ _ _ hverify =>
    obtain ⟨last, asset, address, hone, htype, -⟩ := verifyNewMsgChannelAsset_ok hverify
    exact hone.shape (by simp [HasOwnerToken, htype])
  | qualifier _ _ _ _ _ hverify =>
    obtain ⟨last, asset, address, hone, htype, -⟩ := verifyNewQualfierAsset_ok hverify
    exact hone.shape (by rcases htype with htype | htype <;> simp [HasOwnerToken, htype])
  | restricted _ _ _ _ _ _ hverify =>
    obtain ⟨last, asset, address, hone, htype, -⟩ := verifyNewRestrictedAsset_ok hverify
    exact hone.shape (by simp [HasOwnerToken, htype])
  | plain hn hr hu hm hq hre =>
    exact absurd (created_of_no_events (checkKind_outputs hk) hn (by simp [kindEvents, hn, hr, hu, hm, hq, hre])) hcreates

theorem ownedIssuesPlain_of_shape (h : E.checkTransaction flags tx = .ok ()) (hshape : CreationShape E tx) :
    OwnedIssuesPlain E tx := by
  intro asset address hread
  obtain ⟨action, hk⟩ := checkTransaction_kind h
  simp only [assetFromTransaction, lastOutRead, some_iff] at hread
  obtain ⟨hn, out, hlast, hread⟩ := hread
  obtain ⟨last, asset', address', _, _, hone, -⟩ := verifyNewAsset_ok (checkKind_verifyNewAsset hk hn)
  obtain ⟨rfl, rfl⟩ := Prod.mk.inj (hone.unique (mem_of_getLast? hlast) hread).2
  -- there is one owner output, which only one of the shapes has
  cases hshape with
  | reissue hcreated => cases hone.created.symm.trans hcreated
  | unique _ _ hcreated => cases hone.created.symm.trans hcreated
  | asset hname _ hwithout =>
    rw [hone.names] at hname
    cases hname
    by_contra hno
    cases hone.created.symm.trans (hwithout hno)

/-- An accepted transaction with creations has one of the shapes and burns its fee, unless `IsNewAsset` takes something without an
owner token. -/
theorem creationShape_iff_ownedIssuesPlain (h : E.checkTransaction flags tx = .ok ()) (hcreates : created tx ≠ (0, 0, 0)) :
    CreationShape E tx ↔ OwnedIssuesPlain E tx :=
  ⟨ownedIssuesPlain_of_shape h, shape_of_ownedIssuesPlain h hcreates⟩

namespace Regtest

/-- A message channel is issued with an owner token. -/
theorem strayChannel_with_owner : env.checkTransaction {} strayChannel = .ok () ∧ created strayChannel = (1, 1, 0) ∧ namesIssued env strayChannel = [ascii "SILVER~NEWS"] ∧
    assetTypeOf (ascii "SILVER~NEWS") = .MSGCHANNEL ∧ ¬ CreationShape env strayChannel := by
  have hcheck : env.checkTransaction {} strayChannel = .ok () := by decide +kernel
  refine ⟨hcheck, by decide +kernel, by decide +kernel, by decide +kernel, fun hshape => ?_⟩
  have hplain := ownedIssuesPlain_of_shape hcheck hshape ⟨ascii "SILVER~NEWS", 100000000, 0, 0, 0, []⟩ (addressOf alice)
    (by decide +kernel)
  exact absurd hplain (by rw [HasOwnerToken]; decide +kernel)

theorem goldSubAsset_shape : CreationShape env goldSubAsset := by
  refine (@creationShape_iff_ownedIssuesPlain env goldSubAsset {} (by decide +kernel) (by decide +kernel)).mpr ?_
  have hread : env.assetFromTransaction goldSubAsset = some (⟨ascii "GOLD/COIN", 100000000, 0, 0, 0, []⟩, addressOf alice) := by
    decide +kernel
  intro asset address h
  rw [hread] at h
  cases h
  exact Or.inr (by decide +kernel)

end Regtest

end Hivecoin

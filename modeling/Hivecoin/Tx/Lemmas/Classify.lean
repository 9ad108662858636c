import Hivecoin.Assets.Lemmas.Name
import Hivecoin.Tx.Check

/-!
# What the shape checks establish
-/

namespace Hivecoin

open Outcome List Env Option Check

variable {E : Env} {tx : CTransaction}
variable {out : CTxOut} {asset : CNewAsset} {st st' : Bytes × List Bytes} {action : Env.RestrictedAction}

def issues (out : CTxOut) : Bool := checkIssueDataTx out

theorem issues_iff :
    issues out = true ↔ ∃ i, Script.isAssetScript out.scriptPubKey = some ⟨.TX_NEW_ASSET, false, i⟩ := by
  unfold issues checkIssueDataTx isScriptNewAsset
  split
  · rename_i i hi; simp [hi]
  · rename_i hno
    simp only [isSome_none, Bool.false_eq_true, false_iff, not_exists]
    exact fun i hi => hno i hi

theorem issues_of_assetFromScript {out asset address}
    (h : E.assetFromScript out.scriptPubKey = some (asset, address)) : issues out = true := by
  simp only [assetFromScript, some_iff] at h
  obtain ⟨i, hi, -⟩ := h
  simp [issues, checkIssueDataTx, hi]

theorem countOuts_issues (vout : List CTxOut) : (getTxOutAssetTypes vout).issues = vout.countP issues := by
  unfold getTxOutAssetTypes countOuts
  apply countP_congr
  intro out _
  rw [issues_iff]
  beta_reduce
  split
  · rename_i i hi; simp [hi]
  · rename_i hno
    simp only [Bool.false_eq_true, false_iff, not_exists]
    exact fun i hi => hno i hi

theorem eq_of_countP_eq_one {α : Type} {p} {l : List α} (h : l.countP p = 1) {a b}
    (ha : a ∈ l) (hpa : p a) (hb : b ∈ l) (hpb : p b) : a = b := by
  rw [countP_eq_length_filter] at h
  obtain ⟨x, hx⟩ := length_eq_one_iff.mp h
  have ha' : a ∈ l.filter p := mem_filter.mpr ⟨ha, hpa⟩
  have hb' : b ∈ l.filter p := mem_filter.mpr ⟨hb, hpb⟩
  rw [hx, mem_singleton] at ha' hb'
  rw [ha', hb']

theorem countP_lt_of_mem {α : Type} {p q} {l : List α} (hpq : ∀ x ∈ l, p x → q x) {a}
    (ha : a ∈ l) (hq : q a) (hp : ¬p a) : l.countP p < l.countP q := by
  obtain ⟨l1, l2, rfl⟩ := append_of_mem ha
  have h1 : l1.countP p ≤ l1.countP q := countP_mono_left fun x hx => hpq x (by simp [hx])
  have h2 : l2.countP p ≤ l2.countP q := countP_mono_left fun x hx => hpq x (by simp [hx])
  simp only [countP_append, countP_cons, hq, hp, if_true]
  simp only [test_iff]
  omega

theorem isScriptNewAssetOf_iff {types script address}
    (h : E.assetFromScript script = some (asset, address)) :
    E.isScriptNewAssetOf types script = true ↔
      ∃ type ∈ types, isAssetNameValid asset.strName = .ok type := by
  simp only [isScriptNewAssetOf, h]
  cases hv : isAssetNameValid asset.strName with
  | error e => simp
  | ok type => simp

theorem typedAssetFromScript_eq_some {test script r}
    (h : E.typedAssetFromScript test script = some r) :
    test script = true ∧ E.assetFromScript script = some r := by
  unfold typedAssetFromScript at h
  split at h
  · rename_i ht; exact ⟨ht, h⟩
  · cases h

/-- One asset is issued in the last output, next to owner outputs, for its fee. -/
structure OneIssue (E : Env) (tx : CTransaction) (last : CTxOut) (asset : CNewAsset) (address : Bytes) (owners : Nat) : Prop where
  isLast : tx.lastOut = some last
  read : E.assetFromScript last.scriptPubKey = some (asset, address)
  owners : (getTxOutAssetTypes tx.vout).owners = owners
  issues : (getTxOutAssetTypes tx.vout).issues = 1
  reissues : (getTxOutAssetTypes tx.vout).reissues = 0
  burn : E.hasIssueBurn tx (assetTypeOf asset.strName) 1 = true

namespace OneIssue

variable {last : CTxOut} {address : Bytes} {owners : Nat}

theorem unique (h : OneIssue E tx last asset address owners) (hout : out ∈ tx.vout) {r : CNewAsset × Bytes}
    (hr : E.assetFromScript out.scriptPubKey = some r) : out = last ∧ r = (asset, address) := by
  have hone := h.issues
  rw [countOuts_issues] at hone
  obtain rfl := eq_of_countP_eq_one hone hout (@issues_of_assetFromScript E _ r.1 r.2 hr)
    (mem_of_getLast? h.isLast) (issues_of_assetFromScript h.read)
  exact ⟨rfl, some.inj (hr.symm.trans h.read)⟩

theorem lastOutRead_eq (h : OneIssue E tx last asset address owners) {test typed r}
    (hr : lastOutRead tx test (E.typedAssetFromScript typed) = some r) : r = (asset, address) := by
  simp only [lastOutRead, ite_none_right_eq_some, h.isLast, bind_some] at hr
  exact some.inj ((typedAssetFromScript_eq_some hr.2).2.symm.trans h.read)

end OneIssue

theorem lastIssuance_ok {types e1 e2}
    (h : lastIssuance tx (E.typedAssetFromScript (E.isScriptNewAssetOf types)) e1 e2 = .ok asset)
    (hcounts : ((getTxOutAssetTypes tx.vout).owners = 0 ∧ (getTxOutAssetTypes tx.vout).issues = 1) ∧
      (getTxOutAssetTypes tx.vout).reissues = 0)
    (hburn : assetTypeOf asset.strName ∈ types → E.hasIssueBurn tx (assetTypeOf asset.strName) 1 = true) :
    ∃ last address, OneIssue E tx last asset address 0 ∧ assetTypeOf asset.strName ∈ types := by
  simp only [lastIssuance, ok_iff] at h
  obtain ⟨last, hlast, -, ⟨a, address⟩, hr, rfl⟩ := h
  obtain ⟨ht, ha⟩ := typedAssetFromScript_eq_some hr
  obtain ⟨type, hmem, hv⟩ := (isScriptNewAssetOf_iff ha).mp ht
  rw [← assetTypeOf_eq hv] at hmem
  exact ⟨last, address, ⟨hlast, ha, hcounts.1.1, hcounts.1.2, hcounts.2, hburn hmem⟩, hmem⟩

theorem verifyNewAsset_ok (h : E.verifyNewAsset tx = .ok ()) :
    ∃ last asset address second address', OneIssue E tx last asset address 1 ∧ tx.secondLastOut = some second ∧
      E.ownerAssetFromScript second.scriptPubKey = some (asset.strName ++ OWNER_TAG, address') ∧
      (assetTypeOf asset.strName = .SUB →
        E.hasTransferOf tx (getParentName asset.strName ++ OWNER_TAG) = true) := by
  simp only [verifyNewAsset, ok_iff, test_iff, bne_iff_ne] at h
  obtain ⟨-, last, hlast, -, second, hsecond, -, ⟨asset, address⟩, ha, ⟨_, address'⟩, howner, rfl, hburn, hsub,
    ⟨ho, hi⟩, hr⟩ := h
  exact ⟨last, asset, address, second, address', ⟨hlast, ha, ho, hi, hr, hburn⟩, hsecond, howner,
    fun ht => hsub.resolve_left fun hne => hne ht⟩

theorem verifyNewMsgChannelAsset_ok (h : E.verifyNewMsgChannelAsset tx = .ok ()) :
    ∃ last asset address, OneIssue E tx last asset address 0 ∧ assetTypeOf asset.strName = .MSGCHANNEL ∧
      E.hasTransferOf tx (getParentName asset.strName ++ OWNER_TAG) = true := by
  simp only [verifyNewMsgChannelAsset, ok_iff, test_iff] at h
  obtain ⟨-, asset, hasset, hburn, htr, hcounts⟩ := h
  obtain ⟨last, address, hone, hmem⟩ := lastIssuance_ok hasset hcounts fun hmem => by rwa [mem_singleton.mp hmem]
  exact ⟨last, asset, address, hone, mem_singleton.mp hmem, htr⟩

theorem verifyNewQualfierAsset_ok (h : E.verifyNewQualfierAsset tx = .ok ()) :
    ∃ last asset address, OneIssue E tx last asset address 0 ∧
      (assetTypeOf asset.strName = .QUALIFIER ∨ assetTypeOf asset.strName = .SUB_QUALIFIER) ∧
      (assetTypeOf asset.strName = .SUB_QUALIFIER →
        E.hasTransferOf tx (getParentName asset.strName) = true) := by
  simp only [verifyNewQualfierAsset, ok_iff, test_iff, bne_iff_ne] at h
  obtain ⟨-, asset, hasset, hburn, hsub, hcounts⟩ := h
  obtain ⟨last, address, hone, hmem⟩ := lastIssuance_ok hasset hcounts fun _ => hburn
  exact ⟨last, asset, address, hone, mem_pair.mp hmem, fun ht => hsub.resolve_left fun hne => hne ht⟩

theorem verifyNewRestrictedAsset_ok (h : E.verifyNewRestrictedAsset tx = .ok ()) :
    ∃ last asset address, OneIssue E tx last asset address 0 ∧ assetTypeOf asset.strName = .RESTRICTED ∧
      E.hasTransferOf tx ((getParentName asset.strName).drop 1 ++ OWNER_TAG) = true := by
  simp only [verifyNewRestrictedAsset, ok_iff, test_iff] at h
  obtain ⟨-, asset, hasset, hburn, htr, -, -, -, hcounts⟩ := h
  obtain ⟨last, address, hone, hmem⟩ := lastIssuance_ok hasset hcounts fun _ => hburn
  exact ⟨last, asset, address, hone, mem_singleton.mp hmem, htr⟩

theorem verifyReissueAsset_ok (h : E.verifyReissueAsset tx = .ok ()) :
    ∃ last reissue address, tx.lastOut = some last ∧ E.reissueAssetFromScript last.scriptPubKey = some (reissue, address) ∧
      tx.vout.any E.checkReissueBurnTx = true ∧ (getTxOutAssetTypes tx.vout).owners = 0 ∧
      (getTxOutAssetTypes tx.vout).reissues = 1 ∧ (getTxOutAssetTypes tx.vout).issues = 0 := by
  simp only [verifyReissueAsset, ok_iff, test_iff] at h
  obtain ⟨-, last, hlast, -, ⟨reissue, address⟩, hread, -, hburn, ⟨howners, hone⟩, hzero⟩ := h
  exact ⟨last, reissue, address, hlast, hread, hburn, howners, hone, hzero⟩

theorem uniqueStep_ok (h : E.uniqueStep st out = .ok st') :
    (E.isScriptNewUniqueAsset out.scriptPubKey = false ∧ st' = st) ∨
    (∃ asset address, E.isScriptNewUniqueAsset out.scriptPubKey = true ∧
      E.assetFromScript out.scriptPubKey = some (asset, address) ∧
      (st.1 = [] ∨ st.1 = getParentName asset.strName) ∧ asset.strName ∉ st.2 ∧
      st' = (getParentName asset.strName, asset.strName :: st.2)) := by
  unfold uniqueStep at h
  cases hu : E.isScriptNewUniqueAsset out.scriptPubKey with
  | false =>
    simp only [hu, Bool.not_false, if_true, pure_eq_ok] at h
    exact Or.inl ⟨rfl, h.symm⟩
  | true =>
    simp only [hu, Bool.not_true, test_iff, ok_iff] at h
    obtain ⟨⟨asset, address⟩, ha, hroot, hnew, rfl⟩ := h
    refine Or.inr ⟨asset, address, rfl, ha, ?_, by simpa using hnew, by rw [hroot]⟩
    by_cases hst : st.1 = []
    · exact Or.inl hst
    · rw [if_neg hst] at hroot
      exact Or.inr hroot

/-- Every unique output seen has the common root, if it has a root at all, and each was counted. -/
theorem uniqueLoop_ok {vout : List CTxOut} (h : vout.foldlM E.uniqueStep st = .ok st') :
    st'.2.length = st.2.length + vout.countP (fun out => E.isScriptNewUniqueAsset out.scriptPubKey) ∧
    (st.1 ≠ [] → st'.1 = st.1) ∧
    ∀ out ∈ vout, E.isScriptNewUniqueAsset out.scriptPubKey = true →
      ∀ asset address, E.assetFromScript out.scriptPubKey = some (asset, address) →
        getParentName asset.strName ≠ [] → getParentName asset.strName = st'.1 := by
  induction vout generalizing st with
  | nil =>
    cases h
    simp
  | cons o vout ih =>
    obtain ⟨s, hs, hl⟩ := foldlM_cons_ok.mp h
    obtain ⟨ih1, ih2, ih3⟩ := ih hl
    rcases uniqueStep_ok hs with ⟨hno, rfl⟩ | ⟨asset, address, hu, ha, hroot, -, rfl⟩
    · refine ⟨by simpa [countP_cons, hno] using ih1, ih2, ?_⟩
      intro out hout hut
      rcases mem_cons.mp hout with rfl | hout
      · rw [hno] at hut; cases hut
      · exact ih3 out hout hut
    · refine ⟨by simp only [ih1, length_cons, countP_cons, hu, if_true]; omega, ?_, ?_⟩
      · intro hst
        have hr := hroot.resolve_left hst
        rw [hr]
        exact ih2 (hr ▸ hst)
      · intro out hout hut
        rcases mem_cons.mp hout with rfl | hout
        · intro asset' address' ha' hne
          rw [ha] at ha'
          cases ha'
          exact (ih2 hne).symm
        · exact ih3 out hout hut

theorem uniqueLoop_names {vout : List CTxOut} (h : vout.foldlM E.uniqueStep st = .ok st') (hst : st.2.Nodup) :
    st'.2.Nodup ∧ st'.2 = (((vout.filter fun out => E.isScriptNewUniqueAsset out.scriptPubKey).filterMap fun out =>
      E.assetFromScript out.scriptPubKey).map fun issue => issue.1.strName).reverse ++ st.2 := by
  induction vout generalizing st with
  | nil =>
    cases h
    exact ⟨hst, rfl⟩
  | cons out vout ih =>
    obtain ⟨s, hs, hl⟩ := foldlM_cons_ok.mp h
    rcases uniqueStep_ok hs with ⟨hno, rfl⟩ | ⟨asset, address, hu, ha, -, hnew, rfl⟩
    · simpa [hno] using ih hl hst
    · obtain ⟨hnodup, heq⟩ := ih hl (nodup_cons.mpr ⟨hnew, hst⟩)
      exact ⟨hnodup, by simpa [hu, ha] using heq⟩

theorem verifyNewUniqueAsset_loop (h : E.verifyNewUniqueAsset tx = .ok ()) :
    ∃ root names, tx.vout.foldlM E.uniqueStep ([], []) = .ok (root, names) ∧ names.length ≠ 0 ∧
      E.hasIssueBurn tx .UNIQUE names.length = true ∧ E.hasTransferOf tx (root ++ OWNER_TAG) = true ∧
      (getTxOutAssetTypes tx.vout).owners = 0 ∧ (getTxOutAssetTypes tx.vout).reissues = 0 ∧
      (getTxOutAssetTypes tx.vout).issues = names.length := by
  simp only [verifyNewUniqueAsset, ok_iff, test_iff, bne_iff_ne, Prod.exists, and_assoc] at h
  exact h.2

theorem verifyNewUniqueAsset_nodup (h : E.verifyNewUniqueAsset tx = .ok ()) :
    (((tx.vout.filter fun out => E.isScriptNewUniqueAsset out.scriptPubKey).filterMap fun out =>
      E.assetFromScript out.scriptPubKey).map fun issue => issue.1.strName).Nodup := by
  obtain ⟨root, names, hloop, -⟩ := verifyNewUniqueAsset_loop h
  obtain ⟨hnodup, heq⟩ := uniqueLoop_names hloop nodup_nil
  simp only [append_nil] at heq
  exact nodup_reverse.mp (heq ▸ hnodup)

/-- Every issued asset is a unique one under the root whose token is moved. -/
theorem verifyNewUniqueAsset_ok (h : E.verifyNewUniqueAsset tx = .ok ()) :
    ∃ root, E.hasTransferOf tx (root ++ OWNER_TAG) = true ∧ ∀ out ∈ tx.vout, ∀ asset address,
      E.assetFromScript out.scriptPubKey = some (asset, address) →
        isAssetNameValid asset.strName = .ok .UNIQUE ∧ getParentName asset.strName = root := by
  obtain ⟨root, names, hloop, -, -, htr, -, -, hcount⟩ := verifyNewUniqueAsset_loop h
  obtain ⟨hlen, -, hall⟩ := uniqueLoop_ok hloop
  refine ⟨root, htr, fun out hout asset address ha => ?_⟩
  -- as many outputs issue as are unique issuances, so each issuing output is a unique one
  have hle : ∀ o ∈ tx.vout, E.isScriptNewUniqueAsset o.scriptPubKey = true → issues o = true := by
    intro o _ hu
    cases hf : E.assetFromScript o.scriptPubKey with
    | none => simp [isScriptNewUniqueAsset, isScriptNewAssetOf, hf] at hu
    | some r => exact @issues_of_assetFromScript E _ r.1 r.2 hf
  have hu : E.isScriptNewUniqueAsset out.scriptPubKey = true := by
    by_contra hnu
    have hlt := countP_lt_of_mem hle hout (issues_of_assetFromScript ha) hnu
    rw [countOuts_issues] at hcount
    simp only [length_nil, Nat.zero_add] at hlen
    omega
  obtain ⟨type, hmem, hv⟩ := (isScriptNewAssetOf_iff ha).mp hu
  rw [mem_singleton.mp hmem] at hv
  exact ⟨hv, hall out hout hu asset address ha (getParentName_unique_ne_nil hv)⟩

theorem checkNewAsset_name (h : checkNewAsset asset = .ok ()) : nameValid asset.strName = true := by
  simp only [checkNewAsset, ok_iff] at h
  obtain ⟨type, hname, -⟩ := h
  exact nameValid_iff.mpr ⟨type, hname⟩

theorem checkNewAsset_not_owner (h : checkNewAsset asset = .ok ()) : isAssetNameAnOwner asset.strName = false := by
  simp only [checkNewAsset, ok_iff, Bool.not_eq_true'] at h
  obtain ⟨-, -, -, howner, -⟩ := h
  exact howner

/-- The parts of a successful `CheckTransaction`. -/
structure CheckedTx (E : Env) (flags : CheckFlags) (tx : CTransaction) : Prop where
  outs : ∀ out ∈ tx.vout, ∃ st st', E.scanOut flags st out = .ok st'
  nodup : flags.fCheckDuplicateInputs = true → (tx.vin.map (·.prevout)).Nodup
  prevouts : E.checkCoinbaseOrPrevouts tx = .ok ()
  kind : ∃ action, E.checkKind tx = .ok action

theorem checkTransaction_ok {flags} (h : E.checkTransaction flags tx = .ok ()) : CheckedTx E flags tx := by
  simp only [checkTransaction, ok_iff] at h
  obtain ⟨-, -, -, scan, hscan, -, -, hnodup, hprevouts, action, hk, -⟩ := h
  refine ⟨fun out hout => foldlM_step hscan hout, fun hflag => ?_, hprevouts, action, hk⟩
  simpa [hflag] using hnodup

theorem checkTransaction_kind {flags} (h : E.checkTransaction flags tx = .ok ()) :
    ∃ action, E.checkKind tx = .ok action :=
  (checkTransaction_ok h).kind

theorem checkPlainTx_ok (h : checkPlainTx tx = .ok action) (hout : out ∈ tx.vout) : issues out = false := by
  simp only [checkPlainTx, ok_iff, forM_eq_ok] at h
  rw [← Bool.not_eq_true]
  intro hi
  obtain ⟨i, hi⟩ := issues_iff.mp hi
  have := h.1 out hout
  simp only [hi, require_eq_ok] at this
  exact absurd this (by decide)

/-- What `CheckTransaction` has found out about a transaction of each kind. -/
inductive CheckedKind (E : Env) (tx : CTransaction) : Prop
  | issue {asset : CNewAsset} {address} (hn : E.isNewAsset tx = true) (hverify : E.verifyNewAsset tx = .ok ())
      (hread : E.assetFromTransaction tx = some (asset, address)) (hasset : checkNewAsset asset = .ok ())
  | reissue {reissue address} (hn : E.isNewAsset tx = false) (hr : isReissueAsset tx = true)
      (hverify : E.verifyReissueAsset tx = .ok ()) (hread : E.reissueAssetFromTransaction tx = some (reissue, address))
      (hreissue : E.checkReissueAsset reissue = .ok ())
  | unique (hn : E.isNewAsset tx = false) (hr : isReissueAsset tx = false) (hu : E.isNewUniqueAsset tx = true)
      (hverify : E.verifyNewUniqueAsset tx = .ok ())
      (hassets : ∀ out ∈ tx.vout, E.isScriptNewUniqueAsset out.scriptPubKey = true →
        ∃ asset address, E.assetFromScript out.scriptPubKey = some (asset, address) ∧ checkNewAsset asset = .ok ())
  | msgChannel {asset : CNewAsset} {address} (hn : E.isNewAsset tx = false) (hr : isReissueAsset tx = false)
      (hu : E.isNewUniqueAsset tx = false) (hm : E.isNewMsgChannelAsset tx = true)
      (hverify : E.verifyNewMsgChannelAsset tx = .ok ())
      (hread : E.msgChannelAssetFromTransaction tx = some (asset, address)) (hasset : checkNewAsset asset = .ok ())
  | qualifier {asset : CNewAsset} {address} (hn : E.isNewAsset tx = false) (hr : isReissueAsset tx = false)
      (hu : E.isNewUniqueAsset tx = false) (hm : E.isNewMsgChannelAsset tx = false)
      (hq : E.isNewQualifierAsset tx = true) (hverify : E.verifyNewQualfierAsset tx = .ok ())
      (hread : E.qualifierAssetFromTransaction tx = some (asset, address)) (hasset : checkNewAsset asset = .ok ())
  | restricted {asset : CNewAsset} {address} (hn : E.isNewAsset tx = false) (hr : isReissueAsset tx = false)
      (hu : E.isNewUniqueAsset tx = false) (hm : E.isNewMsgChannelAsset tx = false)
      (hq : E.isNewQualifierAsset tx = false) (hre : E.isNewRestrictedAsset tx = true)
      (hverify : E.verifyNewRestrictedAsset tx = .ok ())
      (hread : E.restrictedAssetFromTransaction tx = some (asset, address)) (hasset : checkNewAsset asset = .ok ())
  | plain {action : Env.RestrictedAction} (hn : E.isNewAsset tx = false) (hr : isReissueAsset tx = false)
      (hu : E.isNewUniqueAsset tx = false) (hm : E.isNewMsgChannelAsset tx = false)
      (hq : E.isNewQualifierAsset tx = false) (hre : E.isNewRestrictedAsset tx = false)
      (hplain : checkPlainTx tx = .ok action)

theorem checkKind_cases (h : E.checkKind tx = .ok action) : CheckedKind E tx := by
  unfold checkKind at h
  cases hn : E.isNewAsset tx with
  | true =>
    simp only [hn, if_true, checkIssueTx, ok_iff, orReject, Prod.exists] at h
    obtain ⟨hverify, asset, address, hread, -, hasset, -⟩ := h
    exact .issue hn hverify hread hasset
  | false =>
  cases hr : isReissueAsset tx with
  | true =>
    simp only [hn, hr, test_iff, checkReissueTx, ok_iff, orReject, Prod.exists] at h
    obtain ⟨hverify, reissue, address, hread, hreissue, -⟩ := h
    exact .reissue hn hr hverify hread hreissue
  | false =>
  cases hu : E.isNewUniqueAsset tx with
  | true =>
    simp only [hn, hr, hu, test_iff, checkUniqueTx, ok_iff, orReject, forM_eq_ok] at h
    obtain ⟨hverify, hassets, -⟩ := h
    refine .unique hn hr hu hverify fun out hout hunique => ?_
    have hcheck := hassets out hout
    simp only [hunique, if_true, ok_iff, Prod.exists] at hcheck
    exact hcheck
  | false =>
  cases hm : E.isNewMsgChannelAsset tx with
  | true =>
    simp only [hn, hr, hu, hm, test_iff, checkMsgChannelTx, ok_iff, orReject, Prod.exists] at h
    obtain ⟨hverify, asset, address, hread, hasset, -⟩ := h
    exact .msgChannel hn hr hu hm hverify hread hasset
  | false =>
  cases hq : E.isNewQualifierAsset tx with
  | true =>
    simp only [hn, hr, hu, hm, hq, test_iff, checkQualifierTx, ok_iff, orReject, Prod.exists] at h
    obtain ⟨hverify, asset, address, hread, hasset, -⟩ := h
    exact .qualifier hn hr hu hm hq hverify hread hasset
  | false =>
  cases hre : E.isNewRestrictedAsset tx with
  | true =>
    simp only [hn, hr, hu, hm, hq, hre, test_iff, checkRestrictedTx, ok_iff, orReject, Prod.exists] at h
    obtain ⟨hverify, asset, address, hread, hasset, -⟩ := h
    exact .restricted hn hr hu hm hq hre hverify hread hasset
  | false =>
    simp only [hn, hr, hu, hm, hq, hre, test_iff] at h
    exact .plain hn hr hu hm hq hre h

theorem checkKind_verifyNewAsset (h : E.checkKind tx = .ok action) (hn : E.isNewAsset tx = true) :
    E.verifyNewAsset tx = .ok () := by
  cases checkKind_cases h with
  | issue _ hverify => exact hverify
  | _ hn' => rw [hn] at hn'; cases hn'

/-- Unique and restricted names never get to the branch of `IsNewAsset`. -/
theorem isNewAsset_type (h : E.isNewAsset tx = true) {last} (hlast : tx.lastOut = some last) {address}
    (ha : E.assetFromScript last.scriptPubKey = some (asset, address)) :
    assetTypeOf asset.strName ≠ .UNIQUE ∧ assetTypeOf asset.strName ≠ .RESTRICTED := by
  simp only [isNewAsset, lastIssues, hlast, test_iff] at h
  have hnot : ∀ type, E.isScriptNewAssetOf [type] last.scriptPubKey = false → type ≠ .INVALID →
      assetTypeOf asset.strName ≠ type := by
    intro type hno hinv htype
    have := (isScriptNewAssetOf_iff ha).mpr ⟨type, mem_singleton_self _, isAssetNameValid_eq htype hinv⟩
    rw [hno] at this
    cases this
  exact ⟨hnot .UNIQUE h.2.2.1 (by decide), hnot .RESTRICTED h.2.2.2 (by decide)⟩

end Hivecoin

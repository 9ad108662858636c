import Hivecoin.Assets.Lemmas.Decode
import Hivecoin.Chain.Lemmas.AssetEvents

/-!
# What the outputs of a checked transaction carry
-/

namespace Hivecoin

open Outcome CAssetsCache List Option Env Script ByteReader

variable {E : Env} {S : Store} {c : CAssetsCache} {tx : CTransaction} {script : Bytes}

/-! ## Scripts -/

def carriedAsset (script : Bytes) : Option (Bytes × CAmount) :=
  match isAssetScript script with
  | some ⟨.TX_NEW_ASSET, false, i⟩ =>
    (Read.from_ Read.newAsset script i).map fun asset => (asset.strName, asset.nAmount)
  | some ⟨.TX_NEW_ASSET, true, i⟩ => (Read.from_ Read.string script i).map fun name => (name, OWNER_ASSET_AMOUNT)
  | some ⟨.TX_TRANSFER_ASSET, _, i⟩ =>
    (Read.from_ Read.assetTransfer script i).map fun transfer => (transfer.strName, transfer.nAmount)
  | some ⟨.TX_REISSUE_ASSET, _, i⟩ =>
    (Read.from_ Read.reissueAsset script i).map fun reissue => (reissue.strName, reissue.nAmount)
  | _ => none

def issuedOfOut (E : Env) (out : CTxOut) : Option (Bytes × CAmount) :=
  (E.assetFromScript out.scriptPubKey).map fun issue => (issue.1.strName, issue.1.nAmount)

def reissuedOfOut (E : Env) (out : CTxOut) : Option (Bytes × CAmount) :=
  (E.reissueAssetFromScript out.scriptPubKey).map fun reissue => (reissue.1.strName, reissue.1.nAmount)

def mintedOfOut (E : Env) (out : CTxOut) : Option (Bytes × CAmount) := (issuedOfOut E out).or (reissuedOfOut E out)

def ownerOfOut (E : Env) (out : CTxOut) : Option (Bytes × CAmount) :=
  (E.ownerAssetFromScript out.scriptPubKey).map fun owner => (owner.1, OWNER_ASSET_AMOUNT)

theorem isAssetScript_index {a} (h : isAssetScript script = some a)
    (ht : a.nType = .TX_TRANSFER_ASSET) :
    a.nStartingIndex = 31 ∨ (a.nStartingIndex = 32 ∧ byteAt script 31 = Script.HVN_T) := by
  unfold isAssetScript at h
  split at h
  · split at h
    · cases h
    · rename_i index hindex
      split at h
      · rename_i hbyte
        cases h
        simp only [markerIndex] at hindex
        split at hindex
        · simp only [some_iff] at hindex
          exact Or.inl (by rw [← hindex.2])
        · simp only [some_iff] at hindex
          obtain ⟨-, rfl⟩ := hindex
          exact Or.inr ⟨rfl, hbyte⟩
      · repeat' split at h
        all_goals first | cases h; cases ht | cases h
  · cases h

theorem lengthPrefixed_head {max w s s' c} (h : lengthPrefixed max (c :: s) = some (w, s'))
    (hc : c.toNat < 253) : w.length = c.toNat := by
  obtain ⟨heq, -⟩ := lengthPrefixed_sound h
  unfold ByteWriter.lengthPrefixed ByteWriter.compactSize at heq
  split at heq
  · have hhead : c = UInt8.ofNat w.length := by simpa [ByteWriter.natLE] using congrArg List.head? heq
    rw [hhead, UInt8.toNat_ofNat', Nat.mod_eq_of_lt (by omega)]
  · exfalso
    repeat' split at heq
    all_goals
      have hhead := congrArg List.head? heq
      simp only [cons_append, List.head?_cons, some.injEq] at hhead
      subst hhead
      exact absurd hc (by decide)

/-- Read from the byte before its data, a transfer takes `t` for the length of the name. -/
theorem length_of_read_transfer {transfer} (hbyte : byteAt script 31 = Script.HVN_T)
    (h : Read.from_ Read.assetTransfer script 31 = some transfer) : transfer.strName.length = 116 := by
  simp only [Read.from_, Option.map_eq_map, Option.map_eq_some_iff] at h
  obtain ⟨⟨t, rest⟩, h, rfl⟩ := h
  obtain ⟨name, s1, hname, h⟩ := bind_sound h
  have hstr : t.strName = name := by
    obtain ⟨amount, s2, -, h⟩ := bind_sound h
    obtain ⟨hash, s3, -, h⟩ := bind_sound h
    obtain ⟨n, s4, -, h⟩ := bind_sound h
    split at h
    all_goals
      obtain ⟨time, s5, -, h⟩ := bind_sound h
      cases h
      rfl
  have hlen : 31 < script.length := by
    by_contra hlen
    rw [byteAt, List.getD_eq_getElem?_getD, List.getElem?_eq_none (by omega)] at hbyte
    exact absurd hbyte (by decide)
  have hbyte' : script[31] = Script.HVN_T := by
    rwa [byteAt, List.getD_eq_getElem?_getD, List.getElem?_eq_getElem hlen] at hbyte
  rw [List.drop_eq_getElem_cons hlen, hbyte'] at hname
  rw [hstr, lengthPrefixed_head hname (by decide)]
  rfl

theorem transferOfOut_cases {out e} (h : transferOfOut E out = some e) :
    carriedAsset out.scriptPubKey = some e ∨ e.1.length = 116 := by
  simp only [transferOfOut, transferAssetFromScript, isScriptTransferAsset, some_iff] at h
  obtain ⟨_, ⟨i, hi, transfer, hread, rfl⟩, rfl⟩ := h
  split at hi
  · rename_i owner j hscript
    cases hi
    have hcarried : ∀ {t}, Read.from_ Read.assetTransfer out.scriptPubKey i = some t →
        carriedAsset out.scriptPubKey = some (t.strName, t.nAmount) := by
      intro t ht
      rw [carriedAsset, hscript]
      simp only [ht, Option.map_some]
    cases hsize : E.areTransferScriptsSizeDeployed with
    | true => exact Or.inl (hcarried (by simpa [hsize] using hread))
    | false =>
      rw [hsize] at hread
      rcases isAssetScript_index hscript rfl with hindex | ⟨-, hbyte⟩
      · exact Or.inl (hcarried (by rw [show i = 31 from hindex]; exact hread))
      · exact Or.inr (length_of_read_transfer hbyte hread)
  · cases hi

theorem carriedAsset_split (out : CTxOut)
    (h : (isScriptTransferAsset out.scriptPubKey).isSome → transferOfOut E out = carriedAsset out.scriptPubKey) :
    (carriedAsset out.scriptPubKey).toList =
      (transferOfOut E out).toList ++ (mintedOfOut E out).toList ++ (ownerOfOut E out).toList := by
  unfold carriedAsset transferOfOut mintedOfOut issuedOfOut reissuedOfOut ownerOfOut transferAssetFromScript assetFromScript
    reissueAssetFromScript ownerAssetFromScript isScriptTransferAsset isScriptNewAsset
    isScriptReissueAsset isScriptOwnerAsset at *
  cases hs : isAssetScript out.scriptPubKey with
  | none => rfl
  | some a =>
    obtain ⟨t, o, i⟩ := a
    cases t <;> cases o <;> simp [hs] at h ⊢
    all_goals first | rw [h] | (rw [map_eq_bind]; rfl)

/-- However a coin is read, it is what it carries or its name is too long. -/
theorem assetOfCoin_cases {coin e} (h : assetOfCoin E coin = some e) :
    carriedAsset coin.out.scriptPubKey = some e ∨ e.1.length = 116 := by
  cases hs : isAssetScript coin.out.scriptPubKey with
  | none => rw [assetOfCoin, getAssetData_eq_none hs] at h; cases h
  | some a =>
    obtain ⟨t, o, i⟩ := a
    by_cases ht : t = .TX_TRANSFER_ASSET
    · subst ht
      have htransfer : transferOfOut E coin.out = some e := by
        simp only [assetOfCoin, getAssetData, hs, some_iff] at h
        obtain ⟨_, ⟨r, hr, rfl⟩, rfl⟩ := h
        rw [transferOfOut, hr]
        rfl
      exact transferOfOut_cases htransfer
    · refine Or.inl (h ▸ ?_)
      unfold assetOfCoin getAssetData carriedAsset assetFromScript reissueAssetFromScript
        ownerAssetFromScript isScriptNewAsset isScriptReissueAsset isScriptOwnerAsset
      cases t <;> cases o <;> simp [hs, Option.map_eq_bind, Option.bind_assoc] at ht ⊢

/-! ## Counting outputs -/

theorem filterMap_eq_nil_of_countP {α β : Type} {p : α → Bool} {f : α → Option β} {l : List α} (h : l.countP p = 0)
    (hf : ∀ x, (f x).isSome → p x) : l.filterMap f = [] := by
  refine filterMap_eq_nil_iff.mpr fun x hx => ?_
  have hp := countP_eq_zero.mp h x hx
  cases hfx : f x with
  | none => rfl
  | some y => exact absurd (hf x (by rw [hfx]; rfl)) hp

theorem filterMap_eq_singleton_of_countP {α β : Type} {p : α → Bool} {f : α → Option β} {l : List α} {a : α} {b : β}
    (h : l.countP p = 1) (hf : ∀ x, (f x).isSome → p x) (ha : a ∈ l) (hb : f a = some b) : l.filterMap f = [b] := by
  obtain ⟨l1, l2, rfl⟩ := append_of_mem ha
  have hpa : p a = true := hf a (by rw [hb]; rfl)
  simp only [countP_append, countP_cons, hpa, if_true] at h
  rw [filterMap_append, filterMap_cons, hb, filterMap_eq_nil_of_countP (by omega) hf,
    filterMap_eq_nil_of_countP (by omega) hf]
  rfl

/-- If no fewer elements are read than counted, every counted one is read. -/
theorem isSome_of_countP_le {α β : Type} {p : α → Bool} {f : α → Option β} {l : List α}
    (h : l.countP p ≤ (l.filterMap f).length) (hf : ∀ x, (f x).isSome → p x) {x : α} (hx : x ∈ l) (hp : p x = true) :
    (f x).isSome := by
  rw [length_filterMap_eq_countP] at h
  by_contra hnone
  have hlt : l.countP (fun x => (f x).isSome) < l.countP p := by
    refine countP_lt_of_mem (fun x _ hx => hf x hx) hx hp ?_
    simpa using hnone
  omega

theorem countOuts_reissues (vout : List CTxOut) :
    (getTxOutAssetTypes vout).reissues = vout.countP checkReissueDataTx := by
  unfold getTxOutAssetTypes countOuts
  apply countP_congr
  intro out _
  unfold checkReissueDataTx isScriptReissueAsset
  cases isAssetScript out.scriptPubKey with
  | none => exact Iff.rfl
  | some a =>
    obtain ⟨t, o, i⟩ := a
    cases t <;> exact Iff.rfl

theorem countOuts_owners (vout : List CTxOut) :
    (getTxOutAssetTypes vout).owners = vout.countP checkOwnerDataTx := by
  unfold getTxOutAssetTypes countOuts
  apply countP_congr
  intro out _
  unfold checkOwnerDataTx isScriptOwnerAsset
  cases isAssetScript out.scriptPubKey with
  | none => exact Iff.rfl
  | some a =>
    obtain ⟨t, o, i⟩ := a
    cases t <;> cases o <;> exact Iff.rfl

theorem issues_of_issuedOfOut {out} (h : (issuedOfOut E out).isSome) : issues out = true := by
  obtain ⟨e, he⟩ := isSome_iff_exists.mp h
  obtain ⟨⟨asset, address⟩, hread, -⟩ := map_eq_some_iff.mp he
  exact issues_of_assetFromScript hread

theorem reissues_of_reissuedOfOut {out} (h : (reissuedOfOut E out).isSome) : checkReissueDataTx out = true := by
  obtain ⟨e, he⟩ := isSome_iff_exists.mp h
  obtain ⟨⟨reissue, address⟩, hread, -⟩ := map_eq_some_iff.mp he
  simp only [reissueAssetFromScript, some_iff] at hread
  obtain ⟨i, hi, -⟩ := hread
  simp [checkReissueDataTx, hi]

theorem owners_of_ownerOfOut {out} (h : (ownerOfOut E out).isSome) : checkOwnerDataTx out = true := by
  obtain ⟨e, he⟩ := isSome_iff_exists.mp h
  obtain ⟨⟨name, address⟩, hread, -⟩ := map_eq_some_iff.mp he
  simp only [ownerAssetFromScript, some_iff] at hread
  obtain ⟨i, hi, -⟩ := hread
  simp [checkOwnerDataTx, hi]

theorem minted_of_no_reissue (h : (getTxOutAssetTypes tx.vout).reissues = 0) :
    tx.vout.filterMap (mintedOfOut E) = tx.vout.filterMap (issuedOfOut E) := by
  rw [countOuts_reissues] at h
  refine filterMap_congr fun out hout => ?_
  have hnone := filterMap_eq_nil_iff.mp (filterMap_eq_nil_of_countP h fun _ => @reissues_of_reissuedOfOut E _) out hout
  rw [mintedOfOut, hnone, or_none]

theorem minted_of_no_issue (h : (getTxOutAssetTypes tx.vout).issues = 0) :
    tx.vout.filterMap (mintedOfOut E) = tx.vout.filterMap (reissuedOfOut E) := by
  rw [countOuts_issues] at h
  refine filterMap_congr fun out hout => ?_
  have hnone := filterMap_eq_nil_iff.mp (filterMap_eq_nil_of_countP h fun _ => @issues_of_issuedOfOut E _) out hout
  rw [mintedOfOut, hnone, none_or]

theorem reissued_of_no_reissue (h : (getTxOutAssetTypes tx.vout).reissues = 0) :
    tx.vout.filterMap (reissuedOfOut E) = [] := by
  rw [countOuts_reissues] at h
  exact filterMap_eq_nil_of_countP h fun _ => reissues_of_reissuedOfOut

theorem issued_of_no_issue (h : (getTxOutAssetTypes tx.vout).issues = 0) : tx.vout.filterMap (issuedOfOut E) = [] := by
  rw [countOuts_issues] at h
  exact filterMap_eq_nil_of_countP h fun _ => issues_of_issuedOfOut

theorem issued_of_one_issue {last : CTxOut} {asset : CNewAsset} {address : Bytes} (hlast : tx.lastOut = some last)
    (hread : E.assetFromScript last.scriptPubKey = some (asset, address)) (hone : (getTxOutAssetTypes tx.vout).issues = 1) :
    tx.vout.filterMap (issuedOfOut E) = [(asset.strName, asset.nAmount)] := by
  rw [countOuts_issues] at hone
  exact filterMap_eq_singleton_of_countP hone (fun _ => issues_of_issuedOfOut) (mem_of_getLast? hlast)
    (by rw [issuedOfOut, hread]; rfl)

theorem owned_of_no_owner (h : (getTxOutAssetTypes tx.vout).owners = 0) : tx.vout.filterMap (ownerOfOut E) = [] := by
  rw [countOuts_owners] at h
  exact filterMap_eq_nil_of_countP h fun _ => owners_of_ownerOfOut

theorem owned_of_one_owner {out : CTxOut} {name address : Bytes} (h : (getTxOutAssetTypes tx.vout).owners = 1)
    (hout : tx.secondLastOut = some out) (hread : E.ownerAssetFromScript out.scriptPubKey = some (name, address)) :
    tx.vout.filterMap (ownerOfOut E) = [(name, OWNER_ASSET_AMOUNT)] :=
  filterMap_eq_singleton_of_countP (countOuts_owners tx.vout ▸ h) (fun _ => @owners_of_ownerOfOut E _)
    (dropLast_subset _ (mem_of_getLast? hout)) (by rw [ownerOfOut, hread]; rfl)

namespace AssetEvent

def minted : AssetEvent → Bytes × CAmount
  | issue asset _ _ => (asset.strName, asset.nAmount)
  | reissue r _ => (r.strName, r.nAmount)

end AssetEvent

/-- The outputs that are no transfers are those of the events, with one owner token for a plain issuance, and can be read. -/
structure KindOutputs (E : Env) (tx : CTransaction) : Prop where
  minted : tx.vout.filterMap (mintedOfOut E) = (kindEvents E tx).map AssetEvent.minted
  owners : tx.vout.filterMap (ownerOfOut E) =
    if E.isNewAsset tx then (kindEvents E tx).map fun e => (e.name ++ OWNER_TAG, OWNER_ASSET_AMOUNT) else []
  allIssued : (getTxOutAssetTypes tx.vout).issues = (tx.vout.filterMap (issuedOfOut E)).length
  allReissued : (getTxOutAssetTypes tx.vout).reissues = (tx.vout.filterMap (reissuedOfOut E)).length
  allOwners : (getTxOutAssetTypes tx.vout).owners = (tx.vout.filterMap (ownerOfOut E)).length

/-- The fields from what the outputs issue, reissue and own. -/
theorem kindOutputs_of {issued reissued owned} (hi : tx.vout.filterMap (issuedOfOut E) = issued)
    (hr : tx.vout.filterMap (reissuedOfOut E) = reissued) (ho : tx.vout.filterMap (ownerOfOut E) = owned)
    (hni : (getTxOutAssetTypes tx.vout).issues = issued.length) (hnr : (getTxOutAssetTypes tx.vout).reissues = reissued.length)
    (hno : (getTxOutAssetTypes tx.vout).owners = owned.length)
    (hone : reissued = [] ∨ issued = []) (hev : (kindEvents E tx).map AssetEvent.minted = issued ++ reissued)
    (hown : owned = if E.isNewAsset tx then (kindEvents E tx).map fun e => (e.name ++ OWNER_TAG, OWNER_ASSET_AMOUNT) else []) :
    KindOutputs E tx := by
  subst hi hr ho
  refine ⟨?_, hown, hni, hnr, hno⟩
  rw [hev]
  rcases hone with h | h
  · rw [minted_of_no_reissue (by rw [hnr, h]; rfl), h, append_nil]
  · rw [minted_of_no_issue (by rw [hni, h]; rfl), h, nil_append]

theorem kindOutputs_one {last asset address}
    (hn : E.isNewAsset tx = false) (h : OneIssue E tx last asset address 0)
    (hev : (kindEvents E tx).map AssetEvent.minted = [(asset.strName, asset.nAmount)]) : KindOutputs E tx :=
  kindOutputs_of (issued_of_one_issue h.isLast h.read h.issues) (reissued_of_no_reissue h.reissues)
    (owned_of_no_owner h.owners) h.issues h.reissues h.owners (Or.inl rfl) hev (by rw [hn]; rfl)

theorem kindOutputs_issue (hn : E.isNewAsset tx = true) (h : E.verifyNewAsset tx = .ok ()) : KindOutputs E tx := by
  obtain ⟨last, asset, address, second, address', hone, hsecond, howner, -⟩ := verifyNewAsset_ok h
  have hev : kindEvents E tx = [.issue asset none none] := by
    simp [kindEvents, hn, assetFromTransaction, lastOutRead, hone.isLast, hone.read, issueEvents]
  exact kindOutputs_of (issued_of_one_issue hone.isLast hone.read hone.issues) (reissued_of_no_reissue hone.reissues)
    (owned_of_one_owner hone.owners hsecond howner) hone.issues hone.reissues hone.owners (Or.inl rfl) (by rw [hev]; rfl) (by rw [hn, hev]; rfl)

theorem kindOutputs_reissue (hn : E.isNewAsset tx = false) (hr : isReissueAsset tx = true)
    (h : E.verifyReissueAsset tx = .ok ()) : KindOutputs E tx := by
  obtain ⟨last, reissue, address, hlast, hread, -, howners, hone, hzero⟩ := verifyReissueAsset_ok h
  have hev : kindEvents E tx = [.reissue reissue (newVerifier tx reissue.strName)] := by
    simp [kindEvents, hn, hr, reissueAssetFromTransaction, lastOutRead, hlast, hread]
  have hreissued : tx.vout.filterMap (reissuedOfOut E) = [(reissue.strName, reissue.nAmount)] :=
    filterMap_eq_singleton_of_countP (countOuts_reissues tx.vout ▸ hone) (fun _ => @reissues_of_reissuedOfOut E _)
      (mem_of_getLast? hlast) (by rw [reissuedOfOut, hread]; rfl)
  exact kindOutputs_of (issued_of_no_issue hzero) hreissued (owned_of_no_owner howners) hzero hone howners (Or.inr rfl)
    (by rw [hev]; rfl) (by rw [hn]; rfl)

theorem kindOutputs_unique (hn : E.isNewAsset tx = false) (hr : isReissueAsset tx = false)
    (hu : E.isNewUniqueAsset tx = true) (h : E.verifyNewUniqueAsset tx = .ok ()) : KindOutputs E tx := by
  obtain ⟨root, names, hloop, -, -, -, howners, hreissues, hissues⟩ := verifyNewUniqueAsset_loop h
  obtain ⟨_, -, hall⟩ := verifyNewUniqueAsset_ok h
  have hev : kindEvents E tx = issueEvents (uniqueIssues E tx) := by simp [kindEvents, hn, hr, hu]
  have hissued : tx.vout.filterMap (issuedOfOut E) =
      (uniqueIssues E tx).map fun issue => (issue.1.strName, issue.1.nAmount) := by
    have hunique : tx.vout.filterMap (issuedOfOut E) =
        (tx.vout.filter fun out => E.isScriptNewUniqueAsset out.scriptPubKey).filterMap (issuedOfOut E) := by
      rw [List.filterMap_filter]
      refine List.filterMap_congr fun out hout => ?_
      cases hread : E.assetFromScript out.scriptPubKey with
      | none => simp [issuedOfOut, hread]
      | some issue =>
        obtain ⟨asset, address⟩ := issue
        have hscript : E.isScriptNewUniqueAsset out.scriptPubKey = true :=
          (isScriptNewAssetOf_iff hread).mpr ⟨.UNIQUE, List.mem_singleton.mpr rfl, (hall out hout asset address hread).1⟩
        rw [if_pos hscript]
    rw [hunique, uniqueIssues, List.map_filterMap]
    rfl
  have hnames := congrArg List.length (uniqueLoop_names hloop List.nodup_nil).2
  rw [List.append_nil, List.length_reverse, List.length_map] at hnames
  refine kindOutputs_of hissued (reissued_of_no_reissue hreissues) (owned_of_no_owner howners) ?_ hreissues howners
    (Or.inl rfl) ?_ (by rw [hn]; rfl)
  · rw [hissues, List.length_map, hnames]
    rfl
  · rw [hev, issueEvents, List.map_map, append_nil]
    rfl

theorem kindOutputs_plain {action} (hn : E.isNewAsset tx = false) (hev : kindEvents E tx = [])
    (h : checkPlainTx tx = .ok action) : KindOutputs E tx := by
  simp only [checkPlainTx, ok_iff, forM_eq_ok] at h
  have htransfer : ∀ out ∈ tx.vout, ∀ a, isAssetScript out.scriptPubKey = some a → a.nType = .TX_TRANSFER_ASSET := by
    intro out hout a hs
    have ht := h.1 out hout
    simpa only [hs, require_eq_ok, beq_iff_eq] using ht
  have hissues : (getTxOutAssetTypes tx.vout).issues = 0 := by
    rw [countOuts_issues, countP_eq_zero]
    intro out hout hi
    obtain ⟨i, hi⟩ := issues_iff.mp hi
    cases htransfer out hout _ hi
  have hreissues : (getTxOutAssetTypes tx.vout).reissues = 0 := by
    rw [countOuts_reissues, countP_eq_zero]
    intro out hout hr
    rw [checkReissueDataTx, isSome_iff_exists] at hr
    obtain ⟨i, hi⟩ := hr
    obtain ⟨b, hb⟩ := isScriptReissueAsset_eq_some.mp hi
    cases htransfer out hout _ hb
  have howners : (getTxOutAssetTypes tx.vout).owners = 0 := by
    rw [countOuts_owners, countP_eq_zero]
    intro out hout ho
    rw [checkOwnerDataTx, isSome_iff_exists] at ho
    obtain ⟨i, hi⟩ := ho
    cases htransfer out hout _ (isScriptOwnerAsset_eq_some.mp hi)
  exact kindOutputs_of (issued_of_no_issue hissues) (reissued_of_no_reissue hreissues) (owned_of_no_owner howners) hissues
    hreissues howners (Or.inl rfl) (by rw [hev]; rfl) (by rw [hn]; rfl)

theorem checkKind_outputs {action} (h : E.checkKind tx = .ok action) : KindOutputs E tx := by
  cases checkKind_cases h with
  | issue hn hverify => exact kindOutputs_issue hn hverify
  | reissue hn hr hverify => exact kindOutputs_reissue hn hr hverify
  | unique hn hr hu hverify => exact kindOutputs_unique hn hr hu hverify
  | msgChannel hn hr hu hm hverify hread =>
    obtain ⟨last, asset, address, hone, -⟩ := verifyNewMsgChannelAsset_ok hverify
    cases hone.lastOutRead_eq hread
    exact kindOutputs_one hn hone (by simp [kindEvents, hn, hr, hu, hm, hread, issueEvents, AssetEvent.minted])
  | qualifier hn hr hu hm hq hverify hread =>
    obtain ⟨last, asset, address, hone, -⟩ := verifyNewQualfierAsset_ok hverify
    cases hone.lastOutRead_eq hread
    exact kindOutputs_one hn hone (by simp [kindEvents, hn, hr, hu, hm, hq, hread, issueEvents, AssetEvent.minted])
  | restricted hn hr hu hm hq hre hverify hread =>
    obtain ⟨last, asset, address, hone, -⟩ := verifyNewRestrictedAsset_ok hverify
    cases hone.lastOutRead_eq hread
    exact kindOutputs_one hn hone (by simp [kindEvents, hn, hr, hu, hm, hq, hre, hread, AssetEvent.minted])
  | plain hn hr hu hm hq hre hplain =>
    exact kindOutputs_plain hn (by simp [kindEvents, hn, hr, hu, hm, hq, hre]) hplain

section

variable {view : CoinsView} {mempool : MempoolMaps} {fm : Bool} {v : List (Bytes × Uint256)} {out : CTxOut}

theorem checkTxAssets_transfer (h : checkTxAssets E S c view mempool fm false tx = .ok v) (hout : out ∈ tx.vout)
    (ht : (isScriptTransferAsset out.scriptPubKey).isSome) :
    ∃ transfer address, E.transferAssetFromScript out.scriptPubKey = some (transfer, address) ∧
      contextualCheckTransferAsset E S c transfer address = .ok () ∧ checkTransferUnits E S c transfer = .ok () := by
  simp only [checkTxAssets, ok_iff] at h
  obtain ⟨-, -, -, st, hst, -⟩ := h
  obtain ⟨s1, s2, hstep⟩ := foldlM_step hst hout
  simp only [addOutput, ok_iff] at hstep
  obtain ⟨-, -, hstep⟩ := hstep
  have htype : (isAssetScript out.scriptPubKey).map Script.AssetScript.nType = some .TX_TRANSFER_ASSET := by
    unfold isScriptTransferAsset at ht
    split at ht
    · rename_i hs; rw [hs]; rfl
    · cases ht
  rw [htype] at hstep
  obtain ⟨transfer, address, hread, hcheck, hunits, -⟩ := addTransferOutput_ok hstep
  exact ⟨transfer, address, hread, hcheck, hunits rfl⟩

theorem contextualCheckTransferAsset_ok {transfer address}
    (h : contextualCheckTransferAsset E S c transfer address = .ok ()) :
    nameValid transfer.strName = true ∧ 0 < transfer.nAmount.toInt := by
  simp only [contextualCheckTransferAsset, ok_iff, decide_eq_true_eq, Int64.lt_iff_toInt_lt] at h
  obtain ⟨type, hname, hpos, -⟩ := h
  exact ⟨nameValid_iff.mpr ⟨type, hname⟩, hpos⟩

/-- A checked transfer has a valid name, so it was read at its marker. -/
theorem transferOfOut_carried (h : checkTxAssets E S c view mempool fm false tx = .ok v) (hout : out ∈ tx.vout)
    (ht : (isScriptTransferAsset out.scriptPubKey).isSome) : transferOfOut E out = carriedAsset out.scriptPubKey := by
  obtain ⟨transfer, address, hread, hcheck, -⟩ := checkTxAssets_transfer h hout ht
  have hout : transferOfOut E out = some (transfer.strName, transfer.nAmount) := by rw [transferOfOut, hread]; rfl
  rcases transferOfOut_cases hout with hcarried | hlong
  · rw [hout, hcarried]
  · have hshort := (nameValid_length (contextualCheckTransferAsset_ok hcheck).1).1
    dsimp only at hlong
    omega

def carriedOutputs (tx : CTransaction) : List (Bytes × CAmount) := tx.vout.filterMap fun out => carriedAsset out.scriptPubKey

theorem filterMap_cons_toList {α β : Type} (f : α → Option β) (a : α) (l : List α) :
    (a :: l).filterMap f = (f a).toList ++ l.filterMap f := by
  rw [filterMap_cons]
  cases f a <;> rfl

/-- What the outputs carry: transfers, what is issued or reissued, owner tokens. -/
theorem carriedOutputs_perm (h : checkTxAssets E S c view mempool fm false tx = .ok v) :
    (carriedOutputs tx).Perm
      (transferOutputs E tx ++ tx.vout.filterMap (mintedOfOut E) ++ tx.vout.filterMap (ownerOfOut E)) := by
  have hsplit : ∀ out ∈ tx.vout, (carriedAsset out.scriptPubKey).toList =
      (transferOfOut E out).toList ++ (mintedOfOut E out).toList ++ (ownerOfOut E out).toList :=
    fun out hout => carriedAsset_split out (transferOfOut_carried h hout)
  unfold carriedOutputs transferOutputs
  generalize tx.vout = vout at hsplit
  induction vout with
  | nil => exact List.Perm.nil
  | cons out vout ih =>
    have ih := ih fun o ho => hsplit o (mem_cons_of_mem _ ho)
    simp only [perm_iff_count, count_append, filterMap_cons_toList, hsplit out mem_cons_self] at ih ⊢
    intro e
    have := ih e
    omega

end

end Hivecoin

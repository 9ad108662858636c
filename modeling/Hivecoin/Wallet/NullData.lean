import Hivecoin.Chain.Lemmas.NullData
import Hivecoin.Script.RoundTrip

/-!
# Tags and freezes that the wallet builds

The null data that `CreateTransferAssetTransaction` builds, and whether it means the address.
-/

namespace Hivecoin

open Outcome CAssetsCache Script ByteReader List Option MarkRecords Pending Write

variable {data : CNullAssetTxData} {address hash name : Bytes} {c : CAssetsCache}

/-- `vecSend` and `nAddTagCount`. -/
structure NullDataPlan where
  vecSend : List CTxOut := []
  nAddTagCount : Nat := 0

def nullDataScript (dest : CTxDestination) (data : CNullAssetTxData) : Bytes :=
  scriptForNullAssetDataDestination dest ++ pushBytes (nullAssetTxData data)

/-- Names of neither a qualifier nor a restricted asset are not checked. -/
def checkNullData (S : Store) (data : CNullAssetTxData) (address : Bytes) : Check :=
  if isAssetNameAQualifier data.asset_name then verifyQualifierChange S data address
  else if isAssetNameAnRestricted data.asset_name then verifyRestrictedAddressChange S data address
  else .ok ()

def addNullData (E : Env) (S : Store) (plan : NullDataPlan) (entry : CNullAssetTxData × Bytes) :
    Except String NullDataPlan := do
  checkNullData S entry.1 entry.2
  let adds := isAssetNameAQualifier entry.1.asset_name && entry.1.flag == 1
  return {
    vecSend := plan.vecSend ++ [⟨0, nullDataScript (E.decodeDestination entry.2) entry.1⟩]
    nAddTagCount := plan.nAddTagCount + if adds then 1 else 0 }

/-- The outputs for a vector of null data, with the fee for added tags. -/
def nullDataRecipients (E : Env) (S : Store) (nullAssetTxData : List (CNullAssetTxData × Bytes)) :
    Except String (List CTxOut) := do
  let plan ← nullAssetTxData.foldlM (addNullData E S) {}
  let burn := E.decodeDestination (getBurnAddress E.network .NULL_ADD_QUALIFIER)
  return plan.vecSend ++ if plan.nAddTagCount = 0 then []
    else [⟨getBurnAmount .NULL_ADD_QUALIFIER * Int64.ofNat plan.nAddTagCount, scriptForDestination burn⟩]

variable {E : Env} {S : Store}

theorem foldlM_addNullData {entries : List (CNullAssetTxData × Bytes)} {plan plan' : NullDataPlan}
    (h : entries.foldlM (addNullData E S) plan = .ok plan') :
    plan'.vecSend = plan.vecSend ++ entries.map (fun e => ⟨0, nullDataScript (E.decodeDestination e.2) e.1⟩) ∧
      ∀ e ∈ entries, checkNullData S e.1 e.2 = .ok () := by
  induction entries generalizing plan with
  | nil =>
    cases h
    simp
  | cons e entries ih =>
    simp only [foldlM_cons, addNullData, ok_iff] at h
    obtain ⟨_, ⟨hcheck, rfl⟩, hrest⟩ := h
    obtain ⟨hsend, hall⟩ := ih hrest
    exact ⟨by simp [hsend], forall_mem_cons.2 ⟨hcheck, hall⟩⟩

theorem nullDataRecipients_ok {entries vecSend}
    (h : nullDataRecipients E S entries = .ok vecSend) (hmem : (data, address) ∈ entries) :
    ⟨0, nullDataScript (E.decodeDestination address) data⟩ ∈ vecSend ∧ checkNullData S data address = .ok () := by
  simp only [nullDataRecipients, ok_iff] at h
  obtain ⟨plan, hplan, rfl⟩ := h
  obtain ⟨hsend, hall⟩ := foldlM_addNullData hplan
  refine ⟨mem_append_left _ ?_, hall _ hmem⟩
  rw [hsend, mem_append]
  exact Or.inr (mem_map.2 ⟨_, hmem, rfl⟩)

theorem nullAssetTxData_sound {s rest d}
    (h : Read.nullAssetTxData s = some (d, rest)) :
    s = nullAssetTxData d ++ rest ∧ d.asset_name.length ≤ Read.MAX_SIZE := by
  unfold Read.nullAssetTxData at h
  obtain ⟨name, t, hname, hrest⟩ := bind_sound h
  obtain ⟨rfl, hlen⟩ := lengthPrefixed_sound hname
  obtain ⟨flag, u, hflag, hpure⟩ := bind_sound hrest
  rw [pure_read, some.injEq, Prod.mk.injEq] at hpure
  obtain ⟨rfl, rfl⟩ := hpure
  rw [int8_sound hflag, nullAssetTxData, append_assoc]
  exact ⟨rfl, hlen⟩

theorem drop_pushBytes {s} (h : 76 ≤ s.length) :
    (pushBytes s).drop 1 =
      ByteWriter.natLE (if s.length ≤ 0xff then 1 else if s.length ≤ 0xffff then 2 else 4) s.length ++ s := by
  unfold pushBytes
  rw [if_neg (by simp [OP_PUSHDATA1]; omega)]
  split
  · rfl
  split <;> rfl

/-- A long push has a length of its own, which the serialized form does not start with. -/
theorem drop_pushBytes_ne {d} (hsize : d.asset_name.length ≤ Read.MAX_SIZE)
    (hlong : 73 < d.asset_name.length) (rest : Bytes) :
    (pushBytes (nullAssetTxData d)).drop 1 ≠ nullAssetTxData d ++ rest := by
  have hmax : Read.MAX_SIZE = 33554432 := rfl
  have hbyte : ∀ {m n : Nat}, UInt8.ofNat m = UInt8.ofNat n → m % 256 = n % 256 := by
    intro m n h
    have := congrArg UInt8.toNat h
    rwa [UInt8.toNat_ofNat', UInt8.toNat_ofNat'] at this
  obtain ⟨name, flag⟩ := d
  simp only at hsize hlong
  generalize hn : name.length = n at hsize hlong
  have hdata : nullAssetTxData ⟨name, flag⟩ = ByteWriter.compactSize n ++ (name ++ ByteWriter.int8 flag) := by
    simp [nullAssetTxData, ByteWriter.lengthPrefixed, hn]
  have hlen : (nullAssetTxData ⟨name, flag⟩).length = (ByteWriter.compactSize n).length + n + 1 := by
    rw [hdata]
    simp [ByteWriter.int8, hn]
    omega
  have hpos : 1 ≤ (ByteWriter.compactSize n).length := by
    unfold ByteWriter.compactSize
    split
    · simp [length_natLE]
    split
    · simp
    split <;> simp
  intro heq
  rw [drop_pushBytes (by omega), hlen, hdata] at heq
  generalize name ++ ByteWriter.int8 flag = tail at heq
  clear hdata hlen hpos
  by_cases h₁ : n < 253
  · have hsize : ByteWriter.compactSize n = [UInt8.ofNat n] := if_pos h₁
    rw [hsize, length_singleton, if_pos (by omega)] at heq
    have h0 := hbyte (List.cons.inj heq).1
    omega
  by_cases h₂ : n < 0x10000
  · have hsize : ByteWriter.compactSize n = [UInt8.ofNat 253, UInt8.ofNat n, UInt8.ofNat (n / 256)] :=
      (if_neg h₁).trans (if_pos h₂)
    rw [hsize, show [UInt8.ofNat 253, UInt8.ofNat n, UInt8.ofNat (n / 256)].length = 3 from rfl,
      if_neg (by omega)] at heq
    split at heq
    · simp only [ByteWriter.natLE, cons_append, nil_append, List.cons.injEq] at heq
      obtain ⟨h0, h1, h2, -⟩ := heq
      have h0 := hbyte h0
      have h1 := hbyte h1
      have h2 := hbyte h2
      omega
    · have h0 := hbyte (List.cons.inj heq).1
      omega
  · have hsize : ByteWriter.compactSize n = [UInt8.ofNat 254, UInt8.ofNat n, UInt8.ofNat (n / 256),
        UInt8.ofNat (n / 256 / 256), UInt8.ofNat (n / 256 / 256 / 256)] :=
      (if_neg h₁).trans ((if_neg h₂).trans (if_pos (by omega)))
    rw [hsize, show [UInt8.ofNat 254, UInt8.ofNat n, UInt8.ofNat (n / 256), UInt8.ofNat (n / 256 / 256),
      UInt8.ofNat (n / 256 / 256 / 256)].length = 5 from rfl, if_neg (by omega), if_neg (by omega)] at heq
    simp only [ByteWriter.natLE, cons_append, nil_append, List.cons.injEq] at heq
    obtain ⟨h0, h1, h2, h3, -⟩ := heq
    have h0 := hbyte h0
    have h1 := hbyte h1
    have h2 := hbyte h2
    have h3 := hbyte h3
    omega

/-! ## What connecting it changes -/

def connected (E : Env) (S : Store) (tx : CTransaction) (nHeight : Nat) (blockHash : Uint256) : Store :=
  S.flush (addAssets E S ∅ tx nHeight blockHash).1

def nullScripts (tx : CTransaction) : List Bytes := (tx.vout.map (·.scriptPubKey)).filter isNullAsset

/-- The output is read as the data for the destination, and connecting it sets the tag or freeze there and none elsewhere. -/
structure Hits (E : Env) (S : Store) (dest : CTxDestination) (data : CNullAssetTxData) : Prop where
  decoded : E.assetNullDataFromScript (nullDataScript dest data) = some (data, E.encodeDestination dest)
  tags : ∀ tx nHeight blockHash, E.areAssetsDeployed = true → nullScripts tx = [nullDataScript dest data] →
    isAssetNameAQualifier data.asset_name = true →
    checkForAddressQualifier (connected E S tx nHeight blockHash) ∅ data.asset_name (E.encodeDestination dest) =
      decide (data.flag ≠ 0)
  freezes : ∀ tx nHeight blockHash, E.areAssetsDeployed = true → nullScripts tx = [nullDataScript dest data] →
    isAssetNameAnRestricted data.asset_name = true →
    checkForAddressRestriction (connected E S tx nHeight blockHash) ∅ data.asset_name (E.encodeDestination dest) =
      decide (data.flag ≠ 0)
  others : ∀ tx nHeight blockHash, nullScripts tx = [nullDataScript dest data] →
    ∀ name address, address ≠ E.encodeDestination dest →
      checkForAddressQualifier (connected E S tx nHeight blockHash) ∅ name address =
        checkForAddressQualifier S ∅ name address ∧
      checkForAddressRestriction (connected E S tx nHeight blockHash) ∅ name address =
        checkForAddressRestriction S ∅ name address

theorem isNullAsset_of_nullDataOp {script} (h : nullDataOp E script ≠ none) : isNullAsset script = true := by
  unfold nullDataOp at h
  unfold isNullAsset
  by_cases h1 : isNullAssetTxDataScript script = true
  · simp [h1]
  · by_cases h2 : isNullGlobalRestrictionAssetTxDataScript script = true
    · simp [h2]
    · simp [h1, h2] at h

theorem nullOps_eq (hdep : E.areAssetsDeployed = true) (tx : CTransaction) :
    nullOps E tx = (nullScripts tx).filterMap (nullDataOp E) := by
  rw [nullOps, if_pos hdep, nullScripts, filterMap_filter, filterMap_map]
  refine filterMap_congr fun out _ => ?_
  simp only [Function.comp_apply]
  split
  · rfl
  · rename_i hn
    by_contra hop
    exact hn (isNullAsset_of_nullDataOp hop)

theorem connected_marks {tx script} (h : nullScripts tx = [script])
    (nHeight : Nat) (blockHash : Uint256) :
    (addAssets E S ∅ tx nHeight blockHash).1.marks =
      (if E.areAssetsDeployed then (nullDataOp E script).toList else []).foldl exec (∅ : CAssetsCache).marks := by
  rw [addAssets_fst, tryOps_marks, txOps_filter_isMark]
  split
  · rename_i hdep
    rw [nullOps_eq hdep, h]
    cases hop : nullDataOp E script with
    | none => simp [hop]
    | some op => simp [hop]
  · rename_i hdep
    rw [nullOps, if_neg hdep]

theorem checkForAddressQualifier_flush (c : CAssetsCache) (name address : Bytes) :
    checkForAddressQualifier (S.flush c) ∅ name address =
      mark QualifierType.isAdd c.marks.tags ∅ (name, address)
        (mark QualifierType.isAdd ∅ S.passets.newQualifierAddress (name, address)
          (rootQualifier (S.flush c) ∅ name address)) :=
  mark_flushOver _ _ _ _ _

theorem checkForAddressRestriction_flush (c : CAssetsCache) (name address : Bytes) :
    checkForAddressRestriction (S.flush c) ∅ name address =
      mark RestrictedType.isFreeze c.marks.freezes ∅ (name, address)
        (checkForAddressRestriction S ∅ name address) :=
  mark_flushOver _ _ _ _ _

theorem rootQualifier_flush_of_noted (h : c.marks.noted (name, address) = ∅) :
    rootQualifier (S.flush c) ∅ name address = rootQualifier S ∅ name address := by
  simp only [rootQualifier, getD_rootAdd_flush, h, Finset.union_empty]
  rfl

/-- The marks that the operation touches are at this address. -/
def CacheOp.StaysAt (op : CacheOp) (address : Bytes) : Prop :=
  (∀ cmd, op.tagCmd = some cmd → cmd.key.2 = address) ∧ (∀ cmd, op.freezeCmd = some cmd → cmd.key.2 = address) ∧
    ∀ n, op.rootNote = some n → n.2.1 = address

theorem flush_of_staysAt {ops : List CacheOp} (hc : c.marks = ops.foldl exec (∅ : CAssetsCache).marks)
    (hops : ∀ op ∈ ops, op.StaysAt address) {address'} (hne : address' ≠ address) :
    checkForAddressQualifier (S.flush c) ∅ name address' = checkForAddressQualifier S ∅ name address' ∧
      checkForAddressRestriction (S.flush c) ∅ name address' = checkForAddressRestriction S ∅ name address' := by
  obtain ⟨htags, hfreezes, -⟩ := foldl_exec_eq ops (∅ : CAssetsCache).marks
  have hnoted : c.marks.noted (name, address') = ∅ := by
    by_contra hsome
    rw [hc] at hsome
    rcases (noted_foldl_ne_empty ops _ _).1 hsome with hempty | ⟨op, hop, n, a, gets, hnote, -, hkey⟩
    · exact hempty rfl
    · exact hne ((Prod.mk.inj hkey).2.trans ((hops op hop).2.2 _ hnote))
  have hno : ∀ {V : Type} {f : CacheOp → Option (Pending.Cmd (Bytes × Bytes) V)},
      (∀ op ∈ ops, ∀ cmd, f op = some cmd → cmd.key.2 = address) → ∀ cmd ∈ ops.filterMap f, cmd.key ≠ (name, address') := by
    intro V f hf cmd hcmd hkey
    obtain ⟨op, hop, hfop⟩ := mem_filterMap.1 hcmd
    exact hne (by rw [← hf op hop cmd hfop, hkey])
  have htag := hno fun op hop => (hops op hop).1
  have hfreeze := hno fun op hop => (hops op hop).2.1
  constructor
  · rw [checkForAddressQualifier_flush, hc, htags,
      mark_foldl_exec (b := true) (fun cmd hcmd hk => absurd hk (htag cmd hcmd)),
      if_neg (by rintro ⟨cmd, hcmd, hk⟩; exact htag cmd hcmd hk), rootQualifier_flush_of_noted hnoted]
    exact mark_empty _ _ _
  · rw [checkForAddressRestriction_flush, hc, hfreezes,
      mark_foldl_exec (b := true) (fun cmd hcmd hk => absurd hk (hfreeze cmd hcmd)),
      if_neg (by rintro ⟨cmd, hcmd, hk⟩; exact hfreeze cmd hcmd hk)]
    exact mark_empty _ _ _

theorem flush_addQualifierAddress {type}
    (hc : c.marks = [CacheOp.addQualifierAddress name address type].foldl exec (∅ : CAssetsCache).marks) :
    checkForAddressQualifier (S.flush c) ∅ name address = type.isAdd := by
  rw [checkForAddressQualifier_flush, hc, (foldl_exec_eq _ _).1]
  exact (mark_exec _ _ (.add (name, address) type) _ _).trans (if_pos rfl)

theorem flush_addRestrictedAddress {type}
    (hc : c.marks = [CacheOp.addRestrictedAddress name address type].foldl exec (∅ : CAssetsCache).marks) :
    checkForAddressRestriction (S.flush c) ∅ name address = type.isFreeze := by
  rw [checkForAddressRestriction_flush, hc, (foldl_exec_eq _ _).2.1]
  exact (mark_exec _ _ (.add (name, address) type) _ _).trans (if_pos rfl)

theorem hits_of_decoded {dest}
    (h : E.assetNullDataFromScript (nullDataScript dest data) = some (data, E.encodeDestination dest)) :
    Hits E S dest data := by
  have hnull : isNullAssetTxDataScript (nullDataScript dest data) = true := by
    by_contra hno
    rw [Env.assetNullDataFromScript] at h
    simp [hno] at h
  have hadd : (qualifierType data.flag).isAdd = decide (data.flag ≠ 0) := by
    by_cases hf : data.flag = 0 <;> simp [qualifierType, hf, QualifierType.isAdd]
  have hfreeze : (restrictedType data.flag).isFreeze = decide (data.flag ≠ 0) := by
    by_cases hf : data.flag = 0 <;> simp [restrictedType, hf, RestrictedType.isFreeze]
  refine ⟨h, ?_, ?_, ?_⟩
  · intro tx nHeight blockHash hdep htx hq
    rw [← hadd]
    refine flush_addQualifierAddress ((connected_marks htx nHeight blockHash).trans ?_)
    rw [if_pos hdep, nullDataOp, if_pos hnull, h]
    dsimp only [Option.getD_some]
    rcases isTag_of_isAssetNameAQualifier hq with ht | ht <;> rw [ht] <;> rfl
  · intro tx nHeight blockHash hdep htx hr
    rw [← hfreeze]
    refine flush_addRestrictedAddress ((connected_marks htx nHeight blockHash).trans ?_)
    rw [if_pos hdep, nullDataOp, if_pos hnull, h]
    dsimp only [Option.getD_some]
    rw [restricted_of_isAssetNameAnRestricted hr]
    rfl
  · intro tx nHeight blockHash htx name address hne
    refine flush_of_staysAt (connected_marks htx nHeight blockHash) (fun op hmem => ?_) hne
    split at hmem
    · rw [nullDataOp, if_pos hnull, h] at hmem
      dsimp only [Option.getD_some] at hmem
      split at hmem
      · cases mem_singleton.1 hmem
        exact ⟨by rintro _ ⟨⟩, by rintro _ ⟨⟩; rfl, by rintro _ ⟨⟩⟩
      · cases mem_singleton.1 hmem
        exact ⟨by rintro _ ⟨⟩; rfl, by rintro _ ⟨⟩, by rintro _ ⟨⟩; rfl⟩
      · cases mem_singleton.1 hmem
        exact ⟨by rintro _ ⟨⟩; rfl, by rintro _ ⟨⟩, by rintro _ ⟨⟩; rfl⟩
      · cases hmem
    · cases hmem

/-! ## Which outputs hit their destination -/

theorem encode_keyID_inj {hash'} (h : hash.length = 20) (h' : hash'.length = 20)
    (heq : E.encodeDestination (.keyID hash) = E.encodeDestination (.keyID hash')) : hash = hash' := by
  have := congrArg E.codec.decode heq
  rw [Env.encodeDestination, Env.encodeDestination, E.codec.decode_encode _ h, E.codec.decode_encode _ h'] at this
  exact CTxDestination.keyID.inj this

/-- The decoder takes the hash from its place in an asset script. -/
def readKeyID (hash : Bytes) (data : CNullAssetTxData) : Bytes :=
  match isAssetScript (nullAssetTxDataScript hash data) with
  | some _ => ((nullAssetTxDataScript hash data).drop 3).take 20
  | none => hash

theorem assetNullDataFromScript_readKeyID (hhash : hash.length = 20) (hname : data.asset_name.length ≤ 73) : (readKeyID hash data).length = 20 ∧
      E.assetNullDataFromScript (nullAssetTxDataScript hash data) =
        some (data, E.encodeDestination (.keyID (readKeyID hash data))) := by
  have hsize := length_nullAssetTxData hname
  have hscript : nullAssetTxDataScript hash data = _ := @nullScript_eq _ (nullAssetTxData data) hhash (by omega)
  rw [assetNullDataFromScript_eq hhash hname]
  unfold readKeyID
  cases hasset : isAssetScript (nullAssetTxDataScript hash data) with
  | none => exact ⟨hhash, by rw [nullAssetTxDataScript, scriptAddress_null hhash (by omega) hasset]⟩
  | some a => exact ⟨by rw [hscript]; simp [hhash], by rw [scriptAddress_asset hasset]⟩

theorem assetNullDataFromScript_long (hhash : hash.length = 20) (hname : 73 < data.asset_name.length) :
    E.assetNullDataFromScript (nullAssetTxDataScript hash data) ≠ some (data, address) := by
  intro h
  have hdrop : (nullAssetTxDataScript hash data).drop 23 = (pushBytes (nullAssetTxData data)).drop 1 := by
    have hsplit : nullAssetTxDataScript hash data = (OP_HVN_ASSET :: pushBytes hash) ++ pushBytes (nullAssetTxData data) := rfl
    rw [hsplit, pushBytes_short (s := hash) (by omega), List.drop_append]
    simp [hhash]
  have hread : ∃ rest, Read.nullAssetTxData ((pushBytes (nullAssetTxData data)).drop 1) = some (data, rest) := by
    rw [Env.assetNullDataFromScript] at h
    simp only [Read.from_, hdrop, Option.bind_eq_bind, Option.map_eq_map] at h
    split at h
    · cases h
    · obtain ⟨d, hd, heq⟩ := Option.bind_eq_some_iff.1 h
      obtain ⟨⟨d', rest⟩, hd', rfl⟩ := Option.map_eq_some_iff.1 hd
      cases heq
      exact ⟨rest, hd'⟩
  obtain ⟨rest, hread⟩ := hread
  obtain ⟨heq, hsize⟩ := nullAssetTxData_sound hread
  exact drop_pushBytes_ne hsize hname rest heq

/-- Data and hash come back: always for tags and freezes, and under unchecked names if they are short and the hash is read where it
stands. -/
theorem hits_keyID_iff (hhash : hash.length = 20) :
    Hits E S (.keyID hash) data ↔
      isAssetNameAQualifier data.asset_name = true ∨ isAssetNameAnRestricted data.asset_name = true ∨
        (data.asset_name.length ≤ 73 ∧ readKeyID hash data = hash) := by
  constructor
  · intro h
    right; right
    by_cases hname : data.asset_name.length ≤ 73
    · obtain ⟨hlen, hread⟩ := assetNullDataFromScript_readKeyID (E := E) hhash hname
      refine ⟨hname, encode_keyID_inj (E := E) hlen hhash ?_⟩
      exact (Prod.mk.inj (Option.some.inj (hread.symm.trans h.decoded))).2
    · exact absurd h.decoded (assetNullDataFromScript_long hhash (by omega))
  · intro h
    refine hits_of_decoded ?_
    rcases or_assoc.2 h with hname | ⟨hname, hread⟩
    · obtain ⟨hshort, hlen, hsecond⟩ := second_char hname
      exact (assetNullDataFromScript_built hhash hshort hsecond hlen).2
    · have h' := (assetNullDataFromScript_readKeyID (E := E) hhash hname).2
      rwa [hread] at h'

theorem not_hits_scriptID (hhash : hash.length = 20)
    (hvalid : E.decodeDestination (E.encodeDestination (.scriptID hash)) = .scriptID hash) :
    ¬ Hits E S (.scriptID hash) data := by
  intro h
  have hdecoded : E.assetNullDataFromScript (nullAssetTxDataScript hash data) =
    some (data, E.encodeDestination (.scriptID hash)) := h.decoded
  by_cases hname : data.asset_name.length ≤ 73
  · obtain ⟨hlen, hread⟩ := assetNullDataFromScript_readKeyID (E := E) hhash hname
    have haddress := (Prod.mk.inj (Option.some.inj (hread.symm.trans hdecoded))).2
    have hkey := E.codec.decode_encode _ hlen
    rw [← Env.encodeDestination, haddress] at hkey
    cases hvalid.symm.trans hkey
  · exact assetNullDataFromScript_long hhash (by omega) hdecoded

def IsValidDestination (E : Env) (dest : CTxDestination) : Prop :=
  (∃ hash, hash.length = 20 ∧ (dest = .keyID hash ∨ dest = .scriptID hash)) ∧
    E.decodeDestination (E.encodeDestination dest) = dest

/-- Which outputs mean the destination they were built for. -/
theorem nullDataRecipients_hits_iff (E : Env) (S : Store) (nullAssetTxData : List (CNullAssetTxData × Bytes))
    (vecSend : List CTxOut) (haccept : nullDataRecipients E S nullAssetTxData = .ok vecSend)
    (data : CNullAssetTxData) (dest : CTxDestination) (hdest : IsValidDestination E dest)
    (hmem : (data, E.encodeDestination dest) ∈ nullAssetTxData) :
    ⟨0, nullDataScript dest data⟩ ∈ vecSend ∧
      (Hits E S dest data ↔ ∃ hash, dest = .keyID hash ∧
        (isAssetNameAQualifier data.asset_name = true ∨ isAssetNameAnRestricted data.asset_name = true ∨
          (data.asset_name.length ≤ 73 ∧ readKeyID hash data = hash))) := by
  obtain ⟨⟨hash, hhash, hkind⟩, hvalid⟩ := hdest
  refine ⟨hvalid ▸ (nullDataRecipients_ok haccept hmem).1, ?_⟩
  rcases hkind with rfl | rfl
  · rw [hits_keyID_iff hhash]
    constructor
    · intro h
      exact ⟨hash, rfl, h⟩
    · rintro ⟨_, ⟨⟩, h⟩
      exact h
  · constructor
    · intro h
      exact absurd h (not_hits_scriptID hhash hvalid)
    · rintro ⟨_, h, -⟩
      cases h

namespace Regtest

def tag : CNullAssetTxData := ⟨ascii "#TAG", 1⟩

def vault : CTxDestination := .scriptID (List.replicate 20 3)

/-- A tag for a script goes to the key whose hash is the same. -/
theorem tag_vault_goes_to_key :
    (nullDataRecipients env ∅ [(tag, env.encodeDestination vault)]).toBool = true ∧
      IsValidDestination env vault ∧
      env.assetNullDataFromScript (nullDataScript vault tag) =
        some (tag, env.encodeDestination (.keyID (List.replicate 20 3))) ∧
      env.encodeDestination vault ≠ env.encodeDestination (.keyID (List.replicate 20 3)) := by
  refine ⟨by decide +kernel, ⟨⟨_, rfl, Or.inr rfl⟩, rfl⟩, by decide +kernel, by decide +kernel⟩

theorem tag_alice_hits :
    ∃ vecSend, nullDataRecipients env ∅ [(tag, env.encodeDestination (.keyID alice))] = .ok vecSend ∧
      ⟨0, nullDataScript (.keyID alice) tag⟩ ∈ vecSend ∧ Hits env ∅ (.keyID alice) tag := by
  cases h : nullDataRecipients env ∅ [(tag, env.encodeDestination (.keyID alice))] with
  | error e =>
    have hok : (nullDataRecipients env ∅ [(tag, env.encodeDestination (.keyID alice))]).toBool = true := by
      decide +kernel
    rw [h] at hok
    cases hok
  | ok vecSend =>
    have hvalid : IsValidDestination env (.keyID alice) :=
      ⟨⟨alice, rfl, Or.inl rfl⟩, env.codec.decode_encode alice rfl⟩
    obtain ⟨hsend, hhits⟩ := nullDataRecipients_hits_iff env ∅ _ vecSend h tag (.keyID alice) hvalid (by simp)
    exact ⟨vecSend, rfl, hsend, hhits.2 ⟨alice, rfl, Or.inl (by decide +kernel)⟩⟩

end Regtest

end Hivecoin

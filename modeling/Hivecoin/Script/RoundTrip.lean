import Hivecoin.Assets.Lemmas.Construct
import Hivecoin.Tx.Check

/-!
# Building and decoding scripts

What the decoders make of the scripts that the constructors build.
-/

namespace Hivecoin

open Script ByteReader Outcome List Option Write Env

variable {E : Env} {dest : Bytes}
variable {a : CNewAsset} {r : CReissueAsset} {t : CAssetTransfer} {d : CNullAssetTxData}

/-- No data, an IPFS hash of 34 bytes or a transaction id of 32. -/
def HashSized (hash : Bytes) : Prop := hash = [] ∨ hash.length = 34 ∨ hash.length = 32

/-- The first two bytes of an IPFS hash are not written but put there by the reader. -/
def readHash (hash : Bytes) : Bytes := if hash.length = 34 then 0x12 :: 0x20 :: hash.drop 2 else hash

/-- What the reader puts before an IPFS hash is what stood there. -/
def HashKept (hash : Bytes) : Prop := hash.length = 34 → hash.take 2 = [0x12, 0x20]

theorem readHash_eq_iff (hash : Bytes) : readHash hash = hash ↔ HashKept hash := by
  unfold readHash HashKept
  by_cases h : hash.length = 34
  · rw [if_pos h, imp_iff_right h]
    constructor
    · intro heq
      rw [← heq]
      rfl
    · intro htake
      rw [show (0x12 : UInt8) :: 0x20 :: hash.drop 2 = [0x12, 0x20] ++ hash.drop 2 from rfl, ← htake,
        take_append_drop]
  · simp [h]

theorem string_write {w} (hw : w.length ≤ 0x02000000) (rest : Bytes) :
    Read.string (ByteWriter.lengthPrefixed w ++ rest) = some (w, rest) :=
  lengthPrefixed_write hw (by decide) rest

theorem assetHash_write {hash rest} (hs : HashSized hash) (hrest : hash = [] → rest.length < 33) :
    Read.assetHash (assetHash hash ++ rest) = some ((readHash hash, hash != []), rest) := by
  have htag : ∀ (c : Nat) (s : Bytes), c < 256 → natLE 1 (UInt8.ofNat c :: s) = some (c, s) := fun c s hc => by
    simpa [ByteWriter.natLE] using natLE_write (n := 1) (k := c) (by omega) s
  have hhash : ∀ (c : Nat) (w : Bytes), c < 256 → w.length = 32 →
      Read.assetHash (UInt8.ofNat c :: (ByteWriter.lengthPrefixed w ++ rest)) =
        some (((if c = 0x12 then [0x12, 0x20] else []) ++ w, true), rest) := by
    intro c w hc hw
    have hlen : (UInt8.ofNat c :: (ByteWriter.lengthPrefixed w ++ rest)).length ≥ 33 := by
      simp [ByteWriter.lengthPrefixed, hw]; omega
    rw [Read.assetHash, bind_read (remaining_read _), if_pos hlen, bind_read (htag c _ hc),
      bind_read (string_write (by omega) rest), pure_read, take_of_length_le (by omega)]
  unfold readHash assetHash
  rcases hs with rfl | h | h
  · rw [if_neg (by simp), if_neg (by simp), nil_append, Read.assetHash, bind_read (remaining_read _),
      if_neg (Nat.not_le.2 (hrest rfl))]
    rfl
  · have hne : hash ≠ [] := by rintro rfl; cases h
    rw [if_pos h, if_pos h, cons_append]
    refine (hhash 0x12 (hash.drop 2) (by omega) (by simp [h])).trans ?_
    simp [hne]
  · have hne : hash ≠ [] := by rintro rfl; cases h
    rw [if_neg (by omega), if_pos h, if_neg (by omega), cons_append]
    refine (hhash 0x54 hash (by omega) h).trans ?_
    simp [hne]

theorem newAsset_write {rest} (hname : a.strName.length ≤ 0x02000000) (hs : HashSized a.strIPFSHash)
    (hrest : a.nHasIPFS = 1 → a.strIPFSHash = [] → rest.length < 33) :
    Read.newAsset (newAsset a ++ rest) =
      some ({ a with strIPFSHash := if a.nHasIPFS = 1 then readHash a.strIPFSHash else [] }, rest) := by
  simp only [newAsset, append_assoc]
  rw [Read.newAsset, bind_read (string_write hname _), bind_read (int64_write _ _), bind_read (int8_write _ _),
    bind_read (int8_write _ _), bind_read (int8_write _ _)]
  by_cases h : a.nHasIPFS = 1
  · simp only [if_pos h]
    rw [bind_read (map_read (assetHash_write hs (hrest h)) _)]
    rfl
  · simp only [if_neg h]
    rfl

theorem reissueAsset_write {rest} (hname : r.strName.length ≤ 0x02000000) (hs : HashSized r.strIPFSHash)
    (hrest : r.strIPFSHash = [] → rest.length < 33) :
    Read.reissueAsset (reissueAsset r ++ rest) = some ({ r with strIPFSHash := readHash r.strIPFSHash }, rest) := by
  simp only [reissueAsset, append_assoc]
  rw [Read.reissueAsset, bind_read (string_write hname _), bind_read (int64_write _ _), bind_read (int8_write _ _),
    bind_read (int8_write _ _), bind_read (assetHash_write hs hrest)]
  rfl

theorem assetTransfer_write {rest} (hname : t.strName.length ≤ 0x02000000) (hs : HashSized t.message)
    (hexpire : t.message = [] → t.nExpireTime = 0) (hrest : rest.length < 8) :
    Read.assetTransfer (assetTransfer t ++ rest) = some ({ t with message := readHash t.message }, rest) := by
  have hmessage : t.nExpireTime ≠ 0 → t.message ≠ [] := fun h hnil => h (hexpire hnil)
  simp only [assetTransfer, append_assoc]
  by_cases h : t.nExpireTime = 0
  · rw [if_neg (fun hc => hc.2 h), Read.assetTransfer, bind_read (string_write hname _), bind_read (int64_write _ _),
      nil_append, bind_read (assetHash_write hs fun _ => by omega)]
    dsimp only
    rw [bind_read (remaining_read _), if_neg (by omega), bind_read (pure_read _ _), ← h]
    rfl
  · rw [if_pos ⟨hs.resolve_left (hmessage h), h⟩, Read.assetTransfer, bind_read (string_write hname _),
      bind_read (int64_write _ _), bind_read (assetHash_write hs fun hnil => absurd hnil (hmessage h))]
    dsimp only
    rw [bind_read (remaining_read _), if_pos (by simp [hmessage h, ByteWriter.int64, length_natLE]),
      bind_read (int64_write _ _)]
    rfl

theorem nullAssetTxData_write (hname : d.asset_name.length ≤ 73) :
    Read.nullAssetTxData (nullAssetTxData d) = some (d, []) := by
  have hflag := int8_write d.flag []
  rw [append_nil] at hflag
  rw [nullAssetTxData, Read.nullAssetTxData, bind_read (string_write (by omega) _), bind_read hflag]
  rfl

theorem length_assetHash {hash} (hs : HashSized hash) :
    (assetHash hash).length = if hash = [] then 0 else 34 := by
  rcases hs with rfl | h | h
  · rfl
  · have hne : hash ≠ [] := by rintro rfl; cases h
    simp [assetHash, h, hne, ByteWriter.lengthPrefixed, ByteWriter.compactSize, length_natLE]
  · have hne : hash ≠ [] := by rintro rfl; cases h
    simp [assetHash, h, hne, ByteWriter.lengthPrefixed, ByteWriter.compactSize, length_natLE]

theorem length_lengthPrefixed {s} (h : s.length < 253) : (ByteWriter.lengthPrefixed s).length = 1 + s.length := by
  simp [ByteWriter.lengthPrefixed, ByteWriter.compactSize, h, length_natLE]

theorem length_newAsset (hname : a.strName.length ≤ 40) (hs : HashSized a.strIPFSHash) :
    12 ≤ (newAsset a).length ∧ (newAsset a).length < 110 := by
  have hhash := length_assetHash hs
  simp only [newAsset, length_append, length_lengthPrefixed (show a.strName.length < 253 by omega),
    ByteWriter.int64, ByteWriter.int8, length_natLE, length_cons, length_nil]
  split
  · split at hhash <;> omega
  · simp; omega

theorem length_reissueAsset (hname : r.strName.length ≤ 40) (hs : HashSized r.strIPFSHash) :
    (reissueAsset r).length < 110 := by
  have hhash := length_assetHash hs
  simp only [reissueAsset, length_append, length_lengthPrefixed (show r.strName.length < 253 by omega),
    ByteWriter.int64, ByteWriter.int8, length_natLE, length_cons, length_nil]
  split at hhash <;> omega

/-- The bytes of a transfer that depend on it: name, message, expiry time. -/
def transferSize (t : CAssetTransfer) : Nat :=
  t.strName.length + if t.message = [] then 0 else if t.nExpireTime = 0 then 34 else 42

theorem length_assetTransfer (hname : t.strName.length ≤ 40) (hs : HashSized t.message) :
    (assetTransfer t).length = transferSize t + 9 := by
  have hhash := length_assetHash hs
  simp only [assetTransfer, length_append, length_lengthPrefixed (show t.strName.length < 253 by omega),
    ByteWriter.int64, length_natLE, hhash, transferSize]
  by_cases hm : t.message = []
  · simp [hm]; omega
  · rw [if_neg hm, if_neg hm]
    by_cases he : t.nExpireTime = 0
    · simp [he]; omega
    · rw [if_pos ⟨hs.resolve_left hm, he⟩, if_neg he, length_natLE]; omega

theorem transferSize_le (hname : t.strName.length ≤ 40) : transferSize t ≤ 82 := by
  unfold transferSize
  split
  · omega
  split <;> omega

theorem from_built {α : Type} {r : ByteReader α} {x : α} {data : Bytes} (kind : UInt8) (hdest : dest.length = 20)
    (hdata : data.length < 110) (h : ∃ rest, r (data ++ [OP_DROP]) = some (x, rest)) :
    Read.from_ r (scriptForKeyID dest ++ assetPart kind data) (30 + pushSize data) = some x := by
  obtain ⟨rest, h⟩ := h
  rw [Read.from_, (markerIndex_built kind hdest hdata).2.2]
  change (·.1) <$> r (data ++ [OP_DROP]) = some x
  rw [h]
  rfl

theorem assetFromScript_built (hdest : dest.length = 20) (hname : a.strName.length ≤ 40) (hs : HashSized a.strIPFSHash) : E.assetFromScript (newAssetScript dest a) = some
      ({ a with strIPFSHash := if a.nHasIPFS = 1 then readHash a.strIPFSHash else [] },
        E.encodeDestination (.keyID dest)) := by
  obtain ⟨hmin, hmax⟩ := length_newAsset hname hs
  have hlen := length_built HVN_Q (newAsset a) hdest
  have hscript := @isAssetScript_built _ _ HVN_Q hdest hmax
  rw [if_neg (by decide), if_pos ⟨rfl, by omega⟩] at hscript
  rw [newAssetScript, assetFromScript, isScriptNewAsset, hscript]
  simp only [bind_eq_bind, bind_some, from_built HVN_Q hdest hmax ⟨_, newAsset_write (by omega) hs fun _ _ => by decide⟩,
    scriptAddress_built hdest hscript]
  rfl

theorem ownerAssetFromScript_built (hdest : dest.length = 20) (hname : (a.strName ++ OWNER_TAG).length ≤ 40) : E.ownerAssetFromScript (ownerAssetScript dest a) = some
      (a.strName ++ OWNER_TAG, E.encodeDestination (.keyID dest)) := by
  have hmax : (ByteWriter.lengthPrefixed (a.strName ++ OWNER_TAG)).length < 110 := by
    rw [length_lengthPrefixed (by omega)]; omega
  have hscript := @isAssetScript_built _ _ HVN_O hdest hmax
  rw [if_neg (by decide), if_neg (by rintro ⟨h, -⟩; cases h), if_pos rfl] at hscript
  rw [ownerAssetScript, ownerAssetFromScript, isScriptOwnerAsset, hscript]
  simp only [bind_eq_bind, bind_some, scriptAddress_built hdest hscript,
    from_built HVN_O hdest hmax ⟨_, string_write (by omega) _⟩]
  rfl

theorem reissueAssetFromScript_built (hdest : dest.length = 20) (hname : r.strName.length ≤ 40) (hs : HashSized r.strIPFSHash) : E.reissueAssetFromScript (reissueScript dest r) = some
      ({ r with strIPFSHash := readHash r.strIPFSHash }, E.encodeDestination (.keyID dest)) := by
  have hmax := length_reissueAsset hname hs
  have hscript := @isAssetScript_built _ _ HVN_H hdest hmax
  rw [if_neg (by decide), if_neg (by rintro ⟨h, -⟩; cases h), if_neg (by decide), if_pos rfl] at hscript
  rw [reissueScript, reissueAssetFromScript, isScriptReissueAsset, hscript]
  simp only [bind_eq_bind, bind_some, from_built HVN_H hdest hmax ⟨_, reissueAsset_write (by omega) hs fun _ => by decide⟩,
    scriptAddress_built hdest hscript]
  rfl

theorem string_letter {rest} (h : rest.length < 116) : Read.string (HVN_T :: rest) = none := by
  have hsize : compactSize Read.MAX_SIZE (HVN_T :: rest) = some (116, rest) :=
    compactSize_write (n := 116) (by decide) (by decide) rest
  rw [Read.string, ByteReader.lengthPrefixed, bind_read hsize, ByteReader.bytes, if_neg (by omega)]

/-- Before the script-size rule a long transfer is read from its letter on, taken for the length of a name that would not fit. -/
theorem transferAssetFromScript_built (hdest : dest.length = 20) (hname : t.strName.length ≤ 40) (hs : HashSized t.message)
    (hexpire : t.message = [] → t.nExpireTime = 0) :
    E.transferAssetFromScript (transferScript dest t) =
      if E.areTransferScriptsSizeDeployed ∨ transferSize t ≤ 62 then
        some ({ t with message := readHash t.message }, E.encodeDestination (.keyID dest))
      else none := by
  have hlen := length_assetTransfer hname hs
  have hle := transferSize_le (t := t) hname
  have hmax : (assetTransfer t).length < 110 := by omega
  have hscript := @isAssetScript_built _ _ HVN_T hdest hmax
  rw [if_pos rfl] at hscript
  have hread := from_built HVN_T hdest hmax ⟨_, assetTransfer_write (by omega) hs hexpire (by decide)⟩
  rw [transferScript, transferAssetFromScript, isScriptTransferAsset, hscript]
  simp only [bind_eq_bind, bind_some, scriptAddress_built hdest hscript]
  have hoffset : ∀ offset, offset = 30 + pushSize (assetTransfer t) → 
      (Read.from_ Read.assetTransfer (scriptForKeyID dest ++ assetPart HVN_T (assetTransfer t)) offset).bind
        (fun transfer => pure (transfer, E.encodeDestination (.keyID dest))) =
          some ({ t with message := readHash t.message }, E.encodeDestination (.keyID dest)) := by
    rintro offset rfl
    rw [hread]
    rfl
  by_cases hdep : E.areTransferScriptsSizeDeployed = true
  · rw [if_pos hdep, if_pos (Or.inl hdep), hoffset _ rfl]
  rw [if_neg hdep]
  by_cases hsmall : transferSize t ≤ 62
  · rw [if_pos (Or.inr hsmall), hoffset]
    rw [pushSize, if_pos (by omega)]
  · have hpush : pushSize (assetTransfer t) = 2 := if_neg (by omega)
    have hdrop : (scriptForKeyID dest ++ assetPart HVN_T (assetTransfer t)).drop 31 =
        HVN_T :: (assetTransfer t ++ [OP_DROP]) := by
      obtain ⟨-, hkind, hrest⟩ := markerIndex_built HVN_T hdest hmax
      have hbuilt := length_built HVN_T (assetTransfer t) hdest
      rw [hpush] at hkind hrest
      rw [drop_eq_byteAt_cons (by omega), hkind, hrest]
    have hnone : Read.assetTransfer (HVN_T :: (assetTransfer t ++ [OP_DROP])) = none := by
      change (Read.string _).bind _ = none
      rw [string_letter (by simp; omega)]
      rfl
    rw [if_neg (by simp [hdep, hsmall]), Read.from_, hdrop]
    change ((·.1) <$> Read.assetTransfer _).bind _ = none
    rw [hnone]
    rfl

theorem length_nullAssetTxData (hname : d.asset_name.length ≤ 73) :
    (nullAssetTxData d).length = d.asset_name.length + 2 := by
  rw [nullAssetTxData, length_append, length_lengthPrefixed (by omega)]
  simp [ByteWriter.int8]
  omega

/-- Short null data comes back; the address depends on whether it is an asset script. -/
theorem assetNullDataFromScript_eq (hdest : dest.length = 20) (hname : d.asset_name.length ≤ 73) : E.assetNullDataFromScript (nullAssetTxDataScript dest d) =
      some (d, E.scriptAddress (nullAssetTxDataScript dest d)) := by
  have hsize := length_nullAssetTxData hname
  have hscript : nullAssetTxDataScript dest d =
      (OP_HVN_ASSET :: 20 :: dest ++ [UInt8.ofNat (d.asset_name.length + 2)]) ++ nullAssetTxData d := by
    rw [nullAssetTxDataScript, nullScript_eq hdest (by omega), hsize]
    simp
  have hdrop : (nullAssetTxDataScript dest d).drop 23 = nullAssetTxData d := by
    rw [hscript, drop_left' (by simp [hdest])]
  have hnull : isNullAssetTxDataScript (nullAssetTxDataScript dest d) = true := by
    rw [hscript]
    simp [isNullAssetTxDataScript, byteAt, hdest, hsize]
    omega
  rw [assetNullDataFromScript, hnull, Read.from_, hdrop]
  change ((·.1) <$> Read.nullAssetTxData _).bind _ = _
  rw [nullAssetTxData_write hname]
  rfl

theorem assetNullDataFromScript_built (hdest : dest.length = 20) (hname : d.asset_name.length ≤ 40)
    (hsecond : byteAt d.asset_name 1 ≠ OP_HVN_ASSET) (hlen : 1 < d.asset_name.length) :
    isAssetScript (nullAssetTxDataScript dest d) = none ∧
      E.assetNullDataFromScript (nullAssetTxDataScript dest d) = some (d, E.encodeDestination (.keyID dest)) := by
  have hsize := length_nullAssetTxData (d := d) (by omega)
  have hdata : nullAssetTxData d = UInt8.ofNat d.asset_name.length :: d.asset_name ++ ByteWriter.int8 d.flag := by
    simp [nullAssetTxData, ByteWriter.lengthPrefixed, ByteWriter.compactSize, ByteWriter.natLE,
      show d.asset_name.length < 253 by omega]
  have hasset : isAssetScript (nullAssetTxDataScript dest d) = none := by
    refine isAssetScript_null hdest (by omega) ?_
    rw [hdata, byteAt_append_left (by simp; omega)]
    exact hsecond
  refine ⟨hasset, ?_⟩
  rw [assetNullDataFromScript_eq hdest (by omega), nullAssetTxDataScript, scriptAddress_null hdest (by omega) hasset]

theorem globalAssetNullDataFromScript_built (hname : d.asset_name.length ≤ 40) (hne : d.asset_name ≠ []) : globalAssetNullDataFromScript (globalRestrictionScript d) = some d := by
  have hsize := length_nullAssetTxData (d := d) (by omega)
  have hpos := length_pos_of_ne_nil hne
  have hscript : globalRestrictionScript d = OP_HVN_ASSET :: OP_RESERVED :: OP_RESERVED ::
      UInt8.ofNat (d.asset_name.length + 2) :: nullAssetTxData d := by
    rw [globalRestrictionScript, pushBytes_short (by omega), hsize]
    rfl
  have hnull : isNullGlobalRestrictionAssetTxDataScript (globalRestrictionScript d) = true := by
    rw [hscript]
    simp [isNullGlobalRestrictionAssetTxDataScript, byteAt, hsize]
    omega
  rw [globalAssetNullDataFromScript, if_pos hnull, hscript, Read.from_]
  change (·.1) <$> Read.nullAssetTxData (nullAssetTxData d) = _
  rw [nullAssetTxData_write (by omega)]
  rfl

/-- A push of more than 75 bytes has a length byte, read as that of the string. -/
theorem assetNullVerifierDataFromScript_built {verifier} (hpos : verifier ≠ []) (hlen : verifier.length ≤ 80) :
    assetNullVerifierDataFromScript (verifierScript verifier) =
      some (if verifier.length ≤ 74 then verifier else UInt8.ofNat verifier.length :: verifier) := by
  have hpos := length_pos_of_ne_nil hpos
  have hread : ∀ s : Bytes, s.length ≤ 81 → Read.string (UInt8.ofNat s.length :: s) = some (s, []) := by
    intro s hs
    have hwrite := string_write (w := s) (by omega) []
    rwa [append_nil, ByteWriter.lengthPrefixed, ByteWriter.compactSize, if_pos (by omega)] at hwrite
  have hdata : ByteWriter.lengthPrefixed verifier = UInt8.ofNat verifier.length :: verifier := by
    rw [ByteWriter.lengthPrefixed, ByteWriter.compactSize, if_pos (by omega)]
    rfl
  by_cases hshort : verifier.length ≤ 74
  · have hscript : verifierScript verifier = OP_HVN_ASSET :: OP_RESERVED ::
        UInt8.ofNat (verifier.length + 1) :: UInt8.ofNat verifier.length :: verifier := by
      rw [verifierScript, hdata, pushBytes_short (by simp; omega)]
      rfl
    have hne : UInt8.ofNat (verifier.length + 1) ≠ OP_RESERVED := by
      intro h
      have := congrArg UInt8.toNat h
      rw [UInt8.toNat_ofNat', show OP_RESERVED.toNat = 80 from rfl] at this
      omega
    have hnull : isNullAssetVerifierTxDataScript (verifierScript verifier) = true := by
      rw [hscript]
      generalize UInt8.ofNat (verifier.length + 1) = size at hne
      simp [isNullAssetVerifierTxDataScript, byteAt, hne]
    rw [assetNullVerifierDataFromScript, if_pos hnull, hscript, Read.from_, if_pos hshort]
    change (·.1) <$> Read.string (UInt8.ofNat verifier.length :: verifier) = _
    rw [hread verifier (by omega)]
    rfl
  · have hscript : verifierScript verifier = OP_HVN_ASSET :: OP_RESERVED :: OP_PUSHDATA1 ::
        UInt8.ofNat (verifier.length + 1) :: UInt8.ofNat verifier.length :: verifier := by
      rw [verifierScript, hdata, pushBytes_long (by simp; omega) (by simp; omega)]
      rfl
    have hnull : isNullAssetVerifierTxDataScript (verifierScript verifier) = true := by
      rw [hscript]
      simp [isNullAssetVerifierTxDataScript, byteAt, OP_PUSHDATA1, OP_RESERVED]
    rw [assetNullVerifierDataFromScript, if_pos hnull, hscript, Read.from_, if_neg hshort]
    change (·.1) <$> Read.string (UInt8.ofNat (verifier.length + 1) :: UInt8.ofNat verifier.length :: verifier) = _
    rw [← length_cons (a := UInt8.ofNat verifier.length), hread _ (by simp; omega)]
    rfl

/-- The second character of such a name is a letter, a digit or punctuation. -/
theorem second_char {name} (h : isAssetNameAQualifier name = true ∨ isAssetNameAnRestricted name = true) :
    name.length ≤ 40 ∧ 1 < name.length ∧ byteAt name 1 ≠ OP_HVN_ASSET := by
  have hchar : ∀ (c b : UInt8) (rest : Bytes), isNameChar b = true →
      1 < (c :: b :: rest).length ∧ byteAt (c :: b :: rest) 1 ≠ OP_HVN_ASSET := by
    intro c b rest hb
    refine ⟨by simp, ?_⟩
    rintro hmarker
    rw [show b = OP_HVN_ASSET from hmarker] at hb
    exact absurd hb (by decide)
  have hmarked : ∀ c, markedName c 3 name = true → 1 < name.length ∧ byteAt name 1 ≠ OP_HVN_ASSET := by
    intro c hm
    unfold markedName at hm
    split at hm
    · rename_i d rest
      simp only [test_iff] at hm
      obtain ⟨⟨-, hlen⟩, hall⟩ := hm
      cases rest with
      | nil => simp at hlen
      | cons b rest => exact hchar d b rest (all_eq_true.1 hall b (by simp))
    · cases hm
  rcases h with h | h
  · simp only [isAssetNameAQualifier, test_iff] at h
    refine ⟨(nameValid_length h.1).1, ?_⟩
    rcases h.2 with hq | hs
    · exact hmarked _ hq
    · unfold SUB_QUALIFIER_INDICATOR at hs
      split at hs
      · rename_i c rest
        simp only [test_iff] at hs
        cases rest with
        | nil => simp at hs
        | cons b rest =>
          refine hchar c b rest ?_
          by_contra hb
          simp [hb] at hs
      · cases hs
  · simp only [isAssetNameAnRestricted, Bool.and_eq_true] at h
    exact ⟨(nameValid_length h.1).1, hmarked _ h.2⟩

theorem name_of_checkNewAsset (h : checkNewAsset a = .ok ()) : nameValid a.strName = true := by
  simp only [checkNewAsset, ok_iff] at h
  obtain ⟨type, hname, -⟩ := h
  exact nameValid_iff.2 ⟨_, hname⟩

theorem sized_of_transferIsValid (h : E.transferIsValid t = .ok ()) :
    nameValid t.strName = true ∧ HashSized t.message ∧ (t.message = [] → t.nExpireTime = 0) := by
  simp only [transferIsValid, ok_iff] at h
  obtain ⟨type, hname, -, hexpire, hpos, hmessage⟩ := h
  refine ⟨nameValid_iff.2 ⟨_, hname⟩, ?_, ?_⟩
  · by_cases hnil : t.message = []
    · exact Or.inl hnil
    · rw [if_pos (by simpa using hnil), checkEncoded, require_eq_ok] at hmessage
      simp only [test_iff] at hmessage
      exact Or.inr (hmessage.imp (fun h => h.1.1) (fun h => h.2))
  · intro hnil
    simp [hnil] at hexpire hpos
    exact Int64.le_antisymm hexpire hpos

/-- Which accepted records the decoders give back as the constructors wrote them. -/
theorem fromScript_construct_iff (E : Env) (dest : Bytes) (hdest : dest.length = 20) :
    (∀ a, checkNewAsset a = .ok () → HashSized a.strIPFSHash →
      (E.assetFromScript (newAssetScript dest a) = some (a, E.encodeDestination (.keyID dest)) ↔
        if a.nHasIPFS = 1 then HashKept a.strIPFSHash else a.strIPFSHash = [])) ∧
    (∀ a : CNewAsset, nameValid (a.strName ++ OWNER_TAG) = true →
      E.ownerAssetFromScript (ownerAssetScript dest a) =
        some (a.strName ++ OWNER_TAG, E.encodeDestination (.keyID dest))) ∧
    (∀ t, E.transferIsValid t = .ok () →
      (E.transferAssetFromScript (transferScript dest t) = some (t, E.encodeDestination (.keyID dest)) ↔
        HashKept t.message ∧ (E.areTransferScriptsSizeDeployed = true ∨ transferSize t ≤ 62))) ∧
    (∀ r, nameValid r.strName = true → E.checkReissueAsset r = .ok () → HashSized r.strIPFSHash →
      (E.reissueAssetFromScript (reissueScript dest r) = some (r, E.encodeDestination (.keyID dest)) ↔
        HashKept r.strIPFSHash)) ∧
    (∀ d, isAssetNameAQualifier d.asset_name = true ∨ isAssetNameAnRestricted d.asset_name = true →
      verifyNullAssetDataFlag d.flag = .ok () →
      E.assetNullDataFromScript (nullAssetTxDataScript dest d) = some (d, E.encodeDestination (.keyID dest))) ∧
    (∀ d, nameValid d.asset_name = true → verifyNullAssetDataFlag d.flag = .ok () →
      globalAssetNullDataFromScript (globalRestrictionScript d) = some d) ∧
    ∀ verifier : Bytes, 1 ≤ verifier.length → verifier.length ≤ 80 → (checkVerifierString verifier).toBool = true →
      (assetNullVerifierDataFromScript (verifierScript verifier) = some verifier ↔ verifier.length ≤ 74) := by
  refine ⟨?_, ?_, ?_, ?_, ?_, ?_, ?_⟩
  · intro a hcheck hs
    rw [assetFromScript_built hdest (nameValid_length (name_of_checkNewAsset hcheck)).1 hs, some.injEq,
      Prod.mk.injEq, and_iff_left rfl]
    by_cases h : a.nHasIPFS = 1
    · rw [if_pos h, if_pos h, ← readHash_eq_iff]
      exact ⟨congrArg CNewAsset.strIPFSHash, fun heq => by rw [heq]⟩
    · rw [if_neg h, if_neg h]
      exact ⟨fun heq => (congrArg CNewAsset.strIPFSHash heq).symm, fun heq => by rw [← heq]⟩
  · intro a hname
    exact ownerAssetFromScript_built hdest (nameValid_length hname).1
  · intro t hvalid
    obtain ⟨hname, hs, hexpire⟩ := sized_of_transferIsValid hvalid
    rw [transferAssetFromScript_built hdest (nameValid_length hname).1 hs hexpire, ite_none_right_eq_some,
      some.injEq, Prod.mk.injEq, and_iff_left rfl, ← readHash_eq_iff, and_comm]
    refine and_congr_left fun _ => ⟨congrArg CAssetTransfer.message, fun heq => by rw [heq]⟩
  · intro r hname _ hs
    rw [reissueAssetFromScript_built hdest (nameValid_length hname).1 hs, some.injEq, Prod.mk.injEq,
      and_iff_left rfl, ← readHash_eq_iff]
    exact ⟨congrArg CReissueAsset.strIPFSHash, fun heq => by rw [heq]⟩
  · intro d hname _
    obtain ⟨hshort, hlen, hsecond⟩ := second_char hname
    exact (assetNullDataFromScript_built hdest hshort hsecond hlen).2
  · intro d hname _
    exact globalAssetNullDataFromScript_built (nameValid_length hname).1 (nameValid_length hname).2
  · intro verifier hpos hlen _
    rw [assetNullVerifierDataFromScript_built (ne_nil_of_length_pos hpos) hlen, some.injEq]
    by_cases h : verifier.length ≤ 74
    · simp [h]
    · rw [if_neg h, iff_false_right h]
      intro heq
      have := congrArg List.length heq
      simp at this

namespace Regtest

def ipfsHash : Bytes := [0x12, 0x20] ++ List.replicate 32 7

/-- A transfer with a message and an expiry time, whose script is a long push. -/
def messageTransfer : CAssetTransfer := ⟨ascii "GOLD/BARS_OF_2021_AND_LATER", 5, ipfsHash, 1700000000⟩

/-- `AAA|AAA|...|AAA`, 79 characters -/
def longVerifier : Bytes := (List.replicate 19 (ascii "AAA|")).flatten ++ ascii "AAA"

/-- A verifier of 79 characters is decoded with its length as a character. -/
theorem longVerifier_not_read_back :
    longVerifier.length = 79 ∧ checkVerifierString longVerifier = .ok [ascii "AAA"] ∧
      assetNullVerifierDataFromScript (verifierScript longVerifier) = some (79 :: longVerifier) := by
  decide +kernel

/-- One accepted record of each kind that comes back. -/
theorem fromScript_construct_alice :
    env.assetFromScript (newAssetScript alice { gold with nHasIPFS := 1, strIPFSHash := ipfsHash }) =
      some ({ gold with nHasIPFS := 1, strIPFSHash := ipfsHash }, env.encodeDestination (.keyID alice)) ∧
    env.ownerAssetFromScript (ownerAssetScript alice gold) =
      some (ascii "GOLD!", env.encodeDestination (.keyID alice)) ∧
    env.transferAssetFromScript (transferScript alice messageTransfer) =
      some (messageTransfer, env.encodeDestination (.keyID alice)) ∧
    env.reissueAssetFromScript (reissueScript alice ⟨ascii "GOLD", 1000, 8, 1, ipfsHash⟩) =
      some (⟨ascii "GOLD", 1000, 8, 1, ipfsHash⟩, env.encodeDestination (.keyID alice)) ∧
    env.assetNullDataFromScript (nullAssetTxDataScript alice ⟨ascii "#TAG", 1⟩) =
      some (⟨ascii "#TAG", 1⟩, env.encodeDestination (.keyID alice)) ∧
    globalAssetNullDataFromScript (globalRestrictionScript ⟨ascii "$GOLD", 1⟩) = some ⟨ascii "$GOLD", 1⟩ ∧
    assetNullVerifierDataFromScript (verifierScript (ascii "KYC&!AML")) = some (ascii "KYC&!AML") := by
  obtain ⟨hnew, howner, htransfer, hreissue, hnull, hglobal, hverifier⟩ :=
    fromScript_construct_iff env alice (by decide)
  have hkept : HashKept ipfsHash := fun _ => rfl
  have hsized : HashSized ipfsHash := Or.inr (Or.inl rfl)
  refine ⟨(hnew _ (by decide +kernel) hsized).2 hkept, howner gold (by decide +kernel),
    (htransfer _ (by decide +kernel)).2 ⟨hkept, Or.inl rfl⟩, (hreissue _ (by decide +kernel) (by decide +kernel) hsized).2 hkept,
    hnull _ (Or.inl (by decide +kernel)) (by decide), hglobal _ (by decide +kernel) (by decide),
    (hverifier _ (by decide) (by decide) (by decide +kernel)).2 (by decide)⟩

end Regtest

end Hivecoin

import Hivecoin.Cache.Update
import Hivecoin.Script.RoundTrip

/-!
# The stored form of asset records

What is written of an asset in the database and of the undo data of a reissue is read back, whatever follows.
-/

namespace Hivecoin

open Script ByteReader List Write

namespace Write

/-- A number of a signed type of 32 bits. -/
def int32 (k : Int) : Bytes := ByteWriter.natLE 4 (k % 2 ^ 32).toNat

def bool (b : Bool) : Bytes := ByteWriter.natLE 1 b.toNat

def databasedAssetData (d : CDatabasedAssetData) : Bytes :=
  newAsset d.asset ++ int32 d.nHeight ++ ByteWriter.natLE 32 d.blockHash.toNat

def blockAssetUndo (u : CBlockAssetUndo) : Bytes :=
  bool u.fChangedUnits ++ bool u.fChangedIPFS ++ ByteWriter.lengthPrefixed u.strIPFS ++ int32 u.nUnits.toInt ++
    ByteWriter.int8 (-1) ++ bool u.fChangedVerifierString ++ ByteWriter.lengthPrefixed u.verifierString

end Write

namespace Read

def int32 : ByteReader Int := do return Int.bmod (← natLE 4) (2 ^ 32)

def bool : ByteReader Bool := do return (← natLE 1) != 0

def databasedAssetData : ByteReader CDatabasedAssetData := do
  let asset ← newAsset
  let nHeight ← int32
  return ⟨asset, nHeight, BitVec.ofNat 256 (← natLE 32)⟩

/-- Records of another version end without a verifier. -/
def blockAssetUndo : ByteReader CBlockAssetUndo := do
  let fChangedUnits ← bool
  let fChangedIPFS ← bool
  let strIPFS ← string
  let nUnits ← int32
  let version ← if (← remaining) ≥ 1 then int8 else pure 0
  if version = -1 then
    let fChangedVerifierString ← bool
    return ⟨fChangedIPFS, fChangedUnits, strIPFS, Int8.ofInt nUnits, fChangedVerifierString, ← string⟩
  else return ⟨fChangedIPFS, fChangedUnits, strIPFS, Int8.ofInt nUnits, false, []⟩

end Read

/-- The hashes and messages of the program: none, an IPFS hash or a transaction id. -/
def HashForm (hash : Bytes) : Prop := hash = [] ∨ hash.length = 34 ∧ hash.take 2 = [0x12, 0x20] ∨ hash.length = 32

/-- An asset as issuances, reissues and their undoing leave it: `nHasIPFS` says whether there is a hash. -/
structure CNewAsset.Formed (a : CNewAsset) : Prop where
  name : a.strName.length ≤ Read.MAX_SIZE
  hash : HashForm a.strIPFSHash
  flag : a.nHasIPFS = if a.strIPFSHash = [] then 0 else 1

structure CReissueAsset.Formed (r : CReissueAsset) : Prop where
  name : r.strName.length ≤ Read.MAX_SIZE
  hash : HashForm r.strIPFSHash

/-- Only a transfer with a message expires. -/
structure CAssetTransfer.Formed (t : CAssetTransfer) : Prop where
  name : t.strName.length ≤ Read.MAX_SIZE
  message : HashForm t.message
  expire : t.message = [] → t.nExpireTime = 0

variable {a : CNewAsset} {r : CReissueAsset} {t : CAssetTransfer} {u : CBlockAssetUndo} {d : CDatabasedAssetData} {rest : Bytes}

theorem CNewAsset.Formed.applyReissue (ha : a.Formed) (hr : r.Formed) : (CAssetsCache.applyReissue a r).Formed := by
  unfold CAssetsCache.applyReissue
  by_cases h : r.strIPFSHash = []
  · simp only [h, ne_eq, not_true_eq_false, if_false]
    exact ⟨ha.name, ha.hash, ha.flag⟩
  · simp only [ne_eq, h, not_false_eq_true, if_true]
    exact ⟨ha.name, hr.hash, (if_neg h).symm⟩

/-- What an undo item puts back stands where a reissue has set a hash. -/
theorem CNewAsset.Formed.unapplyReissue (ha : a.Formed) (hu : HashForm u.strIPFS) (hset : a.strIPFSHash = [] → u.strIPFS = []) :
    (CAssetsCache.unapplyReissue a r (some u)).Formed := by
  refine ⟨ha.name, ?_, ?_⟩
  · cases h : u.fChangedIPFS
    · simpa [CAssetsCache.unapplyReissue, h] using ha.hash
    · simpa [CAssetsCache.unapplyReissue, h] using hu
  · have hflag := ha.flag
    cases h : u.fChangedIPFS
    · by_cases hnil : a.strIPFSHash = [] <;> simp_all [CAssetsCache.unapplyReissue]
    · by_cases hnil : u.strIPFS = [] <;> simp_all [CAssetsCache.unapplyReissue]

theorem HashForm.sized {hash} (h : HashForm hash) : HashSized hash := h.imp_right (Or.imp_left And.left)

theorem HashForm.read {hash} (h : HashForm hash) : readHash hash = hash := by
  refine (readHash_eq_iff hash).2 fun hlen => ?_
  obtain rfl | h | h := h
  · cases hlen
  · exact h.2
  · omega

theorem newAsset_read (h : a.Formed) : Read.newAsset (newAsset a ++ rest) = some (a, rest) := by
  rw [newAsset_write h.name h.hash.sized fun hflag hnil => by rw [h.flag, if_pos hnil] at hflag; cases hflag]
  have hhash : (if a.nHasIPFS = 1 then readHash a.strIPFSHash else []) = a.strIPFSHash := by
    rw [h.flag, h.hash.read]
    by_cases hnil : a.strIPFSHash = []
    · rw [if_pos hnil, if_neg (by decide), hnil]
    · rw [if_neg hnil, if_pos rfl]
  rw [hhash]

theorem int32_read {k} (h : -2 ^ 31 ≤ k ∧ k < 2 ^ 31) : Read.int32 (int32 k ++ rest) = some (k, rest) := by
  rw [Read.int32, int32, bind_read (natLE_write (by omega) rest), pure_read, Int.toNat_of_nonneg (by omega)]
  congr 2
  rw [Int.bmod_def]
  split_ifs <;> omega

theorem bool_read (b : Bool) : Read.bool (bool b ++ rest) = some (b, rest) := by
  cases b <;> rfl

theorem databasedAssetData_read (h : d.asset.Formed) (hheight : -2 ^ 31 ≤ d.nHeight ∧ d.nHeight < 2 ^ 31) :
    Read.databasedAssetData (databasedAssetData d ++ rest) = some (d, rest) := by
  simp only [databasedAssetData, append_assoc]
  rw [Read.databasedAssetData, bind_read (newAsset_read h), bind_read (int32_read hheight),
    bind_read (natLE_write (by exact d.blockHash.isLt) rest), BitVec.ofNat_toNat, BitVec.setWidth_eq]
  rfl

theorem blockAssetUndo_read (hhash : u.strIPFS.length ≤ Read.MAX_SIZE) (hverifier : u.verifierString.length ≤ Read.MAX_SIZE) :
    Read.blockAssetUndo (blockAssetUndo u ++ rest) = some (u, rest) := by
  simp only [blockAssetUndo, append_assoc]
  have hunits := u.nUnits.toInt_lt
  have hunits' := u.nUnits.le_toInt
  rw [Read.blockAssetUndo, bind_read (bool_read _), bind_read (bool_read _), bind_read (string_write hhash _),
    bind_read (int32_read (by omega)), bind_read (remaining_read _), if_pos (by simp [ByteWriter.int8]), bind_read (int8_write _ _)]
  dsimp only
  rw [if_pos rfl, bind_read (bool_read _), bind_read (string_write hverifier rest), Int8.ofInt_toInt]
  rfl

/-- The records of assets are read back as they were written, with exactly their bytes. The data of an asset and undo data may be
followed by anything; a reissue and a transfer end their push in a script. -/
theorem records_read_back (ha : a.Formed) (hr : r.Formed) (ht : t.Formed) (hd : d.asset.Formed)
    (hheight : -2 ^ 31 ≤ d.nHeight ∧ d.nHeight < 2 ^ 31)
    (hu : u.strIPFS.length ≤ Read.MAX_SIZE ∧ u.verifierString.length ≤ Read.MAX_SIZE) (rest : Bytes) :
    Read.newAsset (newAsset a ++ rest) = some (a, rest) ∧
    (rest.length < 8 → Read.reissueAsset (reissueAsset r ++ rest) = some (r, rest) ∧
      Read.assetTransfer (assetTransfer t ++ rest) = some (t, rest)) ∧
    Read.databasedAssetData (databasedAssetData d ++ rest) = some (d, rest) ∧
    Read.blockAssetUndo (blockAssetUndo u ++ rest) = some (u, rest) := by
  refine ⟨newAsset_read ha, fun hrest => ⟨?_, ?_⟩, databasedAssetData_read hd hheight, blockAssetUndo_read hu.1 hu.2⟩
  · rw [reissueAsset_write hr.name hr.hash.sized fun _ => by omega, hr.hash.read]
  · rw [assetTransfer_write ht.name ht.message.sized ht.expire hrest, ht.message.read]

namespace Regtest

def hashReissue : CReissueAsset := ⟨ascii "GOLD", 0, -1, 1, 0x12 :: 0x20 :: replicate 32 7⟩

def hashUndo : CBlockAssetUndo := ⟨true, false, [], 8, false, []⟩

/-- The asset with the hash in the database, and the same asset after the reissue is undone. -/
theorem hashed_gold_read_back :
    let hashed := CAssetsCache.applyReissue gold hashReissue
    hashed.nHasIPFS = 1 ∧
    Read.databasedAssetData (databasedAssetData ⟨hashed, 7, 9⟩ ++ blockAssetUndo hashUndo) =
      some (⟨hashed, 7, 9⟩, blockAssetUndo hashUndo) ∧
    Read.newAsset (newAsset (CAssetsCache.unapplyReissue hashed hashReissue (some hashUndo)) ++ blockAssetUndo hashUndo) =
      some (CAssetsCache.unapplyReissue hashed hashReissue (some hashUndo), blockAssetUndo hashUndo) := by
  have hreissue : hashReissue.Formed := ⟨by decide, Or.inr (Or.inl ⟨rfl, rfl⟩)⟩
  have hhashed := CNewAsset.Formed.applyReissue (a := gold) ⟨by decide, Or.inl rfl, rfl⟩ hreissue
  obtain ⟨ha, -, hd, -⟩ := records_read_back (d := ⟨_, 7, 9⟩)
    (hhashed.unapplyReissue (u := hashUndo) (r := hashReissue) (Or.inl rfl) fun _ => rfl) hreissue
    (t := ⟨ascii "GOLD", 1, [], 0⟩) ⟨by decide, Or.inl rfl, fun _ => rfl⟩ hhashed (by decide) (u := hashUndo) (by decide)
    (blockAssetUndo hashUndo)
  exact ⟨rfl, hd, ha⟩

end Regtest

end Hivecoin

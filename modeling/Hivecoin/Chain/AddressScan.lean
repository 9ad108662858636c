import Hivecoin.Base.Lemmas.ByteStream
import Hivecoin.Base.SortedScan
import Hivecoin.Chain.AddressIndex

/-!
# Reading the address index

`ReadAddressIndex` of `txdb.cpp`: a scan of the records in the order of their serialized keys.
-/

namespace Hivecoin

open ByteWriter List SortedScan CAddressIndexKey

def DB_ADDRESSINDEX : UInt8 := 97

def CAddressIndexIteratorKey (type : Nat) (hashBytes : Bytes) : Bytes := DB_ADDRESSINDEX :: UInt8.ofNat type :: hashBytes

def CAddressIndexIteratorAssetKey (type : Nat) (hashBytes asset : Bytes) : Bytes :=
  CAddressIndexIteratorKey type hashBytes ++ lengthPrefixed asset

def CAddressIndexIteratorHeightKey (type : Nat) (hashBytes asset : Bytes) (blockHeight : Nat) : Bytes :=
  CAddressIndexIteratorAssetKey type hashBytes asset ++ natBE 4 blockHeight

def CAddressIndexKey.tail (k : CAddressIndexKey) : Bytes :=
  natBE 4 k.txindex ++ natLE 32 k.txhash.toNat ++ natLE 4 k.index ++ [if k.spending then 1 else 0]

def CAddressIndexKey.serialize (k : CAddressIndexKey) : Bytes :=
  CAddressIndexIteratorHeightKey k.type k.hashBytes k.asset k.blockHeight ++ k.tail

abbrev AddressRecord := CAddressIndexKey × CAmount

def AddressRecord.key (r : AddressRecord) : Bytes := r.1.serialize

structure CAddressIndexKey.Formed (k : CAddressIndexKey) : Prop where
  type : k.type < 256
  hashBytes : k.hashBytes.length = 20
  asset : k.asset.length ≤ 0x02000000
  blockHeight : k.blockHeight < 2 ^ 31

structure AddressIndexTable where
  records : List AddressRecord
  sorted : records.Pairwise (·.key < ·.key)
  formed : ∀ r ∈ records, r.1.Formed

/-- The arguments of `ReadAddressIndex`; an empty name stands for all assets. -/
structure AddressQuery where
  addressHash : Bytes
  type : Nat
  assetName : Bytes
  start : Int32
  stop : Int32
  sized : addressHash.length = 20

namespace AddressQuery

variable (q : AddressQuery)

def bounded : Bool := 0 < q.start.toInt && 0 < q.stop.toInt

def seekKey : Bytes :=
  if q.assetName ≠ [] ∧ q.bounded then CAddressIndexIteratorHeightKey q.type q.addressHash q.assetName q.start.toInt.toNat
  else if q.assetName ≠ [] then CAddressIndexIteratorAssetKey q.type q.addressHash q.assetName
  else CAddressIndexIteratorKey q.type q.addressHash

def fits (r : AddressRecord) : Bool :=
  r.1.hashBytes == q.addressHash && (q.assetName == [] || r.1.asset == q.assetName) &&
    !(decide (0 < q.stop.toInt) && decide (q.stop.toInt < r.1.blockHeight))

def Own (r : AddressRecord) : Prop :=
  r.1.type = q.type ∧ r.1.hashBytes = q.addressHash ∧ (q.assetName = [] ∨ r.1.asset = q.assetName)

def InRange (r : AddressRecord) : Prop := q.start.toInt ≤ r.1.blockHeight ∧ r.1.blockHeight ≤ q.stop.toInt

instance (r : AddressRecord) : Decidable (q.Own r) := inferInstanceAs (Decidable (_ ∧ _ ∧ _))

instance (r : AddressRecord) : Decidable (q.InRange r) := inferInstanceAs (Decidable (_ ∧ _))

def wanted (r : AddressRecord) : Bool := decide (q.Own r ∧ (q.bounded = true → q.InRange r))

end AddressQuery

def AddressIndexTable.readAddressIndex (ix : AddressIndexTable) (q : AddressQuery) : List AddressRecord :=
  (seek AddressRecord.key q.seekKey ix.records).takeWhile q.fits

/-- The stored records for which a scan finds what is wanted and nothing else. -/
structure AddressQuery.Exact (q : AddressQuery) (ix : AddressIndexTable) : Prop where
  /-- Before a record of another type with the hash the scan stops. -/
  types : ∀ r ∈ ix.records, q.fits r = true → r.1.type ≠ q.type → ¬ r.key < q.seekKey →
    ∃ a ∈ ix.records, ¬ a.key < q.seekKey ∧ a.key < r.key ∧ q.fits a = false
  /-- An upper bound alone cuts nothing off. -/
  uncut : 0 < q.stop.toInt → q.start.toInt ≤ 0 → ∀ r ∈ ix.records, q.Own r → r.1.blockHeight ≤ q.stop.toInt
  /-- Of all assets, records below the range stand after one above it, which none of the range does. -/
  ordered : q.assetName = [] → q.bounded = true → ∀ r ∈ ix.records, q.Own r →
    (r.1.blockHeight < q.start.toInt → ∃ a ∈ ix.records, q.Own a ∧ (a = r ∨ a.key < r.key) ∧ q.stop.toInt < a.1.blockHeight) ∧
    (q.InRange r → ∀ a ∈ ix.records, q.Own a → a.key < r.key → a.1.blockHeight ≤ q.stop.toInt)

section

variable {q : AddressQuery} {r a : AddressRecord}

def AddressQuery.stem (q : AddressQuery) : Bytes :=
  if q.assetName = [] then CAddressIndexIteratorKey q.type q.addressHash
  else CAddressIndexIteratorAssetKey q.type q.addressHash q.assetName

theorem key_of_own (h : q.Own r) (hname : q.assetName ≠ []) : r.key = q.stem ++ (natBE 4 r.1.blockHeight ++ r.1.tail) := by
  obtain ⟨htype, hhash, hasset⟩ := h
  rw [AddressQuery.stem, if_neg hname, ← htype, ← hhash, ← hasset.resolve_left hname, ← append_assoc]
  rfl

theorem stem_of_own (h : q.Own r) : q.stem <+: r.key := by
  by_cases hname : q.assetName = []
  · rw [AddressQuery.stem, if_pos hname, ← h.1, ← h.2.1]
    simp only [AddressRecord.key, serialize, CAddressIndexIteratorHeightKey, CAddressIndexIteratorAssetKey, append_assoc]
    exact prefix_append ..
  · exact key_of_own h hname ▸ prefix_append ..

theorem own_of_stem (hr : r.1.Formed) (htype : q.type < 256) (hsize : q.assetName.length ≤ 0x02000000) (h : q.stem <+: r.key) :
    q.Own r := by
  have hkey : r.key = CAddressIndexIteratorKey r.1.type r.1.hashBytes ++ (lengthPrefixed r.1.asset ++ (natBE 4 r.1.blockHeight ++ r.1.tail)) := by
    simp only [AddressRecord.key, serialize, CAddressIndexIteratorHeightKey, CAddressIndexIteratorAssetKey, append_assoc]
  have hhead : ∀ {rest}, CAddressIndexIteratorKey q.type q.addressHash ++ rest = r.key →
      r.1.type = q.type ∧ r.1.hashBytes = q.addressHash ∧ rest = lengthPrefixed r.1.asset ++ (natBE 4 r.1.blockHeight ++ r.1.tail) := by
    intro rest h
    rw [hkey] at h
    obtain ⟨hflags, hrest⟩ := append_inj h (by simp [CAddressIndexIteratorKey, q.sized, hr.hashBytes])
    simp only [CAddressIndexIteratorKey, cons.injEq, true_and] at hflags
    have htypes := congrArg UInt8.toNat hflags.1
    rw [UInt8.toNat_ofNat', UInt8.toNat_ofNat', Nat.mod_eq_of_lt htype, Nat.mod_eq_of_lt hr.type] at htypes
    exact ⟨htypes.symm, hflags.2.symm, hrest⟩
  obtain ⟨rest, hrest⟩ := h
  by_cases hname : q.assetName = []
  · rw [AddressQuery.stem, if_pos hname] at hrest
    obtain ⟨htypes, hhash, -⟩ := hhead hrest
    exact ⟨htypes, hhash, .inl hname⟩
  · rw [AddressQuery.stem, if_neg hname, CAddressIndexIteratorAssetKey, append_assoc] at hrest
    obtain ⟨htypes, hhash, htail⟩ := hhead hrest
    exact ⟨htypes, hhash, .inr (ByteReader.eq_of_lengthPrefixed_isPrefix hsize hr.asset (by decide) ⟨rest, htail⟩).symm⟩

theorem seekKey_eq : q.seekKey = q.stem ++ if q.assetName ≠ [] ∧ q.bounded = true then natBE 4 q.start.toInt.toNat else [] := by
  by_cases hname : q.assetName = []
  · simp [AddressQuery.seekKey, AddressQuery.stem, hname]
  · by_cases hbounded : q.bounded = true <;>
      simp [AddressQuery.seekKey, AddressQuery.stem, hname, hbounded, CAddressIndexIteratorHeightKey]

theorem fits_iff_of_own (h : q.Own r) : q.fits r = true ↔ (0 < q.stop.toInt → r.1.blockHeight ≤ q.stop.toInt) := by
  obtain ⟨-, hhash, hasset⟩ := h
  simp only [AddressQuery.fits, hhash, hasset, beq_self_eq_true, Bool.true_and, Outcome.test_iff, Bool.and_eq_false_iff,
    decide_eq_false_iff_not, true_and]
  omega

/-- The own records are found from the place on, without those below the range of one asset. -/
theorem not_lt_seekKey_iff (hr : r.1.Formed) (h : q.Own r) :
    ¬ r.key < q.seekKey ↔ (q.assetName ≠ [] → q.bounded = true → q.start.toInt ≤ r.1.blockHeight) := by
  rw [seekKey_eq]
  by_cases hseek : q.assetName ≠ [] ∧ q.bounded = true
  · have hpos : 0 < q.start.toInt := by simpa using (Bool.and_eq_true_iff.1 hseek.2).1
    have hlimit := q.start.toInt_lt
    have hheight := hr.blockHeight
    rw [if_pos hseek, key_of_own h hseek.1, append_lt_append_iff]
    simp only [hseek.2, ne_eq, hseek.1, not_false_eq_true, forall_const]
    constructor
    · intro hnot
      by_contra hlow
      have hless : r.1.blockHeight < q.start.toInt.toNat := by omega
      exact hnot (append_nil (natBE ..) ▸ natBE_lt hless (by omega) r.1.tail [])
    · intro hle hlt
      obtain heq | hless := (show q.start.toInt.toNat ≤ r.1.blockHeight by omega).eq_or_lt
      · rw [heq] at hlt
        exact not_lt_of_isPrefix (prefix_append ..) hlt
      · exact List.lt_asymm hlt (append_nil (natBE ..) ▸ natBE_lt hless (by omega) [] r.1.tail)
  · have hnone : q.assetName ≠ [] → q.bounded = true → q.start.toInt ≤ r.1.blockHeight :=
      fun hname hbounded => absurd ⟨hname, hbounded⟩ hseek
    rw [if_neg hseek, append_nil]
    exact iff_of_true (not_lt_of_isPrefix (stem_of_own h)) hnone

theorem own_between (ha : a.1.Formed) (hr : r.1.Formed) (h : q.Own r) (hseek : ¬ a.key < q.seekKey) (har : a.key < r.key) :
    q.Own a := by
  have hbelow : ¬ a.key < q.stem := fun hlt => hseek (by
    rw [seekKey_eq]
    exact Std.lt_of_lt_of_le hlt (List.not_lt.1 (not_lt_of_isPrefix (prefix_append ..))))
  have hsize : q.assetName.length ≤ 0x02000000 := by
    obtain hname | hname := h.2.2
    · simp [hname]
    · exact hname ▸ hr.asset
  exact own_of_stem ha (h.1 ▸ hr.type) hsize (isPrefix_of_lt hbelow har (stem_of_own h))

theorem height_le_of_lt (ha : a.1.Formed) (hown : q.Own a) (h : q.Own r) (hname : q.assetName ≠ []) (har : a.key < r.key) :
    a.1.blockHeight ≤ r.1.blockHeight := by
  have hheight := ha.blockHeight
  rw [key_of_own hown hname, key_of_own h hname, append_lt_append_iff] at har
  by_contra hlt
  exact List.lt_asymm har (natBE_lt (by omega) (by omega) ..)

end

section

variable {ix : AddressIndexTable} {q : AddressQuery} {r a : AddressRecord}

theorem mem_readAddressIndex : r ∈ ix.readAddressIndex q ↔
    r ∈ ix.records ∧ ¬ r.key < q.seekKey ∧ q.fits r = true ∧
      ∀ a ∈ ix.records, ¬ a.key < q.seekKey → a.key < r.key → q.fits a = true :=
  mem_scan_iff List.lt_irrefl ix.sorted

theorem wanted_of_exact (h : q.Exact ix) (hr : r ∈ ix.readAddressIndex q) : q.wanted r = true := by
  obtain ⟨hmem, hseek, hfits, hbefore⟩ := mem_readAddressIndex.1 hr
  have htype : r.1.type = q.type := by
    by_contra htype
    obtain ⟨a, ha, haseek, har, hnot⟩ := h.types r hmem hfits htype hseek
    simp [hbefore a ha haseek har] at hnot
  have hown : q.Own r := by
    simp only [AddressQuery.fits, Outcome.test_iff] at hfits
    exact ⟨htype, hfits.1⟩
  refine decide_eq_true ⟨hown, fun hbounded => ?_⟩
  have hstop : 0 < q.stop.toInt := by simpa using (Bool.and_eq_true_iff.1 hbounded).2
  refine ⟨?_, (fits_iff_of_own hown).1 hfits hstop⟩
  by_cases hname : q.assetName = []
  · by_contra hlow
    obtain ⟨a, ha, haown, har, habove⟩ := (h.ordered hname hbounded r hmem hown).1 (by omega)
    have hafits : q.fits a = true := by
      obtain rfl | har := har
      · exact hfits
      · exact hbefore a ha ((not_lt_seekKey_iff (ix.formed a ha) haown).2 fun hne => absurd hname hne) har
    have := (fits_iff_of_own haown).1 hafits hstop
    omega
  · exact (not_lt_seekKey_iff (ix.formed r hmem) hown).1 hseek hname hbounded

theorem mem_of_exact (h : q.Exact ix) (hr : r ∈ ix.records) (hwanted : q.wanted r = true) : r ∈ ix.readAddressIndex q := by
  obtain ⟨hown, hrange⟩ := of_decide_eq_true hwanted
  have hbound : ∀ {a}, a ∈ ix.records → q.Own a → (a = r ∨ a.key < r.key) → 0 < q.stop.toInt → a.1.blockHeight ≤ q.stop.toInt := by
    intro a ha haown har hstop
    by_cases hstart : q.start.toInt ≤ 0
    · exact h.uncut hstop hstart a ha haown
    have hbounded : q.bounded = true := by simp [AddressQuery.bounded, hstop]; omega
    obtain rfl | har := har
    · exact (hrange hbounded).2
    by_cases hname : q.assetName = []
    · exact (h.ordered hname hbounded r hr hown).2 (hrange hbounded) a ha haown har
    · have := height_le_of_lt (ix.formed a ha) haown hown hname har
      have := (hrange hbounded).2
      omega
  refine mem_readAddressIndex.2 ⟨hr, ?_, (fits_iff_of_own hown).2 (hbound hr hown (.inl rfl)), fun a ha hseek har => ?_⟩
  · exact (not_lt_seekKey_iff (ix.formed r hr) hown).2 fun _ hbounded => (hrange hbounded).1
  · have haown := own_between (ix.formed a ha) (ix.formed r hr) hown hseek har
    exact (fits_iff_of_own haown).2 (hbound ha haown (.inr har))

theorem exact_of_mem_iff (h : ∀ r ∈ ix.records, r ∈ ix.readAddressIndex q ↔ q.wanted r = true) : q.Exact ix where
  types r hr hfits htype hseek := by
    have hnot : r ∉ ix.readAddressIndex q := fun hmem => htype (of_decide_eq_true ((h r hr).1 hmem)).1.1
    rw [mem_readAddressIndex] at hnot
    push Not at hnot
    simpa using hnot hr hseek hfits
  uncut hstop hstart r hr hown := by
    have hnot : q.bounded ≠ true := by simp [AddressQuery.bounded]; omega
    have hmem := (h r hr).2 (decide_eq_true ⟨hown, fun hbounded => absurd hbounded hnot⟩)
    exact (fits_iff_of_own hown).1 (mem_readAddressIndex.1 hmem).2.2.1 hstop
  ordered hname hbounded r hr hown := by
    have hstop : 0 < q.stop.toInt := by simpa using (Bool.and_eq_true_iff.1 hbounded).2
    have hfound : ∀ {a}, a ∈ ix.records → q.Own a → ¬ a.key < q.seekKey := fun ha haown =>
      (not_lt_seekKey_iff (ix.formed _ ha) haown).2 fun hne => absurd hname hne
    constructor
    · intro hlow
      have hnot : r ∉ ix.readAddressIndex q := fun hmem => by
        have := ((of_decide_eq_true ((h r hr).1 hmem)).2 hbounded).1
        omega
      by_cases hfits : q.fits r = true
      · rw [mem_readAddressIndex] at hnot
        push Not at hnot
        obtain ⟨a, ha, haseek, har, hafits⟩ := hnot hr (hfound hr hown) hfits
        have haown := own_between (ix.formed a ha) (ix.formed r hr) hown haseek har
        rw [ne_eq, fits_iff_of_own haown] at hafits
        exact ⟨a, ha, haown, .inr har, by omega⟩
      · rw [fits_iff_of_own hown] at hfits
        exact ⟨r, hr, hown, .inl rfl, by omega⟩
    · intro hrange a ha haown har
      have hmem := (h r hr).2 (decide_eq_true ⟨hown, fun _ => hrange⟩)
      exact (fits_iff_of_own haown).1 ((mem_readAddressIndex.1 hmem).2.2.2 a ha (hfound ha haown) har) hstop

end

/-- A query returns exactly the wanted records just where the stored ones allow it. -/
theorem readAddressIndex_exact_iff (ix : AddressIndexTable) (q : AddressQuery) :
    ix.readAddressIndex q = ix.records.filter q.wanted ↔ q.Exact ix := by
  constructor
  · intro h
    exact exact_of_mem_iff fun r hr => by simp [h, hr]
  · intro h
    have hread : (ix.readAddressIndex q).Pairwise (·.key < ·.key) := (pairwise_seek ix.sorted _).sublist (takeWhile_sublist _)
    refine eq_of_mem_iff List.lt_irrefl hread (ix.sorted.sublist filter_sublist) fun r => ?_
    rw [mem_filter]
    exact ⟨fun hr => ⟨(mem_readAddressIndex.1 hr).1, wanted_of_exact h hr⟩, fun hr => mem_of_exact h hr.1 hr.2⟩

namespace Regtest

def receivedTwice : AddressIndexTable where
  records := [(⟨1, replicate 20 7, ascii "HVN", 1, 0, 1, 0, false⟩, 500), (⟨1, replicate 20 7, ascii "HVN", 5, 0, 2, 0, false⟩, 600)]
  sorted := by decide
  formed := by simpa using ⟨⟨by decide, rfl, by decide, by decide⟩, ⟨by decide, rfl, by decide, by decide⟩⟩

def blocksFiveToTen : AddressQuery := ⟨replicate 20 7, 1, [], 5, 10, rfl⟩

/-- The coins of block 1 are returned with those of the blocks 5 to 10. -/
theorem earlier_block_returned : receivedTwice.readAddressIndex blocksFiveToTen = receivedTwice.records ∧
    (receivedTwice.records.filter blocksFiveToTen.wanted).map (·.1.blockHeight) = [5] := by
  decide +kernel

end Regtest

end Hivecoin

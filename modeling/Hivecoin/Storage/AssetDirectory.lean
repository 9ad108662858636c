import Hivecoin.Base.Lemmas.ByteStream
import Hivecoin.Base.SortedScan
import Hivecoin.Cache.State
import Mathlib.Algebra.Ring.Int.Defs

/-!
# Directories of the asset database

`AssetDir`, `AddressDir` and `AssetAddressDir` of `assetdb.cpp`, over the records in the order of their keys.
-/

namespace Hivecoin

open ByteWriter List SortedScan

/-- The records of the database; values that no directory reads are left out. -/
inductive AssetRecord where
  | asset (data : CDatabasedAssetData)
  | assetAddressQuantity (assetName address : Bytes) (quantity : CAmount)
  | addressAssetQuantity (address assetName : Bytes) (quantity : CAmount)
  | blockAssetUndoData (blockhash : Uint256)
  | mempoolReissuedTx

def ASSET_FLAG : UInt8 := 65
def ASSET_ADDRESS_QUANTITY_FLAG : UInt8 := 66
def ADDRESS_ASSET_QUANTITY_FLAG : UInt8 := 67
def BLOCK_ASSET_UNDO_DATA : UInt8 := 85
def MEMPOOL_REISSUED_TX : UInt8 := 90

def MAX_DATABASE_RESULTS : Nat := 50000

namespace AssetRecord

def key : AssetRecord → Bytes
  | asset data => ASSET_FLAG :: lengthPrefixed data.asset.strName
  | assetAddressQuantity assetName address _ => ASSET_ADDRESS_QUANTITY_FLAG :: (lengthPrefixed assetName ++ lengthPrefixed address)
  | addressAssetQuantity address assetName _ => ADDRESS_ASSET_QUANTITY_FLAG :: (lengthPrefixed address ++ lengthPrefixed assetName)
  | blockAssetUndoData blockhash => BLOCK_ASSET_UNDO_DATA :: natLE 32 blockhash.toNat
  | mempoolReissuedTx => [MEMPOOL_REISSUED_TX]

def strings : AssetRecord → List Bytes
  | asset data => [data.asset.strName]
  | assetAddressQuantity assetName address _ => [assetName, address]
  | addressAssetQuantity address assetName _ => [address, assetName]
  | _ => []

def isAsset : AssetRecord → Bool
  | asset _ => true
  | _ => false

/-- A name that the filter admits; a last `*` stands for any ending. -/
def admits (filter name : Bytes) : Bool :=
  let wildcard := filter.getLast? == some 42
  let beginning := if wildcard then filter.dropLast else filter
  beginning == [] || wildcard && beginning.isPrefixOf name || !wildcard && name == beginning

def assetData (filter : Bytes) : AssetRecord → Option CDatabasedAssetData
  | asset data => if admits filter data.asset.strName then some data else none
  | _ => none

def assetAmount (address : Bytes) : AssetRecord → Option (Bytes × CAmount)
  | addressAssetQuantity address' assetName quantity => if address' = address then some (assetName, quantity) else none
  | _ => none

def addressAmount (assetName : Bytes) : AssetRecord → Option (Bytes × CAmount)
  | assetAddressQuantity assetName' address quantity => if assetName' = assetName then some (address, quantity) else none
  | _ => none

end AssetRecord

structure AssetDatabase where
  records : List AssetRecord
  sorted : records.Pairwise (·.key < ·.key)
  sized : ∀ r ∈ records, ∀ s ∈ r.strings, s.length ≤ 0x02000000
  few : records.length < 2 ^ 63

namespace AssetDatabase

variable (db : AssetDatabase)

/-- The records from `beginning` on. A negative `start` is added to the number of records picked, as an unsigned number, and the
loop then begins at the first record of the database. -/
def directory {V : Type} (beginning : Bytes) (inTable : AssetRecord → Bool) (pick : AssetRecord → Option V) (limit : Nat)
    (start : Int64) : List V :=
  let cursor := seek AssetRecord.key beginning db.records
  if 0 ≤ start.toInt then
    load inTable pick limit start.toInt.toNat cursor
  else
    let table_size := (cursor.filterMap pick).length
    load inTable pick limit ((table_size + start.toInt) % 2 ^ 64).toNat db.records

def assetDir (filter : Bytes) (count : Nat) (start : Int64) : List CDatabasedAssetData :=
  db.directory (ASSET_FLAG :: lengthPrefixed []) AssetRecord.isAsset (AssetRecord.assetData filter) count start

def addressDir (address : Bytes) (count : Nat) (start : Int64) : List (Bytes × CAmount) :=
  let pick := AssetRecord.assetAmount address
  db.directory (ADDRESS_ASSET_QUANTITY_FLAG :: (lengthPrefixed address ++ lengthPrefixed [])) (fun r => (pick r).isSome) pick
    (min count MAX_DATABASE_RESULTS) start

def assetAddressDir (assetName : Bytes) (count : Nat) (start : Int64) : List (Bytes × CAmount) :=
  let pick := AssetRecord.addressAmount assetName
  db.directory (ASSET_ADDRESS_QUANTITY_FLAG :: (lengthPrefixed assetName ++ lengthPrefixed [])) (fun r => (pick r).isSome) pick
    (min count MAX_DATABASE_RESULTS) start

/-- At most `limit` records from `start`, counted from the end where negative. -/
def slice {V : Type} (matching : List V) (limit : Nat) (start : Int64) : List V :=
  (matching.drop (if 0 ≤ start.toInt then start.toInt else max 0 (matching.length + start.toInt)).toNat).take limit

/-- Counted from the beginning, or with nothing to return, or within the records while the first record of the database passes. -/
def InReach {V : Type} (matching : List V) (count : Nat) (start : Int64) (inTable : AssetRecord → Bool) : Prop :=
  0 ≤ start.toInt ∨ count = 0 ∨ matching = [] ∨ -start.toInt ≤ matching.length ∧ ∃ r ∈ db.records.head?, inTable r = true

section

variable {V : Type} {beginning : Bytes} {inTable : AssetRecord → Bool} {pick : AssetRecord → Option V}

/-- The records of the table stand together from the seek on. -/
structure Table (beginning : Bytes) (inTable : AssetRecord → Bool) (pick : AssetRecord → Option V) : Prop where
  seek : ∀ r ∈ db.records, inTable r = true → ¬ r.key < beginning
  between : ∀ a ∈ db.records, ∀ b ∈ db.records, ¬ a.key < beginning → a.key < b.key → inTable b = true → inTable a = true
  picked : ∀ r v, pick r = some v → inTable r = true

variable {db}

theorem filterMap_filter_of_picked (hpicked : ∀ r v, pick r = some v → inTable r = true) (l : List AssetRecord) :
    (l.filter inTable).filterMap pick = l.filterMap pick := by
  rw [filterMap_filter]
  refine filterMap_congr fun r _ => ?_
  cases hp : pick r with
  | none => simp
  | some v => simp [hpicked r v hp]

namespace Table

variable (table : db.Table beginning inTable pick)

include table

theorem scan : ((SortedScan.seek AssetRecord.key beginning db.records).takeWhile inTable).filterMap pick = db.records.filterMap pick := by
  rw [scan_eq_filter db.sorted table.seek table.between, filterMap_filter_of_picked table.picked]

theorem count : (SortedScan.seek AssetRecord.key beginning db.records).filterMap pick = db.records.filterMap pick := by
  rw [seek_eq_filter db.sorted, ← filterMap_filter_of_picked table.picked, filter_filter,
    ← filterMap_filter_of_picked table.picked db.records]
  congr 1
  refine filter_congr fun r hr => ?_
  cases hr' : inTable r with
  | false => rfl
  | true => simpa using table.seek r hr hr'

theorem fromFirst_pos (h : ∃ r ∈ db.records.head?, inTable r = true) :
    (db.records.takeWhile inTable).filterMap pick = db.records.filterMap pick := by
  obtain ⟨r, hr, hin⟩ := h
  have hstay : SortedScan.seek AssetRecord.key beginning db.records = db.records :=
    seek_eq_self fun r' hr' => by
      obtain rfl : r = r' := Option.some.inj (hr.symm.trans hr')
      exact table.seek r (mem_of_mem_head? hr) hin
  rw [← table.scan, hstay]

omit table in
theorem fromFirst_neg (h : ¬ ∃ r ∈ db.records.head?, inTable r = true) : db.records.takeWhile inTable = [] := by
  cases hl : db.records with
  | nil => rfl
  | cons r l => exact takeWhile_cons_of_neg fun hin => h ⟨r, by simp [hl], hin⟩

theorem directory_eq_slice_iff (limit : Nat) (start : Int64) :
    db.directory beginning inTable pick limit start = slice (db.records.filterMap pick) limit start ↔
      db.InReach (db.records.filterMap pick) limit start inTable := by
  have hfew : (db.records.filterMap pick).length < 2 ^ 63 := (length_filterMap_le ..).trans_lt db.few
  have hlow := start.le_toInt
  rw [directory, slice, InReach, load_eq, load_eq, table.scan, table.count]
  generalize hm : db.records.filterMap pick = m at hfew
  by_cases hstart : 0 ≤ start.toInt
  · simp [hstart]
  · rw [if_neg hstart, if_neg hstart]
    simp only [hstart, false_or]
    by_cases hempty : limit = 0 ∨ m = []
    · obtain rfl | rfl := hempty
      · simp
      · have hnone : (db.records.takeWhile inTable).filterMap pick = [] :=
          sublist_nil.1 (hm ▸ (takeWhile_sublist _).filterMap _)
        simp [hnone]
    · obtain ⟨hlimit, hne⟩ := not_or.1 hempty
      have hpos : 0 < m.length := length_pos_iff.2 hne
      have hright : (m.drop (max 0 (m.length + start.toInt)).toNat).take limit ≠ [] := by
        simp only [ne_eq, take_eq_nil_iff, hlimit, drop_eq_nil_iff, false_or]
        omega
      simp only [hlimit, hne, false_or]
      by_cases hreach : -start.toInt ≤ m.length ∧ ∃ r ∈ db.records.head?, inTable r = true
      · have hskip : ((m.length + start.toInt) % 2 ^ 64).toNat = (max 0 (m.length + start.toInt)).toNat := by omega
        simp only [hreach, true_and, iff_true]
        rw [table.fromFirst_pos hreach.2, hm, hskip]
      · refine iff_of_false (fun h => hright (h ▸ ?_)) hreach
        by_cases hfirst : ∃ r ∈ db.records.head?, inTable r = true
        · have hskip : m.length ≤ ((m.length + start.toInt) % 2 ^ 64).toNat := by
            have := not_and'.1 hreach hfirst
            omega
          rw [table.fromFirst_pos hfirst, hm, drop_eq_nil_of_le hskip, take_nil]
        · rw [fromFirst_neg hfirst]
          simp

end Table

end

theorem not_lengthPrefixed_lt (s : Bytes) : ¬ lengthPrefixed s < lengthPrefixed [] := by
  have hcons : ∀ n, ∃ b l, compactSize n = b :: l := fun n => by unfold compactSize; split_ifs <;> exact ⟨_, _, rfl⟩
  obtain ⟨b, l, hb⟩ := hcons s.length
  rw [lengthPrefixed, hb]
  simp [lengthPrefixed, compactSize, natLE, cons_lt_cons_iff]

theorem assets (filter : Bytes) : db.Table (ASSET_FLAG :: lengthPrefixed []) AssetRecord.isAsset (AssetRecord.assetData filter) where
  seek r _ hr := by
    cases r with
    | asset data => simpa [AssetRecord.key, cons_lt_cons_iff] using not_lengthPrefixed_lt data.asset.strName
    | _ => cases hr
  between a _ b _ _ hab hb := by
    cases b with
    | asset data =>
      cases a with
      | asset => rfl
      | _ =>
        rw [AssetRecord.key, AssetRecord.key, cons_lt_cons_iff] at hab
        exact hab.elim (fun h => absurd h (by decide)) fun h => absurd h.1 (by decide)
    | _ => cases hb
  picked r v hr := by
    cases r with
    | asset => rfl
    | _ => cases hr

def owner : AssetRecord → Option (UInt8 × Bytes)
  | .assetAddressQuantity assetName _ _ => some (ASSET_ADDRESS_QUANTITY_FLAG, assetName)
  | .addressAssetQuantity address _ _ => some (ADDRESS_ASSET_QUANTITY_FLAG, address)
  | _ => none

variable {r : AssetRecord} {flag : UInt8} {x : Bytes}

theorem key_of_owner (h : owner r = some (flag, x)) : x ∈ r.strings ∧ ∃ y, r.key = flag :: (lengthPrefixed x ++ lengthPrefixed y) := by
  cases r with
  | assetAddressQuantity | addressAssetQuantity =>
    cases h
    exact ⟨mem_cons_self, _, rfl⟩
  | _ => cases h

theorem owner_of_isPrefix {b} (hb : owner b = some (flag, x)) (hx : x.length ≤ 0x02000000)
    (hr : ∀ s ∈ r.strings, s.length ≤ 0x02000000) (h : flag :: lengthPrefixed x <+: r.key) : owner r = some (flag, x) := by
  have hflag : flag = ASSET_ADDRESS_QUANTITY_FLAG ∨ flag = ADDRESS_ASSET_QUANTITY_FLAG := by
    cases b <;> cases hb
    · exact .inl rfl
    · exact .inr rfl
  cases r with
  | assetAddressQuantity s | addressAssetQuantity s =>
    obtain ⟨rfl, hrest⟩ := cons_prefix_cons.1 h
    rw [ByteReader.eq_of_lengthPrefixed_isPrefix hx (hr s mem_cons_self) (by decide) hrest]
    rfl
  | _ =>
    obtain ⟨rfl, -⟩ := cons_prefix_cons.1 h
    exact absurd hflag (by decide)

theorem quantities {pick : AssetRecord → Option (Bytes × CAmount)} (hpick : ∀ r, (pick r).isSome = true ↔ owner r = some (flag, x)) :
    db.Table (flag :: (lengthPrefixed x ++ lengthPrefixed [])) (fun r => (pick r).isSome) pick where
  seek r _ hr := by
    obtain ⟨-, y, hy⟩ := key_of_owner ((hpick r).1 hr)
    rw [hy, ← cons_append, ← cons_append, append_lt_append_iff]
    exact not_lengthPrefixed_lt y
  between a ha b hb hseek hab hb' := by
    obtain ⟨hx, y, hy⟩ := key_of_owner ((hpick b).1 hb')
    have hbelow : ¬ a.key < flag :: lengthPrefixed x := fun hlt => hseek (by
      rw [← cons_append]
      exact Std.lt_of_lt_of_le hlt (List.not_lt.1 (not_lt_of_isPrefix (prefix_append ..))))
    exact (hpick a).2 (owner_of_isPrefix ((hpick b).1 hb') (db.sized b hb x hx) (db.sized a ha)
      (isPrefix_of_lt hbelow hab (hy ▸ cons_append ▸ prefix_append ..)))
  picked r v hr := by simp [hr]

theorem inReach_min {V : Type} {matching : List V} {count : Nat} {start : Int64} {inTable : AssetRecord → Bool} :
    db.InReach matching (min count MAX_DATABASE_RESULTS) start inTable ↔ db.InReach matching count start inTable := by
  have hmin : min count MAX_DATABASE_RESULTS = 0 ↔ count = 0 := by
    unfold MAX_DATABASE_RESULTS
    omega
  rw [InReach, InReach, hmin]

end AssetDatabase

open AssetRecord AssetDatabase in
/-- Each directory returns the page asked for exactly where the place is in reach. -/
theorem directories_page_iff (db : AssetDatabase) (filter address assetName : Bytes) (count : Nat) (start : Int64) :
    (db.assetDir filter count start = slice (db.records.filterMap (assetData filter)) count start ↔
      db.InReach (db.records.filterMap (assetData filter)) count start isAsset) ∧
    (db.addressDir address count start =
        slice (db.records.filterMap (assetAmount address)) (min count MAX_DATABASE_RESULTS) start ↔
      db.InReach (db.records.filterMap (assetAmount address)) count start fun r => (assetAmount address r).isSome) ∧
    (db.assetAddressDir assetName count start =
        slice (db.records.filterMap (addressAmount assetName)) (min count MAX_DATABASE_RESULTS) start ↔
      db.InReach (db.records.filterMap (addressAmount assetName)) count start fun r => (addressAmount assetName r).isSome) := by
  refine ⟨(db.assets filter).directory_eq_slice_iff count start, ?_, ?_⟩
  · refine ((db.quantities fun r => ?_).directory_eq_slice_iff _ start).trans db.inReach_min
    cases r <;> simp [assetAmount, owner, ASSET_ADDRESS_QUANTITY_FLAG, ADDRESS_ASSET_QUANTITY_FLAG]
  · refine ((db.quantities fun r => ?_).directory_eq_slice_iff _ start).trans db.inReach_min
    cases r <;> simp [addressAmount, owner, ASSET_ADDRESS_QUANTITY_FLAG, ADDRESS_ASSET_QUANTITY_FLAG]

namespace Regtest

open AssetRecord AssetDatabase

def heldByOne : AssetDatabase where
  records := [asset ⟨⟨ascii "ABC", 100000000, 0, 1, 0, []⟩, 1, 1⟩,
    assetAddressQuantity (ascii "ABC") (ascii "mine") 100000000, assetAddressQuantity (ascii "ABC!") (ascii "mine") 100000000,
    addressAssetQuantity (ascii "mine") (ascii "ABC") 100000000, addressAssetQuantity (ascii "mine") (ascii "ABC!") 100000000]
  sorted := by decide
  sized := by decide
  few := by decide

/-- The last amount of the address is not returned, and of the last three assets not even the only one. -/
theorem last_amount_not_returned :
    heldByOne.addressDir (ascii "mine") 1 (-1) = [] ∧
    slice (heldByOne.records.filterMap (assetAmount (ascii "mine"))) (min 1 MAX_DATABASE_RESULTS) (-1) = [(ascii "ABC!", 100000000)] ∧
    heldByOne.assetDir (ascii "*") 3 (-3) = [] ∧
    slice (heldByOne.records.filterMap (assetData (ascii "*"))) 3 (-3) = [⟨⟨ascii "ABC", 100000000, 0, 1, 0, []⟩, 1, 1⟩] := by
  decide +kernel

end Regtest

end Hivecoin

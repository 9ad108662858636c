import Hivecoin.Assets.Lemmas.Name
import Hivecoin.Base.ByteClass
import Hivecoin.Base.Lemmas.ByteStream
import Hivecoin.Base.Decimal

/-!
# Requests for snapshots

`CSnapshotRequestDB` of `snapshotrequestdb.cpp`. A request is stored under its height in decimal followed by the name.
-/

namespace Hivecoin

open ByteClass Decimal List Option ByteReader Table

structure CSnapshotRequestDBEntry where
  assetName : Bytes
  heightForSnapshot : Nat
  heightAndName : Bytes
deriving DecidableEq

/-- A name and the height at which its holders are to be recorded. -/
abbrev SnapshotPair := Bytes × Nat

abbrev CSnapshotRequestDB := Table Bytes CSnapshotRequestDBEntry

def heightAndName (p : SnapshotPair) : Bytes := (decimal p.2).map digitChar ++ p.1

def SNAPSHOTREQUEST_FLAG : UInt8 := 83

def snapshotKey (p : SnapshotPair) : Bytes := SNAPSHOTREQUEST_FLAG :: ByteWriter.lengthPrefixed (heightAndName p)

def snapshotEntry (p : SnapshotPair) : CSnapshotRequestDBEntry := ⟨p.1, p.2, heightAndName p⟩

namespace CSnapshotRequestDB

variable (db : CSnapshotRequestDB)

def scheduleSnapshot (p : SnapshotPair) : CSnapshotRequestDB := db.insert (snapshotKey p) (snapshotEntry p)

def removeSnapshotRequest (p : SnapshotPair) : CSnapshotRequestDB := db.erase (snapshotKey p)

def containsSnapshotRequest (p : SnapshotPair) : Bool := db.contains (snapshotKey p)

/-- `GetKey` at the type of a character and a number. -/
def heightKey : ByteReader (Nat × Nat) := do return (← natLE 1, ← natLE 4)

def retrieveSnapshotRequestsForHeight (assetName : Bytes) (blockHeight : Nat) : List CSnapshotRequestDBEntry :=
  (db.toList.filter fun record =>
    (heightKey record.1).any (fun key => key.1.1 == SNAPSHOTREQUEST_FLAG.toNat) &&
      (blockHeight == 0 || record.2.heightForSnapshot == blockHeight) &&
      (assetName == [] || assetName == record.2.assetName)).map Prod.snd

end CSnapshotRequestDB

inductive SnapshotCall where
  | scheduleSnapshot (p : SnapshotPair)
  | removeSnapshotRequest (p : SnapshotPair)

namespace SnapshotCall

def pair : SnapshotCall → SnapshotPair
  | scheduleSnapshot p | removeSnapshotRequest p => p

def isSchedule : SnapshotCall → Bool
  | scheduleSnapshot _ => true
  | removeSnapshotRequest _ => false

def apply (db : CSnapshotRequestDB) : SnapshotCall → CSnapshotRequestDB
  | scheduleSnapshot p => db.scheduleSnapshot p
  | removeSnapshotRequest p => db.removeSnapshotRequest p

def run (calls : List SnapshotCall) : CSnapshotRequestDB := calls.foldl apply ∅

def requested (calls : List SnapshotCall) (p : SnapshotPair) : Bool :=
  (calls.reverse.find? fun call => call.pair = p).any isSchedule

variable {P : Set SnapshotPair} {calls : List SnapshotCall} {p : SnapshotPair}

theorem requested_concat (call : SnapshotCall) :
    requested (calls ++ [call]) p = if call.pair = p then call.isSchedule else requested calls p := by
  unfold requested
  rw [reverse_append, reverse_singleton, singleton_append, find?_cons]
  by_cases h : call.pair = p <;> simp [h]

theorem snapshotKey_inj {q} (h : snapshotKey p = snapshotKey q) : heightAndName p = heightAndName q :=
  lengthPrefixed_inj (cons.inj h).2

theorem one_le_length_decimal (p : SnapshotPair) : 1 ≤ ((decimal p.2).map digitChar).length := by
  rcases decimal_ok p.2 with h | ⟨d, ds, -, h⟩ <;> simp [h]

/-- The key of a valid name is long enough to be read as one with a number. -/
theorem heightKey_snapshotKey (hname : nameValid p.1 = true) :
    ((CSnapshotRequestDB.heightKey (snapshotKey p)).any fun key => key.1.1 == SNAPSHOTREQUEST_FLAG.toNat) = true := by
  have hsingle : ∀ c : UInt8, nameValid [c] = false := by decide +kernel
  have hlength : 2 ≤ p.1.length := by
    obtain ⟨-, hne⟩ := nameValid_length hname
    match hp : p.1 with
    | [] => exact absurd hp hne
    | [c] => rw [hp, hsingle] at hname; cases hname
    | _ :: _ :: _ => simp
  have hrest : 4 ≤ (ByteWriter.lengthPrefixed (heightAndName p)).length := by
    have hdigits := one_le_length_decimal p
    have hsize : 1 ≤ (ByteWriter.compactSize (heightAndName p).length).length := by
      unfold ByteWriter.compactSize
      split_ifs <;> simp [length_natLE]
    simp only [ByteWriter.lengthPrefixed, length_append, heightAndName] at hsize ⊢
    omega
  simp [snapshotKey, CSnapshotRequestDB.heightKey, natLE, bytes, StateT.bind, bind, pure_read, hrest]

theorem get?_apply (db : CSnapshotRequestDB) (call : SnapshotCall) (k : Bytes) : (call.apply db).get? k =
    if k = snapshotKey call.pair then (if call.isSchedule then some (snapshotEntry call.pair) else none) else db.get? k := by
  cases call with
  | scheduleSnapshot q => exact get?_insert ..
  | removeSnapshotRequest q => exact get?_erase ..

/-- Where keys are apart, the record of a pair is what its last call left. -/
theorem get?_run (hkeys : Set.InjOn heightAndName P) (hcalls : ∀ call ∈ calls, call.pair ∈ P) (hp : p ∈ P) :
    (run calls).get? (snapshotKey p) = if requested calls p then some (snapshotEntry p) else none := by
  induction calls using reverseRecOn with
  | nil => exact get?_empty _
  | append_singleton calls call ih =>
    have hrest := ih fun c hc => hcalls c (mem_append_left _ hc)
    have hcall := hcalls call (mem_append_right _ (mem_singleton_self _))
    rw [run, foldl_append, foldl_cons, foldl_nil, get?_apply, requested_concat]
    by_cases h : call.pair = p
    · rw [if_pos (by rw [h]), if_pos h, h]
    · rw [if_neg fun heq => h (hkeys hcall hp (snapshotKey_inj heq.symm)), if_neg h]
      exact hrest

/-- Every record belongs to a pair that some call names. -/
theorem exists_pair_of_get? {k e} (h : (run calls).get? k = some e) :
    ∃ call ∈ calls, k = snapshotKey call.pair ∧ e = snapshotEntry call.pair := by
  induction calls using reverseRecOn with
  | nil => rw [run, foldl_nil, get?_empty] at h; cases h
  | append_singleton calls call ih =>
    rw [run, foldl_append, foldl_cons, foldl_nil, get?_apply] at h
    split at h
    · split at h
      · cases h
        exact ⟨call, mem_append_right _ (mem_singleton_self _), ‹_›, rfl⟩
      · cases h
    · obtain ⟨c, hc, heq⟩ := ih h
      exact ⟨c, mem_append_left _ hc, heq⟩

/-- Requests do not disturb each other just where no two of them make the same text. -/
theorem requests_independent_iff (P : Set SnapshotPair) (hP : ∀ p ∈ P, nameValid p.1 = true ∧ 0 < p.2) :
    (∀ calls : List SnapshotCall, (∀ call ∈ calls, call.pair ∈ P) →
      (∀ p ∈ P, (run calls).containsSnapshotRequest p = requested calls p) ∧
      ∀ h, 0 < h → ∀ assetName, (∃ e ∈ (run calls).retrieveSnapshotRequestsForHeight [] h, e.assetName = assetName) ↔
        requested calls (assetName, h) = true) ↔
      Set.InjOn heightAndName P := by
  refine ⟨fun hall p hp q hq heq => ?_, fun hkeys calls hcalls => ⟨fun p hp => ?_, fun h hh assetName => ⟨?_, fun hreq => ?_⟩⟩⟩
  · -- one request makes the other appear
    by_contra hne
    have hq' := (hall [.scheduleSnapshot p] (by simpa [pair] using hp)).1 q hq
    have hkey : snapshotKey q = snapshotKey p := by rw [snapshotKey, snapshotKey, heq]
    simp [run, apply, CSnapshotRequestDB.containsSnapshotRequest, CSnapshotRequestDB.scheduleSnapshot, Table.contains, hkey,
      requested, pair, hne] at hq'
  · rw [CSnapshotRequestDB.containsSnapshotRequest, Table.contains, get?_run hkeys hcalls hp]
    cases requested calls p <;> rfl
  · rintro ⟨e, he, rfl⟩
    obtain ⟨⟨k, e'⟩, hmem, rfl⟩ := mem_map.1 he
    obtain ⟨hrecord, hscan⟩ := mem_filter.1 hmem
    have hget := Table.mem_toList.1 hrecord
    obtain ⟨call, hcall, rfl, rfl⟩ := exists_pair_of_get? hget
    rw [get?_run hkeys hcalls (hcalls call hcall)] at hget
    simp only [Outcome.test_iff, hh.ne', false_or] at hscan
    obtain rfl : call.pair.2 = h := hscan.1.2
    change requested calls call.pair = true
    by_contra hnot
    rw [if_neg hnot] at hget
    cases hget
  · have hp : (assetName, h) ∈ P := by
      obtain ⟨call, hfind, -⟩ := (Option.any_eq_true ..).1 hreq
      have hpair : call.pair = (assetName, h) := by simpa using find?_some hfind
      exact hpair ▸ hcalls call (mem_reverse.1 (mem_of_find?_eq_some hfind))
    have hget := get?_run hkeys hcalls hp
    rw [if_pos hreq] at hget
    refine ⟨snapshotEntry (assetName, h), mem_map.2 ⟨_, mem_filter.2 ⟨Table.mem_toList.2 hget, ?_⟩, rfl⟩, rfl⟩
    simp [heightKey_snapshotKey (hP _ hp).1, snapshotEntry]

/-- Texts differ where no name begins with a digit. -/
theorem heightAndName_injOn (hP : ∀ p ∈ P, ∀ c ∈ p.1.head?, ¬ (48 ≤ c ∧ c ≤ 57)) : Set.InjOn heightAndName P := by
  have hdigit : ∀ d, 48 ≤ digitChar d ∧ digitChar d ≤ 57 := by decide
  have htake : ∀ r ∈ P, (heightAndName r).takeWhile (fun c => 48 ≤ c ∧ c ≤ 57) = (decimal r.2).map digitChar := by
    intro r hr
    have hname : r.1.takeWhile (fun c => 48 ≤ c ∧ c ≤ 57) = [] := by
      have hhead := hP r hr
      cases hr1 : r.1 with
      | nil => rfl
      | cons c name => rw [takeWhile_cons_of_neg]; simpa [hr1] using hhead
    rw [heightAndName, takeWhile_append_of_pos, hname, append_nil]
    intro c hc
    obtain ⟨d, -, rfl⟩ := mem_map.1 hc
    simpa using hdigit d
  intro p hp q hq heq
  have hmap : (decimal p.2).map digitChar = (decimal q.2).map digitChar := by rw [← htake p hp, heq, htake q hq]
  have hdecimal : decimal p.2 = decimal q.2 := map_injective_iff.2 (fun a b h => by decide +revert) hmap
  refine Prod.ext ?_ ?_
  · rw [heightAndName, heightAndName, hmap] at heq
    exact append_cancel_left heq
  · rw [← value_decimal p.2, hdecimal, value_decimal]

end SnapshotCall

namespace Regtest

open SnapshotCall

/-- A request for `3AB` at height 12 is found as one for `23AB` at height 1. -/
theorem request_found_for_other_name :
    nameValid (ascii "3AB") = true ∧ nameValid (ascii "23AB") = true ∧
      (run [.scheduleSnapshot (ascii "3AB", 12)]).containsSnapshotRequest (ascii "23AB", 1) = true ∧
      requested [.scheduleSnapshot (ascii "3AB", 12)] (ascii "23AB", 1) = false := by
  have hkey : snapshotKey (ascii "23AB", 1) = snapshotKey (ascii "3AB", 12) := by
    simp [snapshotKey, heightAndName, decimal]
    decide
  refine ⟨by decide +kernel, by decide +kernel, ?_, by decide⟩
  simp [run, SnapshotCall.apply, CSnapshotRequestDB.containsSnapshotRequest, CSnapshotRequestDB.scheduleSnapshot, Table.contains, hkey]

theorem letters_requested :
    (run [.scheduleSnapshot (ascii "GOLD", 12), .removeSnapshotRequest (ascii "SILVER", 12)]).containsSnapshotRequest (ascii "GOLD", 12) =
      true := by
  have hP : ∀ p ∈ ({(ascii "GOLD", 12), (ascii "SILVER", 12)} : Set SnapshotPair), nameValid p.1 = true ∧ 0 < p.2 := by
    rintro p (rfl | rfl) <;> decide +kernel
  refine ((requests_independent_iff _ hP).2 (heightAndName_injOn ?_) _ ?_).1 (ascii "GOLD", 12) (Or.inl rfl)
  · rintro p (rfl | rfl) <;> decide +kernel
  · intro call hcall
    simp only [mem_cons, not_mem_nil, or_false] at hcall
    rcases hcall with rfl | rfl
    · exact Or.inl rfl
    · exact Or.inr rfl

end Regtest

end Hivecoin

import Mathlib.Data.Finset.Lattice.Lemmas
import Hivecoin.Cache.Lemmas.Operations

/-!
# What operations do to tags and freezes
-/

namespace Hivecoin

open CAssetsCache Table

variable {c c' : CAssetsCache} {E : Env} {S : Store}

namespace CacheOp

/-- The operation sets or undoes a tag or a freeze. -/
def isMark : CacheOp → Bool
  | addQualifierAddress .. | removeQualifierAddress .. | addRestrictedAddress ..
  | removeRestrictedAddress .. | addGlobalRestricted .. | removeGlobalRestricted .. => true
  | _ => false

def tagCmd : CacheOp → Option (Pending.Cmd (Bytes × Bytes) QualifierType)
  | addQualifierAddress name address type => some (.add (name, address) type)
  | removeQualifierAddress name address type => some (.remove (name, address) type)
  | _ => none

def freezeCmd : CacheOp → Option (Pending.Cmd (Bytes × Bytes) RestrictedType)
  | addRestrictedAddress name address type => some (.add (name, address) type)
  | removeRestrictedAddress name address type => some (.remove (name, address) type)
  | _ => none

def globalCmd : CacheOp → Option (Pending.Cmd Bytes GlobalRestrictedType)
  | addGlobalRestricted name type => some (.add name type)
  | removeGlobalRestricted name type => some (.remove name type)
  | _ => none

/-- The sub-qualifier that is noted under its root, and whether it is given. -/
def rootNote : CacheOp → Option (Bytes × Bytes × Bool)
  | addQualifierAddress name address type => some (name, address, type.isAdd)
  | removeQualifierAddress name address type => some (name, address, !type.isAdd)
  | _ => none

end CacheOp

structure MarkRecords where
  tags : Pending (Bytes × Bytes) QualifierType
  freezes : Pending (Bytes × Bytes) RestrictedType
  globals : Pending Bytes GlobalRestrictedType
  rootAdd : Table (Bytes × Bytes) (Finset Bytes)
  rootRemove : Table (Bytes × Bytes) (Finset Bytes)

def CAssetsCache.marks (c : CAssetsCache) : MarkRecords where
  tags := c.newQualifierAddress
  freezes := c.newRestrictedAddress
  globals := c.newRestrictedGlobal
  rootAdd := c.mapRootQualifierAddressesAdd
  rootRemove := c.mapRootQualifierAddressesRemove

namespace MarkRecords

/-- `noteRootQualifier` on the marks alone. -/
def note (m : MarkRecords) (name address : Bytes) (gets : Bool) : MarkRecords :=
  if isAssetNameASubQualifier name then
    let key := (getParentName name, address)
    if gets then
      { m with
        rootAdd := m.rootAdd.modify key ∅ fun s => insert name s
        rootRemove := m.rootRemove.modify key ∅ fun s => s.erase name }
    else
      { m with
        rootRemove := m.rootRemove.modify key ∅ fun s => insert name s
        rootAdd := m.rootAdd.modify key ∅ fun s => s.erase name }
  else m

def exec (m : MarkRecords) (op : CacheOp) : MarkRecords :=
  let m := op.rootNote.elim m fun n => m.note n.1 n.2.1 n.2.2
  { m with
    tags := op.tagCmd.elim m.tags m.tags.exec
    freezes := op.freezeCmd.elim m.freezes m.freezes.exec
    globals := op.globalCmd.elim m.globals m.globals.exec }

end MarkRecords

theorem CAssetsCache.marks_noteRootQualifier (c : CAssetsCache) (name address : Bytes) (gets : Bool) :
    (c.noteRootQualifier name address gets).marks = c.marks.note name address gets := by
  unfold noteRootQualifier MarkRecords.note
  split
  · split <;> rfl
  · rfl

theorem CAssetsCache.SameRecords.marks_eq (h : SameRecords c c') : c'.marks = c.marks := by
  rw [h]
  rfl

theorem CacheOp.exec_of_not_isMark {op} (h : op.isMark = false) (m : MarkRecords) : m.exec op = m := by
  cases op <;> first | rfl | cases h

theorem CacheOp.apply_marks {op} (h : op.apply E S c = some c') : c'.marks = c.marks.exec op := by
  obtain ⟨c1, h1, hs⟩ := apply_records h
  rw [hs.marks_eq]
  cases op with
  | addNewAsset =>
    simp only [onRecords, Outcome.some_iff] at h1
    rw [← h1.2]; rfl
  | removeNewAsset =>
    simp only [onRecords, Outcome.some_iff] at h1
    rw [← h1.2]; rfl
  | addReissueAsset =>
    simp only [onRecords, Option.map_eq_some_iff] at h1
    obtain ⟨_, _, rfl⟩ := h1; rfl
  | removeReissueAsset =>
    simp only [onRecords, Option.map_eq_some_iff] at h1
    obtain ⟨_, _, rfl⟩ := h1
    rw [undoVerifier_eq]; rfl
  | addQualifierAddress name address type =>
    cases h1
    have hn := marks_noteRootQualifier c name address type.isAdd
    simp only [MarkRecords.exec, rootNote, Option.elim_some, ← hn]
    rfl
  | removeQualifierAddress name address type =>
    cases h1
    have hn := marks_noteRootQualifier c name address (!type.isAdd)
    simp only [MarkRecords.exec, rootNote, Option.elim_some, ← hn]
    rfl
  | _ => cases h1; rfl

theorem tryOps_marks (E : Env) (S : Store) (c : CAssetsCache) (ops : List CacheOp) :
    (tryOps E S c ops).marks = (ops.filter CacheOp.isMark).foldl MarkRecords.exec c.marks := by
  induction ops generalizing c with
  | nil => rfl
  | cons op ops ih =>
    rw [tryOps_cons, ih]
    cases h : op.apply E S c with
    | some c' =>
      rw [Option.getD_some, CacheOp.apply_marks h]
      cases hm : op.isMark with
      | true => simp [hm]
      | false => simp [hm, CacheOp.exec_of_not_isMark hm]
    | none =>
      have hm : op.isMark = false := by cases op <;> first | rfl | cases h
      simp [hm]

theorem runOps_eq_tryOps {ops} (h : runOps E S c ops = some c') : c' = tryOps E S c ops := by
  induction ops generalizing c with
  | nil =>
    simp only [runOps, List.foldlM_nil, Outcome.some_iff] at h
    exact h.symm
  | cons op ops ih =>
    simp only [runOps, List.foldlM_cons, Outcome.some_iff] at h
    obtain ⟨c1, h1, h2⟩ := h
    rw [tryOps_cons, h1]
    exact ih h2

theorem runOps_marks {ops} (h : runOps E S c ops = some c') :
    c'.marks = (ops.filter CacheOp.isMark).foldl MarkRecords.exec c.marks := by
  rw [runOps_eq_tryOps h, tryOps_marks]

namespace MarkRecords

variable (m : MarkRecords)

theorem note_tags (name address : Bytes) (gets : Bool) :
    (m.note name address gets).tags = m.tags ∧ (m.note name address gets).freezes = m.freezes ∧
      (m.note name address gets).globals = m.globals := by
  unfold note
  split
  · split <;> exact ⟨rfl, rfl, rfl⟩
  · exact ⟨rfl, rfl, rfl⟩

theorem exec_eq (op : CacheOp) :
    (m.exec op).tags = op.tagCmd.elim m.tags m.tags.exec ∧
      (m.exec op).freezes = op.freezeCmd.elim m.freezes m.freezes.exec ∧
      (m.exec op).globals = op.globalCmd.elim m.globals m.globals.exec := by
  unfold exec
  cases op.rootNote with
  | none => exact ⟨rfl, rfl, rfl⟩
  | some n =>
    obtain ⟨h1, h2, h3⟩ := note_tags m n.1 n.2.1 n.2.2
    simp only [Option.elim_some, h1, h2, h3, and_self]

theorem foldl_exec_eq (ops : List CacheOp) (m : MarkRecords) :
    (ops.foldl exec m).tags = (ops.filterMap CacheOp.tagCmd).foldl Pending.exec m.tags ∧
      (ops.foldl exec m).freezes = (ops.filterMap CacheOp.freezeCmd).foldl Pending.exec m.freezes ∧
      (ops.foldl exec m).globals = (ops.filterMap CacheOp.globalCmd).foldl Pending.exec m.globals := by
  induction ops generalizing m with
  | nil => exact ⟨rfl, rfl, rfl⟩
  | cons op ops ih =>
    obtain ⟨h1, h2, h3⟩ := exec_eq m op
    obtain ⟨ih1, ih2, ih3⟩ := ih (m.exec op)
    rw [List.foldl_cons, ih1, ih2, ih3, h1, h2, h3]
    refine ⟨?_, ?_, ?_⟩
    · cases hc : op.tagCmd <;> simp [hc]
    · cases hc : op.freezeCmd <;> simp [hc]
    · cases hc : op.globalCmd <;> simp [hc]

/-- The sub-qualifiers noted under a root, whether as added or as removed. -/
def noted (key : Bytes × Bytes) : Finset Bytes :=
  m.rootAdd.getD key ∅ ∪ m.rootRemove.getD key ∅

theorem noted_note (name address : Bytes) (gets : Bool) (key : Bytes × Bytes) :
    (m.note name address gets).noted key =
      if isAssetNameASubQualifier name = true ∧ key = (getParentName name, address) then insert name (m.noted key)
      else m.noted key := by
  unfold note
  cases isAssetNameASubQualifier name with
  | false => simp
  | true =>
    by_cases hk : key = (getParentName name, address)
    · cases gets <;> simp only [noted, getD_modify, hk, Outcome.test_iff, and_self] <;>
        ext x <;> by_cases hx : x = name <;> simp [hx]
    · cases gets <;> simp [noted, getD_modify, hk]

end MarkRecords

def CacheOp.NotesUnder (op : CacheOp) (key : Bytes × Bytes) : Prop :=
  ∃ name address gets, op.rootNote = some (name, address, gets) ∧ isAssetNameASubQualifier name = true ∧
    key = (getParentName name, address)

namespace MarkRecords

theorem noted_exec_ne_empty (m : MarkRecords) (op : CacheOp) (key : Bytes × Bytes) :
    (m.exec op).noted key ≠ ∅ ↔ m.noted key ≠ ∅ ∨ op.NotesUnder key := by
  have hexec : (m.exec op).noted key = (op.rootNote.elim m fun n => m.note n.1 n.2.1 n.2.2).noted key := rfl
  rw [hexec]
  cases hn : op.rootNote with
  | none =>
    have hno : ¬ op.NotesUnder key := by
      rintro ⟨_, _, _, h, -⟩
      rw [hn] at h
      cases h
    simp [hno]
  | some n =>
    obtain ⟨name, address, gets⟩ := n
    rw [Option.elim_some, noted_note]
    by_cases hcond : isAssetNameASubQualifier name = true ∧ key = (getParentName name, address)
    · have hyes : op.NotesUnder key := ⟨name, address, gets, hn, hcond⟩
      simp only [if_pos hcond, hyes, or_true, iff_true]
      exact Finset.insert_ne_empty _ _
    · have hno : ¬ op.NotesUnder key := by
        rintro ⟨_, _, _, h, h1, h2⟩
        rw [hn] at h
        cases h
        exact hcond ⟨h1, h2⟩
      simp only [if_neg hcond, hno, or_false]

theorem noted_foldl_ne_empty (ops : List CacheOp) (m : MarkRecords) (key : Bytes × Bytes) :
    (ops.foldl exec m).noted key ≠ ∅ ↔ m.noted key ≠ ∅ ∨ ∃ op ∈ ops, op.NotesUnder key := by
  induction ops generalizing m with
  | nil => simp
  | cons op ops ih =>
    rw [List.foldl_cons, ih, noted_exec_ne_empty, or_assoc]
    simp

end MarkRecords

theorem getD_mergeRoots (t l : Table (Bytes × Bytes) (Finset Bytes)) (key : Bytes × Bytes) :
    (mergeRoots t l).getD key ∅ = t.getD key ∅ ∪ l.getD key ∅ := by
  have h := foldl_pointwise
    (fun (t : Table (Bytes × Bytes) (Finset Bytes)) a => t.getD a ∅) (fun t key names => t.modify key ∅ (· ∪ names))
    (fun _ names s => s ∪ names) (fun t k names a => getD_modify t k a ∅ _) l t key
  refine h.trans ?_
  cases hl : l.get? key with
  | none => simp [getD, hl]
  | some names => simp [getD, hl]

theorem getD_rootAdd_flush (S : Store) (c : CAssetsCache) (key : Bytes × Bytes) :
    (S.flush c).passets.mapRootQualifierAddressesAdd.getD key ∅ =
      S.passets.mapRootQualifierAddressesAdd.getD key ∅ ∪ c.marks.noted key := by
  simp only [Store.flush, flushInto, getD_mergeRoots, MarkRecords.noted, CAssetsCache.marks, Finset.union_assoc]

end Hivecoin

import Hivecoin.Cache.DumpTransparency

/-!
# Marks changed and changed back

A cache that changes marks and one that undoes the changes are flushed, with or without dumps.
-/

namespace Hivecoin

open CAssetsCache MarkRecords Pending GlobalRestrictedType List

variable {E : Env} {S : Store} {ops : List CacheOp} {c1 c2 : CAssetsCache}

namespace CacheOp

def inverse : CacheOp → CacheOp
  | addQualifierAddress name address type => removeQualifierAddress name address type
  | removeQualifierAddress name address type => addQualifierAddress name address type
  | addRestrictedAddress name address type => removeRestrictedAddress name address type
  | removeRestrictedAddress name address type => addRestrictedAddress name address type
  | addGlobalRestricted name type => removeGlobalRestricted name type
  | removeGlobalRestricted name type => addGlobalRestricted name type
  | op => op

theorem tagCmd_inverse (op : CacheOp) : op.inverse.tagCmd = op.tagCmd.map Pending.Cmd.inverse := by
  cases op <;> rfl

theorem freezeCmd_inverse (op : CacheOp) : op.inverse.freezeCmd = op.freezeCmd.map Pending.Cmd.inverse := by
  cases op <;> rfl

theorem globalCmd_inverse (op : CacheOp) : op.inverse.globalCmd = op.globalCmd.map Pending.Cmd.inverse := by
  cases op <;> rfl

theorem notesUnder_inverse {op : CacheOp} {key} : op.inverse.NotesUnder key ↔ op.NotesUnder key := by
  have hnote : op.inverse.rootNote = op.rootNote.map fun n => (n.1, n.2.1, !n.2.2) := by
    cases op <;> simp [inverse, rootNote]
  constructor
  · rintro ⟨name, address, gets, h, hs, hk⟩
    simp only [hnote, Option.map_eq_some_iff, Prod.mk.injEq] at h
    obtain ⟨n, hn, rfl, rfl, -⟩ := h
    exact ⟨n.1, n.2.1, n.2.2, hn, hs, hk⟩
  · rintro ⟨name, address, gets, h, hs, hk⟩
    exact ⟨name, address, !gets, by rw [hnote, h]; rfl, hs, hk⟩

/-- The operation sets a mark to what it is not in the store. -/
def Verified (S : Store) : CacheOp → Prop
  | addQualifierAddress name address type => IsTag name ∧ type.isAdd = !checkForAddressQualifier S ∅ name address
  | addRestrictedAddress name address type => type.isFreeze = !checkForAddressRestriction S ∅ name address
  | addGlobalRestricted name type => type.isFreeze = !checkForGlobalRestriction S ∅ name
  | _ => False

end CacheOp

def Store.dumpIf (E : Env) (d : Bool) (S : Store) : Store := if d then S.dumpCacheToDatabase E else S

/-- A cache that changes marks of the store, and a cache that undoes the changes. -/
structure MarkRound (S : Store) (ops : List CacheOp) (c1 c2 : CAssetsCache) : Prop where
  verified : ∀ op ∈ ops, op.Verified S
  done : c1.marks = ops.foldl exec (∅ : CAssetsCache).marks
  undone : ∃ undo : List CacheOp, (∀ op, op ∈ undo ↔ ∃ op' ∈ ops, op = op'.inverse) ∧
    c2.marks = undo.foldl exec (∅ : CAssetsCache).marks

def Store.afterRound (E : Env) (d1 d2 : Bool) (S : Store) (c1 c2 : CAssetsCache) : Store :=
  (((S.flush c1).dumpIf E d1).flush c2).dumpIf E d2

section

variable {K V : Type} [DecidableEq K]

omit [DecidableEq K] in
theorem mem_filterMap_inverse {cmdOf : CacheOp → Option (Pending.Cmd K V)} {undo : List CacheOp}
    (hcmd : ∀ op : CacheOp, cmdOf op.inverse = (cmdOf op).map Pending.Cmd.inverse)
    (hundo : ∀ op, op ∈ undo ↔ ∃ op' ∈ ops, op = op'.inverse) {cmd : Pending.Cmd K V} :
    cmd ∈ undo.filterMap cmdOf ↔ ∃ cmd' ∈ ops.filterMap cmdOf, cmd = cmd'.inverse := by
  simp only [mem_filterMap, hundo]
  constructor
  · rintro ⟨_, ⟨op, hop, rfl⟩, h⟩
    rw [hcmd, Option.map_eq_some_iff] at h
    obtain ⟨cmd', hcmd', rfl⟩ := h
    exact ⟨cmd', ⟨op, hop, hcmd'⟩, rfl⟩
  · rintro ⟨cmd', ⟨op, hop, hcmd'⟩, rfl⟩
    exact ⟨op.inverse, ⟨op, hop, rfl⟩, by rw [hcmd, hcmd']; rfl⟩

theorem mark_round (on : V → Bool) {cmds undo : List (Pending.Cmd K V)} {k b}
    (hundo : ∀ cmd, cmd ∈ undo ↔ ∃ cmd' ∈ cmds, cmd = cmd'.inverse)
    (hver : ∀ cmd ∈ cmds, cmd.key = k → cmd.on on = !b) (base : Bool) :
    mark on (cmds.foldl exec ∅) ∅ k base = (if ∃ cmd ∈ cmds, cmd.key = k then !b else base) ∧
      mark on (undo.foldl exec ∅) ∅ k base = (if ∃ cmd ∈ cmds, cmd.key = k then b else base) := by
  have hiff : (∃ cmd ∈ undo, cmd.key = k) ↔ ∃ cmd ∈ cmds, cmd.key = k := by
    simp only [hundo]
    constructor
    · rintro ⟨_, ⟨cmd, hcmd, rfl⟩, hk⟩
      exact ⟨cmd, hcmd, by rwa [Pending.Cmd.key_inverse] at hk⟩
    · rintro ⟨cmd, hcmd, hk⟩
      exact ⟨cmd.inverse, ⟨cmd, hcmd, rfl⟩, by rwa [Pending.Cmd.key_inverse]⟩
  refine ⟨by rw [mark_foldl_exec hver, mark_empty], ?_⟩
  rw [mark_foldl_exec (b := b), mark_empty, if_congr hiff rfl rfl]
  intro cmd hcmd hk
  obtain ⟨cmd', hcmd', rfl⟩ := (hundo cmd).mp hcmd
  rw [Pending.Cmd.on_inverse, hver cmd' hcmd' (by rwa [Pending.Cmd.key_inverse] at hk), Bool.not_not]

end

/-! ## Freezes -/

theorem checkForAddressRestriction_dumpIf (d : Bool) (name address : Bytes) :
    checkForAddressRestriction (S.dumpIf E d) ∅ name address = checkForAddressRestriction S ∅ name address := by
  cases d with
  | false => rfl
  | true => exact checkForAddressRestriction_dump name address

theorem checkForGlobalRestriction_dumpIf (d : Bool) (name : Bytes) :
    checkForGlobalRestriction (S.dumpIf E d) ∅ name = checkForGlobalRestriction S ∅ name := by
  cases d with
  | false => rfl
  | true => exact checkForGlobalRestriction_dump name

theorem checkForAddressRestriction_flushed (S : Store) (c : CAssetsCache) (name address : Bytes) :
    checkForAddressRestriction (S.flush c) ∅ name address =
      mark RestrictedType.isFreeze c.newRestrictedAddress ∅ (name, address)
        (checkForAddressRestriction S ∅ name address) :=
  mark_flushOver _ _ _ _ _

theorem checkForGlobalRestriction_flushed (S : Store) (c : CAssetsCache) (name : Bytes) :
    checkForGlobalRestriction (S.flush c) ∅ name =
      mark isFreeze c.newRestrictedGlobal ∅ name
        (checkForGlobalRestriction S ∅ name) :=
  mark_flushOver _ _ _ _ _

def Freezes (ops : List CacheOp) (name address : Bytes) : Prop :=
  ∃ cmd ∈ ops.filterMap CacheOp.freezeCmd, cmd.key = (name, address)

def FreezesAll (ops : List CacheOp) (name : Bytes) : Prop :=
  ∃ cmd ∈ ops.filterMap CacheOp.globalCmd, cmd.key = name

instance (ops : List CacheOp) (name address : Bytes) : Decidable (Freezes ops name address) :=
  inferInstanceAs (Decidable (∃ cmd ∈ _, _))

instance (ops : List CacheOp) (name : Bytes) : Decidable (FreezesAll ops name) :=
  inferInstanceAs (Decidable (∃ cmd ∈ _, _))

namespace MarkRound

theorem freezes (h : MarkRound S ops c1 c2) (name address : Bytes) (base : Bool) :
    mark RestrictedType.isFreeze c1.newRestrictedAddress ∅ (name, address) base =
        (if Freezes ops name address then !checkForAddressRestriction S ∅ name address else base) ∧
      mark RestrictedType.isFreeze c2.newRestrictedAddress ∅ (name, address) base =
        (if Freezes ops name address then checkForAddressRestriction S ∅ name address else base) := by
  obtain ⟨undo, hundo, hundone⟩ := h.undone
  have hf1 : c1.newRestrictedAddress = _ :=
    (congrArg MarkRecords.freezes h.done).trans (MarkRecords.foldl_exec_eq _ _).2.1
  have hf2 : c2.newRestrictedAddress = _ :=
    (congrArg MarkRecords.freezes hundone).trans (MarkRecords.foldl_exec_eq _ _).2.1
  rw [hf1, hf2]
  refine mark_round _ (fun _ => mem_filterMap_inverse CacheOp.freezeCmd_inverse hundo) ?_ base
  intro cmd hcmd hk
  obtain ⟨op, hop, hcmd⟩ := mem_filterMap.mp hcmd
  have hv := h.verified op hop
  cases op <;> cases hcmd
  · cases hk; exact hv
  · exact hv.elim

theorem globals (h : MarkRound S ops c1 c2) (name : Bytes) (base : Bool) :
    mark isFreeze c1.newRestrictedGlobal ∅ name base =
        (if FreezesAll ops name then !checkForGlobalRestriction S ∅ name else base) ∧
      mark isFreeze c2.newRestrictedGlobal ∅ name base =
        (if FreezesAll ops name then checkForGlobalRestriction S ∅ name else base) := by
  obtain ⟨undo, hundo, hundone⟩ := h.undone
  have hg1 : c1.newRestrictedGlobal = _ :=
    (congrArg MarkRecords.globals h.done).trans (MarkRecords.foldl_exec_eq _ _).2.2
  have hg2 : c2.newRestrictedGlobal = _ :=
    (congrArg MarkRecords.globals hundone).trans (MarkRecords.foldl_exec_eq _ _).2.2
  rw [hg1, hg2]
  refine mark_round _ (fun _ => mem_filterMap_inverse CacheOp.globalCmd_inverse hundo) ?_ base
  intro cmd hcmd hk
  obtain ⟨op, hop, hcmd⟩ := mem_filterMap.mp hcmd
  have hv := h.verified op hop
  cases op <;> cases hcmd
  · cases hk; exact hv
  · exact hv.elim

theorem checkForAddressRestriction_eq (h : MarkRound S ops c1 c2) (d1 d2 : Bool) (name address : Bytes) :
    checkForAddressRestriction (S.afterRound E d1 d2 c1 c2) ∅ name address =
      checkForAddressRestriction S ∅ name address := by
  rw [Store.afterRound, checkForAddressRestriction_dumpIf, checkForAddressRestriction_flushed,
    checkForAddressRestriction_dumpIf, checkForAddressRestriction_flushed, (h.freezes name address _).2,
    (h.freezes name address _).1]
  split <;> rfl

theorem checkForGlobalRestriction_eq (h : MarkRound S ops c1 c2) (d1 d2 : Bool) (name : Bytes) :
    checkForGlobalRestriction (S.afterRound E d1 d2 c1 c2) ∅ name = checkForGlobalRestriction S ∅ name := by
  rw [Store.afterRound, checkForGlobalRestriction_dumpIf, checkForGlobalRestriction_flushed,
    checkForGlobalRestriction_dumpIf, checkForGlobalRestriction_flushed, (h.globals name _).2,
    (h.globals name _).1]
  split <;> rfl

end MarkRound

/-! ## Tags -/

def Tags (ops : List CacheOp) (tag address : Bytes) : Prop :=
  ∃ cmd ∈ ops.filterMap CacheOp.tagCmd, cmd.key = (tag, address)

instance (ops : List CacheOp) (tag address : Bytes) : Decidable (Tags ops tag address) :=
  inferInstanceAs (Decidable (∃ cmd ∈ _, _))

def TagsSub (ops : List CacheOp) (qualifier address : Bytes) : Prop :=
  ∃ tag, SubOf qualifier tag ∧ Tags ops tag address

theorem carries_dumpIf (d : Bool) (tag address : Bytes) :
    carries (S.dumpIf E d) tag address = carries S tag address := by
  cases d with
  | false => rfl
  | true => exact carries_dump tag address

theorem Store.MarksCoherent.dumpIf (h : S.MarksCoherent) (E : Env) (d : Bool) : (S.dumpIf E d).MarksCoherent := by
  cases d with
  | false => exact h
  | true => exact h.dump E

theorem slot_flush_eq_empty {c key} :
    (S.flush c).passets.newQualifierAddress.slot key = ∅ ↔
      S.passets.newQualifierAddress.slot key = ∅ ∧ c.newQualifierAddress.slot key = ∅ := by
  rw [show (S.flush c).passets.newQualifierAddress.slot key = _ from slot_flushOver _ _ _]
  exact Slot.flushOver_eq_empty

theorem notesSub_flush (S : Store) (c : CAssetsCache) (qualifier address : Bytes) :
    NotesSub (S.flush c) qualifier address ↔
      NotesSub S qualifier address ∨ c.marks.noted (qualifier, address) ≠ ∅ := by
  simp only [NotesSub, getD_rootAdd_flush, ne_eq, Finset.union_eq_empty, not_and_or]
  exact or_right_comm

namespace MarkRound

theorem tags (h : MarkRound S ops c1 c2) (tag address : Bytes) (base : Bool) :
    mark QualifierType.isAdd c1.newQualifierAddress ∅ (tag, address) base =
        (if Tags ops tag address then !checkForAddressQualifier S ∅ tag address else base) ∧
      mark QualifierType.isAdd c2.newQualifierAddress ∅ (tag, address) base =
        (if Tags ops tag address then checkForAddressQualifier S ∅ tag address else base) := by
  obtain ⟨undo, hundo, hundone⟩ := h.undone
  have ht1 : c1.newQualifierAddress = _ :=
    (congrArg MarkRecords.tags h.done).trans (MarkRecords.foldl_exec_eq _ _).1
  have ht2 : c2.newQualifierAddress = _ :=
    (congrArg MarkRecords.tags hundone).trans (MarkRecords.foldl_exec_eq _ _).1
  rw [ht1, ht2]
  refine mark_round _ (fun _ => mem_filterMap_inverse CacheOp.tagCmd_inverse hundo) ?_ base
  intro cmd hcmd hk
  obtain ⟨op, hop, hcmd⟩ := mem_filterMap.mp hcmd
  have hv := h.verified op hop
  cases op <;> cases hcmd
  · cases hk; exact hv.2
  · exact hv.elim

theorem slot_eq_empty (h : MarkRound S ops c1 c2) (tag address : Bytes) :
    (c1.newQualifierAddress.slot (tag, address) = ∅ ↔ ¬ Tags ops tag address) ∧
      (c2.newQualifierAddress.slot (tag, address) = ∅ ↔ ¬ Tags ops tag address) := by
  obtain ⟨undo, hundo, hundone⟩ := h.undone
  have ht1 : c1.newQualifierAddress = _ :=
    (congrArg MarkRecords.tags h.done).trans (MarkRecords.foldl_exec_eq _ _).1
  have ht2 : c2.newQualifierAddress = _ :=
    (congrArg MarkRecords.tags hundone).trans (MarkRecords.foldl_exec_eq _ _).1
  have hempty : (∅ : CAssetsCache).marks.tags.slot (tag, address) = ∅ := slot_empty _
  rw [ht1, ht2, slot_foldl_exec_eq_empty, slot_foldl_exec_eq_empty, Tags]
  simp only [mem_filterMap_inverse CacheOp.tagCmd_inverse hundo, hempty, and_true, not_exists, not_and,
    forall_exists_index, and_imp, true_and]
  constructor
  · intro hno cmd hcmd hk
    exact hno cmd.inverse cmd hcmd rfl (by rwa [Pending.Cmd.key_inverse])
  · rintro hno _ cmd hcmd rfl hk
    exact hno cmd hcmd (by rwa [Pending.Cmd.key_inverse] at hk)

theorem isTag (h : MarkRound S ops c1 c2) {tag address} (ht : Tags ops tag address) : IsTag tag := by
  obtain ⟨cmd, hcmd, hk⟩ := ht
  obtain ⟨op, hop, hcmd⟩ := mem_filterMap.mp hcmd
  have hv := h.verified op hop
  cases op <;> cases hcmd
  · cases hk; exact hv.1
  · exact hv.elim

theorem notesUnder_iff (h : MarkRound S ops c1 c2) (qualifier address : Bytes) :
    (∃ op ∈ ops, op.NotesUnder (qualifier, address)) ↔ TagsSub ops qualifier address := by
  constructor
  · rintro ⟨op, hop, hnotes⟩
    have hv := h.verified op hop
    have hw : op.WellNamed := by cases op <;> first | trivial | exact hv.1
    obtain ⟨tag, gets, hnote, -, hsub, -⟩ := hnotes.parent hw
    refine ⟨tag, hsub, ?_⟩
    cases op <;> cases hnote
    · exact ⟨_, mem_filterMap.mpr ⟨_, hop, rfl⟩, rfl⟩
    · exact hv.elim
  · rintro ⟨tag, hsub, htag⟩
    obtain ⟨hs, hparent, -⟩ := hsub.parent (h.isTag htag)
    obtain ⟨cmd, hcmd, hk⟩ := htag
    obtain ⟨op, hop, hcmd⟩ := mem_filterMap.mp hcmd
    have hv := h.verified op hop
    refine ⟨op, hop, ?_⟩
    cases op <;> cases hcmd
    · cases hk
      exact ⟨_, _, _, rfl, (subQualifier_shape hs).2.1, by rw [hparent]⟩
    · exact hv.elim

theorem noted_ne_empty (h : MarkRound S ops c1 c2) (qualifier address : Bytes) :
    (c1.marks.noted (qualifier, address) ≠ ∅ ↔ TagsSub ops qualifier address) ∧
      (c2.marks.noted (qualifier, address) ≠ ∅ ↔ TagsSub ops qualifier address) := by
  have hempty : ¬ (∅ : CAssetsCache).marks.noted (qualifier, address) ≠ ∅ := by
    simp [noted, Table.getD, CAssetsCache.marks,
      show (∅ : CAssetsCache).mapRootQualifierAddressesAdd = ∅ from rfl,
      show (∅ : CAssetsCache).mapRootQualifierAddressesRemove = ∅ from rfl]
  obtain ⟨undo, hundo, hundone⟩ := h.undone
  rw [← h.notesUnder_iff, h.done, hundone, noted_foldl_ne_empty, noted_foldl_ne_empty]
  refine ⟨or_iff_right hempty, (or_iff_right hempty).trans ?_⟩
  simp only [hundo]
  constructor
  · rintro ⟨_, ⟨op, hop, rfl⟩, hn⟩
    exact ⟨op, hop, CacheOp.notesUnder_inverse.mp hn⟩
  · rintro ⟨op, hop, hn⟩
    exact ⟨op.inverse, ⟨op, hop, rfl⟩, CacheOp.notesUnder_inverse.mpr hn⟩

theorem carries_flushed (h : MarkRound S ops c1 c2) (tag address : Bytes) :
    carries (S.flush c1) tag address =
      if Tags ops tag address then !checkForAddressQualifier S ∅ tag address else carries S tag address := by
  rw [carries_flush, (h.tags tag address _).1]

theorem carries_eq (h : MarkRound S ops c1 c2) (d1 d2 : Bool) (tag address : Bytes) :
    carries (S.afterRound E d1 d2 c1 c2) tag address =
      if Tags ops tag address then checkForAddressQualifier S ∅ tag address else carries S tag address := by
  rw [Store.afterRound, carries_dumpIf, carries_flush, (h.tags tag address _).2, carries_dumpIf, h.carries_flushed]
  split <;> rfl

theorem carriesSub_iff (h : MarkRound S ops c1 c2) (hn : TagNames S) (hcoh : S.MarksCoherent) (d1 d2 : Bool)
    (qualifier address : Bytes) :
    CarriesSub (S.afterRound E d1 d2 c1 c2) qualifier address ↔ CarriesSub S qualifier address := by
  refine exists_congr fun tag => and_congr_right fun hsub => ?_
  rw [h.carries_eq]
  split
  · rename_i ht
    obtain ⟨-, -, front, sub, hname, -⟩ := subQualifier_shape (hsub.parent (h.isTag ht)).1
    rw [checkForAddressQualifier_sub hn hcoh.qualifier (by rw [hname]; simp)]
  · rfl

end MarkRound

/-- What a qualifier needs to be reported after the round as before. -/
structure TagsRestorable (S : Store) (ops : List CacheOp) (qualifier address : Bytes) : Prop where
  /-- a qualifier that is given has no carried sub-qualifier -/
  changed : Tags ops qualifier address → CarriesSub S qualifier address →
    checkForAddressQualifier S ∅ qualifier address = true
  /-- the sources of a qualifier that is left alone agree -/
  settled : ¬ Tags ops qualifier address → TagsSettled S qualifier address
  /-- a sub-qualifier is given or taken only where the qualifier is reported anyway -/
  sub : ¬ Tags ops qualifier address → TagsSub ops qualifier address →
    checkForAddressQualifier S ∅ qualifier address = true

section

variable (h : MarkRound S ops c1 c2) (hcoh : S.MarksCoherent) (qualifier address : Bytes)
include h hcoh

theorem checkForAddressQualifier_dumped (hn : TagNames S) (d : Bool) :
    checkForAddressQualifier (S.afterRound E d true c1 c2) ∅ qualifier address = true ↔
      (if Tags ops qualifier address then checkForAddressQualifier S ∅ qualifier address
        else carries S qualifier address) = true ∨ CarriesSub S qualifier address := by
  have hc : (((S.flush c1).dumpIf E d).flush c2).MarksCoherent := ((hcoh.flush c1).dumpIf E d).flush c2
  refine (checkForAddressQualifier_dump hc qualifier address).trans ?_
  rw [Carries, ← h.carries_eq (E := E) d false, ← h.carriesSub_iff (E := E) hn hcoh d false]
  rfl

omit hcoh in
theorem checkForAddressQualifier_changed (ht : Tags ops qualifier address) (d : Bool) :
    checkForAddressQualifier (S.afterRound E d false c1 c2) ∅ qualifier address =
      checkForAddressQualifier S ∅ qualifier address := by
  rw [checkForAddressQualifier_pending, h.carries_eq, if_pos ht]
  intro hs
  exact (h.slot_eq_empty qualifier address).2.mp (slot_flush_eq_empty.mp hs).2 ht

theorem checkForAddressQualifier_undumped (ht : ¬ Tags ops qualifier address) :
    checkForAddressQualifier (S.afterRound E false false c1 c2) ∅ qualifier address = true ↔
      checkForAddressQualifier S ∅ qualifier address = true ∨
        S.passets.newQualifierAddress.slot (qualifier, address) = ∅ ∧ TagsSub ops qualifier address := by
  have hslot : (S.afterRound E false false c1 c2).passets.newQualifierAddress.slot (qualifier, address) = ∅ ↔
      S.passets.newQualifierAddress.slot (qualifier, address) = ∅ := by
    have h1 := (h.slot_eq_empty qualifier address).1.mpr ht
    have h2 := (h.slot_eq_empty qualifier address).2.mpr ht
    exact slot_flush_eq_empty.trans ((and_iff_left h2).trans (slot_flush_eq_empty.trans (and_iff_left h1)))
  by_cases hs : S.passets.newQualifierAddress.slot (qualifier, address) = ∅
  · have hc : (S.afterRound E false false c1 c2).MarksCoherent := (hcoh.flush c1).flush c2
    rw [checkForAddressQualifier_stored hc.qualifier (hslot.mpr hs),
      checkForAddressQualifier_stored hcoh.qualifier hs]
    have hnotes : NotesSub (S.afterRound E false false c1 c2) qualifier address ↔
        NotesSub S qualifier address ∨ TagsSub ops qualifier address := by
      obtain ⟨hn1, hn2⟩ := h.noted_ne_empty qualifier address
      have h1 := notesSub_flush S c1 qualifier address
      have h2 := notesSub_flush (S.flush c1) c2 qualifier address
      rw [hn1] at h1
      rw [hn2, h1, or_assoc, or_self] at h2
      exact h2
    rw [hnotes, and_iff_right hs, ← or_assoc]
    rfl
  · rw [checkForAddressQualifier_pending (mt hslot.mp hs), checkForAddressQualifier_pending hs, h.carries_eq,
      if_neg ht]
    simp [hs]

/-- A dump in between stores what is carried, and undoing notes the sub-qualifiers anew. -/
theorem checkForAddressQualifier_dumpedBetween (ht : ¬ Tags ops qualifier address) :
    checkForAddressQualifier (S.afterRound E true false c1 c2) ∅ qualifier address = true ↔
      Carries S qualifier address ∨ TagsSub ops qualifier address := by
  have hc : (S.afterRound E true false c1 c2).MarksCoherent := ((hcoh.flush c1).dump E).flush c2
  have hslot : (S.afterRound E true false c1 c2).passets.newQualifierAddress.slot (qualifier, address) = ∅ :=
    slot_flush_eq_empty.mpr ⟨slot_empty _, (h.slot_eq_empty qualifier address).2.mpr ht⟩
  have hstored : (qualifier, address) ∈ (S.afterRound E true false c1 c2).addressQualifier.stored ↔
      carries S qualifier address = true := by
    have hmem : (qualifier, address) ∈ ((S.flush c1).dumpCacheToDatabase E).addressQualifier.stored ↔ _ :=
      mem_stored_dump
    rwa [h.carries_flushed, if_neg ht] at hmem
  have hnotes : NotesSub (S.afterRound E true false c1 c2) qualifier address ↔
      CarriesSub (S.flush c1) qualifier address ∨ TagsSub ops qualifier address := by
    have := notesSub_flush ((S.flush c1).dumpCacheToDatabase E) c2 qualifier address
    rwa [notesSub_dump, (h.noted_ne_empty qualifier address).2] at this
  -- tags that the block changes are noted, the others are carried as in `S`
  have hsub : CarriesSub (S.flush c1) qualifier address ∨ TagsSub ops qualifier address ↔
      CarriesSub S qualifier address ∨ TagsSub ops qualifier address := by
    constructor
    · rintro (⟨tag, hsub, hcar⟩ | hsub)
      · by_cases htag : Tags ops tag address
        · exact Or.inr ⟨tag, hsub, htag⟩
        · rw [h.carries_flushed, if_neg htag] at hcar
          exact Or.inl ⟨tag, hsub, hcar⟩
      · exact Or.inr hsub
    · rintro (⟨tag, hsub, hcar⟩ | hsub)
      · by_cases htag : Tags ops tag address
        · exact Or.inr ⟨tag, hsub, htag⟩
        · exact Or.inl ⟨tag, hsub, by rw [h.carries_flushed, if_neg htag]; exact hcar⟩
      · exact Or.inr hsub
  rw [checkForAddressQualifier_stored hc.qualifier hslot, hstored, hnotes, hsub, Carries, or_assoc]

end

/-- A qualifier is reported as before the round just if it is restorable. -/
theorem checkForAddressQualifier_round_iff {c2 : Bool → CAssetsCache} (h : ∀ d, MarkRound S ops c1 (c2 d))
    (hcoh : S.MarksCoherent) (hn : TagNames S) (qualifier address : Bytes) :
    (∀ d1 d2, checkForAddressQualifier (S.afterRound E d1 d2 c1 (c2 d1)) ∅ qualifier address =
      checkForAddressQualifier S ∅ qualifier address) ↔ TagsRestorable S ops qualifier address := by
  have hdumped := fun d => checkForAddressQualifier_dumped (E := E) (h d) hcoh qualifier address hn d
  by_cases ht : Tags ops qualifier address
  · simp only [if_pos ht] at hdumped
    constructor
    · intro hall
      refine ⟨fun _ hsub => ?_, absurd ht, absurd ht⟩
      rw [← hall true true, hdumped]
      exact Or.inr hsub
    · intro hres d1 d2
      cases d2 with
      | false => exact checkForAddressQualifier_changed (h d1) qualifier address ht d1
      | true => exact Bool.eq_iff_iff.mpr ((hdumped d1).trans (or_iff_left_of_imp (hres.changed ht)))
  · simp only [if_neg ht] at hdumped
    have hset := checkForAddressQualifier_iff hcoh.qualifier qualifier address
    have hbetween := checkForAddressQualifier_dumpedBetween (E := E) (h true) hcoh qualifier address ht
    constructor
    · intro hall
      refine ⟨fun h => absurd h ht, fun _ => hset.mp ?_, fun _ hsub => ?_⟩
      · rw [← hall true true]
        exact hdumped true
      · rw [← hall true false]
        exact hbetween.mpr (Or.inr hsub)
    · intro hres d1 d2
      have hans := hset.mpr (hres.settled ht)
      refine Bool.eq_iff_iff.mpr ?_
      cases d2 with
      | true => exact (hdumped d1).trans hans.symm
      | false => cases d1 with
        | true => rw [hbetween, ← hans, or_iff_left_of_imp (hres.sub ht)]
        | false =>
          rw [checkForAddressQualifier_undumped (h false) hcoh qualifier address ht]
          exact or_iff_left_of_imp fun hs => hres.sub ht hs.2

end Hivecoin

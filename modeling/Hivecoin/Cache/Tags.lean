import Hivecoin.Assets.Lemmas.Name
import Hivecoin.Cache.Reachable

/-!
# The tags an address carries

A qualifier should be reported where it or a sub-qualifier of it is carried, pending or stored.
-/

namespace Hivecoin

open CAssetsCache Pending QualifierType List

variable {address qualifier tag : Bytes}

/-- `tag` is a sub-qualifier of `qualifier`. -/
def SubOf (qualifier tag : Bytes) : Prop := (qualifier ++ [SUB_NAME_DELIMITER]).isPrefixOf tag = true

/-- The address carries the tag itself: pending commands over what is stored. -/
def carries (S : Store) (tag address : Bytes) : Bool :=
  mark isAdd ∅ S.passets.newQualifierAddress (tag, address)
    (decide ((tag, address) ∈ S.addressQualifier.stored))

def CarriesSub (S : Store) (qualifier address : Bytes) : Prop :=
  ∃ tag, SubOf qualifier tag ∧ carries S tag address = true

/-- The address carries the qualifier or one of its sub-qualifiers. -/
def Carries (S : Store) (qualifier address : Bytes) : Prop :=
  carries S qualifier address = true ∨ CarriesSub S qualifier address

/-- The store has noted a sub-qualifier, in memory or in the database. -/
def NotesSub (S : Store) (qualifier address : Bytes) : Prop :=
  S.passets.mapRootQualifierAddressesAdd.getD (qualifier, address) ∅ ≠ ∅ ∨
    ∃ tag, SubOf qualifier tag ∧ (tag, address) ∈ S.addressQualifier.stored

/-- The sources of a qualifier agree with the tags that are carried. -/
structure TagsSettled (S : Store) (qualifier address : Bytes) : Prop where
  /-- a qualifier that is pending removal has no carried sub-qualifier -/
  removed : S.passets.newQualifierAddress.slot (qualifier, address) ≠ ∅ →
    carries S qualifier address = false → ¬ CarriesSub S qualifier address
  /-- without an exact entry, sub-qualifiers are noted just where some are carried -/
  noted : S.passets.newQualifierAddress.slot (qualifier, address) = ∅ →
    (qualifier, address) ∉ S.addressQualifier.stored →
    (NotesSub S qualifier address ↔ CarriesSub S qualifier address)

variable {E : Env} {S : Store}

theorem carries_dump (tag address : Bytes) :
    carries (S.dumpCacheToDatabase E) tag address = carries S tag address := by
  show decide ((tag, address) ∈
    (S.passets.newQualifierAddress.dumpMarks isAdd S.addressQualifier).stored) = _
  exact mem_stored_dumpMarks _ _ _ _

theorem carries_dump_iff (qualifier address : Bytes) :
    Carries (S.dumpCacheToDatabase E) qualifier address ↔ Carries S qualifier address := by
  simp only [Carries, CarriesSub, carries_dump]

theorem rootQualifier_iff (h : S.addressQualifier.Coherent) (qualifier address : Bytes) :
    rootQualifier S ∅ qualifier address = true ↔
      (qualifier, address) ∈ S.addressQualifier.stored ∨ NotesSub S qualifier address := by
  have hempty : (∅ : CAssetsCache).mapRootQualifierAddressesAdd.getD (qualifier, address) ∅ = ∅ := by
    simp [show (∅ : CAssetsCache).mapRootQualifierAddressesAdd = ∅ from rfl, Table.getD]
  simp only [rootQualifier, hempty, h.has_eq, checkForAddressRootQualifier, NotesSub, SubOf, Outcome.test_iff, ne_eq,
    not_true_eq_false, false_or]
  constructor
  · rintro ((hr | hs) | ⟨⟨tag, _⟩, hs, rfl, rfl | hp⟩)
    · exact Or.inr (Or.inl hr)
    · exact Or.inl hs
    · exact Or.inl hs
    · exact Or.inr (Or.inr ⟨tag, hp, hs⟩)
  · rintro (hs | hr | ⟨tag, hp, hs⟩)
    · exact Or.inl (Or.inr hs)
    · exact Or.inl (Or.inl hr)
    · exact Or.inr ⟨(tag, address), hs, rfl, Or.inr hp⟩

theorem checkForAddressQualifier_pending (hs : S.passets.newQualifierAddress.slot (qualifier, address) ≠ ∅) :
    checkForAddressQualifier S ∅ qualifier address = carries S qualifier address := by
  show (∅ : Pending (Bytes × Bytes) QualifierType).read _ _ _ _ _ =
    (∅ : Pending (Bytes × Bytes) QualifierType).read _ _ _ _ _
  exact Slot.read_base (fun _ => hs) _ _ _ _

theorem checkForAddressQualifier_stored (h : S.addressQualifier.Coherent)
    (hs : S.passets.newQualifierAddress.slot (qualifier, address) = ∅) :
    checkForAddressQualifier S ∅ qualifier address = true ↔
      (qualifier, address) ∈ S.addressQualifier.stored ∨ NotesSub S qualifier address := by
  have hans : checkForAddressQualifier S ∅ qualifier address = rootQualifier S ∅ qualifier address := by
    show (∅ : Pending (Bytes × Bytes) QualifierType).read _ _ _ _ _ = _
    rw [Pending.read, hs, Pending.slot_empty]; rfl
  rw [hans, rootQualifier_iff h]

theorem carries_stored (hs : S.passets.newQualifierAddress.slot (tag, address) = ∅) :
    carries S tag address = decide ((tag, address) ∈ S.addressQualifier.stored) := by
  show (∅ : Pending (Bytes × Bytes) QualifierType).read _ _ _ _ _ = _
  rw [Pending.read, hs, Pending.slot_empty]; rfl

theorem checkForAddressQualifier_iff (h : S.addressQualifier.Coherent) (qualifier address : Bytes) :
    (checkForAddressQualifier S ∅ qualifier address = true ↔ Carries S qualifier address) ↔
      TagsSettled S qualifier address := by
  by_cases hs : S.passets.newQualifierAddress.slot (qualifier, address) = ∅
  · rw [checkForAddressQualifier_stored h hs, Carries, carries_stored hs, decide_eq_true_eq]
    refine ⟨fun hiff => ⟨fun hne => absurd hs hne, fun _ hno => by simpa [hno] using hiff⟩, fun hset => ?_⟩
    by_cases hst : (qualifier, address) ∈ S.addressQualifier.stored
    · simp [hst]
    · simpa [hst] using hset.noted hs hst
  · rw [checkForAddressQualifier_pending hs, Carries]
    refine ⟨fun hiff => ⟨fun _ hno hsub => ?_, fun he => absurd he hs⟩, fun hset => ?_⟩
    · rw [hno] at hiff
      exact absurd (hiff.mpr (Or.inr hsub)) (by decide)
    · cases hc : carries S qualifier address with
      | true => simp
      | false => simpa using hset.removed hs hc

theorem mem_stored_dump :
    (tag, address) ∈ (S.dumpCacheToDatabase E).addressQualifier.stored ↔ carries S tag address = true := by
  rw [← carries_dump (E := E), carries_stored (slot_empty _), decide_eq_true_eq]

theorem notesSub_dump :
    NotesSub (S.dumpCacheToDatabase E) qualifier address ↔ CarriesSub S qualifier address := by
  have hroots : (S.dumpCacheToDatabase E).passets.mapRootQualifierAddressesAdd.getD (qualifier, address) ∅ = ∅ := by
    show (∅ : Table (Bytes × Bytes) (Finset Bytes)).getD _ _ = _
    simp [Table.getD]
  simp only [NotesSub, CarriesSub, hroots, ne_eq, not_true_eq_false, false_or, mem_stored_dump]

theorem checkForAddressQualifier_dump (h : S.MarksCoherent) (qualifier address : Bytes) :
    checkForAddressQualifier (S.dumpCacheToDatabase E) ∅ qualifier address = true ↔
      Carries S qualifier address := by
  rw [checkForAddressQualifier_stored (h.dump E).qualifier (slot_empty _), mem_stored_dump, notesSub_dump,
    Carries]

theorem SubOf.parent (h : SubOf qualifier tag) (htag : IsTag tag) :
    assetTypeOf tag = .SUB_QUALIFIER ∧ getParentName tag = qualifier ∧ SUB_NAME_DELIMITER ∉ qualifier := by
  obtain ⟨rest, hrest⟩ := isPrefixOf_iff_prefix.mp h
  rw [append_assoc, singleton_append] at hrest
  rcases htag with hq | hs
  · exact absurd (by rw [← hrest]; simp) (qualifier_shape hq).2
  · obtain ⟨-, -, front, sub, hname, hfront, hsub, hparent⟩ := subQualifier_shape hs
    have heq := append_cons_inj_of_not_mem (hname.symm.trans hrest.symm) hfront hsub
    exact ⟨hs, hparent.trans heq, heq ▸ hfront⟩

theorem subOf_parent (h : assetTypeOf tag = .SUB_QUALIFIER) : SubOf (getParentName tag) tag := by
  obtain ⟨-, -, front, sub, hname, -, -, hparent⟩ := subQualifier_shape h
  rw [SubOf, hparent, isPrefixOf_iff_prefix, hname]
  exact ⟨sub, by simp⟩

/-- The stored tags have names of tags, noted under root qualifiers. -/
structure TagNames (S : Store) : Prop where
  stored : ∀ tag address, (tag, address) ∈ S.addressQualifier.stored → IsTag tag
  pending : ∀ tag address, S.passets.newQualifierAddress.slot (tag, address) ≠ ∅ → IsTag tag
  roots : ∀ qualifier address,
    S.passets.mapRootQualifierAddressesAdd.getD (qualifier, address) ∅ ≠ ∅ → SUB_NAME_DELIMITER ∉ qualifier

theorem CacheOp.NotesUnder.parent {op : CacheOp} {key : Bytes × Bytes} (h : op.NotesUnder key)
    (hop : op.WellNamed) : ∃ tag gets, op.rootNote = some (tag, key.2, gets) ∧ IsTag tag ∧ SubOf key.1 tag ∧
      SUB_NAME_DELIMITER ∉ key.1 := by
  obtain ⟨tag, address, gets, hn, hsub, rfl⟩ := h
  have htag : IsTag tag := by
    cases op <;> first | (cases hn; exact hop) | cases hn
  have hs : assetTypeOf tag = .SUB_QUALIFIER := by
    rcases htag with hq | hs
    · rw [isAssetNameASubQualifier_eq_false (qualifier_shape hq).2] at hsub
      cases hsub
    · exact hs
  have hunder := subOf_parent hs
  exact ⟨tag, gets, hn, htag, hunder, (hunder.parent htag).2.2⟩

theorem mem_filter_tagCmd {ops : List CacheOp} {cmd}
    (h : cmd ∈ (ops.filter CacheOp.isMark).filterMap CacheOp.tagCmd) : ∃ op ∈ ops, op.tagCmd = some cmd := by
  obtain ⟨op, hop, hcmd⟩ := mem_filterMap.mp h
  exact ⟨op, (mem_filter.mp hop).1, hcmd⟩

theorem TagNames.flush {S : Store} {c : CAssetsCache} {ops : List CacheOp} (h : TagNames S)
    (hc : runOps E S ∅ ops = some c) (hops : ∀ op ∈ ops, op.WellNamed) : TagNames (S.flush c) := by
  have hmarks := runOps_marks hc
  refine ⟨h.stored, fun tag address hne => ?_, fun qualifier address hne => ?_⟩
  · have hslot : (S.flush c).passets.newQualifierAddress.slot (tag, address) =
        (S.passets.newQualifierAddress.slot (tag, address)).flushOver (c.newQualifierAddress.slot (tag, address)) :=
      slot_flushOver _ _ _
    by_cases hl : c.newQualifierAddress.slot (tag, address) = ∅
    · rw [hslot, hl] at hne
      exact h.pending tag address hne
    · have htags : c.newQualifierAddress =
          ((ops.filter CacheOp.isMark).filterMap CacheOp.tagCmd).foldl exec ∅ := by
        have := congrArg MarkRecords.tags hmarks
        rwa [(MarkRecords.foldl_exec_eq _ _).1] at this
      by_contra htag
      refine hl ?_
      rw [htags, slot_foldl_exec_eq_empty]
      refine ⟨fun cmd hcmd hkey => htag ?_, slot_empty _⟩
      obtain ⟨op, hop, hcmd⟩ := mem_filter_tagCmd hcmd
      have hw := hops op hop
      cases op <;> first
        | (cases hcmd; obtain ⟨rfl, rfl⟩ := Prod.mk.inj hkey; exact hw)
        | cases hcmd
  · rw [getD_rootAdd_flush, ne_eq, Finset.union_eq_empty, not_and_or] at hne
    rcases hne with hne | hne
    · exact h.roots qualifier address hne
    · rw [hmarks] at hne
      rcases (MarkRecords.noted_foldl_ne_empty _ _ _).mp hne with hne | ⟨op, hop, hnotes⟩
      · exact absurd rfl hne
      · obtain ⟨_, _, _, _, _, hno⟩ := hnotes.parent (hops op (mem_filter.mp hop).1)
        exact hno

theorem TagNames.dump {S} (h : TagNames S) (E : Env) : TagNames (S.dumpCacheToDatabase E) := by
  refine ⟨fun tag address hmem => ?_, fun tag address hne => ?_, fun qualifier address hne => ?_⟩
  · by_cases hs : S.passets.newQualifierAddress.slot (tag, address) = ∅
    · have hst := Pending.mem_stored_dumpMarks isAdd S.passets.newQualifierAddress
        S.addressQualifier (tag, address)
      have hmem' : decide ((tag, address) ∈ (S.passets.newQualifierAddress.dumpMarks isAdd
        S.addressQualifier).stored) = true := decide_eq_true hmem
      rw [hmem', Pending.mark, Pending.read, hs, Pending.slot_empty] at hst
      exact h.stored tag address (of_decide_eq_true hst.symm)
    · exact h.pending tag address hs
  · exact absurd (Pending.slot_empty _) hne
  · exact absurd (by rw [show (S.dumpCacheToDatabase E).passets = ∅ from rfl]; simp [Table.getD,
      show (∅ : CAssetsCache).mapRootQualifierAddressesAdd = ∅ from rfl]) hne

theorem TagNames.cacheEvent {S} (h : TagNames S) (event : Store.CacheEvent) :
    TagNames (S.cacheEvent event) := by
  cases event with
  | fillQualifier key =>
    refine ⟨fun tag address hmem => h.stored tag address ?_, h.pending, h.roots⟩
    simp only [Store.cacheEvent, Store.fillMark] at hmem
    split at hmem <;> exact hmem
  | _ => exact ⟨h.stored, h.pending, h.roots⟩

theorem Store.Reachable.tagNames {S} (h : Store.Reachable E S) : TagNames S := by
  induction h with
  | empty =>
    refine ⟨fun _ _ hmem => absurd hmem (Finset.notMem_empty _), fun _ _ hne => ?_, fun _ _ hne => ?_⟩
    · exact absurd (slot_empty _) hne
    · exact absurd (by simp [Table.getD, show (∅ : Store).passets.mapRootQualifierAddressesAdd = ∅ from rfl]) hne
  | flush _ hc hops ih => exact ih.flush hc hops
  | dump _ ih => exact ih.dump E
  | cacheEvent _ event ih => exact ih.cacheEvent event

theorem checkForAddressQualifier_sub (hn : TagNames S) (hcoh : S.addressQualifier.Coherent) (htag : SUB_NAME_DELIMITER ∈ tag)
    (address : Bytes) :
    checkForAddressQualifier S ∅ tag address = carries S tag address := by
  have hsub : ¬ CarriesSub S tag address := by
    rintro ⟨t, hsub, hcar⟩
    refine (hsub.parent ?_).2.2 htag
    by_cases hs : S.passets.newQualifierAddress.slot (t, address) = ∅
    · rw [carries_stored hs] at hcar
      exact hn.stored t address (of_decide_eq_true hcar)
    · exact hn.pending t address hs
  have hnotes : ¬ NotesSub S tag address := by
    rintro (hr | ⟨t, hsub, hst⟩)
    · exact hn.roots tag address hr htag
    · exact (hsub.parent (hn.stored t address hst)).2.2 htag
  have hsettled : TagsSettled S tag address := ⟨fun _ _ => hsub, fun _ _ => iff_of_false hnotes hsub⟩
  have hiff := (checkForAddressQualifier_iff hcoh tag address).mpr hsettled
  rw [Carries, or_iff_left hsub] at hiff
  exact Bool.eq_iff_iff.mpr hiff

theorem carries_flush (S : Store) (c : CAssetsCache) (tag address : Bytes) :
    carries (S.flush c) tag address =
      mark isAdd c.newQualifierAddress ∅ (tag, address) (carries S tag address) :=
  mark_flushOver _ _ _ _ _

end Hivecoin

import Hivecoin.Assets.Name
import Hivecoin.Base.Outcome
import Mathlib.Data.List.TakeWhile

/-!
# Names and their parents
-/

namespace Hivecoin

open List Outcome

variable {c d : UInt8} {name s : Bytes} {type : AssetType}

theorem dropWhile_bne_append {front tail} (h : d ∉ front) :
    (front ++ d :: tail).dropWhile (· != d) = d :: tail := by
  induction front with
  | nil => simp
  | cons c front ih =>
    rw [mem_cons, not_or] at h
    have hc : (c != d) = true := bne_iff_ne.mpr (Ne.symm h.1)
    rw [cons_append, dropWhile_cons, if_pos hc]
    exact ih h.2

theorem beforeLast_append {d front tag} (h : d ∉ tag) : beforeLast d (front ++ d :: tag) = some front := by
  have hr : d ∉ tag.reverse := by simpa using h
  simp [beforeLast, dropWhile_bne_append hr]

theorem assetTypeOf_eq (h : isAssetNameValid name = .ok type) : assetTypeOf name = type := by
  simp [assetTypeOf, h]

theorem isAssetNameValid_eq (h : assetTypeOf name = type) (ht : type ≠ .INVALID) : isAssetNameValid name = .ok type := by
  unfold assetTypeOf at h
  split at h
  · rename_i hv; rw [hv, h]
  · exact absurd h.symm ht

def delimiterOf : AssetType → Option UInt8
  | .SUB | .SUB_QUALIFIER => some SUB_NAME_DELIMITER
  | .UNIQUE => some UNIQUE_TAG_DELIMITER
  | .MSGCHANNEL => some MSGCHANNEL_TAG_DELIMITER
  | .VOTE => some VOTE_TAG_DELIMITER
  | _ => none

theorem getParentName_append {front tag} (hd : delimiterOf (assetTypeOf (front ++ d :: tag)) = some d) (h : d ∉ tag) :
    getParentName (front ++ d :: tag) = front := by
  have hb := @beforeLast_append _ front _ h
  unfold assetTypeOf at hd
  unfold getParentName
  cases hv : isAssetNameValid (front ++ d :: tag) with
  | error e => simp [hv, delimiterOf] at hd
  | ok type =>
    rw [hv] at hd
    cases type <;> simp_all [delimiterOf]

/-- A restricted name has no parent of its own; the code goes by the text after the `$`. -/
theorem getParentName_restricted (h : assetTypeOf name = .RESTRICTED) : getParentName name = name := by
  simp [getParentName, isAssetNameValid_eq h (by decide)]

theorem tagIndicator_eq (h : tagIndicator d name = true) :
    ∃ front tag, front ≠ [] ∧ name = front ++ d :: tag ∧ ∀ c ∈ tag, isAfterTagChar c = true := by
  unfold tagIndicator at h
  split at h
  · rename_i c front d' tag hf hb
    simp only [test_iff, all_eq_true] at h
    refine ⟨c :: front, tag, by simp, ?_, h.2⟩
    rw [← takeWhile_append_dropWhile (p := isBeforeTagChar) (l := name), hf, hb, h.1.1]
  · cases h

theorem isAssetNameValid_ok (h : isAssetNameValid name = .ok type) :
    (type = .UNIQUE ∧ UNIQUE_INDICATOR name = true) ∨ (type = .MSGCHANNEL ∧ MSGCHANNEL_INDICATOR name = true) ∨
    (type = .OWNER ∧ OWNER_INDICATOR name = true) ∨ (type = .VOTE ∧ VOTE_INDICATOR name = true) ∨
    (type = (if isAssetNameASubQualifier name then .SUB_QUALIFIER else .QUALIFIER) ∧
      QUALIFIER_INDICATOR name = true) ∨
    (type = (if isAssetNameASubQualifier name then .SUB_QUALIFIER else .INVALID) ∧
      SUB_QUALIFIER_INDICATOR name = true) ∨
    (type = .RESTRICTED ∧ RESTRICTED_INDICATOR name = true) ∨
    (type = if isAssetNameASubasset name then .SUB else .ROOT) := by
  unfold isAssetNameValid at h
  split at h
  · cases h
  split at h
  · rename_i hi
    simp only [ok_iff] at h
    exact Or.inl ⟨h.2.symm, hi⟩
  right; split at h
  · rename_i hi
    simp only [ok_iff] at h
    exact Or.inl ⟨h.2.symm, hi⟩
  right; split at h
  · rename_i hi
    simp only [ok_iff] at h
    exact Or.inl ⟨h.2.symm, hi⟩
  right; split at h
  · rename_i hi
    simp only [ok_iff] at h
    exact Or.inl ⟨h.2.symm, hi⟩
  right; split at h
  · rename_i hi
    simp only [ok_iff] at h
    exact Or.inl ⟨h.2.symm, hi⟩
  right; split at h
  · rename_i hi
    simp only [ok_iff] at h
    exact Or.inl ⟨h.2.symm, hi⟩
  right; split at h
  · rename_i hi
    simp only [ok_iff] at h
    exact Or.inl ⟨h.2.symm, hi⟩
  · simp only [ok_iff] at h
    exact Or.inr h.2.symm

theorem uniqueIndicator_of_valid (h : isAssetNameValid name = .ok .UNIQUE) : UNIQUE_INDICATOR name = true := by
  rcases isAssetNameValid_ok h with ⟨-, h⟩ | ⟨h, -⟩ | ⟨h, -⟩ | ⟨h, -⟩ | ⟨h, -⟩ | ⟨h, -⟩ | ⟨h, -⟩ | h
  · exact h
  all_goals first | cases h | (split at h <;> cases h)

theorem restrictedIndicator_of_valid (h : isAssetNameValid name = .ok .RESTRICTED) :
    RESTRICTED_INDICATOR name = true := by
  rcases isAssetNameValid_ok h with ⟨h, -⟩ | ⟨h, -⟩ | ⟨h, -⟩ | ⟨h, -⟩ | ⟨h, -⟩ | ⟨h, -⟩ | ⟨-, h⟩ | h
  · cases h
  · cases h
  · cases h
  · cases h
  · split at h <;> cases h
  · split at h <;> cases h
  · exact h
  · split at h <;> cases h

theorem getParentName_unique_ne_nil (h : isAssetNameValid name = .ok .UNIQUE) : getParentName name ≠ [] := by
  obtain ⟨front, tag, hne, rfl, htag⟩ := tagIndicator_eq (uniqueIndicator_of_valid h)
  rw [getParentName_append (by rw [assetTypeOf_eq h]; rfl)]
  · exact hne
  · exact fun hd => absurd (htag _ hd) (by decide)

theorem not_mem_slash_of_all (h : s.all isNameChar = true) : SUB_NAME_DELIMITER ∉ s := by
  intro hd
  exact absurd (all_eq_true.mp h _ hd) (by decide)

theorem markedName_eq {n} (h : markedName c n s = true) :
    ∃ rest, s = c :: rest ∧ rest.all isNameChar = true := by
  unfold markedName at h
  split at h
  · rename_i d rest
    simp only [test_iff] at h
    exact ⟨rest, by rw [h.1.1], h.2⟩
  · cases h

def IsTag (name : Bytes) : Prop := assetTypeOf name = .QUALIFIER ∨ assetTypeOf name = .SUB_QUALIFIER

theorem not_mem_slash_of_qualifierIndicator (h : QUALIFIER_INDICATOR name = true) :
    SUB_NAME_DELIMITER ∉ name := by
  obtain ⟨rest, rfl, hrest⟩ := markedName_eq h
  rw [mem_cons, not_or]
  exact ⟨by decide, not_mem_slash_of_all hrest⟩

theorem isAssetNameASubQualifier_eq_false (h : SUB_NAME_DELIMITER ∉ name) :
    isAssetNameASubQualifier name = false := by
  simp [isAssetNameASubQualifier, splitParts, splitOn_eq_singleton h]

theorem qualifier_shape (h : assetTypeOf name = .QUALIFIER) :
    QUALIFIER_INDICATOR name = true ∧ SUB_NAME_DELIMITER ∉ name := by
  have hq : QUALIFIER_INDICATOR name = true := by
    rcases isAssetNameValid_ok (isAssetNameValid_eq h (by decide)) with
      ⟨h, -⟩ | ⟨h, -⟩ | ⟨h, -⟩ | ⟨h, -⟩ | ⟨-, h⟩ | ⟨h, -⟩ | ⟨h, -⟩ | h
    · cases h
    · cases h
    · cases h
    · cases h
    · exact h
    · split at h <;> cases h
    · cases h
    · split at h <;> cases h
  exact ⟨hq, not_mem_slash_of_qualifierIndicator hq⟩

theorem subQualifier_shape (h : assetTypeOf name = .SUB_QUALIFIER) :
    SUB_QUALIFIER_INDICATOR name = true ∧ isAssetNameASubQualifier name = true ∧
      ∃ front sub, name = front ++ SUB_NAME_DELIMITER :: sub ∧ SUB_NAME_DELIMITER ∉ front ∧
        SUB_NAME_DELIMITER ∉ sub ∧ getParentName name = front := by
  have hsq : SUB_QUALIFIER_INDICATOR name = true ∧ isAssetNameASubQualifier name = true := by
    rcases isAssetNameValid_ok (isAssetNameValid_eq h (by decide)) with
      ⟨h, -⟩ | ⟨h, -⟩ | ⟨h, -⟩ | ⟨h, -⟩ | ⟨h, hq⟩ | ⟨h, hq⟩ | ⟨h, -⟩ | h
    · cases h
    · cases h
    · cases h
    · cases h
    · have hno := isAssetNameASubQualifier_eq_false (not_mem_slash_of_qualifierIndicator hq)
      rw [if_neg (by simp [hno])] at h
      cases h
    · split at h
      · rename_i hs; exact ⟨hq, hs⟩
      · cases h
    · cases h
    · split at h <;> cases h
  refine ⟨hsq.1, hsq.2, ?_⟩
  have hs := hsq.1
  unfold SUB_QUALIFIER_INDICATOR at hs
  split at hs
  · rename_i c rest
    simp only [test_iff] at hs
    obtain ⟨⟨hc, -⟩, hs⟩ := hs
    split at hs
    · rename_i d sub hdrop
      simp only [test_iff] at hs
      obtain ⟨rfl, hmark⟩ := hs
      obtain ⟨rest', rfl, hrest'⟩ := markedName_eq hmark
      have hsub : SUB_NAME_DELIMITER ∉ QUALIFIER_CHAR :: rest' := by
        rw [mem_cons, not_or]
        exact ⟨by decide, not_mem_slash_of_all hrest'⟩
      have hfront : SUB_NAME_DELIMITER ∉ c :: rest.takeWhile isNameChar := by
        rw [mem_cons, not_or]
        exact ⟨by rw [hc]; decide, not_mem_slash_of_all (by simp)⟩
      have hname : c :: rest = (c :: rest.takeWhile isNameChar) ++
          SUB_NAME_DELIMITER :: QUALIFIER_CHAR :: rest' := by
        rw [cons_append, ← hdrop, takeWhile_append_dropWhile]
      refine ⟨_, _, hname, hfront, hsub, ?_⟩
      rw [hname] at h ⊢
      exact getParentName_append (by rw [h]; rfl) hsub
    · cases hs
  · cases hs

theorem append_cons_inj_of_not_mem {a b a' b'} (h : a ++ d :: b = a' ++ d :: b') (ha : d ∉ a) (hb : d ∉ b) : a = a' := by
  rcases append_eq_append_iff.mp h with ⟨c, hc, hc'⟩ | ⟨c, hc, hc'⟩
  · cases c with
    | nil => simpa using hc.symm
    | cons x c =>
      obtain ⟨rfl, hb'⟩ := List.cons.inj hc'
      exact absurd (by rw [hb']; simp) hb
  · cases c with
    | nil => simpa using hc
    | cons x c =>
      obtain ⟨rfl, -⟩ := List.cons.inj hc'
      exact absurd (by rw [hc]; simp) ha

/-- Without a reserved character, or with one in front, none of the first four types. -/
theorem not_tagged {name}
    (h : name.takeWhile isBeforeTagChar = [] ∨ name.dropWhile isBeforeTagChar = []) :
    (∀ d, tagIndicator d name = false) ∧ OWNER_INDICATOR name = false := by
  rcases h with h | h
  · refine ⟨fun d => ?_, by simp [OWNER_INDICATOR, h]⟩
    unfold tagIndicator
    rw [h]
  · refine ⟨fun d => ?_, ?_⟩
    · unfold tagIndicator
      rw [h]
      split <;> simp_all
    · rw [OWNER_INDICATOR, h, show (([] : Bytes) == OWNER_TAG) = false by decide, Bool.and_false]

theorem isAssetNameASubQualifier_of_valid (h : isQualifierNameValidBeforeTag name = true) (hslash : SUB_NAME_DELIMITER ∈ name) : isAssetNameASubQualifier name = true := by
  unfold isQualifierNameValidBeforeTag at h
  unfold isAssetNameASubQualifier
  split at h
  · rename_i root subs hsplit
    simp only [Bool.and_eq_true] at h ⊢
    refine ⟨h.1.1, ?_⟩
    cases subs with
    | nil =>
      obtain ⟨front, back, rfl⟩ := append_of_mem hslash
      rw [splitParts, splitOn_append_cons_self] at hsplit
      have hlen := congrArg List.length hsplit
      have hfront := length_pos_of_ne_nil (splitOn_ne_nil SUB_NAME_DELIMITER front)
      have hback := length_pos_of_ne_nil (splitOn_ne_nil SUB_NAME_DELIMITER back)
      simp only [length_append, length_cons, length_nil] at hlen
      omega
    | cons s subs => simp
  · cases h

theorem nameValid_iff : nameValid name = true ↔ ∃ type, isAssetNameValid name = .ok type := by
  unfold nameValid
  cases h : isAssetNameValid name with
  | ok type => simp [Except.toBool]
  | error e => simp [Except.toBool]

theorem nameValid_length (h : nameValid name = true) : name.length ≤ 40 ∧ name ≠ [] := by
  refine ⟨?_, by rintro rfl; exact absurd h (by decide)⟩
  by_contra hlong
  rw [nameValid, isAssetNameValid, if_pos (by omega)] at h
  cases h

theorem subQualifierCheck_ok (h : isTypeCheckNameValid .SUB_QUALIFIER name = .ok ()) :
    isQualifierNameValidBeforeTag name = true := by
  unfold isTypeCheckNameValid at h
  by_contra hno
  simp only [hno] at h
  split at h <;> cases h

theorem isTag_of_isAssetNameAQualifier (h : isAssetNameAQualifier name = true) : IsTag name := by
  simp only [isAssetNameAQualifier, test_iff, nameValid_iff] at h
  obtain ⟨⟨type, hvalid⟩, hpattern⟩ := h
  have hshape : ∃ rest, name = QUALIFIER_CHAR :: rest ∧ (SUB_QUALIFIER_INDICATOR name = true → SUB_NAME_DELIMITER ∈ name) := by
    rcases hpattern with h | h
    · obtain ⟨rest, rfl, hrest⟩ := markedName_eq h
      refine ⟨rest, rfl, fun hs => ?_⟩
      have hnil : rest.dropWhile isNameChar = [] := dropWhile_eq_nil_iff.2 (all_eq_true.1 hrest)
      simp [SUB_QUALIFIER_INDICATOR, hnil] at hs
    · unfold SUB_QUALIFIER_INDICATOR at h
      split at h
      · rename_i c rest
        simp only [test_iff] at h
        obtain ⟨⟨rfl, -⟩, h⟩ := h
        refine ⟨rest, rfl, fun _ => mem_cons_of_mem _ ?_⟩
        split at h
        · rename_i d sub hdrop
          simp only [test_iff] at h
          exact (dropWhile_suffix isNameChar).subset (by rw [hdrop, h.1]; simp)
        · cases h
      · cases h
  obtain ⟨rest, rfl, hslash⟩ := hshape
  obtain ⟨htag, howner⟩ := @not_tagged (QUALIFIER_CHAR :: rest) (Or.inl (by
    rw [takeWhile_cons, if_neg (by decide)]))
  rw [IsTag, assetTypeOf_eq hvalid]
  simp only [isAssetNameValid, UNIQUE_INDICATOR, MSGCHANNEL_INDICATOR, VOTE_INDICATOR, htag, howner, test_iff] at hvalid
  split at hvalid
  · cases hvalid
  split at hvalid
  · simp only [ok_iff] at hvalid
    rw [← hvalid.2]
    split <;> simp
  · rename_i hq
    have hs := hpattern.resolve_left hq
    rw [if_pos hs] at hvalid
    simp only [ok_iff] at hvalid
    obtain ⟨hcheck, rfl⟩ := hvalid
    have hsub := isAssetNameASubQualifier_of_valid (subQualifierCheck_ok hcheck) (hslash hs)
    rw [if_pos hsub]
    exact Or.inr rfl

theorem restricted_of_isAssetNameAnRestricted (h : isAssetNameAnRestricted name = true) :
    assetTypeOf name = .RESTRICTED := by
  simp only [isAssetNameAnRestricted, Bool.and_eq_true, nameValid_iff] at h
  obtain ⟨⟨type, hvalid⟩, hpattern⟩ := h
  obtain ⟨rest, rfl, hrest⟩ := markedName_eq hpattern
  have hchar : ∀ c ∈ RESTRICTED_CHAR :: rest, isBeforeTagChar c = true := by
    intro c hc
    rcases mem_cons.1 hc with rfl | hc
    · decide
    · have hname := all_eq_true.1 hrest c hc
      simp only [isBeforeTagChar, Bool.and_eq_true, bne_iff_ne]
      refine ⟨⟨⟨?_, ?_⟩, ?_⟩, ?_⟩ <;> rintro rfl <;> exact absurd hname (by decide)
  obtain ⟨htag, howner⟩ := not_tagged (Or.inr (dropWhile_eq_nil_iff.2 hchar))
  have hne : (RESTRICTED_CHAR == QUALIFIER_CHAR) = false := by decide
  rw [assetTypeOf_eq hvalid]
  simp only [isAssetNameValid, UNIQUE_INDICATOR, MSGCHANNEL_INDICATOR, VOTE_INDICATOR, htag, howner, QUALIFIER_INDICATOR,
    SUB_QUALIFIER_INDICATOR, hpattern, markedName, hne, Bool.false_and, test_iff] at hvalid
  split at hvalid
  · cases hvalid
  · simp only [ok_iff] at hvalid
    exact hvalid.2.symm

theorem mem_splitParts (h : c ∈ s) (hne : c ≠ d) : ∃ part ∈ splitParts d s, c ∈ part := by
  induction hn : s.length using Nat.strong_induction_on generalizing s with
  | _ n ih =>
    by_cases hd : d ∈ s
    · obtain ⟨front, back, rfl⟩ := append_of_mem hd
      rw [splitParts, splitOn_append_cons_self]
      simp only [length_append, length_cons] at hn
      have hside : c ∈ front ∨ c ∈ back := by simpa [hne] using h
      rcases hside with hc | hc
      · obtain ⟨part, hpart, hc⟩ := ih front.length (by omega) hc rfl
        exact ⟨part, mem_append_left _ hpart, hc⟩
      · obtain ⟨part, hpart, hc⟩ := ih back.length (by omega) hc rfl
        exact ⟨part, mem_append_right _ hpart, hc⟩
    · exact ⟨s, by rw [splitParts, splitOn_eq_singleton hd]; exact mem_singleton.mpr rfl, h⟩

theorem not_mem_tag_of_all (h : s.all isNameChar = true) : (33 : UInt8) ∉ s := fun hmem =>
  absurd (all_eq_true.mp h _ hmem) (by decide)

theorem not_mem_tag_of_markedName {n} (h : markedName c n s = true) (hc : c ≠ 33) : (33 : UInt8) ∉ s := by
  obtain ⟨rest, rfl, hrest⟩ := markedName_eq h
  rw [mem_cons, not_or]
  exact ⟨hc.symm, not_mem_tag_of_all hrest⟩

theorem not_mem_tag_of_nameValidBeforeTag (h : isNameValidBeforeTag name = true) : (33 : UInt8) ∉ name := by
  intro hmem
  obtain ⟨part, hpart, hmem⟩ := mem_splitParts (d := SUB_NAME_DELIMITER) hmem (by decide)
  unfold isNameValidBeforeTag at h
  split at h
  · rename_i root subs hsplit
    rw [hsplit] at hpart
    simp only [Bool.and_eq_true, all_eq_true] at h
    rcases mem_cons.mp hpart with rfl | hsub
    · have hroot := h.1
      simp only [isRootNameValid, ROOT_NAME_CHARACTERS, Bool.and_eq_true] at hroot
      exact not_mem_tag_of_all hroot.1.1.1.1.2 hmem
    · have hsub := h.2 part hsub
      simp only [isSubNameValid, SUB_NAME_CHARACTERS, Bool.and_eq_true] at hsub
      exact not_mem_tag_of_all hsub.1.1.1.2 hmem
  · cases h

theorem not_mem_tag_of_qualifierValidBeforeTag (h : isQualifierNameValidBeforeTag name = true) :
    (33 : UInt8) ∉ name := by
  intro hmem
  obtain ⟨part, hpart, hmem⟩ := mem_splitParts (d := SUB_NAME_DELIMITER) hmem (by decide)
  unfold isQualifierNameValidBeforeTag at h
  split at h
  · rename_i root subs hsplit
    rw [hsplit] at hpart
    simp only [Bool.and_eq_true, all_eq_true] at h
    rcases mem_cons.mp hpart with rfl | hsub
    · have hroot := h.1.1
      simp only [isQualifierNameValid, QUALIFIER_NAME_CHARACTERS, Bool.and_eq_true] at hroot
      exact not_mem_tag_of_markedName hroot.1.1.1.1 (by decide) hmem
    · have hsub := h.2 part hsub
      simp only [isSubQualifierNameValid, SUB_QUALIFIER_NAME_CHARACTERS, Bool.and_eq_true] at hsub
      exact not_mem_tag_of_markedName hsub.1.1.1 (by decide) hmem
  · cases h

theorem not_tagIndicator_of_tag (hd : d ≠ 33) (root : Bytes) : tagIndicator d (root ++ OWNER_TAG) = false := by
  rw [← Bool.not_eq_true]
  intro h
  obtain ⟨front, tag, -, heq, htag⟩ := tagIndicator_eq h
  have hlast : (33 : UInt8) ∈ d :: tag := by
    have h := congrArg List.getLast? heq
    rw [List.getLast?_append_cons, show (root ++ OWNER_TAG).getLast? = some 33 by simp [OWNER_TAG, show ascii "!" = [33] from rfl]] at h
    exact mem_of_getLast? h.symm
  rcases mem_cons.mp hlast with heq | hmem
  · exact hd heq.symm
  · exact absurd (htag _ hmem) (by decide)

theorem rootCheck_ok (htype : type = .SUB ∨ type = .ROOT) (h : isTypeCheckNameValid type name = .ok ()) : isNameValidBeforeTag name = true := by
  by_contra hno
  rcases htype with rfl | rfl <;>
  · simp only [isTypeCheckNameValid, hno, if_false] at h
    repeat' split at h
    all_goals cases h

theorem isAssetNameAnOwner_of_tag {root} (h : nameValid (root ++ OWNER_TAG) = true) :
    isAssetNameAnOwner (root ++ OWNER_TAG) = true := by
  have hmem : (33 : UInt8) ∈ root ++ OWNER_TAG := mem_append_right _ (by decide)
  rw [isAssetNameAnOwner, h, Bool.true_and]
  obtain ⟨type, hv⟩ := nameValid_iff.mp h
  by_contra hno
  simp only [isAssetNameValid, UNIQUE_INDICATOR, MSGCHANNEL_INDICATOR, VOTE_INDICATOR, hno,
    not_tagIndicator_of_tag (show UNIQUE_TAG_DELIMITER ≠ 33 by decide),
    not_tagIndicator_of_tag (show MSGCHANNEL_TAG_DELIMITER ≠ 33 by decide),
    not_tagIndicator_of_tag (show VOTE_TAG_DELIMITER ≠ 33 by decide), test_iff] at hv
  split at hv
  · cases hv
  split at hv
  · rename_i hq; exact not_mem_tag_of_markedName hq (by decide) hmem
  split at hv
  · simp only [ok_iff] at hv
    exact not_mem_tag_of_qualifierValidBeforeTag (subQualifierCheck_ok hv.1) hmem
  split at hv
  · rename_i hr; exact not_mem_tag_of_markedName hr (by decide) hmem
  · simp only [ok_iff] at hv
    exact not_mem_tag_of_nameValidBeforeTag (rootCheck_ok (by split <;> simp) hv.1) hmem

end Hivecoin

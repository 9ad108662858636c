import Hivecoin.Assets.NameGrammar

/-!
# Names and the names above them

From parent to parent every name leads to a root or a qualifier. Only the name under `$` need not be a root.
-/

namespace Hivecoin

open Outcome List

variable {name : Bytes}
variable {p : Bytes} {type : AssetType}

def restrictedNameToOwnerName (name : Bytes) : Bytes :=
  if !isAssetNameAnRestricted name then [] else name.drop 1 ++ OWNER_TAG

def getUniqueAssetName (parent tag : Bytes) : Bytes :=
  let unique := parent ++ UNIQUE_TAG_DELIMITER :: tag
  match isAssetNameValid unique with
  | .error _ => []
  | .ok type => if type ≠ .UNIQUE then [] else unique

/-- The types a name of this type may have above it. -/
def parentTypes : AssetType → List AssetType
  | .SUB | .UNIQUE | .MSGCHANNEL => [.ROOT, .SUB]
  | .SUB_QUALIFIER => [.QUALIFIER]
  | _ => []

structure ParentOf (type : AssetType) (name parent : Bytes) : Prop where
  valid : ∃ above ∈ parentTypes type, isAssetNameValid parent = .ok above
  shorter : parent.length < name.length
  built : ∃ d tag, delimiterOf type = some d ∧ name = parent ++ d :: tag ∧
    (type = .UNIQUE → getUniqueAssetName parent tag = name)

theorem isAssetNameValid_of_isPath (hp : IsPath p) (hlen : p.length ≤ 30) :
    ∃ above ∈ [AssetType.ROOT, .SUB], isAssetNameValid p = .ok above := by
  refine ⟨_, ?_, isAssetNameValid_path hp hlen⟩
  split <;> simp

theorem getParentName_tagged {tag d} (hvalid : isAssetNameValid (p ++ d :: tag) = .ok type)
    (hd : delimiterOf type = some d) (htag : d ∉ tag) :
    getParentName (p ++ d :: tag) = p :=
  getParentName_append (by rw [assetTypeOf_eq hvalid]; exact hd) htag

theorem parent_split (hvalid : isAssetNameValid name = .ok type) (htype : parentTypes type ≠ []) :
    ∃ d tag, delimiterOf type = some d ∧ name = getParentName name ++ d :: tag ∧
      (type = .SUB_QUALIFIER ∧ Accepts (getParentName name) .QUALIFIER ∨ IsPath (getParentName name) ∧
        (getParentName name).length ≤ 30 ∧ parentTypes type = [.ROOT, .SUB]) := by
  have hacc := accepts_of_isAssetNameValid hvalid
  cases type with
  | SUB =>
    obtain ⟨hpath, hslash, hlen⟩ := hacc
    cases isNameValidBeforeTag_iff.1 hpath with
    | root hs => exact absurd hslash (not_mem_slash_word hs.word)
    | @sub p s hp hs =>
      rw [getParentName_tagged hvalid rfl (not_mem_slash_word hs)]
      rw [length_append] at hlen
      exact ⟨_, s, rfl, rfl, Or.inr ⟨hp, by omega, rfl⟩⟩
  | UNIQUE =>
    obtain ⟨p, tag, rfl, hp, htag, hlen⟩ := hacc
    obtain ⟨-, hchars⟩ := isUniqueTagValid_iff.1 htag
    rw [getParentName_tagged hvalid rfl fun hmem => (isAfterTagChar_of_isUniqueTagChar _ (hchars _ hmem)).2 rfl]
    rw [length_append, length_cons] at hlen
    exact ⟨_, tag, rfl, rfl, Or.inr ⟨isNameValidBeforeTag_iff.1 hp, by omega, rfl⟩⟩
  | MSGCHANNEL =>
    obtain ⟨p, tag, rfl, hp, htag, -, hlen⟩ := hacc
    have hchars := (isMsgChannelTagValid_iff.1 htag).chars
    rw [getParentName_tagged hvalid rfl fun hmem => (isAfterTagChar_of_isChannelTagChar _ (hchars _ hmem)).2 rfl]
    rw [length_append, length_cons] at hlen
    exact ⟨_, tag, rfl, rfl, Or.inr ⟨isNameValidBeforeTag_iff.1 hp, by omega, rfl⟩⟩
  | SUB_QUALIFIER =>
    obtain ⟨q, sub, rfl, hq, hsub, hlen⟩ := hacc
    rw [getParentName_tagged hvalid rfl (slash_not_mem_marked (by decide) (isSubQualifierNameValid_marked hsub))]
    rw [length_append] at hlen
    exact ⟨_, sub, rfl, rfl, Or.inl ⟨rfl, hq, by omega⟩⟩
  | _ => exact absurd rfl htype

theorem parentOf_getParentName (hvalid : isAssetNameValid name = .ok type) (htype : parentTypes type ≠ []) :
    ParentOf type name (getParentName name) := by
  obtain ⟨d, tag, hd, hname, habove⟩ := parent_split hvalid htype
  refine ⟨?_, ?_, d, tag, hd, hname, ?_⟩
  · rcases habove with ⟨rfl, hq⟩ | ⟨hpath, hlen, htypes⟩
    · exact ⟨.QUALIFIER, by decide, isAssetNameValid_of_accepts hq⟩
    · rw [htypes]
      exact isAssetNameValid_of_isPath hpath hlen
  · have hlen := congrArg List.length hname
    rw [length_append, length_cons] at hlen
    omega
  · rintro rfl
    obtain rfl := Option.some.inj hd
    rw [getUniqueAssetName, ← hname, hvalid]
    rfl

def IsTop (name : Bytes) : Prop := isAssetNameValid name = .ok .ROOT ∨ isAssetNameValid name = .ok .QUALIFIER

theorem path_reaches_top (hp : IsPath p) (hlen : p.length ≤ 30) : ∃ k, IsTop (getParentName^[k] p) := by
  induction hp with
  | root hs => exact ⟨0, Or.inl (accepted_root ⟨isRootNameValid_iff.2 hs, hlen⟩)⟩
  | @sub p s hp hs ih =>
    have hvalid : isAssetNameValid (p ++ SUB_NAME_DELIMITER :: s) = .ok .SUB :=
      accepted_sub ⟨isNameValidBeforeTag_iff.2 (.sub hp hs), by simp, hlen⟩
    rw [length_append] at hlen
    obtain ⟨k, hk⟩ := ih (by omega)
    refine ⟨k + 1, ?_⟩
    rwa [Function.iterate_succ_apply, getParentName_tagged hvalid rfl (not_mem_slash_word hs)]

theorem reaches_top (hvalid : isAssetNameValid name = .ok type) (htype : parentTypes type ≠ []) :
    ∃ k, IsTop (getParentName^[k] name) := by
  obtain ⟨-, -, -, -, ⟨-, hq⟩ | ⟨hpath, hlen, -⟩⟩ := parent_split hvalid htype
  · exact ⟨1, Or.inr (isAssetNameValid_of_accepts hq)⟩
  · obtain ⟨k, hk⟩ := path_reaches_top hpath hlen
    exact ⟨k + 1, hk⟩

theorem restrictedNameToOwnerName_eq {s} (hvalid : isAssetNameValid (RESTRICTED_CHAR :: s) = .ok .RESTRICTED) :
    restrictedNameToOwnerName (RESTRICTED_CHAR :: s) = s ++ OWNER_TAG := by
  have hnameValid : nameValid (RESTRICTED_CHAR :: s) = true := nameValid_iff.2 ⟨_, hvalid⟩
  rw [restrictedNameToOwnerName, isAssetNameAnRestricted, hnameValid, restrictedIndicator_of_valid hvalid]
  rfl

theorem owner_valid_iff {s} (hs : isRestrictedNameValid (RESTRICTED_CHAR :: s) = true) (hlen : s.length ≤ 30) :
    isAssetNameValid (s ++ OWNER_TAG) = .ok .OWNER ↔ LEADING_PUNCTUATION s = false ∧ s ∉ networkNames := by
  have hslash : SUB_NAME_DELIMITER ∉ s := by
    have h := slash_not_mem_marked (by decide) (isRestrictedNameValid_marked hs)
    exact fun hmem => h (mem_cons_of_mem _ hmem)
  constructor
  · intro hvalid
    obtain ⟨p, heq, hp, -⟩ := accepts_of_isAssetNameValid hvalid
    obtain rfl := append_cancel_right heq
    cases isNameValidBeforeTag_iff.1 hp with
    | root hroot => exact (isRestrictedNameValid_iff.2 hroot).2
    | sub hp hs => exact absurd (by simp) hslash
  · intro h
    have hroot := isRestrictedNameValid_iff.1 ⟨hs, h⟩
    refine accepted_owner ⟨s, rfl, isNameValidBeforeTag_iff.2 (.root hroot), ?_⟩
    rw [length_append]
    exact Nat.succ_le_succ hlen

structure HierarchySound (name : Bytes) : Prop where
  parent : ∀ type, isAssetNameValid name = .ok type → parentTypes type ≠ [] → ParentOf type name (getParentName name)
  top : ∀ type, isAssetNameValid name = .ok type → parentTypes type ≠ [] → ∃ k, IsTop (getParentName^[k] name)
  owner : isAssetNameValid name = .ok .RESTRICTED → isAssetNameValid (restrictedNameToOwnerName name) = .ok .OWNER

/-- Parents are sound for every name; the owner of a restricted name is a valid name unless what stands behind its `$` starts with
punctuation or is reserved. -/
theorem name_hierarchy_iff (name : Bytes) : HierarchySound name ↔
    (isRestrictedNameValid name = true → name.length ≤ 31 → LEADING_PUNCTUATION (name.drop 1) = false ∧
      name.drop 1 ∉ networkNames) := by
  have hiff : isRestrictedNameValid name = true → name.length ≤ 31 →
      (isAssetNameValid (restrictedNameToOwnerName name) = .ok .OWNER ↔
        LEADING_PUNCTUATION (name.drop 1) = false ∧ name.drop 1 ∉ networkNames) := by
    intro hrestricted hlen
    have hvalid := accepted_restricted ⟨hrestricted, hlen⟩
    obtain ⟨s, rfl, -⟩ := markedName_eq (isRestrictedNameValid_marked hrestricted)
    rw [restrictedNameToOwnerName_eq hvalid]
    exact owner_valid_iff hrestricted (Nat.le_of_succ_le_succ hlen)
  constructor
  · intro h hrestricted hlen
    exact (hiff hrestricted hlen).1 (h.owner (accepted_restricted ⟨hrestricted, hlen⟩))
  · intro h
    refine ⟨fun type => parentOf_getParentName, fun type => reaches_top, fun hvalid => ?_⟩
    obtain ⟨hrestricted, hlen⟩ := accepts_of_isAssetNameValid hvalid
    exact (hiff hrestricted hlen).2 (h hrestricted hlen)

/-- `$HVN` would be owned by `HVN!`, which is no valid name. -/
theorem restricted_without_owner : ¬HierarchySound (ascii "$HVN") := by
  intro h
  have hvalid : isAssetNameValid (ascii "$HVN") = .ok .RESTRICTED := by decide +kernel
  have howner : isAssetNameValid (restrictedNameToOwnerName (ascii "$HVN")) ≠ .ok .OWNER := by decide +kernel
  exact howner (h.owner hvalid)

end Hivecoin

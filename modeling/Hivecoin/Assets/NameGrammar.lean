import Hivecoin.Assets.Lemmas.Name
import Hivecoin.Base.ByteClass
import Mathlib.Tactic.FinCases

/-!
# The grammar of asset names

The documented grammar and the language that `IsAssetNameValid` accepts, which differ behind `#` and `$` and in the tag of a vote.
-/

namespace Hivecoin

open Outcome List

variable {p : Bytes} {c d : UInt8} {type : AssetType}

/-- A component of a name: punctuation neither at an end nor doubled. -/
structure IsComponent (allowed : UInt8 → Bool) (s : Bytes) : Prop where
  nonempty : s ≠ []
  chars : ∀ c ∈ s, allowed c = true
  first : ∀ c ∈ s.head?, isPunctuation c = false
  last : ∀ c ∈ s.getLast?, isPunctuation c = false
  single : ∀ a b, [a, b] <:+: s → isPunctuation a = true → isPunctuation b = false

abbrev IsWord (s : Bytes) : Prop := IsComponent isNameChar s

def networkNames : List Bytes := ["RVN", "RAVEN", "RAVENCOIN", "HVQ", "HVN", "HIVE", "HIVECOIN"].map ascii

structure IsRoot (s : Bytes) : Prop where
  word : IsWord s
  long : 3 ≤ s.length
  free : s ∉ networkNames

/-- A root with any number of sub-assets under it. -/
inductive IsPath : Bytes → Prop where
  | root {s} (hs : IsRoot s) : IsPath s
  | sub {p s} (hp : IsPath p) (hs : IsWord s) : IsPath (p ++ SUB_NAME_DELIMITER :: s)

inductive NameOf : AssetType → Bytes → Prop where
  | root {s} (hs : IsRoot s) (hlen : s.length ≤ 30) : NameOf .ROOT s
  | sub {p s} (hp : IsPath p) (hs : IsWord s) (hlen : (p ++ SUB_NAME_DELIMITER :: s).length ≤ 30) :
      NameOf .SUB (p ++ SUB_NAME_DELIMITER :: s)
  | unique {p tag} (hp : IsPath p) (hne : tag ≠ []) (htag : ∀ c ∈ tag, isUniqueTagChar c = true)
      (hlen : (p ++ UNIQUE_TAG_DELIMITER :: tag).length ≤ 31) : NameOf .UNIQUE (p ++ UNIQUE_TAG_DELIMITER :: tag)
  | msgChannel {p tag} (hp : IsPath p) (htag : IsComponent isChannelTagChar tag) (hshort : tag.length ≤ 12)
      (hlen : (p ++ MSGCHANNEL_TAG_DELIMITER :: tag).length ≤ 31) : NameOf .MSGCHANNEL (p ++ MSGCHANNEL_TAG_DELIMITER :: tag)
  | owner {p : Bytes} (hp : IsPath p) (hlen : (p ++ OWNER_TAG).length ≤ 31) : NameOf .OWNER (p ++ OWNER_TAG)
  | vote {p tag} (hp : IsPath p) (htag : IsWord tag) (hlen : (p ++ VOTE_TAG_DELIMITER :: tag).length ≤ 31) :
      NameOf .VOTE (p ++ VOTE_TAG_DELIMITER :: tag)
  | qualifier {s} (hs : IsRoot s) (hlen : (QUALIFIER_CHAR :: s).length ≤ 31) : NameOf .QUALIFIER (QUALIFIER_CHAR :: s)
  | subQualifier {s sub} (hs : IsRoot s) (hsub : IsWord sub)
      (hlen : (QUALIFIER_CHAR :: s ++ SUB_NAME_DELIMITER :: QUALIFIER_CHAR :: sub).length ≤ 31) :
      NameOf .SUB_QUALIFIER (QUALIFIER_CHAR :: s ++ SUB_NAME_DELIMITER :: QUALIFIER_CHAR :: sub)
  | restricted {s} (hs : IsRoot s) (hlen : (RESTRICTED_CHAR :: s).length ≤ 31) :
      NameOf .RESTRICTED (RESTRICTED_CHAR :: s)

/-! ## Components -/

variable {s t name : Bytes}

theorem adjacentPunctuation_iff : adjacentPunctuation s = true ↔
    ∃ a b, [a, b] <:+: s ∧ isPunctuation a = true ∧ isPunctuation b = true := by
  induction s with
  | nil => simp [adjacentPunctuation]
  | cons x s ih =>
    cases s with
    | nil =>
      simp only [adjacentPunctuation, Bool.false_eq_true, false_iff, not_exists]
      rintro a b ⟨hsub, -⟩
      have := hsub.length_le
      simp at this
    | cons y s =>
      rw [adjacentPunctuation, Bool.or_eq_true, Bool.and_eq_true, ih]
      constructor
      · rintro (⟨hx, hy⟩ | ⟨a, b, hsub, hab⟩)
        · exact ⟨x, y, ⟨[], s, rfl⟩, hx, hy⟩
        · exact ⟨a, b, hsub.trans (suffix_cons _ _).isInfix, hab⟩
      · rintro ⟨a, b, hsub, ha, hb⟩
        rcases infix_cons_iff.1 hsub with hhead | hsub
        · obtain ⟨hax, hrest⟩ := cons_prefix_cons.1 hhead
          obtain ⟨hby, -⟩ := cons_prefix_cons.1 hrest
          exact Or.inl ⟨hax ▸ ha, hby ▸ hb⟩
        · exact Or.inr ⟨a, b, hsub, ha, hb⟩

theorem leadingPunctuation_eq_false (h : s.all isAnyChar = true) :
    LEADING_PUNCTUATION s = false ↔ ∀ c ∈ s.head?, isPunctuation c = false := by
  cases s with
  | nil => simp [LEADING_PUNCTUATION]
  | cons c s =>
    rw [all_cons, Bool.and_eq_true] at h
    simp [LEADING_PUNCTUATION, h.2]

theorem trailingPunctuation_eq_false (h : s.all isAnyChar = true) :
    TRAILING_PUNCTUATION s = false ↔ ∀ c ∈ s.getLast?, isPunctuation c = false := by
  rw [TRAILING_PUNCTUATION, leadingPunctuation_eq_false (by simpa using h), List.head?_reverse]

theorem doublePunctuation_eq_false (h : s.all isAnyChar = true) :
    DOUBLE_PUNCTUATION s = false ↔ ∀ a b, [a, b] <:+: s → isPunctuation a = true → isPunctuation b = false := by
  rw [DOUBLE_PUNCTUATION, h, Bool.true_and, ← Bool.not_eq_true, adjacentPunctuation_iff]
  simp only [not_exists, not_and, Bool.not_eq_true]

theorem isComponent_iff {allowed} (hany : ∀ c, allowed c = true → isAnyChar c = true) :
    IsComponent allowed s ↔ s ≠ [] ∧ s.all allowed = true ∧ DOUBLE_PUNCTUATION s = false ∧ LEADING_PUNCTUATION s = false ∧
      TRAILING_PUNCTUATION s = false := by
  constructor
  · intro h
    have hall : s.all isAnyChar = true := all_eq_true.2 fun c hc => hany c (h.chars c hc)
    exact ⟨h.nonempty, all_eq_true.2 h.chars, (doublePunctuation_eq_false hall).2 h.single,
      (leadingPunctuation_eq_false hall).2 h.first, (trailingPunctuation_eq_false hall).2 h.last⟩
  · rintro ⟨hne, hchars, hdouble, hleading, htrailing⟩
    have hall : s.all isAnyChar = true := all_eq_true.2 fun c hc => hany c (all_eq_true.1 hchars c hc)
    exact ⟨hne, all_eq_true.1 hchars, (leadingPunctuation_eq_false hall).1 hleading,
      (trailingPunctuation_eq_false hall).1 htrailing, (doublePunctuation_eq_false hall).1 hdouble⟩

theorem isAnyChar_of_isNameChar : ∀ c : UInt8, isNameChar c = true → isAnyChar c = true := by
  decide +kernel

theorem isAnyChar_of_isChannelTagChar : ∀ c : UInt8, isChannelTagChar c = true → isAnyChar c = true := by
  decide +kernel

theorem isSubNameValid_iff : isSubNameValid s = true ↔ IsWord s := by
  rw [IsWord, isComponent_iff isAnyChar_of_isNameChar]
  simp only [isSubNameValid, SUB_NAME_CHARACTERS, test_iff, Nat.one_le_iff_ne_zero, ne_eq, length_eq_zero_iff]
  tauto

theorem isMsgChannelTagValid_iff : isMsgChannelTagValid s = true ↔ IsComponent isChannelTagChar s := by
  rw [isComponent_iff isAnyChar_of_isChannelTagChar]
  simp only [isMsgChannelTagValid, MSGCHANNEL_TAG_CHARACTERS, test_iff, Nat.one_le_iff_ne_zero, ne_eq, length_eq_zero_iff]
  tauto

theorem isUniqueTagValid_iff : isUniqueTagValid s = true ↔ s ≠ [] ∧ ∀ c ∈ s, isUniqueTagChar c = true := by
  simp only [isUniqueTagValid, UNIQUE_TAG_CHARACTERS, test_iff, Nat.one_le_iff_ne_zero, ne_eq, length_eq_zero_iff, all_eq_true]

theorem hiveNames_iff (h : ∀ c ∈ s, isNameChar c = true) : HIVE_NAMES s = true ↔ s ∈ networkNames := by
  constructor
  · intro hmem
    obtain ⟨t, ht, heq⟩ := any_eq_true.1 hmem
    obtain rfl := beq_iff_eq.1 heq
    have hcases : ∀ t ∈ ["RVN", "RAVEN", "RAVENCOIN", "#RVN", "#RAVEN", "#RAVENCOIN", "HVQ", "HVN", "HIVE", "HIVECOIN", "#HVN",
        "#HIVE", "#HIVECOIN"], ascii t ∈ networkNames ∨ QUALIFIER_CHAR ∈ ascii t := by decide
    exact (hcases t ht).resolve_right fun hhash => absurd (h _ hhash) (by decide)
  · have hall : ∀ s ∈ networkNames, HIVE_NAMES s = true := by decide
    exact hall s

theorem isRootNameValid_iff : isRootNameValid s = true ↔ IsRoot s := by
  constructor
  · intro h
    simp only [isRootNameValid, ROOT_NAME_CHARACTERS, test_iff] at h
    obtain ⟨⟨⟨⟨⟨hlen, hall⟩, hdouble⟩, hleading⟩, htrailing⟩, hfree⟩ := h
    refine ⟨(isComponent_iff isAnyChar_of_isNameChar).2 ⟨?_, hall, hdouble, hleading, htrailing⟩, hlen, fun hmem => ?_⟩
    · rintro rfl
      simp at hlen
    · rw [(hiveNames_iff (all_eq_true.1 hall)).2 hmem] at hfree
      cases hfree
  · rintro ⟨hword, hlen, hfree⟩
    obtain ⟨-, hall, hdouble, hleading, htrailing⟩ := (isComponent_iff isAnyChar_of_isNameChar).1 hword
    have hhive : HIVE_NAMES s = false := by
      rw [← Bool.not_eq_true]
      exact fun h => hfree ((hiveNames_iff hword.chars).1 h)
    simp [isRootNameValid, ROOT_NAME_CHARACTERS, hall, hlen, hdouble, hleading, htrailing, hhive]

/-! ## Paths -/

theorem isNameValidBeforeTag_root (hs : isRootNameValid s = true) : isNameValidBeforeTag s = true := by
  have hslash : SUB_NAME_DELIMITER ∉ s := by
    have hword := (isRootNameValid_iff.1 hs).word
    exact fun hmem => absurd (hword.chars _ hmem) (by decide)
  simp [isNameValidBeforeTag, splitParts, splitOn_eq_singleton hslash, hs]

theorem not_mem_slash_word (hs : IsWord s) : SUB_NAME_DELIMITER ∉ s := fun hmem => absurd (hs.chars _ hmem) (by decide)

theorem splitParts_append_slash (p : Bytes) (hs : SUB_NAME_DELIMITER ∉ s) :
    splitParts SUB_NAME_DELIMITER (p ++ SUB_NAME_DELIMITER :: s) = splitParts SUB_NAME_DELIMITER p ++ [s] := by
  rw [splitParts, splitOn_append_cons_self, splitOn_eq_singleton hs, splitParts]

theorem isNameValidBeforeTag_of_isPath (h : IsPath p) : isNameValidBeforeTag p = true := by
  induction h with
  | root hs => exact isNameValidBeforeTag_root (isRootNameValid_iff.2 hs)
  | @sub p s hp hs ih =>
    unfold isNameValidBeforeTag at ih ⊢
    rw [splitParts_append_slash p (not_mem_slash_word hs)]
    split at ih
    · rename_i root subs hsplit
      rw [hsplit]
      simp only [Bool.and_eq_true] at ih
      simp [ih.1, ih.2, isSubNameValid_iff.2 hs]
    · cases ih

theorem eq_foldl_of_splitParts {root subs} (h : splitParts d name = root :: subs) :
    name = subs.foldl (fun p s => p ++ d :: s) root := by
  have hjoin : ∀ (subs : List Bytes) (root : Bytes), [d].intercalate (root :: subs) = subs.foldl (fun p s => p ++ d :: s) root := by
    intro subs
    induction subs with
    | nil => simp
    | cons s subs ih =>
      intro root
      rw [foldl_cons, ← ih, intercalate_cons_of_ne_nil (by simp)]
      cases subs with
      | nil => simp
      | cons t ts => simp [intercalate_cons_of_ne_nil]
  rw [← hjoin, ← h, splitParts, intercalate_splitOn]

theorem isPath_of_isNameValidBeforeTag (h : isNameValidBeforeTag p = true) : IsPath p := by
  unfold isNameValidBeforeTag at h
  split at h
  · rename_i root subs hsplit
    simp only [Bool.and_eq_true, all_eq_true] at h
    rw [eq_foldl_of_splitParts hsplit]
    have hfold : ∀ (subs : List Bytes) (root : Bytes), IsPath root → (∀ s ∈ subs, isSubNameValid s = true) →
        IsPath (subs.foldl (fun p s => p ++ SUB_NAME_DELIMITER :: s) root) := by
      intro subs
      induction subs with
      | nil => exact fun root hroot _ => hroot
      | cons s subs ih =>
        intro root hroot hsubs
        exact ih _ (.sub hroot (isSubNameValid_iff.1 (hsubs s mem_cons_self)))
          fun t ht => hsubs t (mem_cons_of_mem _ ht)
    exact hfold subs root (.root (isRootNameValid_iff.1 h.1)) h.2
  · cases h

theorem isNameValidBeforeTag_iff : isNameValidBeforeTag p = true ↔ IsPath p :=
  ⟨isPath_of_isNameValidBeforeTag, isNameValidBeforeTag_of_isPath⟩

theorem IsPath.ne_nil (h : IsPath p) : p ≠ [] := by
  cases h with
  | root hs => exact hs.word.nonempty
  | sub hp hs => simp

theorem IsPath.chars (h : IsPath p) : ∀ c ∈ p, isNameChar c = true ∨ c = SUB_NAME_DELIMITER := by
  induction h with
  | root hs => exact fun c hc => Or.inl (hs.word.chars c hc)
  | sub hp hs ih =>
    intro c hc
    rcases mem_append.1 hc with hc | hc
    · exact ih c hc
    rcases mem_cons.1 hc with rfl | hc
    · exact Or.inr rfl
    · exact Or.inl (hs.chars c hc)

theorem isBeforeTagChar_of_isNameChar : ∀ c : UInt8, isNameChar c = true → isBeforeTagChar c = true := by
  decide +kernel

theorem IsPath.beforeTag (h : IsPath p) : ∀ c ∈ p, isBeforeTagChar c = true := by
  intro c hc
  rcases h.chars c hc with hc | rfl
  · exact isBeforeTagChar_of_isNameChar c hc
  · decide

theorem IsPath.not_mem (h : IsPath p) (hname : isNameChar d = false) (hd : d ≠ SUB_NAME_DELIMITER) : d ∉ p := by
  intro hmem
  rcases h.chars d hmem with hc | hc
  · rw [hname] at hc
    cases hc
  · exact hd hc

/-- The names that `IsAssetNameValid` accepts with each type. -/
def Accepts (name : Bytes) : AssetType → Prop
  | .ROOT => isRootNameValid name = true ∧ name.length ≤ 30
  | .SUB => isNameValidBeforeTag name = true ∧ SUB_NAME_DELIMITER ∈ name ∧ name.length ≤ 30
  | .UNIQUE => ∃ p tag, name = p ++ UNIQUE_TAG_DELIMITER :: tag ∧ isNameValidBeforeTag p = true ∧ isUniqueTagValid tag = true ∧
      name.length ≤ 31
  | .MSGCHANNEL => ∃ p tag, name = p ++ MSGCHANNEL_TAG_DELIMITER :: tag ∧ isNameValidBeforeTag p = true ∧
      isMsgChannelTagValid tag = true ∧ tag.length ≤ 12 ∧ name.length ≤ 31
  | .OWNER => ∃ p, name = p ++ OWNER_TAG ∧ isNameValidBeforeTag p = true ∧ name.length ≤ 31
  | .VOTE => ∃ p tag, name = p ++ VOTE_TAG_DELIMITER :: tag ∧ isNameValidBeforeTag p = true ∧ tag.all isAfterTagChar = true ∧
      isVoteTagValid ((splitParts VOTE_TAG_DELIMITER tag).getLastD []) = true ∧ name.length ≤ 31
  | .QUALIFIER => isQualifierNameValid name = true ∧ name.length ≤ 31
  | .SUB_QUALIFIER => ∃ q sub, name = q ++ SUB_NAME_DELIMITER :: sub ∧ isQualifierNameValid q = true ∧
      isSubQualifierNameValid sub = true ∧ name.length ≤ 31
  | .RESTRICTED => isRestrictedNameValid name = true ∧ name.length ≤ 31
  | _ => False

theorem takeWhile_tagged (hp : ∀ c ∈ p, isBeforeTagChar c = true) (hd : isBeforeTagChar d = false) (tag : Bytes) : (p ++ d :: tag).takeWhile isBeforeTagChar = p ∧ (p ++ d :: tag).dropWhile isBeforeTagChar = d :: tag := by
  rw [takeWhile_append_of_pos hp, dropWhile_append_of_pos hp, takeWhile_cons, dropWhile_cons, hd]
  simp

theorem tagIndicator_tagged (hp : IsPath p) (hd : isBeforeTagChar d = false) (d' : UInt8) (tag : Bytes) :
    tagIndicator d' (p ++ d :: tag) = (d == d' && 1 ≤ tag.length && tag.all isAfterTagChar) := by
  obtain ⟨htake, hdrop⟩ := takeWhile_tagged hp.beforeTag hd tag
  obtain ⟨c, p', rfl⟩ := exists_cons_of_ne_nil hp.ne_nil
  rw [tagIndicator, htake, hdrop]

theorem ownerIndicator_tagged (hp : IsPath p) (hd : isBeforeTagChar d = false) (tag : Bytes) :
    OWNER_INDICATOR (p ++ d :: tag) = (d :: tag == OWNER_TAG) := by
  obtain ⟨htake, hdrop⟩ := takeWhile_tagged hp.beforeTag hd tag
  have hpos : 1 ≤ p.length := length_pos_of_ne_nil hp.ne_nil
  rw [OWNER_INDICATOR, htake, hdrop, decide_eq_true hpos, Bool.true_and]

theorem frontBack_tagged {tag} (hp : d ∉ p) :
    frontBack d (p ++ d :: tag) = (p, (splitParts d tag).getLastD []) := by
  obtain ⟨part, rest, hsplit⟩ := exists_cons_of_ne_nil (splitOn_ne_nil d tag)
  rw [frontBack, splitParts, splitParts, splitOn_append_cons_self, splitOn_eq_singleton hp, hsplit]
  rfl

theorem splitParts_getLastD {tag} (h : d ∉ tag) : (splitParts d tag).getLastD [] = tag := by
  rw [splitParts, splitOn_eq_singleton h]
  rfl

theorem ite_pure_ok {p : Prop} [Decidable p] {e} :
    ((if p then pure () else throw e) : Except String Unit) = .ok () ↔ p := by
  split <;> simp [*]

theorem ite_throw_ok {p : Prop} [Decidable p] {x : Except String Unit} {y : Unit → Except String Unit} {e : String} :
    (if p then throw e >>= y else x) = .ok () ↔ ¬p ∧ x = .ok () := by
  split
  · exact ⟨fun h => (by cases h), fun h => absurd ‹p› h.1⟩
  · simp [*]

/-- What the check of a type asks for, besides the length. -/
def TypeCheck (name : Bytes) : AssetType → Prop
  | .UNIQUE => isNameValidBeforeTag (frontBack UNIQUE_TAG_DELIMITER name).1 = true ∧
      isUniqueTagValid (frontBack UNIQUE_TAG_DELIMITER name).2 = true
  | .MSGCHANNEL => (frontBack MSGCHANNEL_TAG_DELIMITER name).2.length ≤ 12 ∧
      isNameValidBeforeTag (frontBack MSGCHANNEL_TAG_DELIMITER name).1 = true ∧
      isMsgChannelTagValid (frontBack MSGCHANNEL_TAG_DELIMITER name).2 = true
  | .OWNER => isNameValidBeforeTag name.dropLast = true
  | .VOTE => isNameValidBeforeTag (frontBack VOTE_TAG_DELIMITER name).1 = true ∧
      isVoteTagValid (frontBack VOTE_TAG_DELIMITER name).2 = true
  | .QUALIFIER | .SUB_QUALIFIER => isQualifierNameValidBeforeTag name = true
  | .RESTRICTED => isRestrictedNameValid name = true
  | _ => False

theorem typeCheck_iff (htype : type ∈ [.UNIQUE, .MSGCHANNEL, .OWNER, .VOTE, .QUALIFIER, .SUB_QUALIFIER, .RESTRICTED]) :
    isTypeCheckNameValid type name = .ok () ↔ name.length ≤ 31 ∧ TypeCheck name type := by
  fin_cases htype <;>
    simp only [isTypeCheckNameValid, TypeCheck, ite_throw_ok, ite_pure_ok, Bool.and_eq_true, MAX_NAME_LENGTH,
      MAX_CHANNEL_NAME_LENGTH, not_lt, gt_iff_lt]

theorem IsPath.long (h : IsPath p) : 3 ≤ p.length := by
  induction h with
  | root hs => exact hs.long
  | sub hp hs ih =>
    rw [length_append]
    omega

theorem checkRoot_iff (htype : type = .ROOT ∨ type = .SUB) :
    isTypeCheckNameValid type name = .ok () ↔ name.length ≤ 30 ∧ isNameValidBeforeTag name = true := by
  have hcheck : isTypeCheckNameValid type name = .ok () ↔ name.length ≤ 31 - 1 ∧
      (isAssetNameASubasset name = false → MIN_ASSET_LENGTH ≤ name.length) ∧
      (isNameValidBeforeTag name = false ∧ isAssetNameASubasset name = true → 3 ≤ name.length) ∧
      isNameValidBeforeTag name = true := by
    rcases htype with rfl | rfl <;>
    simp [isTypeCheckNameValid, ite_throw_ok, ite_pure_ok, MAX_NAME_LENGTH]
  rw [hcheck]
  refine ⟨fun h => ⟨h.1, h.2.2.2⟩, fun h => ?_⟩
  have hlong := (isNameValidBeforeTag_iff.1 h.2).long
  exact ⟨h.1, fun _ => hlong, fun _ => hlong, h.2⟩

/-! ### Names that are accepted -/

theorem isAfterTagChar_of_isUniqueTagChar : ∀ c : UInt8, isUniqueTagChar c = true → isAfterTagChar c = true ∧
    c ≠ UNIQUE_TAG_DELIMITER := by
  decide +kernel

theorem isAfterTagChar_of_isChannelTagChar : ∀ c : UInt8, isChannelTagChar c = true → isAfterTagChar c = true ∧
    c ≠ MSGCHANNEL_TAG_DELIMITER := by
  decide +kernel

theorem isAssetNameValid_tagged {tag} (hp : IsPath p)
    (hd : (d, type) ∈ [(UNIQUE_TAG_DELIMITER, .UNIQUE), (MSGCHANNEL_TAG_DELIMITER, .MSGCHANNEL), (VOTE_TAG_DELIMITER, .VOTE)])
    (hne : tag ≠ []) (hafter : tag.all isAfterTagChar = true) (hlen : (p ++ d :: tag).length ≤ 31)
    (hcheck : TypeCheck (p ++ d :: tag) type) : isAssetNameValid (p ++ d :: tag) = .ok type := by
  have hbefore : isBeforeTagChar d = false := by fin_cases hd <;> decide
  have hpos : 1 ≤ tag.length := length_pos_of_ne_nil hne
  have hind : ∀ d', tagIndicator d' (p ++ d :: tag) = (d == d') := by
    intro d'
    rw [tagIndicator_tagged hp hbefore, hafter, decide_eq_true hpos, Bool.and_true, Bool.and_true]
  have howner : OWNER_INDICATOR (p ++ d :: tag) = false := by
    rw [ownerIndicator_tagged hp hbefore, beq_eq_false_iff_ne]
    exact fun h => hne (List.cons.inj h).2
  have hvalid := (typeCheck_iff (by fin_cases hd <;> decide)).2 ⟨hlen, hcheck⟩
  rw [isAssetNameValid, if_neg (by omega), UNIQUE_INDICATOR, MSGCHANNEL_INDICATOR, VOTE_INDICATOR, hind, hind, hind, howner]
  fin_cases hd <;> exact congrArg (· >>= fun _ => pure _) hvalid

theorem accepted_unique (h : Accepts name .UNIQUE) : isAssetNameValid name = .ok .UNIQUE := by
  obtain ⟨p, tag, rfl, hp, htag, hlen⟩ := h
  have hpath := isNameValidBeforeTag_iff.1 hp
  obtain ⟨hne, hchars⟩ := isUniqueTagValid_iff.1 htag
  have hafter := fun c hc => isAfterTagChar_of_isUniqueTagChar c (hchars c hc)
  refine isAssetNameValid_tagged hpath (by decide) hne (all_eq_true.2 fun c hc => (hafter c hc).1) hlen ?_
  rw [TypeCheck, frontBack_tagged (hpath.not_mem (by decide) (by decide)), splitParts_getLastD fun hmem => (hafter _ hmem).2 rfl]
  exact ⟨hp, htag⟩

theorem accepted_msgChannel (h : Accepts name .MSGCHANNEL) : isAssetNameValid name = .ok .MSGCHANNEL := by
  obtain ⟨p, tag, rfl, hp, htag, hshort, hlen⟩ := h
  have hpath := isNameValidBeforeTag_iff.1 hp
  obtain ⟨hne, hchars, -⟩ := isMsgChannelTagValid_iff.1 htag
  have hafter := fun c hc => isAfterTagChar_of_isChannelTagChar c (hchars c hc)
  refine isAssetNameValid_tagged hpath (by decide) hne (all_eq_true.2 fun c hc => (hafter c hc).1) hlen ?_
  rw [TypeCheck, frontBack_tagged (hpath.not_mem (by decide) (by decide)), splitParts_getLastD fun hmem => (hafter _ hmem).2 rfl]
  exact ⟨hshort, hp, htag⟩

theorem accepted_vote (h : Accepts name .VOTE) : isAssetNameValid name = .ok .VOTE := by
  obtain ⟨p, tag, rfl, hp, hafter, hback, hlen⟩ := h
  have hpath := isNameValidBeforeTag_iff.1 hp
  have hne : tag ≠ [] := by
    rintro rfl
    exact absurd hback (by decide)
  refine isAssetNameValid_tagged hpath (by decide) hne hafter hlen ?_
  rw [TypeCheck, frontBack_tagged (hpath.not_mem (by decide) (by decide))]
  exact ⟨hp, hback⟩

theorem accepted_owner (h : Accepts name .OWNER) : isAssetNameValid name = .ok .OWNER := by
  obtain ⟨p, rfl, hp, hlen⟩ := h
  have hpath := isNameValidBeforeTag_iff.1 hp
  have htag : OWNER_TAG = [33] := rfl
  have hno : ∀ d : UInt8, tagIndicator d (p ++ OWNER_TAG) = false := by
    intro d
    rw [htag, tagIndicator_tagged hpath (by decide)]
    simp
  have hind : OWNER_INDICATOR (p ++ OWNER_TAG) = true := by
    rw [htag, ownerIndicator_tagged hpath (by decide)]
    decide
  have hcheck : isTypeCheckNameValid .OWNER (p ++ OWNER_TAG) = .ok () := by
    rw [typeCheck_iff (by decide), TypeCheck, htag, dropLast_concat]
    exact ⟨htag ▸ hlen, hp⟩
  rw [isAssetNameValid, if_neg (by omega), UNIQUE_INDICATOR, hno, MSGCHANNEL_INDICATOR, hno, if_neg (by decide),
    if_neg (by decide), if_pos hind, hcheck]
  rfl

theorem slash_not_mem_marked {n} (hc : c ≠ SUB_NAME_DELIMITER) (h : markedName c n s = true) :
    SUB_NAME_DELIMITER ∉ s := by
  obtain ⟨rest, rfl, hrest⟩ := markedName_eq h
  rw [mem_cons, not_or]
  exact ⟨hc.symm, not_mem_slash_of_all hrest⟩

theorem markedName_eq_false {c d n rest} (h : d ≠ c) : markedName c n (d :: rest) = false := by
  rw [markedName, beq_eq_false_iff_ne.2 h]
  rfl

theorem isAssetNameASubasset_iff (hp : isNameValidBeforeTag p = true) :
    isAssetNameASubasset p = true ↔ SUB_NAME_DELIMITER ∈ p := by
  unfold isNameValidBeforeTag at hp
  unfold isAssetNameASubasset
  split at hp
  · rename_i root subs hsplit
    rw [Bool.and_eq_true] at hp
    simp only [hp.1, Bool.true_and, decide_eq_true_eq]
    constructor
    · intro hpos
      rw [eq_foldl_of_splitParts hsplit]
      induction subs using List.reverseRecOn with
      | nil => simp at hpos
      | append_singleton subs s _ => simp
    · intro hmem
      rw [Nat.one_le_iff_ne_zero, ne_eq, length_eq_zero_iff]
      rintro rfl
      have hone := eq_foldl_of_splitParts hsplit
      obtain ⟨front, back, rfl⟩ := append_of_mem hmem
      have hlen := congrArg List.length hsplit
      rw [splitParts, splitOn_append_cons_self, length_append] at hlen
      have hfront := length_pos_of_ne_nil (splitOn_ne_nil SUB_NAME_DELIMITER front)
      have hback := length_pos_of_ne_nil (splitOn_ne_nil SUB_NAME_DELIMITER back)
      simp only [length_cons, length_nil] at hlen
      omega
  · cases hp

theorem isAssetNameValid_path (hp : IsPath name) (hlen : name.length ≤ 30) : isAssetNameValid name =
    .ok (if isAssetNameASubasset name then AssetType.SUB else AssetType.ROOT) := by
  obtain ⟨htag, howner⟩ := not_tagged (Or.inr (dropWhile_eq_nil_iff.2 hp.beforeTag))
  have hmark : ∀ c n, isNameChar c = false → c ≠ SUB_NAME_DELIMITER → markedName c n name = false := by
    intro c n hname hslash
    rw [← Bool.not_eq_true]
    intro h
    obtain ⟨rest, rfl, -⟩ := markedName_eq h
    exact hp.not_mem hname hslash mem_cons_self
  have hsub : SUB_QUALIFIER_INDICATOR name = false := by
    obtain ⟨c, rest, rfl⟩ := exists_cons_of_ne_nil hp.ne_nil
    have hc : c ≠ QUALIFIER_CHAR := by
      rintro rfl
      exact hp.not_mem (by decide) (by decide) mem_cons_self
    rw [SUB_QUALIFIER_INDICATOR, beq_eq_false_iff_ne.2 hc]
    rfl
  have hcheck : isTypeCheckNameValid (if isAssetNameASubasset name then AssetType.SUB else AssetType.ROOT) name = .ok () := by
    rw [checkRoot_iff (by split <;> simp)]
    exact ⟨hlen, isNameValidBeforeTag_iff.2 hp⟩
  simp only [isAssetNameValid, UNIQUE_INDICATOR, MSGCHANNEL_INDICATOR, VOTE_INDICATOR, QUALIFIER_INDICATOR,
    RESTRICTED_INDICATOR, htag, howner, hsub, hmark QUALIFIER_CHAR 3 (by decide) (by decide),
    hmark RESTRICTED_CHAR 3 (by decide) (by decide), test_iff, hcheck]
  rw [if_neg (by omega)]
  rfl

theorem accepted_root (h : Accepts name .ROOT) : isAssetNameValid name = .ok .ROOT := by
  obtain ⟨hroot, hlen⟩ := h
  have hpath := IsPath.root (isRootNameValid_iff.1 hroot)
  rw [isAssetNameValid_path hpath hlen, if_neg]
  rw [isAssetNameASubasset_iff (isNameValidBeforeTag_iff.2 hpath)]
  exact not_mem_slash_word (isRootNameValid_iff.1 hroot).word

theorem accepted_sub (h : Accepts name .SUB) : isAssetNameValid name = .ok .SUB := by
  obtain ⟨hvalid, hslash, hlen⟩ := h
  rw [isAssetNameValid_path (isNameValidBeforeTag_iff.1 hvalid) hlen, if_pos ((isAssetNameASubasset_iff hvalid).2 hslash)]

theorem isQualifierNameValid_marked (h : isQualifierNameValid s = true) : markedName QUALIFIER_CHAR 3 s = true := by
  simp only [isQualifierNameValid, QUALIFIER_NAME_CHARACTERS, Bool.and_eq_true] at h
  exact h.1.1.1.1

theorem isSubQualifierNameValid_marked (h : isSubQualifierNameValid s = true) : markedName QUALIFIER_CHAR 1 s = true := by
  simp only [isSubQualifierNameValid, SUB_QUALIFIER_NAME_CHARACTERS, Bool.and_eq_true] at h
  exact h.1.1.1

theorem isRestrictedNameValid_marked (h : isRestrictedNameValid s = true) : markedName RESTRICTED_CHAR 3 s = true := by
  simp only [isRestrictedNameValid, RESTRICTED_NAME_CHARACTERS, Bool.and_eq_true] at h
  exact h.1.1.1.1

theorem not_tagged_hash (rest : Bytes) : (∀ d, tagIndicator d (QUALIFIER_CHAR :: rest) = false) ∧
    OWNER_INDICATOR (QUALIFIER_CHAR :: rest) = false :=
  not_tagged (Or.inl (by rw [takeWhile_cons, if_neg (by decide)]))

theorem accepted_qualifier (h : Accepts name .QUALIFIER) : isAssetNameValid name = .ok .QUALIFIER := by
  obtain ⟨hvalid, hlen⟩ := h
  have hmark := isQualifierNameValid_marked hvalid
  have hslash := slash_not_mem_marked (by decide) hmark
  obtain ⟨rest, rfl, -⟩ := markedName_eq hmark
  obtain ⟨htag, howner⟩ := not_tagged_hash rest
  have hcheck : isTypeCheckNameValid .QUALIFIER (QUALIFIER_CHAR :: rest) = .ok () := by
    rw [typeCheck_iff (by decide)]
    exact ⟨hlen, by simp [TypeCheck, isQualifierNameValidBeforeTag, splitParts, splitOn_eq_singleton hslash, hvalid]⟩
  simp only [isAssetNameValid, UNIQUE_INDICATOR, MSGCHANNEL_INDICATOR, VOTE_INDICATOR, QUALIFIER_INDICATOR, htag, howner,
    hmark, test_iff, hcheck, isAssetNameASubQualifier_eq_false hslash]
  rw [if_neg (by omega)]
  rfl

theorem splitParts_pair {q sub} (hq : SUB_NAME_DELIMITER ∉ q) (hsub : SUB_NAME_DELIMITER ∉ sub) :
    splitParts SUB_NAME_DELIMITER (q ++ SUB_NAME_DELIMITER :: sub) = [q, sub] := by
  rw [splitParts_append_slash q hsub, splitParts, splitOn_eq_singleton hq]
  rfl

theorem accepted_subQualifier (h : Accepts name .SUB_QUALIFIER) : isAssetNameValid name = .ok .SUB_QUALIFIER := by
  obtain ⟨q, sub, rfl, hq, hsub, hlen⟩ := h
  have hqmark := isQualifierNameValid_marked hq
  have hsubmark := isSubQualifierNameValid_marked hsub
  have hsplit := splitParts_pair (slash_not_mem_marked (by decide) hqmark) (slash_not_mem_marked (by decide) hsubmark)
  obtain ⟨rest, rfl, hrest⟩ := markedName_eq hqmark
  obtain ⟨htag, howner⟩ := not_tagged_hash (rest ++ SUB_NAME_DELIMITER :: sub)
  have hno : markedName QUALIFIER_CHAR 3 (QUALIFIER_CHAR :: (rest ++ SUB_NAME_DELIMITER :: sub)) = false := by
    rw [← Bool.not_eq_true]
    exact fun h => slash_not_mem_marked (by decide) h (by simp)
  have hpos : 1 ≤ rest.length := by
    simp only [markedName, test_iff] at hqmark
    omega
  have hind : SUB_QUALIFIER_INDICATOR (QUALIFIER_CHAR :: (rest ++ SUB_NAME_DELIMITER :: sub)) = true := by
    have hchars := all_eq_true.1 hrest
    have hslash : isNameChar SUB_NAME_DELIMITER = false := by decide
    rw [SUB_QUALIFIER_INDICATOR, takeWhile_append_of_pos hchars, dropWhile_append_of_pos hchars, takeWhile_cons,
      dropWhile_cons, hslash]
    simp [hsubmark, hpos]
  have hcheck : isTypeCheckNameValid .SUB_QUALIFIER (QUALIFIER_CHAR :: (rest ++ SUB_NAME_DELIMITER :: sub)) = .ok () := by
    rw [typeCheck_iff (by decide)]
    refine ⟨hlen, ?_⟩
    rw [TypeCheck, isQualifierNameValidBeforeTag, ← cons_append, hsplit]
    simp [hq, hsub]
  have htype : isAssetNameASubQualifier (QUALIFIER_CHAR :: (rest ++ SUB_NAME_DELIMITER :: sub)) = true := by
    rw [isAssetNameASubQualifier, ← cons_append, hsplit]
    simp [hq]
  simp only [isAssetNameValid, cons_append, UNIQUE_INDICATOR, MSGCHANNEL_INDICATOR, VOTE_INDICATOR, QUALIFIER_INDICATOR, htag,
    howner, hno, hind, htype, hcheck, test_iff]
  rw [if_neg (by rw [cons_append] at hlen; omega)]
  rfl

theorem accepted_restricted (h : Accepts name .RESTRICTED) : isAssetNameValid name = .ok .RESTRICTED := by
  obtain ⟨hvalid, hlen⟩ := h
  have hmark := isRestrictedNameValid_marked hvalid
  obtain ⟨rest, rfl, hrest⟩ := markedName_eq hmark
  have hchar : ∀ c ∈ RESTRICTED_CHAR :: rest, isBeforeTagChar c = true := by
    intro c hc
    rcases mem_cons.1 hc with rfl | hc
    · decide
    · exact isBeforeTagChar_of_isNameChar c (all_eq_true.1 hrest c hc)
  obtain ⟨htag, howner⟩ := not_tagged (Or.inr (dropWhile_eq_nil_iff.2 hchar))
  have hcheck : isTypeCheckNameValid .RESTRICTED (RESTRICTED_CHAR :: rest) = .ok () := (typeCheck_iff (by decide)).2 ⟨hlen, hvalid⟩
  have hne : (RESTRICTED_CHAR == QUALIFIER_CHAR) = false := by decide
  simp only [isAssetNameValid, UNIQUE_INDICATOR, MSGCHANNEL_INDICATOR, VOTE_INDICATOR, htag, howner, QUALIFIER_INDICATOR,
    SUB_QUALIFIER_INDICATOR, RESTRICTED_INDICATOR, hmark,
    @markedName_eq_false QUALIFIER_CHAR RESTRICTED_CHAR 3 rest (by decide), hne, Bool.false_and, test_iff, hcheck]
  rw [if_neg (by omega)]
  rfl

theorem isAssetNameValid_of_accepts (h : Accepts name type) : isAssetNameValid name = .ok type := by
  cases type with
  | ROOT => exact accepted_root h
  | SUB => exact accepted_sub h
  | UNIQUE => exact accepted_unique h
  | MSGCHANNEL => exact accepted_msgChannel h
  | OWNER => exact accepted_owner h
  | VOTE => exact accepted_vote h
  | QUALIFIER => exact accepted_qualifier h
  | SUB_QUALIFIER => exact accepted_subQualifier h
  | RESTRICTED => exact accepted_restricted h
  | _ => exact h.elim

theorem tagged_of_tagIndicator (h : tagIndicator d name = true) : ∃ p tag, name = p ++ d :: tag ∧
    (∀ c ∈ p, isBeforeTagChar c = true) ∧ tag.all isAfterTagChar = true := by
  unfold tagIndicator at h
  split at h
  · rename_i c p d' tag htake hdrop
    simp only [test_iff] at h
    obtain ⟨⟨rfl, -⟩, hafter⟩ := h
    refine ⟨c :: p, tag, ?_, ?_, hafter⟩
    · rw [← htake, ← hdrop, takeWhile_append_dropWhile]
    · rw [← htake]
      exact all_eq_true.1 (all_takeWhile (p := isBeforeTagChar) (l := name))
  · cases h

theorem not_mem_of_chars {allowed : UInt8 → Bool} (hp : ∀ c ∈ p, allowed c = true) (hd : allowed d = false) : d ∉ p := by
  intro hmem
  rw [hp d hmem] at hd
  cases hd

theorem accepts_qualifier (hcheck : isTypeCheckNameValid .QUALIFIER name = .ok ()) (hind : QUALIFIER_INDICATOR name = true) :
    Accepts name (if isAssetNameASubQualifier name then .SUB_QUALIFIER else .QUALIFIER) := by
  have hslash := not_mem_slash_of_qualifierIndicator hind
  rw [typeCheck_iff (by decide)] at hcheck
  rw [isAssetNameASubQualifier_eq_false hslash]
  refine ⟨?_, hcheck.1⟩
  simpa [TypeCheck, isQualifierNameValidBeforeTag, splitParts, splitOn_eq_singleton hslash] using hcheck.2

theorem subQualifier_of_indicator (h : SUB_QUALIFIER_INDICATOR name = true) : ∃ q sub, name = q ++ SUB_NAME_DELIMITER :: sub ∧
    SUB_NAME_DELIMITER ∉ q ∧ SUB_NAME_DELIMITER ∉ sub := by
  unfold SUB_QUALIFIER_INDICATOR at h
  split at h
  · rename_i c rest
    simp only [test_iff] at h
    obtain ⟨⟨rfl, -⟩, h⟩ := h
    split at h
    · rename_i d sub hdrop
      simp only [test_iff] at h
      obtain ⟨rfl, hmark⟩ := h
      refine ⟨QUALIFIER_CHAR :: rest.takeWhile isNameChar, sub, ?_, ?_, slash_not_mem_marked (by decide) hmark⟩
      · rw [cons_append, ← hdrop, takeWhile_append_dropWhile]
      · rw [mem_cons, not_or]
        exact ⟨by decide, not_mem_slash_of_all all_takeWhile⟩
    · cases h
  · cases h

theorem accepts_subQualifier (hcheck : isTypeCheckNameValid .SUB_QUALIFIER name = .ok ())
    (hind : SUB_QUALIFIER_INDICATOR name = true) :
    Accepts name (if isAssetNameASubQualifier name then .SUB_QUALIFIER else .INVALID) := by
  obtain ⟨q, sub, rfl, hq, hsub⟩ := subQualifier_of_indicator hind
  obtain ⟨hlen, hvalid⟩ := (typeCheck_iff (by decide)).1 hcheck
  rw [isAssetNameASubQualifier_of_valid hvalid (by simp)]
  rw [TypeCheck, isQualifierNameValidBeforeTag, splitParts_pair hq hsub] at hvalid
  simp only [all_cons, all_nil, Bool.and_eq_true] at hvalid
  exact ⟨q, sub, rfl, hvalid.1.1, hvalid.2.1, hlen⟩

theorem accepts_path (hcheck : isTypeCheckNameValid (if isAssetNameASubasset name then .SUB else .ROOT) name = .ok ()) :
    Accepts name (if isAssetNameASubasset name then .SUB else .ROOT) := by
  obtain ⟨hlen, hvalid⟩ := (checkRoot_iff (by split <;> simp)).1 hcheck
  by_cases hsub : isAssetNameASubasset name = true
  · rw [if_pos hsub]
    exact ⟨hvalid, (isAssetNameASubasset_iff hvalid).1 hsub, hlen⟩
  · rw [if_neg hsub]
    rw [isAssetNameASubasset_iff hvalid] at hsub
    refine ⟨?_, hlen⟩
    simpa [isNameValidBeforeTag, splitParts, splitOn_eq_singleton hsub] using hvalid

theorem accepts_of_isAssetNameValid (h : isAssetNameValid name = .ok type) : Accepts name type := by
  unfold isAssetNameValid at h
  split at h
  · cases h
  split at h
  · rename_i hind
    simp only [ok_iff] at h
    obtain ⟨hcheck, rfl⟩ := h
    obtain ⟨p, tag, rfl, hp, htag⟩ := tagged_of_tagIndicator hind
    rw [typeCheck_iff (by decide), TypeCheck, frontBack_tagged (not_mem_of_chars hp (by decide)),
      splitParts_getLastD (not_mem_of_chars (all_eq_true.1 htag) (by decide))] at hcheck
    exact ⟨p, tag, rfl, hcheck.2.1, hcheck.2.2, hcheck.1⟩
  split at h
  · rename_i hind
    simp only [ok_iff] at h
    obtain ⟨hcheck, rfl⟩ := h
    obtain ⟨p, tag, rfl, hp, htag⟩ := tagged_of_tagIndicator hind
    rw [typeCheck_iff (by decide), TypeCheck, frontBack_tagged (not_mem_of_chars hp (by decide)),
      splitParts_getLastD (not_mem_of_chars (all_eq_true.1 htag) (by decide))] at hcheck
    exact ⟨p, tag, rfl, hcheck.2.2.1, hcheck.2.2.2, hcheck.2.1, hcheck.1⟩
  split at h
  · rename_i hind
    simp only [ok_iff] at h
    obtain ⟨hcheck, rfl⟩ := h
    rw [OWNER_INDICATOR, Bool.and_eq_true, beq_iff_eq] at hind
    have hname : name = name.takeWhile isBeforeTagChar ++ OWNER_TAG := by rw [← hind.2, takeWhile_append_dropWhile]
    rw [typeCheck_iff (by decide)] at hcheck
    refine ⟨name.takeWhile isBeforeTagChar, hname, ?_, hcheck.1⟩
    have hfront : name.dropLast = name.takeWhile isBeforeTagChar := by
      nth_rewrite 1 [hname]
      exact dropLast_concat
    exact hfront ▸ hcheck.2
  split at h
  · rename_i hind
    simp only [ok_iff] at h
    obtain ⟨hcheck, rfl⟩ := h
    obtain ⟨p, tag, rfl, hp, htag⟩ := tagged_of_tagIndicator hind
    rw [typeCheck_iff (by decide), TypeCheck, frontBack_tagged (not_mem_of_chars hp (by decide))] at hcheck
    exact ⟨p, tag, rfl, hcheck.2.1, htag, hcheck.2.2, hcheck.1⟩
  split at h
  · rename_i hind
    simp only [ok_iff] at h
    exact h.2 ▸ accepts_qualifier h.1 hind
  split at h
  · rename_i hind
    simp only [ok_iff] at h
    exact h.2 ▸ accepts_subQualifier h.1 hind
  split at h
  · simp only [ok_iff] at h
    obtain ⟨hcheck, rfl⟩ := h
    exact ((typeCheck_iff (by decide)).1 hcheck).symm
  · simp only [ok_iff] at h
    exact h.2 ▸ accepts_path h.1

/-! ## The code and the grammar -/

theorem doublePunctuation_cons (hc : isPunctuation c = false) (hany : isAnyChar c = true) :
    DOUBLE_PUNCTUATION (c :: s) = DOUBLE_PUNCTUATION s := by
  have hadj : adjacentPunctuation (c :: s) = adjacentPunctuation s := by
    cases s with
    | nil => rfl
    | cons d s => rw [adjacentPunctuation, hc, Bool.false_and, Bool.false_or]
  rw [DOUBLE_PUNCTUATION, DOUBLE_PUNCTUATION, hadj, all_cons, hany, Bool.true_and]

theorem trailingPunctuation_cons (hs : s ≠ []) (hany : isAnyChar c = true) :
    TRAILING_PUNCTUATION (c :: s) = TRAILING_PUNCTUATION s := by
  obtain ⟨d, rest, hrev⟩ := exists_cons_of_ne_nil (reverse_ne_nil_iff.2 hs)
  rw [TRAILING_PUNCTUATION, TRAILING_PUNCTUATION, reverse_cons, hrev, cons_append, LEADING_PUNCTUATION,
    LEADING_PUNCTUATION, all_append, all_cons, hany, all_nil, Bool.and_true, Bool.and_true]

theorem markedName_cons {n} : markedName c n (c :: s) = true ↔ n ≤ s.length ∧ s.all isNameChar = true := by
  rw [markedName, beq_self_eq_true, Bool.true_and, Bool.and_eq_true, decide_eq_true_eq]

/-- A word behind a mark is tested as a word, once its first character is tested too. -/
theorem markedWord_iff {n} (hn : 1 ≤ n) (hc : isPunctuation c = false) (hany : isAnyChar c = true) :
    markedName c n (c :: s) = true ∧ DOUBLE_PUNCTUATION (c :: s) = false ∧ LEADING_PUNCTUATION s = false ∧
      TRAILING_PUNCTUATION (c :: s) = false ↔ n ≤ s.length ∧ IsWord s := by
  rw [markedName_cons, doublePunctuation_cons hc hany, IsWord, isComponent_iff isAnyChar_of_isNameChar]
  constructor
  · rintro ⟨⟨hlen, hall⟩, hdouble, hleading, htrailing⟩
    have hne : s ≠ [] := ne_nil_of_length_pos (by omega)
    exact ⟨hlen, hne, hall, hdouble, hleading, trailingPunctuation_cons hne hany ▸ htrailing⟩
  · rintro ⟨hlen, hne, hall, hdouble, hleading, htrailing⟩
    exact ⟨⟨hlen, hall⟩, hdouble, hleading, (trailingPunctuation_cons hne hany).trans htrailing⟩

theorem isRoot_iff : IsRoot s ↔ (3 ≤ s.length ∧ IsWord s) ∧ s ∉ networkNames :=
  ⟨fun h => ⟨⟨h.long, h.word⟩, h.free⟩, fun h => ⟨h.1.2, h.1.1, h.2⟩⟩

theorem hiveNames_marked {P : Bytes → Prop} (h : HIVE_NAMES (c :: s) = true)
    (hcases : ∀ t ∈ ["RVN", "RAVEN", "RAVENCOIN", "#RVN", "#RAVEN", "#RAVENCOIN", "HVQ", "HVN", "HIVE", "HIVECOIN", "#HVN",
      "#HIVE", "#HIVECOIN"], (ascii t).head? = some c → P (ascii t).tail) : P s := by
  obtain ⟨t, ht, heq⟩ := any_eq_true.1 h
  have hs := hcases t ht
  rw [beq_iff_eq.1 heq] at hs
  exact hs rfl

theorem isRestrictedNameValid_iff : isRestrictedNameValid (RESTRICTED_CHAR :: s) = true ∧ LEADING_PUNCTUATION s = false ∧
    s ∉ networkNames ↔ IsRoot s := by
  have hfree : HIVE_NAMES (RESTRICTED_CHAR :: s) = false := by
    rw [← Bool.not_eq_true]
    exact fun h => hiveNames_marked (P := fun _ => False) h (by decide)
  have hmark : LEADING_PUNCTUATION (RESTRICTED_CHAR :: s) = false := rfl
  rw [isRoot_iff, ← markedWord_iff (by decide) (c := RESTRICTED_CHAR) rfl rfl]
  simp only [isRestrictedNameValid, RESTRICTED_NAME_CHARACTERS, hfree, hmark, test_iff]
  tauto

theorem isQualifierNameValid_iff : isQualifierNameValid (QUALIFIER_CHAR :: s) = true ∧ s ≠ ascii "HVQ" ↔ IsRoot s := by
  have hhive : HIVE_NAMES (QUALIFIER_CHAR :: s) = true ↔ s ∈ networkNames ∧ s ≠ ascii "HVQ" := by
    have hall : ∀ s ∈ networkNames, s ≠ ascii "HVQ" → HIVE_NAMES (QUALIFIER_CHAR :: s) = true := by decide
    exact ⟨fun h => hiveNames_marked (P := fun s => s ∈ networkNames ∧ s ≠ ascii "HVQ") h (by decide), fun h => hall s h.1 h.2⟩
  have hmark : QUALIFIER_LEADING_PUNCTUATION (QUALIFIER_CHAR :: s) = LEADING_PUNCTUATION s := by
    rw [QUALIFIER_LEADING_PUNCTUATION, beq_self_eq_true, Bool.true_or, Bool.true_and]
  have hreserved : ascii "HVQ" ∈ networkNames := by decide
  have hne : s ∉ networkNames → s ≠ ascii "HVQ" := fun h heq => h (heq ▸ hreserved)
  rw [isRoot_iff, ← markedWord_iff (by decide) (c := QUALIFIER_CHAR) rfl rfl]
  simp only [isQualifierNameValid, QUALIFIER_NAME_CHARACTERS, hmark, test_iff, ← Bool.not_eq_true, hhive]
  tauto

theorem isSubQualifierNameValid_iff : isSubQualifierNameValid (QUALIFIER_CHAR :: s) = true ∧ LEADING_PUNCTUATION s = false ↔
    IsWord s := by
  have hmark : LEADING_PUNCTUATION (QUALIFIER_CHAR :: s) = false := rfl
  have hword : IsWord s ↔ 1 ≤ s.length ∧ IsWord s := ⟨fun h => ⟨length_pos_of_ne_nil h.nonempty, h⟩, And.right⟩
  rw [hword, ← markedWord_iff (by decide) (c := QUALIFIER_CHAR) rfl rfl]
  simp only [isSubQualifierNameValid, SUB_QUALIFIER_NAME_CHARACTERS, hmark, test_iff]
  tauto

theorem isAfterTagChar_of_isNameChar : ∀ c : UInt8, isNameChar c = true → isAfterTagChar c = true ∧ c ≠ VOTE_TAG_DELIMITER := by
  decide +kernel

theorem accepts_of_nameOf (h : NameOf type name) : Accepts name type := by
  cases h with
  | root hs hlen => exact ⟨isRootNameValid_iff.2 hs, hlen⟩
  | sub hp hs hlen => exact ⟨isNameValidBeforeTag_iff.2 (.sub hp hs), by simp, hlen⟩
  | unique hp hne htag hlen => exact ⟨_, _, rfl, isNameValidBeforeTag_iff.2 hp, isUniqueTagValid_iff.2 ⟨hne, htag⟩, hlen⟩
  | msgChannel hp htag hshort hlen =>
    exact ⟨_, _, rfl, isNameValidBeforeTag_iff.2 hp, isMsgChannelTagValid_iff.2 htag, hshort, hlen⟩
  | owner hp hlen => exact ⟨_, rfl, isNameValidBeforeTag_iff.2 hp, hlen⟩
  | @vote p tag hp htag hlen =>
    have hafter : ∀ c ∈ tag, isAfterTagChar c = true ∧ c ≠ VOTE_TAG_DELIMITER :=
      fun c hc => isAfterTagChar_of_isNameChar c (htag.chars c hc)
    refine ⟨p, tag, rfl, isNameValidBeforeTag_iff.2 hp, all_eq_true.2 fun c hc => (hafter c hc).1, ?_, hlen⟩
    have hpos : 1 ≤ tag.length := length_pos_of_ne_nil htag.nonempty
    rw [splitParts_getLastD fun hmem => (hafter _ hmem).2 rfl, isVoteTagValid, VOTE_TAG_CHARACTERS, decide_eq_true hpos,
      all_eq_true.2 htag.chars]
    rfl
  | qualifier hs hlen => exact ⟨(isQualifierNameValid_iff.2 hs).1, hlen⟩
  | subQualifier hs hsub hlen => exact ⟨_, _, rfl, (isQualifierNameValid_iff.2 hs).1, (isSubQualifierNameValid_iff.2 hsub).1, hlen⟩
  | restricted hs hlen => exact ⟨(isRestrictedNameValid_iff.2 hs).1, hlen⟩

/-- The call with its output parameter, which a name of more than 40 bytes leaves as it is. -/
def isAssetNameValidInto (assetType : AssetType) (name : Bytes) : Bool × AssetType :=
  if name.length > 40 then (false, assetType)
  else match isAssetNameValid name with
    | .ok type => (true, type)
    | .error _ => (false, .INVALID)

/-- Verdict and type are those of the grammar, whatever type is passed in. -/
structure MatchesGrammar (name : Bytes) : Prop where
  accepted : ∀ type, (isAssetNameValidInto type name).1 = true → NameOf (isAssetNameValidInto type name).2 name
  complete : ∀ type expected, NameOf expected name → isAssetNameValidInto type name = (true, expected)
  refused : ∀ type, (isAssetNameValidInto type name).1 = false → (isAssetNameValidInto type name).2 = .INVALID

/-- The tests that the code leaves out, of the names that pass the others. -/
structure WordsValid (name : Bytes) : Prop where
  restricted : isRestrictedNameValid name = true → LEADING_PUNCTUATION (name.drop 1) = false ∧ name.drop 1 ∉ networkNames
  qualifier : isQualifierNameValid name = true → name.drop 1 ≠ ascii "HVQ"
  subQualifier : ∀ q sub, name = q ++ SUB_NAME_DELIMITER :: sub → isQualifierNameValid q = true →
    isSubQualifierNameValid sub = true → q.drop 1 ≠ ascii "HVQ" ∧ LEADING_PUNCTUATION (sub.drop 1) = false
  vote : ∀ p tag, name = p ++ VOTE_TAG_DELIMITER :: tag → isNameValidBeforeTag p = true → tag.all isAfterTagChar = true →
    isVoteTagValid ((splitParts VOTE_TAG_DELIMITER tag).getLastD []) = true → isSubNameValid tag = true

theorem nameOf_of_accepts (hwords : name.length ≤ 31 → WordsValid name) (h : Accepts name type) :
    NameOf type name := by
  cases type with
  | ROOT => exact .root (isRootNameValid_iff.1 h.1) h.2
  | SUB =>
    obtain ⟨hvalid, hslash, hlen⟩ := h
    cases isNameValidBeforeTag_iff.1 hvalid with
    | root hs => exact absurd hslash (not_mem_slash_word hs.word)
    | sub hp hs => exact .sub hp hs hlen
  | UNIQUE =>
    obtain ⟨p, tag, rfl, hp, htag, hlen⟩ := h
    exact .unique (isNameValidBeforeTag_iff.1 hp) (isUniqueTagValid_iff.1 htag).1 (isUniqueTagValid_iff.1 htag).2 hlen
  | MSGCHANNEL =>
    obtain ⟨p, tag, rfl, hp, htag, hshort, hlen⟩ := h
    exact .msgChannel (isNameValidBeforeTag_iff.1 hp) (isMsgChannelTagValid_iff.1 htag) hshort hlen
  | OWNER =>
    obtain ⟨p, rfl, hp, hlen⟩ := h
    exact .owner (isNameValidBeforeTag_iff.1 hp) hlen
  | VOTE =>
    obtain ⟨p, tag, rfl, hp, hafter, hback, hlen⟩ := h
    exact .vote (isNameValidBeforeTag_iff.1 hp) (isSubNameValid_iff.1 ((hwords hlen).vote p tag rfl hp hafter hback)) hlen
  | QUALIFIER =>
    obtain ⟨hvalid, hlen⟩ := h
    have hnames := (hwords hlen).qualifier hvalid
    obtain ⟨s, rfl, -⟩ := markedName_eq (isQualifierNameValid_marked hvalid)
    exact .qualifier (isQualifierNameValid_iff.1 ⟨hvalid, hnames⟩) hlen
  | SUB_QUALIFIER =>
    obtain ⟨q, sub, rfl, hq, hsub, hlen⟩ := h
    obtain ⟨hnames, hleading⟩ := (hwords hlen).subQualifier q sub rfl hq hsub
    obtain ⟨s, rfl, -⟩ := markedName_eq (isQualifierNameValid_marked hq)
    obtain ⟨t, rfl, -⟩ := markedName_eq (isSubQualifierNameValid_marked hsub)
    exact .subQualifier (isQualifierNameValid_iff.1 ⟨hq, hnames⟩) (isSubQualifierNameValid_iff.1 ⟨hsub, hleading⟩) hlen
  | RESTRICTED =>
    obtain ⟨hvalid, hlen⟩ := h
    have hrest := (hwords hlen).restricted hvalid
    obtain ⟨s, rfl, -⟩ := markedName_eq (isRestrictedNameValid_marked hvalid)
    exact .restricted (isRestrictedNameValid_iff.1 ⟨hvalid, hrest⟩) hlen
  | _ => exact h.elim

theorem wordsValid_of_nameOf (h : ∀ type, Accepts name type → NameOf type name) (hlen : name.length ≤ 31) : WordsValid name where
  restricted := by
    intro hvalid
    cases h .RESTRICTED ⟨hvalid, hlen⟩ with
    | restricted hs => exact (isRestrictedNameValid_iff.2 hs).2
  qualifier := by
    intro hvalid
    cases h .QUALIFIER ⟨hvalid, hlen⟩ with
    | qualifier hs => exact (isQualifierNameValid_iff.2 hs).2
  subQualifier := by
    intro q sub hname hq hsub
    have hslash : SUB_NAME_DELIMITER ∉ q := slash_not_mem_marked (by decide) (isQualifierNameValid_marked hq)
    have hslash' : SUB_NAME_DELIMITER ∉ sub := slash_not_mem_marked (by decide) (isSubQualifierNameValid_marked hsub)
    generalize hn : name = n at h
    cases h .SUB_QUALIFIER ⟨q, sub, hn ▸ hname, hq, hsub, hn ▸ hlen⟩ with
    | subQualifier hs ht =>
      rw [hname] at hn
      obtain rfl := append_cons_inj_of_not_mem hn hslash hslash'
      obtain rfl := (List.cons.inj (append_cancel_left hn)).2
      exact ⟨(isQualifierNameValid_iff.2 hs).2, (isSubQualifierNameValid_iff.2 ht).2⟩
  vote := by
    intro p tag hname hp hafter hback
    generalize hn : name = n at h
    cases h .VOTE ⟨p, tag, hn ▸ hname, hp, hafter, hback, hn ▸ hlen⟩ with
    | @vote p' tag' hp' htag =>
      rw [hname] at hn
      have htake := takeWhile_tagged (isNameValidBeforeTag_iff.1 hp).beforeTag (d := VOTE_TAG_DELIMITER) (by decide) tag
      have htake' := takeWhile_tagged hp'.beforeTag (d := VOTE_TAG_DELIMITER) (by decide) tag'
      rw [hn] at htake
      obtain rfl := (List.cons.inj (htake.2.symm.trans htake'.2)).2
      exact isSubNameValid_iff.2 htag

theorem nameOf_iff_accepts (name : Bytes) : (∀ type, NameOf type name ↔ Accepts name type) ↔
    (name.length ≤ 31 → WordsValid name) :=
  ⟨fun h hlen => wordsValid_of_nameOf (fun type => (h type).2) hlen,
    fun h _ => ⟨accepts_of_nameOf, nameOf_of_accepts h⟩⟩

theorem isAssetNameValidInto_accepted {type found} (h : Accepts name found) :
    isAssetNameValidInto type name = (true, found) := by
  have hvalid := isAssetNameValid_of_accepts h
  have hshort := (nameValid_length (nameValid_iff.2 ⟨found, hvalid⟩)).1
  rw [isAssetNameValidInto, if_neg (by omega), hvalid]

theorem accepts_of_isAssetNameValidInto (h : (isAssetNameValidInto type name).1 = true) :
    Accepts name (isAssetNameValidInto type name).2 := by
  unfold isAssetNameValidInto at h ⊢
  split
  · rw [if_pos ‹_›] at h
    cases h
  · rw [if_neg ‹_›] at h
    cases hvalid : isAssetNameValid name with
    | ok found => exact accepts_of_isAssetNameValid hvalid
    | error e =>
      rw [hvalid] at h
      cases h

/-- A name of at most 40 bytes gets the verdict and the type of the grammar, unless it fails a test that the code leaves out for a
restricted name, a qualifier or a vote. -/
theorem name_matches_grammar_iff (name : Bytes) : MatchesGrammar name ↔
    name.length ≤ 40 ∧ (name.length ≤ 31 → WordsValid name) := by
  rw [← nameOf_iff_accepts]
  constructor
  · intro h
    refine ⟨?_, fun type => ⟨accepts_of_nameOf, fun hacc => ?_⟩⟩
    · by_contra hlong
      have hno := h.refused .ROOT
      rw [isAssetNameValidInto, if_pos (by omega)] at hno
      cases hno rfl
    · have heq := @isAssetNameValidInto_accepted _ .INVALID _ hacc
      have hnameOf := h.accepted .INVALID (by rw [heq])
      rwa [heq] at hnameOf
  · rintro ⟨hshort, hiff⟩
    refine ⟨fun type h => (hiff _).2 (accepts_of_isAssetNameValidInto h), fun type expected h => ?_, fun type h => ?_⟩
    · exact isAssetNameValidInto_accepted ((hiff _).1 h)
    · rw [isAssetNameValidInto, if_neg (by omega)] at h ⊢
      cases hvalid : isAssetNameValid name with
      | ok found =>
        rw [hvalid] at h
        cases h
      | error e => rfl

/-- `$HVN` is accepted: reserved names are compared with the text behind the `$`. -/
theorem reserved_name_accepted : ¬MatchesGrammar (ascii "$HVN") := by
  intro h
  have hacc : (isAssetNameValidInto .INVALID (ascii "$HVN")).1 = true := by decide +kernel
  have htype : (isAssetNameValidInto .INVALID (ascii "$HVN")).2 = .RESTRICTED := by decide +kernel
  have hname := h.accepted .INVALID hacc
  rw [htype] at hname
  generalize hn : ascii "$HVN" = n at hname
  cases hname with
  | @restricted s hs =>
    obtain rfl : s = ascii "HVN" := (List.cons.inj hn).2.symm
    exact hs.free (by decide)

end Hivecoin

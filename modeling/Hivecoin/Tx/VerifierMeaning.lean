import Hivecoin.Assets.VerifierFormula
import Hivecoin.Tx.CheckAssets
import Hivecoin.Tx.Lemmas.Classify

/-!
# What an accepted verifier means

A text that is accepted has a value under every valuation. It need not be a formula: what precedes an operand is passed over.
-/

namespace Hivecoin

open Outcome CAssetsCache LibBoolEE List Script

variable {E : Env} {S : Store} {c : CAssetsCache} {v address : Bytes} {found : List Bytes}
variable {a b : Bytes → Option Bool} {n : Nat} {r : Bool} {q s : Bytes}

def valuesOf (found : List Bytes) (a : Bytes → Bool) (q : Bytes) : Option Bool := if found.contains q then some (a q) else none

def hasQualifier (S : Store) (address q : Bytes) : Bool := checkForAddressQualifier S ∅ (QUALIFIER_CHAR :: q) address

theorem resolveParts_of_ok {f start ps}
    (ih : ∀ {s r}, resolveUpTo a n s = .ok r → ∃ r', resolveUpTo b n s = .ok r') (h : resolveParts a n f start ps = .ok r) : ∃ r', resolveParts b n f start ps = .ok r' := by
  refine foldlM_succeeds (fun _ l => ∀ p ∈ l, ∃ r, resolveUpTo b n p = .ok r) (fun s x l hl => ?_) fun p hp => ?_
  · obtain ⟨r', hr'⟩ := hl x mem_cons_self
    exact ⟨f s r', by rw [hr']; rfl, fun p hp => hl p (mem_cons_of_mem _ hp)⟩
  · obtain ⟨r', hr'⟩ := resolveParts_ok h p hp
    exact ih hr'

theorem resolveOperand_of_ok (hab : ∀ q, (a q).isSome → (b q).isSome)
    (ih : ∀ {s r}, resolveUpTo a n s = .ok r → ∃ r', resolveUpTo b n s = .ok r') (h : resolveOperand a n s = .ok r) : ∃ r', resolveOperand b n s = .ok r' := by
  unfold resolveOperand at h ⊢
  split at h
  · simp only [bind_eq_ok] at h
    obtain ⟨r1, hr1, -⟩ := h
    obtain ⟨r2, hr2⟩ := ih hr1
    exact ⟨!r2, by rw [if_pos ‹_›, hr2]; rfl⟩
  rw [if_neg ‹_›]
  split at h
  · rw [if_pos ‹_›]
    exact ih h
  rw [if_neg ‹_›]
  split at h
  · exact ⟨true, by rw [if_pos ‹_›]; rfl⟩
  rw [if_neg ‹_›]
  split at h
  · exact ⟨false, by rw [if_pos ‹_›]; rfl⟩
  rw [if_neg ‹_›]
  obtain ⟨r', hr'⟩ := Option.isSome_iff_exists.1 (hab s (by rw [orError_eq_ok.1 h]; rfl))
  exact ⟨r', by rw [hr']; rfl⟩

/-- Whether the evaluator throws depends on the names only. -/
theorem resolveUpTo_of_ok (hab : ∀ q, (a q).isSome → (b q).isSome) (h : resolveUpTo a n s = .ok r) : ∃ r', resolveUpTo b n s = .ok r' := by
  induction n generalizing s r with
  | zero => cases h
  | succ n ih =>
    simp only [resolveUpTo_succ] at h ⊢
    split at h
    · cases h
    rw [if_neg ‹_›]
    obtain ⟨byOr, hor, h⟩ := bind_eq_ok.1 h
    simp only [bind_eq_ok, hor, Except.ok.injEq, exists_eq_left']
    split at h
    · rw [if_pos ‹_›]
      exact resolveParts_of_ok ih h
    rw [if_neg ‹_›]
    obtain ⟨byAnd, hand, h⟩ := bind_eq_ok.1 h
    simp only [bind_eq_ok, hand, Except.ok.injEq, exists_eq_left']
    unfold resolveAnd at h ⊢
    split at h
    · cases h
    rw [if_neg ‹_›]
    split at h
    · rw [if_pos ‹_›]
      exact resolveOperand_of_ok hab ih h
    · rw [if_neg ‹_›]
      exact resolveParts_of_ok ih h

/-- What `CheckVerifierString` has seen of a text that is not `true`. -/
structure Accepted (v : Bytes) (found : List Bytes) : Prop where
  found_eq : found = extractVerifierStringQualifiers (getStrippedVerifierString v)
  valid : ∀ q ∈ found, isQualifierNameValid (QUALIFIER_CHAR :: q) = true
  resolves : ∃ r, resolve v (valuesOf found fun _ => true) = .ok r

theorem accepted_of_checkVerifierString (hne : v ≠ ascii "true") (h : checkVerifierString v = .ok found) : Accepted v found := by
  simp only [checkVerifierString, if_neg hne, ok_iff, forM_eq_ok] at h
  obtain ⟨-, -, hvalid, h⟩ := h
  split at h
  · rename_i r hr
    obtain rfl := pure_eq_ok.1 h
    exact ⟨rfl, hvalid, r, hr⟩
  · cases h

theorem valuesOf_isSome {a b} (h : (valuesOf found a q).isSome) : (valuesOf found b q).isSome := by
  unfold valuesOf at h ⊢
  split at h
  · rw [if_pos ‹_›]
    rfl
  · cases h

theorem Accepted.resolves_all (h : Accepted v found) (a : Bytes → Bool) : ∃ r, resolve v (valuesOf found a) = .ok r := by
  obtain ⟨r, hr⟩ := h.resolves
  exact resolveUpTo_of_ok (fun _ => valuesOf_isSome) hr

theorem contextualCheckVerifierString_eq (hne : v ≠ ascii "true") (h : checkVerifierString v = .ok found) :
    contextualCheckVerifierString E S c v address = (do
      found.forM fun q => require (checkIfAssetExists E S c (QUALIFIER_CHAR :: q))
        "bad-txns-null-verifier-contains-non-issued-qualifier"
      if address = [] then return
      match resolve v (valuesOf found (hasQualifier S address)) with
      | .ok ret => require ret "bad-txns-null-verifier-address-failed-verification"
      | .error _ => throw "bad-txns-null-verifier-failed-contexual-syntax-check") := by
  rw [contextualCheckVerifierString, if_neg hne, h]
  rfl

/-- A verifier that was accepted has a value under every valuation of the names that were found, unless it is `true`, which is
never evaluated; so the contextual check fails for a name that does not exist or for the value false. -/
theorem accepted_verifier_resolves (h : checkVerifierString v = .ok found) :
    (v ≠ ascii "true" → ∀ a : Bytes → Bool, ∃ r, resolve v (valuesOf found a) = .ok r) ∧
      ∀ E S c address e, contextualCheckVerifierString E S c v address = .error e → v ≠ ascii "true" ∧
        ((∃ q ∈ found, checkIfAssetExists E S c (QUALIFIER_CHAR :: q) = false) ∨
          resolve v (valuesOf found (hasQualifier S address)) = .ok false) := by
  refine ⟨fun hne => (accepted_of_checkVerifierString hne h).resolves_all, fun E S c address e he => ?_⟩
  have hne : v ≠ ascii "true" := by
    rintro rfl
    rw [contextualCheckVerifierString, if_pos rfl] at he
    cases he
  refine ⟨hne, ?_⟩
  obtain ⟨r, hr⟩ := (accepted_of_checkVerifierString hne h).resolves_all (hasQualifier S address)
  rw [contextualCheckVerifierString_eq hne h, hr] at he
  cases r with
  | false => exact Or.inr hr
  | true =>
    refine Or.inl ?_
    by_contra hall
    push Not at hall
    have hforM : found.forM (fun q => require (checkIfAssetExists E S c (QUALIFIER_CHAR :: q))
        "bad-txns-null-verifier-contains-non-issued-qualifier") = .ok () :=
      forM_eq_ok.2 fun q hq => require_eq_ok.2 (by simpa using hall q hq)
    rw [hforM] at he
    split at he <;> cases he

/-- A verifier with two names: both kinds of failure are possible. -/
theorem accepted_verifier_resolves_kyc : checkVerifierString (ascii "KYC & !VIP") = .ok [ascii "KYC", ascii "VIP"] ∧
    (ascii "KYC & !VIP" ≠ ascii "true" → ∀ a : Bytes → Bool,
      ∃ r, resolve (ascii "KYC & !VIP") (valuesOf [ascii "KYC", ascii "VIP"] a) = .ok r) :=
  ⟨by decide +kernel, (accepted_verifier_resolves (by decide +kernel)).1⟩

/-- `true` is accepted without names, and the evaluator does not know it. -/
theorem true_not_resolved : checkVerifierString (ascii "true") = .ok [] ∧
    resolve (ascii "true") (valuesOf [] fun _ => true) = .error .variableNotFound := by
  decide +kernel

/-- The verifier is a formula, and an address is checked by its value. -/
structure MeansFormula (v : Bytes) : Prop where
  formula : ∃ d : Disjunction, d.text = getStrippedVerifierString v
  verdict : ∀ d : Disjunction, d.text = getStrippedVerifierString v → ∀ E S c address, address ≠ [] →
    (∀ q ∈ d.names, checkIfAssetExists E S c (QUALIFIER_CHAR :: q) = true) →
      (contextualCheckVerifierString E S c v address = .ok () ↔ d.eval (hasQualifier S address) = true)

theorem joined_of_removeCharacter {operand operand'} (hop : operand = true → operand' = true)
    (h : joined operand (removeCharacter s QUALIFIER_CHAR) = true) : joined operand' s = true := by
  induction s generalizing operand operand' with
  | nil => rfl
  | cons c s ih =>
    unfold removeCharacter at h ih
    by_cases hc : c = QUALIFIER_CHAR
    · subst hc
      rw [filter_cons_of_neg (by decide)] at h
      exact joined_cons.2 ⟨Or.inl (by decide), ih (fun _ => by decide) h⟩
    · rw [filter_cons_of_pos (by simpa using hc), joined_cons] at h
      exact joined_cons.2 ⟨h.1.imp id fun ho => ⟨hop ho.1, ho.2⟩, ih id h.2⟩

theorem Accepted.valuesOf_name (h : Accepted v found) {a} (hq : (valuesOf found a q).isSome) :
    q ≠ [] ∧ q.all isNameChar = true := by
  have hmem : q ∈ found := by
    unfold valuesOf at hq
    split at hq
    · simpa using ‹found.contains q = true›
    · cases hq
  rw [h.found_eq, mem_extract] at hmem
  exact mem_nameRuns rfl hmem

theorem resolve_removeWhitespaces (valuation : Bytes → Option Bool) (n : Nat) (s : Bytes) :
    resolveUpTo valuation n (removeWhitespaces s) = resolveUpTo valuation n s := by
  cases n with
  | zero => rfl
  | succ n =>
    have hidem : removeWhitespaces (removeWhitespaces s) = removeWhitespaces s := by
      simp [removeWhitespaces]
    rw [resolveUpTo_succ, resolveUpTo_succ, hidem]

theorem Accepted.values (h : Accepted v found) (hq : q ∈ found) (a : Bytes → Bool) : Values (valuesOf found a) a q := by
  have hvalid := h.valid q hq
  refine ⟨by simp [valuesOf, hq], ?_, ?_⟩
  · rintro rfl
    exact absurd hvalid (by decide)
  · rintro rfl
    exact absurd hvalid (by decide)

theorem Accepted.resolve_eq (h : Accepted v found) {d : Disjunction} (hd : d.text = getStrippedVerifierString v)
    (hv : removeWhitespaces v = getStrippedVerifierString v) (a : Bytes → Bool) :
    resolve v (valuesOf found a) = .ok (d.eval a) := by
  have hlen : d.text.length < v.length + 1 := by
    rw [hd, ← hv]
    exact Nat.lt_succ_of_le (length_filter_le _ _)
  rw [resolve, ← resolve_removeWhitespaces, hv, ← hd]
  refine d.resolve_text (fun q hq => h.values ?_ a) hlen
  rw [h.found_eq, ← hd]
  exact d.mem_names.2 hq

/-- An accepted verifier is a formula just where each `&`, `|` and `)` follows an operand. -/
theorem accepted_verifier_means_formula (hne : v ≠ ascii "true") (h : checkVerifierString v = .ok found) :
    MeansFormula v ↔ joined false (getStrippedVerifierString v) = true := by
  have hacc := accepted_of_checkVerifierString hne h
  constructor
  · intro hm
    obtain ⟨d, hd⟩ := hm.formula
    rw [← hd]
    exact d.joined_text
  · intro hj
    have hj' : joined false (removeWhitespaces v) = true := joined_of_removeCharacter id hj
    obtain ⟨r, hr⟩ := hacc.resolves
    rw [resolve, ← resolve_removeWhitespaces] at hr
    obtain ⟨d₀, hd₀⟩ := exists_formula (fun q => hacc.valuesOf_name) hj' hr
    have hv : removeWhitespaces v = getStrippedVerifierString v := by
      rw [getStrippedVerifierString, ← hd₀, removeCharacter, filter_eq_self.2]
      intro x hx
      simpa using fun hxeq : x = QUALIFIER_CHAR => d₀.not_mem_text (hxeq ▸ hx)
    refine ⟨⟨d₀, hd₀.trans hv⟩, fun d hd E S c address haddr hexist => ?_⟩
    have hforM : found.forM (fun q => require (checkIfAssetExists E S c (QUALIFIER_CHAR :: q))
        "bad-txns-null-verifier-contains-non-issued-qualifier") = .ok () := by
      refine forM_eq_ok.2 fun q hq => require_eq_ok.2 (hexist q ?_)
      rw [hacc.found_eq, ← hd] at hq
      exact d.mem_names.1 hq
    rw [contextualCheckVerifierString_eq hne h, hforM, hacc.resolve_eq hd hv]
    simp only [if_neg haddr, ok_iff, true_and]

theorem accepted_verifier_means_formula_kyc : checkVerifierString (ascii "KYC & !(VIP | GOLD)") =
      .ok [ascii "GOLD", ascii "KYC", ascii "VIP"] ∧ MeansFormula (ascii "KYC & !(VIP | GOLD)") := by
  have h : checkVerifierString (ascii "KYC & !(VIP | GOLD)") = .ok [ascii "GOLD", ascii "KYC", ascii "VIP"] := by
    decide +kernel
  exact ⟨h, (accepted_verifier_means_formula (by decide) h).2 (by decide +kernel)⟩

/-- An operator in front of the first operand is passed over. -/
theorem stray_operator_accepted : checkVerifierString (ascii "&KYC|VIP") = .ok [ascii "KYC", ascii "VIP"] ∧
    ¬ MeansFormula (ascii "&KYC|VIP") := by
  refine ⟨by decide +kernel, fun h => ?_⟩
  obtain ⟨d, hd⟩ := h.formula
  have hj := d.joined_text
  rw [hd] at hj
  exact absurd hj (by decide +kernel)

/-- The form in which a verifier should be stored. -/
structure CanonicalVerifier (v : Bytes) : Prop where
  stripped : getStrippedVerifierString v = v
  pos : 1 ≤ v.length
  short : v.length ≤ 80

theorem scanNullAsset_verifier {st out} (h : isNullAssetVerifierTxDataScript out.scriptPubKey = true) :
    E.scanNullAsset st out = Env.scanNullVerifier st out := by
  have hdata : isNullAssetTxDataScript out.scriptPubKey = false := by
    simp_all [isNullAssetVerifierTxDataScript, isNullAssetTxDataScript, OP_RESERVED]
  have hglobal : isNullGlobalRestrictionAssetTxDataScript out.scriptPubKey = false := by
    simp_all [isNullAssetVerifierTxDataScript, isNullGlobalRestrictionAssetTxDataScript]
  rw [Env.scanNullAsset, hdata, hglobal, h]
  rfl

theorem checkVerifierAssetTxOut_ok {out} (h : checkVerifierAssetTxOut out = .ok ()) :
    ∃ v, assetNullVerifierDataFromScript out.scriptPubKey = some v ∧ 32 ∉ v ∧ QUALIFIER_CHAR ∉ v ∧
      ∃ found, checkVerifierString v = .ok found := by
  simp only [checkVerifierAssetTxOut, ok_iff, Bool.not_eq_true'] at h
  obtain ⟨v, hv, hblank, htag, found, hfound, -⟩ := h
  exact ⟨v, hv, by simpa using hblank, by simpa using htag, found, hfound⟩

theorem checkVerifierString_bounds (h : checkVerifierString v = .ok found) :
    v ≠ [] ∧ (getStrippedVerifierString v).length ≤ 80 := by
  by_cases htrue : v = ascii "true"
  · subst htrue
    decide
  · simp only [checkVerifierString, if_neg htrue, ok_iff, bne_iff_ne, decide_eq_true_eq] at h
    exact ⟨h.1, h.2.1⟩

/-- The white space that is not a blank: tabs and the ends of lines and pages. -/
def isControlSpace (c : UInt8) : Bool := 9 ≤ c && c ≤ 13

theorem canonicalVerifier_iff (hblank : 32 ∉ v) (htag : QUALIFIER_CHAR ∉ v) (h : checkVerifierString v = .ok found) :
    CanonicalVerifier v ↔ ∀ c ∈ v, isControlSpace c = false := by
  obtain ⟨hne, hshort⟩ := checkVerifierString_bounds h
  have htags : removeCharacter (removeWhitespaces v) QUALIFIER_CHAR = removeWhitespaces v := by
    refine filter_eq_self.mpr fun c hc => bne_iff_ne.mpr ?_
    rintro rfl
    exact htag (mem_of_mem_filter hc)
  have hspace : ∀ c ∈ v, isSpace c = isControlSpace c := by
    intro c hc
    have hc32 : (c == 32) = false := beq_eq_false_iff_ne.mpr fun heq => hblank (heq ▸ hc)
    rw [isSpace, isControlSpace, hc32, Bool.or_false]
  have hstripped : getStrippedVerifierString v = v ↔ ∀ c ∈ v, isControlSpace c = false := by
    rw [getStrippedVerifierString, htags, removeWhitespaces, filter_eq_self]
    refine forall₂_congr fun c hc => ?_
    rw [hspace c hc, Bool.not_eq_true']
  constructor
  · exact fun hv => hstripped.mp hv.stripped
  · intro hcontrol
    have heq := hstripped.mpr hcontrol
    exact ⟨heq, length_pos_of_ne_nil hne, heq ▸ hshort⟩

/-- An accepted verifier has the stored form just where it is free of tabs and of ends of lines and pages. -/
theorem verifier_canonical_iff {flags : CheckFlags} {tx : CTransaction} (h : E.checkTransaction flags tx = .ok ()) {out : CTxOut}
    (hout : out ∈ tx.vout) (hverifier : isNullAssetVerifierTxDataScript out.scriptPubKey = true) :
    ∃ v, assetNullVerifierDataFromScript out.scriptPubKey = some v ∧
      (CanonicalVerifier v ↔ ∀ c ∈ v, isControlSpace c = false) := by
  obtain ⟨st, st', hscan⟩ := (checkTransaction_ok h).outs out hout
  simp only [Env.scanOut, bind_eq_ok] at hscan
  obtain ⟨st₁, -, st₂, hnull, -⟩ := hscan
  rw [scanNullAsset_verifier hverifier] at hnull
  simp only [Env.scanNullVerifier, Check.orReject, ok_iff] at hnull
  obtain ⟨v, hv, hblank, htag, found, hfound⟩ := checkVerifierAssetTxOut_ok hnull.1
  exact ⟨v, hv, canonicalVerifier_iff hblank htag hfound⟩

namespace Regtest

def issueVerified (verifier : Bytes) : CTransaction :=
  ⟨[⟨⟨1003, 0⟩, []⟩, ⟨⟨7, 1⟩, []⟩], [burnOut .RESTRICTED, ownerGoldOut, ⟨0, verifierScript verifier⟩,
    ⟨0, newAssetScript alice ⟨ascii "$GOLD", 1000, 8, 1, 0, []⟩⟩], 9⟩

theorem kyc_verifier_canonical : env.checkTransaction {} (issueVerified (ascii "KYC&!AML")) = .ok () ∧
    ∃ v, assetNullVerifierDataFromScript (verifierScript (ascii "KYC&!AML")) = some v ∧ CanonicalVerifier v := by
  have h : env.checkTransaction {} (issueVerified (ascii "KYC&!AML")) = .ok () := by decide +kernel
  have hout : (⟨0, verifierScript (ascii "KYC&!AML")⟩ : CTxOut) ∈ (issueVerified (ascii "KYC&!AML")).vout := by simp [issueVerified]
  obtain ⟨v, hv, hiff⟩ := verifier_canonical_iff h hout (by decide +kernel)
  have hread : assetNullVerifierDataFromScript (verifierScript (ascii "KYC&!AML")) = some (ascii "KYC&!AML") := by decide +kernel
  obtain rfl := Option.some.inj (hread.symm.trans hv)
  exact ⟨h, _, hv, hiff.mpr (by decide +kernel)⟩

theorem tab_in_verifier : env.checkTransaction {} (issueVerified (ascii "KYC\t&AML")) = .ok () ∧
    assetNullVerifierDataFromScript (verifierScript (ascii "KYC\t&AML")) = some (ascii "KYC\t&AML") ∧
      ¬ CanonicalVerifier (ascii "KYC\t&AML") := by
  refine ⟨by decide +kernel, by decide +kernel, fun h => ?_⟩
  exact absurd h.stripped (by decide +kernel)

end Regtest

end Hivecoin

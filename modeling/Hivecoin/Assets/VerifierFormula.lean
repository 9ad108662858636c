import Hivecoin.Assets.Verifier
import Hivecoin.Base.ByteClass
import Hivecoin.Base.TopLevel

/-!
# Formulas of qualifiers

The evaluator of `LibBoolEE.cpp` gives the text of a formula its value. A text that it evaluates need not be a formula.
-/

namespace Hivecoin

open Outcome List

/-! ## Formulas and their texts -/

/-- A name as a formula may hold it. -/
abbrev VerifierName := { q : Bytes // q ≠ [] ∧ q.all isNameChar = true }

mutual

inductive Operand where
  | name (q : VerifierName)
  | not (operand : Operand)
  | paren (formula : Disjunction)

inductive Conjunction where
  | one (operand : Operand)
  | and (operand : Operand) (rest : Conjunction)

inductive Disjunction where
  | one (conjunction : Conjunction)
  | or (conjunction : Conjunction) (rest : Disjunction)

end

mutual

def Operand.text : Operand → Bytes
  | .name q => q
  | .not o => 33 :: o.text
  | .paren d => 40 :: d.text ++ [41]

def Conjunction.text : Conjunction → Bytes
  | .one o => o.text
  | .and o c => o.text ++ 38 :: c.text

def Disjunction.text : Disjunction → Bytes
  | .one c => c.text
  | .or c d => c.text ++ 124 :: d.text

end

mutual

def Operand.eval (v : Bytes → Bool) : Operand → Bool
  | .name q => v q
  | .not o => !o.eval v
  | .paren d => d.eval v

def Conjunction.eval (v : Bytes → Bool) : Conjunction → Bool
  | .one o => o.eval v
  | .and o c => o.eval v && c.eval v

def Disjunction.eval (v : Bytes → Bool) : Disjunction → Bool
  | .one c => c.eval v
  | .or c d => c.eval v || d.eval v

end

mutual

def Operand.names : Operand → List Bytes
  | .name q => [q.val]
  | .not o => o.names
  | .paren d => d.names

def Conjunction.names : Conjunction → List Bytes
  | .one o => o.names
  | .and o c => o.names ++ c.names

def Disjunction.names : Disjunction → List Bytes
  | .one c => c.names
  | .or c d => c.names ++ d.names

end

namespace LibBoolEE

/-! ## The scan -/

def weight (c : UInt8) : Int := if c = 40 then 1 else if c = 41 then -1 else 0

def startsOperand (c : UInt8) : Bool := belongsToName c || c == 33 || c == 40

/-- What may only stand behind an operand. -/
def followsOperand (c : UInt8) : Bool := c == 41 || c == 38 || c == 124

def endsOperand (c : UInt8) : Bool := belongsToName c || c == 41

/-- Every `&`, `|` and `)` follows an operand directly, and nothing else occurs but names, `!` and `(`. -/
def joined (operand : Bool) : Bytes → Bool
  | [] => true
  | c :: s => (startsOperand c || (operand && followsOperand c)) && joined (endsOperand c) s

/-- A character that a scan knows once it has found an operand. -/
def knownChar (c : UInt8) : Bool := startsOperand c || followsOperand c

variable {op : UInt8} {s t : Bytes} {c : UInt8} {operand : Bool}

theorem joined_cons : joined operand (c :: s) = true ↔
    (startsOperand c = true ∨ operand = true ∧ followsOperand c = true) ∧ joined (endsOperand c) s = true := by
  simp only [joined, test_iff]

theorem joined_head (h : joined false (c :: s) = true) : startsOperand c = true := by
  simpa using (joined_cons.1 h).1

theorem joined_known (h : joined operand s = true) : ∀ c ∈ s, knownChar c = true := by
  induction s generalizing operand with
  | nil => simp
  | cons c s ih =>
    obtain ⟨hc, hs⟩ := joined_cons.1 h
    intro x hx
    rcases mem_cons.1 hx with rfl | hx
    · rcases hc with hc | ⟨-, hc⟩
      · simp [knownChar, hc]
      · simp [knownChar, hc]
    · exact ih hs x hx

theorem parseStep_some (formula : Bytes) {start i d subs} (hc : knownChar c = true)
    (hop : op = 38 ∨ op = 124) :
    parseStep formula op ⟨some start, d, subs⟩ c i = .ok (if d = 0 ∧ c = op then
      ⟨some (i + 1), 0, subs ++ [(formula.drop start).take (i - start)]⟩ else ⟨some start, d + weight c, subs⟩) := by
  have hop41 : (41 : UInt8) ≠ op := by rcases hop with rfl | rfl <;> decide
  have hop40 : (40 : UInt8) ≠ op := by rcases hop with rfl | rfl <;> decide
  unfold parseStep
  by_cases h41 : c = 41
  · subst h41
    rw [if_pos rfl, if_neg fun h => hop41 h.2]
    rfl
  rw [if_neg h41]
  by_cases h40 : c = 40
  · subst h40
    rw [if_pos rfl, if_neg fun h => hop40 h.2]
    rfl
  rw [if_neg h40]
  have hweight : weight c = 0 := by rw [weight, if_neg h40, if_neg h41]
  by_cases hd : d = 0
  · subst hd
    rw [if_pos rfl, hweight]
    by_cases hname : belongsToName c = true ∨ c = 33
    · have hne : c ≠ op := by
        rintro rfl
        rcases hop with rfl | rfl <;> revert hname <;> decide
      simp only [if_pos hname]
      rw [if_neg fun h => hne h.2]
      rfl
    · simp only [if_neg hname]
      by_cases hcop : op = c
      · rw [if_pos hcop, if_pos ⟨trivial, hcop.symm⟩]
      · have hknown : ¬(c ≠ 38 ∧ c ≠ 124) := by
          rintro ⟨h38, h124⟩
          simp only [knownChar, startsOperand, followsOperand, test_iff] at hc
          tauto
        rw [if_neg hcop, if_neg hknown, if_neg fun h => hcop h.2.symm]
        rfl
  · rw [if_neg hd, if_neg fun h => hd h.1, hweight, Int.add_zero]

open TopLevel in
/-- The loop from an operand on: what is collected, with the open part, are the parts. -/
theorem parse_loop {formula} (hop : op = 38 ∨ op = 124) (t p : Bytes) (start : Nat) (d : Int) (subs : List Bytes)
    (hformula : formula = p ++ t) (hstart : start ≤ p.length) (ht : ∀ c ∈ t, knownChar c = true) :
    ∃ st start', (t.zipIdx p.length).foldlM (fun st ci => parseStep formula op st ci.1 ci.2) ⟨some start, d, subs⟩ = .ok st ∧
      st.start_pos = some start' ∧ st.parity_count = d + depth weight t ∧
      st.subexpressions ++ [formula.drop start'] = subs ++ (parts weight op d t).modifyHead (p.drop start ++ ·) := by
  induction t generalizing p start d subs with
  | nil =>
    refine ⟨_, start, rfl, rfl, by simp, ?_⟩
    simp [hformula, parts]
  | cons c t ih =>
    have hc := ht c mem_cons_self
    have hrest := fun x hx => ht x (mem_cons_of_mem _ hx)
    have hformula' : formula = (p ++ [c]) ++ t := by simp [hformula]
    simp only [zipIdx_cons, foldlM_cons, parseStep_some formula hc hop]
    by_cases hsep : d = 0 ∧ c = op
    · obtain ⟨st, start', hfold, hs, hparity, hsubs⟩ := ih (p ++ [c]) (p.length + 1) 0
        (subs ++ [(formula.drop start).take (p.length - start)]) hformula' (by simp) hrest
      refine ⟨st, start', ?_, hs, ?_, ?_⟩
      · rw [if_pos hsep]
        simpa using hfold
      · rw [hparity, hsep.1, depth_cons, hsep.2]
        rcases hop with rfl | rfl <;> simp [weight]
      · have hopen : (formula.drop start).take (p.length - start) = p.drop start := by
          rw [hformula, drop_append_of_le_length hstart, ← length_drop, take_left]
        have hclosed : (p ++ [c]).drop (p.length + 1) = [] := drop_eq_nil_of_le (by simp)
        rw [hsubs, hsep.1, hsep.2, parts_sep, hopen, ← hsep.2, hclosed]
        cases parts weight c 0 t <;> simp
    · obtain ⟨st, start', hfold, hs, hparity, hsubs⟩ := ih (p ++ [c]) start (d + weight c) subs hformula'
        (by simp; omega) hrest
      refine ⟨st, start', ?_, hs, ?_, ?_⟩
      · rw [if_neg hsep]
        simpa using hfold
      · rw [hparity, depth_cons, Int.add_assoc]
      · rw [hsubs, parts_cons hsep, modifyHead_modifyHead, drop_append_of_le_length hstart]
        congr 2
        funext q
        simp

theorem parseStep_first (formula : Bytes) (hc : startsOperand c = true) :
    parseStep formula op {} c 0 = .ok ⟨some 0, weight c, []⟩ := by
  unfold parseStep
  by_cases h40 : c = 40
  · subst h40
    rfl
  have h41 : c ≠ 41 := by
    rintro rfl
    exact absurd hc (by decide)
  have hname : belongsToName c = true ∨ c = 33 := by
    simp only [startsOperand, test_iff] at hc
    tauto
  simp [h40, h41, hname, weight]

open TopLevel in
theorem singleParse_eq (hop : op = 38 ∨ op = 124) (hc : startsOperand c = true) (hs : ∀ x ∈ s, knownChar x = true) :
    singleParse (c :: s) op =
      if depth weight (c :: s) = 0 then .ok (parts weight op 0 (c :: s)) else .error .parenthesisParity := by
  have hne : c ≠ op := by
    rintro rfl
    rcases hop with rfl | rfl <;> exact absurd hc (by decide)
  obtain ⟨st, start', hfold, hstart, hparity, hsubs⟩ := @parse_loop op (c :: s) hop s [c] 0 (weight c) [] rfl (by simp) hs
  rw [← depth_cons] at hparity
  have hparts : st.subexpressions ++ [(c :: s).drop start'] = parts weight op 0 (c :: s) := by
    rw [hsubs, parts_cons fun h => hne h.2, Int.zero_add]
    rfl
  unfold singleParse
  rw [zipIdx_cons, foldlM_cons, parseStep_first _ hc]
  show (Except.bind _ _ : Except EvalError (List Bytes)) = _
  simp only [bind, Except.bind]
  rw [show (s.zipIdx (0 + 1)).foldlM (fun st ci => parseStep (c :: s) op st ci.1 ci.2) ⟨some 0, weight c, []⟩ = .ok st from hfold]
  simp only [hparity, hstart]
  by_cases hd : depth weight (c :: s) = 0
  · rw [if_neg (not_not.2 hd), if_pos hd, ← hparts]
    rfl
  · rw [if_pos hd, if_neg hd]
    rfl

theorem joined_append : joined operand (s ++ t) = true ↔ joined operand s = true ∧
    joined (s.getLast?.elim operand endsOperand) t = true := by
  induction s generalizing operand with
  | nil => simp [joined]
  | cons c s ih =>
    rw [cons_append, joined_cons, joined_cons, ih, and_assoc]
    cases s with
    | nil => simp
    | cons x s => simp [List.getLast?_cons]

theorem joined_anew (h : joined operand (s ++ c :: t) = true) (hc : endsOperand c = false) : joined false t = true := by
  rw [joined_append, joined_cons, hc] at h
  exact h.2.2

theorem joined_intercalate {ps} (hop : endsOperand op = false) (h : joined false ([op].intercalate ps) = true) :
    ∀ p ∈ ps, joined false p = true := by
  induction ps with
  | nil => simp
  | cons p ps ih =>
    intro q hq
    cases ps with
    | nil =>
      obtain rfl : q = p := by simpa using hq
      simpa using h
    | cons r rs =>
      rw [intercalate_cons_of_ne_nil (by simp), append_assoc, singleton_append] at h
      rcases mem_cons.1 hq with rfl | hq
      · exact (joined_append.1 h).1
      · exact ih (joined_anew h hop) q hq

theorem not_isSpace_of_known : ∀ c : UInt8, knownChar c = true → isSpace c = false := by
  decide +kernel

theorem removeWhitespaces_eq (h : joined operand s = true) : removeWhitespaces s = s := by
  refine filter_eq_self.2 fun c hc => ?_
  rw [not_isSpace_of_known c (joined_known h c hc)]
  rfl

/-! ## Texts of formulas -/

section

open TopLevel

theorem weight_of_isNameChar : ∀ c : UInt8, isNameChar c = true → weight c = 0 ∧ c ≠ 38 ∧ c ≠ 124 ∧ belongsToName c = true := by
  decide +kernel

end

end LibBoolEE

open LibBoolEE TopLevel

theorem VerifierName.weightless (q : VerifierName) : ∀ c ∈ q.val, weight c = 0 := fun c hc =>
  (weight_of_isNameChar c (all_eq_true.1 q.2.2 c hc)).1

structure Matched (s : Bytes) : Prop where
  depth : depth weight s = 0
  nested : Nested weight 0 s

namespace Matched

variable {s t : Bytes}

theorem append (hs : Matched s) (ht : Matched t) : Matched (s ++ t) where
  depth := by rw [depth_append, hs.depth, ht.depth]; rfl
  nested := hs.nested.append (by rw [hs.depth]; exact ht.nested)

theorem cons {c} (hc : weight c = 0) (hs : Matched s) : Matched (c :: s) where
  depth := by rw [depth_cons, hc, hs.depth]; rfl
  nested := ⟨Int.le_refl 0, by rw [hc]; exact hs.nested⟩

theorem paren (hs : Matched s) : Matched (40 :: s ++ [41]) where
  depth := by simp only [depth_cons, depth_append, hs.depth, depth_nil]; rfl
  nested := by
    refine ⟨Int.le_refl 0, (hs.nested.mono (by decide)).append ?_⟩
    rw [hs.depth]
    exact ⟨by decide, show (0 : Int) ≤ 0 + weight 40 + 0 + weight 41 by decide⟩

theorem parts_paren (hs : Matched s) {op} (hop : op = 38 ∨ op = 124) :
    parts weight op 0 (40 :: s ++ [41]) = [40 :: s ++ [41]] := by
  have h40 : (40 : UInt8) ≠ op := by rcases hop with rfl | rfl <;> decide
  have h41 : (41 : UInt8) ≠ op := by rcases hop with rfl | rfl <;> decide
  have hopen : parts weight op 0 (40 :: s) = [40 :: s] := by
    rw [parts_cons fun h => h40 h.2, show (0 : Int) + weight 40 = 0 + 1 from rfl, hs.nested.parts, modifyHead_cons]
  rw [parts_append hopen, parts_of_not_mem (by simpa using h41.symm), modifyHead_cons]

end Matched

mutual

theorem Operand.matched (o : Operand) : Matched o.text := by
  match o with
  | .name q => exact ⟨depth_eq_zero q.weightless, nested_of_weightless (Int.le_refl 0) q.weightless⟩
  | .not o => exact .cons rfl o.matched
  | .paren d => exact d.matched.paren

theorem Conjunction.matched (c : Conjunction) : Matched c.text := by
  match c with
  | .one o => exact o.matched
  | .and o c => exact o.matched.append (.cons rfl c.matched)

theorem Disjunction.matched (d : Disjunction) : Matched d.text := by
  match d with
  | .one c => exact c.matched
  | .or c d => exact c.matched.append (.cons rfl d.matched)

end

theorem Operand.parts_text {op} (hop : op = 38 ∨ op = 124) (o : Operand) : parts weight op 0 o.text = [o.text] := by
  match o with
  | .name q =>
    refine parts_of_not_mem (fun hmem => ?_) 0
    obtain ⟨-, h38, h124, -⟩ := weight_of_isNameChar op (all_eq_true.1 q.2.2 op hmem)
    exact hop.elim h38 h124
  | .not o =>
    have h33 : (33 : UInt8) ≠ op := by rcases hop with rfl | rfl <;> decide
    rw [Operand.text, parts_cons fun h => h33 h.2, show (0 : Int) + weight 33 = 0 from rfl, o.parts_text hop,
      modifyHead_cons]
  | .paren d => exact d.matched.parts_paren hop

theorem Conjunction.parts_or (c : Conjunction) : parts weight 124 0 c.text = [c.text] := by
  match c with
  | .one o => exact o.parts_text (Or.inr rfl)
  | .and o c =>
    rw [Conjunction.text, parts_append (o.parts_text (Or.inr rfl)), o.matched.depth, parts_cons (by decide),
      show (0 : Int) + 0 + weight 38 = 0 from rfl, c.parts_or, modifyHead_cons, modifyHead_cons]

variable (o : Operand)

theorem Conjunction.parts_and (c : Conjunction) :
    parts weight 38 0 (Conjunction.and o c).text = o.text :: parts weight 38 0 c.text :=
  parts_append_sep (o.parts_text (Or.inl rfl)) o.matched.depth _

theorem Disjunction.parts_or (c : Conjunction) (d : Disjunction) :
    parts weight 124 0 (Disjunction.or c d).text = c.text :: parts weight 124 0 d.text :=
  parts_append_sep c.parts_or c.matched.depth _

theorem length_parts_pos (op : UInt8) (s : Bytes) : 0 < (parts weight op 0 s).length :=
  length_pos_of_ne_nil (parts_ne_nil _ _ _ _)

/-! ## What is evaluated is a formula -/

theorem exists_conjunction {d : Disjunction} (h : parts weight 124 0 d.text = [d.text]) :
    ∃ c : Conjunction, c.text = d.text := by
  cases d with
  | one c => exact ⟨c, rfl⟩
  | or c d =>
    have hlen := congrArg List.length h
    have hpos := length_parts_pos 124 d.text
    rw [Disjunction.parts_or, length_cons, length_singleton] at hlen
    omega

theorem exists_operand {c : Conjunction} (h : parts weight 38 0 c.text = [c.text]) : ∃ o : Operand, o.text = c.text := by
  cases c with
  | one o => exact ⟨o, rfl⟩
  | and o c =>
    have hlen := congrArg List.length h
    have hpos := length_parts_pos 38 c.text
    rw [Conjunction.parts_and, length_cons, length_singleton] at hlen
    omega

theorem exists_intercalate_or {ps} (hne : ps ≠ []) (h : ∀ p ∈ ps, ∃ c : Conjunction, c.text = p) :
    ∃ d : Disjunction, d.text = [124].intercalate ps := by
  induction ps with
  | nil => exact absurd rfl hne
  | cons p ps ih =>
    obtain ⟨c, hc⟩ := h p mem_cons_self
    cases ps with
    | nil => exact ⟨.one c, by simpa [Disjunction.text] using hc⟩
    | cons q qs =>
      obtain ⟨d, hd⟩ := ih (by simp) fun r hr => h r (mem_cons_of_mem _ hr)
      refine ⟨.or c d, ?_⟩
      rw [intercalate_cons_of_ne_nil (by simp), Disjunction.text, hc, hd]
      simp

theorem exists_intercalate_and {ps} (hne : ps ≠ []) (h : ∀ p ∈ ps, ∃ o : Operand, o.text = p) :
    ∃ c : Conjunction, c.text = [38].intercalate ps := by
  induction ps with
  | nil => exact absurd rfl hne
  | cons p ps ih =>
    obtain ⟨o, ho⟩ := h p mem_cons_self
    cases ps with
    | nil => exact ⟨.one o, by simpa [Conjunction.text] using ho⟩
    | cons q qs =>
      obtain ⟨c, hc⟩ := ih (by simp) fun r hr => h r (mem_cons_of_mem _ hr)
      refine ⟨.and o c, ?_⟩
      rw [intercalate_cons_of_ne_nil (by simp), Conjunction.text, ho, hc]
      simp

variable {valuation : Bytes → Option Bool} {s : Bytes} {n : Nat} {b : Bool}

theorem parts_eq_singleton {op} (h : (parts weight op 0 s).length = 1) : parts weight op 0 s = [s] := by
  obtain ⟨p, hp⟩ := length_eq_one_iff.1 h
  have hs := @intercalate_parts UInt8 weight _ op 0 s
  rw [hp] at hs ⊢
  rw [← hs]
  simp

def resolveParts (valuation : Bytes → Option Bool) (n : Nat) (f : Bool → Bool → Bool) (start : Bool) (ps : List Bytes) :
    Except EvalError Bool :=
  ps.foldlM (fun result e => do return f result (← resolveUpTo valuation n e)) start

def resolveOperand (valuation : Bytes → Option Bool) (n : Nat) (source : Bytes) : Except EvalError Bool :=
  if source.head? = some 33 then do return !(← resolveUpTo valuation n (source.drop 1))
  else if source.head? = some 40 then resolveUpTo valuation n ((source.drop 1).take (source.length - 2))
  else if source = [49] then return true
  else if source = [48] then return false
  else orError (valuation source) .variableNotFound

def resolveAnd (valuation : Bytes → Option Bool) (n : Nat) (source : Bytes) (byAnd : List Bytes) : Except EvalError Bool :=
  if byAnd.length = 0 then .error .notAFormula
  else if byAnd.length = 1 then resolveOperand valuation n source
  else resolveParts valuation n (· && ·) true byAnd

theorem resolveUpTo_succ (valuation : Bytes → Option Bool) (n : Nat) (s : Bytes) :
    resolveUpTo valuation (n + 1) s =
      let source := removeWhitespaces s
      if source = [] then .error .emptySubExpression
      else singleParse source 124 >>= fun byOr =>
        if byOr.length > 1 then resolveParts valuation n (· || ·) false byOr
        else (if byOr.length = 1 then singleParse source 38 else .ok byOr) >>= fun byAnd =>
          resolveAnd valuation n source byAnd := by
  simp only [resolveUpTo, resolveAnd, resolveOperand, resolveParts]
  split
  · rfl
  · congr 1
    funext byOr
    split
    · rfl
    · split
      · cases valuation (removeWhitespaces s) <;> rfl
      · cases valuation (removeWhitespaces s) <;> rfl

theorem resolveUpTo_eq (valuation : Bytes → Option Bool) (n : Nat) (hj : joined false s = true) (hne : s ≠ []) :
    resolveUpTo valuation (n + 1) s =
      if depth weight s ≠ 0 then .error .parenthesisParity
      else if 1 < (parts weight 124 0 s).length then resolveParts valuation n (· || ·) false (parts weight 124 0 s)
      else if 1 < (parts weight 38 0 s).length then resolveParts valuation n (· && ·) true (parts weight 38 0 s)
      else resolveOperand valuation n s := by
  obtain ⟨c, t, rfl⟩ := exists_cons_of_ne_nil hne
  have hknown := fun x hx => joined_known hj x (mem_cons_of_mem _ hx)
  rw [resolveUpTo_succ]
  simp only [removeWhitespaces_eq hj, if_neg hne, singleParse_eq (Or.inr rfl) (joined_head hj) hknown,
    singleParse_eq (Or.inl rfl) (joined_head hj) hknown]
  by_cases hd : depth weight (c :: t) = 0
  · have hor := length_parts_pos 124 (c :: t)
    have hand := length_parts_pos 38 (c :: t)
    simp only [if_pos hd, if_neg (not_not.2 hd), bind, Except.bind]
    by_cases hcut : 1 < (parts weight 124 0 (c :: t)).length
    · rw [if_pos hcut, if_pos hcut]
    · rw [if_neg hcut, if_neg hcut, if_pos (by omega)]
      simp only [resolveAnd]
      rw [if_neg (by omega)]
      by_cases hcut' : 1 < (parts weight 38 0 (c :: t)).length
      · rw [if_neg (by omega), if_pos hcut']
      · rw [if_pos (by omega), if_neg hcut']
  · simp only [if_neg hd, if_pos hd, bind, Except.bind]

theorem resolveParts_ok {f start ps}
    (h : resolveParts valuation n f start ps = .ok b) : ∀ p ∈ ps, ∃ b, resolveUpTo valuation n p = .ok b := by
  intro p hp
  obtain ⟨r, r', hstep⟩ := foldlM_step h hp
  simp only [bind_eq_ok] at hstep
  obtain ⟨b, hb, -⟩ := hstep
  exact ⟨b, hb⟩

theorem resolveUpTo_depth (hj : joined false s = true) (h : resolveUpTo valuation n s = .ok b) :
    s ≠ [] ∧ depth weight s = 0 := by
  cases n with
  | zero => cases h
  | succ n =>
    have hne : s ≠ [] := by
      rintro rfl
      cases h
    rw [resolveUpTo_eq valuation n hj hne] at h
    refine ⟨hne, ?_⟩
    by_contra hd
    rw [if_pos hd] at h
    cases h

theorem parts_or_of_parts_and {ps} (hdepth : ∀ p ∈ ps, depth weight p = 0)
    (h : parts weight 124 0 ([38].intercalate ps) = [[38].intercalate ps]) : ∀ p ∈ ps, parts weight 124 0 p = [p] := by
  induction ps with
  | nil => simp
  | cons p ps ih =>
    intro q hq
    cases ps with
    | nil =>
      obtain rfl : q = p := by simpa using hq
      simpa using h
    | cons r rs =>
      rw [intercalate_cons_of_ne_nil (by simp), append_assoc] at h
      obtain ⟨hp, hrest⟩ := parts_eq_of_append h
      rcases mem_cons.1 hq with rfl | hq
      · exact hp
      · obtain ⟨-, hrest⟩ := parts_eq_of_append hrest
        rw [hdepth p mem_cons_self] at hrest
        exact ih (fun x hx => hdepth x (mem_cons_of_mem _ hx)) hrest q hq

theorem joined_parts {op} (hop : endsOperand op = false) (hj : joined false s = true) :
    ∀ p ∈ parts weight op 0 s, joined false p = true :=
  joined_intercalate hop (by rw [@intercalate_parts UInt8 weight _ op 0 s]; exact hj)

theorem exists_operand_of_uncut {d : Disjunction} (hor : parts weight 124 0 d.text = [d.text])
    (hand : parts weight 38 0 d.text = [d.text]) : ∃ o : Operand, o.text = d.text := by
  obtain ⟨c, hc⟩ := exists_conjunction hor
  rw [← hc] at hand ⊢
  exact exists_operand hand

/-- The last character of an uncut text closes the bracket that it starts with. -/
theorem eq_append_of_depth {t} (hd : depth weight (40 :: t) = 0) (hinner : depth weight (t.take (t.length - 1)) = 0) :
    t = t.take (t.length - 1) ++ [41] := by
  have hne : t ≠ [] := by
    rintro rfl
    exact absurd hd (by decide)
  have ht : t = t.take (t.length - 1) ++ [t.getLast hne] := by
    rw [← dropLast_eq_take, dropLast_append_getLast hne]
  have hweight : weight (t.getLast hne) = -1 := by
    rw [ht, depth_cons, depth_append, hinner, depth_cons, depth_nil, show weight 40 = 1 from rfl] at hd
    omega
  have hlast : t.getLast hne = 41 := by
    unfold weight at hweight
    split at hweight
    · cases hweight
    · split at hweight
      · assumption
      · cases hweight
  rw [← hlast]
  exact ht

theorem drop_one_take {t} (c : UInt8) : ((c :: t).drop 1).take ((c :: t).length - 2) = t.take (t.length - 1) := by
  simp

/-- An uncut text that has a value is an operand, if the next level are formulas. -/
theorem exists_operand_of_resolveOperand (hval : ∀ q, (valuation q).isSome → q ≠ [] ∧ q.all isNameChar = true)
    (ih : ∀ {t b}, joined false t = true → resolveUpTo valuation n t = .ok b → ∃ d : Disjunction, d.text = t)
    (hj : joined false s = true) (hd : depth weight s = 0) (hor : parts weight 124 0 s = [s])
    (hand : parts weight 38 0 s = [s]) (h : resolveOperand valuation n s = .ok b) : ∃ o : Operand, o.text = s := by
  unfold resolveOperand at h
  split at h
  · obtain ⟨t, rfl⟩ := List.head?_eq_some_iff.1 ‹_›
    simp only [bind_eq_ok] at h
    obtain ⟨b', hb', -⟩ := h
    have ht : joined false t = true := (joined_cons.1 hj).2
    obtain ⟨d, rfl⟩ := ih ht hb'
    obtain ⟨-, hor⟩ := parts_eq_of_append (s := [33]) hor
    obtain ⟨-, hand⟩ := parts_eq_of_append (s := [33]) hand
    obtain ⟨o, ho⟩ := exists_operand_of_uncut hor hand
    exact ⟨.not o, by rw [Operand.text, ho]⟩
  split at h
  · obtain ⟨t, rfl⟩ := List.head?_eq_some_iff.1 ‹_›
    rw [drop_one_take] at h
    have ht : joined false (t.take (t.length - 1)) = true := by
      have htail : joined false t = true := (joined_cons.1 hj).2
      rw [← take_append_drop (t.length - 1) t] at htail
      exact (joined_append.1 htail).1
    obtain ⟨d, hdtext⟩ := ih ht h
    have hlast := eq_append_of_depth hd (resolveUpTo_depth ht h).2
    exact ⟨.paren d, by rw [Operand.text, hdtext, cons_append, ← hlast]⟩
  split at h
  · exact ⟨.name ⟨[49], by decide⟩, by rw [Operand.text]; exact Eq.symm ‹_›⟩
  split at h
  · exact ⟨.name ⟨[48], by decide⟩, by rw [Operand.text]; exact Eq.symm ‹_›⟩
  · rw [orError_eq_ok] at h
    exact ⟨.name ⟨s, hval s (by rw [h]; rfl)⟩, by rw [Operand.text]⟩

/-- A joined text that has a value is the text of a formula, by induction on the levels. -/
theorem exists_formula (hval : ∀ q, (valuation q).isSome → q ≠ [] ∧ q.all isNameChar = true) (hj : joined false s = true)
    (h : resolveUpTo valuation n s = .ok b) : ∃ d : Disjunction, d.text = s := by
  induction n generalizing s b with
  | zero => cases h
  | succ n ih =>
    obtain ⟨hne, hd⟩ := resolveUpTo_depth hj h
    rw [resolveUpTo_eq valuation n hj hne, if_neg (not_not.2 hd)] at h
    have hpos := length_parts_pos 124 s
    have hpos' := length_parts_pos 38 s
    split at h
    · -- cut at `|`: every part is a conjunction
      have hconj : ∀ p ∈ parts weight 124 0 s, ∃ c : Conjunction, c.text = p := by
        intro p hp
        obtain ⟨b', hb'⟩ := resolveParts_ok h p hp
        obtain ⟨d, rfl⟩ := ih (joined_parts (by decide) hj p hp) hb'
        exact exists_conjunction (parts_of_mem hp)
      obtain ⟨d, hdtext⟩ := exists_intercalate_or (parts_ne_nil _ _ _ _) hconj
      exact ⟨d, by rw [hdtext, intercalate_parts]⟩
    rename_i hcut
    have hor : parts weight 124 0 s = [s] := parts_eq_singleton (by omega)
    split at h
    · -- cut at `&`: every part is an operand
      have hpart : ∀ p ∈ parts weight 38 0 s, ∃ b, resolveUpTo valuation n p = .ok b := resolveParts_ok h
      have hjoined : ∀ p ∈ parts weight 38 0 s, joined false p = true := joined_parts (by decide) hj
      have hnoOr : ∀ p ∈ parts weight 38 0 s, parts weight 124 0 p = [p] :=
        parts_or_of_parts_and (fun p hp => (resolveUpTo_depth (hjoined p hp) (hpart p hp).choose_spec).2)
          (by rw [@intercalate_parts UInt8 weight _ 38 0 s, hor])
      have hoperand : ∀ p ∈ parts weight 38 0 s, ∃ o : Operand, o.text = p := by
        intro p hp
        obtain ⟨b', hb'⟩ := hpart p hp
        obtain ⟨d, rfl⟩ := ih (hjoined p hp) hb'
        exact exists_operand_of_uncut (hnoOr _ hp) (parts_of_mem hp)
      obtain ⟨c, hc⟩ := exists_intercalate_and (parts_ne_nil _ _ _ _) hoperand
      exact ⟨.one c, by rw [Disjunction.text, hc, intercalate_parts]⟩
    · rename_i hcut'
      have hand : parts weight 38 0 s = [s] := parts_eq_singleton (by omega)
      obtain ⟨o, ho⟩ := exists_operand_of_resolveOperand hval ih hj hd hor hand h
      exact ⟨.one (.one o), ho⟩

/-! ## Texts of formulas are joined and hold their names -/

theorem joined_name {q t operand} (hne : q ≠ []) (hbelongs : ∀ c ∈ q, belongsToName c = true)
    (ht : joined true t = true) : joined operand (q ++ t) = true := by
  induction q generalizing operand with
  | nil => exact absurd rfl hne
  | cons c q ih =>
    have hc := hbelongs c mem_cons_self
    rw [cons_append, joined_cons]
    refine ⟨Or.inl (by simp [startsOperand, hc]), ?_⟩
    rw [show endsOperand c = true by simp [endsOperand, hc]]
    cases q with
    | nil => exact ht
    | cons x q => exact ih (by simp) fun y hy => hbelongs y (mem_cons_of_mem _ hy)

mutual

theorem Operand.joined (o : Operand) {operand t} (ht : joined true t = true) :
    joined operand (o.text ++ t) = true := by
  match o with
  | .name q => exact joined_name q.2.1 (fun c hc => (weight_of_isNameChar c (all_eq_true.1 q.2.2 c hc)).2.2.2) ht
  | .not o => exact joined_cons.2 ⟨Or.inl rfl, o.joined ht⟩
  | .paren d =>
    rw [Operand.text, append_assoc, cons_append]
    exact joined_cons.2 ⟨Or.inl rfl, d.joined (joined_cons.2 ⟨Or.inr ⟨rfl, rfl⟩, ht⟩)⟩

theorem Conjunction.joined (c : Conjunction) {operand t} (ht : joined true t = true) :
    joined operand (c.text ++ t) = true := by
  match c with
  | .one o => exact o.joined ht
  | .and o c =>
    rw [Conjunction.text, append_assoc, cons_append]
    exact o.joined (joined_cons.2 ⟨Or.inr ⟨rfl, rfl⟩, c.joined ht⟩)

theorem Disjunction.joined (d : Disjunction) {operand t} (ht : joined true t = true) :
    joined operand (d.text ++ t) = true := by
  match d with
  | .one c => exact c.joined ht
  | .or c d =>
    rw [Disjunction.text, append_assoc, cons_append]
    exact c.joined (joined_cons.2 ⟨Or.inr ⟨rfl, rfl⟩, d.joined ht⟩)

end

mutual

theorem Operand.not_mem_text (o : Operand) : QUALIFIER_CHAR ∉ o.text := by
  match o with
  | .name q => exact fun h => absurd (all_eq_true.1 q.2.2 _ h) (by decide)
  | .not o =>
    rw [Operand.text, mem_cons, not_or]
    exact ⟨by decide, o.not_mem_text⟩
  | .paren d =>
    rw [Operand.text, mem_append, mem_cons, not_or, not_or]
    exact ⟨⟨by decide, d.not_mem_text⟩, by decide⟩

theorem Conjunction.not_mem_text (c : Conjunction) : QUALIFIER_CHAR ∉ c.text := by
  match c with
  | .one o => exact o.not_mem_text
  | .and o c =>
    rw [Conjunction.text, mem_append, mem_cons, not_or, not_or]
    exact ⟨o.not_mem_text, by decide, c.not_mem_text⟩

theorem Disjunction.not_mem_text (d : Disjunction) : QUALIFIER_CHAR ∉ d.text := by
  match d with
  | .one c => exact c.not_mem_text
  | .or c d =>
    rw [Disjunction.text, mem_append, mem_cons, not_or, not_or]
    exact ⟨c.not_mem_text, by decide, d.not_mem_text⟩

end

theorem nameRuns_append {run q t} (hq : q.all isNameChar = true) : nameRuns run (q ++ t) = nameRuns (run ++ q) t := by
  induction q generalizing run with
  | nil => simp
  | cons c q ih =>
    simp only [all_cons, Bool.and_eq_true] at hq
    rw [cons_append, nameRuns, if_pos hq.1, ih hq.2, append_assoc]
    rfl

def EndsRun (t : Bytes) : Prop := ∀ c ∈ t.head?, isNameChar c = false

theorem nameRuns_of_endsRun {run t} (hrun : run ≠ []) (ht : EndsRun t) : nameRuns run t = run :: nameRuns [] t := by
  cases t with
  | nil => simp [nameRuns, hrun]
  | cons c t =>
    have hc : isNameChar c = false := ht c rfl
    simp [nameRuns, hc, hrun]

theorem nameRuns_skip {c} (hc : isNameChar c = false) (t : Bytes) : nameRuns [] (c :: t) = nameRuns [] t := by
  simp [nameRuns, hc]

mutual

theorem Operand.nameRuns (o : Operand) {t} (ht : EndsRun t) : nameRuns [] (o.text ++ t) = o.names ++ nameRuns [] t := by
  match o with
  | .name q =>
    rw [Operand.text, nameRuns_append q.2.2, nil_append, nameRuns_of_endsRun q.2.1 ht]
    rfl
  | .not o =>
    rw [Operand.text, cons_append, nameRuns_skip (by decide), o.nameRuns ht]
    rfl
  | .paren d =>
    rw [Operand.text, append_assoc, cons_append, nameRuns_skip (by decide), d.nameRuns (by simp [EndsRun]; decide),
      singleton_append, nameRuns_skip (by decide)]
    rfl

theorem Conjunction.nameRuns (c : Conjunction) {t} (ht : EndsRun t) :
    nameRuns [] (c.text ++ t) = c.names ++ nameRuns [] t := by
  match c with
  | .one o => exact o.nameRuns ht
  | .and o c =>
    rw [Conjunction.text, append_assoc, cons_append, o.nameRuns (by simp [EndsRun]; decide), nameRuns_skip (by decide),
      c.nameRuns ht, ← append_assoc]
    rfl

theorem Disjunction.nameRuns (d : Disjunction) {t} (ht : EndsRun t) :
    nameRuns [] (d.text ++ t) = d.names ++ nameRuns [] t := by
  match d with
  | .one c => exact c.nameRuns ht
  | .or c d =>
    rw [Disjunction.text, append_assoc, cons_append, c.nameRuns (by simp [EndsRun]; decide), nameRuns_skip (by decide),
      d.nameRuns ht, ← append_assoc]
    rfl

end

theorem mem_insertSorted {α : Type} [DecidableEq α] {lt : α → α → Bool} {x y : α} {l : List α} :
    y ∈ insertSorted lt x l ↔ y = x ∨ y ∈ l := by
  induction l with
  | nil => simp [insertSorted]
  | cons z l ih =>
    unfold insertSorted
    split
    · subst z; simp
    split
    · simp
    · simp only [mem_cons, ih]
      tauto

theorem mem_extract {q : Bytes} : q ∈ extractVerifierStringQualifiers s ↔ q ∈ nameRuns [] s := by
  have hfold : ∀ (runs qs : List Bytes), q ∈ runs.foldl (fun qs q => insertSorted bytesLt q qs) qs ↔ q ∈ qs ∨ q ∈ runs := by
    intro runs
    induction runs with
    | nil => simp
    | cons r runs ih =>
      intro qs
      rw [foldl_cons, ih, mem_insertSorted, mem_cons]
      tauto
  simp [extractVerifierStringQualifiers, hfold]

theorem mem_nameRuns {run q} (hrun : run.all isNameChar = true) (h : q ∈ nameRuns run s) :
    q ≠ [] ∧ q.all isNameChar = true := by
  induction s generalizing run with
  | nil =>
    unfold nameRuns at h
    split at h
    · cases h
    · rename_i hne
      obtain rfl := mem_singleton.1 h
      exact ⟨hne, hrun⟩
  | cons c s ih =>
    unfold nameRuns at h
    split at h
    · rename_i hc
      exact ih (by simp only [all_append, hrun, all_cons, hc, all_nil, Bool.and_true]) h
    · split at h
      · exact ih rfl h
      · rename_i hne
        rcases mem_cons.1 h with rfl | h
        · exact ⟨hne, hrun⟩
        · exact ih rfl h

theorem Disjunction.mem_names (d : Disjunction) {q} : q ∈ extractVerifierStringQualifiers d.text ↔ q ∈ d.names := by
  have h := d.nameRuns (t := []) (by simp [EndsRun])
  rw [append_nil, show Hivecoin.nameRuns [] [] = [] from rfl, append_nil] at h
  rw [mem_extract, h]

/-! ## The value of a formula -/

section

variable (valuation) (v : Bytes → Bool)

/-- The valuation gives a name its value, and it is none of the constants. -/
def Values (q : Bytes) : Prop := valuation q = some (v q) ∧ q ≠ [49] ∧ q ≠ [48]

end

variable {v : Bytes → Bool}

theorem Operand.text_ne_nil : o.text ≠ [] := by
  cases o with
  | name q => exact q.2.1
  | not o => simp [Operand.text]
  | paren d => simp [Operand.text]

theorem Conjunction.text_ne_nil (c : Conjunction) : c.text ≠ [] := by
  cases c with
  | one o => exact o.text_ne_nil
  | and o c => simp [Conjunction.text]

theorem Operand.joined_text : LibBoolEE.joined false o.text = true := by
  simpa using o.joined (t := []) rfl

theorem Conjunction.joined_text (c : Conjunction) : LibBoolEE.joined false c.text = true := by
  simpa using c.joined (t := []) rfl

theorem Disjunction.joined_text (d : Disjunction) : LibBoolEE.joined false d.text = true := by
  simpa using d.joined (t := []) rfl

theorem Operand.resolveUpTo_text (n : Nat) :
    resolveUpTo valuation (n + 1) o.text = resolveOperand valuation n o.text := by
  rw [resolveUpTo_eq valuation n o.joined_text o.text_ne_nil, if_neg (not_not.2 o.matched.depth),
    o.parts_text (Or.inr rfl), o.parts_text (Or.inl rfl)]
  rfl

theorem Conjunction.resolveUpTo_text (c : Conjunction) (n : Nat) :
    resolveUpTo valuation (n + 1) (Conjunction.and o c).text =
      resolveParts valuation n (· && ·) true (o.text :: parts weight 38 0 c.text) := by
  have hpos := length_parts_pos 38 c.text
  rw [resolveUpTo_eq valuation n (Conjunction.joined_text _) (Conjunction.text_ne_nil _),
    if_neg (not_not.2 (Conjunction.matched _).depth), Conjunction.parts_or, Conjunction.parts_and, if_neg (by simp),
    if_pos (by rw [length_cons]; omega)]

theorem Disjunction.resolveUpTo_text (c : Conjunction) (d : Disjunction) (n : Nat) :
    resolveUpTo valuation (n + 1) (Disjunction.or c d).text =
      resolveParts valuation n (· || ·) false (c.text :: parts weight 124 0 d.text) := by
  have hpos := length_parts_pos 124 d.text
  rw [resolveUpTo_eq valuation n (Disjunction.joined_text _) (by simp [Disjunction.text]),
    if_neg (not_not.2 (Disjunction.matched _).depth), Disjunction.parts_or, if_pos (by rw [length_cons]; omega)]

theorem resolveParts_cons {f start p ps}
    (h : resolveUpTo valuation n p = .ok b) :
    resolveParts valuation n f start (p :: ps) = resolveParts valuation n f (f start b) ps := by
  simp only [resolveParts, foldlM_cons, h]
  rfl

mutual

/-- The text of a formula has its value; levels as many as bytes are enough. -/
theorem Operand.resolve_text (o : Operand) (hnames : ∀ q ∈ o.names, Values valuation v q) {n} (hn : o.text.length < n) :
    resolveUpTo valuation n o.text = .ok (o.eval v) := by
  obtain ⟨m, rfl⟩ : ∃ m, n = m + 1 := ⟨n - 1, by omega⟩
  rw [o.resolveUpTo_text]
  match o with
  | .name q =>
    obtain ⟨hvalue, h49, h48⟩ := hnames q.val (mem_singleton_self _)
    have hhead : ∀ c : UInt8, isNameChar c = false → q.val.head? ≠ some c := by
      intro c hc hq
      obtain ⟨t, ht⟩ := List.head?_eq_some_iff.1 hq
      have hall := all_eq_true.1 q.2.2 c (by rw [ht]; exact mem_cons_self)
      rw [hc] at hall
      cases hall
    rw [Operand.text, resolveOperand, if_neg (hhead 33 (by decide)), if_neg (hhead 40 (by decide)), if_neg h49, if_neg h48,
      hvalue]
    rfl
  | .not o =>
    rw [Operand.text, length_cons] at hn
    rw [Operand.text, resolveOperand, List.head?_cons, if_pos rfl, drop_one, tail_cons,
      o.resolve_text hnames (by omega)]
    rfl
  | .paren d =>
    rw [Operand.text, cons_append, length_cons, length_append, length_singleton] at hn
    rw [Operand.text, cons_append, resolveOperand, List.head?_cons, if_neg (by decide), if_pos rfl, drop_one_take,
      length_append, length_singleton, Nat.add_sub_cancel, take_left]
    exact d.resolve_text hnames (by omega)

theorem Conjunction.resolve_text (c : Conjunction) (hnames : ∀ q ∈ c.names, Values valuation v q) {n}
    (hn : c.text.length < n) : resolveUpTo valuation n c.text = .ok (c.eval v) := by
  match c with
  | .one o => exact o.resolve_text hnames hn
  | .and o c =>
    obtain ⟨m, rfl⟩ : ∃ m, n = m + 1 := ⟨n - 1, by omega⟩
    rw [Conjunction.text, length_append, length_cons] at hn
    have ho := o.resolve_text (n := m) (fun q hq => hnames q (mem_append_left _ hq)) (by omega)
    rw [Conjunction.resolveUpTo_text, resolveParts_cons ho,
      c.resolve_parts (fun q hq => hnames q (mem_append_right _ hq)) (by omega)]
    rfl

theorem Conjunction.resolve_parts (c : Conjunction) (hnames : ∀ q ∈ c.names, Values valuation v q) {n}
    (hn : c.text.length < n) {start} :
    resolveParts valuation n (· && ·) start (parts weight 38 0 c.text) = .ok (start && c.eval v) := by
  match c with
  | .one o =>
    rw [Conjunction.text, o.parts_text (Or.inl rfl), resolveParts_cons (o.resolve_text hnames hn)]
    rfl
  | .and o c =>
    rw [Conjunction.text, length_append, length_cons] at hn
    have ho := o.resolve_text (n := n) (fun q hq => hnames q (mem_append_left _ hq)) (by omega)
    rw [Conjunction.parts_and, resolveParts_cons ho,
      c.resolve_parts (fun q hq => hnames q (mem_append_right _ hq)) (by omega), Bool.and_assoc]
    rfl

theorem Disjunction.resolve_text (d : Disjunction) (hnames : ∀ q ∈ d.names, Values valuation v q) {n}
    (hn : d.text.length < n) : resolveUpTo valuation n d.text = .ok (d.eval v) := by
  match d with
  | .one c => exact c.resolve_text hnames hn
  | .or c d =>
    obtain ⟨m, rfl⟩ : ∃ m, n = m + 1 := ⟨n - 1, by omega⟩
    rw [Disjunction.text, length_append, length_cons] at hn
    have hc := c.resolve_text (n := m) (fun q hq => hnames q (mem_append_left _ hq)) (by omega)
    rw [Disjunction.resolveUpTo_text, resolveParts_cons hc,
      d.resolve_parts (fun q hq => hnames q (mem_append_right _ hq)) (by omega)]
    rfl

theorem Disjunction.resolve_parts (d : Disjunction) (hnames : ∀ q ∈ d.names, Values valuation v q) {n}
    (hn : d.text.length < n) {start} :
    resolveParts valuation n (· || ·) start (parts weight 124 0 d.text) = .ok (start || d.eval v) := by
  match d with
  | .one c =>
    rw [Disjunction.text, c.parts_or, resolveParts_cons (c.resolve_text hnames hn)]
    rfl
  | .or c d =>
    rw [Disjunction.text, length_append, length_cons] at hn
    have hc := c.resolve_text (n := n) (fun q hq => hnames q (mem_append_left _ hq)) (by omega)
    rw [Disjunction.parts_or, resolveParts_cons hc,
      d.resolve_parts (fun q hq => hnames q (mem_append_right _ hq)) (by omega), Bool.or_assoc]
    rfl

end

end Hivecoin

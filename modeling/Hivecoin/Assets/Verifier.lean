import Hivecoin.Assets.Name
import Hivecoin.Base.Outcome

/-!
# Verifier strings

The evaluator of `LibBoolEE.cpp` and the checks that need no asset state. What the source throws is an `EvalError`.
-/

namespace Hivecoin

open Outcome

namespace LibBoolEE

inductive EvalError where
  | unknownOperator | parenthesisParity | emptySubExpression | notAFormula | variableNotFound
deriving DecidableEq, Repr

def isSpace (c : UInt8) : Bool := (9 ≤ c && c ≤ 13) || c == 32

def belongsToName (c : UInt8) : Bool :=
  isUpperOrDigit c || isLower c || c == 95 || c == 35 || c == 46

def removeWhitespaces (s : Bytes) : Bytes := s.filter fun c => !isSpace c

def removeCharacter (s : Bytes) (ch : UInt8) : Bytes := s.filter (· != ch)

/-- The locals of `singleParse`. -/
structure ParseState where
  start_pos : Option Nat := none
  parity_count : Int := 0
  subexpressions : List Bytes := []

/-- One turn of the loop, at index `i` with character `c`. -/
def parseStep (formula : Bytes) (op : UInt8) (st : ParseState) (c : UInt8) (i : Nat) :
    Except EvalError ParseState :=
  if c = 41 then .ok { st with parity_count := st.parity_count - 1 }
  else if c = 40 then
    .ok { st with parity_count := st.parity_count + 1, start_pos := st.start_pos.or (some i) }
  else if st.parity_count = 0 then
    match st.start_pos with
    | none => .ok (if belongsToName c ∨ c = 33 then { st with start_pos := some i } else st)
    | some start =>
      if belongsToName c ∨ c = 33 then .ok st
      else if op = c then
        .ok { st with subexpressions := st.subexpressions ++ [(formula.drop start).take (i - start)]
                      start_pos := some (i + 1) }
      else if c ≠ 38 ∧ c ≠ 124 then .error .unknownOperator
      else .ok st
  else .ok st

def singleParse (formula : Bytes) (op : UInt8) : Except EvalError (List Bytes) := do
  let st ← formula.zipIdx.foldlM (fun st ci => parseStep formula op st ci.1 ci.2) {}
  if st.parity_count ≠ 0 then throw .parenthesisParity
  match st.start_pos with
  | some start => return st.subexpressions ++ [formula.drop start]
  | none => return st.subexpressions

/-- `resolve`: `resolveRec` after the removal of white space, with as many levels as bytes. -/
def resolveUpTo (valuation : Bytes → Option Bool) : Nat → Bytes → Except EvalError Bool
  | 0, _ => .error .emptySubExpression
  | n + 1, s => do
      let source := removeWhitespaces s
      if source = [] then throw .emptySubExpression
      let byOr ← singleParse source 124
      if byOr.length > 1 then
        byOr.foldlM (fun result e => do return result || (← resolveUpTo valuation n e)) false
      else
        let byAnd ← if byOr.length = 1 then singleParse source 38 else pure byOr
        if byAnd.length = 0 then throw .notAFormula
        else if byAnd.length = 1 then
          if source.head? = some 33 then return !(← resolveUpTo valuation n (source.drop 1))
          else if source.head? = some 40 then
            resolveUpTo valuation n ((source.drop 1).take (source.length - 2))
          else if source = [49] then return true
          else if source = [48] then return false
          else match valuation source with
            | none => throw .variableNotFound
            | some b => return b
        else byAnd.foldlM (fun result e => do return result && (← resolveUpTo valuation n e)) true

def resolve (source : Bytes) (valuation : Bytes → Option Bool) : Except EvalError Bool :=
  resolveUpTo valuation (source.length + 1) source

end LibBoolEE

def insertSorted {α : Type} [DecidableEq α] (lt : α → α → Bool) (x : α) : List α → List α
  | [] => [x]
  | y :: ys => if x = y then y :: ys else if lt x y then x :: y :: ys else y :: insertSorted lt x ys

def bytesLt (a b : Bytes) : Bool := a < b

/-- The maximal runs of `[A-Z0-9_.]`, read with the run so far. -/
def nameRuns : Bytes → Bytes → List Bytes
  | run, [] => if run = [] then [] else [run]
  | run, c :: s =>
    if isNameChar c then nameRuns (run ++ [c]) s
    else if run = [] then nameRuns [] s else run :: nameRuns [] s

def extractVerifierStringQualifiers (verifier : Bytes) : List Bytes :=
  (nameRuns [] verifier).foldl (fun qs q => insertSorted bytesLt q qs) []

def getStrippedVerifierString (verifier : Bytes) : Bytes :=
  LibBoolEE.removeCharacter (LibBoolEE.removeWhitespaces verifier) QUALIFIER_CHAR

def text (s : Bytes) : String := String.ofList (s.map fun c => Char.ofNat c.toNat)

/-- The qualifiers of a well-formed verifier; none for `true`. -/
def checkVerifierString (verifier : Bytes) : Except String (List Bytes) :=
  if verifier = ascii "true" then .ok []
  else do
    require (verifier != []) "Verifier string can not be empty. To default to true, use \"true\""
    let strippedVerifier := getStrippedVerifierString verifier
    require (strippedVerifier.length ≤ 80)
      "Verifier string has length greater than 80 after whitespaces and '#' are removed"
    let found := extractVerifierStringQualifiers strippedVerifier
    found.forM fun q => require (isQualifierNameValid (QUALIFIER_CHAR :: q))
      ("bad-txns-null-verifier-invalid-asset-name-" ++ text q)
    match LibBoolEE.resolve verifier fun q => if found.contains q then some true else none with
    | .ok _ => return found
    | .error _ => throw "bad-txns-null-verifier-failed-syntax-check"

end Hivecoin

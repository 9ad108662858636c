import Hivecoin.Script.Interpreter
import Hivecoin.Assets.Lemmas.Decode
import Hivecoin.Tx.Conservation

/-!
# Who can spend an asset coin

The owner recorded is that of a payment to a key hash; the interpreter runs the script as it is.
-/

namespace Hivecoin

open Outcome List

namespace Script

variable {C : SignatureChecker} {flags : ScriptFlags} {sigversion : SigVersion}
variable {opcode : UInt8} {vch pc s d tail : Bytes} {code : Bytes} {st' : ScriptState} {stack : List Bytes} {n k : Nat}

theorem evalLoop_push (hget : getOp s = some (opcode, vch, pc)) (hop : opcode ≤ OP_PUSHDATA4)
    (henabled : opcode ∉ disabledOpcodes) :
    evalLoop C flags sigversion (n + 1) s ⟨stack, [], [], k, code⟩ = .ok st' ↔
      vch.length ≤ MAX_SCRIPT_ELEMENT_SIZE ∧ k ≤ MAX_OPS_PER_SCRIPT ∧
      (!flags.MINIMALDATA || checkMinimalPush vch opcode) = true ∧ stack.length + 1 ≤ MAX_STACK_SIZE ∧
      evalLoop C flags sigversion n pc ⟨vch :: stack, [], [], k, code⟩ = .ok st' := by
  have hcount : ¬ OP_16 < opcode := UInt8.not_lt.mpr (UInt8.le_trans hop (by decide))
  cases s with
  | nil => simp [getOp] at hget
  | cons b s =>
    simp only [evalLoop, hget, orError, ok_iff, Except.ok.injEq, exists_eq_left', evalStep, dispatch, if_neg hcount, all_nil,
      hop, decide_true, Bool.and_true, test_iff, henabled, not_false_eq_true, true_and]
    constructor
    · rintro ⟨_, ⟨hsize, hops, _, ⟨hminimal, rfl⟩, hstack, rfl⟩, hrest⟩
      exact ⟨hsize, hops, hminimal, hstack, hrest⟩
    · rintro ⟨hsize, hops, hminimal, hstack, hrest⟩
      exact ⟨_, ⟨hsize, hops, _, ⟨hminimal, rfl⟩, hstack, rfl⟩, hrest⟩

theorem evalLoop_op (hget : getOp s = some (opcode, vch, pc)) (hop : OP_16 < opcode)
    (henabled : opcode ∉ disabledOpcodes) :
    evalLoop C flags sigversion (n + 1) s ⟨stack, [], [], k, code⟩ = .ok st' ↔
      vch.length ≤ MAX_SCRIPT_ELEMENT_SIZE ∧ k + 1 ≤ MAX_OPS_PER_SCRIPT ∧
      ∃ st, execOp C flags sigversion true opcode pc ⟨stack, [], [], k + 1, code⟩ = .ok st ∧
        st.stack.length + st.altstack.length ≤ MAX_STACK_SIZE ∧ evalLoop C flags sigversion n pc st = .ok st' := by
  have hpush : ¬ opcode ≤ OP_PUSHDATA4 := UInt8.not_le.mpr (UInt8.lt_trans (by decide) hop)
  cases s with
  | nil => simp [getOp] at hget
  | cons b s =>
    simp only [evalLoop, hget, orError, ok_iff, Except.ok.injEq, exists_eq_left', evalStep, dispatch, if_pos hop, all_nil,
      hpush, decide_false, Bool.and_false, Bool.true_or, test_iff, henabled, not_false_eq_true, true_and]
    constructor
    · rintro ⟨_, ⟨hsize, hops, _, hrun, hstack, rfl⟩, hrest⟩
      exact ⟨hsize, hops, _, hrun, hstack, hrest⟩
    · rintro ⟨hsize, hops, _, hrun, hstack, hrest⟩
      exact ⟨_, ⟨hsize, hops, _, hrun, hstack, rfl⟩, hrest⟩

section

variable {fExec : Bool} {altstack : List Bytes} {vfExec : List Bool}

theorem execOp_dup :
    execOp C flags sigversion fExec OP_DUP pc ⟨stack, altstack, vfExec, k, code⟩ = .ok st' ↔
      ∃ a rest, stack = a :: rest ∧ st' = ⟨a :: a :: rest, altstack, vfExec, k, code⟩ := by
  rcases stack with _ | ⟨a, rest⟩
  · exact iff_of_false nofun nofun
  · change Except.ok _ = Except.ok st' ↔ _
    simp [eq_comm]

theorem execOp_hash160 :
    execOp C flags sigversion fExec OP_HASH160 pc ⟨stack, altstack, vfExec, k, code⟩ = .ok st' ↔
      ∃ a rest, stack = a :: rest ∧ st' = ⟨C.hash160 a :: rest, altstack, vfExec, k, code⟩ := by
  rcases stack with _ | ⟨a, rest⟩
  · exact iff_of_false nofun nofun
  · change Except.ok _ = Except.ok st' ↔ _
    simp [eq_comm]

theorem execOp_equalVerify :
    execOp C flags sigversion fExec OP_EQUALVERIFY pc ⟨stack, altstack, vfExec, k, code⟩ = .ok st' ↔
      ∃ a rest, stack = a :: a :: rest ∧ st' = ⟨rest, altstack, vfExec, k, code⟩ := by
  rcases stack with _ | ⟨b, _ | ⟨a, rest⟩⟩
  · exact iff_of_false nofun nofun
  · exact iff_of_false nofun nofun
  · change (pushResult (a == b) true .EQUALVERIFY rest >>= fun stack => pure ⟨stack, altstack, vfExec, k, code⟩) =
      Except.ok st' ↔ _
    simp only [pushResult, if_true, ok_iff, cons.injEq, ite_eq_iff]
    constructor
    · rintro ⟨_, ⟨hab, hrest⟩ | ⟨-, hrest⟩, rfl⟩
      · cases hrest
        exact ⟨b, rest, ⟨rfl, by simpa using hab, rfl⟩, rfl⟩
      · cases hrest
    · rintro ⟨_, _, ⟨rfl, rfl, rfl⟩, rfl⟩
      exact ⟨_, .inl ⟨by simp, rfl⟩, rfl⟩

theorem execOp_checkSig :
    execOp C flags sigversion fExec OP_CHECKSIG pc ⟨stack, altstack, vfExec, k, code⟩ = .ok st' ↔
      ∃ pub sig rest fSuccess, stack = pub :: sig :: rest ∧
        checkSig C flags sigversion sig pub (scriptCode sigversion code [sig]) = .ok fSuccess ∧
        (fSuccess || !flags.NULLFAIL || sig.isEmpty) = true ∧
        st' = ⟨ofBool fSuccess :: rest, altstack, vfExec, k, code⟩ := by
  change execCheckSig C flags sigversion false _ = .ok st' ↔ _
  rcases stack with _ | ⟨pub, _ | ⟨sig, rest⟩⟩
  · exact iff_of_false nofun nofun
  · exact iff_of_false nofun nofun
  · simp only [execCheckSig, pushResult, ok_iff, test_iff, Except.ok.injEq]
    constructor
    · rintro ⟨fSuccess, hsig, hnull, _, rfl, rfl⟩
      exact ⟨pub, sig, rest, fSuccess, rfl, hsig, hnull, rfl⟩
    · rintro ⟨_, _, _, fSuccess, heq, hsig, hnull, rfl⟩
      cases heq
      exact ⟨fSuccess, hsig, hnull, _, rfl, rfl⟩

end

/-- The signature `sig` of the key `pub` for a coin with the script `s`. -/
def Signed (C : SignatureChecker) (flags : ScriptFlags) (sigversion : SigVersion) (s sig pub : Bytes) : Prop :=
  checkSig C flags sigversion sig pub (scriptCode sigversion s [sig]) = .ok true

/-- The script ends with a true element on top. -/
def Spends (C : SignatureChecker) (flags : ScriptFlags) (sigversion : SigVersion) (stack : List Bytes) (s : Bytes) :
    Prop :=
  ∃ top rest, evalScript C flags sigversion stack s = .ok (top :: rest) ∧ castToBool top = true

theorem castToBool_ofBool (b : Bool) : castToBool (ofBool b) = b := by
  cases b <;> rfl

theorem getOp_hash (hd : d.length = 20) : getOp (0x14 :: (d ++ pc)) = some (0x14, d, pc) := by
  simp [getOp, OP_PUSHDATA4, OP_PUSHDATA1, hd]

theorem evalLoop_keyHash (hd : d.length = 20) :
    evalLoop C flags sigversion (n + 6) (scriptForKeyID d ++ OP_HVN_ASSET :: tail) ⟨stack, [], [], 0, code⟩ = .ok st' ↔
      ∃ pub sig rest fSuccess, stack = pub :: sig :: rest ∧ rest.length + 4 ≤ MAX_STACK_SIZE ∧ C.hash160 pub = d ∧
        checkSig C flags sigversion sig pub (scriptCode sigversion code [sig]) = .ok fSuccess ∧
        (fSuccess || !flags.NULLFAIL || sig.isEmpty) = true ∧ tail.length ≤ MAX_SCRIPT_ELEMENT_SIZE ∧
        st' = ⟨ofBool fSuccess :: rest, [], [], 5, code⟩ := by
  have hscript : scriptForKeyID d ++ OP_HVN_ASSET :: tail =
      OP_DUP :: OP_HASH160 :: 0x14 :: (d ++ OP_EQUALVERIFY :: OP_CHECKSIG :: OP_HVN_ASSET :: tail) := by
    simp [scriptForKeyID, pushBytes_short, hd]
  rw [hscript]
  constructor
  · intro h0
    obtain ⟨-, -, _, hop, -, h1⟩ := (evalLoop_op rfl (by decide) (by decide)).mp h0
    obtain ⟨pub, rest, rfl, rfl⟩ := execOp_dup.mp hop
    obtain ⟨-, -, _, hop, -, h2⟩ := (evalLoop_op rfl (by decide) (by decide)).mp h1
    obtain ⟨_, _, heq, rfl⟩ := execOp_hash160.mp hop
    cases heq
    obtain ⟨-, -, -, hstack, h3⟩ := (evalLoop_push (getOp_hash hd) (by decide) (by decide)).mp h2
    obtain ⟨-, -, _, hop, -, h4⟩ := (evalLoop_op rfl (by decide) (by decide)).mp h3
    obtain ⟨_, _, heq, rfl⟩ := execOp_equalVerify.mp hop
    obtain ⟨rfl, hhash, rfl⟩ := by simpa only [cons.injEq] using heq
    obtain ⟨-, -, _, hop, -, h5⟩ := (evalLoop_op rfl (by decide) (by decide)).mp h4
    obtain ⟨_, sig, rest, fSuccess, heq, hsig, hnull, rfl⟩ := execOp_checkSig.mp hop
    cases heq
    obtain ⟨htail, -, _, hop, -, h6⟩ := (evalLoop_op rfl (by decide) (by decide)).mp h5
    cases hop
    simp only [evalLoop, Except.ok.injEq] at h6
    exact ⟨pub, sig, rest, fSuccess, rfl, by simp at hstack; omega, hhash, hsig, hnull, htail, h6.symm⟩
  · rintro ⟨pub, sig, rest, fSuccess, rfl, hstack, rfl, hsig, hnull, htail, rfl⟩
    have hminimal : checkMinimalPush (C.hash160 pub) 0x14 = true := by simp [checkMinimalPush, hd]
    refine (evalLoop_op rfl (by decide) (by decide)).mpr ⟨by decide, by decide, _, execOp_dup.mpr ⟨pub, _, rfl, rfl⟩,
      by simp; omega, ?_⟩
    refine (evalLoop_op rfl (by decide) (by decide)).mpr ⟨by decide, by decide, _, execOp_hash160.mpr ⟨pub, _, rfl, rfl⟩,
      by simp; omega, ?_⟩
    refine (evalLoop_push (getOp_hash hd) (by decide) (by decide)).mpr ⟨by rw [hd]; decide, by decide, by simp [hminimal],
      by simp; omega, ?_⟩
    refine (evalLoop_op rfl (by decide) (by decide)).mpr ⟨by decide, by decide, _,
      execOp_equalVerify.mpr ⟨_, _, rfl, rfl⟩, by simp; omega, ?_⟩
    refine (evalLoop_op rfl (by decide) (by decide)).mpr ⟨by decide, by decide, _,
      execOp_checkSig.mpr ⟨pub, sig, rest, fSuccess, rfl, hsig, hnull, rfl⟩, by simp; omega, ?_⟩
    exact (evalLoop_op rfl (by decide) (by decide)).mpr ⟨htail, by decide, _, rfl, by simp; omega,
      by simp only [evalLoop]⟩

theorem spends_keyHash (hd : d.length = 20) :
    Spends C flags sigversion stack (scriptForKeyID d ++ OP_HVN_ASSET :: tail) ↔
      tail.length ≤ MAX_SCRIPT_ELEMENT_SIZE ∧ ∃ pub sig rest, stack = pub :: sig :: rest ∧
        rest.length + 4 ≤ MAX_STACK_SIZE ∧ C.hash160 pub = d ∧
        Signed C flags sigversion (scriptForKeyID d ++ OP_HVN_ASSET :: tail) sig pub := by
  have hlength : (scriptForKeyID d ++ OP_HVN_ASSET :: tail).length = tail.length + 20 + 6 := by
    simp [scriptForKeyID, pushBytes_short, hd]
    omega
  simp only [Spends, evalScript, ok_iff, decide_eq_true_eq]
  constructor
  · rintro ⟨top, rest, ⟨-, st, hrun, -, hstack⟩, htop⟩
    rw [hlength] at hrun
    obtain ⟨pub, sig, rest, fSuccess, rfl, hrest, hhash, hsig, -, htail, rfl⟩ := (evalLoop_keyHash hd).mp hrun
    cases hstack
    rw [castToBool_ofBool] at htop
    cases htop
    exact ⟨htail, pub, sig, rest, rfl, hrest, hhash, hsig⟩
  · rintro ⟨htail, pub, sig, rest, rfl, hrest, hhash, hsig⟩
    have hsize : tail.length + 20 + 6 ≤ MAX_SCRIPT_SIZE :=
      (Nat.add_le_add_right htail 26).trans (by decide)
    refine ⟨ofBool true, rest, ⟨hlength ▸ hsize, ⟨ofBool true :: rest, [], [], 5, scriptForKeyID d ++ OP_HVN_ASSET :: tail⟩,
      ?_, rfl, rfl⟩, rfl⟩
    rw [hlength]
    exact (evalLoop_keyHash hd).mpr ⟨pub, sig, rest, true, rfl, hrest, hhash, hsig, rfl, htail, rfl⟩

/-- Signature and key of the owner `d` spend the coin, and nothing else does. -/
def OwnerSpends (s d : Bytes) : Prop :=
  ∀ (C : SignatureChecker) (flags : ScriptFlags) (sigversion : SigVersion),
    (∀ sig pub, Spends C flags sigversion [pub, sig] s ↔ C.hash160 pub = d ∧ Signed C flags sigversion s sig pub) ∧
    ∀ stack, Spends C flags sigversion stack s →
      ∃ pub ∈ stack, ∃ sig ∈ stack, C.hash160 pub = d ∧ Signed C flags sigversion s sig pub

end Script

section

open Script

variable {E : Env} {s d : Bytes} {data : CAssetOutputEntry}

theorem eq_keyHash (h : E.getAssetData s = some data) (hdest : data.destination = .keyID d)
    (hhead : s.take 25 = scriptForKeyID d) :
    d.length = 20 ∧ s = scriptForKeyID d ++ OP_HVN_ASSET :: s.drop 26 := by
  obtain ⟨hasset, hkey⟩ := getAssetData_destination h
  obtain ⟨a, hasset⟩ := Option.isSome_iff_exists.mp hasset
  obtain ⟨hlength, hmarker⟩ := isAssetScript_marker hasset
  rw [hkey] at hdest
  cases hdest
  refine ⟨by simp; omega, ?_⟩
  rw [← hhead, ← hmarker, ← drop_eq_byteAt_cons (by omega), take_append_drop]

end

namespace Regtest

/-- A transfer whose script does nothing where a payment would stand. -/
def openScript : Bytes := replicate 25 OP_NOP ++ (goldOut alice 10).scriptPubKey.drop 25

def openTransfer : CTransaction := ⟨[⟨⟨1, 0⟩, []⟩], [⟨0, openScript⟩], 2⟩

def noSignature : SignatureChecker :=
  ⟨id, id, id, id, id, fun _ => false, fun _ _ _ _ => false, fun _ => false, fun _ => false⟩

end Regtest

end Hivecoin

import Mathlib.Data.Nat.Digits.Defs
import Hivecoin.Base.Outcome
import Hivecoin.Script.Basic

/-!
# The script interpreter

`EvalScript` of `script/interpreter.cpp`, with hashes and signature checks left open. A stack has its top in front.
-/

namespace Hivecoin

open Outcome

@[match_pattern] def OP_1NEGATE : UInt8 := 0x4f
@[match_pattern] def OP_NOP : UInt8 := 0x61
@[match_pattern] def OP_IF : UInt8 := 0x63
@[match_pattern] def OP_NOTIF : UInt8 := 0x64
@[match_pattern] def OP_ELSE : UInt8 := 0x67
@[match_pattern] def OP_ENDIF : UInt8 := 0x68
@[match_pattern] def OP_VERIFY : UInt8 := 0x69
@[match_pattern] def OP_TOALTSTACK : UInt8 := 0x6b
@[match_pattern] def OP_FROMALTSTACK : UInt8 := 0x6c
@[match_pattern] def OP_2DROP : UInt8 := 0x6d
@[match_pattern] def OP_2DUP : UInt8 := 0x6e
@[match_pattern] def OP_3DUP : UInt8 := 0x6f
@[match_pattern] def OP_2OVER : UInt8 := 0x70
@[match_pattern] def OP_2ROT : UInt8 := 0x71
@[match_pattern] def OP_2SWAP : UInt8 := 0x72
@[match_pattern] def OP_IFDUP : UInt8 := 0x73
@[match_pattern] def OP_DEPTH : UInt8 := 0x74
@[match_pattern] def OP_NIP : UInt8 := 0x77
@[match_pattern] def OP_OVER : UInt8 := 0x78
@[match_pattern] def OP_PICK : UInt8 := 0x79
@[match_pattern] def OP_ROLL : UInt8 := 0x7a
@[match_pattern] def OP_ROT : UInt8 := 0x7b
@[match_pattern] def OP_SWAP : UInt8 := 0x7c
@[match_pattern] def OP_TUCK : UInt8 := 0x7d
@[match_pattern] def OP_CAT : UInt8 := 0x7e
@[match_pattern] def OP_SUBSTR : UInt8 := 0x7f
@[match_pattern] def OP_LEFT : UInt8 := 0x80
@[match_pattern] def OP_RIGHT : UInt8 := 0x81
@[match_pattern] def OP_SIZE : UInt8 := 0x82
@[match_pattern] def OP_INVERT : UInt8 := 0x83
@[match_pattern] def OP_AND : UInt8 := 0x84
@[match_pattern] def OP_OR : UInt8 := 0x85
@[match_pattern] def OP_XOR : UInt8 := 0x86
@[match_pattern] def OP_1ADD : UInt8 := 0x8b
@[match_pattern] def OP_1SUB : UInt8 := 0x8c
@[match_pattern] def OP_2MUL : UInt8 := 0x8d
@[match_pattern] def OP_2DIV : UInt8 := 0x8e
@[match_pattern] def OP_NEGATE : UInt8 := 0x8f
@[match_pattern] def OP_ABS : UInt8 := 0x90
@[match_pattern] def OP_NOT : UInt8 := 0x91
@[match_pattern] def OP_0NOTEQUAL : UInt8 := 0x92
@[match_pattern] def OP_ADD : UInt8 := 0x93
@[match_pattern] def OP_SUB : UInt8 := 0x94
@[match_pattern] def OP_MUL : UInt8 := 0x95
@[match_pattern] def OP_DIV : UInt8 := 0x96
@[match_pattern] def OP_MOD : UInt8 := 0x97
@[match_pattern] def OP_LSHIFT : UInt8 := 0x98
@[match_pattern] def OP_RSHIFT : UInt8 := 0x99
@[match_pattern] def OP_BOOLAND : UInt8 := 0x9a
@[match_pattern] def OP_BOOLOR : UInt8 := 0x9b
@[match_pattern] def OP_NUMEQUAL : UInt8 := 0x9c
@[match_pattern] def OP_NUMEQUALVERIFY : UInt8 := 0x9d
@[match_pattern] def OP_NUMNOTEQUAL : UInt8 := 0x9e
@[match_pattern] def OP_LESSTHAN : UInt8 := 0x9f
@[match_pattern] def OP_GREATERTHAN : UInt8 := 0xa0
@[match_pattern] def OP_LESSTHANOREQUAL : UInt8 := 0xa1
@[match_pattern] def OP_GREATERTHANOREQUAL : UInt8 := 0xa2
@[match_pattern] def OP_MIN : UInt8 := 0xa3
@[match_pattern] def OP_MAX : UInt8 := 0xa4
@[match_pattern] def OP_WITHIN : UInt8 := 0xa5
@[match_pattern] def OP_RIPEMD160 : UInt8 := 0xa6
@[match_pattern] def OP_SHA1 : UInt8 := 0xa7
@[match_pattern] def OP_SHA256 : UInt8 := 0xa8
@[match_pattern] def OP_HASH256 : UInt8 := 0xaa
@[match_pattern] def OP_CODESEPARATOR : UInt8 := 0xab
@[match_pattern] def OP_CHECKSIGVERIFY : UInt8 := 0xad
@[match_pattern] def OP_CHECKMULTISIGVERIFY : UInt8 := 0xaf
@[match_pattern] def OP_NOP1 : UInt8 := 0xb0
@[match_pattern] def OP_CHECKLOCKTIMEVERIFY : UInt8 := 0xb1
@[match_pattern] def OP_CHECKSEQUENCEVERIFY : UInt8 := 0xb2
@[match_pattern] def OP_NOP4 : UInt8 := 0xb3
@[match_pattern] def OP_NOP5 : UInt8 := 0xb4
@[match_pattern] def OP_NOP6 : UInt8 := 0xb5
@[match_pattern] def OP_NOP7 : UInt8 := 0xb6
@[match_pattern] def OP_NOP8 : UInt8 := 0xb7
@[match_pattern] def OP_NOP9 : UInt8 := 0xb8
@[match_pattern] def OP_NOP10 : UInt8 := 0xb9

def MAX_SCRIPT_ELEMENT_SIZE : Nat := 520
def MAX_OPS_PER_SCRIPT : Nat := 201
def MAX_PUBKEYS_PER_MULTISIG : Nat := 20
def MAX_STACK_SIZE : Nat := 1000

inductive ScriptError where
  | UNKNOWN_ERROR | OP_RETURN | SCRIPT_SIZE | PUSH_SIZE | OP_COUNT | STACK_SIZE | SIG_COUNT | PUBKEY_COUNT
  | VERIFY | EQUALVERIFY | CHECKMULTISIGVERIFY | CHECKSIGVERIFY | NUMEQUALVERIFY
  | BAD_OPCODE | DISABLED_OPCODE | INVALID_STACK_OPERATION | INVALID_ALTSTACK_OPERATION | UNBALANCED_CONDITIONAL
  | NEGATIVE_LOCKTIME | UNSATISFIED_LOCKTIME
  | SIG_HASHTYPE | SIG_DER | MINIMALDATA | SIG_HIGH_S | SIG_NULLDUMMY | PUBKEYTYPE | MINIMALIF | SIG_NULLFAIL
  | DISCOURAGE_UPGRADABLE_NOPS | WITNESS_PUBKEYTYPE
deriving DecidableEq, Repr

/-- The `SCRIPT_VERIFY_` flags that the interpreter reads. -/
structure ScriptFlags where
  STRICTENC : Bool
  DERSIG : Bool
  LOW_S : Bool
  NULLDUMMY : Bool
  MINIMALDATA : Bool
  DISCOURAGE_UPGRADABLE_NOPS : Bool
  CHECKLOCKTIMEVERIFY : Bool
  CHECKSEQUENCEVERIFY : Bool
  MINIMALIF : Bool
  NULLFAIL : Bool
  WITNESS_PUBKEYTYPE : Bool

def ScriptFlags.NONE : ScriptFlags :=
  ⟨false, false, false, false, false, false, false, false, false, false, false⟩

inductive SigVersion where
  | SIGVERSION_BASE | SIGVERSION_WITNESS_V0
deriving DecidableEq, Repr

/-- Hashes, `CPubKey::CheckLowS` and the transaction's `BaseSignatureChecker`. -/
structure SignatureChecker where
  ripemd160 : Bytes → Bytes
  sha1 : Bytes → Bytes
  sha256 : Bytes → Bytes
  hash160 : Bytes → Bytes
  hash256 : Bytes → Bytes
  checkLowS : Bytes → Bool
  checkSig : Bytes → Bytes → Bytes → SigVersion → Bool
  checkLockTime : Int → Bool
  checkSequence : Int → Bool

namespace Script

/-- `CastToBool`: zero, also negative zero, is false. -/
def castToBool (vch : Bytes) : Bool :=
  match vch.dropWhile (· == 0) with
  | [] => false
  | [b] => b != 0x80
  | _ => true

def vchTrue : Bytes := [1]
def vchFalse : Bytes := []

def ofBool (b : Bool) : Bytes := if b then vchTrue else vchFalse

def serializeNum (value : Int) : Bytes :=
  let result := (Nat.digits 256 value.natAbs).map UInt8.ofNat
  if value = 0 then []
  else if result.getLastD 0 ≥ 0x80 then result ++ [if value < 0 then 0x80 else 0]
  else if value < 0 then result.dropLast ++ [result.getLastD 0 ||| 0x80]
  else result

def setVch (vch : Bytes) : Int :=
  if vch.getLastD 0 ≥ 0x80 then -((readLE vch : Int) - 0x80 * 256 ^ (vch.length - 1)) else readLE vch

/-- A `CScriptNum` from the stack; what is thrown is an unknown error. -/
def toNum (fRequireMinimal : Bool) (nMaxNumSize : Nat) (vch : Bytes) : Except ScriptError Int := do
  require (vch.length ≤ nMaxNumSize) .UNKNOWN_ERROR
  require (!(fRequireMinimal && !vch.isEmpty && vch.getLastD 0 &&& 0x7f == 0 &&
    (vch.length ≤ 1 || vch.dropLast.getLastD 0 &&& 0x80 == 0))) .UNKNOWN_ERROR
  return setVch vch

def nDefaultMaxNumSize : Nat := 4

def isCompressedOrUncompressedPubKey (vchPubKey : Bytes) : Bool :=
  if vchPubKey.length < 33 then false
  else if byteAt vchPubKey 0 = 4 then vchPubKey.length = 65
  else if byteAt vchPubKey 0 = 2 ∨ byteAt vchPubKey 0 = 3 then vchPubKey.length = 33
  else false

def isCompressedPubKey (vchPubKey : Bytes) : Bool :=
  vchPubKey.length = 33 && (byteAt vchPubKey 0 == 2 || byteAt vchPubKey 0 == 3)

def isValidSignatureEncoding (sig : Bytes) : Bool :=
  let lenR := (byteAt sig 3).toNat
  let lenS := (byteAt sig (5 + lenR)).toNat
  9 ≤ sig.length && sig.length ≤ 73 && byteAt sig 0 == 0x30 && (byteAt sig 1).toNat == sig.length - 3 &&
  5 + lenR < sig.length && lenR + lenS + 7 == sig.length &&
  byteAt sig 2 == 2 && lenR != 0 && byteAt sig 4 &&& 0x80 == 0 &&
  !(1 < lenR && byteAt sig 4 == 0 && byteAt sig 5 &&& 0x80 == 0) &&
  byteAt sig (lenR + 4) == 2 && lenS != 0 && byteAt sig (lenR + 6) &&& 0x80 == 0 &&
  !(1 < lenS && byteAt sig (lenR + 6) == 0 && byteAt sig (lenR + 7) &&& 0x80 == 0)

def isDefinedHashtypeSignature (vchSig : Bytes) : Bool :=
  let nHashType := vchSig.getLastD 0 &&& 0x7f
  !vchSig.isEmpty && 1 ≤ nHashType && nHashType ≤ 3

def checkMinimalPush (data : Bytes) (opcode : UInt8) : Bool :=
  if data.length = 0 then opcode = 0
  else if data.length = 1 ∧ 1 ≤ byteAt data 0 ∧ byteAt data 0 ≤ 16 then opcode = OP_1 + (byteAt data 0 - 1)
  else if data.length = 1 ∧ byteAt data 0 = 0x81 then opcode = OP_1NEGATE
  else if data.length ≤ 75 then opcode.toNat = data.length
  else if data.length ≤ 255 then opcode = OP_PUSHDATA1
  else if data.length ≤ 65535 then opcode = OP_PUSHDATA2
  else true

/-- Takes out every occurrence of `b` at the start of an instruction. -/
def findAndDeleteUpTo (b : Bytes) : Nat → Bytes → Bytes
  | 0, s => s
  | n + 1, s =>
    if b.isPrefixOf s then findAndDeleteUpTo b n (s.drop b.length)
    else match getOp s with
    | none => s
    | some (_, _, pc) => s.take (s.length - pc.length) ++ findAndDeleteUpTo b n pc

/-- `FindAndDelete`; it takes at most one step for each byte, and a last one. -/
def findAndDelete (b s : Bytes) : Bytes := if b = [] then s else findAndDeleteUpTo b (s.length + 1) s

end Script

/-! ## Instructions -/

/-- `vfExec` has its last condition in front. -/
structure ScriptState where
  stack : List Bytes
  altstack : List Bytes
  vfExec : List Bool
  nOpCount : Nat
  /-- the script from the last code separator on -/
  codehash : Bytes

namespace Script

section

variable (C : SignatureChecker) (flags : ScriptFlags) (sigversion : SigVersion)

def checkSignatureEncoding (vchSig : Bytes) : Except ScriptError Unit :=
  if vchSig = [] then .ok ()
  else if (flags.DERSIG || flags.LOW_S || flags.STRICTENC) && !isValidSignatureEncoding vchSig then .error .SIG_DER
  else if flags.LOW_S && !C.checkLowS vchSig.dropLast then .error .SIG_HIGH_S
  else if flags.STRICTENC && !isDefinedHashtypeSignature vchSig then .error .SIG_HASHTYPE
  else .ok ()

def checkPubKeyEncoding (vchPubKey : Bytes) : Except ScriptError Unit := do
  require (!flags.STRICTENC || isCompressedOrUncompressedPubKey vchPubKey) .PUBKEYTYPE
  require (!(flags.WITNESS_PUBKEYTYPE && sigversion == .SIGVERSION_WITNESS_V0) || isCompressedPubKey vchPubKey)
    .WITNESS_PUBKEYTYPE

/-- What a signature signs: before segwit it is taken out itself. -/
def scriptCode (codehash : Bytes) (sigs : List Bytes) : Bytes :=
  if sigversion = .SIGVERSION_BASE then sigs.foldl (fun code sig => findAndDelete sig code) codehash else codehash

def checkSig (vchSig vchPubKey code : Bytes) : Except ScriptError Bool := do
  checkSignatureEncoding C flags vchSig
  checkPubKeyEncoding flags sigversion vchPubKey
  return C.checkSig vchSig vchPubKey code sigversion

/-- The loop of `OP_CHECKMULTISIG`, which gives up when more signatures are left than keys. -/
def checkSigs (code : Bytes) : List Bytes → List Bytes → Except ScriptError Bool
  | [], _ => .ok true
  | _ :: _, [] => .ok false
  | vchSig :: sigs, vchPubKey :: keys => do
      let fOk ← checkSig C flags sigversion vchSig vchPubKey code
      let left := if fOk then sigs else vchSig :: sigs
      if left.length > keys.length then return false
      else checkSigs code left keys
termination_by _ keys => keys.length

/-- A result that is left on the stack, or checked and dropped. -/
def pushResult (fSuccess fVerify : Bool) (err : ScriptError) (stack : List Bytes) : Except ScriptError (List Bytes) :=
  if fVerify then
    if fSuccess then .ok stack else .error err
  else .ok (ofBool fSuccess :: stack)

def execCheckSig (fVerify : Bool) (st : ScriptState) : Except ScriptError ScriptState :=
  match st.stack with
  | vchPubKey :: vchSig :: stack => do
      let fSuccess ← checkSig C flags sigversion vchSig vchPubKey (scriptCode sigversion st.codehash [vchSig])
      require (fSuccess || !flags.NULLFAIL || vchSig.isEmpty) .SIG_NULLFAIL
      return { st with stack := ← pushResult fSuccess fVerify .CHECKSIGVERIFY stack }
  | _ => .error .INVALID_STACK_OPERATION

def execCheckMultiSig (fVerify : Bool) (st : ScriptState) : Except ScriptError ScriptState := do
  require (1 ≤ st.stack.length) .INVALID_STACK_OPERATION
  let keysCount ← toNum flags.MINIMALDATA nDefaultMaxNumSize (st.stack.headD [])
  require (0 ≤ keysCount ∧ keysCount ≤ MAX_PUBKEYS_PER_MULTISIG) .PUBKEY_COUNT
  let nKeysCount := keysCount.toNat
  let nOpCount := st.nOpCount + nKeysCount
  require (nOpCount ≤ MAX_OPS_PER_SCRIPT) .OP_COUNT
  require (2 + nKeysCount ≤ st.stack.length) .INVALID_STACK_OPERATION
  let keys := (st.stack.drop 1).take nKeysCount
  let sigsCount ← toNum flags.MINIMALDATA nDefaultMaxNumSize ((st.stack.drop (1 + nKeysCount)).headD [])
  require (0 ≤ sigsCount ∧ sigsCount ≤ keysCount) .SIG_COUNT
  let nSigsCount := sigsCount.toNat
  require (3 + nKeysCount + nSigsCount ≤ st.stack.length) .INVALID_STACK_OPERATION
  let sigs := (st.stack.drop (2 + nKeysCount)).take nSigsCount
  let fSuccess ← checkSigs C flags sigversion (scriptCode sigversion st.codehash sigs) sigs keys
  require (fSuccess || !flags.NULLFAIL || sigs.all List.isEmpty) .SIG_NULLFAIL
  -- one more element is taken off than is used
  match st.stack.drop (2 + nKeysCount + nSigsCount) with
  | [] => .error .INVALID_STACK_OPERATION
  | dummy :: stack =>
    require (!flags.NULLDUMMY || dummy.isEmpty) .SIG_NULLDUMMY
    return { st with stack := ← pushResult fSuccess fVerify .CHECKMULTISIGVERIFY stack, nOpCount }

variable (opcode : UInt8)

def execStack (stack : List Bytes) : Option (List Bytes) :=
  match opcode, stack with
  | OP_2DROP, _ :: _ :: s => some s
  | OP_2DUP, b :: a :: s => some (b :: a :: b :: a :: s)
  | OP_3DUP, c :: b :: a :: s => some (c :: b :: a :: c :: b :: a :: s)
  | OP_2OVER, d :: c :: b :: a :: s => some (b :: a :: d :: c :: b :: a :: s)
  | OP_2ROT, f :: e :: d :: c :: b :: a :: s => some (b :: a :: f :: e :: d :: c :: s)
  | OP_2SWAP, d :: c :: b :: a :: s => some (b :: a :: d :: c :: s)
  | OP_IFDUP, a :: s => some (if castToBool a then a :: a :: s else a :: s)
  | OP_DEPTH, s => some (serializeNum s.length :: s)
  | OP_DROP, _ :: s => some s
  | OP_DUP, a :: s => some (a :: a :: s)
  | OP_NIP, b :: _ :: s => some (b :: s)
  | OP_OVER, b :: a :: s => some (a :: b :: a :: s)
  | OP_ROT, c :: b :: a :: s => some (a :: c :: b :: s)
  | OP_SWAP, b :: a :: s => some (a :: b :: s)
  | OP_TUCK, b :: a :: s => some (b :: a :: b :: s)
  | OP_SIZE, a :: s => some (serializeNum a.length :: a :: s)
  | _, _ => none

def unaryNum (bn : Int) : Int :=
  match opcode with
  | OP_1ADD => bn + 1
  | OP_1SUB => bn - 1
  | OP_NEGATE => -bn
  | OP_ABS => |bn|
  | OP_NOT => if bn = 0 then 1 else 0
  | _ => if bn = 0 then 0 else 1

def binaryNum (bn1 bn2 : Int) : Int :=
  let ofProp (p : Prop) [Decidable p] : Int := if p then 1 else 0
  match opcode with
  | OP_ADD => bn1 + bn2
  | OP_SUB => bn1 - bn2
  | OP_BOOLAND => ofProp (bn1 ≠ 0 ∧ bn2 ≠ 0)
  | OP_BOOLOR => ofProp (bn1 ≠ 0 ∨ bn2 ≠ 0)
  | OP_NUMEQUAL | OP_NUMEQUALVERIFY => ofProp (bn1 = bn2)
  | OP_NUMNOTEQUAL => ofProp (bn1 ≠ bn2)
  | OP_LESSTHAN => ofProp (bn1 < bn2)
  | OP_GREATERTHAN => ofProp (bn1 > bn2)
  | OP_LESSTHANOREQUAL => ofProp (bn1 ≤ bn2)
  | OP_GREATERTHANOREQUAL => ofProp (bn1 ≥ bn2)
  | OP_MIN => min bn1 bn2
  | _ => max bn1 bn2

def execCompute (stack : List Bytes) : Except ScriptError (List Bytes) :=
  let num := toNum flags.MINIMALDATA nDefaultMaxNumSize
  match opcode, stack with
  | OP_PICK, vch :: s | OP_ROLL, vch :: s =>
    if s = [] then .error .INVALID_STACK_OPERATION
    else do
      let n ← num vch
      require (0 ≤ n ∧ n < s.length) .INVALID_STACK_OPERATION
      return s.getD n.toNat [] :: if opcode = OP_ROLL then s.eraseIdx n.toNat else s
  | OP_EQUAL, b :: a :: s => .ok (ofBool (a == b) :: s)
  | OP_EQUALVERIFY, b :: a :: s => pushResult (a == b) true .EQUALVERIFY s
  | OP_1ADD, a :: s | OP_1SUB, a :: s | OP_NEGATE, a :: s | OP_ABS, a :: s | OP_NOT, a :: s | OP_0NOTEQUAL, a :: s => do
      return serializeNum (unaryNum opcode (← num a)) :: s
  | OP_ADD, b :: a :: s | OP_SUB, b :: a :: s | OP_BOOLAND, b :: a :: s | OP_BOOLOR, b :: a :: s
  | OP_NUMEQUAL, b :: a :: s | OP_NUMNOTEQUAL, b :: a :: s | OP_LESSTHAN, b :: a :: s | OP_GREATERTHAN, b :: a :: s
  | OP_LESSTHANOREQUAL, b :: a :: s | OP_GREATERTHANOREQUAL, b :: a :: s | OP_MIN, b :: a :: s | OP_MAX, b :: a :: s => do
      return serializeNum (binaryNum opcode (← num a) (← num b)) :: s
  | OP_NUMEQUALVERIFY, b :: a :: s => do
      pushResult (binaryNum opcode (← num a) (← num b) != 0) true .NUMEQUALVERIFY s
  | OP_WITHIN, c :: b :: a :: s => do
      let bn1 ← num a
      let bn2 ← num b
      let bn3 ← num c
      return ofBool (bn2 ≤ bn1 ∧ bn1 < bn3) :: s
  | OP_RIPEMD160, a :: s => .ok (C.ripemd160 a :: s)
  | OP_SHA1, a :: s => .ok (C.sha1 a :: s)
  | OP_SHA256, a :: s => .ok (C.sha256 a :: s)
  | OP_HASH160, a :: s => .ok (C.hash160 a :: s)
  | OP_HASH256, a :: s => .ok (C.hash256 a :: s)
  | _, _ => .error .INVALID_STACK_OPERATION

def execIf (fNot fExec : Bool) (st : ScriptState) : Except ScriptError ScriptState :=
  if fExec then
    match st.stack with
    | [] => .error .UNBALANCED_CONDITIONAL
    | vch :: stack => do
        require (!(sigversion == .SIGVERSION_WITNESS_V0 && flags.MINIMALIF) || vch.isEmpty || vch == [1]) .MINIMALIF
        return { st with stack, vfExec := (castToBool vch != fNot) :: st.vfExec }
  else return { st with vfExec := false :: st.vfExec }

/-- `OP_CHECKLOCKTIMEVERIFY` and `OP_CHECKSEQUENCEVERIFY`, upgraded `OP_NOP`s. -/
def execLockTime (enabled fSequence : Bool) (st : ScriptState) : Except ScriptError ScriptState :=
  if !enabled then do
    require (!flags.DISCOURAGE_UPGRADABLE_NOPS) .DISCOURAGE_UPGRADABLE_NOPS
    return st
  else
    match st.stack with
    | [] => .error .INVALID_STACK_OPERATION
    | vch :: _ => do
        let n ← toNum flags.MINIMALDATA 5 vch
        require (0 ≤ n) .NEGATIVE_LOCKTIME
        -- a sequence number with the disable flag is not compared
        if fSequence then require (n.toNat.testBit 31 || C.checkSequence n) .UNSATISFIED_LOCKTIME
        else require (C.checkLockTime n) .UNSATISFIED_LOCKTIME
        return st

/-- An instruction that is executed; `pc` is the script after it. -/
def execOp (fExec : Bool) (opcode : UInt8) (pc : Bytes) (st : ScriptState) : Except ScriptError ScriptState :=
  if OP_1NEGATE ≤ opcode ∧ opcode ≤ OP_16 ∧ opcode ≠ OP_RESERVED then
    .ok { st with stack := serializeNum ((opcode.toNat : Int) - (OP_1.toNat - 1)) :: st.stack }
  else match opcode with
  | OP_NOP | OP_HVN_ASSET => .ok st
  | OP_CHECKLOCKTIMEVERIFY => execLockTime C flags flags.CHECKLOCKTIMEVERIFY false st
  | OP_CHECKSEQUENCEVERIFY => execLockTime C flags flags.CHECKSEQUENCEVERIFY true st
  | OP_NOP1 | OP_NOP4 | OP_NOP5 | OP_NOP6 | OP_NOP7 | OP_NOP8 | OP_NOP9 | OP_NOP10 => do
      require (!flags.DISCOURAGE_UPGRADABLE_NOPS) .DISCOURAGE_UPGRADABLE_NOPS
      return st
  | OP_IF => execIf flags sigversion false fExec st
  | OP_NOTIF => execIf flags sigversion true fExec st
  | OP_ELSE => match st.vfExec with
    | [] => .error .UNBALANCED_CONDITIONAL
    | cond :: vfExec => .ok { st with vfExec := (!cond) :: vfExec }
  | OP_ENDIF => match st.vfExec with
    | [] => .error .UNBALANCED_CONDITIONAL
    | _ :: vfExec => .ok { st with vfExec }
  | OP_VERIFY => match st.stack with
    | [] => .error .INVALID_STACK_OPERATION
    | vch :: stack => if castToBool vch then .ok { st with stack } else .error .VERIFY
  | OP_RETURN => .error .OP_RETURN
  | OP_TOALTSTACK => match st.stack with
    | [] => .error .INVALID_STACK_OPERATION
    | vch :: stack => .ok { st with stack, altstack := vch :: st.altstack }
  | OP_FROMALTSTACK => match st.altstack with
    | [] => .error .INVALID_ALTSTACK_OPERATION
    | vch :: altstack => .ok { st with stack := vch :: st.stack, altstack }
  | OP_2DROP | OP_2DUP | OP_3DUP | OP_2OVER | OP_2ROT | OP_2SWAP | OP_IFDUP | OP_DEPTH | OP_DROP | OP_DUP | OP_NIP
  | OP_OVER | OP_ROT | OP_SWAP | OP_TUCK | OP_SIZE => do
      return { st with stack := ← orError (execStack opcode st.stack) .INVALID_STACK_OPERATION }
  | OP_PICK | OP_ROLL | OP_EQUAL | OP_EQUALVERIFY | OP_1ADD | OP_1SUB | OP_NEGATE | OP_ABS | OP_NOT | OP_0NOTEQUAL
  | OP_ADD | OP_SUB | OP_BOOLAND | OP_BOOLOR | OP_NUMEQUAL | OP_NUMEQUALVERIFY | OP_NUMNOTEQUAL | OP_LESSTHAN
  | OP_GREATERTHAN | OP_LESSTHANOREQUAL | OP_GREATERTHANOREQUAL | OP_MIN | OP_MAX | OP_WITHIN | OP_RIPEMD160 | OP_SHA1
  | OP_SHA256 | OP_HASH160 | OP_HASH256 => do
      return { st with stack := ← execCompute C flags opcode st.stack }
  | OP_CODESEPARATOR => .ok { st with codehash := pc }
  | OP_CHECKSIG => execCheckSig C flags sigversion false st
  | OP_CHECKSIGVERIFY => execCheckSig C flags sigversion true st
  | OP_CHECKMULTISIG => execCheckMultiSig C flags sigversion false st
  | OP_CHECKMULTISIGVERIFY => execCheckMultiSig C flags sigversion true st
  | _ => .error .BAD_OPCODE

def disabledOpcodes : List UInt8 :=
  [OP_CAT, OP_SUBSTR, OP_LEFT, OP_RIGHT, OP_INVERT, OP_AND, OP_OR, OP_XOR, OP_2MUL, OP_2DIV, OP_MUL, OP_DIV, OP_MOD,
    OP_LSHIFT, OP_RSHIFT]

/-- An executed instruction: pushes here, everything else in `execOp`. -/
def dispatch (vchPushValue pc : Bytes) (st : ScriptState) : Except ScriptError ScriptState :=
  let fExec := st.vfExec.all id
  if fExec && opcode ≤ OP_PUSHDATA4 then do
    require (!flags.MINIMALDATA || checkMinimalPush vchPushValue opcode) .MINIMALDATA
    return { st with stack := vchPushValue :: st.stack }
  else if fExec || (OP_IF ≤ opcode && opcode ≤ OP_ENDIF) then execOp C flags sigversion fExec opcode pc st
  else return st

/-- One round of the loop, after the instruction is read. -/
def evalStep (vchPushValue pc : Bytes) (st : ScriptState) : Except ScriptError ScriptState := do
  require (vchPushValue.length ≤ MAX_SCRIPT_ELEMENT_SIZE) .PUSH_SIZE
  let nOpCount := if opcode > OP_16 then st.nOpCount + 1 else st.nOpCount
  require (nOpCount ≤ MAX_OPS_PER_SCRIPT) .OP_COUNT
  require (opcode ∉ disabledOpcodes) .DISABLED_OPCODE
  let st ← dispatch C flags sigversion opcode vchPushValue pc { st with nOpCount }
  require (st.stack.length + st.altstack.length ≤ MAX_STACK_SIZE) .STACK_SIZE
  return st

def evalLoop : Nat → Bytes → ScriptState → Except ScriptError ScriptState
  | _, [], st => .ok st
  | 0, _, st => .ok st
  | n + 1, b :: s, st => do
      let (opcode, vchPushValue, pc) ← orError (getOp (b :: s)) .BAD_OPCODE
      evalLoop n pc (← evalStep C flags sigversion opcode vchPushValue pc st)

def evalScript (stack : List Bytes) (script : Bytes) : Except ScriptError (List Bytes) := do
  require (script.length ≤ MAX_SCRIPT_SIZE) .SCRIPT_SIZE
  let st ← evalLoop C flags sigversion script.length script ⟨stack, [], [], 0, script⟩
  require st.vfExec.isEmpty .UNBALANCED_CONDITIONAL
  return st.stack

end

end Script

end Hivecoin

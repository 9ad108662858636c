import Hivecoin.Assets.Types

/-!
# Scripts

Instruction parsing and the script patterns of `script/script.cpp` and `script/standard.cpp`.
-/

namespace Hivecoin

def OP_PUSHDATA1 : UInt8 := 0x4c
def OP_PUSHDATA2 : UInt8 := 0x4d
def OP_PUSHDATA4 : UInt8 := 0x4e
def OP_RESERVED : UInt8 := 0x50
def OP_1 : UInt8 := 0x51
def OP_16 : UInt8 := 0x60
@[match_pattern] def OP_RETURN : UInt8 := 0x6a
@[match_pattern] def OP_DROP : UInt8 := 0x75
@[match_pattern] def OP_DUP : UInt8 := 0x76
@[match_pattern] def OP_EQUAL : UInt8 := 0x87
@[match_pattern] def OP_EQUALVERIFY : UInt8 := 0x88
@[match_pattern] def OP_HASH160 : UInt8 := 0xa9
@[match_pattern] def OP_CHECKSIG : UInt8 := 0xac
@[match_pattern] def OP_CHECKMULTISIG : UInt8 := 0xae
@[match_pattern] def OP_HVN_ASSET : UInt8 := 0xc0

def MAX_SCRIPT_SIZE : Nat := 10000

namespace Script

variable (s : Bytes)

/-- The byte at an index; every use is below the size. -/
def byteAt (i : Nat) : UInt8 := s.getD i 0

def readLE : Nat := s.foldr (fun b acc => b.toNat + 256 * acc) 0

/-- `GetOp2`: opcode, data and the rest. Everything after `OP_HVN_ASSET` is data. -/
def getOp : Option (UInt8 × Bytes × Bytes) :=
  match s with
  | [] => none
  | opcode :: pc =>
    if opcode ≤ OP_PUSHDATA4 then do
      let (nSize, pc) ← if opcode < OP_PUSHDATA1 then some (opcode.toNat, pc)
        else if opcode = OP_PUSHDATA1 then
          if pc.length < 1 then none else some (readLE (pc.take 1), pc.drop 1)
        else if opcode = OP_PUSHDATA2 then
          if pc.length < 2 then none else some (readLE (pc.take 2), pc.drop 2)
        else if pc.length < 4 then none else some (readLE (pc.take 4), pc.drop 4)
      if pc.length < nSize then none else some (opcode, pc.take nSize, pc.drop nSize)
    else if opcode = OP_HVN_ASSET then some (opcode, pc, [])
    else some (opcode, [], pc)

/-- Number of occurrences of `op` among at most `n` instructions. -/
def findUpTo (op : UInt8) : Nat → Bytes → Nat
  | 0, _ => 0
  | n + 1, s => match getOp s with
    | none => 0
    | some (opcode, _, pc) => (if opcode = op then 1 else 0) + findUpTo op n pc

/-- `CScript::Find`; a script has at most as many instructions as bytes. -/
def find (op : UInt8) (s : Bytes) : Nat := findUpTo op s.length s

def isPushOnlyUpTo : Nat → Bytes → Bool
  | 0, _ => true
  | n + 1, s => match s with
    | [] => true
    | _ => match getOp s with
      | none => false
      | some (opcode, _, pc) => opcode ≤ OP_16 && isPushOnlyUpTo n pc

def isPushOnly : Bool := isPushOnlyUpTo s.length s

/-! ## Asset scripts -/

/-- The output parameters of `IsAssetScript`. -/
structure AssetScript where
  nType : TxnOutType
  fIsOwner : Bool
  nStartingIndex : Nat
deriving DecidableEq

def HVN_H : UInt8 := 114
def HVN_V : UInt8 := 118
def HVN_N : UInt8 := 110
def HVN_Q : UInt8 := 113
def HVN_T : UInt8 := 116
def HVN_O : UInt8 := 111

def markerIndex : Option Nat :=
  if byteAt s 27 = HVN_H then
    if byteAt s 28 = HVN_V ∧ byteAt s 29 = HVN_N then some 30 else none
  else if byteAt s 28 = HVN_H ∧ byteAt s 29 = HVN_V ∧ byteAt s 30 = HVN_N then some 31
  else none

def isAssetScript : Option AssetScript :=
  if s.length > 31 ∧ byteAt s 25 = OP_HVN_ASSET then
    match markerIndex s with
    | none => none
    | some index =>
      if byteAt s index = HVN_T then some ⟨.TX_TRANSFER_ASSET, false, index + 1⟩
      else if byteAt s index = HVN_Q ∧ s.length > 39 then some ⟨.TX_NEW_ASSET, false, index + 1⟩
      else if byteAt s index = HVN_O then some ⟨.TX_NEW_ASSET, true, index + 1⟩
      else if byteAt s index = HVN_H then some ⟨.TX_REISSUE_ASSET, false, index + 1⟩
      else none
  else none

def isNullAssetTxDataScript : Bool :=
  s.length > 23 && byteAt s 0 == OP_HVN_ASSET && byteAt s 1 == 0x14

def isNullGlobalRestrictionAssetTxDataScript : Bool :=
  s.length > 6 && byteAt s 0 == OP_HVN_ASSET && byteAt s 1 == OP_RESERVED && byteAt s 2 == OP_RESERVED

def isNullAssetVerifierTxDataScript : Bool :=
  s.length > 3 && byteAt s 0 == OP_HVN_ASSET && byteAt s 1 == OP_RESERVED && byteAt s 2 != OP_RESERVED

def isNullAsset : Bool :=
  isNullAssetTxDataScript s || isNullGlobalRestrictionAssetTxDataScript s ||
    isNullAssetVerifierTxDataScript s

def isPayToScriptHash : Bool :=
  s.length == 23 && byteAt s 0 == OP_HASH160 && byteAt s 1 == 0x14 && byteAt s 22 == OP_EQUAL

def isWitnessProgram : Option (Nat × Bytes) :=
  if s.length < 4 ∨ s.length > 42 then none
  else if byteAt s 0 ≠ 0 ∧ (byteAt s 0 < OP_1 ∨ byteAt s 0 > OP_16) then none
  else if (byteAt s 1).toNat + 2 = s.length then
    some (if byteAt s 0 = 0 then 0 else (byteAt s 0).toNat - 0x50, s.drop 2)
  else none

/-- Template `OP_PUBKEY OP_CHECKSIG`. -/
def matchPubKey : Option Bytes := do
  let (_, key, pc) ← getOp s
  if key.length < 33 ∨ key.length > 65 then none
  let (op, _, pc) ← getOp pc
  if op = OP_CHECKSIG ∧ pc = [] then some key else none

/-- Template `OP_DUP OP_HASH160 OP_PUBKEYHASH OP_EQUALVERIFY OP_CHECKSIG`. -/
def matchPubKeyHash : Option Bytes := do
  let (op1, _, pc) ← getOp s
  let (op2, _, pc) ← getOp pc
  let (_, hash, pc) ← getOp pc
  let (op4, _, pc) ← getOp pc
  let (op5, _, pc) ← getOp pc
  if op1 = OP_DUP ∧ op2 = OP_HASH160 ∧ hash.length = 20 ∧ op4 = OP_EQUALVERIFY ∧ op5 = OP_CHECKSIG ∧
    pc = [] then some hash else none

/-- Leading public keys, then the instruction after them. -/
def takeKeys : Nat → Bytes → List Bytes × Option (UInt8 × Bytes × Bytes)
  | 0, s => ([], getOp s)
  | n + 1, s => match getOp s with
    | none => ([], none)
    | some (op, vch, pc) =>
      if 33 ≤ vch.length ∧ vch.length ≤ 65 then
        let (keys, next) := takeKeys n pc
        (vch :: keys, next)
      else ([], some (op, vch, pc))

def smallInteger (op : UInt8) : Option Nat :=
  if op = 0 then some 0 else if OP_1 ≤ op ∧ op ≤ OP_16 then some (op.toNat - 0x50) else none

/-- Template `OP_SMALLINTEGER OP_PUBKEYS OP_SMALLINTEGER OP_CHECKMULTISIG`. -/
def matchMultisig : Option (List Bytes) := do
  let (op1, _, pc) ← getOp s
  let m ← smallInteger op1
  let (keys, next) := takeKeys pc.length pc
  let (op2, _, pc) ← next
  let n ← smallInteger op2
  let (op3, _, pc) ← getOp pc
  if op3 = OP_CHECKMULTISIG ∧ pc = [] ∧ 1 ≤ m ∧ 1 ≤ n ∧ m ≤ n ∧ keys.length = n then
    some ([UInt8.ofNat m] :: keys ++ [[UInt8.ofNat n]])
  else none

def solver : Option (TxnOutType × List Bytes) :=
  if isPayToScriptHash s then some (.TX_SCRIPTHASH, [(s.drop 2).take 20])
  else match isAssetScript s with
  | some a => some (a.nType, [(s.drop 3).take 20])
  | none => match isWitnessProgram s with
    | some (version, program) =>
      if version = 0 ∧ program.length = 20 then some (.TX_WITNESS_V0_KEYHASH, [program])
      else if version = 0 ∧ program.length = 32 then some (.TX_WITNESS_V0_SCRIPTHASH, [program])
      else none
    | none =>
      if s.length ≥ 1 ∧ byteAt s 0 = OP_RETURN ∧ isPushOnly (s.drop 1) then some (.TX_NULL_DATA, [])
      else if s.length ≥ 1 ∧ byteAt s 0 = OP_HVN_ASSET ∧ isPushOnly (s.drop 1) then
        some (.TX_RESTRICTED_ASSET_DATA,
          if s.length ≥ 23 ∧ byteAt s 1 ≠ OP_RESERVED then [(s.drop 2).take 20] else [])
      else match matchPubKey s with
      | some key => some (.TX_PUBKEY, [key])
      | none => match matchPubKeyHash s with
        | some hash => some (.TX_PUBKEYHASH, [hash])
        | none => match matchMultisig s with
          | some solutions => some (.TX_MULTISIG, solutions)
          | none => none

/-- `CPubKey::IsValid` for a key built from these bytes. -/
def isValidPubKey (key : Bytes) : Bool :=
  match key with
  | [] => false
  | h :: _ =>
    if h = 2 ∨ h = 3 then key.length = 33
    else if h = 4 ∨ h = 6 ∨ h = 7 then key.length = 65
    else false

end Script

end Hivecoin

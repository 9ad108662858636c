import Hivecoin.Base.VarInt
import Hivecoin.Script.Basic

/-!
# Stored outputs

`CTxOutCompressor` and `CScriptCompressor` of `compressor.cpp`.
-/

namespace Hivecoin

open Script ByteReader

/-- The loop that takes zeros off an amount, at most `k` of them. -/
def stripZeros : Nat → UInt64 → UInt64 × Nat
  | 0, n => (n, 0)
  | k + 1, n => if n % 10 = 0 then ((stripZeros k (n / 10)).1, (stripZeros k (n / 10)).2 + 1) else (n, 0)

def compressAmount (n : UInt64) : UInt64 :=
  if n = 0 then 0
  else
    let (n, e) := stripZeros 9 n
    if e < 9 then 1 + (n / 10 * 9 + n % 10 - 1) * 10 + UInt64.ofNat e
    else 1 + (n - 1) * 10 + 9

def timesTen : Nat → UInt64 → UInt64
  | 0, n => n
  | e + 1, n => timesTen e (n * 10)

def decompressAmount (x : UInt64) : UInt64 :=
  if x = 0 then 0
  else
    let x := x - 1
    let e := x % 10
    let x := x / 10
    timesTen e.toNat (if e < 9 then x / 9 * 10 + (x % 9 + 1) else x + 1)

/-- `CPubKey::IsFullyValid` and `CPubKey::Decompress`: a valid key comes back from its first coordinate and a parity. -/
structure PointCodec where
  isFullyValid : Bytes → Bool
  decompress : Bytes → Option Bytes
  decompress_compress : ∀ key : Bytes, key.length = 65 → byteAt key 0 = 4 → isFullyValid key = true →
    decompress ((2 + (byteAt key 64 &&& 1)) :: (key.drop 1).take 32) = some key

def nSpecialScripts : Nat := 6

def isToKeyID (script : Bytes) : Option Bytes :=
  if script.length = 25 ∧ byteAt script 0 = OP_DUP ∧ byteAt script 1 = OP_HASH160 ∧ byteAt script 2 = 20 ∧
      byteAt script 23 = OP_EQUALVERIFY ∧ byteAt script 24 = OP_CHECKSIG
  then some ((script.drop 3).take 20) else none

def isToScriptID (script : Bytes) : Option Bytes :=
  if script.length = 23 ∧ byteAt script 0 = OP_HASH160 ∧ byteAt script 1 = 20 ∧ byteAt script 22 = OP_EQUAL
  then some ((script.drop 2).take 20) else none

section

variable (P : PointCodec)

def isToPubKey (script : Bytes) : Option Bytes :=
  if script.length = 35 ∧ byteAt script 0 = 33 ∧ byteAt script 34 = OP_CHECKSIG ∧
      (byteAt script 1 = 2 ∨ byteAt script 1 = 3)
  then some ((script.drop 1).take 33)
  else if script.length = 67 ∧ byteAt script 0 = 65 ∧ byteAt script 66 = OP_CHECKSIG ∧ byteAt script 1 = 4 then
    let pubkey := (script.drop 1).take 65
    if P.isFullyValid pubkey then some pubkey else none
  else none

def compress (script : Bytes) : Option Bytes :=
  match isToKeyID script with
  | some keyID => some (0x00 :: keyID)
  | none => match isToScriptID script with
    | some scriptID => some (0x01 :: scriptID)
    | none => match isToPubKey P script with
      | some pubkey =>
        if byteAt pubkey 0 = 2 ∨ byteAt pubkey 0 = 3 then
          some (byteAt pubkey 0 :: (pubkey.drop 1).take 32)
        else if byteAt pubkey 0 = 4 then
          some ((0x04 ||| (byteAt pubkey 64 &&& 0x01)) :: (pubkey.drop 1).take 32)
        else none
      | none => none

def getSpecialSize (nSize : Nat) : Nat :=
  if nSize = 0 ∨ nSize = 1 then 20
  else if nSize = 2 ∨ nSize = 3 ∨ nSize = 4 ∨ nSize = 5 then 32
  else 0

/-- `none` where the source returns false and leaves the script as it is. -/
def decompress (nSize : Nat) (data : Bytes) : Option Bytes :=
  match nSize with
  | 0x00 => some ([OP_DUP, OP_HASH160, 20] ++ data ++ [OP_EQUALVERIFY, OP_CHECKSIG])
  | 0x01 => some ([OP_HASH160, 20] ++ data ++ [OP_EQUAL])
  | 0x02 | 0x03 => some ([33, UInt8.ofNat nSize] ++ data ++ [OP_CHECKSIG])
  | 0x04 | 0x05 => (P.decompress (UInt8.ofNat (nSize - 2) :: data)).map fun pubkey =>
    65 :: pubkey ++ [OP_CHECKSIG]
  | _ => none

def Write.compressedScript (script : Bytes) : Bytes :=
  match compress P script with
  | some compr => compr
  | none => ByteWriter.varInt 5 (script.length + nSpecialScripts) ++ script

/-- The script is read into a fresh output, whose script is empty. -/
def Read.compressedScript : ByteReader Bytes := do
  let nSize ← varInt (2 ^ 32 - 1)
  if nSize < nSpecialScripts then
    let vch ← bytes (getSpecialSize nSize)
    return (decompress P nSize vch).getD []
  else if nSize - nSpecialScripts > MAX_SCRIPT_SIZE then
    let _ ← bytes (nSize - nSpecialScripts)
    return [OP_RETURN]
  else bytes (nSize - nSpecialScripts)

def Write.txOut (out : CTxOut) : Bytes :=
  ByteWriter.varInt 10 (compressAmount out.nValue.toUInt64).toNat ++ Write.compressedScript P out.scriptPubKey

def Read.txOut : ByteReader CTxOut := do
  let nVal ← varInt (2 ^ 64 - 1)
  let scriptPubKey ← Read.compressedScript P
  return { nValue := (decompressAmount (UInt64.ofNat nVal)).toInt64, scriptPubKey }

end

end Hivecoin

import Mathlib.Algebra.Ring.Nat

/-!
# Byte streams
-/

abbrev ByteReader (α : Type) : Type := StateT (List UInt8) Option α

namespace ByteReader

def remaining : ByteReader Nat := do return (← get).length

def bytes (n : Nat) : ByteReader (List UInt8) := fun s =>
  if n ≤ s.length then some (s.take n, s.drop n) else none

def natLE (n : Nat) : ByteReader Nat := do
  return (← bytes n).foldr (fun b acc => b.toNat + 256 * acc) 0

def int8 : ByteReader Int8 := do return (UInt8.ofNat (← natLE 1)).toInt8

def int64 : ByteReader Int64 := do return (UInt64.ofNat (← natLE 8)).toInt64

/-- A length prefix in its shortest form, at most `max`. -/
def compactSize (max : Nat) : ByteReader Nat := do
  let c ← natLE 1
  let n ← if c < 253 then pure c
    else if c = 253 then do
      let n ← natLE 2
      if n < 253 then failure
      pure n
    else if c = 254 then do
      let n ← natLE 4
      if n < 0x10000 then failure
      pure n
    else do
      let n ← natLE 8
      if n < 0x100000000 then failure
      pure n
  if n > max then failure
  return n

def lengthPrefixed (max : Nat) : ByteReader (List UInt8) := do bytes (← compactSize max)

end ByteReader

namespace ByteWriter

def natLE : Nat → Nat → List UInt8
  | 0, _ => []
  | n + 1, k => UInt8.ofNat k :: natLE n (k / 256)

def int8 (k : Int8) : List UInt8 := [k.toUInt8]

def int64 (k : Int64) : List UInt8 := natLE 8 k.toUInt64.toNat

def compactSize (n : Nat) : List UInt8 :=
  if n < 253 then natLE 1 n
  else if n < 0x10000 then 253 :: natLE 2 n
  else if n < 0x100000000 then 254 :: natLE 4 n
  else 255 :: natLE 8 n

def lengthPrefixed (s : List UInt8) : List UInt8 := compactSize s.length ++ s

end ByteWriter

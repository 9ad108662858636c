import Mathlib.Data.Nat.Basic

/-!
# Facts about all bytes
-/

namespace ByteClass

instance decidableForallByte {p : UInt8 → Prop} [DecidablePred p] : Decidable (∀ c, p c) :=
  decidable_of_iff (∀ n < 256, p (UInt8.ofNat n)) ⟨fun h c => UInt8.ofNat_toNat (x := c) ▸ h c.toNat c.toNat_lt, fun h _ _ => h _⟩

end ByteClass

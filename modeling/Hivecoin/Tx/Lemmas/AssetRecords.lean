import Mathlib.Algebra.Divisibility.Basic
import Mathlib.Algebra.Ring.Int.Defs
import Hivecoin.Assets.Lemmas.Name
import Hivecoin.Tx.Lemmas.CheckAssets

/-!
# Records that the checks accept
-/

namespace Hivecoin

open Outcome CAssetsCache

variable {E : Env} {S : Store} {c : CAssetsCache} {a b : CAmount} {u v : Int8}

/-- The amount is a multiple of the smallest part that these units allow. -/
def FitsUnits (nAmount : CAmount) (units : Int8) : Prop := (10 : Int) ^ (8 - units.toInt).toNat ∣ nAmount.toInt

theorem checkAmountWithUnits_iff (h : 0 ≤ u.toInt) : checkAmountWithUnits a u = true ↔ FitsUnits a u := by
  have hpow : ∀ k ≤ 8, (Int64.ofNat (10 ^ k)).toInt = (10 : Int) ^ k := by decide
  rw [checkAmountWithUnits, beq_iff_eq, ← Int64.toInt_inj, Int64.toInt_mod]
  rw [show (MAX_UNIT.toInt - u.toInt) = 8 - u.toInt from rfl, hpow _ (by omega)]
  exact (Int.dvd_iff_tmod_eq_zero ..).symm

theorem FitsUnits.mono (h : FitsUnits a u) (hle : u.toInt ≤ v.toInt) : FitsUnits a v :=
  (pow_dvd_pow _ (by omega)).trans h

theorem FitsUnits.add (ha : FitsUnits a u) (hb : FitsUnits b u) (hsum : (a + b).toInt = a.toInt + b.toInt) :
    FitsUnits (a + b) u := by
  rw [FitsUnits, hsum]
  exact Int.dvd_add ha hb

theorem fitsUnits_owner (h : 0 ≤ u.toInt) : FitsUnits OWNER_ASSET_AMOUNT u :=
  show (10 : Int) ^ (8 - u.toInt).toNat ∣ 10 ^ 8 from pow_dvd_pow _ (by omega)

/-- What every asset has that passed `CheckNewAsset`. -/
structure CNewAsset.Sound (asset : CNewAsset) : Prop where
  named : nameValid asset.strName = true
  notOwner : isAssetNameAnOwner asset.strName = false
  positive : 0 < asset.nAmount.toInt
  bounded : asset.nAmount.toInt ≤ MAX_MONEY.toInt
  units : 0 ≤ asset.units.toInt ∧ asset.units.toInt ≤ 8
  fits : FitsUnits asset.nAmount asset.units

theorem sound_of_checkNewAsset {asset} (h : checkNewAsset asset = .ok ()) : asset.Sound := by
  simp only [checkNewAsset, ok_iff, test_iff, Int64.lt_iff_toInt_lt, Int64.le_iff_toInt_le, Int8.le_iff_toInt_le] at h
  obtain ⟨type, hname, -, howner, hpos, hmax, hunits, hfits, -⟩ := h
  exact ⟨nameValid_iff.mpr ⟨type, hname⟩, howner, hpos, hmax, hunits, (checkAmountWithUnits_iff hunits.1).mp hfits⟩

/-- What the checks demand of a reissue of an asset. -/
structure ReissueAllowed (asset : CNewAsset) (r : CReissueAsset) : Prop where
  reissuable : asset.nReissuable ≠ 0
  nonneg : 0 ≤ r.nAmount.toInt
  small : r.nAmount.toInt < MAX_MONEY.toInt
  total : asset.nAmount + r.nAmount ≤ MAX_MONEY
  fits : checkAmountWithUnits r.nAmount asset.units = true
  units : r.nUnits.toInt ≤ 8 ∧ (asset.units ≤ r.nUnits ∨ r.nUnits = -1)

theorem reissueAllowed_of_checks {r tx}
    (h : contextualCheckReissueAsset E S c r tx = .ok ()) :
    ∃ data, getAssetMetaDataIfExists E S c r.strName = some data ∧ ReissueAllowed data.asset r := by
  simp only [contextualCheckReissueAsset, Env.checkReissueAsset, ok_iff, bne_iff_ne, test_iff] at h
  obtain ⟨_, -, ⟨hamount, hunits, -⟩, data, hdata, hre, htotal, hfits, hup, -⟩ := h
  exact ⟨data, hdata, hre, Int64.le_iff_toInt_le.mp hamount.1, Int64.lt_iff_toInt_lt.mp hamount.2, htotal, hfits,
    Int8.le_iff_toInt_le.mp hunits.1, hup⟩

/-- The data may become these: units go up, and nothing changes once not reissuable. -/
structure CNewAsset.Later (before after : CNewAsset) : Prop where
  units : before.units.toInt ≤ after.units.toInt
  fixed : before.nReissuable = 0 → after = before

theorem CNewAsset.Later.refl (asset : CNewAsset) : asset.Later asset := ⟨le_rfl, fun _ => rfl⟩

theorem CNewAsset.Later.trans {m1 m2 m3 : CNewAsset} (h : m1.Later m2) (h' : m2.Later m3) : m1.Later m3 :=
  ⟨h.units.trans h'.units, fun hz => by
    have heq := h.fixed hz
    rw [heq] at h'
    exact h'.fixed hz⟩

section

variable {asset : CNewAsset} {r : CReissueAsset}

theorem toInt_reissuedAmount (h : asset.Sound) (hr : ReissueAllowed asset r) :
    (asset.nAmount + r.nAmount).toInt = asset.nAmount.toInt + r.nAmount.toInt := by
  have hmax : MAX_MONEY.toInt = 2100000000000000000 := by decide
  have hle := h.bounded
  have hpos := h.positive
  have hlt := hr.small
  have hnonneg := hr.nonneg
  rw [Int64.toInt_add, Int.bmod_eq_of_le (by omega) (by omega)]

theorem units_applyReissue (h : asset.Sound) (hr : ReissueAllowed asset r) :
    asset.units.toInt ≤ (applyReissue asset r).units.toInt ∧ (applyReissue asset r).units.toInt ≤ 8 := by
  by_cases hu : r.nUnits = -1
  · simpa [applyReissue, hu] using h.units.2
  · simpa [applyReissue, hu] using ⟨Int8.le_iff_toInt_le.mp (hr.units.2.resolve_right hu), hr.units.1⟩

theorem CNewAsset.Sound.reissue (h : asset.Sound) (hr : ReissueAllowed asset r) :
    (applyReissue asset r).Sound ∧ asset.Later (applyReissue asset r) := by
  have hsum := toInt_reissuedAmount h hr
  obtain ⟨hup, hmax⟩ := units_applyReissue h hr
  have hnonneg := hr.nonneg
  have hpos := h.positive
  refine ⟨⟨h.named, h.notOwner, ?_, ?_, ⟨h.units.1.trans hup, hmax⟩, ?_⟩, hup, fun hz => absurd hz hr.reissuable⟩
  · show 0 < (asset.nAmount + r.nAmount).toInt
    omega
  · exact Int64.le_iff_toInt_le.mp hr.total
  · exact (h.fits.add ((checkAmountWithUnits_iff h.units.1).mp hr.fits) hsum).mono hup

end

end Hivecoin

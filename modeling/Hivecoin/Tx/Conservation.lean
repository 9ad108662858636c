import Hivecoin.Tx.Lemmas.CheckAssets

/-!
# Conservation of assets

An accepted transaction keeps the 64-bit total of every asset; nothing bounds the totals, so it can create assets.
-/

namespace Hivecoin

open Tally

def Conserves (E : Env) (view : CoinsView) (tx : CTransaction) : Prop :=
  ∀ name, exact (spentAssets E view tx) name = exact (transferOutputs E tx) name

/-- The 64-bit totals of both sides wrap equally often. -/
def WrapsAgree (E : Env) (view : CoinsView) (tx : CTransaction) : Prop :=
  ∀ name, wraps (exact (spentAssets E view tx) name) =
    wraps (exact (transferOutputs E tx) name)

variable {E : Env} {S : Store} {c : CAssetsCache} {view : CoinsView} {mempool : MempoolMaps}

theorem conserves_iff_wrapsAgree {flags : CheckFlags} {fCheckMempool : Bool} {tx : CTransaction}
    {v : List (Bytes × Uint256)} (_hcb : tx.isCoinBase = false)
    (_htx : E.checkTransaction flags tx = .ok ())
    (hassets : checkTxAssets E S c view mempool fCheckMempool false tx = .ok v) :
    Conserves E view tx ↔ WrapsAgree E view tx := by
  obtain ⟨-, -, hsame⟩ := checkTxAssets_ok hassets
  exact forall_congr' fun name => exact_eq_iff_wraps_eq (hsame name)

namespace Regtest

def goldOut (dest : Bytes) (nAmount : CAmount) : CTxOut :=
  ⟨0, transferScript dest ⟨ascii "GOLD", nAmount, [], 0⟩⟩

def goldView : CoinsView := fun out => if out = ⟨1, 0⟩ then some ⟨goldOut alice 10, 5, false⟩ else none

def spendGold (amounts : List CAmount) : CTransaction :=
  ⟨[⟨⟨1, 0⟩, []⟩], amounts.map (goldOut bob), 2⟩

/-- Ten units become 18446744073709551626: the three amounts add up to `2 ^ 64 + 10`. -/
def inflation : CTransaction := spendGold [9223372036854775807, 9223372036854775807, 12]

theorem inflation_not_conserved :
    inflation.isCoinBase = false ∧ env.checkTransaction {} inflation = .ok () ∧
      (∀ e ∈ spentAssets env goldView inflation, 0 < e.2) ∧
      checkTxAssets env goldStore ∅ goldView ⟨∅, ∅⟩ false false inflation = .ok [] ∧
      ¬ Conserves env goldView inflation := by
  refine ⟨by decide +kernel, by decide +kernel, by decide +kernel, by decide +kernel, fun h => ?_⟩
  exact absurd (h (ascii "GOLD")) (by decide +kernel)

theorem split_conserves_iff :
    Conserves env goldView (spendGold [4, 6]) ↔ WrapsAgree env goldView (spendGold [4, 6]) :=
  @conserves_iff_wrapsAgree env goldStore ∅ goldView ⟨∅, ∅⟩ {} false (spendGold [4, 6]) []
    (by decide +kernel) (by decide +kernel) (by decide +kernel)

end Regtest

end Hivecoin

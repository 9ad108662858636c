import Hivecoin.Base.PartialSums
import Hivecoin.Chain.Block

/-!
# What the coins of a view hold

What the unspent coins hold together goes down by what a transaction spends and up by what its outputs carry.
-/

namespace Hivecoin

open List

variable {E : Env} {S : Store}

namespace CoinsView

/-- The value of the coin at an outpoint; nothing where none is. -/
def held (view : CoinsView) (val : Coin → Int) (out : COutPoint) : Int := (view out).elim 0 val

/-- No coin has a negative value, and together they hold at most `B`. -/
structure Holds (view : CoinsView) (val : Coin → Int) (B : Int) : Prop where
  nonneg : ∀ out, 0 ≤ view.held val out
  atMost : SumsAtMost (view.held val) B

variable {view : CoinsView} {val : Coin → Int} {B B' : Int}

theorem Holds.empty (val : Coin → Int) : Holds (fun _ => none) val 0 := ⟨fun _ => le_rfl, SumsAtMost.zero⟩

theorem Holds.mono (h : view.Holds val B) (hle : B ≤ B') : view.Holds val B' := ⟨h.nonneg, h.atMost.mono hle⟩

theorem held_update (view : CoinsView) (val : Coin → Int) (out : COutPoint) (coin : Option Coin) :
    held (Function.update view out coin) val = Function.update (view.held val) out (coin.elim 0 val) := by
  funext a
  by_cases ha : a = out
  · subst ha; simp [held]
  · simp [held, ha]

theorem Holds.update (h : view.Holds val B) (out : COutPoint) {coin} (hc : 0 ≤ coin.elim 0 val) :
    Holds (Function.update view out coin) val (B - view.held val out + coin.elim 0 val) := by
  refine ⟨fun a => ?_, ?_⟩
  · rw [held_update]
    by_cases ha : a = out
    · subst ha; simpa using hc
    · simpa [ha] using h.nonneg a
  · rw [held_update]
    exact h.atMost.update out hc

theorem Holds.remove (h : view.Holds val B) (out : COutPoint) :
    (view.remove out).Holds val (B - view.held val out) := by
  have := @Holds.update _ _ _ h out none le_rfl
  simpa [CoinsView.remove] using this

def added (val : Coin → Int) (coin : Coin) : Int := if isUnspendable coin.out.scriptPubKey then 0 else val coin

theorem Holds.addCoin (h : view.Holds val B) (out : COutPoint) {coin} (hc : 0 ≤ val coin) :
    (view.addCoin out coin).Holds val (B + added val coin) := by
  unfold CoinsView.addCoin added
  split
  · simpa using h
  · have hold := h.nonneg out
    exact (@Holds.update _ _ _ h out (some coin) hc).mono (by simp only [Option.elim_some]; omega)

end CoinsView

open CoinsView CAssetsCache

variable {val : Coin → Int} {B : Int}

theorem spendInput_view {st st' txin} (h : spendInput E S st txin = some st') :
    ∃ coin, st.view txin.prevout = some coin ∧ st'.view = st.view.remove txin.prevout ∧
      st'.vprevout = st.vprevout ++ [coin] := by
  unfold spendInput spendCoin at h
  cases hcoin : st.view txin.prevout with
  | none => simp [hcoin] at h
  | some coin =>
    simp only [hcoin] at h
    refine ⟨coin, rfl, ?_⟩
    by_cases hdep : E.areAssetsDeployed = true
    · simp only [hdep, if_true] at h
      cases hspend : trySpendCoin E S st.assets coin.out with
      | none => simp [hspend] at h
      | some c =>
        simp only [hspend, Option.some.injEq] at h
        exact ⟨by rw [← h], by rw [← h]⟩
    · simp only [hdep, Outcome.test_iff, Option.some.injEq] at h
      exact ⟨by rw [← h], by rw [← h]⟩

theorem spendLoop_view {vin : List CTxIn} {st st' : SpendState} (h : vin.foldlM (spendInput E S) st = some st')
    (hold : st.view.Holds val B) :
    ∃ coins, st'.vprevout = st.vprevout ++ coins ∧ coins.map some = vin.map (fun txin => st.view txin.prevout) ∧
      (∀ out, st'.view out = if out ∈ vin.map (·.prevout) then none else st.view out) ∧
      st'.view.Holds val (B - (coins.map val).sum) := by
  induction vin generalizing st B with
  | nil =>
    cases h
    exact ⟨[], by simp, rfl, by simp, by simpa using hold⟩
  | cons txin vin ih =>
    obtain ⟨st1, hstep, hrest⟩ := Outcome.foldlM_cons_some.mp h
    obtain ⟨coin, hcoin, hview, hprev⟩ := spendInput_view hstep
    have hheld : st.view.held val txin.prevout = val coin := by simp [held, hcoin]
    obtain ⟨coins, hcoins, hmap, hleft, hholds⟩ := ih hrest (hview ▸ hold.remove txin.prevout)
    have hout : ∀ out, st1.view out = if out = txin.prevout then none else st.view out := by
      intro out
      rw [hview, CoinsView.remove]
      by_cases ho : out = txin.prevout
      · subst ho; simp
      · simp [ho]
    refine ⟨coin :: coins, by simp [hcoins, hprev], ?_, fun out => ?_, ?_⟩
    · rw [map_cons, map_cons, hcoin, hmap]
      congr 1
      refine map_congr_left fun x hx => ?_
      rw [hout, if_neg]
      intro heq
      -- a second input at the same outpoint would find no coin
      obtain ⟨coin', -, hsome⟩ := mem_map.1 (hmap ▸ mem_map_of_mem hx)
      rw [hout, if_pos heq] at hsome
      cases hsome
    · rw [hleft, hout]
      by_cases h1 : out ∈ vin.map (·.prevout)
      · simp [h1]
      · by_cases h2 : out = txin.prevout
        · simp [h2]
        · simp [h1, h2]
    · rw [hheld] at hholds
      exact hholds.mono (by simp only [map_cons, sum_cons]; omega)

def outCoins (tx : CTransaction) (nHeight : Nat) : List Coin := tx.vout.map fun out => ⟨out, nHeight, tx.isCoinBase⟩

theorem addOutCoins_holds {view tx nHeight}
    (hval : ∀ coin ∈ outCoins tx nHeight, 0 ≤ val coin) (hold : view.Holds val B) :
    (addOutCoins view tx nHeight).Holds val (B + ((outCoins tx nHeight).map (added val)).sum) := by
  have hloop : ∀ (outs : List (CTxOut × Nat)) (view : CoinsView) (B : Int), view.Holds val B →
      (∀ out ∈ outs, 0 ≤ val ⟨out.1, nHeight, tx.isCoinBase⟩) →
      CoinsView.Holds (outs.foldl (fun view out => view.addCoin ⟨tx.hash, out.2⟩ ⟨out.1, nHeight, tx.isCoinBase⟩) view) val
        (B + (outs.map fun out => added val ⟨out.1, nHeight, tx.isCoinBase⟩).sum) := by
    intro outs
    induction outs with
    | nil => intro view B hold _; simpa using hold
    | cons out outs ih =>
      intro view B hold hpos
      have hstep := ih _ _ (hold.addCoin ⟨tx.hash, out.2⟩ (hpos out (by simp))) fun o ho => hpos o (by simp [ho])
      rw [foldl_cons]
      exact hstep.mono (by simp only [map_cons, sum_cons]; omega)
  have hsum : (tx.vout.zipIdx.map fun out => added val ⟨out.1, nHeight, tx.isCoinBase⟩) =
      (outCoins tx nHeight).map (added val) := by
    rw [outCoins, map_map]
    conv_rhs => rw [← zipIdx_map_fst 0 tx.vout, map_map]
    rfl
  rw [← hsum]
  refine hloop _ _ _ hold fun out hout => hval _ ?_
  exact mem_map.2 ⟨out.1, fst_mem_of_mem_zipIdx hout, rfl⟩

theorem updateCoins_holds {view : CoinsView} {c} {tx : CTransaction} {nHeight blockHash}
    {r : UpdateResult} (h : updateCoins E S view c tx nHeight blockHash = some r)
    (hval : ∀ coin ∈ outCoins tx nHeight, 0 ≤ val coin) (hold : view.Holds val B) :
    (if tx.isCoinBase then r.vprevout = []
      else r.vprevout.map some = tx.vin.map fun txin => view txin.prevout) ∧
      r.view.Holds val (B - (r.vprevout.map val).sum + ((outCoins tx nHeight).map (added val)).sum) := by
  simp only [updateCoins, Outcome.some_iff] at h
  obtain ⟨spent, hspent, rfl⟩ := h
  unfold spendInputs at hspent
  split at hspent
  · cases hspent
    rw [if_pos (by assumption)]
    exact ⟨rfl, addOutCoins_holds hval (by simpa using hold)⟩
  · obtain ⟨coins, hcoins, hmap, -, hholds⟩ := spendLoop_view hspent hold
    rw [if_neg (by assumption)]
    simp only [nil_append] at hcoins
    rw [hcoins]
    exact ⟨hmap, addOutCoins_holds hval hholds⟩

theorem updateCoins_prevouts {view c tx nHeight blockHash r} (h : updateCoins E S view c tx nHeight blockHash = some r) (hcb : tx.isCoinBase = false) :
    r.vprevout.map some = tx.vin.map fun txin => view txin.prevout := by
  have hzero : ∀ out, view.held (fun _ => 0) out = 0 := by
    intro out
    unfold held
    cases view out <;> rfl
  have hholds : view.Holds (fun _ => 0) 0 := ⟨fun out => (hzero out).ge, SumsAtMost.zero.congr hzero⟩
  simpa [hcb] using (updateCoins_holds h (fun _ _ => le_rfl) hholds).1

theorem sum_prevouts {coins : List Coin} {view : CoinsView} {vin : List CTxIn}
    (h : coins.map some = vin.map fun txin => view txin.prevout) :
    (coins.map val).sum = (vin.map fun txin => view.held val txin.prevout).sum := by
  have hmap := congrArg (map fun coin : Option Coin => coin.elim 0 val) h
  rw [map_map, map_map] at hmap
  exact congrArg sum hmap

theorem sum_added_le {coins : List Coin} (h : ∀ coin ∈ coins, 0 ≤ val coin) :
    (coins.map (added val)).sum ≤ (coins.map val).sum := by
  refine sum_le_sum fun coin hcoin => ?_
  unfold added
  split
  · exact h coin hcoin
  · exact le_rfl

end Hivecoin

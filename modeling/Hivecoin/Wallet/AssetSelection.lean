import Hivecoin.Assets.Construct
import Hivecoin.Base.Outcome
import Hivecoin.Wallet.SelectAssets
import Mathlib.Algebra.Order.Ring.Int
import Mathlib.Data.List.GetD

/-!
# What the selection of asset coins covers

Every branch takes coins that reach the target; an asset without any coin is not looked at.
-/

namespace Hivecoin

open MachineSums CAssetsCache List Option Table COutput SubsetSum

variable {E : Env} {W : WalletSettings} {rnd : Randomness} {nTargetValue : CAmount}
  {coins chosen : List (CInputCoin × CAmount)}
variable {scan : CoinScan} {coin : CInputCoin × CAmount} {p : Eligibility} {outputs : List COutput}
  {assets : List (Bytes × List COutput)} {asset : Bytes × List COutput} {name : Bytes}

/-! ## One selection -/

def totalAmount (coins : List (CInputCoin × CAmount)) : CAmount := (coins.map Prod.snd).sum

/-- The loop over the coins, without a coin of exactly the target. -/
structure ScannedCoins (nTargetValue : CAmount) (coins : List (CInputCoin × CAmount)) (scan : CoinScan) : Prop where
  sublist : scan.vValue.Sublist coins
  total : scan.nTotalLower = totalAmount scan.vValue
  larger : ∀ coin, scan.coinLowestLarger = some coin → coin ∈ coins ∧ nTargetValue + MIN_CHANGE ≤ coin.2
  all : scan.coinLowestLarger = none → scan.vValue = coins
  ne : ∀ coin ∈ coins, coin.2 ≠ nTargetValue

theorem ScannedCoins.step {scan'} (h : ScannedCoins nTargetValue coins scan)
    (hstep : scanCoin nTargetValue scan coin = .ok scan') : ScannedCoins nTargetValue (coins ++ [coin]) scan' := by
  rw [scanCoin] at hstep
  have hne : ∀ c ∈ coins ++ [coin], c.2 ≠ nTargetValue := by
    intro c hc
    rcases mem_append.mp hc with hc | hc
    · exact h.ne c hc
    · rw [mem_singleton.mp hc]
      intro heq
      rw [if_pos heq] at hstep
      cases hstep
  rw [if_neg (hne coin (by simp))] at hstep
  have hold : ∀ c, scan.coinLowestLarger = some c → c ∈ coins ++ [coin] ∧ nTargetValue + MIN_CHANGE ≤ c.2 :=
    fun c hc => ⟨mem_append_left _ (h.larger c hc).1, (h.larger c hc).2⟩
  split at hstep
  · cases hstep
    refine ⟨h.sublist.append (List.Sublist.refl _), ?_, hold, fun hnone => by rw [h.all hnone], hne⟩
    simp [totalAmount, h.total]
  · rename_i hlarge
    split at hstep
    · cases hstep
      refine ⟨h.sublist.trans (sublist_append_left _ _), h.total, ?_, fun hnone => by simp at hnone, hne⟩
      rintro c ⟨⟩
      exact ⟨by simp, Int64.not_lt.mp hlarge⟩
    · rename_i hlarger
      cases hstep
      refine ⟨h.sublist.trans (sublist_append_left _ _), h.total, hold, fun hnone => ?_, hne⟩
      rw [hnone] at hlarger
      exact absurd rfl hlarger

theorem scannedCoins (h : coins.foldlM (scanCoin nTargetValue) {} = .ok scan) :
    ScannedCoins nTargetValue coins scan := by
  induction coins using List.reverseRecOn generalizing scan with
  | nil =>
    cases h
    exact ⟨List.Sublist.refl _, rfl, by simp, fun _ => rfl, by simp⟩
  | append_singleton coins coin ih =>
    simp only [foldlM_append, foldlM_cons, foldlM_nil, Outcome.ok_iff] at h
    obtain ⟨scan1, h1, _, h2, rfl⟩ := h
    exact (ih h1).step h2

theorem exact_of_error (h : coins.foldlM (scanCoin nTargetValue) scan = .error coin) : coin ∈ coins ∧ coin.2 = nTargetValue := by
  induction coins generalizing scan with
  | nil => cases h
  | cons c coins ih =>
    rw [foldlM_cons] at h
    cases hc : scanCoin nTargetValue scan c with
    | ok scan' =>
      rw [hc] at h
      obtain ⟨hmem, heq⟩ := ih h
      exact ⟨mem_cons_of_mem _ hmem, heq⟩
    | error c' =>
      rw [hc] at h
      cases h
      rw [scanCoin] at hc
      split at hc
      · rename_i heq
        cases hc
        exact ⟨mem_cons_self, heq⟩
      · split at hc
        · cases hc
        · split at hc <;> cases hc

theorem totalAmount_filter (vfBest : Nat → Bool) (vValue : List (CInputCoin × CAmount)) :
    totalAmount ((vValue.zipIdx.filter fun p => vfBest p.2).map Prod.fst) =
      sumOf (fun i => (vValue.map Prod.snd).getD i 0) vValue.length vfBest := by
  induction vValue using List.reverseRecOn with
  | nil => rfl
  | append_singleton vValue coin ih =>
    have hbelow : ∀ i ∈ Finset.range vValue.length,
        (if vfBest i then ((vValue ++ [coin]).map Prod.snd).getD i 0 else 0) = if vfBest i then (vValue.map Prod.snd).getD i 0 else 0 := by
      intro i hi
      rw [map_append, getD_append _ _ _ _ (by simpa using hi)]
    rw [sumOf, length_append, length_singleton, Finset.sum_range_succ, Finset.sum_congr rfl hbelow,
      ← sumOf, ← ih, zipIdx_append, filter_append, map_append, totalAmount, map_append, sum_append]
    congr 1
    cases hb : vfBest vValue.length with
    | false => simp [hb]
    | true => simp [hb]

theorem bestSubset_sound (bits : Nat → Nat → Nat → Bool) {vValue nTotalLower}
    (htotal : nTotalLower = totalAmount vValue) (hle : nTargetValue ≤ nTotalLower)
    (hchange : nTargetValue ≤ nTargetValue + MIN_CHANGE) :
    nTargetValue ≤ totalAmount ((vValue.zipIdx.filter fun p => (bestSubset bits vValue nTotalLower nTargetValue).1 p.2).map Prod.fst) := by
  have hall : nTotalLower = sumOf (fun i => (vValue.map Prod.snd).getD i 0) vValue.length fun _ => true := by
    rw [htotal, ← totalAmount_filter, filter_true, zipIdx_map_fst]
  rw [totalAmount_filter, bestSubset]
  split
  · rename_i hmore
    have hsound := search_sound hall hmore.2 (bits 1) 1000
    rw [approximateBestAssetSubset, ← hsound.best]
    exact Int64.le_trans hchange hsound.reaches
  · have hsound := search_sound hall hle (bits 0) 1000
    rw [approximateBestAssetSubset, ← hsound.best]
    exact hsound.reaches

theorem chosenCoins_spec (hchange : nTargetValue ≤ nTargetValue + MIN_CHANGE)
    (h : chosenCoins rnd nTargetValue coins = some chosen) : chosen.Subperm coins ∧ nTargetValue ≤ totalAmount chosen := by
  have hone : ∀ coin ∈ coins, nTargetValue ≤ coin.2 → [coin].Subperm coins ∧ nTargetValue ≤ totalAmount [coin] := by
    intro coin hmem hle
    refine ⟨singleton_subperm_iff.mpr hmem, ?_⟩
    simpa [totalAmount] using hle
  rw [chosenCoins] at h
  split at h
  · rename_i coin herror
    obtain ⟨hmem, heq⟩ := exact_of_error herror
    cases h
    exact hone coin hmem (heq ▸ Int64.le_refl _)
  · rename_i scan hok
    have hscan := scannedCoins hok
    have hlarger : ∀ coin, scan.coinLowestLarger = some coin → [coin].Subperm coins ∧ nTargetValue ≤ totalAmount [coin] :=
      fun coin hcoin => hone coin (hscan.larger coin hcoin).1 (Int64.le_trans hchange (hscan.larger coin hcoin).2)
    split at h
    · rename_i heq
      cases h
      exact ⟨hscan.sublist.subperm, by rw [← hscan.total, heq]; exact Int64.le_refl _⟩
    · split at h
      · obtain ⟨coin, hcoin, rfl⟩ := map_eq_some_iff.mp h
        exact hlarger coin hcoin
      · rename_i hlower
        have hperm : (scan.vValue.mergeSort fun a b => decide (a.2 ≤ b.2)).reverse.Perm scan.vValue :=
          (reverse_perm _).trans (mergeSort_perm _ _)
        have htotal : scan.nTotalLower = totalAmount (scan.vValue.mergeSort fun a b => decide (a.2 ≤ b.2)).reverse := by
          rw [hscan.total]
          exact ((hperm.map Prod.snd).sum_eq).symm
        have hbest := bestSubset_sound rnd.bits htotal (Int64.not_lt.mp hlower) hchange
        have hsubset : ∀ vfBest : Nat → Bool, ((((scan.vValue.mergeSort fun a b => decide (a.2 ≤ b.2)).reverse).zipIdx.filter
            fun p => vfBest p.2).map Prod.fst).Subperm coins := by
          intro vfBest
          have hfilter := (filter_sublist (p := fun p : (CInputCoin × CAmount) × Nat => vfBest p.2)
            (l := (scan.vValue.mergeSort fun a b => decide (a.2 ≤ b.2)).reverse.zipIdx)).map Prod.fst
          rw [zipIdx_map_fst] at hfilter
          exact (hfilter.subperm.trans hperm.subperm).trans hscan.sublist.subperm
        dsimp only at h
        split at h
        · rename_i coin hcoin
          split at h
          · cases h
            exact hlarger coin hcoin
          · cases h
            exact ⟨hsubset _, hbest⟩
        · cases h
          exact ⟨hsubset _, hbest⟩

def exactAmount (coins : List (CInputCoin × CAmount)) : Int := ((coins.map Prod.snd).map Int64.toInt).sum

structure Bounded (coins : List (CInputCoin × CAmount)) : Prop where
  nonneg : ∀ coin ∈ coins, 0 ≤ coin.2.toInt
  sum_lt : exactAmount coins < 2 ^ 63

theorem Bounded.mem_nonneg (h : Bounded coins) {a} (ha : a ∈ (coins.map Prod.snd).map Int64.toInt) : 0 ≤ a := by
  simp only [List.mem_map] at ha
  obtain ⟨_, ⟨coin, hcoin, rfl⟩, rfl⟩ := ha
  exact h.nonneg coin hcoin

theorem Bounded.toInt_totalAmount (h : Bounded coins) : (totalAmount coins).toInt = exactAmount coins :=
  toInt_sum (fun _ ha => h.mem_nonneg (mem_map_of_mem ha)) h.sum_lt

theorem Bounded.le_exactAmount (h : Bounded coins) (hcoin : coin ∈ coins) : coin.2.toInt ≤ exactAmount coins :=
  single_le_sum (fun _ => h.mem_nonneg) _ (mem_map_of_mem (mem_map_of_mem hcoin))

theorem Bounded.subperm (h : Bounded coins) (hsub : chosen.Subperm coins) : Bounded chosen := by
  refine ⟨fun coin hcoin => h.nonneg coin (hsub.subset hcoin), lt_of_le_of_lt ?_ h.sum_lt⟩
  obtain ⟨l, hperm, hsublist⟩ := hsub
  rw [exactAmount, ← ((hperm.map _).map _).sum_eq]
  exact ((hsublist.map _).map _).sum_le_sum fun _ => h.mem_nonneg

structure TargetInRange (nTargetValue : CAmount) : Prop where
  pos : 0 < nTargetValue
  lt : nTargetValue.toInt + MIN_CHANGE.toInt < 2 ^ 63

theorem TargetInRange.toInt_add (h : TargetInRange nTargetValue) :
    (nTargetValue + MIN_CHANGE).toInt = nTargetValue.toInt + MIN_CHANGE.toInt :=
  toInt_add_of_lt (Int64.lt_iff_toInt_lt.mp h.pos).le (by decide) h.lt

theorem TargetInRange.le_add (h : TargetInRange nTargetValue) : nTargetValue ≤ nTargetValue + MIN_CHANGE := by
  have hchange : 0 < MIN_CHANGE.toInt := by decide
  rw [Int64.le_iff_toInt_le, h.toInt_add]
  omega

theorem chosenCoins_eq_none_iff (h : Bounded coins) (htarget : TargetInRange nTargetValue) :
    chosenCoins rnd nTargetValue coins = none ↔ exactAmount coins < nTargetValue.toInt := by
  have hchange : 0 < MIN_CHANGE.toInt := by decide
  rw [chosenCoins]
  cases hfold : coins.foldlM (scanCoin nTargetValue) {} with
  | error coin =>
    obtain ⟨hmem, heq⟩ := exact_of_error hfold
    have hle := h.le_exactAmount hmem
    rw [heq] at hle
    simp only [reduceCtorEq, false_iff, not_lt]
    exact hle
  | ok scan =>
    have hscan := scannedCoins hfold
    have hnone : exactAmount coins < nTargetValue.toInt → scan.coinLowestLarger = none := by
      intro hlt
      rw [eq_none_iff_forall_ne_some]
      intro coin hcoin
      obtain ⟨hmem, hle⟩ := hscan.larger coin hcoin
      have hle' := h.le_exactAmount hmem
      rw [Int64.le_iff_toInt_le, htarget.toInt_add] at hle
      omega
    have htotal : scan.coinLowestLarger = none → scan.nTotalLower.toInt = exactAmount coins := fun hlarger => by
      rw [hscan.total, hscan.all hlarger, h.toInt_totalAmount]
    dsimp only
    constructor
    · intro hfail
      split at hfail
      · cases hfail
      · split at hfail
        · rename_i hlower
          have hlarger := map_eq_none_iff.mp hfail
          rw [← htotal hlarger]
          exact Int64.lt_iff_toInt_lt.mp hlower
        · split at hfail
          · split at hfail <;> cases hfail
          · cases hfail
    · intro hlt
      have hlower : scan.nTotalLower.toInt < nTargetValue.toInt := by rw [htotal (hnone hlt)]; exact hlt
      rw [if_neg (fun heq => absurd (heq ▸ hlower) (lt_irrefl _)), if_pos (Int64.lt_iff_toInt_lt.mpr hlower), hnone hlt]
      rfl

/-! ## One asset -/

theorem foldl_insertCoin {set new : List CInputCoin} (hnodup : ((set ++ new).map CInputCoin.outpoint).Nodup) :
    new.foldl insertCoin set = set ++ new := by
  induction new generalizing set with
  | nil => rw [List.append_nil, List.foldl_nil]
  | cons coin new ih =>
    have hout : set.any (fun c => c.outpoint == coin.outpoint) = false := by
      rw [List.any_eq_false]
      intro c hc heq
      rw [List.map_append, List.nodup_append] at hnodup
      exact hnodup.2.2 _ (List.mem_map_of_mem hc) _ (by simp) (beq_iff_eq.mp heq)
    rw [List.foldl_cons, insertCoin, hout, if_neg (by decide), ih (by simpa using hnodup), List.append_assoc, List.singleton_append]

theorem foldl_add (r : Selection) : chosen.foldl Selection.add r =
    ⟨(chosen.map Prod.fst).foldl insertCoin r.setCoinsRet, r.nValueRet + totalAmount chosen⟩ := by
  induction chosen generalizing r with
  | nil => simp [totalAmount]
  | cons coin chosen ih =>
    rw [foldl_cons, ih]
    simp [Selection.add, totalAmount, add_assoc]

/-- The coin of a spendable output that is an asset, with its amount. -/
def spendableCoin (E : Env) (output : COutput) : Option (CInputCoin × CAmount) :=
  if output.fSpendable then (spentAsset E output.txout.scriptPubKey).map fun asset => (output.coin, asset.2.2) else none

theorem spendableCoin_of_eligible {output} (h : eligibleCoin E W p output = some coin) : spendableCoin E output = some coin := by
  simp only [eligibleCoin, ite_none_left_eq_some] at h
  obtain ⟨hspendable, -, -, h⟩ := h
  rw [spendableCoin, if_pos (by simpa using hspendable), h]

theorem filterMap_sublist {α β : Type} {f g : α → Option β} (h : ∀ x y, f x = some y → g x = some y) (l : List α) :
    (l.filterMap f).Sublist (l.filterMap g) := by
  induction l with
  | nil => exact List.Sublist.refl _
  | cons x l ih =>
    cases hx : f x with
    | none =>
      rw [filterMap_cons_none hx]
      cases hg : g x with
      | none => rwa [filterMap_cons_none hg]
      | some y => rw [filterMap_cons_some hg]; exact ih.cons y
    | some y =>
      rw [filterMap_cons_some hx, filterMap_cons_some (h x y hx)]
      exact ih.cons_cons y

def spendableCoins (E : Env) (outputs : List COutput) : List (CInputCoin × CAmount) := outputs.filterMap (spendableCoin E)

theorem spendableCoins_outpoints (E : Env) (outputs : List COutput) :
    ((spendableCoins E outputs).map fun coin => coin.1.outpoint).Sublist (outputs.map outpoint) := by
  rw [spendableCoins, map_filterMap, ← filterMap_eq_map]
  refine filterMap_sublist (fun output outpoint h => ?_) outputs
  simp only [spendableCoin, Outcome.some_iff] at h
  obtain ⟨_, ⟨-, asset, -, rfl⟩, rfl⟩ := h
  rfl

theorem eligible_perm (p : Eligibility) (outputs : List COutput) :
    ((rnd.shuffle outputs).filterMap (eligibleCoin E W p)).Perm (outputs.filterMap (eligibleCoin E W p)) :=
  (rnd.shuffle_perm outputs).filterMap _

theorem eligible_subperm (p : Eligibility) (outputs : List COutput) :
    (outputs.filterMap (eligibleCoin E W p)).Subperm (spendableCoins E outputs) :=
  (filterMap_sublist (fun _ _ => spendableCoin_of_eligible) outputs).subperm

def eligibleAmount (E : Env) (W : WalletSettings) (p : Eligibility) (outputs : List COutput) : Int :=
  exactAmount (outputs.filterMap (eligibleCoin E W p))

theorem selectAssetsMinConf_eq_none_iff (hbound : Bounded (spendableCoins E outputs)) (htarget : TargetInRange nTargetValue) :
    selectAssetsMinConf E W rnd nTargetValue p outputs = none ↔ eligibleAmount E W p outputs < nTargetValue.toInt := by
  have hperm : ((rnd.shuffle outputs).filterMap (eligibleCoin E W p)).Perm _ := eligible_perm p outputs
  have hsub := hperm.subperm.trans (eligible_subperm p outputs)
  rw [selectAssetsMinConf, map_eq_none_iff, chosenCoins_eq_none_iff (hbound.subperm hsub) htarget, eligibleAmount, exactAmount,
    ((hperm.map _).map _).sum_eq]
  rfl

/-- Coins of these outputs that reach the target. -/
structure PickedFrom (E : Env) (nTargetValue : CAmount) (outputs : List COutput) (chosen : List (CInputCoin × CAmount)) : Prop where
  subperm : chosen.Subperm (spendableCoins E outputs)
  reaches : nTargetValue ≤ totalAmount chosen

theorem nodup_of_subperm {α : Type} {l l' : List α} (h : l.Subperm l') (hnodup : l'.Nodup) : l.Nodup := by
  obtain ⟨l1, hperm, hsublist⟩ := h
  exact hperm.nodup_iff.mp (hsublist.nodup hnodup)

theorem outpoints_subperm (h : chosen.Subperm (spendableCoins E outputs)) :
    ((chosen.map Prod.fst).map CInputCoin.outpoint).Subperm (outputs.map outpoint) := by
  obtain ⟨l, hperm, hsublist⟩ := h
  rw [List.map_map]
  exact ((hperm.map _).symm.subperm.trans (hsublist.map _).subperm).trans (spendableCoins_outpoints E outputs).subperm

theorem selectAssetsMinConf_spec {selection} (hnodup : (outputs.map outpoint).Nodup)
    (htarget : TargetInRange nTargetValue) (h : selectAssetsMinConf E W rnd nTargetValue p outputs = some selection) :
    ∃ chosen, PickedFrom E nTargetValue outputs chosen ∧ selection = ⟨chosen.map Prod.fst, totalAmount chosen⟩ := by
  rw [selectAssetsMinConf, map_eq_some_iff] at h
  obtain ⟨chosen, hchosen, rfl⟩ := h
  obtain ⟨hsub, hreaches⟩ := chosenCoins_spec htarget.le_add hchosen
  have hpicked : PickedFrom E nTargetValue outputs chosen :=
    ⟨hsub.trans ((eligible_perm p outputs).subperm.trans (eligible_subperm p outputs)), hreaches⟩
  refine ⟨chosen, hpicked, ?_⟩
  rw [foldl_add, foldl_insertCoin (nodup_of_subperm (outpoints_subperm hpicked.subperm) hnodup), nil_append, zero_add]

def positiveTarget (mapAssetTargetValue : Table Bytes CAmount) (name : Bytes) : Option CAmount :=
  (mapAssetTargetValue.get? name).filter fun target => decide (0 < target)

/-- No coin is listed twice, and no sum of amounts leaves 64 bits. -/
structure Selectable (E : Env) (mapAvailableAssets : Table Bytes (List COutput)) (mapAssetTargetValue : Table Bytes CAmount) : Prop where
  nodup : ((mapAvailableAssets.toList.flatMap Prod.snd).map outpoint).Nodup
  bounded : ∀ asset ∈ mapAvailableAssets.toList, Bounded (spendableCoins E asset.2)
  target : ∀ name target, positiveTarget mapAssetTargetValue name = some target → TargetInRange target

variable {assetRnd : Bytes → Nat → Randomness} {mapAvailableAssets : Table Bytes (List COutput)}
  {mapAssetTargetValue : Table Bytes CAmount}

theorem selectAsset_eq (r : AssetSelection) (asset : Bytes × List COutput) :
    selectAsset E W assetRnd mapAssetTargetValue r asset =
      match positiveTarget mapAssetTargetValue asset.1 with
      | none => some r
      | some target => ((selectionTries W).zipIdx.findSome? fun p =>
        selectAssetsMinConf E W (assetRnd asset.1 p.2) target p.1 asset.2).map fun selection =>
        ⟨selection.setCoinsRet.foldl insertCoin r.setCoinsRet, r.mapValueRet.insert asset.1 selection.nValueRet⟩ := by
  rw [selectAsset, positiveTarget]
  cases mapAssetTargetValue.get? asset.1 with
  | none => rfl
  | some target =>
    by_cases h : target ≤ 0
    · have hnot : ¬ 0 < target := Int64.not_lt.mpr h
      rw [filter_some_neg (by simpa using hnot)]
      exact if_pos h
    · have hpos : 0 < target := Int64.not_le.mp h
      rw [filter_some_pos (by simpa using hpos)]
      exact if_neg h

/-- The loop over some assets: what was picked of each, inserted in order. -/
structure Selected (E : Env) (mapAssetTargetValue : Table Bytes CAmount) (assets : List (Bytes × List COutput))
    (pick : Bytes → List (CInputCoin × CAmount)) (r : AssetSelection) : Prop where
  picked : ∀ asset ∈ assets, ∀ target, positiveTarget mapAssetTargetValue asset.1 = some target →
    PickedFrom E target asset.2 (pick asset.1)
  skipped : ∀ name, positiveTarget mapAssetTargetValue name = none → pick name = []
  coins : r.setCoinsRet = assets.flatMap fun asset => (pick asset.1).map Prod.fst
  values : ∀ name, r.mapValueRet.get? name =
    if name ∈ assets.map Prod.fst then (positiveTarget mapAssetTargetValue name).map fun _ => totalAmount (pick name) else none

theorem Selected.pick_subset (h : Selected E mapAssetTargetValue assets pick r) (hasset : asset ∈ assets) :
    (pick asset.1).Subperm (spendableCoins E asset.2) := by
  cases htarget : positiveTarget mapAssetTargetValue asset.1 with
  | none => rw [h.skipped _ htarget]; exact nil_subperm
  | some target => exact (h.picked asset hasset target htarget).subperm

theorem Selected.outpoints (h : Selected E mapAssetTargetValue assets pick r) :
    (r.setCoinsRet.map CInputCoin.outpoint).Subperm ((assets.flatMap Prod.snd).map outpoint) := by
  have hsub : ∀ asset ∈ assets, (pick asset.1).Subperm (spendableCoins E asset.2) := fun _ => h.pick_subset
  rw [h.coins]
  clear h
  induction assets with
  | nil => exact nil_subperm
  | cons asset assets ih =>
    simp only [flatMap_cons, map_append]
    exact (outpoints_subperm (hsub asset mem_cons_self)).append (ih fun a ha => hsub a (mem_cons_of_mem _ ha))

theorem Selected.step {r'} (h : Selected E mapAssetTargetValue assets pick r)
    (hkeys : asset.1 ∉ assets.map Prod.fst) (hnodup : (((assets ++ [asset]).flatMap Prod.snd).map outpoint).Nodup)
    (htarget : ∀ target, positiveTarget mapAssetTargetValue asset.1 = some target → TargetInRange target)
    (hstep : selectAsset E W assetRnd mapAssetTargetValue r asset = some r') :
    ∃ pick, Selected E mapAssetTargetValue (assets ++ [asset]) pick r' := by
  rw [selectAsset_eq] at hstep
  cases hpositive : positiveTarget mapAssetTargetValue asset.1 with
  | none =>
    rw [hpositive] at hstep
    cases hstep
    refine ⟨pick, fun a ha target hp => ?_, h.skipped, ?_, fun name => ?_⟩
    · rcases mem_append.mp ha with ha | ha
      · exact h.picked a ha target hp
      · rw [mem_singleton.mp ha, hpositive] at hp
        cases hp
    · rw [h.coins, flatMap_append, flatMap_singleton, h.skipped _ hpositive, map_nil, append_nil]
    · rw [h.values]
      simp only [map_append, map_singleton, mem_append, mem_singleton]
      by_cases hname : name = asset.1
      · rw [hname, hpositive, if_pos (Or.inr rfl), if_neg hkeys]
        rfl
      · simp only [hname, or_false]
  | some target =>
    rw [hpositive, map_eq_some_iff] at hstep
    obtain ⟨selection, hfind, rfl⟩ := hstep
    obtain ⟨p, -, hselection⟩ := exists_of_findSome?_eq_some hfind
    rw [flatMap_append, map_append] at hnodup
    have hlast : (asset.2.map outpoint).Nodup := by simpa using (nodup_append.mp hnodup).2.1
    obtain ⟨chosen, hchosen, rfl⟩ := selectAssetsMinConf_spec hlast (htarget target hpositive) hselection
    have hne : ∀ a ∈ assets, a.1 ≠ asset.1 := fun a ha heq => hkeys (heq ▸ mem_map_of_mem ha)
    have hnew : ((r.setCoinsRet ++ chosen.map Prod.fst).map CInputCoin.outpoint).Nodup := by
      refine nodup_of_subperm ?_ hnodup
      rw [map_append, flatMap_singleton]
      exact h.outpoints.append (outpoints_subperm hchosen.subperm)
    refine ⟨Function.update pick asset.1 chosen, fun a ha t hp => ?_, fun name hp => ?_, ?_, fun name => ?_⟩
    · rcases mem_append.mp ha with ha | ha
      · rw [Function.update_of_ne (hne a ha)]
        exact h.picked a ha t hp
      · rw [mem_singleton.mp ha] at hp ⊢
        rw [hpositive] at hp
        cases hp
        rw [Function.update_self]
        exact hchosen
    · have hname : name ≠ asset.1 := by
        rintro rfl
        rw [hpositive] at hp
        cases hp
      rw [Function.update_of_ne hname]
      exact h.skipped name hp
    · have hold : (assets.flatMap fun a => (Function.update pick asset.1 chosen a.1).map Prod.fst) =
          assets.flatMap fun a => (pick a.1).map Prod.fst :=
        flatMap_congr fun a ha => by rw [Function.update_of_ne (hne a ha)]
      rw [foldl_insertCoin hnew, flatMap_append, flatMap_singleton, hold, Function.update_self, h.coins]
    · rw [get?_insert, h.values]
      simp only [map_append, map_singleton, mem_append, mem_singleton]
      by_cases hname : name = asset.1
      · rw [if_pos hname, if_pos (Or.inr hname), hname, hpositive, Function.update_self]
        rfl
      · simp only [hname, or_false, if_false, Function.update_of_ne hname]

theorem exists_selected (hkeys : (assets.map Prod.fst).Nodup) (hnodup : ((assets.flatMap Prod.snd).map outpoint).Nodup)
    (htarget : ∀ name target, positiveTarget mapAssetTargetValue name = some target → TargetInRange target)
    (h : assets.foldlM (selectAsset E W assetRnd mapAssetTargetValue) {} = some r) :
    ∃ pick, Selected E mapAssetTargetValue assets pick r := by
  induction assets using List.reverseRecOn generalizing r with
  | nil =>
    cases h
    exact ⟨fun _ => [], by simp, fun _ _ => rfl, rfl, by simp⟩
  | append_singleton assets asset ih =>
    simp only [List.foldlM_append, List.foldlM_cons, List.foldlM_nil, Outcome.some_iff] at h
    obtain ⟨r1, h1, _, h2, rfl⟩ := h
    have hkeys' := hkeys
    rw [List.map_append, List.nodup_append] at hkeys'
    rw [List.flatMap_append, List.map_append, List.nodup_append] at hnodup
    obtain ⟨pick, hpick⟩ := ih hkeys'.1 hnodup.1 h1
    refine hpick.step (fun hmem => hkeys'.2.2 _ hmem _ (by simp) rfl) ?_ (fun target => htarget _ target) h2
    rw [List.flatMap_append, List.map_append, List.nodup_append]
    exact hnodup

def listedUnder (mapAvailableAssets : Table Bytes (List COutput)) (name : Bytes) (coin : CInputCoin) : Bool :=
  (mapAvailableAssets.getD name []).any fun output => decide (output.coin = coin)

def coinAmount (E : Env) (coin : CInputCoin) : Int :=
  (spentAsset E coin.txout.scriptPubKey).elim 0 fun asset => asset.2.2.toInt

/-- Every positive target is covered with different spendable coins of its asset, whose sums are reported. -/
structure Covers (E : Env) (mapAvailableAssets : Table Bytes (List COutput)) (mapAssetTargetValue : Table Bytes CAmount)
    (r : AssetSelection) : Prop where
  covered : ∀ name target, positiveTarget mapAssetTargetValue name = some target →
    ∃ value, r.mapValueRet.get? name = some value ∧ target ≤ value ∧
      value.toInt = ((r.setCoinsRet.filter (listedUnder mapAvailableAssets name)).map (coinAmount E)).sum
  distinct : (r.setCoinsRet.map CInputCoin.outpoint).Nodup
  targeted : ∀ coin ∈ r.setCoinsRet, ∃ name outputs target, mapAvailableAssets.get? name = some outputs ∧
    positiveTarget mapAssetTargetValue name = some target ∧ ∃ output ∈ outputs, output.coin = coin ∧ output.fSpendable = true
  untargeted : ∀ coin ∈ r.setCoinsRet, ∀ name, listedUnder mapAvailableAssets name coin = true →
    positiveTarget mapAssetTargetValue name ≠ none

theorem eq_of_mem_flatMap {α β : Type} {f : α → List β} {l : List α} (h : (l.flatMap f).Nodup) {a b : α} (ha : a ∈ l) (hb : b ∈ l)
    {x : β} (hxa : x ∈ f a) (hxb : x ∈ f b) : a = b := by
  induction l with
  | nil => cases ha
  | cons c l ih =>
    rw [flatMap_cons, nodup_append] at h
    rcases mem_cons.mp ha with hac | hal <;> rcases mem_cons.mp hb with hbc | hbl
    · rw [hac, hbc]
    · exact absurd rfl (h.2.2 x (hac ▸ hxa) x (mem_flatMap.mpr ⟨b, hbl, hxb⟩))
    · exact absurd rfl (h.2.2 x (hbc ▸ hxb) x (mem_flatMap.mpr ⟨a, hal, hxa⟩))
    · exact ih h.2.1 hal hbl

theorem flatMap_single {K V β : Type} [DecidableEq K] {f : K × V → List β} {l : List (K × V)} (h : (l.map Prod.fst).Nodup) {a : K × V}
    (ha : a ∈ l) : (l.flatMap fun b => if b.1 = a.1 then f b else []) = f a := by
  induction l with
  | nil => cases ha
  | cons c l ih =>
    rw [map_cons, nodup_cons] at h
    rw [flatMap_cons]
    rcases mem_cons.mp ha with rfl | hal
    · have hrest : (l.flatMap fun b => if b.1 = a.1 then f b else []) = [] := by
        rw [flatMap_eq_nil_iff]
        intro b hb
        exact if_neg fun heq : b.1 = a.1 => h.1 (heq ▸ mem_map_of_mem hb)
      rw [if_pos rfl, hrest, append_nil]
    · have hne : c.1 ≠ a.1 := fun heq => h.1 (heq ▸ mem_map_of_mem hal)
      rw [if_neg hne, nil_append, ih h.2 hal]

section

variable {pick : Bytes → List (CInputCoin × CAmount)} {r : AssetSelection}

/-- A picked coin comes from a spendable output of the asset, with its amount. -/
theorem mem_spendableCoins (h : coin ∈ spendableCoins E outputs) :
    (∃ output ∈ outputs, output.coin = coin.1 ∧ output.fSpendable = true) ∧ coinAmount E coin.1 = coin.2.toInt := by
  obtain ⟨output, houtput, hcoin⟩ := mem_filterMap.mp h
  simp only [spendableCoin, Outcome.some_iff] at hcoin
  obtain ⟨hspendable, asset, hasset, rfl⟩ := hcoin
  refine ⟨⟨output, houtput, rfl, hspendable⟩, ?_⟩
  rw [coinAmount, coin, hasset]
  rfl

theorem listedUnder_iff (h : mapAvailableAssets.get? name = some outputs) (coin : CInputCoin) :
    listedUnder mapAvailableAssets name coin = true ↔ ∃ output ∈ outputs, output.coin = coin := by
  simp [listedUnder, Table.getD, h]

theorem Selected.filter_listedUnder (h : Selected E mapAssetTargetValue mapAvailableAssets.toList pick r)
    (hnodup : ((mapAvailableAssets.toList.flatMap Prod.snd).map outpoint).Nodup)
    (hasset : mapAvailableAssets.get? name = some outputs) :
    r.setCoinsRet.filter (listedUnder mapAvailableAssets name) = (pick name).map Prod.fst := by
  have hmem := Table.mem_toList.mpr hasset
  rw [map_flatMap] at hnodup
  have hone : ∀ asset ∈ mapAvailableAssets.toList, ((pick asset.1).map Prod.fst).filter (listedUnder mapAvailableAssets name) =
      if asset.1 = name then (pick asset.1).map Prod.fst else [] := by
    intro asset ha
    split
    · rename_i hname
      rw [filter_eq_self]
      intro coin hcoin
      obtain ⟨p, hp, rfl⟩ := mem_map.mp hcoin
      obtain ⟨⟨output, houtput, heq, -⟩, -⟩ := mem_spendableCoins ((h.pick_subset ha).subset hp)
      obtain ⟨n, os⟩ := asset
      subst hname
      rw [Table.mem_toList.mp ha] at hasset
      cases hasset
      exact (listedUnder_iff (Table.mem_toList.mp ha) p.1).mpr ⟨output, houtput, heq⟩
    · rename_i hname
      rw [filter_eq_nil_iff]
      intro coin hcoin hlisted
      obtain ⟨p, hp, rfl⟩ := mem_map.mp hcoin
      obtain ⟨⟨output, houtput, heq, -⟩, -⟩ := mem_spendableCoins ((h.pick_subset ha).subset hp)
      obtain ⟨output', houtput', heq'⟩ := (listedUnder_iff hasset p.1).mp hlisted
      have hpoint : output.outpoint = output'.outpoint := congrArg CInputCoin.outpoint (heq.trans heq'.symm)
      have := eq_of_mem_flatMap hnodup ha hmem (mem_map_of_mem houtput) (hpoint ▸ mem_map_of_mem houtput')
      exact hname (congrArg Prod.fst this)
  rw [h.coins, filter_flatMap, flatMap_congr hone]
  exact flatMap_single (f := fun asset => (pick asset.1).map Prod.fst) mapAvailableAssets.nodup_keys hmem

theorem Selected.covers (h : Selected E mapAssetTargetValue mapAvailableAssets.toList pick r)
    (hselectable : Selectable E mapAvailableAssets mapAssetTargetValue)
    (hlisted : ∀ name, positiveTarget mapAssetTargetValue name ≠ none → mapAvailableAssets.contains name = true) :
    Covers E mapAvailableAssets mapAssetTargetValue r := by
  refine ⟨fun name target htarget => ?_, nodup_of_subperm h.outpoints hselectable.nodup, fun coin hcoin => ?_,
    fun coin hcoin name hname hnone => ?_⟩
  · obtain ⟨outputs, houtputs⟩ := Option.isSome_iff_exists.mp (hlisted name (by rw [htarget]; simp))
    have hmem := Table.mem_toList.mpr houtputs
    have hpicked := h.picked _ hmem target htarget
    refine ⟨totalAmount (pick name), ?_, hpicked.reaches, ?_⟩
    · rw [h.values, if_pos (List.mem_map_of_mem (f := Prod.fst) hmem), htarget]
      rfl
    · have hbounded := (hselectable.bounded _ hmem).subperm hpicked.subperm
      rw [h.filter_listedUnder hselectable.nodup houtputs, hbounded.toInt_totalAmount, exactAmount, List.map_map, List.map_map]
      congr 1
      refine List.map_congr_left fun p hp => ?_
      exact ((mem_spendableCoins (hpicked.subperm.subset hp)).2).symm
  · rw [h.coins, List.mem_flatMap] at hcoin
    obtain ⟨asset, ha, hcoin⟩ := hcoin
    obtain ⟨p, hp, rfl⟩ := List.mem_map.mp hcoin
    obtain ⟨houtput, -⟩ := mem_spendableCoins ((h.pick_subset ha).subset hp)
    cases htarget : positiveTarget mapAssetTargetValue asset.1 with
    | none => rw [h.skipped _ htarget] at hp; cases hp
    | some target => exact ⟨asset.1, asset.2, target, Table.mem_toList.mp ha, htarget, houtput⟩
  · cases hasset : mapAvailableAssets.get? name with
    | none => simp [listedUnder, Table.getD, hasset] at hname
    | some outputs =>
      have hfilter := h.filter_listedUnder hselectable.nodup hasset
      rw [h.skipped name hnone, List.map_nil, List.filter_eq_nil_iff] at hfilter
      exact hfilter coin hcoin hname

end

/-! ## When the selection covers -/

theorem foldlM_eq_none_iff {α σ : Type} {f} {p : α → Prop} {l : List α}
    (h : ∀ s, ∀ a ∈ l, f s a = none ↔ p a) (s : σ) : l.foldlM f s = none ↔ ∃ a ∈ l, p a := by
  induction l generalizing s with
  | nil => simp
  | cons a l ih =>
    have hrest : ∀ s, ∀ b ∈ l, f s b = none ↔ p b := fun s b hb => h s b (mem_cons_of_mem _ hb)
    have hhead := h s a mem_cons_self
    rw [foldlM_cons, bind_eq_bind, exists_mem_cons_iff]
    cases hfa : f s a with
    | none => simp [hhead.mp hfa]
    | some s' =>
      have hnot : ¬ p a := fun hp => by rw [hhead.mpr hp] at hfa; cases hfa
      simp [ih hrest, hnot]

/-- A listed asset whose target no try of the selection can reach. -/
def Unreachable (E : Env) (W : WalletSettings) (mapAssetTargetValue : Table Bytes CAmount) (asset : Bytes × List COutput) : Prop :=
  ∃ target, positiveTarget mapAssetTargetValue asset.1 = some target ∧
    ∀ p ∈ selectionTries W, eligibleAmount E W p asset.2 < target.toInt

theorem selectAsset_eq_none_iff (h : Selectable E mapAvailableAssets mapAssetTargetValue) (r : AssetSelection)
    (hasset : asset ∈ mapAvailableAssets.toList) :
    selectAsset E W assetRnd mapAssetTargetValue r asset = none ↔ Unreachable E W mapAssetTargetValue asset := by
  rw [selectAsset_eq, Unreachable]
  cases htarget : positiveTarget mapAssetTargetValue asset.1 with
  | none => simp
  | some target =>
    have hmin : ∀ p : Eligibility × Nat, selectAssetsMinConf E W (assetRnd asset.1 p.2) target p.1 asset.2 = none ↔
        eligibleAmount E W p.1 asset.2 < target.toInt :=
      fun p => selectAssetsMinConf_eq_none_iff (h.bounded asset hasset) (h.target _ target htarget)
    have htries : (∀ p ∈ (selectionTries W).zipIdx, eligibleAmount E W p.1 asset.2 < target.toInt) ↔
        ∀ p ∈ selectionTries W, eligibleAmount E W p asset.2 < target.toInt := by
      rw [← forall_mem_map (f := Prod.fst) (P := fun p => eligibleAmount E W p asset.2 < target.toInt), zipIdx_map_fst]
    simp only [map_eq_none_iff, List.findSome?_eq_none_iff, hmin, htries, some.injEq, exists_eq_left']

theorem selectAssets_eq_none_iff (h : Selectable E mapAvailableAssets mapAssetTargetValue) :
    selectAssets E W assetRnd mapAvailableAssets mapAssetTargetValue = none ↔
      E.areAssetsDeployed = false ∨ ∃ asset ∈ mapAvailableAssets.toList, Unreachable E W mapAssetTargetValue asset := by
  rw [selectAssets]
  cases E.areAssetsDeployed with
  | false => simp
  | true =>
    simp only [Bool.not_true, Outcome.test_iff, Bool.true_eq_false, false_or]
    exact foldlM_eq_none_iff (p := Unreachable E W mapAssetTargetValue) (fun r a ha => selectAsset_eq_none_iff h r ha) {}

/-- Random choices that leave everything as it is. -/
def Randomness.trivial : Randomness := ⟨id, fun _ => List.Perm.refl _, fun _ _ _ => false⟩

namespace Regtest

def walletSettings : WalletSettings := ⟨fun _ _ => true, true, false, 25⟩

def goldCoins (nAmount : CAmount) : Table Bytes (List COutput) :=
  (∅ : Table Bytes (List COutput)).insert (ascii "GOLD")
    [⟨⟨1, 0⟩, ⟨0, transferScript alice ⟨ascii "GOLD", nAmount, [], 0⟩⟩, 10, true, true⟩]

def goldTarget (nAmount : CAmount) : Table Bytes CAmount := (∅ : Table Bytes CAmount).insert (ascii "GOLD") nAmount

theorem goldTarget_positive {nAmount target} (h : positiveTarget (goldTarget nAmount) name = some target) :
    target = nAmount ∧ 0 < nAmount := by
  rw [positiveTarget, goldTarget, get?_insert, filter_eq_some_iff] at h
  by_cases hname : name = ascii "GOLD"
  · rw [if_pos hname] at h
    obtain ⟨⟨⟩, hpos⟩ := h
    exact ⟨rfl, by simpa using hpos⟩
  · rw [if_neg hname, get?_empty] at h
    cases h.1

end Regtest

end Hivecoin

import Hivecoin.Base.Writes
import Hivecoin.Chain.Lemmas.Blocks
import Hivecoin.Chain.CoinFlow

/-!
# Blocks as writes to the coins

What a transaction does to the coins, and what undoing it does, as lists of writes.
-/

namespace Hivecoin

open CAssetsCache Outcome Writes Option

variable {E : Env} {S : Store} {R : Rules} {mempool : MempoolMaps}
variable {nHeight : Nat} {st st' : DisconnectState} {entry : CTransaction × Option (List Coin)}
  {vUndo : List (Bytes × CBlockAssetUndo)}

variable (tx : CTransaction)

def spendableOuts : List (CTxOut × Nat) :=
  tx.vout.zipIdx.filter fun out => !isUnspendable out.1.scriptPubKey

def inputWrites : List (COutPoint × Option Coin) :=
  if tx.isCoinBase then [] else tx.vin.map fun txin => (txin.prevout, none)

def outputWrites (nHeight : Nat) : List (COutPoint × Option Coin) :=
  (spendableOuts tx).map fun out => (⟨tx.hash, out.2⟩, some ⟨out.1, nHeight, tx.isCoinBase⟩)

def txWrites (nHeight : Nat) : List (COutPoint × Option Coin) := inputWrites tx ++ outputWrites tx nHeight

/-- The outputs are taken out, then the inputs come back in reverse order. -/
def txUndoWrites (entry : CTransaction × Option (List Coin)) : List (COutPoint × Option Coin) :=
  ((spendableOuts entry.1).map fun out => (⟨entry.1.hash, out.2⟩, none)) ++
    ((entry.1.vin.zip (entry.2.getD [])).reverse.map fun p => (p.1.prevout, some p.2))

theorem addOutCoins_eq (view : CoinsView) (tx : CTransaction) (nHeight : Nat) :
    addOutCoins view tx nHeight = run (outputWrites tx nHeight) view := by
  unfold addOutCoins outputWrites spendableOuts
  generalize tx.vout.zipIdx = outs
  induction outs generalizing view with
  | nil => rfl
  | cons out outs ih =>
    rw [List.foldl_cons, ih, CoinsView.addCoin, List.filter_cons]
    cases isUnspendable out.1.scriptPubKey <;> rfl

theorem spendLoop_run {vin : List CTxIn} {st st' : SpendState} (h : vin.foldlM (spendInput E S) st = some st') :
    st'.view = run (vin.map fun txin => (txin.prevout, none)) st.view := by
  induction vin generalizing st with
  | nil => cases h; rfl
  | cons txin vin ih =>
    obtain ⟨st1, h1, h2⟩ := foldlM_cons_some.mp h
    obtain ⟨coin, -, hview, -⟩ := spendInput_view h1
    rw [ih h2, hview]
    rfl

theorem updateCoins_run {view c tx blockHash} {r : UpdateResult}
    (h : updateCoins E S view c tx nHeight blockHash = some r) :
    r.view = run (txWrites tx nHeight) view := by
  simp only [updateCoins, some_iff] at h
  obtain ⟨spent, hspent, rfl⟩ := h
  rw [txWrites, run_append, ← addOutCoins_eq]
  unfold spendInputs at hspent
  unfold inputWrites
  split at hspent
  · cases hspent
    rw [if_pos (by assumption)]
    rfl
  · rw [if_neg (by assumption), ← spendLoop_run hspent]

theorem spendCoin_run (view : CoinsView) (c : CAssetsCache) (out : COutPoint) :
    (spendCoin E S view c out).view = Function.update view out none := by
  unfold spendCoin
  cases h : view out with
  | none => exact (Function.update_eq_self_iff.mpr h.symm).symm
  | some coin =>
    dsimp only
    split
    · split <;> rfl
    · rfl

theorem removeOutCoins_run {tx nHeight} (st : DisconnectState) :
    (tx.vout.zipIdx.foldl (removeOutCoin E S tx nHeight) st).view =
      run ((spendableOuts tx).map fun out => (⟨tx.hash, out.2⟩, none)) st.view := by
  unfold spendableOuts
  generalize tx.vout.zipIdx = outs
  induction outs generalizing st with
  | nil => rfl
  | cons out outs ih =>
    rw [List.foldl_cons, ih, List.filter_cons, removeOutCoin]
    cases isUnspendable out.1.scriptPubKey with
    | true => rfl
    | false =>
      rw [if_neg Bool.false_ne_true, if_pos Bool.not_false, List.map_cons, run_cons]
      exact congrArg _ (spendCoin_run st.view st.tempCache _)

/-- A coin of an accepted chain has the height of its block and was put into the view. -/
def Coin.Kept (coin : Coin) : Prop := coin.nHeight ≠ 0 ∧ isUnspendable coin.out.scriptPubKey = false

theorem applyTxInUndo_run {undo out} (hkept : undo.Kept) (h : applyTxInUndo E S st undo out = some st') : st'.view = Function.update st.view out (some undo) := by
  have hcoin : restoredCoin st.view undo out = some undo := if_neg hkept.1
  have hview : st.view.addCoin out undo = Function.update st.view out (some undo) := by
    rw [CoinsView.addCoin, hkept.2, if_neg Bool.false_ne_true]
  simp only [applyTxInUndo, hcoin, map_some, some.injEq, hview] at h
  subst h
  split
  · split <;> rfl
  · rfl

theorem restoreLoop_run {ps : List (CTxIn × Coin)} (hkept : ∀ p ∈ ps, p.2.Kept)
    (h : ps.foldlM (fun st p => applyTxInUndo E S st p.2 p.1.prevout) st = some st') :
    st'.view = run (ps.map fun p => (p.1.prevout, some p.2)) st.view := by
  induction ps generalizing st with
  | nil => cases h; rfl
  | cons p ps ih =>
    obtain ⟨st1, h1, h2⟩ := foldlM_cons_some.mp h
    rw [ih (fun q hq => hkept q (List.mem_cons_of_mem _ hq)) h2, applyTxInUndo_run (hkept p List.mem_cons_self) h1]
    rfl

/-- The undo data of a transaction holds a coin of the chain for each input. -/
def KeptEntry (entry : CTransaction × Option (List Coin)) : Prop :=
  ∀ coins, entry.2 = some coins → coins.length = entry.1.vin.length ∧ ∀ coin ∈ coins, coin.Kept

theorem KeptEntry.zip (h : KeptEntry entry) {coins} (hcoins : entry.2 = some coins) : ∀ p ∈ (entry.1.vin.zip coins).reverse, p.2.Kept := fun _ hp =>
  (h coins hcoins).2 _ (List.of_mem_zip (List.mem_reverse.mp hp)).2

theorem disconnectTx_run (hkept : KeptEntry entry) (h : disconnectTx E S nHeight vUndo st entry = some st') : st'.view = run (txUndoWrites entry) st.view := by
  obtain ⟨tx, txundo⟩ := entry
  simp only [disconnectTx, some_iff] at h
  obtain ⟨assets, -, h⟩ := h
  rw [txUndoWrites, run_append, ← @removeOutCoins_run E S tx nHeight]
  cases txundo with
  | none =>
    cases h
    rw [getD_none, List.zip_nil_right]
    rfl
  | some coins =>
    simp only [restoreInputs] at h
    split at h
    · cases h
    · have hview := restoreLoop_run (hkept.zip rfl) h
      exact hview

theorem disconnectTxs_run {entries : List (CTransaction × Option (List Coin))} (hkept : ∀ entry ∈ entries, KeptEntry entry)
    (h : entries.foldlM (disconnectTx E S nHeight vUndo) st = some st') :
    st'.view = run (entries.flatMap txUndoWrites) st.view := by
  induction entries generalizing st with
  | nil => cases h; rfl
  | cons entry entries ih =>
    obtain ⟨st1, h1, h2⟩ := foldlM_cons_some.mp h
    rw [ih (fun e he => hkept e (List.mem_cons_of_mem _ he)) h2, disconnectTx_run (hkept entry List.mem_cons_self) h1,
      List.flatMap_cons, run_append]

/-- The assets of a coin that comes back; a failure only makes the undoing unclean. -/
def restoreAsset (E : Env) (S : Store) (c : CAssetsCache) (coin : Coin) : CAssetsCache :=
  if E.areAssetsDeployed && (Script.isAssetScript coin.out.scriptPubKey).isSome then (undoAssetCoin E S c coin).getD c
  else c

/-- What undoing a transaction does to the assets, whatever the coins. -/
def undoTxAssets (E : Env) (S : Store) (vUndo : List (Bytes × CBlockAssetUndo)) (c : CAssetsCache)
    (entry : CTransaction × Option (List Coin)) : Option CAssetsCache :=
  (removeAssets E S c entry.1 vUndo).map fun c => (entry.2.getD []).reverse.foldl (restoreAsset E S) c

theorem applyTxInUndo_assets_eq {undo} (hkept : undo.Kept) (st : DisconnectState) (out : COutPoint) :
    (applyTxInUndo E S st undo out).map (·.assets) = some (restoreAsset E S st.assets undo) := by
  rw [applyTxInUndo, restoredCoin, if_neg hkept.1, map_some, map_some, restoreAsset]
  split
  · cases undoAssetCoin E S st.assets undo <;> rfl
  · rfl

theorem disconnectTx_assets_eq (hkept : KeptEntry entry) (st : DisconnectState) :
    (disconnectTx E S nHeight vUndo st entry).map (·.assets) = undoTxAssets E S vUndo st.assets entry := by
  obtain ⟨tx, txundo⟩ := entry
  rw [disconnectTx, undoTxAssets]
  dsimp only
  rw [removeOutCoins_assets]
  cases removeAssets E S st.assets tx vUndo with
  | none => rfl
  | some assets =>
    cases txundo with
    | none => rfl
    | some coins =>
      have hlength : coins.length = tx.vin.length := (hkept coins rfl).1
      have hcoins : coins.reverse = (tx.vin.zip coins).reverse.map Prod.snd := by
        rw [List.map_reverse, List.map_snd_zip hlength.le]
      rw [bind_eq_bind, bind_some, map_some, getD_some, hcoins, List.foldl_map]
      dsimp only
      rw [restoreInputs, if_neg (not_not.mpr hlength)]
      refine (map_foldlM (·.assets) (g := fun c p => pure (restoreAsset E S c p.2))
        (fun st p hp => applyTxInUndo_assets_eq (hkept.zip rfl p hp) st p.1.prevout) _).trans ?_
      exact List.foldlM_pure

theorem disconnectTxs_assets_eq {nHeight vUndo}
    {entries : List (CTransaction × Option (List Coin))} (hkept : ∀ entry ∈ entries, KeptEntry entry) (st : DisconnectState) :
    (entries.foldlM (disconnectTx E S nHeight vUndo) st).map (·.assets) =
      entries.foldlM (undoTxAssets E S vUndo) st.assets :=
  map_foldlM (·.assets) (fun st entry hentry => disconnectTx_assets_eq (hkept entry hentry) st) st

/-- The coins hold none of its outputs yet, and its inputs are what the undo data says. -/
structure TxUndo (view : CoinsView) (entry : CTransaction × Option (List Coin)) : Prop where
  fresh : ∀ n, view ⟨entry.1.hash, n⟩ = none
  coinbase : entry.2 = none ↔ entry.1.isCoinBase = true
  coins : ∀ coins, entry.2 = some coins → coins.map some = entry.1.vin.map fun txin => view txin.prevout

theorem TxUndo.undoes {view} (h : TxUndo view entry) (nHeight : Nat) :
    Undoes (txUndoWrites entry) (txWrites entry.1 nHeight) view := by
  obtain ⟨tx, txundo⟩ := entry
  have hout : ∀ k, k ∈ keys ((spendableOuts tx).map fun out => ((⟨tx.hash, out.2⟩, none) : COutPoint × Option Coin)) ↔
      k ∈ keys (outputWrites tx nHeight) := by
    intro k
    simp only [keys, outputWrites, List.map_map]
    rfl
  cases txundo with
  | none =>
    have hcb : tx.isCoinBase = true := h.coinbase.mp rfl
    refine .of_values (fun k => ?_) fun w hw => ?_
    · rw [txUndoWrites, txWrites, inputWrites, hcb, if_pos rfl, getD_none, List.zip_nil_right, List.reverse_nil,
        List.map_nil, List.append_nil, List.nil_append]
      exact hout k
    · rw [txUndoWrites, getD_none, List.zip_nil_right, List.reverse_nil, List.map_nil, List.append_nil] at hw
      obtain ⟨out, -, rfl⟩ := List.mem_map.mp hw
      exact (h.fresh out.2).symm
  | some coins =>
    have hcb : tx.isCoinBase = false := Bool.eq_false_iff.mpr fun hcb => by cases h.coinbase.mpr hcb
    have hcoins := h.coins coins rfl
    have hlen : coins.length = tx.vin.length := by simpa using congrArg List.length hcoins
    refine .of_values (fun k => ?_) fun w hw => ?_
    · have hin : k ∈ keys ((tx.vin.zip coins).reverse.map fun p => (p.1.prevout, some p.2)) ↔
          k ∈ keys (tx.vin.map fun txin => ((txin.prevout, none) : COutPoint × Option Coin)) := by
        simp only [keys, List.map_map, List.map_reverse, List.mem_reverse]
        rw [show (Prod.fst ∘ fun p : CTxIn × Coin => (p.1.prevout, some p.2)) = (·.prevout) ∘ Prod.fst from rfl,
          ← List.map_map, List.map_fst_zip (by omega)]
        rfl
      rw [txUndoWrites, txWrites, inputWrites, hcb, if_neg Bool.false_ne_true, getD_some, keys_append, keys_append,
        List.mem_append, List.mem_append, hin, hout, or_comm]
    · rw [txUndoWrites, getD_some, List.mem_append] at hw
      rcases hw with hw | hw
      · obtain ⟨out, -, rfl⟩ := List.mem_map.mp hw
        exact (h.fresh out.2).symm
      · obtain ⟨p, hp, rfl⟩ := List.mem_map.mp hw
        obtain ⟨i, hi, hpi⟩ := List.mem_iff_getElem.mp (List.mem_reverse.mp hp)
        have hvin : i < tx.vin.length := by rw [List.length_zip] at hi; omega
        have hval := congrArg (·[i]?) hcoins
        simp only [List.getElem?_map, List.getElem?_eq_getElem (hlen ▸ hvin : i < coins.length),
          List.getElem?_eq_getElem hvin, map_some, some.injEq] at hval
        rw [← hpi, List.getElem_zip]
        exact hval

end Hivecoin

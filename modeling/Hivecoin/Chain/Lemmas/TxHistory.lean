import Mathlib.Data.Nat.Digits.Lemmas
import Hivecoin.Assets.Lemmas.Construct
import Hivecoin.Chain.BlockIndex
import Hivecoin.Chain.CoinWrites

/-!
# Transactions of a chain
-/

namespace Hivecoin

open CAssetsCache Outcome Writes

variable {block : CBlock} {flags : CheckFlags}

/-- Reads back what `heightScript` writes. -/
def heightOf : Bytes → Nat
  | [] => 0
  | op :: rest =>
    if OP_1 ≤ op ∧ op ≤ OP_16 then op.toNat - 0x50
    else if op = OP_PUSHDATA1 then Nat.ofDigits 256 ((rest.tail.take (rest.headD 0).toNat).map UInt8.toNat)
    else Nat.ofDigits 256 ((rest.take op.toNat).map UInt8.toNat)

theorem ofDigits_scriptNum (n : Nat) : Nat.ofDigits 256 ((scriptNum n).map UInt8.toNat) = n := by
  have hdigits : ((Nat.digits 256 n).map UInt8.ofNat).map UInt8.toNat = Nat.digits 256 n := by
    rw [List.map_map]
    refine (List.map_congr_left fun d hd => ?_).trans (List.map_id _)
    have hlt : d < 256 := Nat.digits_lt_base (by omega) hd
    simpa using Nat.mod_eq_of_lt hlt
  unfold scriptNum
  dsimp only
  split
  · rw [List.map_append, hdigits, Nat.ofDigits_append, Nat.ofDigits_digits]
    rfl
  · rw [hdigits, Nat.ofDigits_digits]

theorem heightOf_heightScript {nHeight} (h : (heightScript nHeight).length ≤ 100) (rest : Bytes) :
    heightOf (heightScript nHeight ++ rest) = nHeight := by
  have hnum := ofDigits_scriptNum nHeight
  unfold heightScript at h ⊢
  split at h
  · rename_i hsmall
    have hop : (UInt8.ofNat (nHeight + (OP_1.toNat - 1))).toNat = nHeight + 80 := by
      rw [UInt8.toNat_ofNat', show OP_1.toNat = 81 from rfl]
      omega
    have hrange : OP_1 ≤ UInt8.ofNat (nHeight + (OP_1.toNat - 1)) ∧ UInt8.ofNat (nHeight + (OP_1.toNat - 1)) ≤ OP_16 := by
      rw [UInt8.le_iff_toNat_le, UInt8.le_iff_toNat_le, hop, show OP_1.toNat = 81 from rfl, show OP_16.toNat = 96 from rfl]
      omega
    rw [if_pos hsmall, List.singleton_append, heightOf, if_pos hrange, hop]
    omega
  split at h
  · rename_i hno hzero
    rw [if_neg hno, if_pos hzero, hzero]
    rfl
  rename_i hno hzero
  rw [if_neg hno, if_neg hzero]
  generalize scriptNum nHeight = s at h hnum ⊢
  by_cases hshort : s.length < 76
  · have hop : (UInt8.ofNat s.length).toNat = s.length := by
      rw [UInt8.toNat_ofNat']
      omega
    have hrange : ¬ (OP_1 ≤ UInt8.ofNat s.length ∧ UInt8.ofNat s.length ≤ OP_16) := by
      rw [UInt8.le_iff_toNat_le, hop, show OP_1.toNat = 81 from rfl]
      omega
    have hlong : UInt8.ofNat s.length ≠ OP_PUSHDATA1 := fun heq => by
      have := congrArg UInt8.toNat heq
      rw [hop, show OP_PUSHDATA1.toNat = 76 from rfl] at this
      omega
    rw [pushBytes_short hshort, List.cons_append, heightOf, if_neg hrange, if_neg hlong, hop, List.take_left, hnum]
  · have hlen : s.length ≤ 255 := by
      by_contra hlarge
      have := lt_length_pushBytes s
      omega
    have hop : (UInt8.ofNat s.length).toNat = s.length := by
      rw [UInt8.toNat_ofNat']
      omega
    rw [pushBytes_long (by omega) hlen, List.cons_append, List.cons_append, heightOf, if_neg (by decide), if_pos rfl,
      List.headD_cons, List.tail_cons, hop, List.take_left, hnum]

theorem heightScript_inj {s a b} (hlen : s.length ≤ 100) (ha : heightScript a <+: s)
    (hb : heightScript b <+: s) : a = b := by
  obtain ⟨r, hr⟩ := ha
  obtain ⟨t, ht⟩ := hb
  have hla : (heightScript a).length ≤ s.length := by rw [← hr, List.length_append]; omega
  have hlb : (heightScript b).length ≤ s.length := by rw [← ht, List.length_append]; omega
  rw [← heightOf_heightScript (hla.trans hlen) r, ← heightOf_heightScript (hlb.trans hlen) t, hr, ht]

variable {E : Env} {S : Store} {R : Rules} {mempool : MempoolMaps} {ids : Uint256 → CTransaction} {n : Nat}
  {txs : List CTransaction} {view : CoinsView} {tx : CTransaction}

structure TxHistory (ids : Uint256 → CTransaction) (n : Nat) (txs : List CTransaction) (view : CoinsView) : Prop where
  named : ∀ tx ∈ txs, ids tx.hash = tx
  coins : ∀ out coin, view out = some coin → coin.Kept ∧ ∃ tx ∈ txs, tx.hash = out.hash
  inputs : ∀ tx ∈ txs, tx.isCoinBase = false → tx.vin ≠ []
  spent : ∀ tx ∈ txs, tx.isCoinBase = false → ∀ txin ∈ tx.vin,
    view txin.prevout = none ∧ ∃ t ∈ txs, t.hash = txin.prevout.hash
  coinbases : ∀ tx ∈ txs, tx.isCoinBase = true → ∃ h ≤ n, heightScript h <+: coinbaseScript tx

theorem TxHistory.empty (ids : Uint256 → CTransaction) : TxHistory ids 0 [] fun _ => none :=
  ⟨by simp, nofun, by simp, by simp, by simp⟩

/-- A transaction that can follow: its inputs are there, and a coinbase has a new height. -/
structure TxFollows (ids : Uint256 → CTransaction) (n : Nat) (view : CoinsView) (tx : CTransaction) : Prop where
  named : ids tx.hash = tx
  coinbase : tx.isCoinBase = true → ∀ h ≤ n, ¬ heightScript h <+: coinbaseScript tx
  inputs : tx.isCoinBase = false → tx.vin ≠ [] ∧ ∀ txin ∈ tx.vin, (view txin.prevout).isSome

theorem TxHistory.fresh (h : TxHistory ids n txs view) (hf : TxFollows ids n view tx) : ∀ t ∈ txs, t.hash ≠ tx.hash := by
  intro t ht heq
  have hsame : t = tx := by rw [← h.named t ht, heq, hf.named]
  subst hsame
  cases hcb : t.isCoinBase with
  | true =>
    obtain ⟨m, hm, hscript⟩ := h.coinbases t ht hcb
    exact hf.coinbase hcb m hm hscript
  | false =>
    obtain ⟨hne, hsome⟩ := hf.inputs hcb
    obtain ⟨txin, htxin⟩ := List.exists_mem_of_ne_nil _ hne
    have hthere := hsome txin htxin
    rw [(h.spent t ht hcb txin htxin).1] at hthere
    cases hthere

theorem run_txWrites_cases (tx : CTransaction) (nHeight : Nat) (view : CoinsView) (out : COutPoint) :
    (out.hash = tx.hash ∧ ∃ o ∈ tx.vout, isUnspendable o.scriptPubKey = false ∧
        run (txWrites tx nHeight) view out = some ⟨o, nHeight, tx.isCoinBase⟩) ∨
      run (txWrites tx nHeight) view out = run (inputWrites tx) view out := by
  rw [txWrites, run_append]
  by_cases hk : out ∈ keys (outputWrites tx nHeight)
  · obtain ⟨v, hv, heq⟩ := exists_run_eq hk (run (inputWrites tx) view)
    obtain ⟨o, ho, hw⟩ := List.mem_map.mp hv
    obtain ⟨rfl, rfl⟩ := Prod.mk.inj hw
    obtain ⟨hmem, hspendable⟩ := List.mem_filter.mp ho
    exact Or.inl ⟨rfl, o.1, List.fst_mem_of_mem_zipIdx hmem, by simpa using hspendable, heq⟩
  · exact Or.inr (run_of_not_mem hk _)

theorem run_inputWrites (tx : CTransaction) (view : CoinsView) (out : COutPoint) :
    run (inputWrites tx) view out = none ∨ run (inputWrites tx) view out = view out := by
  by_cases hk : out ∈ keys (inputWrites tx)
  · refine Or.inl (run_values (f := fun _ => none) (fun w hw => ?_) hk view)
    unfold inputWrites at hw
    split at hw
    · cases hw
    · obtain ⟨txin, -, rfl⟩ := List.mem_map.mp hw
      rfl
  · exact Or.inr (run_of_not_mem hk view)

theorem run_inputWrites_input (hcb : tx.isCoinBase = false) (view : CoinsView) {txin} (h : txin ∈ tx.vin) :
    run (inputWrites tx) view txin.prevout = none := by
  rw [inputWrites, hcb, if_neg Bool.false_ne_true]
  refine run_values (f := fun _ => none) (fun w hw => ?_) ?_ view
  · obtain ⟨txin, -, rfl⟩ := List.mem_map.mp hw
    rfl
  · rw [keys, List.map_map]
    exact List.mem_map_of_mem h

theorem TxHistory.add (h : TxHistory ids n txs view) (hf : TxFollows ids n view tx) {nHeight m} (hn : n ≤ m)
    (hheight : nHeight ≠ 0) (hcb : tx.isCoinBase = true → ∃ h ≤ m, heightScript h <+: coinbaseScript tx) :
    TxHistory ids m (txs ++ [tx]) (run (txWrites tx nHeight) view) := by
  have hfresh := h.fresh hf
  -- an outpoint of an earlier transaction is not written again
  have hold : ∀ {out : COutPoint}, (∃ t ∈ txs, t.hash = out.hash) →
      run (txWrites tx nHeight) view out = run (inputWrites tx) view out := by
    intro out ⟨t, ht, hhash⟩
    rcases run_txWrites_cases tx nHeight view out with ⟨hout, -⟩ | heq
    · exact absurd (hhash.trans hout) (hfresh t ht)
    · exact heq
  have hleft : ∀ {t : CTransaction}, t ∈ txs → t ∈ txs ++ [tx] := List.mem_append_left _
  refine ⟨fun t ht => ?_, fun out coin hcoin => ?_, fun t ht htcb => ?_, fun t ht htcb txin htxin => ?_, fun t ht htcb => ?_⟩
  · rcases List.mem_append.mp ht with ht | ht
    · exact h.named t ht
    · rw [List.mem_singleton.mp ht, hf.named]
  · rcases run_txWrites_cases tx nHeight view out with ⟨hout, o, -, hspendable, heq⟩ | heq
    · rw [heq, Option.some.injEq] at hcoin
      subst hcoin
      exact ⟨⟨hheight, hspendable⟩, tx, by simp, hout.symm⟩
    · rcases run_inputWrites tx view out with hnone | hsame
      · rw [heq, hnone] at hcoin
        cases hcoin
      · obtain ⟨hkept, t, ht, hhash⟩ := h.coins out coin (by rw [← hsame, ← heq, hcoin])
        exact ⟨hkept, t, hleft ht, hhash⟩
  · rcases List.mem_append.mp ht with ht | ht
    · exact h.inputs t ht htcb
    · rw [List.mem_singleton.mp ht] at htcb ⊢
      exact (hf.inputs htcb).1
  · rcases List.mem_append.mp ht with ht | ht
    · obtain ⟨hnone, t', ht', hhash⟩ := h.spent t ht htcb txin htxin
      refine ⟨?_, t', hleft ht', hhash⟩
      rw [hold ⟨t', ht', hhash⟩]
      rcases run_inputWrites tx view txin.prevout with hz | hz
      · exact hz
      · rw [hz, hnone]
    · rw [List.mem_singleton.mp ht] at htcb htxin
      obtain ⟨coin, hcoin⟩ := Option.isSome_iff_exists.mp ((hf.inputs htcb).2 txin htxin)
      obtain ⟨-, t', ht', hhash⟩ := h.coins _ _ hcoin
      exact ⟨by rw [hold ⟨t', ht', hhash⟩, run_inputWrites_input htcb view htxin], t', hleft ht', hhash⟩
  · rcases List.mem_append.mp ht with ht | ht
    · obtain ⟨k, hk, hscript⟩ := h.coinbases t ht htcb
      exact ⟨k, hk.trans hn, hscript⟩
    · rw [List.mem_singleton.mp ht] at htcb ⊢
      exact hcb htcb

/-- The transactions of a block with their undo data take the coins from `view` to `view'`. -/
inductive ConnectedTxs (ids : Uint256 → CTransaction) (nHeight : Nat) :
    List CTransaction → CoinsView → List (CTransaction × Option (List Coin)) → CoinsView → Prop
  | nil (txs : List CTransaction) (view : CoinsView) : ConnectedTxs ids nHeight txs view [] view
  | cons {txs : List CTransaction} {view view' entry entries m} (hhistory : TxHistory ids m txs view)
      (hundo : TxUndo view entry) (hkept : KeptEntry entry)
      (h : ConnectedTxs ids nHeight (txs ++ [entry.1]) (run (txWrites entry.1 nHeight) view) entries view') :
      ConnectedTxs ids nHeight txs view (entry :: entries) view'

namespace ConnectedTxs

variable {nHeight : Nat} {view' : CoinsView} {entries : List (CTransaction × Option (List Coin))}

theorem run (h : ConnectedTxs ids nHeight txs view entries view') :
    view' = Writes.run (entries.flatMap fun entry => txWrites entry.1 nHeight) view := by
  induction h with
  | nil => rfl
  | cons _ _ _ _ ih => rw [ih, List.flatMap_cons, run_append]

theorem undoes (h : ConnectedTxs ids nHeight txs view entries view') :
    Undoes (entries.reverse.flatMap txUndoWrites) (entries.flatMap fun entry => txWrites entry.1 nHeight) view := by
  induction h with
  | nil => exact .nil _
  | cons _ hundo _ _ ih =>
    rw [List.reverse_cons, List.flatMap_append, List.flatMap_cons, List.flatMap_cons, List.flatMap_nil, List.append_nil]
    exact (hundo.undoes nHeight).append ih

theorem kept (h : ConnectedTxs ids nHeight txs view entries view') : ∀ entry ∈ entries, KeptEntry entry := by
  induction h with
  | nil => simp
  | cons _ _ hkept _ ih => exact List.forall_mem_cons.mpr ⟨hkept, ih⟩

end ConnectedTxs

theorem connectTx_history {st st' m} (hhistory : TxHistory ids n txs st.view) (hname : ids tx.hash = tx)
    (hcheck : E.checkTransaction flags tx = .ok ())
    (hcoinbase : tx.isCoinBase = true → (∀ h ≤ n, ¬ heightScript h <+: coinbaseScript tx) ∧ ∃ h ≤ m, heightScript h <+: coinbaseScript tx)
    (hn : n ≤ m) (hheight : block.nHeight ≠ 0) (h : connectTx E S R mempool block st tx = .ok st') :
    ∃ coins, st'.undo.vtxundo = (if tx.isCoinBase then st.undo.vtxundo else st.undo.vtxundo ++ [coins]) ∧
      st'.view = run (txWrites tx block.nHeight) st.view ∧
      TxUndo st.view (tx, if tx.isCoinBase then none else some coins) ∧
      KeptEntry (tx, if tx.isCoinBase then none else some coins) ∧ TxHistory ids m (txs ++ [tx]) st'.view := by
  obtain ⟨nFees, r, -, -, -, hr, rfl⟩ := connectTx_ok h
  have hrun := updateCoins_run hr
  have hvin : tx.vin ≠ [] := by
    simp only [Env.checkTransaction, ok_iff, bne_iff_ne] at hcheck
    exact hcheck.1
  have hmap := updateCoins_prevouts hr
  have hfollows : TxFollows ids n st.view tx := by
    refine ⟨hname, fun hcb => (hcoinbase hcb).1, fun hcb => ⟨hvin, fun txin htxin => ?_⟩⟩
    obtain ⟨coin, -, hcoin⟩ := List.mem_map.mp (hmap hcb ▸ List.mem_map_of_mem htxin)
    rw [← hcoin]
    rfl
  have hfresh := hhistory.fresh hfollows
  refine ⟨r.vprevout, rfl, hrun, ⟨fun k => ?_, ?_, ?_⟩, ?_, ?_⟩
  · refine Option.eq_none_iff_forall_ne_some.mpr fun coin hcoin => ?_
    obtain ⟨-, t, ht, hhash⟩ := hhistory.coins _ _ hcoin
    exact hfresh t ht hhash
  · cases tx.isCoinBase <;> simp
  · intro coins hcoins
    cases hcb : tx.isCoinBase with
    | true => simp [hcb] at hcoins
    | false =>
      simp only [hcb, test_iff, Option.some.injEq] at hcoins
      rw [← hcoins]
      exact hmap hcb
  · intro coins hcoins
    cases hcb : tx.isCoinBase with
    | true => simp [hcb] at hcoins
    | false =>
      simp only [hcb, test_iff, Option.some.injEq] at hcoins
      rw [← hcoins]
      refine ⟨by simpa using congrArg List.length (hmap hcb), fun coin hcoin => ?_⟩
      obtain ⟨txin, -, hthere⟩ := List.mem_map.mp (hmap hcb ▸ List.mem_map_of_mem hcoin)
      exact (hhistory.coins _ _ hthere).1
  · rw [hrun]
    exact hhistory.add hfollows hn hheight fun hcb => (hcoinbase hcb).2

theorem connectTxs_history {vtx st st'} (hhistory : TxHistory ids n txs st.view)
    (hname : ∀ tx ∈ vtx, ids tx.hash = tx) (hcheck : ∀ tx ∈ vtx, E.checkTransaction flags tx = .ok ())
    (hcb : ∀ tx ∈ vtx, tx.isCoinBase = false) (hheight : block.nHeight ≠ 0)
    (h : vtx.foldlM (connectTx E S R mempool block) st = .ok st') :
    ∃ coins : List (List Coin), st'.undo.vtxundo = st.undo.vtxundo ++ coins ∧ coins.length = vtx.length ∧
      ConnectedTxs ids block.nHeight txs st.view (vtx.zip (coins.map some)) st'.view ∧ TxHistory ids n (txs ++ vtx) st'.view := by
  induction vtx generalizing st txs with
  | nil =>
    cases h
    exact ⟨[], by simp, rfl, .nil _ _, by simpa using hhistory⟩
  | cons tx vtx ih =>
    obtain ⟨st1, h1, h2⟩ := foldlM_cons_ok.mp h
    have htx := hcb tx List.mem_cons_self
    obtain ⟨coins, hundo, hview, htxundo, hkept, hhistory1⟩ := connectTx_history hhistory (hname tx List.mem_cons_self)
      (hcheck tx List.mem_cons_self) (fun hcb => by rw [htx] at hcb; cases hcb) le_rfl hheight h1
    obtain ⟨rest, hrest, hlen, hconnected, hhistory2⟩ := ih hhistory1 (fun t ht => hname t (List.mem_cons_of_mem _ ht))
      (fun t ht => hcheck t (List.mem_cons_of_mem _ ht)) (fun t ht => hcb t (List.mem_cons_of_mem _ ht)) h2
    simp only [htx, test_iff] at hundo htxundo hkept
    refine ⟨coins :: rest, by rw [hrest, hundo, List.append_assoc]; rfl, by rw [List.length_cons, hlen, List.length_cons],
      ?_, by simpa using hhistory2⟩
    exact .cons hhistory htxundo hkept (hview ▸ hconnected)

def undoEntries (block : CBlock) (undo : CBlockUndo) : List (CTransaction × Option (List Coin)) :=
  block.vtx.zip (none :: undo.vtxundo.map some)

theorem checkTransaction_coinbaseScript (h : E.checkTransaction flags tx = .ok ()) (hcb : tx.isCoinBase = true) : (coinbaseScript tx).length ≤ 100 := by
  simp only [Env.checkTransaction, Env.checkCoinbaseOrPrevouts, hcb, test_iff, ok_iff] at h
  obtain ⟨-, -, -, scan, -, -, -, -, ⟨⟨-, hlen⟩, -⟩, -⟩ := h
  exact hlen

theorem connectBlock_history {assets cs} (hhistory : TxHistory ids n txs view)
    (hname : ∀ tx ∈ block.vtx, ids tx.hash = tx) (hheight : block.nHeight = n + 1)
    (hcoinbase : checkCoinbaseHeight block = true) (h : connectBlock E S R mempool view assets block = .ok cs) :
    cs.undo.vtxundo.length + 1 = block.vtx.length ∧
      ConnectedTxs ids block.nHeight txs view (undoEntries block cs.undo) cs.view ∧
      TxHistory ids (n + 1) (txs ++ block.vtx) cs.view := by
  obtain ⟨coinbase, vtx, cs0, hvtx, hfirst, hrest, hcheck, h0, hloop, -⟩ := connectBlock_ok h
  have hmem : coinbase ∈ block.vtx := hvtx ▸ List.mem_cons_self
  have hmem' : ∀ tx ∈ vtx, tx ∈ block.vtx := fun tx htx => hvtx ▸ List.mem_cons_of_mem _ htx
  have hscript : heightScript (n + 1) <+: coinbaseScript coinbase := by
    rw [checkCoinbaseHeight, hvtx, List.map_cons, List.headD_cons, hheight] at hcoinbase
    exact List.isPrefixOf_iff_prefix.mp hcoinbase
  have hlen := checkTransaction_coinbaseScript (hcheck coinbase hmem) hfirst
  have hpos : block.nHeight ≠ 0 := by omega
  obtain ⟨coins, hundo0, hview0, htxundo, hkept, hhistory0⟩ := connectTx_history (m := n + 1) hhistory (hname coinbase hmem)
    (hcheck coinbase hmem) (fun _ => ⟨fun h hle hh => by have := heightScript_inj hlen hh hscript; omega, n + 1, le_rfl, hscript⟩)
    (by omega) hpos h0
  obtain ⟨rest, hundo, hlength, hconnected, hhistory'⟩ := connectTxs_history hhistory0 (fun tx htx => hname tx (hmem' tx htx))
    (fun tx htx => hcheck tx (hmem' tx htx)) hrest hpos hloop
  simp only [hfirst, if_true, List.nil_append] at hundo0 htxundo hkept
  rw [hundo0, List.nil_append] at hundo
  refine ⟨by rw [hundo, hlength, hvtx, List.length_cons], ?_, by rw [hvtx]; simpa using hhistory'⟩
  rw [undoEntries, hvtx, hundo, List.zip_cons_cons]
  exact .cons hhistory htxundo hkept (hview0 ▸ hconnected)

end Hivecoin

import Hivecoin.Chain.AddressIndex
import Hivecoin.Chain.Lemmas.TxHistory

/-!
# The index entries of a block
-/

namespace Hivecoin

open Outcome Writes CAssetsCache Option

variable {E : Env} {S : Store} {R : Rules} {O : IndexOptions} {mempool : MempoolMaps} {ids : Uint256 → CTransaction}
  {nHeight : Nat} {txs : List CTransaction} {view view' : CoinsView}
variable {block : CBlock} {assets : CAssetsCache}

namespace Indexes

variable (db : Indexes) (es : IndexEntries)

theorem connect_addressIndex (h : O.fAddressIndex = true) :
    (db.connect O es).addressIndex.get? = run (es.addressIndex.map fun e => (e.1, some e.2)) db.addressIndex.get? := by
  rw [← get?_putAll, connect, if_pos h]
  split <;> rfl

theorem connect_addressUnspentIndex (h : O.fAddressIndex = true) :
    (db.connect O es).addressUnspentIndex.get? =
      run (es.addressUnspentIndex.map fun e => (e.1, if e.2.isNull then none else some e.2)) db.addressUnspentIndex.get? := by
  rw [← get?_putAll, connect, if_pos h]
  split <;> rfl

theorem connect_spentIndex (h : O.fSpentIndex = true) :
    (db.connect O es).spentIndex.get? =
      run (es.spentIndex.map fun e => (e.1, if e.2.isNull then none else some e.2)) db.spentIndex.get? := by
  rw [← get?_putAll, connect, if_pos h]
  split <;> rfl

theorem disconnect_addressIndex (h : O.fAddressIndex = true) :
    (db.disconnect O es).addressIndex.get? = run (es.addressIndex.map fun e => (e.1, none)) db.addressIndex.get? := by
  rw [← get?_putAll, disconnect, if_pos h]
  rfl

theorem disconnect_addressUnspentIndex (h : O.fAddressIndex = true) :
    (db.disconnect O es).addressUnspentIndex.get? =
      run (es.addressUnspentIndex.map fun e => (e.1, if e.2.isNull then none else some e.2)) db.addressUnspentIndex.get? := by
  rw [← get?_putAll, disconnect, if_pos h]
  rfl

theorem disconnect_spentIndex : (db.disconnect O es).spentIndex = db.spentIndex := by
  unfold disconnect
  split <;> rfl

end Indexes

namespace IndexEntries

theorem eq_of_lists {a b : IndexEntries} (h1 : a.addressIndex = b.addressIndex)
    (h2 : a.addressUnspentIndex = b.addressUnspentIndex) (h3 : a.spentIndex = b.spentIndex) : a = b := by
  cases a
  cases b
  simp_all

theorem append_assoc (a b c : IndexEntries) : a ++ b ++ c = a ++ (b ++ c) :=
  eq_of_lists (List.append_assoc ..) (List.append_assoc ..) (List.append_assoc ..)

theorem append_empty (a : IndexEntries) : a ++ (∅ : IndexEntries) = a :=
  eq_of_lists (List.append_nil _) (List.append_nil _) (List.append_nil _)

end IndexEntries

open IndexEntries

variable (l : List IndexEntries)

theorem foldl_append_eq (a : IndexEntries) : l.foldl (· ++ ·) a = a ++ collect l := by
  induction l generalizing a with
  | nil => exact (append_empty a).symm
  | cons x l ih =>
    rw [collect, List.foldl_cons, List.foldl_cons, ih, ih (∅ ++ x), append_assoc]
    rfl

theorem collect_cons (x : IndexEntries) (l : List IndexEntries) : collect (x :: l) = x ++ collect l :=
  foldl_append_eq l (∅ ++ x)

theorem collect_addressIndex : (collect l).addressIndex = l.flatMap IndexEntries.addressIndex := by
  induction l with
  | nil => rfl
  | cons x l ih => rw [collect_cons, List.flatMap_cons, ← ih]; rfl

theorem collect_addressUnspentIndex :
    (collect l).addressUnspentIndex = l.flatMap IndexEntries.addressUnspentIndex := by
  induction l with
  | nil => rfl
  | cons x l ih => rw [collect_cons, List.flatMap_cons, ← ih]; rfl

theorem collect_spentIndex : (collect l).spentIndex = l.flatMap IndexEntries.spentIndex := by
  induction l with
  | nil => rfl
  | cons x l ih => rw [collect_cons, List.flatMap_cons, ← ih]; rfl

theorem foldlM_collect {σ α β : Type} {f : σ × IndexEntries → α → Option (σ × IndexEntries)} {g : σ → β → Option σ} {π : α → β}
    {entries : α → IndexEntries} {l : List α} (h : ∀ st, ∀ x ∈ l, f st x = (g st.1 (π x)).map fun s => (s, st.2 ++ entries x))
    (st : σ × IndexEntries) :
    l.foldlM f st = ((l.map π).foldlM g st.1).map fun s => (s, st.2 ++ collect (l.map entries)) := by
  induction l generalizing st with
  | nil => exact congrArg some (congrArg (Prod.mk st.1) (append_empty st.2).symm)
  | cons x l ih =>
    rw [List.foldlM_cons, h st x List.mem_cons_self]
    simp only [List.map_cons, List.foldlM_cons, collect_cons]
    cases g st.1 (π x) with
    | none => rfl
    | some s =>
      rw [map_some, bind_eq_bind, bind_some, ih fun st y hy => h st y (List.mem_cons_of_mem _ hy),
        bind_eq_bind, bind_some]
      simp only [append_assoc]

def redoEntries (E : Env) (O : IndexOptions) (nHeight : Nat) (x : (CTransaction × Option (List Coin)) × Nat) : IndexEntries :=
  collect ((x.1.1.vin.zip (x.1.2.getD [])).zipIdx.map fun p => inputEntries E O nHeight x.2 x.1.1 p.1.2.out (p.1.1, p.2)) ++
    collect (x.1.1.vout.zipIdx.map (outputEntries E O nHeight x.2 x.1.1))

theorem zipIdx_map_prevouts {vin : List CTxIn} {coins : List Coin} (h : coins.map some = vin.map fun txin => view txin.prevout)
    (f : CTxOut → CTxIn × Nat → IndexEntries) (n : Nat) :
    ((vin.zipIdx n).map fun input => f (Env.accessOut view input.1.prevout) input) =
      ((vin.zip coins).zipIdx n).map fun p => f p.1.2.out (p.1.1, p.2) := by
  induction vin generalizing coins n with
  | nil => rfl
  | cons txin vin ih =>
    cases coins with
    | nil => cases h
    | cons coin coins =>
      rw [List.map_cons, List.map_cons, List.cons.injEq] at h
      rw [List.zipIdx_cons, List.zip_cons_cons, List.zipIdx_cons, List.map_cons, List.map_cons, ih h.2, Env.accessOut, ← h.1]
      rfl

theorem connectEntries_eq {entry : CTransaction × Option (List Coin)} (h : TxUndo view entry) (i : Nat) :
    connectEntries E O nHeight view (entry.1, i) = redoEntries E O nHeight (entry, i) := by
  obtain ⟨tx, txundo⟩ := entry
  cases txundo with
  | none =>
    have hcb : tx.isCoinBase = true := h.coinbase.mp rfl
    rw [connectEntries, redoEntries]
    dsimp only
    rw [hcb, if_pos rfl, getD_none, List.zip_nil_right]
    rfl
  | some coins =>
    have hcb : tx.isCoinBase = false := Bool.eq_false_iff.mpr fun hcb => by cases h.coinbase.mpr hcb
    rw [connectEntries, redoEntries]
    dsimp only
    rw [hcb, if_neg Bool.false_ne_true, getD_some, zipIdx_map_prevouts (h.coins coins rfl)]

theorem connectTxIndexed_ok {st st' x} :
    connectTxIndexed E S R O mempool block st x = .ok st' ↔
      connectTx E S R mempool block st.1 x.1 = .ok st'.1 ∧ st'.2 = st.2 ++ connectEntries E O block.nHeight st.1.view x := by
  obtain ⟨cs, es⟩ := st'
  simp only [connectTxIndexed, ok_iff, Prod.mk.injEq]
  constructor
  · rintro ⟨_, h, rfl, rfl⟩
    exact ⟨h, rfl⟩
  · rintro ⟨h, rfl⟩
    exact ⟨cs, h, rfl, rfl⟩

theorem connectTxsIndexed_fst {vtx : List CTransaction} {n} {st st' : ConnectState × IndexEntries}
    (h : (vtx.zipIdx n).foldlM (connectTxIndexed E S R O mempool block) st = .ok st') :
    vtx.foldlM (connectTx E S R mempool block) st.1 = .ok st'.1 := by
  induction vtx generalizing st n with
  | nil =>
    rw [List.zipIdx_nil, List.foldlM_nil, pure_eq_ok] at h
    rw [h]
    rfl
  | cons tx vtx ih =>
    rw [List.zipIdx_cons, List.foldlM_cons, bind_eq_ok] at h
    obtain ⟨st1, h1, h2⟩ := h
    rw [List.foldlM_cons, (connectTxIndexed_ok.mp h1).1]
    exact ih h2

theorem connectTxsIndexed_snd {block entries n st st'} (hsteps : ConnectedTxs ids block.nHeight txs st.1.view entries view')
    (h : ((entries.map Prod.fst).zipIdx n).foldlM (connectTxIndexed E S R O mempool block) st = .ok st') :
    st'.2 = st.2 ++ collect ((entries.zipIdx n).map (redoEntries E O block.nHeight)) := by
  induction entries generalizing st n txs with
  | nil =>
    rw [List.map_nil, List.zipIdx_nil, List.foldlM_nil, pure_eq_ok] at h
    rw [h]
    exact (append_empty _).symm
  | cons entry entries ih =>
    rw [List.map_cons, List.zipIdx_cons, List.foldlM_cons, bind_eq_ok] at h
    obtain ⟨st1, h1, h2⟩ := h
    obtain ⟨htx, hes⟩ := connectTxIndexed_ok.mp h1
    obtain ⟨nFees, r, -, -, -, hr, hst⟩ := connectTx_ok htx
    cases hsteps with
    | cons hhistory hundo hkept hrest =>
      have hview : st1.1.view = run (txWrites entry.1 block.nHeight) st.1.view := by
        rw [hst]
        exact updateCoins_run hr
      rw [ih (hview ▸ hrest) h2, hes, connectEntries_eq hundo, List.zipIdx_cons, List.map_cons, collect_cons, append_assoc]

theorem connectBlockIndexed_ok {db : Indexes} {r : ConnectState × Indexes} :
    connectBlockIndexed E S R O mempool view assets db block = .ok r ↔
      connectBlock E S R mempool view assets block = .ok r.1 ∧ ∃ es,
        block.vtx.zipIdx.foldlM (connectTxIndexed E S R O mempool block) (⟨view, assets, 0, ⟨[], []⟩⟩, ∅) = .ok (r.1, es) ∧
        r.2 = db.connect O es := by
  obtain ⟨cs, db'⟩ := r
  simp only [connectBlockIndexed, connectBlock, connectTxs, ok_iff, Prod.mk.injEq]
  constructor
  · rintro ⟨hcheck, ⟨cs', es⟩, hloop, hreward, rfl, rfl⟩
    exact ⟨⟨hcheck, cs', connectTxsIndexed_fst hloop, hreward, rfl⟩, es, hloop, rfl⟩
  · rintro ⟨⟨hcheck, cs', -, hreward, rfl⟩, es, hloop, rfl⟩
    exact ⟨hcheck, (cs', es), hloop, hreward, rfl, rfl⟩

theorem map_fst_undoEntries {undo} (h : undo.vtxundo.length + 1 = block.vtx.length) :
    (undoEntries block undo).map Prod.fst = block.vtx := by
  rw [undoEntries, List.map_fst_zip]
  simp [h]

theorem connectBlockIndexed_db {db r}
    (hlength : r.1.undo.vtxundo.length + 1 = block.vtx.length)
    (hsteps : ConnectedTxs ids block.nHeight txs view (undoEntries block r.1.undo) r.1.view)
    (h : connectBlockIndexed E S R O mempool view assets db block = .ok r) :
    r.2 = db.connect O (collect ((undoEntries block r.1.undo).zipIdx.map (redoEntries E O block.nHeight))) := by
  obtain ⟨-, es, hloop, hdb⟩ := connectBlockIndexed_ok.mp h
  rw [← map_fst_undoEntries hlength] at hloop
  have hes := @connectTxsIndexed_snd _ _ _ _ _ _ _ _ _ _ 0 (⟨view, assets, 0, ⟨[], []⟩⟩, ∅) _ hsteps hloop
  rw [hdb]
  exact congrArg _ hes

def undoTxEntries (E : Env) (O : IndexOptions) (nHeight : Nat) (x : (CTransaction × Option (List Coin)) × Nat) : IndexEntries :=
  collect (x.1.1.vout.zipIdx.reverse.map (undoOutputEntries E O nHeight x.2 x.1.1)) ++
    collect ((x.1.1.vin.zip (x.1.2.getD [])).zipIdx.reverse.map fun p =>
      undoInputEntries E O nHeight x.2 x.1.1 p.1.2.out p.1.2.nHeight (p.1.1, p.2))

theorem restoreInputIndexed_eq {i tx p} (hkept : p.1.2.Kept)
    (st : DisconnectState × IndexEntries) :
    restoreInputIndexed E S O nHeight i tx st p = (applyTxInUndo E S st.1 p.1.2 p.1.1.prevout).map fun ds =>
      (ds, st.2 ++ undoInputEntries E O nHeight i tx p.1.2.out p.1.2.nHeight (p.1.1, p.2)) := by
  obtain ⟨⟨txin, coin⟩, j⟩ := p
  have hcoin : restoredCoin st.1.view coin txin.prevout = some coin := if_neg hkept.1
  unfold restoreInputIndexed
  dsimp only
  cases h : applyTxInUndo E S st.1 coin txin.prevout with
  | none => rfl
  | some ds =>
    have hout : Env.accessOut ds.view txin.prevout = coin.out := by
      rw [Env.accessOut, applyTxInUndo_run hkept h, Function.update_self]
      rfl
    rw [bind_eq_bind, bind_some, hcoin, bind_eq_bind, bind_some, hout]
    rfl

theorem zipIdx_reverse_fst {α : Type} (l : List α) : l.zipIdx.reverse.map Prod.fst = l.reverse := by
  rw [List.map_reverse, List.zipIdx_map_fst]

theorem disconnectTxIndexed_eq {vUndo : List (Bytes × CBlockAssetUndo)} {x : (CTransaction × Option (List Coin)) × Nat}
    (hkept : KeptEntry x.1) (st : DisconnectState × IndexEntries) :
    disconnectTxIndexed E S O nHeight vUndo st x =
      (disconnectTx E S nHeight vUndo st.1 x.1).map fun ds => (ds, st.2 ++ undoTxEntries E O nHeight x) := by
  obtain ⟨⟨tx, txundo⟩, i⟩ := x
  unfold disconnectTxIndexed disconnectTx
  dsimp only
  cases removeAssets E S (tx.vout.zipIdx.foldl (removeOutCoin E S tx nHeight) st.1).assets tx vUndo with
  | none => rfl
  | some assets =>
    cases txundo with
    | none =>
      rw [undoTxEntries, getD_none, List.zip_nil_right]
      simp only [bind_eq_bind, bind_some, map_some, List.zipIdx_nil, List.reverse_nil, List.map_nil]
      exact congrArg some (congrArg (Prod.mk _) (congrArg (st.2 ++ ·) (append_empty _).symm))
    | some coins =>
      have hlength : coins.length = tx.vin.length := (hkept coins rfl).1
      have hcoins : ∀ p ∈ (tx.vin.zip coins).zipIdx.reverse, p.1.2.Kept := fun p hp =>
        (hkept coins rfl).2 _ (List.of_mem_zip (List.fst_mem_of_mem_zipIdx (List.mem_reverse.mp hp))).2
      simp only [bind_eq_bind, bind_some]
      have hloop := @foldlM_collect _ _ _ (restoreInputIndexed E S O nHeight i tx)
        (fun st p => applyTxInUndo E S st p.2 p.1.prevout) Prod.fst _ _ fun st p hp => restoreInputIndexed_eq (hcoins p hp) st
      rw [restoreInputsIndexed, restoreInputs, if_neg (not_not.mpr hlength), if_neg (not_not.mpr hlength), hloop,
        zipIdx_reverse_fst, undoTxEntries, getD_some]
      simp only [append_assoc]

theorem disconnectBlockIndexed_eq {db : Indexes} {undo : CBlockUndo} (hkept : ∀ entry ∈ undoEntries block undo, KeptEntry entry) :
    disconnectBlockIndexed E S O view assets db block undo =
      match disconnectBlock E S view assets block undo with
      | (.DISCONNECT_FAILED, view, assets) => (.DISCONNECT_FAILED, view, assets, db)
      | (result, view, assets) => (result, view, assets,
          db.disconnect O (collect ((undoEntries block undo).zipIdx.reverse.map (undoTxEntries E O block.nHeight)))) := by
  unfold disconnectBlockIndexed disconnectBlock
  split
  · rfl
  · have hkept' : ∀ x ∈ (undoEntries block undo).zipIdx.reverse, KeptEntry x.1 := fun x hx =>
      hkept x.1 (List.fst_mem_of_mem_zipIdx (List.mem_reverse.mp hx))
    dsimp only
    rw [← undoEntries, foldlM_collect fun st x hx => disconnectTxIndexed_eq (hkept' x hx) st, zipIdx_reverse_fst]
    cases (undoEntries block undo).reverse.foldlM (disconnectTx E S block.nHeight undo.vUndoAssetData) ⟨view, assets, assets, true⟩ with
    | none => rfl
    | some ds =>
      cases hclean : ds.fClean <;> simp only [map_some, hclean] <;> rfl

end Hivecoin

import Hivecoin.Base.SecondaryIndex
import Hivecoin.Chain.DecodableCoins
import Hivecoin.Chain.IndexUndo
import Hivecoin.Chain.Lemmas.ChainHistory

/-!
# The address-unspent index and the coins

The tests on scripts that write the index are not those of the coins view, and undoing forgets pay-to-pubkey coins.
-/

namespace Hivecoin

open Outcome Writes SecondaryIndex CAssetsCache Script Change Option

variable {E E' : Env} {R : Rules} {O : IndexOptions} {mempool : MempoolMaps} {ids : Uint256 → CTransaction}
  {chain : List (CBlock × CBlockUndo)} {nHeight : Nat} {txs : List CTransaction} {view view' : CoinsView} {coin : Coin}
  {entry : CTransaction × Option (List Coin)} {entries : List (CTransaction × Option (List Coin))}
variable {out : COutPoint} {node node' : IndexedNode} {block : CBlock} {undo : CBlockUndo}

def IndexedScript (script : Bytes) : Prop :=
  (isAssetScript script).isSome = true ∨ isPayToScriptHash script = true ∨
    isPayToPublicKeyHash script = true ∨ isPayToPublicKey script = true

/-- The record of an unspent coin, under the asset that it carries with the asset's amount, or under the coin of the chain. -/
def unspentRecord (hash160 : Bytes → Bytes) (out : COutPoint) (coin : Coin) : Option (CAddressUnspentKey × CAddressUnspentValue) :=
  let script := coin.out.scriptPubKey
  if (isAssetScript script).isSome then (carriedAsset script).map fun asset =>
    (⟨1, (script.drop 3).take 20, asset.1, out.hash, out.n⟩, ⟨asset.2, script, coin.nHeight⟩)
  else if isPayToScriptHash script then
    some (⟨2, (script.drop 2).take 20, HVN, out.hash, out.n⟩, ⟨coin.out.nValue, script, coin.nHeight⟩)
  else if isPayToPublicKeyHash script then
    some (⟨1, (script.drop 3).take 20, HVN, out.hash, out.n⟩, ⟨coin.out.nValue, script, coin.nHeight⟩)
  else if isPayToPublicKey script then
    some (⟨1, hash160 script.tail.dropLast, HVN, out.hash, out.n⟩, ⟨coin.out.nValue, script, coin.nHeight⟩)
  else none

theorem unspentRecord_out {hash160 r}
    (h : unspentRecord hash160 out coin = some r) : (⟨r.1.txhash, r.1.index⟩ : COutPoint) = out := by
  unfold unspentRecord at h
  dsimp only at h
  split at h
  · obtain ⟨asset, -, rfl⟩ := map_eq_some_iff.mp h
    rfl
  · repeat' split at h
    all_goals cases h <;> rfl

def unspentIndexing (hash160 : Bytes → Bytes) : Indexing COutPoint Coin CAddressUnspentKey CAddressUnspentValue where
  record := unspentRecord hash160
  pos key := ⟨key.txhash, key.index⟩
  pos_key h := unspentRecord_out h

/-- The index holds the records of the coins, and no coin of an indexed kind is without one. -/
structure UnspentIndexExact (hash160 : Bytes → Bytes) (db : Indexes) (view : CoinsView) : Prop where
  records : ∀ key value, db.addressUnspentIndex.get? key = some value ↔
    ∃ out coin, view out = some coin ∧ unspentRecord hash160 out coin = some (key, value)
  complete : ∀ out coin, view out = some coin → IndexedScript coin.out.scriptPubKey → (unspentRecord hash160 out coin).isSome = true

/-- A coin filed under its own kind, with a value that is not taken for a deletion. -/
structure Indexable (E : Env) (coin : Coin) : Prop where
  readable : CoinReadable E coin
  value : coin.out.nValue ≠ -1
  asset : (isAssetScript coin.out.scriptPubKey).isSome = true → E.areAssetsDeployed = true ∧
    isPayToPublicKey coin.out.scriptPubKey = false ∧ ∀ e ∈ carriedAsset coin.out.scriptPubKey, e.2 ≠ -1

/-- A later moment of the same node: deployments stay active. -/
structure Env.Later (E E' : Env) : Prop where
  hash160 : E'.hash160 = E.hash160
  assets : E.areAssetsDeployed = true → E'.areAssetsDeployed = true
  transfers : E.areTransferScriptsSizeDeployed = true → E'.areTransferScriptsSizeDeployed = true

theorem Indexable.later (h : Indexable E coin) (hE : E.Later E') : Indexable E' coin :=
  ⟨h.readable.later hE.transfers, h.value, fun hs => ⟨hE.assets (h.asset hs).1, (h.asset hs).2⟩⟩

theorem CoinReadable.carried (h : CoinReadable E coin) (hs : (isAssetScript coin.out.scriptPubKey).isSome = true) :
    ∃ data, E.getAssetData coin.out.scriptPubKey = some data ∧
      carriedAsset coin.out.scriptPubKey = some (data.assetName, data.nAmount) := by
  obtain ⟨e, he, -, hlength⟩ := h hs
  have hcarried := (assetOfCoin_cases he).resolve_right (by omega)
  obtain ⟨data, hdata, rfl⟩ := map_eq_some_iff.mp he
  exact ⟨data, hdata, hcarried⟩

theorem Indexable.record (h : Indexable E coin) (out : COutPoint) :
    (E.addressOfOut coin.out).map (fun address => (unspentKey address out, unspentValue address coin.out.scriptPubKey coin.nHeight)) =
      unspentRecord E.hash160 out coin := by
  cases hs : (isAssetScript coin.out.scriptPubKey).isSome with
  | true =>
    obtain ⟨hdeployed, hpubkey, -⟩ := h.asset hs
    obtain ⟨a, ha⟩ := isSome_iff_exists.mp hs
    obtain ⟨hscript, hkey⟩ := not_keyKinds_of_length (isAssetScript_marker ha).1
    obtain ⟨data, hdata, hcarried⟩ := h.readable.carried hs
    simp [Env.addressOfOut, unspentRecord, Env.parseAssetScript, hs, hscript, hkey, hpubkey, hdeployed, hdata, hcarried,
      unspentKey, unspentValue]
  | false =>
    have hnone : E.parseAssetScript coin.out.scriptPubKey = none := by
      rw [Env.parseAssetScript, getAssetData_eq_none (by simpa using hs)]
      rfl
    simp only [Env.addressOfOut, unspentRecord, hs, hnone, test_iff, map_none]
    repeat' split
    all_goals rfl

theorem Indexable.not_null (h : Indexable E coin) {hash160 r}
    (hr : unspentRecord hash160 out coin = some r) : r.2.isNull = false := by
  unfold unspentRecord at hr
  dsimp only at hr
  rw [CAddressUnspentValue.isNull, beq_eq_false_iff_ne]
  split at hr
  · rename_i hs
    obtain ⟨e, he, rfl⟩ := map_eq_some_iff.mp hr
    exact (h.asset hs).2.2 e he
  · repeat' split at hr
    all_goals cases hr <;> exact h.value

theorem addressOfOut_eq_none {out} (h : ¬ IndexedScript out.scriptPubKey) : E.addressOfOut out = none := by
  simp only [IndexedScript, not_or, Bool.not_eq_true] at h
  obtain ⟨hasset, hscript, hkey, hpubkey⟩ := h
  have hnone : E.parseAssetScript out.scriptPubKey = none := by
    rw [Env.parseAssetScript, getAssetData_eq_none (by simpa using hasset)]
    rfl
  simp [Env.addressOfOut, hscript, hkey, hpubkey, hnone]

theorem Indexable.complete (h : Indexable E coin) (hs : IndexedScript coin.out.scriptPubKey) (hash160 : Bytes → Bytes)
    (out : COutPoint) : (unspentRecord hash160 out coin).isSome = true := by
  unfold unspentRecord
  dsimp only
  split
  · rename_i hasset
    obtain ⟨data, -, hcarried⟩ := h.readable.carried hasset
    rw [hcarried]
    rfl
  · rename_i hasset
    rcases hs.resolve_left hasset with hs | hs | hs
    all_goals repeat' split
    all_goals rfl

/-! ## The entries of a transaction -/

/-- A transaction with its undo data that the index files as it should. -/
structure IndexableEntry (E : Env) (nHeight : Nat) (entry : CTransaction × Option (List Coin)) : Prop where
  nodup : (entry.1.vin.map (·.prevout)).Nodup
  spendable : ∀ out ∈ entry.1.vout, IndexedScript out.scriptPubKey → isUnspendable out.scriptPubKey = false
  outs : ∀ out ∈ entry.1.vout, Indexable E ⟨out, nHeight, entry.1.isCoinBase⟩
  coins : ∀ coin ∈ entry.2.getD [], Indexable E coin

theorem IndexableEntry.later (h : IndexableEntry E nHeight entry) (hE : E.Later E') : IndexableEntry E' nHeight entry :=
  ⟨h.nodup, h.spendable, fun out hout => (h.outs out hout).later hE, fun coin hcoin => (h.coins coin hcoin).later hE⟩

def txChanges (nHeight : Nat) (entry : CTransaction × Option (List Coin)) : List (Change COutPoint Coin) :=
  ((entry.1.vin.zip (entry.2.getD [])).map fun p => .remove p.1.prevout p.2) ++
    (spendableOuts entry.1).map fun out => .add ⟨entry.1.hash, out.2⟩ ⟨out.1, nHeight, entry.1.isCoinBase⟩

theorem map_fst_zip_undo (h : TxUndo view entry) :
    (entry.1.vin.zip (entry.2.getD [])).map Prod.fst = if entry.1.isCoinBase then [] else entry.1.vin := by
  obtain ⟨tx, txundo⟩ := entry
  cases txundo with
  | none =>
    rw [show tx.isCoinBase = true from h.coinbase.mp rfl, if_pos rfl, getD_none, List.zip_nil_right]
    rfl
  | some coins =>
    have hcb : tx.isCoinBase = false := Bool.eq_false_iff.mpr fun hcb => by cases h.coinbase.mpr hcb
    have hlength : coins.length = tx.vin.length := by simpa using congrArg List.length (h.coins coins rfl)
    rw [hcb, if_neg Bool.false_ne_true]
    exact List.map_fst_zip hlength.ge

theorem mem_zip_undo (h : TxUndo view entry) {p} (hp : p ∈ entry.1.vin.zip (entry.2.getD [])) :
    view p.1.prevout = some p.2 := by
  obtain ⟨tx, txundo⟩ := entry
  cases txundo with
  | none => simp at hp
  | some coins =>
    obtain ⟨i, hi⟩ := List.getElem?_of_mem hp
    rw [getD_some, List.getElem?_zip_eq_some] at hi
    have hcoin := congrArg (·[i]?) (h.coins coins rfl)
    simp only [List.getElem?_map, hi.1, hi.2, map_some, some.injEq] at hcoin
    exact hcoin.symm

theorem inputWrites_undo (h : TxUndo view entry) :
    ((entry.1.vin.zip (entry.2.getD [])).map fun p => remove p.1.prevout p.2).map write = inputWrites entry.1 := by
  have hfst : ((entry.1.vin.zip (entry.2.getD [])).map Prod.fst).map (fun txin => ((txin.prevout, none) : COutPoint × Option Coin)) =
      inputWrites entry.1 := by
    rw [map_fst_zip_undo h, inputWrites]
    split <;> rfl
  rw [List.map_map] at hfst ⊢
  exact hfst

theorem txChanges_write (h : TxUndo view entry) : (txChanges nHeight entry).map write = txWrites entry.1 nHeight := by
  rw [txChanges, txWrites, List.map_append, inputWrites_undo h, outputWrites, List.map_map]
  rfl

theorem txChanges_valid (h : TxUndo view entry) (hnodup : (entry.1.vin.map (·.prevout)).Nodup) :
    ValidRun view (txChanges nHeight entry) := by
  rw [txChanges, validRun_append, inputWrites_undo h]
  constructor
  · refine validRun_map (fun p hp => mem_zip_undo h hp) ?_
    have hfst : List.Sublist (((entry.1.vin.zip (entry.2.getD [])).map Prod.fst).map (·.prevout)) (entry.1.vin.map (·.prevout)) := by
      refine List.Sublist.map _ ?_
      rw [map_fst_zip_undo h]
      split
      · exact List.nil_sublist _
      · exact List.Sublist.refl _
    rw [List.map_map] at hfst
    exact hnodup.sublist hfst
  · refine validRun_map (fun out _ => ?_) ?_
    · rcases run_inputWrites entry.1 view ⟨entry.1.hash, out.2⟩ with hnone | hsame
      · exact hnone
      · exact hsame.trans (h.fresh _)
    · have hpositions : ((spendableOuts entry.1).map Prod.snd).Nodup := by
        refine List.Nodup.sublist (List.Sublist.map _ List.filter_sublist) ?_
        rw [List.zipIdx_map_snd]
        exact List.nodup_range'
      have hout := hpositions.map (f := fun n => (⟨entry.1.hash, n⟩ : COutPoint)) fun a b hab => congrArg COutPoint.n hab
      rwa [List.map_map] at hout

def unspentWrites (es : IndexEntries) : List (CAddressUnspentKey × Option CAddressUnspentValue) :=
  es.addressUnspentIndex.map fun e => (e.1, if e.2.isNull then none else some e.2)

theorem unspentWrites_append (a b : IndexEntries) : unspentWrites (a ++ b) = unspentWrites a ++ unspentWrites b := List.map_append

theorem unspentWrites_collect (l : List IndexEntries) : unspentWrites (collect l) = l.flatMap unspentWrites := by
  rw [unspentWrites, collect_addressUnspentIndex, List.map_flatMap]
  rfl

theorem flatMap_filter {α β : Type} {p : α → Bool} {f : α → List β} {l : List α} (h : ∀ x ∈ l, p x = false → f x = []) :
    (l.filter p).flatMap f = l.flatMap f := by
  induction l with
  | nil => rfl
  | cons x l ih =>
    have hl := ih fun y hy => h y (List.mem_cons_of_mem _ hy)
    cases hx : p x with
    | true => rw [List.filter_cons_of_pos hx, List.flatMap_cons, List.flatMap_cons, hl]
    | false =>
      rw [List.filter_cons_of_neg (by simp [hx]), List.flatMap_cons, h x List.mem_cons_self hx, List.nil_append, hl]

theorem Indexable.addWrites (h : Indexable E coin) {es} (out : COutPoint)
    (hes : es.addressUnspentIndex = (E.addressOfOut coin.out).toList.map fun address =>
      (unspentKey address out, unspentValue address coin.out.scriptPubKey coin.nHeight)) :
    unspentWrites es = (add out coin).recordWrites (unspentIndexing E.hash160) := by
  have hrecord := h.record out
  rw [recordWrites, unspentWrites, hes]
  dsimp only [unspentIndexing]
  rw [← hrecord]
  cases ha : E.addressOfOut coin.out with
  | none => rfl
  | some address =>
    rw [ha, map_some] at hrecord
    simp [h.not_null hrecord.symm]

theorem Indexable.removeWrites (h : Indexable E coin) {es} (out : COutPoint)
    (hes : es.addressUnspentIndex = (E.addressOfOut coin.out).toList.map fun address => (unspentKey address out, .null)) :
    unspentWrites es = (remove out coin).recordWrites (unspentIndexing E.hash160) := by
  rw [recordWrites, unspentWrites, hes]
  dsimp only [unspentIndexing]
  rw [← h.record out]
  cases E.addressOfOut coin.out <;> rfl

section

variable (hO : O.fAddressIndex = true)

include hO

theorem Indexable.outputWrites (h : Indexable E coin) (tx : CTransaction) (i k : Nat) :
    unspentWrites (outputEntries E O coin.nHeight i tx (coin.out, k)) =
      (add ⟨tx.hash, k⟩ coin).recordWrites (unspentIndexing E.hash160) :=
  h.addWrites _ (if_pos hO)

theorem Indexable.undoOutputWrites (h : Indexable E coin) (tx : CTransaction) (i k : Nat) :
    unspentWrites (undoOutputEntries E O coin.nHeight i tx (coin.out, k)) =
      (remove ⟨tx.hash, k⟩ coin).recordWrites (unspentIndexing E.hash160) :=
  h.removeWrites _ (if_pos hO)

theorem Indexable.inputWrites (h : Indexable E coin) (tx : CTransaction) (nHeight i : Nat) (input : CTxIn × Nat) :
    unspentWrites (inputEntries E O nHeight i tx coin.out input) =
      (remove input.1.prevout coin).recordWrites (unspentIndexing E.hash160) :=
  h.removeWrites _ (if_pos hO)

theorem Indexable.undoInputWrites (h : Indexable E coin) (hpubkey : isPayToPublicKey coin.out.scriptPubKey = false)
    (tx : CTransaction) (nHeight i : Nat) (input : CTxIn × Nat) :
    unspentWrites (undoInputEntries E O nHeight i tx coin.out coin.nHeight input) =
      (add input.1.prevout coin).recordWrites (unspentIndexing E.hash160) :=
  h.addWrites _ ((if_pos hO).trans (if_neg (by rw [hpubkey]; exact Bool.false_ne_true)))

omit hO in
theorem IndexableEntry.unspendable (h : IndexableEntry E nHeight entry) {out} (hout : out ∈ entry.1.vout.zipIdx)
    (hunspendable : (!isUnspendable out.1.scriptPubKey) = false) : E.addressOfOut out.1 = none := by
  refine addressOfOut_eq_none fun hs => ?_
  rw [h.spendable out.1 (List.fst_mem_of_mem_zipIdx hout) hs] at hunspendable
  cases hunspendable

omit hO in
theorem mem_zip_indexable (h : IndexableEntry E nHeight entry) {p}
    (hp : p ∈ (entry.1.vin.zip (entry.2.getD [])).zipIdx) : Indexable E p.1.2 :=
  h.coins _ (List.of_mem_zip (List.fst_mem_of_mem_zipIdx hp)).2

theorem redoEntries_writes (h : IndexableEntry E nHeight entry) (i : Nat) :
    unspentWrites (redoEntries E O nHeight (entry, i)) =
      (txChanges nHeight entry).flatMap (recordWrites (unspentIndexing E.hash160)) := by
  rw [redoEntries, unspentWrites_append, unspentWrites_collect, unspentWrites_collect, txChanges, List.flatMap_append,
    List.flatMap_map, List.flatMap_map, List.flatMap_map, List.flatMap_map]
  congr 1
  · rw [List.flatMap_congr fun p hp => (mem_zip_indexable h hp).inputWrites hO entry.1 nHeight i (p.1.1, p.2)]
    conv_rhs => rw [← List.zipIdx_map_fst 0 (entry.1.vin.zip (entry.2.getD [])), List.flatMap_map]
  · have houts : ∀ out ∈ entry.1.vout.zipIdx, unspentWrites (outputEntries E O nHeight i entry.1 out) =
        (add ⟨entry.1.hash, out.2⟩ ⟨out.1, nHeight, entry.1.isCoinBase⟩).recordWrites (unspentIndexing E.hash160) :=
      fun out hout => (h.outs out.1 (List.fst_mem_of_mem_zipIdx hout)).outputWrites hO entry.1 i out.2
    rw [List.flatMap_congr houts, spendableOuts, flatMap_filter fun out hout hun => ?_]
    rw [← houts out hout, unspentWrites, outputEntries, h.unspendable hout hun]
    dsimp only
    rw [if_pos hO]
    rfl

/-- The entries of a transaction that is undone are the records of the inverse changes. -/
theorem undoTxEntries_writes (h : IndexableEntry E nHeight entry)
    (hpubkey : ∀ coin ∈ entry.2.getD [], isPayToPublicKey coin.out.scriptPubKey = false) (i : Nat) :
    unspentWrites (undoTxEntries E O nHeight (entry, i)) =
      ((txChanges nHeight entry).reverse.map inverse).flatMap (recordWrites (unspentIndexing E.hash160)) := by
  rw [undoTxEntries, unspentWrites_append, unspentWrites_collect, unspentWrites_collect, txChanges, List.reverse_append,
    List.map_append, List.flatMap_append, ← List.map_reverse, ← List.map_reverse, List.flatMap_map, List.flatMap_map,
    List.flatMap_map, List.flatMap_map, List.flatMap_map, List.flatMap_map]
  congr 1
  · have houts : ∀ out ∈ entry.1.vout.zipIdx.reverse, unspentWrites (undoOutputEntries E O nHeight i entry.1 out) =
        (remove ⟨entry.1.hash, out.2⟩ ⟨out.1, nHeight, entry.1.isCoinBase⟩).recordWrites (unspentIndexing E.hash160) :=
      fun out hout => (h.outs out.1 (List.fst_mem_of_mem_zipIdx (List.mem_reverse.mp hout))).undoOutputWrites hO entry.1 i out.2
    rw [List.flatMap_congr houts, spendableOuts, ← List.filter_reverse]
    refine (flatMap_filter fun out hout hun => ?_).symm
    rw [← houts out hout, unspentWrites, undoOutputEntries, h.unspendable (List.mem_reverse.mp hout) hun]
    dsimp only
    rw [if_pos hO]
    rfl
  · have hins : ∀ p ∈ (entry.1.vin.zip (entry.2.getD [])).zipIdx.reverse,
        unspentWrites (undoInputEntries E O nHeight i entry.1 p.1.2.out p.1.2.nHeight (p.1.1, p.2)) =
          (add p.1.1.prevout p.1.2).recordWrites (unspentIndexing E.hash160) := fun p hp =>
      (mem_zip_indexable h (List.mem_reverse.mp hp)).undoInputWrites hO
        (hpubkey _ (List.of_mem_zip (List.fst_mem_of_mem_zipIdx (List.mem_reverse.mp hp))).2) entry.1 nHeight i (p.1.1, p.2)
    rw [List.flatMap_congr hins]
    conv_rhs => rw [← zipIdx_reverse_fst, List.flatMap_map]
    rfl

end

def blockChanges (nHeight : Nat) (entries : List (CTransaction × Option (List Coin))) : List (Change COutPoint Coin) :=
  entries.flatMap (txChanges nHeight)

theorem ConnectedTxs.valid (h : ConnectedTxs ids nHeight txs view entries view')
    (hnodup : ∀ entry ∈ entries, (entry.1.vin.map (·.prevout)).Nodup) :
    ValidRun view (blockChanges nHeight entries) ∧ Writes.run ((blockChanges nHeight entries).map write) view = view' := by
  induction h with
  | nil => exact ⟨trivial, rfl⟩
  | cons hhistory hundo hkept h ih =>
    obtain ⟨hvalid, hrun⟩ := ih fun entry hentry => hnodup entry (List.mem_cons_of_mem _ hentry)
    constructor
    · rw [blockChanges, List.flatMap_cons, validRun_append, txChanges_write hundo]
      exact ⟨txChanges_valid hundo (hnodup _ List.mem_cons_self), hvalid⟩
    · rw [blockChanges, List.flatMap_cons, List.map_append, run_append, txChanges_write hundo]
      exact hrun

theorem blockEntries_writes (hO : O.fAddressIndex = true) (h : ∀ entry ∈ entries, IndexableEntry E nHeight entry) :
    unspentWrites (collect (entries.zipIdx.map (redoEntries E O nHeight))) =
      (blockChanges nHeight entries).flatMap (recordWrites (unspentIndexing E.hash160)) := by
  rw [unspentWrites_collect, List.flatMap_map, blockChanges, List.flatMap_assoc,
    List.flatMap_congr fun x hx => redoEntries_writes hO (h x.1 (List.fst_mem_of_mem_zipIdx hx)) x.2]
  conv_rhs => rw [← List.zipIdx_map_fst 0 entries, List.flatMap_map]

theorem undoBlockEntries_writes (hO : O.fAddressIndex = true) (h : ∀ entry ∈ entries, IndexableEntry E nHeight entry)
    (hpubkey : ∀ entry ∈ entries, ∀ coin ∈ entry.2.getD [], isPayToPublicKey coin.out.scriptPubKey = false) :
    unspentWrites (collect (entries.zipIdx.reverse.map (undoTxEntries E O nHeight))) =
      ((blockChanges nHeight entries).reverse.map inverse).flatMap (recordWrites (unspentIndexing E.hash160)) := by
  have hmem : ∀ x ∈ entries.zipIdx.reverse, x.1 ∈ entries := fun x hx => List.fst_mem_of_mem_zipIdx (List.mem_reverse.mp hx)
  rw [unspentWrites_collect, List.flatMap_map,
    List.flatMap_congr fun x hx => undoTxEntries_writes hO (h x.1 (hmem x hx)) (hpubkey x.1 (hmem x hx)) x.2]
  have hreverse : (blockChanges nHeight entries).reverse = entries.reverse.flatMap fun entry => (txChanges nHeight entry).reverse := by
    rw [blockChanges, List.reverse_flatMap]
    rfl
  rw [hreverse, List.map_flatMap, List.flatMap_assoc]
  conv_rhs => rw [← zipIdx_reverse_fst, List.flatMap_map]

/-! ## Runs with the index -/

structure IndexConditions where
  connect : Env → CBlock → Prop
  disconnect : CBlock → CBlockUndo → Prop

def IndexConditions.none : IndexConditions := ⟨fun _ _ => True, fun _ _ => True⟩

/-- An output of an indexed kind can be spent. With an asset, the assets are active, it is not of the pay-to-pubkey form as well,
and its amount does not stand for a deletion. -/
def FiledOut (E : Env) (out : CTxOut) : Prop :=
  IndexedScript out.scriptPubKey → isUnspendable out.scriptPubKey = false ∧
    ((isAssetScript out.scriptPubKey).isSome = true → E.areAssetsDeployed = true ∧
      isPayToPublicKey out.scriptPubKey = false ∧ ∀ e ∈ carriedAsset out.scriptPubKey, e.2 ≠ -1)

instance (script : Bytes) : Decidable (IndexedScript script) := inferInstanceAs (Decidable (_ ∨ _))

instance (E : Env) (out : CTxOut) : Decidable (FiledOut E out) := inferInstanceAs (Decidable (_ → _))

/-- Outputs are filed as they should be, and no pay-to-pubkey coin comes back. -/
def IndexConditions.filed : IndexConditions where
  connect E block := ∀ tx ∈ block.vtx, ∀ out ∈ tx.vout, FiledOut E out
  disconnect _ undo := ∀ coins ∈ undo.vtxundo, ∀ coin ∈ coins, isPayToPublicKey coin.out.scriptPubKey = false

/-- What a node with indexes goes through, each step at a later moment. -/
inductive IndexedRun (P : ChainParams) (R : Rules) (O : IndexOptions) (ids : Uint256 → CTransaction) (C : IndexConditions) :
    Env → List (CBlock × CBlockUndo) → IndexedNode → Prop
  | genesis (E : Env) : IndexedRun P R O ids C E [] ⟨⟨fun _ => none, ∅⟩, ∅⟩
  | connect {E E' : Env} {chain node node' undo block mempool} (h : IndexedRun P R O ids C E chain node) (hE : E.Later E')
      (hids : ∀ tx ∈ block.vtx, ids tx.hash = tx) (hheight : block.nHeight = chain.length + 1)
      (hcoinbase : checkCoinbaseHeight block = true) (hok : C.connect E' block)
      (hblock : connectTipIndexed E' (R.withReward E' P) O mempool node block = .ok (node', undo)) :
      IndexedRun P R O ids C E' (chain ++ [(block, undo)]) node'
  | disconnect {E E' : Env} {chain node node' undo block}
      (h : IndexedRun P R O ids C E (chain ++ [(block, undo)]) node) (hE : E.Later E') (hok : C.disconnect block undo)
      (hblock : disconnectTipIndexed E' O node block undo = some node') : IndexedRun P R O ids C E' chain node'
  | dump {E : Env} {chain node} (h : IndexedRun P R O ids C E chain node) :
      IndexedRun P R O ids C E chain ⟨⟨node.chain.coins, node.chain.store.dumpCacheToDatabase E⟩, node.db⟩
  | cacheEvent {E : Env} {chain node} (event : Store.CacheEvent)
      (h : IndexedRun P R O ids C E chain node) :
      IndexedRun P R O ids C E chain ⟨⟨node.chain.coins, node.chain.store.cacheEvent event⟩, node.db⟩

structure IndexInvariant (ids : Uint256 → CTransaction) (E : Env) (chain : List (CBlock × CBlockUndo)) (node : IndexedNode) :
    Prop where
  history : ChainHistory ids chain node.chain.coins
  coins : ∀ out coin, node.chain.coins out = some coin → Indexable E coin
  blocks : ∀ b ∈ chain, ∀ entry ∈ undoEntries b.1 b.2, IndexableEntry E b.1.nHeight entry
  index : node.db.addressUnspentIndex.get? = (unspentIndexing E.hash160).lookup node.chain.coins

theorem IndexInvariant.later (h : IndexInvariant ids E chain node) (hE : E.Later E') :
    IndexInvariant ids E' chain node :=
  ⟨h.history, fun out coin hcoin => (h.coins out coin hcoin).later hE,
    fun b hb entry hentry => (h.blocks b hb entry hentry).later hE, hE.hash160 ▸ h.index⟩

theorem ConnectedTxs.indexable (h : ConnectedTxs ids nHeight txs view entries view')
    (hcoins : ∀ out coin, view out = some coin → Indexable E coin)
    (hnodup : ∀ entry ∈ entries, (entry.1.vin.map (·.prevout)).Nodup)
    (hspendable : ∀ entry ∈ entries, ∀ out ∈ entry.1.vout, IndexedScript out.scriptPubKey → isUnspendable out.scriptPubKey = false)
    (houts : ∀ entry ∈ entries, ∀ out ∈ entry.1.vout, Indexable E ⟨out, nHeight, entry.1.isCoinBase⟩) :
    (∀ entry ∈ entries, IndexableEntry E nHeight entry) ∧ ∀ out coin, view' out = some coin → Indexable E coin := by
  induction h with
  | nil => exact ⟨by simp, hcoins⟩
  | @cons txs view view' entry entries m hhistory hundo hkept h ih =>
    have hentry : IndexableEntry E nHeight entry := by
      refine ⟨hnodup _ List.mem_cons_self, hspendable _ List.mem_cons_self, houts _ List.mem_cons_self, fun coin hcoin => ?_⟩
      obtain ⟨tx, txundo⟩ := entry
      cases txundo with
      | none => cases hcoin
      | some coins =>
        obtain ⟨txin, -, hview⟩ := List.mem_map.mp (hundo.coins coins rfl ▸ List.mem_map_of_mem hcoin)
        exact hcoins _ _ hview
    have hview : ∀ out coin, Writes.run (txWrites entry.1 nHeight) view out = some coin → Indexable E coin := by
      intro out coin hcoin
      rcases run_txWrites_cases entry.1 nHeight view out with ⟨-, o, ho, -, heq⟩ | heq
      · rw [heq, some.injEq] at hcoin
        exact hcoin ▸ houts _ List.mem_cons_self o ho
      · rcases run_inputWrites entry.1 view out with hnone | hsame
        · rw [heq, hnone] at hcoin
          cases hcoin
        · exact hcoins out coin (by rw [← hsame, ← heq, hcoin])
    obtain ⟨hrest, hafter⟩ := ih hview (fun e he => hnodup e (List.mem_cons_of_mem _ he))
      (fun e he => hspendable e (List.mem_cons_of_mem _ he)) fun e he => houts e (List.mem_cons_of_mem _ he)
    exact ⟨List.forall_mem_cons.mpr ⟨hentry, hrest⟩, hafter⟩

theorem ConnectedTxs.left_or_spent (h : ConnectedTxs ids nHeight txs view entries view') (hcoin : view out = some coin) : view' out = some coin ∨ ∃ entry ∈ entries, coin ∈ entry.2.getD [] := by
  induction h with
  | nil => exact .inl hcoin
  | @cons txs view view' entry entries m hhistory hundo hkept h ih =>
    by_cases hin : ∃ p ∈ entry.1.vin.zip (entry.2.getD []), p.1.prevout = out
    · obtain ⟨p, hp, rfl⟩ := hin
      have hsame := mem_zip_undo hundo hp
      rw [hcoin, some.injEq] at hsame
      exact .inr ⟨entry, List.mem_cons_self, hsame ▸ (List.of_mem_zip hp).2⟩
    · have hleft : Writes.run (txWrites entry.1 nHeight) view out = some coin := by
        rcases run_txWrites_cases entry.1 nHeight view out with ⟨hhash, -⟩ | heq
        · have hfresh := hundo.fresh out.n
          rw [← hhash, hcoin] at hfresh
          cases hfresh
        · have hout : out ∉ keys (Hivecoin.inputWrites entry.1) := by
            rw [← inputWrites_undo hundo, keys, List.map_map, List.map_map]
            intro hmem
            obtain ⟨p, hp, hpout⟩ := List.mem_map.mp hmem
            exact hin ⟨p, hp, hpout⟩
          rw [heq, run_of_not_mem hout, hcoin]
      rcases ih hleft with hview | ⟨e, he, hmem⟩
      · exact .inl hview
      · exact .inr ⟨e, List.mem_cons_of_mem _ he, hmem⟩

/-! ## The steps -/

theorem connectTipIndexed_ok (h : connectTipIndexed E R O mempool node block = .ok (node', undo)) :
    ∃ cs, connectBlockIndexed E node.chain.store R O mempool node.chain.coins ∅ node.db block = .ok (cs, node'.db) ∧
      cs.view = node'.chain.coins ∧ cs.undo = undo := by
  simp only [connectTipIndexed, ok_iff, Prod.mk.injEq, Prod.exists] at h
  obtain ⟨cs, db, hblock, rfl, rfl⟩ := h
  exact ⟨cs, hblock, rfl, rfl⟩

theorem IndexInvariant.connect {node node' block undo} (hO : O.fAddressIndex = true)
    (h : IndexInvariant ids E chain node) (hids : ∀ tx ∈ block.vtx, ids tx.hash = tx) (hheight : block.nHeight = chain.length + 1)
    (hcoinbase : checkCoinbaseHeight block = true) (hok : ∀ tx ∈ block.vtx, ∀ out ∈ tx.vout, FiledOut E out)
    (hblock : connectTipIndexed E R O mempool node block = .ok (node', undo)) :
    IndexInvariant ids E (chain ++ [(block, undo)]) node' := by
  obtain ⟨cs, hindexed, hview, rfl⟩ := connectTipIndexed_ok hblock
  obtain ⟨hconnect, -⟩ := connectBlockIndexed_ok.mp hindexed
  obtain ⟨-, -, -, -, -, -, hcheck, -⟩ := connectBlock_ok hconnect
  have hnext := h.history.connectBlock hids hheight hcoinbase hconnect
  obtain ⟨hlength, hsteps, -⟩ := connectBlock_history h.history.history hids hheight hcoinbase hconnect
  have hmem : ∀ entry ∈ undoEntries block cs.undo, entry.1 ∈ block.vtx := fun entry hentry =>
    map_fst_undoEntries hlength ▸ List.mem_map_of_mem hentry
  have houts : ∀ tx ∈ block.vtx, ∀ out ∈ tx.vout, Indexable E ⟨out, block.nHeight, tx.isCoinBase⟩ := by
    intro tx htx out hout
    have hvalue := (checkTransaction_values (hcheck tx htx) hout).1
    refine ⟨(checkTransaction_ok (hcheck tx htx)).readable hout, fun hneg => ?_, fun hs => (hok tx htx out hout (.inl hs)).2 hs⟩
    rw [show out.nValue = -1 from hneg] at hvalue
    exact absurd hvalue (by decide)
  have hnodup : ∀ entry ∈ undoEntries block cs.undo, (entry.1.vin.map (·.prevout)).Nodup := fun entry hentry =>
    (checkTransaction_ok (hcheck _ (hmem entry hentry))).nodup rfl
  obtain ⟨hentries, hcoins⟩ := hsteps.indexable h.coins hnodup
    (fun entry hentry out hout hs => (hok _ (hmem entry hentry) out hout hs).1)
    fun entry hentry out hout => houts _ (hmem entry hentry) out hout
  refine ⟨hview ▸ hnext, hview ▸ hcoins, fun b hb => ?_, ?_⟩
  · rcases List.mem_append.mp hb with hb | hb
    · exact h.blocks b hb
    · rw [List.mem_singleton.mp hb]
      exact hentries
  · obtain ⟨hvalid, hrun⟩ := hsteps.valid hnodup
    have hdb := connectBlockIndexed_db hlength hsteps hindexed
    dsimp only at hdb
    rw [hdb, Indexes.connect_addressUnspentIndex _ _ hO, ← unspentWrites, blockEntries_writes hO hentries, h.index,
      Indexing.lookup_run _ hvalid, hrun, hview]

theorem disconnectTipIndexed_some (hkept : ∀ entry ∈ undoEntries block undo, KeptEntry entry)
    (h : disconnectTipIndexed E O node block undo = some node') :
    disconnectTip E node.chain block undo = some node'.chain ∧
      node'.db = node.db.disconnect O (collect ((undoEntries block undo).zipIdx.reverse.map (undoTxEntries E O block.nHeight))) := by
  unfold disconnectTipIndexed at h
  rw [disconnectBlockIndexed_eq hkept] at h
  unfold disconnectTip
  generalize disconnectBlock E node.chain.store node.chain.coins ∅ block undo = r at h ⊢
  obtain ⟨result, view, assets⟩ := r
  cases result with
  | DISCONNECT_OK =>
    cases h
    exact ⟨rfl, rfl⟩
  | DISCONNECT_UNCLEAN => cases h
  | DISCONNECT_FAILED => cases h

theorem mem_undoEntries_coins (hentry : entry ∈ undoEntries block undo) :
    ∀ coin ∈ entry.2.getD [], ∃ coins ∈ undo.vtxundo, coin ∈ coins := by
  intro coin hcoin
  have hmem := (List.of_mem_zip hentry).2
  cases hundo : entry.2 with
  | none => rw [hundo] at hcoin; cases hcoin
  | some coins =>
    rw [hundo] at hcoin hmem
    rcases List.mem_cons.mp hmem with hmem | hmem
    · cases hmem
    · obtain ⟨coins', hcoins', heq⟩ := List.mem_map.mp hmem
      cases heq
      exact ⟨coins, hcoins', hcoin⟩

theorem IndexInvariant.disconnect (hO : O.fAddressIndex = true) (h : IndexInvariant ids E (chain ++ [(block, undo)]) node)
    (hok : ∀ coins ∈ undo.vtxundo, ∀ coin ∈ coins, isPayToPublicKey coin.out.scriptPubKey = false)
    (hblock : disconnectTipIndexed E O node block undo = some node') : IndexInvariant ids E chain node' := by
  obtain ⟨view, hview, hlength, hsteps⟩ := h.history.last
  obtain ⟨htip, hdb⟩ := disconnectTipIndexed_some hsteps.kept hblock
  have hcoins : node'.chain.coins = view := by
    obtain ⟨-, ds, hloop, -, hst⟩ := disconnectTip_eq htip
    rw [hst]
    exact ChainHistory.undo_eq hsteps rfl hloop
  have hentries := h.blocks (block, undo) (by simp)
  have hpubkey : ∀ entry ∈ undoEntries block undo, ∀ coin ∈ entry.2.getD [],
      isPayToPublicKey coin.out.scriptPubKey = false := by
    intro entry hentry coin hcoin
    obtain ⟨coins, hcoins, hmem⟩ := mem_undoEntries_coins hentry coin hcoin
    exact hok coins hcoins coin hmem
  obtain ⟨hvalid, hrun⟩ := hsteps.valid fun entry hentry => (hentries entry hentry).nodup
  refine ⟨hcoins ▸ hview, fun out coin hcoin => ?_, fun b hb => h.blocks b (List.mem_append_left _ hb), ?_⟩
  · rcases hsteps.left_or_spent (hcoins ▸ hcoin) with hleft | ⟨entry, hentry, hmem⟩
    · exact h.coins out coin hleft
    · exact (hentries entry hentry).coins coin hmem
  · rw [hdb, Indexes.disconnect_addressUnspentIndex _ _ hO, ← unspentWrites, undoBlockEntries_writes hO hentries hpubkey, h.index,
      ← hrun, ← Indexing.lookup_run _ hvalid, (Indexing.undoes_run _ hvalid).run_run, hcoins]

theorem IndexedRun.invariant {P} (hO : O.fAddressIndex = true) (h : IndexedRun P R O ids .filed E chain node) : IndexInvariant ids E chain node := by
  induction h with
  | genesis E => exact ⟨.genesis, nofun, nofun, funext fun key => rfl⟩
  | connect _ hE hids hheight hcoinbase hok hblock ih => exact (ih.later hE).connect hO hids hheight hcoinbase hok hblock
  | disconnect _ hE hok hblock ih => exact (ih.later hE).disconnect hO hok hblock
  | dump _ ih => exact ⟨ih.history, ih.coins, ih.blocks, ih.index⟩
  | cacheEvent _ _ ih => exact ⟨ih.history, ih.coins, ih.blocks, ih.index⟩

/-- With the address index on from genesis, the address-unspent index is exact after every history of blocks whose outputs
are filed as they should be and of reorganisations that bring back no pay-to-pubkey coin. -/
theorem unspent_index_exact {P : ChainParams} {node : IndexedNode} (hO : O.fAddressIndex = true)
    (h : IndexedRun P R O ids .filed E chain node) : UnspentIndexExact E.hash160 node.db node.chain.coins := by
  have hinv := h.invariant hO
  refine ⟨fun key value => ?_, fun out coin hcoin hs => (hinv.coins out coin hcoin).complete hs _ out⟩
  rw [hinv.index]
  exact (unspentIndexing E.hash160).lookup_eq_some

namespace Regtest

theorem runIndexed_run {blocks node C} (h : runIndexed E blocks = .ok node)
    (hheights : blocks.map CBlock.nHeight = (List.range blocks.length).map (· + 1))
    (hids : ∀ block ∈ blocks, ∀ tx ∈ block.vtx, ids tx.hash = tx) (hcoinbase : ∀ block ∈ blocks, checkCoinbaseHeight block = true)
    (hok : ∀ block ∈ blocks, C.connect E block) :
    ∃ chain, IndexedRun params .none .both ids C E chain node ∧ chain.map Prod.fst = blocks := by
  induction blocks using List.reverseRecOn generalizing node with
  | nil =>
    cases h
    exact ⟨[], .genesis E, rfl⟩
  | append_singleton blocks block ih =>
    simp only [runIndexed, List.foldlM_append, Outcome.bind_eq_ok, List.foldlM_cons, List.foldlM_nil] at h
    obtain ⟨node1, h1, node2, h2, h3⟩ := h
    cases h3
    rw [List.length_append, List.length_singleton, List.range_succ, List.map_append, List.map_append] at hheights
    obtain ⟨hbefore, hlast⟩ := List.append_inj' hheights rfl
    obtain ⟨chain, hrun, rfl⟩ := ih h1 hbefore (fun b hb => hids b (List.mem_append_left _ hb))
      (fun b hb => hcoinbase b (List.mem_append_left _ hb)) fun b hb => hok b (List.mem_append_left _ hb)
    cases htip : connectTipIndexed E (Rules.none.withReward E params) .both ⟨∅, ∅⟩ node1 block with
    | error e => rw [htip] at h2; cases h2
    | ok r =>
      rw [htip] at h2
      cases h2
      refine ⟨chain ++ [(block, r.2)], .connect hrun ⟨rfl, id, id⟩ (hids block (by simp)) ?_ (hcoinbase block (by simp))
        (hok block (by simp)) htip, by simp⟩
      simpa using hlast

def pubkeyIds : Uint256 → CTransaction := chainIds (coinbaseAt 1 [pubkeyOut] :: spendPubkey.vtx)

/-- A pay-to-pubkey coin is unspent again, but it has no record. -/
theorem pubkey_record_lost :
    ∃ chain node, IndexedRun params .none .both pubkeyIds .none env chain node ∧
      node.chain.coins ⟨1001, 2⟩ = some ⟨pubkeyOut, 1, true⟩ ∧
      node.db.addressUnspentIndex.get? ⟨1, env.hash160 (2 :: List.replicate 32 7), HVN, 1001, 2⟩ = none ∧
      ¬ UnspentIndexExact env.hash160 node.db node.chain.coins := by
  have h : ((runIndexed env pubkeyChain).toOption.any fun node =>
      (connectTipIndexed env (Rules.none.withReward env params) .both ⟨∅, ∅⟩ node spendPubkey).toOption.any fun r =>
      (disconnectTipIndexed env .both r.1 spendPubkey r.2).any fun node' =>
        node'.chain.coins ⟨1001, 2⟩ = some ⟨pubkeyOut, 1, true⟩ ∧
        node'.db.addressUnspentIndex.get? ⟨1, env.hash160 (2 :: List.replicate 32 7), HVN, 1001, 2⟩ = none) = true := by
    decide +kernel
  obtain ⟨node, hrun, h⟩ := (any_eq_true ..).mp h
  obtain ⟨⟨node₁, undo⟩, hconnect, h⟩ := (any_eq_true ..).mp h
  obtain ⟨node₂, hdisconnect, h⟩ := (any_eq_true ..).mp h
  obtain ⟨hcoin, hindex⟩ := of_decide_eq_true h
  obtain ⟨chain, hchain, hblocks⟩ := @runIndexed_run env pubkeyIds pubkeyChain node .none (toOption_eq_some.mp hrun)
    (by decide +kernel) (by decide +kernel) (by decide +kernel) fun _ _ => trivial
  have hlength : chain.length = 100 := by
    rw [← List.length_map, hblocks]
    rfl
  have hlast : IndexedRun params .none .both pubkeyIds .none env (chain ++ [(spendPubkey, undo)]) node₁ :=
    .connect hchain ⟨rfl, id, id⟩ (by decide +kernel) (by rw [hlength]; rfl) (by decide +kernel) trivial
      (toOption_eq_some.mp hconnect)
  refine ⟨chain, node₂, .disconnect hlast ⟨rfl, id, id⟩ trivial hdisconnect, hcoin, hindex, fun hexact => ?_⟩
  have hfiled : unspentRecord env.hash160 ⟨1001, 2⟩ ⟨pubkeyOut, 1, true⟩ =
      some (⟨1, env.hash160 (2 :: List.replicate 32 7), HVN, 1001, 2⟩, ⟨0, pubkeyOut.scriptPubKey, 1⟩) := by
    decide +kernel
  have hrecord := (hexact.records _ _).mpr ⟨⟨1001, 2⟩, _, hcoin, hfiled⟩
  rw [hindex] at hrecord
  cases hrecord

/-- The block that issues `GOLD` is connected and undone. -/
theorem issue_undone_index_exact :
    ∃ chain node, IndexedRun params .none .both (chainIds [issueGold 1001 7]) .filed env chain node ∧
      node.chain.coins ⟨7, 2⟩ = none ∧ (node.chain.coins ⟨1001, 0⟩).isSome = true ∧
      UnspentIndexExact env.hash160 node.db node.chain.coins := by
  have h : ((runIndexed env (emptyBlocks 100)).toOption.any fun node =>
      (connectTipIndexed env (Rules.none.withReward env params) .both ⟨∅, ∅⟩ node (blockAt 101 [issueGold 1001 7] [])).toOption.any fun r =>
      (disconnectTipIndexed env .both r.1 (blockAt 101 [issueGold 1001 7] []) r.2).any fun node' =>
        (∀ coins ∈ r.2.vtxundo, ∀ coin ∈ coins, isPayToPublicKey coin.out.scriptPubKey = false) ∧
        node'.chain.coins ⟨7, 2⟩ = none ∧ (node'.chain.coins ⟨1001, 0⟩).isSome = true) = true := by
    decide +kernel
  obtain ⟨node, hrun, h⟩ := (any_eq_true ..).mp h
  obtain ⟨⟨node₁, undo⟩, hconnect, h⟩ := (any_eq_true ..).mp h
  obtain ⟨node₂, hdisconnect, h⟩ := (any_eq_true ..).mp h
  obtain ⟨hpubkey, hissued, hfunds⟩ := of_decide_eq_true h
  obtain ⟨chain, hchain, hblocks⟩ := @runIndexed_run env (chainIds [issueGold 1001 7]) (emptyBlocks 100) node .filed
    (toOption_eq_some.mp hrun) (by decide +kernel) (by decide +kernel) (by decide +kernel)
    (show ∀ block ∈ emptyBlocks 100, ∀ tx ∈ block.vtx, ∀ out ∈ tx.vout, FiledOut env out by decide +kernel)
  have hlength : chain.length = 100 := by
    rw [← List.length_map, hblocks]
    rfl
  have hlast : IndexedRun params .none .both (chainIds [issueGold 1001 7]) .filed env
      (chain ++ [(blockAt 101 [issueGold 1001 7] [], undo)]) node₁ :=
    .connect hchain ⟨rfl, id, id⟩ (by decide +kernel) (by rw [hlength]; rfl) (by decide +kernel)
      (show ∀ tx ∈ (blockAt 101 [issueGold 1001 7] []).vtx, ∀ out ∈ tx.vout, FiledOut env out by decide +kernel)
      (toOption_eq_some.mp hconnect)
  have hafter : IndexedRun params .none .both (chainIds [issueGold 1001 7]) .filed env chain node₂ :=
    .disconnect hlast ⟨rfl, id, id⟩ hpubkey hdisconnect
  exact ⟨chain, node₂, hafter, hissued, hfunds, unspent_index_exact rfl hafter⟩

end Regtest

end Hivecoin

import Hivecoin.Chain.Lemmas.IndexEntries
import Hivecoin.Chain.Reward
import Hivecoin.Tx.Lemmas.Classify

/-!
# Undoing the address and spent indexes

`DisconnectBlock` leaves the spent index, and for a pay-to-pubkey coin it erases another key.
-/

namespace Hivecoin

open Outcome Writes CAssetsCache Option CAddressIndexKey Script IndexOptions

variable {E : Env} {R : Rules} {mempool : MempoolMaps} {ids : Uint256 → CTransaction} {n nHeight : Nat}
  {txs : List CTransaction} {view view' : CoinsView} {block : CBlock} {undo : CBlockUndo}
  {entries : List (CTransaction × Option (List Coin))}
variable {i j : Nat} {tx : CTransaction} {txin : CTxIn} {prevout : CTxOut} {txundo : Option (List Coin)}
  {e : CAddressIndexKey × CAmount}

/-- The coins before a transaction of the block. -/
def coinsBefore (view : CoinsView) (block : CBlock) (i : Nat) : CoinsView :=
  run ((block.vtx.take i).flatMap fun tx => txWrites tx block.nHeight) view

structure SpendsAt (view : CoinsView) (block : CBlock) (i j : Nat) (tx : CTransaction) (txin : CTxIn) (prevout : CTxOut) :
    Prop where
  member : block.vtx[i]? = some tx
  plain : tx.isCoinBase = false
  input : tx.vin[j]? = some txin
  spent : prevout = Env.accessOut (coinsBefore view block i) txin.prevout

structure PaysAt (block : CBlock) (i k : Nat) (tx : CTransaction) (out : CTxOut) : Prop where
  member : block.vtx[i]? = some tx
  output : tx.vout[k]? = some out

theorem SpendsAt.unique {tx' txin' prevout'} (h : SpendsAt view block i j tx txin prevout)
    (h' : SpendsAt view block i j tx' txin' prevout') :
    tx = tx' ∧ txin = txin' ∧ prevout = prevout' := by
  have htx : tx = tx' := some.inj (h.member.symm.trans h'.member)
  subst htx
  have htxin : txin = txin' := some.inj (h.input.symm.trans h'.input)
  subst htxin
  exact ⟨rfl, rfl, h.spent.trans h'.spent.symm⟩

theorem ConnectedTxs.step (h : ConnectedTxs ids nHeight txs view entries view') {entry}
    (hi : entries[i]? = some entry) :
    ∃ m, TxHistory ids m (txs ++ (entries.take i).map Prod.fst)
        (Writes.run ((entries.take i).flatMap fun e => txWrites e.1 nHeight) view) ∧
      TxUndo (Writes.run ((entries.take i).flatMap fun e => txWrites e.1 nHeight) view) entry := by
  induction h generalizing i with
  | nil => cases hi
  | cons hhistory hundo hkept h ih =>
    cases i with
    | zero =>
      cases hi
      exact ⟨_, by simpa using hhistory, hundo⟩
    | succ i =>
      obtain ⟨m, hm, hundo'⟩ := ih hi
      refine ⟨m, ?_, ?_⟩
      · rw [List.take_succ_cons, List.map_cons, List.flatMap_cons, run_append]
        simpa using hm
      · rw [List.take_succ_cons, List.flatMap_cons, run_append]
        exact hundo'

section

variable (hlength : undo.vtxundo.length + 1 = block.vtx.length)
  (hsteps : ConnectedTxs ids block.nHeight txs view (undoEntries block undo) view')

include hlength

theorem map_fst_take_undoEntries (i : Nat) : ((undoEntries block undo).take i).map Prod.fst = block.vtx.take i := by
  rw [List.map_take, map_fst_undoEntries hlength]

theorem coinsBefore_eq (view : CoinsView) (i : Nat) :
    run (((undoEntries block undo).take i).flatMap fun e => txWrites e.1 block.nHeight) view = coinsBefore view block i := by
  rw [coinsBefore, ← map_fst_take_undoEntries hlength i, List.flatMap_map]

theorem getElem?_undoEntries :
    block.vtx[i]? = some tx ↔ ∃ txundo, (undoEntries block undo)[i]? = some (tx, txundo) := by
  rw [← map_fst_undoEntries hlength, List.getElem?_map, map_eq_some_iff]
  constructor
  · rintro ⟨⟨_, txundo⟩, h, rfl⟩
    exact ⟨txundo, h⟩
  · rintro ⟨txundo, h⟩
    exact ⟨_, h, rfl⟩

include hsteps

theorem spendsAt_iff :
    SpendsAt view block i j tx txin prevout ↔ ∃ txundo coin, (undoEntries block undo)[i]? = some (tx, txundo) ∧
      (tx.vin.zip (txundo.getD []))[j]? = some (txin, coin) ∧ prevout = coin.out := by
  constructor
  · rintro ⟨htx, hplain, hinput, hspent⟩
    obtain ⟨txundo, hentry⟩ := (getElem?_undoEntries hlength).mp htx
    obtain ⟨-, -, hundo⟩ := hsteps.step hentry
    rw [coinsBefore_eq hlength] at hundo
    cases txundo with
    | none => rw [hundo.coinbase.mp rfl] at hplain; cases hplain
    | some coins =>
      have hcoin := congrArg (·[j]?) (hundo.coins coins rfl)
      simp only [List.getElem?_map, hinput, map_some] at hcoin
      obtain ⟨coin, hcoin, hview⟩ := map_eq_some_iff.mp hcoin
      refine ⟨_, coin, hentry, ?_, ?_⟩
      · rw [getD_some, List.getElem?_zip_eq_some]
        exact ⟨hinput, hcoin⟩
      · rw [hspent, Env.accessOut, ← hview]
        rfl
  · rintro ⟨txundo, coin, hentry, hzip, rfl⟩
    obtain ⟨-, -, hundo⟩ := hsteps.step hentry
    rw [coinsBefore_eq hlength] at hundo
    cases txundo with
    | none => simp at hzip
    | some coins =>
      rw [getD_some, List.getElem?_zip_eq_some] at hzip
      have hcoin := congrArg (·[j]?) (hundo.coins coins rfl)
      simp only [List.getElem?_map, hzip.1, hzip.2, map_some, some.injEq] at hcoin
      refine ⟨(getElem?_undoEntries hlength).mpr ⟨_, hentry⟩, Bool.eq_false_iff.mpr fun hcb => ?_, hzip.1, ?_⟩
      · cases hundo.coinbase.mpr hcb
      · rw [Env.accessOut, ← hcoin]
        rfl

theorem spendsAt_once (hcheck : ∀ tx ∈ block.vtx, (tx.vin.map (·.prevout)).Nodup) {i' j' tx' txin' prevout'} (h : SpendsAt view block i j tx txin prevout)
    (h' : SpendsAt view block i' j' tx' txin' prevout') (hsame : txin.prevout = txin'.prevout) : i = i' ∧ j = j' := by
  -- a later transaction finds no coin where an earlier one has spent it
  have hlater : ∀ {i i' j j' tx tx' txin txin' prevout prevout'}, SpendsAt view block i j tx txin prevout →
      SpendsAt view block i' j' tx' txin' prevout' → txin.prevout = txin'.prevout → ¬ i < i' := by
    intro i i' j j' tx tx' txin txin' prevout prevout' h h' hsame hlt
    obtain ⟨txundo, coin, hentry, hzip, -⟩ := (spendsAt_iff hlength hsteps).mp h'
    obtain ⟨m, hhistory, hundo⟩ := hsteps.step hentry
    have hmem : tx ∈ txs ++ ((undoEntries block undo).take i').map Prod.fst := by
      refine List.mem_append_right _ ?_
      rw [map_fst_take_undoEntries hlength]
      exact List.mem_of_getElem? (by rw [List.getElem?_take, if_pos hlt, h.member])
    have hnone := (hhistory.spent tx hmem h.plain txin (List.mem_of_getElem? h.input)).1
    cases txundo with
    | none => simp at hzip
    | some coins =>
      rw [getD_some, List.getElem?_zip_eq_some] at hzip
      have hcoin := congrArg (·[j']?) (hundo.coins coins rfl)
      simp only [List.getElem?_map, hzip.1, hzip.2, map_some, some.injEq, ← hsame, hnone] at hcoin
      cases hcoin
  have hi : i = i' := Nat.le_antisymm (not_lt.mp (hlater h' h hsame.symm)) (not_lt.mp (hlater h h' hsame))
  subst hi
  have htx : tx = tx' := some.inj (h.member.symm.trans h'.member)
  subst htx
  refine ⟨rfl, ?_⟩
  have hnodup := hcheck tx (List.mem_of_getElem? h.member)
  have hj : (tx.vin.map (·.prevout))[j]? = (tx.vin.map (·.prevout))[j']? := by
    rw [List.getElem?_map, List.getElem?_map, h.input, h'.input, map_some, map_some, hsame]
  have hlt : j < (tx.vin.map (·.prevout)).length := by
    rw [List.length_map]
    exact (List.getElem?_eq_some_iff.mp h.input).1
  exact (List.getElem?_inj hlt hnodup).mp hj

end

def IndexOptions.both : IndexOptions := ⟨true, true⟩

theorem mem_flatMap_zipIdx {α γ : Type} {l : List α} {e : γ} {f : α × Nat → List γ} :
    e ∈ l.zipIdx.flatMap f ↔ ∃ i x, l[i]? = some x ∧ e ∈ f (x, i) := by
  rw [List.mem_flatMap]
  constructor
  · rintro ⟨⟨x, i⟩, hx, he⟩
    exact ⟨i, x, List.mem_zipIdx_iff_getElem?.mp hx, he⟩
  · rintro ⟨i, x, hx, he⟩
    exact ⟨_, List.mem_zipIdx_iff_getElem?.mpr hx, he⟩

theorem mem_flatMap_zipIdx_reverse {α γ : Type} {l : List α} {e : γ} {f : α × Nat → List γ} :
    e ∈ l.zipIdx.reverse.flatMap f ↔ ∃ i x, l[i]? = some x ∧ e ∈ f (x, i) := by
  rw [← mem_flatMap_zipIdx, List.mem_flatMap, List.mem_flatMap]
  simp only [List.mem_reverse]

theorem mem_redoEntries_addressIndex :
    e ∈ (redoEntries E .both nHeight ((tx, txundo), i)).addressIndex ↔
      (∃ j p, (tx.vin.zip (txundo.getD []))[j]? = some p ∧ ∃ address, E.addressOfOut p.2.out = some address ∧
        (activityKey address nHeight i tx.hash j true, address.2.2.2 * -1) = e) ∨
      ∃ k out, tx.vout[k]? = some out ∧ ∃ address, E.addressOfOut out = some address ∧
        (activityKey address nHeight i tx.hash k false, address.2.2.2) = e := by
  change e ∈ (collect _).addressIndex ++ (collect _).addressIndex ↔ _
  rw [List.mem_append, collect_addressIndex, collect_addressIndex, List.flatMap_map, List.flatMap_map, mem_flatMap_zipIdx,
    mem_flatMap_zipIdx]
  simp only [inputEntries, outputEntries, both, if_true, List.mem_map, mem_toList]

/-- The key that `DisconnectBlock` erases for an input. -/
def undoInputKey (E : Env) (nHeight i : Nat) (txhash : Uint256) (j : Nat) (prevout : CTxOut) : Option CAddressIndexKey :=
  if isPayToPublicKey prevout.scriptPubKey then
    some ⟨1, E.hash160 prevout.scriptPubKey.tail.dropLast, HVN, nHeight, i, txhash, j, false⟩
  else (E.addressOfOut prevout).map fun address => activityKey address nHeight i txhash j true

theorem mem_undoTxEntries_addressIndex {key : CAddressIndexKey} :
    key ∈ keys (undoTxEntries E .both nHeight ((tx, txundo), i)).addressIndex ↔
      (∃ j p, (tx.vin.zip (txundo.getD []))[j]? = some p ∧ undoInputKey E nHeight i tx.hash j p.2.out = some key) ∨
      ∃ k out, tx.vout[k]? = some out ∧ ∃ address, E.addressOfOut out = some address ∧
        activityKey address nHeight i tx.hash k false = key := by
  have hinput : ∀ j (p : CTxIn × Coin),
      key ∈ keys (undoInputEntries E .both nHeight i tx p.2.out p.2.nHeight (p.1, j)).addressIndex ↔
        undoInputKey E nHeight i tx.hash j p.2.out = some key := by
    intro j p
    simp only [undoInputEntries, undoInputKey, both, if_true, keys]
    split
    · simp [eq_comm]
    · cases E.addressOfOut p.2.out <;> simp [eq_comm]
  change key ∈ keys ((collect _).addressIndex ++ (collect _).addressIndex) ↔ _
  rw [keys_append, List.mem_append, collect_addressIndex, collect_addressIndex, keys, keys, List.map_flatMap, List.map_flatMap,
    List.flatMap_map, List.flatMap_map, mem_flatMap_zipIdx_reverse, mem_flatMap_zipIdx_reverse, or_comm]
  refine or_congr (exists_congr fun j => exists_congr fun p => and_congr_right fun _ => hinput j p) ?_
  simp only [undoOutputEntries, both, if_true, List.map_map, List.mem_map, mem_toList, Function.comp_apply]

theorem mem_redoEntries_spentIndex {e : COutPoint × CSpentIndexValue} :
    e ∈ (redoEntries E .both nHeight ((tx, txundo), i)).spentIndex ↔
      ∃ j txin coin, (tx.vin.zip (txundo.getD []))[j]? = some (txin, coin) ∧
        e = (txin.prevout, spentIndexValue E tx j nHeight coin.out) := by
  have hout : (collect (tx.vout.zipIdx.map (outputEntries E .both nHeight i tx))).spentIndex = [] := by
    rw [collect_spentIndex, List.flatMap_map, List.flatMap_eq_nil_iff]
    exact fun _ _ => rfl
  change e ∈ (collect _).spentIndex ++ (collect _).spentIndex ↔ _
  rw [hout, List.append_nil, collect_spentIndex, List.flatMap_map, mem_flatMap_zipIdx]
  simp only [inputEntries, both, if_true, List.mem_singleton, Prod.exists]

def written (E : Env) (block : CBlock) (undo : CBlockUndo) : IndexEntries :=
  collect ((undoEntries block undo).zipIdx.map (redoEntries E .both block.nHeight))

def erased (E : Env) (block : CBlock) (undo : CBlockUndo) : IndexEntries :=
  collect ((undoEntries block undo).zipIdx.reverse.map (undoTxEntries E .both block.nHeight))

/-! ## Nothing is left behind -/

/-- What `UpdateSpentIndex` leaves under the key of an input. -/
def spentRecord (E : Env) (tx : CTransaction) (j nHeight : Nat) (prevout : CTxOut) : Option CSpentIndexValue :=
  if (spentIndexValue E tx j nHeight prevout).isNull then none else some (spentIndexValue E tx j nHeight prevout)

/-- What the block and its undoing change was so before: erased keys had no record, and records that stay were there. -/
structure LeavesNothing (E : Env) (view : CoinsView) (db : Indexes) (block : CBlock) : Prop where
  outputs : ∀ i k tx out address, PaysAt block i k tx out → E.addressOfOut out = some address →
    db.addressIndex.get? (activityKey address block.nHeight i tx.hash k false) = none
  inputs : ∀ i j tx txin prevout key, SpendsAt view block i j tx txin prevout →
    undoInputKey E block.nHeight i tx.hash j prevout = some key → db.addressIndex.get? key = none
  pubkeys : ∀ i j tx txin prevout, SpendsAt view block i j tx txin prevout → isPayToPublicKey prevout.scriptPubKey = true →
    db.addressIndex.get? ⟨1, E.hash160 prevout.scriptPubKey.tail.dropLast, HVN, block.nHeight, i, tx.hash, j, true⟩ =
      some (prevout.nValue * -1)
  spent : ∀ i j tx txin prevout, SpendsAt view block i j tx txin prevout →
    db.spentIndex.get? txin.prevout = spentRecord E tx j block.nHeight prevout

def IndexesRestored (db db' : Indexes) : Prop :=
  (∀ key, db'.addressIndex.get? key = db.addressIndex.get? key) ∧ ∀ out, db'.spentIndex.get? out = db.spentIndex.get? out

theorem not_keyKinds_of_length {s} (h : 31 < s.length) :
    isPayToScriptHash s = false ∧ isPayToPublicKeyHash s = false := by
  constructor <;> rw [Bool.eq_false_iff] <;> intro hs
  · simp only [isPayToScriptHash, test_iff] at hs
    omega
  · simp only [isPayToPublicKeyHash, test_iff] at hs
    omega

theorem addressOfOut_pubkey {out} (h : isPayToPublicKey out.scriptPubKey = true) :
    E.addressOfOut out = some (1, E.hash160 out.scriptPubKey.tail.dropLast, HVN, out.nValue) := by
  have hlength : 31 < out.scriptPubKey.length := by
    unfold isPayToPublicKey at h
    split at h
    · omega
    · simp only [test_iff] at h
      omega
  obtain ⟨hscript, hkey⟩ := not_keyKinds_of_length hlength
  simp [Env.addressOfOut, hscript, hkey, h]

section

variable (hlength : undo.vtxundo.length + 1 = block.vtx.length)
  (hsteps : ConnectedTxs ids block.nHeight txs view (undoEntries block undo) view')

include hlength

theorem paysAt_iff {k out} :
    PaysAt block i k tx out ↔ ∃ txundo, (undoEntries block undo)[i]? = some (tx, txundo) ∧ tx.vout[k]? = some out := by
  rw [exists_and_right, ← getElem?_undoEntries hlength]
  exact ⟨fun h => ⟨h.member, h.output⟩, fun h => ⟨h.1, h.2⟩⟩

include hsteps

/-- What is found in a transaction with its undo data is found at an input or an output. -/
theorem exists_entry_iff {A : Nat → CTransaction → Nat → CTxIn → CTxOut → Prop} {B : Nat → CTransaction → Nat → CTxOut → Prop} :
    (∃ i entry, (undoEntries block undo)[i]? = some entry ∧
      ((∃ j p, (entry.1.vin.zip (entry.2.getD []))[j]? = some p ∧ A i entry.1 j p.1 p.2.out) ∨
        ∃ k out, entry.1.vout[k]? = some out ∧ B i entry.1 k out)) ↔
      (∃ i j tx txin prevout, SpendsAt view block i j tx txin prevout ∧ A i tx j txin prevout) ∨
        ∃ i k tx out, PaysAt block i k tx out ∧ B i tx k out := by
  constructor
  · rintro ⟨i, ⟨tx, txundo⟩, hentry, ⟨j, ⟨txin, coin⟩, hzip, ha⟩ | ⟨k, out, hout, hb⟩⟩
    · exact .inl ⟨i, j, tx, txin, coin.out, (spendsAt_iff hlength hsteps).mpr ⟨_, coin, hentry, hzip, rfl⟩, ha⟩
    · exact .inr ⟨i, k, tx, out, (paysAt_iff hlength).mpr ⟨_, hentry, hout⟩, hb⟩
  · rintro (⟨i, j, tx, txin, prevout, hspends, ha⟩ | ⟨i, k, tx, out, hpays, hb⟩)
    · obtain ⟨txundo, coin, hentry, hzip, rfl⟩ := (spendsAt_iff hlength hsteps).mp hspends
      exact ⟨i, _, hentry, .inl ⟨j, _, hzip, ha⟩⟩
    · obtain ⟨txundo, hentry, hout⟩ := (paysAt_iff hlength).mp hpays
      exact ⟨i, _, hentry, .inr ⟨k, out, hout, hb⟩⟩

theorem mem_written :
    e ∈ (written E block undo).addressIndex ↔
      (∃ i j tx txin prevout, SpendsAt view block i j tx txin prevout ∧ ∃ address, E.addressOfOut prevout = some address ∧
        (activityKey address block.nHeight i tx.hash j true, address.2.2.2 * -1) = e) ∨
      ∃ i k tx out, PaysAt block i k tx out ∧ ∃ address, E.addressOfOut out = some address ∧
        (activityKey address block.nHeight i tx.hash k false, address.2.2.2) = e := by
  rw [← exists_entry_iff hlength hsteps, written, collect_addressIndex, List.flatMap_map, mem_flatMap_zipIdx]
  exact exists_congr fun i => exists_congr fun entry => and_congr_right fun _ => mem_redoEntries_addressIndex

theorem mem_erased {key : CAddressIndexKey} :
    key ∈ keys (erased E block undo).addressIndex ↔
      (∃ i j tx txin prevout, SpendsAt view block i j tx txin prevout ∧
        undoInputKey E block.nHeight i tx.hash j prevout = some key) ∨
      ∃ i k tx out, PaysAt block i k tx out ∧ ∃ address, E.addressOfOut out = some address ∧
        activityKey address block.nHeight i tx.hash k false = key := by
  rw [← exists_entry_iff hlength hsteps, erased, collect_addressIndex, List.flatMap_map, keys, List.map_flatMap,
    mem_flatMap_zipIdx_reverse]
  exact exists_congr fun i => exists_congr fun entry => and_congr_right fun _ => mem_undoTxEntries_addressIndex

theorem mem_spent {e : COutPoint × CSpentIndexValue} :
    e ∈ (written E block undo).spentIndex ↔
      ∃ i j tx txin prevout, SpendsAt view block i j tx txin prevout ∧
        e = (txin.prevout, spentIndexValue E tx j block.nHeight prevout) := by
  have hentry := exists_entry_iff hlength hsteps (B := fun _ _ _ _ => False)
    (A := fun i tx j txin prevout => e = (txin.prevout, spentIndexValue E tx j block.nHeight prevout))
  simp only [and_false, exists_false, or_false] at hentry
  rw [← hentry, written, collect_spentIndex, List.flatMap_map, mem_flatMap_zipIdx]
  simp only [mem_redoEntries_spentIndex, Prod.exists]

theorem written_of_not_erased
    (hwritten : e ∈ (written E block undo).addressIndex)
    (herased : e.1 ∉ keys (erased E block undo).addressIndex) :
    ∃ i j tx txin prevout, SpendsAt view block i j tx txin prevout ∧ isPayToPublicKey prevout.scriptPubKey = true ∧
      e = (⟨1, E.hash160 prevout.scriptPubKey.tail.dropLast, HVN, block.nHeight, i, tx.hash, j, true⟩, prevout.nValue * -1) := by
  rcases (mem_written hlength hsteps).mp hwritten with
    ⟨i, j, tx, txin, prevout, hspends, address, ha, rfl⟩ | hout
  · cases hpk : isPayToPublicKey prevout.scriptPubKey with
    | true =>
      rw [addressOfOut_pubkey hpk, some.injEq] at ha
      subst ha
      exact ⟨i, j, tx, txin, prevout, hspends, hpk, rfl⟩
    | false =>
      refine absurd ((mem_erased hlength hsteps).mpr (.inl ⟨i, j, tx, txin, prevout, hspends, ?_⟩)) herased
      rw [undoInputKey, hpk, if_neg Bool.false_ne_true, ha]
      rfl
  · obtain ⟨i, k, tx, out, hpays, address, ha, rfl⟩ := hout
    exact absurd ((mem_erased hlength hsteps).mpr (.inr ⟨i, k, tx, out, hpays, address, ha, rfl⟩)) herased

theorem pubkey_not_erased (hspends : SpendsAt view block i j tx txin prevout)
    (hpk : isPayToPublicKey prevout.scriptPubKey = true) (hash : Bytes) :
    (⟨1, hash, HVN, block.nHeight, i, tx.hash, j, true⟩ : CAddressIndexKey) ∉
      keys (erased E block undo).addressIndex := by
  rw [mem_erased hlength hsteps]
  rintro (⟨i', j', tx', txin', prevout', hspends', hkey⟩ | ⟨i', k, tx', out, -, address, -, heq⟩)
  · unfold undoInputKey at hkey
    split at hkey
    · exact absurd (congrArg spending (some.inj hkey)) Bool.false_ne_true
    · rename_i hpk'
      obtain ⟨address, -, heq⟩ := map_eq_some_iff.mp hkey
      have hi : i' = i := congrArg txindex heq
      have hj : j' = j := congrArg index heq
      subst hi hj
      obtain ⟨-, -, rfl⟩ := hspends.unique hspends'
      exact hpk' hpk
  · exact absurd (congrArg spending heq) (by simp [activityKey])

theorem written_pubkey (hspends : SpendsAt view block i j tx txin prevout)
    (hpk : isPayToPublicKey prevout.scriptPubKey = true) (f : CAddressIndexKey → Option CAmount) :
    run ((written E block undo).addressIndex.map
        fun e => (e.1, some e.2)) f ⟨1, E.hash160 prevout.scriptPubKey.tail.dropLast, HVN, block.nHeight, i, tx.hash, j, true⟩ =
      some (prevout.nValue * -1) := by
  rw [run_const (v := some (prevout.nValue * -1)), if_pos]
  · rw [keys, List.map_map]
    exact List.mem_map.mpr ⟨_, (mem_written hlength hsteps).mpr (.inl ⟨i, j, tx, txin, prevout, hspends, _,
      addressOfOut_pubkey hpk, rfl⟩), rfl⟩
  · intro w hw hkey
    obtain ⟨e, he, rfl⟩ := List.mem_map.mp hw
    dsimp only at hkey
    obtain ⟨i', j', tx', txin', prevout', hspends', -, rfl⟩ := written_of_not_erased hlength hsteps he
      (hkey ▸ pubkey_not_erased hlength hsteps hspends hpk _)
    have hi : i' = i := congrArg txindex hkey
    have hj : j' = j := congrArg index hkey
    subst hi hj
    obtain ⟨-, -, rfl⟩ := hspends.unique hspends'
    rfl

theorem addressIndex_restored_iff (f : CAddressIndexKey → Option CAmount) :
    (∀ key, run ((erased E block undo).addressIndex.map
        fun e => (e.1, none))
      (run ((written E block undo).addressIndex.map
        fun e => (e.1, some e.2)) f) key = f key) ↔
      (∀ i k tx out address, PaysAt block i k tx out → E.addressOfOut out = some address →
        f (activityKey address block.nHeight i tx.hash k false) = none) ∧
      (∀ i j tx txin prevout key, SpendsAt view block i j tx txin prevout →
        undoInputKey E block.nHeight i tx.hash j prevout = some key → f key = none) ∧
      ∀ i j tx txin prevout, SpendsAt view block i j tx txin prevout → isPayToPublicKey prevout.scriptPubKey = true →
        f ⟨1, E.hash160 prevout.scriptPubKey.tail.dropLast, HVN, block.nHeight, i, tx.hash, j, true⟩ =
          some (prevout.nValue * -1) := by
  have herase : ∀ (es : List (CAddressIndexKey × CAmount)) (g : CAddressIndexKey → Option CAmount) key,
      run (es.map fun e => (e.1, none)) g key = if key ∈ keys es then none else g key := by
    intro es g key
    have hkeys : keys (es.map fun e => ((e.1, none) : CAddressIndexKey × Option CAmount)) = keys es := by
      rw [keys, List.map_map]
      rfl
    rw [run_const (v := none), hkeys]
    intro w hw _
    obtain ⟨e, -, rfl⟩ := List.mem_map.mp hw
    rfl
  simp only [herase]
  constructor
  · intro h
    have hnone : ∀ key, key ∈ keys (erased E block undo).addressIndex → f key = none := fun key hkey => by rw [← h key, if_pos hkey]
    refine ⟨fun i k tx out address hpays ha => ?_, fun i j tx txin prevout key hspends hkey => ?_,
      fun i j tx txin prevout hspends hpk => ?_⟩
    · exact hnone _ ((mem_erased hlength hsteps).mpr (.inr ⟨i, k, tx, out, hpays, address, ha, rfl⟩))
    · exact hnone _ ((mem_erased hlength hsteps).mpr (.inl ⟨i, j, tx, txin, prevout, hspends, hkey⟩))
    · rw [← h, if_neg (pubkey_not_erased hlength hsteps hspends hpk _), written_pubkey hlength hsteps hspends hpk]
  · rintro ⟨houtputs, hinputs, hpubkeys⟩ key
    split
    · rename_i hkey
      rcases (mem_erased hlength hsteps).mp hkey with
        ⟨i, j, tx, txin, prevout, hspends, hkey⟩ | ⟨i, k, tx, out, hpays, address, ha, rfl⟩
      · exact (hinputs i j tx txin prevout key hspends hkey).symm
      · exact (houtputs i k tx out address hpays ha).symm
    · rename_i herased
      by_cases hwritten : key ∈ keys ((written E block undo).addressIndex.map fun e => (e.1, some e.2))
      · rw [keys, List.map_map] at hwritten
        obtain ⟨e, he, rfl⟩ := List.mem_map.mp hwritten
        obtain ⟨i, j, tx, txin, prevout, hspends, hpk, rfl⟩ := written_of_not_erased hlength hsteps he herased
        exact (written_pubkey hlength hsteps hspends hpk f).trans (hpubkeys i j tx txin prevout hspends hpk).symm
      · exact run_of_not_mem hwritten f

theorem spentIndex_restored_iff (hcheck : ∀ tx ∈ block.vtx, (tx.vin.map (·.prevout)).Nodup)
    (f : COutPoint → Option CSpentIndexValue) :
    (∀ out, run ((written E block undo).spentIndex.map
        fun e => (e.1, if e.2.isNull then none else some e.2)) f out = f out) ↔
      ∀ i j tx txin prevout, SpendsAt view block i j tx txin prevout →
        f txin.prevout = spentRecord E tx j block.nHeight prevout := by
  have hwritten : ∀ {i j tx txin prevout}, SpendsAt view block i j tx txin prevout →
      run ((written E block undo).spentIndex.map
        fun e => (e.1, if e.2.isNull then none else some e.2)) f txin.prevout = spentRecord E tx j block.nHeight prevout := by
    intro i j tx txin prevout hspends
    rw [run_const (v := spentRecord E tx j block.nHeight prevout), if_pos]
    · rw [keys, List.map_map]
      exact List.mem_map.mpr ⟨_, (mem_spent hlength hsteps).mpr ⟨i, j, tx, txin, prevout, hspends, rfl⟩, rfl⟩
    · intro w hw hkey
      obtain ⟨e, he, rfl⟩ := List.mem_map.mp hw
      obtain ⟨i', j', tx', txin', prevout', hspends', rfl⟩ := (mem_spent hlength hsteps).mp he
      obtain ⟨rfl, rfl⟩ := spendsAt_once hlength hsteps hcheck hspends hspends' hkey.symm
      obtain ⟨rfl, -, rfl⟩ := hspends.unique hspends'
      rfl
  constructor
  · intro h i j tx txin prevout hspends
    rw [← h, hwritten hspends]
  · intro h out
    by_cases hmem : out ∈ keys ((written E block undo).spentIndex.map fun e => (e.1, if e.2.isNull then none else some e.2))
    · rw [keys, List.map_map] at hmem
      obtain ⟨e, he, rfl⟩ := List.mem_map.mp hmem
      obtain ⟨i, j, tx, txin, prevout, hspends, rfl⟩ := (mem_spent hlength hsteps).mp he
      exact (hwritten hspends).trans (h i j tx txin prevout hspends).symm
    · exact run_of_not_mem hmem f

end

/-- Connecting a block and undoing it leaves both indexes as they were exactly if what it leaves behind was there before. -/
theorem indexes_restored_iff {S S' : Store} {assets assets' assets₂ : CAssetsCache} {db db₁ db₂ : Indexes} {cs : ConnectState}
    {result : DisconnectResult} {view₂ : CoinsView} (hhistory : TxHistory ids n txs view)
    (hname : ∀ tx ∈ block.vtx, ids tx.hash = tx) (hheight : block.nHeight = n + 1) (hcoinbase : checkCoinbaseHeight block = true)
    (hconnect : connectBlockIndexed E S R .both mempool view assets db block = .ok (cs, db₁))
    (hdisconnect : disconnectBlockIndexed E S' .both cs.view assets' db₁ block cs.undo = (result, view₂, assets₂, db₂))
    (hresult : result ≠ .DISCONNECT_FAILED) : IndexesRestored db db₂ ↔ LeavesNothing E view db block := by
  obtain ⟨hblock, -⟩ := connectBlockIndexed_ok.mp hconnect
  obtain ⟨-, -, -, -, -, -, hcheck, -⟩ := connectBlock_ok hblock
  obtain ⟨hlength, hsteps, -⟩ := connectBlock_history hhistory hname hheight hcoinbase hblock
  have hnodup : ∀ tx ∈ block.vtx, (tx.vin.map (·.prevout)).Nodup := fun tx htx => (checkTransaction_ok (hcheck tx htx)).nodup rfl
  have hdb₁ : db₁ = db.connect .both (written E block cs.undo) := connectBlockIndexed_db hlength hsteps hconnect
  have hdb₂ : db₂ = db₁.disconnect .both (erased E block cs.undo) := by
    rw [disconnectBlockIndexed_eq hsteps.kept] at hdisconnect
    split at hdisconnect
    · cases hdisconnect
      exact absurd rfl hresult
    · cases hdisconnect
      rfl
  unfold IndexesRestored
  rw [hdb₂, hdb₁, Indexes.disconnect_addressIndex _ _ rfl, Indexes.connect_addressIndex _ _ rfl, Indexes.disconnect_spentIndex,
    Indexes.connect_spentIndex _ _ rfl]
  rw [addressIndex_restored_iff hlength hsteps, spentIndex_restored_iff hlength hsteps hnodup]
  exact ⟨fun h => ⟨h.1.1, h.1.2.1, h.1.2.2, h.2⟩, fun h => ⟨⟨h.outputs, h.inputs, h.pubkeys⟩, h.spent⟩⟩

namespace Regtest

/-- The chain of these blocks on genesis, with both indexes. -/
def runIndexed (E : Env) (blocks : List CBlock) : Except Reject IndexedNode :=
  blocks.foldlM (fun node block => (connectTipIndexed E (Rules.none.withReward E params) .both ⟨∅, ∅⟩ node block).map Prod.fst)
    ⟨⟨fun _ => none, ∅⟩, ∅⟩

def pubkeyOut : CTxOut := ⟨0, 33 :: 2 :: List.replicate 32 7 ++ [OP_CHECKSIG]⟩

def pubkeyChain : List CBlock := blockAt 1 [] [pubkeyOut] :: (List.range 99).map fun k => blockAt (k + 2) [] []

def spendPubkey : CBlock := blockAt 101 [⟨[⟨⟨1001, 2⟩, []⟩], [⟨0, scriptForKeyID bob⟩], 9⟩] []

def pubkeyKey : CAddressIndexKey := ⟨1, env.hash160 (2 :: List.replicate 32 7), HVN, 101, 1, 9, 0, true⟩

/-- The block is undone cleanly, but both indexes keep a record of its input. -/
theorem pubkey_spend_left_behind :
    ∃ node cs db₁ view₂ assets₂ db₂, runIndexed env pubkeyChain = .ok node ∧
      connectBlockIndexed env node.chain.store (Rules.none.withReward env params) .both ⟨∅, ∅⟩ node.chain.coins ∅ node.db
        spendPubkey = .ok (cs, db₁) ∧
      disconnectBlockIndexed env (node.chain.store.flush cs.assets) .both cs.view ∅ db₁ spendPubkey cs.undo =
        (.DISCONNECT_OK, view₂, assets₂, db₂) ∧
      node.db.addressIndex.get? pubkeyKey = none ∧ db₂.addressIndex.get? pubkeyKey = some 0 ∧
      node.db.spentIndex.get? ⟨1001, 2⟩ = none ∧ (db₂.spentIndex.get? ⟨1001, 2⟩).isSome = true ∧
      ¬ IndexesRestored node.db db₂ := by
  have h : ((runIndexed env pubkeyChain).toOption.any fun node =>
      (connectBlockIndexed env node.chain.store (Rules.none.withReward env params) .both ⟨∅, ∅⟩ node.chain.coins ∅ node.db
        spendPubkey).toOption.any fun r =>
      let undone := disconnectBlockIndexed env (node.chain.store.flush r.1.assets) .both r.1.view ∅ r.2 spendPubkey r.1.undo
      undone.1 = .DISCONNECT_OK ∧ node.db.addressIndex.get? pubkeyKey = none ∧
        undone.2.2.2.addressIndex.get? pubkeyKey = some 0 ∧ node.db.spentIndex.get? ⟨1001, 2⟩ = none ∧
        (undone.2.2.2.spentIndex.get? ⟨1001, 2⟩).isSome = true) = true := by decide +kernel
  obtain ⟨node, hrun, hnode⟩ := (any_eq_true ..).mp h
  obtain ⟨⟨cs, db₁⟩, hconnect, hblock⟩ := (any_eq_true ..).mp hnode
  obtain ⟨hresult, hbefore, hafter, hspent, hkept⟩ := of_decide_eq_true hblock
  refine ⟨node, cs, db₁, _, _, _, toOption_eq_some.mp hrun, toOption_eq_some.mp hconnect, Prod.ext hresult rfl, hbefore, hafter,
    hspent, hkept, fun hrestored => ?_⟩
  have hsame := hrestored.1 pubkeyKey
  rw [hbefore, hafter] at hsame
  cases hsame

/-- The first block spends nothing, and undoing it restores the empty indexes. -/
theorem first_block_indexes_restored :
    ∃ cs db₁ view₂ assets₂ db₂,
      connectBlockIndexed env ∅ (Rules.none.withReward env params) .both ⟨∅, ∅⟩ (fun _ => none) ∅ ∅ (blockAt 1 [] []) =
        .ok (cs, db₁) ∧
      disconnectBlockIndexed env (Store.flush ∅ cs.assets) .both cs.view ∅ db₁ (blockAt 1 [] []) cs.undo =
        (.DISCONNECT_OK, view₂, assets₂, db₂) ∧ IndexesRestored ∅ db₂ := by
  have h : ((connectBlockIndexed env ∅ (Rules.none.withReward env params) .both ⟨∅, ∅⟩ (fun _ => none) ∅ ∅
      (blockAt 1 [] [])).toOption.any fun r =>
      (disconnectBlockIndexed env (Store.flush ∅ r.1.assets) .both r.1.view ∅ r.2 (blockAt 1 [] []) r.1.undo).1 =
        .DISCONNECT_OK) = true := by decide +kernel
  obtain ⟨⟨cs, db₁⟩, hconnect, hblock⟩ := (any_eq_true ..).mp h
  have hresult := of_decide_eq_true hblock
  have hspends : ∀ {i j tx txin prevout}, ¬ SpendsAt (fun _ => none) (blockAt 1 [] []) i j tx txin prevout := by
    intro i j tx txin prevout hspends
    have hmem : tx = coinbaseAt 1 [] := List.mem_singleton.mp (List.mem_of_getElem? hspends.member)
    have hplain := hspends.plain
    rw [hmem] at hplain
    cases hplain
  refine ⟨cs, db₁, _, _, _, toOption_eq_some.mp hconnect, Prod.ext hresult rfl, (indexes_restored_iff
    (TxHistory.empty fun _ => coinbaseAt 1 []) (fun tx htx => (List.mem_singleton.mp htx).symm) rfl (by decide +kernel)
    (toOption_eq_some.mp hconnect) (Prod.ext hresult rfl) nofun).mpr ?_⟩
  exact ⟨fun _ _ _ _ _ _ _ => rfl, fun _ _ _ _ _ _ h => absurd h hspends, fun _ _ _ _ _ h => absurd h hspends,
    fun _ _ _ _ _ h => absurd h hspends⟩

end Regtest

end Hivecoin

import Hivecoin.Cache.DumpWrites
import Hivecoin.Chain.Lemmas.TxHistory
import Hivecoin.Chain.Replay
import Hivecoin.Chain.Reward

/-!
# Recovery of the coin database

From any state that a flush leaves half way, undoing the old branch and redoing the new one gives the coins of the new tip.
-/

namespace Hivecoin

open CAssetsCache Outcome Writes CBlockIndex Option CCoinsViewDB BlockFiles

variable {E : Env} {S : Store} {R : Rules} {mempool : MempoolMaps} {files : BlockFiles} {hashGenesisBlock : Uint256}
  {ids : Uint256 → CTransaction} {view : CoinsView}
variable {block : CBlock} {i : CBlockIndex} {bs : List CBlock} {base : CoinsView} {undo : CBlockUndo}

def blockWrites (block : CBlock) : List CoinWrite := block.vtx.flatMap fun tx => txWrites tx block.nHeight

/-- The coins after the blocks up to an entry, accepted and readable with their undo data. The genesis outputs are not coins. -/
inductive ChainCoins (files : BlockFiles) : CBlockIndex → CoinsView → Prop
  | genesis : ChainCoins files .genesis fun _ => none
  | next {pprev block view E S R mempool assets cs} (hprev : ChainCoins files pprev view)
      (hheight : block.nHeight = pprev.nHeight + 1) (hcoinbase : checkCoinbaseHeight block = true)
      (hconnect : connectBlock E S R mempool view assets block = .ok cs)
      (hblock : files.block block.hash = some block) (hundo : files.undo block.hash = some cs.undo) :
      ChainCoins files (.next pprev block) cs.view

def TipCoins (files : BlockFiles) : Option CBlockIndex → CoinsView → Prop
  | none, view => view = fun _ => none
  | some tip, view => ChainCoins files tip view

theorem connectTx_run {st st' tx} (h : connectTx E S R mempool block st tx = .ok st') : st'.view = run (txWrites tx block.nHeight) st.view := by
  obtain ⟨nFees, r, -, -, -, hr, rfl⟩ := connectTx_ok h
  exact updateCoins_run hr

theorem connectBlock_run {assets cs} (h : connectBlock E S R mempool view assets block = .ok cs) : cs.view = run (blockWrites block) view := by
  simp only [connectBlock, connectTxs, ok_iff] at h
  obtain ⟨-, st, hloop, -, rfl⟩ := h
  unfold blockWrites
  generalize block.vtx = vtx at hloop ⊢
  suffices ∀ st0 : ConnectState, vtx.foldlM (connectTx E S R mempool block) st0 = .ok st →
      st.view = run (vtx.flatMap fun tx => txWrites tx block.nHeight) st0.view from this _ hloop
  clear hloop
  induction vtx with
  | nil =>
    intro st0 h
    rw [List.foldlM_nil, pure_eq_ok] at h
    rw [h, List.flatMap_nil, run_nil]
  | cons tx vtx ih =>
    intro st0 h
    obtain ⟨st1, h1, h2⟩ := foldlM_cons_ok.mp h
    rw [ih st1 h2, connectTx_run h1, List.flatMap_cons, run_append]

theorem ChainCoins.run (h : ChainCoins files i view) :
    view = Writes.run (i.blocks.flatMap blockWrites) fun _ => none := by
  induction h with
  | genesis => rfl
  | next hprev hheight hcoinbase hconnect hblock hundo ih =>
    rw [connectBlock_run hconnect, ih, blocks, List.flatMap_append, run_append, List.flatMap_singleton]

theorem ChainCoins.above (hbase : ChainCoins files i base) (h : ChainCoins files (i.extend bs) view) : view = Writes.run (bs.flatMap blockWrites) base := by
  rw [h.run, hbase.run, blocks_extend, List.flatMap_append, run_append]

theorem ChainCoins.ancestor (h : ChainCoins files (i.extend bs) view) : ∃ base, ChainCoins files i base := by
  induction bs using List.reverseRecOn generalizing view with
  | nil => exact ⟨view, h⟩
  | append_singleton bs b ih =>
    rw [extend_concat] at h
    cases h with
    | next hprev => exact ih hprev

theorem ChainCoins.history (h : ChainCoins files i view) (hids : ∀ b ∈ i.blocks, ∀ tx ∈ b.vtx, ids tx.hash = tx) :
    TxHistory ids i.nHeight (i.blocks.flatMap CBlock.vtx) view := by
  induction h with
  | genesis => exact .empty ids
  | next hprev hheight hcoinbase hconnect hblock hundo ih =>
    have hhistory := ih fun b hb => hids b (List.mem_append_left _ hb)
    have hnames := hids _ (List.mem_append_right _ (List.mem_singleton.mpr rfl))
    rw [blocks, List.flatMap_append, List.flatMap_singleton]
    exact (connectBlock_history hhistory hnames hheight hcoinbase hconnect).2.2

theorem flatMap_txWrites_undoEntries (h : undo.vtxundo.length + 1 = block.vtx.length) :
    ((undoEntries block undo).flatMap fun entry => txWrites entry.1 block.nHeight) = blockWrites block := by
  have hfst : (undoEntries block undo).map Prod.fst = block.vtx :=
    List.map_fst_zip (by rw [List.length_cons, List.length_map, h])
  rw [blockWrites, ← hfst, List.flatMap_map]

def undoBlockAssets (E : Env) (S : Store) (block : CBlock) (undo : CBlockUndo) (c : CAssetsCache) : Option CAssetsCache :=
  (undoEntries block undo).reverse.foldlM (undoTxAssets E S undo.vUndoAssetData) c

/-- What rolling back a branch down to the fork does to the assets. -/
def undoBranch (E : Env) (S : Store) (files : BlockFiles) (fork : CBlockIndex) :
    CBlockIndex → CAssetsCache → Option CAssetsCache
  | .genesis, c => some c
  | .next pprev block, c =>
    if .next pprev block = fork then some c
    else do
      let undo ← files.undo block.hash
      undoBranch E S files fork pprev (← undoBlockAssets E S block undo c)

/-- The result of a step that fails only where its asset side does. -/
def undone (view : CoinsView) (assets : Option CAssetsCache) : Except String ReplayState :=
  (orError assets "RollbackBlock(): DisconnectBlock failed").map (⟨view, ·⟩)

theorem rollbackBlock_eq {pprev} (hblock : files.block block.hash = some block)
    (hundo : files.undo block.hash = some undo) (hlength : undo.vtxundo.length + 1 = block.vtx.length)
    (hkept : ∀ entry ∈ undoEntries block undo, KeptEntry entry) (st : ReplayState) :
    rollbackBlock E S files hashGenesisBlock (.next pprev block) st =
      undone (run ((undoEntries block undo).reverse.flatMap txUndoWrites) st.view)
        (undoBlockAssets E S block undo st.assets) := by
  have hkept' : ∀ entry ∈ (undoEntries block undo).reverse, KeptEntry entry := fun e he => hkept e (List.mem_reverse.mp he)
  have hread : ∀ r, disconnectBlock E S st.view st.assets block undo = r →
      rollbackBlock E S files hashGenesisBlock (.next pprev block) st =
        if r.1 = .DISCONNECT_FAILED then .error "RollbackBlock(): DisconnectBlock failed" else .ok ⟨r.2.1, r.2.2⟩ := by
    rintro ⟨result, view, assets⟩ hr
    simp only [rollbackBlock, CBlockIndex.nHeight, CBlockIndex.hash, hblock, hundo, Nat.succ_pos, if_true, orError_some_bind, hr]
    cases result <;> rfl
  rw [undoBlockAssets, ← @disconnectTxs_assets_eq E S block.nHeight _ _ hkept' ⟨st.view, st.assets, st.assets, true⟩]
  cases hloop : (undoEntries block undo).reverse.foldlM (disconnectTx E S block.nHeight undo.vUndoAssetData)
      ⟨st.view, st.assets, st.assets, true⟩ with
  | none =>
    rw [undoEntries] at hloop
    rw [hread (.DISCONNECT_FAILED, st.view, st.assets) (by simp only [disconnectBlock, if_neg (not_not.mpr hlength), hloop])]
    rfl
  | some st' =>
    have hrun : st'.view = _ := disconnectTxs_run hkept' hloop
    rw [undoEntries] at hloop
    rw [hread (if st'.fClean then .DISCONNECT_OK else .DISCONNECT_UNCLEAN, st'.view, st'.assets)
      (by simp only [disconnectBlock, if_neg (not_not.mpr hlength), hloop]), map_some, ← hrun]
    cases st'.fClean <;> rfl

theorem rollback_extend {fork} (hbase : ChainCoins files fork base) (h : ChainCoins files (fork.extend bs) view)
    (hids : ∀ b ∈ (fork.extend bs).blocks, ∀ tx ∈ b.vtx, ids tx.hash = tx) :
    ∃ us, Undoes us (bs.flatMap blockWrites) base ∧ ∀ st, rollback E S files hashGenesisBlock fork (fork.extend bs) st =
      undone (run us st.view) (undoBranch E S files fork (fork.extend bs) st.assets) := by
  induction bs using List.reverseRecOn generalizing view with
  | nil =>
    refine ⟨[], .nil base, fun st => ?_⟩
    rw [extend_nil]
    cases fork <;> simp [rollback, undoBranch] <;> rfl
  | append_singleton bs b ih =>
    have hne : (fork.extend bs).next b ≠ fork := fun heq => by
      have := congrArg nHeight heq
      rw [nHeight, nHeight_extend] at this
      omega
    rw [extend_concat] at h hids ⊢
    rw [blocks] at hids
    cases h with
    | next hprev hheight hcoinbase hconnect hblock hundo =>
      have hids' : ∀ b ∈ (fork.extend bs).blocks, ∀ tx ∈ b.vtx, ids tx.hash = tx := fun b hb =>
        hids b (List.mem_append_left _ hb)
      obtain ⟨hlength, hconnected, -⟩ := connectBlock_history (hprev.history hids')
        (hids b (List.mem_append_right _ (List.mem_singleton.mpr rfl))) hheight hcoinbase hconnect
      obtain ⟨us, hus, hrest⟩ := ih hprev hids'
      have hundoes := hconnected.undoes
      rw [flatMap_txWrites_undoEntries hlength, hbase.above hprev] at hundoes
      have hall := hus.append hundoes
      rw [← List.flatMap_singleton blockWrites, ← List.flatMap_append] at hall
      refine ⟨_, hall, fun st => ?_⟩
      rw [rollback, if_neg hne, rollbackBlock_eq hblock hundo hlength hconnected.kept, run_append, undoBranch, if_neg hne,
        hundo, bind_eq_bind, bind_some]
      cases undoBlockAssets E S b _ st.assets with
      | none => rfl
      | some assets => exact hrest _

theorem CoinsView.spend_eq (view : CoinsView) (out : COutPoint) : view.spend out = Function.update view out none := by
  unfold CoinsView.spend
  split
  · rename_i hnone
    exact (Function.update_eq_self_iff.mpr hnone.symm).symm
  · rfl

theorem rollforwardTx_run (nHeight : Nat) (view : CoinsView) (tx : CTransaction) :
    rollforwardTx nHeight view tx = run (txWrites tx nHeight) view := by
  have hspend : ∀ (vin : List CTxIn) (view : CoinsView), vin.foldl (fun view txin => view.spend txin.prevout) view =
      run (vin.map fun txin => (txin.prevout, none)) view := by
    intro vin
    induction vin with
    | nil => intro view; rfl
    | cons txin vin ih =>
      intro view
      rw [List.foldl_cons, ih, CoinsView.spend_eq]
      rfl
  rw [rollforwardTx, addOutCoins_eq, txWrites, run_append, inputWrites]
  cases tx.isCoinBase with
  | true => rfl
  | false => simp [hspend]

theorem rollforwardBlock_run {pprev} (hblock : files.block block.hash = some block)
    (hheight : block.nHeight = pprev.nHeight + 1) (view : CoinsView) :
    rollforwardBlock files hashGenesisBlock (.next pprev block) view = .ok (run (blockWrites block) view) := by
  refine bind_eq_ok.mpr ⟨block, orError_eq_ok.mpr hblock, ?_⟩
  rw [pure_eq_ok, nHeight, ← hheight, blockWrites]
  generalize block.vtx = vtx
  induction vtx generalizing view with
  | nil => rfl
  | cons tx vtx ih => rw [List.foldl_cons, ih, rollforwardTx_run, List.flatMap_cons, run_append]

theorem rollforward_extend {fork : CBlockIndex} {cs : List CBlock} {viewNew}
    (h : ChainCoins files (fork.extend cs) viewNew) (view : CoinsView) :
    rollforward files hashGenesisBlock (fork.extend cs) fork.nHeight view = .ok (run (cs.flatMap blockWrites) view) := by
  rw [rollforward, nHeight_extend, Nat.add_sub_cancel_left]
  suffices hloop : ∀ n ≤ cs.length, (List.range' (fork.nHeight + 1) n).foldlM (fun view nHeight => do
      let pindex ← orError ((fork.extend cs).getAncestor nHeight) "pindexNew"
      rollforwardBlock files hashGenesisBlock pindex view) view = .ok (run ((cs.take n).flatMap blockWrites) view) by
    rw [hloop cs.length le_rfl, List.take_length]
  intro n hn
  induction n with
  | zero => rfl
  | succ n ih =>
    have hblock : ∃ base, ChainCoins files (.next (fork.extend (cs.take n)) cs[n]) base := by
      rw [← List.take_append_drop (n + 1) cs, extend_append] at h
      obtain ⟨base, hbase⟩ := h.ancestor
      refine ⟨base, ?_⟩
      rwa [← extend_concat, List.take_append_getElem]
    obtain ⟨base, hbase⟩ := hblock
    cases hbase with
    | next hprev hheight hcoinbase hconnect hblock hundo =>
      rw [List.range'_concat, List.foldlM_append, bind_eq_ok]
      refine ⟨_, ih (by omega), ?_⟩
      rw [List.foldlM_cons, Nat.one_mul, Nat.add_right_comm, Nat.add_assoc, getAncestor_extend fork hn,
        ← List.take_append_getElem hn, extend_concat]
      refine bind_eq_ok.mpr ⟨_, bind_eq_ok.mpr ⟨_, rfl, rollforwardBlock_run hblock hheight _⟩, ?_⟩
      rw [List.foldlM_nil, pure_eq_ok, List.flatMap_append, run_append, List.flatMap_singleton]

variable {mapBlockIndex : Uint256 → Option CBlockIndex} {old : Option CBlockIndex} {new : CBlockIndex}
  {viewOld viewNew : CoinsView} {db db' : CCoinsViewDB}

/-- A flush from the coins of `old` to those of `new` that has made some of its writes. -/
structure Interrupted (hashGenesisBlock : Uint256) (old : Option CBlockIndex) (new : CBlockIndex)
    (viewOld viewNew : CoinsView) (db : CCoinsViewDB) : Prop where
  bestBlock : db.bestBlock = none
  headBlocks : db.headBlocks = [new.hash hashGenesisBlock, old.elim 0 (hash hashGenesisBlock)]
  coins : Between viewOld viewNew db.coins

/-- Two tips with their coins, whose blocks are in the index and can be read back. -/
structure KnownTips (files : BlockFiles) (hashGenesisBlock : Uint256) (mapBlockIndex : Uint256 → Option CBlockIndex)
    (ids : Uint256 → CTransaction) (old : Option CBlockIndex) (new : CBlockIndex) (viewOld viewNew : CoinsView) : Prop where
  oldCoins : TipCoins files old viewOld
  newCoins : ChainCoins files new viewNew
  newIndex : mapBlockIndex (new.hash hashGenesisBlock) = some new
  oldIndex : ∀ tip, old = some tip → tip.hash hashGenesisBlock ≠ 0 ∧ mapBlockIndex (tip.hash hashGenesisBlock) = some tip
  ids : ∀ tip, old = some tip → ∀ b ∈ tip.blocks, ∀ tx ∈ b.vtx, ids tx.hash = tx

/-- The assets after the old branch is rolled back, from a copy of `passets`. -/
def undoneAssets (E : Env) (S : Store) (files : BlockFiles) (old : Option CBlockIndex) (new : CBlockIndex) :
    Option CAssetsCache :=
  match old with
  | none => some S.passets
  | some tip => do undoBranch E S files (← tip.lastCommonAncestor new) tip S.passets

/-- The recovered coins are those of the new tip, finitely many of them to be written. -/
theorem replayBlocks_eq (hknown : KnownTips files hashGenesisBlock mapBlockIndex ids old new viewOld viewNew)
    (hdb : Interrupted hashGenesisBlock old new viewOld viewNew db) :
    replayBlocks E S files hashGenesisBlock mapBlockIndex db =
      (orError (undoneAssets E S files old new) "RollbackBlock(): DisconnectBlock failed").map
        (fun assets => some ⟨viewNew, new.hash hashGenesisBlock, assets⟩) ∧
      ∃ changed : List COutPoint, ∀ out, out ∉ changed → viewNew out = db.coins out := by
  -- from the fork on, the old branch is undone and the new one made again
  suffices hfork : ∃ (fork : Option CBlockIndex) (us : List CoinWrite) (cs : List CBlock),
      rollbackTo E S files hashGenesisBlock mapBlockIndex new
        (old.elim 0 (hash hashGenesisBlock)) ⟨db.coins, S.passets⟩ =
          (undone (run us db.coins) (undoneAssets E S files old new)).map (fork, ·) ∧
      new = (fork.getD .genesis).extend cs ∧ (fork.elim 0 nHeight) = (fork.getD .genesis).nHeight ∧
      run (cs.flatMap blockWrites) (run us db.coins) = viewNew by
    obtain ⟨fork, us, cs, hback, hnew, hheight, hview⟩ := hfork
    refine ⟨?_, keys us ++ keys (cs.flatMap blockWrites), fun out hout => ?_⟩
    · have hforward : rollforward files hashGenesisBlock new (fork.elim 0 nHeight) (run us db.coins) = .ok viewNew := by
        rw [hheight, ← hview, hnew]
        exact rollforward_extend (hnew ▸ hknown.newCoins) _
      rw [replayBlocks, hdb.headBlocks]
      dsimp only
      rw [hknown.newIndex, orError_some_bind, hback]
      cases undoneAssets E S files old new with
      | none => rfl
      | some assets =>
        rw [undone, orError]
        dsimp only [Except.map, bind, Except.bind]
        rw [hforward]
        rfl
    · rw [List.mem_append, not_or] at hout
      rw [← hview, run_of_not_mem hout.2, run_of_not_mem hout.1]
  cases old with
  | none =>
    have hold : viewOld = fun _ => none := hknown.oldCoins
    refine ⟨none, [], new.blocks, rfl, (extend_blocks new).symm, rfl, ?_⟩
    rw [hknown.newCoins.run]
    refine (Undoes.nil _).recover ?_
    rw [← hknown.newCoins.run, run_nil, ← hold]
    exact hdb.coins
  | some tip =>
    obtain ⟨hnull, hindex⟩ := hknown.oldIndex tip rfl
    obtain ⟨fork, bs, cs, hlca, rfl, hnew⟩ := lastCommonAncestor_spec tip new
    have hold : ChainCoins files (fork.extend bs) viewOld := hknown.oldCoins
    have hcoins := hknown.newCoins
    rw [hnew] at hcoins
    obtain ⟨base, hbase⟩ := hold.ancestor
    obtain ⟨us, hus, hback⟩ := rollback_extend (E := E) (S := S) hbase hold (hknown.ids _ rfl)
    refine ⟨some fork, us, cs, ?_, hnew, rfl, ?_⟩
    · rw [rollbackTo, elim_some, if_neg hnull, hindex, undoneAssets, hlca, bind_eq_bind, bind_some]
      rw [orError_some_bind, hlca, orError_some_bind, hback]
      cases undoBranch E S files fork (fork.extend bs) S.passets <;> rfl
    · rw [hbase.above hcoins]
      refine hus.recover ?_
      rw [← hbase.above hcoins, ← hbase.above hold]
      exact hdb.coins

theorem replayBlocks_eq_ok (hknown : KnownTips files hashGenesisBlock mapBlockIndex ids old new viewOld viewNew)
    (hdb : Interrupted hashGenesisBlock old new viewOld viewNew db) {r} :
    replayBlocks E S files hashGenesisBlock mapBlockIndex db = .ok (some r) ↔
      ∃ assets, undoneAssets E S files old new = some assets ∧ r = ⟨viewNew, new.hash hashGenesisBlock, assets⟩ := by
  rw [(replayBlocks_eq hknown hdb).1]
  cases undoneAssets E S files old new with
  | none => exact iff_of_false nofun nofun
  | some assets => simp [orError, Except.map, eq_comm]

theorem getLast?_writeBatches (hashBlock old_tip : Uint256) (last : List CoinWrite) (batches : List (List CoinWrite))
    (db : CCoinsViewDB) : (writeBatches hashBlock old_tip last db batches).getLast? =
      some ⟨run (batches.flatten ++ last) db.coins, some hashBlock, []⟩ := by
  induction batches generalizing db with
  | nil => rfl
  | cons batch batches ih =>
    rw [writeBatches, List.getLast?_cons, ih, List.flatten_cons, List.append_assoc, run_append batch]
    rfl

/-- Before the last batch the database has the batches so far and two head blocks. -/
theorem mem_dropLast_writeBatches {hashBlock old_tip last batches}
    (h : db' ∈ (writeBatches hashBlock old_tip last db batches).dropLast) :
    ∃ done, done <+: batches ∧ db' = ⟨run done.flatten db.coins, none, [hashBlock, old_tip]⟩ := by
  induction batches generalizing db with
  | nil => cases h
  | cons batch batches ih =>
    have hne : writeBatches hashBlock old_tip last
        ⟨run batch db.coins, none, [hashBlock, old_tip]⟩ batches ≠ [] := by
      cases batches <;> exact List.cons_ne_nil _ _
    rw [writeBatches, List.dropLast_cons_of_ne_nil hne, List.mem_cons] at h
    rcases h with rfl | h
    · exact ⟨[batch], ⟨batches, rfl⟩, by rw [List.flatten_singleton]⟩
    · obtain ⟨done, hdone, rfl⟩ := ih h
      exact ⟨batch :: done, List.cons_prefix_cons.mpr ⟨rfl, hdone⟩, by rw [List.flatten_cons, run_append]⟩

theorem DirtyEntries.run_eq {entries} (h : DirtyEntries base view entries) : run entries base = view := by
  funext out
  by_cases hout : out ∈ keys entries
  · exact run_values h.1 hout base
  · rw [run_of_not_mem hout, h.2 out hout]

theorem exists_dirtyEntries {base} {changed : List COutPoint}
    (h : ∀ out, out ∉ changed → view out = base out) : ∃ entries, DirtyEntries base view entries := by
  refine ⟨changed.map fun out => (out, view out), fun entry hentry => ?_, fun out hout => h out ?_⟩
  · obtain ⟨out, -, rfl⟩ := List.mem_map.mp hentry
    rfl
  · rw [keys, List.map_map] at hout
    exact fun hmem => hout (List.mem_map.mpr ⟨out, hmem, rfl⟩)

theorem Interrupted.oldTip (hdb : Interrupted hashGenesisBlock old new viewOld viewNew db) :
    db.oldTip (new.hash hashGenesisBlock) = some (old.elim 0 (hash hashGenesisBlock)) := by
  rw [CCoinsViewDB.oldTip, CCoinsViewDB.getBestBlock, hdb.bestBlock, getD_none, if_pos rfl, hdb.headBlocks]
  exact if_pos rfl

/-- The database at a later start, after recoveries that stopped before their last batch. -/
inductive Restarts (files : BlockFiles) (hashGenesisBlock : Uint256) (mapBlockIndex : Uint256 → Option CBlockIndex) :
    CCoinsViewDB → CCoinsViewDB → Prop
  | refl (db : CCoinsViewDB) : Restarts files hashGenesisBlock mapBlockIndex db db
  | next {db db1 db2 E S r batches last dbs} (h : Restarts files hashGenesisBlock mapBlockIndex db db1)
      (hreplay : replayBlocks E S files hashGenesisBlock mapBlockIndex db1 = .ok (some r))
      (hentries : DirtyEntries db1.coins r.view (batches.flatten ++ last))
      (hwrite : db1.batchWrite batches last r.hashBlock = some dbs) (hstop : db2 ∈ dbs.dropLast) :
      Restarts files hashGenesisBlock mapBlockIndex db db2

theorem Restarts.interrupted (hknown : KnownTips files hashGenesisBlock mapBlockIndex ids old new viewOld viewNew)
    (h : Restarts files hashGenesisBlock mapBlockIndex db db')
    (hdb : Interrupted hashGenesisBlock old new viewOld viewNew db) :
    Interrupted hashGenesisBlock old new viewOld viewNew db' := by
  induction h with
  | refl => exact hdb
  | next h hreplay hentries hwrite hstop ih =>
    obtain ⟨assets, -, rfl⟩ := (replayBlocks_eq_ok hknown ih).mp hreplay
    rw [batchWrite, ih.oldTip, map_some, some.injEq] at hwrite
    subst hwrite
    obtain ⟨done, ⟨rest, hrest⟩, rfl⟩ := mem_dropLast_writeBatches hstop
    refine ⟨rfl, rfl, ih.coins.run fun w hw => hentries.1 w (List.mem_append_left _ ?_)⟩
    rw [← hrest, List.flatten_append]
    exact List.mem_append_left _ hw

/-- `ReplayBlocks` succeeds, and its flush ends with these coins and this block. -/
def Recovers (E : Env) (S : Store) (files : BlockFiles) (hashGenesisBlock : Uint256)
    (mapBlockIndex : Uint256 → Option CBlockIndex) (db : CCoinsViewDB) (view : CoinsView) (hashBlock : Uint256) : Prop :=
  ∃ r, replayBlocks E S files hashGenesisBlock mapBlockIndex db = .ok (some r) ∧
    (∃ entries, DirtyEntries db.coins r.view entries) ∧
    ∀ batches last, DirtyEntries db.coins r.view (batches.flatten ++ last) →
      ∃ dbs, db.batchWrite batches last r.hashBlock = some dbs ∧ dbs.getLast? = some ⟨view, some hashBlock, []⟩

/-- From every state that an interrupted flush leaves, also after interrupted recoveries, the coins of the new tip are recovered
just where the assets of the old branch can be undone. -/
theorem replayBlocks_recovers_iff (hknown : KnownTips files hashGenesisBlock mapBlockIndex ids old new viewOld viewNew)
    (hdb : Interrupted hashGenesisBlock old new viewOld viewNew db)
    (hrestarts : Restarts files hashGenesisBlock mapBlockIndex db db') (E : Env) (S : Store) :
    Recovers E S files hashGenesisBlock mapBlockIndex db' viewNew (new.hash hashGenesisBlock) ↔
      (undoneAssets E S files old new).isSome := by
  have hdb' := hrestarts.interrupted hknown hdb
  constructor
  · rintro ⟨r, hreplay, -⟩
    obtain ⟨assets, hassets, -⟩ := (replayBlocks_eq_ok hknown hdb').mp hreplay
    rw [hassets, isSome_some]
  · intro hsome
    obtain ⟨assets, hassets⟩ := isSome_iff_exists.mp hsome
    obtain ⟨-, changed, hchanged⟩ := @replayBlocks_eq E S _ _ _ _ _ _ _ _ _ hknown hdb'
    refine ⟨_, (replayBlocks_eq_ok hknown hdb').mpr ⟨assets, hassets, rfl⟩, exists_dirtyEntries hchanged, ?_⟩
    intro batches last hentries
    refine ⟨_, by rw [batchWrite, hdb'.oldTip, map_some], ?_⟩
    rw [getLast?_writeBatches, hentries.run_eq]

/-! ## Writing blocks -/

def BlockFiles.add (files : BlockFiles) (block : CBlock) (undo : CBlockUndo) : BlockFiles where
  block := Function.update files.block block.hash (some block)
  undo := Function.update files.undo block.hash (some undo)

theorem BlockFiles.undo_add_of_ne (undo : CBlockUndo) {hash} (h : hash ≠ block.hash) :
    (files.add block undo).undo hash = files.undo hash := Function.update_of_ne h ..

theorem BlockFiles.undo_add_self (block : CBlock) (undo : CBlockUndo) : (files.add block undo).undo block.hash = some undo :=
  Function.update_self ..

theorem ChainCoins.add (h : ChainCoins files i view) (undo : CBlockUndo) (hfresh : ∀ b ∈ i.blocks, b.hash ≠ block.hash) : ChainCoins (files.add block undo) i view := by
  induction h with
  | genesis => exact .genesis
  | @next pprev b _ _ _ _ _ _ _ hprev hheight hcoinbase hconnect hblock hundo ih =>
    have hne : b.hash ≠ block.hash := hfresh b (List.mem_append_right _ List.mem_cons_self)
    refine .next (ih fun b hb => hfresh b (List.mem_append_left _ hb)) hheight hcoinbase hconnect ?_ ?_
    · exact (Function.update_of_ne hne ..).trans hblock
    · exact (undo_add_of_ne undo hne).trans hundo

theorem ChainCoins.connect {i st st' block undo}
    (h : ChainCoins files i st.coins) (hfresh : ∀ b ∈ i.blocks, b.hash ≠ block.hash)
    (hheight : block.nHeight = i.nHeight + 1) (hcoinbase : checkCoinbaseHeight block = true)
    (hconnect : connectTip E R mempool st block = .ok (st', undo)) :
    ChainCoins (files.add block undo) (.next i block) st'.coins := by
  obtain ⟨cs, hblock, hst⟩ := bind_eq_ok.mp hconnect
  cases hst
  exact .next (h.add _ hfresh) hheight hcoinbase hblock (Function.update_self ..) (undo_add_self ..)

namespace Regtest

def firstBlocks (n : UInt8) : CBlock :=
  ⟨[⟨[⟨⟨0, 4294967295⟩, [OP_1, n]⟩], [⟨0, scriptForKeyID bob⟩], 200 + n.toNat⟩], 60 + n.toNat, 1⟩

def firstIndex (n : UInt8) : CBlockIndex := .next .genesis (firstBlocks n)

def firstFiles : BlockFiles where
  block hash := if hash = 61 then some (firstBlocks 1) else some (firstBlocks 2)
  undo _ := some ⟨[], []⟩

theorem firstBlocks_coins {n} (hfile : firstFiles.block (firstBlocks n).hash = some (firstBlocks n))
    (hcoinbase : checkCoinbaseHeight (firstBlocks n) = true)
    (h : ((connectBlock env ∅ .none ⟨∅, ∅⟩ (fun _ => none) ∅ (firstBlocks n)).toOption.map fun cs =>
      (cs.undo.vtxundo.length, cs.undo.vUndoAssetData.length)) = some (0, 0)) :
    ∃ view, ChainCoins firstFiles (firstIndex n) view := by
  obtain ⟨cs, hconnect, hundo⟩ := map_eq_some_iff.mp h
  have hnil : cs.undo = ⟨[], []⟩ := by
    obtain ⟨hcoins, hassets⟩ := Prod.mk.inj hundo
    cases hcs : cs.undo with
    | mk vtxundo vUndoAssetData =>
      rw [hcs, List.length_eq_zero_iff] at hcoins hassets
      rw [show vtxundo = [] from hcoins, show vUndoAssetData = [] from hassets]
  exact ⟨cs.view, .next .genesis rfl hcoinbase (toOption_eq_some.mp hconnect) hfile (by rw [hnil]; rfl)⟩

/-- The flush has stopped after it has taken out the old coinbase. -/
theorem replayBlocks_recovers_fork :
    ∃ viewNew, ChainCoins firstFiles (firstIndex 2) viewNew ∧
      Recovers env ∅ firstFiles 9 (fun hash => if hash = 61 then some (firstIndex 1) else some (firstIndex 2))
        ⟨fun _ => none, none, [62, 61]⟩ viewNew 62 := by
  obtain ⟨viewOld, hold⟩ := @firstBlocks_coins 1 rfl (by decide +kernel) (by decide +kernel)
  obtain ⟨viewNew, hnew⟩ := @firstBlocks_coins 2 rfl (by decide +kernel) (by decide +kernel)
  have hknown : KnownTips firstFiles 9 (fun hash => if hash = 61 then some (firstIndex 1) else some (firstIndex 2))
      (fun _ => ((firstBlocks 1).vtx.headD coinbase)) (some (firstIndex 1)) (firstIndex 2) viewOld viewNew := by
    refine ⟨hold, hnew, rfl, fun tip htip => ?_, fun tip htip b hb tx htx => ?_⟩
    · cases htip
      exact ⟨by decide, rfl⟩
    · cases htip
      rw [List.mem_singleton.mp hb] at htx
      rw [List.mem_singleton.mp htx]
      rfl
  have hapart : ∀ out ∈ keys ((firstIndex 2).blocks.flatMap blockWrites),
      out ∉ keys ((firstIndex 1).blocks.flatMap blockWrites) := by decide +kernel
  have hcoins : Between viewOld viewNew fun _ => none := fun out => by
    rw [hold.run, hnew.run]
    by_cases hout : out ∈ keys ((firstIndex 2).blocks.flatMap blockWrites)
    · exact Or.inl (run_of_not_mem (hapart out hout) fun _ => none).symm
    · exact Or.inr (run_of_not_mem hout fun _ => none).symm
  have hdb : Interrupted 9 (some (firstIndex 1)) (firstIndex 2) viewOld viewNew ⟨fun _ => none, none, [62, 61]⟩ :=
    ⟨rfl, rfl, hcoins⟩
  exact ⟨viewNew, hnew, (replayBlocks_recovers_iff hknown hdb (.refl _) env ∅).mpr (by decide +kernel)⟩

def writeBlocks (E : Env) (blocks : List CBlock) : Except Reject (ChainState × BlockFiles) :=
  blocks.foldlM (fun st block => (connectTip E (Rules.none.withReward E params) ⟨∅, ∅⟩ st.1 block).map fun r =>
    (r.1, st.2.add block r.2)) (⟨fun _ => none, ∅⟩, ⟨fun _ => none, fun _ => none⟩)

theorem writeBlocks_coins {blocks st} (h : writeBlocks E blocks = .ok st)
    (hheights : blocks.map CBlock.nHeight = (List.range blocks.length).map (· + 1))
    (hcoinbase : ∀ b ∈ blocks, checkCoinbaseHeight b = true) (hnodup : (blocks.map CBlock.hash).Nodup) :
    AcceptedChain params .none (blocks.map fun block => (E, block)) st.1 ∧
      ChainCoins st.2 (CBlockIndex.genesis.extend blocks) st.1.coins := by
  induction blocks using List.reverseRecOn generalizing st with
  | nil =>
    cases h
    exact ⟨.genesis, .genesis⟩
  | append_singleton blocks block ih =>
    simp only [writeBlocks, List.foldlM_append, ok_iff, List.foldlM_cons, List.foldlM_nil] at h
    obtain ⟨st1, h1, st2, h2, rfl⟩ := h
    rw [List.length_append, List.length_singleton, List.range_succ, List.map_append, List.map_append] at hheights
    obtain ⟨hbefore, hlast⟩ := List.append_inj' hheights rfl
    rw [List.map_append, List.nodup_append] at hnodup
    obtain ⟨hchain, hcoins⟩ := ih h1 hbefore (fun b hb => hcoinbase b (List.mem_append_left _ hb)) hnodup.1
    cases htip : connectTip E (Rules.none.withReward E params) ⟨∅, ∅⟩ st1.1 block with
    | error e => rw [htip] at h2; cases h2
    | ok r =>
      rw [htip] at h2
      cases h2
      rw [CBlockIndex.extend_concat, List.map_append]
      refine ⟨.connect hchain (by simpa using hlast) htip, hcoins.connect (fun b hb => ?_) ?_ (hcoinbase block (by simp)) htip⟩
      · rw [CBlockIndex.blocks_extend, CBlockIndex.blocks, List.nil_append] at hb
        exact hnodup.2.2 _ (List.mem_map_of_mem hb) _ (by simp)
      · rw [CBlockIndex.nHeight_extend, CBlockIndex.nHeight, Nat.zero_add]
        simpa using hlast

def sideBlock : CBlock :=
  ⟨[{ coinbaseAt 102 [] with vin := [⟨⟨0, 4294967295⟩, heightScript 102 ++ [1]⟩], hash := 2102 }], 6102, 102⟩

def issueIndex : CBlockIndex := genesis.extend goldChain

def forkMap (hash : Uint256) : Option CBlockIndex :=
  if hash = moveBlock.hash then some (.next issueIndex moveBlock) else some (.next issueIndex sideBlock)

theorem issueIndex_apart :
    (∀ b ∈ issueIndex.blocks, b.hash ≠ moveBlock.hash ∧ b.hash ≠ sideBlock.hash) ∧ issueIndex.nHeight = 101 := by
  rw [issueIndex, blocks_extend, nHeight_extend]
  decide +kernel

theorem forkTips_known {files st stOld stNew undoNew}
    (hcoins : ChainCoins files issueIndex st.coins) (hmove : connectTip E R mempool st moveBlock = .ok (stOld, undo))
    (hside : connectTip E R mempool st sideBlock = .ok (stNew, undoNew)) :
    KnownTips ((files.add moveBlock undo).add sideBlock undoNew) 9 forkMap (chainIds [issueGold 1001 7, moveGold [1000]])
      (some (.next issueIndex moveBlock)) (.next issueIndex sideBlock) stOld.coins stNew.coins := by
  obtain ⟨hapart, hheight⟩ := issueIndex_apart
  have hne : moveBlock.hash ≠ sideBlock.hash := by decide +kernel
  refine ⟨?_, ?_, if_neg hne.symm, fun tip htip => ?_, fun tip htip b hb tx htx => ?_⟩
  · refine (hcoins.connect (fun b hb => (hapart b hb).1) (by rw [hheight]; rfl) (by decide +kernel) hmove).add _ fun b hb => ?_
    rcases List.mem_append.mp hb with hb | hb
    · exact (hapart b hb).2
    · exact List.mem_singleton.mp hb ▸ hne
  · exact (hcoins.add undo fun b hb => (hapart b hb).1).connect (fun b hb => (hapart b hb).2) (by rw [hheight]; rfl)
      (by decide +kernel) hside
  · cases htip
    exact ⟨by decide +kernel, if_pos rfl⟩
  · cases htip
    rw [blocks, issueIndex, blocks_extend] at hb
    have hlow : ∀ tx ∈ [issueGold 1001 7, moveGold [1000]], tx.hash.toNat < 1000 := by decide +kernel
    refine goldChainThen_blocks (goldChain_ids hlow rfl) (fun tx htx => ?_) b hb tx htx
    rcases List.mem_pair.mp htx with rfl | rfl
    · exact chainIds_coinbase hlow (by omega)
    · rfl

/-- The flush from the block that moves `GOLD` to its competitor has stopped before its first coin, and the asset databases are at
the block before. -/
theorem lost_balance_not_recovered :
    ∃ (files : BlockFiles) (st : ChainState) (viewOld viewNew : CoinsView),
      AcceptedChain params .none (goldChain.map fun block => (indexEnv, block)) st ∧
      KnownTips files 9 forkMap (chainIds [issueGold 1001 7, moveGold [1000]]) (some (.next issueIndex moveBlock))
        (.next issueIndex sideBlock) viewOld viewNew ∧
      Interrupted 9 (some (.next issueIndex moveBlock)) (.next issueIndex sideBlock) viewOld viewNew
        ⟨viewOld, none, [sideBlock.hash, moveBlock.hash]⟩ ∧
      ¬ Recovers indexEnv (st.store.dumpCacheToDatabase indexEnv).restart files 9 forkMap
        ⟨viewOld, none, [sideBlock.hash, moveBlock.hash]⟩ viewNew sideBlock.hash := by
  have h : ((writeBlocks indexEnv goldChain).toOption.any fun st =>
      ((connectTip indexEnv (Rules.none.withReward indexEnv params) ⟨∅, ∅⟩ st.1 sideBlock).toOption.isSome &&
        (connectTip indexEnv (Rules.none.withReward indexEnv params) ⟨∅, ∅⟩ st.1 moveBlock).toOption.any fun r =>
          (undoBlockAssets indexEnv (st.1.store.dumpCacheToDatabase indexEnv).restart moveBlock r.2 ∅).isNone)) = true := by
    decide +kernel
  obtain ⟨st, hst, hnext⟩ := (any_eq_true ..).mp h
  rw [Bool.and_eq_true, any_eq_true] at hnext
  obtain ⟨hside, ⟨stOld, undo⟩, hmove, hundone⟩ := hnext
  obtain ⟨⟨stNew, undoNew⟩, hside⟩ := isSome_iff_exists.mp hside
  obtain ⟨hchain, hcoins⟩ := writeBlocks_coins (toOption_eq_some.mp hst) (by decide +kernel) (by decide +kernel)
    (by decide +kernel)
  have hknown := forkTips_known hcoins (toOption_eq_some.mp hmove) (toOption_eq_some.mp hside)
  have hdb : Interrupted 9 (some (.next issueIndex moveBlock)) (.next issueIndex sideBlock) stOld.coins stNew.coins
      ⟨stOld.coins, none, [sideBlock.hash, moveBlock.hash]⟩ := ⟨rfl, rfl, fun out => Or.inl rfl⟩
  refine ⟨_, st.1, stOld.coins, stNew.coins, hchain, hknown, hdb, fun hrecovers => ?_⟩
  have hsome := (replayBlocks_recovers_iff hknown hdb (.refl _) indexEnv _).mp hrecovers
  have hne : moveBlock.hash ≠ sideBlock.hash := by decide +kernel
  have hbranch : next issueIndex moveBlock ≠ issueIndex := fun heq => by
    have := congrArg nHeight heq
    rw [nHeight] at this
    omega
  rw [undoneAssets, lastCommonAncestor_siblings _ fun heq => hne (congrArg CBlock.hash heq),
    bind_eq_bind, bind_some, undoBranch, if_neg hbranch, undo_add_of_ne _ hne,
    undo_add_self, bind_eq_bind, bind_some, show (Store.restart _).passets = ∅ from rfl,
    isNone_iff_eq_none.mp hundone] at hsome
  cases hsome

end Regtest

end Hivecoin

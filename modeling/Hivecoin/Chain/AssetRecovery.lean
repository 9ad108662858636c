import Hivecoin.Chain.CoinRecovery
import Hivecoin.Chain.UnitConsistency

/-!
# Recovery of the asset databases

A process that stops between two flushes has the coins of the new tip and the assets of the old one.
-/

namespace Hivecoin

open CAssetsCache Outcome List Option CBlockIndex

structure AssetReport where
  assetExists : Bool
  metaData : Option CNewAsset
  verifier : Option Bytes
  qualifier : Bool
  restriction : Bool
  globalRestriction : Bool
deriving DecidableEq

def report (E : Env) (S : Store) (name address : Bytes) : AssetReport where
  assetExists := checkIfAssetExists E S ∅ name
  metaData := lookups E S ∅ name
  verifier := getAssetVerifierStringIfExists S ∅ name
  qualifier := checkForAddressQualifier S ∅ name address
  restriction := checkForAddressRestriction S ∅ name address
  globalRestriction := checkForGlobalRestriction S ∅ name

/-- The blocks up to an entry connected from an empty state, with the deployments after each. -/
def connectAll (deployments : CBlockIndex → Env) (R : Rules) : CBlockIndex → Except Reject ChainState
  | .genesis => .ok ⟨fun _ => none, ∅⟩
  | .next pprev block => do
      let st ← connectAll deployments R pprev
      let (st, _) ← connectTip (deployments pprev) R ⟨∅, ∅⟩ st block
      return st

/-- What is reported after connecting exactly the blocks up to a tip. -/
def assetsAt (deployments : CBlockIndex → Env) (R : Rules) (E : Env) (tip : Option CBlockIndex) (name address : Bytes) :
    Option AssetReport :=
  match tip with
  | none => some (report E ∅ name address)
  | some i => (connectAll deployments R i).toOption.map fun st => report E st.store name address

def InStep (deployments : CBlockIndex → Env) (R : Rules) (E : Env) (tip : Option CBlockIndex) (S : Store) (name address : Bytes) :
    Prop :=
  assetsAt deployments R E tip name address = some (report E S name address)

/-! ## Stopping in a full flush -/

/-- The writes to the asset databases at the end of a full flush. -/
def flushWrites (E : Env) (S : Store) : List DbWrite := if E.areAssetsDeployed then dumpWrites E S.passets else []

/-- The coin database where the process may stop, with the asset writes made so far. -/
inductive StopsAt (db : CCoinsViewDB) (batches : List (List CoinWrite)) (last : List CoinWrite) (hashBlock : Uint256)
    (ws : List DbWrite) : CCoinsViewDB → List DbWrite → Prop
  | start : StopsAt db batches last hashBlock ws db []
  | coins {dbs db'} (hwrite : db.batchWrite batches last hashBlock = some dbs)
      (hdb : db' ∈ dbs.dropLast) : StopsAt db batches last hashBlock ws db' []
  | assets {dbs db' made}
      (hwrite : db.batchWrite batches last hashBlock = some dbs) (hdb : dbs.getLast? = some db') (hmade : made <+: ws) :
      StopsAt db batches last hashBlock ws db' made

/-- The block that the coin database is at after `ReplayBlocks` has returned true. -/
def recoveredHash (db : CCoinsViewDB) : Option Replayed → Uint256
  | none => db.getBestBlock
  | some r => r.hashBlock

def recoveredStore (S : Store) : Option Replayed → Store
  | none => S
  | some r => S.flush r.assets

def TagOf (name address : Bytes) (key : Bytes × Bytes) : Prop :=
  key.2 = address ∧ (key.1 = name ∨ (name ++ [SUB_NAME_DELIMITER]).isPrefixOf key.1 = true)

/-- The write is about the name, or about its tag or freeze at the address. -/
def DbWrite.Touches (name address : Bytes) : DbWrite → Prop
  | .assetData n _ | .verifier n _ | .globalRestriction n _ => n = name
  | .addressQualifier key _ => TagOf name address key
  | .restrictedAddress key _ => key = (name, address)
  | .assetAddressQuantity _ _ | .addressAssetQuantity _ _ => False

variable {E : Env} {S : Store} {R : Rules} {name address : Bytes} {files : BlockFiles} {hashGenesisBlock : Uint256}
  {mapBlockIndex : Uint256 → Option CBlockIndex} {db db' : CCoinsViewDB} {made : List DbWrite}

theorem checkForAddressQualifier_restart (S : Store) (name address : Bytes) :
    checkForAddressQualifier S.restart ∅ name address = true ↔ ∃ key ∈ S.addressQualifier.stored, TagOf name address key := by
  have heq : checkForAddressQualifier S.restart ∅ name address =
      (decide ((name, address) ∈ S.addressQualifier.stored) || checkForAddressRootQualifier S address name) := rfl
  rw [heq, Bool.or_eq_true, decide_eq_true_eq, checkForAddressRootQualifier, decide_eq_true_eq]
  exact ⟨fun h => h.elim (fun h => ⟨_, h, rfl, Or.inl rfl⟩) id, Or.inr⟩

theorem report_restart (E : Env) (S : Store) (name address : Bytes) : report E S.restart name address =
    ⟨E.fReindex || (S.assetData.get? name).isSome, (S.assetData.get? name).map CDatabasedAssetData.asset,
      S.verifiers.get? name, checkForAddressQualifier S.restart ∅ name address,
      decide ((name, address) ∈ S.restrictedAddress.stored), decide (name ∈ S.globalRestriction.stored)⟩ := rfl

theorem mem_record {K : Type} [DecidableEq K] {m : Marks K} {k a} (on : Bool) (h : a ≠ k) :
    a ∈ (m.record k on).stored ↔ a ∈ m.stored := by
  cases on <;> simp [Marks.record, h]

theorem report_write {w : DbWrite} (h : ¬ w.Touches name address) (E : Env) (S : Store) :
    report E (S.write w).restart name address = report E S.restart name address := by
  rw [report_restart, report_restart]
  cases w with
  | assetData n data =>
    have hget : ((S.write (.assetData n data)).assetData).get? name = S.assetData.get? name :=
      (Table.get?_put ..).trans (if_neg (Ne.symm h))
    rw [hget]
    rfl
  | verifier n text =>
    have hget : ((S.write (.verifier n text)).verifiers).get? name = S.verifiers.get? name :=
      (Table.get?_put ..).trans (if_neg (Ne.symm h))
    rw [hget]
    rfl
  | globalRestriction n on =>
    have hmem : name ∈ (S.write (.globalRestriction n on)).globalRestriction.stored ↔ name ∈ S.globalRestriction.stored :=
      mem_record on (Ne.symm h)
    simp only [hmem]
    rfl
  | restrictedAddress key on =>
    have hmem : (name, address) ∈ (S.write (.restrictedAddress key on)).restrictedAddress.stored ↔
        (name, address) ∈ S.restrictedAddress.stored := mem_record on (Ne.symm h)
    simp only [hmem]
    rfl
  | addressQualifier key on =>
    have htags : checkForAddressQualifier (S.write (.addressQualifier key on)).restart ∅ name address =
        checkForAddressQualifier S.restart ∅ name address := by
      rw [Bool.eq_iff_iff, checkForAddressQualifier_restart, checkForAddressQualifier_restart]
      refine exists_congr fun t => and_congr_left fun ht => mem_record on fun heq => ?_
      rw [heq] at ht
      exact h ht
    rw [htags]
    rfl
  | assetAddressQuantity pair amount => rfl
  | addressAssetQuantity pair amount => rfl

theorem report_writes (h : ∀ w ∈ made, ¬ w.Touches name address) (E : Env) (S : Store) :
    report E (made.foldl Store.write S).restart name address = report E S.restart name address := by
  induction made generalizing S with
  | nil => rfl
  | cons w made ih =>
    rw [foldl_cons, ih fun w hw => h w (mem_cons_of_mem _ hw), report_write (h w mem_cons_self)]

theorem rollback_self (fork : CBlockIndex) (st : ReplayState) :
    rollback E S files hashGenesisBlock fork fork st = .ok st := by
  cases fork with
  | genesis => exact if_pos rfl
  | next pprev block => exact if_pos rfl

/-- What `ReplayBlocks` has recovered. Going up a chain it leaves the assets alone. -/
theorem replayBlocks_ok {r} (h : replayBlocks E S files hashGenesisBlock mapBlockIndex db = .ok r) :
    (r = none ∧ db.headBlocks = []) ∨ ∃ hashNew hashOld new r', r = some r' ∧ db.headBlocks = [hashNew, hashOld] ∧
      mapBlockIndex hashNew = some new ∧ r'.hashBlock = new.hash hashGenesisBlock ∧
      ((∀ old, mapBlockIndex hashOld = some old → ∃ bs, new = old.extend bs) → r'.assets = S.passets) := by
  unfold replayBlocks at h
  split at h
  · rename_i hheads
    exact Or.inl ⟨(pure_eq_ok.mp h).symm, hheads⟩
  · rename_i hashNew hashOld hheads
    obtain ⟨new, hnew, h⟩ := bind_eq_ok.mp h
    obtain ⟨⟨fork, st⟩, hback, h⟩ := bind_eq_ok.mp h
    obtain ⟨view, -, h⟩ := bind_eq_ok.mp h
    refine Or.inr ⟨hashNew, hashOld, new, _, (pure_eq_ok.mp h).symm, hheads, orError_eq_ok.mp hnew, rfl, fun hup => ?_⟩
    rw [rollbackTo] at hback
    split at hback
    · cases hback
      rfl
    · obtain ⟨old, hold, hback⟩ := bind_eq_ok.mp hback
      obtain ⟨bs, rfl⟩ := hup old (orError_eq_ok.mp hold)
      rw [lastCommonAncestor_extend, orError_some_bind, rollback_self] at hback
      cases hback
      rfl
  · cases h

/-! ## The asset state after recovery -/

variable {deployments : CBlockIndex → Env} {old : Option CBlockIndex} {new : CBlockIndex} {batches : List (List CoinWrite)}
  {last : List CoinWrite} {r : Option Replayed}

/-- A full flush from the blocks of `old` to those of `new`. -/
structure FullFlush (hashGenesisBlock : Uint256) (mapBlockIndex : Uint256 → Option CBlockIndex) (old : Option CBlockIndex)
    (new : CBlockIndex) (db : CCoinsViewDB) : Prop where
  headBlocks : db.headBlocks = []
  bestBlock : db.getBestBlock = old.elim 0 (hash hashGenesisBlock)
  oldIndex : mapBlockIndex (old.elim 0 (hash hashGenesisBlock)) = old
  newIndex : mapBlockIndex (new.hash hashGenesisBlock) = some new

theorem FullFlush.unchanged (hflush : FullFlush hashGenesisBlock mapBlockIndex old new db) {S'}
    (hreplay : replayBlocks E S' files hashGenesisBlock mapBlockIndex db = .ok r) :
    mapBlockIndex (recoveredHash db r) = old := by
  rcases replayBlocks_ok hreplay with ⟨rfl, -⟩ | ⟨hashNew, hashOld, i, r', -, hheads, -⟩
  · rw [recoveredHash, hflush.bestBlock, hflush.oldIndex]
  · rw [hflush.headBlocks] at hheads
    cases hheads

/-- Before its first batch the coins are at the old tip, later at the new one. -/
theorem FullFlush.recovered (hflush : FullFlush hashGenesisBlock mapBlockIndex old new db) {ws S'}
    (hstop : StopsAt db batches last (new.hash hashGenesisBlock) ws db' made)
    (hreplay : replayBlocks E S' files hashGenesisBlock mapBlockIndex db' = .ok r) :
    db' = db ∨ mapBlockIndex (recoveredHash db' r) = some new := by
  cases hstop with
  | start => exact Or.inl rfl
  | coins hwrite hdb =>
    obtain ⟨old_tip, -, rfl⟩ := map_eq_some_iff.mp hwrite
    obtain ⟨done, -, rfl⟩ := mem_dropLast_writeBatches hdb
    rcases replayBlocks_ok hreplay with ⟨rfl, hheads⟩ | ⟨hashNew, hashOld, i, r', rfl, hheads, hi, hhash, -⟩
    · cases hheads
    · cases hheads
      rw [hflush.newIndex, some.injEq] at hi
      subst hi
      exact Or.inr (by rw [recoveredHash, hhash, hflush.newIndex])
  | assets hwrite hdb hmade =>
    obtain ⟨old_tip, -, rfl⟩ := map_eq_some_iff.mp hwrite
    rw [getLast?_writeBatches, some.injEq] at hdb
    subst hdb
    rcases replayBlocks_ok hreplay with ⟨rfl, -⟩ | ⟨hashNew, hashOld, i, r', -, hheads, -⟩
    · exact Or.inr hflush.newIndex
    · cases hheads

theorem FullFlush.head (hflush : FullFlush hashGenesisBlock mapBlockIndex old new db) {ws}
    (hstop : StopsAt db batches last (new.hash hashGenesisBlock) ws db' made) {hashNew hashOld}
    (hheads : db'.headBlocks = [hashNew, hashOld]) :
    hashNew = new.hash hashGenesisBlock ∧ hashOld = old.elim 0 (hash hashGenesisBlock) := by
  cases hstop with
  | start =>
    rw [hflush.headBlocks] at hheads
    cases hheads
  | coins hwrite hdb =>
    obtain ⟨old_tip, hold, rfl⟩ := map_eq_some_iff.mp hwrite
    obtain ⟨done, -, rfl⟩ := mem_dropLast_writeBatches hdb
    cases hheads
    refine ⟨rfl, ?_⟩
    rw [CCoinsViewDB.oldTip, hflush.headBlocks] at hold
    rw [← hflush.bestBlock]
    split at hold
    · rename_i hnull
      cases hold
      exact hnull.symm
    · exact (Option.some.inj hold).symm
  | assets hwrite hdb hmade =>
    obtain ⟨old_tip, -, rfl⟩ := map_eq_some_iff.mp hwrite
    rw [getLast?_writeBatches, some.injEq] at hdb
    subst hdb
    cases hheads

theorem FullFlush.report_recoveredStore (hflush : FullFlush hashGenesisBlock mapBlockIndex old new db)
    (hup : ∀ tip, old = some tip → ∃ bs, new = tip.extend bs) {ws} {S' : Store} (name address : Bytes)
    (hstop : StopsAt db batches last (new.hash hashGenesisBlock) ws db' made)
    (hreplay : replayBlocks E S'.restart files hashGenesisBlock mapBlockIndex db' = .ok r) :
    report E (recoveredStore S'.restart r) name address = report E S'.restart name address := by
  rcases replayBlocks_ok hreplay with ⟨rfl, -⟩ | ⟨hashNew, hashOld, i, r', rfl, hheads, hi, -, hassets⟩
  · rfl
  · obtain ⟨rfl, rfl⟩ := hflush.head hstop hheads
    rw [hflush.newIndex, some.injEq] at hi
    subst hi
    rw [recoveredStore, hassets fun tip htip => hup tip (hflush.oldIndex ▸ htip)]
    rfl

theorem connectAll_run {i st} (h : connectAll deployments R i = .ok st) :
    st.coins = Writes.run (i.blocks.flatMap blockWrites) fun _ => none := by
  induction i generalizing st with
  | genesis =>
    cases h
    rfl
  | next pprev block ih =>
    obtain ⟨st1, h1, h⟩ := bind_eq_ok.mp h
    obtain ⟨⟨st2, undo⟩, h2, h⟩ := bind_eq_ok.mp h
    cases h
    obtain ⟨cs, hblock, h2⟩ := bind_eq_ok.mp h2
    cases h2
    rw [blocks, flatMap_append, Writes.run_append, flatMap_singleton, ← ih h1]
    exact connectBlock_run hblock

namespace Regtest

def goldIndex : CBlockIndex := genesis.extend goldChain

def goldMap (hash : Uint256) : Option CBlockIndex := if hash = 9 then some .genesis else some goldIndex

def goldRules : Rules := Rules.none.withReward env params

def firstMap (hash : Uint256) : Option CBlockIndex := if hash = 9 then some .genesis else some (firstIndex 1)

end Regtest

end Hivecoin

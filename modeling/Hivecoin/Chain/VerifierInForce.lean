import Hivecoin.Cache.DumpTransparency
import Hivecoin.Chain.Lemmas.BlockEvents
import Hivecoin.Chain.Lemmas.NameRuns
import Hivecoin.Chain.Reward

/-!
# The verifier in force

Within a block the cache keeps the first verifier of an asset; from block to block the flush replaces what `passets` has.
-/

namespace Hivecoin

open CAssetsCache List Option Outcome

/-- A block with the store that it was connected on. -/
structure BlockOn where
  env : Env
  store : Store
  block : CBlock

def BlockOn.verifiers (b : BlockOn) (name : Bytes) : List Bytes :=
  (eventsOf b.env b.store b.block.vtx name).filterMap AssetEvent.verifier?

/-- Blocks connected; between them `passets` may be dumped and the LRU caches may change. -/
inductive ConnectedBlocks : ChainState → List BlockOn → ChainState → Prop
  | refl (st : ChainState) : ConnectedBlocks st [] st
  | connect {st st1 st2 blocks E R mempool block undo} (h : ConnectedBlocks st blocks st1) (hblock : connectTip E R mempool st1 block = .ok (st2, undo)) :
      ConnectedBlocks st (blocks ++ [⟨E, st1.store, block⟩]) st2
  | dump {st st1 blocks} (E : Env) (h : ConnectedBlocks st blocks st1) :
      ConnectedBlocks st blocks ⟨st1.coins, st1.store.dumpCacheToDatabase E⟩
  | cacheEvent {st st1 blocks} (event : Store.CacheEvent) (h : ConnectedBlocks st blocks st1) :
      ConnectedBlocks st blocks ⟨st1.coins, st1.store.cacheEvent event⟩

variable (blocks : List BlockOn)

def lastVerifiers (name : Bytes) : List Bytes :=
  blocks.foldl (fun vs b => if b.verifiers name = [] then vs else b.verifiers name) []

def latestVerifier (name : Bytes) : Option Bytes :=
  (blocks.flatMap fun b => b.verifiers name).getLast?

theorem lastVerifiers_concat (b : BlockOn) (name : Bytes) : lastVerifiers (blocks ++ [b]) name =
    if b.verifiers name = [] then lastVerifiers blocks name else b.verifiers name := foldl_concat ..

theorem latestVerifier_eq (name : Bytes) :
    latestVerifier blocks name = (lastVerifiers blocks name).getLast? := by
  induction blocks using List.reverseRecOn with
  | nil => rfl
  | append_singleton blocks b ih =>
    rw [latestVerifier, flatMap_append, flatMap_singleton, lastVerifiers_concat, List.getLast?_append]
    split
    · rename_i hnil
      rw [hnil, ← ih]
      rfl
    · rename_i hne
      rw [List.getLast?_eq_getLast_of_ne_nil hne, some_or]

variable {E : Env} {S : Store} {name : Bytes}

theorem connectTip_verifiers {st st1 R mempool block undo}
    (hS : st.store.Named) (h : connectTip E R mempool st block = .ok (st1, undo)) (name : Bytes) :
    ∃ c, st1.store = st.store.flush c ∧ (c.view name).issued.rem = none ∧
      (c.view name).verifier = Slot.addVerifier ∅ (BlockOn.verifiers ⟨E, st.store, block⟩ name).head? := by
  obtain ⟨c, hstore, hevents⟩ := connectTip_events hS h
  have hfold : (eventsOf E st.store block.vtx name).foldl (st.store.view E name).connect (∅, none) =
      (c.view name, findUndo undo.vUndoAssetData name) := by
    rw [← coinbaseEvents_append_checkedEvents, foldl_append]
    exact foldl_connect_of_checked (hevents name)
  have hissued := (connect_issued (st.store.view E name) (eventsOf E st.store block.vtx name)).1
  have hverifier := connect_verifier (st.store.view E name) (eventsOf E st.store block.vtx name)
  rw [hfold] at hissued hverifier
  refine ⟨c, hstore, hissued, ?_⟩
  rw [BlockOn.verifiers, List.head?_filterMap]
  exact hverifier

/-! ## Blocks on blocks -/

/-- The verifier is pending, or stored with nothing pending against it. -/
def InForce (S : Store) (name verifier : Bytes) : Prop :=
  (S.passets.view name).verifier = ⟨some ⟨verifier, false⟩, none⟩ ∨
  (S.passets.view name).verifier = ∅ ∧ (S.passets.view name).issued.rem = none ∧ S.verifiers.get? name = some verifier ∧
    ∀ v, S.passetsVerifierCache.get? name = some v → v = verifier

namespace InForce

variable {v : Bytes}

theorem text (h : InForce S name v) : getAssetVerifierStringIfExists S ∅ name = some v := by
  have hlocal : (∅ : CAssetsCache).newRestrictedVerifier.slot name = ∅ := Pending.slot_empty name
  rw [getAssetVerifierStringIfExists, Pending.read, hlocal]
  rcases h with h | ⟨hslot, -, hdb, hlru⟩
  · rw [show S.passets.newRestrictedVerifier.slot name = _ from h]
    rfl
  · rw [show S.passets.newRestrictedVerifier.slot name = _ from hslot, hdb]
    cases hcached : S.passetsVerifierCache.get? name with
    | none => rfl
    | some w => rw [hlru w hcached]; rfl

theorem dump (h : InForce S name v) (E : Env) : InForce (S.dumpCacheToDatabase E) name v := by
  have hat := dumpVerifiers_at S.passets ⟨S.passetsVerifierCache, S.verifiers⟩ name
  have hview : (S.dumpCacheToDatabase E).passets.view name = ∅ := view_empty name
  refine Or.inr ⟨by rw [hview]; rfl, by rw [hview]; rfl, ?_⟩
  rcases h with h | ⟨hslot, hissued, hdb, hlru⟩
  · have hrem : S.passets.newRestrictedVerifier.toRemove.get? name = none := congrArg Slot.rem h
    have hadd : S.passets.newRestrictedVerifier.toAdd.get? name = some ⟨v, false⟩ := congrArg Slot.add h
    rw [hrem, hadd] at hat
    refine ⟨congrArg Prod.snd hat, fun w hw => ?_⟩
    rw [show (S.dumpCacheToDatabase E).passetsVerifierCache.get? name = none from congrArg Prod.fst hat] at hw
    cases hw
  · have hrem : S.passets.newRestrictedVerifier.toRemove.get? name = none := congrArg Slot.rem hslot
    have hadd : S.passets.newRestrictedVerifier.toAdd.get? name = none := congrArg Slot.add hslot
    have hnew : S.passets.newAssets.toRemove.get? name = none := map_eq_none_iff.mp hissued
    rw [hrem, hadd, hnew] at hat
    exact ⟨(congrArg Prod.snd hat).trans hdb, fun w hw => hlru w ((congrArg Prod.fst hat).symm.trans hw)⟩

theorem cacheEvent (h : InForce S name v) (event : Store.CacheEvent) : InForce (S.cacheEvent event) name v := by
  rcases h with h | ⟨hslot, hissued, hdb, hlru⟩
  · exact Or.inl (by cases event <;> exact h)
  · refine Or.inr ⟨by cases event <;> exact hslot, by cases event <;> exact hissued, by cases event <;> exact hdb, ?_⟩
    intro w hw
    cases event with
    | fillVerifier key =>
      simp only [Store.cacheEvent, Store.fill] at hw
      split at hw
      · rename_i text htext
        rw [Table.get?_insertNew] at hw
        split at hw
        · rename_i hkey
          subst hkey
          rw [hdb] at htext
          cases htext
          cases hcached : S.passetsVerifierCache.get? name with
          | none => rw [hcached] at hw; cases hw; rfl
          | some w' => rw [hcached] at hw; cases hw; exact hlru _ hcached
        · exact hlru w hw
      · exact hlru w hw
    | dropVerifier key =>
      simp only [Store.cacheEvent, Table.get?_erase] at hw
      split at hw
      · cases hw
      · exact hlru w hw
    | _ => exact hlru w hw

theorem flush (h : InForce S name v) {c} (hissued : (c.view name).issued.rem = none)
    (hverifier : (c.view name).verifier = ∅) : InForce (S.flush c) name v := by
  have hslot : ((S.flush c).passets.view name).verifier = (S.passets.view name).verifier := by
    rw [passets_view_flush, NameView.flush, hverifier]
    rfl
  rcases h with h | ⟨hempty, hrem, hdb, hlru⟩
  · exact Or.inl (hslot.trans h)
  · refine Or.inr ⟨hslot.trans hempty, ?_, hdb, hlru⟩
    rw [passets_view_flush]
    refine eq_none_iff_forall_ne_some.mpr fun a ha => ?_
    rcases Slot.rem_flushKeep ha with ha | ha
    · rw [hrem] at ha; cases ha
    · rw [hissued] at ha; cases ha

theorem of_flush {c} (hverifier : (c.view name).verifier = ⟨some ⟨v, false⟩, none⟩) :
    InForce (S.flush c) name v := by
  refine Or.inl ?_
  rw [passets_view_flush, NameView.flush, hverifier]
  rfl

end InForce

theorem ConnectedBlocks.named {st st' blocks} (hS : st.store.Named)
    (h : ConnectedBlocks st blocks st') : st'.store.Named := by
  induction h with
  | refl => exact hS
  | connect _ hblock ih => exact connectTip_named ih hblock
  | dump E _ ih => exact ih.dump E
  | cacheEvent event _ ih => exact ih.cacheEvent event

theorem ConnectedBlocks.inForce {st st' blocks} (hS : st.store.Named)
    (h : ConnectedBlocks st blocks st') {v} (hv : (lastVerifiers blocks name).head? = some v) : InForce st'.store name v := by
  induction h with
  | refl => cases hv
  | connect hprev hblock ih =>
    obtain ⟨c, hstore, hissued, hverifier⟩ := connectTip_verifiers (hprev.named hS) hblock name
    rw [lastVerifiers_concat] at hv
    rw [hstore]
    split at hv
    · rename_i hnil
      rw [hnil] at hverifier
      exact (ih hv).flush hissued hverifier
    · rw [hv] at hverifier
      exact .of_flush hverifier
  | dump E _ ih => exact (ih hv).dump E
  | cacheEvent event _ ih => exact (ih hv).cacheEvent event

/-- After blocks that set a verifier of the name, the latest is in force just where the last of them starts with the text that it
ends with. -/
theorem verifier_latest_iff {st st' : ChainState} {blocks : List BlockOn} (hS : st.store.Named)
    (h : ConnectedBlocks st blocks st') (hset : latestVerifier blocks name ≠ none) :
    getAssetVerifierStringIfExists st'.store ∅ name = latestVerifier blocks name ↔
      (lastVerifiers blocks name).head? = (lastVerifiers blocks name).getLast? := by
  rw [latestVerifier_eq] at hset ⊢
  cases hvs : lastVerifiers blocks name with
  | nil => rw [hvs] at hset; exact absurd rfl hset
  | cons v vs => rw [(h.inForce hS (by rw [hvs]; rfl)).text, List.head?_cons]

theorem NodeRun.named {P R ids C chain st} (h : NodeRun P R E ids C chain st) : st.store.Named := by
  induction h with
  | genesis => exact .empty
  | connect _ _ _ _ _ hblock ih => exact connectTip_named ih hblock
  | disconnect _ _ hblock ih => exact disconnectTip_named ih hblock
  | dump _ _ ih => exact ih.dump E
  | cacheEvent event _ ih => exact ih.cacheEvent event

namespace Regtest

def issueQualifier : CTransaction :=
  ⟨[⟨⟨1002, 0⟩, []⟩], [burnOut .QUALIFIER, ⟨0, newAssetScript alice ⟨ascii "#KYC", 100000000, 0, 0, 0, []⟩⟩], 8⟩

def issueRestricted : CTransaction :=
  ⟨[⟨⟨1003, 0⟩, []⟩, ⟨⟨7, 1⟩, []⟩], [burnOut .RESTRICTED, ownerGoldOut, ⟨0, verifierScript (ascii "true")⟩,
    ⟨0, newAssetScript alice ⟨ascii "$GOLD", 1000, 8, 1, 0, []⟩⟩], 9⟩

def limitRestricted : CTransaction :=
  ⟨[⟨⟨1004, 0⟩, []⟩, ⟨⟨9, 1⟩, []⟩], [burnOut .REISSUE, ownerGoldOut, ⟨0, verifierScript (ascii "KYC")⟩,
    ⟨0, reissueScript alice ⟨ascii "$GOLD", 0, -1, 1, []⟩⟩], 10⟩

def restrictedIds : Uint256 → CTransaction := chainIds [issueGold 1001 7, issueQualifier, issueRestricted, limitRestricted]

theorem restrictedIds_low :
    ∀ tx ∈ [issueGold 1001 7, issueQualifier, issueRestricted, limitRestricted], tx.hash.toNat < 1000 := by
  decide +kernel

theorem emptyBlocks_run {txs} (hlow : ∀ tx ∈ txs, tx.hash.toNat < 1000) {n st} (h : runBlocks env (emptyBlocks n) = .ok st)
    (hn : n < 2000) (hscripts : ∀ block ∈ emptyBlocks n, checkCoinbaseHeight block = true) :
    ∃ chain, NodeRun params .none env (chainIds txs) .none chain st ∧ chain.length = n := by
  have hheights : (emptyBlocks n).map CBlock.nHeight = (List.range (emptyBlocks n).length).map (· + 1) := by
    simp [emptyBlocks, blockAt]
  have hids : ∀ block ∈ emptyBlocks n, ∀ tx ∈ block.vtx, chainIds txs tx.hash = tx := by
    intro block hblock tx htx
    obtain ⟨k, hk, rfl⟩ := mem_map.mp hblock
    rw [mem_singleton.mp htx]
    exact chainIds_coinbase hlow (by have := mem_range.mp hk; omega)
  obtain ⟨chain, hrun, hchain⟩ := runBlocks_run h hheights hids hscripts
  exact ⟨chain, hrun, by simpa [emptyBlocks] using congrArg List.length hchain⟩

def issuances : List CTransaction := [issueGold 1001 7, issueQualifier, issueRestricted]

/-- The verifier set last is not in force: the issuance in the block came first. -/
theorem second_verifier_ignored : ∃ chain st st' blocks, NodeRun params .none env restrictedIds .none chain st ∧
    ConnectedBlocks st blocks st' ∧ latestVerifier blocks (ascii "$GOLD") = some (ascii "KYC") ∧
      getAssetVerifierStringIfExists st'.store ∅ (ascii "$GOLD") = some (ascii "true") := by
  have h : ((runBlocks env (emptyBlocks 103)).toOption.any fun st =>
      (connectTip env (Rules.none.withReward env params) ⟨∅, ∅⟩ st (blockAt 104 (issuances ++ [limitRestricted]) [])).toOption.any
        fun r => latestVerifier [⟨env, st.store, blockAt 104 (issuances ++ [limitRestricted]) []⟩] (ascii "$GOLD") =
            some (ascii "KYC") &&
          getAssetVerifierStringIfExists r.1.store ∅ (ascii "$GOLD") = some (ascii "true")) = true := by
    decide +kernel
  obtain ⟨st, hst, hnext⟩ := (Option.any_eq_true ..).mp h
  obtain ⟨⟨st', undo⟩, hblock, hverifiers⟩ := (Option.any_eq_true ..).mp hnext
  rw [Bool.and_eq_true, decide_eq_true_eq, decide_eq_true_eq] at hverifiers
  obtain ⟨chain, hrun, -⟩ := emptyBlocks_run restrictedIds_low (toOption_eq_some.mp hst) (by decide) (by decide +kernel)
  exact ⟨chain, st, st', _, hrun, .connect (.refl st) (toOption_eq_some.mp hblock), hverifiers⟩

/-- A verifier that is set in the next block is in force. -/
theorem next_block_verifier_in_force : ∃ chain st st' blocks, NodeRun params .none env restrictedIds .none chain st ∧
    ConnectedBlocks st blocks st' ∧ latestVerifier blocks (ascii "$GOLD") = some (ascii "KYC") ∧
      getAssetVerifierStringIfExists st'.store ∅ (ascii "$GOLD") = latestVerifier blocks (ascii "$GOLD") := by
  have h : ((runBlocks env (emptyBlocks 103)).toOption.any fun st =>
      (connectTip env (Rules.none.withReward env params) ⟨∅, ∅⟩ st (blockAt 104 issuances [])).toOption.any fun r =>
        (connectTip env (Rules.none.withReward env params) ⟨∅, ∅⟩ r.1 (blockAt 105 [limitRestricted] [])).toOption.isSome &&
        lastVerifiers [⟨env, st.store, blockAt 104 issuances []⟩, ⟨env, r.1.store, blockAt 105 [limitRestricted] []⟩]
          (ascii "$GOLD") = [ascii "KYC"]) = true := by
    decide +kernel
  obtain ⟨st, hst, hnext⟩ := (Option.any_eq_true ..).mp h
  obtain ⟨⟨st₁, undo₁⟩, hblock₁, hnext⟩ := (Option.any_eq_true ..).mp hnext
  rw [Bool.and_eq_true, decide_eq_true_eq] at hnext
  obtain ⟨hsome, hlast⟩ := hnext
  obtain ⟨⟨st₂, undo₂⟩, hblock₂⟩ := Option.isSome_iff_exists.mp hsome
  obtain ⟨chain, hrun, -⟩ := emptyBlocks_run restrictedIds_low (toOption_eq_some.mp hst) (by decide) (by decide +kernel)
  have hblocks := ((ConnectedBlocks.refl st).connect (toOption_eq_some.mp hblock₁)).connect
    (toOption_eq_some.mp hblock₂)
  have hlatest := latestVerifier_eq [⟨env, st.store, blockAt 104 issuances []⟩, ⟨env, st₁.store, blockAt 105 [limitRestricted] []⟩]
    (ascii "$GOLD")
  rw [hlast] at hlatest
  refine ⟨chain, st, st₂, _, hrun, hblocks, hlatest, (verifier_latest_iff hrun.named hblocks ?_).mpr ?_⟩
  · exact fun hnone => by cases hlatest.symm.trans hnone
  · exact (congrArg List.head? hlast).trans (congrArg List.getLast? hlast).symm

end Regtest

end Hivecoin

import Hivecoin.Chain.CoinFlow
import Hivecoin.Chain.AssetHistory
import Hivecoin.Chain.Lemmas.AssetOutputs
import Hivecoin.Chain.Reward

/-!
# Assets along an accepted chain

The data of all assets after each transaction of a chain, and what one transaction may do to data and coins.
-/

namespace Hivecoin

open CAssetsCache CoinsView

abbrev AssetLookup := Bytes → Option CNewAsset

def lookups (E : Env) (S : Store) (c : CAssetsCache) : AssetLookup := fun name =>
  (getAssetMetaDataIfExists E S c name).map CDatabasedAssetData.asset

def connectStates (E : Env) (S : Store) (R : Rules) (mempool : MempoolMaps) (block : CBlock) :
    ConnectState → List CTransaction → List ConnectState
  | _, [] => []
  | st, tx :: vtx =>
    match connectTx E S R mempool block st tx with
    | .ok st' => st' :: connectStates E S R mempool block st' vtx
    | .error _ => []

def blockLookups (E : Env) (R : Rules) (mempool : MempoolMaps) (st : ChainState) (block : CBlock) : List AssetLookup :=
  (connectStates E st.store R mempool block ⟨st.coins, ∅, 0, ⟨[], []⟩⟩ block.vtx).map fun cs =>
    lookups E st.store cs.assets

/-- The accepted chains, with what the lookups answered at genesis and after each transaction. -/
inductive AcceptedHistory (P : ChainParams) (R : Rules) : List (Env × CBlock) → List AssetLookup → ChainState → Prop
  | genesis : AcceptedHistory P R [] [fun _ => none] ⟨fun _ => none, ∅⟩
  | connect {chain history st st' undo E block mempool} (h : AcceptedHistory P R chain history st)
      (hheight : block.nHeight = chain.length + 1)
      (hblock : connectTip E (R.withReward E P) mempool st block = .ok (st', undo)) :
      AcceptedHistory P R (chain ++ [(E, block)]) (history ++ blockLookups E (R.withReward E P) mempool st block) st'
  | dump {chain history st} (E : Env)
      (h : AcceptedHistory P R chain history st) :
      AcceptedHistory P R chain history ⟨st.coins, st.store.dumpCacheToDatabase E⟩
  | cacheEvent {chain history st} (event : Store.CacheEvent)
      (h : AcceptedHistory P R chain history st) : AcceptedHistory P R chain history ⟨st.coins, st.store.cacheEvent event⟩

theorem AcceptedChain.history {P R chain st}
    (h : AcceptedChain P R chain st) : ∃ history, AcceptedHistory P R chain history st := by
  induction h with
  | genesis => exact ⟨_, .genesis⟩
  | connect h hheight hblock ih => exact ⟨_, .connect ih.choose_spec hheight hblock⟩
  | dump E h ih => exact ⟨_, .dump E ih.choose_spec⟩
  | cacheEvent event h ih => exact ⟨_, .cacheEvent event ih.choose_spec⟩

theorem AcceptedHistory.accepted {P R chain history st} (h : AcceptedHistory P R chain history st) : AcceptedChain P R chain st := by
  induction h with
  | genesis => exact .genesis
  | connect h hheight hblock ih => exact .connect ih hheight hblock
  | dump E h ih => exact .dump E ih
  | cacheEvent event h ih => exact .cacheEvent event ih

/-- The coinbase of the block carries no assets. -/
def CoinbasePlain (block : CBlock) : Prop :=
  ∀ tx ∈ block.vtx, tx.isCoinBase = true → ∀ out ∈ tx.vout, Script.isAssetScript out.scriptPubKey = none

/-- What an event needs of the data of its name. -/
def AssetEvent.Allowed (data : Option CNewAsset) : AssetEvent → Prop
  | issue asset _ _ => data = none ∧ asset.Sound
  | reissue r _ => ∃ m, data = some m ∧ ReissueAllowed m r

/-- What a transfer needs: a whole owner token, or an amount that fits. -/
structure TransferAllowed (data : AssetLookup) (e : Bytes × CAmount) : Prop where
  named : nameValid e.1 = true
  positive : 0 < e.2.toInt
  fits : (isAssetNameAnOwner e.1 = true ∧ e.2 = OWNER_ASSET_AMOUNT) ∨
    ∃ m, data e.1 = some m ∧ checkAmountWithUnits e.2 m.units = true

def ownerTokens (E : Env) (tx : CTransaction) : List (Bytes × CAmount) :=
  if E.isNewAsset tx then (txEvents E tx).map fun e => (e.name ++ OWNER_TAG, OWNER_ASSET_AMOUNT) else []

def spentValue (view : CoinsView) (val : Coin → Int) (tx : CTransaction) : Int :=
  if tx.isCoinBase then 0 else (tx.vin.map fun txin => view.held val txin.prevout).sum

/-- A transaction takes the coins from `view` to `view'`. -/
structure CoinStep (tx : CTransaction) (view view' : CoinsView) : Prop where
  kept : ∀ out coin, view' out = some coin → view out = some coin ∨ coin.out ∈ tx.vout
  flow : ∃ nHeight, ∀ val B, (∀ coin ∈ outCoins tx nHeight, 0 ≤ val coin) → view.Holds val B →
    view'.Holds val (B - spentValue view val tx + ((outCoins tx nHeight).map (added val)).sum)

/-- The data go from `data` to `data'`, and the outputs carry what is transferred and created. -/
structure AssetStep (E : Env) (view : CoinsView) (tx : CTransaction) (data data' : AssetLookup) : Prop where
  follows : ∀ name, data' name = (txEventsOf E name tx).foldl AssetEvent.applyTo (data name)
  allowed : ∀ e ∈ txEvents E tx, e.Allowed (data e.name)
  once : ((txEvents E tx).map AssetEvent.name).Nodup
  carried : (carriedOutputs tx).Perm
    (transferOutputs E tx ++ (txEvents E tx).map AssetEvent.minted ++ ownerTokens E tx)
  transfers : ∀ e ∈ transferOutputs E tx, TransferAllowed data e
  balanced : transferOutputs E tx ≠ [] → tx.isCoinBase = false ∧ ∀ name,
    (Tally.ofList (spentAssets E view tx)).get? name = (Tally.ofList (transferOutputs E tx)).get? name

namespace AssetStep

variable {E : Env} {view : CoinsView} {tx : CTransaction} {data data' : AssetLookup}

theorem event (h : AssetStep E view tx data data') {e} (he : e ∈ txEvents E tx) :
    data' e.name = e.applyTo (data e.name) := by
  have hmem : e ∈ txEventsOf E e.name tx := List.mem_filter.mpr ⟨he, by simp⟩
  rw [h.follows]
  rcases filter_name_cases h.once e.name with hnil | ⟨e', -, -, hone⟩
  · rw [txEventsOf, hnil] at hmem
    cases hmem
  · rw [txEventsOf, hone, List.mem_singleton] at hmem
    rw [txEventsOf, hone, ← hmem]
    rfl

theorem same (h : AssetStep E view tx data data') {name} (hno : ∀ e ∈ txEvents E tx, e.name ≠ name) :
    data' name = data name := by
  have hnil : txEventsOf E name tx = [] := List.filter_eq_nil_iff.mpr fun e he => by simpa using hno e he
  rw [h.follows, hnil]
  rfl

theorem carried_cases (h : AssetStep E view tx data data') {e} (he : e ∈ carriedOutputs tx) :
    e ∈ transferOutputs E tx ∨ (∃ event ∈ txEvents E tx, event.minted = e) ∨ e ∈ ownerTokens E tx := by
  rw [h.carried.mem_iff, List.mem_append, List.mem_append, List.mem_map, or_assoc] at he
  exact he

end AssetStep

/-- The data of every name is that of an asset with this name. -/
def AssetLookup.Sound (data : AssetLookup) : Prop := ∀ name m, data name = some m → m.strName = name ∧ m.Sound

def AssetLookup.Later (data data' : AssetLookup) : Prop :=
  ∀ name m, data name = some m → ∃ m', data' name = some m' ∧ m.Later m'

theorem AssetLookup.Later.trans {data1 data2 data3 : AssetLookup} (h : data1.Later data2) (h' : data2.Later data3) :
    data1.Later data3 := by
  intro name m hm
  obtain ⟨m2, hm2, hle⟩ := h name m hm
  obtain ⟨m3, hm3, hle'⟩ := h' name m2 hm2
  exact ⟨m3, hm3, hle.trans hle'⟩

theorem AssetStep.sound_later {E view tx data data'}
    (h : AssetStep E view tx data data') (hdata : data.Sound) :
    data'.Sound ∧ data.Later data' := by
  have hname : ∀ name, (∀ m, data' name = some m → m.strName = name ∧ m.Sound) ∧
      ∀ m, data name = some m → ∃ m', data' name = some m' ∧ m.Later m' := by
    intro name
    by_cases hevent : ∃ e ∈ txEvents E tx, e.name = name
    · obtain ⟨e, he, rfl⟩ := hevent
      have hallowed := h.allowed e he
      rw [h.event he]
      cases e with
      | issue asset v u =>
        obtain ⟨hnone, hsound⟩ := hallowed
        rw [hnone]
        refine ⟨fun m hm => ?_, fun m hm => by cases hm⟩
        cases hm
        exact ⟨rfl, hsound⟩
      | reissue r v =>
        obtain ⟨m, hm, hallowed⟩ := hallowed
        obtain ⟨hstr, hsound⟩ := hdata _ m hm
        obtain ⟨hsound', hlater⟩ := hsound.reissue hallowed
        rw [hm]
        refine ⟨fun m' hm' => ?_, fun m' hm' => ?_⟩
        · cases hm'
          exact ⟨hstr, hsound'⟩
        · cases hm'
          exact ⟨_, rfl, hlater⟩
    · rw [h.same fun e he hn => hevent ⟨e, he, hn⟩]
      exact ⟨hdata name, fun m hm => ⟨m, hm, .refl m⟩⟩
  exact ⟨fun name => (hname name).1, fun name => (hname name).2⟩

end Hivecoin

import Hivecoin.Assets.Types
import Hivecoin.Base.Median
import Hivecoin.Base.Memo

/-!
# Version bits

`GetStateFor` with its cache, and the state of a deployment as the recursion of BIP 9 defines it, one transition for each period.
-/

namespace Hivecoin

open List

/-- What versionbits read of an entry of the block index. -/
structure BlockHeader where
  hash : Uint256
  nTime : UInt32
  nVersion : UInt32
deriving DecidableEq

/-- An entry with the entries below it, the newest first; the null pointer is `[]`. -/
abbrev Branch := List BlockHeader

def Branch.nHeight (pindex : Branch) : Int := pindex.length - 1

def Branch.getAncestor (pindex : Branch) (height : Int) : Branch :=
  if height > pindex.nHeight ∨ height < 0 then [] else pindex.drop (pindex.nHeight - height).toNat

def nMedianTimeSpan : Nat := 11

def Branch.getMedianTimePast (pindex : Branch) : Nat := median ((pindex.take nMedianTimeSpan).map fun header => header.nTime.toNat)

inductive ThresholdState where
  | DEFINED | STARTED | LOCKED_IN | ACTIVE | FAILED
deriving DecidableEq

/-- What `AbstractThresholdConditionChecker` asks of a deployment. -/
structure Checker where
  bit : UInt32
  nTimeStart : Int
  nTimeTimeout : Int
  nPeriod : Nat
  nThreshold : Nat

abbrev ThresholdConditionCache := Table Branch ThresholdState

section

variable (C : Checker)

def Checker.condition (header : BlockHeader) : Bool := header.nVersion &&& ((1 : UInt32) <<< C.bit) != 0

/-- The state that a period ends with; its last block is `pindexPrev`. -/
def nextState (state : ThresholdState) (pindexPrev : Branch) : ThresholdState :=
  match state with
  | .DEFINED =>
    if (pindexPrev.getMedianTimePast : Int) ≥ C.nTimeTimeout then .FAILED
    else if (pindexPrev.getMedianTimePast : Int) ≥ C.nTimeStart then .STARTED else .DEFINED
  | .STARTED =>
    if (pindexPrev.getMedianTimePast : Int) ≥ C.nTimeTimeout then .FAILED
    else if (pindexPrev.take C.nPeriod).countP C.condition ≥ C.nThreshold then .LOCKED_IN else .STARTED
  | .LOCKED_IN => .ACTIVE
  | .FAILED => .FAILED
  | .ACTIVE => .ACTIVE

/-- Where the way back ends: before the genesis block, and before the start time. -/
def knownState (pindexPrev : Branch) : Option ThresholdState :=
  if pindexPrev = [] then some .DEFINED
  else if (pindexPrev.getMedianTimePast : Int) < C.nTimeStart then some .DEFINED else none

/-- `GetStateFor`; `none` is where its first loop does not end. -/
def getStateFor (cache : ThresholdConditionCache) (pindexPrev : Branch) : Option (ThresholdState × ThresholdConditionCache) := do
  let pindexPrev :=
    if pindexPrev ≠ [] then pindexPrev.getAncestor (pindexPrev.nHeight - (pindexPrev.nHeight + 1) % C.nPeriod) else []
  let (cache, state, vToCompute) ← Memo.back (knownState C) (fun pindex => pindex.getAncestor (pindex.nHeight - C.nPeriod))
    (pindexPrev.length + 1) cache pindexPrev []
  return Memo.forward (nextState C) cache state vToCompute

/-- The last block of the period before. -/
def boundary (pindexPrev : Branch) : Branch := pindexPrev.drop (pindexPrev.length % C.nPeriod)

def stateAfter : Nat → Branch → ThresholdState
  | 0, _ => .DEFINED
  | periods + 1, pindexPrev => nextState C (stateAfter periods (pindexPrev.drop C.nPeriod)) pindexPrev

def deploymentState (pindexPrev : Branch) : ThresholdState :=
  stateAfter C ((boundary C pindexPrev).length / C.nPeriod) (boundary C pindexPrev)

end

/-- Each block is later than the median time past of its parent. -/
def TimesIncrease : Branch → Prop
  | [] => True
  | header :: pprev => (pprev ≠ [] → Branch.getMedianTimePast pprev < header.nTime.toNat) ∧ TimesIncrease pprev

instance TimesIncrease.decidable : (pindex : Branch) → Decidable (TimesIncrease pindex)
  | [] => isTrue trivial
  | _ :: pprev =>
    have := TimesIncrease.decidable pprev
    inferInstanceAs (Decidable (_ ∧ _))

/-- The steps that a deployment can take from one block to the next. -/
inductive Moves : ThresholdState → ThresholdState → Prop
  | stays (state : ThresholdState) : Moves state state
  | starts : Moves .DEFINED .STARTED
  | failsEarly : Moves .DEFINED .FAILED
  | locksIn : Moves .STARTED .LOCKED_IN
  | fails : Moves .STARTED .FAILED
  | activates : Moves .LOCKED_IN .ACTIVE

/-- The caches that calls on blocks of the tree leave. -/
inductive FilledCache (C : Checker) : ThresholdConditionCache → Prop
  | empty : FilledCache C ∅
  | call {cache cache' pindexPrev state} (h : FilledCache C cache)
      (hvalid : TimesIncrease pindexPrev) (hcall : getStateFor C cache pindexPrev = some (state, cache')) : FilledCache C cache'

variable {C : Checker} {cache cache' : ThresholdConditionCache} {pindexPrev : Branch} {header : BlockHeader}

theorem getAncestor_below (hne : pindexPrev ≠ []) (n : Nat) :
    pindexPrev.getAncestor (pindexPrev.nHeight - n) = pindexPrev.drop n := by
  have hpos := length_pos_of_ne_nil hne
  unfold Branch.getAncestor Branch.nHeight
  split
  · rw [drop_eq_nil_of_le (by omega)]
  · congr 1
    omega

theorem medianTimePast_le_cons (h : TimesIncrease (header :: pindexPrev)) (hne : pindexPrev ≠ []) :
    pindexPrev.getMedianTimePast ≤ Branch.getMedianTimePast (header :: pindexPrev) := by
  unfold Branch.getMedianTimePast
  rw [nMedianTimeSpan, take_succ_cons, map_cons]
  refine Median.median_le_cons (by simpa using hne) ((take_sublist_take_left (by omega)).map _) ?_ (h.1 hne).le
  simp only [length_map, length_take]
  omega

theorem TimesIncrease.drop (h : TimesIncrease pindexPrev) (n : Nat) : TimesIncrease (pindexPrev.drop n) := by
  induction n generalizing pindexPrev with
  | zero => exact h
  | succ n ih =>
    cases pindexPrev with
    | nil => exact h
    | cons header pprev => exact ih h.2

theorem medianTimePast_drop_le (h : TimesIncrease pindexPrev) {n} (hne : pindexPrev.drop n ≠ []) :
    Branch.getMedianTimePast (pindexPrev.drop n) ≤ pindexPrev.getMedianTimePast := by
  induction n generalizing pindexPrev with
  | zero => exact le_rfl
  | succ n ih =>
    cases pindexPrev with
    | nil => exact absurd rfl hne
    | cons header pprev =>
      have hpprev : pprev ≠ [] := by
        rintro rfl
        exact hne drop_nil
      exact (ih h.2 hne).trans (medianTimePast_le_cons h hpprev)

/-! ## The recursion -/

theorem dvd_length_boundary (C : Checker) (pindexPrev : Branch) : C.nPeriod ∣ (boundary C pindexPrev).length := by
  rw [boundary, length_drop]
  exact Nat.dvd_sub_mod _

theorem boundary_of_dvd (h : C.nPeriod ∣ pindexPrev.length) : boundary C pindexPrev = pindexPrev := by
  rw [boundary, Nat.mod_eq_zero_of_dvd h, drop_zero]

theorem deploymentState_boundary (C : Checker) (pindexPrev : Branch) :
    deploymentState C (boundary C pindexPrev) = deploymentState C pindexPrev := by
  rw [deploymentState, boundary_of_dvd (dvd_length_boundary C pindexPrev), deploymentState]

/-- Before the start time nothing has happened. -/
theorem stateAfter_defined (hstart : C.nTimeStart ≤ C.nTimeTimeout) (h : TimesIncrease pindexPrev) (periods : Nat)
    (hbefore : pindexPrev ≠ [] → (pindexPrev.getMedianTimePast : Int) < C.nTimeStart)
    (hlength : pindexPrev.length = periods * C.nPeriod) (hperiod : 0 < C.nPeriod) : stateAfter C periods pindexPrev = .DEFINED := by
  induction periods generalizing pindexPrev with
  | zero => rfl
  | succ periods ih =>
    have hne : pindexPrev ≠ [] := by
      rintro rfl
      rw [length_nil, Nat.succ_mul] at hlength
      omega
    have hprev : stateAfter C periods (pindexPrev.drop C.nPeriod) = .DEFINED := by
      refine ih (h.drop _) (fun hdrop => ?_) (by rw [length_drop, hlength, Nat.succ_mul, Nat.add_sub_cancel])
      have := medianTimePast_drop_le h hdrop
      have := hbefore hne
      omega
    have := hbefore hne
    rw [stateAfter, hprev, nextState, if_neg (by omega), if_neg (by omega)]

theorem deploymentState_of_dvd (hperiod : 0 < C.nPeriod) (hdvd : C.nPeriod ∣ pindexPrev.length) (hne : pindexPrev ≠ []) :
    deploymentState C pindexPrev = nextState C (deploymentState C (pindexPrev.drop C.nPeriod)) pindexPrev := by
  obtain ⟨periods, hlength⟩ := hdvd
  have hpos := length_pos_of_ne_nil hne
  cases periods with
  | zero => omega
  | succ periods =>
    have hdrop : (pindexPrev.drop C.nPeriod).length = C.nPeriod * periods := by
      rw [length_drop, hlength, Nat.mul_succ, Nat.add_sub_cancel]
    rw [deploymentState, boundary_of_dvd ⟨_, hlength⟩, hlength, Nat.mul_div_cancel_left _ hperiod, stateAfter, deploymentState,
      boundary_of_dvd ⟨_, hdrop⟩, hdrop, Nat.mul_div_cancel_left _ hperiod]

theorem deploymentState_recursion (hperiod : 0 < C.nPeriod) (hstart : C.nTimeStart ≤ C.nTimeTimeout) :
    Memo.Recursion (knownState C) (fun pindex => pindex.getAncestor (pindex.nHeight - C.nPeriod)) (nextState C) (deploymentState C)
      List.length fun pindex => TimesIncrease pindex ∧ C.nPeriod ∣ pindex.length where
  outright pindex state hpindex hknown := by
    obtain ⟨hvalid, hdvd⟩ := hpindex
    have hbefore : (pindex ≠ [] → (pindex.getMedianTimePast : Int) < C.nTimeStart) ∧ state = .DEFINED := by
      unfold knownState at hknown
      split at hknown
      · exact ⟨fun hne => absurd ‹_› hne, (Option.some.inj hknown).symm⟩
      · split at hknown
        · exact ⟨fun _ => ‹_›, (Option.some.inj hknown).symm⟩
        · cases hknown
    rw [hbefore.2, deploymentState, boundary_of_dvd hdvd,
      stateAfter_defined hstart hvalid _ hbefore.1 (Nat.div_mul_cancel hdvd).symm hperiod]
  goesBack pindex hpindex hknown := by
    have hne : pindex ≠ [] := fun h => by simp [knownState, h] at hknown
    have hpos := length_pos_of_ne_nil hne
    rw [getAncestor_below hne, length_drop]
    exact ⟨⟨hpindex.1.drop _, Nat.dvd_sub hpindex.2 (Nat.dvd_refl _)⟩, by omega⟩
  goesOn pindex hpindex hknown := by
    have hne : pindex ≠ [] := fun h => by simp [knownState, h] at hknown
    rw [getAncestor_below hne, deploymentState_of_dvd hperiod hpindex.2 hne]

/-- The call gives the state without a cache, and the cache stays right. -/
theorem getStateFor_eq (hperiod : 0 < C.nPeriod) (hstart : C.nTimeStart ≤ C.nTimeTimeout)
    (hcache : Memo.Agrees (deploymentState C) cache) (hvalid : TimesIncrease pindexPrev) :
    ∃ cache', getStateFor C cache pindexPrev = some (deploymentState C pindexPrev, cache') ∧
      Memo.Agrees (deploymentState C) cache' := by
  have hentry : (if pindexPrev ≠ [] then pindexPrev.getAncestor (pindexPrev.nHeight - (pindexPrev.nHeight + 1) % C.nPeriod) else []) =
      boundary C pindexPrev := by
    split
    · rename_i hne
      have hmod : (pindexPrev.nHeight + 1) % (C.nPeriod : Int) = (pindexPrev.length % C.nPeriod : Nat) := by
        rw [Branch.nHeight, Int.sub_add_cancel, Int.natCast_emod]
      rw [hmod, getAncestor_below hne, boundary]
    · rename_i hnil
      rw [boundary, not_not.mp hnil, drop_nil]
  obtain ⟨cache1, state, passed, cache2, hback, hforward, hagrees⟩ := Memo.back_forward (k := boundary C pindexPrev)
    (deploymentState_recursion hperiod hstart) hcache ⟨hvalid.drop _, dvd_length_boundary C pindexPrev⟩ (Nat.lt_succ_self _) []
  refine ⟨cache2, ?_, hagrees⟩
  rw [getStateFor, hentry, hback]
  exact congrArg some (hforward.trans (by rw [deploymentState_boundary]; rfl))

theorem FilledCache.agrees (hperiod : 0 < C.nPeriod) (hstart : C.nTimeStart ≤ C.nTimeTimeout) (h : FilledCache C cache) :
    Memo.Agrees (deploymentState C) cache := by
  induction h with
  | empty => exact Memo.agrees_empty
  | call _ hvalid hcall ih =>
    obtain ⟨cache', heq, hagrees⟩ := getStateFor_eq hperiod hstart ih hvalid
    rw [heq] at hcall
    cases hcall
    exact hagrees

theorem nextState_moves (state : ThresholdState) (pindexPrev : Branch) : Moves state (nextState C state pindexPrev) := by
  cases state <;> unfold nextState <;> dsimp only
  · split
    · exact .failsEarly
    · split
      · exact .starts
      · exact .stays _
  · split
    · exact .fails
    · split
      · exact .locksIn
      · exact .stays _
  · exact .activates
  · exact .stays _
  · exact .stays _

/-- A block that ends a period makes a transition, any other keeps the state. -/
theorem deploymentState_cons (hperiod : 0 < C.nPeriod) :
    deploymentState C (header :: pindexPrev) = nextState C (deploymentState C pindexPrev) (header :: pindexPrev) ∨
      deploymentState C (header :: pindexPrev) = deploymentState C pindexPrev := by
  have hlength := Nat.div_add_mod pindexPrev.length C.nPeriod
  have hlt := Nat.mod_lt pindexPrev.length hperiod
  by_cases hlast : pindexPrev.length % C.nPeriod + 1 = C.nPeriod
  · left
    have hdvd : C.nPeriod ∣ (header :: pindexPrev).length :=
      ⟨pindexPrev.length / C.nPeriod + 1, by rw [length_cons, Nat.mul_succ]; omega⟩
    have hdrop : (header :: pindexPrev).drop C.nPeriod = boundary C pindexPrev := by
      rw [← hlast, drop_succ_cons, boundary]
    rw [deploymentState_of_dvd hperiod hdvd (by simp), hdrop, deploymentState_boundary]
  · right
    have hmod : (pindexPrev.length + 1) % C.nPeriod = pindexPrev.length % C.nPeriod + 1 := by
      rw [show pindexPrev.length + 1 = pindexPrev.length % C.nPeriod + 1 + C.nPeriod * (pindexPrev.length / C.nPeriod) by omega,
        Nat.add_mul_mod_self_left, Nat.mod_eq_of_lt (by omega)]
    have hsame : boundary C (header :: pindexPrev) = boundary C pindexPrev := by
      rw [boundary, length_cons, hmod, drop_succ_cons, boundary]
    rw [deploymentState, hsame, deploymentState]

/-- Whatever calls have filled the cache, the state is that of the chain, and moves from block to block only as BIP 9 has it. -/
theorem getStateFor_follows_chain (hperiod : 0 < C.nPeriod) (hstart : C.nTimeStart ≤ C.nTimeTimeout) (hcache : FilledCache C cache)
    (hvalid : TimesIncrease pindexPrev) :
    (∃ cache', getStateFor C cache pindexPrev = some (deploymentState C pindexPrev, cache')) ∧
      (∀ other, TimesIncrease other → boundary C other = boundary C pindexPrev →
        (getStateFor C cache other).map Prod.fst = (getStateFor C cache pindexPrev).map Prod.fst) ∧
      ∀ header, TimesIncrease (header :: pindexPrev) → ∃ state state', (getStateFor C cache pindexPrev).map Prod.fst = some state ∧
        (getStateFor C cache (header :: pindexPrev)).map Prod.fst = some state' ∧ Moves state state' := by
  have hcall : ∀ pindex, TimesIncrease pindex → ∃ cache', getStateFor C cache pindex = some (deploymentState C pindex, cache') := by
    intro pindex hpindex
    obtain ⟨cache', heq, -⟩ := getStateFor_eq hperiod hstart (hcache.agrees hperiod hstart) hpindex
    exact ⟨cache', heq⟩
  obtain ⟨cache₁, h₁⟩ := hcall pindexPrev hvalid
  refine ⟨⟨cache₁, h₁⟩, fun other hother hsame => ?_, fun header hheader => ?_⟩
  · obtain ⟨cache₂, h₂⟩ := hcall other hother
    rw [h₁, h₂, deploymentState, hsame]
    rfl
  · obtain ⟨cache₂, h₂⟩ := hcall _ hheader
    refine ⟨_, _, congrArg _ h₁, congrArg _ h₂, ?_⟩
    rcases @deploymentState_cons C pindexPrev header hperiod with heq | heq
    · exact heq ▸ nextState_moves _ _
    · exact heq ▸ .stays _

namespace Regtest

def testHeader (n : Nat) : BlockHeader := ⟨n, 1000 + 60 * UInt32.ofNat n, 64⟩

def testChain (n : Nat) : Branch := ((List.range n).map testHeader).reverse

def testChecker : Checker := ⟨6, 1200, 100000, 3, 3⟩

theorem testChain_follows : (getStateFor testChecker ∅ (testChain 17)).map Prod.fst = some .ACTIVE ∧
    ∃ cache', getStateFor testChecker ∅ (testChain 17) = some (deploymentState testChecker (testChain 17), cache') := by
  have hvalid : TimesIncrease (testChain 17) := by decide +kernel
  exact ⟨by decide +kernel, (getStateFor_follows_chain (by decide) (by decide) .empty hvalid).1⟩

end Regtest

/-! ## The switches -/

inductive DeploymentPos where
  | DEPLOYMENT_ASSETS | DEPLOYMENT_MSG_REST_ASSETS | DEPLOYMENT_TRANSFER_SCRIPT_SIZE | DEPLOYMENT_COINBASE_ASSETS
deriving DecidableEq

/-- The flags of `consensus.h`, the cache of `versionbits.h` and the tip. -/
structure SwitchState where
  fAssetsIsActive : Bool := true
  fRip5IsActive : Bool := true
  fTransferScriptIsActive : Bool := true
  fCheckCoinbaseAssetsIsActive : Bool := true
  versionbitscache : DeploymentPos → ThresholdConditionCache := fun _ => ∅
  tip : Branch := []

section

variable (params : DeploymentPos → Checker) (st : SwitchState)

def versionBitsTipState (pos : DeploymentPos) : Option (ThresholdState × SwitchState) := do
  let (state, cache) ← getStateFor (params pos) (st.versionbitscache pos) st.tip
  return (state, { st with versionbitscache := Function.update st.versionbitscache pos cache })

/-- A switch sets its flag the first time that it sees its deployment active. -/
def switch (flag : SwitchState → Bool) (set : SwitchState → SwitchState) (pos : DeploymentPos) : Option (Bool × SwitchState) :=
  if flag st then some (true, st)
  else do
    let (thresholdState, st) ← versionBitsTipState params st pos
    if thresholdState = .ACTIVE then some (true, set st) else some (flag st, st)

def areAssetsDeployed : Option (Bool × SwitchState) :=
  switch params st SwitchState.fAssetsIsActive (fun st => { st with fAssetsIsActive := true }) .DEPLOYMENT_ASSETS

def isRip5Active : Option (Bool × SwitchState) :=
  switch params st SwitchState.fRip5IsActive (fun st => { st with fRip5IsActive := true }) .DEPLOYMENT_MSG_REST_ASSETS

def areTransferScriptsSizeDeployed : Option (Bool × SwitchState) :=
  switch params st SwitchState.fTransferScriptIsActive (fun st => { st with fTransferScriptIsActive := true })
    .DEPLOYMENT_TRANSFER_SCRIPT_SIZE

def areCoinbaseCheckAssetsDeployed : Option (Bool × SwitchState) :=
  switch params st SwitchState.fCheckCoinbaseAssetsIsActive (fun st => { st with fCheckCoinbaseAssetsIsActive := true })
    .DEPLOYMENT_COINBASE_ASSETS

def callSwitch : DeploymentPos → Option (Bool × SwitchState)
  | .DEPLOYMENT_ASSETS => areAssetsDeployed params st
  | .DEPLOYMENT_MSG_REST_ASSETS => isRip5Active params st
  | .DEPLOYMENT_TRANSFER_SCRIPT_SIZE => areTransferScriptsSizeDeployed params st
  | .DEPLOYMENT_COINBASE_ASSETS => areCoinbaseCheckAssetsDeployed params st

end

/-- The states of a node whose tip goes anywhere, with calls in between. -/
inductive SwitchRun (params : DeploymentPos → Checker) : SwitchState → Prop
  | start : SwitchRun params {}
  | setTip {st} (h : SwitchRun params st) (tip : Branch) : SwitchRun params { st with tip := tip }
  | call {st st' r pos} (h : SwitchRun params st)
      (hcall : callSwitch params st pos = some (r, st')) : SwitchRun params st'

theorem callSwitch_on {params st}
    (h : st.fAssetsIsActive ∧ st.fRip5IsActive ∧ st.fTransferScriptIsActive ∧ st.fCheckCoinbaseAssetsIsActive) (pos : DeploymentPos) :
    callSwitch params st pos = some (true, st) := by
  cases pos with
  | DEPLOYMENT_ASSETS => exact if_pos h.1
  | DEPLOYMENT_MSG_REST_ASSETS => exact if_pos h.2.1
  | DEPLOYMENT_TRANSFER_SCRIPT_SIZE => exact if_pos h.2.2.1
  | DEPLOYMENT_COINBASE_ASSETS => exact if_pos h.2.2.2

/-- All flags start set, so every switch is on and no call changes anything. -/
theorem switches_always_on {params : DeploymentPos → Checker} {st : SwitchState} (h : SwitchRun params st) (pos : DeploymentPos) :
    callSwitch params st pos = some (true, st) := by
  refine callSwitch_on ?_ pos
  induction h with
  | start => exact ⟨rfl, rfl, rfl, rfl⟩
  | setTip _ tip ih => exact ih
  | call _ hcall ih =>
    rw [callSwitch_on ih] at hcall
    cases hcall
    exact ih

def mainDeployments : DeploymentPos → Checker
  | .DEPLOYMENT_ASSETS => ⟨6, 1613880000, 1617120000, 2016, 1814⟩
  | .DEPLOYMENT_MSG_REST_ASSETS => ⟨7, 1613880000, 1617120000, 2016, 1714⟩
  | .DEPLOYMENT_TRANSFER_SCRIPT_SIZE => ⟨8, 1613880000, 1617120000, 2016, 1714⟩
  | .DEPLOYMENT_COINBASE_ASSETS => ⟨10, 1613880000, 1628877600, 2016, 1411⟩

/-- The assets are on at a tip where their deployment has not started. -/
theorem switch_on_before_start : SwitchRun mainDeployments { tip := Regtest.testChain 1 } ∧
    (callSwitch mainDeployments { tip := Regtest.testChain 1 } .DEPLOYMENT_ASSETS).map Prod.fst = some true ∧
    deploymentState (mainDeployments .DEPLOYMENT_ASSETS) (Regtest.testChain 1) = .DEFINED :=
  ⟨.setTip .start _, rfl, by decide +kernel⟩

theorem switch_on_at_test_tip : callSwitch mainDeployments { tip := Regtest.testChain 1 } .DEPLOYMENT_ASSETS =
    some (true, { tip := Regtest.testChain 1 }) :=
  switches_always_on (.setTip .start (Regtest.testChain 1)) .DEPLOYMENT_ASSETS

end Hivecoin

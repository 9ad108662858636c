import Hivecoin.Pow.Compact
import Hivecoin.Env

/-!
# Dark Gravity Wave

`DarkGravityWave` of `pow.cpp`. The product of the average with the timespan does not keep within 256 bits.
-/

namespace Hivecoin

open List

structure ConsensusParams where
  powLimit : Nat
  kawpowLimit : Nat
  nPowTargetTimespan : Int
  nPowTargetSpacing : Int
  fPowAllowMinDifficultyBlocks : Bool
  fPowNoRetargeting : Bool
  nKAWPOWActivationTime : UInt32

def ConsensusParams.difficultyAdjustmentInterval (params : ConsensusParams) : Int :=
  params.nPowTargetTimespan / params.nPowTargetSpacing

def consensusParams : Network → ConsensusParams
  | .MAIN => ⟨2 ^ 248 - 1, 2 ^ 248 - 1, 2016 * 60, 60, false, false, 1617120000⟩
  | .TESTNET => ⟨2 ^ 248 - 1, 2 ^ 248 - 1, 2016 * 60, 60, true, false, 1617122000⟩
  | .REGTEST => ⟨2 ^ 255 - 1, 2 ^ 255 - 1, 2016 * 60, 60, true, true, 3582830167⟩

structure BlockTarget where
  nTime : UInt32
  nBits : UInt32
deriving DecidableEq

def BlockTarget.getBlockTime (block : BlockTarget) : Int := block.nTime.toNat

def BlockTarget.target (block : BlockTarget) : Nat := setCompact block.nBits.toNat

def nPastBlocks : Nat := 180

structure PastBlocks where
  nCountBlocks : Nat
  bnPastTargetAvg : Nat
  nKAWPOWBlocksFound : Nat

def countBlock (nKAWPOWActivationTime : UInt32) (past : PastBlocks) (pindex : BlockTarget) : PastBlocks where
  nCountBlocks := past.nCountBlocks + 1
  bnPastTargetAvg :=
    if past.nCountBlocks = 1 then pindex.target
    else (past.bnPastTargetAvg * past.nCountBlocks % 2 ^ 256 + pindex.target) % 2 ^ 256 / (past.nCountBlocks + 1)
  nKAWPOWBlocksFound := past.nKAWPOWBlocksFound + if pindex.nTime ≥ nKAWPOWActivationTime then 1 else 0

/-- The last block that is not one of the special minimum difficulty. -/
def lastRegularBits (interval : Int) (nProofOfWorkLimit : Nat) : List BlockTarget → Nat
  | [] => 0
  | pindex :: pprev =>
    if pprev ≠ [] ∧ (pprev.length : Int) % interval ≠ 0 ∧ pindex.nBits.toNat = nProofOfWorkLimit then
      lastRegularBits interval nProofOfWorkLimit pprev
    else pindex.nBits.toNat

/-- The target after `pindexLast`, whose predecessors are `pprev`, the nearest first. -/
def darkGravityWave (params : ConsensusParams) (pindexLast : BlockTarget) (pprev : List BlockTarget) (pblock : BlockTarget) : Nat :=
  let nProofOfWorkLimit := getCompact params.powLimit
  if pprev.length < nPastBlocks then getCompact params.powLimit
  else if params.fPowAllowMinDifficultyBlocks && params.fPowNoRetargeting then
    if pblock.getBlockTime > pindexLast.getBlockTime + params.nPowTargetSpacing * 2 then nProofOfWorkLimit
    else lastRegularBits params.difficultyAdjustmentInterval nProofOfWorkLimit (pindexLast :: pprev)
  else
    let window := (pindexLast :: pprev).take nPastBlocks
    let past := window.foldl (countBlock params.nKAWPOWActivationTime) ⟨1, 0, 0⟩
    let pindex := window.getLastD pindexLast
    if pblock.nTime ≥ params.nKAWPOWActivationTime ∧ past.nKAWPOWBlocksFound ≠ nPastBlocks then getCompact params.kawpowLimit
    else
      let nActualTimespan := pindexLast.getBlockTime - pindex.getBlockTime
      let nTargetTimespan := nPastBlocks * params.nPowTargetSpacing
      let nActualTimespan := if nActualTimespan < nTargetTimespan / 3 then nTargetTimespan / 3 else nActualTimespan
      let nActualTimespan := if nActualTimespan > nTargetTimespan * 3 then nTargetTimespan * 3 else nActualTimespan
      -- the factor is an unsigned 32-bit number, the divisor a 64-bit one
      let bnNew := past.bnPastTargetAvg * (nActualTimespan % 2 ^ 32).toNat % 2 ^ 256
      let bnNew := bnNew / (nTargetTimespan % 2 ^ 64).toNat
      getCompact (if bnNew > params.powLimit then params.powLimit else bnNew)

/-- The running average: of each further target, `(avg * n + target) / (n + 1)`. -/
def averageStep (s : Nat × Nat) (target : Nat) : Nat × Nat :=
  (s.1 + 1, if s.1 = 1 then target else (s.2 * s.1 + target) / (s.1 + 1))

def runningAverage (targets : List Nat) : Nat := (targets.foldl averageStep (1, 0)).2

section

variable (pindexLast : BlockTarget) (pprev : List BlockTarget)

def window : List BlockTarget := (pindexLast :: pprev).take nPastBlocks

def windowAverage : Nat := runningAverage ((window pindexLast pprev).map BlockTarget.target)

def clampedTimespan : Nat :=
  (max 3600 (min 32400 (pindexLast.getBlockTime - ((window pindexLast pprev).getLastD pindexLast).getBlockTime))).toNat

/-- The next target. A chain without a full window starts at the limit. -/
def exactTarget (powLimit : Nat) : Nat :=
  if pprev.length < nPastBlocks then powLimit
  else min powLimit (windowAverage pindexLast pprev * clampedTimespan pindexLast pprev / 10800)

end

theorem averageStep_le {limit s target} (hs : s.2 ≤ limit) (ht : target ≤ limit) :
    (averageStep s target).2 ≤ limit := by
  rw [averageStep]
  split
  · exact ht
  · refine Nat.div_le_of_le_mul ?_
    calc s.2 * s.1 + target ≤ limit * s.1 + limit := Nat.add_le_add (Nat.mul_le_mul_right _ hs) ht
      _ = (s.1 + 1) * limit := by ring

theorem foldl_countBlock {limit} (hlimit : limit < 2 ^ 248) (activation : UInt32) (blocks : List BlockTarget) (past : PastBlocks)
    (havg : past.bnPastTargetAvg ≤ limit) (hcount : past.nCountBlocks + blocks.length ≤ 200)
    (htargets : ∀ block ∈ blocks, block.target ≤ limit) :
    (blocks.foldl (countBlock activation) past).bnPastTargetAvg =
        ((blocks.map BlockTarget.target).foldl averageStep (past.nCountBlocks, past.bnPastTargetAvg)).2 ∧
      (blocks.foldl (countBlock activation) past).nKAWPOWBlocksFound =
        past.nKAWPOWBlocksFound + blocks.countP fun block => block.nTime ≥ activation := by
  induction blocks generalizing past with
  | nil => exact ⟨rfl, rfl⟩
  | cons block blocks ih =>
    have ht := htargets block mem_cons_self
    rw [length_cons] at hcount
    have hstep : (countBlock activation past block).bnPastTargetAvg =
        (averageStep (past.nCountBlocks, past.bnPastTargetAvg) block.target).2 := by
      have hproduct : past.bnPastTargetAvg * past.nCountBlocks ≤ limit * 200 := Nat.mul_le_mul havg (by omega)
      rw [countBlock, averageStep]
      dsimp only
      rw [Nat.mod_eq_of_lt (show past.bnPastTargetAvg * past.nCountBlocks < 2 ^ 256 by omega), Nat.mod_eq_of_lt (by omega)]
    have hle : (countBlock activation past block).bnPastTargetAvg ≤ limit := by
      rw [hstep]
      exact averageStep_le havg ht
    obtain ⟨havg', hfound⟩ := ih (countBlock activation past block) hle (by rw [countBlock]; dsimp only; omega)
      fun b hb => htargets b (mem_cons_of_mem _ hb)
    refine ⟨?_, ?_⟩
    · rw [foldl_cons, havg', hstep]
      rfl
    · rw [foldl_cons, hfound, countP_cons, countBlock]
      by_cases htime : block.nTime ≥ activation
      · simp [htime]
        omega
      · simp [htime]

/-! ## The retargeting -/

def powLimit : Nat := 2 ^ 248 - 1

theorem retargeting_params {network} (h : (consensusParams network).fPowNoRetargeting = false) :
    (consensusParams network).powLimit = powLimit ∧ (consensusParams network).kawpowLimit = powLimit ∧
      (consensusParams network).nPowTargetSpacing = 60 := by
  cases network with
  | REGTEST => cases h
  | _ => exact ⟨rfl, rfl, rfl⟩

section

variable {pindexLast : BlockTarget} {pprev : List BlockTarget}

theorem clamped_eq (actual : Int) :
    (if (if actual < 3600 then 3600 else actual) > 32400 then 32400 else if actual < 3600 then 3600 else actual) =
      max 3600 (min 32400 actual) := by
  split <;> split <;> omega

/-- The mining block is of the new kind and the window is not yet. -/
def KawpowTransition (network : Network) (pindexLast : BlockTarget) (pprev : List BlockTarget) (pblock : BlockTarget) : Prop :=
  pblock.nTime ≥ (consensusParams network).nKAWPOWActivationTime ∧
    ∃ block ∈ window pindexLast pprev, block.nTime < (consensusParams network).nKAWPOWActivationTime

instance decidableKawpowTransition (network : Network) (pindexLast : BlockTarget) (pprev : List BlockTarget) (pblock : BlockTarget) :
    Decidable (KawpowTransition network pindexLast pprev pblock) :=
  inferInstanceAs (Decidable (_ ∧ _))

theorem darkGravityWave_eq {network} (hretarget : (consensusParams network).fPowNoRetargeting = false)
    (htargets : ∀ block ∈ pindexLast :: pprev, block.target ≤ powLimit) (hlong : nPastBlocks ≤ pprev.length) (pblock : BlockTarget) :
    (KawpowTransition network pindexLast pprev pblock →
      darkGravityWave (consensusParams network) pindexLast pprev pblock = getCompact powLimit) ∧
    (¬KawpowTransition network pindexLast pprev pblock →
      darkGravityWave (consensusParams network) pindexLast pprev pblock =
        getCompact (windowAverage pindexLast pprev * clampedTimespan pindexLast pprev % 2 ^ 256 / 10800)) := by
  obtain ⟨hpow, hkaw, hspace⟩ := retargeting_params hretarget
  have hwindow : (window pindexLast pprev).length = nPastBlocks := by
    rw [window, length_take, length_cons]
    omega
  obtain ⟨havg, hfound⟩ := @foldl_countBlock powLimit (by decide) (consensusParams network).nKAWPOWActivationTime
    (window pindexLast pprev) ⟨1, 0, 0⟩ (Nat.zero_le _) (by rw [hwindow]; decide)
    fun block hblock => htargets block (take_subset _ _ hblock)
  have hold : ((window pindexLast pprev).foldl (countBlock (consensusParams network).nKAWPOWActivationTime) ⟨1, 0, 0⟩).nKAWPOWBlocksFound ≠
      nPastBlocks ↔ ∃ block ∈ window pindexLast pprev, block.nTime < (consensusParams network).nKAWPOWActivationTime := by
    rw [hfound, Nat.zero_add, ← hwindow, ne_eq, countP_eq_length]
    simp
  have hspan : ∀ actual : Int, ((if (if actual < nPastBlocks * 60 / 3 then (nPastBlocks : Int) * 60 / 3 else actual) >
      nPastBlocks * 60 * 3 then (nPastBlocks : Int) * 60 * 3 else if actual < nPastBlocks * 60 / 3 then (nPastBlocks : Int) * 60 / 3
      else actual) % 2 ^ 32).toNat = (max 3600 (min 32400 actual)).toNat := by
    intro actual
    have hthird : (nPastBlocks : Int) * 60 / 3 = 3600 := by decide
    have htriple : (nPastBlocks : Int) * 60 * 3 = 32400 := by decide
    rw [hthird, htriple, clamped_eq]
    omega
  have hbelow : ∀ x, ¬x % 2 ^ 256 / 10800 > powLimit := by
    intro x
    have hlimit : powLimit = 2 ^ 248 - 1 := rfl
    omega
  have hdivisor : (((nPastBlocks : Int) * 60) % 2 ^ 64).toNat = 10800 := by decide
  have hresult : darkGravityWave (consensusParams network) pindexLast pprev pblock =
      if KawpowTransition network pindexLast pprev pblock then getCompact powLimit else
        getCompact (windowAverage pindexLast pprev * clampedTimespan pindexLast pprev % 2 ^ 256 / 10800) := by
    have htake : (pindexLast :: pprev).take nPastBlocks = window pindexLast pprev := rfl
    rw [darkGravityWave]
    dsimp only
    rw [if_neg (Nat.not_lt.2 hlong), hretarget, Bool.and_false, if_neg Bool.false_ne_true]
    simp only [htake, hpow, hkaw, hspace, hold, hspan, hdivisor, havg]
    rw [if_neg (hbelow _)]
    rfl
  rw [hresult]
  exact ⟨fun h => if_pos h, fun h => if_neg h⟩

theorem getCompact_eq_limit {n} (hn : n ≤ powLimit) : getCompact n = getCompact powLimit ↔ 65535 * 2 ^ 232 ≤ n := by
  have hlimit : powLimit = 2 ^ 248 - 1 := rfl
  constructor
  · intro h
    have hle := setCompact_getCompact_le (show n < 2 ^ 256 by omega)
    have hdecoded : setCompact (getCompact powLimit) = 65535 * 2 ^ 232 := by decide +kernel
    rwa [h, hdecoded] at hle
  · intro h
    have hsize : byteSize n = 31 := by
      have hle : n.size ≤ 248 := Nat.size_le.2 (by omega)
      have hlt : 247 < n.size := Nat.lt_size.2 (by omega)
      rw [byteSize, bits]
      omega
    have hlead : leading n = n / 2 ^ 224 := by rw [leading, hsize, if_neg (by decide)]
    have hlimitCompact : getCompact powLimit = 65535 + 32 * 2 ^ 24 := by decide +kernel
    rw [getCompact_eq, hsize, hlead, if_pos (by omega), hlimitCompact]
    omega

theorem getCompact_ne_of_wrap {x} (hx : 2 ^ 256 ≤ x) : getCompact (x % 2 ^ 256 / 10800) ≠ getCompact (min powLimit (x / 10800)) := by
  have hlimit : powLimit = 2 ^ 248 - 1 := rfl
  have hhalf : 2 * (x % 2 ^ 256 / 10800) ≤ min powLimit (x / 10800) := by omega
  intro h
  have hclose := lt_of_getCompact_eq (show x % 2 ^ 256 / 10800 < 2 ^ 256 by omega) (show min powLimit (x / 10800) < 2 ^ 256 by omega)
    (by omega) h
  omega

/-- The next target is exact: there is no full window, or the product fits, or the first blocks of the new kind are mined and the
exact target has the compact form of the limit. -/
inductive RetargetFits (network : Network) (pindexLast : BlockTarget) (pprev : List BlockTarget) (pblock : BlockTarget) : Prop where
  | short (h : pprev.length < nPastBlocks)
  | fits (h : ¬KawpowTransition network pindexLast pprev pblock)
      (hproduct : windowAverage pindexLast pprev * clampedTimespan pindexLast pprev < 2 ^ 256)
  | atLimit (h : KawpowTransition network pindexLast pprev pblock)
      (hlimit : 65535 * 2 ^ 232 ≤ windowAverage pindexLast pprev * clampedTimespan pindexLast pprev / 10800)

end

/-- With retargeting and targets up to the limit, the next target is the exact one exactly where the product with the timespan fits
into 256 bits, the blocks under the temporary limit apart. -/
theorem dark_gravity_wave_exact_iff {network : Network} (hretarget : (consensusParams network).fPowNoRetargeting = false)
    (pindexLast : BlockTarget) (pprev : List BlockTarget) (pblock : BlockTarget)
    (htargets : ∀ block ∈ pindexLast :: pprev, 0 < block.target ∧ block.target ≤ (consensusParams network).powLimit) :
    darkGravityWave (consensusParams network) pindexLast pprev pblock =
        getCompact (exactTarget pindexLast pprev (consensusParams network).powLimit) ↔
      RetargetFits network pindexLast pprev pblock := by
  obtain ⟨hpow, -, -⟩ := retargeting_params hretarget
  rw [hpow] at htargets ⊢
  rcases Nat.lt_or_ge pprev.length nPastBlocks with hshort | hlong
  · rw [darkGravityWave, exactTarget, if_pos hshort, if_pos hshort, hpow]
    exact ⟨fun _ => .short hshort, fun _ => rfl⟩
  obtain ⟨htransition, hregular⟩ := darkGravityWave_eq hretarget (fun block hblock => (htargets block hblock).2) hlong pblock
  rw [exactTarget, if_neg (Nat.not_lt.2 hlong)]
  generalize hx : windowAverage pindexLast pprev * clampedTimespan pindexLast pprev = x at hregular
  by_cases hkawpow : KawpowTransition network pindexLast pprev pblock
  · rw [htransition hkawpow, eq_comm, getCompact_eq_limit (Nat.min_le_left _ _)]
    have hlimit : powLimit = 2 ^ 248 - 1 := rfl
    constructor
    · intro h
      exact .atLimit hkawpow (by rw [hx]; omega)
    · rintro (hshort | ⟨hno, -⟩ | ⟨-, h⟩)
      · omega
      · exact absurd hkawpow hno
      · rw [hx] at h
        omega
  · rw [hregular hkawpow]
    constructor
    · intro h
      refine .fits hkawpow ?_
      rw [hx]
      by_contra hwrap
      exact getCompact_ne_of_wrap (Nat.not_lt.1 hwrap) h
    · rintro (hshort | ⟨-, hfits⟩ | ⟨hyes, -⟩)
      · omega
      · rw [hx] at hfits
        have hlimit : powLimit = 2 ^ 248 - 1 := rfl
        rw [Nat.mod_eq_of_lt hfits, Nat.min_eq_right (by omega)]
      · exact absurd hyes hkawpow

namespace Regtest

/-- A chain of 181 blocks, a minute apart, that all have the target `nBits`. -/
def minuteChain (nBits : UInt32) : List BlockTarget :=
  (List.range 180).map fun i => ⟨1617140000 - 60 * (i.toUInt32 + 1), nBits⟩

/-- At the easiest target blocks in time ask for one that is hundreds of times harder. -/
theorem easy_target_wraps : darkGravityWave (consensusParams .MAIN) ⟨1617140000, 0x2000ffff⟩ (minuteChain 0x2000ffff)
    ⟨1617140060, 0⟩ ≠ getCompact (exactTarget ⟨1617140000, 0x2000ffff⟩ (minuteChain 0x2000ffff) (consensusParams .MAIN).powLimit) := by
  decide +kernel

theorem dark_gravity_wave_exact_hard : darkGravityWave (consensusParams .MAIN) ⟨1617140000, 0x1b00ffff⟩ (minuteChain 0x1b00ffff)
    ⟨1617140060, 0⟩ = getCompact (exactTarget ⟨1617140000, 0x1b00ffff⟩ (minuteChain 0x1b00ffff) (consensusParams .MAIN).powLimit) := by
  have htargets : ∀ block ∈ (⟨1617140000, 0x1b00ffff⟩ : BlockTarget) :: minuteChain 0x1b00ffff,
      0 < block.target ∧ block.target ≤ (consensusParams .MAIN).powLimit := by decide +kernel
  refine (dark_gravity_wave_exact_iff rfl _ _ _ htargets).2 (.fits ?_ ?_)
  · decide +kernel
  · decide +kernel

end Regtest

end Hivecoin

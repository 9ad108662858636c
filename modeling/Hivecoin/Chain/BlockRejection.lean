import Hivecoin.Chain.CoinbasePayout
import Hivecoin.Chain.ValidationState

/-!
# Rejected blocks

`CheckBlock`, `CheckInputs` and `ConnectBlock` with the validation state, and what `ConnectTip` makes of it.
-/

namespace Hivecoin

open Outcome Returns Returns.Call

variable {state state' : CValidationState}

/-- The checks of a block that are not modelled, and their settings. -/
structure BlockRules where
  checkProofOfWork : CBlock → Bool
  mixHashMatches : CBlock → Bool
  merkleRootMatches : CBlock → Bool
  mutated : CBlock → Bool
  withinMaxWeight : CBlock → Bool
  legacySigOpCount : CTransaction → Nat
  sequenceLocks : CoinsView → CTransaction → Nat → Bool
  transactionSigOpCost : CoinsView → CTransaction → Nat
  scriptExecutionCached : CTransaction → Bool
  /-- The error of a script check, and whether the mandatory flags let it pass. -/
  scriptCheck : CoinsView → CTransaction → Nat → Option (String × Bool)
  fScriptChecks : Bool
  nScriptCheckThreads : Nat
  flagsNotMandatory : Bool

/-- What is written to disk for a block, and which writes fail. -/
structure BlockWrites where
  undoPosIsNull : Bool
  validScripts : Bool
  fTxIndex : Bool
  fAddressIndex : Bool
  fSpentIndex : Bool
  fTimestampIndex : Bool
  ignoreAddressIndex : Bool
  succeeds : String → Bool

def MAX_BLOCK_SIGOPS_COST : Nat := 80000
def WITNESS_SCALE_FACTOR : Nat := 4

/-- The writes at the end of `ConnectBlock`, each with its error. -/
def BlockWrites.messages (W : BlockWrites) (undo : CBlockUndo) : List String :=
  (if W.undoPosIsNull || !W.validScripts then
    (if W.undoPosIsNull then ["out of disk space", "Failed to write undo data"] else []) ++
      (if undo.vUndoAssetData.length ≠ 0 then ["Failed to write asset undo data"] else [])
  else []) ++
  (if W.fTxIndex then ["Failed to write transaction index"] else []) ++
  (if !W.ignoreAddressIndex && W.fAddressIndex then ["Failed to write address index", "Failed to write address unspent index"] else []) ++
  (if !W.ignoreAddressIndex && W.fSpentIndex then ["Failed to write transaction index"] else []) ++
  (if !W.ignoreAddressIndex && W.fTimestampIndex then ["Failed to write timestamp index", "Failed to write blockhash index"] else [])

namespace WithState

open CValidationState

section

variable (E : Env) (S : Store) (P : ChainParams) (B : BlockRules)

/-- `CheckTransaction` as `CheckBlock` calls it: its failure is noted again. -/
def checkBlockTransaction (tx : CTransaction) : Validation Unit :=
  (pass (E.checkTransaction { fCheckDuplicateInputs := true, fMempoolCheck := false, fBlockCheck := true } tx)
      fun r => doS r.dos REJECT_INVALID r.reason false).onReturn
    fun state => invalid state.chRejectCode state.strRejectReason state

def checkBlock (fChecked fCheckPOW fCheckMerkleRoot : Bool) (block : CBlock) : Validation Unit :=
  if fChecked then pure ()
  else do
    ensure (!fCheckPOW || B.checkProofOfWork block) (doS 50 REJECT_INVALID "high-hash" false)
    ensure (!fCheckPOW || B.mixHashMatches block) (doS 50 REJECT_INVALID "invalid-mix-hash" false)
    ensure (!fCheckMerkleRoot || B.merkleRootMatches block) (doS 100 REJECT_INVALID "bad-txnmrklroot" true)
    ensure (!fCheckMerkleRoot || !B.mutated block) (doS 100 REJECT_INVALID "bad-txns-duplicate" true)
    ensure (block.vtx.length != 0 && B.withinMaxWeight block) (reject "bad-blk-length")
    ensure (match block.vtx with | tx :: _ => tx.isCoinBase | [] => false) (reject "bad-cb-missing")
    ensure (block.vtx.tail.all fun tx => !tx.isCoinBase) (reject "bad-cb-multiple")
    block.vtx.forM (checkBlockTransaction E)
    ensure ((block.vtx.map B.legacySigOpCount).sum * WITNESS_SCALE_FACTOR ≤ MAX_BLOCK_SIGOPS_COST) (reject "bad-blk-sigops")

def checkInput (view : CoinsView) (tx : CTransaction) (i : Nat) : Validation Unit :=
  match B.scriptCheck view tx i with
  | none => pure ()
  | some (scriptError, passesMandatory) =>
    if B.flagsNotMandatory && passesMandatory then
      leave (invalid REJECT_NONSTANDARD ("non-mandatory-script-verify-flag (" ++ scriptError ++ ")"))
    else leave (reject ("mandatory-script-verify-flag-failed (" ++ scriptError ++ ")"))

/-- `CheckInputs`; with threads the result is whether the checks will pass. -/
def checkInputs (view : CoinsView) (tx : CTransaction) : Validation Bool :=
  if tx.isCoinBase || !B.fScriptChecks || B.scriptExecutionCached tx then pure true
  else if B.nScriptCheckThreads ≠ 0 then pure ((List.range tx.vin.length).all fun i => (B.scriptCheck view tx i).isNone)
  else do
    (List.range tx.vin.length).forM (checkInput B view tx)
    return true

structure BlockLoop where
  st : ConnectState
  nSigOpsCost : Nat
  /-- All queued script checks pass. -/
  control : Bool

def checkNoAssets (out : CTxOut) : Validation Unit := do
  ensure (Script.isAssetScript out.scriptPubKey).isNone (reject "bad-txns-assets-not-active")
  ensure (!Script.isNullAsset out.scriptPubKey) (reject "bad-txns-null-data-assets-not-active")

/-- The checks of a transaction that is not a coinbase, with the fees so far. -/
def connectChecks (mempool : MempoolMaps) (nHeight : Nat) (st : ConnectState) (tx : CTransaction) : Validation CAmount := do
  let txfee ← checkTxInputs E st.view nHeight tx
  ensure (moneyRange (st.nFees + txfee)) (reject "bad-txns-accumulated-fee-outofrange")
  if E.areAssetsDeployed then
    let _ ← checkTxAssets E S st.assets st.view mempool false false tx
  else tx.vout.forM checkNoAssets
  ensure (B.sequenceLocks st.view tx nHeight) (reject "bad-txns-nonfinal")
  return st.nFees + txfee

def collectFees (mempool : MempoolMaps) (nHeight : Nat) (st : ConnectState) (tx : CTransaction) : Validation CAmount :=
  if tx.isCoinBase then pure st.nFees else connectChecks E S B mempool nHeight st tx

def connectTx (mempool : MempoolMaps) (block : CBlock) (loop : BlockLoop) (tx : CTransaction) : Validation BlockLoop := do
  let st := loop.st
  let nFees ← collectFees E S B mempool block.nHeight st tx
  let nSigOpsCost := loop.nSigOpsCost + B.transactionSigOpCost st.view tx
  ensure (nSigOpsCost ≤ MAX_BLOCK_SIGOPS_COST) (reject "bad-blk-sigops")
  let queued ← checkInputs B st.view tx
  match updateCoins E S st.view st.assets tx block.nHeight block.hash with
  | none => abort
  | some r => return {
      st := {
        view := r.view
        assets := r.assets
        nFees
        undo := ⟨if tx.isCoinBase then st.undo.vtxundo else st.undo.vtxundo ++ [r.vprevout],
          st.undo.vUndoAssetData ++ r.undoAssetData.toList⟩ }
      nSigOpsCost
      control := loop.control && queued }

/-- The section for the reward; an exception or a bad read stops the program. -/
def checkPayout (block : CBlock) (nFees : CAmount) : Validation Unit :=
  match rewardSection E P block nFees with
  | .ok _ => pure ()
  | .error (.rejected r) => leave (doS r.dos REJECT_INVALID r.reason false)
  | .error _ => abort

def connectBlock (W : BlockWrites) (hashGenesisBlock : Uint256) (fChecked fJustCheck : Bool) (mempool : MempoolMaps)
    (view : CoinsView) (assets : CAssetsCache) (block : CBlock) : Validation ConnectState := do
  checkBlock E B fChecked (!fJustCheck) (!fJustCheck) block
  if block.hash = hashGenesisBlock then return ⟨view, assets, 0, ⟨[], []⟩⟩
  let loop ← block.vtx.foldlM (connectTx E S B mempool block) ⟨⟨view, assets, 0, ⟨[], []⟩⟩, 0, true⟩
  checkPayout E P block loop.st.nFees
  ensure loop.control (reject "block-validation-failed")
  if fJustCheck then return loop.st
  (W.messages loop.st.undo).forM fun message => ensure (W.succeeds message) (error message)
  return loop.st

end

/-- `BLOCK_FAILED_VALID` set on the block, and how `ActivateBestChainStep` goes on. -/
structure StepResult where
  failedValid : Bool
  fInvalidFound : Bool
  ret : Bool
deriving DecidableEq

/-- `ConnectTip` and `ActivateBestChainStep` after `ConnectBlock`; `none`: stopped. -/
def afterConnectBlock : Except Stop ConnectState × CValidationState → Option StepResult
  | (.ok _, _) => some ⟨false, false, true⟩
  | (.error .returned, state) =>
    if state.isInvalid then some ⟨!state.corruptionPossible, true, true⟩ else some ⟨false, false, false⟩
  | (.error .aborted, _) => none

variable {E : Env} {S : Store} {P : ChainParams} {B : BlockRules} {W : BlockWrites} {mempool : MempoolMaps} {block : CBlock}

/-- The transactions are not the ones that the header commits to. -/
def SuspectData (B : BlockRules) (block : CBlock) : Prop := B.merkleRootMatches block = false ∨ B.mutated block = true

theorem checkBlockTransaction_reports {corrupt : Prop} (tx : CTransaction) :
    Reports NoError (Rejected corrupt) (checkBlockTransaction E tx) := by
  refine .onReturn (.pass fun r => doS_rejected _ _ _ nofun) fun state h => ?_
  exact invalid_rejected _ _ state (by rw [NoError, h.1]; nofun)

theorem checkBlock_reports (fChecked fCheckPOW fCheckMerkleRoot : Bool) :
    Reports NoError (Rejected (SuspectData B block)) (checkBlock E B fChecked fCheckPOW fCheckMerkleRoot block) := by
  unfold checkBlock
  split
  · exact .pure ()
  have hmerkle : Reports NoError (Rejected (SuspectData B block)) (ensure (!fCheckMerkleRoot || B.merkleRootMatches block)
      (doS 100 REJECT_INVALID "bad-txnmrklroot" true)) := by
    cases hmatches : B.merkleRootMatches block with
    | true =>
      rw [Bool.or_true]
      exact .pure ()
    | false => exact .ensure (doS_rejected _ _ _ fun _ => Or.inl hmatches)
  have hmutated : Reports NoError (Rejected (SuspectData B block)) (ensure (!fCheckMerkleRoot || !B.mutated block)
      (doS 100 REJECT_INVALID "bad-txns-duplicate" true)) := by
    cases hmut : B.mutated block with
    | true => exact .ensure (doS_rejected _ _ _ fun _ => Or.inr hmut)
    | false =>
      rw [Bool.not_false, Bool.or_true]
      exact .pure ()
  exact .bind (.ensure (doS_rejected _ _ _ nofun)) fun _ => .bind (.ensure (doS_rejected _ _ _ nofun)) fun _ => .bind hmerkle fun _ => .bind hmutated fun _ =>
    .bind (.ensure (reject_rejected _)) fun _ => .bind (.ensure (reject_rejected _)) fun _ =>
    .bind (.ensure (reject_rejected _)) fun _ => .bind (.forM fun tx _ => checkBlockTransaction_reports tx) fun _ =>
    .ensure (reject_rejected _)

theorem checkInputs_reports {corrupt : Prop} (view : CoinsView) (tx : CTransaction) :
    Reports NoError (Rejected corrupt) (checkInputs B view tx) := by
  have hinput : ∀ i, Reports NoError (Rejected corrupt) (checkInput B view tx i) := by
    intro i
    unfold checkInput
    split
    · exact .pure ()
    split
    · exact .leave (invalid_rejected _ _)
    · exact .leave (reject_rejected _)
  unfold checkInputs
  split
  · exact .pure _
  split
  · exact .pure _
  · exact .bind (.forM fun i _ => hinput i) fun _ => .pure _

theorem connectChecks_reports {corrupt : Prop} (nHeight : Nat) (st : ConnectState) (tx : CTransaction) :
    Reports NoError (Rejected corrupt) (connectChecks E S B mempool nHeight st tx) := by
  have hnone : ∀ out, Reports NoError (Rejected corrupt) (checkNoAssets out) :=
    fun _ => .bind (.ensure (reject_rejected _)) fun _ => .ensure (reject_rejected _)
  have hlast : ∀ txfee : CAmount, Reports NoError (Rejected corrupt) (do
      ensure (B.sequenceLocks st.view tx nHeight) (reject "bad-txns-nonfinal")
      return st.nFees + txfee) := fun _ => .bind (.ensure (reject_rejected _)) fun _ => .pure _
  refine .bind (checkTxInputs_follows _ _ _).reports fun txfee => .bind (.ensure (reject_rejected _)) fun _ => ?_
  split
  · exact .bind (checkTxAssets_follows _ _ _ _ _).reports fun _ => hlast txfee
  · exact .bind (.forM fun out _ => hnone out) fun _ => hlast txfee

theorem connectTx_reports {corrupt : Prop} (loop : BlockLoop) (tx : CTransaction) :
    Reports NoError (Rejected corrupt) (connectTx E S B mempool block loop tx) := by
  have hfees : Reports NoError (Rejected corrupt) (collectFees E S B mempool block.nHeight loop.st tx) := by
    unfold collectFees
    split
    · exact .pure _
    · exact connectChecks_reports _ _ _
  refine .bind hfees fun nFees => .bind (.ensure (reject_rejected _)) fun _ => .bind (checkInputs_reports _ _) fun queued => ?_
  split
  · exact .abort
  · exact .pure _

theorem checkPayout_reports {corrupt : Prop} (nFees : CAmount) :
    Reports NoError (Rejected corrupt) (checkPayout E P block nFees) := by
  unfold checkPayout
  split
  · exact .pure ()
  · exact .leave (doS_rejected _ _ _ nofun)
  · exact .abort

/-- Where no write fails, every `return false` is noted as a rule violation. -/
theorem connectBlock_reports (hdisk : ∀ message, W.succeeds message = true) (hashGenesisBlock : Uint256) (fChecked fJustCheck : Bool)
    (view : CoinsView) (assets : CAssetsCache) : Reports NoError (Rejected (SuspectData B block))
      (connectBlock E S P B W hashGenesisBlock fChecked fJustCheck mempool view assets block) := by
  have hwrites : ∀ message, Reports NoError (Rejected (SuspectData B block)) (ensure (W.succeeds message) (error message)) := by
    intro message
    rw [hdisk message]
    exact .pure ()
  refine .bind (checkBlock_reports fChecked _ _) fun _ => ?_
  split
  · exact .pure _
  refine .bind (.foldlM (fun loop tx _ => connectTx_reports loop tx) _) fun loop => .bind (checkPayout_reports _) fun _ =>
    .bind (.ensure (reject_rejected _)) fun _ => ?_
  split
  · exact .pure _
  · exact .bind (.forM fun message _ => hwrites message) fun _ => .pure _

end WithState

namespace Regtest

def blockRules : BlockRules :=
  ⟨fun _ => true, fun _ => true, fun _ => true, fun _ => false, fun _ => true, fun _ => 0, fun _ _ _ => true, fun _ _ => 0, fun _ => false,
    fun _ _ _ => none, true, 0, false⟩

def blockWrites : BlockWrites := ⟨true, false, true, true, true, true, false, fun _ => true⟩

/-- `ConnectBlock` on a coinbase that pays the community's share to another key. -/
def connectMispaid : Validation ConnectState :=
  WithState.connectBlock env ∅ params blockRules blockWrites 0 false false ⟨∅, ∅⟩ (fun _ => none) ∅
    (payoutBlock [⟨400000000000, scriptForKeyID alice⟩, ⟨50000000000, scriptForKeyID bob⟩])

end Regtest

end Hivecoin

import Hivecoin.Cache.NameView
import Hivecoin.Chain.Block

/-!
# Issuances and reissues of a block

What connecting and disconnecting the asset events of a transaction does to the view of one name.
-/

namespace Hivecoin

open CAssetsCache

/-- An issuance or a reissue with its verifier. An issuance is undone with the last verifier output. -/
inductive AssetEvent where
  | issue (asset : CNewAsset) (verifier undoVerifier : Option Bytes)
  | reissue (reissue : CReissueAsset) (verifier : Option Bytes)

namespace AssetEvent

def name : AssetEvent → Bytes
  | issue asset _ _ => asset.strName
  | reissue r _ => r.strName

def isIssue : AssetEvent → Bool
  | issue .. => true
  | reissue .. => false

def reissue? : AssetEvent → Option CReissueAsset
  | issue .. => none
  | reissue r _ => some r

def verifier? : AssetEvent → Option Bytes
  | issue _ verifier _ => verifier
  | reissue _ verifier => verifier

/-- The verifier text with which the event is undone where it is an issuance. -/
def undoVerifier? : AssetEvent → Option Bytes
  | issue _ _ undoVerifier => undoVerifier
  | reissue .. => none

/-- A reissue of a name that is not known sets no verifier. -/
def whereKnown (known : Bytes → Bool) : AssetEvent → AssetEvent
  | issue asset verifier undoVerifier => issue asset verifier undoVerifier
  | reissue r verifier => reissue r (if known r.strName then verifier else none)

theorem cases_of_length {l : List AssetEvent} (h : l.length ≤ 1) :
    l = [] ∨ (∃ a v u, l = [.issue a v u]) ∨ ∃ r v, l = [.reissue r v] := by
  rcases l with _ | ⟨a | r, _ | ⟨_, _⟩⟩ <;> simp at h ⊢

end AssetEvent

section

variable (E : Env) (tx : CTransaction)

def newVerifier (name : Bytes) : Option Bytes :=
  if assetTypeOf name = .RESTRICTED then (firstVerifier tx).join else none

/-- The verifier text with which the issuance of a restricted asset is undone. -/
def undoneVerifier : Option Bytes :=
  (lastVerifierOut E tx).bind fun out => assetNullVerifierDataFromScript out.scriptPubKey

def issueEvents (issues : List (CNewAsset × Bytes)) : List AssetEvent :=
  issues.map fun issue => .issue issue.1 none none

def uniqueIssues : List (CNewAsset × Bytes) :=
  (tx.vout.filter fun out => E.isScriptNewUniqueAsset out.scriptPubKey).filterMap fun out =>
    E.assetFromScript out.scriptPubKey

/-- The issuances and reissues in the order of the classifiers. -/
def kindEvents : List AssetEvent :=
  if E.isNewAsset tx then issueEvents (E.assetFromTransaction tx).toList
  else if Env.isReissueAsset tx then
    (E.reissueAssetFromTransaction tx).toList.map fun r => .reissue r.1 (newVerifier tx r.1.strName)
  else if E.isNewUniqueAsset tx then issueEvents (uniqueIssues E tx)
  else if E.isNewMsgChannelAsset tx then issueEvents (E.msgChannelAssetFromTransaction tx).toList
  else if E.isNewQualifierAsset tx then issueEvents (E.qualifierAssetFromTransaction tx).toList
  else if E.isNewRestrictedAsset tx then
    (E.restrictedAssetFromTransaction tx).toList.map fun issue =>
      .issue issue.1 ((firstVerifier tx).map fun v => v.getD []) (undoneVerifier E tx)
  else []

end

/-- The events on `S`. A coinbase comes unchecked: it can reissue names without data. -/
def assetEvents (E : Env) (S : Store) (tx : CTransaction) : List AssetEvent :=
  if E.areAssetsDeployed then (kindEvents E tx).map (AssetEvent.whereKnown fun name =>
    !tx.isCoinBase || (getAssetMetaDataIfExists E S ∅ name).isSome)
  else []

def eventsOf (E : Env) (S : Store) (vtx : List CTransaction) (name : Bytes) : List AssetEvent :=
  (vtx.flatMap (assetEvents E S)).filter fun e => e.name == name

/-- The events of the coinbase and those of the other transactions. -/
def coinbaseEvents (E : Env) (S : Store) (block : CBlock) (name : Bytes) : List AssetEvent :=
  eventsOf E S (block.vtx.take 1) name

def checkedEvents (E : Env) (S : Store) (block : CBlock) (name : Bytes) : List AssetEvent :=
  eventsOf E S block.vtx.tail name

/-! ## One name -/

/-- The pending verifier with a new one added. -/
def Slot.addVerifier (s : Slot CAssetCacheRestrictedVerifiers) :
    Option Bytes → Slot CAssetCacheRestrictedVerifiers
  | some v => s.addKeep ⟨v, false⟩
  | none => s

/-- The reissue changes something that its undo item restores. -/
def CReissueAsset.changes (r : CReissueAsset) (verifier : Option Bytes) : Bool :=
  r.strIPFSHash != [] || r.nUnits != -1 || verifier.isSome

namespace AssetEvent

def changes : AssetEvent → Bool
  | issue .. => false
  | reissue r verifier => r.changes verifier

end AssetEvent

def reissuesOf (es : List AssetEvent) : List CReissueAsset := es.filterMap AssetEvent.reissue?

/-- The reissues that are undone: those with no issuance after them, whose undoing hides the name. -/
def revertedReissues (known : Bool) : List AssetEvent → List CReissueAsset
  | [] => []
  | .issue .. :: es => revertedReissues known es
  | .reissue r _ :: es =>
    if known && !es.any AssetEvent.isIssue then r :: revertedReissues known es else revertedReissues known es

def revertedVerifier (undo : Option CBlockAssetUndo) : Option Bytes :=
  undo.bind fun u => if u.fChangedVerifierString then some u.verifierString else none

namespace StoreView

variable (g : StoreView)

def undoItem (s : NameView) (asset : CNewAsset) (r : CReissueAsset) (verifier : Option Bytes) :
    Option CBlockAssetUndo :=
  if r.changes verifier then
    some ⟨r.strIPFSHash != [], r.nUnits != -1, asset.strIPFSHash, asset.units, verifier.isSome,
      if verifier.isSome then (g.verifierText s).getD [] else []⟩
  else none

/-- The view after an event, with the first undo item. An issuance of a name that is there and a reissue without data leave the
asset alone. -/
def connect (st : NameView × Option CBlockAssetUndo) : AssetEvent → NameView × Option CBlockAssetUndo
  | .issue asset verifier _ => ({ st.1 with
      issued := if g.has st.1 then st.1.issued else st.1.issued.addKeep asset
      verifier := Slot.addVerifier st.1.verifier verifier }, st.2)
  | .reissue r verifier => ({ st.1 with
      reissued := ((g.metaData st.1).map fun asset => applyReissue asset r).or st.1.reissued
      verifier := Slot.addVerifier st.1.verifier verifier },
      st.2.or (g.undoItem st.1 ((g.metaData st.1).getD .null) r verifier))

def passes (s : NameView) : AssetEvent → Bool
  | .issue .. => !g.has s
  | .reissue .. => (g.metaData s).isSome

def connectChecked (st : NameView × Option CBlockAssetUndo) (e : AssetEvent) :
    Option (NameView × Option CBlockAssetUndo) :=
  if g.passes st.1 e then some (g.connect st e) else none

def disconnect (undo : Option CBlockAssetUndo) (s : NameView) : AssetEvent → Option NameView
  | .issue asset _ undoVerifier => some { s with
      issued := if g.has s then s.issued.removeKeep asset else s.issued
      verifier := undoVerifier.elim s.verifier fun v => s.verifier.removeKeep ⟨v, false⟩ }
  | .reissue r _ =>
    if g.has s then (g.metaData s).map fun asset => { s with
      reissued := some (unapplyReissue asset r undo)
      verifier := Slot.undoVerifier s.verifier undo }
    else some s

end StoreView

end Hivecoin

import Hivecoin.Script.Basic

/-!
# Configuration

Burn addresses and amounts, switches, and the text form of destinations.
-/

namespace Hivecoin

/-- `EncodeDestination` and `DecodeDestination`: base58check, its hash left open. -/
structure AddressCodec where
  encode : CTxDestination → Bytes
  decode : Bytes → CTxDestination
  encode_none : encode .none = []
  decode_encode : ∀ h : Bytes, h.length = 20 → decode (encode (.keyID h)) = .keyID h
  encode_ne_nil : ∀ h : Bytes, h.length = 20 → encode (.keyID h) ≠ []

inductive Network where
  | MAIN | TESTNET | REGTEST
deriving DecidableEq, Repr

/-- `GetBurnAmount`, the same on all three networks. -/
def getBurnAmount : AssetType → CAmount
  | .ROOT => 500 * COIN
  | .SUB => 100 * COIN
  | .MSGCHANNEL => 100 * COIN
  | .UNIQUE => 5 * COIN
  | .REISSUE => 100 * COIN
  | .QUALIFIER => 1000 * COIN
  | .SUB_QUALIFIER => 100 * COIN
  | .RESTRICTED => 1500 * COIN
  | .NULL_ADD_QUALIFIER => 10000000
  | .OWNER | .VOTE | .INVALID => 0

def getBurnAddress : Network → AssetType → Bytes
  | .MAIN, .ROOT => ascii "HABmUwjKZURs2ip6ygxSKUoUaDZUws4d9F"
  | .MAIN, .REISSUE => ascii "HRABYiKTBqTsb3q1EogedBcr4TfwSknbkt"
  | .MAIN, .SUB => ascii "HSA5hDMFF3GVTQTspBG4V26X1q7GxKANFP"
  | .MAIN, .UNIQUE => ascii "HUA1Gcw7JGhDPUUp9SBdQ6KVivRbRxFt1X"
  | .MAIN, .MSGCHANNEL => ascii "HMAczU4WrXadbEwvQMfWU7X69YH2bY7RTT"
  | .MAIN, .QUALIFIER => ascii "HQA5wW7okLw5rbJqcjF2m1fXcurxKr8BfY"
  | .MAIN, .SUB_QUALIFIER => ascii "HSQ9WKiuUzo7VCLufAUNQ8cWtDt2FkfAMR"
  | .MAIN, .RESTRICTED => ascii "HRA9BvF2PhjYJoTb2QWNs5PCHPEytQgV48"
  | .MAIN, .NULL_ADD_QUALIFIER => ascii "HAQm4icqt9vBi3LG6mgQAJfxQczW7tAfCs"
  | _, .ROOT => ascii "J1VQJKLSLVZ4syiCAx5hEPq8BrkFaxAXAi"
  | _, .REISSUE => ascii "J2yh4DiLETuVVDvpvBNSq3QCmHcdMmNEdp"
  | _, .SUB => ascii "J3PE3FsHqfszvz7nhwK2Gc32wykrc7pNMA"
  | _, .UNIQUE => ascii "J4yKRTYF2nRryYEnupsNnQQmRKsQhdspYB"
  | _, .MSGCHANNEL => ascii "J58ndjHjLYKHMszr4ehUg9YMWPAiXNEepa"
  | _, .QUALIFIER => ascii "J68wpmVvdE6bMSkiCEDQWCHCKZs4VVdE2G"
  | _, .SUB_QUALIFIER => ascii "J7MSidYgNJrPE15ouEsXPYXFYH2AAPXmhr"
  | _, .RESTRICTED => ascii "J8uX8jfZn14P1VNzh6YjSzLaRTQAdoFSHn"
  | _, .NULL_ADD_QUALIFIER => ascii "J9CrKy8m548AvSbcv1mcn7tyJQkgcwVfj6"
  | _, .OWNER | _, .VOTE | _, .INVALID => []

structure Env where
  network : Network
  codec : AddressCodec
  /-- the hash that turns a public key into a key id -/
  hash160 : Bytes → Bytes
  fAssetIndex : Bool
  fReindex : Bool
  fUnitTest : Bool
  areAssetsDeployed : Bool
  isRip5Active : Bool
  areTransferScriptsSizeDeployed : Bool
  areCoinbaseCheckAssetsDeployed : Bool
  areEnforcedValuesDeployed : Bool
  /-- what an `int` holds that the program declares and does not set -/
  uninitialised : Int

namespace Env

variable (E : Env)

def areMessagesDeployed : Bool := E.isRip5Active

def areRestrictedAssetsDeployed : Bool := E.isRip5Active

def encodeDestination (dest : CTxDestination) : Bytes := E.codec.encode dest

def decodeDestination (address : Bytes) : CTxDestination := E.codec.decode address

/-- `ExtractDestination`, with `none` where the source returns false. -/
def extractDestination (script : Bytes) : Option CTxDestination :=
  match Script.solver script with
  | some (.TX_PUBKEY, [key]) => if Script.isValidPubKey key then some (.keyID (E.hash160 key)) else none
  | some (.TX_PUBKEYHASH, [hash]) => some (.keyID hash)
  | some (.TX_SCRIPTHASH, [hash]) => some (.scriptID hash)
  | some (.TX_NEW_ASSET, [hash]) | some (.TX_REISSUE_ASSET, [hash]) | some (.TX_TRANSFER_ASSET, [hash])
  | some (.TX_RESTRICTED_ASSET_DATA, [hash]) => some (.keyID hash)
  | _ => none

/-- The address text of the decoders; the destination stays unset where none is found. -/
def scriptAddress (script : Bytes) : Bytes :=
  E.encodeDestination ((E.extractDestination script).getD .none)

end Env

end Hivecoin

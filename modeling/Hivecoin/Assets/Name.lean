import Hivecoin.Assets.Types

/-!
# Asset names

The names of `assets/assets.cpp`. The pattern of a `std::regex` stands in the docstring of its function on bytes.
-/

namespace Hivecoin

variable (c : UInt8) (s name : Bytes)

def isUpperOrDigit : Bool := (65 ≤ c && c ≤ 90) || (48 ≤ c && c ≤ 57)

def isLower : Bool := 97 ≤ c && c ≤ 122

/-- `[._]` -/
def isPunctuation : Bool := c == 46 || c == 95

/-- `[A-Z0-9._]` -/
def isNameChar : Bool := isUpperOrDigit c || isPunctuation c

/-- `.` matches everything but a line terminator. -/
def isAnyChar : Bool := c != 10 && c != 13

/-- `[-A-Za-z0-9@$%&*()[\]{}_.?:]` -/
def isUniqueTagChar : Bool :=
  isUpperOrDigit c || isLower c || (ascii "-@$%&*()[]\x7b\x7d_.?:").contains c

/-- `[A-Za-z0-9_]` -/
def isChannelTagChar : Bool := isUpperOrDigit c || isLower c || c == 95

/-! ## Patterns -/

/-- `^[A-Z0-9._]{3,}$` -/
def ROOT_NAME_CHARACTERS : Bool := 3 ≤ s.length && s.all isNameChar

/-- `^[A-Z0-9._]+$` -/
def SUB_NAME_CHARACTERS : Bool := 1 ≤ s.length && s.all isNameChar

def UNIQUE_TAG_CHARACTERS : Bool := 1 ≤ s.length && s.all isUniqueTagChar

def MSGCHANNEL_TAG_CHARACTERS : Bool := 1 ≤ s.length && s.all isChannelTagChar

/-- `^[A-Z0-9._]+$` -/
def VOTE_TAG_CHARACTERS : Bool := 1 ≤ s.length && s.all isNameChar

/-- A first character `c` followed by at least `n` of `[A-Z0-9._]`. -/
def markedName (n : Nat) (s : Bytes) : Bool :=
  match s with
  | d :: rest => d == c && n ≤ rest.length && rest.all isNameChar
  | [] => false

/-- `#[A-Z0-9._]{3,}$` -/
def QUALIFIER_NAME_CHARACTERS : Bool := markedName QUALIFIER_CHAR 3 s

/-- `#[A-Z0-9._]+$` -/
def SUB_QUALIFIER_NAME_CHARACTERS : Bool := markedName QUALIFIER_CHAR 1 s

/-- `\$[A-Z0-9._]{3,}$` -/
def RESTRICTED_NAME_CHARACTERS : Bool := markedName RESTRICTED_CHAR 3 s

def adjacentPunctuation : Bytes → Bool
  | a :: b :: rest => (isPunctuation a && isPunctuation b) || adjacentPunctuation (b :: rest)
  | _ => false

/-- `^.*[._]{2,}.*$` -/
def DOUBLE_PUNCTUATION : Bool := s.all isAnyChar && adjacentPunctuation s

/-- `^[._].*$` -/
def LEADING_PUNCTUATION : Bool :=
  match s with
  | c :: rest => isPunctuation c && rest.all isAnyChar
  | [] => false

/-- `^.*[._]$` -/
def TRAILING_PUNCTUATION : Bool := LEADING_PUNCTUATION s.reverse

/-- `^[#\$][._].*$` -/
def QUALIFIER_LEADING_PUNCTUATION : Bool :=
  match s with
  | c :: rest => (c == QUALIFIER_CHAR || c == RESTRICTED_CHAR) && LEADING_PUNCTUATION rest
  | [] => false

def HIVE_NAMES : Bool :=
  ["RVN", "RAVEN", "RAVENCOIN", "#RVN", "#RAVEN", "#RAVENCOIN", "HVQ", "HVN", "HIVE", "HIVECOIN",
    "#HVN", "#HIVE", "#HIVECOIN"].any fun t => ascii t == s

/-- `[^^~#!]` -/
def isBeforeTagChar : Bool := c != 94 && c != 126 && c != 35 && c != 33

/-- `[^~#!\/]` -/
def isAfterTagChar : Bool := c != 126 && c != 35 && c != 33 && c != 47

/-- `^[^^~#!]+d[^~#!\/]+$`: the tag starts at the first reserved character. -/
def tagIndicator (d : UInt8) (s : Bytes) : Bool :=
  match s.takeWhile isBeforeTagChar, s.dropWhile isBeforeTagChar with
  | _ :: _, c :: tag => c == d && 1 ≤ tag.length && tag.all isAfterTagChar
  | _, _ => false

def UNIQUE_TAG_DELIMITER : UInt8 := 35
def MSGCHANNEL_TAG_DELIMITER : UInt8 := 126
def VOTE_TAG_DELIMITER : UInt8 := 94
def SUB_NAME_DELIMITER : UInt8 := 47

def UNIQUE_INDICATOR : Bool := tagIndicator UNIQUE_TAG_DELIMITER s
def MSGCHANNEL_INDICATOR : Bool := tagIndicator MSGCHANNEL_TAG_DELIMITER s
def VOTE_INDICATOR : Bool := tagIndicator VOTE_TAG_DELIMITER s

/-- `^[^^~#!]+!$` -/
def OWNER_INDICATOR : Bool :=
  1 ≤ (s.takeWhile isBeforeTagChar).length && s.dropWhile isBeforeTagChar == OWNER_TAG

/-- `^[#][A-Z0-9._]{3,}$` -/
def QUALIFIER_INDICATOR : Bool := markedName QUALIFIER_CHAR 3 s

/-- `^#[A-Z0-9._]+\/#[A-Z0-9._]+$` -/
def SUB_QUALIFIER_INDICATOR : Bool :=
  match s with
  | c :: rest => c == QUALIFIER_CHAR && 1 ≤ (rest.takeWhile isNameChar).length &&
      match rest.dropWhile isNameChar with
      | d :: sub => d == SUB_NAME_DELIMITER && markedName QUALIFIER_CHAR 1 sub
      | [] => false
  | [] => false

/-- `^[\$][A-Z0-9._]{3,}$` -/
def RESTRICTED_INDICATOR : Bool := markedName RESTRICTED_CHAR 3 s

/-! ## Parts of names -/

def isRootNameValid : Bool :=
  ROOT_NAME_CHARACTERS name && !DOUBLE_PUNCTUATION name && !LEADING_PUNCTUATION name &&
    !TRAILING_PUNCTUATION name && !HIVE_NAMES name

def isQualifierNameValid : Bool :=
  QUALIFIER_NAME_CHARACTERS name && !DOUBLE_PUNCTUATION name && !QUALIFIER_LEADING_PUNCTUATION name &&
    !TRAILING_PUNCTUATION name && !HIVE_NAMES name

def isRestrictedNameValid : Bool :=
  RESTRICTED_NAME_CHARACTERS name && !DOUBLE_PUNCTUATION name && !LEADING_PUNCTUATION name &&
    !TRAILING_PUNCTUATION name && !HIVE_NAMES name

def isSubQualifierNameValid : Bool :=
  SUB_QUALIFIER_NAME_CHARACTERS name && !DOUBLE_PUNCTUATION name && !LEADING_PUNCTUATION name &&
    !TRAILING_PUNCTUATION name

def isSubNameValid : Bool :=
  SUB_NAME_CHARACTERS name && !DOUBLE_PUNCTUATION name && !LEADING_PUNCTUATION name &&
    !TRAILING_PUNCTUATION name

def isUniqueTagValid (tag : Bytes) : Bool := UNIQUE_TAG_CHARACTERS tag

def isVoteTagValid (tag : Bytes) : Bool := VOTE_TAG_CHARACTERS tag

def isMsgChannelTagValid (tag : Bytes) : Bool :=
  MSGCHANNEL_TAG_CHARACTERS tag && !DOUBLE_PUNCTUATION tag && !LEADING_PUNCTUATION tag &&
    !TRAILING_PUNCTUATION tag

/-- `boost::split` at one delimiter; there is always at least one part. -/
def splitParts (d : UInt8) (s : Bytes) : List Bytes := s.splitOn d

def isNameValidBeforeTag : Bool :=
  match splitParts SUB_NAME_DELIMITER name with
  | root :: subs => isRootNameValid root && subs.all isSubNameValid
  | [] => false

def isQualifierNameValidBeforeTag : Bool :=
  match splitParts SUB_NAME_DELIMITER name with
  | root :: subs => isQualifierNameValid root && subs.length ≤ 1 && subs.all isSubQualifierNameValid
  | [] => false

def isAssetNameASubasset : Bool :=
  match splitParts SUB_NAME_DELIMITER name with
  | root :: subs => isRootNameValid root && 1 ≤ subs.length
  | [] => false

def isAssetNameASubQualifier : Bool :=
  match splitParts SUB_NAME_DELIMITER name with
  | root :: subs => isQualifierNameValid root && 1 ≤ subs.length
  | [] => false

/-! ## Whole names -/

def MAX_NAME_LENGTH : Nat := 31
def MAX_CHANNEL_NAME_LENGTH : Nat := 12

def lengthError (n : Nat) : String := "Name is greater than max length of " ++ toString n

/-- The two parts around a tag delimiter that the source looks at: the first and the last. -/
def frontBack (d : UInt8) (name : Bytes) : Bytes × Bytes :=
  let parts := splitParts d name
  (parts.headD [], parts.getLastD [])

def isTypeCheckNameValid (type : AssetType) (name : Bytes) : Except String Unit :=
  match type with
  | .UNIQUE => do
      if name.length > MAX_NAME_LENGTH then throw (lengthError MAX_NAME_LENGTH)
      let (front, back) := frontBack UNIQUE_TAG_DELIMITER name
      unless isNameValidBeforeTag front && isUniqueTagValid back do
        throw "Unique name contains invalid characters (Valid characters are: A-Z a-z 0-9 @ $ % & * ( ) [ ] \x7b \x7d _ . ? : -)"
  | .MSGCHANNEL => do
      if name.length > MAX_NAME_LENGTH then throw (lengthError MAX_NAME_LENGTH)
      let (front, back) := frontBack MSGCHANNEL_TAG_DELIMITER name
      if back.length > MAX_CHANNEL_NAME_LENGTH then
        throw ("Channel name is greater than max length of " ++ toString MAX_CHANNEL_NAME_LENGTH)
      unless isNameValidBeforeTag front && isMsgChannelTagValid back do
        throw "Message Channel name contains invalid characters (Valid characters are: A-Z 0-9 _ .) (special characters can't be the first or last characters)"
  | .OWNER => do
      if name.length > MAX_NAME_LENGTH then throw (lengthError MAX_NAME_LENGTH)
      unless isNameValidBeforeTag name.dropLast do
        throw "Owner name contains invalid characters (Valid characters are: A-Z 0-9 _ .) (special characters can't be the first or last characters)"
  | .VOTE => do
      if name.length > MAX_NAME_LENGTH then throw (lengthError MAX_NAME_LENGTH)
      let (front, back) := frontBack VOTE_TAG_DELIMITER name
      unless isNameValidBeforeTag front && isVoteTagValid back do
        throw "Vote name contains invalid characters (Valid characters are: A-Z 0-9 _ .) (special characters can't be the first or last characters)"
  | .QUALIFIER | .SUB_QUALIFIER => do
      if name.length > MAX_NAME_LENGTH then throw (lengthError MAX_NAME_LENGTH)
      unless isQualifierNameValidBeforeTag name do
        throw "Qualifier name contains invalid characters (Valid characters are: A-Z 0-9 _ .) (# must be the first character, _ . special characters can't be the first or last characters)"
  | .RESTRICTED => do
      if name.length > MAX_NAME_LENGTH then throw (lengthError MAX_NAME_LENGTH)
      unless isRestrictedNameValid name do
        throw "Restricted name contains invalid characters (Valid characters are: A-Z 0-9 _ .) ($ must be the first character, _ . special characters can't be the first or last characters)"
  | _ => do
      -- one character is left free for the owner tag
      if name.length > MAX_NAME_LENGTH - 1 then throw (lengthError (MAX_NAME_LENGTH - 1))
      if !isAssetNameASubasset name && name.length < MIN_ASSET_LENGTH then
        throw ("Name must be contain " ++ toString MIN_ASSET_LENGTH ++ " characters")
      let valid := isNameValidBeforeTag name
      if !valid && isAssetNameASubasset name && name.length < 3 then
        throw "Name must have at least 3 characters (Valid characters are: A-Z 0-9 _ .)"
      unless valid do
        throw "Name contains invalid characters (Valid characters are: A-Z 0-9 _ .) (special characters can't be the first or last characters)"

/-- The type of a valid name. More than 40 bytes are refused without an error text. -/
def isAssetNameValid : Except String AssetType :=
  if name.length > 40 then .error ""
  else if UNIQUE_INDICATOR name then do isTypeCheckNameValid .UNIQUE name; return .UNIQUE
  else if MSGCHANNEL_INDICATOR name then do isTypeCheckNameValid .MSGCHANNEL name; return .MSGCHANNEL
  else if OWNER_INDICATOR name then do isTypeCheckNameValid .OWNER name; return .OWNER
  else if VOTE_INDICATOR name then do isTypeCheckNameValid .VOTE name; return .VOTE
  else if QUALIFIER_INDICATOR name then do
    isTypeCheckNameValid .QUALIFIER name
    return if isAssetNameASubQualifier name then .SUB_QUALIFIER else .QUALIFIER
  else if SUB_QUALIFIER_INDICATOR name then do
    isTypeCheckNameValid .SUB_QUALIFIER name
    return if isAssetNameASubQualifier name then .SUB_QUALIFIER else .INVALID
  else if RESTRICTED_INDICATOR name then do isTypeCheckNameValid .RESTRICTED name; return .RESTRICTED
  else do
    let type := if isAssetNameASubasset name then AssetType.SUB else AssetType.ROOT
    isTypeCheckNameValid type name
    return type

def nameValid : Bool := (isAssetNameValid name).toBool

/-- The output parameter of a call; `INVALID` where the call leaves it unset. -/
def assetTypeOf : AssetType :=
  match isAssetNameValid name with
  | .ok type => type
  | .error _ => .INVALID

def isAssetNameAnOwner : Bool := nameValid name && OWNER_INDICATOR name
def isAssetNameAnRestricted : Bool := nameValid name && RESTRICTED_INDICATOR name
def isAssetNameAnMsgChannel : Bool := nameValid name && MSGCHANNEL_INDICATOR name

def isAssetNameAQualifier : Bool :=
  nameValid name && (QUALIFIER_INDICATOR name || SUB_QUALIFIER_INDICATOR name)

/-- The text before the last `d`, if there is one. -/
def beforeLast (d : UInt8) (s : Bytes) : Option Bytes :=
  match s.reverse.dropWhile (· != d) with
  | _ :: rest => some rest.reverse
  | [] => none

def getParentName : Bytes :=
  match isAssetNameValid name with
  | .error _ => []
  | .ok .SUB | .ok .SUB_QUALIFIER => (beforeLast SUB_NAME_DELIMITER name).getD name
  | .ok .UNIQUE => (beforeLast UNIQUE_TAG_DELIMITER name).getD name
  | .ok .MSGCHANNEL => (beforeLast MSGCHANNEL_TAG_DELIMITER name).getD name
  | .ok .VOTE => (beforeLast VOTE_TAG_DELIMITER name).getD name
  | .ok _ => name

end Hivecoin

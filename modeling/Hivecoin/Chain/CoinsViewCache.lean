import Hivecoin.Chain.Coins
import Hivecoin.Base.WriteBack

/-!
# The coins cache

`CCoinsViewCache` of `coins.cpp` as a stack over a base view. Lookups fill the caches they pass through.
-/

namespace Hivecoin

namespace Coin

/-- `IsSpent`: the output is null. -/
def isSpent (coin : Coin) : Bool := coin.out.nValue == -1

/-- What `Clear` and the default constructor leave. -/
def empty : Coin := ⟨⟨-1, []⟩, 0, false⟩

def unspent (coin : Coin) : Option Coin := if coin.isSpent then none else some coin

end Coin

structure CCoinsCacheEntry where
  coin : Coin
  DIRTY : Bool
  FRESH : Bool

abbrev CCoinsMap := Table COutPoint CCoinsCacheEntry

/-- A view under the caches. `GetCoin` may report a spent coin; a batch writes dirty entries. -/
structure BaseView where
  State : Type
  getCoin : State → COutPoint → Option Coin
  batchWrite : State → CCoinsMap → State
  batchWrite_unspent : ∀ (base : State) (mapCoins : CCoinsMap) (outpoint : COutPoint),
    (getCoin (batchWrite base mapCoins) outpoint).bind Coin.unspent =
      match mapCoins.get? outpoint with
      | some entry => if entry.DIRTY then entry.coin.unspent else (getCoin base outpoint).bind Coin.unspent
      | none => (getCoin base outpoint).bind Coin.unspent

def BaseView.known (V : BaseView) (base : V.State) : CoinsView := fun outpoint => (V.getCoin base outpoint).bind Coin.unspent

/-- `CCoinsViewDB::BatchWrite` for one entry. -/
def batchWriteToDB (db : Table COutPoint Coin) (outpoint : COutPoint) (entry : CCoinsCacheEntry) : Table COutPoint Coin :=
  if entry.DIRTY then
    if entry.coin.isSpent then db.erase outpoint else db.insert outpoint entry.coin
  else db

/-- The database of coins as a base view. -/
def coinsViewDB : BaseView where
  State := Table COutPoint Coin
  getCoin db outpoint := db.get? outpoint
  batchWrite db mapCoins := mapCoins.foldl batchWriteToDB db
  batchWrite_unspent db mapCoins outpoint := by
    have hstep : ∀ (db : Table COutPoint Coin) (k : COutPoint) (entry : CCoinsCacheEntry) (a : COutPoint),
        ((batchWriteToDB db k entry).get? a).bind Coin.unspent =
          if a = k then (if entry.DIRTY then entry.coin.unspent else (db.get? a).bind Coin.unspent)
          else (db.get? a).bind Coin.unspent := by
      intro db k entry a
      unfold batchWriteToDB Coin.unspent
      by_cases hk : a = k <;> cases entry.DIRTY <;> cases hs : entry.coin.isSpent <;>
        simp [Table.get?_erase, Table.get?_insert, hk, hs]
    have hloop := Table.foldl_pointwise (fun (db : Table COutPoint Coin) a => (db.get? a).bind Coin.unspent) batchWriteToDB
      (fun _ entry coin => if entry.DIRTY then entry.coin.unspent else coin) hstep mapCoins db outpoint
    rw [hloop]
    cases mapCoins.get? outpoint <;> rfl

structure CCoinsViewCache where
  cacheCoins : CCoinsMap

namespace CCoinsViewCache

variable (cache : CCoinsViewCache)

/-- `FetchCoin`: the entry of the cache, or one made from the parent's answer. -/
def fetchCoin (below : List CCoinsViewCache) (parent : Option Coin × List CCoinsViewCache)
    (outpoint : COutPoint) : Option CCoinsCacheEntry × CCoinsViewCache × List CCoinsViewCache :=
  match cache.cacheCoins.get? outpoint with
  | some entry => (some entry, cache, below)
  | none => match parent with
    | (none, below) => (none, cache, below)
    | (some tmp, below) =>
      -- of an empty entry in the parent this version is fresh
      let entry : CCoinsCacheEntry := ⟨tmp, false, tmp.isSpent⟩
      (some entry, ⟨cache.cacheCoins.insert outpoint entry⟩, below)

def addCoin (outpoint : COutPoint) (coin : Coin) (possible_overwrite : Bool) : Except String CCoinsViewCache :=
  if coin.isSpent then .error "assert(!coin.IsSpent())"
  else if isUnspendable coin.out.scriptPubKey then .ok cache
  else
    let entry := (cache.cacheCoins.get? outpoint).getD ⟨Coin.empty, false, false⟩
    if !possible_overwrite && !entry.coin.isSpent then .error "Adding new coin that replaces non-pruned entry"
    else
      let fresh := !possible_overwrite && !entry.DIRTY
      .ok ⟨cache.cacheCoins.insert outpoint ⟨coin, true, entry.FRESH || fresh⟩⟩

/-- `BatchWrite` for one entry of the child. -/
def batchWriteEntry (outpoint : COutPoint) (child : CCoinsCacheEntry) : Except String CCoinsViewCache :=
  if !child.DIRTY then .ok cache
  else match cache.cacheCoins.get? outpoint with
    | none =>
      if child.FRESH && child.coin.isSpent then .ok cache
      else .ok ⟨cache.cacheCoins.insert outpoint ⟨child.coin, true, child.FRESH⟩⟩
    | some itUs =>
      if child.FRESH && !itUs.coin.isSpent then
        .error "FRESH flag misapplied to cache entry for base transaction with spendable outputs"
      else if itUs.FRESH && child.coin.isSpent then .ok ⟨cache.cacheCoins.erase outpoint⟩
      else .ok ⟨cache.cacheCoins.insert outpoint ⟨child.coin, true, itUs.FRESH⟩⟩

def batchWrite (mapCoins : CCoinsMap) : Except String CCoinsViewCache :=
  mapCoins.foldlM batchWriteEntry cache

def uncache (outpoint : COutPoint) : CCoinsViewCache :=
  match cache.cacheCoins.get? outpoint with
  | some entry => if !entry.DIRTY && !entry.FRESH then ⟨cache.cacheCoins.erase outpoint⟩ else cache
  | none => cache

end CCoinsViewCache

section

variable (V : BaseView)

/-- `GetCoin` of the topmost cache, which asks the parent where it has no entry. -/
def getCoin (base : V.State) : List CCoinsViewCache → COutPoint → Option Coin × List CCoinsViewCache
  | [], outpoint => (V.getCoin base outpoint, [])
  | cache :: below, outpoint =>
    let (entry, cache, below) := cache.fetchCoin below (getCoin base below outpoint) outpoint
    (entry.bind fun entry => entry.coin.unspent, cache :: below)

def haveCoin (base : V.State) (caches : List CCoinsViewCache) (outpoint : COutPoint) : Bool × List CCoinsViewCache :=
  let (coin, caches) := getCoin V base caches outpoint
  (coin.isSome, caches)

/-- `SpendCoin`: whether it returns true, and the coin it moves out. -/
def CCoinsViewCache.spendCoin (base : V.State) (cache : CCoinsViewCache) (below : List CCoinsViewCache) (outpoint : COutPoint) :
    Bool × Coin × List CCoinsViewCache :=
  match cache.fetchCoin below (getCoin V base below outpoint) outpoint with
  | (none, cache, below) => (false, Coin.empty, cache :: below)
  | (some entry, cache, below) =>
    let cacheCoins := if entry.FRESH then cache.cacheCoins.erase outpoint
      else cache.cacheCoins.insert outpoint ⟨Coin.empty, true, entry.FRESH⟩
    (true, entry.coin, ⟨cacheCoins⟩ :: below)

def flush (base : V.State) : List CCoinsViewCache → Except String (List CCoinsViewCache × V.State)
  | [] => .ok ([], base)
  | [cache] => .ok ([⟨∅⟩], V.batchWrite base cache.cacheCoins)
  | cache :: parent :: below => do
      let parent ← parent.batchWrite cache.cacheCoins
      return (⟨∅⟩ :: parent :: below, base)

structure CoinsStack where
  caches : List CCoinsViewCache
  base : V.State

end

/-- An operation on a stack: coins are added and spent at the top, the rest is done at any level. -/
inductive CoinsOp where
  | addCoin (outpoint : COutPoint) (coin : Coin) (possible_overwrite : Bool)
  | spendCoin (outpoint : COutPoint)
  | uncache (level : Nat) (outpoint : COutPoint)
  | haveCoin (level : Nat) (outpoint : COutPoint)
  | getCoin (level : Nat) (outpoint : COutPoint)
  | flush (level : Nat)
  /-- a new cache over the topmost one -/
  | push
  /-- the topmost cache goes out of scope -/
  | drop

inductive CoinsAnswer where
  | coin (coin : Option Coin)
  | have_ (answer : Bool)
  | done
deriving DecidableEq

namespace CoinsStack

variable {V : BaseView}

def step (s : CoinsStack V) : CoinsOp → Except String (CoinsAnswer × CoinsStack V)
  | .addCoin outpoint coin possible_overwrite => match s.caches with
    | [] => .ok (.done, s)
    | cache :: below => do
        let cache ← cache.addCoin outpoint coin possible_overwrite
        return (.done, ⟨cache :: below, s.base⟩)
  | .spendCoin outpoint => match s.caches with
    | [] => .ok (.done, s)
    | cache :: below =>
      let (is_spent, moveout, caches) := cache.spendCoin V s.base below outpoint
      .ok (.coin (if is_spent then moveout.unspent else none), ⟨caches, s.base⟩)
  | .uncache level outpoint => .ok (.done, ⟨s.caches.modify level fun cache => cache.uncache outpoint, s.base⟩)
  | .haveCoin level outpoint =>
    let (answer, caches) := haveCoin V s.base (s.caches.drop level) outpoint
    .ok (.have_ answer, ⟨s.caches.take level ++ caches, s.base⟩)
  | .getCoin level outpoint =>
    let (coin, caches) := getCoin V s.base (s.caches.drop level) outpoint
    .ok (.coin coin, ⟨s.caches.take level ++ caches, s.base⟩)
  | .flush level => do
      let (caches, base) ← flush V s.base (s.caches.drop level)
      return (.done, ⟨s.caches.take level ++ caches, base⟩)
  | .push => .ok (.done, ⟨⟨∅⟩ :: s.caches, s.base⟩)
  | .drop => .ok (.done, ⟨s.caches.tail, s.base⟩)

def run (s : CoinsStack V) : List CoinsOp → Except String (List CoinsAnswer × CoinsStack V)
  | [] => .ok ([], s)
  | op :: ops => do
      let (answer, s) ← s.step op
      let (answers, s) ← run s ops
      return (answer :: answers, s)

end CoinsStack

end Hivecoin

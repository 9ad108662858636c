import Hivecoin.Chain.CoinsViewCache

/-!
# The coins cache is transparent

A stack of caches shows the coins that plain maps would, one for each level, and `FRESH` is never misapplied.
-/

namespace Hivecoin

open WriteBack Outcome List Option CCoinsCacheEntry CoinsStack Coin

def copyDown : List CoinsView → List CoinsView
  | m :: _ :: maps => m :: m :: maps
  | maps => maps

/-- The operations on plain maps, topmost first; the last one is the base. -/
def plainStep (maps : List CoinsView) : CoinsOp → CoinsAnswer × List CoinsView
  | .addCoin outpoint coin _ => (.done, maps.modifyHead fun m => m.addCoin outpoint coin)
  | .spendCoin outpoint => (.coin (maps.head?.bind fun m => m outpoint), maps.modifyHead fun m => m.remove outpoint)
  | .uncache _ _ => (.done, maps)
  | .haveCoin level outpoint => (.have_ ((maps.drop level).head?.any fun m => (m outpoint).isSome), maps)
  | .getCoin level outpoint => (.coin ((maps.drop level).head?.bind fun m => m outpoint), maps)
  | .flush level => (.done, maps.take level ++ copyDown (maps.drop level))
  | .push => (.done, maps.head?.toList ++ maps)
  | .drop => (.done, maps.tail)

def plainRun (maps : List CoinsView) : List CoinsOp → List CoinsAnswer × List CoinsView
  | [] => ([], maps)
  | op :: ops =>
    let (answer, maps) := plainStep maps op
    let (answers, maps) := plainRun maps ops
    (answer :: answers, maps)

/-- The caller's part: there is a cache at the level, an added coin is unspent, and an overwriting is announced. -/
def LegalOp (maps : List CoinsView) : CoinsOp → Prop
  | .addCoin outpoint coin possible_overwrite => 2 ≤ maps.length ∧ coin.isSpent = false ∧
      (possible_overwrite = false → ∀ m ∈ maps.head?, m outpoint = none)
  | .spendCoin _ | .drop => 2 ≤ maps.length
  | .uncache level _ | .haveCoin level _ | .getCoin level _ | .flush level => level + 1 < maps.length
  | .push => True

def LegalRun (maps : List CoinsView) : List CoinsOp → Prop
  | [] => True
  | op :: ops => LegalOp maps op ∧ LegalRun (plainStep maps op).2 ops

instance decidableLegalOp (maps : List CoinsView) (op : CoinsOp) : Decidable (LegalOp maps op) := by
  cases op <;> dsimp only [LegalOp] <;> infer_instance

instance decidableLegalRun : (maps : List CoinsView) → (ops : List CoinsOp) → Decidable (LegalRun maps ops)
  | _, [] => isTrue trivial
  | maps, op :: ops =>
    have := decidableLegalRun (plainStep maps op).2 ops
    inferInstanceAs (Decidable (LegalOp maps op ∧ LegalRun (plainStep maps op).2 ops))

/-! ## One cache over its parent -/

theorem Coin.unspent_idem (coin : Coin) : coin.unspent.bind unspent = coin.unspent := by
  unfold unspent
  cases h : coin.isSpent <;> simp [h]

theorem Coin.unspent_of_isSpent {coin : Coin} (h : coin.isSpent = true) : coin.unspent = none := if_pos h

theorem Coin.unspent_eq_none {coin : Coin} : coin.unspent = none ↔ coin.isSpent = true := by
  unfold unspent
  cases coin.isSpent <;> simp

def CCoinsCacheEntry.toEntry (entry : CCoinsCacheEntry) : Entry Coin := ⟨entry.coin.unspent, entry.DIRTY, entry.FRESH⟩

namespace CCoinsViewCache

def entryAt (cache : CCoinsViewCache) (outpoint : COutPoint) : Option (Entry Coin) :=
  (cache.cacheCoins.get? outpoint).map toEntry

def view (cache : CCoinsViewCache) (parent : CoinsView) : CoinsView := fun outpoint =>
  seen (parent outpoint) (cache.entryAt outpoint)

def Sound (cache : CCoinsViewCache) (parent : CoinsView) : Prop := ∀ outpoint,
  WriteBack.Sound (parent outpoint) (cache.entryAt outpoint)

variable {cache cache' : CCoinsViewCache} {parent : CoinsView} {outpoint : COutPoint}

theorem entryAt_insert (mapCoins : CCoinsMap) (entry : CCoinsCacheEntry) (a : COutPoint) :
    (CCoinsViewCache.mk (mapCoins.insert outpoint entry)).entryAt a =
      if a = outpoint then some entry.toEntry else (CCoinsViewCache.mk mapCoins).entryAt a := by
  rw [entryAt, entryAt, Table.get?_insert]
  split <;> rfl

theorem entryAt_erase (mapCoins : CCoinsMap) (a : COutPoint) :
    (CCoinsViewCache.mk (mapCoins.erase outpoint)).entryAt a =
      if a = outpoint then none else (CCoinsViewCache.mk mapCoins).entryAt a := by
  rw [entryAt, entryAt, Table.get?_erase]
  split <;> rfl

theorem change {entry coin} (h : cache.Sound parent)
    (hchange : ∀ a, cache'.entryAt a = if a = outpoint then entry else cache.entryAt a)
    (hsound : WriteBack.Sound (parent outpoint) entry) (hseen : seen (parent outpoint) entry = coin) :
    cache'.Sound parent ∧ cache'.view parent = Function.update (cache.view parent) outpoint coin := by
  refine ⟨fun a => ?_, funext fun a => ?_⟩
  · rw [hchange]
    split
    · rename_i ha
      rw [ha]
      exact hsound
    · exact h a
  · rw [view, hchange]
    by_cases ha : a = outpoint
    · subst ha
      rw [if_pos rfl, Function.update_self, hseen]
    · rw [if_neg ha, Function.update_of_ne ha]
      rfl

theorem empty_sound : (CCoinsViewCache.mk ∅).Sound parent := by
  intro a
  rw [entryAt, Table.get?_empty]
  exact sound_none

theorem empty_view : (CCoinsViewCache.mk ∅).view parent = parent := by
  funext a
  rw [view, entryAt, Table.get?_empty]
  rfl

/-- What `FetchCoin` leaves: the same view, with the entry in the cache. -/
theorem fetchCoin_spec (h : cache.Sound parent) {below} {answer : Option Coin × List CCoinsViewCache}
    (hanswer : answer.1.bind unspent = parent outpoint) :
    ∃ entry cache' below', cache.fetchCoin below answer outpoint = (entry, cache', below') ∧
      cache'.cacheCoins.get? outpoint = entry ∧ cache'.Sound parent ∧ cache'.view parent = cache.view parent ∧
      (entry = none → parent outpoint = none) ∧ (below' = below ∨ below' = answer.2) := by
  unfold fetchCoin
  cases hget : cache.cacheCoins.get? outpoint with
  | some entry => exact ⟨_, _, _, rfl, hget, h, rfl, (by rintro ⟨⟩), Or.inl rfl⟩
  | none =>
    obtain ⟨coin, below'⟩ := answer
    cases coin with
    | none => exact ⟨_, _, _, rfl, hget, h, rfl, fun _ => hanswer.symm, Or.inr rfl⟩
    | some tmp =>
      have hparent : parent outpoint = tmp.unspent := hanswer.symm
      have hseen : cache.view parent outpoint = parent outpoint := by
        rw [view, entryAt, hget]
        rfl
      have hfetched : WriteBack.Sound (parent outpoint) (some ⟨tmp.unspent, false, tmp.isSpent⟩) := by
        rw [hparent]
        exact sound_fetched unspent_of_isSpent
      obtain ⟨hsound, hview⟩ := change h (entryAt_insert cache.cacheCoins ⟨tmp, false, tmp.isSpent⟩) hfetched hparent.symm
      rw [← hseen, Function.update_eq_self] at hview
      exact ⟨_, _, _, rfl, Table.get?_insert_self _ _ _, hsound, hview, (by rintro ⟨⟩), Or.inr rfl⟩

theorem uncache_spec (h : cache.Sound parent) (outpoint : COutPoint) :
    (cache.uncache outpoint).Sound parent ∧ (cache.uncache outpoint).view parent = cache.view parent := by
  unfold uncache
  cases hget : cache.cacheCoins.get? outpoint with
  | none => exact ⟨h, rfl⟩
  | some entry =>
    dsimp only
    by_cases hclean : (!entry.DIRTY && !entry.FRESH) = true
    · rw [if_pos hclean]
      have hentry : cache.entryAt outpoint = some entry.toEntry := by rw [entryAt, hget]; rfl
      have hdirty : entry.DIRTY = false := by
        rw [Bool.and_eq_true, Bool.not_eq_true'] at hclean
        exact hclean.1
      have hsame : parent outpoint = cache.view parent outpoint := by
        rw [view, hentry]
        exact ((hentry ▸ h outpoint).seen_of_clean hdirty).symm
      obtain ⟨hsound, hview⟩ := change h (entryAt_erase cache.cacheCoins) sound_none hsame
      rw [Function.update_eq_self] at hview
      exact ⟨hsound, hview⟩
    · rw [if_neg hclean]
      exact ⟨h, rfl⟩

/-- An entry overwritten without notice is spent; where it may be fresh the parent has no coin. -/
theorem overwritten (h : cache.Sound parent) {possible_overwrite}
    (hnew : possible_overwrite = false → cache.view parent outpoint = none) {entry : CCoinsCacheEntry}
    (hentry : (cache.cacheCoins.get? outpoint).getD ⟨empty, false, false⟩ = entry) :
    (possible_overwrite = false → entry.coin.isSpent = true) ∧
      ((entry.FRESH || (!possible_overwrite && !entry.DIRTY)) = true → parent outpoint = none) := by
  have hlocal := h outpoint
  simp only [view, entryAt] at hnew hlocal
  cases hget : cache.cacheCoins.get? outpoint with
  | none =>
    rw [hget] at hentry hnew
    subst hentry
    refine ⟨fun _ => rfl, fun hfresh => hnew ?_⟩
    simpa using hfresh
  | some found =>
    rw [hget] at hentry hnew hlocal
    obtain rfl : found = entry := hentry
    refine ⟨fun hover => unspent_eq_none.1 (hnew hover), fun hfresh => ?_⟩
    rcases Bool.or_eq_true _ _ ▸ hfresh with hfresh | hclean
    · exact hlocal.fresh _ rfl hfresh
    · simp only [test_iff] at hclean
      rw [← hlocal.clean _ rfl hclean.2]
      exact hnew hclean.1

theorem addCoin_spec (h : cache.Sound parent) {coin possible_overwrite} (hcoin : coin.isSpent = false)
    (hnew : possible_overwrite = false → cache.view parent outpoint = none) :
    ∃ cache', cache.addCoin outpoint coin possible_overwrite = .ok cache' ∧ cache'.Sound parent ∧
      cache'.view parent = (cache.view parent).addCoin outpoint coin := by
  unfold addCoin CoinsView.addCoin
  rw [if_neg (by rw [hcoin]; exact Bool.false_ne_true)]
  split
  · exact ⟨cache, rfl, h, rfl⟩
  · generalize hentry : (cache.cacheCoins.get? outpoint).getD ⟨empty, false, false⟩ = entry
    obtain ⟨hspent, hfresh⟩ := overwritten h hnew hentry
    have hno : ¬(!possible_overwrite && !entry.coin.isSpent) = true := by
      cases possible_overwrite with
      | true => exact Bool.false_ne_true
      | false => simp [hspent rfl]
    dsimp only
    rw [if_neg hno]
    have hseen : coin.unspent = some coin := if_neg (by rw [hcoin]; exact Bool.false_ne_true)
    exact ⟨_, rfl, change h (entryAt_insert cache.cacheCoins _) (sound_dirty hfresh) hseen⟩

theorem spendCoin_spec {V base below} (h : cache.Sound parent)
    (hanswer : (getCoin V base below outpoint).1.bind unspent = parent outpoint) :
    ∃ is_spent moveout cache' below', cache.spendCoin V base below outpoint = (is_spent, moveout, cache' :: below') ∧
      (if is_spent then moveout.unspent else none) = cache.view parent outpoint ∧ cache'.Sound parent ∧
      cache'.view parent = (cache.view parent).remove outpoint ∧ (below' = below ∨ below' = (getCoin V base below outpoint).2) := by
  obtain ⟨entry, cache1, below', hfetch, hget, hsound, hview, hnone, hbelow⟩ := fetchCoin_spec h hanswer
  unfold spendCoin
  rw [hfetch, ← hview]
  have hseen : (cache1.view parent) outpoint = seen (parent outpoint) (entry.map toEntry) := by
    rw [view, entryAt, hget]
  cases entry with
  | none =>
    refine ⟨_, _, _, _, rfl, ?_, hsound, ?_, hbelow⟩
    · rw [hseen]
      exact (hnone rfl).symm
    · rw [CoinsView.remove, ← hnone rfl]
      refine (Function.update_eq_self_iff.2 ?_).symm
      rw [hseen]
      rfl
  | some entry =>
    refine ⟨_, _, _, _, rfl, ?_, ?_⟩
    · rw [hseen]
      rfl
    · have hlocal : WriteBack.Sound (parent outpoint) (some entry.toEntry) := by
        have := hsound outpoint
        rwa [entryAt, hget] at this
      obtain ⟨herase, hgone⟩ := hlocal.erase
      have hchange : ∀ a, (CCoinsViewCache.mk (if entry.FRESH then cache1.cacheCoins.erase outpoint
          else cache1.cacheCoins.insert outpoint ⟨empty, true, entry.FRESH⟩)).entryAt a =
            if a = outpoint then erase entry.toEntry else cache1.entryAt a := by
        intro a
        by_cases hfresh : entry.FRESH = true
        · have hdropped : erase entry.toEntry = none := if_pos hfresh
          rw [if_pos hfresh, entryAt_erase, hdropped]
        · have hkept : erase entry.toEntry = some ⟨none, true, entry.FRESH⟩ := if_neg hfresh
          rw [if_neg hfresh, entryAt_insert, hkept]
          rfl
      obtain ⟨hsound', hview'⟩ := change hsound hchange herase hgone
      exact ⟨hsound', hview', hbelow⟩

/-- A dirty entry of a child that is sound over this cache merges. -/
theorem batchWriteEntry_dirty {entry : CCoinsCacheEntry} (hdirty : entry.DIRTY = true)
    (hfresh : entry.FRESH = true → ∀ e ∈ cache.entryAt outpoint, e.value = none) :
    ∃ cache', cache.batchWriteEntry outpoint entry = .ok cache' ∧ ∀ a, cache'.entryAt a =
      if a = outpoint then merge entry.toEntry (cache.entryAt outpoint) else cache.entryAt a := by
  have hspent : entry.toEntry.value.isNone = entry.coin.isSpent := by
    rw [toEntry]
    cases hs : entry.coin.isSpent <;> simp [unspent, hs]
  have hentry : cache.entryAt outpoint = (cache.cacheCoins.get? outpoint).map toEntry := rfl
  unfold batchWriteEntry
  cases hget : cache.cacheCoins.get? outpoint with
  | none =>
    rw [hget] at hentry
    by_cases hgone : (entry.FRESH && entry.coin.isSpent) = true
    · have hmerge : merge entry.toEntry none = none := if_pos (by rw [hspent]; exact hgone)
      refine ⟨cache, by simp [hdirty, hgone], fun a => ?_⟩
      rw [hentry, map_none, hmerge]
      split
      · rename_i ha
        rw [ha, hentry]
        rfl
      · rfl
    · have hmerge : merge entry.toEntry none = some ⟨entry.coin.unspent, true, entry.FRESH⟩ :=
        if_neg (by rw [hspent]; exact hgone)
      refine ⟨⟨cache.cacheCoins.insert outpoint ⟨entry.coin, true, entry.FRESH⟩⟩, by simp [hdirty, hgone], fun a => ?_⟩
      rw [entryAt_insert, hentry, map_none, hmerge]
      rfl
  | some itUs =>
    rw [hget] at hentry
    have hno : ¬(entry.FRESH && !itUs.coin.isSpent) = true := by
      intro hboth
      rw [Bool.and_eq_true, Bool.not_eq_true'] at hboth
      have hvalue := hfresh hboth.1 itUs.toEntry hentry
      rw [unspent_eq_none.1 hvalue] at hboth
      cases hboth.2
    by_cases hgone : (itUs.FRESH && entry.coin.isSpent) = true
    · have hmerge : merge entry.toEntry (some itUs.toEntry) = none := if_pos (by rw [hspent]; exact hgone)
      refine ⟨⟨cache.cacheCoins.erase outpoint⟩, by simp [hdirty, hno, hgone], fun a => ?_⟩
      rw [entryAt_erase, hentry, map_some, hmerge]
    · have hmerge : merge entry.toEntry (some itUs.toEntry) = some ⟨entry.coin.unspent, true, itUs.FRESH⟩ :=
        if_neg (by rw [hspent]; exact hgone)
      refine ⟨⟨cache.cacheCoins.insert outpoint ⟨entry.coin, true, itUs.FRESH⟩⟩, by simp [hdirty, hno, hgone], fun a => ?_⟩
      rw [entryAt_insert, hentry, map_some, hmerge]
      rfl

theorem batchWriteEntry_spec (entry : CCoinsCacheEntry)
    (hfresh : entry.DIRTY = true → entry.FRESH = true → ∀ e ∈ cache.entryAt outpoint, e.value = none) :
    ∃ cache', cache.batchWriteEntry outpoint entry = .ok cache' ∧ ∀ a, cache'.entryAt a =
      if a = outpoint then (if entry.DIRTY then merge entry.toEntry (cache.entryAt a) else cache.entryAt a)
      else cache.entryAt a := by
  cases hdirty : entry.DIRTY with
  | false => exact ⟨cache, by simp [batchWriteEntry, hdirty], fun a => by simp⟩
  | true =>
    obtain ⟨cache', hrun, hat⟩ := batchWriteEntry_dirty hdirty (hfresh hdirty)
    refine ⟨cache', hrun, fun a => ?_⟩
    rw [hat]
    split
    · rename_i ha
      rw [ha, if_pos rfl]
    · rfl

theorem batchWrite_spec {child : CCoinsViewCache} (h : cache.Sound parent) (hchild : child.Sound (cache.view parent)) :
    ∃ cache', cache.batchWrite child.cacheCoins = .ok cache' ∧ cache'.Sound parent ∧
      cache'.view parent = child.view (cache.view parent) := by
  have hat : ∀ a entry, child.cacheCoins.get? a = some entry →
      WriteBack.Sound (seen (parent a) (cache.entryAt a)) (some entry.toEntry) := by
    intro a entry hget
    have := hchild a
    rwa [entryAt, hget] at this
  have hok : ∀ a entry, child.cacheCoins.get? a = some entry → entry.DIRTY = true → entry.FRESH = true →
      ∀ e ∈ cache.entryAt a, e.value = none := by
    intro a entry hget _ hfresh e he
    have hsound := hat a entry hget
    rw [he] at hsound
    exact hsound.value_of_fresh hfresh
  obtain ⟨cache', hrun, hobs⟩ := Table.foldlM_pointwise CCoinsViewCache.entryAt batchWriteEntry
    (fun _ entry e => if entry.DIRTY then merge entry.toEntry e else e)
    (fun _ entry e => entry.DIRTY = true → entry.FRESH = true → ∀ x ∈ e, x.value = none)
    (fun cache _ entry => batchWriteEntry_spec entry) child.cacheCoins cache hok
  have hpoint : ∀ a, WriteBack.Sound (parent a) (cache'.entryAt a) ∧
      seen (parent a) (cache'.entryAt a) = child.view (cache.view parent) a := by
    intro a
    have hshown : child.view (cache.view parent) a =
        seen (cache.view parent a) ((child.cacheCoins.get? a).map toEntry) := rfl
    rw [hobs a, hshown]
    cases hget : child.cacheCoins.get? a with
    | none => exact ⟨h a, rfl⟩
    | some entry =>
      dsimp only
      split
      · exact (h a).merge (hat a entry hget)
      · rename_i hdirty
        have hclean : entry.DIRTY = false := by simpa using hdirty
        exact ⟨h a, ((hat a entry hget).clean _ rfl hclean).symm⟩
  exact ⟨cache', hrun, fun a => (hpoint a).1, funext fun a => (hpoint a).2⟩

end CCoinsViewCache

section

variable {V : BaseView} {base : V.State}

/-- Each cache is sound over the map of the level under it and shows its own. -/
inductive Mirrors (base : V.State) : List CCoinsViewCache → List CoinsView → Prop where
  | base : Mirrors base [] [V.known base]
  | cache {cache caches m parent maps}
      (hsound : cache.Sound parent) (hview : cache.view parent = m) (hbelow : Mirrors base caches (parent :: maps)) :
      Mirrors base (cache :: caches) (m :: parent :: maps)

variable {caches : List CCoinsViewCache} {m : CoinsView} {maps : List CoinsView} {outpoint : COutPoint}

theorem Mirrors.length (h : Mirrors base caches maps) : maps.length = caches.length + 1 := by
  induction h with
  | base => rfl
  | cache hsound hview hbelow ih => rw [length_cons, ih, length_cons]

theorem getCoin_spec (h : Mirrors base caches (m :: maps)) : (getCoin V base caches outpoint).1.bind unspent = m outpoint ∧
    Mirrors base (getCoin V base caches outpoint).2 (m :: maps) ∧
    (caches ≠ [] → (getCoin V base caches outpoint).1 = m outpoint) := by
  generalize hall : m :: maps = all at h
  induction h generalizing m maps with
  | base =>
    obtain ⟨rfl, rfl⟩ := List.cons.inj hall
    exact ⟨rfl, .base, fun h => absurd rfl h⟩
  | @cache cache caches m' parent maps' hsound hview hbelow ih =>
    obtain ⟨rfl, rfl⟩ := List.cons.inj hall
    obtain ⟨hanswer, hmirrors, -⟩ := ih rfl
    obtain ⟨entry, cache', below', hfetch, hget, hsound', hview', hnone, hside⟩ :=
      @CCoinsViewCache.fetchCoin_spec cache parent outpoint hsound caches _ hanswer
    have hbelow' : Mirrors base below' (parent :: maps') := by
      rcases hside with rfl | rfl
      · exact hbelow
      · exact hmirrors
    have hcoin : (entry.bind fun entry => entry.coin.unspent) = m outpoint := by
      rw [← hview, ← hview', CCoinsViewCache.view, CCoinsViewCache.entryAt, hget]
      cases entry with
      | none => exact (hnone rfl).symm
      | some entry => rfl
    simp only [getCoin, hfetch]
    refine ⟨?_, .cache hsound' (hview'.trans hview) hbelow', fun _ => hcoin⟩
    rw [← hcoin]
    cases entry with
    | none => rfl
    | some entry => exact unspent_idem entry.coin

/-- A lower part of the stack is replaced by one that shows the same. -/
theorem Mirrors.splice {base' : V.State} {caches' : List CCoinsViewCache} {maps' : List CoinsView} (h : Mirrors base caches maps)
    {level : Nat} (hlevel : level < maps.length) (hnew : Mirrors base' caches' maps')
    (hhead : maps'.head? = (maps.drop level).head?) :
    Mirrors base' (caches.take level ++ caches') (maps.take level ++ maps') := by
  induction h generalizing level with
  | base =>
    obtain rfl : level = 0 := by simpa using hlevel
    exact hnew
  | @cache cache caches m parent maps hsound hview hbelow ih =>
    cases level with
    | zero => exact hnew
    | succ level =>
      have hnext := ih (Nat.lt_of_succ_lt_succ hlevel) hhead
      have htop : ((parent :: maps).take level ++ maps').head? = some parent := by
        cases level with
        | zero => exact hhead
        | succ level => rfl
      obtain ⟨rest, hrest⟩ := List.head?_eq_some_iff.1 htop
      rw [take_succ_cons, take_succ_cons, cons_append, cons_append, hrest]
      exact .cache hsound hview (hrest ▸ hnext)

theorem Mirrors.drop (h : Mirrors base caches maps) {level} (hlevel : level < maps.length) :
    Mirrors base (caches.drop level) (maps.drop level) := by
  induction h generalizing level with
  | base =>
    obtain rfl : level = 0 := by simpa using hlevel
    exact .base
  | cache hsound hview hbelow ih =>
    cases level with
    | zero => exact .cache hsound hview hbelow
    | succ level => exact ih (Nat.lt_of_succ_lt_succ hlevel)

theorem Mirrors.cons (h : Mirrors base caches maps) (htwo : 2 ≤ maps.length) : ∃ cache below m parent maps',
    caches = cache :: below ∧ maps = m :: parent :: maps' ∧ cache.Sound parent ∧ cache.view parent = m ∧
      Mirrors base below (parent :: maps') := by
  cases h with
  | base => simp at htwo
  | cache hsound hview hbelow => exact ⟨_, _, _, _, _, rfl, rfl, hsound, hview, hbelow⟩

theorem flush_spec (h : Mirrors base caches maps) (htwo : 2 ≤ maps.length) : ∃ caches' base',
    flush V base caches = .ok (caches', base') ∧ Mirrors base' caches' (copyDown maps) := by
  obtain ⟨cache, below, m, parent, maps', rfl, rfl, hsound, hview, hbelow⟩ := h.cons htwo
  cases hbelow with
  | base =>
    refine ⟨_, _, rfl, ?_⟩
    have hknown : V.known (V.batchWrite base cache.cacheCoins) = m := by
      rw [← hview]
      funext a
      have hshown : cache.view (V.known base) a =
          seen (V.known base a) ((cache.cacheCoins.get? a).map toEntry) := rfl
      have hlocal := hsound a
      rw [BaseView.known, V.batchWrite_unspent, hshown]
      rw [CCoinsViewCache.entryAt] at hlocal
      cases hget : cache.cacheCoins.get? a with
      | none => rfl
      | some entry =>
        rw [hget] at hlocal
        dsimp only
        split
        · rfl
        · rename_i hdirty
          have hclean : entry.DIRTY = false := by simpa using hdirty
          exact (hlocal.clean _ rfl hclean).symm
    rw [← hknown]
    exact .cache CCoinsViewCache.empty_sound CCoinsViewCache.empty_view .base
  | @cache next below' _ parent' maps'' hsound' hview' hbelow' =>
    obtain ⟨next', hrun, hnext, hsame⟩ := CCoinsViewCache.batchWrite_spec hsound' (hview' ▸ hsound)
    refine ⟨⟨∅⟩ :: next' :: below', base, ?_, ?_⟩
    · rw [flush, hrun]
      rfl
    · refine .cache CCoinsViewCache.empty_sound CCoinsViewCache.empty_view (.cache hnext ?_ hbelow')
      rw [hsame, hview', hview]

theorem Mirrors.lookup (h : Mirrors base caches maps) {level : Nat} (hlevel : level + 1 < maps.length) : ∃ m,
    (maps.drop level).head? = some m ∧ (getCoin V base (caches.drop level) outpoint).1 = m outpoint ∧
      Mirrors base (caches.take level ++ (getCoin V base (caches.drop level) outpoint).2) maps := by
  have hpart := h.drop (Nat.lt_of_succ_lt hlevel)
  have htwo : 2 ≤ (maps.drop level).length := by
    rw [length_drop]
    omega
  obtain ⟨cache, below, m, parent, maps', hcaches, hmaps, -⟩ := hpart.cons htwo
  rw [hmaps] at hpart
  obtain ⟨-, hmirrors, hanswer⟩ := @getCoin_spec V base (caches.drop level) m (parent :: maps') outpoint hpart
  refine ⟨m, by rw [hmaps]; rfl, hanswer (by rw [hcaches]; simp), ?_⟩
  have hspliced := h.splice (Nat.lt_of_succ_lt hlevel) hmirrors (by rw [hmaps])
  rwa [← hmaps, take_append_drop] at hspliced

theorem Mirrors.uncache (h : Mirrors base caches maps) (level : Nat) :
    Mirrors base (caches.modify level fun cache => cache.uncache outpoint) maps := by
  induction h generalizing level with
  | base =>
    rw [modify_nil]
    exact .base
  | cache hsound hview hbelow ih =>
    cases level with
    | zero =>
      obtain ⟨hsound', hview'⟩ := CCoinsViewCache.uncache_spec hsound outpoint
      exact .cache hsound' (hview'.trans hview) hbelow
    | succ level => exact .cache hsound hview (ih level)

theorem step_spec {s : CoinsStack V} {op : CoinsOp} (h : Mirrors s.base s.caches maps) (hlegal : LegalOp maps op) : ∃ s',
    s.step op = .ok ((plainStep maps op).1, s') ∧ Mirrors s'.base s'.caches (plainStep maps op).2 := by
  obtain ⟨caches, base⟩ := s
  dsimp only at h
  cases op with
  | addCoin outpoint coin possible_overwrite =>
    obtain ⟨htwo, hcoin, hnew⟩ := hlegal
    obtain ⟨cache, below, m, parent, maps', rfl, rfl, hsound, hview, hbelow⟩ := h.cons htwo
    obtain ⟨cache', hrun, hsound', hview'⟩ := CCoinsViewCache.addCoin_spec hsound hcoin
      fun hover => hview ▸ hnew hover m rfl
    refine ⟨⟨cache' :: below, base⟩, ?_, .cache hsound' (hview ▸ hview') hbelow⟩
    simp only [step, hrun]
    rfl
  | spendCoin outpoint =>
    obtain ⟨cache, below, m, parent, maps', rfl, rfl, hsound, hview, hbelow⟩ := h.cons hlegal
    obtain ⟨hanswer, hfilled, -⟩ := @getCoin_spec V base below parent maps' outpoint hbelow
    obtain ⟨is_spent, moveout, cache', below', hrun, hmoved, hsound', hview', hside⟩ :=
      CCoinsViewCache.spendCoin_spec hsound hanswer
    have hbelow' : Mirrors base below' (parent :: maps') := by
      rcases hside with rfl | rfl
      · exact hbelow
      · exact hfilled
    refine ⟨⟨cache' :: below', base⟩, ?_, .cache hsound' (hview ▸ hview') hbelow'⟩
    simp only [step, hrun, hmoved, hview]
    rfl
  | uncache level outpoint => exact ⟨⟨_, base⟩, rfl, h.uncache level⟩
  | haveCoin level outpoint =>
    obtain ⟨m, hhead, hanswer, hmirrors⟩ := @Mirrors.lookup V base caches maps outpoint h level hlegal
    refine ⟨⟨_, base⟩, ?_, hmirrors⟩
    simp only [step, haveCoin, hanswer, plainStep, hhead]
    rfl
  | getCoin level outpoint =>
    obtain ⟨m, hhead, hanswer, hmirrors⟩ := @Mirrors.lookup V base caches maps outpoint h level hlegal
    refine ⟨⟨_, base⟩, ?_, hmirrors⟩
    simp only [step, hanswer, plainStep, hhead]
    rfl
  | flush level =>
    have hlevel : level < maps.length := Nat.lt_of_succ_lt hlegal
    have htwo : 2 ≤ (maps.drop level).length := by
      rw [length_drop]
      exact Nat.le_sub_of_add_le (by rw [Nat.add_comm]; exact hlegal)
    obtain ⟨caches', base', hrun, hmirrors⟩ := flush_spec (h.drop hlevel) htwo
    have hhead : (copyDown (maps.drop level)).head? = (maps.drop level).head? := by
      obtain ⟨cache, below, m, parent, maps', -, hmaps, -⟩ := (h.drop hlevel).cons htwo
      rw [hmaps]
      rfl
    refine ⟨⟨caches.take level ++ caches', base'⟩, ?_, h.splice hlevel hmirrors hhead⟩
    simp only [step, hrun]
    rfl
  | push =>
    cases h with
    | base => exact ⟨_, rfl, .cache CCoinsViewCache.empty_sound CCoinsViewCache.empty_view .base⟩
    | cache hsound hview hbelow =>
      exact ⟨_, rfl, .cache CCoinsViewCache.empty_sound CCoinsViewCache.empty_view (.cache hsound hview hbelow)⟩
  | drop =>
    obtain ⟨cache, below, m, parent, maps', rfl, rfl, -, -, hbelow⟩ := h.cons hlegal
    exact ⟨_, rfl, hbelow⟩

theorem run_spec {s : CoinsStack V} {ops} (h : Mirrors s.base s.caches maps) (hlegal : LegalRun maps ops) : ∃ s',
    s.run ops = .ok ((plainRun maps ops).1, s') ∧ Mirrors s'.base s'.caches (plainRun maps ops).2 := by
  induction ops generalizing s maps with
  | nil => exact ⟨s, rfl, h⟩
  | cons op ops ih =>
    obtain ⟨s1, hstep, hmirrors⟩ := step_spec h hlegal.1
    obtain ⟨s', hrun, hmirrors'⟩ := ih hmirrors hlegal.2
    refine ⟨s', ?_, hmirrors'⟩
    simp only [run, hstep, bind, Except.bind, hrun]
    rfl

theorem plainRun_flushes (m : CoinsView) (rest : List CoinsView) (k : Nat) :
    LegalRun (List.replicate (k + 1) m ++ rest) ((List.range' k rest.length).map .flush) ∧
      (plainRun (List.replicate (k + 1) m ++ rest) ((List.range' k rest.length).map .flush)).2 =
        List.replicate (k + 1 + rest.length) m := by
  induction rest generalizing k with
  | nil => exact ⟨trivial, append_nil _⟩
  | cons x rest ih =>
    have hcopy : (plainStep (List.replicate (k + 1) m ++ x :: rest) (.flush k)).2 = List.replicate (k + 1 + 1) m ++ rest := by
      have hsplit : List.replicate (k + 1) m ++ x :: rest = List.replicate k m ++ m :: x :: rest := by
        rw [replicate_succ', append_assoc]
        rfl
      have hlen : (List.replicate k m).length = k := length_replicate
      rw [plainStep, hsplit, take_left' hlen, drop_left' hlen, copyDown, replicate_succ', replicate_succ',
        append_assoc, append_assoc]
      rfl
    obtain ⟨hlegal, hrun⟩ := ih (k + 1)
    rw [← hcopy] at hlegal hrun
    rw [length_cons, List.range'_succ]
    refine ⟨⟨?_, hlegal⟩, ?_⟩
    · simp [LegalOp]
    · rw [map_cons, plainRun]
      simp only [hrun]
      congr 1
      omega

theorem Mirrors.known (h : Mirrors base caches maps) : maps.getLast? = some (V.known base) := by
  induction h with
  | base => rfl
  | cache hsound hview hbelow ih => rw [List.getLast?_cons_cons, ih]

theorem flush_all_levels {s : CoinsStack V} (h : Mirrors s.base s.caches (m :: maps)) : ∃ answers s',
    s.run ((List.range s.caches.length).map .flush) = .ok (answers, s') ∧ V.known s'.base = m := by
  have hlen : s.caches.length = maps.length := by
    have := h.length
    rw [length_cons] at this
    omega
  obtain ⟨hlegal, hcopied⟩ := plainRun_flushes m maps 0
  rw [← range_eq_range'] at hlegal hcopied
  rw [hlen]
  obtain ⟨s', hrun, hmirrors⟩ := @run_spec V (m :: maps) s _ h hlegal
  refine ⟨_, s', hrun, ?_⟩
  have hknown := hmirrors.known
  rw [show m :: maps = List.replicate (0 + 1) m ++ maps from rfl, hcopied] at hknown
  rw [List.getLast?_replicate] at hknown
  simpa using hknown.symm

def Spendable (maps : List CoinsView) : Prop := ∀ m ∈ maps, ∀ outpoint coin, m outpoint = some coin →
  isUnspendable coin.out.scriptPubKey = false

theorem Spendable.subset (h : Spendable maps) {maps'} (hsub : maps' ⊆ maps) : Spendable maps' :=
  fun m hm => h m (hsub hm)

theorem Spendable.modifyHead (h : Spendable maps) {f}
    (hf : ∀ m, Spendable [m] → Spendable [f m]) : Spendable (maps.modifyHead f) := by
  cases maps with
  | nil => exact h
  | cons m maps =>
    intro m' hm'
    rcases mem_cons.1 hm' with rfl | hm'
    · exact hf m (h.subset (by simp)) _ (by simp)
    · exact h m' (mem_cons_of_mem _ hm')

theorem copyDown_subset (maps : List CoinsView) : copyDown maps ⊆ maps := by
  unfold copyDown
  split
  · simp
  · exact List.Subset.refl _

theorem Spendable.plainStep (h : Spendable maps) (op : CoinsOp) : Spendable (plainStep maps op).2 := by
  cases op with
  | addCoin outpoint coin possible_overwrite =>
    refine h.modifyHead fun m hm m' hm' a found hfound => ?_
    obtain rfl := mem_singleton.1 hm'
    unfold CoinsView.addCoin at hfound
    split at hfound
    · exact hm m (by simp) a found hfound
    · rename_i hspendable
      by_cases ha : a = outpoint
      · rw [ha, Function.update_self] at hfound
        cases hfound
        simpa using hspendable
      · rw [Function.update_of_ne ha] at hfound
        exact hm m (by simp) a found hfound
  | spendCoin outpoint =>
    refine h.modifyHead fun m hm m' hm' a found hfound => ?_
    obtain rfl := mem_singleton.1 hm'
    unfold CoinsView.remove at hfound
    by_cases ha : a = outpoint
    · rw [ha, Function.update_self] at hfound
      cases hfound
    · rw [Function.update_of_ne ha] at hfound
      exact hm m (by simp) a found hfound
  | flush level =>
    refine h.subset (append_subset.2 ⟨take_subset _ _, ?_⟩)
    exact List.Subset.trans (copyDown_subset _) (drop_subset _ _)
  | push =>
    refine h.subset (append_subset.2 ⟨?_, List.Subset.refl _⟩)
    cases maps <;> simp
  | drop => exact h.subset (tail_subset _)
  | _ => exact h

theorem Spendable.plainRun (h : Spendable maps) (ops : List CoinsOp) : Spendable (plainRun maps ops).2 := by
  induction ops generalizing maps with
  | nil => exact h
  | cons op ops ih => exact ih (h.plainStep op)

def CoinsStack.Holds (s : CoinsStack V) (coin : Coin) : Prop := ∃ cache ∈ s.caches, ∃ outpoint entry,
  cache.cacheCoins.get? outpoint = some entry ∧ entry.coin = coin ∧ coin.isSpent = false

theorem Mirrors.spendable {s : CoinsStack V} (h : Mirrors s.base s.caches maps) (hmaps : Spendable maps) {coin : Coin}
    (hcoin : s.Holds coin) : isUnspendable coin.out.scriptPubKey = false := by
  obtain ⟨cache, hcache, outpoint, entry, hget, rfl, hunspent⟩ := hcoin
  obtain ⟨caches, base⟩ := s
  dsimp only at h hcache
  induction h with
  | base => cases hcache
  | @cache top caches m parent maps hsound hview hbelow ih =>
    rcases mem_cons.1 hcache with rfl | hcache
    · refine hmaps m mem_cons_self outpoint entry.coin ?_
      rw [← hview, CCoinsViewCache.view, CCoinsViewCache.entryAt, hget]
      exact if_neg (by rw [hunspent]; exact Bool.false_ne_true)
    · exact ih (fun m hm => hmaps m (mem_cons_of_mem _ hm)) hcache

end

/-- A stack of caches over any base view, used by any operations whose callers announce what they overwrite, answers as plain maps
do and throws nothing; once every level is flushed the base is the topmost map, and no cache ever holds an unspendable coin. -/
theorem coins_cache_transparent (V : BaseView) (base : V.State) (ops : List CoinsOp) (hlegal : LegalRun [V.known base] ops) :
    ∃ s : CoinsStack V, (mk [] base).run ops = .ok ((plainRun [V.known base] ops).1, s) ∧
      (∃ answers s', s.run ((List.range s.caches.length).map .flush) = .ok (answers, s') ∧
        (plainRun [V.known base] ops).2.head? = some (V.known s'.base)) ∧
      (Spendable [V.known base] → ∀ coin, s.Holds coin → isUnspendable coin.out.scriptPubKey = false) := by
  obtain ⟨s, hrun, hmirrors⟩ := @run_spec V _ (mk [] base) _ .base hlegal
  refine ⟨s, hrun, ?_, fun hbase coin => hmirrors.spendable (hbase.plainRun ops)⟩
  obtain ⟨m, maps, hmaps⟩ := exists_cons_of_length_pos (by rw [hmirrors.length]; exact Nat.succ_pos _)
  rw [hmaps] at hmirrors ⊢
  obtain ⟨answers, s', hflush, hknown⟩ := flush_all_levels hmirrors
  exact ⟨answers, s', hflush, by rw [hknown]; rfl⟩

namespace Regtest

def emptyCoinsDB : coinsViewDB.State := (∅ : Table COutPoint Coin)

def coinsUse : List CoinsOp :=
  [.push, .push, .addCoin ⟨1, 0⟩ ⟨⟨5, [0x51]⟩, 1, false⟩ false, .getCoin 0 ⟨1, 0⟩, .flush 0, .haveCoin 1 ⟨1, 0⟩, .spendCoin ⟨1, 0⟩,
    .haveCoin 0 ⟨1, 0⟩, .haveCoin 1 ⟨1, 0⟩, .flush 0, .haveCoin 1 ⟨1, 0⟩, .flush 1]

theorem coins_cache_transparent_used : ∃ s : CoinsStack coinsViewDB,
    (mk [] emptyCoinsDB).run coinsUse = .ok ([.done, .done, .done, .coin (some ⟨⟨5, [0x51]⟩, 1, false⟩), .done, .have_ true,
      .coin (some ⟨⟨5, [0x51]⟩, 1, false⟩), .have_ false, .have_ true, .done, .have_ false, .done], s) := by
  have hlegal : LegalRun [coinsViewDB.known emptyCoinsDB] coinsUse := by decide +kernel
  obtain ⟨s, hrun, -⟩ := coins_cache_transparent coinsViewDB emptyCoinsDB coinsUse hlegal
  exact ⟨s, hrun⟩

end Regtest

end Hivecoin

import Hivecoin.Cache.Lemmas.Marks

/-!
# Reachable stores

Caches are flushed, `passets` is dumped, and the LRU caches fill and drop entries at any time.
-/

namespace Hivecoin

namespace Store

inductive Reachable (E : Env) : Store → Prop
  | empty : Reachable E ∅
  | flush {S c ops} (h : Reachable E S)
      (hc : runOps E S ∅ ops = some c) (hops : ∀ op ∈ ops, op.WellNamed) : Reachable E (S.flush c)
  | dump {S} (h : Reachable E S) : Reachable E (S.dumpCacheToDatabase E)
  | cacheEvent {S} (h : Reachable E S) (event : CacheEvent) : Reachable E (S.cacheEvent event)

/-- The LRU caches of tags and freezes hold what is stored. -/
structure MarksCoherent (S : Store) : Prop where
  qualifier : S.addressQualifier.Coherent
  restricted : S.restrictedAddress.Coherent
  global : S.globalRestriction.Coherent

theorem coherent_fillMark {K : Type} [DecidableEq K] {m} (h : m.Coherent) (k : K) :
    (fillMark m k).Coherent := by
  unfold fillMark
  split
  · rename_i hk
    intro a ha
    rcases Finset.mem_insert.mp ha with rfl | ha
    · exact hk
    · exact h ha
  · exact h

theorem coherent_dropMark {K : Type} [DecidableEq K] {m} (h : m.Coherent) (k : K) : (dropMark m k).Coherent :=
  fun _ ha => h (Finset.mem_of_mem_erase ha)

theorem MarksCoherent.cacheEvent {S : Store} (h : S.MarksCoherent) (event : CacheEvent) :
    (S.cacheEvent event).MarksCoherent := by
  cases event with
  | fillQualifier key => exact { h with qualifier := coherent_fillMark h.qualifier key }
  | dropQualifier key => exact { h with qualifier := coherent_dropMark h.qualifier key }
  | fillRestriction key => exact { h with restricted := coherent_fillMark h.restricted key }
  | dropRestriction key => exact { h with restricted := coherent_dropMark h.restricted key }
  | fillGlobal name => exact { h with global := coherent_fillMark h.global name }
  | dropGlobal name => exact { h with global := coherent_dropMark h.global name }
  | _ => exact ⟨h.qualifier, h.restricted, h.global⟩

theorem MarksCoherent.flush {S : Store} (h : S.MarksCoherent) (c : CAssetsCache) : (S.flush c).MarksCoherent :=
  ⟨h.qualifier, h.restricted, h.global⟩

theorem MarksCoherent.dump {S : Store} (h : S.MarksCoherent) (E : Env) :
    (S.dumpCacheToDatabase E).MarksCoherent :=
  ⟨Pending.coherent_dumpMarks _ _ h.qualifier, Pending.coherent_dumpMarks _ _ h.restricted,
    Pending.coherent_dumpMarks _ _ h.global⟩

theorem Reachable.marksCoherent {E} {S : Store} (h : Reachable E S) : S.MarksCoherent := by
  induction h with
  | empty =>
    exact ⟨Finset.empty_subset _, Finset.empty_subset _, Finset.empty_subset _⟩
  | flush _ _ _ ih => exact ih.flush _
  | dump _ ih => exact ih.dump E
  | cacheEvent _ event ih => exact ih.cacheEvent event

end Store

end Hivecoin

import Hivecoin.Chain.Lemmas.BlockTree

/-!
# The candidates for the tip
-/

namespace Hivecoin

open List

variable {a t : CBlockIndex} {f : BlockStatus → BlockStatus} {p : CBlockIndex → Bool} {fuel : Nat} {l : List CBlockIndex}

namespace BlockTree

open CBlockIndex

variable {W : WorkRules} {n n' : BlockTree} {i y : CBlockIndex}

/-! ## Blocks and their data -/

/-- What the node knows of its blocks fits together. -/
structure Linked (n : BlockTree) : Prop where
  known : ∀ i, (n.status i).haveData = true → i ∈ n.index
  data : ∀ i, (n.status i).linked = true → (n.status i).haveData = true
  level : ∀ i, (n.status i).haveData = true → (n.status i).valid ≠ .TREE
  parent : ∀ p b, (n.status (next p b)).linked = true → (n.status p).linked = true
  child : ∀ p b, (n.status (next p b)).haveData = true → (n.status p).linked = true → (n.status (next p b)).linked = true
  waiting : ∀ p b, (n.status (next p b)).haveData = true → (n.status (next p b)).linked = false → (p, next p b) ∈ n.unlinked
  unlinked : ∀ q ∈ n.unlinked, (∃ b, q.2 = next q.1 b) ∧ (n.status q.2).haveData = true ∧ (n.status q.2).linked = false
  nodup : (n.unlinked.map Prod.snd).Nodup
  genesis : (n.status genesis).linked = true

theorem ancestors_linked (h : ∀ p b, (n.status (next p b)).linked = true → (n.status p).linked = true)
    (hi : (n.status i).linked = true) (ha : a ∈ i.ancestors) : (n.status a).linked = true := by
  induction i with
  | genesis => rwa [mem_ancestors_genesis.1 ha]
  | next p b ih =>
    rcases mem_ancestors_next.1 ha with rfl | ha
    · exact hi
    · exact ih (h p b hi) ha

theorem Linked.ancestors (h : Linked n) (hi : (n.status i).linked = true) (ha : a ∈ i.ancestors) :
    (n.status a).linked = true := ancestors_linked h.parent hi ha

theorem Linked.of_data (h : Linked n) (hdata : ∀ a ∈ i.ancestors, (n.status a).haveData = true) : (n.status i).linked = true := by
  induction i with
  | genesis => exact h.genesis
  | next p b ih =>
    exact h.child p b (hdata _ (self_mem_ancestors _)) (ih fun a ha => hdata a (mem_ancestors_next.2 (Or.inr ha)))

structure SameData (n n' : BlockTree) : Prop where
  index : n'.index = n.index
  unlinked : n'.unlinked = n.unlinked
  haveData : ∀ i, (n'.status i).haveData = (n.status i).haveData
  linked : ∀ i, (n'.status i).linked = (n.status i).linked
  sequence : ∀ i, (n'.status i).nSequenceId = (n.status i).nSequenceId
  level : ∀ i, (n.status i).valid ≠ .TREE → (n'.status i).valid ≠ .TREE

theorem SameData.trans {n''} (h : SameData n n') (h' : SameData n' n'') : SameData n n'' :=
  ⟨h'.index.trans h.index, h'.unlinked.trans h.unlinked, fun i => (h'.haveData i).trans (h.haveData i),
    fun i => (h'.linked i).trans (h.linked i), fun i => (h'.sequence i).trans (h.sequence i), fun i hi => h'.level i (h.level i hi)⟩

theorem SameData.of_eq (hindex : n'.index = n.index) (hunlinked : n'.unlinked = n.unlinked) (hstatus : n'.status = n.status) :
    SameData n n' :=
  ⟨hindex, hunlinked, fun i => by rw [hstatus], fun i => by rw [hstatus], fun i => by rw [hstatus], fun i h => by rwa [hstatus]⟩

theorem SameData.rank (h : SameData n n') (i : CBlockIndex) : n'.rank W i = n.rank W i := rank_congr (h.sequence i)

theorem Linked.of_agrees (h : Linked n) (hindex : ∀ i ∈ n.index, i ∈ n'.index) (hunlinked : n'.unlinked = n.unlinked)
    (hdata : ∀ i, (n'.status i).haveData = (n.status i).haveData) (hlinked : ∀ i, (n'.status i).linked = (n.status i).linked)
    (hlevel : ∀ i, (n.status i).haveData = true → (n.status i).valid ≠ .TREE → (n'.status i).valid ≠ .TREE) : Linked n' where
  known i hi := hindex i (h.known i (hdata i ▸ hi))
  data i hi := (hdata i).trans (h.data i (hlinked i ▸ hi))
  level i hi := hlevel i (hdata i ▸ hi) (h.level i (hdata i ▸ hi))
  parent p b hi := (hlinked p).trans (h.parent p b (hlinked _ ▸ hi))
  child p b hi hp := (hlinked _).trans (h.child p b (hdata _ ▸ hi) (hlinked p ▸ hp))
  waiting p b hi hp := hunlinked ▸ h.waiting p b (hdata _ ▸ hi) (hlinked _ ▸ hp)
  unlinked q hq := by
    obtain ⟨hchild, hhave, hnot⟩ := h.unlinked q (hunlinked ▸ hq)
    exact ⟨hchild, (hdata _).trans hhave, (hlinked _).trans hnot⟩
  nodup := hunlinked ▸ h.nodup
  genesis := (hlinked _).trans h.genesis

theorem SameData.keeps (h : SameData n n') (hlinked : Linked n) : Linked n' :=
  hlinked.of_agrees (fun _ hi => h.index ▸ hi) h.unlinked h.haveData h.linked fun i _ => h.level i

theorem sameData_erase (n : BlockTree) (p : CBlockIndex → Bool) : SameData n (n.erase p) := .of_eq rfl rfl rfl

theorem Linked.of_eq (h : Linked n) (hindex : n'.index = n.index) (hunlinked : n'.unlinked = n.unlinked) (hstatus : n'.status = n.status) :
    Linked n' :=
  (SameData.of_eq hindex hunlinked hstatus).keeps h

theorem sameData_mark (p : CBlockIndex → Bool)
    (hf : ∀ s, (f s).haveData = s.haveData ∧ (f s).linked = s.linked ∧ (f s).nSequenceId = s.nSequenceId ∧ (s.valid ≠ .TREE → (f s).valid ≠ .TREE)) : SameData n (n.mark p f) := by
  refine ⟨rfl, rfl, fun i => ?_, fun i => ?_, fun i => ?_, fun i hi => ?_⟩
  all_goals
    simp only [mark]
    split
  · exact (hf _).1
  · rfl
  · exact (hf _).2.1
  · rfl
  · exact (hf _).2.2.1
  · rfl
  · exact (hf _).2.2.2 hi
  · exact hi

/-! ## The candidates -/

/-- A chain that has been connected, with no failed block. -/
def Settled (n : BlockTree) (y : CBlockIndex) : Prop := ∀ a ∈ y.ancestors, n.failed a = false ∧ (n.status a).valid = .SCRIPTS

/-- A settled candidate is as good as this entry. -/
def Backed (W : WorkRules) (n : BlockTree) (i : CBlockIndex) : Prop := ∃ y ∈ n.candidates, Settled n y ∧ n.rank W i ≤ n.rank W y

/-- The candidates are enough to choose the tip. -/
structure Chosen (W : WorkRules) (n : BlockTree) : Prop where
  linked : ∀ c ∈ n.candidates, (n.status c).linked = true
  tip : Settled n n.tip
  tipLinked : (n.status n.tip).linked = true
  better : ∀ i, (n.status i).linked = true → n.failed i = false → n.rank W n.tip < n.rank W i → i ∈ n.candidates ∨ Backed W n i
  held : Backed W n n.tip
  failedBlocks : ∀ i ∈ n.failedBlocks, n.failed i = true ∧ i ∈ n.index

structure Sound (W : WorkRules) (n : BlockTree) : Prop where
  data : Linked n
  chosen : Chosen W n

theorem Chosen.lower (h : Chosen W n) (hdata : Linked n) (ht : t ∈ n.tip.ancestors) : Chosen W { n with tip := t } where
  linked := h.linked
  tip a ha := h.tip a (ancestors_trans ha ht)
  tipLinked := hdata.ancestors h.tipLinked ht
  better i hi hfailed _ := by
    rcases lt_or_ge (n.rank W n.tip) (n.rank W i) with hlt | hle
    · exact h.better i hi hfailed hlt
    · obtain ⟨y, hy, hsettled, hrank⟩ := h.held
      exact Or.inr ⟨y, hy, hsettled, hle.trans hrank⟩
  held := by
    obtain ⟨y, hy, hsettled, hrank⟩ := h.held
    exact ⟨y, hy, hsettled, (rank_le_of_mem_ancestors ht).trans hrank⟩
  failedBlocks := h.failedBlocks

/-- Entries are linked that were not, and become candidates where they are better. -/
theorem Chosen.of_agrees (h : Chosen W n) (hparent : ∀ p b, (n.status (next p b)).linked = true → (n.status p).linked = true)
    (hstatus : ∀ i, (n.status i).linked = true → n'.status i = n.status i) (htip : n'.tip = n.tip)
    (hkept : ∀ c ∈ n.candidates, c ∈ n'.candidates) (hadded : ∀ c ∈ n'.candidates, c ∈ n.candidates ∨ (n'.status c).linked = true)
    (hbetter : ∀ i, (n'.status i).linked = true → (n.status i).linked = false → n'.rank W n'.tip < n'.rank W i → i ∈ n'.candidates)
    (hfailedBlocks : ∀ i ∈ n'.failedBlocks, n'.failed i = true ∧ i ∈ n'.index) : Chosen W n' := by
  have hrank : ∀ i, (n.status i).linked = true → n'.rank W i = n.rank W i := fun i hi => rank_congr (by rw [hstatus i hi])
  have hfailed : ∀ i, (n.status i).linked = true → n'.failed i = n.failed i := fun i hi => by rw [failed, failed, hstatus i hi]
  have hsettled : ∀ y, (n.status y).linked = true → Settled n y → Settled n' y := by
    intro y hy hsettled a ha
    have hlink := ancestors_linked hparent hy ha
    rw [hfailed a hlink, hstatus a hlink]
    exact hsettled a ha
  have hbacked : ∀ i, (n.status i).linked = true → Backed W n i → Backed W n' i := by
    rintro i hi ⟨y, hy, hys, hle⟩
    have hlink := h.linked y hy
    exact ⟨y, hkept y hy, hsettled y hlink hys, by rwa [hrank i hi, hrank y hlink]⟩
  refine ⟨fun c hc => ?_, htip ▸ hsettled _ h.tipLinked h.tip, ?_, fun i hi hif hlt => ?_, htip ▸ hbacked _ h.tipLinked h.held, hfailedBlocks⟩
  · rcases hadded c hc with hc | hc
    · rw [hstatus c (h.linked c hc)]
      exact h.linked c hc
    · exact hc
  · rw [htip, hstatus _ h.tipLinked]
    exact h.tipLinked
  · cases hlink : (n.status i).linked with
    | false => exact Or.inl (hbetter i hi hlink hlt)
    | true =>
      rw [htip, hrank _ h.tipLinked, hrank i hlink] at hlt
      exact (h.better i hlink (hfailed i hlink ▸ hif) hlt).imp (hkept i) (hbacked i hlink)

/-- Entries are marked as failed, and only those leave the candidates. -/
structure Discards (n n' : BlockTree) : Prop where
  data : SameData n n'
  tip : n'.tip = n.tip
  settled : ∀ y, (n.status y).linked = true → Settled n y → Settled n' y
  flags : ∀ i, n'.failed i = false → n.failed i = false
  candidates : ∀ c ∈ n'.candidates, c ∈ n.candidates
  kept : ∀ c ∈ n.candidates, c ∈ n'.candidates ∨ n'.failed c = true
  failedBlocks : ∀ i ∈ n'.failedBlocks, n'.failed i = true ∧ i ∈ n.index

theorem Discards.chosen (h : Discards n n') (hchosen : Chosen W n) : Chosen W n' := by
  have hbacked : ∀ i, Backed W n i → Backed W n' i := by
    rintro i ⟨y, hy, hsettled, hrank⟩
    have hsettled' := h.settled y (hchosen.linked y hy) hsettled
    rcases h.kept y hy with hy | hfailed
    · exact ⟨y, hy, hsettled', by rwa [h.data.rank, h.data.rank]⟩
    · rw [(hsettled' y (self_mem_ancestors y)).1] at hfailed
      cases hfailed
  refine ⟨fun c hc => (h.data.linked c).trans (hchosen.linked c (h.candidates c hc)), h.tip ▸ h.settled _ hchosen.tipLinked hchosen.tip,
    ?_, fun i hi hfailed hlt => ?_, h.tip ▸ hbacked _ hchosen.held, fun i hi => ?_⟩
  · rw [h.tip, h.data.linked]
    exact hchosen.tipLinked
  · rw [h.tip, h.data.rank, h.data.rank] at hlt
    rcases hchosen.better i (h.data.linked i ▸ hi) (h.flags i hfailed) hlt with hi | hi
    · refine Or.inl ((h.kept i hi).resolve_right fun htrue => ?_)
      rw [hfailed] at htrue
      cases htrue
    · exact Or.inr (hbacked i hi)
  · rw [h.data.index]
    exact h.failedBlocks i hi

theorem Discards.sound (h : Discards n n') (hsound : Sound W n) : Sound W n' :=
  ⟨h.data.keeps hsound.data, h.chosen hsound.chosen⟩

theorem failed_mark : (n.mark p f).failed i = if p i then (f (n.status i)).failed else n.failed i := by
  simp only [failed, mark]
  split <;> rfl

structure Fails (f : BlockStatus → BlockStatus) : Prop where
  failed : ∀ s, (f s).failed = true
  haveData : ∀ s, (f s).haveData = s.haveData
  linked : ∀ s, (f s).linked = s.linked
  sequence : ∀ s, (f s).nSequenceId = s.nSequenceId
  valid : ∀ s, (f s).valid = s.valid

theorem fails_child : Fails fun s => { s with failedChild := true } :=
  ⟨fun _ => Bool.or_true _, fun _ => rfl, fun _ => rfl, fun _ => rfl, fun _ => rfl⟩

theorem fails_valid : Fails fun s => { s with failedValid := true } :=
  ⟨fun _ => Bool.true_or _, fun _ => rfl, fun _ => rfl, fun _ => rfl, fun _ => rfl⟩

theorem sameData_fails (hf : Fails f) : SameData n (n.mark p f) :=
  sameData_mark p fun s => ⟨hf.haveData s, hf.linked s, hf.sequence s, fun h => (hf.valid s).symm ▸ h⟩

theorem failed_mark_of_failed (hf : Fails f) (h : p i = true ∨ n.failed i = true) : (n.mark p f).failed i = true := by
  rw [failed_mark]
  split
  · exact hf.failed _
  · rename_i hpi
    exact h.resolve_left hpi

theorem Settled.mark_off (hy : Settled n y) (hp : ∀ a ∈ y.ancestors, p a = false) : Settled (n.mark p f) y := by
  intro a ha
  refine ⟨?_, ?_⟩
  · rw [failed_mark, hp a ha]
    exact (hy a ha).1
  · simp only [BlockTree.mark, hp a ha]
    exact (hy a ha).2

def Unsettled (n : BlockTree) (a : CBlockIndex) : Prop :=
  ∃ b ∈ a.ancestors, n.failed b = true ∨ (n.status b).valid ≠ .SCRIPTS ∨ (n.status b).linked = false

theorem Settled.mark (hy : Settled n y) (hdata : Linked n) (hlinked : (n.status y).linked = true)
    (hp : ∀ a, p a = true → Unsettled n a) : Settled (n.mark p f) y := by
  refine hy.mark_off fun a ha => ?_
  by_contra htrue
  obtain ⟨b, hb, hbad⟩ := hp a (Bool.not_eq_false _ ▸ htrue)
  have hmem := ancestors_trans hb ha
  rcases hbad with hfailed | hvalid | hlink
  · rw [(hy b hmem).1] at hfailed
    cases hfailed
  · exact hvalid (hy b hmem).2
  · rw [hdata.ancestors hlinked hmem] at hlink
    cases hlink

theorem discards_mark {q fb} (hf : Fails f) (hdata : Linked n)
    (hp : ∀ a, p a = true → Unsettled n a) (hq : ∀ c, q c = true → p c = true ∨ n.failed c = true)
    (hfb : ∀ i ∈ fb, (p i = true ∨ n.failed i = true) ∧ i ∈ n.index) :
    Discards n { (n.mark p f).erase q with failedBlocks := fb } := by
  have hfailed : ∀ i, p i = true ∨ n.failed i = true → (n.mark p f).failed i = true := fun i => failed_mark_of_failed hf
  refine ⟨?_, rfl, fun y hlinked hy => hy.mark hdata hlinked hp, fun i hi => ?_, fun c hc => (mem_filter.1 hc).1, fun c hc => ?_,
    fun i hi => ⟨hfailed i (hfb i hi).1, (hfb i hi).2⟩⟩
  · exact (sameData_fails hf).trans (.of_eq rfl rfl rfl)
  · by_contra htrue
    have hfail := hfailed i (Or.inr (Bool.not_eq_false _ ▸ htrue))
    rw [show (n.mark p f).failed i = false from hi] at hfail
    cases hfail
  · cases hqc : q c with
    | true => exact Or.inr (hfailed c (hq c hqc))
    | false => exact Or.inl (mem_filter.2 ⟨hc, by rw [hqc]; rfl⟩)

theorem discards_mark_only (hf : Fails f) (hsound : Sound W n) (hp : ∀ a, p a = true → Unsettled n a) : Discards n (n.mark p f) := by
  have hdiscards : Discards n { (n.mark p f).erase (fun _ => false) with failedBlocks := n.failedBlocks } :=
    discards_mark hf hsound.data hp nofun fun i hi => (hsound.chosen.failedBlocks i hi).imp_left Or.inr
  have herase : (n.mark p f).erase (fun _ => false) = n.mark p f := by simp [erase]
  rw [herase] at hdiscards
  exact hdiscards

/-- What `FindMostWorkChain` finds: no candidate is better, and its chain can be used. -/
structure Target (W : WorkRules) (n : BlockTree) (m : CBlockIndex) : Prop where
  linked : (n.status m).linked = true
  usable : ∀ a ∈ m.ancestors, n.failed a = false
  best : ∀ c ∈ n.candidates, n.rank W c ≤ n.rank W m

theorem contains_iff : n.contains i = true ↔ i ∈ n.tip.ancestors := contains_iff_mem

theorem mem_takeWhile_or_contains (ha : a ∈ i.ancestors) :
    (a ∈ i.ancestors.takeWhile fun j => !n.contains j) ∨ a ∈ n.tip.ancestors := by
  induction i with
  | genesis =>
    rw [mem_ancestors_genesis.1 ha]
    exact Or.inr (genesis_mem_ancestors _)
  | next p b ih =>
    rw [CBlockIndex.ancestors, takeWhile_cons]
    split
    · rcases mem_ancestors_next.1 ha with rfl | ha
      · exact Or.inl mem_cons_self
      · exact (ih ha).imp_left (mem_cons_of_mem _)
    · rename_i hcontains
      have htip := contains_iff.1 (by simpa using hcontains)
      exact Or.inr (ancestors_trans ha htip)

theorem findUnusable_none (hsettled : Settled n n.tip) (h : n.findUnusable i = none) (ha : a ∈ i.ancestors) :
    n.failed a = false := by
  rcases mem_takeWhile_or_contains (n := n) ha with hmem | hmem
  · have hnot := List.find?_eq_none.1 h a hmem
    simp only [Bool.or_eq_true, not_or, Bool.not_eq_true] at hnot
    exact hnot.1
  · exact (hsettled a hmem).1

theorem discardChain_discards (hsound : Sound W n) {pindexNew pindexTest} (hnew : pindexNew ∈ n.candidates)
    (h : n.findUnusable pindexNew = some pindexTest) : Discards n (n.discardChain pindexNew pindexTest) := by
  have hmem : pindexTest ∈ pindexNew.ancestors := takeWhile_subset _ (mem_of_find?_eq_some h)
  have hbad := List.find?_some h
  have hfailed : n.failed pindexTest = true := by
    have hdata := hsound.data.data _ (hsound.data.ancestors (hsound.chosen.linked _ hnew) hmem)
    simpa [missingData, hdata] using hbad
  have hpath : ∀ a, (pindexNew.downTo pindexTest).contains a = true → pindexTest ∈ a.ancestors :=
    fun a ha => stop_mem_ancestors hmem (contains_iff_mem.1 ha)
  rw [discardChain, if_pos hfailed]
  refine discards_mark fails_child hsound.data (fun a ha => ⟨pindexTest, hpath a ha, Or.inl hfailed⟩) (fun c hc => ?_)
    fun i hi => (hsound.chosen.failedBlocks i hi).imp_left Or.inr
  simp only [Outcome.test_iff] at hc
  rcases hc with hc | rfl
  · exact Or.inl hc
  · exact Or.inr hfailed

theorem searchCandidates_sound {most} (hsound : Sound W n)
    (h : searchCandidates W fuel n = some (n', most)) : Sound W n' ∧ ∃ m, most = some m ∧ Target W n' m := by
  induction fuel generalizing n with
  | zero => cases h
  | succ fuel ih =>
    rw [searchCandidates] at h
    split at h
    · rename_i hlast
      obtain ⟨y, hy, -⟩ := hsound.chosen.held
      rw [lastCandidate_eq_none hlast] at hy
      cases hy
    · rename_i pindexNew hlast
      obtain ⟨hmem, hbest⟩ := lastCandidate_spec hlast
      split at h
      · rename_i husable
        cases h
        exact ⟨hsound, pindexNew, rfl, hsound.chosen.linked _ hmem, fun a ha => findUnusable_none hsound.chosen.tip husable ha, hbest⟩
      · rename_i pindexTest hunusable
        exact ih ((discardChain_discards hsound hmem hunusable).sound hsound) h

theorem searchCandidates_returns (h : n.candidates.length < fuel) : (searchCandidates W fuel n).isSome = true := by
  induction fuel generalizing n with
  | zero => cases h
  | succ fuel ih =>
    rw [searchCandidates]
    split
    · rfl
    rename_i pindexNew hlast
    split
    · rfl
    rename_i pindexTest hunusable
    refine ih (Nat.lt_of_lt_of_le ?_ (Nat.le_of_lt_succ h))
    have hmem : pindexTest ∈ pindexNew.ancestors := takeWhile_subset _ (mem_of_find?_eq_some hunusable)
    have hout : ((pindexNew.downTo pindexTest).contains pindexNew || pindexNew == pindexTest) = true := by
      rw [Bool.or_eq_true, contains_iff_mem, beq_iff_eq]
      by_cases heq : pindexNew = pindexTest
      · exact Or.inr heq
      · exact Or.inl (self_mem_downTo heq)
    have hcandidates : (n.discardChain pindexNew pindexTest).candidates =
        n.candidates.filter fun i => !((pindexNew.downTo pindexTest).contains i || i == pindexTest) := by
      unfold discardChain
      simp only
      split <;> rfl
    rw [hcandidates]
    exact length_filter_lt_length_iff_exists.2 ⟨pindexNew, (lastCandidate_spec hlast).1, by rw [hout]; exact Bool.false_ne_true⟩

/-! ## ActivateBestChain -/

variable {o : Outcomes} {m : CBlockIndex}

/-- A block that has been connected once can be connected again. -/
def Reconnects (o : Outcomes) : Prop := ∀ (n : BlockTree) (i : CBlockIndex), (n.status i).valid = .SCRIPTS → o.connects n i = true

theorem disconnectTo_spec {stop} (hstop : stop ∈ t.ancestors) :
    (n.disconnectTo o stop t).2 ∈ t.ancestors ∧ ((n.disconnectTo o stop t).1 = true → (n.disconnectTo o stop t).2 = stop) := by
  induction t with
  | genesis => exact ⟨self_mem_ancestors _, fun _ => (mem_ancestors_genesis.1 hstop).symm⟩
  | next p b ih =>
    rw [disconnectTo]
    split
    · rename_i heq
      exact ⟨self_mem_ancestors _, fun _ => heq⟩
    split
    · rename_i hne _
      obtain ⟨hmem, hreached⟩ := ih ((mem_ancestors_next.1 hstop).resolve_left fun heq => hne heq.symm)
      exact ⟨mem_ancestors_next.2 (Or.inr hmem), hreached⟩
    · exact ⟨self_mem_ancestors _, nofun⟩

theorem findFork_spec (m : CBlockIndex) : n.findFork m ∈ m.ancestors ∧ n.findFork m ∈ n.tip.ancestors := by
  unfold findFork
  cases hfind : m.ancestors.find? n.contains with
  | none => exact ⟨genesis_mem_ancestors _, genesis_mem_ancestors _⟩
  | some fork => exact ⟨mem_of_find?_eq_some hfind, contains_iff.1 (List.find?_some hfind)⟩

/-- The entries of a list lead from one entry up to another. -/
inductive Climbs : CBlockIndex → List CBlockIndex → CBlockIndex → Prop
  | nil (t : CBlockIndex) : Climbs t [] t
  | cons {t m : CBlockIndex} {b l} (h : Climbs (next t b) l m) : Climbs t (next t b :: l) m

theorem Climbs.concat {p} (h : Climbs t l p) (b : CBlock) : Climbs t (l ++ [next p b]) (next p b) := by
  induction h with
  | nil t => exact .cons (.nil _)
  | cons h ih => exact .cons ih

theorem climbs_downTo {stop} (h : stop ∈ m.ancestors) : Climbs stop (m.downTo stop).reverse m := by
  induction m with
  | genesis =>
    rw [mem_ancestors_genesis.1 h]
    exact .nil _
  | next p b ih =>
    rw [downTo, CBlockIndex.ancestors, takeWhile_cons]
    split
    · rename_i hne
      rw [reverse_cons]
      refine (ih ((mem_ancestors_next.1 h).resolve_left fun heq => ?_)).concat b
      simp [heq] at hne
    · rename_i heq
      rw [show stop = next p b by simpa using Eq.symm (not_not.1 (by simpa using heq))]
      exact .nil _

theorem Climbs.mem (h : Climbs t l m) : t ∈ m.ancestors := by
  induction h with
  | nil t => exact self_mem_ancestors t
  | cons h ih => exact ancestors_trans pprev_mem_ancestors ih

theorem raiseValidity_spec {s : BlockStatus} (h : s.failed = false) :
    (s.raiseValidity .SCRIPTS).valid = .SCRIPTS ∧ (s.raiseValidity .SCRIPTS).failed = false := by
  obtain ⟨valid, haveData, failedValid, failedChild, linked, seq⟩ := s
  simp only [BlockStatus.raiseValidity, h, Outcome.test_iff]
  cases valid with
  | SCRIPTS => exact ⟨rfl, h⟩
  | TREE => exact ⟨rfl, h⟩
  | TRANSACTIONS => exact ⟨rfl, h⟩

theorem sameData_connected (n : BlockTree) (i : CBlockIndex) : SameData n (n.connected i) := by
  refine (sameData_mark (· == i) (f := fun s => s.raiseValidity .SCRIPTS) fun s => ?_).trans (.of_eq rfl rfl rfl)
  unfold BlockStatus.raiseValidity
  split
  · exact ⟨rfl, rfl, rfl, fun h => h⟩
  split
  · exact ⟨rfl, rfl, rfl, nofun⟩
  · exact ⟨rfl, rfl, rfl, fun h => h⟩

theorem connected_status (hi : n.failed i = false) :
    (n.connected i).failed a = n.failed a ∧ (a = i ∨ (n.status a).valid = .SCRIPTS → ((n.connected i).status a).valid = .SCRIPTS) := by
  by_cases heq : a = i
  · subst heq
    have hspec := raiseValidity_spec (s := n.status a) hi
    have hstatus : (n.connected a).status a = (n.status a).raiseValidity .SCRIPTS := by simp [connected, mark]
    rw [failed, hstatus, hspec.2]
    exact ⟨hi.symm, fun _ => hspec.1⟩
  · have hstatus : (n.connected i).status a = n.status a := by simp [connected, mark, heq]
    rw [failed, hstatus]
    exact ⟨rfl, fun h => h.resolve_left heq⟩

theorem connected_sound (hsound : Sound W n) {b} (hi : i = next n.tip b) (hlinked : (n.status i).linked = true)
    (hfailed : n.failed i = false) : Sound W ((n.connected i).pruneBlockIndexCandidates W) := by
  have hsame := sameData_connected n i
  have hsettled : ∀ y, Settled n y → Settled (n.connected i) y := fun y hy a ha =>
    ⟨(connected_status hfailed).1.trans (hy a ha).1, (connected_status hfailed).2 (Or.inr (hy a ha).2)⟩
  have htip : Settled (n.connected i) i := by
    intro a ha
    subst hi
    rcases mem_ancestors_next.1 ha with rfl | ha
    · exact ⟨(connected_status hfailed).1.trans hfailed, (connected_status hfailed).2 (Or.inl rfl)⟩
    · exact hsettled _ hsound.chosen.tip a ha
  have hlt : n.rank W n.tip < n.rank W i := by
    rw [hi]
    exact rank_pprev_lt _ _
  -- a candidate stays when it is not worse than the new tip
  have hkept : ∀ c ∈ n.candidates, n.rank W i ≤ n.rank W c → c ∈ ((n.connected i).pruneBlockIndexCandidates W).candidates := by
    intro c hc hrank
    refine mem_filter.2 ⟨hc, ?_⟩
    rw [Bool.not_eq_true', comparator_false_iff, hsame.rank, hsame.rank]
    exact hrank
  have hbacked : ∀ x, n.rank W i ≤ n.rank W x → Backed W n x → Backed W ((n.connected i).pruneBlockIndexCandidates W) x := by
    rintro x hix ⟨y, hy, hys, hrank⟩
    refine ⟨y, hkept y hy (hix.trans hrank), hsettled y hys, ?_⟩
    exact (hsame.rank x).le.trans (hrank.trans (hsame.rank y).ge)
  refine ⟨(hsame.trans (sameData_erase _ _)).keeps hsound.data, ?_, htip, (hsame.linked i).trans hlinked, ?_, ?_, ?_⟩
  · exact fun c hc => (hsame.linked c).trans (hsound.chosen.linked c (mem_filter.1 hc).1)
  · intro x hx hxf hrank
    have hix : n.rank W i < n.rank W x := by
      rw [← hsame.rank, ← hsame.rank]
      exact hrank
    rcases hsound.chosen.better x ((hsame.linked x).symm.trans hx) ((connected_status hfailed).1.symm.trans hxf) (hlt.trans hix) with hx | hx
    · exact Or.inl (hkept x hx hix.le)
    · exact Or.inr (hbacked x hix.le hx)
  · rcases hsound.chosen.better i hlinked hfailed hlt with hmem | hmem
    · exact ⟨i, hkept i hmem le_rfl, htip, le_rfl⟩
    · exact hbacked i le_rfl hmem
  · intro x hx
    obtain ⟨hxf, hindex⟩ := hsound.chosen.failedBlocks x hx
    exact ⟨(connected_status hfailed).1.trans hxf, hsame.index ▸ hindex⟩

theorem invalidBlockFound_discards (hsound : Sound W n) (hlinked : (n.status i).linked = true) (hvalid : (n.status i).valid ≠ .SCRIPTS) :
    Discards n (n.invalidBlockFound i) := by
  refine discards_mark fails_valid hsound.data (fun a ha => ?_) (fun c hc => Or.inl hc) fun j hj => ?_
  · rw [beq_iff_eq] at ha
    exact ⟨i, ha ▸ self_mem_ancestors a, Or.inr (Or.inl hvalid)⟩
  · rcases mem_cons.1 hj with rfl | hj
    · exact ⟨Or.inl (beq_self_eq_true _), hsound.data.known _ (hsound.data.data _ hlinked)⟩
    · exact (hsound.chosen.failedBlocks j hj).imp_left Or.inr

theorem connectBlocks_sound (ho : Reconnects o) (pindexOldTip : CBlockIndex) (hsound : Sound W n) (htarget : Target W n m)
    (hl : Climbs n.tip l m) :
    Sound W (connectBlocks W o pindexOldTip l n).2 ∧
      ((connectBlocks W o pindexOldTip l n).1 = false → Target W (connectBlocks W o pindexOldTip l n).2 m) := by
  induction l generalizing n with
  | nil => exact ⟨hsound, fun _ => htarget⟩
  | cons i l ih =>
    generalize ht : n.tip = t at hl
    cases hl with
    | cons hl =>
      rename_i b
      have hmem := hl.mem
      have hlinked := hsound.data.ancestors htarget.linked hmem
      have hfailed := htarget.usable _ hmem
      rw [connectBlocks]
      split
      · have hsound' := connected_sound hsound (by rw [ht]) hlinked hfailed
        have htarget' : Target W ((n.connected (next t b)).pruneBlockIndexCandidates W) m := by
          have hsame := sameData_connected n (next t b)
          refine ⟨(hsame.linked m).trans htarget.linked, fun a ha => (connected_status hfailed).1.trans (htarget.usable a ha), fun c hc => ?_⟩
          exact (hsame.rank c).le.trans ((htarget.best c (mem_filter.1 hc).1).trans (hsame.rank m).ge)
        simp only
        split
        · exact ⟨hsound', fun _ => htarget'⟩
        · exact ih hsound' htarget' hl
      · rename_i hrejected
        have hvalid : (n.status (next t b)).valid ≠ .SCRIPTS := fun hvalid => hrejected (ho n _ hvalid)
        exact ⟨(invalidBlockFound_discards hsound hlinked hvalid).sound hsound, nofun⟩

theorem activateBestChainStep_sound (ho : Reconnects o) (hsound : Sound W n) (htarget : Target W n m) :
    Sound W (n.activateBestChainStep W o m).tree ∧ ((n.activateBestChainStep W o m).ret = true →
      (n.activateBestChainStep W o m).fInvalidFound = false → Target W (n.activateBestChainStep W o m).tree m) := by
  obtain ⟨hfork, hactive⟩ := findFork_spec (n := n) m
  obtain ⟨hmem, hreached⟩ := disconnectTo_spec (n := n) (o := o) hactive
  unfold activateBestChainStep
  generalize hdisconnect : n.disconnectTo o (n.findFork m) n.tip = r at hmem hreached
  obtain ⟨done, tip⟩ := r
  have hlower : Sound W { n with tip } :=
    ⟨hsound.data.of_eq rfl rfl rfl,
      hsound.chosen.lower hsound.data hmem⟩
  cases done with
  | false =>
    simp only [hdisconnect]
    exact ⟨hlower, nofun⟩
  | true =>
    simp only [hdisconnect]
    have htip : n.findFork m = tip := (hreached rfl).symm
    have htarget' : Target W { n with tip } m := ⟨htarget.linked, htarget.usable, htarget.best⟩
    have hclimb : Climbs tip (m.downTo (n.findFork m)).reverse m := by
      have hclimb := climbs_downTo hfork
      rwa [htip] at hclimb ⊢
    obtain ⟨hsound', htarget''⟩ := connectBlocks_sound ho n.tip hlower htarget' hclimb
    exact ⟨hsound', fun _ => htarget''⟩

/-- No entry whose chain has data and no failed block has more work than the tip. -/
def MostWork (W : WorkRules) (n : BlockTree) : Prop :=
  ∀ i ∈ n.index, (∀ a ∈ i.ancestors, (n.status a).haveData = true ∧ n.failed a = false) → nChainWork W i ≤ nChainWork W n.tip

theorem mostWork_of_target (hsound : Sound W n) (htarget : Target W n n.tip) : MostWork W n := by
  intro i _ hi
  by_contra hwork
  have hlinked := hsound.data.of_data fun a ha => (hi a ha).1
  have hlt : n.rank W n.tip < n.rank W i := rank_lt_of_work (not_le.1 hwork)
  rcases hsound.chosen.better i hlinked (hi i (self_mem_ancestors i)).2 hlt with hmem | ⟨y, hy, -, hrank⟩
  · exact absurd (htarget.best i hmem) (not_le.2 hlt)
  · exact absurd (hrank.trans (htarget.best y hy)) (not_le.2 hlt)

/-- `ActivateBestChain` leads from a sound node to a sound one, and to the most work if true. -/
theorem activateBestChain_sound (ho : Reconnects o) {cached ret} (hsound : Sound W n)
    (hcached : ∀ m, cached = some m → Target W n m) (h : activateBestChain W o fuel cached n = some (ret, n')) :
    Sound W n' ∧ (ret = true → MostWork W n') := by
  induction fuel generalizing n cached with
  | zero => cases h
  | succ fuel ih =>
    simp only [activateBestChain, Option.bind_eq_bind, Option.bind_eq_some_iff] at h
    obtain ⟨⟨n1, most⟩, hfound, h⟩ := h
    have hfound : Sound W n1 ∧ ∃ m, most = some m ∧ Target W n1 m := by
      cases cached with
      | some m =>
        cases hfound
        exact ⟨hsound, m, rfl, hcached m rfl⟩
      | none => exact searchCandidates_sound hsound hfound
    obtain ⟨hsound1, m, rfl, htarget⟩ := hfound
    simp only at h
    split at h
    · rename_i htip
      cases h
      exact ⟨hsound1, fun _ => mostWork_of_target hsound1 (htip ▸ htarget)⟩
    obtain ⟨hsound2, htarget2⟩ := activateBestChainStep_sound ho hsound1 htarget
    generalize n1.activateBestChainStep W o m = r at h hsound2 htarget2
    split at h
    · rename_i hret
      cases h
      exact ⟨hsound2, nofun⟩
    rename_i hret
    have hmost : ∀ x, (if r.fInvalidFound then none else some m) = some x → Target W r.tree x := by
      intro x hx
      split at hx
      · cases hx
      · rename_i hvalid
        cases hx
        exact htarget2 (by simpa using hret) (by simpa using hvalid)
    generalize (if r.fInvalidFound then none else some m) = most at h hmost
    split at h
    · rename_i htip
      cases h
      exact ⟨hsound2, fun _ => mostWork_of_target hsound2 (hmost _ htip)⟩
    · exact ih hsound2 hmost h

end BlockTree

end Hivecoin

import Hivecoin.Chain.Lemmas.Candidates
import Hivecoin.Chain.Reward

/-!
# The active chain has the most work

The candidates stay sufficient to choose the tip, under conditions on arriving blocks and on resets of flags.
-/

namespace Hivecoin

open List BlockStatus

variable {above : List CBlockIndex} {p : CBlockIndex} {b : CBlock}

namespace BlockTree

open CBlockIndex

variable {W : WorkRules} {o : Outcomes} {n n' : BlockTree} {i y : CBlockIndex}

theorem foldl_insertCandidate (l : List CBlockIndex) (n : BlockTree) :
    ∃ cs, l.foldl insertCandidate n = { n with candidates := cs } ∧ ∀ c, c ∈ cs ↔ c ∈ n.candidates ∨ c ∈ l := by
  induction l generalizing n with
  | nil => exact ⟨n.candidates, rfl, fun c => by simp⟩
  | cons i l ih =>
    obtain ⟨cs, heq, hcs⟩ := ih (n.insertCandidate i)
    rw [foldl_cons, heq]
    unfold insertCandidate at hcs ⊢
    split
    · rename_i hmem
      rw [if_pos hmem] at hcs
      refine ⟨cs, rfl, fun c => ?_⟩
      rw [hcs, mem_cons]
      have hi : i ∈ n.candidates := contains_iff_mem.1 hmem
      constructor
      · exact Or.imp_right Or.inr
      · rintro (h | rfl | h)
        · exact Or.inl h
        · exact Or.inl hi
        · exact Or.inr h
    · rename_i hmem
      rw [if_neg hmem] at hcs
      refine ⟨cs, rfl, fun c => ?_⟩
      rw [hcs, mem_cons, mem_append, mem_singleton, or_assoc]

theorem isValid_transactions (hdata : Linked n) (hi : (n.status i).linked = true) (hfailed : n.failed i = false) :
    (n.status i).isValid .TRANSACTIONS = true := by
  have hlevel := hdata.level i (hdata.data i hi)
  unfold isValid
  rw [show (n.status i).failed = false from hfailed]
  cases hvalid : (n.status i).valid with
  | TREE => exact absurd hvalid hlevel
  | TRANSACTIONS => rfl
  | SCRIPTS => rfl

/-- The candidates are enough after all entries not worse than the tip are put back. -/
theorem reinsertCandidates_sound (hdata : Linked n) (hlinked : ∀ c ∈ n.candidates, (n.status c).linked = true)
    (htip : Settled n n.tip) (htipLinked : (n.status n.tip).linked = true)
    (hfailedBlocks : ∀ i ∈ n.failedBlocks, n.failed i = true ∧ i ∈ n.index) : Sound W (n.reinsertCandidates W) := by
  obtain ⟨cs, heq, hcs⟩ := foldl_insertCandidate
    (n.index.filter fun i => (n.status i).isValid .TRANSACTIONS && (n.status i).linked && !n.comparator W i n.tip) n
  have hmem : ∀ i, (n.status i).linked = true → n.failed i = false → n.rank W n.tip ≤ n.rank W i → i ∈ cs := by
    intro i hi hfailed hrank
    refine (hcs i).2 (Or.inr (mem_filter.2 ⟨hdata.known i (hdata.data i hi), ?_⟩))
    rw [isValid_transactions hdata hi hfailed, hi, comparator_false_iff.2 hrank]
    rfl
  rw [reinsertCandidates, heq]
  refine ⟨hdata.of_eq rfl rfl rfl, fun c hc => ?_, htip, htipLinked,
    fun i hi hfailed hlt => Or.inl (hmem i hi hfailed hlt.le), ?_, hfailedBlocks⟩
  · rcases (hcs c).1 hc with hc | hc
    · exact hlinked c hc
    · have hcond := (mem_filter.1 hc).2
      simp only [Bool.and_eq_true] at hcond
      exact hcond.1.2
  · exact ⟨n.tip, hmem n.tip htipLinked (htip _ (self_mem_ancestors _)).1 le_rfl, htip, le_rfl⟩

theorem not_mem_ancestors_pprev (p : CBlockIndex) (b : CBlock) (W : WorkRules) : next p b ∉ p.ancestors :=
  fun h => absurd (nChainWork_le (W := W) h) (not_le.2 (nChainWork_lt_next p b))

theorem pprev_ne_next (p : CBlockIndex) (b : CBlock) (W : WorkRules) : p ≠ next p b := by
  intro heq
  apply not_mem_ancestors_pprev p b W
  rw [← heq]
  exact self_mem_ancestors p

theorem sameData_failBlocks (n : BlockTree) (above : List CBlockIndex) (i : CBlockIndex) : SameData n (n.failBlocks above i) :=
  ((sameData_fails fails_child).trans (sameData_erase _ _)).trans ((sameData_fails fails_valid).trans (.of_eq rfl rfl rfl))

theorem failBlocks_failed {a} (h : a = i ∨ n.failed a = true) : (n.failBlocks above i).failed a = true := by
  have hmarked : a = i ∨ ((n.mark above.contains fun s => { s with failedChild := true }).erase above.contains).failed a = true :=
    h.imp_right fun h => failed_mark_of_failed fails_child (Or.inr h)
  exact failed_mark_of_failed (p := (· == i)) fails_valid (hmarked.imp_left beq_iff_eq.2)

theorem Settled.failBlocks (hy : Settled n y) (habove : ∀ a ∈ above, i ∈ a.ancestors) (hi : i ∉ y.ancestors) :
    Settled (n.failBlocks above i) y := by
  have hoff : ∀ a ∈ y.ancestors, i ∉ a.ancestors := fun a ha hin => hi (ancestors_trans hin ha)
  have hchild : Settled (n.mark above.contains fun s => { s with failedChild := true }) y := hy.mark_off fun a ha =>
    Bool.eq_false_iff.2 fun hin => hoff a ha (habove a (contains_iff_mem.1 hin))
  refine Settled.mark_off (n := (n.mark above.contains fun s => { s with failedChild := true }).erase above.contains)
    (p := (· == i)) (f := fun s => { s with failedValid := true }) hchild fun a ha => Bool.eq_false_iff.2 fun hin => hoff a ha ?_
  rw [beq_iff_eq.1 hin]
  exact self_mem_ancestors i

theorem failBlocks_reinsert_sound (hsound : Sound W n) (habove : ∀ a ∈ above, i ∈ a.ancestors) (hindex : i ∈ n.index)
    (hi : i ∉ n.tip.ancestors) : Sound W ((n.failBlocks above i).reinsertCandidates W) := by
  have hsame := sameData_failBlocks n above i
  refine reinsertCandidates_sound (hsame.keeps hsound.data) (fun c hc => ?_) (hsound.chosen.tip.failBlocks habove hi)
    ((hsame.linked _).trans hsound.chosen.tipLinked) fun j hj => ?_
  · exact (hsame.linked c).trans (hsound.chosen.linked c (mem_of_mem_filter (mem_of_mem_filter hc)))
  · rcases mem_cons.1 hj with rfl | hj
    · exact ⟨failBlocks_failed (Or.inl rfl), hindex⟩
    · obtain ⟨hfailed, hknown⟩ := hsound.chosen.failedBlocks j hj
      exact ⟨failBlocks_failed (Or.inr hfailed), hknown⟩

theorem invalidateBlock_sound (hsound : Sound W n) (hindex : next p b ∈ n.index) :
    Sound W (n.invalidateBlock W o p b) := by
  -- where the tip is after the disconnections
  have hreached : ∀ r, (if n.contains (next p b) then n.disconnectTo o p n.tip else (true, n.tip)) = r →
      r.2 ∈ n.tip.ancestors ∧ (r.1 = true → next p b ∉ r.2.ancestors) := by
    rintro r rfl
    split
    · rename_i hcontains
      have hp := ancestors_trans pprev_mem_ancestors (contains_iff.1 hcontains)
      obtain ⟨hmem, hstop⟩ := disconnectTo_spec (n := n) (o := o) hp
      exact ⟨hmem, fun hdone => by rw [hstop hdone]; exact not_mem_ancestors_pprev p b W⟩
    · rename_i hcontains
      exact ⟨self_mem_ancestors _, fun _ hmem => hcontains (contains_iff.2 hmem)⟩
  unfold invalidateBlock
  simp only
  generalize hr : (if n.contains (next p b) then n.disconnectTo o p n.tip else (true, n.tip)) = r
  obtain ⟨hmem, hnot⟩ := hreached r hr
  obtain ⟨done, tip⟩ := r
  have hlower : Sound W { n with tip } := ⟨hsound.data.of_eq rfl rfl rfl, hsound.chosen.lower hsound.data hmem⟩
  cases done with
  | false => exact hlower
  | true =>
    refine failBlocks_reinsert_sound hlower (fun a ha => ?_) hindex (hnot rfl)
    split at ha
    · rename_i hcontains
      exact stop_mem_ancestors (contains_iff.1 hcontains) ha
    · cases ha

/-- The ancestors of an entry are not failed. -/
def Unobstructed (n : BlockTree) (i : CBlockIndex) : Prop := ∀ a ∈ i.ancestors, a ≠ i → n.failed a = false

theorem sameData_clear (p : CBlockIndex → Bool) : SameData n (n.mark p clearFailed) :=
  sameData_mark p fun _ => ⟨rfl, rfl, rfl, fun h => h⟩

theorem Settled.clear (hy : Settled n y) (p : CBlockIndex → Bool) : Settled (n.mark p clearFailed) y := by
  intro a ha
  rw [failed_mark]
  simp only [BlockTree.mark]
  split
  · exact ⟨rfl, (hy a ha).2⟩
  · exact hy a ha

theorem failed_clear {p a} : (n.mark p clearFailed).failed a = (!p a && n.failed a) := by
  rw [failed_mark]
  cases p a with
  | true => rfl
  | false => rfl

theorem resets_of_failed (hfailed : n.failed y = true) (hindex : y ∈ n.index) (hmem : i ∈ y.ancestors) : n.resets i y = true := by
  simp only [resets, Outcome.test_iff, contains_iff_mem, isValid]
  refine ⟨⟨hindex, ?_⟩, hmem⟩
  rw [show (n.status y).failed = true from hfailed]
  rfl

theorem resetBlockFailureFlags_sound (hsound : Sound W n) (hclear : Unobstructed n i) :
    Sound W (n.resetBlockFailureFlags W i) := by
  have hsame1 : SameData n (n.mark (n.resets i) clearFailed) := sameData_clear _
  have hdata1 := hsame1.keeps hsound.data
  obtain ⟨cs, heq, hcs⟩ := foldl_insertCandidate (n.index.filter fun j => n.resets i j &&
    ((n.mark (n.resets i) clearFailed).status j).isValid .TRANSACTIONS &&
    ((n.mark (n.resets i) clearFailed).status j).linked &&
    (n.mark (n.resets i) clearFailed).comparator W (n.mark (n.resets i) clearFailed).tip j)
    (n.mark (n.resets i) clearFailed)
  unfold resetBlockFailureFlags
  simp only
  rw [heq]
  generalize hn1 : n.mark (n.resets i) clearFailed = n1 at *
  have hfailed1 : ∀ a, n1.failed a = (!n.resets i a && n.failed a) := fun a => hn1 ▸ failed_clear
  have hsettled1 : ∀ y, Settled n y → Settled n1 y := fun y hy => hn1 ▸ hy.clear _
  have htip1 : n1.tip = n.tip := hn1 ▸ rfl
  have hcandidates1 : n1.candidates = n.candidates := hn1 ▸ rfl
  have hfailedBlocks1 : n1.failedBlocks = n.failedBlocks := hn1 ▸ rfl
  generalize hfb : n1.failedBlocks.filter (fun j => !n.resets i j) = fb
  have hmiddle : SameData n1 { n1 with candidates := cs, failedBlocks := fb } := .of_eq rfl rfl rfl
  have hsame : SameData n ({ n1 with candidates := cs, failedBlocks := fb }.mark i.ancestors.contains clearFailed) :=
    (hsame1.trans hmiddle).trans (sameData_clear _)
  have hsettled : ∀ y, Settled n y →
      Settled ({ n1 with candidates := cs, failedBlocks := fb }.mark i.ancestors.contains clearFailed) y :=
    fun y hy => Settled.clear (n := { n1 with candidates := cs, failedBlocks := fb }) (hsettled1 y hy) _
  have hbacked : ∀ x, Backed W n x →
      Backed W ({ n1 with candidates := cs, failedBlocks := fb }.mark i.ancestors.contains clearFailed) x := by
    rintro x ⟨y, hy, hys, hrank⟩
    exact ⟨y, (hcs y).2 (Or.inl (hcandidates1 ▸ hy)), hsettled y hys, by rwa [hsame.rank, hsame.rank]⟩
  -- a failed entry is only cleared by the first loop
  have hstays : ∀ a, n.failed a = true → a ∈ n.index → n.resets i a = false →
      ({ n1 with candidates := cs, failedBlocks := fb }.mark i.ancestors.contains clearFailed).failed a = true := by
    intro a hfailed hknown hkept
    have hnot : i.ancestors.contains a = false := by
      rw [Bool.eq_false_iff, ne_eq, contains_iff_mem]
      intro hmem
      by_cases hai : a = i
      · rw [resets_of_failed hfailed hknown (hai ▸ self_mem_ancestors a)] at hkept
        cases hkept
      · rw [hclear a hmem hai] at hfailed
        cases hfailed
    rw [failed_clear, hnot]
    exact (hfailed1 a).trans (by rw [hkept, hfailed]; rfl)
  refine ⟨hsame.keeps hsound.data, fun c hc => (hsame.linked c).trans ?_, ?_, ?_, fun x hx hxf hlt => ?_, ?_, fun j hj => ?_⟩
  · rcases (hcs c).1 hc with hc | hc
    · exact hsound.chosen.linked c (hcandidates1 ▸ hc)
    · have hcond := (mem_filter.1 hc).2
      simp only [Bool.and_eq_true] at hcond
      exact (hsame1.linked c).symm.trans hcond.1.2
  · exact hsettled _ (htip1 ▸ hsound.chosen.tip)
  · exact (hsame.linked _).trans (htip1 ▸ hsound.chosen.tipLinked)
  · rw [hsame.rank, hsame.rank] at hlt
    rw [hsame.linked] at hx
    have htip : n.rank W n.tip < n.rank W x := htip1 ▸ hlt
    cases hfailed : n.failed x with
    | false => exact (hsound.chosen.better x hx hfailed htip).imp (fun hmem => (hcs x).2 (Or.inl (hcandidates1 ▸ hmem))) (hbacked x)
    | true =>
      have hknown := hsound.data.known x (hsound.data.data x hx)
      have hreset : n.resets i x = true := by
        by_contra hkept
        rw [hstays x hfailed hknown (Bool.not_eq_true _ ▸ hkept)] at hxf
        cases hxf
      have hvalid := isValid_transactions hdata1 ((hsame1.linked x).trans hx) (by rw [hfailed1, hreset]; rfl)
      refine Or.inl ((hcs x).2 (Or.inr (mem_filter.2 ⟨hknown, ?_⟩)))
      rw [hreset, hvalid, (hsame1.linked x).trans hx, comparator_iff.2 (by rwa [hsame1.rank, hsame1.rank, htip1])]
      rfl
  · exact htip1 ▸ hbacked _ hsound.chosen.held
  · rw [← hfb, hfailedBlocks1] at hj
    obtain ⟨hj, hkept⟩ := mem_filter.1 hj
    obtain ⟨hfailed, hknown⟩ := hsound.chosen.failedBlocks j hj
    exact ⟨hstays j hfailed hknown (by simpa using hkept), hsame.index ▸ hknown⟩

theorem acceptBlockHeader_sound (hsound : Sound W n) (p : CBlockIndex) (b : CBlock) : Sound W (n.acceptBlockHeader p b) := by
  unfold acceptBlockHeader
  simp only
  split
  · exact hsound
  rename_i hnew
  rw [Bool.or_eq_true, Bool.or_eq_true, not_or, not_or, contains_iff_mem] at hnew
  split
  · rename_i failedit hfind
    have hfind : n.failedBlocks.find? p.ancestors.contains = some failedit := by
      split at hfind
      · cases hfind
      · exact hfind
    have hmem : failedit ∈ p.ancestors := contains_iff_mem.1 (List.find?_some hfind)
    have hfailed := (hsound.chosen.failedBlocks _ (mem_of_find?_eq_some hfind)).1
    exact (discards_mark_only fails_child hsound
      fun a ha => ⟨failedit, stop_mem_ancestors hmem (contains_iff_mem.1 ha), Or.inl hfailed⟩).sound hsound
  · have hnodata : (n.status (next p b)).haveData = false := Bool.eq_false_iff.2 fun h => hnew.1.1 (hsound.data.known _ h)
    have hunlinked : (n.status (next p b)).linked = false :=
      Bool.eq_false_iff.2 fun h => hnew.1.1 (hsound.data.known _ (hsound.data.data _ h))
    have hother : ∀ i, i ≠ next p b → (if i = next p b then ({} : BlockStatus) else n.status i) = n.status i := fun i hi => if_neg hi
    refine ⟨hsound.data.of_agrees (fun i hi => mem_append_left _ hi) rfl (fun i => ?_) (fun i => ?_) fun i hi hvalid => ?_,
      hsound.chosen.of_agrees hsound.data.parent (fun i hi => hother i ?_) rfl (fun _ hc => hc) (fun _ hc => Or.inl hc)
        (fun i hi hnot => ?_) fun i hi => ?_⟩
    · by_cases heq : i = next p b
      · simp [heq, hnodata]
      · exact congrArg BlockStatus.haveData (hother i heq)
    · by_cases heq : i = next p b
      · simp [heq, hunlinked]
      · exact congrArg BlockStatus.linked (hother i heq)
    · have hne : i ≠ next p b := by
        rintro rfl
        rw [hnodata] at hi
        cases hi
      exact (congrArg BlockStatus.valid (hother i hne)).trans_ne hvalid
    · rintro rfl
      rw [hunlinked] at hi
      cases hi
    · by_cases heq : i = next p b
      · simp [heq] at hi
      · rw [← hother i heq, show (if i = next p b then _ else _ : BlockStatus).linked = true from hi] at hnot
        cases hnot
    · obtain ⟨hfailed, hknown⟩ := hsound.chosen.failedBlocks i hi
      have hne : i ≠ next p b := fun heq => hnew.1.1 (heq ▸ hknown)
      exact ⟨(congrArg BlockStatus.failed (hother i hne)).trans hfailed, mem_append_left _ hknown⟩

theorem rejectBlockData_sound (hsound : Sound W n) (hnodata : (n.status i).haveData = false) : Sound W (n.rejectBlockData i) := by
  refine (discards_mark_only fails_valid hsound fun a ha => ⟨i, ?_, Or.inr (Or.inr ?_)⟩).sound hsound
  · exact beq_iff_eq.1 ha ▸ self_mem_ancestors a
  · exact Bool.eq_false_iff.2 fun h => by rw [hsound.data.data i h] at hnodata; cases hnodata

/-- The node while a queue of blocks waits to be linked. -/
structure Linking (queue : List CBlockIndex) (n : BlockTree) : Prop where
  known : ∀ i, (n.status i).haveData = true → i ∈ n.index
  data : ∀ i, (n.status i).linked = true → (n.status i).haveData = true
  level : ∀ i, (n.status i).haveData = true → (n.status i).valid ≠ .TREE
  parent : ∀ p b, (n.status (next p b)).linked = true → (n.status p).linked = true
  child : ∀ p b, (n.status (next p b)).haveData = true → (n.status p).linked = true →
    (n.status (next p b)).linked = true ∨ next p b ∈ queue
  waiting : ∀ p b, (n.status (next p b)).haveData = true → (n.status (next p b)).linked = false →
    (p, next p b) ∈ n.unlinked ∨ next p b ∈ queue
  unlinked : ∀ q ∈ n.unlinked, (∃ b, q.2 = next q.1 b) ∧ (n.status q.2).haveData = true ∧ (n.status q.2).linked = false
  queued : ∀ i ∈ queue, ∃ p b, i = next p b ∧ (n.status i).haveData = true ∧ (n.status i).linked = false ∧ (n.status p).linked = true
  nodup : (queue ++ n.unlinked.map Prod.snd).Nodup
  genesis : (n.status genesis).linked = true

theorem Linking.linked (h : Linking [] n) : Linked n where
  known := h.known
  data := h.data
  level := h.level
  parent := h.parent
  child p b hi hp := (h.child p b hi hp).resolve_right not_mem_nil
  waiting p b hi hp := (h.waiting p b hi hp).resolve_right not_mem_nil
  unlinked := h.unlinked
  nodup := h.nodup
  genesis := h.genesis

theorem insertCandidate_eq (n : BlockTree) (i : CBlockIndex) :
    ∃ cs, n.insertCandidate i = { n with candidates := cs } ∧ ∀ c, c ∈ cs ↔ c ∈ n.candidates ∨ c = i := by
  obtain ⟨cs, heq, hcs⟩ := foldl_insertCandidate [i] n
  exact ⟨cs, heq, fun c => by rw [hcs, mem_singleton]⟩

theorem linkBlock_eq (W : WorkRules) (n : BlockTree) (i : CBlockIndex) :
    ∃ n1 cs, n.linkBlock W i = { n1 with candidates := cs } ∧
      n1 = { n.mark (· == i) (fun s => { s with linked := true, nSequenceId := n.nBlockSequenceId }) with
        nBlockSequenceId := n.nBlockSequenceId + 1 } ∧
      (∀ c ∈ n.candidates, c ∈ cs) ∧ (∀ c ∈ cs, c ∈ n.candidates ∨ c = i) ∧ (n1.rank W n.tip < n1.rank W i → i ∈ cs) := by
  unfold linkBlock
  simp only
  split
  · rename_i hworse
    exact ⟨_, n.candidates, rfl, rfl, fun _ hc => hc, fun _ hc => Or.inl hc, fun hlt => absurd (comparator_iff.1 hworse) hlt.asymm⟩
  · obtain ⟨cs, heq, hcs⟩ := insertCandidate_eq
      { n.mark (· == i) (fun s => { s with linked := true, nSequenceId := n.nBlockSequenceId }) with
        nBlockSequenceId := n.nBlockSequenceId + 1 } i
    exact ⟨_, cs, heq, rfl, fun c hc => (hcs c).2 (Or.inl hc), fun c hc => (hcs c).1 hc, fun _ => (hcs i).2 (Or.inr rfl)⟩

structure Links (i : CBlockIndex) (n n' : BlockTree) : Prop where
  index : n'.index = n.index
  unlinked : n'.unlinked = n.unlinked
  other : ∀ a, a ≠ i → n'.status a = n.status a
  haveData : ∀ a, (n'.status a).haveData = (n.status a).haveData
  valid : ∀ a, (n'.status a).valid = (n.status a).valid
  linked : (n'.status i).linked = true

theorem linkBlock_links (W : WorkRules) (n : BlockTree) (i : CBlockIndex) : Links i n (n.linkBlock W i) := by
  obtain ⟨n1, cs, heq, rfl, -⟩ := linkBlock_eq W n i
  rw [heq]
  refine ⟨rfl, rfl, fun a ha => ?_, fun a => ?_, fun a => ?_, ?_⟩
  · simp [mark, ha]
  · simp only [mark]
    split <;> rfl
  · simp only [mark]
    split <;> rfl
  · simp [mark]

theorem linkBlock_chosen (hchosen : Chosen W n) (hparent : ∀ p b, (n.status (next p b)).linked = true → (n.status p).linked = true)
    (hi : (n.status i).linked = false) : Chosen W (n.linkBlock W i) := by
  have hlinks := linkBlock_links W n i
  obtain ⟨n1, cs, heq, hn1, hkept, hadded, hbetter⟩ := linkBlock_eq W n i
  have hne : ∀ a, (n.status a).linked = true → a ≠ i := by
    rintro a ha rfl
    rw [hi] at ha
    cases ha
  have htip : (n.linkBlock W i).tip = n.tip := by rw [heq, hn1]; rfl
  have hcandidates : (n.linkBlock W i).candidates = cs := by rw [heq]
  refine hchosen.of_agrees hparent (fun a ha => hlinks.other a (hne a ha)) htip (fun c hc => hcandidates ▸ hkept c hc)
    (fun c hc => (hadded c (hcandidates ▸ hc)).imp_right fun (h : c = i) => h ▸ hlinks.linked) (fun a ha hnot hlt => ?_) fun a ha => ?_
  · by_cases hai : a = i
    · subst hai
      rw [hcandidates]
      refine hbetter ?_
      rw [htip, heq] at hlt
      exact hlt
    · rw [hlinks.other a hai, hnot] at ha
      cases ha
  · have hfailedBlocks : (n.linkBlock W i).failedBlocks = n.failedBlocks := by rw [heq, hn1]; rfl
    obtain ⟨hfailed, hknown⟩ := hchosen.failedBlocks a (hfailedBlocks ▸ ha)
    refine ⟨?_, hlinks.index ▸ hknown⟩
    rw [heq, hn1]
    refine Eq.trans ?_ hfailed
    simp only [failed, mark]
    split <;> rfl

theorem Linking.step {queue} (h : Linking (i :: queue) n) (hlinks : Links i n n') :
    Linking (queue ++ (n'.unlinked.filter fun q => q.1 == i).map Prod.snd)
      { n' with unlinked := n'.unlinked.filter fun q => !(q.1 == i) } := by
  obtain ⟨pi, bi, hpi, hidata, hinot, hpilinked⟩ := h.queued i mem_cons_self
  have hnodup := nodup_cons.1 h.nodup
  have hnotqueue : ∀ j ∈ queue, j ≠ i := fun j hj heq => hnodup.1 (mem_append_left _ (heq ▸ hj))
  have hnotwaiting : ∀ q ∈ n.unlinked, q.2 ≠ i :=
    fun q hq heq => hnodup.1 (mem_append_right _ (heq ▸ mem_map_of_mem hq))
  have hmono : ∀ a, (n.status a).linked = true → (n'.status a).linked = true := by
    intro a ha
    by_cases hai : a = i
    · exact hai ▸ hlinks.linked
    · rwa [hlinks.other a hai]
  have hback : ∀ a, a ≠ i → (n'.status a).linked = true → (n.status a).linked = true :=
    fun a hai ha => by rwa [hlinks.other a hai] at ha
  have hunlinked := hlinks.unlinked
  have hjoins : ∀ p b, p = i → next p b ≠ i → (p, next p b) ∈ n.unlinked ∨ next p b ∈ i :: queue →
      next p b ∈ queue ++ (n'.unlinked.filter fun q => q.1 == i).map Prod.snd := by
    rintro p b hpi hai (hwait | hqueue)
    · exact mem_append_right _ (mem_map.2 ⟨_, mem_filter.2 ⟨hunlinked ▸ hwait, beq_iff_eq.2 hpi⟩, rfl⟩)
    · exact mem_append_left _ ((mem_cons.1 hqueue).resolve_left hai)
  refine ⟨fun a ha => ?_, fun a ha => ?_, fun a ha => ?_, fun p b ha => ?_, fun p b ha hp => ?_, fun p b ha hnot => ?_, fun q hq => ?_,
    fun j hj => ?_, ?_, hmono _ h.genesis⟩
  · exact hlinks.index ▸ h.known a (hlinks.haveData a ▸ ha)
  · rw [hlinks.haveData]
    by_cases hai : a = i
    · exact hai ▸ hidata
    · exact h.data a (hback a hai ha)
  · rw [hlinks.valid]
    exact h.level a (hlinks.haveData a ▸ ha)
  · by_cases hai : next p b = i
    · have heq := hai.trans hpi
      injection heq with hp _
      exact hmono p (hp ▸ hpilinked)
    · exact hmono p (h.parent p b (hback _ hai ha))
  · rw [hlinks.haveData] at ha
    by_cases hai : next p b = i
    · exact Or.inl (hai ▸ hlinks.linked)
    by_cases hpi : p = i
    · cases hlinked : (n.status (next p b)).linked with
      | true => exact Or.inl (hmono _ hlinked)
      | false => exact Or.inr (hjoins p b hpi hai (h.waiting p b ha hlinked))
    · rcases h.child p b ha (hback p hpi hp) with hlinked | hqueue
      · exact Or.inl (hmono _ hlinked)
      · exact Or.inr (mem_append_left _ ((mem_cons.1 hqueue).resolve_left hai))
  · have hai : next p b ≠ i := by
      rintro hai
      rw [show (n'.status (next p b)).linked = true from hai ▸ hlinks.linked] at hnot
      cases hnot
    rw [hlinks.haveData] at ha
    have hwait := h.waiting p b ha (by rwa [hlinks.other _ hai] at hnot)
    by_cases hpi : p = i
    · exact Or.inr (hjoins p b hpi hai hwait)
    · rcases hwait with hwait | hqueue
      · exact Or.inl (mem_filter.2 ⟨hunlinked ▸ hwait, by simpa using hpi⟩)
      · exact Or.inr (mem_append_left _ ((mem_cons.1 hqueue).resolve_left hai))
  · have hq := hunlinked ▸ (mem_filter.1 hq).1
    obtain ⟨hchild, hdata, hnot⟩ := h.unlinked q hq
    refine ⟨hchild, (hlinks.haveData _).trans hdata, ?_⟩
    rw [hlinks.other _ (hnotwaiting q hq)]
    exact hnot
  · rcases mem_append.1 hj with hj | hj
    · obtain ⟨p, b, hpb, hdata, hnot, hplinked⟩ := h.queued j (mem_cons_of_mem _ hj)
      refine ⟨p, b, hpb, (hlinks.haveData _).trans hdata, ?_, hmono p hplinked⟩
      rw [hlinks.other _ (hnotqueue j hj)]
      exact hnot
    · obtain ⟨q, hq, rfl⟩ := mem_map.1 hj
      obtain ⟨hq, hqi⟩ := mem_filter.1 hq
      have hq := hunlinked ▸ hq
      obtain ⟨⟨b, hqb⟩, hdata, hnot⟩ := h.unlinked q hq
      refine ⟨q.1, b, hqb, (hlinks.haveData _).trans hdata, ?_, beq_iff_eq.1 hqi ▸ hlinks.linked⟩
      rw [hlinks.other _ (hnotwaiting q hq)]
      exact hnot
  · rw [append_assoc, ← map_append, hunlinked]
    exact (((filter_append_perm _ n.unlinked).map Prod.snd).append_left queue).nodup_iff.2 hnodup.2

/-- The queue is empty in the end: each block is linked at most once. -/
theorem linkBlocks_sound {fuel queue} (h : Linking queue n) (hchosen : Chosen W n)
    (hfuel : queue.length + n.unlinked.length ≤ fuel) : Sound W (linkBlocks W fuel queue n) := by
  induction fuel generalizing queue n with
  | zero =>
    have hqueue : queue = [] := eq_nil_of_length_eq_zero (by omega)
    exact ⟨(hqueue ▸ h).linked, hchosen⟩
  | succ fuel ih =>
    cases queue with
    | nil => exact ⟨h.linked, hchosen⟩
    | cons i queue =>
      have hlinks := linkBlock_links W n i
      obtain ⟨-, -, -, -, hnot, -⟩ := h.queued i mem_cons_self
      refine ih (h.step hlinks) ?_ ?_
      · obtain ⟨hcandidates, htip, htipLinked, hbetter, hheld, hfailedBlocks⟩ := linkBlock_chosen hchosen h.parent hnot
        exact ⟨hcandidates, htip, htipLinked, hbetter, hheld, hfailedBlocks⟩
      · have hlength := ((filter_append_perm (fun q => q.1 == i) n.unlinked)).length_eq
        rw [length_append] at hlength
        rw [length_cons] at hfuel
        simp only [hlinks.unlinked, length_append, length_map]
        omega

/-- A block without its parent's data waits for it, unless the parent is marked as failed. -/
def Arrives (n : BlockTree) (p : CBlockIndex) : Prop := (n.status p).linked = true ∨ n.failed p = false

structure Stored (x : CBlockIndex) (n n' : BlockTree) : Prop where
  index : n'.index = n.index
  tip : n'.tip = n.tip
  candidates : n'.candidates = n.candidates
  failedBlocks : n'.failedBlocks = n.failedBlocks
  other : ∀ a, a ≠ x → n'.status a = n.status a
  haveData : (n'.status x).haveData = true
  linked : (n'.status x).linked = false
  level : (n'.status x).valid ≠ .TREE

theorem stored_mark (hfailed : n.failed i = false) :
    Stored i n (n.mark (· == i) fun s => { s with haveData := true, linked := false }.raiseValidity .TRANSACTIONS) := by
  have hraised : ∀ s : BlockStatus, s.failed = false → (s.raiseValidity .TRANSACTIONS).haveData = s.haveData ∧
      (s.raiseValidity .TRANSACTIONS).linked = s.linked ∧ (s.raiseValidity .TRANSACTIONS).valid ≠ .TREE := by
    rintro ⟨valid, haveData, failedValid, failedChild, linked, nSequenceId⟩ hs
    cases valid <;> simp [raiseValidity, hs, ValidityLevel.toNat]
  have hself := hraised { n.status i with haveData := true, linked := false } hfailed
  refine ⟨rfl, rfl, rfl, rfl, fun a ha => by simp [mark, ha], ?_, ?_, ?_⟩
  all_goals simp only [mark, beq_self_eq_true, if_true]
  · exact hself.1
  · exact hself.2.1
  · exact hself.2.2

theorem Stored.chosen {x} (h : Stored x n n') (hsound : Sound W n) (hnodata : (n.status x).haveData = false) (hx : x ∈ n.index)
    (hfailed : n.failed x = false) : Chosen W n' := by
  have hne : ∀ a, (n.status a).linked = true → a ≠ x := by
    rintro a ha rfl
    rw [hsound.data.data a ha] at hnodata
    cases hnodata
  refine hsound.chosen.of_agrees hsound.data.parent (fun a ha => h.other a (hne a ha)) h.tip (fun c hc => h.candidates ▸ hc)
    (fun c hc => Or.inl (h.candidates ▸ hc)) (fun a ha hnot => ?_) fun a ha => ?_
  · by_cases hax : a = x
    · rw [hax, h.linked] at ha
      cases ha
    · rw [h.other a hax, hnot] at ha
      cases ha
  · obtain ⟨hfail, hknown⟩ := hsound.chosen.failedBlocks a (h.failedBlocks ▸ ha)
    have hax : a ≠ x := by
      rintro rfl
      rw [hfailed] at hfail
      cases hfail
    exact ⟨by rwa [failed, h.other a hax], h.index ▸ hknown⟩

theorem Stored.linking (h : Stored (next p b) n n') (hdata : Linked n) (hx : next p b ∈ n.index)
    (hnodata : (n.status (next p b)).haveData = false) (queue : List CBlockIndex)
    (hqueue : ∀ j ∈ queue, j = next p b ∧ (n.status p).linked = true) (hlinks : (n.status p).linked = true → next p b ∈ queue)
    (hwaits : (p, next p b) ∈ n'.unlinked ∨ next p b ∈ queue) (hkept : ∀ q ∈ n.unlinked, q ∈ n'.unlinked)
    (hadded : ∀ q ∈ n'.unlinked, q ∈ n.unlinked ∨ q = (p, next p b)) (hnodup : (queue ++ n'.unlinked.map Prod.snd).Nodup) :
    Linking queue n' := by
  have hnotlinked : (n.status (next p b)).linked = false :=
    Bool.eq_false_iff.2 fun hl => by rw [hdata.data _ hl] at hnodata; cases hnodata
  have hne : ∀ a, (n.status a).linked = true → a ≠ next p b := by
    rintro a ha rfl
    rw [hnotlinked] at ha
    cases ha
  have hmono : ∀ a, (n.status a).linked = true → (n'.status a).linked = true := fun a ha => by rwa [h.other a (hne a ha)]
  have hback : ∀ a, (n'.status a).linked = true → a ≠ next p b ∧ (n.status a).linked = true := by
    intro a ha
    by_cases hax : a = next p b
    · rw [hax, h.linked] at ha
      cases ha
    · exact ⟨hax, by rwa [h.other a hax] at ha⟩
  refine ⟨fun a ha => ?_, fun a ha => ?_, fun a ha => ?_, fun q c ha => ?_, fun q c ha hq => ?_, fun q c ha hnot => ?_, fun q hq => ?_,
    fun j hj => ?_, hnodup, hmono _ hdata.genesis⟩
  · rw [h.index]
    by_cases hax : a = next p b
    · exact hax ▸ hx
    · exact hdata.known a (by rwa [h.other a hax] at ha)
  · obtain ⟨hax, hlinked⟩ := hback a ha
    rw [h.other a hax]
    exact hdata.data a hlinked
  · by_cases hax : a = next p b
    · exact hax ▸ h.level
    · rw [h.other a hax] at ha ⊢
      exact hdata.level a ha
  · exact hmono q (hdata.parent q c (hback _ ha).2)
  · by_cases hax : next q c = next p b
    · injection hax with hqp hcb
      exact Or.inr (hqp ▸ hcb ▸ hlinks (hqp ▸ (hback q hq).2))
    · rw [h.other _ hax] at ha ⊢
      exact Or.inl (hdata.child q c ha (hback q hq).2)
  · by_cases hax : next q c = next p b
    · injection hax with hqp hcb
      exact hqp ▸ hcb ▸ hwaits
    · rw [h.other _ hax] at ha hnot
      exact Or.inl (hkept _ (hdata.waiting q c ha hnot))
  · rcases hadded q hq with hq | rfl
    · obtain ⟨hchild, hhave, hnot⟩ := hdata.unlinked q hq
      have hax : q.2 ≠ next p b := by
        intro hax
        rw [hax, hnodata] at hhave
        cases hhave
      rw [h.other _ hax]
      exact ⟨hchild, hhave, hnot⟩
    · exact ⟨⟨b, rfl⟩, h.haveData, h.linked⟩
  · obtain ⟨rfl, hp⟩ := hqueue j hj
    exact ⟨p, b, rfl, h.haveData, h.linked, hmono p hp⟩

theorem receivedBlockTransactions_sound (hsound : Sound W n) (hindex : next p b ∈ n.index)
    (hnodata : (n.status (next p b)).haveData = false) (hfailed : n.failed (next p b) = false) (harrives : Arrives n p) :
    Sound W (n.receivedBlockTransactions W p b) := by
  have hstored := stored_mark hfailed
  have hunlinked : (n.mark (· == next p b) fun s => { s with haveData := true, linked := false }.raiseValidity .TRANSACTIONS).unlinked =
    n.unlinked := rfl
  unfold receivedBlockTransactions
  simp only
  generalize (n.mark (· == next p b) fun s => { s with haveData := true, linked := false }.raiseValidity .TRANSACTIONS) = n1
    at hstored hunlinked ⊢
  have hchosen := hstored.chosen hsound hnodata hindex hfailed
  have hp : n1.status p = n.status p := hstored.other p (pprev_ne_next p b W)
  have hfresh : next p b ∉ n.unlinked.map Prod.snd := by
    intro hmem
    obtain ⟨q, hq, heq⟩ := mem_map.1 hmem
    rw [← heq, (hsound.data.unlinked q hq).2.1] at hnodata
    cases hnodata
  rw [hp]
  split
  · rename_i hlinked
    refine linkBlocks_sound (hstored.linking hsound.data hindex hnodata _ (fun j hj => ⟨mem_singleton.1 hj, hlinked⟩)
      (fun _ => mem_singleton_self _) (Or.inr (mem_singleton_self _)) (fun q hq => hunlinked ▸ hq)
      (fun q hq => Or.inl (hunlinked ▸ hq)) ?_) hchosen ?_
    · rw [hunlinked]
      exact nodup_cons.2 ⟨hfresh, hsound.data.nodup⟩
    · rw [length_singleton, Nat.add_comm]
  · rename_i hnot
    have hvalid : (n.status p).isValid .TREE = true := by
      have hok := harrives.resolve_left hnot
      unfold isValid
      rw [show (n.status p).failed = false from hok]
      cases (n.status p).valid <;> rfl
    rw [if_pos hvalid]
    have hstored' : Stored (next p b) n { n1 with unlinked := n1.unlinked ++ [(p, next p b)] } :=
      ⟨hstored.index, hstored.tip, hstored.candidates, hstored.failedBlocks, hstored.other, hstored.haveData, hstored.linked, hstored.level⟩
    refine ⟨(hstored'.linking hsound.data hindex hnodata [] nofun (fun hl => absurd hl hnot)
      (Or.inl (mem_append_right _ (mem_singleton_self _))) (fun q hq => mem_append_left _ (hunlinked ▸ hq))
      (fun q hq => ?_) ?_).linked, hstored'.chosen hsound hnodata hindex hfailed⟩
    · rcases mem_append.1 hq with hq | hq
      · exact Or.inl (hunlinked ▸ hq)
      · exact Or.inr (mem_singleton.1 hq)
    · simp only [nil_append, hunlinked, map_append, map_cons, map_nil]
      exact nodup_append.2 ⟨hsound.data.nodup, nodup_singleton _, fun a ha c hc hac =>
        hfresh (mem_singleton.1 hc ▸ hac ▸ ha)⟩

theorem acceptBlockHeader_parent (W : WorkRules) (hindex : next p b ∈ (n.acceptBlockHeader p b).index) :
    (n.acceptBlockHeader p b).status p = n.status p := by
  unfold acceptBlockHeader at hindex ⊢
  simp only at hindex ⊢
  split at hindex
  · rename_i hold
    rw [if_pos hold]
  rename_i hnew
  rw [if_neg hnew]
  split at hindex
  · rw [Bool.or_eq_true, Bool.or_eq_true, not_or, not_or, contains_iff_mem] at hnew
    exact absurd hindex hnew.1.1
  · exact if_neg (pprev_ne_next p b W)

theorem acceptBlock_sound (hsound : Sound W n) (verdict : BlockVerdict) (harrives : verdict = .valid → Arrives n p) : Sound W (n.acceptBlock W verdict p b) := by
  have hheader := acceptBlockHeader_sound hsound p b
  unfold acceptBlock
  simp only
  split
  · exact hheader
  rename_i hknown
  rw [Bool.or_eq_true, not_or, Bool.not_eq_true, Bool.not_eq_true, Bool.not_eq_false', contains_iff_mem] at hknown
  split
  · exact hheader
  rename_i hnodata
  have hnodata := Bool.not_eq_true _ ▸ hnodata
  cases verdict with
  | valid =>
    have hparent := acceptBlockHeader_parent W hknown.1
    refine receivedBlockTransactions_sound hheader hknown.1 hnodata hknown.2 ?_
    rw [Arrives, failed, hparent]
    exact harrives rfl
  | invalid => exact rejectBlockData_sound hheader hnodata
  | leftAside => exact hheader

theorem initial_sound : Sound W initial := by
  have hgenesis : ∀ i, (initial.status i).haveData = true ∨ (initial.status i).linked = true → i = .genesis := by
    intro i hi
    by_contra hne
    simp [initial, hne] at hi
  have hsettled : Settled initial .genesis := fun a ha => by
    rw [mem_ancestors_genesis.1 ha]
    exact ⟨rfl, rfl⟩
  refine ⟨⟨fun i hi => ?_, fun i hi => ?_, fun i hi => ?_, fun p b hi => ?_, fun p b hi => ?_, fun p b hi => ?_, nofun, nodup_nil, rfl⟩,
    ⟨fun c hc => ?_, hsettled, rfl, fun i hi _ hlt => ?_, ⟨.genesis, mem_singleton_self _, hsettled, le_rfl⟩, nofun⟩⟩
  · exact hgenesis i (Or.inl hi) ▸ mem_singleton_self _
  · rw [hgenesis i (Or.inr hi)]
    rfl
  · rw [hgenesis i (Or.inl hi)]
    exact nofun
  · cases hgenesis _ (Or.inr hi)
  · cases hgenesis _ (Or.inl hi)
  · cases hgenesis _ (Or.inl hi)
  · rw [mem_singleton.1 hc]
    rfl
  · rw [hgenesis i (Or.inr hi)] at hlt
    exact absurd hlt (lt_irrefl _)

/-- What a history is asked to keep to, at each call. -/
def Regular (n : BlockTree) : Event → Prop
  | .block .valid p _ => Arrives n p
  | .reset i => Unobstructed n i
  | .activate o _ => Reconnects o
  | _ => True

theorem apply_sound (hsound : Sound W n) {e} (hregular : Regular n e) (h : n.apply W e = some n') : Sound W n' := by
  cases e with
  | header p b =>
    cases h
    exact acceptBlockHeader_sound hsound p b
  | block verdict p b =>
    cases h
    refine acceptBlock_sound hsound verdict ?_
    rintro rfl
    exact hregular
  | invalidate o i =>
    cases i with
    | genesis =>
      cases h
      exact ⟨hsound.data.of_eq rfl rfl rfl, hsound.chosen.lower hsound.data (disconnectTo_spec (genesis_mem_ancestors _)).1⟩
    | next p b =>
      cases h
      split
      · rename_i hindex
        exact invalidateBlock_sound hsound (contains_iff_mem.1 hindex)
      · exact hsound
  | reset i =>
    cases h
    split
    · exact resetBlockFailureFlags_sound hsound hregular
    · exact hsound
  | activate o fuel =>
    obtain ⟨⟨ret, n'⟩, hactivate, rfl⟩ := Option.map_eq_some_iff.1 h
    refine (activateBestChain_sound hregular hsound (fun m hm => ?_) hactivate).1
    cases hm

theorem History.sound (h : History W Regular n) : Sound W n := by
  induction h with
  | initial => exact initial_sound
  | event _ hregular happly ih => exact apply_sound ih hregular happly

/-- In a regular history the tip has the most work when `ActivateBestChain` returns true. -/
theorem tip_has_most_work {fuel : Nat} (h : History W Regular n) (ho : Reconnects o)
    (hactivate : n.activateBestChain W o fuel none = some (true, n')) : MostWork W n' := by
  refine (activateBestChain_sound ho h.sound (fun m hm => ?_) hactivate).2 rfl
  cases hm

theorem History.of_events {es : List Event} (h : es.foldlM (apply W) n = some n') (hn : History W (fun _ _ => True) n) :
    History W (fun _ _ => True) n' := by
  induction es generalizing n with
  | nil =>
    cases h
    exact hn
  | cons e es ih =>
    obtain ⟨n1, happly, hrest⟩ := Outcome.foldlM_cons_some.mp h
    exact ih hrest (.event hn trivial happly)

def overtakenBy (W : WorkRules) (n : BlockTree) (i : CBlockIndex) : Bool :=
  n.index.contains i && (i.ancestors.all fun a => (n.status a).haveData && !n.failed a) && decide (nChainWork W n.tip < nChainWork W i)

theorem not_mostWork_of_overtaken (h : n.overtakenBy W i = true) : ¬ MostWork W n := by
  intro hmost
  simp only [overtakenBy, Outcome.test_iff, contains_iff_mem, all_eq_true] at h
  exact absurd (hmost i h.1.1 h.1.2) (Nat.not_le.2 h.2)

end BlockTree

namespace Regtest

open CBlockIndex BlockTree

def unitWork : WorkRules := ⟨fun _ => 1, fun _ => Nat.one_pos, fun i => i.nHeight⟩

def allConnect : Outcomes := ⟨fun _ _ => true, fun _ _ => true⟩

def firstEntry : CBlockIndex := next genesis (blockAt 1 [] [])

def secondEntry : CBlockIndex := next firstEntry (blockAt 2 [] [])

/-- The first block is invalidated, and the flags of the header above it are reset. -/
def resetAboveInvalidated : List Event :=
  [.block .valid genesis (blockAt 1 [] []), .activate allConnect 3, .header firstEntry (blockAt 2 [] []), .invalidate allConnect firstEntry,
    .reset secondEntry]

theorem reset_descendant_loses_tip : ∃ n n', History unitWork (fun _ _ => True) n ∧
    n.activateBestChain unitWork allConnect 3 none = some (true, n') ∧ ¬ MostWork unitWork n' := by
  have hrun : ((resetAboveInvalidated.foldlM (apply unitWork) initial).any fun n =>
      (n.activateBestChain unitWork allConnect 3 none).any fun r => r.1 && r.2.overtakenBy unitWork firstEntry) = true := by
    decide +kernel
  obtain ⟨n, hn, hrun⟩ := (Option.any_eq_true ..).mp hrun
  obtain ⟨⟨returned, n'⟩, hactivate, hrun⟩ := (Option.any_eq_true ..).mp hrun
  obtain ⟨rfl, hrun⟩ := Bool.and_eq_true_iff.mp hrun
  exact ⟨n, n', .of_events hn .initial, hactivate, not_mostWork_of_overtaken hrun⟩

theorem first_block_activated : ∃ n', (initial.acceptBlock unitWork .valid genesis (blockAt 1 [] [])).activateBestChain unitWork allConnect 3 none =
    some (true, n') ∧ MostWork unitWork n' := by
  have hrun : ((initial.acceptBlock unitWork .valid genesis (blockAt 1 [] [])).activateBestChain unitWork allConnect 3 none).any
    (fun r => r.1) = true := by decide +kernel
  obtain ⟨⟨ret, n'⟩, hactivate, hret⟩ := (Option.any_eq_true _ _).1 hrun
  obtain rfl : ret = true := hret
  have hhistory : History unitWork Regular (initial.acceptBlock unitWork .valid genesis (blockAt 1 [] [])) :=
    .event (e := .block .valid genesis (blockAt 1 [] [])) .initial (Or.inl rfl) rfl
  exact ⟨n', hactivate, tip_has_most_work hhistory (fun _ _ _ => rfl) hactivate⟩

end Regtest

end Hivecoin

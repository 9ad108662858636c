import Mathlib.Algebra.Ring.Int.Defs

/-!
# Checks that can fail
-/

namespace Outcome

open List

variable {ε ε' α β σ : Type}

def require (b : Bool) (e : ε) : Except ε Unit := if b then .ok () else .error e

def orError (o : Option α) (e : ε) : Except ε α :=
  match o with
  | some a => .ok a
  | none => .error e

@[simp] theorem bind_eq_ok {x : Except ε α} {f : α → Except ε β} {b : β} :
    (x >>= f) = .ok b ↔ ∃ a, x = .ok a ∧ f a = .ok b := by
  cases x <;> simp [bind, Except.bind]

@[simp] theorem pure_eq_ok {a b : α} : (pure a : Except ε α) = .ok b ↔ a = b := by
  simp [pure, Except.pure]

@[simp] theorem throw_ne_ok {e : ε} {a : α} : ¬ (throw e : Except ε α) = .ok a := by
  simp [throw, throwThe, MonadExceptOf.throw]

@[simp] theorem require_eq_ok {b : Bool} {e : ε} {u : Unit} : require b e = .ok u ↔ b = true := by
  cases b <;> simp [require]

@[simp] theorem orError_eq_ok {o : Option α} {e : ε} {a : α} : orError o e = .ok a ↔ o = some a := by
  cases o <;> simp [orError]

theorem orError_some_bind (a : α) (e : ε) (f : α → Except ε β) : (orError (some a) e >>= f) = f a := rfl

@[simp] theorem mapError_ok (a : α) (f : ε → ε') : (Except.ok a).mapError f = .ok a := rfl

@[simp] theorem mapError_error (e : ε) (f : ε → ε') : (Except.error e : Except ε α).mapError f = .error (f e) := rfl

@[simp] theorem mapError_eq_ok {x : Except ε α} {f : ε → ε'} {a : α} : x.mapError f = .ok a ↔ x = .ok a := by
  cases x <;> simp

@[simp] theorem toOption_eq_some {x : Except ε α} {a : α} : x.toOption = some a ↔ x = .ok a := by
  cases x <;> simp [Except.toOption]

theorem bind_eq_error {x : Except ε α} {f : α → Except ε β} {e : ε} :
    (x >>= f) = .error e ↔ x = .error e ∨ ∃ a, x = .ok a ∧ f a = .error e := by
  cases x <;> simp [bind, Except.bind]

theorem require_eq_error {b : Bool} {e e' : ε} : require b e = .error e' ↔ b = false ∧ e = e' := by
  cases b <;> simp [require]

theorem orError_eq_error {o : Option α} {e e' : ε} : orError o e = .error e' ↔ o = none ∧ e = e' := by
  cases o <;> simp [orError]

@[simp] theorem exists_unit {p : Unit → Prop} : (∃ u, p u) ↔ p () := ⟨fun ⟨_, h⟩ => h, fun h => ⟨_, h⟩⟩

/-- The rules with which `simp only` takes the success of a check apart. -/
theorem ok_iff :
    (∀ {ε α β : Type} {x : Except ε α} {f : α → Except ε β} {b : β}, (x >>= f) = .ok b ↔ ∃ a, x = .ok a ∧ f a = .ok b) ∧
    (∀ {p : Unit → Prop}, (∃ u, p u) ↔ p ()) ∧
    (∀ {ε : Type} {b : Bool} {e : ε} {u : Unit}, require b e = .ok u ↔ b = true) ∧
    (∀ {ε α : Type} {o : Option α} {e : ε} {a : α}, orError o e = .ok a ↔ o = some a) ∧
    (∀ {ε ε' α : Type} {x : Except ε α} {f : ε → ε'} {a : α}, x.mapError f = .ok a ↔ x = .ok a) ∧
    ∀ {ε α : Type} {a b : α}, (pure a : Except ε α) = .ok b ↔ a = b :=
  ⟨bind_eq_ok, exists_unit, require_eq_ok, orError_eq_ok, mapError_eq_ok, pure_eq_ok⟩

/-- The same for steps in `Option`. -/
theorem some_iff :
    (∀ {α β : Type} {x : Option α} {f : α → Option β}, (x >>= f) = x.bind f) ∧
    (∀ {α β : Type} {x : Option α} {f : α → Option β} {b : β}, x.bind f = some b ↔ ∃ a, x = some a ∧ f a = some b) ∧
    (∀ {α β : Type} {x : Option α} {f : α → β} {b : β}, x.map f = some b ↔ ∃ a, x = some a ∧ f a = b) ∧
    (∀ {α : Type} {a : α}, pure a = some a) ∧
    (∀ {α : Type} {a b : α}, some a = some b ↔ a = b) ∧
    (∀ {α : Type} {p : Prop} [Decidable p] {x : Option α} {a : α}, (if p then x else none) = some a ↔ p ∧ x = some a) ∧
    ∀ {α : Type} {p : Prop} [Decidable p] {x : Option α} {a : α}, (if p then none else x) = some a ↔ ¬p ∧ x = some a :=
  ⟨rfl, Option.bind_eq_some_iff, Option.map_eq_some_iff, rfl, Option.some_inj, Option.ite_none_right_eq_some,
    Option.ite_none_left_eq_some⟩

/-- The same for tests. -/
theorem test_iff :
    (∀ {a b : Bool}, (a && b) = true ↔ a = true ∧ b = true) ∧ (∀ {a b : Bool}, (a || b) = true ↔ a = true ∨ b = true) ∧
    (∀ {b : Bool}, (!b) = true ↔ b = false) ∧ (∀ {p : Prop} [Decidable p], decide p = true ↔ p) ∧
    (∀ {α : Type} [BEq α] [LawfulBEq α] {a b : α}, (a == b) = true ↔ a = b) ∧ (false = true ↔ False) ∧
    (∀ {α : Type} {_ : Decidable True} {a b : α}, ite True a b = a) ∧
    ∀ {α : Type} {_ : Decidable False} {a b : α}, ite False a b = b :=
  ⟨Bool.and_eq_true_iff, Bool.or_eq_true_iff, by simp, decide_eq_true_iff, beq_iff_eq, by simp, if_pos trivial, if_neg not_false⟩

theorem forM_eq_ok {l : List α} {f : α → Except ε Unit} : l.forM f = .ok () ↔ ∀ x ∈ l, f x = .ok () := by
  induction l with
  | nil => simp [List.forM]
  | cons x l ih =>
    simp only [List.forM, bind_eq_ok, List.mem_cons, forall_eq_or_imp]
    exact ⟨fun ⟨_, h, hl⟩ => ⟨h, ih.mp hl⟩, fun ⟨h, hl⟩ => ⟨(), h, ih.mpr hl⟩⟩

theorem foldlM_cons_ok {f : σ → α → Except ε σ} {x l} {s t : σ} :
    (x :: l).foldlM f s = .ok t ↔ ∃ s', f s x = .ok s' ∧ l.foldlM f s' = .ok t := by
  rw [foldlM_cons, bind_eq_ok]

theorem foldlM_cons_some {f : σ → α → Option σ} {x l} {s t : σ} :
    (x :: l).foldlM f s = some t ↔ ∃ s', f s x = some s' ∧ l.foldlM f s' = some t := by
  rw [foldlM_cons, Option.bind_eq_bind, Option.bind_eq_some_iff]

/-- A loop that succeeds, with what each of its steps keeps. -/
theorem foldlM_induct (p : σ → Prop) {f : σ → α → Except ε σ} {l : List α} {s t : σ}
    (h : l.foldlM f s = .ok t) (hs : p s)
    (step : ∀ s x s', x ∈ l → f s x = .ok s' → p s → p s') : p t := by
  induction l generalizing s with
  | nil =>
    cases h
    exact hs
  | cons x l ih =>
    obtain ⟨s', hx, hl⟩ := Outcome.foldlM_cons_ok.mp h
    exact ih hl (step s x s' mem_cons_self hx hs)
      fun s y s'' hy => step s y s'' (mem_cons_of_mem _ hy)

/-- A loop succeeds because each step does: `p` is what is known of the state and the rest. -/
theorem foldlM_succeeds (p : σ → List α → Prop) {f : σ → α → Except ε σ}
    (step : ∀ s x l, p s (x :: l) → ∃ s', f s x = .ok s' ∧ p s' l) {l : List α} {s : σ} (hs : p s l) :
    ∃ t, l.foldlM f s = .ok t := by
  induction l generalizing s with
  | nil => exact ⟨s, rfl⟩
  | cons x l ih =>
    obtain ⟨s', hx, hs'⟩ := step s x l hs
    obtain ⟨t, ht⟩ := ih hs'
    exact ⟨t, by rw [foldlM_cons]; exact bind_eq_ok.2 ⟨s', hx, ht⟩⟩

/-- A loop that succeeds and whose steps act only on the elements that `g` picks. -/
theorem foldlM_filterMap {τ γ : Type} (obs : σ → τ) (g : α → Option γ) (upd : τ → γ → τ)
    {f : σ → α → Except ε σ} {l : List α} {s t : σ} (h : l.foldlM f s = .ok t)
    (step : ∀ s x s', x ∈ l → f s x = .ok s' → obs s' = (g x).elim (obs s) (upd (obs s))) :
    obs t = (l.filterMap g).foldl upd (obs s) := by
  induction l generalizing s with
  | nil =>
    cases h
    simp
  | cons x l ih =>
    obtain ⟨s', hx, hl⟩ := Outcome.foldlM_cons_ok.mp h
    have hstep := step s x s' mem_cons_self hx
    rw [ih hl fun s y s'' hy => step s y s'' (mem_cons_of_mem _ hy), hstep]
    cases hg : g x with
    | none => simp [hg]
    | some y => simp [hg]

/-- A loop that succeeds and whose steps add to an observed number. -/
theorem foldlM_sum (obs : σ → Int) (g : α → Int) {f : σ → α → Except ε σ} {l : List α} {s t : σ}
    (h : l.foldlM f s = .ok t) (step : ∀ s x s', x ∈ l → f s x = .ok s' → obs s' = obs s + g x) :
    obs t = obs s + (l.map g).sum := by
  induction l generalizing s with
  | nil =>
    cases h
    simp
  | cons x l ih =>
    obtain ⟨s', hx, hl⟩ := Outcome.foldlM_cons_ok.mp h
    rw [ih hl fun s y s'' hy => step s y s'' (mem_cons_of_mem _ hy), step s x s' mem_cons_self hx,
      map_cons, sum_cons, Int.add_assoc]

theorem foldlM_step {f : σ → α → Except ε σ} {l : List α} {s t : σ} (h : l.foldlM f s = .ok t)
    {x : α} (hx : x ∈ l) : ∃ s1 s2, f s1 x = .ok s2 := by
  induction l generalizing s with
  | nil => cases hx
  | cons y l ih =>
    obtain ⟨s', hy, hl⟩ := Outcome.foldlM_cons_ok.mp h
    rcases mem_cons.mp hx with rfl | hx
    · exact ⟨s, s', hy⟩
    · exact ih hl hx

/-- What one step establishes and every step keeps holds at the end. -/
theorem foldlM_reach (p : σ → Prop) {f : σ → α → Except ε σ} {l : List α} {s t : σ} (h : l.foldlM f s = .ok t)
    {x : α} (hx : x ∈ l) (here : ∀ s s', f s x = .ok s' → p s')
    (keep : ∀ s y s', y ∈ l → f s y = .ok s' → p s → p s') : p t := by
  induction l generalizing s with
  | nil => cases hx
  | cons y l ih =>
    obtain ⟨s', hy, hl⟩ := Outcome.foldlM_cons_ok.mp h
    rcases mem_cons.mp hx with rfl | hx
    · exact foldlM_induct p hl (here s s' hy) fun s z s'' hz => keep s z s'' (mem_cons_of_mem _ hz)
    · exact ih hl hx fun s z s'' hz => keep s z s'' (mem_cons_of_mem _ hz)

/-- A guarded loop succeeds where every guard holds and the loop on `π` of the state does. -/
theorem foldlM_guarded {τ : Type} (π : σ → τ) {p : α → Prop} {f : σ → α → Except ε σ}
    {g : τ → α → Except ε' τ}
    (step : ∀ s a t, (∃ s', f s a = .ok s' ∧ π s' = t) ↔ p a ∧ g (π s) a = .ok t)
    (l : List α) (s : σ) (t : τ) :
    (∃ s', l.foldlM f s = .ok s' ∧ π s' = t) ↔ (∀ a ∈ l, p a) ∧ l.foldlM g (π s) = .ok t := by
  induction l generalizing s with
  | nil => simp
  | cons a l ih =>
    simp only [foldlM_cons, bind_eq_ok, mem_cons, forall_eq_or_imp]
    constructor
    · rintro ⟨s', ⟨s1, ha, hl⟩, ht⟩
      obtain ⟨hp, hg⟩ := (step s a (π s1)).mp ⟨s1, ha, rfl⟩
      obtain ⟨hps, hgs⟩ := (ih s1).mp ⟨s', hl, ht⟩
      exact ⟨⟨hp, hps⟩, π s1, hg, hgs⟩
    · rintro ⟨⟨hp, hps⟩, t1, hg, hgs⟩
      obtain ⟨s1, ha, rfl⟩ := (step s a t1).mpr ⟨hp, hg⟩
      obtain ⟨s', hl, ht⟩ := (ih s1).mpr ⟨hps, hgs⟩
      exact ⟨s', ⟨s1, ha, hl⟩, ht⟩

/-- A loop that may stop, as it looks on what `π` keeps of the state. -/
theorem map_foldlM {τ : Type} (π : σ → τ) {f : σ → α → Option σ} {g : τ → α → Option τ} {l : List α}
    (step : ∀ s, ∀ x ∈ l, (f s x).map π = g (π s) x) (s : σ) : (l.foldlM f s).map π = l.foldlM g (π s) := by
  induction l generalizing s with
  | nil => rfl
  | cons x l ih =>
    have hx := step s x mem_cons_self
    rw [foldlM_cons, foldlM_cons, ← hx]
    cases f s x with
    | none => rfl
    | some s' => exact ih (fun s y hy => step s y (mem_cons_of_mem _ hy)) s'

end Outcome

import Hivecoin.Base.Outcome

/-!
# Calls that return early

`Follows` says that a call is a check in `Except` with its failures written into the state.
-/

namespace Returns

open Outcome List

/-- How a call ends other than by its last statement. -/
inductive Stop where
  | returned
  | aborted
deriving DecidableEq

abbrev Call (σ : Type) := ExceptT Stop (StateM σ)

variable {σ α β ε ε' : Type}

namespace Call

/-- Result and state at the end of a call. -/
def after (m : Call σ α) (s : σ) : Except Stop α × σ := m.run.run s

/-- `return false` after a change of the state. -/
def leave (f : σ → σ) : Call σ α := ExceptT.mk fun s => (.error .returned, f s)

/-- An exception or a failed assertion. -/
def abort : Call σ α := throw .aborted

def ensure (b : Bool) (f : σ → σ) : Call σ Unit := if b then pure () else leave f

def orLeave (o : Option α) (f : σ → σ) : Call σ α :=
  match o with
  | some a => pure a
  | none => leave f

/-- The result of a check; a failure returns false after a change. -/
def pass (x : Except ε α) (f : ε → σ → σ) : Call σ α :=
  match x with
  | .ok a => pure a
  | .error e => leave (f e)

/-- A call whose `false` is returned after a further change. -/
def onReturn (m : Call σ α) (f : σ → σ) : Call σ α := ExceptT.mk fun s =>
  match m.after s with
  | (.error .returned, s') => (.error .returned, f s')
  | r => r

theorem after_bind (m : Call σ α) (k : α → Call σ β) (s : σ) : (m >>= k).after s =
    match m.after s with
    | (.ok a, s') => (k a).after s'
    | (.error e, s') => (.error e, s') := by
  simp only [after, bind, ExceptT.bind, ExceptT.run, ExceptT.mk, ExceptT.bindCont, StateT.bind, StateT.run]
  rcases m s with ⟨_ | _, _⟩ <;> rfl

theorem after_onReturn (m : Call σ α) (f : σ → σ) (s : σ) : (m.onReturn f).after s =
    match m.after s with
    | (.error .returned, s') => (.error .returned, f s')
    | r => r := rfl

def returnsFalse (m : Call σ α) (s : σ) : Bool :=
  match m.after s with
  | (.error .returned, _) => true
  | _ => false

theorem after_of_returnsFalse {m : Call σ α} {s} (h : m.returnsFalse s = true) : m.after s = (.error .returned, (m.after s).2) := by
  unfold returnsFalse at h
  split at h
  · rename_i heq
    rw [heq]
  · cases h

end Call

section

variable (ok bad : σ → Prop)

/-- What holds of the state at the end of a call. -/
def Ends : Except Stop α × σ → Prop
  | (.ok _, s) => ok s
  | (.error .returned, s) => bad s
  | (.error .aborted, _) => True

/-- From an `ok` state the call goes on in one, or returns false in a `bad` one. -/
def Reports (m : Call σ α) : Prop := ∀ s, ok s → Ends ok bad (m.after s)

/-- The call succeeds where the check does, with its result and the same state; elsewhere it stops, returning false in a `bad`
state. -/
def Follows (m : Call σ α) (x : Except ε α) : Prop :=
  ∀ s, ok s → match x with
    | .ok a => m.after s = (.ok a, s)
    | .error _ => ∃ stop s', m.after s = (.error stop, s') ∧ (stop = .returned → bad s')

end

variable {ok bad : σ → Prop} {m : Call σ α} {f : σ → σ}

namespace Reports

theorem pure (a : α) : Reports ok bad (Pure.pure a) := fun _ hs => hs

theorem leave (hf : ∀ s, ok s → bad (f s)) : Reports ok bad (Call.leave f : Call σ α) := hf

theorem abort : Reports ok bad (Call.abort : Call σ α) := fun _ _ => trivial

theorem bind {k : α → Call σ β} (hm : Reports ok bad m) (hk : ∀ a, Reports ok bad (k a)) : Reports ok bad (m >>= k) := by
  intro s hs
  rw [Call.after_bind]
  have hend := hm s hs
  generalize m.after s = r at hend ⊢
  rcases r with ⟨stop | a, s'⟩
  · cases stop <;> exact hend
  · exact hk a s' hend

theorem ensure {b} (hf : ∀ s, ok s → bad (f s)) : Reports ok bad (Call.ensure b f) := by
  cases b with
  | true => exact pure ()
  | false => exact leave hf

theorem pass {x : Except ε α} {f : ε → σ → σ} (hf : ∀ e s, ok s → bad (f e s)) : Reports ok bad (Call.pass x f) := by
  cases x with
  | ok a => exact pure a
  | error e => exact leave (hf e)

theorem onReturn (hm : Reports ok bad m) (hf : ∀ s, bad s → bad (f s)) : Reports ok bad (m.onReturn f) := by
  intro s hs
  rw [Call.after_onReturn]
  have hend := hm s hs
  generalize m.after s = r at hend ⊢
  rcases r with ⟨stop | a, s'⟩
  · cases stop with
    | returned => exact hf s' hend
    | aborted => trivial
  · exact hend

theorem foldlM {f : β → α → Call σ β} {l : List α} (hf : ∀ b, ∀ a ∈ l, Reports ok bad (f b a)) (b : β) :
    Reports ok bad (l.foldlM f b) := by
  induction l generalizing b with
  | nil => exact pure b
  | cons a l ih =>
    rw [foldlM_cons]
    exact bind (hf b a mem_cons_self) fun b' => ih (fun b a ha => hf b a (mem_cons_of_mem _ ha)) b'

theorem forM {f : α → Call σ Unit} {l : List α} (hf : ∀ a ∈ l, Reports ok bad (f a)) : Reports ok bad (l.forM f) := by
  induction l with
  | nil => exact pure ()
  | cons a l ih => exact bind (hf a mem_cons_self) fun _ => ih fun a ha => hf a (mem_cons_of_mem _ ha)

end Reports

/-! ## Calls that follow a check -/

namespace Follows

theorem reports {x : Except ε α} (h : Follows ok bad m x) : Reports ok bad m := by
  intro s hs
  have hrun := h s hs
  cases x with
  | ok a =>
    simp only at hrun
    rw [hrun]
    exact hs
  | error e =>
    obtain ⟨stop, s', hafter, hbad⟩ := hrun
    rw [hafter]
    cases stop with
    | returned => exact hbad rfl
    | aborted => trivial

theorem pure (a : α) : Follows ok bad (Pure.pure a) (Pure.pure a : Except ε α) := fun _ _ => rfl

theorem leave (hf : ∀ s, ok s → bad (f s)) (e : ε) : Follows ok bad (Call.leave f : Call σ α) (.error e : Except ε α) :=
  fun s hs => ⟨_, _, rfl, fun _ => hf s hs⟩

theorem abort (e : ε) : Follows ok bad (Call.abort : Call σ α) (.error e : Except ε α) := fun _ _ => ⟨_, _, rfl, nofun⟩

theorem bind {x : Except ε α} {k : α → Call σ β} {y : α → Except ε β} (hm : Follows ok bad m x)
    (hk : ∀ a, Follows ok bad (k a) (y a)) : Follows ok bad (m >>= k) (x >>= y) := by
  intro s hs
  have hrun := hm s hs
  cases x with
  | ok a =>
    simp only at hrun
    rw [Call.after_bind, hrun]
    exact hk a s hs
  | error e =>
    obtain ⟨stop, s', hafter, hbad⟩ := hrun
    refine ⟨stop, s', ?_, hbad⟩
    rw [Call.after_bind, hafter]

theorem ite {p : Prop} [Decidable p] {m1 m2 : Call σ α} {x1 x2 : Except ε α} (h1 : p → Follows ok bad m1 x1)
    (h2 : ¬p → Follows ok bad m2 x2) : Follows ok bad (if p then m1 else m2) (if p then x1 else x2) := by
  split
  · exact h1 ‹_›
  · exact h2 ‹_›

theorem ensure {b} (hf : ∀ s, ok s → bad (f s)) (e : ε) : Follows ok bad (Call.ensure b f) (require b e) := by
  cases b with
  | true => exact pure ()
  | false => exact leave hf e

theorem orLeave {o : Option α} (hf : ∀ s, ok s → bad (f s)) (e : ε) : Follows ok bad (Call.orLeave o f) (orError o e) := by
  cases o with
  | some a => exact pure a
  | none => exact leave hf e

theorem pass {x : Except ε' α} {f} (hf : ∀ e s, ok s → bad (f e s)) (g : ε' → ε) :
    Follows ok bad (Call.pass x f) (x.mapError g) := by
  cases x with
  | ok a => exact pure a
  | error e => exact leave (hf e) (g e)

theorem foldlM {f : β → α → Call σ β} {g : β → α → Except ε β} (h : ∀ b a, Follows ok bad (f b a) (g b a)) (l : List α) (b : β) :
    Follows ok bad (l.foldlM f b) (l.foldlM g b) := by
  induction l generalizing b with
  | nil => exact pure b
  | cons a l ih =>
    rw [foldlM_cons, foldlM_cons]
    exact bind (h b a) ih

theorem forM {f : α → Call σ Unit} {g : α → Except ε Unit} (h : ∀ a, Follows ok bad (f a) (g a)) (l : List α) :
    Follows ok bad (l.forM f) (l.forM g) := by
  induction l with
  | nil => exact pure ()
  | cons a l ih => exact bind (h a) fun _ => ih

end Follows

end Returns

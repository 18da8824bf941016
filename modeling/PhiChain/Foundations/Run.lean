import Mathlib.Logic.Basic
import Mathlib.Data.Option.Basic

/-!
# Fallible steps and runs

A transaction is a computation in `Except`: it either yields a new state or an
error, and an error leaves the state it started from (`commit`). The lemmas
`bind_eq_ok`, `ensure_eq_ok` and `orFail_eq_ok` take a successful computation
apart into the checks it passed.

A run applies a step function to a list of actions. `Along step ok s as` says
that every step of the run meets the condition `ok` in the state it is taken
from; `run_preserves` is the invariant rule for such runs,
`along_of_invariant` carries a property of single steps over a whole run,
`exists_turning_step` finds the step that made a property true, and `run_view`
drops what a run records beside its states.
-/

set_option autoImplicit false

namespace PhiChain.Foundations

universe u v w

section Outcome

variable {ε : Type u} {α : Type v} {β : Type v} {σ : Type w}

/-- Fail with `e` unless the condition holds. -/
def ensure (c : Prop) [Decidable c] (e : ε) : Except ε PUnit.{v + 1} :=
  if c then .ok ⟨⟩ else .error e

/-- The value of an option, or the failure `e`. -/
def orFail (o : Option α) (e : ε) : Except ε α :=
  match o with
  | some a => .ok a
  | none => .error e

/-- The state after a transaction: an error leaves the state it started from. -/
def commit (s : σ) : Except ε σ → σ
  | .ok t => t
  | .error _ => s

/-- Whether the transaction succeeds. -/
def isOk : Except ε α → Bool
  | .ok _ => true
  | .error _ => false

theorem isOk_iff {x : Except ε α} : isOk x = true ↔ ∃ a, x = .ok a := by
  cases x with
  | ok a => exact ⟨fun _ => ⟨a, rfl⟩, fun _ => rfl⟩
  | error e =>
    constructor
    · intro h
      cases h
    · rintro ⟨a, ha⟩
      cases ha

theorem bind_eq_ok {x : Except ε α} {f : α → Except ε β} {b : β} :
    (x >>= f) = .ok b ↔ ∃ a, x = .ok a ∧ f a = .ok b := by
  cases x with
  | error e =>
    constructor
    · intro h
      cases h
    · rintro ⟨a, ha, -⟩
      cases ha
  | ok a =>
    constructor
    · intro h
      exact ⟨a, rfl, h⟩
    · rintro ⟨a', ha', h⟩
      cases ha'
      exact h

theorem ensure_eq_ok {c : Prop} [Decidable c] {e : ε} {x : PUnit.{v + 1}} :
    ensure c e = .ok x ↔ c := by
  unfold ensure
  split
  · rename_i h
    exact ⟨fun _ => h, fun _ => rfl⟩
  · rename_i h
    constructor
    · intro hx
      cases hx
    · intro hc
      exact absurd hc h

theorem orFail_eq_ok {o : Option α} {e : ε} {a : α} : orFail o e = .ok a ↔ o = some a := by
  cases o with
  | none =>
    constructor
    · intro h
      cases h
    · intro h
      cases h
  | some b =>
    constructor
    · intro h
      cases h
      rfl
    · intro h
      cases h
      rfl

theorem ok_bind (a : α) (f : α → Except ε β) : (Except.ok a >>= f) = f a := rfl

theorem pure_eq_ok {a b : α} : (pure a : Except ε α) = .ok b ↔ a = b := by
  constructor
  · intro h
    cases h
    rfl
  · intro h
    cases h
    rfl

theorem mapError_eq_ok {ε' : Type u} {f : ε → ε'} {x : Except ε α} {a : α} :
    x.mapError f = .ok a ↔ x = .ok a := by
  cases x with
  | error e =>
    constructor
    · intro h
      cases h
    · intro h
      cases h
  | ok b =>
    constructor
    · intro h
      cases h
      rfl
    · intro h
      cases h
      rfl

/-- A check on every element passes when each of them does. -/
theorem forM_eq_ok {f : α → Except ε PUnit.{v + 1}} {xs : List α} {u : PUnit.{v + 1}} :
    xs.forM f = .ok u ↔ ∀ x ∈ xs, f x = .ok ⟨⟩ := by
  induction xs with
  | nil => exact ⟨fun _ x hx => absurd hx List.not_mem_nil, fun _ => rfl⟩
  | cons x rest ih =>
    simp only [List.forM_eq_forM, List.forM_cons, bind_eq_ok, List.forall_mem_cons]
    rw [List.forM_eq_forM] at ih
    simp only [ih, exists_and_right]
    exact ⟨fun ⟨⟨_, hx⟩, hrest⟩ => ⟨hx, hrest⟩, fun ⟨hx, hrest⟩ => ⟨⟨⟨⟩, hx⟩, hrest⟩⟩

/-- A property kept by every success is kept by the transaction. -/
theorem commit_preserves {p : σ → Prop} {s : σ} {x : Except ε σ} (hs : p s)
    (hx : ∀ t, x = .ok t → p t) : p (commit s x) := by
  cases x with
  | error e => exact hs
  | ok t => exact hx t rfl

end Outcome

section Runs

variable {σ : Type u} {α : Type v}

/-- The state reached from `s` by a list of actions. -/
def run (step : σ → α → σ) : σ → List α → σ
  | s, [] => s
  | s, a :: rest => run step (step s a) rest

/-- Every step of the run from `s` meets `ok` in the state it is taken from. -/
def Along (step : σ → α → σ) (ok : σ → α → Prop) : σ → List α → Prop
  | _, [] => True
  | s, a :: rest => ok s a ∧ Along step ok (step s a) rest

variable {step : σ → α → σ} {ok : σ → α → Prop}

instance decidableAlong [∀ s a, Decidable (ok s a)] :
    (s : σ) → (as : List α) → Decidable (Along step ok s as)
  | _, [] => inferInstanceAs (Decidable True)
  | s, a :: rest =>
    have := decidableAlong (step s a) rest
    inferInstanceAs (Decidable (ok s a ∧ Along step ok (step s a) rest))

theorem run_append (s : σ) (as bs : List α) :
    run step s (as ++ bs) = run step (run step s as) bs := by
  induction as generalizing s with
  | nil => rfl
  | cons a rest ih => exact ih (step s a)

/-- What a step records beside the state does not bear on the run: if a view of each recording
step is the plain step, so is the view of the whole run. -/
theorem run_view {τ : Type w} {record : τ → α → τ} (view : τ → σ)
    (hstep : ∀ t a, view (record t a) = step (view t) a) (t : τ) (as : List α) :
    view (run record t as) = run step (view t) as := by
  induction as generalizing t with
  | nil => rfl
  | cons a rest ih =>
    rw [run, run, ih (record t a), hstep]

theorem along_append {s : σ} {as bs : List α} :
    Along step ok s (as ++ bs) ↔ Along step ok s as ∧ Along step ok (run step s as) bs := by
  induction as generalizing s with
  | nil => simp [Along, run]
  | cons a rest ih =>
    simp only [List.cons_append, Along, run]
    rw [ih, and_assoc]

/-- A condition on the actions alone holds along any run of such actions. -/
theorem along_of_forall {p : α → Prop} {s : σ} {as : List α} (h : ∀ a ∈ as, p a) :
    Along step (fun _ a => p a) s as := by
  induction as generalizing s with
  | nil => trivial
  | cons a rest ih =>
    exact ⟨h a List.mem_cons_self, ih fun b hb => h b (List.mem_cons_of_mem _ hb)⟩

/-- Invariant rule for runs whose steps all meet `ok`. -/
theorem run_preserves {inv : σ → Prop} (hstep : ∀ s a, ok s a → inv s → inv (step s a))
    {s : σ} (hs : inv s) {as : List α} (hrun : Along step ok s as) : inv (run step s as) := by
  induction as generalizing s with
  | nil => exact hs
  | cons a rest ih =>
    obtain ⟨hok, hrest⟩ := hrun
    exact ih (hstep s a hok hs) hrest

/-- Invariant rule for unrestricted runs. -/
theorem run_invariant {inv : σ → Prop} (hstep : ∀ s a, inv s → inv (step s a))
    {s : σ} (hs : inv s) (as : List α) : inv (run step s as) := by
  induction as generalizing s with
  | nil => exact hs
  | cons a rest ih => exact ih (hstep s a hs)

/-- A property of the steps taken from invariant states holds along the run. -/
theorem along_of_invariant {inv : σ → Prop} {p : σ → α → Prop}
    (hstep : ∀ s a, ok s a → inv s → inv (step s a)) (hp : ∀ s a, ok s a → inv s → p s a)
    {s : σ} (hs : inv s) {as : List α} (hrun : Along step ok s as) : Along step p s as := by
  induction as generalizing s with
  | nil => trivial
  | cons a rest ih =>
    obtain ⟨hok, hrest⟩ := hrun
    exact ⟨hp s a hok hs, ih (hstep s a hok hs) hrest⟩

/-- What holds at the end of a run and not at its start was brought about by one of the steps. -/
theorem exists_turning_step {p : σ → Prop} {s : σ} {as : List α} (hstart : ¬ p s)
    (hend : p (run step s as)) :
    ∃ before a after, as = before ++ a :: after ∧ ¬ p (run step s before) ∧
      p (step (run step s before) a) := by
  induction as generalizing s with
  | nil => exact absurd hend hstart
  | cons a rest ih =>
    by_cases hfirst : p (step s a)
    · exact ⟨[], a, rest, rfl, hstart, hfirst⟩
    · obtain ⟨before, b, after, rfl, hbefore, hturn⟩ := ih hfirst hend
      exact ⟨a :: before, b, after, rfl, hbefore, hturn⟩

end Runs

end PhiChain.Foundations

/-!
# Actions one behind the other

The parser and the runs of a program are actions on a state that something may stop. How such
actions follow each other depends neither on what the state is nor on what stops them.
-/

set_option autoImplicit false

namespace TurboBench.Pascal

section Sequences

variable {ε σ α β : Type} {p : EStateM ε σ α} {f : α → EStateM ε σ β} {s t : σ}

theorem bind_of_ok {a : α} (h : p s = .ok a t) : (p >>= f) s = f a t := by
  simp only [Bind.bind, EStateM.bind, h]

theorem bind_of_error {e : ε} (h : p s = .error e t) : (p >>= f) s = .error e t := by
  simp only [Bind.bind, EStateM.bind, h]

/-- A sequence that comes to its end has gone through both of its actions. -/
theorem exists_of_bind_ok {b : β} {u : σ} (h : (p >>= f) s = .ok b u) :
    ∃ a t, p s = .ok a t ∧ f a t = .ok b u := by
  cases hp : p s with
  | ok a t =>
    rw [bind_of_ok hp] at h
    exact ⟨a, t, rfl, h⟩
  | error e t =>
    rw [bind_of_error hp] at h
    exact nomatch h

/-- Sequences that go on in the same way from what the first action leaves are the same. -/
theorem bind_congr_of_ok {g : α → EStateM ε σ β} (h : ∀ a t, p s = .ok a t → f a t = g a t) :
    (p >>= f) s = (p >>= g) s := by
  cases hp : p s with
  | ok a t => rw [bind_of_ok hp, bind_of_ok hp, h a t hp]
  | error e t => rw [bind_of_error hp, bind_of_error hp]

/-- Sequences whose first actions do the same here are the same. -/
theorem bind_congr_left {q : EStateM ε σ α} (h : p s = q s) : (p >>= f) s = (q >>= f) s := by
  simp only [Bind.bind, EStateM.bind, h]

theorem discard_of_ok {a : α} (h : p s = .ok a t) : Functor.discard p s = .ok () t := by
  show EStateM.map _ p s = _
  simp only [EStateM.map, h]

/-- An action that begins with a look at the state. -/
theorem look_apply (f : σ → EStateM ε σ β) (s : σ) : (MonadState.get >>= f) s = f s s := rfl

end Sequences

end TurboBench.Pascal

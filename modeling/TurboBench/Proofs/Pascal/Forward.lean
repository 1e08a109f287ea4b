import TurboBench.Proofs.Pascal.Actions
import TurboBench.Proofs.Pascal.Sequences

/-!
# Runs only go up

What a run has written and warned of stays, a line that was begun is only continued, and steps are
only used up: `Later` is the order on states that says so, and `Forward.closed` that every action
goes up in it.

The order is also what makes the count of a loop immaterial. The recursion of a loop is on a count
that is at first the number of steps that are left; as every turn takes a step and the rest of the
turn gives none back, any count that is not less than the steps left does. So the loops obey the
equations that one expects of them, `whileLoop_eq` and `repeatLoop_eq`, without any count.
-/

set_option autoImplicit false

namespace TurboBench.Pascal

open Run

/-! ## Later states -/

namespace RunState

/-- What was written in the first state is there in the second: complete lines stay, and a line
that was begun was continued, and possibly completed. -/
inductive Continues (s t : RunState) : Prop where
  | lines (hs : s.pending = none) (h : s.lines.toList <+: t.lines.toList)
  | begun {w line : String} (hs : s.pending = some w) (hw : w.toList <+: line.toList)
      (h : t.lines = s.lines) (ht : t.pending = some line)
  | completed {w line : String} (hs : s.pending = some w) (hw : w.toList <+: line.toList)
      (h : s.lines.toList ++ [line] <+: t.lines.toList)

/-- A state that a run can reach from another one. -/
structure Later (s t : RunState) : Prop where
  left : t.left ≤ s.left
  warnings : s.warnings.toList <+: t.warnings.toList
  written : Continues s t

namespace Continues

variable {s t u : RunState}

theorem of_eq (hl : t.lines = s.lines) (hp : t.pending = s.pending) : Continues s t := by
  cases hs : s.pending with
  | none => exact .lines hs (hl ▸ List.prefix_refl _)
  | some w => exact .begun hs (List.prefix_refl _) hl (hp.trans hs)

/-- A continued run keeps the lines that were written. -/
theorem lines_prefix (h : Continues s t) : s.lines.toList <+: t.lines.toList := by
  rcases h with ⟨-, h⟩ | ⟨-, -, h, -⟩ | ⟨-, -, h⟩
  · exact h
  · exact h ▸ List.prefix_refl _
  · exact (List.prefix_append _ _).trans h

/-- Going on from where one has gone on is going on. -/
theorem trans (h : Continues s t) (k : Continues t u) : Continues s u := by
  rcases h with ⟨hs, h⟩ | ⟨hs, hw, h, ht⟩ | ⟨hs, hw, h⟩
  · exact .lines hs (h.trans k.lines_prefix)
  · -- The second step finds the line still begun.
    rcases k with ⟨kt, -⟩ | ⟨kt, kw, k, ku⟩ | ⟨kt, kw, k⟩
    · rw [ht] at kt
      exact absurd kt (by simp)
    · rw [ht] at kt
      rw [← Option.some.inj kt] at kw
      exact .begun hs (hw.trans kw) (k.trans h) ku
    · rw [ht] at kt
      rw [← Option.some.inj kt] at kw
      rw [h] at k
      exact .completed hs (hw.trans kw) k
  · exact .completed hs hw (h.trans k.lines_prefix)

end Continues

namespace Later

variable {s t u : RunState}

theorem refl (s : RunState) : Later s s :=
  ⟨Nat.le_refl _, List.prefix_refl _, .of_eq rfl rfl⟩

theorem trans (h : Later s t) (k : Later t u) : Later s u :=
  ⟨Nat.le_trans k.left h.left, h.warnings.trans k.warnings, h.written.trans k.written⟩

end Later

end RunState

open RunState (Later Continues)

/-- The state that an action leaves, stopped or not. -/
def final {α : Type} : EStateM.Result Stop RunState α → RunState
  | .ok _ s => s
  | .error _ s => s

@[simp] theorem final_ok {α : Type} (a : α) (s : RunState) :
    final (.ok a s : EStateM.Result Stop RunState α) = s := rfl

@[simp] theorem final_error {α : Type} (e : Stop) (s : RunState) :
    final (.error e s : EStateM.Result Stop RunState α) = s := rfl

/-! ## What the primitive actions do -/

theorem emit_apply (text : String) (newline : Bool) (s : RunState) :
    Run.emit text newline s
      = .ok () (if newline then
          { s with lines := s.lines.push (s.pending.getD "" ++ text), pending := none }
        else { s with pending := some (s.pending.getD "" ++ text) }) := rfl

/-- What beginning a statement does to the state. -/
theorem enter_apply (breaks : Nat → Bool) (st : Statement) (s : RunState) :
    Run.enter breaks st s
      = if st.isStep then
          if breaks st.line then .error (.breakpoint st.line) { s with line := st.line }
          else .ok () { s with line := st.line }
        else .ok () s := by
  unfold Run.enter
  split
  · cases breaks st.line <;> rfl
  · rfl

theorem step_of_left_zero {s : RunState} (h : s.left = 0) : Run.step s = .error .stepLimit s := by
  unfold Run.step
  rw [h]

theorem step_of_left_succ {s : RunState} {n : Nat} (h : s.left = n + 1) :
    Run.step s = .ok () { s with left := n } := by
  unfold Run.step
  rw [h]

/-! ## Turns of loops -/

namespace Run

/-- One turn of a `while` loop, with what comes behind it. -/
def whileTurn (condition : Run Bool) (body rest : Run Unit) : Run Unit := do
  if ← condition then
    body
    step
    rest

/-- One turn of a `repeat` loop, with what comes behind it. -/
def repeatTurn (body : Run Unit) (condition : Run Bool) (rest : Run Unit) : Run Unit := do
  step
  body
  unless ← condition do rest

theorem whileTurns_zero (c : Run Bool) (b : Run Unit) :
    whileTurns c b 0 = whileTurn c b (pure ()) := by
  rw [whileTurns, whileTurn]
  simp

theorem whileTurns_succ (c : Run Bool) (b : Run Unit) (n : Nat) :
    whileTurns c b (n + 1) = whileTurn c b (whileTurns c b n) := rfl

theorem repeatTurns_succ (b : Run Unit) (c : Run Bool) (n : Nat) :
    repeatTurns b c (n + 1) = repeatTurn b c (repeatTurns b c n) := rfl

end Run

/-- A relation that composes holds over a sequence if it holds over both of its actions. -/
theorem rel_final_bind {α β : Type} {R : RunState → RunState → Prop}
    (htrans : ∀ {s t u}, R s t → R t u → R s u) {p : Run α} {f : α → Run β}
    (hp : ∀ s, R s (final (p s))) (hf : ∀ a s, R s (final (f a s))) (s : RunState) :
    R s (final ((p >>= f) s)) := by
  have hfirst := hp s
  cases hps : p s with
  | ok a t =>
    rw [hps] at hfirst
    rw [bind_of_ok hps]
    exact htrans hfirst (hf a t)
  | error e t =>
    -- The second action is not reached, so the state is that of the first.
    rw [hps] at hfirst
    rwa [bind_of_error hps]

/-! ## Going up -/

/-- An action that goes up from every state. -/
def Forward {α : Type} (p : Run α) : Prop :=
  ∀ s, Later s (final (p s))

namespace Forward

variable {α β : Type} {p : Run α} {s t : RunState}

theorem of_ok {a : α} (h : Forward p) (hp : p s = .ok a t) : Later s t := by
  have := h s
  rwa [hp] at this

theorem pure (a : α) : Forward (Pure.pure a : Run α) :=
  fun s => Later.refl s

theorem bind {f : α → Run β} (hp : Forward p) (hf : ∀ a, Forward (f a)) : Forward (p >>= f) :=
  rel_final_bind (R := Later) Later.trans hp hf

/-- A step leaves fewer of them. -/
theorem step : Forward Run.step := by
  intro s
  unfold Run.step
  split
  · exact Later.refl s
  · rename_i n hn
    exact ⟨by simp [hn], List.prefix_refl _, .of_eq rfl rfl⟩

/-- Evaluating goes forward, since it stands still. -/
theorem eval (room : Nat) (e : Expr) : Forward (Run.eval room e) := by
  intro s
  unfold Run.eval
  cases e.evalWithin s.store s.line room with
  | ok v => exact Later.refl s
  | error e => exact Later.refl s

/-- An assignment goes forward: it touches no output. -/
theorem assign (name : String) (v : Value) (line : Nat) : Forward (Run.assign name v line) := by
  intro s
  unfold Run.assign
  split
  · exact ⟨Nat.le_refl _, List.prefix_refl _, .of_eq rfl rfl⟩
  · exact Later.refl s

/-- What is emitted is put behind the line that was begun. -/
theorem emit (text : String) (newline : Bool) : Forward (Run.emit text newline) := by
  intro s
  have hline (w : String) (hw : s.pending = some w) :
      w.toList <+: (s.pending.getD "" ++ text).toList := by
    rw [hw, Option.getD_some, String.toList_append]
    exact List.prefix_append _ _
  rw [emit_apply, final_ok]
  split
  · -- a line is completed
    refine ⟨Nat.le_refl _, List.prefix_refl _, ?_⟩
    cases hs : s.pending with
    | none => exact .lines hs (by simp)
    | some w => exact .completed hs (hline w hs) (by simp [hs])
  · -- a line is begun or continued
    refine ⟨Nat.le_refl _, List.prefix_refl _, ?_⟩
    cases hs : s.pending with
    | none => exact .lines hs (List.prefix_refl _)
    | some w => exact .begun hs (hline w hs) rfl (by simp [hs])

/-- A reset goes forward: it touches no output. -/
theorem readNothing (word : Keyword) (line : Nat) (name : String) :
    Forward (Run.readNothing word line name) := by
  intro s
  unfold Run.readNothing
  split
  · exact ⟨Nat.le_refl _, by simp, .of_eq rfl rfl⟩
  · exact Later.refl s

/-- Beginning a statement goes forward. -/
theorem enter (breaks : Nat → Bool) (st : Statement) : Forward (Run.enter breaks st) := by
  intro s
  rw [enter_apply]
  split
  · split
    · exact ⟨Nat.le_refl _, List.prefix_refl _, .of_eq rfl rfl⟩
    · exact ⟨Nat.le_refl _, List.prefix_refl _, .of_eq rfl rfl⟩
  · exact Later.refl s

/-- A turn of a `while` loop goes up if what comes behind it does. -/
theorem whileTurn {c : Run Bool} {b rest : Run Unit} (hc : Forward c) (hb : Forward b)
    (hr : Forward rest) : Forward (Run.whileTurn c b rest) := by
  refine hc.bind fun holds => ?_
  cases holds with
  | true => exact hb.bind fun _ => step.bind fun _ => hr
  | false => exact pure ()

/-- One turn of a loop with its condition behind it goes forward if its parts do. -/
theorem repeatTurn {c : Run Bool} {b rest : Run Unit} (hc : Forward c) (hb : Forward b)
    (hr : Forward rest) : Forward (Run.repeatTurn b c rest) := by
  refine step.bind fun _ => hb.bind fun _ => hc.bind fun holds => ?_
  cases holds with
  | true => exact pure ()
  | false => exact hr

/-- All turns of a loop with its condition in front go forward, by induction on their number. -/
theorem whileTurns {c : Run Bool} {b : Run Unit} (hc : Forward c) (hb : Forward b) (n : Nat) :
    Forward (Run.whileTurns c b n) := by
  induction n with
  | zero =>
    rw [whileTurns_zero]
    exact whileTurn hc hb (pure ())
  | succ n ih => exact whileTurn hc hb ih

theorem repeatTurns {c : Run Bool} {b : Run Unit} (hc : Forward c) (hb : Forward b) (n : Nat) :
    Forward (Run.repeatTurns b c n) := by
  induction n with
  | zero => exact step
  | succ n ih => exact repeatTurn hc hb ih

/-- Going forward is closed under all that actions are made of. -/
theorem closed : Closed Forward where
  pure := pure
  bind := bind
  fault _ _ s := Later.refl s
  step := step
  eval := eval
  assign := assign
  emit := emit
  readNothing := readNothing
  enter := enter
  whileLoop hc hb s := whileTurns hc hb s.left s
  repeatLoop hc hb s := repeatTurns hc hb s.left s

end Forward

/-! ## The count of a loop -/

section Loops

variable {c : Run Bool} {b : Run Unit}

/-- A step is taken only from a state with steps left, and leaves fewer. -/
theorem left_lt_of_step {s t : RunState} (h : Run.step s = .ok () t) : t.left < s.left := by
  cases hs : s.left with
  | zero =>
    rw [step_of_left_zero hs] at h
    exact absurd h (by simp)
  | succ n =>
    rw [step_of_left_succ hs] at h
    injection h with _ h
    rw [← h]
    exact Nat.lt_succ_self n

/-- What comes behind a turn starts with fewer steps left. -/
theorem whileTurn_congr (hc : Forward c) (hb : Forward b) {rest rest' : Run Unit} {s : RunState}
    (h : ∀ t, t.left < s.left → rest t = rest' t) :
    whileTurn c b rest s = whileTurn c b rest' s := by
  refine bind_congr_of_ok fun holds t ht => ?_
  cases holds with
  | false => rfl
  | true =>
    refine bind_congr_of_ok fun _ u hu => bind_congr_of_ok fun _ v hv => h v ?_
    have htu := (hb.of_ok hu).left
    have hst := (hc.of_ok ht).left
    have huv := left_lt_of_step hv
    omega

/-- A turn goes on only from where fewer steps are left, so only that much of the rest matters. -/
theorem repeatTurn_congr (hc : Forward c) (hb : Forward b) {rest rest' : Run Unit} {s : RunState}
    (h : ∀ t, t.left < s.left → rest t = rest' t) :
    repeatTurn b c rest s = repeatTurn b c rest' s := by
  refine bind_congr_of_ok fun _ t ht => bind_congr_of_ok fun _ u hu =>
    bind_congr_of_ok fun holds v hv => ?_
  cases holds with
  | true => rfl
  | false =>
    refine h v ?_
    have hst := left_lt_of_step ht
    have htu := (hb.of_ok hu).left
    have huv := (hc.of_ok hv).left
    omega

/-- The count of a loop does not matter, as long as it is not less than the steps that are left. -/
theorem whileTurns_congr (hc : Forward c) (hb : Forward b) {n m : Nat} {s : RunState}
    (hn : s.left ≤ n) (hm : s.left ≤ m) : whileTurns c b n s = whileTurns c b m s := by
  induction n generalizing m s with
  | zero =>
    -- Without steps left no turn comes to its end, and what stands behind it is not reached.
    rw [whileTurns_zero]
    cases m with
    | zero => rw [whileTurns_zero]
    | succ m =>
      rw [whileTurns_succ]
      exact whileTurn_congr hc hb fun t ht => by omega
  | succ n ih =>
    rw [whileTurns_succ]
    cases m with
    | zero =>
      rw [whileTurns_zero]
      exact whileTurn_congr hc hb fun t ht => by omega
    | succ m =>
      rw [whileTurns_succ]
      exact whileTurn_congr hc hb fun t ht => ih (by omega) (by omega)

theorem repeatTurns_of_left_zero {s : RunState} (h : s.left = 0) (n : Nat) :
    repeatTurns b c n s = .error .stepLimit s := by
  cases n with
  | zero => exact step_of_left_zero h
  | succ n => exact bind_of_error (step_of_left_zero h)

/-- So the number of turns does not matter, as long as the steps run out first. -/
theorem repeatTurns_congr (hc : Forward c) (hb : Forward b) {n m : Nat} {s : RunState}
    (hn : s.left ≤ n) (hm : s.left ≤ m) : repeatTurns b c n s = repeatTurns b c m s := by
  induction n generalizing m s with
  | zero =>
    -- Here the first thing a turn does is to take a step, and there is none.
    have hs : s.left = 0 := by omega
    rw [repeatTurns_of_left_zero hs, repeatTurns_of_left_zero hs]
  | succ n ih =>
    cases m with
    | zero =>
      have hs : s.left = 0 := by omega
      rw [repeatTurns_of_left_zero hs, repeatTurns_of_left_zero hs]
    | succ m =>
      rw [repeatTurns_succ, repeatTurns_succ]
      exact repeatTurn_congr hc hb fun t ht => ih (by omega) (by omega)

/-- A `while` loop is a turn with the loop behind it. -/
theorem whileLoop_eq (hc : Forward c) (hb : Forward b) :
    whileLoop c b = whileTurn c b (whileLoop c b) := by
  funext s
  -- One turn more than needed: its own count opens the recursion, and the rest is immaterial.
  have hturn : whileTurns c b (s.left + 1) s = whileTurn c b (whileLoop c b) s :=
    whileTurn_congr hc hb fun t ht => whileTurns_congr hc hb (by omega) (Nat.le_refl _)
  rw [← hturn]
  exact whileTurns_congr hc hb (Nat.le_refl _) (by omega)

/-- A `repeat` loop is a turn with the loop behind it. -/
theorem repeatLoop_eq (hc : Forward c) (hb : Forward b) :
    repeatLoop b c = repeatTurn b c (repeatLoop b c) := by
  funext s
  have hturn : repeatTurns b c (s.left + 1) s = repeatTurn b c (repeatLoop b c) s :=
    repeatTurn_congr hc hb fun t ht => repeatTurns_congr hc hb (by omega) (Nat.le_refl _)
  rw [← hturn]
  exact repeatTurns_congr hc hb (Nat.le_refl _) (by omega)

end Loops

end TurboBench.Pascal

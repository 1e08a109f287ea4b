import TurboBench.Proofs.Pascal.Breakpoints
import TurboBench.Proofs.Pascal.Chronicle
import TurboBench.Proofs.Pascal.TypedRuns

/-!
# Statements fail atomically

A simple statement is begun, takes its step, and does what it has to do (`Statement.deed`). Whatever
can be at fault in it is looked up or computed before the first change, so a fault leaves the state
in which the step was taken. Only a read changes several variables one after the other, and in an
accepted program it cannot be at fault at all, since its targets are declared.

It follows that nothing but simple statements and the counters of loops leaves a trace in the
variables, the output and the warnings of a run: the conditions, branches and loops around them
decide which of them are carried out and in which order, and no more. The simple statements of a
run are put down on the way (`Moment.simple`), the setting of a counter as an assignment. A program
that has only them, without any branch or loop, comes to the same variables, output and warnings
(`Program.Retraces.next`), whatever ended the run that they are from.
-/

set_option autoImplicit false

namespace TurboBench.Pascal

open Run
open RunState (Agrees)

/-! ## Simple statements -/

/-- What a simple statement does when it has been begun and has taken its step. -/
def Statement.deed (room : Nat) : Statement → Run Unit
  | .assign target value line => do
    Run.assign target (← eval room value) line
  | .write newline items line => do
    emit (String.join (← items.mapM (itemText room line))) newline
  | .read newline targets line =>
    targets.forM (readNothing (if newline then .readln else .read) line)
  | _ => return ()

section Simple

variable {breaks : Nat → Bool} {room : Nat} {st : Statement} {s t u : RunState}
  {D : List Declaration}

/-- A simple statement is a step. -/
theorem Statement.isStep_of_isSimple (h : st.isSimple = true) : st.isStep = true := by
  cases st with
  | compound body line => exact nomatch h
  | empty line => exact nomatch h
  | _ => rfl

/-- Carrying out a simple statement is to begin it, to take its step, and to do its deed. -/
theorem Statement.execute_simple (h : st.isSimple = true) :
    st.execute breaks room = (do enter breaks st; step; st.deed room) := by
  cases st with
  | assign target value line => simp [Statement.execute, Statement.perform, Statement.deed]
  | write newline items line => simp [Statement.execute, Statement.perform, Statement.deed]
  | read newline targets line => simp [Statement.execute, Statement.perform, Statement.deed]
  | _ => cases h

theorem Statement.enter_of_clear (h : st.isSimple = true) (hclear : breaks st.line = false) :
    enter breaks st s = .ok () { s with line := st.line } := by
  rw [enter_apply, st.isStep_of_isSimple h, if_pos rfl, hclear, if_neg Bool.false_ne_true]

/-- With no breakpoint on its line and a step to go, a simple statement is what it does. -/
theorem Statement.execute_of_left_succ (h : st.isSimple = true) (hclear : breaks st.line = false)
    {n : Nat} (hleft : s.left = n + 1) :
    st.execute breaks room s = st.deed room { s with left := n, line := st.line } := by
  have htaken : step { s with line := st.line } = .ok () { s with left := n, line := st.line } :=
    step_of_left_succ hleft
  rw [st.execute_simple h, bind_of_ok (st.enter_of_clear h hclear), bind_of_ok htaken]

/-- A simple statement that is at fault is so behind its step. -/
theorem Statement.deed_of_fault (h : st.isSimple = true) {e : RuntimeError}
    (hfault : st.execute breaks room s = .error (.fault e) u) :
    ∃ n, s.left = n + 1
      ∧ st.deed room { s with left := n, line := st.line } = .error (.fault e) u := by
  cases hmarked : breaks st.line with
  | true =>
    have henter : enter breaks st s
        = .error (.breakpoint st.line) { s with line := st.line } := by
      rw [enter_apply, st.isStep_of_isSimple h, if_pos rfl, hmarked, if_pos rfl]
    rw [st.execute_simple h, bind_of_error henter] at hfault
    exact nomatch hfault
  | false =>
    cases hleft : s.left with
    | zero =>
      have hnone : step { s with line := st.line } = .error .stepLimit { s with line := st.line } :=
        step_of_left_zero hleft
      rw [st.execute_simple h, bind_of_ok (st.enter_of_clear h hmarked), bind_of_error hnone]
        at hfault
      exact nomatch hfault
    | succ n =>
      rw [st.execute_of_left_succ h hmarked hleft] at hfault
      exact ⟨n, rfl, hfault⟩

/-- If the statement is a read, its targets are declared. -/
def Statement.ReadsDeclared (D : List Declaration) : Statement → Prop
  | .read _ targets _ => ∀ name ∈ targets, D.any (·.name == name) = true
  | _ => True

/-- The targets of a read are reset, if they are declared. -/
theorem exists_forM_readNothing (word : Keyword) (line : Nat) {names : List String}
    (hs : s.store.Typed D) (hnames : ∀ name ∈ names, D.any (·.name == name) = true) :
    ∃ t, names.forM (readNothing word line) s = .ok () t := by
  induction names generalizing s with
  | nil => exact ⟨s, rfl⟩
  | cons name names ih =>
    obtain ⟨hname, hnames⟩ := List.forall_mem_cons.1 hnames
    obtain ⟨τ, v, hreset, hτ⟩ := hs.reset hname
    have hfirst : ∃ t : RunState, readNothing word line name s = .ok () t ∧ t.store = τ := by
      unfold readNothing
      rw [hreset]
      exact ⟨_, rfl, rfl⟩
    obtain ⟨t, ht, rfl⟩ := hfirst
    obtain ⟨u, hu⟩ := ih hτ hnames
    exact ⟨u, (bind_of_ok ht).trans hu⟩

/-- **A simple statement is carried out in full or not at all.** -/
theorem Statement.eq_of_fault (hs : s.store.Typed D) (h : st.isSimple = true)
    (hread : st.ReadsDeclared D) {e : RuntimeError}
    (hfault : st.execute breaks room s = .error (.fault e) u) :
    ∃ n, s.left = n + 1 ∧ u = { s with left := n, line := st.line } := by
  obtain ⟨n, hleft, hdeed⟩ := st.deed_of_fault h hfault
  refine ⟨n, hleft, ?_⟩
  cases st with
  | assign target value line =>
    have hall : AllOrNothing (deed room (.assign target value line)) :=
      .bind (Looks.eval room value) fun v => .assign target v line
    exact hall _ _ _ hdeed
  | write newline items line =>
    have hall : AllOrNothing (deed room (.write newline items line)) :=
      .bind (Looks.sequential.itemTexts room line items) fun texts =>
        .emit (String.join texts) newline
    exact hall _ _ _ hdeed
  | read newline targets line =>
    obtain ⟨t, ht⟩ := exists_forM_readNothing (s := { s with left := n, line := line })
      (if newline then .readln else .read) line hs hread
    rw [deed, Statement.line, ht] at hdeed
    exact nomatch hdeed
  | _ => exact nomatch h

end Simple

/-! ## The same done from another state -/

/-- What the first action sees, the second one sees too from every state with the same variables,
and neither changes anything. -/
def Sees {α : Type} (p q : Run α) : Prop :=
  ∀ (s : RunState) (a : α) (t : RunState), p s = .ok a t →
    t = s ∧ ∀ u : RunState, u.store = s.store → q u = .ok a u

namespace Sees

variable {α β : Type} {room room' : Nat}

theorem pure (a : α) : Sees (Pure.pure a : Run α) (Pure.pure a) := by
  intro s b t h
  injection h with hab hst
  exact ⟨hst.symm, fun u _ => hab ▸ rfl⟩

/-- Looks one after the other see with more room what they see with less. -/
theorem bind {p q : Run α} {f g : α → Run β} (hp : Sees p q) (hf : ∀ a, Sees (f a) (g a)) :
    Sees (p >>= f) (q >>= g) := by
  intro s b u h
  obtain ⟨a, t, hps, hrest⟩ := exists_of_bind_ok h
  obtain ⟨rfl, hq⟩ := hp s a t hps
  obtain ⟨rfl, hg⟩ := hf a t b u hrest
  exact ⟨rfl, fun v hv => (bind_of_ok (hq v hv)).trans (hg v hv)⟩

theorem fault (line : Nat) (f : Fault) : Sees (Run.fault line f : Run α) (Run.fault line f) :=
  fun _ _ _ h => nomatch h

/-- An expression that has a value has it with more room as well. -/
theorem eval (hroom : room ≤ room') (e : Expr) : Sees (Run.eval room e) (Run.eval room' e) := by
  intro s v t h
  have heval (room : Nat) (t : RunState) :
      Run.eval room e t = check (e.evalWithin t.store t.line room) t := rfl
  rw [heval] at h
  cases hv : e.evalWithin s.store s.line room with
  | error err =>
    rw [hv] at h
    exact nomatch h
  | ok w =>
    rw [hv] at h
    injection h with hwv hst
    refine ⟨hst.symm, fun u hu => ?_⟩
    rw [heval, hu, Expr.evalWithin_of_le e hroom hv, ← hwv]
    rfl

/-- With more room a field has the number that it has with less. -/
theorem fieldNumber (hroom : room ≤ room') (line : Nat) (e : Option Expr) :
    Sees (Run.fieldNumber room line e) (Run.fieldNumber room' line e) := by
  cases e with
  | none => exact pure none
  | some e =>
    refine (eval hroom e).bind fun v => ?_
    cases v with
    | integer n => exact pure (some n)
    | _ => exact fault line _

theorem itemText (hroom : room ≤ room') (line : Nat) (item : WriteItem) :
    Sees (Run.itemText room line item) (Run.itemText room' line item) :=
  (eval hroom item.value).bind fun _ => (fieldNumber hroom line item.width).bind fun _ =>
    (fieldNumber hroom line item.decimals).bind fun _ => pure _

/-- With more room the items of a write have the texts that they have with less. -/
theorem itemTexts (hroom : room ≤ room') (line : Nat) (items : List WriteItem) :
    Sees (items.mapM (Run.itemText room line)) (items.mapM (Run.itemText room' line)) := by
  induction items with
  | nil => exact pure []
  | cons item items ih =>
    rw [List.mapM_cons, List.mapM_cons]
    exact (itemText hroom line item).bind fun _ => ih.bind fun _ => pure _

end Sees

/-- What the first action does, the second one does as well: from a state that agrees it comes to
one that agrees, with the steps that are left there untouched. -/
def Follows (p q : Run Unit) : Prop :=
  ∀ s t u : RunState, s.Agrees t → p s = .ok () u →
    ∃ v, q t = .ok () v ∧ u.Agrees v ∧ v.left = t.left

namespace Follows

/-- What follows a look follows it with more room as well. -/
theorem bind {α : Type} {p q : Run α} {f g : α → Run Unit} (hp : Sees p q)
    (hf : ∀ a, Follows (f a) (g a)) : Follows (p >>= f) (q >>= g) := by
  intro s t u hst h
  obtain ⟨a, s', hps, hrest⟩ := exists_of_bind_ok h
  obtain ⟨rfl, hall⟩ := hp s a s' hps
  obtain ⟨v, hv, huv, hleft⟩ := hf a s' t u hst hrest
  exact ⟨v, (bind_of_ok (hall t hst.store)).trans hv, huv, hleft⟩

/-- An assignment takes no room. -/
theorem assign (name : String) (v : Value) (line : Nat) :
    Follows (Run.assign name v line) (Run.assign name v line) := by
  rintro s t u ⟨left, current, rfl⟩ h
  unfold Run.assign at h ⊢
  cases hset : charge line (s.store.set name v) with
  | error e => rw [hset] at h; exact nomatch h
  | ok σ =>
    rw [hset] at h
    injection h with _ h
    subst h
    simp only
    exact ⟨_, rfl, ⟨left, current, rfl⟩, rfl⟩

theorem emit (text : String) (newline : Bool) :
    Follows (Run.emit text newline) (Run.emit text newline) := by
  rintro s t u ⟨left, current, rfl⟩ h
  rw [emit_apply] at h ⊢
  injection h with _ h
  subst h
  refine ⟨_, rfl, ?_, ?_⟩
  · cases newline with
    | true => exact ⟨left, current, rfl⟩
    | false => exact ⟨left, current, rfl⟩
  · cases newline with
    | true => rfl
    | false => rfl

theorem readNothing (word : Keyword) (line : Nat) (name : String) :
    Follows (Run.readNothing word line name) (Run.readNothing word line name) := by
  rintro s t u ⟨left, current, rfl⟩ h
  unfold Run.readNothing at h ⊢
  cases hreset : s.store.reset? name with
  | none => rw [hreset] at h; exact nomatch h
  | some σv =>
    rw [hreset] at h
    injection h with _ h
    subst h
    simp only
    exact ⟨_, rfl, ⟨left, current, rfl⟩, rfl⟩

theorem forM {α : Type} {f : α → Run Unit} (hf : ∀ a, Follows (f a) (f a)) (as : List α) :
    Follows (as.forM f) (as.forM f) := by
  induction as with
  | nil =>
    intro s t u hst h
    injection h with _ h
    exact ⟨t, rfl, h ▸ hst, rfl⟩
  | cons a as ih =>
    intro s t u hst h
    obtain ⟨_, s', hfirst, hrest⟩ := exists_of_bind_ok h
    obtain ⟨t', ht', hst', hleft'⟩ := hf a s t s' hst hfirst
    obtain ⟨v, hv, huv, hleft⟩ := ih s' t' u hst' hrest
    exact ⟨v, (bind_of_ok ht').trans hv, huv, hleft.trans hleft'⟩

/-- A simple statement does the same with more room. -/
theorem deed {room room' : Nat} (hroom : room ≤ room') (st : Statement) :
    Follows (st.deed room) (st.deed room') := by
  have hnone : Follows (Pure.pure () : Run Unit) (Pure.pure ()) :=
    forM (f := fun _ : Unit => Pure.pure ())
      (fun _ _ t _ hst h => ⟨t, rfl, by injection h with _ h; exact h ▸ hst, rfl⟩) []
  cases st with
  | assign target value line => exact bind (Sees.eval hroom value) fun v => assign target v line
  | write newline items line =>
    exact bind (Sees.itemTexts hroom line items) fun texts => emit _ newline
  | read newline targets line => exact forM (readNothing _ line) targets
  | _ => exact hnone

end Follows

/-! ## The simple statements of a run -/

/-- The simple statement that is carried out when a task is taken up. A counter takes a value by an
assignment. A read counts when it is begun: nothing but its targets is taken up until it is done. -/
def Task.simple : Task → List Statement
  | .begin _ s => if s.isSimple then [s] else []
  | .forTurn _ counter _ first (_ + 1) _ line =>
    [.assign counter (.literal (.integer first) line) line]
  | _ => []

/-- The simple statement that is carried out at a moment. -/
def Moment.simple (m : Moment) : List Statement :=
  match m.tasks with
  | [] => []
  | t :: _ => t.simple

/-- Only simple statements are entered in the log of them. -/
theorem Moment.isSimple_of_logs {breaks : Nat → Bool} {m n : Moment} {ss : List Statement}
    (h : Moment.Logs Moment.simple breaks m ss n) : ∀ st ∈ ss, st.isSimple = true := by
  induction h with
  | refl => exact fun st hst => nomatch hst
  | @tail ss n o _ _ ih =>
    refine List.forall_mem_append.2 ⟨ih, ?_⟩
    obtain ⟨ts, s⟩ := n
    cases ts with
    | nil => exact fun st hst => nomatch hst
    | cons t ts =>
      simp only [Moment.simple]
      unfold Task.simple
      split
      · split
        · exact List.forall_mem_singleton.2 ‹_›
        · exact fun st hst => nomatch hst
      · exact List.forall_mem_singleton.2 rfl
      · exact fun st hst => nomatch hst

theorem performAll_append (breaks : Nat → Bool) (room : Nat) (ss ts : List Statement) :
    performAll breaks room (ss ++ ts)
      = (do performAll breaks room ss; performAll breaks room ts) := by
  rw [← Task.actions_begin, ← Task.actions_begin, ← Task.actions_begin, List.map_append,
    Task.actions_append]

theorem performAll_singleton (breaks : Nat → Bool) (room : Nat) (st : Statement) :
    performAll breaks room [st] = st.execute breaks room := by
  simp [performAll, Statement.execute]

/-- The statements, one after the other and without anything around them, come from the start of the
program to a state that agrees. They take a step each. -/
def Program.Straight (p : Program) (room : Nat) (ss : List Statement) (s : RunState) : Prop :=
  ∃ u, performAll noBreaks room ss (p.start ss.length) = .ok () u ∧ u.left = 0 ∧ u.Agrees s

section Straight

variable {p : Program} {room : Nat} {ss : List Statement} {s u : RunState}

theorem Program.Straight.nil (p : Program) (room budget : Nat) :
    p.Straight room [] (p.start budget) := by
  refine ⟨p.start 0, ?_, rfl, budget, 0, rfl⟩
  rw [performAll]
  rfl

theorem Program.Straight.agrees (h : p.Straight room ss s) (hsu : s.Agrees u) :
    p.Straight room ss u := by
  obtain ⟨v, hv, hleft, hvs⟩ := h
  exact ⟨v, hv, hleft, hvs.trans hsu⟩

/-- A further simple statement does what it does in the run. -/
theorem Program.Straight.append (h : p.Straight room ss s) {st : Statement}
    (hst : st.isSimple = true) {level : Nat} (hlevel : level ≤ room)
    (hdeed : st.deed level s = .ok () u) : p.Straight room (ss ++ [st]) u := by
  obtain ⟨v, hv, hleft, hvs⟩ := h
  -- one more step to go
  have hmore : performAll noBreaks room ss (p.start (ss ++ [st]).length) = .ok () (v.more 1) := by
    have hstart : p.start (ss ++ [st]).length = (p.start ss.length).more 1 := by
      rw [List.length_append, Nat.add_comm]
      rfl
    rw [hstart]
    exact ((Steady.closed.performAll noBreaks room ss).at' _).of_ok hv 1
  have hlast : (v.more 1).left = 0 + 1 := by rw [RunState.more, hleft]
  have hsame : s.Agrees { v.more 1 with left := 0, line := st.line } :=
    hvs.symm.trans ⟨0, st.line, rfl⟩
  obtain ⟨w, hw, huw, hzero⟩ := Follows.deed hlevel st s _ u hsame hdeed
  refine ⟨w, ?_, hzero, huw.symm⟩
  rw [performAll_append, bind_of_ok hmore, performAll_singleton,
    st.execute_of_left_succ hst rfl hlast, hw]

end Straight

/-! ## A run and its simple statements -/

section Retraced

variable {p : Program} {room : Nat} {breaks : Nat → Bool} {ss : List Statement} {m n : Moment}
  {D : List Declaration}

/-- The statements have done what the run has done up to the moment. Where a read is under way, they
have done what is left of it as well. -/
def Program.Retraces (p : Program) (room : Nat) (ss : List Statement) (m : Moment) : Prop :=
  ∃ (word : Keyword) (line : Nat) (names : List String) (rest : List Task) (w : RunState),
    m.tasks = names.map (.reset word line) ++ rest
    ∧ (∀ t ∈ rest, t.isReset = false)
    ∧ names.forM (readNothing word line) m.state = .ok () w ∧ p.Straight room ss w

/-- At a moment at which no read is under way, they have done what the run has done. -/
theorem Program.Straight.retraces (h : p.Straight room ss m.state)
    (hrest : ∀ t ∈ m.tasks, t.isReset = false) : p.Retraces room ss m :=
  ⟨.read, 0, [], m.tasks, m.state, rfl, hrest, rfl, h⟩

/-- A step that is not that of a read does what is put down of it. -/
theorem Program.Straight.next {t : Task} {new ts : List Task} {s u : RunState}
    (hread : t.isRead = false) (hreset : t.isReset = false) (hroom : t.room ≤ room)
    (h : p.Straight room ss s) (hnext : t.next breaks s = .ok new u) :
    p.Straight room (ss ++ Moment.simple ⟨t :: ts, s⟩) u := by
  have hquiet (hdeed : t.isDeed = false) (hnone : t.simple = []) :
      p.Straight room (ss ++ t.simple) u := by
    rw [hnone, List.append_nil]
    exact h.agrees ((t.quiet_next hdeed).of_ok hnext)
  show p.Straight room (ss ++ t.simple) u
  -- Three kinds of tasks do something that is put down: a simple statement, a turn of a counting
  -- loop, which assigns, and a reset, which is not asked about here.
  cases t with
  | begin level st =>
    cases hsimple : st.isSimple with
    | false =>
      refine hquiet ?_ (if_neg (by rw [hsimple]; exact Bool.false_ne_true))
      cases st with
      | assign target value line => cases hsimple
      | write newline items line => cases hsimple
      | _ => rfl
    | true =>
      have hdo : st.next level = (do step; st.deed level; return []) := by
        cases st with
        | assign target value line => simp [Statement.next, Statement.deed]
        | write newline items line => simp [Statement.next, Statement.deed]
        | read newline targets line => cases hread
        | _ => cases hsimple
      obtain ⟨_, s₁, hs₁, h₁⟩ := (Quiet.enter breaks st).exists_of_bind hnext
      rw [hdo] at h₁
      obtain ⟨_, s₂, hs₂, h₂⟩ := Quiet.step.exists_of_bind h₁
      obtain ⟨_, s₃, hdeed, h₃⟩ := exists_of_bind_ok h₂
      injection h₃ with _ hu
      rw [Task.simple, if_pos hsimple]
      exact (h.agrees (hs₁.trans hs₂)).append hsimple hroom (hu ▸ hdeed)
  | reset word line name => cases hreset
  | forTurn level counter by_ first n b line =>
    cases n with
    | zero => exact hquiet rfl rfl
    | succ n =>
      obtain ⟨_, s₁, hassign, h₁⟩ := exists_of_bind_ok hnext
      injection h₁ with _ hu
      have hliteral : eval level (.literal (.integer first) line) s = .ok (.integer first) s := by
        simp only [eval, Expr.evalWithin_literal]
        rfl
      have hdeed : Statement.deed level (.assign counter (.literal (.integer first) line) line) s
          = .ok () u := (bind_of_ok hliteral).trans (hu ▸ hassign)
      exact h.append rfl hroom hdeed
  | _ => exact hquiet rfl rfl

/-- **What is put down of a step retraces it.** -/
theorem Program.Retraces.next (h : p.Retraces room ss m) (hs : m.state.store.Typed D)
    (hfit : ∀ level st, .begin level st ∈ m.tasks → st.ReadsDeclared D)
    (hroom : ∀ t ∈ m.tasks, t.room ≤ room) (hnext : Moment.Next breaks m n) :
    p.Retraces room (ss ++ m.simple) n := by
  obtain ⟨hnext⟩ := hnext
  rename_i t new ts s u
  obtain ⟨word, line, names, rest, w, htasks, hrest, hnames, hstraight⟩ := h
  cases names with
  | cons name names =>
    -- the read goes on with its next target
    injection htasks with ht hts
    subst ht hts
    obtain ⟨_, s₁, hfirst, hothers⟩ := exists_of_bind_ok hnames
    rw [Task.next, bind_of_ok hfirst] at hnext
    injection hnext with hnew hu
    subst hnew hu
    exact ⟨word, line, names, rest, w, rfl, hrest, hothers, (List.append_nil ss).symm ▸ hstraight⟩
  | nil =>
    injection hnames with _ hw
    subst hw
    obtain rfl : t :: ts = rest := htasks
    obtain ⟨ht, hts⟩ := List.forall_mem_cons.1 hrest
    have hlevel := hroom t List.mem_cons_self
    by_cases hread : ∃ level newline targets line, t = .begin level (.read newline targets line)
    · -- a read begins, and all its targets are to be taken up
      obtain ⟨level, newline, targets, line, rfl⟩ := hread
      have hquiet : s.Agrees u :=
        (Task.quiet_next (t := .begin level (.read newline targets line)) rfl).of_ok hnext
      obtain ⟨v, hv⟩ := exists_forM_readNothing (s := u)
        (if newline then .readln else .read) line (hquiet.store ▸ hs)
        (hfit level (.read newline targets line) List.mem_cons_self)
      obtain ⟨_, s₁, _, h₁⟩ := exists_of_bind_ok hnext
      obtain ⟨_, s₂, _, h₂⟩ := exists_of_bind_ok h₁
      injection h₂ with hnew _
      subst hnew
      have hdeed : Statement.deed level (.read newline targets line) u = .ok () v := hv
      exact ⟨_, line, targets, ts, v, rfl, hts, hv,
        (hstraight.agrees hquiet).append rfl hlevel hdeed⟩
    · have hread' : t.isRead = false := by
        unfold Task.isRead
        split
        · exact absurd ⟨_, _, _, _, rfl⟩ hread
        · rfl
      have hnew : ∀ t' ∈ new, t'.isReset = false := by
        intro t' ht'
        have hpart := ((Task.leaves_next breaks t _ _ _ hnext).parts t' ht').2
        rwa [hread', Bool.false_eq_true, imp_false, Bool.not_eq_true] at hpart
      exact (hstraight.next hread' ht hlevel hnext).retraces
        (List.forall_mem_append.2 ⟨hnew, hts⟩)

/-- Nothing is left of a read where a run ends. -/
theorem Program.Retraces.straight_of_ending (h : p.Retraces room ss m) {e : Ending}
    (hending : m.ending? breaks = some e) : p.Straight room ss e.state := by
  have hagrees := Moment.agrees_of_ending hending
  obtain ⟨ts, s⟩ := m
  obtain ⟨word, line, names, rest, w, htasks, hrest, hnames, hstraight⟩ := h
  cases names with
  | cons name names =>
    obtain ⟨_, s₁, hfirst, _⟩ := exists_of_bind_ok hnames
    obtain rfl : ts = (name :: names).map (.reset word line) ++ rest := htasks
    have hnext : (Task.reset word line name).next breaks s = .ok [] s₁ := bind_of_ok hfirst
    simp [Moment.ending?, hnext] at hending
  | nil =>
    injection hnames with _ hw
    subst hw
    exact hstraight.agrees hagrees

/-- **The simple statements of a run retrace it**, if its reads have their variables. -/
theorem Moment.Logs.retraces {budget : Nat}
    (h : Moment.Logs Moment.simple breaks ⟨p.body.map (.begin room), p.start budget⟩ ss m)
    (hs : ∀ m, p.Reaches room budget breaks m → m.state.store.Typed D)
    (hfit : ∀ m, p.Reaches room budget breaks m → ∀ level st, .begin level st ∈ m.tasks →
      st.ReadsDeclared D) :
    p.Retraces room ss m := by
  induction h with
  | refl =>
    exact Program.Straight.retraces (Program.Straight.nil p room budget)
      (List.forall_mem_map.2 fun _ _ => rfl)
  | tail hlogs hnext ih =>
    exact ih.next (hs _ hlogs.reaches) (hfit _ hlogs.reaches)
      (room_le_of_reaches hlogs.reaches) hnext

end Retraced

/-! ## What is asked of a store -/

/-- What can be asked of a store. A type is given by its name. -/
inductive StoreRequest where
  | declare (name typeName : String)
  | get (name : String)
  | set (name : String) (value : Value)
  | reset (name : String)

/-- Why a request is refused. -/
inductive StoreRefusal where
  | unknownType (typeName : String)
  | fault (f : Fault)
  | notDeclared (name : String)

/-- Grants a request, with the value that it asks for or that a reset gives, or refuses it. -/
def StoreRequest.perform : StoreRequest → EStateM StoreRefusal Store (Option Value)
  | declare name typeName => do
    let some t := PascalType.ofName? typeName | throw (.unknownType typeName)
    modify (·.declare name t)
    return none
  | get name => do
    match (← MonadState.get).get name with
    | .ok v => return some v
    | .error f => throw (.fault f)
  | set name value => do
    match (← MonadState.get).set name value with
    | .ok τ =>
      MonadState.set τ
      return none
    | .error f => throw (.fault f)
  | reset name => do
    let some (τ, v) := (← MonadState.get).reset? name | throw (.notDeclared name)
    MonadState.set τ
    return some v

/-- **A request that is refused leaves the store as it is.** -/
theorem StoreRequest.eq_of_refused {r : StoreRequest} {σ τ : Store} {e : StoreRefusal}
    (h : r.perform σ = .error e τ) : τ = σ := by
  -- Every request looks at the store before it changes it, and refuses after the look.
  cases r with
  | declare name typeName =>
    rw [perform] at h
    cases htype : PascalType.ofName? typeName with
    | none =>
      rw [htype] at h
      injection h with _ h
      exact h.symm
    | some t =>
      rw [htype] at h
      exact nomatch h
  | get name =>
    rw [perform, look_apply] at h
    cases hget : σ.get name with
    | ok v =>
      rw [hget] at h
      exact nomatch h
    | error f =>
      rw [hget] at h
      injection h with _ h
      exact h.symm
  | set name value =>
    rw [perform, look_apply] at h
    cases hset : σ.set name value with
    | ok v =>
      rw [hset] at h
      exact nomatch h
    | error f =>
      rw [hset] at h
      injection h with _ h
      exact h.symm
  | reset name =>
    rw [perform, look_apply] at h
    cases hreset : σ.reset? name with
    | some τv =>
      rw [hreset] at h
      exact nomatch h
    | none =>
      rw [hreset] at h
      injection h with _ h
      exact h.symm

/-! ## Runs of accepted programs -/

/-- The result of a program that has only the statements of a row. -/
theorem Program.Straight.execute {p : Program} {room : Nat} {ss : List Statement} {s : RunState}
    (h : p.Straight room ss s) :
    ({ p with body := ss } : Program).execute room ss.length noBreaks = {
      success := true
      output := s.written
      finalValues := s.store.toList
      steps := ss.length
      stepLimitReached := false
      error := none
      warnings := s.warnings.toList
      breakpointLine := none } := by
  obtain ⟨u, hu, hleft, hus⟩ := h
  have hrun : ({ p with body := ss } : Program).run room ss.length noBreaks = ⟨none, u⟩ := by
    unfold Program.run
    rw [show ({ p with body := ss } : Program).start ss.length = p.start ss.length from rfl, hu]
  simp only [Program.execute, Int.toNat_natCast, hrun, hleft, hus.written, hus.store, hus.warnings]
  simp [RunState.written]

/-- That the simple statements of a program fail atomically in its runs under a limit and with
breakpoints. -/
structure Program.FailsAtomically (p : Program) (room : Nat) (limit : Int)
    (breaks : Nat → Bool) : Prop where
  /-- At no moment of a run does a simple statement that is at fault change anything but the number
  of steps that are left, which is one less, and the line that is noted. -/
  statement : ∀ m, p.Reaches room limit.toNat breaks m → ∀ st : Statement, st.isSimple = true →
    st.ReadsDeclared p.declarations → ∀ (level : Nat) (e : RuntimeError) (u : RunState),
      st.execute breaks level m.state = .error (.fault e) u →
      ∃ n, m.state.left = n + 1 ∧ u = { m.state with left := n, line := st.line }
  /-- The reads of the program itself have what they need for this. -/
  declared : ∀ m, p.Reaches room limit.toNat breaks m → ∀ level st,
    .begin level st ∈ m.tasks → st.ReadsDeclared p.declarations
  /-- The simple statements that a run completes can be put down. -/
  logged : ∃ ss m, p.LogsTo Moment.simple room limit.toNat breaks ss m
  simple : ∀ ss m, p.LogsTo Moment.simple room limit.toNat breaks ss m →
    ∀ st ∈ ss, st.isSimple = true
  /-- By themselves they come to what the run has come to, whatever ended it: the same variables and
  warnings, and the same output before the line that tells how it was stopped. -/
  retraced : ∀ ss m, p.LogsTo Moment.simple room limit.toNat breaks ss m →
    ∃ output,
      ({ p with body := ss } : Program).execute room ss.length noBreaks = {
          success := true
          output := output
          finalValues := (p.execute room limit breaks).finalValues
          steps := ss.length
          stepLimitReached := false
          error := none
          warnings := (p.execute room limit breaks).warnings
          breakpointLine := none }
        ∧ (p.execute room limit breaks).output
            = output ++ (p.execute room limit breaks).statusLine?.toList

/-- **Statements fail atomically.** For every program that is accepted, every limit and all
breakpoints; and for whatever is asked of a store. -/
theorem failsAtomically {source : List Char} {p : Program} (h : compile source = .ok p)
    (room : Nat) (limit : Int) (breaks : Nat → Bool) :
    p.FailsAtomically room limit breaks ∧ ∀ (r : StoreRequest) (σ τ : Store) (e : StoreRefusal),
      r.perform σ = .error e τ → τ = σ := by
  have htyped := (typed_of_reaches h room limit.toNat breaks).1
  have hdeclared (m : Moment) (hm : p.Reaches room limit.toNat breaks m) (level : Nat)
      (st : Statement) (hst : .begin level st ∈ m.tasks) : st.ReadsDeclared p.declarations := by
    have hfit := isFit_of_reaches h hm _ hst
    cases st with
    | read newline targets line => exact Statement.uses_read.1 hfit
    | _ => exact True.intro
  refine ⟨⟨?_, hdeclared, p.exists_logsTo _ _ _ _,
    fun ss m hlog => Moment.isSimple_of_logs hlog.logs, ?_⟩,
    fun _ _ _ _ => StoreRequest.eq_of_refused⟩
  · intro m hm st hst hread level e u hfault
    exact st.eq_of_fault (htyped m hm) hst hread hfault
  · intro ss m hlog
    have hstraight := (hlog.logs.retraces htyped hdeclared).straight_of_ending hlog.ends
    exact ⟨_, hstraight.execute, output_execute p room limit breaks⟩

/-- A program that is stopped in its third statement, with a line begun. -/
def stumbleSource : List Char :=
  "program stumble; var n: integer;\nbegin n := 2; write(n); n := n div 0 end.".toList

/-- The program of `stumbleSource`. -/
def stumble : Program where
  name := "stumble"
  declarations := [⟨"n", .integer, 1⟩]
  constants := []
  body := [
    .assign "n" (.literal (.integer 2) 2) 2,
    .write false [⟨.variable "n" 2, none, none⟩] 2,
    .assign "n" (.binary .div (.variable "n" 2) (.literal (.integer 0) 2) 2) 2]

theorem compile_stumble : compile stumbleSource = .ok stumble := by
  cbv

example : (stumble.run 480 100 noBreaks).state.written = ["2"] := by cbv

theorem failsAtomically_stumble :
    compile stumbleSource = .ok stumble
      ∧ (stumble.run 480 100 noBreaks).stop = some (.fault ⟨.divisionByZero, 2⟩)
      ∧ stumble.FailsAtomically 480 100 noBreaks :=
  ⟨compile_stumble, by cbv, (failsAtomically compile_stumble 480 100 noBreaks).1⟩

end TurboBench.Pascal

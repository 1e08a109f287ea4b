import TurboBench.Proofs.Pascal.Accepted
import TurboBench.Proofs.Pascal.SmallSteps
import TurboBench.Proofs.Pascal.ValueRange

/-!
# Variables keep their types

An accepted program starts with a store in which every declared variable holds a value of its type
(`Store.typed_declared`), and each step of a run keeps the store so (`Task.guarded_next`): what is
assigned has passed the check of the variable's type, and what is read is the initial value of the
type. So the store is typed at every moment of every run (`typed_of_reaches`), and the values of all
expressions are in range there.

The step lemma also says what stops a run. The names that a task looks up are declared, so it is
never a name; and an integer that is assigned to a real is in range, so a real is near it.
-/

set_option autoImplicit false

namespace TurboBench.Pascal

open Run

/-- A stop that a run of an accepted program can come to. -/
def Stop.Possible (L : Prop) : Stop → Prop
  | .fault e => e.fault.Possible L
  | _ => True

/-- The postcondition of an action: from a state whose store is typed it leads to one, with a result
that satisfies `G` or with a stop that is possible. -/
def Guarded {α : Type} (L : Prop) (D : List Declaration) (G : α → Prop) (p : Run α) : Prop :=
  ∀ s, s.store.Typed D → match p s with
    | .ok a t => t.store.Typed D ∧ G a
    | .error e t => t.store.Typed D ∧ e.Possible L

section Guarded

variable {α β : Type} {L : Prop} {D : List Declaration} {G : α → Prop} {H : β → Prop} {p : Run α}
  {f : α → Run β}

namespace Guarded

theorem pure {a : α} (h : G a) : Guarded L D G (Pure.pure a : Run α) := by
  intro s hs
  exact ⟨hs, h⟩

/-- One guarded action behind another: the second may use what the first yields. -/
theorem bind (hp : Guarded L D G p) (hf : ∀ a, G a → Guarded L D H (f a)) :
    Guarded L D H (p >>= f) := by
  intro s hs
  have hfirst := hp s hs
  cases hps : p s with
  | ok a t =>
    rw [hps] at hfirst
    rw [bind_of_ok hps]
    exact hf a hfirst.2 t hfirst.1
  | error e t =>
    rw [hps] at hfirst
    rw [bind_of_error hps]
    exact hfirst

theorem fault {line : Nat} {f : Fault} (h : f.Possible L) : Guarded L D G (Run.fault line f) := by
  intro s hs
  exact ⟨hs, h⟩

theorem ite {b : Bool} {q : Run α} (hp : b = true → Guarded L D G p) (hq : Guarded L D G q) :
    Guarded L D G (if b then p else q) := by
  cases b with
  | true => exact hp rfl
  | false => exact hq

/-- An action for every item of a list is guarded, if it is for each of them. -/
theorem mapM {γ δ : Type} {f : γ → Run δ} {as : List γ} {K : δ → Prop}
    (h : ∀ a ∈ as, Guarded L D K (f a)) : Guarded L D (fun _ => True) (as.mapM f) := by
  induction as with
  | nil => exact .pure True.intro
  | cons a as ih =>
    obtain ⟨ha, has⟩ := List.forall_mem_cons.1 h
    rw [List.mapM_cons]
    exact ha.bind fun _ _ => (ih has).bind fun _ _ => .pure True.intro

end Guarded

/-! ## Primitive actions -/

/-- Taking a step changes no variable, and can only meet the limit. -/
theorem guarded_step : Guarded L D (fun _ => True) Run.step := by
  intro s hs
  cases hleft : s.left with
  | zero =>
    rw [step_of_left_zero hleft]
    exact ⟨hs, True.intro⟩
  | succ n =>
    rw [step_of_left_succ hleft]
    exact ⟨hs, True.intro⟩

/-- Writing changes no variable. -/
theorem guarded_emit (text : String) (newline : Bool) :
    Guarded L D (fun _ => True) (Run.emit text newline) := by
  intro s hs
  rw [emit_apply]
  refine ⟨?_, True.intro⟩
  split
  · exact hs
  · exact hs

/-- Beginning a statement changes no variable, and can only meet a breakpoint. -/
theorem guarded_enter (breaks : Nat → Bool) (st : Statement) :
    Guarded L D (fun _ => True) (Run.enter breaks st) := by
  intro s hs
  rw [enter_apply]
  by_cases hstep : st.isStep = true
  · rw [if_pos hstep]
    by_cases hbreak : breaks st.line = true
    · rw [if_pos hbreak]
      exact ⟨hs, True.intro⟩
    · rw [if_neg hbreak]
      exact ⟨hs, True.intro⟩
  · rw [if_neg hstep]
    exact ⟨hs, True.intro⟩

/-- Reading a declared variable leaves the store typed. -/
theorem guarded_readNothing (word : Keyword) (line : Nat) {name : String}
    (hname : D.any (·.name == name) = true) :
    Guarded L D (fun _ => True) (Run.readNothing word line name) := by
  intro s hs
  obtain ⟨τ, v, hreset, hτ⟩ := hs.reset hname
  unfold Run.readNothing
  rw [hreset]
  exact ⟨hτ, True.intro⟩

section Fit

variable {X : Extent}

/-- Assigning a value of the range to a declared variable leaves the store typed, or has a fault
that is possible. -/
theorem guarded_assign {name : String} (hname : D.any (·.name == name) = true) {v : Value}
    {fixed : Option String} (hv : v.Within X fixed) (line : Nat) :
    Guarded X.moderate D (fun _ => True) (Run.assign name v line) := by
  intro s hs
  have hset := (hs.sound_set hname hv).charge line
  unfold Run.assign
  cases hcharge : charge line (s.store.set name v) with
  | ok τ =>
    rw [hcharge] at hset
    exact ⟨hset, True.intro⟩
  | error e =>
    rw [hcharge] at hset
    exact ⟨hs, hset⟩

/-- A fit expression has a value of the range in a typed store, or a fault that is possible. -/
theorem guarded_eval (room : Nat) {e : Expr} (he : ∀ x ∈ e.nodes, x.IsFit X D) :
    Guarded X.moderate D (Value.Within X e.fixedText?) (Run.eval room e) := by
  intro s hs
  have hvalue := sound_evalWithin hs s.line e room he
  unfold Run.eval
  cases heval : e.evalWithin s.store s.line room with
  | ok v =>
    rw [heval] at hvalue
    exact ⟨hs, hvalue⟩
  | error err =>
    rw [heval] at hvalue
    exact ⟨hs, hvalue⟩

/-- The same of a condition. -/
theorem guarded_condition (room : Nat) {e : Expr} (he : ∀ x ∈ e.nodes, x.IsFit X D) (line : Nat) :
    Guarded X.moderate D (fun _ => True) (Run.condition room e line) := by
  refine (guarded_eval room he).bind fun v _ => ?_
  cases v with
  | boolean b => exact .pure True.intro
  | _ => exact .fault True.intro

/-- The same of a width or a number of places. -/
theorem guarded_fieldNumber (room line : Nat) {e : Option Expr}
    (he : ∀ e' ∈ e, ∀ x ∈ e'.nodes, x.IsFit X D) :
    Guarded X.moderate D (fun _ => True) (Run.fieldNumber room line e) := by
  cases e with
  | none => exact .pure True.intro
  | some e =>
    refine (guarded_eval room (he e rfl)).bind fun v _ => ?_
    cases v with
    | integer n => exact .pure True.intro
    | _ => exact .fault True.intro

/-- The same of an item of a write. -/
theorem guarded_itemText (room line : Nat) {item : WriteItem}
    (h : item.Uses fun e => ∀ x ∈ e.nodes, x.IsFit X D) :
    Guarded X.moderate D (fun _ => True) (Run.itemText room line item) := by
  obtain ⟨hvalue, hrest⟩ := List.forall_mem_cons.1 h
  obtain ⟨hwidth, hdecimals⟩ := List.forall_mem_append.1 hrest
  refine (guarded_eval room hvalue).bind fun v _ => ?_
  refine (guarded_fieldNumber room line fun e he => hwidth e ?_).bind fun width _ => ?_
  · exact Option.mem_toList.2 he
  refine (guarded_fieldNumber room line fun e he => hdecimals e ?_).bind fun decimals _ => ?_
  · exact Option.mem_toList.2 he
  exact .pure True.intro

/-! ## Steps -/

/-- A statement whose expressions can be evaluated and whose targets are declared. -/
abbrev Statement.IsFit (X : Extent) (D : List Declaration) (s : Statement) : Prop :=
  s.Uses (fun e => ∀ x ∈ e.nodes, x.IsFit X D) (fun name => D.any (·.name == name) = true)

/-- What a task needs to be done. The values that a counter is still to take are in range. -/
def Task.IsFit (X : Extent) (D : List Declaration) : Task → Prop
  | .begin _ s => s.IsFit X D
  | .reset _ _ name => D.any (·.name == name) = true
  | .whileTest _ c b _ | .whileNext _ c b _ =>
    (∀ x ∈ c.nodes, x.IsFit X D) ∧ b.IsFit X D
  | .repeatTurn _ b c _ | .untilTest _ b c _ =>
    (∀ x ∈ c.nodes, x.IsFit X D) ∧ ∀ s ∈ b, s.IsFit X D
  | .forTurn _ counter by_ first n b _ | .forNext _ counter by_ first n b _ =>
    D.any (·.name == counter) = true ∧ b.IsFit X D
      ∧ ∀ k : Nat, k < n → X.Has (first + k * by_)

/-- The values that a counter takes lie between its bounds. -/
theorem has_turnCount {first last : Int} (hfirst : X.Has first) (hlast : X.Has last) {down : Bool}
    {k : Nat} (hk : k < turnCount first last down) :
    X.Has (first + k * (if down then -1 else 1)) := by
  simp only [Extent.Has, turnCount] at *
  cases down with
  | true =>
    simp only [if_true] at *
    omega
  | false =>
    simp only [Bool.false_eq_true, if_false] at *
    omega

/-- The statements that a selector leads to are fit, if all of the case are. -/
theorem isFit_chosen {v : Value} {otherwise : List Statement} {bs : List (List Value × Statement)}
    (hbs : ∀ b ∈ bs, b.2.IsFit X D) (ho : ∀ s ∈ otherwise, s.IsFit X D) :
    ∀ s ∈ chosen v otherwise bs, s.IsFit X D := by
  induction bs with
  | nil => exact ho
  | cons b bs ih =>
    obtain ⟨labels, s⟩ := b
    obtain ⟨hs, hbs⟩ := List.forall_mem_cons.1 hbs
    unfold chosen
    split
    · exact List.forall_mem_singleton.2 hs
    · exact ih hbs

/-- The first part of a fit statement leaves the store typed, and tasks that are fit. -/
theorem guarded_statement (room : Nat) {s : Statement} (h : s.IsFit X D) :
    Guarded X.moderate D (fun ts => ∀ t ∈ ts, t.IsFit X D) (s.next room) := by
  -- What the typing of a statement says of its parts is what its first step asks for, in this
  -- order.
  cases s with
  | assign target value line =>
    obtain ⟨hvalue, htarget⟩ := Statement.uses_assign.1 h
    refine guarded_step.bind fun _ _ => ?_
    refine (guarded_eval room hvalue).bind fun v hv => ?_
    exact (guarded_assign htarget hv line).bind fun _ _ => .pure (by simp)
  | write newline items line =>
    have hitems := Statement.uses_write.1 h
    refine guarded_step.bind fun _ _ => ?_
    refine (Guarded.mapM fun item hitem =>
      guarded_itemText room line (hitems item hitem)).bind fun texts _ => ?_
    exact (guarded_emit _ newline).bind fun _ _ => .pure (by simp)
  | read newline targets line =>
    refine guarded_step.bind fun _ _ => .pure ?_
    exact List.forall_mem_map.2 (Statement.uses_read.1 h)
  | ifThen c t e line =>
    cases e with
    | none =>
      obtain ⟨hc, ht⟩ := Statement.uses_ifThen.1 h
      refine guarded_step.bind fun _ _ => ?_
      refine (guarded_condition room hc line).bind fun holds _ => ?_
      exact .ite (fun _ => .pure (List.forall_mem_singleton.2 ht)) (.pure (by simp))
    | some e =>
      obtain ⟨hc, ht, he⟩ := Statement.uses_ifThenElse.1 h
      refine guarded_step.bind fun _ _ => ?_
      refine (guarded_condition room hc line).bind fun holds _ => ?_
      exact .ite (fun _ => .pure (List.forall_mem_singleton.2 ht))
        (.pure (List.forall_mem_singleton.2 he))
  | whileDo c b line =>
    refine guarded_step.bind fun _ _ => .pure ?_
    exact List.forall_mem_singleton.2 (Statement.uses_whileDo.1 h)
  | repeatUntil b c line =>
    exact .pure (List.forall_mem_singleton.2 (Statement.uses_repeatUntil.1 h))
  | forTo counter first last down b line =>
    obtain ⟨⟨hfirst, hlast, hcounter⟩, hb⟩ := Statement.uses_forTo.1 h
    refine guarded_step.bind fun _ _ => ?_
    refine (guarded_eval room hfirst).bind fun v hv => ?_
    refine (guarded_eval room hlast).bind fun w hw => ?_
    split
    · refine .pure (List.forall_mem_singleton.2 ⟨hcounter, hb, ?_⟩)
      -- the value of a turn lies between those of the two bounds
      intro k hk
      exact has_turnCount hv hw hk
    · exact .fault True.intro
  | caseOf selector branches otherwise line =>
    obtain ⟨hselector, hbranches, hotherwise⟩ := Statement.uses_caseOf.1 h
    refine guarded_step.bind fun _ _ => ?_
    refine (guarded_eval room hselector).bind fun v _ => .pure ?_
    exact List.forall_mem_map.2 (isFit_chosen hbranches hotherwise)
  | compound body line =>
    exact .pure (List.forall_mem_map.2 (Statement.uses_compound.1 h))
  | empty line => exact .pure (by simp)

/-- **A step keeps the store typed**, and the tasks that it leaves can be done as well. -/
theorem Task.guarded_next (breaks : Nat → Bool) {t : Task} (h : t.IsFit X D) :
    Guarded X.moderate D (fun ts => ∀ t ∈ ts, t.IsFit X D) (t.next breaks) := by
  cases t with
  | begin room s =>
    exact (guarded_enter breaks s).bind fun _ _ => guarded_statement room h
  | reset word line name =>
    exact (guarded_readNothing word line h).bind fun _ _ => .pure (by simp)
  | whileTest room c b line =>
    refine (guarded_condition room h.1 line).bind fun holds _ => ?_
    refine .ite (fun _ => .pure ?_) (.pure (by simp))
    exact List.forall_mem_cons.2 ⟨h.2, List.forall_mem_singleton.2 h⟩
  | whileNext room c b line =>
    exact guarded_step.bind fun _ _ => .pure (List.forall_mem_singleton.2 h)
  | repeatTurn room b c line =>
    refine guarded_step.bind fun _ _ => .pure ?_
    exact List.forall_mem_append.2 ⟨List.forall_mem_map.2 h.2, List.forall_mem_singleton.2 h⟩
  | untilTest room b c line =>
    refine (guarded_condition room h.1 line).bind fun holds _ => ?_
    exact .ite (fun _ => .pure (by simp)) (.pure (List.forall_mem_singleton.2 h))
  | forTurn room counter by_ first n b line =>
    cases n with
    | zero => exact .pure (by simp)
    | succ n =>
      -- The turns that are left count on from the value behind this one, so their values are those
      -- of `hvalues` but for the first.
      obtain ⟨hcounter, hb, hvalues⟩ := h
      have hfirst := hvalues 0 (Nat.succ_pos n)
      rw [Int.natCast_zero, Int.zero_mul, Int.add_zero] at hfirst
      have hvalue : (Value.integer first).Within X none := hfirst
      refine (guarded_assign hcounter hvalue line).bind fun _ _ => .pure ?_
      refine List.forall_mem_cons.2 ⟨hb, List.forall_mem_singleton.2 ⟨hcounter, hb, ?_⟩⟩
      intro k hk
      have hnext := hvalues (k + 1) (Nat.succ_lt_succ hk)
      rw [Int.natCast_succ, Int.add_mul, Int.one_mul, Int.add_comm (k * by_), ← Int.add_assoc]
        at hnext
      exact hnext
  | forNext room counter by_ first n b line =>
    exact guarded_step.bind fun _ _ => .pure (List.forall_mem_singleton.2 h)

end Fit

end Guarded

/-! ## Runs of accepted programs -/

/-- The texts that there are have fewer characters than this. -/
def textLimit : Nat := 2 ^ 63

/-- The range that takes in the lengths of the fixed texts of a source: a literal is no longer than
the source, and its capitals no more than three times as long as it is. -/
def Extent.ofSource (source : List Char) : Extent where
  bits := max 31 (3 * source.length).size
  moderate := source.length < textLimit
  integers := Nat.le_max_left _ _
  near h := by
    refine Nat.max_le.2 ⟨by decide, Nat.size_le.2 ?_⟩
    unfold textLimit at h
    omega

/-- No `length` in the program is that of a fixed text too long for the range. -/
def Program.LengthsFit (p : Program) (X : Extent) : Prop :=
  ∀ (e : Expr) (line : Nat), .call .length e line ∈ p.nodes →
    ∀ s ∈ e.fixedText?, s.length < 2 ^ X.bits

section Accepted

variable {source : List Char} {p : Program}

/-- A literal that the source spells is a value of every range. -/
theorem within_of_spelledIn {X : Extent} {v : Value} {line : Nat}
    (h : v.SpelledIn (tokenize source).tokens) :
    v.Within X (Expr.literal v line).fixedText? := by
  cases v with
  | integer n => exact Extent.has_of_inRange (Int.le_trans (by decide) h.1) h.2
  | real x => exact fun _ => h
  | boolean b => exact True.intro
  | text s => exact .inl rfl

/-- The expressions of an accepted program are fit for every range that its lengths are in. -/
theorem isFit_of_mem_nodes {X : Extent} (h : compile source = .ok p) (hlengths : p.LengthsFit X)
    {e : Expr} (he : e ∈ p.nodes) : e.IsFit X p.declarations := by
  have hknown := (closed_of_compile h).nodes e he
  unfold Expr.IsKnown at hknown
  unfold Expr.IsFit
  split
  · exact within_of_spelledIn hknown
  · exact hknown.1
  · exact hlengths _ _ he
  · exact True.intro

/-- Every statement of an accepted program is fit, since its targets are declared and its
expressions fit. -/
theorem isFit_of_mem_body {X : Extent} (h : compile source = .ok p) (hlengths : p.LengthsFit X)
    {s : Statement} (hs : s ∈ p.body) : s.IsFit X p.declarations := by
  refine (uses_all_iff p.body).1 ⟨?_, ?_⟩ s hs
  · intro e he x hx
    exact isFit_of_mem_nodes h hlengths (List.mem_flatMap.2 ⟨e, he, hx⟩)
  · intro name hname
    exact ((closed_of_compile h).targets name hname).1

/-- The capitals of a fixed text of an accepted program are no more than three times as many as the
characters of its source. -/
theorem length_upper_fixedText_le (h : compile source = .ok p) :
    (e : Expr) → (∀ x ∈ e.nodes, x ∈ p.nodes) → ∀ s ∈ e.fixedText?,
      (Text.upper s.toList).length ≤ 3 * source.length
  | .literal v line, he, s, hs => by
    have hknown := (closed_of_compile h).nodes _ (he _ (Expr.mem_nodes_self _))
    cases v with
    | text t =>
      obtain rfl := Option.some.inj hs
      have hlength := length_le_of_spelledIn hknown
      have hupper := Text.length_upper_le t.toList
      rw [String.length_toList] at hupper
      omega
    | _ => exact nomatch hs
  | .call f e line, he, s, hs => by
    -- Only `upcase` has a fixed text, and capitals of capitals are no more.
    cases f with
    | upcase =>
      obtain ⟨t, ht, rfl⟩ := Option.map_eq_some_iff.1 hs
      rw [String.toList_ofList, Text.length_upper_upper]
      exact length_upper_fixedText_le h e (fun x hx => he x (List.mem_cons_of_mem _ hx)) t ht
    | _ => exact nomatch hs
  | .variable .., _, _, hs => nomatch hs
  | .unary .., _, _, hs => nomatch hs
  | .binary .., _, _, hs => nomatch hs

theorem Expr.mem_nodes_of_mem {e x : Expr} (he : e ∈ p.nodes) (hx : x ∈ e.nodes) : x ∈ p.nodes := by
  obtain ⟨outer, houter, hinner⟩ := List.mem_flatMap.1 he
  exact List.mem_flatMap.2 ⟨outer, houter, Expr.nodes_subset hinner hx⟩

/-- The lengths of fixed texts fit in the range that the length of the source gives. -/
theorem lengthsFit_ofSource (h : compile source = .ok p) :
    p.LengthsFit (.ofSource source) := by
  intro e line he s hs
  have hupper := length_upper_fixedText_le h e
    (fun x hx => Expr.mem_nodes_of_mem he (List.mem_cons_of_mem _ hx)) s hs
  have hlength := Text.length_le_length_upper s.toList
  rw [String.length_toList] at hlength
  have hbits : 3 * source.length < 2 ^ (Extent.ofSource source).bits :=
    Nat.size_le.1 (Nat.le_max_right _ _)
  omega

/-- The step lemma for the tasks of an accepted program. -/
theorem Task.typed_next (breaks : Nat → Bool) {t : Task} {s : RunState}
    (ht : t.IsFit (.ofSource source) p.declarations) (hs : s.store.Typed p.declarations) :
    match t.next breaks s with
    | .ok ts u => u.store.Typed p.declarations
        ∧ ∀ t ∈ ts, t.IsFit (.ofSource source) p.declarations
    | .error e u => u.store.Typed p.declarations ∧ e.Possible (source.length < textLimit) := by
  have hkept := Task.guarded_next breaks ht s hs
  generalize t.next breaks s = result at hkept
  cases result with
  | ok ts u => exact hkept
  | error e u => exact hkept

/-- **The store is typed throughout a run**, and a run stops only as it can. -/
theorem typed_of_reaches (h : compile source = .ok p) (room budget : Nat) (breaks : Nat → Bool) :
    (∀ m, p.Reaches room budget breaks m → m.state.store.Typed p.declarations)
      ∧ (p.run room budget breaks).state.store.Typed p.declarations
      ∧ ∀ e ∈ (p.run room budget breaks).stop, e.Possible (source.length < textLimit) := by
  have hstart : (p.start budget).store.Typed p.declarations :=
    Store.typed_declared (closed_of_compile h).distinct
  exact invariant_of_next (I := fun s => s.store.Typed p.declarations)
    (S := Stop.Possible (source.length < textLimit)) hstart
    (fun s hs => isFit_of_mem_body h (lengthsFit_ofSource h) hs)
    fun t s ht hs => Task.typed_next breaks ht hs

/-- The tasks of every moment can be done. -/
theorem isFit_of_reaches (h : compile source = .ok p) {room budget : Nat} {breaks : Nat → Bool}
    {m : Moment} (hm : p.Reaches room budget breaks m) :
    ∀ t ∈ m.tasks, t.IsFit (.ofSource source) p.declarations := by
  have hstart : (p.start budget).store.Typed p.declarations :=
    Store.typed_declared (closed_of_compile h).distinct
  exact (invariant_of_reaches (I := fun s => s.store.Typed p.declarations)
    (S := Stop.Possible (source.length < textLimit)) hstart
    (fun s hs => isFit_of_mem_body h (lengthsFit_ofSource h) hs)
    (fun t s ht hs => Task.typed_next breaks ht hs) hm).2

/-- The values of all expressions are in every range that the lengths are in, at every moment of a
run. -/
theorem within_of_reaches {X : Extent} (h : compile source = .ok p) (hlengths : p.LengthsFit X)
    {room budget : Nat} {breaks : Nat → Bool} {m : Moment}
    (hm : p.Reaches room budget breaks m) {e : Expr} (he : e ∈ p.nodes) (stepLine depth : Nat) :
    SoundAt X.moderate (Value.Within X e.fixedText?)
      (e.evalWithin m.state.store stepLine depth) := by
  refine sound_evalWithin ((typed_of_reaches h room budget breaks).1 m hm) stepLine e depth ?_
  intro x hx
  exact isFit_of_mem_nodes h hlengths (Expr.mem_nodes_of_mem he hx)

end Accepted

/-- A typed store lists the declared variables in order, each with a value of its type. -/
theorem Store.Typed.forall₂ {D : List Declaration} {σ : Store} (h : σ.Typed D) :
    List.Forall₂ (fun d x => x.1 = d.name ∧ x.2.HasType d.type) D σ.toList := by
  obtain ⟨hlayout, hvalues⟩ := h
  obtain ⟨cells⟩ := σ
  unfold Store.toList
  simp only at *
  induction cells generalizing D with
  | nil =>
    obtain rfl := List.map_eq_nil_iff.1 hlayout.symm
    exact .nil
  | cons v cells ih =>
    cases D with
    | nil => exact nomatch hlayout
    | cons d D =>
      obtain ⟨hv, hcells⟩ := List.forall_mem_cons.1 hvalues
      rw [List.map_cons, List.map_cons, List.cons.injEq, Prod.mk.injEq] at hlayout
      obtain ⟨⟨hname, htype⟩, hlayout⟩ := hlayout
      exact .cons ⟨hname, htype ▸ hv⟩ (ih hlayout hcells)

/-- A text that grows until it has three marks. -/
def marksSource : List Char :=
  "program marks; var s: string;\nbegin\n  while length(s) < 3 do s := s + '*'\nend.".toList

/-- The program of `marksSource`. -/
def marks : Program where
  name := "marks"
  declarations := [⟨"s", .string, 1⟩]
  constants := []
  body := [.whileDo
    (.binary .less (.call .length (.variable "s" 3) 3) (.literal (.integer 3) 3) 3)
    (.assign "s" (.binary .add (.variable "s" 3) (.literal (.text "*") 3) 3) 3) 3]

theorem compile_marks : compile marksSource = .ok marks := by
  cbv

end TurboBench.Pascal

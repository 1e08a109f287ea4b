import TurboBench.Proofs.Pascal.Chronicle

/-!
# No output is lost

While a run goes on its output is kept in two parts: the lines that are complete, and the line that
was begun last, if there is one. What a run has written is a row of texts, each with a mark that
says whether it ends its line. `outputLines` says what lines such a row comes to, read from its
first text to its last; the run, which only ever adds at the end, comes to the same lines
(`written_foldl_emit`), because a begun line stands for one more text in front of those to come.

The row is put down by `Moment.Logs`, with the texts that the items of each write have when it is
carried out. A write that is at fault is not put down, and whatever ends a run leaves the output as
it is. So the output of a result is the lines of what was written and then the line that tells how
the run was stopped, if it was.
-/

set_option autoImplicit false

namespace TurboBench.Pascal

open Run
open RunState (Agrees)

/-! ## Lines -/

/-- The lines of a row of texts. The texts are put together and cut behind each one that ends its
line. What stands behind the last of these is a line as well, if there is any text in it, be it an
empty one. -/
def outputLines : List (String × Bool) → List String
  | [] => []
  | (text, true) :: ws => text :: outputLines ws
  | (text, false) :: ws =>
    match outputLines ws with
    | [] => [text]
    | line :: lines => (text ++ line) :: lines

@[simp] theorem outputLines_ended (text : String) (ws : List (String × Bool)) :
    outputLines ((text, true) :: ws) = text :: outputLines ws := rfl

/-- A text that does not end its line is put together with the next one. -/
theorem outputLines_joined (text next : String) (newline : Bool) (ws : List (String × Bool)) :
    outputLines ((text, false) :: (next, newline) :: ws)
      = outputLines ((text ++ next, newline) :: ws) := by
  cases newline with
  | true => rfl
  | false =>
    rw [outputLines, outputLines, outputLines]
    cases outputLines ws with
    | nil => rfl
    | cons line lines => simp only [String.append_assoc]

/-- The lines hold all the texts, each of them once and in their order. -/
theorem join_outputLines (ws : List (String × Bool)) :
    String.join (outputLines ws) = String.join (ws.map Prod.fst) := by
  induction ws with
  | nil => rfl
  | cons w ws ih =>
    obtain ⟨text, newline⟩ := w
    rw [List.map_cons, String.join_cons, ← ih]
    cases newline with
    | true => exact String.join_cons
    | false =>
      rw [outputLines]
      cases outputLines ws with
      | nil => simp
      | cons line lines => simp only [String.join_cons, String.append_assoc]

/-- There is a line for each text that ends one, and a further line if the last text does not. -/
theorem length_outputLines (ws : List (String × Bool)) :
    (outputLines ws).length
      = ws.countP Prod.snd + if ws.getLast?.any (!·.2) then 1 else 0 := by
  cases ws with
  | nil => rfl
  | cons w ws =>
    induction ws generalizing w with
    | nil =>
      obtain ⟨text, newline⟩ := w
      cases newline <;> rfl
    | cons w' ws ih =>
      obtain ⟨text, newline⟩ := w
      rw [List.getLast?_cons_cons, List.countP_cons]
      cases newline with
      | true =>
        rw [outputLines_ended, List.length_cons, ih w']
        simp only [if_true]
        omega
      | false =>
        -- put together with the next text, which marks the same lines
        rw [outputLines_joined, ih (text ++ w'.1, w'.2)]
        cases ws with
        | nil => rfl
        | cons w'' ws => rfl

example : outputLines [("a", false), ("", true), ("b", true), ("", false)] = ["a", "b", ""] := rfl

/-! ## Writing at the end -/

namespace RunState

/-- The output is the same, the line that was begun included. -/
structure SameOutput (s t : RunState) : Prop where
  lines : t.lines = s.lines
  pending : t.pending = s.pending

/-- The state in which a text was written. -/
def emit (s : RunState) (w : String × Bool) : RunState :=
  final (Run.emit w.1 w.2 s)

theorem Agrees.sameOutput {s t : RunState} (h : s.Agrees t) : SameOutput s t := by
  obtain ⟨left, line, rfl⟩ := h
  exact ⟨rfl, rfl⟩

namespace SameOutput

variable {s t u : RunState}

theorem refl (s : RunState) : SameOutput s s :=
  ⟨rfl, rfl⟩

theorem symm (h : SameOutput s t) : SameOutput t s :=
  ⟨h.lines.symm, h.pending.symm⟩

theorem trans (h : SameOutput s t) (k : SameOutput t u) : SameOutput s u :=
  ⟨k.lines.trans h.lines, k.pending.trans h.pending⟩

theorem written (h : SameOutput s t) : t.written = s.written := by
  rw [RunState.written, RunState.written, h.lines, h.pending]

/-- What a text is added to decides what comes of it. -/
theorem emit (h : SameOutput s t) (w : String × Bool) : SameOutput (s.emit w) (t.emit w) := by
  unfold RunState.emit
  rw [emit_apply, emit_apply, final_ok, final_ok, h.lines, h.pending]
  cases w.2 with
  | true => exact ⟨rfl, rfl⟩
  | false => exact ⟨rfl, rfl⟩

theorem foldl_emit (h : SameOutput s t) (ws : List (String × Bool)) :
    SameOutput (ws.foldl RunState.emit s) (ws.foldl RunState.emit t) := by
  induction ws generalizing s t with
  | nil => exact h
  | cons w ws ih => exact ih (h.emit w)

end SameOutput

/-- **Adding at the end comes to the same lines.** A line that was begun is one more text in front
of those that follow. -/
theorem written_foldl_emit (ws : List (String × Bool)) (s : RunState) :
    (ws.foldl emit s).written
      = s.lines.toList ++ outputLines (s.pending.toList.map (·, false) ++ ws) := by
  induction ws generalizing s with
  | nil =>
    rw [List.append_nil, List.foldl_nil, written]
    cases s.pending <;> rfl
  | cons w ws ih =>
    obtain ⟨text, newline⟩ := w
    rw [List.foldl_cons, ih, emit, emit_apply, final_ok]
    cases newline with
    | true =>
      cases hs : s.pending with
      | none => simp
      | some line => simp [outputLines_joined]
    | false =>
      cases hs : s.pending with
      | none => simp
      | some line => simp [outputLines_joined]

end RunState

open RunState (SameOutput)

/-! ## What a run has written -/

/-- What the task that is taken up at a moment writes, with the texts that its items have there. -/
def Moment.writes (m : Moment) : List (String × Bool) :=
  match m.tasks.head? with
  | some (.begin room (.write newline items line)) =>
    match items.mapM (itemText room line) m.state with
    | .ok texts _ => [(String.join texts, newline)]
    | .error _ _ => []
  | _ => []

section Steps

variable {breaks : Nat → Bool} {s u : RunState} {ts new : List Task}

/-- Only a write is about to write. -/
theorem Moment.writes_of_not_write {t : Task}
    (h : ∀ room newline items line, t ≠ .begin room (.write newline items line)) :
    Moment.writes ⟨t :: ts, s⟩ = [] := by
  unfold Moment.writes
  rw [List.head?_cons]
  split
  · rename_i room newline items line heq
    exact absurd (Option.some.inj heq) (h room newline items line)
  · rfl

/-- Storing a value writes nothing. -/
theorem sameOutput_assign {name : String} {v : Value} {line : Nat}
    (h : Run.assign name v line s = .ok () u) : SameOutput s u := by
  unfold Run.assign at h
  split at h
  · injection h with _ h
    exact h ▸ ⟨rfl, rfl⟩
  · exact nomatch h

/-- Reading warns, but writes nothing. -/
theorem sameOutput_readNothing {word : Keyword} {line : Nat} {name : String}
    (h : Run.readNothing word line name s = .ok () u) : SameOutput s u := by
  unfold Run.readNothing at h
  split at h
  · injection h with _ h
    exact h ▸ ⟨rfl, rfl⟩
  · exact nomatch h

/-- **A step writes what was put down of it, and nothing else.** -/
theorem Task.sameOutput_next {t : Task} (h : t.next breaks s = .ok new u) :
    SameOutput ((Moment.writes ⟨t :: ts, s⟩).foldl RunState.emit s) u := by
  cases hdeed : t.isDeed with
  | false =>
    rw [Moment.writes_of_not_write]
    · exact ((t.quiet_next hdeed).of_ok h).sameOutput
    · rintro room newline items line rfl
      exact nomatch hdeed
  | true =>
    cases t with
    | begin room st =>
      obtain ⟨_, s₁, hs₁, h₁⟩ := (Quiet.enter breaks st).exists_of_bind h
      cases st with
      | assign target value line =>
        obtain ⟨_, s₂, hs₂, h₂⟩ := Quiet.step.exists_of_bind h₁
        obtain ⟨v, s₃, hs₃, h₃⟩ := (Looks.eval room value).quiet.exists_of_bind h₂
        obtain ⟨_, s₄, hassign, h₄⟩ := exists_of_bind_ok h₃
        injection h₄ with _ hu
        exact hu ▸ (hs₁.trans (hs₂.trans hs₃)).sameOutput.trans (sameOutput_assign hassign)
      | write newline items line =>
        obtain ⟨_, s₂, hs₂, h₂⟩ := Quiet.step.exists_of_bind h₁
        obtain ⟨texts, s₃, htexts, h₃⟩ := exists_of_bind_ok h₂
        obtain ⟨_, s₄, hemit, h₄⟩ := exists_of_bind_ok h₃
        -- The texts are those that the items had before the step.
        obtain ⟨hs₃, hall⟩ := (Looks.sequential.itemTexts room line items).of_ok htexts
        have hs := hs₁.trans hs₂
        have hwrites : Moment.writes ⟨.begin room (.write newline items line) :: ts, s⟩
            = [(String.join texts, newline)] := by
          simp only [Moment.writes, List.head?_cons, hall s hs.store.symm]
        injection h₄ with _ hu
        injection hemit with _ hs₄
        rw [hwrites, ← hu, ← hs₄, hs₃]
        exact hs.sameOutput.emit (String.join texts, newline)
      | _ => exact nomatch hdeed
    | reset word line name =>
      obtain ⟨_, s₁, hreset, h₁⟩ := exists_of_bind_ok h
      injection h₁ with _ hu
      exact hu ▸ sameOutput_readNothing hreset
    | forTurn room counter by_ first n b line =>
      cases n with
      | zero => exact nomatch hdeed
      | succ n =>
        obtain ⟨_, s₁, hassign, h₁⟩ := exists_of_bind_ok h
        injection h₁ with _ hu
        exact hu ▸ sameOutput_assign hassign
    | _ => exact nomatch hdeed

end Steps

/-- What was put down on the way is what was written on the way. -/
theorem Moment.Logs.sameOutput {breaks : Nat → Bool} {m n : Moment} {ws : List (String × Bool)}
    (h : Moment.Logs Moment.writes breaks m ws n) :
    SameOutput (ws.foldl RunState.emit m.state) n.state := by
  induction h with
  | refl => exact SameOutput.refl m.state
  | @tail ws n o _ hnext ih =>
    cases hnext with
    | step hnext =>
      rw [List.foldl_append]
      exact (ih.foldl_emit _).trans (Task.sameOutput_next hnext)

/-- That the runs of a program under a limit and with breakpoints keep what was written. -/
structure Program.KeepsOutput (p : Program) (room : Nat) (limit : Int)
    (breaks : Nat → Bool) : Prop where
  /-- What the writes of a run wrote can be put down. -/
  logged : ∃ ws m, p.LogsTo Moment.writes room limit.toNat breaks ws m
  /-- The output is the lines of it, and then the line that tells how the run was stopped. -/
  output : ∀ ws m, p.LogsTo Moment.writes room limit.toNat breaks ws m →
    (p.execute room limit breaks).output
      = outputLines ws ++ (p.execute room limit breaks).statusLine?.toList
  /-- Nothing of it is lost or doubled. -/
  texts : ∀ ws m, p.LogsTo Moment.writes room limit.toNat breaks ws m →
    String.join (outputLines ws) = String.join (ws.map Prod.fst)
  /-- There is a line for each write that ended one, and one more if the last write did not. -/
  lines : ∀ ws m, p.LogsTo Moment.writes room limit.toNat breaks ws m →
    (outputLines ws).length
      = ws.countP Prod.snd + if ws.getLast?.any (!·.2) then 1 else 0

/-- **No output is lost or doubled, whatever ends a run.** For every program tree, every limit and
all breakpoints. -/
theorem keepsOutput (p : Program) (room : Nat) (limit : Int) (breaks : Nat → Bool) :
    p.KeepsOutput room limit breaks := by
  refine ⟨p.exists_logsTo Moment.writes room limit.toNat breaks, fun ws m h => ?_,
    fun ws _ _ => join_outputLines ws, fun ws _ _ => length_outputLines ws⟩
  rw [output_execute, (Moment.agrees_of_ending h.ends).written, h.logs.sameOutput.written,
    RunState.written_foldl_emit]
  rfl

end TurboBench.Pascal

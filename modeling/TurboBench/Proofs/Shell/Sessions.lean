import Mathlib.Data.List.Induction
import TurboBench.Shell.Workbench

/-!
# What a session leaves on the desk

The tool, the engine and what was compiled last are three things on the desk, and each command sets
those that concern it. They fit together (`IsSound`) as long as no command forgets one of them:
selecting a tool has to replace the engine and to drop what the one before has made, and what a
compilation leaves has to come from the engine that is there. One command keeps them so
(`isSound_perform`), and hence every session does (`isSound_session`).

What stands on the desk can then be told from the commands alone. The tool is the one selected last,
the engine is one of that tool, and what was compiled is what that engine makes of the source
compiled last, if that was after the tool was selected (`tool_performAll`, `engine_performAll`,
`compiled_performAll`). The file worked on is the one named in the last command that loaded or saved
a file (`currentFile_performAll`).

Each of these follows by induction from what one command does (`desk_perform`), and what that is
depends on little of the command: which tool it selects, which source it compiles, and which file it
loads or saves.
-/

set_option autoImplicit false

namespace TurboBench.Shell

/-- Whether a command did what was asked for. One that breaks down did not. -/
def Outcome.succeeds (o : Outcome) : Bool :=
  match o.answer with
  | .ok a => a.success
  | .error _ => false

namespace Workbench

/-! ## Questions to commands -/

/-- The tool that a command selects. -/
def Command.selected? : Command → Option Tool
  | .select name => Tool.ofAlias? name
  | _ => none

/-- The source that a command compiles. -/
def Command.compiled? : Command → Option String
  | .compile source | .compileAndExecute source => some source
  | _ => none

/-- The file that a command loads or saves. -/
def Command.file? : Command → Option String
  | .load name | .save name _ => some name
  | _ => none

/-- The last answer to a question that some in a list may have an answer to. -/
def lastAnswer? {α β : Type} (q : α → Option β) (xs : List α) : Option β :=
  xs.reverse.findSome? q

/-- The tool that was selected last. -/
def lastSelected? (cs : List Command) : Option Tool :=
  lastAnswer? Command.selected? cs

/-- What the engine of the tool that was selected last made last, of a source that was compiled
after that. A compilation that it has not room enough for makes nothing. -/
def lastMade? (b : Workbench) (cs : List Command) : Option Artifact :=
  (lastSelected? cs).bind fun tool =>
    (cs.reverse.takeWhile (·.selected?.isNone)).findSome? fun c =>
      c.compiled?.bind ((b.newEngine tool).compile b.stack)

/-- A sequence of commands, each with what comes of it. -/
def transcript (b : Workbench) (d : Desk) : List Command → List (Command × Outcome)
  | [] => []
  | c :: cs => (c, b.perform d c) :: b.transcript (b.perform d c).desk cs

/-- The file that was loaded or saved last. -/
def lastFile? (t : List (Command × Outcome)) : Option String :=
  lastAnswer? (fun (c, o) => if o.succeeds then c.file? else none) t

/-- The last of a sequence answers first. -/
theorem lastAnswer?_append {α β : Type} (q : α → Option β) (xs : List α) (x : α) :
    lastAnswer? q (xs ++ [x]) = (q x).or (lastAnswer? q xs) := by
  rw [lastAnswer?, List.reverse_append, List.reverse_singleton, List.singleton_append,
    List.findSome?_cons]
  cases q x <;> rfl

/-- The first of a sequence answers last. -/
theorem lastAnswer?_cons {α β : Type} (q : α → Option β) (x : α) (xs : List α) :
    lastAnswer? q (x :: xs) = (lastAnswer? q xs).or (q x) := by
  rw [lastAnswer?, List.reverse_cons, List.findSome?_append, List.findSome?_singleton]
  rfl

/-- A tool that has just been selected has made nothing; otherwise the last command comes before
those ahead of it. -/
theorem lastMade?_append (b : Workbench) (cs : List Command) (c : Command) :
    b.lastMade? (cs ++ [c]) =
      match c.selected? with
      | some _ => none
      | none =>
        ((lastSelected? cs).bind fun tool =>
          c.compiled?.bind ((b.newEngine tool).compile b.stack)).or (b.lastMade? cs) := by
  rw [lastMade?, lastMade?, lastSelected?, lastAnswer?_append, List.reverse_append,
    List.reverse_singleton, List.singleton_append]
  cases h : c.selected? with
  | some tool =>
    rw [List.takeWhile_cons_of_neg (by simp [h]), Option.some_or, Option.bind_some,
      List.findSome?_nil]
  | none =>
    rw [List.takeWhile_cons_of_pos (by simp [h]), Option.none_or]
    show (lastSelected? cs).bind _ = _
    cases lastSelected? cs with
    | none => rfl
    | some tool =>
      simp only [Option.bind_some, List.findSome?_cons]
      cases c.compiled?.bind ((b.newEngine tool).compile b.stack) <;> rfl

theorem performAll_append (b : Workbench) (d : Desk) (cs : List Command) (c : Command) :
    b.performAll d (cs ++ [c]) = (b.perform (b.performAll d cs) c).desk := by
  rw [performAll, List.foldl_append]
  rfl

/-- The last command of a sequence finds the desk that those ahead of it leave. -/
theorem transcript_append (b : Workbench) (d : Desk) (cs : List Command) (c : Command) :
    b.transcript d (cs ++ [c])
      = b.transcript d cs ++ [(c, b.perform (b.performAll d cs) c)] := by
  induction cs generalizing d with
  | nil => rfl
  | cons first cs ih =>
    rw [List.cons_append, transcript, transcript, ih]
    rfl

/-! ## One command -/

section Steps

variable (b : Workbench) (d : Desk)

theorem select_of_unknown {name : String} (h : Tool.ofAlias? name = none) :
    b.select d name = d.refuse (.unknownTool name) := by
  simp only [select, h]

theorem select_of_known {name : String} {tool : Tool} (h : Tool.ofAlias? name = some tool) :
    b.select d name
      = ⟨{ d with tool := some tool, engine := some (b.newEngine tool), compiled := none },
          [.selected tool], .ok (.selected tool (b.newEngine tool).heading)⟩ := by
  simp only [select, h]

/-- Loading either did not succeed and left the desk as it was, or did and set the file worked
on. -/
theorem load_cases (name : String) :
    ((b.load d name).desk = d ∧ (b.load d name).succeeds = false)
      ∨ ((b.load d name).desk = { d with currentFile := some name }
          ∧ (b.load d name).succeeds = true) := by
  unfold load
  split
  · exact .inl ⟨rfl, rfl⟩
  · split
    · exact .inl ⟨rfl, rfl⟩
    · exact .inl ⟨rfl, rfl⟩
    · simp only
      split
      · exact .inl ⟨rfl, rfl⟩
      · exact .inl ⟨rfl, rfl⟩
      · split
        · exact .inl ⟨rfl, rfl⟩
        · exact .inr ⟨rfl, rfl⟩

/-- Saving may change the files in either case, but sets the file worked on only if it
succeeded. -/
theorem save_cases (name text : String) :
    ∃ files, ((b.save d name text).desk = { d with files := files }
          ∧ (b.save d name text).succeeds = false)
      ∨ ((b.save d name text).desk = { d with files := files, currentFile := some name }
          ∧ (b.save d name text).succeeds = true) := by
  unfold save
  split
  · exact ⟨d.files, .inl ⟨rfl, rfl⟩⟩
  · exact ⟨d.files, .inl ⟨rfl, rfl⟩⟩
  · simp only
    split
    · exact ⟨d.files, .inl ⟨rfl, rfl⟩⟩
    · exact ⟨_, .inl ⟨rfl, rfl⟩⟩
    · split
      · exact ⟨_, .inl ⟨rfl, rfl⟩⟩
      · exact ⟨_, .inr ⟨rfl, rfl⟩⟩

/-- Writing a sample changes the files at most. -/
theorem desk_createSample (tool name : String) :
    ∃ files, (b.createSample d tool name).desk = { d with files := files } := by
  unfold createSample
  simp only
  split
  · exact ⟨d.files, rfl⟩
  · exact ⟨d.files, rfl⟩
  · exact ⟨d.files, rfl⟩
  · split
    · exact ⟨d.files, rfl⟩
    · exact ⟨d.files, rfl⟩
    · split
      · exact ⟨d.files, rfl⟩
      · exact ⟨_, rfl⟩

theorem compile_of_idle (h : d.engine = none) (source : String) :
    b.compile d source = d.refuse .noTool := by
  simp only [compile, h]

theorem compile_of_exhausted {e : Engine} (h : d.engine = some e) {source : String}
    (hmade : e.compile b.stack source = none) :
    b.compile d source = d.breakDown .stackExhausted := by
  simp only [compile, h, hmade]

theorem compile_of_made {e : Engine} (h : d.engine = some e) {source : String} {a : Artifact}
    (hmade : e.compile b.stack source = some a) :
    b.compile d source
      = ⟨{ d with compiled := some a }, a.events, .ok (.compiled e.tool a.success a.report)⟩ := by
  simp only [compile, h, hmade]

theorem execute_of_idle (h : d.engine = none) : b.execute d = d.refuse .noTool := by
  simp only [execute, h]

theorem execute_of_nothing {e : Engine} (h : d.engine = some e) (hnothing : d.compiled = none) :
    b.execute d = d.refuse .nothingCompiled := by
  simp only [execute, h, hnothing]

theorem execute_of_compiled {e : Engine} {a : Artifact} {work : Work} (h : d.engine = some e)
    (hcompiled : d.compiled = some a) (hwork : e.execute a = .ok work) :
    b.execute d = ⟨d, work.events, .ok (.executed work.success work.report)⟩ := by
  simp only [execute, h, hcompiled, hwork]

/-- If compiling did not go well, that is all. -/
theorem compileAndExecute_of_failed {source : String}
    (h : (b.compile d source).succeeds = false) :
    b.compileAndExecute d source = b.compile d source := by
  unfold compileAndExecute
  simp only
  split
  · rename_i hanswer
    rw [Outcome.succeeds, hanswer] at h
    exact nomatch h
  · rfl

/-- If it did, what was made is executed, and the reports stand one behind the other. It is what the
engine itself has made, so executing it does not break down, whatever stood on the desk before. -/
theorem compileAndExecute_of_succeeded {source : String}
    (h : (b.compile d source).succeeds = true) :
    ∃ tool compiled success executed,
      (b.compile d source).answer = .ok (.compiled tool true compiled)
        ∧ (b.execute (b.compile d source).desk).answer = .ok (.executed success executed)
        ∧ b.compileAndExecute d source
          = ⟨(b.compile d source).desk,
              (b.compile d source).events ++ (b.execute (b.compile d source).desk).events,
              .ok (.compiledAndExecuted tool success (compiled ++ "\n\n" ++ executed))⟩ := by
  cases he : d.engine with
  | none =>
    rw [compile_of_idle b d he] at h
    exact nomatch h
  | some e =>
    cases hmade : e.compile b.stack source with
    | none =>
      rw [compile_of_exhausted b d he hmade] at h
      exact nomatch h
    | some a =>
      have hcompile := compile_of_made b d he hmade
      have hsuccess : a.success = true := by
        rw [hcompile] at h
        exact h
      obtain ⟨work, hwork⟩ := Engine.exists_execute (Engine.tool_of_compile hmade)
      have hexecute := execute_of_compiled b { d with compiled := some a } he rfl hwork
      refine ⟨e.tool, a.report, work.success, work.report, ?_, ?_, ?_⟩
      · rw [hcompile, hsuccess]
      · rw [hcompile, hexecute]
      · simp only [compileAndExecute, hcompile, hsuccess, hexecute]

/-- What a command makes of the desk, by whether it succeeded and what it leaves of the files. A
tool that is selected comes with an engine of its own and drops what was compiled before; what the
engine makes is what was compiled; and a file that was loaded or saved is the one worked on. -/
def deskAfter (c : Command) (succeeded : Bool) (files : Files.FileTree) : Desk where
  tool := c.selected?.or d.tool
  engine := (c.selected?.map b.newEngine).or d.engine
  compiled :=
    match c.selected? with
    | some _ => none
    | none => (d.engine.bind fun e => c.compiled?.bind (e.compile b.stack)).or d.compiled
  currentFile := (if succeeded then c.file? else none).or d.currentFile
  files := files

/-- A command that selects nothing and compiles nothing changes nothing but the file worked on, and
the files. -/
theorem deskAfter_of_none {c : Command} (hselected : c.selected? = none)
    (hcompiled : c.compiled? = none) (succeeded : Bool) (files : Files.FileTree) :
    b.deskAfter d c succeeded files = { d with
      currentFile := (if succeeded then c.file? else none).or d.currentFile
      files := files } := by
  have hnothing : (d.engine.bind fun _ => (none : Option Artifact)).or d.compiled = d.compiled := by
    cases d.engine <;> rfl
  simp only [deskAfter, hselected, hcompiled, Option.map_none, Option.none_or, Option.bind_none,
    hnothing]

/-- A command that only compiles changes nothing but what was compiled, and the files. -/
theorem deskAfter_of_source {c : Command} {source : String} (hselected : c.selected? = none)
    (hcompiled : c.compiled? = some source) (hfile : c.file? = none) (succeeded : Bool)
    (files : Files.FileTree) :
    b.deskAfter d c succeeded files = { d with
      compiled := (d.engine.bind (·.compile b.stack source)).or d.compiled
      files := files } := by
  simp only [deskAfter, hselected, hcompiled, hfile, ite_self, Option.map_none, Option.none_or,
    Option.bind_some]

/-- **Every command leaves the desk that it makes**, with one case for each command. -/
theorem desk_perform (c : Command) :
    ∃ files, (b.perform d c).desk = b.deskAfter d c (b.perform d c).succeeds files := by
  have hkept (files : Files.FileTree) (hdesk : (b.perform d c).desk = { d with files := files })
      (hselected : c.selected? = none) (hcompiled : c.compiled? = none) (hfile : c.file? = none) :
      ∃ files, (b.perform d c).desk = b.deskAfter d c (b.perform d c).succeeds files := by
    refine ⟨files, ?_⟩
    rw [hdesk, deskAfter_of_none b d hselected hcompiled, hfile, ite_self, Option.none_or]
  cases c with
  | select name =>
    cases h : Tool.ofAlias? name with
    | none =>
      refine hkept d.files ?_ h rfl rfl
      rw [perform, select_of_unknown b d h]
      rfl
    | some tool =>
      refine ⟨d.files, ?_⟩
      rw [perform, select_of_known b d h]
      simp only [deskAfter, Command.selected?, h]
      rfl
  | load name =>
    refine ⟨d.files, ?_⟩
    rw [deskAfter_of_none b d rfl rfl, perform]
    rcases load_cases b d name with ⟨h, hsuccess⟩ | ⟨h, hsuccess⟩ <;> rw [h, hsuccess] <;> rfl
  | save name text =>
    obtain ⟨files, hsave⟩ := save_cases b d name text
    refine ⟨files, ?_⟩
    rw [deskAfter_of_none b d rfl rfl, perform]
    rcases hsave with ⟨h, hsuccess⟩ | ⟨h, hsuccess⟩ <;> rw [h, hsuccess] <;> rfl
  | compile source =>
    refine ⟨d.files, ?_⟩
    rw [perform, desk_compile, deskAfter_of_source b d rfl rfl rfl]
  | execute => exact hkept d.files (b.desk_execute d) rfl rfl rfl
  | compileAndExecute source =>
    refine ⟨d.files, ?_⟩
    rw [perform, desk_compileAndExecute, desk_compile, deskAfter_of_source b d rfl rfl rfl]
  | list => exact hkept d.files (b.desk_list d) rfl rfl rfl
  | createSample tool name =>
    obtain ⟨files, h⟩ := desk_createSample b d tool name
    exact hkept files h rfl rfl rfl
  | help tool => exact hkept d.files rfl rfl rfl rfl

/-- The tool changes if one is selected, and not otherwise. -/
theorem tool_perform (c : Command) :
    (b.perform d c).desk.tool = c.selected?.or d.tool := by
  obtain ⟨files, h⟩ := desk_perform b d c
  rw [h, deskAfter]

/-- The engine is replaced with the tool, and not otherwise. -/
theorem engine_perform (c : Command) :
    (b.perform d c).desk.engine = (c.selected?.map b.newEngine).or d.engine := by
  obtain ⟨files, h⟩ := desk_perform b d c
  rw [h, deskAfter]

/-- What was compiled is dropped when a tool is selected, replaced when the engine makes something,
and stays as it is otherwise. -/
theorem compiled_perform (c : Command) :
    (b.perform d c).desk.compiled =
      match c.selected? with
      | some _ => none
      | none =>
        (d.engine.bind fun e => c.compiled?.bind (e.compile b.stack)).or d.compiled := by
  obtain ⟨files, h⟩ := desk_perform b d c
  rw [h, deskAfter]

/-- The file worked on changes if a file was loaded or saved, and not otherwise. -/
theorem currentFile_perform (c : Command) :
    (b.perform d c).desk.currentFile
      = (if (b.perform d c).succeeds then c.file? else none).or d.currentFile := by
  obtain ⟨files, h⟩ := desk_perform b d c
  rw [h, deskAfter]

end Steps

/-! ## How the desk fits together -/

/-- The engine is one of the tool, with what the workbench allows it, and what was compiled is of
that tool too; without a tool there is neither. -/
structure IsSound (b : Workbench) (d : Desk) : Prop where
  engine : d.engine = d.tool.map b.newEngine
  compiled : ∀ a, d.compiled = some a → d.tool = some a.tool

section Soundness

variable {b : Workbench} {d : Desk}

theorem isSound_empty (b : Workbench) (files : Files.FileTree) : b.IsSound (.empty files) :=
  ⟨rfl, fun _ h => nomatch h⟩

/-- **No command spoils how the desk fits together.** -/
theorem isSound_perform (h : b.IsSound d) (c : Command) : b.IsSound (b.perform d c).desk := by
  refine ⟨?_, fun a ha => ?_⟩
  · rw [engine_perform, tool_perform, h.engine]
    cases c.selected? <;> rfl
  · rw [compiled_perform] at ha
    rw [tool_perform]
    cases hs : c.selected? with
    | some tool =>
      rw [hs] at ha
      exact nomatch ha
    | none =>
      rw [hs] at ha
      rw [Option.none_or]
      rcases Option.or_eq_some_iff.1 ha with hmade | ⟨-, hbefore⟩
      · -- What the engine has made is of its tool, and that is the tool on the desk.
        obtain ⟨e, he, hmade⟩ := Option.bind_eq_some_iff.1 hmade
        obtain ⟨source, -, hmade⟩ := Option.bind_eq_some_iff.1 hmade
        rw [h.engine] at he
        obtain ⟨tool, htool, rfl⟩ := Option.map_eq_some_iff.1 he
        rw [htool, Engine.tool_of_compile hmade, newEngine, Engine.tool_new]
      · exact h.compiled a hbefore

theorem isSound_performAll (h : b.IsSound d) (cs : List Command) :
    b.IsSound (b.performAll d cs) := by
  induction cs generalizing d with
  | nil => exact h
  | cons c cs ih => exact ih (isSound_perform h c)

/-- What was compiled finds an engine on a sound desk that can execute it. -/
theorem IsSound.exists_execute (h : b.IsSound d) {a : Artifact} (ha : d.compiled = some a) :
    ∃ e work, d.engine = some e ∧ e.tool = a.tool ∧ e.execute a = .ok work := by
  have htool : (b.newEngine a.tool).tool = a.tool := Engine.tool_new _ _ _
  obtain ⟨work, hwork⟩ := Engine.exists_execute htool.symm
  exact ⟨b.newEngine a.tool, work, by rw [h.engine, h.compiled a ha, Option.map_some], htool,
    hwork⟩

end Soundness

/-! ## A session -/

section Sessions

variable (b : Workbench) (d : Desk)

/-- **The tool is the one that was selected last.** -/
theorem tool_performAll (cs : List Command) :
    (b.performAll d cs).tool = (lastSelected? cs).or d.tool := by
  induction cs using List.reverseRecOn with
  | nil => rfl
  | append_singleton cs c ih =>
    rw [performAll_append, tool_perform, ih, lastSelected?, lastSelected?, lastAnswer?_append,
      Option.or_assoc]

/-- **The engine is that of the tool that was selected last.** -/
theorem engine_performAll (cs : List Command) :
    (b.performAll d cs).engine = ((lastSelected? cs).map b.newEngine).or d.engine := by
  induction cs using List.reverseRecOn with
  | nil => rfl
  | append_singleton cs c ih =>
    rw [performAll_append, engine_perform, ih, lastSelected?, lastSelected?, lastAnswer?_append,
      ← Option.or_assoc, ← Option.map_or]

/-- **What was compiled is what the engine has made last**, since its tool was selected; nothing
else is on a desk that had nothing on it. -/
theorem compiled_performAll (he : d.engine = none) (ha : d.compiled = none) (cs : List Command) :
    (b.performAll d cs).compiled = b.lastMade? cs := by
  -- The engine that compiles is that of the tool selected last, so it is needed at every step.
  induction cs using List.reverseRecOn with
  | nil => exact ha
  | append_singleton cs c ih =>
    have hengine := engine_performAll b d cs
    rw [he, Option.or_none] at hengine
    rw [performAll_append, compiled_perform, hengine, ih, lastMade?_append, Option.bind_map]
    rfl

/-- **The file worked on is the one that was loaded or saved last.** -/
theorem currentFile_performAll (cs : List Command) :
    (b.performAll d cs).currentFile = (lastFile? (b.transcript d cs)).or d.currentFile := by
  induction cs using List.reverseRecOn with
  | nil => rfl
  | append_singleton cs c ih =>
    rw [performAll_append, currentFile_perform, ih, transcript_append, lastFile?, lastFile?,
      lastAnswer?_append, Option.or_assoc]

end Sessions

/-- The desk after a sequence of commands from a new one on. -/
def session (b : Workbench) (files : Files.FileTree) (cs : List Command) : Desk :=
  b.performAll (b.start files).1 cs

/-- Compiles a source and, in a command of its own and only if that went well, executes. -/
def inTurn (b : Workbench) (d : Desk) (source : String) : Outcome :=
  let compiled := b.perform d (.compile source)
  if compiled.succeeds then b.perform compiled.desk .execute else compiled

/-- How sessions go: what they leave on the desk, and what the commands that are about the engine do
on any desk. -/
structure KeepsTrack (b : Workbench) (files : Files.FileTree) : Prop where
  tool : ∀ cs, (b.session files cs).tool = lastSelected? cs
  /-- The engine is there if a tool is, and is one of that tool. -/
  engine : ∀ cs, (b.session files cs).engine = (b.session files cs).tool.map b.newEngine
    ∧ (b.session files cs).engine.map (·.tool) = (b.session files cs).tool
  compiled : ∀ cs, (b.session files cs).compiled = b.lastMade? cs
  /-- What was compiled is there only if an engine is, and never one of the other tool. -/
  kind : ∀ cs a, (b.session files cs).compiled = some a →
    ∃ e, (b.session files cs).engine = some e ∧ e.tool = a.tool
  currentFile : ∀ cs, (b.session files cs).currentFile
    = lastFile? (b.transcript (b.start files).1 cs)
  rejected : ∀ d name, Tool.ofAlias? name = none →
    b.perform d (.select name) = d.refuse (.unknownTool name)
  /-- Nothing is compiled when a tool has just been selected, be it the one that was at work. -/
  selected : ∀ d name tool, Tool.ofAlias? name = some tool →
    (b.perform d (.select name)).desk
        = { d with tool := some tool, engine := some (b.newEngine tool), compiled := none }
      ∧ (b.perform d (.select name)).succeeds = true
  idle : ∀ d source, d.engine = none → b.perform d (.compile source) = d.refuse .noTool
  exhausted : ∀ d e source, d.engine = some e → e.compile b.stack source = none →
    b.perform d (.compile source) = d.breakDown .stackExhausted
  made : ∀ d e source a, d.engine = some e → e.compile b.stack source = some a →
    b.perform d (.compile source)
      = ⟨{ d with compiled := some a }, a.events, .ok (.compiled e.tool a.success a.report)⟩
  /-- Executing runs what was compiled, with the engine that is there. -/
  executed : ∀ cs a, (b.session files cs).compiled = some a →
    ∃ e work, (b.session files cs).engine = some e ∧ e.execute a = .ok work
      ∧ b.perform (b.session files cs) .execute
        = ⟨b.session files cs, work.events, .ok (.executed work.success work.report)⟩
  notExecuted : ∀ cs, (b.session files cs).compiled = none →
    b.perform (b.session files cs) .execute
      = (b.session files cs).refuse
          (if (b.session files cs).tool.isSome then .nothingCompiled else .noTool)
  unchanged : ∀ d, (b.perform d .execute).desk = d
  /-- Compiling and executing in one command is doing one after the other. -/
  inTurn : ∀ d source,
    (b.perform d (.compileAndExecute source)).desk = (b.inTurn d source).desk
      ∧ (b.perform d (.compileAndExecute source)).succeeds = (b.inTurn d source).succeeds
  status : ∀ d, (b.status d).tool = (d.tool.map (·.title)).getD "None"
    ∧ (b.status d).compiled = d.compiled.isSome

section

variable (b : Workbench)

/-- There is nothing on a new desk but files. -/
theorem exists_start_eq_empty (files : Files.FileTree) :
    ∃ made, (b.start files).1 = .empty made := by
  unfold start
  split
  · exact ⟨files, rfl⟩
  · split
    · exact ⟨files, rfl⟩
    · exact ⟨_, rfl⟩

/-- **The desk fits together throughout a session.** -/
theorem isSound_session (files : Files.FileTree) (cs : List Command) :
    b.IsSound (b.session files cs) := by
  obtain ⟨made, h⟩ := b.exists_start_eq_empty files
  rw [session, h]
  exact isSound_performAll (isSound_empty b made) cs

/-- On a sound desk that nothing was compiled on, the refusal to execute says what is missing. -/
theorem IsSound.execute_of_nothing {b : Workbench} {d : Desk} (h : b.IsSound d)
    (hnothing : d.compiled = none) :
    b.execute d = d.refuse (if d.tool.isSome then .nothingCompiled else .noTool) := by
  have hengine := h.engine
  cases htool : d.tool with
  | none =>
    rw [htool, Option.map_none] at hengine
    rw [execute_of_idle b d hengine, Option.isSome_none, if_neg Bool.false_ne_true]
  | some tool =>
    rw [htool, Option.map_some] at hengine
    rw [Workbench.execute_of_nothing b d hengine hnothing, Option.isSome_some, if_pos rfl]

/-- Compiling and executing in one command leaves what the two leave, and is as successful. -/
theorem inTurn_compileAndExecute (d : Desk) (source : String) :
    (b.compileAndExecute d source).desk = (b.inTurn d source).desk
      ∧ (b.compileAndExecute d source).succeeds = (b.inTurn d source).succeeds := by
  by_cases h : (b.compile d source).succeeds = true
  · have hturn : b.inTurn d source = b.execute (b.compile d source).desk := if_pos h
    obtain ⟨tool, compiled, success, executed, -, hexecuted, hboth⟩ :=
      compileAndExecute_of_succeeded b d h
    rw [hturn, hboth, desk_execute]
    refine ⟨rfl, ?_⟩
    rw [Outcome.succeeds, Outcome.succeeds, hexecuted]
    rfl
  · have hturn : b.inTurn d source = b.compile d source := if_neg h
    rw [hturn, compileAndExecute_of_failed b d (Bool.not_eq_true _ ▸ h)]
    exact ⟨rfl, rfl⟩

end

/-- **Sessions keep track of the tool, of its engine, of what that made, and of the file worked
on.** -/
theorem keepsTrack (b : Workbench) (files : Files.FileTree) : b.KeepsTrack files where
  tool cs := by
    obtain ⟨made, h⟩ := b.exists_start_eq_empty files
    rw [session, h, tool_performAll]
    exact Option.or_none
  engine cs := by
    have h := (isSound_session b files cs).engine
    refine ⟨h, ?_⟩
    rw [h, Option.map_map, show (·.tool) ∘ b.newEngine = id from
      funext fun tool => Engine.tool_new b.settings b.stack tool, Option.map_id_apply]
  compiled cs := by
    obtain ⟨made, h⟩ := b.exists_start_eq_empty files
    rw [session, h]
    exact compiled_performAll b _ rfl rfl cs
  kind cs a h := by
    obtain ⟨e, -, he, htool, -⟩ := (isSound_session b files cs).exists_execute h
    exact ⟨e, he, htool⟩
  currentFile cs := by
    obtain ⟨made, h⟩ := b.exists_start_eq_empty files
    rw [session, h, currentFile_performAll]
    exact Option.or_none
  rejected d name h := by rw [perform, select_of_unknown b d h]
  selected d name tool h := by
    rw [perform, select_of_known b d h]
    exact ⟨rfl, rfl⟩
  idle d source h := compile_of_idle b d h source
  exhausted d e source h hmade := compile_of_exhausted b d h hmade
  made d e source a h hmade := compile_of_made b d h hmade
  executed cs a h := by
    obtain ⟨e, work, he, -, hwork⟩ := (isSound_session b files cs).exists_execute h
    exact ⟨e, work, he, hwork, execute_of_compiled b _ he h hwork⟩
  notExecuted cs h := (isSound_session b files cs).execute_of_nothing h
  unchanged d := desk_execute b d
  inTurn := inTurn_compileAndExecute b
  status _ := ⟨rfl, rfl⟩

/-- Selecting a tool puts an end to what was compiled before. -/
example (b : Workbench) :
    b.lastMade? [.select "asm", .compile "ret", .execute, .select "tp"] = none := by
  rfl

end Workbench

end TurboBench.Shell

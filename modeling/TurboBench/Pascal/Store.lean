import TurboBench.Pascal.Value

/-!
The variables of a running program.

A store holds its variables in the order of their declaration, each with its type and its present
value. Whatever is stored has passed `coerce`, so a variable only ever holds values of its own
type. Declaring a name again gives it the new type and its initial value but leaves its place.
-/

namespace TurboBench.Pascal

/-- The value a variable of type `t` holds after `v` is assigned to it: an integer is widened to a
real, a text is cut to the length of a string. `none` if the type does not take the value. -/
def PascalType.admit? (t : PascalType) (v : Value) : Option (Except Fault Value) :=
  match t, v with
  | .integer, .integer n => some (checkInteger n)
  | .real, .integer n => some (widen n)
  | .real, .real x => some (checkReal x)
  | .boolean, .boolean b => some (.ok (.boolean b))
  | .char, .text s => if s.length ≤ 1 then some (.ok (.text s)) else none
  | .string, .text s => some (.ok (.text (cutString s)))
  | _, _ => none

/-- The value that the variable `name` of type `t` holds after an assignment. -/
def coerce (t : PascalType) (name : String) (v : Value) : Except Fault Value :=
  (t.admit? v).getD (.error (.cannotAssign v.type t.name name))

/-- The same for a type given by its name, which need not be the name of a type. -/
def coerceNamed (typeName name : String) (v : Value) : Except Fault Value :=
  match PascalType.ofName? typeName with
  | some t => coerce t name v
  | none => .error (.cannotAssign v.type typeName name)

/-- A variable with its type and its value. -/
structure Variable where
  name : String
  type : PascalType
  value : Value
  deriving Repr, Inhabited

/-- The first variable named like `v` replaced by `v`. -/
def Variable.replaceIn (v : Variable) : List Variable → List Variable
  | [] => []
  | w :: ws => if w.name = v.name then v :: ws else w :: v.replaceIn ws

/-- The variables of a program, in the order of their declaration. -/
structure Store where
  cells : List Variable
  deriving Repr, Inhabited

namespace Store

/-- A store without variables. -/
def empty : Store := ⟨[]⟩

/-- The variable of a name. -/
def find? (σ : Store) (name : String) : Option Variable :=
  σ.cells.find? (·.name = name)

/-- The store in which the variable `v.name` is `v`. -/
def put (σ : Store) (v : Variable) : Store :=
  ⟨v.replaceIn σ.cells⟩

/-- The store with a further variable, which has the initial value of its type. -/
def declare (σ : Store) (name : String) (t : PascalType) : Store :=
  let v : Variable := ⟨name, t, t.initial⟩
  match σ.find? name with
  | some _ => σ.put v
  | none => ⟨σ.cells ++ [v]⟩

/-- The value of a variable. -/
def get (σ : Store) (name : String) : Except Fault Value :=
  match σ.find? name with
  | some v => .ok v.value
  | none => .error (.unknownIdentifier name)

/-- The store after an assignment. -/
def set (σ : Store) (name : String) (value : Value) : Except Fault Store :=
  match σ.find? name with
  | some v => (coerce v.type name value).map fun new => σ.put { v with value := new }
  | none => .error (.unknownIdentifier name)

/-- The store in which a variable has its initial value again, and that value; `none` for a name
that is not declared. -/
def reset? (σ : Store) (name : String) : Option (Store × Value) :=
  (σ.find? name).map fun v => (σ.put { v with value := v.type.initial }, v.type.initial)

/-- The names and values, in the order of declaration. -/
def toList (σ : Store) : List (String × Value) :=
  σ.cells.map fun v => (v.name, v.value)

/-! ## What an operation does to the look-up -/

/-- What is put under one name changes no other. -/
theorem find?_put_of_ne (σ : Store) {v : Variable} {name : String} (h : name ≠ v.name) :
    (σ.put v).find? name = σ.find? name := by
  simp only [put, find?]
  induction σ.cells with
  | nil => rfl
  | cons w ws ih =>
    by_cases hw : w.name = v.name
    · have hv : v.name ≠ name := Ne.symm h
      simp [Variable.replaceIn, hw, hv]
    · simp only [Variable.replaceIn, if_neg hw, List.find?_cons, ih]

/-- What is put under a declared name is found there. -/
theorem find?_put_self (σ : Store) {v w : Variable} (h : σ.find? v.name = some w) :
    (σ.put v).find? v.name = some v := by
  obtain ⟨vs⟩ := σ
  simp only [put, find?] at *
  induction vs with
  | nil => simp at h
  | cons u us ih =>
    by_cases hu : u.name = v.name
    · simp [Variable.replaceIn, hu]
    · simp only [List.find?_cons, hu, decide_false] at h
      rw [Variable.replaceIn, if_neg hu, List.find?_cons]
      simpa [hu] using ih h

/-- The names of a store and their order are not changed by `put`. -/
theorem map_name_put (σ : Store) (v : Variable) :
    (σ.put v).cells.map (·.name) = σ.cells.map (·.name) := by
  simp only [put]
  induction σ.cells with
  | nil => rfl
  | cons w ws ih =>
    by_cases hw : w.name = v.name
    · simp [Variable.replaceIn, hw]
    · simp only [Variable.replaceIn, if_neg hw, List.map_cons, ih]

/-- An assignment that succeeds keeps the names and their order. -/
theorem map_name_set {σ τ : Store} {name : String} {value : Value}
    (h : σ.set name value = .ok τ) :
    τ.cells.map (·.name) = σ.cells.map (·.name) := by
  unfold set at h
  split at h
  · rename_i v _
    cases hc : coerce v.type name value with
    | error e => simp [hc, Except.map] at h
    | ok new =>
      simp only [hc, Except.map, Except.ok.injEq] at h
      subst h
      exact map_name_put σ _
  · simp at h

end Store

end TurboBench.Pascal

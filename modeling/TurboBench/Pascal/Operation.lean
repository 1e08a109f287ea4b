import TurboBench.Decimal.Exact
import TurboBench.Text.Case
import TurboBench.Pascal.Syntax

/-!
What the operators and the predeclared functions do to values.

Each operation either yields a value of the range of its type or names the fault. An integer that
meets a real is taken as a real. Integer arithmetic is exact and checked once, at the end; `div`
and `mod` cut toward zero, so that `a = b * (a div b) + a mod b` with a remainder of the sign of
`a`. The bitwise operators take an integer in two's complement without end, so they know no range,
and their results are not checked. The length of a text is not checked either.
-/

namespace TurboBench.Pascal

/-! ## Prefix operators -/

/-- Applies a prefix operator. -/
def UnaryOp.apply : UnaryOp → Value → Except Fault Value
  | negate, .integer n => checkInteger (-n)
  | negate, .real x => checkReal (-x)
  | negate, v => .error (.operand "-" v.type)
  | not, .boolean b => .ok (.boolean !b)
  | not, .integer n => .ok (.integer (-n - 1))
  | not, v => .error (.operand "not " v.type)

/-! ## Operators between operands -/

/-- Whether two values that lie to each other as `o` says are related; `none` for an operator that
is no relation. -/
def BinaryOp.relates? : BinaryOp → Option (Ordering → Bool)
  | equal => some fun o => o == .eq
  | notEqual => some fun o => o != .eq
  | less => some fun o => o == .lt
  | greater => some fun o => o == .gt
  | atMost => some fun o => o != .gt
  | atLeast => some fun o => o != .lt
  | _ => none

/-- The integer with the bits that two integers have in common. In the places beyond its magnitude
an integer has clear bits, or set ones if it is negative. -/
def bitAnd : Int → Int → Int
  | .ofNat m, .ofNat n => .ofNat (m &&& n)
  -- The bits of `m` that are none of `n`.
  | .ofNat m, .negSucc n => .ofNat (m ^^^ (m &&& n))
  | .negSucc m, .ofNat n => .ofNat (n ^^^ (m &&& n))
  | .negSucc m, .negSucc n => .negSucc (m ||| n)

/-- The integer with the bits of either of two integers. -/
def bitOr : Int → Int → Int
  | .ofNat m, .ofNat n => .ofNat (m ||| n)
  | .ofNat m, .negSucc n => .negSucc (n ^^^ (m &&& n))
  | .negSucc m, .ofNat n => .negSucc (m ^^^ (m &&& n))
  | .negSucc m, .negSucc n => .negSucc (m &&& n)

/-- The quotient of two integers, cut toward zero: that of their magnitudes, with the sign that the
operands give it. -/
def truncDiv (a b : Int) : Int :=
  let quotient : Int := (a.natAbs / b.natAbs : Nat)
  if decide (a < 0) == decide (b < 0) then quotient else -quotient

/-- Applies an operator to two integers. `none` for an operator not defined for integers. -/
def BinaryOp.onIntegers? (a b : Int) : BinaryOp → Option (Except Fault Value)
  | add => some (checkInteger (a + b))
  | subtract => some (checkInteger (a - b))
  | multiply => some (checkInteger (a * b))
  | divide => some <|
    if b = 0 then .error .divisionByZero else checkReal (Float.ofInt a / Float.ofInt b)
  -- Only the smallest integer divided by minus one leaves the range.
  | div => some <| if b = 0 then .error .divisionByZero else checkInteger (truncDiv a b)
  | mod => some <| if b = 0 then .error .divisionByZero else checkInteger (a - b * truncDiv a b)
  | and => some (.ok (.integer (bitAnd a b)))
  | or => some (.ok (.integer (bitOr a b)))
  | _ => none

/-- Applies an operator to two reals. `none` for an operator not defined for reals. -/
def BinaryOp.onReals? (x y : Float) : BinaryOp → Option (Except Fault Value)
  | add => some (checkReal (x + y))
  | subtract => some (checkReal (x - y))
  | multiply => some (checkReal (x * y))
  | divide => some <| if y == 0 then .error .divisionByZero else checkReal (x / y)
  | _ => none

/-- Applies an operator that is no relation. `none` for values it is not defined for. -/
def BinaryOp.combine? (op : BinaryOp) : Value → Value → Option (Except Fault Value)
  | .integer a, .integer b => op.onIntegers? a b
  | .integer a, .real y => op.onReals? (Float.ofInt a) y
  | .real x, .integer b => op.onReals? x (Float.ofInt b)
  | .real x, .real y => op.onReals? x y
  | .boolean a, .boolean b =>
    match op with
    | and => some (.ok (.boolean (a && b)))
    | or => some (.ok (.boolean (a || b)))
    | _ => none
  | .text s, .text t =>
    match op with
    | add => some (.ok (.text (cutString (s ++ t))))
    | _ => none
  | _, _ => none

/-- Applies an operator between two operands. -/
def BinaryOp.apply (op : BinaryOp) (left right : Value) : Except Fault Value :=
  let result : Option (Except Fault Value) := match op.relates? with
    | some holds => (left.compare? right).map fun o => .ok (.boolean (holds o))
    | none => op.combine? left right
  result.getD (.error (.operands left.type op.text right.type))

/-! ## Functions -/

/-- A real without its fraction. -/
def truncate (x : Float) : Except Fault Value :=
  match Decimal.Exact.ofFloat? x with
  | some e => checkInteger e.truncate
  | none => .error .invalidReal

/-- A real rounded to an integer: one half is added to the magnitude, as reals are added, and the
fraction is cut off. -/
def round (x : Float) : Except Fault Value :=
  match Decimal.Exact.ofFloat? (x.abs + 0.5) with
  | some e =>
    let n : Int := e.floorMagnitude
    checkInteger (if x ≥ 0 then n else -n)
  | none => .error .invalidReal

/-- Applies a function to an integer. `none` for a function not defined for integers. -/
def Builtin.onInteger? (n : Int) : Builtin → Option (Except Fault Value)
  | abs => some (checkInteger n.natAbs)
  | sqr => some (checkInteger (n * n))
  | sqrt => some <| if n < 0 then .error .invalidReal else .ok (.real (Float.ofInt n).sqrt)
  | trunc => some (checkInteger n)
  | round => some (checkInteger n)
  | ord => some (.ok (.integer n))
  | chr => some <|
    if 0 ≤ n ∧ n ≤ 255 then .ok (.text (String.ofList [Char.ofNat n.toNat]))
    else .error .rangeCheck
  | odd => some (.ok (.boolean (n % 2 != 0)))
  | length | upcase => none

/-- Applies a function to a real. `none` for a function not defined for reals. -/
def Builtin.onReal? (x : Float) : Builtin → Option (Except Fault Value)
  | abs => some (checkReal x.abs)
  | sqr => some (checkReal (x * x))
  | sqrt => some <| if x < 0 then .error .invalidReal else .ok (.real x.sqrt)
  | trunc => some (truncate x)
  | round => some (Pascal.round x)
  | _ => none

/-- Applies a function to a text. `none` for a function not defined for it. -/
def Builtin.onText? (s : String) : Builtin → Option (Except Fault Value)
  | ord =>
    match s.toList with
    | [c] => some (.ok (.integer c.toNat))
    | _ => none
  | length => some (.ok (.integer s.length))
  | upcase => some (.ok (.text (String.ofList (Text.upper s.toList))))
  | _ => none

/-- Applies a function to its argument. -/
def Builtin.apply (f : Builtin) (v : Value) : Except Fault Value :=
  let result : Option (Except Fault Value) := match v with
    | .integer n => f.onInteger? n
    | .real x => f.onReal? x
    | .text s => f.onText? s
    | .boolean b =>
      match f with
      | ord => some (.ok (.integer (if b then 1 else 0)))
      | _ => none
  result.getD (.error (.argument f.name v.type))

/-! ## Relations -/

/-- A relation on values of one kind yields the truth value that their order gives. -/
theorem BinaryOp.apply_of_relates {op : BinaryOp} {holds : Ordering → Bool} {left right : Value}
    {o : Ordering} (hop : op.relates? = some holds) (ho : left.compare? right = some o) :
    op.apply left right = .ok (.boolean (holds o)) := by
  simp [BinaryOp.apply, hop, ho]

/-- A relation is not defined between values of different kinds. -/
theorem BinaryOp.apply_of_relates_none {op : BinaryOp} {holds : Ordering → Bool}
    {left right : Value} (hop : op.relates? = some holds) (ho : left.compare? right = none) :
    op.apply left right = .error (.operands left.type op.text right.type) := by
  simp [BinaryOp.apply, hop, ho]

end TurboBench.Pascal

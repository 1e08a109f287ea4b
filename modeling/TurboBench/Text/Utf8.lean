import TurboBench.Text.Field

/-!
Text as bytes.

A character is written in one to four bytes: a lead byte, which announces how many bytes follow
it, and then that many tails of six bits each. Some leads narrow the range of the first tail;
that excludes overlong forms, surrogates and numbers beyond the last code point, so a text has one
written form only.

Reading stops at the first flaw. A flaw names the bytes that cannot be part of any character: a
byte that is no lead, a lead with those tails that still fit, or a lead with all the bytes there
are.
-/

namespace TurboBench.Text.Utf8

/-! ## Writing -/

/-- The bytes of a text. -/
def encode (cs : List Char) : List UInt8 :=
  cs.flatMap String.utf8EncodeChar

@[simp] theorem encode_nil : encode [] = [] := rfl

@[simp] theorem encode_cons (c : Char) (cs : List Char) :
    encode (c :: cs) = String.utf8EncodeChar c ++ encode cs := rfl

theorem encode_append (cs ds : List Char) : encode (cs ++ ds) = encode cs ++ encode ds := by
  simp [encode]

/-! ## Flaws -/

/-- Why bytes are no text. -/
inductive Reason
  | noLead
  | noTail
  | endOfData
  deriving DecidableEq, Repr

/-- What is wrong with a byte sequence: the first bytes that are no text, from `first` on and
`length` in number, of which `byte` is the first. -/
structure Flaw where
  first : Nat
  length : Nat
  byte : UInt8
  reason : Reason
  deriving DecidableEq, Repr

/-- The wording of a reason. -/
def Reason.text : Reason → String
  | .noLead => "invalid start byte"
  | .noTail => "invalid continuation byte"
  | .endOfData => "unexpected end of data"

/-- The wording of a flaw. A single byte is shown, several are named by their positions. -/
def Flaw.text (f : Flaw) : String :=
  let place :=
    if f.length = 1 then
      s!"byte 0x{zeroFill 2 (hexSmall f.byte.toNat)} in position {f.first}"
    else s!"bytes in position {f.first}-{f.first + f.length - 1}"
  s!"'utf-8' codec can't decode {place}: {f.reason.text}"

/-! ## Reading -/

/-- What a lead byte announces: the number of its tails, the bounds of the first tail, and the
part of the code point that the lead holds itself. -/
structure Lead where
  tails : Nat
  low : Nat
  high : Nat
  bits : Nat
  deriving DecidableEq, Repr

/-- What a byte announces, if it is a lead. -/
def Lead.of? (byte : UInt8) : Option Lead :=
  let b := byte.toNat
  if b < 0x80 then some ⟨0, 0x80, 0xBF, b⟩
  -- Tails, and leads that could only start an overlong form of an ASCII character.
  else if b < 0xC2 then none
  else if b < 0xE0 then some ⟨1, 0x80, 0xBF, b - 0xC0⟩
  else if b = 0xE0 then some ⟨2, 0xA0, 0xBF, 0⟩
  else if b = 0xED then some ⟨2, 0x80, 0x9F, 0xD⟩
  else if b < 0xF0 then some ⟨2, 0x80, 0xBF, b - 0xE0⟩
  else if b = 0xF0 then some ⟨3, 0x90, 0xBF, 0⟩
  else if b < 0xF4 then some ⟨3, 0x80, 0xBF, b - 0xF0⟩
  else if b = 0xF4 then some ⟨3, 0x80, 0x8F, 4⟩
  else none

/-- Why the tails of a lead cannot be read, and how many of them were. -/
structure TailFlaw where
  reason : Reason
  read : Nat

/-- Reads `owed` tails, the first of them within the bounds, onto the bits so far. -/
def tails (low high bits : Nat) : Nat → List UInt8 → Except TailFlaw (Nat × List UInt8)
  | 0, bytes => .ok (bits, bytes)
  | _ + 1, [] => .error ⟨.endOfData, 0⟩
  | owed + 1, b :: bytes =>
    if low ≤ b.toNat && b.toNat ≤ high then
      match tails 0x80 0xBF (bits * 64 + b.toNat % 64) owed bytes with
      | .ok r => .ok r
      | .error f => .error { f with read := f.read + 1 }
    else .error ⟨.noTail, 0⟩

/-- Reading tails uses up as many bytes. -/
theorem length_of_tails {low high bits owed code : Nat} {bytes rest : List UInt8}
    (h : tails low high bits owed bytes = .ok (code, rest)) :
    rest.length + owed = bytes.length := by
  induction owed generalizing low high bits bytes with
  | zero =>
    simp only [tails, Except.ok.injEq, Prod.mk.injEq] at h
    simp [h.2]
  | succ owed ih =>
    cases bytes with
    | nil => simp [tails] at h
    | cons b bytes =>
      unfold tails at h
      split at h
      · split at h
        · rename_i r hr
          cases h
          have := ih hr
          simp only [List.length_cons]
          omega
        · cases h
      · cases h

/-- Reads the bytes that stand at a position. -/
def decodeFrom (position : Nat) (bytes : List UInt8) : Except Flaw (List Char) :=
  match bytes with
  | [] => .ok []
  | b :: bytes =>
    match Lead.of? b with
    | none => .error ⟨position, 1, b, .noLead⟩
    | some lead =>
      match h : tails lead.low lead.high lead.bits lead.tails bytes with
      | .error f => .error ⟨position, 1 + f.read, b, f.reason⟩
      | .ok (code, rest) =>
        match decodeFrom (position + 1 + lead.tails) rest with
        | .ok cs => .ok (Char.ofNat code :: cs)
        | .error f => .error f
  termination_by bytes.length
  decreasing_by
    have := length_of_tails h
    simp only [List.length_cons]
    omega

/-- The text that bytes stand for. -/
def decode (bytes : List UInt8) : Except Flaw (List Char) :=
  decodeFrom 0 bytes

@[simp] theorem decode_nil : decode [] = .ok [] := by
  simp [decode, decodeFrom]

end TurboBench.Text.Utf8

import TurboBench.Text.Utf8
import TurboBench.Text.Lines

/-!
# Text that is written can be read

Reading takes back the bytes of a text character by character. A code point is cut into groups of
six bits, the first of which goes into the lead byte; reading puts them together again
(`tails_cons`), and what a lead announces is what the number of its code point needs
(`exists_lead`). The leads that narrow the range of their first tail are where the bounds of code
points come in: a smaller number would have a shorter form, and there is no character for a
surrogate.

The line ends of a text are the only thing that reading a file does not leave as it is.
-/

set_option autoImplicit false

namespace TurboBench.Text

namespace Utf8

/-! ## Leads -/

theorem lead_one : ∀ n < 0x80, Lead.of? (.ofNat n) = some ⟨0, 0x80, 0xBF, n⟩ := by decide

theorem lead_two : ∀ n < 0x20, 2 ≤ n →
    Lead.of? (.ofNat (n + 0xC0)) = some ⟨1, 0x80, 0xBF, n⟩ := by decide

theorem lead_three : ∀ n < 0x10, Lead.of? (.ofNat (n + 0xE0))
    = some ⟨2, if n = 0 then 0xA0 else 0x80, if n = 0xD then 0x9F else 0xBF, n⟩ := by decide

theorem lead_four : ∀ n < 5, Lead.of? (.ofNat (n + 0xF0))
    = some ⟨3, if n = 0 then 0x90 else 0x80, if n = 4 then 0x8F else 0xBF, n⟩ := by decide

/-! ## Tails -/

/-- A tail holds the last six bits of a number. -/
theorem toNat_tail (n : Nat) : (UInt8.ofNat (n % 64 + 0x80)).toNat = n % 64 + 0x80 := by
  rw [UInt8.toNat_ofNat', Nat.mod_eq_of_lt]
  omega

theorem tails_zero (low high bits : Nat) (bytes : List UInt8) :
    tails low high bits 0 bytes = .ok (bits, bytes) := by
  rw [tails]

/-- A tail within the bounds puts its bits behind those so far. -/
theorem tails_cons {low high bits owed n : Nat} {bytes : List UInt8} {r : Nat × List UInt8}
    (hlow : low ≤ n % 64 + 0x80) (hhigh : n % 64 + 0x80 ≤ high)
    (h : tails 0x80 0xBF (bits * 64 + n % 64) owed bytes = .ok r) :
    tails low high bits (owed + 1) (.ofNat (n % 64 + 0x80) :: bytes) = .ok r := by
  have hbits : (n % 64 + 0x80) % 64 = n % 64 := by omega
  rw [tails, toNat_tail, hbits, h]
  simp [hlow, hhigh]

/-! ## Characters -/

/-- A character is written as a lead and the tails that it announces. -/
theorem exists_lead (c : Char) : ∃ b bs lead, String.utf8EncodeChar c = b :: bs
    ∧ Lead.of? b = some lead
    ∧ ∀ rest, tails lead.low lead.high lead.bits lead.tails (bs ++ rest) = .ok (c.toNat, rest) := by
  have hvalid : c.toNat < 0xD800 ∨ 0xDFFF < c.toNat ∧ c.toNat < 0x110000 := c.valid
  have hval : c.val.toNat = c.toNat := rfl
  unfold String.utf8EncodeChar
  rw [hval]
  generalize c.toNat = v at hvalid
  by_cases hone : v ≤ 0x7F
  · rw [if_pos hone]
    exact ⟨_, _, _, rfl, lead_one v (by omega), fun rest => tails_zero ..⟩
  by_cases htwo : v ≤ 0x7FF
  · rw [if_neg hone, if_pos htwo]
    refine ⟨_, _, _, rfl, lead_two (v / 64 % 0x20) (by omega) (by omega), fun rest => ?_⟩
    refine tails_cons (show 0x80 ≤ _ by omega) (show _ ≤ 0xBF by omega) ?_
    rw [show v / 64 % 0x20 * 64 + v % 64 = v by omega]
    exact tails_zero ..
  by_cases hthree : v ≤ 0xFFFF
  · rw [if_neg hone, if_neg htwo, if_pos hthree]
    refine ⟨_, _, _, rfl, lead_three (v / 4096 % 0x10) (by omega), fun rest => ?_⟩
    refine tails_cons ?_ ?_ (tails_cons (by omega) (by omega) ?_)
    -- The bounds exclude overlong forms and surrogates, and `v` is neither.
    · simp only
      split
      · omega
      · omega
    · simp only
      split
      · omega
      · omega
    rw [show (v / 4096 % 0x10 * 64 + v / 64 % 64) * 64 + v % 64 = v by omega]
    exact tails_zero ..
  · rw [if_neg hone, if_neg htwo, if_neg hthree]
    have hlead : v / 262144 % 8 < 5 := by omega
    refine ⟨_, _, _, rfl, lead_four (v / 262144 % 8) hlead, fun rest => ?_⟩
    refine tails_cons ?_ ?_ (tails_cons (by omega) (by omega) (tails_cons (by omega) (by omega) ?_))
    -- Here they exclude overlong forms and what lies behind the last code point.
    · simp only
      split
      · omega
      · omega
    · simp only
      split
      · omega
      · omega
    rw [show ((v / 262144 % 8 * 64 + v / 4096 % 64) * 64 + v / 64 % 64) * 64 + v % 64 = v by omega]
    exact tails_zero ..

/-- Reading takes the bytes of a character back as a whole. -/
theorem decodeFrom_append (c : Char) (rest : List UInt8) (position : Nat) :
    ∃ position', decodeFrom position (String.utf8EncodeChar c ++ rest)
      = (decodeFrom position' rest).map (c :: ·) := by
  obtain ⟨b, bs, lead, hbytes, hlead, htails⟩ := exists_lead c
  refine ⟨position + 1 + lead.tails, ?_⟩
  rw [hbytes, List.cons_append, decodeFrom]
  simp only [hlead]
  split
  · rename_i f hf
    rw [htails] at hf
    exact nomatch hf
  · rename_i code rest' hok
    rw [htails] at hok
    obtain ⟨rfl, rfl⟩ := Prod.mk.inj (Except.ok.inj hok)
    rw [Char.ofNat_toNat]
    cases decodeFrom (position + 1 + lead.tails) rest with
    | ok cs => rfl
    | error f => rfl

/-- **What is written can be read.** -/
theorem decode_encode (cs : List Char) : decode (encode cs) = .ok cs := by
  suffices hall : ∀ position, decodeFrom position (encode cs) = .ok cs from hall 0
  induction cs with
  | nil =>
    intro position
    rw [encode_nil, decodeFrom]
  | cons c cs ih =>
    intro position
    obtain ⟨position', h⟩ := decodeFrom_append c (encode cs) position
    rw [encode_cons, h, ih position']
    rfl

end Utf8

/-! ## Line ends -/

/-- Line ends are left as they are where there is no carriage return, and only there. -/
theorem normalizeNewlines_eq_self_iff (cs : List Char) : normalizeNewlines cs = cs ↔ '\r' ∉ cs :=
  ⟨fun h => h ▸ not_mem_normalizeNewlines cs, normalizeNewlines_of_not_mem⟩

end TurboBench.Text

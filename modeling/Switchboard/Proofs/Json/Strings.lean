import Switchboard.Json.Parser
import Switchboard.Json.Printer
/-!
# Strings in JSON text

A string is read back as it was written, whatever characters it has (`Json.stringTail_flatMap`).
There are three ways to write a character, by a letter, by four hexadecimal digits, or as it is,
with one lemma for each.
-/

namespace Switchboard.Json

variable {c letter : Char}

/-- A character that is written by a letter is read back. -/
theorem stringTail_letter (h : simpleEscape? letter = some c) (rest : List Char) :
    stringTail ('\\' :: letter :: rest) = push c (stringTail rest) := by
  have hu : letter ≠ 'u' := by
    rintro rfl
    cases h
  rw [stringTail]
  · rw [h]
  · rintro a b c d rest rfl
    exact absurd rfl hu
  · rintro rfl
    exact absurd rfl hu

/-- Hexadecimal digits are read back. -/
theorem hexValue?_hexDigit : ∀ n < 16, hexValue? (hexDigit n) = some n := by
  decide

/-- A character that is written as four hexadecimal digits is read back. -/
theorem stringTail_hex (h : c.toNat < 0x20) (rest : List Char) :
    stringTail ('\\' :: 'u' :: '0' :: '0' :: hexDigit (c.toNat / 16) :: hexDigit (c.toNat % 16) ::
      rest) = push c (stringTail rest) := by
  have hread : hexFour? '0' '0' (hexDigit (c.toNat / 16)) (hexDigit (c.toNat % 16)) =
      some c.toNat := by
    rw [hexFour?, hexValue?_hexDigit _ (by omega), hexValue?_hexDigit _ (by omega)]
    show some (0 * 4096 + 0 * 256 + c.toNat / 16 * 16 + c.toNat % 16) = some c.toNat
    rw [Option.some_inj]
    omega
  rw [stringTail, hread]
  simp only [if_neg (show ¬ (0xDC00 ≤ c.toNat ∧ c.toNat ≤ 0xDFFF) by omega),
    if_neg (show ¬ (0xD800 ≤ c.toNat ∧ c.toNat ≤ 0xDBFF) by omega), Char.ofNat_toNat]

/-- A character that is written as it is is read back. -/
theorem stringTail_plain (hquote : c ≠ '"') (hslash : c ≠ '\\') (h : ¬ c.toNat < 0x20)
    (rest : List Char) : stringTail (c :: rest) = push c (stringTail rest) := by
  rw [stringTail.eq_def]
  split
  · next heq => cases heq
  · next heq => exact absurd (List.cons.inj heq).1 hquote
  -- Four cases begin with a backslash.
  iterate 4
    · next heq => exact absurd (List.cons.inj heq).1 hslash
  · next heq =>
    obtain ⟨rfl, rfl⟩ := List.cons.inj heq
    rw [if_neg h]

/-- A character is read back. -/
theorem stringTail_escapeChar (c : Char) (rest : List Char) :
    stringTail (escapeChar c ++ rest) = push c (stringTail rest) := by
  unfold escapeChar
  -- Seven characters have a letter.
  iterate 7
    split
    · next h => exact stringTail_letter (by rw [h]; rfl) rest
  split
  · next h => exact stringTail_hex h rest
  · next hquote hslash _ _ _ _ _ h => exact stringTail_plain hquote hslash h rest

/-- A string is read back, up to its closing quote. -/
theorem stringTail_flatMap (chars rest : List Char) :
    stringTail (chars.flatMap escapeChar ++ '"' :: rest) = .ok (chars, rest) := by
  induction chars with
  | nil => rfl
  | cons c chars ih =>
    rw [List.flatMap_cons, List.append_assoc, stringTail_escapeChar, ih]
    rfl

end Switchboard.Json

/-!
# Octets and escapes

The path and the query of a request are octets in which any octet may be escaped as a percent
sign and two hexadecimal digits. What is left after unescaping is read as UTF-8, piece by piece: a
character, or a piece that begins none. A path has to be without such pieces; in a query each of
them stands for the replacement character.
-/

namespace Switchboard.Octets

/-- The value of a hexadecimal digit. -/
def hexValue? (b : UInt8) : Option UInt8 :=
  if 48 ≤ b ∧ b ≤ 57 then some (b - 48)
  else if 97 ≤ b ∧ b ≤ 102 then some (b - 87)
  else if 65 ≤ b ∧ b ≤ 70 then some (b - 55)
  else none

/-- Replaces every escape by the octet it stands for. A percent sign without two digits behind it
stands for itself. -/
def unescape : List UInt8 → List UInt8
  | [] => []
  | 37 :: a :: b :: rest =>
    match hexValue? a, hexValue? b with
    | some high, some low => (high * 16 + low) :: unescape rest
    | _, _ => 37 :: unescape (a :: b :: rest)
  | b :: rest => b :: unescape rest
termination_by bs => bs.length

/-- The octet continues a character. -/
def continues (b : UInt8) : Bool := 0x80 ≤ b && b ≤ 0xBF

/-- The range of the second octet of a character, by the first one, and the count of octets behind
that. -/
def lead? (b : UInt8) : Option (UInt8 × UInt8 × Nat) :=
  if 0xC2 ≤ b ∧ b ≤ 0xDF then some (0x80, 0xBF, 0)
  else if b = 0xE0 then some (0xA0, 0xBF, 1)
  else if b = 0xED then some (0x80, 0x9F, 1)
  else if 0xE1 ≤ b ∧ b ≤ 0xEF then some (0x80, 0xBF, 1)
  else if b = 0xF0 then some (0x90, 0xBF, 2)
  else if 0xF1 ≤ b ∧ b ≤ 0xF3 then some (0x80, 0xBF, 2)
  else if b = 0xF4 then some (0x80, 0x8F, 2)
  else none

/-- The octets at the front that continue a character, at most `n`. -/
def continuation (n : Nat) (bs : List UInt8) : List UInt8 :=
  (bs.take n).takeWhile continues

/-- The character with the given number of bits in its first octet and the octets behind it. -/
def assemble (first : UInt8) (rest : List UInt8) : Char :=
  let bits := 6 - rest.length
  Char.ofNat (rest.foldl (fun n b => n * 64 + b.toNat % 64) (first.toNat % Nat.pow 2 bits))

/-- The first piece: a character, or `none` for octets that begin a character but do not complete
it, and the octets behind the piece. -/
def piece (b : UInt8) (rest : List UInt8) : Option Char × List UInt8 :=
  if b < 0x80 then (some (Char.ofNat b.toNat), rest)
  else
    match lead? b, rest with
    | some (low, high, more), second :: behind =>
      if low ≤ second ∧ second ≤ high then
        let tail := continuation more behind
        let left := behind.drop tail.length
        if tail.length = more then (some (assemble b (second :: tail)), left) else (none, left)
      else (none, rest)
    | _, _ => (none, rest)

/-- A piece leaves no more than there was. -/
theorem length_piece (b : UInt8) (rest : List UInt8) : (piece b rest).2.length ≤ rest.length := by
  unfold piece
  split
  · exact Nat.le_refl _
  · split
    · split
      · dsimp only
        split <;> simp only [List.length_drop, List.length_cons] <;> omega
      · exact Nat.le_refl _
    · exact Nat.le_refl _

/-- The pieces of a sequence of octets. -/
def pieces : List UInt8 → List (Option Char)
  | [] => []
  | b :: rest => (piece b rest).1 :: pieces (piece b rest).2
termination_by bs => bs.length
decreasing_by exact Nat.lt_succ_of_le (length_piece b rest)

/-- The text of octets that are nothing but characters. -/
def text? (bs : List UInt8) : Option String :=
  ((pieces bs).mapM id).map String.ofList

/-- The text of octets, where the replacement character stands for each piece that is none. -/
def textWithGaps (bs : List UInt8) : String :=
  String.ofList ((pieces bs).map fun c => c.getD '\ufffd')

/-- The octets of a text. -/
def ofText (s : String) : List UInt8 :=
  s.toUTF8.toList

end Switchboard.Octets

/-!
# Tables of runs

A property of characters is constant over long runs of consecutive code points. A table lists the
runs in order, each as a label followed by its length in decimal, and covers all code points from
zero on. A run begins where the one before it ends, so a table is looked up by binary search over
the beginnings.
-/

namespace Switchboard

/-- The runs of a table: where each begins, and its label. -/
structure Runs where
  /-- The beginnings, in ascending order. -/
  begins : Array (Nat × String)

namespace Runs

/-- What is known while a table is read. -/
structure Reading where
  /-- The runs that are complete. -/
  done : Array (Nat × String)
  /-- Where the current run begins. -/
  start : Nat
  /-- The label of the current run, last character first. -/
  label : List Char
  /-- The length of the current run, as far as it was read; none within the label. -/
  length : Option Nat

/-- Completes the current run. -/
def Reading.finish (r : Reading) : Reading :=
  match r.length with
  | none => r
  | some n => ⟨r.done.push (r.start, String.ofList r.label.reverse), r.start + n, [], none⟩

/-- Reads one character of a table. -/
def Reading.step (r : Reading) (c : Char) : Reading :=
  if c.isDigit then { r with length := some (r.length.getD 0 * 10 + (c.toNat - 48)) }
  else
    let r := r.finish
    { r with label := c :: r.label }

/-- Reads a table from its lines. -/
def ofLines (lines : List String) : Runs :=
  ⟨((lines.flatMap String.toList).foldl Reading.step ⟨#[], 0, [], none⟩).finish.done⟩

/-- The position of the last run that begins at or before `n`, of those from `low` to
`low + width`. -/
def search (begins : Array (Nat × String)) (n low width : Nat) : Nat :=
  if width = 0 then low
  else
    let half := (width + 1) / 2
    if (begins[low + half]?).any (·.1 ≤ n) then search begins n (low + half) (width - half)
    else search begins n low (half - 1)
termination_by width
decreasing_by all_goals omega

/-- The label of a code point. -/
def label (r : Runs) (n : Nat) : String :=
  match r.begins[search r.begins n 0 (r.begins.size - 1)]? with
  | some (_, name) => name
  | none => ""

end Runs

end Switchboard

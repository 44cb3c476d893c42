import SlotFlow.Listing.Line

/-!
# Reading a listing

Lines are read one by one; the first line that is refused ends the reading and is
named by its number, counted from one.

Main definitions:

* `Refusal`: a line and what is wrong with it;
* `parse`: all records of a listing.

Main statements:

* `parseLines_cons_ok`, `parseLines_cons_error`: the first line decides, and then the
  others do.
-/

namespace SlotFlow
namespace Listing

/-- The first bad line of a listing. -/
structure Refusal where
  line : Nat
  complaint : Complaint
deriving DecidableEq

/-- The records of lines of which the first has the number `n`. -/
def parseLines
    (n : Nat) :
    List (List Char) → Except Refusal (List Record)
  | [] => .ok []
  | line :: rest =>
      match parseLine line with
      | .error complaint => .error ⟨n, complaint⟩
      | .ok records => (parseLines (n + 1) rest).map (records ++ ·)

/-- All records of a listing. -/
def parse
    (source : String) :
    Except Refusal (List Record) :=
  parseLines 1 (Text.lines source.toList)

/-- The records of a good first line come first. -/
theorem parseLines_cons_ok
    {n : Nat}
    {line : List Char}
    {records : List Record}
    (h : parseLine line = .ok records)
    (rest : List (List Char)) :
    parseLines n (line :: rest) = (parseLines (n + 1) rest).map (records ++ ·) := by
  rw [parseLines, h]

/-- A bad first line is the one that is named. -/
theorem parseLines_cons_error
    {n : Nat}
    {line : List Char}
    {complaint : Complaint}
    (h : parseLine line = .error complaint)
    (rest : List (List Char)) :
    parseLines n (line :: rest) = .error ⟨n, complaint⟩ := by
  rw [parseLines, h]

end Listing
end SlotFlow

/-!
# Classes of characters as ranges

A class of characters is an ascending list of ranges of code points, ends included.
-/

namespace SlotFlow
namespace Text
namespace CharRange

/-- Looks a code point up in an ascending list of ranges. -/
def contains
    (n : Nat) :
    List (Nat × Nat) → Bool
  | [] => false
  | (first, last) :: rest =>
      if n < first then false
      else if n ≤ last then true
      else contains n rest

end CharRange
end Text
end SlotFlow

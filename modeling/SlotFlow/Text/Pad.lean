/-!
# Columns

Texts are filled up with blanks to the width of a column. Width is counted in
characters; a text that is wider is left as it is.
-/

namespace SlotFlow
namespace Text

/-- Fills a text up with blanks on its right. -/
def padRight
    (width : Nat)
    (text : String) :
    String :=
  text ++ String.ofList (List.replicate (width - text.length) ' ')

end Text
end SlotFlow

import SlotFlow.Opcode

/-!
# Element types of primitive arrays

The operand of `newarray` is a type code; a listing writes it as a keyword.

Main statements:

* `ofKeyword_keyword`: a keyword leads to its element type;
* `code_ofCode`: a code that is found is the element's own.
-/

namespace SlotFlow

/-- The element types that `newarray` can name. -/
inductive ArrayElement where
  | boolean
  | char
  | float
  | double
  | byte
  | short
  | int
  | long
deriving DecidableEq

namespace ArrayElement

/-- Every element type, in the order of the type codes. -/
def all : List ArrayElement :=
  [boolean, char, float, double, byte, short, int, long]

/-- The type code. -/
def code : ArrayElement → Int32
  | boolean => 4
  | char => 5
  | float => 6
  | double => 7
  | byte => 8
  | short => 9
  | int => 10
  | long => 11

/-- The keyword that stands for the type code in a listing. -/
def keyword : ArrayElement → String
  | boolean => "boolean"
  | char => "char"
  | float => "float"
  | double => "double"
  | byte => "byte"
  | short => "short"
  | int => "int"
  | long => "long"

/-- The descriptor of an array of such elements. -/
def arrayDescriptor : ArrayElement → String
  | boolean => "[Z"
  | char => "[C"
  | float => "[F"
  | double => "[D"
  | byte => "[B"
  | short => "[S"
  | int => "[I"
  | long => "[J"

/-- The element type of a type code. -/
def ofCode?
    (code : Int32) :
    Option ArrayElement :=
  all.find? fun e => e.code == code

/-- The element type of a keyword. -/
def ofKeyword?
    (keyword : String) :
    Option ArrayElement :=
  all.find? fun e => e.keyword == keyword

/-- A keyword leads to its element type. -/
theorem ofKeyword_keyword
    (e : ArrayElement) :
    ofKeyword? e.keyword = some e := by
  cases e <;> decide

/-- A type code that is found is the element's own. -/
theorem code_ofCode
    {n : Int32}
    {e : ArrayElement}
    (h : ofCode? n = some e) :
    e.code = n := by
  simpa using List.find?_some h

end ArrayElement
end SlotFlow

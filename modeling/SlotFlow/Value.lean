import SlotFlow.Literal
import SlotFlow.Descriptor
import SlotFlow.Record
import SlotFlow.Listing.Render

/-!
# Values

One slot of a frame holds a value: its verification category, the literal that is
known of it, and the field it was loaded from.

Main definitions:

* `CreationSite`, `Category`, `Value`;
* `Value.ofLiteral`: a literal is kept only where its category can hold it;
* `Value.render`: the text of a slot.

Main statement:

* `Value.ofLiteral_agrees`: a value made from a literal agrees with its category.
-/

namespace SlotFlow

/-- Internal name of the class of strings. -/
def stringClass : String :=
  "java/lang/String"

/-- Which `new` an object that is not initialized comes from. -/
inductive CreationSite where
  /-- The `new` at this label; frames refer to it. -/
  | label (label : Label)
  /-- A `new` without a label, numbered within the analysis. -/
  | synthetic (number : UInt32)
deriving DecidableEq

/-- The verification category of a slot. -/
inductive Category where
  | top
  | int
  | float
  | long
  | double
  | null
  /-- A class by internal name, or an array by descriptor. -/
  | object (name : String)
  | uninitializedThis
  | uninitialized (site : CreationSite)
deriving DecidableEq

/-- The text of a creation site. -/
def CreationSite.render : CreationSite → String
  | label l => l.render
  | synthetic number => "#" ++ Text.Decimal.renderNat number.toNat

namespace Category

/-- Whether a value takes two slots. -/
def isWide : Category → Bool
  | long | double => true
  | _ => false

/-- The category of a type; integers that are narrower than an int widen to it. -/
def ofFieldType : FieldType → Category
  | .boolean | .byte | .char | .short | .int => int
  | .float => float
  | .long => long
  | .double => double
  | .object name => object name
  | .array descriptor => object descriptor

/-- The category of a frame entry. -/
def ofVerificationType : VerificationType → Category
  | .top => top
  | .int => int
  | .float => float
  | .long => long
  | .double => double
  | .null => null
  | .uninitializedThis => uninitializedThis
  | .object name => object name
  | .uninitialized l => uninitialized (.label l)

/-- The text of a category. -/
def render : Category → String
  | top => "top"
  | int => "int"
  | float => "float"
  | long => "long"
  | double => "double"
  | null => "null"
  | object name => name
  | uninitializedThis => "uninit_this"
  | uninitialized site => "uninit:" ++ site.render

/-- Whether a slot of the category can hold the literal; strings have one class. -/
def admits : Category → Literal → Bool
  | _, .unknown => true
  | int, .int _ => true
  | long, .long _ => true
  | float, .float _ => true
  | double, .double _ => true
  | null, .null => true
  | object name, .string _ => name = stringClass
  | _, _ => false

end Category

/-- The content of one slot. -/
structure Value where
  category : Category
  literal : Literal
  /-- The field that the value was last loaded from. -/
  provenance : Option String
deriving DecidableEq

namespace Value

/-- A value of which only the category is known. -/
def unknown
    (category : Category) :
    Value :=
  ⟨category, .unknown, none⟩

/-- A known int. -/
def int
    (v : Int32) :
    Value :=
  ⟨.int, .int v, none⟩

/-- A known long. -/
def long
    (v : Int64) :
    Value :=
  ⟨.long, .long v, none⟩

/-- A known float. -/
def float
    (v : Float32) :
    Value :=
  ⟨.float, .float v, none⟩

/-- A known double. -/
def double
    (v : Float) :
    Value :=
  ⟨.double, .double v, none⟩

/-- A known string. -/
def string
    (text : String) :
    Value :=
  ⟨.object stringClass, .string text, none⟩

/-- The null reference. -/
def null : Value :=
  ⟨.null, .null, none⟩

/-- An empty slot, or the second slot of a value that takes two. -/
def top : Value :=
  unknown .top

/-- An object or array of which only the type is known. -/
def unknownObject
    (name : String) :
    Value :=
  unknown (.object name)

/-- The receiver of a constructor before it has called another one. -/
def uninitializedThis : Value :=
  unknown .uninitializedThis

/-- A new object before its constructor has been called. -/
def uninitialized
    (site : CreationSite) :
    Value :=
  unknown (.uninitialized site)

/-- A value with a literal, which is forgotten if the category cannot hold it. -/
def ofLiteral
    (category : Category)
    (literal : Literal) :
    Value :=
  ⟨category, if category.admits literal then literal else .unknown, none⟩

/-- The same value, loaded from a field. -/
def loadedFrom
    (v : Value)
    (field : String) :
    Value :=
  { v with provenance := some field }

/-- Whether the literal is known. -/
def isLiteral
    (v : Value) :
    Bool :=
  v.literal.isKnown

/-- Whether the value takes two slots. -/
def isWide
    (v : Value) :
    Bool :=
  v.category.isWide

/-- Whether the slot is empty or the second one of a value. -/
def isTop
    (v : Value) :
    Bool :=
  v.category = .top

/-- The known int. -/
def asInt?
    (v : Value) :
    Option Int32 :=
  match v.literal with
  | .int n => some n
  | _ => none

/-- The known long. -/
def asLong?
    (v : Value) :
    Option Int64 :=
  match v.literal with
  | .long n => some n
  | _ => none

/-- The known float. -/
def asFloat?
    (v : Value) :
    Option Float32 :=
  match v.literal with
  | .float x => some x
  | _ => none

/-- The known double. -/
def asDouble?
    (v : Value) :
    Option Float :=
  match v.literal with
  | .double x => some x
  | _ => none

/-- The known string. -/
def asString?
    (v : Value) :
    Option String :=
  match v.literal with
  | .string text => some text
  | _ => none

/--
The text of a slot: its category, its literal if that is known and the category does
not say it already, and the field it was loaded from.
-/
def render
    (v : Value) :
    String :=
  v.category.render ++
    (if v.isLiteral && v.category ≠ .null then " " ++ v.literal.render else "") ++
    (match v.provenance with
    | some field => " @" ++ field
    | none => "")

/-- A value made from a literal agrees with its category. -/
theorem ofLiteral_agrees
    (category : Category)
    (literal : Literal) :
    (ofLiteral category literal).category.admits (ofLiteral category literal).literal =
      true := by
  unfold ofLiteral
  simp only
  split
  · assumption
  · cases category <;> rfl

end Value
end SlotFlow

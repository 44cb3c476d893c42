/-!
# Descriptors

A field descriptor names a type: a letter for a primitive one, `L` name `;` for a
class, `[` before the descriptor of the elements for an array. A method descriptor
lists parameter types in parentheses and then the result, `V` for none.

Main definitions:

* `FieldType`, `FieldType.parse?`, `FieldType.descriptor`;
* `MethodDescriptor`, `MethodDescriptor.parse?`, `MethodDescriptor.render`;
* `poppedSlots?`, `pushedType?`: what a field or method descriptor takes off the
  operand stack and puts on it.

Main statement:

* `FieldType.take_length`: reading a type from the front leaves a shorter rest.
-/

namespace SlotFlow

/-- A type as a descriptor names it. -/
inductive FieldType where
  | boolean
  | byte
  | char
  | short
  | int
  | float
  | long
  | double
  /-- A class, by internal name. -/
  | object (name : String)
  /-- An array, by its whole descriptor. -/
  | array (descriptor : String)
deriving DecidableEq

namespace FieldType

/-- The descriptor of a type. -/
def descriptor : FieldType → String
  | boolean => "Z"
  | byte => "B"
  | char => "C"
  | short => "S"
  | int => "I"
  | float => "F"
  | long => "J"
  | double => "D"
  | object name => "L" ++ name ++ ";"
  | array descriptor => descriptor

/-- The primitive type of a letter. -/
def ofLetter? : Char → Option FieldType
  | 'Z' => some boolean
  | 'B' => some byte
  | 'C' => some char
  | 'S' => some short
  | 'I' => some int
  | 'F' => some float
  | 'J' => some long
  | 'D' => some double
  | _ => none

/-- Reads a class name up to its semicolon; the name is not empty. -/
def takeName?
    (cs : List Char) :
    Option (FieldType × List Char) :=
  let name := cs.takeWhile (· ≠ ';')
  match cs.dropWhile (· ≠ ';') with
  | [] => none
  | _ :: rest => if name.isEmpty then none else some (object (String.ofList name), rest)

/-- Reads one type from the front and returns the rest. -/
def take? : List Char → Option (FieldType × List Char)
  | [] => none
  | c :: cs =>
      if c = '[' then
        (take? cs).map fun (element, rest) => (array ("[" ++ element.descriptor), rest)
      else if c = 'L' then
        takeName? cs
      else
        (ofLetter? c).map fun type => (type, cs)

/-- The type of a descriptor that holds nothing else. -/
def parse?
    (descriptor : String) :
    Option FieldType :=
  match take? descriptor.toList with
  | some (type, []) => some type
  | _ => none

/-- The type of an internal name: array descriptors stay, all else is a class. -/
def ofInternalName
    (name : String) :
    FieldType :=
  if name.toList.head? = some '[' then array name else object name

/-- Whether a value takes two slots. -/
def isWide : FieldType → Bool
  | long | double => true
  | _ => false

/-- Slots a value takes on the operand stack or among the locals. -/
def size
    (type : FieldType) :
    Nat :=
  if type.isWide then 2 else 1

/-- The name by which a frame refers to a reference type. -/
def internalName? : FieldType → Option String
  | object name => some name
  | array descriptor => some descriptor
  | _ => none

/-- Whether values are references. -/
def isReference
    (type : FieldType) :
    Bool :=
  type.internalName?.isSome

/-- The type of the elements of an array. -/
def element? : FieldType → Option FieldType
  | array descriptor => parse? (String.ofList (descriptor.toList.drop 1))
  | _ => none

/-- Reading a type from the front leaves a shorter rest. -/
theorem take_length
    {cs rest : List Char}
    {type : FieldType}
    (h : take? cs = some (type, rest)) :
    rest.length < cs.length := by
  induction cs generalizing type with
  | nil => simp [take?] at h
  | cons c cs ih =>
    rw [take?] at h
    split at h
    · obtain ⟨⟨element, after⟩, hinner, heq⟩ := Option.map_eq_some_iff.1 h
      cases heq
      exact Nat.lt_succ_of_lt (ih hinner)
    · split at h
      · unfold takeName? at h
        simp only at h
        split at h
        · exact absurd h (by simp)
        · rename_i head tail hdrop
          split at h
          · exact absurd h (by simp)
          · cases h
            have hlen := (List.dropWhile_suffix (l := cs) (· ≠ ';')).length_le
            rw [hdrop] at hlen
            simp only [List.length_cons] at hlen ⊢
            omega
      · obtain ⟨_, _, heq⟩ := Option.map_eq_some_iff.1 h
        cases heq
        exact Nat.lt_succ_self _

end FieldType

/-- Parameter types and result type of a method; no result stands for `V`. -/
structure MethodDescriptor where
  parameters : List FieldType
  result : Option FieldType
deriving DecidableEq

namespace MethodDescriptor

/-- Reads parameter types up to the closing parenthesis and returns what follows it. -/
def takeParameters?
    (cs : List Char) :
    Option (List FieldType × List Char) :=
  if cs.head? = some ')' then
    some ([], cs.drop 1)
  else
    match _h : FieldType.take? cs with
    | none => none
    | some (type, rest) =>
        (takeParameters? rest).map fun (types, after) => (type :: types, after)
termination_by cs.length
decreasing_by
  exact FieldType.take_length (by assumption)

/-- Reads a result type; the outer `none` is a failure, the inner one stands for `V`. -/
def readResult?
    (cs : List Char) :
    Option (Option FieldType) :=
  if cs = ['V'] then
    some none
  else
    (FieldType.parse? (String.ofList cs)).map some

/-- The meaning of a method descriptor. -/
def parse?
    (descriptor : String) :
    Option MethodDescriptor :=
  match descriptor.toList with
  | '(' :: cs =>
      (takeParameters? cs).bind fun (types, rest) =>
        (readResult? rest).map fun result => ⟨types, result⟩
  | _ => none

/-- Slots that the parameters take; a receiver is not counted. -/
def argumentSize
    (d : MethodDescriptor) :
    Nat :=
  (d.parameters.map FieldType.size).foldr (· + ·) 0

/-- Slots that the result takes. -/
def resultSize
    (d : MethodDescriptor) :
    Nat :=
  (d.result.map FieldType.size).getD 0

/-- The text of a method descriptor. -/
def render
    (d : MethodDescriptor) :
    String :=
  "(" ++ String.join (d.parameters.map FieldType.descriptor) ++ ")" ++
    (d.result.map FieldType.descriptor).getD "V"

end MethodDescriptor

/-- Whether a descriptor is to be read as a method's. -/
def isMethodDescriptor
    (descriptor : String) :
    Bool :=
  descriptor.toList.head? == some '('

/-- Slots popped for a descriptor: a method's arguments or a field's value. -/
def poppedSlots?
    (descriptor : String) :
    Option Nat :=
  if isMethodDescriptor descriptor then
    (MethodDescriptor.parse? descriptor).map MethodDescriptor.argumentSize
  else
    (FieldType.parse? descriptor).map FieldType.size

/--
The type pushed for a descriptor: a method's result, if it has one, or the field's
type. The outer `none` is a malformed descriptor.
-/
def pushedType?
    (descriptor : String) :
    Option (Option FieldType) :=
  if isMethodDescriptor descriptor then
    (MethodDescriptor.parse? descriptor).map MethodDescriptor.result
  else
    (FieldType.parse? descriptor).map some

end SlotFlow

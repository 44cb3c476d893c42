import SlotFlow.Frame

/-!
# Calls that are about to happen

Before a call its arguments are the top slots of the stack, laid out as the
descriptor says, and the receiver lies right below them.

Main definitions:

* `CallSite.arguments?`: the arguments in the order of their declaration;
* `CallSite.receiver?`: the receiver;
* `CallSite.typesMatch`: parameter types against a pattern.
-/

namespace SlotFlow
namespace CallSite

/-- The first slot of each parameter in a block of slots, deepest first. -/
def pick : List FieldType → List Value → List Value
  | [], _ => []
  | type :: types, cells => cells.head?.toList ++ pick types (cells.drop type.size)

/-- The descriptor of a call, where a reachable frame holds its arguments. -/
def ready?
    (f : Frame)
    (descriptor : String) :
    Option MethodDescriptor :=
  (MethodDescriptor.parse? descriptor).filter fun d =>
    f.reachable && d.argumentSize ≤ f.stack.length

/-- The arguments of a call; a wide one is given by its first slot. -/
def arguments?
    (f : Frame)
    (descriptor : String) :
    Option (List Value) :=
  (ready? f descriptor).map fun d =>
    pick d.parameters (f.stack.take d.argumentSize).reverse

/-- One argument of a call. -/
def argument?
    (f : Frame)
    (descriptor : String)
    (index : Nat) :
    Option Value :=
  (arguments? f descriptor).bind fun cells => cells[index]?

/-- The receiver of a call. -/
def receiver?
    (f : Frame)
    (descriptor : String) :
    Option Value :=
  (ready? f descriptor).bind fun d => f.peek? d.argumentSize

/-- What is known of the arguments of a call. -/
def literals?
    (f : Frame)
    (descriptor : String) :
    Option (List Literal) :=
  (arguments? f descriptor).map (List.map Value.literal)

/-- The fields that the arguments of a call were loaded from. -/
def sources?
    (f : Frame)
    (descriptor : String) :
    Option (List (Option String)) :=
  (arguments? f descriptor).map (List.map Value.provenance)

/-- Whether types match a pattern of the same length, in which `none` is any type. -/
def typesMatch : List FieldType → List (Option FieldType) → Bool
  | [], [] => true
  | type :: types, wanted :: pattern =>
      (wanted.all (· = type)) && typesMatch types pattern
  | _, _ => false

end CallSite
end SlotFlow

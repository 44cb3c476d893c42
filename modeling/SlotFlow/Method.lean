/-!
# Methods

The method whose body is analysed.
-/

namespace SlotFlow

/-- The name of constructors. -/
def constructorName : String :=
  "<init>"

/-- The method whose body is analysed. -/
structure Method where
  /-- Internal name of the declaring class. -/
  owner : String
  name : String
  descriptor : String
  isStatic : Bool
deriving DecidableEq

/-- Whether the method is a constructor. -/
def Method.isConstructor
    (m : Method) :
    Bool :=
  m.name = constructorName

end SlotFlow

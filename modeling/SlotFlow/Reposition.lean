import SlotFlow.Analysis
import SlotFlow.CallSite

/-!
# Moving a labelled component

An observer that follows a component of a user interface through a method body: it is
built by a factory call with a known label, stored in a field, added to a container,
and positioned by a call with a literal offset. Before that last call the offset is
taken off the stack and another one is loaded.

Main definitions:

* `Stage`: how far the component has been followed;
* `Repositioner`: what to look for, and the stage;
* `Repositioner.observe`: one record.
-/

namespace SlotFlow

/-- How far a component has been followed. -/
inductive Stage where
  /-- The factory call has not been seen. -/
  | construction
  /-- The component has not been stored in a field. -/
  | assignment
  /-- The field has not been added to a container. -/
  | addition
  /-- The call that positions it has not been seen. -/
  | positioning
  | done
deriving DecidableEq

/-- The name of a stage in messages. -/
def Stage.name : Stage → String
  | construction => "Construction"
  | assignment => "Assignment"
  | addition => "Addition"
  | positioning => "Positioning"
  | done => "Done"

/-- What to look for, and how far the component has been followed. -/
structure Repositioner where
  /-- The class that the factory returns. -/
  componentType : String
  /-- The class of the third parameter of the factory. -/
  alignmentType : String
  /-- The first argument of the factory. -/
  label : String
  positioningMethod : String
  /-- The offset to be replaced. -/
  offset : Float32
  replacement : Float32
  stage : Stage
  /-- The field that the component was stored in. -/
  field : Option String
deriving DecidableEq

namespace Repositioner

/-- Looks for a component of a type, by the usual label, method and offset. -/
def standard
    (componentType alignmentType : String) :
    Repositioner where
  componentType := componentType
  alignmentType := alignmentType
  label := "Mods..."
  positioningMethod := "inBMid"
  offset := 25
  replacement := 0
  stage := .construction
  field := none

/-- Whether the offset has been replaced. -/
def isDone
    (s : Repositioner) :
    Bool :=
  s.stage = .done

/-- Parameter types of the factory: two strings, the alignment, and any two more. -/
def factoryPattern
    (s : Repositioner) :
    List (Option FieldType) :=
  [some (.object stringClass), some (.object stringClass), some (.object s.alignmentType),
    none, none]

/-- Whether a call builds the component. -/
def isFactoryCall
    (s : Repositioner)
    (d : MethodDescriptor)
    (f : Frame)
    (descriptor : String) :
    Bool :=
  d.result = some (.object s.componentType) &&
    CallSite.typesMatch d.parameters s.factoryPattern &&
    ((CallSite.literals? f descriptor).bind List.head? = some (.string s.label))

/-- Whether a call adds the component, as loaded from its field, to a container. -/
def isAddition
    (s : Repositioner)
    (name : String)
    (f : Frame)
    (descriptor : String) :
    Bool :=
  let source := ((CallSite.sources? f descriptor).bind List.head?).join
  name = "add" && source.isSome && source = s.field

/-- Whether a call positions the component at the offset to be replaced. -/
def isPositioning
    (s : Repositioner)
    (name : String)
    (d : MethodDescriptor)
    (f : Frame)
    (descriptor : String) :
    Bool :=
  name = s.positioningMethod && CallSite.typesMatch d.parameters [some .float] &&
    ((CallSite.argument? f descriptor 0).map Value.literal = some (.float s.offset))

/-- What replaces the offset on the stack. -/
def correction
    (s : Repositioner) :
    List Record :=
  [.bare .pop, .load (.float s.replacement)]

/-- The message of a component that was built. -/
def constructedMessage
    (s : Repositioner) :
    Message :=
  ⟨.debug, "component '" ++ s.label ++ "' constructed"⟩

/-- The message of an offset that was replaced. -/
def rewroteMessage
    (s : Repositioner) :
    Message :=
  ⟨.debug, "rewrote " ++ s.positioningMethod ++ " offset " ++
    Number.Style.constant.single s.offset ++ " -> " ++
    Number.Style.constant.single s.replacement⟩

/-- Shows a call to the observer. -/
def observeCall
    (s : Repositioner)
    (name descriptor : String)
    (f : Frame)
    (e : Emission) :
    Reaction Repositioner :=
  match MethodDescriptor.parse? descriptor with
  | none => ⟨s, [], .error (.invalidDescriptor descriptor)⟩
  | some d =>
      match s.stage with
      | .construction =>
          if s.isFactoryCall d f descriptor then
            ⟨{ s with stage := .assignment }, [s.constructedMessage], .ok e⟩
          else
            ⟨s, [], .ok e⟩
      | .addition =>
          if s.isAddition name f descriptor then
            ⟨{ s with stage := .positioning }, [], .ok e⟩
          else
            ⟨s, [], .ok e⟩
      | .positioning =>
          if s.isPositioning name d f descriptor then
            ⟨{ s with stage := .done }, [s.rewroteMessage], .ok (e.emit s.correction)⟩
          else
            ⟨s, [], .ok e⟩
      | .assignment | .done => ⟨s, [], .ok e⟩

/-- Shows a record to the observer. -/
def observe
    (s : Repositioner)
    (r : Record)
    (f : Frame)
    (e : Emission) :
    Reaction Repositioner :=
  match r with
  | .method _ _ name descriptor _ => s.observeCall name descriptor f e
  | .field .putfield _ name _ =>
      if s.stage = .assignment then
        ⟨{ s with stage := .addition, field := some name }, [], .ok e⟩
      else
        ⟨s, [], .ok e⟩
  | _ => ⟨s, [], .ok e⟩

instance : Observer Repositioner where
  observe := observe

end Repositioner
end SlotFlow

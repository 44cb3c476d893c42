import SlotFlow.Machine
import SlotFlow.Text.Pad

/-!
# Log messages

What an analysis has to say besides its result. The messages of a step depend only on
the machine before it, the record and the outcome; they do not influence the step.

Main definitions:

* `Message`: a text and its level;
* `Machine.stepMessages`: the messages of one step.
-/

namespace SlotFlow

/-- How much detail a message gives. -/
inductive Level where
  | debug
  | trace
deriving DecidableEq

/-- A text for the log. -/
structure Message where
  level : Level
  text : String
deriving DecidableEq

/-- The message of a listing that was read. -/
def parsedMessage
    (records : List Record) :
    Message :=
  ⟨.debug, "parsed " ++ Text.Decimal.renderNat records.length ++ " listing records"⟩

namespace Machine

/-- The slot below the arguments of a call. -/
def receiverCell?
    (m : Machine)
    (descriptor : String) :
    Option Value :=
  (poppedSlots? descriptor).bind m.frame.peek?

/-- The message of a call that completes the construction of an object. -/
def constructionMessage?
    (m : Machine) :
    Effect → Option Message
  | .call (.constructed owner) descriptor =>
      (m.receiverCell? descriptor).bind fun v =>
        (m.constructedType? v.category owner).map fun type =>
          ⟨.trace, "constructed " ++ type ++ " from " ++ v.render⟩
  | _ => none

/-- The message of an executed instruction and the frame after it. -/
def tracedMessage
    (r : Record)
    (f : Frame) :
    Message :=
  ⟨.trace, Text.padRight 40 r.render ++ " " ++ f.render⟩

/-- Whether a record is an instruction that the machine starts to execute. -/
def attempts
    (m : Machine)
    (r : Record) :
    Bool :=
  match r.opcode? with
  | some op => !op.isSubroutine && r.misfit?.isNone && m.frame.reachable
  | none => false

/-- The messages of one step. -/
def stepMessages
    (tracing : Bool)
    (before : Machine)
    (r : Record)
    (result : Except Fault Unit × Machine) :
    List Message :=
  if before.attempts r then
    (before.constructionMessage? r.effect).toList ++
      (match result with
      | (.ok (), after) => if tracing then [tracedMessage r after.frame] else []
      | (.error _, _) => [])
  else
    []

end Machine
end SlotFlow

import SlotFlow.Command.Execution

/-!
# The program

Runs the command line on the real disk and environment.
-/

namespace SlotFlow
namespace Command

/-- The reason for a failure of the system: its words and its number. -/
def reasonOf : IO.Error → String
  | .alreadyExists _ code details
  | .otherError code details
  | .resourceBusy code details
  | .resourceVanished code details
  | .unsupportedOperation code details
  | .hardwareFault code details
  | .unsatisfiedConstraints code details
  | .illegalOperation code details
  | .protocolError code details
  | .timeExpired code details
  | .interrupted _ code details
  | .noFileOrDirectory _ code details
  | .invalidArgument _ code details
  | .permissionDenied _ code details
  | .resourceExhausted _ code details
  | .inappropriateType _ code details
  | .noSuchThing _ code details =>
      details ++ " (os error " ++ Text.Decimal.renderNat code.toNat ++ ")"
  | .unexpectedEof => "unexpected end of file"
  | .userError text => text

/-- The real disk and environment. -/
def realWorld : World IO where
  read path := do
    try
      let handle ← IO.FS.Handle.mk path .read
      return .ok (← handle.readBinToEnd)
    catch e =>
      return .error (reasonOf e)
  write path text := do
    try
      IO.FS.writeFile path text
      return .ok ()
    catch e =>
      return .error (reasonOf e)
  lookup name := IO.getEnv name

end Command
end SlotFlow

/-- Runs the command line. -/
def main
    (arguments : List String) :
    IO UInt32 := do
  let outcome ← SlotFlow.Command.execute SlotFlow.Command.realWorld arguments
  IO.print outcome.output
  IO.eprint outcome.errors
  return outcome.code.toUInt32

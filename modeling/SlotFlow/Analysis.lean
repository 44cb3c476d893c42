import SlotFlow.Log

/-!
# Analyses

The records of a method are executed in order. Before each record observers see the
frame; they may put records before it into the output, or keep it out of the output.
It is executed in any case, and what is put in is not.

Main definitions:

* `Emission`: what the observers have put into the output for one record;
* `Observer`: what an observer does with a record and the frame before it;
* `run`: the analysis of a method with any number of observers.

Main statement:

* `notify_nil`: without observers every record is kept and nothing is put in.
-/

namespace SlotFlow

/-- What the observers have decided about one record. -/
structure Emission where
  /-- Records that go before it, in order. -/
  emitted : List Record
  /-- Whether it is kept out of the output. -/
  suppressed : Bool
deriving DecidableEq

namespace Emission

/-- The record is kept and nothing goes before it. -/
def none : Emission :=
  ⟨[], false⟩

/-- Puts records before the observed one. -/
def emit
    (e : Emission)
    (records : List Record) :
    Emission :=
  { e with emitted := e.emitted ++ records }

/-- Keeps the observed record out of the output. -/
def suppress
    (e : Emission) :
    Emission :=
  { e with suppressed := true }

/-- The output for the observed record. -/
def output
    (e : Emission)
    (r : Record) :
    List Record :=
  e.emitted ++ if e.suppressed then [] else [r]

end Emission

/-- The state of an observer after a record, what it logged and what it decided. -/
structure Reaction (σ : Type) where
  state : σ
  messages : List Message
  outcome : Except Fault Emission

/--
An observer with states in `σ`. It is shown a record, the frame before the record and
what earlier observers have decided.
-/
class Observer (σ : Type) where
  observe : σ → Record → Frame → Emission → Reaction σ

/-- There is an observer without states, of which there are no instances to attach. -/
instance : Observer Empty where
  observe s _ _ _ := nomatch s

/-- The observers after one record, what they logged and what they decided. -/
structure Notified (σ : Type) where
  observers : List σ
  messages : List Message
  outcome : Except Fault Emission

/-- Shows a record to observers in order; the first that fails is the last to see it. -/
def notify
    {σ : Type}
    [Observer σ]
    (r : Record)
    (f : Frame) :
    List σ → Emission → Notified σ
  | [], e => ⟨[], [], .ok e⟩
  | s :: rest, e =>
      let reaction := Observer.observe s r f e
      match reaction.outcome with
      | .error fault => ⟨reaction.state :: rest, reaction.messages, .error fault⟩
      | .ok e =>
          let later := notify r f rest e
          ⟨reaction.state :: later.observers, reaction.messages ++ later.messages,
            later.outcome⟩

/-- The result of an analysis. -/
structure Analysis where
  /-- The output: what observers put in and every record they did not keep out. -/
  records : List Record
  maxStack : Nat
  maxLocals : Nat
deriving DecidableEq

/-- The observers after an analysis, the log, and the result. -/
structure Run (σ : Type) where
  observers : List σ
  messages : List Message
  result : Except Fault Analysis

namespace Run

/-- A run that ends with a fault. -/
def failed
    {σ : Type}
    (observers : List σ)
    (messages : List Message)
    (fault : Fault) :
    Run σ :=
  ⟨observers, messages, .error fault⟩

/-- A run with an earlier piece of output and log before it. -/
def after
    {σ : Type}
    (run : Run σ)
    (messages : List Message)
    (output : List Record) :
    Run σ :=
  { run with
    messages := messages ++ run.messages
    result := run.result.map fun a => { a with records := output ++ a.records } }

end Run

/-- How messages refer to a method. -/
def Method.title
    (m : Method) :
    String :=
  m.owner ++ "." ++ m.name ++ m.descriptor

/-- The message of a record that could not be executed. -/
def failureMessage
    (method : Method)
    (index : Nat)
    (r : Record)
    (fault : Fault) :
    Message :=
  ⟨.debug, method.title ++ ": record " ++ Text.Decimal.renderNat index ++ " (" ++ r.render ++
    ") failed: " ++ fault.message⟩

/-- The message of an analysis that went through. -/
def summaryMessage
    (method : Method)
    (count : Nat)
    (a : Analysis) :
    Message :=
  ⟨.debug, method.title ++ ": " ++ Text.Decimal.renderNat count ++ " records in, " ++
    Text.Decimal.renderNat a.records.length ++ " out, max_stack=" ++
    Text.Decimal.renderNat a.maxStack ++ ", max_locals=" ++
    Text.Decimal.renderNat a.maxLocals⟩

/-- Analyses records from a machine on; `index` is the place of the first one. -/
def runFrom
    {σ : Type}
    [Observer σ]
    (method : Method)
    (tracing : Bool)
    (index : Nat)
    (m : Machine)
    (observers : List σ) :
    List Record → Run σ
  | [] => ⟨observers, [], .ok ⟨[], m.frame.maxStack, m.frame.maxLocals⟩⟩
  | r :: rest =>
      let notified := notify r m.frame observers .none
      match notified.outcome with
      | .error fault => .failed notified.observers notified.messages fault
      | .ok e =>
          let result := m.execute r
          let messages := notified.messages ++ m.stepMessages tracing r result
          match result with
          | (.error fault, _) =>
              .failed notified.observers (messages ++ [failureMessage method index r fault]) fault
          | (.ok (), next) =>
              (runFrom method tracing (index + 1) next notified.observers rest).after messages
                (e.output r)

/-- Adds the closing message to a run that went through. -/
def Run.closed
    {σ : Type}
    (run : Run σ)
    (method : Method)
    (count : Nat) :
    Run σ :=
  match run.result with
  | .ok a => { run with messages := run.messages ++ [summaryMessage method count a] }
  | .error _ => run

/-- The analysis of a method with observers. -/
def run
    {σ : Type}
    [Observer σ]
    (method : Method)
    (settings : Settings)
    (observers : List σ)
    (records : List Record) :
    Run σ :=
  match Machine.start method settings with
  | .error fault => .failed observers [] fault
  | .ok m =>
      (runFrom method settings.tracing 0 m observers records).closed method records.length

/-- The analysis of a method without observers. -/
def analyze
    (method : Method)
    (settings : Settings)
    (records : List Record) :
    Run Empty :=
  run method settings [] records

/-- The analysis of a method given as a listing. -/
def analyzeListing
    (method : Method)
    (settings : Settings)
    (source : String) :
    Run Empty :=
  match Listing.parse source with
  | .error refusal => .failed [] [] (.listing refusal)
  | .ok records =>
      (analyze method settings records).after [parsedMessage records] []

/-- Without observers every record is kept and nothing is put in. -/
theorem notify_nil
    {σ : Type}
    [Observer σ]
    (r : Record)
    (f : Frame)
    (e : Emission) :
    notify r f ([] : List σ) e = ⟨[], [], .ok e⟩ :=
  rfl

end SlotFlow

import SlotFlow.Main
import SlotFlow.Proofs.Listing.WrittenTokens
import SlotFlow.Proofs.Listing.TokensRead
import SlotFlow.Proofs.Listing.RecordsRead
import SlotFlow.Proofs.Listing.RoundTrip
import SlotFlow.Proofs.Frame.Keeps
import SlotFlow.Proofs.Machine.Reached
import SlotFlow.Proofs.Frame.Account
import SlotFlow.Proofs.Frame.Operations
import SlotFlow.Proofs.Machine.EffectAccount
import SlotFlow.Proofs.Machine.Motion
import SlotFlow.Proofs.Frame.Sound
import SlotFlow.Proofs.Machine.Settled
import SlotFlow.Proofs.Frame.Agree
import SlotFlow.Proofs.Frame.Below
import SlotFlow.Proofs.Machine.Below
import SlotFlow.Proofs.Descriptor
import SlotFlow.Proofs.Descriptor.Grammar
import SlotFlow.Proofs.Frame.Paired
import SlotFlow.Proofs.Machine.Operands
import SlotFlow.Proofs.Machine.Paired
import SlotFlow.Proofs.Frame.Locals
import SlotFlow.Proofs.Machine.Judgement
import SlotFlow.Proofs.Machine.Consistent
import SlotFlow.Proofs.Machine.Succeeds
import SlotFlow.Proofs.Machine.Limit
import SlotFlow.Proofs.Machine.CallArgument
import SlotFlow.Proofs.CallSite
import SlotFlow.Proofs.Frame.Success
import SlotFlow.Proofs.Machine.Execution
import SlotFlow.Proofs.Machine.Reachability
import SlotFlow.Proofs.Machine.Performed
import SlotFlow.Proofs.Machine.Derived
import SlotFlow.Proofs.Machine.Provenance
import SlotFlow.Proofs.Machine.Creation
import SlotFlow.Proofs.Machine.Construction
import SlotFlow.Proofs.Machine.Sites
import SlotFlow.Proofs.Machine.Origin
import SlotFlow.Proofs.Machine.Descent
import SlotFlow.Proofs.Reposition
import SlotFlow.Proofs.Listing.Image
import SlotFlow.Proofs.Frame.Sequence
import SlotFlow.Proofs.Frame.Failure
import SlotFlow.Proofs.Observation
import SlotFlow.Proofs.Reposition.Attached
import SlotFlow.Proofs.Reposition.Step
import SlotFlow.Proofs.Reposition.Stages
import SlotFlow.Proofs.Reposition.DeadCode
import SlotFlow.Proofs.Frame.Overwrite
import SlotFlow.Proofs.Fold.Integer
import SlotFlow.Proofs.Frame.Entry
import SlotFlow.Proofs.Frame.Marks
import SlotFlow.Proofs.Machine.Marks
import SlotFlow.Proofs.Text.Lines
import SlotFlow.Proofs.Listing.LineByLine
import SlotFlow.Proofs.Listing.Steady
import SlotFlow.Proofs.Listing.Boundary
import SlotFlow.Proofs.Listing.Layout
import SlotFlow.Proofs.Fold.Kinds
import SlotFlow.Proofs.Machine.Arithmetic
import SlotFlow.Proofs.Descriptor.Element
import SlotFlow.Proofs.Machine.ArrayAccess
import SlotFlow.Proofs.Machine.Instruction
import SlotFlow.Proofs.Machine.Increment
import SlotFlow.Proofs.Text.Quoted
import SlotFlow.Proofs.Listing.QuotedTokens

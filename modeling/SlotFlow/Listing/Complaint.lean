import SlotFlow.Text.Quoted
import SlotFlow.Text.Decimal

/-!
# What can be wrong with a line

Main definitions:

* `Expected`: the kinds of token that a line can lack;
* `Complaint`: the causes for refusing a line;
* `Complaint.message`: their wording.
-/

namespace SlotFlow
namespace Listing

/-- What a line should have had at some place. -/
inductive Expected where
  | label
  | mnemonic
  | operand
  | localIndex
  | delta
  | typeName
  | memberReference
  | fieldDescriptor
  | methodDescriptor
  | callSiteName
  | lowKey
  | highKey
  | switchKey
  | colon
  | arrayDescriptor
  | dimensions
  | infinity
  | className
  | descriptor
  | frameKind
  | openBrace
  | verificationType
deriving DecidableEq

/-- The name of an expected part in messages. -/
def Expected.name : Expected → String
  | label => "label"
  | mnemonic => "mnemonic"
  | operand => "operand"
  | localIndex => "local index"
  | delta => "increment"
  | typeName => "type name"
  | memberReference => "member reference"
  | fieldDescriptor => "field descriptor"
  | methodDescriptor => "method descriptor"
  | callSiteName => "call site name"
  | lowKey => "low key"
  | highKey => "high key"
  | switchKey => "switch key"
  | colon => "':'"
  | arrayDescriptor => "array descriptor"
  | dimensions => "dimensions"
  | infinity => "Infinity"
  | className => "class name"
  | descriptor => "descriptor"
  | frameKind => "frame kind"
  | openBrace => "'\x7b'"
  | verificationType => "verification type"

/-- The causes for refusing a line. -/
inductive Complaint where
  /-- No token starts like this. -/
  | unexpectedInput (text : String)
  | unexpectedEnd
  | expected (what : Expected) (found : String)
  | outOfRange (what : Expected) (text : String)
  | trailingInput (text : String)
  | invalidLabel (text : String)
  | unknownMnemonic (text : String)
  | invalidArrayType (text : String)
  | notAMember (text : String)
  | tableSize (low high : Int32) (found : Nat)
  | intOutOfRange (text : String)
  | longOutOfRange (text : String)
  | invalidFloat (text : String)
  | invalidDouble (text : String)
  | invalidConstant (text : String)
  | invalidEscape (error : Text.Quoted.EscapeError)
  | unknownFrameKind (text : String)
  | unclosedTypes (found : String)
deriving DecidableEq

/-- A text in single quotes. -/
def inQuotes
    (text : String) :
    String :=
  "'" ++ text ++ "'"

/-- The wording of a complaint. -/
def Complaint.message : Complaint → String
  | unexpectedInput text => "unexpected input " ++ inQuotes text
  | unexpectedEnd => "unexpected end of line"
  | expected what found => "expected " ++ what.name ++ ", found " ++ inQuotes found
  | outOfRange what text => what.name ++ " out of range: " ++ text
  | trailingInput text => "trailing input " ++ inQuotes text
  | invalidLabel text => "invalid label " ++ inQuotes text
  | unknownMnemonic text => "unknown mnemonic " ++ inQuotes text
  | invalidArrayType text => "invalid array type " ++ inQuotes text
  | notAMember text => "expected owner.name, found " ++ inQuotes text
  | tableSize low high found =>
      "tableswitch " ++ Text.Decimal.renderInt low.toInt ++ ".." ++
        Text.Decimal.renderInt high.toInt ++ " needs " ++
        Text.Decimal.renderInt (high.toInt - low.toInt + 1) ++ " targets, found " ++
        Text.Decimal.renderNat found
  | intOutOfRange text => "int constant out of range: " ++ text
  | longOutOfRange text => "long constant out of range: " ++ text
  | invalidFloat text => "invalid float " ++ inQuotes text
  | invalidDouble text => "invalid double " ++ inQuotes text
  | invalidConstant text => "invalid constant " ++ inQuotes text
  | invalidEscape error => error.message
  | unknownFrameKind text => "unknown frame kind " ++ inQuotes text
  | unclosedTypes found => "expected ',' or '\x7d', found " ++ inQuotes found

end Listing
end SlotFlow

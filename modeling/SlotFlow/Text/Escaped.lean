import SlotFlow.Text.Hex
import SlotFlow.Text.Unprintable
import SlotFlow.Text.GraphemeExtend

/-!
# Strings shown in a frame

A string literal of a frame is shown on one line: quotes, backslashes and line
breaks are escaped by a letter, and every character that would not be seen by its
own shape is given by its code point.
-/

namespace SlotFlow
namespace Text
namespace Escaped

/--
Whether a character would not be seen by its own shape: it has none, or it leaves its
place blank, or it melts into the character before it.
-/
def isHidden
    (c : Char) :
    Bool :=
  isUnprintable c || isFiller c || (isGraphemeExtend c && !isHalfwidthMark c)

/-- How one character is shown. -/
def showChar
    (c : Char) :
    List Char :=
  if c = '\x00' then ['\\', '0']
  else if c = '\t' then ['\\', 't']
  else if c = '\r' then ['\\', 'r']
  else if c = '\n' then ['\\', 'n']
  else if c = '\\' then ['\\', '\\']
  else if c = '"' then ['\\', '"']
  else if isHidden c then
    ['\\', 'u', '\x7b'] ++ Hex.digits c.toNat ++ ['\x7d']
  else [c]

/-- A string as it is shown, in quotes. -/
def render
    (s : String) :
    String :=
  String.ofList ('"' :: s.toList.flatMap showChar ++ ['"'])

end Escaped
end Text
end SlotFlow

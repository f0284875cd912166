import FragmentHost.Text.Hex
import FragmentHost.Text.CharClass.Mark
import FragmentHost.Text.CharClass.Unseen

/-!
# Quoted text

How a text is shown to a person inside a description: between double quotes, with a backslash before
quotes and backslashes, short names for the common control characters, and the code point of whatever
could not be seen. Visible characters stay as they are, whatever their script.
-/

namespace FragmentHost.Quoted

/-- The character cannot be seen by itself: nothing visible belongs to it, or it is a mark that would
merge with what precedes it. -/
def isHidden (c : Char) : Bool :=
  if c.toNat < 0x7f then c.toNat < 0x20 else CharClass.isJoining c || CharClass.isUnseen c

/-- The shown form of one character. -/
def encodeChar (c : Char) : List Char :=
  if c = '"' then ['\\', '"']
  else if c = '\\' then ['\\', '\\']
  else if c = '\t' then ['\\', 't']
  else if c = '\n' then ['\\', 'n']
  else if c = '\r' then ['\\', 'r']
  else if c.toNat = 0 then ['\\', '0']
  else if isHidden c then ['\\', 'u', '\x7b'] ++ Hex.shortest c.toNat ++ ['\x7d']
  else [c]

/-- The text between quotes. -/
def ofString (s : String) : String :=
  String.ofList ('"' :: s.toList.flatMap encodeChar ++ ['"'])

end FragmentHost.Quoted

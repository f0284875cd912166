/-!
# Blanks

White space as the character standard defines it, and its removal from both ends of a text. The
zero-width no-break space is not a blank.
-/

namespace FragmentHost.Blank

/-- White space, line breaks and the wide spaces included. -/
def isBlank (c : Char) : Bool :=
  let n := c.toNat
  (0x9 ≤ n && n ≤ 0xd) || n == 0x20 || n == 0x85 || n == 0xa0 || n == 0x1680 ||
  (0x2000 ≤ n && n ≤ 0x200a) || n == 0x2028 || n == 0x2029 || n == 0x202f || n == 0x205f ||
  n == 0x3000

/-- A list without the blanks at its front. -/
def trimFront (cs : List Char) : List Char := cs.dropWhile isBlank

/-- A list without the blanks at its ends. -/
def trimChars (cs : List Char) : List Char := (trimFront (trimFront cs).reverse).reverse

/-- A text without the blanks at its ends. -/
def trim (s : String) : String := String.ofList (trimChars s.toList)

/-- A text in which nothing but blanks occurs. -/
def isBlankText (s : String) : Bool := (trimChars s.toList).isEmpty

end FragmentHost.Blank

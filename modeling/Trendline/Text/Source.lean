/-!
Texts as they are read from bytes, in which some bytes may belong to no character.
-/
namespace Trendline.Text

/-- The characters of a text in order, with `none` in the place of each byte that is not part of a
well-formed character. -/
abbrev Source := List (Option Char)

namespace Source

def ofString (s : String) : Source :=
  s.toList.map some

/-- Reads characters in UTF-8 from position `i` on; `before` holds what was read, last first. -/
def readFrom (bytes : ByteArray) (i : Nat) (before : Source) : Source :=
  if i < bytes.size then
    match bytes.utf8DecodeChar? i with
    | some c => readFrom bytes (i + c.utf8Size) (some c :: before)
    | none => readFrom bytes (i + 1) (none :: before)
  else
    before.reverse
termination_by bytes.size - i
decreasing_by
  · have := c.utf8Size_pos
    omega
  · omega

def ofBytes (bytes : ByteArray) : Source :=
  readFrom bytes 0 []

end Source

end Trendline.Text

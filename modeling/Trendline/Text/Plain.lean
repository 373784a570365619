/-!
Texts without what controls a terminal: sequences that begin with an escape, and control characters
that do not lay out the text.
-/
namespace Trendline.Text

/-- Where a reader of a text for a terminal is: between sequences, or in one of a kind. -/
inductive Stretch where
  | plain
  /-- After an escape. -/
  | escape
  /-- After an escape and characters that call for one more. -/
  | pending
  /-- Parameters of a command, up to a letter. -/
  | parameters
  /-- Parameters in front of a string, up to a letter. -/
  | device
  /-- A string that ends at a terminator. -/
  | string
  /-- A string that a bell ends. -/
  | title
  deriving Repr, DecidableEq

/-- Whether a character lays out the text. -/
def isLayout (c : Char) : Bool :=
  c = '\t' || c = '\n' || c = '\x0c' || c = '\r'

/-- Whether a character stays if no sequence is open. -/
def staysPlain (c : Char) : Bool :=
  isLayout c || ' ' ≤ c && c ≠ '\x7f'

/-- Whether the byte of the terminator is among those of a character. -/
def hasTerminator (c : Char) : Bool :=
  (String.utf8EncodeChar c).contains 0x9c

namespace Stretch

/-- Whether a sequence lets characters pass that lay out the text. -/
def passesLayout : Stretch → Bool
  | .escape | .pending | .parameters => true
  | .plain | .device | .string | .title => false

/-- Where the character after an escape leads. -/
def afterEscape (c : Char) : Stretch :=
  match c with
  | '[' => .parameters
  | ']' => .title
  | 'P' => .device
  | 'X' | '^' | '_' => .string
  | c =>
      if ' ' ≤ c && c ≤ '/' then .pending
      else if '0' ≤ c && c ≤ '~' then .plain
      else .escape

/-- Where a character that does not stay leads. -/
def next (s : Stretch) (c : Char) : Stretch :=
  if c = '\x1b' then .escape
  else if c = '\x18' || c = '\x1a' then .plain
  else
    match s with
    | .plain => .plain
    | .escape => afterEscape c
    | .pending => if '0' ≤ c && c ≤ '~' then .plain else .pending
    | .parameters => if '@' ≤ c && c ≤ '~' then .plain else .parameters
    | .device => if '@' ≤ c && c ≤ '~' then .string else .device
    | .string => if hasTerminator c then .plain else .string
    | .title => if c = '\x07' then .plain else .title

end Stretch

/-- What stays of some characters. One that lays out the text stays within a sequence too, and
interrupts it: then everything stays up to the next character that would not stay between sequences,
with which the sequence goes on. -/
def plainChars (s : Stretch) (interrupted : Bool) : List Char → List Char
  | [] => []
  | c :: rest =>
      if s = .plain || interrupted then
        if !staysPlain c then plainChars (s.next c) false rest
        else if '\x7f' < c then c :: plainChars .plain false rest
        else c :: plainChars s interrupted rest
      else if s.passesLayout && isLayout c then
        c :: plainChars s true rest
      else
        plainChars (s.next c) false rest

/-- A text without what controls a terminal. -/
def plain (s : String) : String :=
  String.ofList (plainChars .plain false s.toList)

end Trendline.Text

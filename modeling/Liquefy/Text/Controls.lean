/-!
# Text without terminal controls

A control sequence begins with an escape character. Some end with their first letter; the strings
for a device, an application or the operating system go on to a terminator. All of that is left
out, and so is every other control character but the blanks.

A blank inside an escape or control sequence is kept. The text after it is then kept too, up to
the next control character, from which the sequence goes on.
-/

namespace Liquefy.Text

/-- Where a text stands between or inside control sequences. -/
inductive Control where
  /-- Outside of all sequences. -/
  | ground
  /-- After an escape character. -/
  | escape
  /-- In an escape sequence that waits for its last character. -/
  | escapeTail
  /-- In a control sequence, which ends with a letter. -/
  | sequence
  /-- At the start of a device string. -/
  | deviceStart
  /-- In the parameters of a device string. -/
  | deviceParameters
  /-- Between the parameters of a device string and its body. -/
  | deviceTail
  /-- In a string that only a terminator or another sequence ends. -/
  | body
  /-- In a command to the operating system, which a bell ends too. -/
  | command
  deriving DecidableEq, Repr

/-- Whether a character's code point is in a range. -/
def inRange (first last : Nat) (c : Char) : Bool := first ≤ c.toNat && c.toNat ≤ last

/-- The blanks among the control characters that are kept. -/
def isKeptBlank (c : Char) : Bool := c = '\t' || c = '\n' || c = '\x0c' || c = '\r'

/-- One of the bytes of a character is the one-byte string terminator. -/
def hasTerminator (c : Char) : Bool := (String.singleton c).toUTF8.data.contains 0x9c

namespace Control

/-- After an escape character: most characters end the sequence, and some open a longer one. -/
def afterEscape (c : Char) : Control :=
  if c = '[' then .sequence
  else if c = ']' then .command
  else if c = 'P' then .deviceStart
  else if c = 'X' || c = '^' || c = '_' then .body
  else if inRange 0x20 0x2f c then .escapeTail
  else if inRange 0x30 0x7e c then .ground
  else .escape

/-- Where a character inside a sequence leads. -/
def within (control : Control) (c : Char) : Control :=
  match control with
  | .ground => .ground
  | .escape => afterEscape c
  | .escapeTail => if inRange 0x30 0x7e c then .ground else .escapeTail
  | .sequence => if inRange 0x40 0x7e c then .ground else .sequence
  | .deviceStart =>
      if inRange 0x20 0x2f c then .deviceTail
      else if inRange 0x30 0x3f c then .deviceParameters
      else if inRange 0x40 0x7e c then .body
      else .deviceStart
  | .deviceParameters =>
      if inRange 0x20 0x2f c then .deviceTail
      else if inRange 0x3c 0x7e c then .body
      else .deviceParameters
  | .deviceTail => if inRange 0x30 0x7e c then .body else .deviceTail
  | .body => if hasTerminator c then .ground else .body
  | .command => if c = '\x07' then .ground else .command

/-- Where a character leads. An escape character begins a sequence anywhere, and the characters
for cancelling and substituting end one anywhere. -/
def next (control : Control) (c : Char) : Control :=
  if c = '\x1b' then .escape
  else if c = '\x18' || c = '\x1a' then .ground
  else control.within c

/-- Whether a character is kept. -/
def keeps (control : Control) (c : Char) : Bool :=
  match control with
  | .ground => isKeptBlank c || (c.toNat ≥ 0x20 && c.toNat ≠ 0x7f)
  | .escape => isKeptBlank c
  | .escapeTail => isKeptBlank c
  | .sequence => isKeptBlank c
  | _ => false

end Control

/-- The characters that are kept. While text is being kept it counts as outside of sequences,
and `control` is the sequence to go on with; a character beyond ASCII forgets that sequence. -/
def keptChars (keeping : Bool) (control : Control) : List Char → List Char
  | [] => []
  | c :: cs =>
      if (if keeping then Control.ground else control).keeps c then
        c :: keptChars true (if c.toNat < 0x80 then control else .ground) cs
      else keptChars false (control.next c) cs

/-- The text without what only controls a terminal. -/
def withoutControls (text : String) : String :=
  String.ofList (keptChars true .ground text.toList)

end Liquefy.Text

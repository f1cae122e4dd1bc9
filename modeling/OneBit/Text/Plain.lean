/-
# Plain text

A text may hold CONTROL SEQUENCES, which a terminal obeys instead of showing them.  The plain
part of a text, which is safe to print anywhere, is the text without them and without control
characters; of the latter, tabs, line feeds, form feeds and carriage returns are kept.

A control sequence starts with the escape character.  What follows says how it goes on:

* `[` and then anything up to a character from `@` to `~`;
* `]` and then anything up to a bell;
* `P`, `X`, `^` or `_` and then a string, which ends at a character with the byte 9C in its
  encoding; after `P` there may first be a heading, in which no such character counts;
* any other character, perhaps after characters from the space to `/`.

Two characters abort any sequence (cancel and substitute), and an escape character starts it
anew.  Kept white space in a sequence of the first or the last kind is shown, and PAUSES the
sequence: the text after it is shown as well.  The sequence goes on at the next control
character, and is forgotten at the next character outside ASCII.
-/
namespace OneBit.Text

/-- What is open of a control sequence. -/
inductive Sequence
  /-- The escape character. -/
  | escape
  /-- The escape character and characters from the space to `/`. -/
  | escapeTail
  /-- Up to a character from `@` to `~`. -/
  | control
  /-- Up to a bell. -/
  | system
  /-- The heading of a string. -/
  | heading
  /-- A heading with parameters. -/
  | parameters
  /-- A heading with characters from the space to `/`. -/
  | headingTail
  /-- A string. -/
  | string
deriving DecidableEq, Repr

/-- `c` lies between two characters, both included. -/
def between (low high c : Char) : Bool := low ≤ c && c ≤ high

/-- The sequence after one more character, if it is not complete. -/
def Sequence.next (c : Char) : Sequence → Option Sequence
  | escape =>
    if between ' ' '/' c then some escapeTail
    else if c == '[' then some control
    else if c == ']' then some system
    else if c == 'P' then some heading
    else if c == 'X' || c == '^' || c == '_' then some string
    else if between '0' '~' c then none
    else some escape
  | escapeTail => if between '0' '~' c then none else some escapeTail
  | control => if between '@' '~' c then none else some control
  | system => if c == '\x07' then none else some system
  | heading =>
    if between ' ' '/' c then some headingTail
    else if between '0' '?' c then some parameters
    else if between '@' '~' c then some string
    else some heading
  | parameters =>
    if between ' ' '/' c then some headingTail
    else if between '<' '~' c then some string
    else some parameters
  | headingTail => if between '0' '~' c then some string else some headingTail
  | string => if (String.utf8EncodeChar c).contains 0x9C then none else some string

/-- Does white space show in the sequence? -/
def Sequence.pauses : Sequence → Bool
  | escape => true
  | escapeTail => true
  | control => true
  | _ => false

/-- Where in a text a reader is. -/
inductive Position
  | outside
  | inside (sequence : Sequence)
  /-- Behind white space in a sequence. -/
  | paused (sequence : Sequence)
deriving DecidableEq, Repr

/-- A control character of ASCII. -/
def isControl (c : Char) : Bool := c.toNat < 0x20 || c == '\x7f'

/-- A control character that is kept. -/
def isKept (c : Char) : Bool := c == '\t' || c == '\n' || c == '\x0c' || c == '\r'

/-- Is the character shown, and where is the reader after it? -/
def Position.step (c : Char) : Position → Bool × Position
  | position =>
    if c == '\x1b' then (false, inside .escape)
    else if c == '\x18' || c == '\x1a' then (false, outside)
    else
      match position with
      | outside => (!isControl c || isKept c, outside)
      | inside s =>
        if isKept c && s.pauses then (true, paused s)
        else
          match s.next c with
          | some more => (false, inside more)
          | none => (false, outside)
      | paused s =>
        if 0x80 ≤ c.toNat then (true, outside)
        else if isControl c && !isKept c then (false, inside s)
        else (true, paused s)

/-- What is shown of a text that starts at a position. -/
def plainFrom : Position → List Char → List Char
  | _, [] => []
  | position, c :: rest =>
    match position.step c with
    | (true, next) => c :: plainFrom next rest
    | (false, next) => plainFrom next rest

/-- The plain part of a text. -/
def plain (s : String) : String := String.ofList (plainFrom .outside s.toList)

end OneBit.Text

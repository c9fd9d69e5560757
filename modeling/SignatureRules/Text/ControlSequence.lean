/-!
Control sequences, which a terminal obeys instead of showing, and texts without them. A sequence
starts with an escape character; what follows tells how far it goes.
-/

namespace SignatureRules

inductive SequencePart
  | outside
  | escape
  | intermediates
  | parameters
  | deviceStart
  | deviceParameters
  | deviceIntermediates
  | string
  | command
deriving DecidableEq, Repr

def isLayout (c : Char) : Bool := c == '\t' || c == '\n' || c == '\x0c' || c == '\r'

namespace SequencePart

def afterEscape (c : Char) : SequencePart :=
  match c with
  | '[' => parameters
  | ']' => command
  | 'P' => deviceStart
  | 'X' | '^' | '_' => string
  | _ => if c < '0' then intermediates else outside

def afterVisible (c : Char) : SequencePart → SequencePart
  | outside => outside
  | escape => afterEscape c
  | intermediates => if c < '0' then intermediates else outside
  | parameters => if c < '@' then parameters else outside
  | deviceStart =>
    if c < '0' then deviceIntermediates else if c < '@' then deviceParameters else string
  | deviceParameters =>
    if c < '0' then deviceIntermediates else if c < '<' then deviceParameters else string
  | deviceIntermediates => if c < '0' then deviceIntermediates else string
  | string => string
  | command => command

/-- The part that a character leads to. An escape starts a sequence anew and a cancel or a
substitute breaks it off; a bell ends a command, and a byte 9C a string. -/
def next (c : Char) (part : SequencePart) : SequencePart :=
  if c = '\x1b' then escape
  else if c = '\x18' ∨ c = '\x1a' then outside
  else if c < ' ' then if part = command ∧ c = '\x07' then outside else part
  else if c < '\x7f' then part.afterVisible c
  else if part = string ∧ 0x9c ∈ String.utf8EncodeChar c then outside
  else part

def shows (c : Char) : SequencePart → Bool
  | outside => (' ' ≤ c && c != '\x7f') || isLayout c
  | escape | intermediates | parameters => isLayout c
  | _ => false

end SequencePart

/-- A text from some part of a sequence on, without sequences and controls. Layout in the head of a
sequence interrupts it: what comes then is text up to the next control, which the sequence gets
unless a character outside ASCII has ended it. -/
def dropSequences (part : SequencePart) (interrupted : Bool) : List Char → List Char
  | [] => []
  | c :: cs =>
    if interrupted && SequencePart.outside.shows c then
      c :: dropSequences (if c < '\x80' then part else .outside) true cs
    else if part.shows c then c :: dropSequences (part.next c) true cs
    else dropSequences (part.next c) false cs

def plainText (text : String) : String :=
  String.ofList (dropSequences .outside false text.toList)

end SignatureRules

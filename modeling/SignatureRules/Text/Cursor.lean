import SignatureRules.Text.Span

namespace SignatureRules

structure Position where
  offset : Nat
  rest : List Char
deriving DecidableEq, Repr

namespace Position

def advance (n : Nat) (p : Position) : Position where
  offset := p.offset + byteSize (p.rest.take n)
  rest := p.rest.drop n

end Position

/-- The current position, and the one before the last character read if that can be taken back. -/
structure Cursor where
  pos : Position
  undo : Option Position
deriving DecidableEq, Repr

namespace Cursor

def atStart (text : List Char) : Cursor where
  pos := ⟨0, text⟩
  undo := none

def rest (c : Cursor) : List Char := c.pos.rest

/-- The next character and the cursor after it. At the end there is none, and nothing changes: the
character read last can still be taken back. -/
def read? (c : Cursor) : Option (Char × Cursor) :=
  match c.rest with
  | [] => none
  | x :: _ => some (x, ⟨c.pos.advance 1, some c.pos⟩)

def unread (c : Cursor) : Cursor :=
  match c.undo with
  | none => c
  | some p => ⟨p, none⟩

def advanceTo (rest : List Char) (c : Cursor) : Cursor where
  pos := c.pos.advance (c.rest.length - rest.length)
  undo := none

def spanFrom (mark : Position) (c : Cursor) : Span := ⟨mark.offset, c.pos.offset⟩

def sliceFrom (mark : Position) (c : Cursor) : List Char :=
  mark.rest.take (mark.rest.length - c.rest.length)

theorem read?_eq_none_iff {c : Cursor} : c.read? = none ↔ c.rest = [] := by
  rw [read?]
  cases c.rest <;> simp

theorem rest_eq_of_read? {c d : Cursor} {x : Char} (h : c.read? = some (x, d)) :
    c.rest = x :: d.rest := by
  rw [read?] at h
  split at h
  · cases h
  · rename_i y ys hc
    cases h
    have hp : c.pos.rest = x :: ys := hc
    simp [rest, Position.advance, hp]

theorem unread_of_read? {c d : Cursor} {x : Char} (h : c.read? = some (x, d)) :
    d.unread.pos = c.pos := by
  rw [read?] at h
  split at h
  · cases h
  · cases h
    rfl

theorem rest_advanceTo {c : Cursor} {rest : List Char} (h : rest <:+ c.rest) :
    (c.advanceTo rest).rest = rest :=
  (List.suffix_iff_eq_drop.mp h).symm

end Cursor

end SignatureRules

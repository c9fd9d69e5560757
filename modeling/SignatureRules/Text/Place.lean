namespace SignatureRules

/-- Both are counted from one, and a column is a character. -/
structure Place where
  line : Nat
  column : Nat
deriving DecidableEq, Repr

namespace Place

def after (here : Place) : List Char → Nat → Place
  | [], _ => here
  | _, 0 => here
  | c :: cs, bytes =>
    let next := if c = '\n' then ⟨here.line + 1, 1⟩ else ⟨here.line, here.column + 1⟩
    after next cs (bytes - c.utf8Size)

def ofOffset (text : String) (offset : Nat) : Place := after ⟨1, 1⟩ text.toList offset

end Place

end SignatureRules

import SignatureRules.Lexer

/-! Reading tokens with room to put one back. What a parser asks of its reader is a class of monads,
and what a reader asks of its lexer a parameter, so that both can also be run with a record of their
calls. -/

namespace SignatureRules

class TokenAccess (m : Type → Type) where
  next : m Token
  putBack : Token → m Unit

structure TokenReader where
  lexer : Lexer
  buffer : Option Token
deriving DecidableEq, Repr

namespace TokenReader

def ofSource (source : String) : TokenReader where
  lexer := .ofSource source
  buffer := none

def nextBy {m : Type → Type} [Monad m] (fetch : Lexer → m (Token × Lexer))
    (reader : TokenReader) : m (Token × TokenReader) :=
  match reader.buffer with
  | some token => return (token, { reader with buffer := none })
  | none => do
    let (token, lexer) ← fetch reader.lexer
    return (token, { reader with lexer })

def next (reader : TokenReader) : Token × TokenReader :=
  Id.run (reader.nextBy fun lexer => pure lexer.nextToken)

def putBack (token : Token) (reader : TokenReader) : TokenReader :=
  { reader with buffer := some token }

instance : TokenAccess (StateM TokenReader) where
  next := next
  putBack token reader := ((), reader.putBack token)

theorem next_eq (reader : TokenReader) :
    reader.next = match reader.buffer with
      | some token => (token, { reader with buffer := none })
      | none => (reader.lexer.nextToken.1, { reader with lexer := reader.lexer.nextToken.2 }) := by
  obtain ⟨lexer, _ | token⟩ := reader <;> rfl

def size (reader : TokenReader) : Nat :=
  reader.lexer.size + match reader.buffer with
    | some token => if token.kind = .endOfInput then 0 else 1
    | none => 0

theorem size_next_lt {reader : TokenReader} (h : reader.next.1.kind ≠ .endOfInput) :
    reader.next.2.size < reader.size := by
  rw [next_eq] at h ⊢
  split at h
  · rename_i token hb
    simp only at h
    simp [size, hb, h]
  · rename_i hb
    simp only [size, hb]
    exact Lexer.size_nextToken_lt h

theorem size_putBack_next_le (reader : TokenReader) :
    (reader.next.2.putBack reader.next.1).size ≤ reader.size := by
  rw [next_eq]
  split
  · rename_i token hb
    simp [putBack, size, hb]
  · rename_i hb
    by_cases he : reader.lexer.nextToken.1.kind = .endOfInput
    · simpa [putBack, size, hb, he] using Lexer.size_nextToken_le reader.lexer
    · simpa [putBack, size, hb, he] using Nat.succ_le_of_lt (Lexer.size_nextToken_lt he)

end TokenReader

end SignatureRules

import SignatureRules.Lexeme
import SignatureRules.Text.Cursor
import SignatureRules.Token

namespace SignatureRules

/-- A place in a source, and whether the stream of its tokens has been closed by the token at the
end of the input. -/
structure Lexer where
  cursor : Cursor
  closed : Bool
deriving DecidableEq, Repr

namespace Lexer

def ofSource (source : String) : Lexer where
  cursor := .atStart source.toList
  closed := false

def emit (kind : TokenKind) (literal : List Char) (start : Position) (cursor : Cursor) :
    Token × Cursor :=
  (⟨kind, String.ofList literal, cursor.spanFrom start⟩, cursor)

def emitSlice (kind : TokenKind) (start : Position) (cursor : Cursor) : Token × Cursor :=
  emit kind (cursor.sliceFrom start) start cursor

def accept (scan : List Char → Except Missing Scanned) (cursor : Cursor) :
    Option (List Char) × Cursor :=
  match scan cursor.rest with
  | .ok found => (some found.text, cursor.advanceTo found.rest)
  | .error _ => (none, cursor)

def scanRun (kind : TokenKind) (scan : List Char → Except Missing Scanned) (start : Position)
    (cursor : Cursor) : Token × Cursor :=
  let (found, cursor) := accept scan cursor
  emit kind (found.getD []) start cursor

def scanWord (start : Position) (cursor : Cursor) : Token × Cursor :=
  match accept Lexeme.word cursor with
  | (some word, cursor) =>
    let lowered := word.map Char.toLower
    match TokenKind.ofKeyword? lowered with
    | some kind => emit kind lowered start cursor
    | none => emit .identifier word start cursor
  | (none, cursor) =>
    match cursor.read? with
    | some (_, cursor) => emitSlice .illegal start cursor
    | none => emitSlice .illegal start cursor

def scanComment (start : Position) (cursor : Cursor) : Token × Cursor :=
  match cursor.read? with
  | some ('/', cursor) => scanRun .comment (fun cs => .ok (Lexeme.lineBody cs)) start cursor
  | some ('*', cursor) => scanRun .comment (fun cs => .ok (Lexeme.blockBody cs)) start cursor
  | some (_, cursor) => emitSlice .illegal start cursor.unread
  | none => emitSlice .illegal start cursor

def scanFrom (first : Char) (start : Position) (cursor : Cursor) : Token × Cursor :=
  if isBlank first then scanRun .whitespace Lexeme.blanks start cursor.unread
  else if first.isAlpha then scanWord start cursor.unread
  else match first with
    | '"' => scanRun .quotedString (fun cs => .ok (Lexeme.quotedBody none cs)) start cursor
    | '/' => scanComment start cursor
    | '$' => scanRun .variableName Lexeme.variableName start cursor.unread
    | _ =>
      match TokenKind.ofPunctuation? first with
      | some kind => emitSlice kind start cursor
      | none => emitSlice .illegal start cursor

def nextToken (lexer : Lexer) : Token × Lexer :=
  let start := lexer.cursor.pos
  let (token, cursor) := match lexer.cursor.read? with
    | none => emit .endOfInput [] start lexer.cursor
    | some (first, cursor) => scanFrom first start cursor
  (token, { lexer with cursor })

def next? (lexer : Lexer) : Option (Token × Lexer) :=
  if lexer.closed then none
  else
    let (token, lexer) := lexer.nextToken
    some (token, { lexer with closed := token.kind = .endOfInput })

def size (lexer : Lexer) : Nat := lexer.cursor.rest.length

theorem rest_accept_le {scan : List Char → Except Missing Scanned} {cursor : Cursor}
    (h : ∀ found, scan cursor.rest = .ok found → found.rest <:+ cursor.rest) :
    (accept scan cursor).2.rest.length ≤ cursor.rest.length := by
  rw [accept]
  split
  · rename_i found hf
    have hs := h found hf
    simpa [Cursor.rest_advanceTo hs] using hs.length_le
  · exact Nat.le_refl _

theorem rest_accept_cons_le {scan : List Char → Except Missing Scanned} {cursor : Cursor}
    {c : Char} {cs : List Char} {found : Scanned} (hc : cursor.rest = c :: cs)
    (h : scan (c :: cs) = .ok found) (hs : found.rest <:+ cs) :
    (accept scan cursor).2.rest.length ≤ cs.length := by
  have hr : found.rest <:+ cursor.rest := hc ▸ hs.trans (List.suffix_cons c cs)
  simpa [accept, hc, h, Cursor.rest_advanceTo hr] using hs.length_le

theorem rest_scanWord_le {start : Position} {cursor : Cursor} {c : Char} {cs : List Char}
    (hc : cursor.rest = c :: cs) (ha : c.isAlpha = true) :
    (scanWord start cursor).2.rest.length ≤ cs.length := by
  have h := rest_accept_cons_le hc (Lexeme.word_cons ha cs) (List.dropWhile_suffix _)
  have he : accept Lexeme.word cursor =
      (some (c :: cs.takeWhile isWordChar), cursor.advanceTo (cs.dropWhile isWordChar)) := by
    simp [accept, hc, Lexeme.word_cons ha]
  simp only [he] at h
  simp only [scanWord, he]
  split <;> exact h

theorem rest_scanComment_le (start : Position) (cursor : Cursor) :
    (scanComment start cursor).2.rest.length ≤ cursor.rest.length := by
  rw [scanComment]
  split
  · rename_i d hd
    have hle : (accept (fun cs => .ok (Lexeme.lineBody cs)) d).2.rest.length ≤ d.rest.length :=
      rest_accept_le (by intro found hf; cases hf; exact Lexeme.rest_suffix_lineBody _)
    simp only [scanRun, emit, Cursor.rest_eq_of_read? hd, List.length_cons]
    omega
  · rename_i d hd
    have hle : (accept (fun cs => .ok (Lexeme.blockBody cs)) d).2.rest.length ≤ d.rest.length :=
      rest_accept_le (by intro found hf; cases hf; exact Lexeme.rest_suffix_blockBody _)
    simp only [scanRun, emit, Cursor.rest_eq_of_read? hd, List.length_cons]
    omega
  · rename_i d _ _ hd
    have hu : d.unread.rest = cursor.rest := congrArg Position.rest (Cursor.unread_of_read? hd)
    simp [emitSlice, emit, hu]
  · exact Nat.le_refl _

theorem rest_scanFrom_le {first : Char} {cursor : Cursor} (start : Position)
    (h : cursor.unread.rest = first :: cursor.rest) :
    (scanFrom first start cursor).2.rest.length ≤ cursor.rest.length := by
  simp only [scanFrom]
  split
  · rename_i hb
    exact rest_accept_cons_le h (Lexeme.blanks_cons hb _) (List.dropWhile_suffix _)
  · split
    · rename_i ha
      exact rest_scanWord_le h ha
    · split
      · have hle : (accept (fun cs => .ok (Lexeme.quotedBody none cs)) cursor).2.rest.length ≤
            cursor.rest.length :=
          rest_accept_le (by intro found hf; cases hf; exact Lexeme.rest_suffix_quotedBody _ _)
        exact hle
      · exact rest_scanComment_le start cursor
      · exact rest_accept_cons_le h (Lexeme.variableName_cons _) (List.dropWhile_suffix _)
      · split <;> exact Nat.le_refl _

theorem nextToken_of_rest_nil {lexer : Lexer} (h : lexer.cursor.rest = []) :
    lexer.nextToken =
      (⟨.endOfInput, "", ⟨lexer.cursor.pos.offset, lexer.cursor.pos.offset⟩⟩, lexer) := by
  simp [nextToken, Cursor.read?_eq_none_iff.mpr h, emit, Cursor.spanFrom]

theorem size_nextToken_lt_of_rest_ne_nil {lexer : Lexer} (h : lexer.cursor.rest ≠ []) :
    lexer.nextToken.2.size < lexer.size := by
  cases hr : lexer.cursor.read? with
  | none => exact absurd (Cursor.read?_eq_none_iff.mp hr) h
  | some found =>
    obtain ⟨first, cursor⟩ := found
    have hc := Cursor.rest_eq_of_read? hr
    have hu : cursor.unread.rest = first :: cursor.rest :=
      (congrArg Position.rest (Cursor.unread_of_read? hr)).trans hc
    have hle := rest_scanFrom_le lexer.cursor.pos hu
    simp only [nextToken, hr, size, hc, List.length_cons]
    omega

theorem size_nextToken_lt {lexer : Lexer} (h : lexer.nextToken.1.kind ≠ .endOfInput) :
    lexer.nextToken.2.size < lexer.size := by
  refine size_nextToken_lt_of_rest_ne_nil fun hn => h ?_
  rw [nextToken_of_rest_nil hn]

theorem size_nextToken_le (lexer : Lexer) : lexer.nextToken.2.size ≤ lexer.size := by
  by_cases h : lexer.cursor.rest = []
  · simp [nextToken_of_rest_nil h]
  · exact Nat.le_of_lt (size_nextToken_lt_of_rest_ne_nil h)

def remaining (lexer : Lexer) : Nat := if lexer.closed then 0 else lexer.size + 1

theorem remaining_next?_lt {lexer after : Lexer} {token : Token}
    (h : lexer.next? = some (token, after)) : after.remaining < lexer.remaining := by
  rw [next?] at h
  split at h
  · cases h
  · rename_i hc
    simp only [Option.some.injEq, Prod.mk.injEq] at h
    obtain ⟨rfl, rfl⟩ := h
    by_cases he : lexer.nextToken.1.kind = .endOfInput
    · simp [remaining, he, hc]
    · have hlt := size_nextToken_lt he
      simp only [size] at hlt
      simp [remaining, size, he, hc, hlt]

def drain (lexer : Lexer) : List Token :=
  match _ : lexer.next? with
  | none => []
  | some (token, after) => token :: after.drain
termination_by lexer.remaining
decreasing_by exact remaining_next?_lt ‹_›

end Lexer

def tokenize (source : String) : List Token := (Lexer.ofSource source).drain

end SignatureRules

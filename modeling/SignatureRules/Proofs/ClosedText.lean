import SignatureRules.Proofs.Retokenization

/-! Text that is still open at its end, in a string or a comment, can be closed so that other text
may come after it. -/

namespace SignatureRules

variable {kind : TokenKind} {literal lexeme following text : List Char} {token : Token}
  {tokens front back : List Token}

/-- The text does not run into a token of the kind in front of it, if that token is closed. -/
def Fits (kind : TokenKind) (text : List Char) : Prop :=
  kind = .comment ∨ text.head? = some '\x7d' ∨ text.head? = some '/' ∧ kind ≠ .illegal

theorem Fits.stops {p : Char → Bool} (h : Fits kind text) (hk : kind ≠ .comment)
    (hb : p '\x7d' = false) (hs : p '/' = false) : Stops p text := by
  intro c hc
  rw [Option.mem_def] at hc
  rcases h with h | h | ⟨h, -⟩
  · exact absurd h hk
  · cases hc.symm.trans h
    exact hb
  · cases hc.symm.trans h
    exact hs

/-- Something can be added to the lexeme, if it is a string or a comment, so that it may stand in
front of any text that fits. -/
def Closable (kind : TokenKind) (literal lexeme : List Char) : Prop :=
  ∃ closing literal', (closing = [] ∧ literal' = literal ∨ kind = .quotedString ∨
    kind = .comment) ∧ ∀ text, Fits kind text → IsLexeme kind literal' (lexeme ++ closing) text

theorem closable_of_isLexeme (h : ∀ text, Fits kind text → IsLexeme kind literal lexeme text) :
    Closable kind literal lexeme := by
  refine ⟨[], literal, .inl ⟨rfl, rfl⟩, fun text ht => ?_⟩
  rw [List.append_nil]
  exact h text ht

theorem IsLexeme.closable (h : IsLexeme kind literal lexeme following) :
    Closable kind literal lexeme := by
  cases h with
  | whitespace hne hall _ =>
    exact closable_of_isLexeme fun text ht => .whitespace hne hall (ht.stops (by decide) rfl rfl)
  | keyword hword _ hkind =>
    have hcomment : kind ≠ .comment := by
      rintro rfl
      cases hkind
    exact closable_of_isLexeme fun text ht => .keyword hword (ht.stops hcomment rfl rfl) hkind
  | identifier hword _ hkind =>
    exact closable_of_isLexeme fun text ht => .identifier hword (ht.stops (by decide) rfl rfl) hkind
  | variableName hname _ =>
    exact closable_of_isLexeme fun text ht => .variableName hname (ht.stops (by decide) rfl rfl)
  | quotedString htext hlast => exact closable_of_isLexeme fun text _ => .quotedString htext hlast
  | openString htext =>
    -- a blank in front of the quote, in case the string ends in a backslash
    refine ⟨[' ', '"'], literal ++ [' '], .inr (.inl rfl), fun text _ => ?_⟩
    have hl : IsLexeme .quotedString (literal ++ [' ']) ('"' :: (literal ++ [' ']) ++ ['"']) text :=
      .quotedString (htext.concat (by decide)) (by simp)
    simpa using hl
  | lineComment htext hlast => exact closable_of_isLexeme fun text _ => .lineComment htext hlast
  | returnComment htext => exact closable_of_isLexeme fun text _ => .returnComment htext
  | openLineComment htext =>
    exact ⟨['\n'], Lexeme.dropReturn literal, .inr (.inr rfl), fun text _ => .of_line htext text⟩
  | blockComment htext => exact closable_of_isLexeme fun text _ => .blockComment htext
  | openBlockComment htext =>
    exact ⟨['*', '/'], literal, .inr (.inr rfl), fun text _ => .blockComment htext⟩
  | punctuation hmark => exact closable_of_isLexeme fun text _ => .punctuation hmark
  | illegal hblank halpha hquote hdollar hmark _ =>
    refine closable_of_isLexeme fun text ht => .illegal hblank halpha hquote hdollar hmark fun _ => ?_
    rcases ht with ht | ht | ⟨-, ht⟩
    · cases ht
    · intro d hd
      cases (Option.mem_def.mp hd).symm.trans ht
      rfl
    · exact absurd rfl ht

theorem Lexed.exists_closed {n : Nat} {rest : List Char} {previous : Token}
    (h : Lexed ⟨n, rest⟩ (front ++ previous :: token :: back)) :
    ∃ head tail closing other, rest = head ++ tail ∧ token.span.start = n + byteSize head ∧
      (other = previous ∨ (previous.kind = .quotedString ∨ previous.kind = .comment) ∧
        other.kind = previous.kind) ∧
      ∀ text tokens, Fits previous.kind text → Lexed ⟨n + byteSize (head ++ closing), text⟩ tokens →
        Lexed ⟨n, head ++ closing ++ text⟩ (front ++ other :: tokens) := by
  obtain ⟨text, _, hrest, -, hl, hsame⟩ := h.exists_text
  cases hl with
  | @cons _ kind literal lexeme following _ hlexeme hnext =>
    obtain ⟨closing, literal', hkind, hclosed⟩ := hlexeme.closable
    refine ⟨text ++ lexeme, following, closing, ⟨kind, .ofList literal', ⟨n + byteSize text,
      n + byteSize text + byteSize (lexeme ++ closing)⟩⟩, ?_, ?_, ?_, fun after tokens ha hl => ?_⟩
    · rw [List.append_assoc]
      exact hrest
    · rw [hnext.start_eq, byteSize_append, ← Nat.add_assoc]
    · rcases hkind with ⟨rfl, rfl⟩ | hkind
      · rw [List.append_nil]
        exact .inl rfl
      · exact .inr ⟨hkind, rfl⟩
    · obtain ⟨c, cs, hc⟩ := List.exists_cons_of_ne_nil hlexeme.ne_nil
      have hhead : (lexeme ++ closing ++ after).head? = (lexeme ++ following).head? := by
        rw [hc]
        rfl
      rw [List.append_assoc, byteSize_append, ← Nat.add_assoc] at hl
      have hall := hsame _ _ (.inr hhead) (.cons (hclosed after ha) hl)
      simpa only [List.append_assoc] using hall

end SignatureRules

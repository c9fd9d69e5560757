import SignatureRules.Proofs.LexerSessions
import SignatureRules.Proofs.MatchingBrace
import SignatureRules.Proofs.TokenTiling

/-! Text appended to a source can change its last token only. A token that ends by itself, and not
for want of text, stays as well. -/

namespace SignatureRules

/-- The token has its end in the source: it is a single character that nothing can be added to, or a
string or a comment that is closed. -/
inductive Token.Settled (source : String) (token : Token) : Prop
  | mark {c} : token.kind.mark? = some c → Settled source token
  | illegal : token.kind = .illegal → token.literal ≠ "/" → Settled source token
  | quotedString : token.kind = .quotedString →
      token.span.textIn source = "\"" ++ token.literal ++ "\"" → Settled source token
  | blockComment {body} : token.kind = .comment →
      token.span.textIn source = "/*" ++ body ++ "*/" → Settled source token
  | lineComment {body} : token.kind = .comment →
      token.span.textIn source = "//" ++ body ++ "\n" → Settled source token

namespace IsLexeme

variable {kind : TokenKind} {literal lexeme following : List Char}

theorem of_illegal (h : IsLexeme .illegal literal lexeme following) (hne : literal ≠ ['/'])
    (other : List Char) : IsLexeme .illegal literal lexeme other := by
  cases h with
  | keyword _ _ hkind => cases hkind
  | punctuation hmark => cases hmark
  | illegal hblank halpha hquote hdollar hmark _ =>
    refine .illegal hblank halpha hquote hdollar hmark fun hc => ?_
    rw [hc] at hne
    exact absurd rfl hne

theorem of_closed_string (h : IsLexeme .quotedString literal lexeme following)
    (hl : lexeme = '"' :: literal ++ ['"']) (other : List Char) :
    IsLexeme .quotedString literal lexeme other := by
  cases h with
  | keyword _ _ hkind => cases hkind
  | punctuation hmark => cases hmark
  | quotedString htext hlast => exact .quotedString htext hlast
  | openString => simp at hl

theorem of_closed_block {body : List Char} (h : IsLexeme .comment literal lexeme following)
    (hl : lexeme = ['/', '*'] ++ body ++ ['*', '/']) (other : List Char) :
    IsLexeme .comment literal lexeme other := by
  cases h with
  | keyword _ _ hkind => cases hkind
  | punctuation hmark => cases hmark
  | blockComment htext => exact .blockComment htext
  | openBlockComment htext =>
    obtain rfl : literal = body ++ ['*', '/'] := by simpa using hl
    exact absurd (List.suffix_append body _).isInfix htext
  | _ => simp at hl

theorem of_closed_line {body : List Char} (h : IsLexeme .comment literal lexeme following)
    (hl : lexeme = ['/', '/'] ++ body ++ ['\n']) (other : List Char) :
    IsLexeme .comment literal lexeme other := by
  cases h with
  | keyword _ _ hkind => cases hkind
  | punctuation hmark => cases hmark
  | lineComment htext hlast => exact .lineComment htext hlast
  | returnComment htext => exact .returnComment htext
  | openLineComment htext =>
    obtain rfl : literal = body ++ ['\n'] := by simpa using hl
    simp at htext
  | _ => simp at hl

end IsLexeme

theorem Token.Settled.isLexeme {source : String} {token : Token} {lexeme following : List Char}
    (hs : token.Settled source) (ht : token.span.textIn source = .ofList lexeme)
    (hl : IsLexeme token.kind token.literal.toList lexeme following) (other : List Char) :
    IsLexeme token.kind token.literal.toList lexeme other := by
  have htoList {text : String} (h : token.span.textIn source = text) : lexeme = text.toList := by
    rw [← h, ht, String.toList_ofList]
  cases hs with
  | mark hmark =>
    obtain ⟨hliteral, rfl⟩ := hl.eq_mark hmark
    rw [hliteral]
    exact .punctuation hmark
  | illegal hk hne =>
    rw [hk] at hl ⊢
    refine hl.of_illegal (fun hslash => hne ?_) other
    rw [← String.ofList_toList (s := token.literal), hslash]
  | quotedString hk htext =>
    rw [hk] at hl ⊢
    have hlexeme : lexeme = '"' :: token.literal.toList ++ ['"'] := by
      rw [htoList htext, String.toList_append, String.toList_append]
      rfl
    exact hl.of_closed_string hlexeme other
  | @blockComment body hk htext =>
    rw [hk] at hl ⊢
    have hlexeme : lexeme = ['/', '*'] ++ body.toList ++ ['*', '/'] := by
      rw [htoList htext, String.toList_append, String.toList_append]
      rfl
    exact hl.of_closed_block hlexeme other
  | @lineComment body hk htext =>
    rw [hk] at hl ⊢
    have hlexeme : lexeme = ['/', '/'] ++ body.toList ++ ['\n'] := by
      rw [htoList htext, String.toList_append, String.toList_append]
      rfl
    exact hl.of_closed_line hlexeme other

theorem tokenize_append {source : String} {front : List Token} {last eof : Token}
    (h : tokenize source = front ++ [last, eof]) (text : String) :
    ∃ next rest, tokenize (source ++ text) = front ++ next :: rest ∧
      next.span.start = last.span.start ∧ (last.Settled source → next = last) := by
  have hl := lexed_tokenize source
  rw [h] at hl
  obtain ⟨passed, rest, hrest, -, hlast, hsame⟩ := hl.exists_text
  cases hlast with
  | @cons _ kind literal lexeme following _ hlexeme _ =>
    have hsource : source.toList = passed ++ lexeme ++ following := by
      rw [List.append_assoc]
      exact hrest
    have hhead : (lexeme ++ (following ++ text.toList)).head? = (lexeme ++ following).head? := by
      obtain ⟨c, cs, rfl⟩ := List.exists_cons_of_ne_nil hlexeme.ne_nil
      rfl
    obtain ⟨others, hothers⟩ :=
      exists_lexed ⟨0 + byteSize passed, lexeme ++ (following ++ text.toList)⟩
    obtain ⟨next, rest, rfl⟩ := List.exists_cons_of_ne_nil hothers.ne_nil
    refine ⟨next, rest, ?_, hothers.start_eq, fun hs => ?_⟩
    · apply tokenize_eq_of_lexed
      rw [String.toList_append, hsource, List.append_assoc, List.append_assoc]
      exact hsame _ _ (.inr hhead) hothers
    · have htext : Span.textIn source
          ⟨0 + byteSize passed, 0 + byteSize passed + byteSize lexeme⟩ = .ofList lexeme := by
        rw [Nat.zero_add, ← byteSize_append]
        exact textIn_of_append hsource
      rw [← String.toList_ofList (l := literal)] at hlexeme
      have hsettled := hs.isLexeme htext hlexeme (following ++ text.toList)
      obtain ⟨after, hafter⟩ := exists_lexed
        ⟨0 + byteSize passed + byteSize lexeme, following ++ text.toList⟩
      have hboth := hothers.unique (.cons hsettled hafter)
      rw [String.ofList_toList] at hboth
      exact (List.cons.inj hboth).1

theorem tokenize_append_closed_comment :
    tokenize "x/*/*/" = [⟨.identifier, "x", ⟨0, 1⟩⟩] ++ [⟨.comment, "/", ⟨1, 6⟩⟩, .endAt 6] ∧
      (⟨.comment, "/", ⟨1, 6⟩⟩ : Token).Settled "x/*/*/" ∧
      ∃ rest, tokenize ("x/*/*/" ++ "*/") =
        [⟨.identifier, "x", ⟨0, 1⟩⟩] ++ ⟨.comment, "/", ⟨1, 6⟩⟩ :: rest := by
  have htokens : tokenize "x/*/*/" =
      [⟨.identifier, "x", ⟨0, 1⟩⟩] ++ [⟨.comment, "/", ⟨1, 6⟩⟩, .endAt 6] := by decide +kernel
  have htext : Span.textIn "x/*/*/" ⟨1, 6⟩ = "/*" ++ "/" ++ "*/" := by decide +kernel
  have hsettled : (⟨.comment, "/", ⟨1, 6⟩⟩ : Token).Settled "x/*/*/" := .blockComment rfl htext
  obtain ⟨next, rest, hall, -, hnext⟩ := tokenize_append htokens "*/"
  rw [hnext hsettled] at hall
  exact ⟨htokens, hsettled, rest, hall⟩

end SignatureRules

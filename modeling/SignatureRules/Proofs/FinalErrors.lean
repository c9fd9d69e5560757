import SignatureRules.Proofs.ErrorPlaces
import SignatureRules.Proofs.TokenBoundaries

/-! An error stays the same whatever text is appended to the source, if all the tokens that the
parser has read for it stop before the end of the source. -/

namespace SignatureRules

/-- The error wants the name of a pattern in place of an identifier. The token is the one after that
identifier, which is read to see whether the identifier begins a header. -/
def ParseError.ReadsPast (tokens : List Token) (token : Token) (error : ParseError) : Prop :=
  ∃ front name back rest, tokens = front ++ name :: back ∧ name.kind = .identifier ∧
    error = ⟨name.span, .expectedName name.literal .pattern⟩ ∧ skipTrivia back = token :: rest

variable {options : ParseOptions} {source : String} {token : Token} {error : ParseError}
  {past tokens front back : List Token}

theorem ParseError.ReadsPast.append (h : error.ReadsPast front token) (back : List Token) :
    error.ReadsPast (front ++ back) token := by
  obtain ⟨before, name, passed, rest, rfl, hk, herror, hskip⟩ := h
  exact ⟨before, name, passed ++ back, rest ++ back, by simp, hk, herror,
    skipTrivia_append hskip back⟩

theorem ParserState.Rejects.stop_eq_or_readsPast
    (h : ParserState.Rejects options past token error) :
    error.span.stop = token.span.stop ∨ error.ReadsPast (past ++ [token]) token := by
  obtain ⟨⟨goal, allowance, rule⟩, hknows, ha, hj⟩ := h
  cases goal with
  | headerColon name =>
    simp only [Goal.judge, Verdict.wantName] at hj
    split at hj <;> cases hj
    obtain ⟨front, passed, htokens, hskip⟩ := hknows.1.exists_skipped ha
    exact .inr ⟨front, name, passed, [], htokens, hknows.2, rfl, hskip⟩
  | tag colonStart =>
    simp only [Goal.judge] at hj
    split at hj
    · cases hj
    · split at hj <;> cases hj
      exact .inl rfl
  | _ =>
    simp only [Goal.judge, Verdict.wantSymbol, Verdict.wantName, Verdict.wantString] at hj
    split at hj <;> cases hj <;> exact .inl rfl

theorem prefix_tokenize_append (h : tokenize source = front ++ token :: back)
    (hk : token.kind ≠ .endOfInput) (text : String) : front <+: tokenize (source ++ text) := by
  have hl := lexed_tokenize source
  rw [h] at hl
  obtain ⟨passed, rest, hrest, -, hl, hsame⟩ := hl.exists_text
  have hhead : (rest ++ text.toList).head? = rest.head? := by
    cases hl with
    | done => exact absurd rfl hk
    | cons hlexeme _ =>
      obtain ⟨c, cs, hc⟩ := List.exists_cons_of_ne_nil hlexeme.ne_nil
      simp [hc]
  obtain ⟨after, hafter⟩ := exists_lexed ⟨0 + byteSize passed, rest ++ text.toList⟩
  refine ⟨after, (tokenize_eq_of_lexed ?_).symm⟩
  rw [String.toList_append, show source.toList = passed ++ rest from hrest, List.append_assoc]
  exact hsame _ _ (.inr hhead) hafter

theorem prefix_tokenize_of_stop_lt (h : tokenize source = front ++ token :: back)
    (hs : token.span.stop < source.utf8ByteSize) (text : String) :
    front ++ [token] <+: tokenize (source ++ text) := by
  have hnot {other : Token} {bound : Nat} (hm : other ∈ tokenize source)
      (hb : bound < source.utf8ByteSize)
      (he : other.span.start = bound ∨ other.span.stop = bound) : other.kind ≠ .endOfInput := by
    intro hk
    rw [eq_endAt_of_mem_tokenize hm hk, byteSize_toList] at he
    rcases he with rfl | rfl
    all_goals exact Nat.lt_irrefl _ hb
  have hl := lexed_tokenize source
  rw [h] at hl
  obtain ⟨next, rest, rfl, hstart⟩ := hl.exists_next (hnot (by simp [h]) hs (.inr rfl))
  refine prefix_tokenize_append (h.trans (List.append_cons ..)) ?_ text
  exact hnot (by simp [h]) hs (.inl hstart)

theorem parse_append_of_error (h : parse source options = .error error)
    (hs : error.span.stop < source.utf8ByteSize)
    (hn : ∀ token, error.ReadsPast (tokenize source) token →
      token.span.stop < source.utf8ByteSize) (text : String) :
    parse (source ++ text) options = .error error := by
  obtain ⟨found, hc⟩ := consume_tokenize source options
  rw [h] at hc
  obtain ⟨front, back, last, htokens, hfront, hr, hrejects⟩ := ParserState.rejects_of_consume hc
  have hstop : found.span.stop < source.utf8ByteSize := by
    rcases hrejects.stop_eq_or_readsPast with he | hp
    · rw [← he]
      exact hs
    · have hall := hp.append back
      rw [List.append_assoc, List.singleton_append, ← htokens] at hall
      exact hn found hall
  obtain ⟨more, hmore⟩ := prefix_tokenize_of_stop_lt htokens hstop text
  have hrun : ParserState.start.consume options (tokenize (source ++ text)) =
      .error ⟨.error error, found⟩ := by
    rw [← hmore, List.append_assoc, List.singleton_append,
      ParserState.consume_append_of_ok hfront, ParserState.consume_cons_of_error hr]
  exact parse_eq_of_consume hrun

theorem parse_append_of_bad_pattern_name :
    parse "rule a\x7bstrings:b=\x7d" ⟨true⟩ = .error ⟨⟨15, 16⟩, .expectedName "b" .pattern⟩ ∧
      ∀ text, parse ("rule a\x7bstrings:b=\x7d" ++ text) ⟨true⟩ =
        .error ⟨⟨15, 16⟩, .expectedName "b" .pattern⟩ := by
  have h : parse "rule a\x7bstrings:b=\x7d" ⟨true⟩ =
      .error ⟨⟨15, 16⟩, .expectedName "b" .pattern⟩ := by decide +kernel
  have htokens : tokenize "rule a\x7bstrings:b=\x7d" =
      [⟨.ruleWord, "rule", ⟨0, 4⟩⟩, ⟨.whitespace, " ", ⟨4, 5⟩⟩, ⟨.identifier, "a", ⟨5, 6⟩⟩,
        ⟨.openBrace, "\x7b", ⟨6, 7⟩⟩, ⟨.identifier, "strings", ⟨7, 14⟩⟩, ⟨.colon, ":", ⟨14, 15⟩⟩] ++
      ⟨.identifier, "b", ⟨15, 16⟩⟩ ::
      [⟨.equal, "=", ⟨16, 17⟩⟩, ⟨.closeBrace, "\x7d", ⟨17, 18⟩⟩, .endAt 18] := by decide +kernel
  have hl := lexed_tokenize "rule a\x7bstrings:b=\x7d"
  refine ⟨h, parse_append_of_error h (by decide) ?_⟩
  rintro token ⟨front, name, back, rest, hsplit, -, herror, hskip⟩
  rw [htokens] at hl hsplit
  have hspan := congrArg ParseError.span herror
  obtain ⟨-, -, rfl⟩ := hl.eq_of_start_eq hsplit (congrArg Span.start hspan)
  cases hskip
  decide

end SignatureRules

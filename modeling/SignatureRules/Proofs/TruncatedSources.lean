import SignatureRules.Proofs.MatchingBrace
import SignatureRules.Proofs.TokenBoundaries

/-! A source cut at or before the brace that closes its rule is rejected, wherever the cut falls. At
the brace itself, what is missing is reported as the end of the input. -/

namespace SignatureRules

variable {options : ParseOptions} {rule : Rule} {goal next : Goal} {token found closing : Token}
  {source head : String}

namespace Goal

theorem judge_endAt_of_putBack (hk : token.kind = .closeBrace)
    (hj : goal.judge options rule token = .putBack next) (n : Nat) :
    goal.judge options rule (.endAt n) = .putBack next := by
  cases goal with
  | tag colonStart =>
    simp only [judge, hk] at hj
    split at hj
    · cases hj
    · rename_i hne
      simpa only [judge, Token.endAt, if_neg hne] using hj
  | skippedCondition depth =>
    cases depth with
    | zero =>
      simp only [judge, hk] at hj
      exact hj
    | succ depth => simp only [judge, hk, reduceCtorEq] at hj
  | tagColon | sectionOrEnd | metadataKey | patternName =>
    simp only [judge, hk] at hj
    exact hj
  | _ => simp [judge, hk, Verdict.wantSymbol, Verdict.wantName, Verdict.wantString] at hj

theorem eq_closeBrace_of_judge_accept (hj : goal.judge options rule token = .accept) :
    goal = .closeBrace := by
  cases goal with
  | closeBrace => rfl
  | _ =>
    simp only [judge, Verdict.wantSymbol, Verdict.wantName, Verdict.wantString] at hj
    split at hj <;> (try split at hj) <;> cases hj

end Goal

namespace ParserState

variable {state : ParserState}

theorem respond_endAt_of_accept (hk : token.kind = .closeBrace)
    (h : state.respond options token = .error ⟨.ok rule, found⟩) (n : Nat) :
    state.respond options (.endAt n) = .error ⟨.error ⟨⟨n, n⟩, .unclosedRule⟩, .endAt n⟩ := by
  fun_induction respond options token state with
  | case1 => cases h
  | case2 => cases h
  | case3 state _ goal hj ih =>
    rw [respond_of_putBack (after?_of_not_trivia rfl) (Goal.judge_endAt_of_putBack hk hj n)]
    exact ih h
  | case4 state _ hj =>
    apply respond_of_reject (after?_of_not_trivia rfl)
    rw [Goal.eq_closeBrace_of_judge_accept hj]
    rfl
  | case5 => cases h

theorem consume_append_of_accepted
    (h : start.consume options (tokenize head) = .error ⟨.ok rule, closing⟩) (text : String) :
    start.consume options (tokenize (head ++ text)) = .error ⟨.ok rule, closing⟩ := by
  have hk := (matchesFirstBrace_of_consume h).kind_eq
  obtain ⟨front, back, last, htokens, hfront, hr⟩ := exists_of_consume_error h
  obtain ⟨passed, more, rfl, -, hsame⟩ :=
    exists_prefix_of_mark htokens (show closing.kind.mark? = some '\x7d' by rw [hk]; rfl)
  obtain ⟨rest, hrest⟩ := hsame (more ++ text)
  rw [String.append_assoc, ← hrest, List.append_assoc, consume_append_of_ok hfront]
  exact consume_cons_of_error hr

end ParserState

theorem stop_le_of_mem_tokenize (h : token ∈ tokenize source) :
    token.span.stop ≤ byteSize source.toList := by
  rcases eq_endAt_or_isLexemeOf h with rfl | ⟨-, lexeme, following, ⟨front, hs, hspan⟩, -⟩
  · exact Nat.le_refl _
  · rw [hspan, hs, byteSize_append _ following]
    apply Nat.le_add_right

theorem span_lt_of_mem_tokenize (h : token ∈ tokenize source) (hk : token.kind ≠ .endOfInput) :
    token.span.start < token.span.stop := by
  rcases eq_endAt_or_isLexemeOf h with rfl | ⟨-, hl⟩
  · exact absurd rfl hk
  · exact hl.span_lt

theorem exists_error_of_stops_before {tail : String}
    (h : ParserState.start.consume options (tokenize (head ++ tail)) =
      .error ⟨.ok rule, closing⟩) (hle : byteSize head.toList ≤ closing.span.start) :
    ∃ error, parse head options = .error error := by
  cases hhead : parse head options with
  | error error => exact ⟨error, rfl⟩
  | ok other =>
    -- the run over the whole source would end where the run over the part does
    obtain ⟨last, hc⟩ := consume_tokenize head options
    rw [hhead] at hc
    have hall := ParserState.consume_append_of_accepted hc tail
    rw [h] at hall
    cases hall
    obtain ⟨front, back, _, htokens, -⟩ := ParserState.exists_of_consume_error hc
    have hmem : closing ∈ tokenize head := by simp [htokens]
    have hk : closing.kind ≠ .endOfInput := by
      simp [(ParserState.matchesFirstBrace_of_consume hc).kind_eq]
    have hlt := span_lt_of_mem_tokenize hmem hk
    have hbound := stop_le_of_mem_tokenize hmem
    omega

theorem parse_front_of_accepted
    (h : ParserState.start.consume options (tokenize source) = .error ⟨.ok rule, closing⟩) :
    parse (Span.textIn source ⟨0, closing.span.start⟩) options =
      .error ⟨⟨closing.span.start, closing.span.start⟩, .unclosedRule⟩ := by
  obtain ⟨front, back, last, htokens, hfront, hr⟩ := ParserState.exists_of_consume_error h
  have hl := lexed_tokenize source
  rw [htokens] at hl
  obtain ⟨passed, rest, hrest, -, hclosing, hsame⟩ := hl.exists_text
  have hstart := hclosing.start_eq
  have hcut := hsame [] _ (.inl rfl) .done
  rw [List.append_nil] at hcut
  simp only [Nat.zero_add] at hstart hcut
  rw [hstart, textIn_head hrest]
  have hend := ParserState.respond_endAt_of_accept
    (ParserState.matchesFirstBrace_of_consume h).kind_eq hr (byteSize passed)
  have hrun : ParserState.start.consume options (tokenize (.ofList passed)) = .error
      ⟨.error ⟨⟨byteSize passed, byteSize passed⟩, .unclosedRule⟩, .endAt (byteSize passed)⟩ := by
    rw [tokenize_ofList hcut, ParserState.consume_append_of_ok hfront]
    exact ParserState.consume_cons_of_error hend
  exact parse_eq_of_consume hrun

theorem parse_truncated (h : parse source options = .ok rule) :
    let closing := ((Parser.ofSource source).run options).token
    MatchesFirstBrace closing (tokenize source) ∧
      (∀ stop, stop ≤ closing.span.start → String.Pos.Raw.IsValid source ⟨stop⟩ →
        ∃ error, parse (Span.textIn source ⟨0, stop⟩) options = .error error) ∧
      parse (Span.textIn source ⟨0, closing.span.start⟩) options =
        .error ⟨⟨closing.span.start, closing.span.start⟩, .unclosedRule⟩ := by
  intro closing
  have hrun : ParserState.start.consume options (tokenize source) =
      .error ⟨.ok rule, closing⟩ := by
    rw [consume_tokenize_eq_run, ← h]
    rfl
  refine ⟨ParserState.matchesFirstBrace_of_consume hrun, fun stop hle hvalid => ?_,
    parse_front_of_accepted hrun⟩
  obtain ⟨head, tail, rfl, hstop⟩ := String.Pos.Raw.isValid_iff_exists_append.mp hvalid
  obtain rfl : stop = byteSize head.toList := by
    rw [byteSize_toList]
    exact congrArg String.Pos.Raw.byteIdx hstop
  rw [textIn_head (String.toList_append ..), String.ofList_toList]
  exact exists_error_of_stops_before hrun hle

theorem parse_truncated_in_string :
    parse "rule a\x7bconditions:\x7b\"é\x7d\"\x7d\x7d" ⟨true⟩ = .ok ⟨"a", [], .empty, .empty⟩ ∧
      MatchesFirstBrace ⟨.closeBrace, "\x7d", ⟨25, 26⟩⟩
        (tokenize "rule a\x7bconditions:\x7b\"é\x7d\"\x7d\x7d") ∧
      (23 ≤ 25 ∧
        String.Pos.Raw.IsValid "rule a\x7bconditions:\x7b\"é\x7d\"\x7d\x7d" ⟨23⟩ ∧
        ∃ error, parse (Span.textIn "rule a\x7bconditions:\x7b\"é\x7d\"\x7d\x7d" ⟨0, 23⟩) ⟨true⟩ =
          .error error) ∧
      parse (Span.textIn "rule a\x7bconditions:\x7b\"é\x7d\"\x7d\x7d" ⟨0, 25⟩) ⟨true⟩ =
        .error ⟨⟨25, 25⟩, .unclosedRule⟩ := by
  have h : parse "rule a\x7bconditions:\x7b\"é\x7d\"\x7d\x7d" ⟨true⟩ =
      .ok ⟨"a", [], .empty, .empty⟩ := by decide +kernel
  have hclosing : ((Parser.ofSource "rule a\x7bconditions:\x7b\"é\x7d\"\x7d\x7d").run ⟨true⟩).token =
      ⟨.closeBrace, "\x7d", ⟨25, 26⟩⟩ := by decide +kernel
  have hcut : "rule a\x7bconditions:\x7b\"é\x7d\"\x7d\x7d".toList =
      "rule a\x7bconditions:\x7b\"é\x7d".toList ++ "\"\x7d\x7d".toList := rfl
  have hvalid : String.Pos.Raw.IsValid "rule a\x7bconditions:\x7b\"é\x7d\"\x7d\x7d" ⟨23⟩ :=
    isValid_of_append hcut
  have hall := parse_truncated h
  simp only [hclosing] at hall
  exact ⟨h, hall.1, ⟨by decide, hvalid, hall.2.1 23 (by decide) hvalid⟩, hall.2.2⟩

end SignatureRules

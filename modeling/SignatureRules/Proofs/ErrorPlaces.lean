import SignatureRules.Proofs.ParserRun

namespace SignatureRules

def skipOne (kind : TokenKind) : List Token → List Token
  | [] => []
  | token :: tokens => if token.kind = kind then tokens else token :: tokens

def skipTrivia (tokens : List Token) : List Token := skipOne .comment (skipOne .whitespace tokens)

def Symbol.kind : Symbol → TokenKind
  | ruleWord => .ruleWord
  | colon => .colon
  | openBrace => .openBrace
  | closeBrace => .closeBrace
  | equal => .equal

def NameRole.kinds : NameRole → List TokenKind
  | rule | sectionHeader => [.identifier]
  | metadataKey => [.identifier, .closeBrace, .endOfInput]
  | pattern => [.variableName, .closeBrace, .endOfInput]

/-- The fault has the literal of the token, whose kind is not one that the fault asks for. No fault
asks for a closing brace: a body that does not end at one ends with the input. -/
inductive SyntaxFault.FoundAt (token : Token) : SyntaxFault → Prop
  | symbol {symbol} : token.kind ≠ symbol.kind → symbol ≠ .closeBrace →
      FoundAt token (.expectedSymbol token.literal symbol)
  | name {role} : token.kind ∉ role.kinds → FoundAt token (.expectedName token.literal role)
  | string : token.kind ≠ .quotedString →
      FoundAt token (.expectedString token.literal token.kind)

/-- The error is about the tokens at its span. Where tags are missing these are the colon and all up
to the token that is no tag. -/
inductive ParseError.PointsInto (tokens : List Token) : ParseError → Prop
  | found {token fault} : token ∈ tokens → fault.FoundAt token → PointsInto tokens ⟨token.span, fault⟩
  | noTags {front colon back token rest} : tokens = front ++ colon :: back →
      colon.kind = .colon → skipTrivia back = token :: rest → token.kind ≠ .identifier →
      PointsInto tokens ⟨⟨colon.span.start, token.span.stop⟩, .noTags⟩
  | unclosed {token} : token ∈ tokens → token.kind = .endOfInput →
      PointsInto tokens ⟨token.span, .unclosedRule⟩

variable {options : ParseOptions} {rule after : Rule} {goal next : Goal} {token : Token}
  {allowance left : Allowance} {error : ParseError} {past tokens front back : List Token}

theorem skipOne_append {kind : TokenKind} {rest : List Token}
    (h : skipOne kind tokens = token :: rest) (back : List Token) :
    skipOne kind (tokens ++ back) = token :: (rest ++ back) := by
  cases tokens with
  | nil => cases h
  | cons first tokens =>
    rw [skipOne] at h
    rw [List.cons_append, skipOne]
    split at h
    · rw [if_pos ‹_›, h]
      rfl
    · rw [if_neg ‹_›]
      obtain ⟨rfl, rfl⟩ := List.cons.inj h
      rfl

theorem skipTrivia_append {rest : List Token} (h : skipTrivia tokens = token :: rest)
    (back : List Token) : skipTrivia (tokens ++ back) = token :: (rest ++ back) := by
  rw [skipTrivia] at h ⊢
  cases hs : skipOne .whitespace tokens with
  | nil =>
    rw [hs] at h
    cases h
  | cons first tokens =>
    rw [hs] at h
    rw [skipOne_append hs, ← List.cons_append]
    exact skipOne_append h back

theorem ParseError.PointsInto.append (h : error.PointsInto front) (back : List Token) :
    error.PointsInto (front ++ back) := by
  cases h with
  | found hmem hfault => exact .found (List.mem_append_left _ hmem) hfault
  | noTags htokens hcolon hskip hk =>
    have hall := congrArg (· ++ back) htokens
    simp only [List.append_assoc, List.cons_append] at hall
    exact .noTags hall hcolon (skipTrivia_append hskip back) hk
  | unclosed hmem hk => exact .unclosed (List.mem_append_left _ hmem) hk

theorem ParseError.PointsInto.exists_start (h : error.PointsInto tokens) :
    ∃ token ∈ tokens, token.span.start = error.span.start := by
  cases h with
  | found hmem _ => exact ⟨_, hmem, rfl⟩
  | noTags htokens _ _ _ => exact ⟨_, htokens ▸ by simp, rfl⟩
  | unclosed hmem _ => exact ⟨_, hmem, rfl⟩

def Allowance.skip : Allowance → List Token → List Token
  | blankAndComment, tokens => skipTrivia tokens
  | comment, tokens => skipOne .comment tokens
  | spent, tokens => tokens

theorem Allowance.skip_of_after? (h : allowance.after? token.kind = some left)
    (tokens : List Token) : allowance.skip (token :: tokens) = left.skip tokens := by
  cases allowance <;> cases hk : token.kind <;> simp [after?, hk] at h <;> cases h <;>
    simp [skip, skipTrivia, skipOne, hk]

theorem Allowance.skip_of_after?_eq_none (h : allowance.after? token.kind = none)
    (tokens : List Token) : allowance.skip (token :: tokens) = token :: tokens := by
  cases allowance <;> cases hk : token.kind <;> simp [after?, hk] at h <;>
    simp [skip, skipTrivia, skipOne, hk]

/-- The token is one of those past, and the ones after it are trivia that has used up all but the
allowance. -/
def Recalls (past : List Token) (token : Token) (allowance : Allowance) : Prop :=
  ∃ front passed, past = front ++ token :: passed ∧
    ∀ rest, skipTrivia (passed ++ rest) = allowance.skip rest

theorem recalls_last (past : List Token) (token : Token) :
    Recalls (past ++ [token]) token .blankAndComment :=
  ⟨past, [], rfl, fun _ => rfl⟩

theorem Recalls.pass {other : Token} (h : Recalls past token allowance)
    (ha : allowance.after? other.kind = some left) : Recalls (past ++ [other]) token left := by
  obtain ⟨front, passed, rfl, hskip⟩ := h
  refine ⟨front, passed ++ [other], by simp, fun rest => ?_⟩
  rw [List.append_assoc, List.singleton_append, hskip]
  exact Allowance.skip_of_after? ha rest

theorem Recalls.exists_skipped {other : Token} (h : Recalls past token allowance)
    (ha : allowance.after? other.kind = none) :
    ∃ front passed, past ++ [other] = front ++ token :: passed ∧ skipTrivia passed = [other] := by
  obtain ⟨front, passed, rfl, hskip⟩ := h
  refine ⟨front, passed ++ [other], List.append_assoc .., ?_⟩
  exact (hskip [other]).trans (Allowance.skip_of_after?_eq_none ha [])

namespace ParserState

/-- What a state recalls of the tokens that led to it, and knows of the next one. The colon in front
of the tags is recalled only while none has been found. -/
def Knows (past : List Token) (token : Token) (state : ParserState) : Prop :=
  match state.goal with
  | .tag colonStart => state.rule.tags = [] → ∃ colon, Recalls past colon state.allowance ∧
      colon.kind = .colon ∧ colon.span.start = colonStart
  | .headerColon name => Recalls past name state.allowance ∧ name.kind = .identifier
  | .closeBrace => token.kind = .closeBrace ∨ token.kind = .endOfInput
  | _ => True

variable {state last : ParserState}

theorem knows_ofSection (part : BodySection) :
    (fresh (.ofSection options part) rule).Knows past token := by
  cases part with
  | conditions =>
    rw [Goal.ofSection]
    split <;> trivial
  | _ => trivial

theorem Knows.pass (h : state.Knows past token)
    (ha : state.allowance.after? token.kind = some left) (other : Token) :
    ({ state with allowance := left } : ParserState).Knows (past ++ [token]) other := by
  obtain ⟨goal, allowance, rule⟩ := state
  cases goal with
  | tag colonStart =>
    intro hr
    obtain ⟨colon, hcolon, hk, hstart⟩ := h hr
    exact ⟨colon, hcolon.pass ha, hk, hstart⟩
  | headerColon name => exact ⟨h.1.pass ha, h.2⟩
  | closeBrace =>
    rcases h with hk | hk
    all_goals
      rw [hk] at ha
      cases allowance <;> cases ha
  | _ => trivial

theorem knows_of_judge_take (hj : goal.judge options rule token = .take next after)
    (other : Token) : (fresh next after).Knows (past ++ [token]) other := by
  cases goal with
  | tagColon =>
    simp only [Goal.judge] at hj
    split at hj <;> cases hj
    exact fun _ => ⟨token, recalls_last past token, ‹_›, rfl⟩
  | tag colonStart =>
    simp only [Goal.judge] at hj
    split at hj
    · cases hj
      intro hr
      simp [fresh, Rule.addTag] at hr
    · split at hj <;> cases hj
  | patternName =>
    simp only [Goal.judge, Verdict.wantName] at hj
    split at hj <;> cases hj
    · trivial
    · exact ⟨recalls_last past token, ‹_›⟩
  | _ =>
    simp only [Goal.judge, Verdict.wantSymbol, Verdict.wantName, Verdict.wantString] at hj
    split at hj <;> cases hj <;> first | trivial | exact knows_ofSection _

theorem knows_of_judge_putBack (hj : goal.judge options rule token = .putBack next) :
    (fresh next rule).Knows past token := by
  cases goal with
  | tag colonStart =>
    simp only [Goal.judge] at hj
    split at hj
    · cases hj
    · split at hj <;> cases hj
      trivial
  | sectionOrEnd =>
    simp only [Goal.judge] at hj
    split at hj <;> cases hj
    · exact .inl ‹_›
    · exact .inr ‹_›
    · trivial
  | _ =>
    simp only [Goal.judge, Verdict.wantSymbol, Verdict.wantName, Verdict.wantString] at hj
    split at hj <;> cases hj <;> trivial

theorem pointsInto_of_judge_reject (h : Knows past token ⟨goal, allowance, rule⟩)
    (ha : allowance.after? token.kind = none)
    (hj : goal.judge options rule token = .reject error) :
    error.PointsInto (past ++ [token]) := by
  have hmem : token ∈ past ++ [token] := by simp
  cases goal with
  | tag colonStart =>
    simp only [Goal.judge] at hj
    split at hj
    · cases hj
    · rename_i hk
      split at hj <;> cases hj
      rename_i hr
      obtain ⟨colon, hrecalls, hcolon, rfl⟩ := h (List.isEmpty_iff.mp hr)
      obtain ⟨front, passed, htokens, hskip⟩ := hrecalls.exists_skipped ha
      exact .noTags htokens hcolon hskip hk
  | headerColon name =>
    simp only [Goal.judge, Verdict.wantName] at hj
    split at hj <;> cases hj
    obtain ⟨front, passed, htokens, -⟩ := h.1.exists_skipped ha
    have hname : name ∈ past ++ [token] := by simp [htokens]
    exact .found hname (.name (by simp [h.2, NameRole.kinds]))
  | closeBrace =>
    rcases h with hk | hk
    all_goals
      simp only [Goal.judge, hk] at hj
      cases hj
    exact .unclosed hmem hk
  | ruleWord | openBrace | sectionColon | metadataAssign | patternAssign =>
    simp only [Goal.judge, Verdict.wantSymbol] at hj
    split at hj <;> cases hj
    exact .found hmem (.symbol ‹_› (by decide))
  | ruleName | sectionName | metadataKey | patternName =>
    simp only [Goal.judge, Verdict.wantName] at hj
    split at hj <;> cases hj
    refine .found hmem (.name ?_)
    simp_all [NameRole.kinds]
  | metadataValue | patternValue =>
    simp only [Goal.judge, Verdict.wantString] at hj
    split at hj <;> cases hj
    exact .found hmem (.string ‹_›)
  | tagColon | sectionOrEnd | skippedCondition =>
    simp only [Goal.judge] at hj
    split at hj <;> cases hj

theorem knows_of_respond (h : state.Knows past token)
    (hr : state.respond options token = .ok last) (other : Token) :
    last.Knows (past ++ [token]) other := by
  fun_induction respond options token state with
  | case1 state allowance ha =>
    cases hr
    exact h.pass ha other
  | case2 state _ goal rule hj =>
    cases hr
    exact knows_of_judge_take hj other
  | case3 state _ goal hj ih => exact ih (knows_of_judge_putBack hj) hr
  | case4 => cases hr
  | case5 => cases hr

def Rejects (options : ParseOptions) (past : List Token) (token : Token) (error : ParseError) :
    Prop :=
  ∃ state : ParserState, state.Knows past token ∧ state.allowance.after? token.kind = none ∧
    state.goal.judge options state.rule token = .reject error

theorem rejects_of_respond {found : Token} (h : state.Knows past token)
    (hr : state.respond options token = .error ⟨.error error, found⟩) :
    Rejects options past token error := by
  fun_induction respond options token state with
  | case1 => cases hr
  | case2 => cases hr
  | case3 state _ goal hj ih => exact ih (knows_of_judge_putBack hj) hr
  | case4 => cases hr
  | case5 state ha fault hj =>
    cases hr
    exact ⟨state, h, ha, hj⟩

theorem knows_of_consume (h : ∀ next, state.Knows past next)
    (hc : state.consume options tokens = .ok last) (next : Token) :
    last.Knows (past ++ tokens) next := by
  induction tokens generalizing state past with
  | nil =>
    cases hc
    rw [List.append_nil]
    exact h next
  | cons token tokens ih =>
    obtain ⟨middle, hr, hmiddle⟩ := exists_respond_of_consume hc
    rw [List.append_cons]
    exact ih (knows_of_respond (h token) hr) hmiddle

theorem rejects_of_consume {found : Token}
    (h : start.consume options tokens = .error ⟨.error error, found⟩) :
    ∃ front back last, tokens = front ++ found :: back ∧
      start.consume options front = .ok last ∧
      last.respond options found = .error ⟨.error error, found⟩ ∧
      Rejects options front found error := by
  obtain ⟨front, back, last, htokens, hfront, hr⟩ := exists_of_consume_error h
  have hstart : ∀ next, start.Knows [] next := fun _ => trivial
  have hknows := knows_of_consume hstart hfront found
  rw [List.nil_append] at hknows
  exact ⟨front, back, last, htokens, hfront, hr, rejects_of_respond hknows hr⟩

theorem pointsInto_of_consume {found : Token}
    (h : start.consume options tokens = .error ⟨.error error, found⟩) :
    ∃ front back last, tokens = front ++ found :: back ∧
      start.consume options front = .ok last ∧ error.PointsInto (front ++ [found]) := by
  obtain ⟨front, back, last, htokens, hfront, -, state, hknows, ha, hj⟩ := rejects_of_consume h
  exact ⟨front, back, last, htokens, hfront, pointsInto_of_judge_reject hknows ha hj⟩

theorem exists_of_consume_reject {found : Token}
    (h : start.consume options tokens = .error ⟨.error error, found⟩) :
    ∃ front token back last, tokens = front ++ token :: back ∧
      token.span.start = error.span.start ∧ start.consume options front = .ok last := by
  obtain ⟨front, back, last, rfl, hfront, herror⟩ := pointsInto_of_consume h
  obtain ⟨token, hmem, hstart⟩ := herror.exists_start
  rcases List.mem_append.mp hmem with hm | hm
  · obtain ⟨before, after, rfl⟩ := List.append_of_mem hm
    obtain ⟨next, hnext, -⟩ := exists_consume_of_append hfront
    exact ⟨before, token, after ++ found :: back, next, by simp, hstart, hnext⟩
  · obtain rfl := List.mem_singleton.mp hm
    exact ⟨front, _, back, last, rfl, hstart, hfront⟩

end ParserState

theorem eq_endAt_of_mem_tokenize {source : String} (hm : token ∈ tokenize source)
    (hk : token.kind = .endOfInput) : token = .endAt (byteSize source.toList) := by
  rcases eq_endAt_or_isLexemeOf hm with he | ⟨hn, -⟩
  · exact he
  · exact absurd hk hn

theorem ParseError.PointsInto.span_of_unclosed {source : String}
    (h : error.PointsInto (tokenize source)) (hf : error.fault = .unclosedRule) :
    error.span = ⟨byteSize source.toList, byteSize source.toList⟩ := by
  cases h with
  | found _ hfault =>
    cases hf
    cases hfault
  | noTags => cases hf
  | unclosed hmem hk => rw [eq_endAt_of_mem_tokenize hmem hk, Token.endAt]

theorem parse_error_pointsInto {source : String} (h : parse source options = .error error) :
    error.PointsInto (tokenize source) ∧ (error.fault = .unclosedRule →
      error.span = ⟨byteSize source.toList, byteSize source.toList⟩) := by
  obtain ⟨found, hc⟩ := consume_tokenize source options
  rw [h] at hc
  obtain ⟨front, back, -, htokens, -, herror⟩ := ParserState.pointsInto_of_consume hc
  have hall := herror.append back
  rw [List.append_assoc, List.singleton_append, ← htokens] at hall
  exact ⟨hall, hall.span_of_unclosed⟩

theorem parse_error_pointsInto_tags :
    parse "rule a : /**/ \x7b\x7d" ⟨true⟩ = .error ⟨⟨7, 14⟩, .noTags⟩ ∧
      ParseError.PointsInto (tokenize "rule a : /**/ \x7b\x7d") ⟨⟨7, 14⟩, .noTags⟩ ∧
      ((⟨⟨7, 14⟩, .noTags⟩ : ParseError).fault = .unclosedRule →
        (⟨⟨7, 14⟩, .noTags⟩ : ParseError).span =
          ⟨byteSize "rule a : /**/ \x7b\x7d".toList, byteSize "rule a : /**/ \x7b\x7d".toList⟩) := by
  have h : parse "rule a : /**/ \x7b\x7d" ⟨true⟩ = .error ⟨⟨7, 14⟩, .noTags⟩ := by decide +kernel
  exact ⟨h, parse_error_pointsInto h⟩

end SignatureRules

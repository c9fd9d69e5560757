import SignatureRules.Parser
import SignatureRules.Proofs.Tokenization

/-! A parse as a run over the list of tokens. What a state of the parser makes of a token, with all
the goals that the token is put back for, is one response, so a run consumes its tokens one by one
and no token comes back. -/

namespace SignatureRules

namespace ParserState

def start : ParserState := fresh .ruleWord .empty

def respond (options : ParseOptions) (token : Token) (state : ParserState) :
    Except Ending ParserState :=
  match state.allowance.after? token.kind with
  | some allowance => .ok { state with allowance }
  | none =>
    match _ : state.goal.judge options state.rule token with
    | .take goal rule => .ok (fresh goal rule)
    | .putBack goal => respond options token (fresh goal state.rule)
    | .accept => .error ⟨.ok state.rule, token⟩
    | .reject error => .error ⟨.error error, token⟩
termination_by state.goal.rank
decreasing_by exact Goal.rank_lt_of_judge_putBack ‹_›

def consume (options : ParseOptions) (state : ParserState) :
    List Token → Except Ending ParserState
  | [] => .ok state
  | token :: tokens =>
    match state.respond options token with
    | .ok after => after.consume options tokens
    | .error ending => .error ending

variable {options : ParseOptions} {state after : ParserState} {token : Token}
  {tokens front back : List Token} {ending : Ending}

theorem respond_eq (options : ParseOptions) (token : Token) (state : ParserState) :
    state.respond options token =
      match state.allowance.after? token.kind with
      | some allowance => .ok { state with allowance }
      | none =>
        match state.goal.judge options state.rule token with
        | .take goal rule => .ok (fresh goal rule)
        | .putBack goal => (fresh goal state.rule).respond options token
        | .accept => .error ⟨.ok state.rule, token⟩
        | .reject error => .error ⟨.error error, token⟩ := by
  rw [respond]
  split
  · rfl
  · split
    all_goals
      rename_i hj
      rw [hj]

theorem respond_of_after? {allowance : Allowance}
    (h : state.allowance.after? token.kind = some allowance) :
    state.respond options token = .ok { state with allowance } := by
  rw [respond_eq, h]

theorem respond_of_take {goal : Goal} {rule : Rule}
    (h : state.allowance.after? token.kind = none)
    (hj : state.goal.judge options state.rule token = .take goal rule) :
    state.respond options token = .ok (fresh goal rule) := by
  rw [respond_eq, h, hj]

theorem respond_of_putBack {goal : Goal}
    (h : state.allowance.after? token.kind = none)
    (hj : state.goal.judge options state.rule token = .putBack goal) :
    state.respond options token = (fresh goal state.rule).respond options token := by
  rw [respond_eq, h, hj]

theorem respond_of_accept (h : state.allowance.after? token.kind = none)
    (hj : state.goal.judge options state.rule token = .accept) :
    state.respond options token = .error ⟨.ok state.rule, token⟩ := by
  rw [respond_eq, h, hj]

theorem respond_of_reject {error : ParseError} (h : state.allowance.after? token.kind = none)
    (hj : state.goal.judge options state.rule token = .reject error) :
    state.respond options token = .error ⟨.error error, token⟩ := by
  rw [respond_eq, h, hj]

theorem token_of_respond_error (h : state.respond options token = .error ending) :
    ending.token = token := by
  fun_induction respond options token state with
  | case1 => cases h
  | case2 => cases h
  | case3 state _ goal hj ih => exact ih h
  | case4 => cases h; rfl
  | case5 => cases h; rfl

theorem consume_cons_of_ok (h : state.respond options token = .ok after) :
    state.consume options (token :: tokens) = after.consume options tokens := by
  rw [consume, h]

theorem consume_cons_of_error (h : state.respond options token = .error ending) :
    state.consume options (token :: tokens) = .error ending := by
  rw [consume, h]

theorem exists_respond_of_consume (h : state.consume options (token :: tokens) = .ok after) :
    ∃ next, state.respond options token = .ok next ∧ next.consume options tokens = .ok after := by
  cases hr : state.respond options token with
  | ok next => exact ⟨next, rfl, (consume_cons_of_ok hr).symm.trans h⟩
  | error ending =>
    rw [consume_cons_of_error hr] at h
    cases h

theorem consume_append_of_ok (h : state.consume options front = .ok after) :
    state.consume options (front ++ back) = after.consume options back := by
  induction front generalizing state with
  | nil => cases h; rfl
  | cons token front ih =>
    obtain ⟨next, hr, hnext⟩ := exists_respond_of_consume h
    rw [List.cons_append, consume_cons_of_ok hr, ih hnext]

theorem exists_of_consume_error (h : state.consume options tokens = .error ending) :
    ∃ front back last, tokens = front ++ ending.token :: back ∧
      state.consume options front = .ok last ∧
      last.respond options ending.token = .error ending := by
  induction tokens generalizing state with
  | nil => cases h
  | cons token tokens ih =>
    cases hr : state.respond options token with
    | ok next =>
      rw [consume_cons_of_ok hr] at h
      obtain ⟨front, back, last, rfl, hfront, hlast⟩ := ih h
      exact ⟨token :: front, back, last, rfl, by rw [consume_cons_of_ok hr, hfront], hlast⟩
    | error found =>
      rw [consume_cons_of_error hr] at h
      cases h
      obtain rfl := token_of_respond_error hr
      exact ⟨[], tokens, state, rfl, rfl, hr⟩

theorem consume_append_of_error (h : state.consume options front = .error ending)
    (back : List Token) : state.consume options (front ++ back) = .error ending := by
  obtain ⟨_, _, next, rfl, hnext, hr⟩ := exists_of_consume_error h
  rw [List.append_assoc, consume_append_of_ok hnext, List.cons_append, consume_cons_of_error hr]

theorem exists_consume_of_append (h : state.consume options (front ++ back) = .ok after) :
    ∃ next, state.consume options front = .ok next ∧ next.consume options back = .ok after := by
  cases hf : state.consume options front with
  | ok next => exact ⟨next, rfl, (consume_append_of_ok hf).symm.trans h⟩
  | error ending =>
    rw [consume_append_of_error hf] at h
    cases h

end ParserState

inductive TokenReader.Supplies : TokenReader → List Token → Prop
  | unread {lexer tokens} : Lexed lexer.cursor.pos tokens → Supplies ⟨lexer, none⟩ tokens
  | held {lexer token tokens} : token.kind ≠ .endOfInput → Lexed lexer.cursor.pos tokens →
      Supplies ⟨lexer, some token⟩ (token :: tokens)
  | heldEnd {lexer token} : token.kind = .endOfInput → Supplies ⟨lexer, some token⟩ [token]

theorem TokenReader.Supplies.next {reader : TokenReader} {tokens : List Token}
    (h : reader.Supplies tokens) : ∃ rest, tokens = reader.next.1 :: rest ∧
      (reader.next.1.kind ≠ .endOfInput → reader.next.2.Supplies rest) ∧
      (reader.next.2.putBack reader.next.1).Supplies tokens := by
  cases h with
  | @unread lexer _ hl =>
    obtain ⟨rest, rfl, hrest, hnil⟩ := hl.nextToken
    refine ⟨rest, rfl, fun hk => .unread (hrest hk), ?_⟩
    by_cases hk : lexer.nextToken.1.kind = .endOfInput
    · rw [hnil hk]
      exact .heldEnd hk
    · exact .held hk (hrest hk)
  | held hk hl => exact ⟨_, rfl, fun _ => .unread hl, .held hk hl⟩
  | heldEnd hk => exact ⟨_, rfl, fun hn => absurd hk hn, .heldEnd hk⟩

theorem Parser.consume_eq_run {options : ParseOptions} {parser : Parser} {tokens : List Token}
    (h : parser.reader.Supplies tokens) :
    ParserState.consume options ⟨parser.goal, parser.allowance, parser.rule⟩ tokens =
      .error (parser.run options) := by
  fun_induction Parser.run options parser generalizing tokens with
  | case1 parser after hstep ih =>
    obtain ⟨rest, rfl, hrest, hback⟩ := h.next
    cases moves_of_step hstep with
    | pass ha =>
      rw [ParserState.consume_cons_of_ok (ParserState.respond_of_after? ha)]
      exact ih (hrest (kind_ne_of_after? ha))
    | take ha hj =>
      rw [ParserState.consume_cons_of_ok (ParserState.respond_of_take ha hj)]
      exact ih (hrest (Goal.kind_ne_of_judge_take hj))
    | putBack ha hj =>
      -- the token put back is the first that the reader supplies again
      rw [← ih hback, ParserState.consume, ParserState.consume,
        ParserState.respond_of_putBack ha hj]
      rfl
  | case2 parser ending hstep =>
    obtain ⟨rest, rfl, -, -⟩ := h.next
    cases ends_of_step hstep with
    | accept ha hj => exact ParserState.consume_cons_of_error (ParserState.respond_of_accept ha hj)
    | reject ha hj => exact ParserState.consume_cons_of_error (ParserState.respond_of_reject ha hj)

theorem consume_tokenize_eq_run (source : String) (options : ParseOptions) :
    ParserState.start.consume options (tokenize source) =
      .error ((Parser.ofSource source).run options) := by
  have h : (Parser.ofSource source).reader.Supplies (tokenize source) :=
    .unread (lexed_tokenize source)
  exact Parser.consume_eq_run h

theorem consume_tokenize (source : String) (options : ParseOptions) :
    ∃ token, ParserState.start.consume options (tokenize source) =
      .error ⟨parse source options, token⟩ :=
  ⟨((Parser.ofSource source).run options).token, consume_tokenize_eq_run source options⟩

theorem parse_eq_of_consume {source : String} {options : ParseOptions} {ending : Ending}
    (h : ParserState.start.consume options (tokenize source) = .error ending) :
    parse source options = ending.result := by
  obtain ⟨token, hc⟩ := consume_tokenize source options
  rw [h] at hc
  cases hc
  rfl

end SignatureRules

import SignatureRules.Proofs.CheckedLexer
import SignatureRules.Proofs.ReaderLedger

namespace SignatureRules

namespace StoredCursor

def ofSource (address : Nat) (source : String) : StoredCursor :=
  ⟨⟨address, source.toList⟩, ⟨address, byteSize source.toList⟩, none⟩

def nextTokens : Nat → StoredCursor → Attempt (List Token)
  | 0, _ => return []
  | calls + 1, cursor => do
    let (token, after) ← cursor.nextToken
    return token :: (← after.nextTokens calls)

end StoredCursor

def Goal.checkedJudge (options : ParseOptions) (rule : Rule) (token : Token) :
    Goal → Attempt Verdict
  | skippedCondition depth =>
    match token.kind with
    | .endOfInput => return .putBack sectionOrEnd
    | .closeBrace =>
      if depth = 0 then return .putBack sectionOrEnd
      else return .take (skippedCondition (← subtract depth 1)) rule
    | .openBrace => return .take (skippedCondition (depth + 1)) rule
    | _ => return .take (skippedCondition depth) rule
  | goal => return goal.judge options rule token

structure StoredParser where
  cursor : StoredCursor
  buffer : Option Token
  goal : Goal
  allowance : Allowance
  rule : Rule

namespace StoredParser

def ofSource (address : Nat) (source : String) : StoredParser where
  cursor := .ofSource address source
  buffer := none
  goal := .ruleWord
  allowance := Goal.ruleWord.allowance
  rule := .empty

def next (parser : StoredParser) : Attempt (Token × StoredParser) :=
  match parser.buffer with
  | some token => return (token, { parser with buffer := none })
  | none => do
    let (token, cursor) ← parser.cursor.nextToken
    return (token, { parser with cursor })

def putBack (token : Token) (parser : StoredParser) : Attempt StoredParser :=
  match parser.buffer with
  | some _ => .error .alreadyHeld
  | none => return { parser with buffer := some token }

def step (options : ParseOptions) (parser : StoredParser) :
    Attempt (Except Ending StoredParser) := do
  let (token, after) ← parser.next
  match parser.allowance.after? token.kind with
  | some allowance => return .ok { after with allowance }
  | none =>
    match ← parser.goal.checkedJudge options parser.rule token with
    | .take goal rule => return .ok { after with goal, allowance := goal.allowance, rule }
    | .putBack goal =>
      return .ok { ← after.putBack token with goal, allowance := goal.allowance }
    | .accept => return .error ⟨.ok parser.rule, token⟩
    | .reject error => return .error ⟨.error error, token⟩

def runFor (options : ParseOptions) : Nat → StoredParser → Attempt (Except Ending StoredParser)
  | 0, parser => return .ok parser
  | steps + 1, parser => do
    match ← parser.step options with
    | .ok after => after.runFor options steps
    | .error ending => return .error ending

end StoredParser

theorem Goal.checkedJudge_eq_ok (options : ParseOptions) (rule : Rule) (token : Token)
    (goal : Goal) : goal.checkedJudge options rule token = .ok (goal.judge options rule token) := by
  cases goal with
  | skippedCondition depth =>
    obtain ⟨kind, literal, span⟩ := token
    cases depth with
    | zero => cases kind <;> rfl
    | succ depth =>
      have hdepth : subtract (depth + 1) 1 = .ok depth := by
        rw [Nat.add_comm]
        exact subtract_add 1 depth
      cases kind <;> simp [checkedJudge, judge, hdepth]
  | _ => rfl

namespace StoredCursor

variable {source : List Char} {start : Position} {tokens : List Token}

theorem nextTokens_placed_nil {offset : Nat} (h : Position.In source ⟨offset, []⟩)
    (address calls : Nat) (undo : Option Slice) :
    (placed address source ⟨offset, []⟩ undo).nextTokens calls =
      .ok (List.replicate calls (.endAt offset)) := by
  induction calls with
  | zero => rfl
  | succ calls ih =>
    rw [nextTokens, nextToken_placed_nil h, Attempt.ok_bind]
    simp only [ih, Attempt.ok_bind]
    rfl

theorem nextTokens_placed (h : Lexed start tokens) (hin : start.In source) (address calls : Nat)
    (undo : Option Slice) :
    (placed address source start undo).nextTokens calls =
      .ok (tokens.take calls ++
        List.replicate (calls - tokens.length) (.endAt (start.offset + byteSize start.rest))) := by
  induction h generalizing calls undo with
  | @done n =>
    rw [nextTokens_placed_nil hin]
    cases calls <;> simp [List.replicate_succ]
  | cons hlexeme hrest ih =>
    cases calls with
    | zero => simp [nextTokens]
    | succ calls =>
      obtain ⟨undo', hnext⟩ := reads_nextToken address undo hin hlexeme
      rw [nextTokens, hnext, Attempt.ok_bind]
      simp only [ih hin.advance, Attempt.ok_bind]
      simp [Nat.add_assoc]

end StoredCursor

namespace StoredParser

variable {options : ParseOptions} {address : Nat} {source : List Char} {stored : StoredParser}
  {parser after : Parser}

structure Follows (address : Nat) (source : List Char) (stored : StoredParser)
    (parser : Parser) : Prop where
  inside : parser.reader.lexer.cursor.pos.In source
  cursor : ∃ undo, stored.cursor = .placed address source parser.reader.lexer.cursor.pos undo
  buffer : stored.buffer = parser.reader.buffer
  goal : stored.goal = parser.goal
  allowance : stored.allowance = parser.allowance
  rule : stored.rule = parser.rule

theorem follows_ofSource (address : Nat) (source : String) :
    (ofSource address source).Follows address source.toList (Parser.ofSource source) :=
  ⟨Position.in_start _, ⟨none, rfl⟩, rfl, rfl, rfl, rfl⟩

theorem Follows.next (h : stored.Follows address source parser) :
    ∃ passed, stored.next = .ok (parser.reader.next.1, passed) ∧
      passed.Follows address source { parser with reader := parser.reader.next.2 } := by
  obtain ⟨hinside, ⟨undo, hcursor⟩, hbuffer, hgoal, hallowance, hrule⟩ := h
  rw [StoredParser.next, hbuffer, TokenReader.next_eq]
  cases parser.reader.buffer with
  | some token => exact ⟨_, rfl, hinside, ⟨undo, hcursor⟩, rfl, hgoal, hallowance, hrule⟩
  | none =>
    obtain ⟨hafter, undo', hnext⟩ := StoredCursor.nextToken_placed hinside address undo
    simp only [hcursor, hnext, Attempt.ok_bind]
    exact ⟨_, rfl, hafter, ⟨undo', rfl⟩, rfl, hgoal, hallowance, hrule⟩

theorem Follows.step_of_running (h : stored.Follows address source parser)
    (hs : parser.step options = .running after) :
    ∃ next, stored.step options = .ok (.ok next) ∧ next.Follows address source after := by
  obtain ⟨passed, hnext, hpassed⟩ := h.next
  simp only [StoredParser.step, hnext, Attempt.ok_bind, h.goal, h.allowance, h.rule,
    Goal.checkedJudge_eq_ok]
  cases Parser.moves_of_step hs with
  | pass ha =>
    rw [ha]
    exact ⟨_, rfl, hpassed.inside, hpassed.cursor, hpassed.buffer, hpassed.goal, rfl, hpassed.rule⟩
  | take ha hj =>
    rw [ha, hj]
    exact ⟨_, rfl, hpassed.inside, hpassed.cursor, hpassed.buffer, rfl, rfl, rfl⟩
  | putBack ha hj =>
    rw [ha, hj]
    -- the token has just been read, so none is held
    have hbuffer : passed.buffer = none := hpassed.buffer.trans parser.reader.buffer_next
    simp only [StoredParser.putBack, hbuffer]
    exact ⟨_, rfl, hpassed.inside, hpassed.cursor, rfl, rfl, rfl, hpassed.rule⟩

theorem Follows.step_of_ended (h : stored.Follows address source parser) {ending : Ending}
    (hs : parser.step options = .ended ending) :
    stored.step options = .ok (.error ending) := by
  obtain ⟨passed, hnext, hpassed⟩ := h.next
  simp only [StoredParser.step, hnext, Attempt.ok_bind, h.goal, h.allowance, h.rule,
    Goal.checkedJudge_eq_ok]
  cases Parser.ends_of_step hs with
  | accept ha hj | reject ha hj =>
    rw [ha, hj]
    rfl

theorem Follows.exists_runFor (h : stored.Follows address source parser)
    (options : ParseOptions) (steps : Nat) :
    ∃ outcome, stored.runFor options steps = .ok outcome := by
  induction steps generalizing stored parser with
  | zero => exact ⟨.ok stored, rfl⟩
  | succ steps ih =>
    rw [runFor]
    cases hs : parser.step options with
    | running after =>
      obtain ⟨next, hnext, hafter⟩ := h.step_of_running hs
      rw [hnext]
      exact ih hafter
    | ended ending =>
      rw [h.step_of_ended hs]
      exact ⟨.error ending, rfl⟩

theorem Follows.exists_runFor_run (h : stored.Follows address source parser)
    (options : ParseOptions) :
    ∃ steps, stored.runFor options steps = .ok (.error (parser.run options)) := by
  fun_induction Parser.run options parser generalizing stored with
  | case1 parser after hstep ih =>
    obtain ⟨next, hnext, hafter⟩ := h.step_of_running hstep
    obtain ⟨steps, hrun⟩ := ih hafter
    refine ⟨steps + 1, ?_⟩
    rw [runFor, hnext]
    exact hrun
  | case2 parser ending hstep =>
    refine ⟨1, ?_⟩
    rw [runFor, h.step_of_ended hstep]
    rfl

end StoredParser

/-- Lexing and parsing a source in memory without a fault. However often the next token is asked
for, the answers are the tokens of the source and then the end of the input. However far a parse
has come, no step had a fault, and it ends as the parser does. -/
theorem checked_runs_have_no_fault (address : Nat) (source : String) :
    (∀ calls, (StoredCursor.ofSource address source).nextTokens calls =
      .ok ((tokenize source).take calls ++
        List.replicate (calls - (tokenize source).length) (.endAt (byteSize source.toList)))) ∧
    ∀ options,
      (∀ steps, ∃ outcome,
        (StoredParser.ofSource address source).runFor options steps = .ok outcome) ∧
      ∃ steps, (StoredParser.ofSource address source).runFor options steps =
        .ok (.error ((Parser.ofSource source).run options)) := by
  have h := StoredParser.follows_ofSource address source
  refine ⟨?_, fun options => ⟨h.exists_runFor options, h.exists_runFor_run options⟩⟩
  intro calls
  have htokens := StoredCursor.nextTokens_placed (lexed_tokenize source) (Position.in_start _)
    address calls none
  rw [Nat.zero_add] at htokens
  exact htokens

end SignatureRules

import SignatureRules.Parser.Goal
import SignatureRules.TokenReader

/-!
Parsing a rule from its source. A step reads one token and either passes over it as trivia or lets
the goal judge it. Each step brings the end of the source nearer or, where a token is put back,
lowers the rank of the goal, so every run ends; what follows the rule is not read.
-/

namespace SignatureRules

structure ParserState where
  goal : Goal
  allowance : Allowance
  rule : Rule

structure Ending where
  result : Except ParseError Rule
  token : Token

namespace ParserState

def fresh (goal : Goal) (rule : Rule) : ParserState := ⟨goal, goal.allowance, rule⟩

section

variable {m : Type → Type} [Monad m] [TokenAccess m]

def judge (options : ParseOptions) (state : ParserState) (token : Token) :
    m (Except Ending ParserState) :=
  match state.allowance.after? token.kind with
  | some allowance => return .ok { state with allowance }
  | none =>
    match state.goal.judge options state.rule token with
    | .take goal rule => return .ok (fresh goal rule)
    | .putBack goal => do
      TokenAccess.putBack token
      return .ok (fresh goal state.rule)
    | .accept => return .error ⟨.ok state.rule, token⟩
    | .reject error => return .error ⟨.error error, token⟩

def step (options : ParseOptions) (state : ParserState) : m (Except Ending ParserState) := do
  let token ← TokenAccess.next
  state.judge options token

end

end ParserState

structure Parser where
  reader : TokenReader
  goal : Goal
  allowance : Allowance
  rule : Rule
deriving DecidableEq, Repr

instance decidableEqResult : DecidableEq (Except ParseError Rule) := fun
  | .ok rule, .ok other => decidable_of_iff (rule = other) ⟨congrArg _, Except.ok.inj⟩
  | .error error, .error other => decidable_of_iff (error = other) ⟨congrArg _, Except.error.inj⟩
  | .ok _, .error _ | .error _, .ok _ => isFalse nofun

inductive Progress
  | running (parser : Parser)
  | ended (ending : Ending)

def Progress.ofStep : Except Ending ParserState × TokenReader → Progress
  | (.ok ⟨goal, allowance, rule⟩, reader) => running ⟨reader, goal, allowance, rule⟩
  | (.error ending, _) => ended ending

namespace Parser

def ofSource (source : String) : Parser where
  reader := .ofSource source
  goal := .ruleWord
  allowance := Goal.ruleWord.allowance
  rule := .empty

def state (parser : Parser) : ParserState := ⟨parser.goal, parser.allowance, parser.rule⟩

def step (options : ParseOptions) (parser : Parser) : Progress :=
  .ofStep ((parser.state.step options : StateM TokenReader _).run parser.reader)

theorem step_eq (options : ParseOptions) (parser : Parser) :
    parser.step options =
      let (token, reader) := parser.reader.next
      match parser.allowance.after? token.kind with
      | some allowance => .running { parser with reader, allowance }
      | none =>
        match parser.goal.judge options parser.rule token with
        | .take goal rule => .running ⟨reader, goal, goal.allowance, rule⟩
        | .putBack goal =>
          .running ⟨reader.putBack token, goal, goal.allowance, parser.rule⟩
        | .accept => .ended ⟨.ok parser.rule, token⟩
        | .reject error => .ended ⟨.error error, token⟩ := by
  change Progress.ofStep ((parser.state.judge options parser.reader.next.1 :
    StateM TokenReader _).run parser.reader.next.2) = _
  simp only [ParserState.judge, state]
  cases ha : parser.allowance.after? parser.reader.next.1.kind with
  | some allowance => rfl
  | none => cases hj : parser.goal.judge options parser.rule parser.reader.next.1 <;> rfl

theorem kind_ne_of_after? {before after : Allowance} {kind : TokenKind}
    (h : before.after? kind = some after) : kind ≠ .endOfInput := by
  rintro rfl
  cases before <;> cases h

inductive Moves (options : ParseOptions) (parser : Parser) : Parser → Prop
  | pass {allowance} : parser.allowance.after? parser.reader.next.1.kind = some allowance →
      Moves options parser { parser with reader := parser.reader.next.2, allowance }
  | take {goal rule} : parser.allowance.after? parser.reader.next.1.kind = none →
      parser.goal.judge options parser.rule parser.reader.next.1 = .take goal rule →
      Moves options parser ⟨parser.reader.next.2, goal, goal.allowance, rule⟩
  | putBack {goal} : parser.allowance.after? parser.reader.next.1.kind = none →
      parser.goal.judge options parser.rule parser.reader.next.1 = .putBack goal →
      Moves options parser
        ⟨parser.reader.next.2.putBack parser.reader.next.1, goal, goal.allowance, parser.rule⟩

inductive Ends (options : ParseOptions) (parser : Parser) : Ending → Prop
  | accept : parser.allowance.after? parser.reader.next.1.kind = none →
      parser.goal.judge options parser.rule parser.reader.next.1 = .accept →
      Ends options parser ⟨.ok parser.rule, parser.reader.next.1⟩
  | reject {error} : parser.allowance.after? parser.reader.next.1.kind = none →
      parser.goal.judge options parser.rule parser.reader.next.1 = .reject error →
      Ends options parser ⟨.error error, parser.reader.next.1⟩

section

variable {options : ParseOptions} {parser after : Parser} {ending : Ending}

theorem moves_of_step (h : parser.step options = .running after) : parser.Moves options after := by
  rw [step_eq] at h
  cases ha : parser.allowance.after? parser.reader.next.1.kind with
  | some allowance =>
    simp only [ha] at h
    cases h
    exact .pass ha
  | none =>
    cases hj : parser.goal.judge options parser.rule parser.reader.next.1 with
    | take goal rule =>
      simp only [ha, hj] at h
      cases h
      exact .take ha hj
    | putBack goal =>
      simp only [ha, hj] at h
      cases h
      exact .putBack ha hj
    | accept | reject => simp only [ha, hj, reduceCtorEq] at h

theorem ends_of_step (h : parser.step options = .ended ending) : parser.Ends options ending := by
  rw [step_eq] at h
  cases ha : parser.allowance.after? parser.reader.next.1.kind with
  | some allowance => simp only [ha, reduceCtorEq] at h
  | none =>
    cases hj : parser.goal.judge options parser.rule parser.reader.next.1 with
    | take | putBack => simp only [ha, hj, reduceCtorEq] at h
    | accept =>
      simp only [ha, hj] at h
      cases h
      exact .accept ha hj
    | reject error =>
      simp only [ha, hj] at h
      cases h
      exact .reject ha hj

end

def size (parser : Parser) : Nat := 3 * parser.reader.size + parser.goal.rank

theorem size_lt_of_step {options : ParseOptions} {parser after : Parser}
    (h : parser.step options = .running after) : after.size < parser.size := by
  cases moves_of_step h with
  | pass ha =>
    have hsize := TokenReader.size_next_lt (kind_ne_of_after? ha)
    simp only [size]
    omega
  | @take goal rule ha hj =>
    have hsize := TokenReader.size_next_lt (Goal.kind_ne_of_judge_take hj)
    have hrank := goal.rank_le_two
    simp only [size]
    omega
  | putBack ha hj =>
    -- the reader may be as far from the end as before, and then the rank decides
    have hsize := TokenReader.size_putBack_next_le parser.reader
    have hrank := Goal.rank_lt_of_judge_putBack hj
    simp only [size]
    omega

def run (options : ParseOptions) (parser : Parser) : Ending :=
  match _ : parser.step options with
  | .running after => after.run options
  | .ended ending => ending
termination_by parser.size
decreasing_by exact size_lt_of_step ‹_›

end Parser

def parse (source : String) (options : ParseOptions) : Except ParseError Rule :=
  ((Parser.ofSource source).run options).result

end SignatureRules

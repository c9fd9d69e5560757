import SignatureRules.ParseError
import SignatureRules.Rule

/-!
The grammar of rules as a table of goals. A goal is what the parser looks for next; `Goal.judge`
says what a token means to it: take the token and go on, put it back and look for something else,
or stop.
-/

namespace SignatureRules

structure ParseOptions where
  skipConditions : Bool := true
deriving DecidableEq, Repr

inductive BodySection
  | metadata
  | strings
  | conditions
  | unknown
deriving DecidableEq, Repr

def BodySection.ofName (name : String) : BodySection :=
  match name.map Char.toLower with
  | "meta" => metadata
  | "strings" => strings
  | "conditions" => conditions
  | _ => unknown

/-- How much whitespace and how many comments may still be passed over before a token is judged:
one whitespace and then one comment, one comment, or none. -/
inductive Allowance
  | blankAndComment
  | comment
  | spent
deriving DecidableEq, Repr

def Allowance.after? : Allowance → TokenKind → Option Allowance
  | blankAndComment, .whitespace => some comment
  | blankAndComment, .comment => some spent
  | comment, .comment => some spent
  | _, _ => none

inductive Goal
  | ruleWord
  | ruleName
  | tagColon
  | tag (colonStart : Nat)
  | openBrace
  | sectionOrEnd
  | sectionName
  | sectionColon (name : String)
  | metadataKey
  | metadataAssign (key : String)
  | metadataValue (key : String)
  | patternName
  | headerColon (name : Token)
  | patternAssign (name : String)
  | patternValue (name : String)
  | skippedCondition (depth : Nat)
  | closeBrace
deriving DecidableEq, Repr

inductive Verdict
  | take (goal : Goal) (rule : Rule)
  | putBack (goal : Goal)
  | accept
  | reject (error : ParseError)
deriving DecidableEq, Repr

namespace Verdict

def wantSymbol (symbol : Symbol) (token : Token) : Verdict :=
  .reject ⟨token.span, .expectedSymbol token.literal symbol⟩

def wantName (role : NameRole) (token : Token) : Verdict :=
  .reject ⟨token.span, .expectedName token.literal role⟩

def wantString (token : Token) : Verdict :=
  .reject ⟨token.span, .expectedString token.literal token.kind⟩

end Verdict

namespace Goal

/-- Every token counts in a skipped condition; elsewhere one whitespace and one comment do not. -/
def allowance : Goal → Allowance
  | skippedCondition _ => .spent
  | _ => .blankAndComment

def ofSection (options : ParseOptions) : BodySection → Goal
  | .metadata => metadataKey
  | .strings => patternName
  | .conditions => if options.skipConditions then skippedCondition 0 else sectionOrEnd
  | .unknown => sectionOrEnd

def judge (options : ParseOptions) (rule : Rule) (token : Token) : Goal → Verdict
  | ruleWord =>
    match token.kind with
    | .ruleWord => .take ruleName rule
    | _ => .wantSymbol .ruleWord token
  | ruleName =>
    match token.kind with
    | .identifier => .take tagColon { rule with name := token.literal }
    | _ => .wantName .rule token
  | tagColon =>
    match token.kind with
    | .colon => .take (tag token.span.start) rule
    | _ => .putBack openBrace
  | tag colonStart =>
    match token.kind with
    | .identifier => .take (tag colonStart) (rule.addTag token.literal)
    | _ => if rule.tags.isEmpty then .reject ⟨⟨colonStart, token.span.stop⟩, .noTags⟩
      else .putBack openBrace
  | openBrace =>
    match token.kind with
    | .openBrace => .take sectionOrEnd rule
    | _ => .wantSymbol .openBrace token
  | sectionOrEnd =>
    match token.kind with
    | .closeBrace | .endOfInput => .putBack closeBrace
    | _ => .putBack sectionName
  | sectionName =>
    match token.kind with
    | .identifier => .take (sectionColon token.literal) rule
    | _ => .wantName .sectionHeader token
  | sectionColon name =>
    match token.kind with
    | .colon => .take (ofSection options (.ofName name)) rule
    | _ => .wantSymbol .colon token
  | metadataKey =>
    match token.kind with
    | .closeBrace | .endOfInput => .putBack sectionOrEnd
    | .identifier => .take (metadataAssign token.literal) rule
    | _ => .wantName .metadataKey token
  | metadataAssign key =>
    match token.kind with
    | .equal => .take (metadataValue key) rule
    | .colon => .take (ofSection options (.ofName key)) rule
    | _ => .wantSymbol .equal token
  | metadataValue key =>
    match token.kind with
    | .quotedString => .take metadataKey (rule.addMetadata key token.literal)
    | _ => .wantString token
  | patternName =>
    match token.kind with
    | .closeBrace | .endOfInput => .putBack sectionOrEnd
    | .variableName => .take (patternAssign token.literal) rule
    | .identifier => .take (headerColon token) rule
    | _ => .wantName .pattern token
  | headerColon name =>
    match token.kind with
    | .colon => .take (ofSection options (.ofName name.literal)) rule
    -- what is wrong is the name, though the token after it has been read by now
    | _ => .wantName .pattern name
  | patternAssign name =>
    match token.kind with
    | .equal => .take (patternValue name) rule
    | _ => .wantSymbol .equal token
  | patternValue name =>
    match token.kind with
    | .quotedString => .take patternName (rule.addPattern name (.ofString token.literal))
    | _ => .wantString token
  | skippedCondition depth =>
    match token.kind, depth with
    | .endOfInput, _ | .closeBrace, 0 => .putBack sectionOrEnd
    | .closeBrace, depth + 1 => .take (skippedCondition depth) rule
    | .openBrace, depth => .take (skippedCondition (depth + 1)) rule
    | _, depth => .take (skippedCondition depth) rule
  | closeBrace =>
    match token.kind with
    | .closeBrace => .accept
    | .endOfInput => .reject ⟨token.span, .unclosedRule⟩
    | _ => .wantSymbol .closeBrace token

/-- How many times a token can be put back before it is judged for good, at most. -/
def rank : Goal → Nat
  | tagColon | tag _ | sectionOrEnd => 1
  | metadataKey | patternName | skippedCondition _ => 2
  | _ => 0

theorem rank_le_two (goal : Goal) : goal.rank ≤ 2 := by
  cases goal <;> simp [rank]

theorem kind_ne_of_judge_take {options : ParseOptions} {rule after : Rule} {token : Token}
    {goal next : Goal} (h : goal.judge options rule token = .take next after) :
    token.kind ≠ .endOfInput := by
  intro he
  cases goal <;>
    simp [judge, he, Verdict.wantSymbol, Verdict.wantName, Verdict.wantString] at h
  split at h <;> cases h

theorem rank_lt_of_judge_putBack {options : ParseOptions} {rule : Rule} {token : Token}
    {goal next : Goal} (h : goal.judge options rule token = .putBack next) :
    next.rank < goal.rank := by
  cases goal <;>
    simp only [judge, Verdict.wantSymbol, Verdict.wantName, Verdict.wantString] at h <;>
    split at h <;> (try split at h) <;> cases h <;> simp [rank]

end Goal

end SignatureRules

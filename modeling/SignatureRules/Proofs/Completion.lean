import SignatureRules.Proofs.AcceptedRules
import SignatureRules.Proofs.Retokenization

namespace SignatureRules

def Goal.completion : Goal → List Char
  | ruleWord => ['r', 'u', 'l', 'e', ' ', 'a', '\x7b', '\x7d']
  | ruleName | tag _ => ['a', '\x7b', '\x7d']
  | tagColon | openBrace => ['\x7b', '\x7d']
  | sectionName => ['a', ':', '\x7d']
  | sectionColon _ | headerColon _ => [':', '\x7d']
  | metadataAssign _ | patternAssign _ => ['=', '"', '"', '\x7d']
  | metadataValue _ | patternValue _ => ['"', '"', '\x7d']
  | skippedCondition depth => List.replicate (depth + 1) '\x7d'
  | sectionOrEnd | metadataKey | patternName | closeBrace => ['\x7d']

namespace ParserState

/-- A text that completes a rule. An empty comment keeps it apart from the token before it, unless
comments count or none may be passed over any more. -/
def completion (state : ParserState) : List Char :=
  if state.goal.allowance = .spent ∨ state.allowance = .spent then state.goal.completion
  else ['/', '*', '*', '/'] ++ state.goal.completion

def Completes (options : ParseOptions) (state : ParserState) (text : List Char) : Prop :=
  ∀ n, ∃ tokens rule, Lexed ⟨n, text⟩ tokens ∧ state.Accepts options tokens rule

variable {options : ParseOptions} {state next : ParserState} {rule after : Rule} {goal : Goal}
  {allowance : Allowance} {token : Token} {kind : TokenKind}
  {literal lexeme following : List Char}

theorem Completes.of_respond (hl : IsLexeme kind literal lexeme following)
    (hr : ∀ span, state.respond options ⟨kind, .ofList literal, span⟩ = .ok next)
    (h : next.Completes options following) : state.Completes options (lexeme ++ following) := by
  intro n
  obtain ⟨tokens, result, hlexed, last, hlast⟩ := h (n + byteSize lexeme)
  exact ⟨_, result, .cons hl hlexed, last, (consume_cons_of_ok (hr _)).trans hlast⟩

theorem Completes.of_take {wanted : Goal} (hl : IsLexeme kind literal lexeme following)
    (ht : kind.isTrivia = false)
    (hj : ∀ span, goal.judge options rule ⟨kind, .ofList literal, span⟩ = .take wanted after)
    (h : (fresh wanted after).Completes options following) :
    Completes options ⟨goal, allowance, rule⟩ (lexeme ++ following) :=
  .of_respond hl (fun span => respond_of_take (after?_of_not_trivia ht) (hj span)) h

theorem Completes.of_mark {c : Char} {wanted : Goal} (hm : kind.mark? = some c)
    (hj : ∀ span, goal.judge options rule ⟨kind, .ofList [c], span⟩ = .take wanted after)
    (h : (fresh wanted after).Completes options following) :
    Completes options ⟨goal, allowance, rule⟩ (c :: following) := by
  have ht : kind.isTrivia = false := by
    cases kind <;> first | rfl | cases hm
  exact .of_take (.punctuation hm) ht hj h

theorem Completes.of_name {wanted : Goal} (hs : Stops isWordChar following)
    (hj : ∀ span, goal.judge options rule ⟨.identifier, .ofList ['a'], span⟩ = .take wanted after)
    (h : (fresh wanted after).Completes options following) :
    Completes options ⟨goal, allowance, rule⟩ ('a' :: following) := by
  have hword : IsWord ['a'] := ⟨rfl, by simp⟩
  have hkind (kind : TokenKind) : kind.reservedWord? ≠ some (['a'].map Char.toLower) := by
    cases kind <;> decide
  exact .of_take (.identifier hword hs hkind) rfl hj h

theorem Completes.of_emptyString {wanted : Goal}
    (hj : ∀ span, goal.judge options rule ⟨.quotedString, .ofList [], span⟩ = .take wanted after)
    (h : (fresh wanted after).Completes options following) :
    Completes options ⟨goal, allowance, rule⟩ ('"' :: '"' :: following) :=
  .of_take (.quotedString (escapedAfter_nil none) (by simp)) rfl hj h

theorem respond_end (hk : token.kind = .closeBrace) (hg : goal.completion = ['\x7d']) :
    respond options token ⟨goal, allowance, rule⟩ = .error ⟨.ok rule, token⟩ := by
  have ht : token.kind.isTrivia = false := by
    rw [hk]
    rfl
  rw [@respond_allowance _ _ _ _ _ goal.allowance ht]
  cases goal with
  | sectionOrEnd => exact respond_close hk
  | closeBrace => exact respond_of_accept (after?_of_not_trivia ht) (by simp [Goal.judge, hk])
  | metadataKey => exact respond_close_of_putBack hk (by simp [Goal.judge, hk])
  | patternName => exact respond_close_of_putBack hk (by simp [Goal.judge, hk])
  | skippedCondition depth =>
    cases depth with
    | zero => exact respond_close_of_putBack hk (by simp [Goal.judge, hk])
    | succ depth => simp [Goal.completion, List.replicate_succ] at hg
  | _ => simp [Goal.completion] at hg

theorem completes_end (hg : goal.completion = ['\x7d']) :
    Completes options ⟨goal, allowance, rule⟩ ['\x7d'] := by
  intro n
  have hl : IsLexeme .closeBrace ['\x7d'] ['\x7d'] [] := .punctuation rfl
  exact ⟨_, rule, .cons hl .done, _, consume_cons_of_error (respond_end rfl hg)⟩

theorem completes_ofSection (part : BodySection) :
    (fresh (.ofSection options part) rule).Completes options ['\x7d'] := by
  apply completes_end
  cases part with
  | conditions =>
    rw [Goal.ofSection]
    split <;> rfl
  | _ => rfl

theorem completes_skipped (depth : Nat) :
    Completes options ⟨.skippedCondition depth, allowance, rule⟩
      (List.replicate (depth + 1) '\x7d') := by
  induction depth generalizing allowance with
  | zero => exact completes_end rfl
  | succ depth ih =>
    have hm : TokenKind.closeBrace.mark? = some '\x7d' := rfl
    rw [List.replicate_succ]
    exact .of_mark hm (fun _ => rfl) ih

theorem completes_openBrace :
    Completes options ⟨.openBrace, allowance, rule⟩ ['\x7b', '\x7d'] := by
  have hm : TokenKind.openBrace.mark? = some '\x7b' := rfl
  exact .of_mark hm (fun _ => rfl) (completes_end rfl)

theorem completes_openBrace_of_putBack
    (hj : ∀ token : Token, token.kind = .openBrace →
      goal.judge options rule token = .putBack .openBrace) :
    Completes options ⟨goal, allowance, rule⟩ ['\x7b', '\x7d'] := by
  have hl : IsLexeme .openBrace ['\x7b'] ['\x7b'] ['\x7d'] := .punctuation rfl
  have hend : (fresh .sectionOrEnd rule).Completes options ['\x7d'] := completes_end rfl
  refine .of_respond hl (fun span => ?_) hend
  rw [respond_of_putBack (after?_of_not_trivia rfl) (hj _ rfl)]
  exact respond_of_take (after?_of_not_trivia rfl) rfl

theorem completes_ruleName :
    Completes options ⟨.ruleName, allowance, rule⟩ ['a', '\x7b', '\x7d'] := by
  have hbraces : (fresh .tagColon { rule with name := .ofList ['a'] }).Completes options
      ['\x7b', '\x7d'] :=
    completes_openBrace_of_putBack fun token hk => by simp [Goal.judge, hk]
  exact .of_name (stops_cons.mpr rfl) (fun _ => rfl) hbraces

theorem completes_ruleWord : Completes options ⟨.ruleWord, allowance, rule⟩
    ['r', 'u', 'l', 'e', ' ', 'a', '\x7b', '\x7d'] := by
  have hblank : IsLexeme .whitespace [' '] [' '] ['a', '\x7b', '\x7d'] :=
    .whitespace (by simp) (by simp [isBlank]) (stops_cons.mpr rfl)
  have hname : (fresh .ruleName rule).Completes options [' ', 'a', '\x7b', '\x7d'] :=
    .of_respond hblank (fun _ => respond_of_after? rfl) completes_ruleName
  have hword : IsWord ['r', 'u', 'l', 'e'] := ⟨rfl, List.all_eq_true.mp rfl⟩
  have hl : IsLexeme .ruleWord ['r', 'u', 'l', 'e'] ['r', 'u', 'l', 'e']
      [' ', 'a', '\x7b', '\x7d'] := .keyword hword (stops_cons.mpr rfl) rfl
  exact .of_take hl rfl (fun _ => rfl) hname

theorem completes_tag {colonStart : Nat} :
    Completes options ⟨.tag colonStart, allowance, rule⟩ ['a', '\x7b', '\x7d'] := by
  have hbraces : (fresh (.tag colonStart) (rule.addTag (.ofList ['a']))).Completes options
      ['\x7b', '\x7d'] :=
    completes_openBrace_of_putBack fun token hk => by simp [Goal.judge, hk, Rule.addTag]
  exact .of_name (stops_cons.mpr rfl) (fun _ => rfl) hbraces

theorem completes_metadataValue {key : String} :
    Completes options ⟨.metadataValue key, allowance, rule⟩ ['"', '"', '\x7d'] := by
  have hend : Completes options (fresh .metadataKey (rule.addMetadata key (.ofList [])))
      ['\x7d'] := completes_end rfl
  exact .of_emptyString (fun _ => rfl) hend

theorem completes_patternValue {name : String} :
    Completes options ⟨.patternValue name, allowance, rule⟩ ['"', '"', '\x7d'] := by
  have hend : Completes options
      (fresh .patternName (rule.addPattern name (.ofString (.ofList [])))) ['\x7d'] :=
    completes_end rfl
  exact .of_emptyString (fun _ => rfl) hend

theorem completes_goal (goal : Goal) (allowance : Allowance) (rule : Rule) :
    Completes options ⟨goal, allowance, rule⟩ goal.completion := by
  have hcolon : TokenKind.colon.mark? = some ':' := rfl
  have hequal : TokenKind.equal.mark? = some '=' := rfl
  cases goal with
  | ruleWord => exact completes_ruleWord
  | ruleName => exact completes_ruleName
  | tagColon => exact completes_openBrace_of_putBack fun token hk => by simp [Goal.judge, hk]
  | tag colonStart => exact completes_tag
  | openBrace => exact completes_openBrace
  | sectionName =>
    have hsection : (fresh (.sectionColon (.ofList ['a'])) rule).Completes options [':', '\x7d'] :=
      .of_mark hcolon (fun _ => rfl) (completes_ofSection _)
    exact .of_name (stops_cons.mpr rfl) (fun _ => rfl) hsection
  | sectionColon name => exact .of_mark hcolon (fun _ => rfl) (completes_ofSection _)
  | headerColon name => exact .of_mark hcolon (fun _ => rfl) (completes_ofSection _)
  | metadataAssign key => exact .of_mark hequal (fun _ => rfl) completes_metadataValue
  | metadataValue key => exact completes_metadataValue
  | patternAssign name => exact .of_mark hequal (fun _ => rfl) completes_patternValue
  | patternValue name => exact completes_patternValue
  | skippedCondition depth => exact completes_skipped depth
  | sectionOrEnd => exact completes_end rfl
  | metadataKey => exact completes_end rfl
  | patternName => exact completes_end rfl
  | closeBrace => exact completes_end rfl

theorem completes_completion (state : ParserState) :
    state.Completes options state.completion := by
  obtain ⟨goal, allowance, rule⟩ := state
  rw [completion]
  split
  · exact completes_goal goal allowance rule
  · rename_i h
    have hl : IsLexeme .comment [] ['/', '*', '*', '/'] goal.completion :=
      .blockComment (by simp)
    refine .of_respond hl (fun span => ?_) (completes_goal goal .spent rule)
    cases allowance with
    | spent => exact absurd (.inr rfl) h
    | _ => exact respond_of_after? rfl

end ParserState

end SignatureRules

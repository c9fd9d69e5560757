import Mathlib.Data.List.Forall2
import SignatureRules.Proofs.ParserRun

/-! What whitespace and comments say does not matter. Two sources whose tokens differ in nothing
else are parsed step by step alike. -/

namespace SignatureRules

structure Token.Alike (token other : Token) : Prop where
  kind : token.kind = other.kind
  literal : token.kind.isTrivia = false → token.literal = other.literal

def SyntaxFault.withFound (found : String) : SyntaxFault → SyntaxFault
  | expectedSymbol _ symbol => expectedSymbol found symbol
  | expectedName _ role => expectedName found role
  | expectedString _ kind => expectedString found kind
  | noTags => noTags
  | unclosedRule => unclosedRule

/-- The errors are about the tokens of the two pairs and all between them, and they have the same
fault. What they have found may differ if it is trivia. -/
structure ParseError.Mirrors (error other : ParseError) (first last : Token × Token) : Prop where
  span : error.span = ⟨first.1.span.start, last.1.span.stop⟩
  other_span : other.span = ⟨first.2.span.start, last.2.span.stop⟩
  expectation : error.fault.withFound "" = other.fault.withFound ""
  found : first.1.kind.isTrivia = false → error.fault = other.fault
  single : error.fault ≠ .noTags → first = last

inductive SameOutcome (pairs : List (Token × Token)) :
    Except ParseError Rule → Except ParseError Rule → Prop
  | accepted {rule} : SameOutcome pairs (.ok rule) (.ok rule)
  | rejected {error other first last} : first ∈ pairs → last ∈ pairs →
      ParseError.Mirrors error other first last → SameOutcome pairs (.error error) (.error other)

/-- A place in the source, which two runs remember as two places. -/
def Goal.remembers : Goal → Bool
  | tag _ | headerColon _ => true
  | _ => false

inductive Goal.Mirrors (pairs : List (Token × Token)) : Goal → Goal → Prop
  | same {goal} : goal.remembers = false → Mirrors pairs goal goal
  | tag {colon} : colon ∈ pairs → Mirrors pairs (.tag colon.1.span.start) (.tag colon.2.span.start)
  | headerColon {name} : name ∈ pairs → name.1.literal = name.2.literal →
      Mirrors pairs (.headerColon name.1) (.headerColon name.2)

inductive Verdict.Mirrors (pairs : List (Token × Token)) : Verdict → Verdict → Prop
  | take {next next' rule} : Goal.Mirrors pairs next next' →
      Mirrors pairs (.take next rule) (.take next' rule)
  | putBack {next} : next.remembers = false → Mirrors pairs (.putBack next) (.putBack next)
  | accept : Mirrors pairs .accept .accept
  | reject {error other first last} : first ∈ pairs → last ∈ pairs →
      ParseError.Mirrors error other first last → Mirrors pairs (.reject error) (.reject other)

variable {options : ParseOptions} {rule : Rule} {goal goal' : Goal} {token other : Token}
  {pairs front : List (Token × Token)}

namespace Goal

theorem Mirrors.allowance_eq (h : goal.Mirrors pairs goal') : goal.allowance = goal'.allowance := by
  cases h <;> rfl

theorem mirrors_ofSection (part : BodySection) :
    (ofSection options part).Mirrors pairs (ofSection options part) := by
  apply Mirrors.same
  cases part with
  | conditions =>
    rw [ofSection]
    split <;> rfl
  | _ => rfl

end Goal

namespace Verdict

theorem mirrors_wantSymbol (hm : (token, other) ∈ pairs) (h : token.Alike other)
    (symbol : Symbol) : Mirrors pairs (wantSymbol symbol token) (wantSymbol symbol other) :=
  .reject hm hm ⟨rfl, rfl, rfl, fun ht => by rw [h.literal ht], fun _ => rfl⟩

theorem mirrors_wantName (hm : (token, other) ∈ pairs)
    (h : token.kind.isTrivia = false → token.literal = other.literal)
    (role : NameRole) : Mirrors pairs (wantName role token) (wantName role other) :=
  .reject hm hm ⟨rfl, rfl, rfl, fun ht => by rw [h ht], fun _ => rfl⟩

theorem mirrors_wantString (hm : (token, other) ∈ pairs) (h : token.Alike other) :
    Mirrors pairs (wantString token) (wantString other) := by
  refine .reject hm hm ⟨rfl, rfl, ?_, fun ht => ?_, fun _ => rfl⟩
  · simp only [SyntaxFault.withFound, h.kind]
  · rw [h.literal ht, h.kind]

end Verdict

theorem Goal.Mirrors.judge (hg : goal.Mirrors pairs goal') (hm : (token, other) ∈ pairs)
    (h : token.Alike other) (options : ParseOptions) (rule : Rule) :
    (goal.judge options rule token).Mirrors pairs (goal'.judge options rule other) := by
  obtain ⟨kind, literal, span⟩ := token
  obtain ⟨kind', literal', span'⟩ := other
  obtain rfl : kind = kind' := h.kind
  have hliteral : kind.isTrivia = false → literal = literal' := h.literal
  cases hg with
  | @tag colon hcolon =>
    cases kind with
    | identifier =>
      obtain rfl := hliteral rfl
      exact .take (.tag hcolon)
    | _ =>
      simp only [Goal.judge]
      split
      · exact .reject hcolon hm ⟨rfl, rfl, rfl, fun _ => rfl, fun hn => absurd rfl hn⟩
      · exact .putBack rfl
  | @headerColon name hname hsame =>
    cases kind with
    | colon =>
      simp only [Goal.judge, hsame]
      exact .take (mirrors_ofSection _)
    | _ => exact Verdict.mirrors_wantName hname (fun _ => hsame) .pattern
  | same hr =>
    cases goal with
    | tag | headerColon => cases hr
    | ruleWord | openBrace | patternAssign =>
      cases kind <;> first | exact .take (.same rfl) | exact Verdict.mirrors_wantSymbol hm h _
    | sectionColon name =>
      cases kind <;> first
        | exact .take (mirrors_ofSection _)
        | exact Verdict.mirrors_wantSymbol hm h _
    | metadataAssign key =>
      cases kind <;> first
        | exact .take (.same rfl)
        | exact .take (mirrors_ofSection _)
        | exact Verdict.mirrors_wantSymbol hm h _
    | ruleName | sectionName =>
      cases kind <;> first
        | (obtain rfl := hliteral rfl; exact .take (.same rfl))
        | exact Verdict.mirrors_wantName hm hliteral _
    | metadataValue | patternValue =>
      cases kind <;> first
        | (obtain rfl := hliteral rfl; exact .take (.same rfl))
        | exact Verdict.mirrors_wantString hm h
    | tagColon =>
      cases kind <;> first
        | exact .take (.tag hm)
        | exact .putBack rfl
    | sectionOrEnd => cases kind <;> exact .putBack rfl
    | metadataKey =>
      cases kind <;> first
        | exact .putBack rfl
        | (obtain rfl := hliteral rfl; exact .take (.same rfl))
        | exact Verdict.mirrors_wantName hm hliteral _
    | patternName =>
      cases kind <;> first
        | exact .putBack rfl
        | (obtain rfl := hliteral rfl; exact .take (.same rfl))
        | exact .take (.headerColon hm (hliteral rfl))
        | exact Verdict.mirrors_wantName hm hliteral _
    | skippedCondition depth =>
      cases kind <;> cases depth <;> first
        | exact .putBack rfl
        | exact .take (.same rfl)
    | closeBrace =>
      cases kind with
      | closeBrace => exact .accept
      | endOfInput => exact .reject hm hm ⟨rfl, rfl, rfl, fun _ => rfl, fun _ => rfl⟩
      | _ => exact Verdict.mirrors_wantSymbol hm h _

namespace ParserState

structure Mirrors (pairs : List (Token × Token)) (state other : ParserState) : Prop where
  goal : state.goal.Mirrors pairs other.goal
  allowance : state.allowance = other.allowance
  rule : state.rule = other.rule

inductive RunsMirror (pairs : List (Token × Token)) :
    Except Ending ParserState → Except Ending ParserState → Prop
  | running {state other} : Mirrors pairs state other → RunsMirror pairs (.ok state) (.ok other)
  | ended {ending other} : SameOutcome pairs ending.result other.result →
      RunsMirror pairs (.error ending) (.error other)

variable {state state' : ParserState}

theorem mirrors_fresh (h : goal.Mirrors pairs goal') :
    Mirrors pairs (fresh goal rule) (fresh goal' rule) :=
  ⟨h, h.allowance_eq, rfl⟩

theorem Mirrors.after?_eq (hs : state.Mirrors pairs state') (h : token.Alike other) :
    state.allowance.after? token.kind = state'.allowance.after? other.kind := by
  rw [hs.allowance, h.kind]

theorem Mirrors.exists_judge {verdict : Verdict} (hs : state.Mirrors pairs state')
    (hm : (token, other) ∈ pairs) (h : token.Alike other)
    (hj : state.goal.judge options state.rule token = verdict) :
    ∃ verdict', state'.goal.judge options state'.rule other = verdict' ∧
      verdict.Mirrors pairs verdict' := by
  refine ⟨_, rfl, ?_⟩
  rw [← hj, ← hs.rule]
  exact hs.goal.judge hm h options state.rule

theorem Mirrors.respond (hs : state.Mirrors pairs state') (hm : (token, other) ∈ pairs)
    (h : token.Alike other) :
    RunsMirror pairs (state.respond options token) (state'.respond options other) := by
  fun_induction ParserState.respond options token state generalizing state' with
  | case1 state allowance ha =>
    rw [hs.after?_eq h] at ha
    rw [respond_of_after? ha]
    exact .running ⟨hs.goal, rfl, hs.rule⟩
  | case2 state ha goal rule hj =>
    rw [hs.after?_eq h] at ha
    obtain ⟨_, hj', hv⟩ := hs.exists_judge hm h hj
    cases hv with
    | take hgoal =>
      rw [respond_of_take ha hj']
      exact .running (mirrors_fresh hgoal)
  | case3 state ha goal hj ih =>
    rw [hs.after?_eq h] at ha
    obtain ⟨_, hj', hv⟩ := hs.exists_judge hm h hj
    cases hv with
    | putBack hgoal =>
      rw [respond_of_putBack ha hj', ← hs.rule]
      exact ih (mirrors_fresh (.same hgoal))
  | case4 state ha hj =>
    rw [hs.after?_eq h] at ha
    obtain ⟨_, hj', hv⟩ := hs.exists_judge hm h hj
    cases hv with
    | accept =>
      rw [respond_of_accept ha hj', hs.rule]
      exact .ended .accepted
  | case5 state ha error hj =>
    rw [hs.after?_eq h] at ha
    obtain ⟨_, hj', hv⟩ := hs.exists_judge hm h hj
    cases hv with
    | reject hfirst hlast hmirrors =>
      rw [respond_of_reject ha hj']
      exact .ended (.rejected hfirst hlast hmirrors)

theorem Mirrors.consume (hs : state.Mirrors pairs state')
    (hp : ∀ pair ∈ front, pair ∈ pairs ∧ pair.1.Alike pair.2) :
    RunsMirror pairs (state.consume options (front.map Prod.fst))
      (state'.consume options (front.map Prod.snd)) := by
  induction front generalizing state state' with
  | nil => exact .running hs
  | cons pair front ih =>
    obtain ⟨⟨hm, h⟩, hp⟩ := List.forall_mem_cons.mp hp
    have hr : RunsMirror pairs (state.respond options pair.1) (state'.respond options pair.2) :=
      hs.respond hm h
    rw [List.map_cons, List.map_cons, ParserState.consume, ParserState.consume]
    generalize state.respond options pair.1 = outcome at hr ⊢
    generalize state'.respond options pair.2 = outcome' at hr ⊢
    cases hr with
    | running hnext => exact ih hnext hp
    | ended houtcome => exact .ended houtcome

end ParserState

theorem parse_sameOutcome {source other : String}
    (h : List.Forall₂ Token.Alike (tokenize source) (tokenize other)) (options : ParseOptions) :
    SameOutcome ((tokenize source).zip (tokenize other)) (parse source options)
      (parse other options) := by
  obtain ⟨hlength, halike⟩ := List.forall₂_iff_zip.mp h
  obtain ⟨last, hc⟩ := consume_tokenize source options
  obtain ⟨last', hc'⟩ := consume_tokenize other options
  have hstart : ParserState.start.Mirrors ((tokenize source).zip (tokenize other)) .start :=
    ⟨.same rfl, rfl, rfl⟩
  have hruns := @ParserState.Mirrors.consume options _ ((tokenize source).zip (tokenize other))
    _ _ hstart fun pair hm => ⟨hm, halike hm⟩
  rw [List.map_fst_zip (Nat.le_of_eq hlength), List.map_snd_zip (Nat.le_of_eq hlength.symm), hc,
    hc'] at hruns
  cases hruns with
  | ended houtcome => exact houtcome

theorem parse_sameOutcome_blank_for_name :
    List.Forall₂ Token.Alike (tokenize "rule/*\x7d*/ b") (tokenize "rule/**/\t\tb") ∧
      SameOutcome ((tokenize "rule/*\x7d*/ b").zip (tokenize "rule/**/\t\tb"))
        (.error ⟨⟨9, 10⟩, .expectedName " " .rule⟩)
        (.error ⟨⟨8, 10⟩, .expectedName "\t\t" .rule⟩) := by
  have htokens : tokenize "rule/*\x7d*/ b" =
      [⟨.ruleWord, "rule", ⟨0, 4⟩⟩, ⟨.comment, "\x7d", ⟨4, 9⟩⟩, ⟨.whitespace, " ", ⟨9, 10⟩⟩,
        ⟨.identifier, "b", ⟨10, 11⟩⟩, .endAt 11] := by decide +kernel
  have htokens' : tokenize "rule/**/\t\tb" =
      [⟨.ruleWord, "rule", ⟨0, 4⟩⟩, ⟨.comment, "", ⟨4, 8⟩⟩, ⟨.whitespace, "\t\t", ⟨8, 10⟩⟩,
        ⟨.identifier, "b", ⟨10, 11⟩⟩, .endAt 11] := by decide +kernel
  have h : List.Forall₂ Token.Alike (tokenize "rule/*\x7d*/ b") (tokenize "rule/**/\t\tb") := by
    rw [htokens, htokens']
    exact .cons ⟨rfl, by decide⟩ (.cons ⟨rfl, by decide⟩ (.cons ⟨rfl, by decide⟩
      (.cons ⟨rfl, by decide⟩ (.cons ⟨rfl, by decide⟩ .nil))))
  have hparse : parse "rule/*\x7d*/ b" ⟨true⟩ =
      .error ⟨⟨9, 10⟩, .expectedName " " .rule⟩ := by decide +kernel
  have hparse' : parse "rule/**/\t\tb" ⟨true⟩ =
      .error ⟨⟨8, 10⟩, .expectedName "\t\t" .rule⟩ := by decide +kernel
  have hall := parse_sameOutcome h ⟨true⟩
  rw [hparse, hparse'] at hall
  exact ⟨h, hall⟩

end SignatureRules

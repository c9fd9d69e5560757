import SignatureRules.Proofs.ConditionSettings
import SignatureRules.Proofs.ReaderLedger
import SignatureRules.Proofs.TokenBoundaries

namespace SignatureRules

/-- The brace is the first that closes none of the braces opened after the header. -/
structure Exceeds (inside : List Token) (close : Token) : Prop where
  never_before : ∀ front, front <+: inside → closings front ≤ openings front
  here : openings (inside ++ [close]) < closings (inside ++ [close])

variable {options : ParseOptions} {rule : Rule} {depth : Nat} {token close : Token}
  {tokens inside back : List Token}

theorem Exceeds.kind_eq (h : Exceeds inside close) : close.kind = .closeBrace := by
  apply Decidable.byContradiction
  intro hk
  have hhere := h.here
  have hbefore := h.never_before inside List.prefix_rfl
  rw [openings_append, closings_append, openings_cons, closings_cons, if_neg hk,
    closings_nil] at hhere
  omega

theorem Exceeds.balanced (h : Exceeds inside close) : Balanced inside := by
  have hhere := h.here
  have hbefore := h.never_before inside List.prefix_rfl
  rw [openings_append, closings_append, openings_cons, closings_cons, if_pos h.kind_eq, h.kind_eq,
    if_neg (by decide), openings_nil, closings_nil] at hhere
  refine ⟨fun front hf => ?_, ?_⟩
  · have hfront := h.never_before front hf
    omega
  · omega

theorem exceeds_of_balanced (h : Balanced inside) (hk : close.kind = .closeBrace) :
    Exceeds inside close := by
  refine ⟨fun front hf => ?_, ?_⟩
  · have hfront := h.never_below front hf
    omega
  · have hlevel := h.level
    rw [openings_append, closings_append, openings_cons, closings_cons, if_pos hk, hk,
      if_neg (by decide), openings_nil, closings_nil]
    omega

namespace ParserState

theorem respond_unclosed (n : Nat) :
    (fresh (.skippedCondition depth) rule).respond options (.endAt n) =
      .error ⟨.error ⟨⟨n, n⟩, .unclosedRule⟩, .endAt n⟩ := by
  have ha (allowance : Allowance) : allowance.after? (Token.endAt n).kind = none :=
    after?_of_not_trivia rfl
  have hj : (Goal.skippedCondition depth).judge options rule (.endAt n) =
      .putBack .sectionOrEnd := by
    cases depth <;> rfl
  have hj' : Goal.sectionOrEnd.judge options rule (.endAt n) = .putBack .closeBrace := rfl
  exact (respond_of_putBack (ha _) hj).trans
    ((respond_of_putBack (ha _) hj').trans (respond_of_reject (ha _) rfl))

theorem closes_or_consume_unclosed (he : ∀ token ∈ tokens, token.kind ≠ .endOfInput) (n : Nat) :
    (∃ inside close rest, tokens = inside ++ close :: rest ∧ Closes depth inside ∧
      close.kind = .closeBrace) ∨
    (fresh (.skippedCondition depth) rule).consume options (tokens ++ [.endAt n]) =
      .error ⟨.error ⟨⟨n, n⟩, .unclosedRule⟩, .endAt n⟩ := by
  induction tokens generalizing depth with
  | nil => exact .inr (consume_cons_of_error (respond_unclosed n))
  | cons token tokens ih =>
    obtain ⟨htoken, he⟩ := List.forall_mem_cons.mp he
    by_cases hz : token.kind = .closeBrace ∧ depth = 0
    · obtain ⟨hk, rfl⟩ := hz
      exact .inl ⟨[], token, tokens, rfl, closes_nil_iff.mpr rfl, hk⟩
    · obtain ⟨left, hleft⟩ := exists_depth_after hz
      rcases @ih left he with ⟨inside, close, rest, rfl, hinside, hk⟩ | hrun
      · exact .inl ⟨token :: inside, close, rest, rfl,
          closes_cons_iff.mpr ⟨left, hleft, hinside⟩, hk⟩
      · exact .inr ((consume_skipped htoken hleft).trans hrun)

end ParserState

namespace Parser

variable {source : String} {parser last : Parser}

theorem Reaches.run_eq (h : parser.Reaches options last) :
    parser.run options = last.run options := by
  induction h using Relation.ReflTransGen.head_induction_on with
  | refl => rfl
  | @head parser after hstep _ ih =>
    rw [run]
    split
    · rename_i found hfound
      cases hstep.symm.trans hfound
      exact ih
    · rename_i hended
      cases hstep.symm.trans hended

theorem Reaches.exists_supplies (h : (ofSource source).Reaches options parser) :
    ∃ front back, tokenize source = front ++ back ∧ parser.reader.Supplies back := by
  induction h with
  | refl => exact ⟨[], _, rfl, .unread (lexed_tokenize source)⟩
  | @tail parser after _ hstep ih =>
    obtain ⟨front, _, htokens, hsupplies⟩ := ih
    obtain ⟨rest, rfl, hrest, hback⟩ := hsupplies.next
    rcases reader_of_step hstep with ⟨hr, hk⟩ | hr
    · exact ⟨front ++ [parser.reader.next.1], rest, by simp [htokens], hr ▸ hrest hk⟩
    · exact ⟨front, _, htokens, hr ▸ hback⟩

def AtConditions (parser : Parser) : Prop :=
  ∃ name, parser.goal.headerName? = some name ∧ SameLetters name "conditions"

def afterSteps? (options : ParseOptions) : Nat → Parser → Option Parser
  | 0, parser => some parser
  | steps + 1, parser =>
    match parser.step options with
    | .running after => after.afterSteps? options steps
    | .ended _ => none

theorem reaches_of_afterSteps? {steps : Nat} (h : parser.afterSteps? options steps = some last) :
    parser.Reaches options last := by
  induction steps generalizing parser with
  | zero =>
    cases h
    exact .refl
  | succ steps ih =>
    rw [afterSteps?] at h
    split at h
    · rename_i after hstep
      exact .head hstep (ih h)
    · cases h

theorem exists_atConditions {steps : Nat} {name : String}
    (h : (parser.afterSteps? options steps).map (fun last => (last.goal.headerName?,
      last.reader.next.1)) = some (some name, token)) (hn : SameLetters name "conditions") :
    ∃ last, parser.Reaches options last ∧ last.AtConditions ∧ last.reader.next.1 = token := by
  obtain ⟨last, hlast, hmap⟩ := Option.map_eq_some_iff.mp h
  obtain ⟨hgoal, htoken⟩ := Prod.mk.inj hmap
  exact ⟨last, reaches_of_afterSteps? hlast, ⟨name, hgoal, hn⟩, htoken⟩

end Parser

theorem Goal.judge_conditions {goal : Goal} {name : String} (hg : goal.headerName? = some name)
    (hn : SameLetters name "conditions") (hk : token.kind = .colon) :
    goal.judge ⟨true⟩ rule token = .take (.skippedCondition 0) rule := by
  have hpart : BodySection.ofName name = .conditions := BodySection.named_iff.mp hn
  cases goal with
  | sectionColon | metadataAssign | headerColon =>
    cases hg
    simp [judge, hk, hpart, ofSection]
  | _ => cases hg

theorem exists_ended {source : String} {front : List Token}
    (h : tokenize source = front ++ token :: back) (hk : token.kind ≠ .endOfInput) :
    ∃ rest, back = rest ++ [.endAt source.utf8ByteSize] ∧
      ∀ other ∈ rest, other.kind ≠ .endOfInput := by
  obtain ⟨body, htokens, hkinds, -, -⟩ :=
    (lexed_tokenize source).exists_body (show source.toList = [] ++ source.toList from rfl) rfl
  rw [byteSize_toList, h] at htokens
  rcases back.eq_nil_or_concat with rfl | ⟨rest, last, rfl⟩
  · obtain ⟨-, hlast⟩ := List.append_inj' htokens rfl
    cases hlast
    exact absurd rfl hk
  · rw [List.concat_eq_append, ← List.cons_append, ← List.append_assoc] at htokens
    obtain ⟨rfl, hlast⟩ := List.append_inj' htokens rfl
    cases hlast
    refine ⟨rest, List.concat_eq_append, fun other ho => hkinds other ?_⟩
    simp [ho]

theorem run_from_conditions {source : String} {parser : Parser}
    (h : (Parser.ofSource source).Reaches ⟨true⟩ parser) (hc : parser.AtConditions)
    (hk : parser.reader.next.1.kind = .colon) :
    ∃ front back, tokenize source = front ++ parser.reader.next.1 :: back ∧
      (∀ inside close rest, back = inside ++ close :: rest → Exceeds inside close →
        parse source ⟨true⟩ = .ok parser.rule ∧
          ((Parser.ofSource source).run ⟨true⟩).token = close) ∧
      ((∀ inside close rest, back = inside ++ close :: rest → ¬ Exceeds inside close) →
        parse source ⟨true⟩ =
          .error ⟨⟨source.utf8ByteSize, source.utf8ByteSize⟩, .unclosedRule⟩) := by
  obtain ⟨front, _, htokens, hsupplies⟩ := h.exists_supplies
  obtain ⟨back, rfl, -, -⟩ := hsupplies.next
  obtain ⟨name, hgoal, hname⟩ := hc
  have hrun : (ParserState.fresh (.skippedCondition 0) parser.rule).consume ⟨true⟩ back =
      .error ((Parser.ofSource source).run ⟨true⟩) := by
    have ha : parser.allowance.after? parser.reader.next.1.kind = none := by
      rw [hk]
      exact ParserState.after?_of_not_trivia rfl
    have hr := @ParserState.respond_of_take ⟨true⟩ ⟨parser.goal, parser.allowance, parser.rule⟩ _ _ _
      ha (Goal.judge_conditions hgoal hname hk)
    rw [h.run_eq, ← Parser.consume_eq_run hsupplies, ParserState.consume_cons_of_ok hr]
  refine ⟨front, back, htokens, ?_, ?_⟩
  · rintro inside close rest rfl hexceeds
    have hl := lexed_tokenize source
    rw [htokens, ← List.cons_append, ← List.append_assoc] at hl
    obtain ⟨_, _, -, hkinds, -, -⟩ := hl.exists_text
    have hinside (token : Token) (hm : token ∈ inside) : token.kind ≠ .endOfInput :=
      hkinds token (by simp [hm])
    rw [ParserState.consume_closed hexceeds.balanced hinside hexceeds.kind_eq] at hrun
    have hending := (Except.error.inj hrun).symm
    exact ⟨congrArg Ending.result hending, congrArg Ending.token hending⟩
  · intro hnone
    obtain ⟨rest, rfl, hends⟩ := exists_ended htokens (by simp [hk])
    rcases ParserState.closes_or_consume_unclosed hends source.utf8ByteSize with
      ⟨inside, close, more, rfl, hinside, hclose⟩ | hunclosed
    · exact absurd (exceeds_of_balanced hinside hclose)
        (hnone inside close (more ++ [.endAt source.utf8ByteSize]) (by simp))
    · rw [hunclosed] at hrun
      exact congrArg Ending.result (Except.error.inj hrun).symm

theorem run_from_conditions_in_metadata :
    (∃ parser,
      (Parser.ofSource "rule a\x7bmeta:conditions:\x7b\"\x7d\"\x7d\x7d").Reaches ⟨true⟩ parser ∧
      parser.AtConditions ∧ parser.reader.next.1 = ⟨.colon, ":", ⟨22, 23⟩⟩ ∧
      parse "rule a\x7bmeta:conditions:\x7b\"\x7d\"\x7d\x7d" ⟨true⟩ = .ok parser.rule ∧
      ((Parser.ofSource "rule a\x7bmeta:conditions:\x7b\"\x7d\"\x7d\x7d").run ⟨true⟩).token =
        ⟨.closeBrace, "\x7d", ⟨28, 29⟩⟩) ∧
    ∃ parser, (Parser.ofSource "rule a\x7bconditions:").Reaches ⟨true⟩ parser ∧
      parser.AtConditions ∧ parser.reader.next.1 = ⟨.colon, ":", ⟨17, 18⟩⟩ ∧
      parse "rule a\x7bconditions:" ⟨true⟩ =
        .error ⟨⟨"rule a\x7bconditions:".utf8ByteSize, "rule a\x7bconditions:".utf8ByteSize⟩,
          .unclosedRule⟩ := by
  constructor
  · have hsteps : ((Parser.ofSource "rule a\x7bmeta:conditions:\x7b\"\x7d\"\x7d\x7d").afterSteps?
        ⟨true⟩ 9).map (fun last => (last.goal.headerName?, last.reader.next.1)) =
        some (some "conditions", ⟨.colon, ":", ⟨22, 23⟩⟩) := by decide +kernel
    have htokens : tokenize "rule a\x7bmeta:conditions:\x7b\"\x7d\"\x7d\x7d" =
        [⟨.ruleWord, "rule", ⟨0, 4⟩⟩, ⟨.whitespace, " ", ⟨4, 5⟩⟩, ⟨.identifier, "a", ⟨5, 6⟩⟩,
          ⟨.openBrace, "\x7b", ⟨6, 7⟩⟩, ⟨.identifier, "meta", ⟨7, 11⟩⟩, ⟨.colon, ":", ⟨11, 12⟩⟩,
          ⟨.identifier, "conditions", ⟨12, 22⟩⟩] ++ ⟨.colon, ":", ⟨22, 23⟩⟩ ::
        ([⟨.openBrace, "\x7b", ⟨23, 24⟩⟩, ⟨.quotedString, "\x7d", ⟨24, 27⟩⟩,
          ⟨.closeBrace, "\x7d", ⟨27, 28⟩⟩] ++ ⟨.closeBrace, "\x7d", ⟨28, 29⟩⟩ :: [.endAt 29]) := by
      decide +kernel
    obtain ⟨parser, hreaches, hconditions, hcolon⟩ := Parser.exists_atConditions hsteps rfl
    obtain ⟨front, back, hsplit, hclosed, -⟩ :=
      run_from_conditions hreaches hconditions (by rw [hcolon])
    have hl := lexed_tokenize "rule a\x7bmeta:conditions:\x7b\"\x7d\"\x7d\x7d"
    rw [hsplit] at hl
    obtain ⟨-, -, rfl⟩ := hl.eq_of_start_eq (hsplit.symm.trans htokens) (by rw [hcolon])
    have hinside : Balanced [⟨.openBrace, "\x7b", ⟨23, 24⟩⟩, ⟨.quotedString, "\x7d", ⟨24, 27⟩⟩,
        ⟨.closeBrace, "\x7d", ⟨27, 28⟩⟩] :=
      closes_cons_iff.mpr ⟨1, rfl, closes_cons_iff.mpr ⟨1, rfl, closes_cons_iff.mpr ⟨0, rfl,
        closes_nil_iff.mpr rfl⟩⟩⟩
    exact ⟨parser, hreaches, hconditions, hcolon,
      hclosed _ _ _ rfl (exceeds_of_balanced hinside rfl)⟩
  · have hsteps : ((Parser.ofSource "rule a\x7bconditions:").afterSteps? ⟨true⟩ 7).map
        (fun last => (last.goal.headerName?, last.reader.next.1)) =
        some (some "conditions", ⟨.colon, ":", ⟨17, 18⟩⟩) := by decide +kernel
    have htokens : tokenize "rule a\x7bconditions:" =
        [⟨.ruleWord, "rule", ⟨0, 4⟩⟩, ⟨.whitespace, " ", ⟨4, 5⟩⟩, ⟨.identifier, "a", ⟨5, 6⟩⟩,
          ⟨.openBrace, "\x7b", ⟨6, 7⟩⟩, ⟨.identifier, "conditions", ⟨7, 17⟩⟩] ++
        ⟨.colon, ":", ⟨17, 18⟩⟩ :: [.endAt 18] := by decide +kernel
    obtain ⟨parser, hreaches, hconditions, hcolon⟩ := Parser.exists_atConditions hsteps rfl
    obtain ⟨front, back, hsplit, -, hopen⟩ :=
      run_from_conditions hreaches hconditions (by rw [hcolon])
    have hl := lexed_tokenize "rule a\x7bconditions:"
    rw [hsplit] at hl
    obtain ⟨-, -, rfl⟩ := hl.eq_of_start_eq (hsplit.symm.trans htokens) (by rw [hcolon])
    refine ⟨parser, hreaches, hconditions, hcolon, hopen ?_⟩
    rintro inside close rest he hexceeds
    have hmem : close ∈ [Token.endAt 18] := by simp [he]
    have hk := hexceeds.kind_eq
    rw [List.mem_singleton.mp hmem] at hk
    cases hk

end SignatureRules

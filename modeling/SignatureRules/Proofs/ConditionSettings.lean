import SignatureRules.Proofs.MatchingBrace
import SignatureRules.Proofs.OrderedTables

namespace SignatureRules

structure Rule.Extends (rule kept : Rule) : Prop where
  name : rule.name = kept.name
  tags : rule.tags = kept.tags
  metadata : kept.metadata.names ⊆ rule.metadata.names
  patterns : kept.patterns.names ⊆ rule.patterns.names

variable {options other : ParseOptions} {rule kept after : Rule} {goal next : Goal} {token : Token}
  {tokens : List Token}

namespace Rule

theorem Extends.refl (rule : Rule) : rule.Extends rule :=
  ⟨rfl, rfl, List.Subset.refl _, List.Subset.refl _⟩

theorem Extends.trans {less : Rule} (h : rule.Extends kept) (hk : kept.Extends less) :
    rule.Extends less where
  name := h.name.trans hk.name
  tags := h.tags.trans hk.tags
  metadata := List.Subset.trans hk.metadata h.metadata
  patterns := List.Subset.trans hk.patterns h.patterns

theorem addEntry_extends (rule : Rule) (entry : Entry) : (rule.addEntry entry).Extends rule := by
  cases entry with
  | metadata key value =>
    exact { Extends.refl rule with metadata := Table.names_subset_insert key value rule.metadata }
  | pattern name text =>
    exact { Extends.refl rule with
      patterns := Table.names_subset_insert name (Pattern.mk .string text []) rule.patterns }

theorem addEntries_extends (rule : Rule) (entries : List Entry) :
    (rule.addEntries entries).Extends rule := by
  induction entries generalizing rule with
  | nil => exact .refl rule
  | cons entry entries ih => exact (ih (rule.addEntry entry)).trans (rule.addEntry_extends entry)

end Rule

theorem Body.skips {part : BodySection} {entries : List Entry}
    (h : Body ⟨false⟩ part tokens entries) (hn : ∀ token ∈ tokens, token.kind ≠ .endOfInput) :
    ∃ kept, kept <+: entries ∧ Body ⟨true⟩ part tokens kept := by
  induction h with
  | unknownEnd hclose => exact ⟨[], List.nil_prefix, .unknownEnd hclose⟩
  | metadataEnd hclose => exact ⟨[], List.nil_prefix, .metadataEnd hclose⟩
  | stringsEnd hclose => exact ⟨[], List.nil_prefix, .stringsEnd hclose⟩
  | unknownHeader htrivia hname hcolon hpart _ ih =>
    obtain ⟨kept, hkept, hbody⟩ := ih (List.forall_mem_append.mp hn).2
    exact ⟨kept, hkept, .unknownHeader htrivia hname hcolon hpart hbody⟩
  | metadataHeader hname hcolon hpart _ ih =>
    obtain ⟨kept, hkept, hbody⟩ := ih (List.forall_mem_append.mp hn).2
    exact ⟨kept, hkept, .metadataHeader hname hcolon hpart hbody⟩
  | stringsHeader hname hcolon hpart _ ih =>
    obtain ⟨kept, hkept, hbody⟩ := ih (List.forall_mem_append.mp hn).2
    exact ⟨kept, hkept, .stringsHeader hname hcolon hpart hbody⟩
  | metadataEntry hkey hequal hvalue _ ih =>
    obtain ⟨kept, hkept, hbody⟩ := ih (List.forall_mem_append.mp hn).2
    exact ⟨_ :: kept, List.cons_prefix_cons.mpr ⟨rfl, hkept⟩,
      .metadataEntry hkey hequal hvalue hbody⟩
  | stringsEntry hname hequal hvalue _ ih =>
    obtain ⟨kept, hkept, hbody⟩ := ih (List.forall_mem_append.mp hn).2
    exact ⟨_ :: kept, List.cons_prefix_cons.mpr ⟨rfl, hkept⟩,
      .stringsEntry hname hequal hvalue hbody⟩
  | conditions _ hbody _ =>
    -- what is read on from here is balanced in front of its last brace, and so is skipped up to it
    obtain ⟨run, close, rfl, hrun, hclose⟩ := hbody.endsAtBrace
    exact ⟨[], List.nil_prefix, .skipped rfl hrun (List.forall_mem_append.mp hn).1 hclose⟩
  | skipped hskip => cases hskip

theorem Rule.DerivesFrom.skips (h : rule.DerivesFrom ⟨false⟩ tokens)
    (hn : ∀ token ∈ tokens, token.kind ≠ .endOfInput) :
    ∃ kept, kept.DerivesFrom ⟨true⟩ tokens ∧ rule.Extends kept := by
  obtain ⟨hword, hname, htags, htrivia, hbrace, hbody⟩ := h
  obtain ⟨entries, ⟨more, rfl⟩, hskips⟩ := hbody.skips (List.forall_mem_append.mp hn).2
  refine ⟨_, .mk hword hname htags htrivia hbrace hskips, ?_⟩
  rw [addEntries, List.foldl_append]
  exact addEntries_extends _ more

namespace Goal

def headerName? : Goal → Option String
  | sectionColon name | metadataAssign name => some name
  | headerColon name => some name.literal
  | _ => none

def Unconditional (goal : Goal) : Prop :=
  ∀ name, goal.headerName? = some name → ¬ SameLetters name "conditions"

theorem unconditional_of_headerName? (h : goal.headerName? = none) : goal.Unconditional := by
  intro name hn
  cases h.symm.trans hn

theorem unconditional_ofSection (part : BodySection) :
    (ofSection options part).Unconditional := by
  apply unconditional_of_headerName?
  cases part with
  | conditions =>
    rw [ofSection]
    split <;> rfl
  | _ => rfl

theorem ofSection_eq (options other : ParseOptions) {name : String}
    (h : ¬ SameLetters name "conditions") :
    ofSection options (.ofName name) = ofSection other (.ofName name) := by
  cases hpart : BodySection.ofName name with
  | conditions => exact absurd (BodySection.named_iff.mpr hpart) h
  | _ => rfl

theorem Unconditional.judge_eq (h : goal.Unconditional) :
    goal.judge options rule token = goal.judge other rule token := by
  cases goal with
  | sectionColon name | metadataAssign name | headerColon name =>
    simp only [judge, ofSection_eq options other (h _ rfl)]
  | _ => rfl

theorem unconditional_of_judge_take
    (ht : token.kind = .identifier → ¬ SameLetters token.literal "conditions")
    (hj : goal.judge options rule token = .take next after) : next.Unconditional := by
  cases goal with
  | sectionName | metadataKey | patternName =>
    simp only [judge, Verdict.wantName] at hj
    split at hj <;> cases hj <;> first
      | exact unconditional_of_headerName? rfl
      | exact fun name hn => Option.some.inj hn ▸ ht ‹_›
  | sectionColon | metadataAssign | headerColon =>
    simp only [judge, Verdict.wantSymbol, Verdict.wantName] at hj
    split at hj <;> cases hj <;> first
      | exact unconditional_of_headerName? rfl
      | exact unconditional_ofSection _
  | _ =>
    apply unconditional_of_headerName?
    simp only [judge, Verdict.wantSymbol, Verdict.wantName, Verdict.wantString] at hj
    split at hj <;> (try split at hj) <;> cases hj <;> rfl

theorem unconditional_of_judge_putBack
    (hj : goal.judge options rule token = .putBack next) : next.Unconditional := by
  apply unconditional_of_headerName?
  cases goal <;>
    simp only [judge, Verdict.wantSymbol, Verdict.wantName, Verdict.wantString] at hj <;>
    split at hj <;> (try split at hj) <;> cases hj <;> rfl

end Goal

namespace ParserState

variable {state last : ParserState}

theorem respond_options_eq (h : state.goal.Unconditional) :
    state.respond options token = state.respond other token := by
  fun_induction respond options token state with
  | case1 state allowance ha => exact (respond_of_after? ha).symm
  | case2 state ha goal rule hj => exact (respond_of_take ha (h.judge_eq.symm.trans hj)).symm
  | case3 state ha goal hj ih =>
    rw [ih (Goal.unconditional_of_judge_putBack hj)]
    exact (respond_of_putBack ha (h.judge_eq.symm.trans hj)).symm
  | case4 state ha hj => exact (respond_of_accept ha (h.judge_eq.symm.trans hj)).symm
  | case5 state ha error hj => exact (respond_of_reject ha (h.judge_eq.symm.trans hj)).symm

theorem unconditional_of_respond (h : state.goal.Unconditional)
    (ht : token.kind = .identifier → ¬ SameLetters token.literal "conditions")
    (hr : state.respond options token = .ok last) : last.goal.Unconditional := by
  fun_induction respond options token state with
  | case1 =>
    cases hr
    exact h
  | case2 state _ goal rule hj =>
    cases hr
    exact Goal.unconditional_of_judge_take ht hj
  | case3 state _ goal hj ih => exact ih (Goal.unconditional_of_judge_putBack hj) hr
  | case4 => cases hr
  | case5 => cases hr

theorem consume_options_eq (h : state.goal.Unconditional)
    (ht : ∀ token ∈ tokens, token.kind = .identifier → ¬ SameLetters token.literal "conditions") :
    state.consume options tokens = state.consume other tokens := by
  induction tokens generalizing state with
  | nil => rfl
  | cons token tokens ih =>
    obtain ⟨htoken, htokens⟩ := List.forall_mem_cons.mp ht
    have hother : state.respond options token = state.respond other token := respond_options_eq h
    cases hr : state.respond options token with
    | ok last =>
      rw [consume_cons_of_ok hr, consume_cons_of_ok (hother.symm.trans hr)]
      exact ih (unconditional_of_respond h htoken hr) htokens
    | error ending => rw [consume_cons_of_error hr, consume_cons_of_error (hother.symm.trans hr)]

theorem exists_consume_skipping {source : String} {closing : Token}
    (h : start.consume ⟨false⟩ (tokenize source) = .error ⟨.ok rule, closing⟩) :
    ∃ kept, start.consume ⟨true⟩ (tokenize source) = .error ⟨.ok kept, closing⟩ ∧
      rule.Extends kept := by
  have hmatches := matchesFirstBrace_of_consume h
  obtain ⟨front, back, htokens, hrule⟩ := derivesFrom_of_consume h
  have hl := lexed_tokenize source
  rw [htokens] at hl
  obtain ⟨_, _, -, hkinds, -, -⟩ := hl.exists_text
  have hclosing : closing.kind ≠ .endOfInput := by simp [hmatches.kind_eq]
  obtain ⟨kept, hkept, hextends⟩ := hrule.skips (List.forall_mem_append.mpr
    ⟨hkinds, List.forall_mem_singleton.mpr hclosing⟩)
  obtain ⟨found, hfound⟩ := accepts_of_derivesFrom hkept back
  rw [List.append_assoc, List.singleton_append, ← htokens] at hfound
  obtain rfl := (matchesFirstBrace_of_consume hfound).unique hmatches
  exact ⟨kept, hfound, hextends⟩

end ParserState

/-- If a rule is accepted with its conditions read on, skipping them leaves out no more than entries
of it, and both runs end on the brace that matches the first one. If no identifier names conditions,
skipping them makes no difference. -/
theorem parse_skipping_conditions (source : String) :
    (∀ rule, parse source ⟨false⟩ = .ok rule →
      ∃ kept, parse source ⟨true⟩ = .ok kept ∧ rule.Extends kept ∧
        ∃ closing, MatchesFirstBrace closing (tokenize source) ∧
          ((Parser.ofSource source).run ⟨false⟩).token = closing ∧
          ((Parser.ofSource source).run ⟨true⟩).token = closing) ∧
    ((∀ token ∈ tokenize source, token.kind = .identifier →
        ¬ SameLetters token.literal "conditions") →
      parse source ⟨false⟩ = parse source ⟨true⟩) := by
  have hrun := consume_tokenize_eq_run source
  constructor
  · intro rule h
    obtain ⟨closing, hread⟩ := consume_tokenize source ⟨false⟩
    rw [h] at hread
    obtain ⟨kept, hskipped, hextends⟩ := ParserState.exists_consume_skipping hread
    have hfalse := Except.error.inj ((hrun ⟨false⟩).symm.trans hread)
    have htrue := Except.error.inj ((hrun ⟨true⟩).symm.trans hskipped)
    exact ⟨kept, congrArg Ending.result htrue, hextends, closing,
      ParserState.matchesFirstBrace_of_consume hread, congrArg Ending.token hfalse,
      congrArg Ending.token htrue⟩
  · intro ht
    have hstart : ParserState.start.goal.Unconditional := Goal.unconditional_of_headerName? rfl
    have hsame : ParserState.start.consume ⟨false⟩ (tokenize source) =
        ParserState.start.consume ⟨true⟩ (tokenize source) :=
      ParserState.consume_options_eq hstart ht
    rw [hrun, hrun] at hsame
    exact congrArg Ending.result (Except.error.inj hsame)

theorem parse_skipping_conditions_of_later_meta :
    (parse "rule a\x7bconditions:meta:k=\"v\"\x7d" ⟨false⟩ =
        .ok ⟨"a", [], ⟨[("k", "v")]⟩, .empty⟩ ∧
      ∃ kept, parse "rule a\x7bconditions:meta:k=\"v\"\x7d" ⟨true⟩ = .ok kept ∧
        Rule.Extends ⟨"a", [], ⟨[("k", "v")]⟩, .empty⟩ kept ∧
        ∃ closing, MatchesFirstBrace closing (tokenize "rule a\x7bconditions:meta:k=\"v\"\x7d") ∧
          ((Parser.ofSource "rule a\x7bconditions:meta:k=\"v\"\x7d").run ⟨false⟩).token = closing ∧
          ((Parser.ofSource "rule a\x7bconditions:meta:k=\"v\"\x7d").run ⟨true⟩).token = closing) ∧
    ((∀ token ∈ tokenize "rule a\x7b\"conditions\":", token.kind = .identifier →
        ¬ SameLetters token.literal "conditions") ∧
      parse "rule a\x7b\"conditions\":" ⟨false⟩ = parse "rule a\x7b\"conditions\":" ⟨true⟩) := by
  have hread : parse "rule a\x7bconditions:meta:k=\"v\"\x7d" ⟨false⟩ =
      .ok ⟨"a", [], ⟨[("k", "v")]⟩, .empty⟩ := by decide +kernel
  have htokens : tokenize "rule a\x7b\"conditions\":" =
      [⟨.ruleWord, "rule", ⟨0, 4⟩⟩, ⟨.whitespace, " ", ⟨4, 5⟩⟩, ⟨.identifier, "a", ⟨5, 6⟩⟩,
        ⟨.openBrace, "\x7b", ⟨6, 7⟩⟩, ⟨.quotedString, "conditions", ⟨7, 19⟩⟩,
        ⟨.colon, ":", ⟨19, 20⟩⟩, .endAt 20] := by decide +kernel
  have hnone : ∀ token ∈ tokenize "rule a\x7b\"conditions\":", token.kind = .identifier →
      ¬ SameLetters token.literal "conditions" := by
    rw [htokens]
    simp [SameLetters, Token.endAt]
  exact ⟨⟨hread, (parse_skipping_conditions _).1 _ hread⟩,
    hnone, (parse_skipping_conditions _).2 hnone⟩

end SignatureRules

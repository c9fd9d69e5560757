import SignatureRules.Proofs.ClosedText
import SignatureRules.Proofs.Completion
import SignatureRules.Proofs.ErrorPlaces

/-! No error is found too early: the text in front of an error is the beginning of a text that is
accepted. -/

namespace SignatureRules

variable {options : ParseOptions} {rule after : Rule} {goal next : Goal} {token other : Token}
  {kind : TokenKind} {error : ParseError} {text : List Char} {tokens front back : List Token}

namespace Goal

theorem exists_judge_take (hk : token.kind = .quotedString ∨ token.kind = .comment)
    (ho : other.kind = token.kind) (hj : goal.judge options rule token = .take next after) :
    ∃ after, goal.judge options rule other = .take next after := by
  rcases hk with hk | hk
  all_goals rw [hk] at ho
  · cases goal with
    | tag colonStart =>
      simp only [judge, hk] at hj
      split at hj <;> cases hj
    | metadataValue key =>
      simp only [judge, hk] at hj
      cases hj
      exact ⟨_, by simp only [judge, ho]; rfl⟩
    | patternValue name =>
      simp only [judge, hk] at hj
      cases hj
      exact ⟨_, by simp only [judge, ho]; rfl⟩
    | skippedCondition depth =>
      simp only [judge, hk] at hj
      cases hj
      exact ⟨_, by simp only [judge, ho]; rfl⟩
    | _ => simp [judge, hk, Verdict.wantSymbol, Verdict.wantName] at hj
  · cases goal with
    | tag colonStart =>
      simp only [judge, hk] at hj
      split at hj <;> cases hj
    | skippedCondition depth =>
      simp only [judge, hk] at hj
      cases hj
      exact ⟨_, by simp only [judge, ho]; rfl⟩
    | _ => simp [judge, hk, Verdict.wantSymbol, Verdict.wantName, Verdict.wantString] at hj

theorem judge_putBack_of_kind_eq (ho : other.kind = token.kind)
    (hj : goal.judge options rule token = .putBack next) :
    goal.judge options rule other = .putBack next := by
  cases goal with
  | tag colonStart =>
    simp only [judge, ho] at hj ⊢
    split at hj
    · cases hj
    · split at hj
      · cases hj
      · rename_i hne
        rw [if_neg hne]
        exact hj
  | _ =>
    simp only [judge, ho, Verdict.wantSymbol, Verdict.wantName, Verdict.wantString] at hj ⊢
    split at hj <;> first | exact hj | cases hj

theorem allowance_of_judge_illegal (hk : token.kind = .illegal)
    (hj : goal.judge options rule token = .take next after) : next.allowance = .spent := by
  cases goal with
  | tag colonStart =>
    simp only [judge, hk] at hj
    split at hj <;> cases hj
  | skippedCondition depth =>
    simp only [judge, hk] at hj
    cases hj
    rfl
  | _ => simp [judge, hk, Verdict.wantSymbol, Verdict.wantName, Verdict.wantString] at hj

end Goal

namespace ParserState

variable {state last : ParserState}

theorem head?_completion_of_spent (h : state.goal.allowance = .spent) :
    state.completion.head? = some '\x7d' := by
  rw [completion, if_pos (.inl h)]
  obtain ⟨goal, allowance, rule⟩ := state
  cases goal with
  | skippedCondition depth => rfl
  | _ => cases h

theorem head?_completion_of_ne (h : state.goal.allowance ≠ .spent) (ha : state.allowance ≠ .spent) :
    state.completion.head? = some '/' := by
  rw [completion, if_neg (not_or.mpr ⟨h, ha⟩)]
  rfl

theorem fits_of_respond (h : state.respond options token = .ok last) :
    Fits token.kind last.completion := by
  by_cases hg : last.goal.allowance = .spent
  · exact .inr (.inl (head?_completion_of_spent hg))
  fun_induction respond options token state with
  | case1 state allowance ha =>
    cases h
    by_cases hs : allowance = .spent
    · rw [hs] at ha
      rcases after?_eq_some_iff.mp ha with ⟨-, -, hleft⟩ | ⟨hr, -, -⟩
      · cases hleft
      · exact .inl hr
    · refine .inr (.inr ⟨head?_completion_of_ne hg hs, fun hk => ?_⟩)
      rw [hk, after?_of_not_trivia rfl] at ha
      cases ha
  | case2 state ha goal rule hj =>
    cases h
    refine .inr (.inr ⟨head?_completion_of_ne hg hg, fun hk => ?_⟩)
    exact hg (Goal.allowance_of_judge_illegal hk hj)
  | case3 state _ goal hj ih => exact ih h
  | case4 => cases h
  | case5 => cases h

theorem exists_respond (hk : token.kind = .quotedString ∨ token.kind = .comment)
    (ho : other.kind = token.kind) (h : state.respond options token = .ok last) :
    ∃ rule, state.respond options other = .ok { last with rule } := by
  fun_induction respond options token state with
  | case1 state allowance ha =>
    cases h
    rw [← ho] at ha
    exact ⟨state.rule, respond_of_after? ha⟩
  | case2 state ha goal rule hj =>
    cases h
    obtain ⟨after, hj⟩ := Goal.exists_judge_take hk ho hj
    rw [← ho] at ha
    exact ⟨after, respond_of_take ha hj⟩
  | case3 state ha goal hj ih =>
    obtain ⟨rule, hr⟩ := ih h
    rw [← ho] at ha
    exact ⟨rule, (respond_of_putBack ha (Goal.judge_putBack_of_kind_eq ho hj)).trans hr⟩
  | case4 => cases h
  | case5 => cases h

theorem exists_accepted_of_consume (hl : Lexed ⟨0, text⟩ (front ++ token :: back))
    (hc : start.consume options front = .ok last) :
    ∃ head tail : List Char, text = head ++ tail ∧ byteSize head = token.span.start ∧
      ∃ more rule, parse (.ofList (head ++ more)) options = .ok rule := by
  rcases front.eq_nil_or_concat with rfl | ⟨before, previous, rfl⟩
  · obtain ⟨tokens, rule, hlexed, ha⟩ := @completes_completion options start 0
    exact ⟨[], text, rfl, hl.start_eq.symm, _, rule, parse_of_accepts hlexed ha⟩
  rw [List.concat_eq_append] at hl hc
  rw [List.append_assoc, List.singleton_append] at hl
  -- closing the last token can change it, so the run is taken up again in front of it
  obtain ⟨next, hbefore, hc⟩ := exists_consume_of_append hc
  obtain ⟨_, hr, hend⟩ := exists_respond_of_consume hc
  cases hend
  obtain ⟨head, tail, closing, other, htext, hstart, hother, hlexed⟩ := hl.exists_closed
  obtain ⟨rule, hr'⟩ : ∃ rule, next.respond options other = .ok { last with rule } := by
    rcases hother with rfl | ⟨hkind, hsame⟩
    · exact ⟨last.rule, hr⟩
    · exact exists_respond hkind hsame hr
  obtain ⟨tokens, result, hmore, final, hfinal⟩ :=
    @completes_completion options { last with rule } (0 + byteSize (head ++ closing))
  have hfits : Fits previous.kind ({ last with rule } : ParserState).completion :=
    show Fits previous.kind last.completion from fits_of_respond hr
  refine ⟨head, tail, htext, by omega, closing ++ last.completion, result, ?_⟩
  rw [← List.append_assoc]
  refine parse_of_accepts (hlexed _ _ hfits hmore) ⟨final, ?_⟩
  rw [consume_append_of_ok hbefore, consume_cons_of_ok hr']
  exact hfinal

end ParserState

theorem exists_accepted_of_parse_error {source : String} (h : parse source options = .error error) :
    ∃ head tail : String, source = head ++ tail ∧ byteSize head.toList = error.span.start ∧
      ∃ text rule, parse (head ++ text) options = .ok rule := by
  obtain ⟨found, hc⟩ := consume_tokenize source options
  rw [h] at hc
  obtain ⟨front, token, back, last, ht, hstart, hfront⟩ := ParserState.exists_of_consume_reject hc
  have hl := lexed_tokenize source
  rw [ht] at hl
  obtain ⟨head, tail, hsource, hsize, more, rule, hparse⟩ :=
    ParserState.exists_accepted_of_consume hl hfront
  refine ⟨.ofList head, .ofList tail, ?_, ?_, .ofList more, rule, ?_⟩
  · apply String.toList_inj.mp
    simpa using hsource
  · rw [String.toList_ofList, hsize, hstart]
  · rw [← String.ofList_append]
    exact hparse

theorem exists_accepted_of_open_string :
    parse "rule a\x7bmeta:k=\"\\" ⟨true⟩ = .error ⟨⟨16, 16⟩, .unclosedRule⟩ ∧
      ∃ head tail : String, "rule a\x7bmeta:k=\"\\" = head ++ tail ∧
        byteSize head.toList = 16 ∧ ∃ text rule, parse (head ++ text) ⟨true⟩ = .ok rule := by
  have h : parse "rule a\x7bmeta:k=\"\\" ⟨true⟩ = .error ⟨⟨16, 16⟩, .unclosedRule⟩ := by decide +kernel
  exact ⟨h, exists_accepted_of_parse_error h⟩

end SignatureRules

import SignatureRules.Proofs.AcceptedRules

namespace SignatureRules

def Goal.wanted? : Goal → Option TokenKind
  | ruleWord => some .ruleWord
  | ruleName | sectionName => some .identifier
  | sectionColon _ | headerColon _ => some .colon
  | openBrace => some .openBrace
  | patternAssign _ => some .equal
  | metadataValue _ | patternValue _ => some .quotedString
  | _ => none

theorem Goal.allowance_of_wanted? {goal : Goal} {kind : TokenKind} (h : goal.wanted? = some kind) :
    goal.allowance = .blankAndComment := by
  cases goal <;> first | rfl | cases h

theorem Goal.judge_of_wanted? {goal : Goal} {kind : TokenKind} {token : Token}
    (h : goal.wanted? = some kind) (hk : token.kind ≠ kind) (options : ParseOptions) (rule : Rule) :
    ∃ error, goal.judge options rule token = .reject error := by
  cases goal <;> cases h <;> simp only [judge] <;> exact ⟨_, rfl⟩

namespace ParserState

variable {options : ParseOptions} {rule result : Rule} {goal : Goal} {allowance : Allowance}
  {token : Token} {kind : TokenKind} {tokens back : List Token}

def AcceptsBy (options : ParseOptions) (rule result : Rule) (token : Token) (back : List Token) :
    Verdict → Prop
  | .take next after => (fresh next after).Accepts options back result
  | .putBack next => (fresh next rule).Accepts options (token :: back) result
  | .accept => result = rule
  | .reject _ => False

theorem acceptsBy_judge (ha : allowance.after? token.kind = none)
    (h : Accepts options ⟨goal, allowance, rule⟩ (token :: back) result) :
    AcceptsBy options rule result token back (goal.judge options rule token) := by
  obtain ⟨last, h⟩ := h
  cases hj : goal.judge options rule token with
  | take next after =>
    rw [consume_cons_of_ok (respond_of_take ha hj)] at h
    exact ⟨last, h⟩
  | putBack next =>
    rw [consume_of_putBack ha hj] at h
    exact ⟨last, h⟩
  | accept =>
    rw [consume_cons_of_error (respond_of_accept ha hj)] at h
    cases h
    rfl
  | reject error =>
    rw [consume_cons_of_error (respond_of_reject ha hj)] at h
    cases h

theorem exists_passed (h : Accepts options ⟨goal, allowance, rule⟩ tokens result) :
    ∃ trivia token back, tokens = trivia ++ token :: back ∧ allowance.Passes trivia ∧
      AcceptsBy options rule result token back (goal.judge options rule token) := by
  induction tokens generalizing allowance with
  | nil =>
    obtain ⟨last, h⟩ := h
    cases h
  | cons token tokens ih =>
    cases ha : allowance.after? token.kind with
    | none => exact ⟨[], token, tokens, rfl, trivial, acceptsBy_judge ha h⟩
    | some left =>
      obtain ⟨last, h⟩ := h
      rw [consume_cons_of_ok (respond_of_after? ha)] at h
      obtain ⟨trivia, next, back, rfl, hpasses, hj⟩ := ih ⟨last, h⟩
      exact ⟨token :: trivia, next, back, rfl, ⟨left, ha, hpasses⟩, hj⟩

theorem exists_judged (hg : goal.allowance = .blankAndComment)
    (h : (fresh goal rule).Accepts options tokens result) :
    ∃ trivia token back, tokens = trivia ++ token :: back ∧ Trivia trivia ∧
      AcceptsBy options rule result token back (goal.judge options rule token) := by
  rw [fresh, hg] at h
  obtain ⟨trivia, token, back, rfl, hpasses, hj⟩ := exists_passed h
  exact ⟨trivia, token, back, rfl, trivia_iff_passes.mpr hpasses, hj⟩

theorem wanted_of_accepts (hw : goal.wanted? = some kind)
    (h : (fresh goal rule).Accepts options tokens result) :
    ∃ front token back, tokens = front ++ back ∧ Wanted kind token front ∧
      AcceptsBy options rule result token back (goal.judge options rule token) := by
  obtain ⟨trivia, token, back, rfl, htrivia, hcases⟩ :=
    exists_judged (Goal.allowance_of_wanted? hw) h
  by_cases hk : token.kind = kind
  · exact ⟨trivia ++ [token], token, back, by simp, ⟨htrivia, hk⟩, hcases⟩
  · obtain ⟨error, hj⟩ := Goal.judge_of_wanted? hw hk options rule
    rw [hj] at hcases
    exact hcases.elim

theorem after?_of_end (h : token.kind = .closeBrace ∨ token.kind = .endOfInput)
    (allowance : Allowance) : allowance.after? token.kind = none := by
  rcases h with h | h
  all_goals
    rw [h]
    exact after?_of_not_trivia rfl

theorem closed_of_accepts_closeBrace (hk : token.kind = .closeBrace ∨ token.kind = .endOfInput)
    (h : (fresh .closeBrace rule).Accepts options (token :: back) result) :
    token.kind = .closeBrace ∧ result = rule := by
  have hcases := acceptsBy_judge (after?_of_end hk _) h
  rcases hk with hk | hk
  · simp only [Goal.judge, hk] at hcases
    exact ⟨hk, hcases⟩
  · simp only [Goal.judge, hk] at hcases
    exact hcases.elim

theorem closed_of_accepts (hk : token.kind = .closeBrace ∨ token.kind = .endOfInput)
    (h : (fresh .sectionOrEnd rule).Accepts options (token :: back) result) :
    token.kind = .closeBrace ∧ result = rule := by
  have hj : Goal.sectionOrEnd.judge options rule token = .putBack .closeBrace := by
    rcases hk with hk | hk <;> simp [Goal.judge, hk]
  have hcases := acceptsBy_judge (after?_of_end hk _) h
  rw [hj] at hcases
  exact closed_of_accepts_closeBrace hk hcases

def HasBody (options : ParseOptions) (part : BodySection) (rule result : Rule)
    (tokens : List Token) : Prop :=
  ∃ body entries back, tokens = body ++ back ∧ Body options part body entries ∧
    result = rule.addEntries entries

/-- Runs that accept on fewer than `n` tokens after the header of a section have read a body. -/
def BodiesBelow (options : ParseOptions) (result : Rule) (n : Nat) : Prop :=
  ∀ part rule tokens, tokens.length < n →
    (fresh (.ofSection options part) rule).Accepts options tokens result →
    HasBody options part rule result tokens

variable {part : BodySection}

theorem hasBody_unknown (hbelow : BodiesBelow options result tokens.length)
    (h : (fresh .sectionOrEnd rule).Accepts options tokens result) :
    HasBody options .unknown rule result tokens := by
  obtain ⟨trivia, token, back, rfl, htrivia, hcases⟩ := exists_judged rfl h
  by_cases hk : token.kind = .closeBrace ∨ token.kind = .endOfInput
  · have hj : Goal.sectionOrEnd.judge options rule token = .putBack .closeBrace := by
      rcases hk with hk | hk <;> simp [Goal.judge, hk]
    rw [hj] at hcases
    obtain ⟨hclose, rfl⟩ := closed_of_accepts_closeBrace hk hcases
    exact ⟨trivia ++ [token], [], back, by simp, .unknownEnd ⟨htrivia, hclose⟩, rfl⟩
  · have hj : Goal.sectionOrEnd.judge options rule token = .putBack .sectionName := by
      cases hkind : token.kind <;> simp [hkind] at hk <;> simp [Goal.judge, hkind]
    rw [hj] at hcases
    obtain ⟨names, name, rest, htokens, hname, hcases⟩ := wanted_of_accepts rfl hcases
    simp only [Goal.judge, hname.kind_eq] at hcases
    obtain ⟨colons, colon, rest, rfl, hcolon, hcases⟩ := wanted_of_accepts rfl hcases
    simp only [Goal.judge, hcolon.kind_eq] at hcases
    rw [htokens] at hbelow ⊢
    have hlt : rest.length < (trivia ++ (names ++ (colons ++ rest))).length := by
      have hpos := hname.length_pos
      simp only [List.length_append]
      omega
    obtain ⟨body, entries, back, rfl, hbody, hresult⟩ := hbelow _ _ _ hlt hcases
    exact ⟨_, entries, back, by simp, .unknownHeader htrivia hname hcolon
      (BodySection.named_iff.mpr rfl) hbody, hresult⟩

theorem hasBody_metadata (hbelow : BodiesBelow options result tokens.length)
    (h : (fresh .metadataKey rule).Accepts options tokens result) :
    HasBody options .metadata rule result tokens := by
  obtain ⟨trivia, token, back, rfl, htrivia, hcases⟩ := exists_judged rfl h
  by_cases hk : token.kind = .closeBrace ∨ token.kind = .endOfInput
  · have hj : Goal.metadataKey.judge options rule token = .putBack .sectionOrEnd := by
      rcases hk with hk | hk <;> simp [Goal.judge, hk]
    rw [hj] at hcases
    obtain ⟨hclose, rfl⟩ := closed_of_accepts hk hcases
    exact ⟨trivia ++ [token], [], back, by simp, .metadataEnd ⟨htrivia, hclose⟩, rfl⟩
  by_cases hkey : token.kind = .identifier
  · simp only [Goal.judge, hkey] at hcases
    obtain ⟨more, mark, rest, rfl, hmore, hcases⟩ := exists_judged rfl hcases
    by_cases hequal : mark.kind = .equal
    · simp only [Goal.judge, hequal] at hcases
      obtain ⟨values, value, rest, rfl, hvalue, hcases⟩ := wanted_of_accepts rfl hcases
      simp only [Goal.judge, hvalue.kind_eq] at hcases
      have hlt : rest.length < (trivia ++ token :: (more ++ mark :: (values ++ rest))).length := by
        simp only [List.length_append, List.length_cons]
        omega
      obtain ⟨body, entries, back, rfl, hbody, hresult⟩ := hbelow .metadata _ _ hlt hcases
      exact ⟨_, _, back, by simp, .metadataEntry ⟨htrivia, hkey⟩ ⟨hmore, hequal⟩ hvalue hbody,
        hresult⟩
    by_cases hcolon : mark.kind = .colon
    · simp only [Goal.judge, hcolon] at hcases
      have hlt : rest.length < (trivia ++ token :: (more ++ mark :: rest)).length := by
        simp only [List.length_append, List.length_cons]
        omega
      obtain ⟨body, entries, back, rfl, hbody, hresult⟩ := hbelow _ _ _ hlt hcases
      exact ⟨_, entries, back, by simp, .metadataHeader ⟨htrivia, hkey⟩ ⟨hmore, hcolon⟩
        (BodySection.named_iff.mpr rfl) hbody, hresult⟩
    · simp only [Goal.judge] at hcases
      exact hcases.elim
  · obtain ⟨hclose, hend⟩ := not_or.mp hk
    simp only [Goal.judge] at hcases
    exact hcases.elim

theorem hasBody_strings (hbelow : BodiesBelow options result tokens.length)
    (h : (fresh .patternName rule).Accepts options tokens result) :
    HasBody options .strings rule result tokens := by
  obtain ⟨trivia, token, back, rfl, htrivia, hcases⟩ := exists_judged rfl h
  by_cases hk : token.kind = .closeBrace ∨ token.kind = .endOfInput
  · have hj : Goal.patternName.judge options rule token = .putBack .sectionOrEnd := by
      rcases hk with hk | hk <;> simp [Goal.judge, hk]
    rw [hj] at hcases
    obtain ⟨hclose, rfl⟩ := closed_of_accepts hk hcases
    exact ⟨trivia ++ [token], [], back, by simp, .stringsEnd ⟨htrivia, hclose⟩, rfl⟩
  by_cases hname : token.kind = .variableName
  · simp only [Goal.judge, hname] at hcases
    obtain ⟨equals, equal, rest, rfl, hequal, hcases⟩ := wanted_of_accepts rfl hcases
    simp only [Goal.judge, hequal.kind_eq] at hcases
    obtain ⟨values, value, rest, rfl, hvalue, hcases⟩ := wanted_of_accepts rfl hcases
    simp only [Goal.judge, hvalue.kind_eq] at hcases
    have hlt : rest.length < (trivia ++ token :: (equals ++ (values ++ rest))).length := by
      simp only [List.length_append, List.length_cons]
      omega
    obtain ⟨body, entries, back, rfl, hbody, hresult⟩ := hbelow .strings _ _ hlt hcases
    exact ⟨_, _, back, by simp, .stringsEntry ⟨htrivia, hname⟩ hequal hvalue hbody, hresult⟩
  by_cases hheader : token.kind = .identifier
  · simp only [Goal.judge, hheader] at hcases
    obtain ⟨colons, colon, rest, rfl, hcolon, hcases⟩ := wanted_of_accepts rfl hcases
    simp only [Goal.judge, hcolon.kind_eq] at hcases
    have hlt : rest.length < (trivia ++ token :: (colons ++ rest)).length := by
      simp only [List.length_append, List.length_cons]
      omega
    obtain ⟨body, entries, back, rfl, hbody, hresult⟩ := hbelow _ _ _ hlt hcases
    exact ⟨_, entries, back, by simp, .stringsHeader ⟨htrivia, hheader⟩ hcolon
      (BodySection.named_iff.mpr rfl) hbody, hresult⟩
  · obtain ⟨hclose, hend⟩ := not_or.mp hk
    simp only [Goal.judge] at hcases
    exact hcases.elim

theorem skipped_of_accepts {depth : Nat}
    (h : (fresh (.skippedCondition depth) rule).Accepts options tokens result) :
    ∃ run close back, tokens = run ++ close :: back ∧ Closes depth run ∧
      (∀ token ∈ run, token.kind ≠ .endOfInput) ∧ close.kind = .closeBrace ∧ result = rule := by
  induction tokens generalizing depth with
  | nil =>
    obtain ⟨last, h⟩ := h
    cases h
  | cons token tokens ih =>
    have hspent : Allowance.spent.after? token.kind = none := by
      cases token.kind <;> rfl
    have hcases := acceptsBy_judge hspent h
    by_cases he : token.kind = .endOfInput
    · simp only [Goal.judge, he] at hcases
      have hclose := (closed_of_accepts (.inr he) hcases).1
      rw [he] at hclose
      cases hclose
    by_cases hz : token.kind = .closeBrace ∧ depth = 0
    · obtain ⟨hclose, rfl⟩ := hz
      simp only [Goal.judge, hclose] at hcases
      obtain ⟨-, hresult⟩ := closed_of_accepts (.inl hclose) hcases
      exact ⟨[], token, tokens, rfl, closes_nil_iff.mpr rfl, by simp, hclose, hresult⟩
    · obtain ⟨left, hleft⟩ := exists_depth_after hz
      rw [judge_skipped he hleft] at hcases
      obtain ⟨run, close, back, rfl, hrun, hends, hclose, hresult⟩ := ih hcases
      exact ⟨token :: run, close, back, rfl, closes_cons_iff.mpr ⟨left, hleft, hrun⟩,
        List.forall_mem_cons.mpr ⟨he, hends⟩, hclose, hresult⟩

theorem hasBody_of_accepts
    (h : (fresh (.ofSection options part) rule).Accepts options tokens result) :
    HasBody options part rule result tokens := by
  -- a header may hand over to any section, so the induction is on the tokens that are left
  induction hn : tokens.length using Nat.strongRecOn generalizing part rule tokens with
  | ind n ih =>
    have hbelow : BodiesBelow options result tokens.length := by
      intro part rule tokens hlt h
      exact ih _ (hn ▸ hlt) h rfl
    cases part with
    | metadata => exact hasBody_metadata hbelow h
    | strings => exact hasBody_strings hbelow h
    | unknown => exact hasBody_unknown hbelow h
    | conditions =>
      cases hskip : options.skipConditions with
      | false =>
        simp only [Goal.ofSection, hskip, Bool.false_eq_true, if_false] at h
        obtain ⟨body, entries, back, htokens, hbody, hresult⟩ := hasBody_unknown hbelow h
        exact ⟨body, entries, back, htokens, .conditions hskip hbody, hresult⟩
      | true =>
        simp only [Goal.ofSection, hskip, if_true] at h
        obtain ⟨run, close, back, rfl, hrun, hends, hclose, hresult⟩ := skipped_of_accepts h
        exact ⟨run ++ [close], [], back, by simp, .skipped hskip hrun hends hclose, hresult⟩

theorem tagNames_of_accepts {colonStart : Nat}
    (h : (fresh (.tag colonStart) rule).Accepts options tokens result) :
    ∃ front names trivia back, tokens = front ++ trivia ++ back ∧ TagNames front names ∧
      rule.tags ++ names ≠ [] ∧ Trivia trivia ∧
      (fresh .openBrace { rule with tags := rule.tags ++ names }).Accepts options back result := by
  induction hn : tokens.length using Nat.strongRecOn generalizing rule tokens with
  | ind n ih =>
    obtain ⟨trivia, token, back, rfl, htrivia, hcases⟩ := exists_judged rfl h
    by_cases hk : token.kind = .identifier
    · simp only [Goal.judge, hk] at hcases
      have hlt : back.length < n := by
        simp only [List.length_append, List.length_cons] at hn
        omega
      obtain ⟨front, names, more, rest, rfl, hnames, -, hmore, hbrace⟩ := ih _ hlt hcases rfl
      refine ⟨trivia ++ [token] ++ front, token.literal :: names, more, rest, by simp,
        .cons ⟨htrivia, hk⟩ hnames, by simp, hmore, ?_⟩
      simpa [Rule.addTag] using hbrace
    · by_cases hempty : rule.tags = []
      · simp only [Goal.judge, hempty] at hcases
        exact hcases.elim
      · have hj : (Goal.tag colonStart).judge options rule token = .putBack .openBrace := by
          simp [Goal.judge, hempty]
        rw [hj] at hcases
        refine ⟨[], [], trivia, token :: back, by simp, .nil, by simpa using hempty, htrivia, ?_⟩
        rw [List.append_nil]
        exact hcases

theorem tags_of_accepts (hr : rule.tags = [])
    (h : (fresh .tagColon rule).Accepts options tokens result) :
    ∃ front names trivia back, tokens = front ++ trivia ++ back ∧ Tags front names ∧
      Trivia trivia ∧
      (fresh .openBrace { rule with tags := names }).Accepts options back result := by
  obtain ⟨trivia, token, back, rfl, htrivia, hcases⟩ := exists_judged rfl h
  by_cases hk : token.kind = .colon
  · simp only [Goal.judge, hk] at hcases
    obtain ⟨front, names, more, rest, rfl, hnames, hne, hmore, hbrace⟩ :=
      tagNames_of_accepts hcases
    rw [hr, List.nil_append] at hne hbrace
    exact ⟨trivia ++ [token] ++ front, names, more, rest, by simp,
      .listed ⟨htrivia, hk⟩ hnames hne, hmore, hbrace⟩
  · have hj : Goal.tagColon.judge options rule token = .putBack .openBrace := by
      simp [Goal.judge]
    rw [hj] at hcases
    refine ⟨[], [], trivia, token :: back, by simp, .none, htrivia, ?_⟩
    rw [← hr]
    exact hcases

theorem derivesFrom_of_accepts (h : start.Accepts options tokens result) :
    ∃ front back, tokens = front ++ back ∧ result.DerivesFrom options front := by
  obtain ⟨words, word, rest, rfl, hword, hcases⟩ := wanted_of_accepts rfl h
  simp only [Goal.judge, hword.kind_eq] at hcases
  obtain ⟨names, name, rest, rfl, hname, hcases⟩ := wanted_of_accepts rfl hcases
  simp only [Goal.judge, hname.kind_eq] at hcases
  obtain ⟨tagTokens, tags, trivia, rest, rfl, htags, htrivia, hcases⟩ := tags_of_accepts rfl hcases
  obtain ⟨braces, brace, rest, rfl, hbrace, hcases⟩ := wanted_of_accepts rfl hcases
  simp only [Goal.judge, hbrace.kind_eq] at hcases
  obtain ⟨body, entries, back, rfl, hbody, rfl⟩ := hasBody_of_accepts
    (show (fresh (.ofSection options .unknown) _).Accepts options rest result from hcases)
  exact ⟨_, back, by simp, .mk hword hname htags htrivia hbrace hbody⟩

theorem derivesFrom_of_consume (h : start.consume options tokens = .error ⟨.ok result, token⟩) :
    ∃ front back, tokens = front ++ token :: back ∧
      result.DerivesFrom options (front ++ [token]) := by
  obtain ⟨front, back, last, rfl, hfront, hr⟩ := exists_of_consume_error h
  have haccepts : start.Accepts options (front ++ [token]) result := by
    refine ⟨token, ?_⟩
    rw [consume_append_of_ok hfront]
    exact consume_cons_of_error hr
  obtain ⟨passed, rest, htokens, hrule⟩ := derivesFrom_of_accepts haccepts
  rcases List.eq_nil_or_concat rest with rfl | ⟨rest, other, rfl⟩
  · rw [List.append_nil] at htokens
    exact ⟨front, back, rfl, htokens ▸ hrule⟩
  · -- the run would have ended before the token
    rw [List.concat_eq_append, ← List.append_assoc] at htokens
    obtain ⟨rfl, -⟩ := List.append_inj' htokens rfl
    obtain ⟨found, hfound⟩ := accepts_of_derivesFrom hrule rest
    rw [hfront] at hfound
    cases hfound

end ParserState

theorem parse_eq_ok_iff {source : String} {options : ParseOptions} {rule : Rule} :
    parse source options = .ok rule ↔
      ∃ front, front <+: tokenize source ∧ rule.DerivesFrom options front := by
  constructor
  · intro h
    obtain ⟨token, hc⟩ := consume_tokenize source options
    rw [h] at hc
    obtain ⟨front, back, htokens, hrule⟩ := ParserState.derivesFrom_of_accepts ⟨token, hc⟩
    exact ⟨front, ⟨back, htokens.symm⟩, hrule⟩
  · rintro ⟨front, hfront, hrule⟩
    exact parse_of_derivesFrom hfront hrule

end SignatureRules

import SignatureRules.Proofs.ParserRun
import SignatureRules.Proofs.RuleGrammar

namespace SignatureRules

def Allowance.Passes : Allowance → List Token → Prop
  | _, [] => True
  | allowance, token :: tokens =>
    ∃ left, allowance.after? token.kind = some left ∧ left.Passes tokens

theorem eq_nil_of_passes_spent {tokens : List Token} (h : Allowance.spent.Passes tokens) :
    tokens = [] := by
  cases tokens with
  | nil => rfl
  | cons token tokens =>
    obtain ⟨left, ha, -⟩ := h
    cases ha

theorem after?_eq_some_iff {allowance left : Allowance} {kind : TokenKind} :
    allowance.after? kind = some left ↔
      (kind = .whitespace ∧ allowance = .blankAndComment ∧ left = .comment) ∨
      (kind = .comment ∧ allowance ≠ .spent ∧ left = .spent) := by
  cases allowance <;> cases kind <;> simp [Allowance.after?, eq_comm]

theorem trivia_iff_passes {tokens : List Token} :
    Trivia tokens ↔ Allowance.blankAndComment.Passes tokens := by
  constructor
  · intro h
    cases h with
    | none => trivial
    | whitespace hb => exact ⟨.comment, by rw [hb]; rfl, trivial⟩
    | comment hr => exact ⟨.spent, by rw [hr]; rfl, trivial⟩
    | both hb hr => exact ⟨.comment, by rw [hb]; rfl, .spent, by rw [hr]; rfl, trivial⟩
  · intro h
    cases tokens with
    | nil => exact .none
    | cons token tokens =>
      obtain ⟨left, ha, hleft⟩ := h
      rcases after?_eq_some_iff.mp ha with ⟨hb, -, rfl⟩ | ⟨hr, -, rfl⟩
      · cases tokens with
        | nil => exact .whitespace hb
        | cons remark tokens =>
          obtain ⟨left, ha, hleft⟩ := hleft
          rcases after?_eq_some_iff.mp ha with ⟨-, hfull, -⟩ | ⟨hr, -, rfl⟩
          · cases hfull
          · obtain rfl := eq_nil_of_passes_spent hleft
            exact .both hb hr
      · obtain rfl := eq_nil_of_passes_spent hleft
        exact .comment hr

namespace ParserState

variable {options : ParseOptions} {rule result after : Rule} {goal next : Goal}
  {allowance : Allowance} {token : Token} {kind : TokenKind}
  {tokens front back trivia more : List Token}

def Accepts (options : ParseOptions) (state : ParserState) (tokens : List Token) (rule : Rule) :
    Prop :=
  ∃ token, state.consume options tokens = .error ⟨.ok rule, token⟩

theorem after?_of_not_trivia (h : kind.isTrivia = false) : allowance.after? kind = none := by
  cases kind <;> cases h <;> cases allowance <;> rfl

theorem respond_allowance {other : Allowance} (h : token.kind.isTrivia = false) :
    respond options token ⟨goal, allowance, rule⟩ = respond options token ⟨goal, other, rule⟩ := by
  rw [respond_eq, respond_eq, after?_of_not_trivia h, after?_of_not_trivia h]

theorem consume_allowance {other : Allowance} (h : token.kind.isTrivia = false) :
    consume options ⟨goal, allowance, rule⟩ (token :: back) =
      consume options ⟨goal, other, rule⟩ (token :: back) := by
  rw [consume, consume, respond_allowance h]

theorem exists_consume_of_passes (h : allowance.Passes tokens) :
    ∃ left, consume options ⟨goal, allowance, rule⟩ tokens = .ok ⟨goal, left, rule⟩ := by
  induction tokens generalizing allowance with
  | nil => exact ⟨allowance, rfl⟩
  | cons token tokens ih =>
    obtain ⟨left, ha, hleft⟩ := h
    obtain ⟨last, hlast⟩ := ih hleft
    exact ⟨last, (consume_cons_of_ok (respond_of_after? ha)).trans hlast⟩

theorem exists_consume_trivia (h : Trivia trivia) (hg : goal.allowance = .blankAndComment) :
    ∃ left, (fresh goal rule).consume options trivia = .ok ⟨goal, left, rule⟩ := by
  rw [fresh, hg]
  exact exists_consume_of_passes (trivia_iff_passes.mp h)

theorem consume_trivia (h : Trivia trivia) (hg : goal.allowance = .blankAndComment)
    (ht : token.kind.isTrivia = false) :
    (fresh goal rule).consume options (trivia ++ token :: back) =
      (fresh goal rule).consume options (token :: back) := by
  obtain ⟨left, hleft⟩ := exists_consume_trivia h hg
  rw [consume_append_of_ok hleft]
  exact consume_allowance ht

theorem consume_of_take (ht : token.kind.isTrivia = false)
    (hj : goal.judge options rule token = .take next after) :
    (fresh goal rule).consume options (token :: back) = (fresh next after).consume options back :=
  consume_cons_of_ok (respond_of_take (after?_of_not_trivia ht) hj)

theorem consume_of_putBack (ha : allowance.after? token.kind = none)
    (hj : goal.judge options rule token = .putBack next) :
    consume options ⟨goal, allowance, rule⟩ (token :: back) =
      (fresh next rule).consume options (token :: back) := by
  rw [consume, consume, respond_of_putBack ha hj]

theorem accepts_wanted (h : Wanted kind token front) (hg : goal.allowance = .blankAndComment)
    (ht : kind.isTrivia = false) (hj : goal.judge options rule token = .take next after)
    (ha : (fresh next after).Accepts options back result) :
    (fresh goal rule).Accepts options (front ++ back) result := by
  obtain ⟨htrivia, rfl⟩ := h
  obtain ⟨last, hlast⟩ := ha
  refine ⟨last, ?_⟩
  rw [List.append_assoc, List.singleton_append, consume_trivia htrivia hg ht, consume_of_take ht hj]
  exact hlast

theorem consume_putBack_trivia (h : Trivia trivia) (hn : next.allowance = .blankAndComment)
    (ht : token.kind.isTrivia = false)
    (hj : ∀ other : Token, other.kind.isTrivia = true ∨ other.kind = token.kind →
      goal.judge options rule other = .putBack next) :
    consume options ⟨goal, allowance, rule⟩ (trivia ++ token :: back) =
      (fresh next rule).consume options (token :: back) := by
  induction trivia generalizing allowance with
  | nil => exact consume_of_putBack (after?_of_not_trivia ht) (hj token (.inr rfl))
  | cons first trivia ih =>
    obtain ⟨hfirst, htrivia⟩ := h.of_cons
    cases ha : allowance.after? first.kind with
    | some left =>
      rw [List.cons_append, consume_cons_of_ok (respond_of_after? ha)]
      exact ih htrivia
    | none =>
      -- put back, and passed over after all on the way to the next goal
      rw [List.cons_append, consume_of_putBack ha (hj first (.inl hfirst)), ← List.cons_append]
      exact consume_trivia h hn ht

/-- Where a goal puts back trivia as well as the token, trivia may stand twice before it. -/
theorem consume_trivia_twice (h : Trivia trivia) (hm : Trivia more)
    (hg : goal.allowance = .blankAndComment) (hn : next.allowance = .blankAndComment)
    (ht : token.kind.isTrivia = false)
    (hj : ∀ other : Token, other.kind.isTrivia = true ∨ other.kind = token.kind →
      goal.judge options rule other = .putBack next) :
    (fresh goal rule).consume options (trivia ++ (more ++ token :: back)) =
      (fresh next rule).consume options (token :: back) := by
  obtain ⟨left, hleft⟩ := exists_consume_trivia h hg
  rw [consume_append_of_ok hleft]
  exact consume_putBack_trivia hm hn ht hj

theorem respond_close (h : token.kind = .closeBrace) :
    (fresh .sectionOrEnd rule).respond options token = .error ⟨.ok rule, token⟩ := by
  have hn (allowance : Allowance) : allowance.after? token.kind = none := by
    rw [h]
    cases allowance <;> rfl
  have hj : Goal.sectionOrEnd.judge options rule token = .putBack .closeBrace := by
    simp [Goal.judge, h]
  have hj' : Goal.closeBrace.judge options rule token = .accept := by
    simp [Goal.judge, h]
  exact (respond_of_putBack (hn _) hj).trans (respond_of_accept (hn _) hj')

theorem respond_close_of_putBack (h : token.kind = .closeBrace)
    (hj : goal.judge options rule token = .putBack .sectionOrEnd) :
    (fresh goal rule).respond options token = .error ⟨.ok rule, token⟩ := by
  have ha : goal.allowance.after? token.kind = none := by
    rw [h]
    exact after?_of_not_trivia rfl
  exact (respond_of_putBack ha hj).trans (respond_close h)

theorem accepts_close (h : Wanted .closeBrace token front) (hg : goal.allowance = .blankAndComment)
    (hr : (fresh goal rule).respond options token = .error ⟨.ok rule, token⟩) :
    (fresh goal rule).Accepts options (front ++ back) rule := by
  obtain ⟨htrivia, hk⟩ := h
  have ht : token.kind.isTrivia = false := by
    rw [hk]
    rfl
  refine ⟨token, ?_⟩
  rw [List.append_assoc, List.singleton_append, consume_trivia htrivia hg ht]
  exact consume_cons_of_error hr

theorem judge_skipped {depth left : Nat} (he : token.kind ≠ .endOfInput)
    (h : left + (if token.kind = .closeBrace then 1 else 0) =
      depth + if token.kind = .openBrace then 1 else 0) :
    (Goal.skippedCondition depth).judge options rule token =
      .take (.skippedCondition left) rule := by
  by_cases hc : token.kind = .closeBrace
  · obtain rfl : depth = left + 1 := by simpa [hc] using h.symm
    simp [Goal.judge, hc]
  by_cases ho : token.kind = .openBrace
  · obtain rfl : left = depth + 1 := by simpa [ho] using h
    simp [Goal.judge, ho]
  obtain rfl : left = depth := by simpa [hc, ho] using h
  cases hk : token.kind <;> simp_all [Goal.judge]

theorem consume_skipped {depth left : Nat} (he : token.kind ≠ .endOfInput)
    (h : left + (if token.kind = .closeBrace then 1 else 0) =
      depth + if token.kind = .openBrace then 1 else 0) :
    (fresh (.skippedCondition depth) rule).consume options (token :: back) =
      (fresh (.skippedCondition left) rule).consume options back := by
  have ha : (Goal.skippedCondition depth).allowance.after? token.kind = none := by
    cases token.kind <;> rfl
  exact consume_cons_of_ok (respond_of_take ha (judge_skipped he h))

theorem consume_closed {depth : Nat} (h : Closes depth tokens)
    (he : ∀ token ∈ tokens, token.kind ≠ .endOfInput) (hc : token.kind = .closeBrace) :
    (fresh (.skippedCondition depth) rule).consume options (tokens ++ token :: back) =
      .error ⟨.ok rule, token⟩ := by
  induction tokens generalizing depth with
  | nil =>
    obtain rfl := closes_nil_iff.mp h
    exact consume_cons_of_error (respond_close_of_putBack hc (by simp [Goal.judge, hc]))
  | cons first tokens ih =>
    obtain ⟨hfirst, he⟩ := List.forall_mem_cons.mp he
    obtain ⟨left, hleft, htokens⟩ := closes_cons_iff.mp h
    exact (consume_skipped hfirst hleft).trans (ih htokens he)

theorem accepts_of_trivia_twice (h : Trivia trivia) (hw : Wanted kind token front)
    (hg : goal.allowance = .blankAndComment) (hn : next.allowance = .blankAndComment)
    (ht : kind.isTrivia = false)
    (hj : ∀ other : Token, other.kind.isTrivia = true ∨ other.kind = kind →
      goal.judge options rule other = .putBack next)
    (ha : (fresh next rule).Accepts options (front ++ back) result) :
    (fresh goal rule).Accepts options (trivia ++ front ++ back) result := by
  obtain ⟨hmore, rfl⟩ := hw
  obtain ⟨last, hlast⟩ := ha
  refine ⟨last, ?_⟩
  rw [List.append_assoc, List.singleton_append, consume_trivia hmore hn ht] at hlast
  rw [List.append_assoc, List.append_assoc, List.singleton_append,
    consume_trivia_twice h hmore hg hn ht hj]
  exact hlast

theorem accepts_header {name colon : Token} {names colons : List Token} {part : BodySection}
    (hname : Wanted .identifier name names) (hcolon : Wanted .colon colon colons)
    (hpart : part.Named name.literal) (hg : goal.allowance = .blankAndComment)
    (hn : next.allowance = .blankAndComment)
    (hjname : goal.judge options rule name = .take next rule)
    (hjcolon : next.judge options rule colon =
      .take (.ofSection options (.ofName name.literal)) rule)
    (ha : (fresh (.ofSection options part) rule).Accepts options back result) :
    (fresh goal rule).Accepts options (names ++ (colons ++ back)) result := by
  rw [BodySection.named_iff.mp hpart] at hjcolon
  exact accepts_wanted hname hg rfl hjname (accepts_wanted hcolon hn rfl hjcolon ha)

theorem accepts_body {part : BodySection} {entries : List Entry}
    (h : Body options part tokens entries) (rule : Rule) (back : List Token) :
    (fresh (.ofSection options part) rule).Accepts options (tokens ++ back)
      (rule.addEntries entries) := by
  induction h generalizing rule with
  | unknownEnd hclose => exact accepts_close hclose rfl (respond_close hclose.kind_eq)
  | @unknownHeader trivia name names colon colons part tokens entries htrivia hname hcolon hpart _
      ih =>
    have hj : Goal.sectionName.judge options rule name =
        .take (.sectionColon name.literal) rule := by
      simp [Goal.judge, hname.kind_eq]
    have hend : (fresh .sectionName rule).Accepts options (names ++ (colons ++ (tokens ++ back)))
        (rule.addEntries entries) :=
      accepts_header hname hcolon hpart rfl rfl hj (by simp [Goal.judge, hcolon.kind_eq]) (ih rule)
    have hall : (fresh (.ofSection options .unknown) rule).Accepts options
        (trivia ++ names ++ (colons ++ (tokens ++ back))) (rule.addEntries entries) := by
      refine accepts_of_trivia_twice htrivia hname rfl rfl rfl (fun other ho => ?_) hend
      cases hk : other.kind <;> simp [hk, TokenKind.isTrivia] at ho <;>
        simp [Goal.ofSection, Goal.judge, hk]
    simpa only [List.append_assoc] using hall
  | metadataEnd hclose =>
    refine accepts_close hclose rfl (respond_close_of_putBack hclose.kind_eq ?_)
    simp [Goal.judge, hclose.kind_eq, Goal.ofSection]
  | @metadataEntry key _ equal _ value _ tokens entries hkey hequal hvalue _ ih =>
    have hj : Goal.metadataKey.judge options rule key =
        .take (.metadataAssign key.literal) rule := by
      simp [Goal.judge, hkey.kind_eq]
    have hj' : (Goal.metadataAssign key.literal).judge options rule equal =
        .take (.metadataValue key.literal) rule := by
      simp [Goal.judge, hequal.kind_eq]
    have hj'' : (Goal.metadataValue key.literal).judge options rule value =
        .take .metadataKey (rule.addMetadata key.literal value.literal) := by
      simp [Goal.judge, hvalue.kind_eq]
    simp only [List.append_assoc]
    exact accepts_wanted hkey rfl rfl hj (accepts_wanted hequal rfl rfl hj'
      (accepts_wanted hvalue rfl rfl hj'' (ih _)))
  | @metadataHeader name _ colon _ part tokens entries hname hcolon hpart _ ih =>
    have hj : Goal.metadataKey.judge options rule name =
        .take (.metadataAssign name.literal) rule := by
      simp [Goal.judge, hname.kind_eq]
    simp only [List.append_assoc]
    exact accepts_header hname hcolon hpart rfl rfl hj (by simp [Goal.judge, hcolon.kind_eq])
      (ih rule)
  | stringsEnd hclose =>
    refine accepts_close hclose rfl (respond_close_of_putBack hclose.kind_eq ?_)
    simp [Goal.judge, hclose.kind_eq, Goal.ofSection]
  | @stringsEntry name _ equal _ value _ tokens entries hname hequal hvalue _ ih =>
    have hj : Goal.patternName.judge options rule name =
        .take (.patternAssign name.literal) rule := by
      simp [Goal.judge, hname.kind_eq]
    have hj' : (Goal.patternAssign name.literal).judge options rule equal =
        .take (.patternValue name.literal) rule := by
      simp [Goal.judge, hequal.kind_eq]
    have hj'' : (Goal.patternValue name.literal).judge options rule value =
        .take .patternName (rule.addPattern name.literal (.ofString value.literal)) := by
      simp [Goal.judge, hvalue.kind_eq]
    simp only [List.append_assoc]
    exact accepts_wanted hname rfl rfl hj (accepts_wanted hequal rfl rfl hj'
      (accepts_wanted hvalue rfl rfl hj'' (ih _)))
  | @stringsHeader name _ colon _ part tokens entries hname hcolon hpart _ ih =>
    have hj : Goal.patternName.judge options rule name = .take (.headerColon name) rule := by
      simp [Goal.judge, hname.kind_eq]
    simp only [List.append_assoc]
    exact accepts_header hname hcolon hpart rfl rfl hj (by simp [Goal.judge, hcolon.kind_eq])
      (ih rule)
  | conditions hskip _ ih =>
    have hsame : Goal.ofSection options .conditions = Goal.ofSection options .unknown := by
      simp [Goal.ofSection, hskip]
    rw [hsame]
    exact ih rule
  | @skipped run close hskip hrun he hclose =>
    have hgoal : Goal.ofSection options .conditions = .skippedCondition 0 := by
      simp [Goal.ofSection, hskip]
    rw [hgoal, List.append_assoc, List.singleton_append]
    exact ⟨close, consume_closed hrun he hclose⟩

theorem accepts_tagNames {colonStart : Nat} {names : List String} (h : TagNames tokens names)
    (hne : rule.tags ++ names ≠ []) (ht : Trivia trivia) (hbrace : Wanted .openBrace token front)
    (ha : (fresh .openBrace { rule with tags := rule.tags ++ names }).Accepts options
      (front ++ back) result) :
    (fresh (.tag colonStart) rule).Accepts options (tokens ++ (trivia ++ front ++ back))
      result := by
  induction h generalizing rule with
  | nil =>
    rw [List.append_nil] at hne ha
    refine accepts_of_trivia_twice ht hbrace rfl rfl rfl (fun other ho => ?_) ha
    cases hk : other.kind <;> simp [hk, TokenKind.isTrivia] at ho <;> simp [Goal.judge, hk, hne]
  | @cons name _ _ names hname _ ih =>
    have hj : (Goal.tag colonStart).judge options rule name =
        .take (.tag colonStart) (rule.addTag name.literal) := by
      simp [Goal.judge, hname.kind_eq]
    rw [List.append_assoc]
    refine accepts_wanted hname rfl rfl hj (ih (by simp [Rule.addTag]) ?_)
    simpa [Rule.addTag] using ha

theorem accepts_tags {names : List String} (h : Tags tokens names) (hr : rule.tags = [])
    (ht : Trivia trivia) (hbrace : Wanted .openBrace token front)
    (ha : (fresh .openBrace { rule with tags := names }).Accepts options (front ++ back) result) :
    (fresh .tagColon rule).Accepts options (tokens ++ (trivia ++ front ++ back)) result := by
  cases h with
  | none =>
    rw [← hr] at ha
    refine accepts_of_trivia_twice ht hbrace rfl rfl rfl (fun other ho => ?_) ha
    cases hk : other.kind <;> simp [hk, TokenKind.isTrivia] at ho <;> simp [Goal.judge, hk]
  | @listed colon _ _ _ hcolon hnames hne =>
    have hj : Goal.tagColon.judge options rule colon = .take (.tag colon.span.start) rule := by
      simp [Goal.judge, hcolon.kind_eq]
    rw [List.append_assoc]
    refine accepts_wanted hcolon rfl rfl hj (accepts_tagNames hnames (by simp [hne]) ht hbrace ?_)
    simpa [hr] using ha

theorem accepts_of_derivesFrom (h : rule.DerivesFrom options tokens) (back : List Token) :
    start.Accepts options (tokens ++ back) rule := by
  obtain @⟨word, _, name, _, _, tags, _, brace, _, _, _, hword, hname, htags, htrivia, hbrace,
    hbody⟩ := h
  have hj : Goal.ruleWord.judge options .empty word = .take .ruleName .empty := by
    simp [Goal.judge, hword.kind_eq]
  have hj' : Goal.ruleName.judge options .empty name =
      .take .tagColon { Rule.empty with name := name.literal } := by
    simp [Goal.judge, hname.kind_eq]
  have hj'' (rule : Rule) : Goal.openBrace.judge options rule brace = .take .sectionOrEnd rule := by
    simp [Goal.judge, hbrace.kind_eq]
  have hbraces := accepts_wanted hbrace rfl rfl (hj'' ⟨name.literal, tags, .empty, .empty⟩)
    (accepts_body hbody _ back)
  have htail := @accepts_tags _ { Rule.empty with name := name.literal } _ _ _ _ _ _ _ htags rfl
    htrivia hbrace hbraces
  simp only [List.append_assoc] at htail ⊢
  exact accepts_wanted hword rfl rfl hj (accepts_wanted hname rfl rfl hj' htail)

theorem parse_of_accepts {text : List Char} (hl : Lexed ⟨0, text⟩ tokens)
    (ha : start.Accepts options tokens rule) : parse (.ofList text) options = .ok rule := by
  obtain ⟨token, ha⟩ := ha
  rw [← tokenize_ofList hl] at ha
  exact parse_eq_of_consume ha

end ParserState

theorem parse_of_derivesFrom {source : String} {options : ParseOptions} {rule : Rule}
    {front : List Token} (hf : front <+: tokenize source) (h : rule.DerivesFrom options front) :
    parse source options = .ok rule := by
  obtain ⟨back, hback⟩ := hf
  obtain ⟨token, ha⟩ := ParserState.accepts_of_derivesFrom h back
  rw [hback] at ha
  exact parse_eq_of_consume ha

end SignatureRules

import SignatureRules.Proofs.ParsedRules
import SignatureRules.Proofs.TokenBoundaries
import SignatureRules.Proofs.TriviaContents

namespace SignatureRules

variable {options : ParseOptions} {rule result : Rule} {goal next : Goal} {token other : Token}
  {allowance left : Allowance} {blank comment white : Token} {tokens others front back : List Token}

theorem TokenKind.isTrivia_eq_false {kind : TokenKind} (hw : kind ≠ .whitespace)
    (hc : kind ≠ .comment) : kind.isTrivia = false := by
  cases kind with
  | whitespace => exact absurd rfl hw
  | comment => exact absurd rfl hc
  | _ => rfl

namespace Goal

/-- The other goal wants one kind of token and gets every such token from the goal. -/
def DefersTo (options : ParseOptions) (rule : Rule) (goal next : Goal) : Prop :=
  ∃ kind, next.wanted? = some kind ∧ kind.isTrivia = false ∧
    ∀ token : Token, token.kind = kind → goal.judge options rule token = .putBack next

theorem judge_trivia (hk : token.kind = .whitespace ∨ token.kind = .comment) :
    (∃ depth, goal = .skippedCondition depth ∧
        goal.judge options rule token = .take (.skippedCondition depth) rule) ∨
      (∃ next, goal.judge options rule token = .putBack next ∧ goal.DefersTo options rule next) ∨
      ∃ error, goal.judge options rule token = .reject error := by
  cases goal with
  | skippedCondition depth =>
    refine .inl ⟨depth, rfl, ?_⟩
    rcases hk with hk | hk <;> simp [judge, hk]
  | tagColon =>
    refine .inr (.inl ⟨.openBrace, ?_, .openBrace, rfl, rfl, fun other ho => ?_⟩)
    · rcases hk with hk | hk <;> simp [judge, hk]
    · simp [judge, ho]
  | tag colonStart =>
    by_cases hr : rule.tags = []
    · refine .inr (.inr ⟨⟨⟨colonStart, token.span.stop⟩, .noTags⟩, ?_⟩)
      rcases hk with hk | hk <;> simp [judge, hk, hr]
    · refine .inr (.inl ⟨.openBrace, ?_, .openBrace, rfl, rfl, fun other ho => ?_⟩)
      · rcases hk with hk | hk <;> simp [judge, hk, hr]
      · simp [judge, ho, hr]
  | sectionOrEnd =>
    refine .inr (.inl ⟨.sectionName, ?_, .identifier, rfl, rfl, fun other ho => ?_⟩)
    · rcases hk with hk | hk <;> simp [judge, hk]
    · simp [judge, ho]
  | _ =>
    refine .inr (.inr ?_)
    rcases hk with hk | hk <;> simp only [judge, hk] <;> exact ⟨_, rfl⟩

end Goal

namespace ParserState

theorem accepts_of_defersTo (hd : goal.DefersTo options rule next)
    (h : Accepts options ⟨next, allowance, rule⟩ tokens result) :
    Accepts options ⟨goal, allowance, rule⟩ tokens result := by
  obtain ⟨kind, hw, ht, hj⟩ := hd
  obtain ⟨trivia, found, back, rfl, hpasses, hcases⟩ := exists_passed h
  by_cases hk : found.kind = kind
  · have hfound : found.kind.isTrivia = false := hk ▸ ht
    obtain ⟨last, hlast⟩ := h
    obtain ⟨_, hnext⟩ := @exists_consume_of_passes options rule next _ _ hpasses
    obtain ⟨_, hgoal⟩ := @exists_consume_of_passes options rule goal _ _ hpasses
    rw [consume_append_of_ok hnext, consume_allowance hfound] at hlast
    refine ⟨last, ?_⟩
    rw [consume_append_of_ok hgoal, consume_of_putBack (after?_of_not_trivia hfound) (hj found hk)]
    exact hlast
  · obtain ⟨error, hreject⟩ := Goal.judge_of_wanted? hw hk options rule
    rw [hreject] at hcases
    exact hcases.elim

theorem accepts_of_spent (hg : goal.allowance = .blankAndComment)
    (ha : Allowance.blankAndComment.after? token.kind = some left)
    (h : Accepts options ⟨goal, .spent, rule⟩ (token :: back) result) :
    Accepts options ⟨goal, left, rule⟩ back result := by
  have hk : token.kind = .whitespace ∨ token.kind = .comment :=
    (after?_eq_some_iff.mp ha).imp And.left And.left
  have hspent : Allowance.spent.after? token.kind = none := by
    cases token.kind <;> rfl
  have hcases := acceptsBy_judge hspent h
  rcases @Goal.judge_trivia options rule goal token hk with
    ⟨depth, rfl, -⟩ | ⟨next, hj, hd⟩ | ⟨error, hj⟩
  · cases hg
  · -- the goal that the token is put back for passes over it
    rw [hj] at hcases
    obtain ⟨last, hlast⟩ := hcases
    obtain ⟨kind, hw, hdefers⟩ := hd
    rw [fresh, Goal.allowance_of_wanted? hw, consume_cons_of_ok (respond_of_after? ha)] at hlast
    exact accepts_of_defersTo ⟨kind, hw, hdefers⟩ ⟨last, hlast⟩
  · rw [hj] at hcases
    exact hcases.elim

def Fair (state : ParserState) : Prop :=
  state.goal.allowance = .blankAndComment ∨ state.allowance = .spent

theorem fair_fresh (goal : Goal) (rule : Rule) : (fresh goal rule).Fair := by
  cases goal with
  | skippedCondition depth => exact .inr rfl
  | _ => exact .inl rfl

variable {state last : ParserState}

theorem Fair.allowance_eq (hf : state.Fair) (ha : state.allowance.after? token.kind = some left) :
    state.goal.allowance = .blankAndComment := by
  rcases hf with hf | hf
  · exact hf
  · rw [hf] at ha
    rcases after?_eq_some_iff.mp ha with ⟨-, hfull, -⟩ | ⟨-, hne, -⟩
    · cases hfull
    · exact absurd rfl hne

theorem Fair.respond (hf : state.Fair) (h : state.respond options token = .ok last) :
    last.Fair := by
  fun_induction ParserState.respond options token state with
  | case1 state allowance ha =>
    cases h
    exact .inl (hf.allowance_eq ha)
  | case2 =>
    cases h
    exact fair_fresh _ _
  | case3 state _ goal _ ih => exact ih (fair_fresh goal state.rule) h
  | case4 => cases h
  | case5 => cases h

theorem Fair.consume (hf : state.Fair) (h : state.consume options tokens = .ok last) :
    last.Fair := by
  induction tokens generalizing state with
  | nil =>
    cases h
    exact hf
  | cons token tokens ih =>
    obtain ⟨next, hr, hnext⟩ := exists_respond_of_consume h
    exact ih (hf.respond hr) hnext

/-- A state of a run right after whitespace: the whitespace was passed over, or conditions are
skipped. -/
inductive AfterBlank : ParserState → Prop
  | passed {goal : Goal} {rule : Rule} : goal.allowance = .blankAndComment →
      AfterBlank ⟨goal, .comment, rule⟩
  | skipped {depth : Nat} {rule : Rule} : AfterBlank (fresh (.skippedCondition depth) rule)

theorem Fair.afterBlank (hf : state.Fair) (hb : blank.kind = .whitespace)
    (h : state.respond options blank = .ok last) : last.AfterBlank := by
  fun_induction ParserState.respond options blank state with
  | case1 state allowance ha =>
    cases h
    have hg := hf.allowance_eq ha
    rw [hb] at ha
    rcases after?_eq_some_iff.mp ha with ⟨-, -, rfl⟩ | ⟨hk, -, -⟩
    · exact .passed hg
    · cases hk
  | case2 state _ goal rule hj =>
    cases h
    rcases @Goal.judge_trivia options state.rule state.goal blank (.inl hb) with
      ⟨depth, -, hj'⟩ | ⟨next, hj', -⟩ | ⟨error, hj'⟩
    · cases hj.symm.trans hj'
      exact .skipped
    · cases hj.symm.trans hj'
    · cases hj.symm.trans hj'
  | case3 state _ goal _ ih => exact ih (fair_fresh goal state.rule) h
  | case4 => cases h
  | case5 => cases h

theorem consume_skipped_trivia {depth : Nat}
    (hk : token.kind = .whitespace ∨ token.kind = .comment) :
    (fresh (.skippedCondition depth) rule).consume options (token :: back) =
      (fresh (.skippedCondition depth) rule).consume options back := by
  apply consume_skipped
  · rcases hk with hk | hk <;> simp [hk]
  · rcases hk with hk | hk <;> simp [hk]

theorem consume_comment (hc : comment.kind = .comment) :
    consume options ⟨goal, .comment, rule⟩ (comment :: back) =
      consume options ⟨goal, .spent, rule⟩ back := by
  apply consume_cons_of_ok
  apply respond_of_after?
  exact after?_eq_some_iff.mpr (.inr ⟨hc, nofun, rfl⟩)

namespace AfterBlank

theorem insert (hs : state.AfterBlank) (hc : comment.kind = .comment)
    (hn : ∀ next ∈ back.head?, next.kind.isTrivia = false) (h : state.Accepts options back rule) :
    state.Accepts options (comment :: back) rule := by
  obtain ⟨last, hlast⟩ := h
  refine ⟨last, ?_⟩
  cases hs with
  | passed =>
    cases back with
    | nil => cases hlast
    | cons next back =>
      rw [consume_comment hc, ← hlast]
      exact consume_allowance (hn next rfl)
  | skipped =>
    rw [consume_skipped_trivia (.inr hc)]
    exact hlast

theorem erase (hs : state.AfterBlank) (hc : comment.kind = .comment)
    (hn : ∀ next ∈ back.head?, next.kind ≠ .whitespace)
    (h : state.Accepts options (comment :: back) rule) : state.Accepts options back rule := by
  obtain ⟨last, hlast⟩ := h
  cases hs with
  | passed hg =>
    rw [consume_comment hc] at hlast
    cases back with
    | nil => cases hlast
    | cons next back =>
      by_cases hk : next.kind = .comment
      · -- the next comment is passed over in place of the one that is left out
        have ha : Allowance.blankAndComment.after? next.kind = some .spent :=
          after?_eq_some_iff.mpr (.inr ⟨hk, nofun, rfl⟩)
        rw [Accepts, consume_comment hk]
        exact accepts_of_spent hg ha ⟨last, hlast⟩
      · have ht : next.kind.isTrivia = false := TokenKind.isTrivia_eq_false (hn next rfl) hk
        exact ⟨last, (consume_allowance ht).trans hlast⟩
  | skipped =>
    rw [consume_skipped_trivia (.inr hc)] at hlast
    exact ⟨last, hlast⟩

theorem merge (hs : state.AfterBlank) (hc : comment.kind = .comment)
    (hw : white.kind = .whitespace) (h : state.Accepts options (comment :: white :: back) rule) :
    state.Accepts options back rule := by
  obtain ⟨last, hlast⟩ := h
  cases hs with
  | passed hg =>
    rw [consume_comment hc] at hlast
    exact accepts_of_spent hg (after?_eq_some_iff.mpr (.inl ⟨hw, rfl, rfl⟩)) ⟨last, hlast⟩
  | skipped =>
    rw [consume_skipped_trivia (.inr hc), consume_skipped_trivia (.inl hw)] at hlast
    exact ⟨last, hlast⟩

end AfterBlank

theorem accepts_after_blank (hb : blank.kind = .whitespace)
    (h : start.Accepts options (front ++ blank :: back) rule)
    (hback : ∀ state, AfterBlank state → state.Accepts options back rule →
      state.Accepts options others rule) :
    start.Accepts options (front ++ blank :: others) rule := by
  have happend (tokens : List Token) : front ++ blank :: tokens = front ++ [blank] ++ tokens := by
    simp
  rw [happend] at h ⊢
  cases hf : start.consume options (front ++ [blank]) with
  | error ending =>
    -- the run ends before it comes to the tokens that differ
    obtain ⟨last, hlast⟩ := h
    rw [consume_append_of_error hf] at hlast
    exact ⟨last, by rw [consume_append_of_error hf, hlast]⟩
  | ok state =>
    obtain ⟨before, hbefore, hstate⟩ := exists_consume_of_append hf
    obtain ⟨_, hr, hnil⟩ := exists_respond_of_consume hstate
    cases hnil
    have hfair : before.Fair := (fair_fresh .ruleWord .empty).consume hbefore
    rw [Accepts, consume_append_of_ok hf] at h ⊢
    exact hback state (hfair.afterBlank hb hr) h

theorem accepts_of_alike (h : List.Forall₂ Token.Alike tokens others)
    (ha : start.Accepts options tokens rule) : start.Accepts options others rule := by
  obtain ⟨hlength, halike⟩ := List.forall₂_iff_zip.mp h
  obtain ⟨last, hlast⟩ := ha
  have hstart : start.Mirrors (tokens.zip others) start := ⟨.same rfl, rfl, rfl⟩
  have hruns := @Mirrors.consume options _ (tokens.zip others) _ _ hstart
    fun pair hm => ⟨hm, halike hm⟩
  rw [List.map_fst_zip (Nat.le_of_eq hlength), List.map_snd_zip (Nat.le_of_eq hlength.symm),
    hlast] at hruns
  generalize hother : start.consume options others = outcome at hruns
  cases hruns with
  | @ended _ ending hsame =>
    obtain ⟨result, other⟩ := ending
    cases hsame
    exact ⟨other, hother⟩

end ParserState

theorem Token.alike_shift (token : Token) (size size' : Nat) :
    (token.shift size).Alike (token.shift size') := ⟨rfl, fun _ => rfl⟩

theorem Lexed.alike {n m : Nat} {text : List Char} (h : Lexed ⟨n, text⟩ tokens)
    (h' : Lexed ⟨m, text⟩ others) : List.Forall₂ Token.Alike tokens others := by
  obtain ⟨base, hbase⟩ := exists_lexed ⟨0, text⟩
  have hn := hbase.shift n
  have hm := hbase.shift m
  rw [Nat.zero_add] at hn hm
  rw [h.unique hn, h'.unique hm, List.forall₂_map_left_iff, List.forall₂_map_right_iff]
  exact List.forall₂_same.mpr fun token _ => token.alike_shift n m

theorem IsLexeme.whitespace_eq {literal lexeme following : List Char}
    (h : IsLexeme .whitespace literal lexeme following) :
    lexeme ≠ [] ∧ (∀ c ∈ lexeme, isBlank c = true) ∧ Stops isBlank following := by
  cases h with
  | whitespace hne hall hstop => exact ⟨hne, hall, hstop⟩
  | keyword _ _ hkind => cases hkind
  | punctuation hmark => cases hmark

theorem Lexed.starts_blank {n : Nat} {text : List Char} (h : Lexed ⟨n, text⟩ tokens) :
    (Stops isBlank text ∧ ∀ next ∈ tokens.head?, next.kind ≠ .whitespace) ∨
      ∃ run tail white rest, text = run ++ tail ∧ tokens = white :: rest ∧ run ≠ [] ∧
        white.kind = .whitespace ∧ (∀ c ∈ run, isBlank c = true) ∧ Stops isBlank tail ∧
        Lexed ⟨n + byteSize run, tail⟩ rest := by
  cases h with
  | done =>
    refine .inl ⟨stops_nil _, fun next hm => ?_⟩
    cases hm
    exact nofun
  | @cons _ kind literal lexeme following rest hlexeme hrest =>
    by_cases hk : kind = .whitespace
    · subst hk
      obtain ⟨hne, hall, hstop⟩ := hlexeme.whitespace_eq
      exact .inr ⟨lexeme, following, _, rest, rfl, rfl, hne, rfl, hall, hstop, hrest⟩
    · refine .inl ⟨hlexeme.stops_isBlank hk, fun next hm => ?_⟩
      cases hm
      exact hk

theorem Lexed.head_ne_whitespace {n : Nat} {text : List Char} (h : Lexed ⟨n, text⟩ tokens)
    (hs : Stops isBlank text) : ∀ next ∈ tokens.head?, next.kind ≠ .whitespace := by
  rcases h.starts_blank with ⟨-, hnext⟩ | ⟨run, tail, _, _, rfl, -, hne, -, hall, -⟩
  · exact hnext
  · obtain ⟨c, cs, rfl⟩ := List.exists_cons_of_ne_nil hne
    have hblank : isBlank c = true := hall c (.head cs)
    rw [stops_cons.mp hs] at hblank
    cases hblank

theorem Lexed.exists_blank {text : List Char} (h : Lexed ⟨0, text⟩ (front ++ blank :: back))
    (hb : blank.kind = .whitespace) :
    ∃ head tail, text = head ++ tail ∧ blank.span.stop = byteSize head ∧
      Lexed ⟨byteSize head, tail⟩ back ∧ Stops isBlank tail ∧
      ∀ run other tokens, (∀ c ∈ run, isBlank c = true) → Stops isBlank other →
        Lexed ⟨byteSize (head ++ run), other⟩ tokens →
        ∃ white : Token, white.kind = .whitespace ∧
          Lexed ⟨0, head ++ run ++ other⟩ (front ++ white :: tokens) := by
  obtain ⟨before, rest, rfl, -, hl, hsame⟩ := h.exists_text
  simp only [Nat.zero_add] at hl hsame
  cases hl with
  | done => cases hb
  | @cons _ kind literal lexeme following _ hlexeme hback =>
    obtain rfl : kind = .whitespace := hb
    obtain ⟨hne, hall, hstop⟩ := hlexeme.whitespace_eq
    rw [← byteSize_append] at hback
    refine ⟨before ++ lexeme, following, (List.append_assoc ..).symm, (byteSize_append ..).symm,
      hback, hstop, fun run other tokens hrun hother htokens => ?_⟩
    obtain ⟨c, cs, hc⟩ := List.exists_cons_of_ne_nil hne
    have hhead : (lexeme ++ run ++ other).head? = (lexeme ++ following).head? := by
      rw [hc]
      rfl
    have hblank : IsLexeme .whitespace (lexeme ++ run) (lexeme ++ run) other :=
      .whitespace (by simp [hne]) (List.forall_mem_append.mpr ⟨hall, hrun⟩) hother
    rw [List.append_assoc, byteSize_append] at htokens
    have hall := hsame _ _ (.inr hhead) (.cons hblank htokens)
    exact ⟨_, rfl, by simpa only [List.append_assoc] using hall⟩

inductive IsClosedComment : String → Prop
  | block {body : String} : ¬ ['*', '/'] <:+: body.toList → IsClosedComment ("/*" ++ body ++ "*/")
  | line {body : String} : '\n' ∉ body.toList → IsClosedComment ("//" ++ body ++ "\n")

theorem IsClosedComment.exists_isLexeme {text : String} (h : IsClosedComment text) :
    ∃ literal, ∀ following, IsLexeme .comment literal text.toList following := by
  cases h with
  | @block body hbody =>
    refine ⟨body.toList, fun following => ?_⟩
    rw [String.toList_append, String.toList_append]
    exact .blockComment hbody
  | @line body hbody =>
    refine ⟨Lexeme.dropReturn body.toList, fun following => ?_⟩
    rw [String.toList_append, String.toList_append]
    exact .of_line hbody following

def insertAt (source text : String) (offset : Nat) : String :=
  Span.textIn source ⟨0, offset⟩ ++ text ++ Span.textIn source ⟨offset, source.utf8ByteSize⟩

def without (source : String) (span : Span) : String :=
  Span.textIn source ⟨0, span.start⟩ ++ Span.textIn source ⟨span.stop, source.utf8ByteSize⟩

theorem parse_after_blank {source : String} {text : List Char} (h : parse source options = .ok rule)
    (ht : tokenize source = front ++ blank :: back) (hb : blank.kind = .whitespace)
    (hw : white.kind = .whitespace) (hl : Lexed ⟨0, text⟩ (front ++ white :: tokens))
    (halike : List.Forall₂ Token.Alike others tokens)
    (hback : ∀ state : ParserState, state.AfterBlank → state.Accepts options back rule →
      state.Accepts options others rule) : parse (.ofList text) options = .ok rule := by
  obtain ⟨last, hlast⟩ := consume_tokenize source options
  rw [ht, h] at hlast
  have haccepts := ParserState.accepts_after_blank hb ⟨last, hlast⟩ hback
  have hblanks : blank.Alike white := by
    refine ⟨hb.trans hw.symm, fun hn => ?_⟩
    rw [hb] at hn
    cases hn
  have hfront : List.Forall₂ Token.Alike front front :=
    List.forall₂_same.mpr fun token _ => ⟨rfl, fun _ => rfl⟩
  have hall := List.rel_append hfront (List.Forall₂.cons hblanks halike)
  exact ParserState.parse_of_accepts hl (ParserState.accepts_of_alike hall haccepts)

theorem parse_insertAt_comment {source comment : String} (h : parse source options = .ok rule)
    (ht : tokenize source = front ++ blank :: back) (hb : blank.kind = .whitespace)
    (hn : ∀ next ∈ back.head?, next.kind ≠ .comment) (hc : IsClosedComment comment) :
    parse (insertAt source comment blank.span.stop) options = .ok rule := by
  have hl := lexed_tokenize source
  rw [ht] at hl
  obtain ⟨head, tail, hs, hstop, hback, htail, hsame⟩ := hl.exists_blank hb
  obtain ⟨literal, hlexeme⟩ := hc.exists_isLexeme
  obtain ⟨rest, hrest⟩ := exists_lexed ⟨byteSize head + byteSize comment.toList, tail⟩
  have hcomment := Lexed.cons (hlexeme tail) hrest
  have hopens : Stops isBlank (comment.toList ++ tail) :=
    (hlexeme tail).stops_isBlank (by decide)
  rw [← List.append_nil head] at hcomment
  obtain ⟨white, hw, hall⟩ := hsame [] _ _ (by simp) hopens hcomment
  have hinsert : insertAt source comment blank.span.stop =
      .ofList (head ++ [] ++ (comment.toList ++ tail)) := by
    rw [insertAt, hstop, textIn_head hs, textIn_tail hs, List.append_nil, String.ofList_append,
      String.ofList_append, String.ofList_toList, String.append_assoc]
  have hnext : ∀ next ∈ back.head?, next.kind.isTrivia = false := by
    intro next hm
    apply TokenKind.isTrivia_eq_false
    · exact hback.head_ne_whitespace htail next hm
    · exact hn next hm
  rw [hinsert]
  refine parse_after_blank h ht hb hw hall (.cons ⟨rfl, fun _ => rfl⟩ (hback.alike hrest)) ?_
  intro state hstate haccepts
  exact hstate.insert rfl hnext haccepts

theorem parse_without_comment {source : String} (h : parse source options = .ok rule)
    (ht : tokenize source = front ++ blank :: comment :: back) (hb : blank.kind = .whitespace)
    (hc : comment.kind = .comment) : parse (without source comment.span) options = .ok rule := by
  have hl := lexed_tokenize source
  rw [ht] at hl
  obtain ⟨head, tail, hs, -, hback, -, hsame⟩ := hl.exists_blank hb
  cases hback with
  | done => cases hc
  | @cons _ _ literal lexeme following _ hlexeme hback =>
    have hwithout : without source ⟨byteSize head, byteSize head + byteSize lexeme⟩ =
        .ofList (head ++ following) := by
      rw [← List.append_assoc] at hs
      have htail := textIn_tail hs
      rw [byteSize_append] at htail
      rw [without, htail, textIn_head (hs.trans (List.append_assoc ..)), String.ofList_append]
    rw [hwithout]
    rcases hback.starts_blank with ⟨hstop, hnext⟩ |
      ⟨run, tail, gap, others, rfl, rfl, -, hgap, hrun, hstop, hrest⟩
    · obtain ⟨rest, hrest⟩ := exists_lexed ⟨byteSize (head ++ []), following⟩
      obtain ⟨white, hw, hall⟩ := hsame [] _ _ (by simp) hstop hrest
      rw [List.append_nil] at hall
      refine parse_after_blank h ht hb hw hall (hback.alike hrest) ?_
      intro state hstate haccepts
      exact hstate.erase hc hnext haccepts
    · obtain ⟨rest, hrest'⟩ := exists_lexed ⟨byteSize (head ++ run), tail⟩
      obtain ⟨white, hw, hall⟩ := hsame run _ _ hrun hstop hrest'
      rw [List.append_assoc] at hall
      refine parse_after_blank h ht hb hw hall (hrest.alike hrest') ?_
      intro state hstate haccepts
      exact hstate.merge hc hgap haccepts

/-- A comment after whitespace may be put into the source of a rule, or left out of it, and the rule
stays the same. -/
theorem parse_comment_neutral {source : String} (h : parse source options = .ok rule) :
    (∀ (front back : List Token) (blank : Token), tokenize source = front ++ blank :: back →
      blank.kind = .whitespace → (∀ next ∈ back.head?, next.kind ≠ .comment) →
      ∀ comment : String, IsClosedComment comment →
      parse (insertAt source comment blank.span.stop) options = .ok rule) ∧
    ∀ (front back : List Token) (blank comment : Token),
      tokenize source = front ++ blank :: comment :: back → blank.kind = .whitespace →
      comment.kind = .comment → parse (without source comment.span) options = .ok rule := by
  constructor
  · intro front back blank ht hb hn comment hc
    exact parse_insertAt_comment h ht hb hn hc
  · intro front back blank comment ht hb hc
    exact parse_without_comment h ht hb hc

theorem parse_comment_neutral_between_blanks :
    parse "rule a /*x*/ /*y*/\x7b\x7d" ⟨false⟩ = .ok ⟨"a", [], .empty, .empty⟩ ∧
      parse "rule //c\na /*x*/ /*y*/\x7b\x7d" ⟨false⟩ = .ok ⟨"a", [], .empty, .empty⟩ ∧
      parse "rule a  /*y*/\x7b\x7d" ⟨false⟩ = .ok ⟨"a", [], .empty, .empty⟩ := by
  have hparse : parse "rule a /*x*/ /*y*/\x7b\x7d" ⟨false⟩ = .ok ⟨"a", [], .empty, .empty⟩ := by decide +kernel
  have htokens : tokenize "rule a /*x*/ /*y*/\x7b\x7d" =
      [⟨.ruleWord, "rule", ⟨0, 4⟩⟩, ⟨.whitespace, " ", ⟨4, 5⟩⟩, ⟨.identifier, "a", ⟨5, 6⟩⟩,
        ⟨.whitespace, " ", ⟨6, 7⟩⟩, ⟨.comment, "x", ⟨7, 12⟩⟩, ⟨.whitespace, " ", ⟨12, 13⟩⟩,
        ⟨.comment, "y", ⟨13, 18⟩⟩, ⟨.openBrace, "\x7b", ⟨18, 19⟩⟩,
        ⟨.closeBrace, "\x7d", ⟨19, 20⟩⟩, .endAt 20] := by decide +kernel
  obtain ⟨hinsert, hwithout⟩ := parse_comment_neutral hparse
  have hline : IsClosedComment "//c\n" := .line (show '\n' ∉ "c".toList by decide)
  have hlonger : insertAt "rule a /*x*/ /*y*/\x7b\x7d" "//c\n" 5 =
      "rule //c\na /*x*/ /*y*/\x7b\x7d" := by decide +kernel
  have hshorter : without "rule a /*x*/ /*y*/\x7b\x7d" ⟨7, 12⟩ = "rule a  /*y*/\x7b\x7d" := by decide +kernel
  have hput := hinsert [_] _ _ htokens rfl (by simp) _ hline
  have hleft := hwithout [_, _, _] _ _ _ htokens rfl rfl
  rw [hlonger] at hput
  rw [hshorter] at hleft
  exact ⟨hparse, hput, hleft⟩

end SignatureRules

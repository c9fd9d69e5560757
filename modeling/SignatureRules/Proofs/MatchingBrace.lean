import SignatureRules.Proofs.ParsedRules
import SignatureRules.Proofs.Retokenization

/-! A rule ends at the brace that matches its first one, and the text after that brace makes no
difference. -/

namespace SignatureRules

def TokenKind.isBrace : TokenKind → Bool
  | openBrace | closeBrace => true
  | _ => false

def Unbraced (tokens : List Token) : Prop := ∀ token ∈ tokens, token.kind.isBrace = false

variable {kind : TokenKind} {token : Token} {tokens front back : List Token}

theorem ne_openBrace_of_isBrace (h : kind.isBrace = false) : kind ≠ .openBrace := by
  rintro rfl
  cases h

theorem ne_closeBrace_of_isBrace (h : kind.isBrace = false) : kind ≠ .closeBrace := by
  rintro rfl
  cases h

theorem Unbraced.append (hf : Unbraced front) (hb : Unbraced back) : Unbraced (front ++ back) :=
  List.forall_mem_append.mpr ⟨hf, hb⟩

theorem Unbraced.closes_append {depth : Nat} (h : Unbraced front) (hb : Closes depth back) :
    Closes depth (front ++ back) := by
  induction front with
  | nil => exact hb
  | cons token front ih =>
    obtain ⟨htoken, hfront⟩ := List.forall_mem_cons.mp h
    refine closes_cons_iff.mpr ⟨depth, ?_, ih hfront⟩
    rw [if_neg (ne_openBrace_of_isBrace htoken), if_neg (ne_closeBrace_of_isBrace htoken)]

theorem Trivia.unbraced (h : Trivia tokens) : Unbraced tokens := by
  cases h with
  | none => simp [Unbraced]
  | whitespace hb => simp [Unbraced, hb, TokenKind.isBrace]
  | comment hr => simp [Unbraced, hr, TokenKind.isBrace]
  | both hb hr => simp [Unbraced, hb, hr, TokenKind.isBrace]

theorem Wanted.unbraced (h : Wanted kind token tokens) (hk : kind.isBrace = false) :
    Unbraced tokens := by
  obtain ⟨htrivia, rfl⟩ := h
  exact htrivia.unbraced.append (List.forall_mem_singleton.mpr hk)

theorem TagNames.unbraced {names : List String} (h : TagNames tokens names) : Unbraced tokens := by
  induction h with
  | nil => simp [Unbraced]
  | cons hname _ ih => exact (hname.unbraced rfl).append ih

theorem Tags.unbraced {names : List String} (h : Tags tokens names) : Unbraced tokens := by
  cases h with
  | none => simp [Unbraced]
  | listed hcolon hnames _ => exact (hcolon.unbraced rfl).append hnames.unbraced

def EndsAtBrace (tokens : List Token) : Prop :=
  ∃ inside closing, tokens = inside ++ [closing] ∧ Balanced inside ∧ closing.kind = .closeBrace

theorem Unbraced.endsAtBrace_append (hf : Unbraced front) (hb : EndsAtBrace back) :
    EndsAtBrace (front ++ back) := by
  obtain ⟨inside, closing, rfl, hinside, hclosing⟩ := hb
  exact ⟨front ++ inside, closing, by simp, hf.closes_append hinside, hclosing⟩

theorem Wanted.endsAtBrace (h : Wanted .closeBrace token tokens) : EndsAtBrace tokens := by
  obtain ⟨htrivia, hk⟩ := h
  have hbalanced := htrivia.unbraced.closes_append (closes_nil_iff.mpr rfl)
  rw [List.append_nil] at hbalanced
  exact ⟨_, token, rfl, hbalanced, hk⟩

theorem Body.endsAtBrace {options : ParseOptions} {part : BodySection} {entries : List Entry}
    (h : Body options part tokens entries) : EndsAtBrace tokens := by
  induction h with
  | unknownEnd hclose | metadataEnd hclose | stringsEnd hclose => exact hclose.endsAtBrace
  | unknownHeader htrivia hname hcolon _ _ ih =>
    have hheader := (htrivia.unbraced.append (hname.unbraced rfl)).append (hcolon.unbraced rfl)
    exact hheader.endsAtBrace_append ih
  | metadataHeader hname hcolon _ _ ih | stringsHeader hname hcolon _ _ ih =>
    exact ((hname.unbraced rfl).append (hcolon.unbraced rfl)).endsAtBrace_append ih
  | metadataEntry hname hequal hvalue _ ih | stringsEntry hname hequal hvalue _ ih =>
    have hentry := ((hname.unbraced rfl).append (hequal.unbraced rfl)).append (hvalue.unbraced rfl)
    exact hentry.endsAtBrace_append ih
  | conditions _ _ ih => exact ih
  | skipped _ hrun _ hclose => exact ⟨_, _, rfl, hrun, hclose⟩

theorem Rule.DerivesFrom.exists_matching {options : ParseOptions} {rule : Rule}
    (h : rule.DerivesFrom options front) (back : List Token) :
    ∃ rest closing, front = rest ++ [closing] ∧ MatchesFirstBrace closing (front ++ back) := by
  obtain ⟨hword, hname, htags, htrivia, hbrace, hbody⟩ := h
  obtain ⟨hspace, hopening⟩ := hbrace
  obtain ⟨inside, closing, rfl, hinside, hclosing⟩ := hbody.endsAtBrace
  have hheader := ((hword.unbraced rfl).append (hname.unbraced rfl)).append htags.unbraced
  have hbefore := (hheader.append htrivia.unbraced).append hspace.unbraced
  refine ⟨_, closing, (List.append_assoc ..).symm, _, _, inside, back, ?_,
    fun token ht => ne_openBrace_of_isBrace (hbefore token ht), hopening, hinside, hclosing⟩
  simp

theorem ParserState.matchesFirstBrace_of_consume {options : ParseOptions} {rule : Rule}
    (h : start.consume options tokens = .error ⟨.ok rule, token⟩) :
    MatchesFirstBrace token tokens := by
  obtain ⟨front, back, rfl, hrule⟩ := derivesFrom_of_consume h
  obtain ⟨_, closing, hclosing, hmatches⟩ := hrule.exists_matching back
  obtain ⟨-, hsame⟩ := List.append_inj' hclosing rfl
  cases hsame
  rwa [List.append_assoc, List.singleton_append] at hmatches

theorem IsLexeme.eq_mark {c : Char} {literal lexeme following : List Char}
    (h : IsLexeme kind literal lexeme following) (hm : kind.mark? = some c) :
    literal = [c] ∧ lexeme = [c] := by
  cases h with
  | keyword _ _ hkind => cases kind <;> cases hm <;> cases hkind
  | punctuation hmark =>
    cases hmark.symm.trans hm
    exact ⟨rfl, rfl⟩
  | _ => cases hm

theorem exists_prefix_of_mark {c : Char} {source : String}
    (h : tokenize source = front ++ token :: back) (hm : token.kind.mark? = some c) :
    ∃ head tail : String, source = head ++ tail ∧ byteSize head.toList = token.span.stop ∧
      ∀ text, front ++ [token] <+: tokenize (head ++ text) := by
  have hl := lexed_tokenize source
  rw [h] at hl
  obtain ⟨text, rest, hrest, -, hl, hsame⟩ := hl.exists_text
  cases hl with
  | done => cases hm
  | @cons _ _ _ _ following _ hlexeme _ =>
    obtain ⟨rfl, rfl⟩ := hlexeme.eq_mark hm
    refine ⟨.ofList (text ++ [c]), .ofList following, ?_, ?_, fun other => ?_⟩
    · apply String.toList_inj.mp
      simpa using hrest
    · simp
    · obtain ⟨after, hafter⟩ := exists_lexed ⟨0 + byteSize text + byteSize [c], other.toList⟩
      have hlexed := hsame (c :: other.toList) _ (.inr rfl) (.cons (.punctuation hm) hafter)
      refine ⟨after, (tokenize_eq_of_lexed ?_).symm⟩
      simpa using hlexed

theorem parse_matchesFirstBrace {source : String} {options : ParseOptions} {rule : Rule}
    (h : parse source options = .ok rule) :
    ∃ closing, MatchesFirstBrace closing (tokenize source) ∧
      ∃ head tail : String, source = head ++ tail ∧ byteSize head.toList = closing.span.stop ∧
        ∀ text, parse (head ++ text) options = .ok rule := by
  obtain ⟨last, hc⟩ := consume_tokenize source options
  rw [h] at hc
  obtain ⟨front, back, htokens, hrule⟩ := ParserState.derivesFrom_of_accepts ⟨last, hc⟩
  obtain ⟨rest, closing, rfl, hmatches⟩ := hrule.exists_matching back
  rw [← htokens] at hmatches
  refine ⟨closing, hmatches, ?_⟩
  obtain ⟨_, _, _, _, _, _, _, _, hk⟩ := hmatches
  rw [List.append_assoc, List.singleton_append] at htokens
  obtain ⟨head, tail, hsource, hsize, hfront⟩ :=
    exists_prefix_of_mark htokens (show closing.kind.mark? = some '\x7d' by rw [hk]; rfl)
  exact ⟨head, tail, hsource, hsize, fun text => parse_of_derivesFrom (hfront text) hrule⟩

theorem parse_matchesFirstBrace_skipped :
    parse "rule a\x7bconditions:\x7b\x7d\x7d\"" ⟨true⟩ = .ok ⟨"a", [], .empty, .empty⟩ ∧
      ∃ closing, MatchesFirstBrace closing (tokenize "rule a\x7bconditions:\x7b\x7d\x7d\"") ∧
        ∃ head tail : String, "rule a\x7bconditions:\x7b\x7d\x7d\"" = head ++ tail ∧
          byteSize head.toList = closing.span.stop ∧
          ∀ text, parse (head ++ text) ⟨true⟩ = .ok ⟨"a", [], .empty, .empty⟩ := by
  have h : parse "rule a\x7bconditions:\x7b\x7d\x7d\"" ⟨true⟩ =
      .ok ⟨"a", [], .empty, .empty⟩ := by
    decide +kernel
  exact ⟨h, parse_matchesFirstBrace h⟩

end SignatureRules

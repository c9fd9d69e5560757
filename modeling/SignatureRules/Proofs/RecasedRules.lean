import SignatureRules.Proofs.ErrorPlaces
import SignatureRules.Proofs.LetterCase
import SignatureRules.Proofs.ParsedRules

/-! Keywords and the names of sections may be written in any case. In a rule that is accepted an
identifier with a colon after it is the name of the rule or heads a section. -/

namespace SignatureRules

def ColonAhead (tokens : List Token) : Prop :=
  ∃ colon rest, skipTrivia tokens = colon :: rest ∧ colon.kind = .colon

def NamesRule (tokens : List Token) (token : Token) : Prop :=
  ∃ word words names rest, tokens = words ++ names ++ rest ∧ Wanted .ruleWord word words ∧
    Wanted .identifier token names

/-- `FreeCase tokens token after`: the token is a keyword, or it is not the name of the rule that the
tokens are and comes in front of a colon. -/
inductive FreeCase (tokens : List Token) (token : Token) (after : List Token) : Prop
  | keyword {word} : token.kind.reservedWord? = some word → FreeCase tokens token after
  | header : token.kind = .identifier → ¬ NamesRule tokens token → ColonAhead after →
      FreeCase tokens token after

variable {options : ParseOptions} {part : BodySection} {entries : List Entry} {rule : Rule}
  {allowed : Token → List Token → Prop} {kind : TokenKind} {token name colon key equal value : Token}
  {all trivia tokens others rest front back names colons keys equals values after : List Token}

theorem FreeCase.isWord (h : FreeCase all token after) : token.kind.IsWord := by
  cases h with
  | keyword hk => exact .inr ⟨_, hk⟩
  | header hk => exact .inl hk

theorem FreeCase.of_identifier (h : FreeCase all token after) (hk : token.kind = .identifier) :
    ¬ NamesRule all token ∧ ColonAhead after := by
  cases h with
  | keyword hword =>
    rw [hk] at hword
    cases hword
  | header _ hno hcolon => exact ⟨hno, hcolon⟩

theorem Trivia.kind_ne_identifier (h : Trivia trivia) :
    ∀ token ∈ trivia, token.kind ≠ .identifier := by
  induction trivia with
  | nil => simp
  | cons first trivia ih =>
    obtain ⟨hfirst, htrivia⟩ := h.of_cons
    refine List.forall_mem_cons.mpr ⟨fun hk => ?_, ih htrivia⟩
    rw [hk] at hfirst
    cases hfirst

theorem Trivia.find? {p : Token → Bool} (h : Trivia trivia)
    (hp : ∀ token : Token, token.kind.isTrivia = true → p token = false) (tokens : List Token) :
    (trivia ++ tokens).find? p = tokens.find? p := by
  induction trivia with
  | nil => rfl
  | cons first trivia ih =>
    obtain ⟨hfirst, htrivia⟩ := h.of_cons
    rw [List.cons_append, List.find?_cons_of_neg (by simp [hp first hfirst])]
    exact ih htrivia

theorem Wanted.find? {p : Token → Bool} (h : Wanted kind token front)
    (hp : ∀ token : Token, token.kind.isTrivia = true → p token = false) (back : List Token) :
    (front ++ back).find? p = (token :: back).find? p := by
  obtain ⟨htrivia, -⟩ := h
  rw [List.append_assoc, htrivia.find? hp, List.singleton_append]

theorem NamesRule.find?_eq (h : NamesRule tokens token) :
    tokens.find? (·.kind = .identifier) = some token := by
  have hp : ∀ token : Token, token.kind.isTrivia = true →
      decide (token.kind = .identifier) = false := by
    intro token ht
    rw [decide_eq_false_iff_not]
    intro hk
    rw [hk] at ht
    cases ht
  obtain ⟨word, words, names, rest, rfl, hword, hname⟩ := h
  rw [List.append_assoc, hword.find? hp, List.find?_cons_of_neg (by simp [hword.kind_eq]),
    hname.find? hp, List.find?_cons_of_pos (by simp [hname.kind_eq])]

theorem find?_skipOne (hk : kind.isTrivia = true) (tokens : List Token) :
    (skipOne kind tokens).find? (!·.kind.isTrivia) = tokens.find? (!·.kind.isTrivia) := by
  cases tokens with
  | nil => rfl
  | cons token tokens =>
    rw [skipOne]
    split
    · rename_i h
      rw [List.find?_cons_of_neg (by simp [h, hk])]
    · rfl

theorem ColonAhead.exists_find? (h : ColonAhead tokens) :
    ∃ colon, tokens.find? (!·.kind.isTrivia) = some colon ∧ colon.kind = .colon := by
  obtain ⟨colon, rest, hskip, hk⟩ := h
  have hblank : TokenKind.whitespace.isTrivia = true := rfl
  have hremark : TokenKind.comment.isTrivia = true := rfl
  refine ⟨colon, ?_, hk⟩
  rw [← find?_skipOne hblank, ← find?_skipOne hremark, ← skipTrivia, hskip]
  exact List.find?_cons_of_pos (by simp [hk, TokenKind.isTrivia])

theorem Wanted.not_colonAhead (h : Wanted kind token front) (hk : kind.isTrivia = false)
    (hc : kind ≠ .colon) (ht : Trivia trivia) (back : List Token) :
    ¬ ColonAhead (trivia ++ (front ++ back)) := by
  intro hcolon
  obtain ⟨colon, hfind, hcolon⟩ := hcolon.exists_find?
  rw [ht.find? (by simp), h.find? (by simp),
    List.find?_cons_of_pos (by simp [h.kind_eq, hk])] at hfind
  obtain rfl := Option.some.inj hfind
  exact hc (h.kind_eq.symm.trans hcolon)

theorem SameLetters.named {name other : String} (h : SameLetters name other)
    (hn : part.Named name) : part.Named other := by
  cases part with
  | unknown => exact ⟨fun ho => hn.1 (h.trans ho), fun ho => hn.2.1 (h.trans ho),
      fun ho => hn.2.2 (h.trans ho)⟩
  | _ => exact h.symm.trans hn

namespace Recasing

theorem exists_append (h : Recasing allowed rest (front ++ back) others) :
    ∃ front' back', others = front' ++ back' ∧ Recasing allowed (back ++ rest) front front' ∧
      Recasing allowed rest back back' := by
  induction front generalizing others with
  | nil => exact ⟨[], others, rfl, .nil, h⟩
  | cons token front ih =>
    rw [List.cons_append] at h
    cases h with
    | keep h =>
      obtain ⟨front', back', rfl, hfront, hback⟩ := ih h
      exact ⟨_ :: front', back', rfl, .keep hfront, hback⟩
    | recase hallowed hletters h =>
      obtain ⟨front', back', rfl, hfront, hback⟩ := ih h
      rw [List.append_assoc] at hallowed
      exact ⟨_ :: front', back', rfl, .recase hallowed hletters hfront, hback⟩

theorem eq_of_kind_ne (h : Recasing allowed rest tokens others)
    (hk : ∀ token ∈ tokens, token.kind ≠ .identifier) : others = tokens := by
  induction h with
  | nil => rfl
  | keep _ ih => rw [ih (List.forall_mem_cons.mp hk).2]
  | recase => exact absurd rfl (List.forall_mem_cons.mp hk).1

theorem closes {depth : Nat} (h : Recasing allowed rest tokens others)
    (hc : Closes depth tokens) : Closes depth others := by
  induction h generalizing depth with
  | nil => exact hc
  | keep _ ih =>
    obtain ⟨left, hleft, hc⟩ := closes_cons_iff.mp hc
    exact closes_cons_iff.mpr ⟨left, hleft, ih hc⟩
  | recase _ _ _ ih =>
    obtain ⟨left, hleft, hc⟩ := closes_cons_iff.mp hc
    exact closes_cons_iff.mpr ⟨left, hleft, ih hc⟩

theorem kind_ne (h : Recasing allowed rest tokens others) (hk : ∀ token ∈ tokens, token.kind ≠ kind) :
    ∀ token ∈ others, token.kind ≠ kind := by
  induction h with
  | nil => exact hk
  | keep _ ih =>
    obtain ⟨hfirst, hk⟩ := List.forall_mem_cons.mp hk
    exact List.forall_mem_cons.mpr ⟨hfirst, ih hk⟩
  | recase _ _ _ ih =>
    obtain ⟨hfirst, hk⟩ := List.forall_mem_cons.mp hk
    exact List.forall_mem_cons.mpr ⟨hfirst, ih hk⟩

end Recasing

theorem Trivia.kept (h : Trivia trivia) (hr : Recasing allowed rest trivia others) :
    Trivia others := by
  rw [hr.eq_of_kind_ne h.kind_ne_identifier]
  exact h

theorem Wanted.recased (h : Wanted kind token front) (hr : Recasing allowed rest front others) :
    ∃ other, Wanted kind other others ∧ (other = token ∨
      token.kind = .identifier ∧ allowed token rest ∧ SameLetters token.literal other.literal) := by
  obtain ⟨htrivia, hk⟩ := h
  obtain ⟨front', back', rfl, hfront, hback⟩ := hr.exists_append
  cases hback with
  | keep hnil =>
    cases hnil
    exact ⟨_, ⟨htrivia.kept hfront, hk⟩, .inl rfl⟩
  | recase hallowed hletters hnil =>
    cases hnil
    exact ⟨_, ⟨htrivia.kept hfront, hk⟩, .inr ⟨rfl, hallowed, hletters⟩⟩

theorem Wanted.kept (h : Wanted kind token front) (hr : Recasing allowed rest front others)
    (hno : token.kind = .identifier → ¬ allowed token rest) : Wanted kind token others := by
  obtain ⟨other, hother, rfl | ⟨hk, hallowed, -⟩⟩ := h.recased hr
  · exact hother
  · exact absurd hallowed (hno hk)

theorem Wanted.kept_of_ne (h : Wanted kind token front) (hr : Recasing allowed rest front others)
    (hne : kind ≠ .identifier) : Wanted kind token others :=
  h.kept hr fun hk => absurd (h.kind_eq.symm.trans hk) hne

theorem exists_header_recased (hname : Wanted .identifier name names)
    (hcolon : Wanted .colon colon colons) (hpart : part.Named name.literal)
    (hr : Recasing allowed rest (names ++ colons) others) :
    ∃ name' names' colons', others = names' ++ colons' ∧ Wanted .identifier name' names' ∧
      Wanted .colon colon colons' ∧ part.Named name'.literal := by
  obtain ⟨names', colons', rfl, hnames, hcolons⟩ := hr.exists_append
  obtain ⟨name', hname', hsame⟩ := hname.recased hnames
  refine ⟨name', names', colons', rfl, hname', hcolon.kept_of_ne hcolons (by decide), ?_⟩
  rcases hsame with rfl | ⟨-, -, hletters⟩
  · exact hpart
  · exact hletters.named hpart

theorem exists_entry_recased (hkey : Wanted kind key keys) (hequal : Wanted .equal equal equals)
    (hvalue : Wanted .quotedString value values)
    (hr : Recasing (FreeCase all) rest (keys ++ equals ++ values) others) :
    ∃ keys' equals' values', others = keys' ++ equals' ++ values' ∧ Wanted kind key keys' ∧
      Wanted .equal equal equals' ∧ Wanted .quotedString value values' := by
  obtain ⟨front, values', rfl, hfront, hvalues⟩ := hr.exists_append
  obtain ⟨keys', equals', rfl, hkeys, hequals⟩ := hfront.exists_append
  refine ⟨keys', equals', values', rfl, hkey.kept hkeys fun hk hfree => ?_,
    hequal.kept_of_ne hequals (by decide), hvalue.kept_of_ne hvalues (by decide)⟩
  exact hequal.not_colonAhead rfl (by decide) .none _ (hfree.of_identifier hk).2

theorem Body.recased (h : Body options part tokens entries)
    (hr : Recasing (FreeCase all) rest tokens others) : Body options part others entries := by
  induction h generalizing others with
  | unknownEnd hclose => exact .unknownEnd (hclose.kept_of_ne hr (by decide))
  | unknownHeader htrivia hname hcolon hpart _ ih =>
    obtain ⟨front, tail, rfl, hfront, htail⟩ := hr.exists_append
    rw [List.append_assoc] at hfront
    obtain ⟨_, _, rfl, htrivia', hheader⟩ := hfront.exists_append
    obtain ⟨_, _, _, rfl, hname', hcolon', hpart'⟩ :=
      exists_header_recased hname hcolon hpart hheader
    rw [← List.append_assoc]
    exact .unknownHeader (htrivia.kept htrivia') hname' hcolon' hpart' (ih htail)
  | metadataEnd hclose => exact .metadataEnd (hclose.kept_of_ne hr (by decide))
  | metadataEntry hkey hequal hvalue _ ih =>
    obtain ⟨front, tail, rfl, hfront, htail⟩ := hr.exists_append
    obtain ⟨_, _, _, rfl, hkey', hequal', hvalue'⟩ := exists_entry_recased hkey hequal hvalue hfront
    exact .metadataEntry hkey' hequal' hvalue' (ih htail)
  | metadataHeader hname hcolon hpart _ ih =>
    obtain ⟨front, tail, rfl, hfront, htail⟩ := hr.exists_append
    obtain ⟨_, _, _, rfl, hname', hcolon', hpart'⟩ :=
      exists_header_recased hname hcolon hpart hfront
    exact .metadataHeader hname' hcolon' hpart' (ih htail)
  | stringsEnd hclose => exact .stringsEnd (hclose.kept_of_ne hr (by decide))
  | stringsEntry hname hequal hvalue _ ih =>
    obtain ⟨front, tail, rfl, hfront, htail⟩ := hr.exists_append
    obtain ⟨_, _, _, rfl, hname', hequal', hvalue'⟩ :=
      exists_entry_recased hname hequal hvalue hfront
    exact .stringsEntry hname' hequal' hvalue' (ih htail)
  | stringsHeader hname hcolon hpart _ ih =>
    obtain ⟨front, tail, rfl, hfront, htail⟩ := hr.exists_append
    obtain ⟨_, _, _, rfl, hname', hcolon', hpart'⟩ :=
      exists_header_recased hname hcolon hpart hfront
    exact .stringsHeader hname' hcolon' hpart' (ih htail)
  | conditions hskip _ ih => exact .conditions hskip (ih hr)
  | skipped hskip hrun he hclose =>
    obtain ⟨run, close, rfl, hrun', hclose'⟩ := hr.exists_append
    rw [hclose'.eq_of_kind_ne (List.forall_mem_singleton.mpr (by simp [hclose]))]
    exact .skipped hskip (hrun'.closes hrun) (hrun'.kind_ne he) hclose

variable {tags : List String} {brace : Token} {braces : List Token}

theorem TagNames.not_colonAhead (h : TagNames tokens tags) (ht : Trivia trivia)
    (hbrace : Wanted .openBrace brace braces) (back : List Token) :
    ¬ ColonAhead (tokens ++ (trivia ++ (braces ++ back))) := by
  cases h with
  | nil => exact hbrace.not_colonAhead rfl (by decide) ht back
  | cons hname _ =>
    rw [List.append_assoc]
    exact hname.not_colonAhead rfl (by decide) .none _

theorem TagNames.recased (h : TagNames tokens tags) (ht : Trivia trivia)
    (hbrace : Wanted .openBrace brace braces)
    (hr : Recasing (FreeCase all) (trivia ++ (braces ++ back)) tokens others) :
    TagNames others tags := by
  induction h generalizing others with
  | nil =>
    cases hr
    exact .nil
  | cons hname hnames ih =>
    obtain ⟨front', back', rfl, hfront, hback⟩ := hr.exists_append
    refine .cons (hname.kept hfront fun hk hfree => ?_) (ih hback)
    exact hnames.not_colonAhead ht hbrace back (hfree.of_identifier hk).2

theorem Tags.recased (h : Tags tokens tags) (ht : Trivia trivia)
    (hbrace : Wanted .openBrace brace braces)
    (hr : Recasing (FreeCase all) (trivia ++ (braces ++ back)) tokens others) :
    Tags others tags := by
  cases h with
  | none =>
    cases hr
    exact .none
  | listed hcolon hnames hne =>
    obtain ⟨front', back', rfl, hfront, hback⟩ := hr.exists_append
    exact .listed (hcolon.kept_of_ne hfront (by decide)) (hnames.recased ht hbrace hback) hne

theorem Rule.DerivesFrom.recased (h : rule.DerivesFrom options front)
    (hr : Recasing (FreeCase (front ++ back)) back front others) :
    rule.DerivesFrom options others := by
  obtain @⟨word, words, name, names, tagTokens, tags, trivia, brace, braces, body, entries, hword,
    hname, htags, htrivia, hbrace, hbody⟩ := h
  have hnames : NamesRule (words ++ names ++ tagTokens ++ trivia ++ braces ++ body ++ back) name :=
    ⟨word, words, names, tagTokens ++ (trivia ++ (braces ++ (body ++ back))), by simp, hword, hname⟩
  obtain ⟨_, body', rfl, hr, hrbody⟩ := hr.exists_append
  obtain ⟨_, braces', rfl, hr, hrbraces⟩ := hr.exists_append
  obtain ⟨_, trivia', rfl, hr, hrtrivia⟩ := hr.exists_append
  obtain ⟨_, tagTokens', rfl, hr, hrtags⟩ := hr.exists_append
  obtain ⟨words', names', rfl, hrwords, hrnames⟩ := hr.exists_append
  refine .mk (hword.kept_of_ne hrwords (by decide)) (hname.kept hrnames fun hk hfree => ?_)
    (htags.recased htrivia hbrace hrtags) (htrivia.kept hrtrivia)
    (hbrace.kept_of_ne hrbraces (by decide)) (hbody.recased hrbody)
  exact (hfree.of_identifier hk).1 hnames

theorem case_insensitive (source other : String) :
    (∀ options rule, parse source options = .ok rule →
      RecasedWithin (fun token after => FreeCase (tokenize source) token after) source other →
      parse other options = .ok rule) ∧
    (RecasedWithin (fun token _ => token.kind.IsWord) source other →
      (tokenize other).map (fun token => (token.kind, token.span)) =
        (tokenize source).map fun token => (token.kind, token.span)) := by
  constructor
  · intro options rule h hrecased
    obtain ⟨last, hlast⟩ := consume_tokenize source options
    rw [h] at hlast
    obtain ⟨front, back, htokens, hrule⟩ := ParserState.derivesFrom_of_accepts ⟨last, hlast⟩
    have hr := hrecased.recasing fun token after hfree => hfree.isWord
    rw [htokens] at hr
    obtain ⟨front', back', hother, hfront, -⟩ := hr.exists_append
    rw [List.append_nil] at hfront
    exact parse_of_derivesFrom ⟨back', hother.symm⟩ (hrule.recased hfront)
  · intro hrecased
    exact (hrecased.recasing fun token _ hword => hword).map_kind_span

theorem case_insensitive_keyword_and_header :
    parse "rule a:b\x7bmeta:m=\"\"\x7d" ⟨true⟩ = .ok ⟨"a", ["b"], ⟨[("m", "")]⟩, .empty⟩ ∧
      RecasedWithin (fun token after => FreeCase (tokenize "rule a:b\x7bmeta:m=\"\"\x7d") token after)
        "rule a:b\x7bmeta:m=\"\"\x7d" "RuLe a:b\x7bMETA:m=\"\"\x7d" ∧
      parse "RuLe a:b\x7bMETA:m=\"\"\x7d" ⟨true⟩ = .ok ⟨"a", ["b"], ⟨[("m", "")]⟩, .empty⟩ ∧
      (tokenize "RuLe a:b\x7bMETA:m=\"\"\x7d").map (fun token => (token.kind, token.span)) =
        (tokenize "rule a:b\x7bmeta:m=\"\"\x7d").map fun token => (token.kind, token.span) := by
  have hparse : parse "rule a:b\x7bmeta:m=\"\"\x7d" ⟨true⟩ =
      .ok ⟨"a", ["b"], ⟨[("m", "")]⟩, .empty⟩ := by decide +kernel
  have htokens : tokenize "rule a:b\x7bmeta:m=\"\"\x7d" =
      [⟨.ruleWord, "rule", ⟨0, 4⟩⟩, ⟨.whitespace, " ", ⟨4, 5⟩⟩, ⟨.identifier, "a", ⟨5, 6⟩⟩,
        ⟨.colon, ":", ⟨6, 7⟩⟩, ⟨.identifier, "b", ⟨7, 8⟩⟩, ⟨.openBrace, "\x7b", ⟨8, 9⟩⟩,
        ⟨.identifier, "meta", ⟨9, 13⟩⟩, ⟨.colon, ":", ⟨13, 14⟩⟩, ⟨.identifier, "m", ⟨14, 15⟩⟩,
        ⟨.equal, "=", ⟨15, 16⟩⟩, ⟨.quotedString, "", ⟨16, 18⟩⟩, ⟨.closeBrace, "\x7d", ⟨18, 19⟩⟩,
        .endAt 19] := by decide +kernel
  have hplaces : ∀ i < 19, "rule a:b\x7bmeta:m=\"\"\x7d".toList[i]? ≠
      "RuLe a:b\x7bMETA:m=\"\"\x7d".toList[i]? →
      byteSize ("rule a:b\x7bmeta:m=\"\"\x7d".toList.take i) < 4 ∨
        9 ≤ byteSize ("rule a:b\x7bmeta:m=\"\"\x7d".toList.take i) ∧
          byteSize ("rule a:b\x7bmeta:m=\"\"\x7d".toList.take i) < 13 := by decide
  have hrecased : RecasedWithin
      (fun token after => FreeCase (tokenize "rule a:b\x7bmeta:m=\"\"\x7d") token after)
      "rule a:b\x7bmeta:m=\"\"\x7d" "RuLe a:b\x7bMETA:m=\"\"\x7d" := by
    refine ⟨by rw [SameLetters]; decide, fun i hne => ?_⟩
    rw [htokens]
    rcases Nat.lt_or_ge i 19 with hi | hi
    · rcases hplaces i hi hne with hstop | ⟨hstart, hstop⟩
      · exact ⟨[], _, _, rfl, .keyword rfl, Nat.zero_le _, hstop⟩
      · refine ⟨[_, _, _, _, _, _], _, _, rfl, .header rfl (fun hname => ?_) ⟨_, _, rfl, rfl⟩,
          hstart, hstop⟩
        have hfirst := hname.find?_eq
        simp at hfirst
    · rw [List.getElem?_eq_none hi, List.getElem?_eq_none hi] at hne
      exact absurd rfl hne
  have hwords := hrecased.mono fun token after hfree => hfree.isWord
  obtain ⟨hrules, hkinds⟩ :=
    case_insensitive "rule a:b\x7bmeta:m=\"\"\x7d" "RuLe a:b\x7bMETA:m=\"\"\x7d"
  exact ⟨hparse, hrecased, hrules _ _ hparse hrecased, hkinds hwords⟩

end SignatureRules

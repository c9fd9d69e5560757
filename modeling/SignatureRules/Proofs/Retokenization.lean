import SignatureRules.Proofs.Tokenization

/-! Text in front of other text: its tokens stay the same while the character after it does. -/

namespace SignatureRules

theorem Stops.of_head? {p : Char → Bool} {cs ds : List Char} (h : Stops p cs)
    (hd : ds = [] ∨ ds.head? = cs.head?) : Stops p ds := by
  rcases hd with rfl | hd
  · exact stops_nil p
  · rw [Stops, hd]
    exact h

inductive IsStopClass : (Char → Bool) → Prop
  | blank : IsStopClass isBlank
  | word : IsStopClass isWordChar
  | variableName : IsStopClass Char.isAlphanum
  | comment : IsStopClass (fun d => d == '/' || d == '*')

/-- All that counts of the text after a lexeme is whether there is any and which of the classes it
begins with. -/
theorem IsLexeme.of_stops {kind : TokenKind} {literal lexeme following other : List Char}
    (h : IsLexeme kind literal lexeme following) (hnil : following = [] → other = [])
    (hstops : ∀ p, IsStopClass p → Stops p following → Stops p other) :
    IsLexeme kind literal lexeme other := by
  cases h with
  | whitespace hne hall hstop => exact .whitespace hne hall (hstops _ .blank hstop)
  | keyword hword hstop hkind => exact .keyword hword (hstops _ .word hstop) hkind
  | identifier hword hstop hkind => exact .identifier hword (hstops _ .word hstop) hkind
  | variableName hname hstop => exact .variableName hname (hstops _ .variableName hstop)
  | quotedString htext hlast => exact .quotedString htext hlast
  | openString htext => exact hnil rfl ▸ .openString htext
  | lineComment htext hlast => exact .lineComment htext hlast
  | returnComment htext => exact .returnComment htext
  | openLineComment htext => exact hnil rfl ▸ .openLineComment htext
  | blockComment htext => exact .blockComment htext
  | openBlockComment htext => exact hnil rfl ▸ .openBlockComment htext
  | punctuation hmark => exact .punctuation hmark
  | illegal hblank halpha hquote hdollar hmark hslash =>
    exact .illegal hblank halpha hquote hdollar hmark fun hc => hstops _ .comment (hslash hc)

theorem IsLexeme.of_head? {kind : TokenKind} {literal lexeme following other : List Char}
    (h : IsLexeme kind literal lexeme following) (hd : other = [] ∨ other.head? = following.head?) :
    IsLexeme kind literal lexeme other := by
  refine h.of_stops (fun hf => ?_) fun p _ hstop => hstop.of_head? hd
  rw [hf] at hd
  exact hd.elim id List.head?_eq_none_iff.mp

theorem IsLexeme.stops_isBlank {kind : TokenKind} {literal lexeme following : List Char}
    (h : IsLexeme kind literal lexeme following) (hk : kind ≠ .whitespace) :
    Stops isBlank (lexeme ++ following) := by
  have hword {word : List Char} (hw : IsWord word) : Stops isBlank (word ++ following) := by
    cases word with
    | nil => exact hw.elim
    | cons c cs => exact stops_cons.mpr (Lexer.isBlank_eq_false_of_isAlpha hw.1)
  cases h with
  | whitespace => exact absurd rfl hk
  | keyword hw | identifier hw => exact hword hw
  | punctuation hmark =>
    apply stops_cons.mpr
    cases kind <;> cases hmark <;> rfl
  | illegal hblank => exact stops_cons.mpr hblank
  | _ => exact stops_cons.mpr rfl

inductive Scans : Position → List Token → Position → Prop
  | nil {start} : Scans start [] start
  | cons {n kind literal lexeme following tokens stop} : IsLexeme kind literal lexeme following →
      Scans ⟨n + byteSize lexeme, following⟩ tokens stop →
      Scans ⟨n, lexeme ++ following⟩
        (⟨kind, String.ofList literal, ⟨n, n + byteSize lexeme⟩⟩ :: tokens) stop

variable {start stop : Position} {token : Token} {tokens front back : List Token}

theorem Scans.lexed (h : Scans start front stop) (hl : Lexed stop back) :
    Lexed start (front ++ back) := by
  induction h with
  | nil => exact hl
  | cons hlexeme _ ih => exact .cons hlexeme (ih hl)

theorem Lexed.exists_scans (h : Lexed start (front ++ token :: back)) :
    ∃ stop, Scans start front stop ∧ Lexed stop (token :: back) := by
  induction front generalizing start with
  | nil => exact ⟨start, .nil, h⟩
  | cons first front ih =>
    generalize htokens : first :: front ++ token :: back = tokens at h
    cases h with
    | done => simp at htokens
    | cons hlexeme hrest =>
      obtain ⟨rfl, rfl⟩ := List.cons.inj htokens
      obtain ⟨stop, hscans, hstop⟩ := ih hrest
      exact ⟨stop, .cons hlexeme hscans, hstop⟩

theorem Scans.exists_text (h : Scans start tokens stop) :
    ∃ text, start.rest = text ++ stop.rest ∧ stop.offset = start.offset + byteSize text ∧
      ∀ other, other = [] ∨ other.head? = stop.rest.head? →
        Scans ⟨start.offset, text ++ other⟩ tokens ⟨stop.offset, other⟩ := by
  induction h with
  | @nil start => exact ⟨[], rfl, rfl, fun other _ => .nil⟩
  | @cons n kind literal lexeme following tokens stop hlexeme _ ih =>
    obtain ⟨text, hrest, hoffset, hscans⟩ := ih
    refine ⟨lexeme ++ text, ?_, ?_, fun other hother => ?_⟩
    · rw [List.append_assoc, ← hrest]
    · rw [byteSize_append, ← Nat.add_assoc]
      exact hoffset
    · have hhead : text ++ other = [] ∨ (text ++ other).head? = following.head? := by
        rw [show following = text ++ stop.rest from hrest]
        cases text with
        | nil => exact hother
        | cons c text => exact .inr rfl
      rw [List.append_assoc]
      exact .cons (hlexeme.of_head? hhead) (hscans other hother)

theorem Lexed.start_eq (h : Lexed start (token :: back)) : token.span.start = start.offset := by
  cases h with
  | done => rfl
  | cons => rfl

theorem Scans.kind_ne_endOfInput (h : Scans start tokens stop) :
    ∀ token ∈ tokens, token.kind ≠ .endOfInput := by
  induction h with
  | nil => simp
  | cons hlexeme _ ih => exact List.forall_mem_cons.mpr ⟨hlexeme.kind_ne_endOfInput, ih⟩

theorem Lexed.exists_text (h : Lexed start (front ++ token :: back)) :
    ∃ text rest, start.rest = text ++ rest ∧ (∀ other ∈ front, other.kind ≠ .endOfInput) ∧
      Lexed ⟨start.offset + byteSize text, rest⟩ (token :: back) ∧
      ∀ other tokens, other = [] ∨ other.head? = rest.head? →
        Lexed ⟨start.offset + byteSize text, other⟩ tokens →
        Lexed ⟨start.offset, text ++ other⟩ (front ++ tokens) := by
  obtain ⟨⟨offset, rest⟩, hscans, hl⟩ := h.exists_scans
  obtain ⟨text, hrest, rfl, hsame⟩ := hscans.exists_text
  exact ⟨text, rest, hrest, hscans.kind_ne_endOfInput, hl,
    fun other tokens hother hl => (hsame other hother).lexed hl⟩

theorem Lexed.exists_next (h : Lexed start (front ++ token :: back))
    (hk : token.kind ≠ .endOfInput) :
    ∃ next rest, back = next :: rest ∧ next.span.start = token.span.stop := by
  obtain ⟨stop, -, hl⟩ := h.exists_scans
  cases hl with
  | done => exact absurd rfl hk
  | cons _ hrest =>
    cases back with
    | nil => cases hrest
    | cons next rest => exact ⟨next, rest, rfl, hrest.start_eq⟩

theorem exists_lexed (start : Position) : ∃ tokens, Lexed start tokens :=
  ⟨_, Lexer.lexed_drain (show (⟨⟨start, none⟩, false⟩ : Lexer).closed = false from rfl)⟩

end SignatureRules

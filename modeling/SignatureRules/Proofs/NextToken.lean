import SignatureRules.Lexer
import SignatureRules.Proofs.LexicalGrammar

namespace SignatureRules

namespace Cursor

theorem read?_of_rest_cons {c : Cursor} {x : Char} {xs : List Char} (h : c.rest = x :: xs) :
    c.read? = some (x, ⟨⟨c.pos.offset + x.utf8Size, xs⟩, some c.pos⟩) := by
  have hp : c.pos.rest = x :: xs := h
  simp [read?, h, Position.advance, hp]

theorem advanceTo_of_append {c : Cursor} {w rest : List Char} (h : c.rest = w ++ rest) :
    c.advanceTo rest = ⟨⟨c.pos.offset + byteSize w, rest⟩, none⟩ := by
  have hp : c.pos.rest = w ++ rest := h
  simp [advanceTo, Position.advance, h, hp]

theorem sliceFrom_of_append {c : Cursor} {mark : Position} {w : List Char}
    (h : mark.rest = w ++ c.rest) : c.sliceFrom mark = w := by
  simp [sliceFrom, h]

end Cursor

inductive FoundBy : TokenKind → List Char → List Char → List Char → Prop
  | blanks {c cs u} : isBlank c = true → Lexeme.blanks (c :: cs ++ u) = .ok ⟨c :: cs, u⟩ →
      FoundBy .whitespace (c :: cs) (c :: cs) u
  | keyword {kind c cs u} : c.isAlpha = true → Lexeme.word (c :: cs ++ u) = .ok ⟨c :: cs, u⟩ →
      TokenKind.ofKeyword? ((c :: cs).map Char.toLower) = some kind →
      FoundBy kind ((c :: cs).map Char.toLower) (c :: cs) u
  | identifier {c cs u} : c.isAlpha = true → Lexeme.word (c :: cs ++ u) = .ok ⟨c :: cs, u⟩ →
      TokenKind.ofKeyword? ((c :: cs).map Char.toLower) = none →
      FoundBy .identifier (c :: cs) (c :: cs) u
  | variableName {cs u} : Lexeme.variableName ('$' :: cs ++ u) = .ok ⟨'$' :: cs, u⟩ →
      FoundBy .variableName ('$' :: cs) ('$' :: cs) u
  | quotedBody {text cs u} : Lexeme.quotedBody none (cs ++ u) = ⟨text, u⟩ →
      FoundBy .quotedString text ('"' :: cs) u
  | lineBody {text cs u} : Lexeme.lineBody (cs ++ u) = ⟨text, u⟩ →
      FoundBy .comment text ('/' :: '/' :: cs) u
  | blockBody {text cs u} : Lexeme.blockBody (cs ++ u) = ⟨text, u⟩ →
      FoundBy .comment text ('/' :: '*' :: cs) u
  | punctuation {kind c u} : kind.mark? = some c → FoundBy kind [c] [c] u
  | slash {u} : Stops (fun d => d == '/' || d == '*') u → FoundBy .illegal ['/'] ['/'] u
  | illegal {c u} : isBlank c = false → c.isAlpha = false → c ≠ '"' → c ≠ '$' → c ≠ '/' →
      TokenKind.ofPunctuation? c = none → FoundBy .illegal [c] [c] u

theorem IsWord.exists_cons {w : List Char} (h : IsWord w) :
    ∃ c cs, w = c :: cs ∧ c.isAlpha = true := by
  cases w with
  | nil => exact h.elim
  | cons c cs => exact ⟨c, cs, rfl, h.1⟩

theorem IsLexeme.foundBy {kind : TokenKind} {literal lexeme following : List Char}
    (h : IsLexeme kind literal lexeme following) : FoundBy kind literal lexeme following := by
  cases h with
  | whitespace hne hall hstop =>
    obtain ⟨c, cs, rfl⟩ := List.exists_cons_of_ne_nil hne
    exact .blanks (hall c List.mem_cons_self) (Lexeme.blanks_eq_iff.mpr ⟨hne, rfl, hall, hstop⟩)
  | keyword hword hstop hkind =>
    obtain ⟨c, cs, rfl, ha⟩ := hword.exists_cons
    exact .keyword ha (Lexeme.word_eq_iff.mpr ⟨rfl, hword, hstop⟩)
      (TokenKind.ofKeyword?_eq_some_iff.mpr hkind)
  | identifier hword hstop hkind =>
    obtain ⟨c, cs, rfl, ha⟩ := hword.exists_cons
    refine .identifier ha (Lexeme.word_eq_iff.mpr ⟨rfl, hword, hstop⟩) ?_
    rw [Option.eq_none_iff_forall_ne_some]
    intro kind hkw
    exact hkind kind (TokenKind.ofKeyword?_eq_some_iff.mp hkw)
  | variableName hname hstop =>
    exact .variableName (Lexeme.variableName_eq_iff.mpr ⟨rfl, ⟨_, rfl, hname⟩, hstop⟩)
  | quotedString htext hlast =>
    exact .quotedBody
      (Lexeme.quotedBody_eq_iff.mpr ⟨htext, .inl ⟨by simp, by simpa using hlast⟩⟩)
  | openString htext =>
    exact .quotedBody (Lexeme.quotedBody_eq_iff.mpr ⟨htext, .inr ⟨List.append_nil _, rfl⟩⟩)
  | lineComment htext hlast =>
    exact .lineBody (Lexeme.lineBody_eq_iff.mpr ⟨htext, .inr (.inl ⟨by simp, hlast⟩)⟩)
  | returnComment htext => exact .lineBody (Lexeme.lineBody_eq_iff.mpr ⟨htext, .inl (by simp)⟩)
  | openLineComment htext =>
    exact .lineBody (Lexeme.lineBody_eq_iff.mpr ⟨htext, .inr (.inr ⟨List.append_nil _, rfl⟩)⟩)
  | blockComment htext => exact .blockBody (Lexeme.blockBody_eq_iff.mpr ⟨htext, .inl (by simp)⟩)
  | openBlockComment htext =>
    exact .blockBody (Lexeme.blockBody_eq_iff.mpr ⟨htext, .inr ⟨List.append_nil _, rfl⟩⟩)
  | punctuation hmark => exact .punctuation hmark
  | @illegal c _ hblank halpha hquote hdollar hmark hslash =>
    by_cases hs : c = '/'
    · subst hs
      exact .slash (hslash rfl)
    · refine .illegal hblank halpha hquote hdollar hs ?_
      rw [Option.eq_none_iff_forall_ne_some]
      intro kind hk
      exact hmark kind (TokenKind.ofPunctuation?_eq_some_iff.mp hk)

namespace Lexer

variable {kind : TokenKind} {literal lexeme following : List Char}

def Delivers (kind : TokenKind) (literal lexeme following : List Char) (start : Position)
    (outcome : Token × Cursor) : Prop :=
  outcome.1 = ⟨kind, String.ofList literal, ⟨start.offset, start.offset + byteSize lexeme⟩⟩ ∧
    outcome.2.pos = ⟨start.offset + byteSize lexeme, following⟩

theorem delivers_emit {start : Position} {cursor : Cursor}
    (h : cursor.pos = ⟨start.offset + byteSize lexeme, following⟩) :
    Delivers kind literal lexeme following start (emit kind literal start cursor) := by
  refine ⟨?_, h⟩
  simp [emit, Cursor.spanFrom, h]

theorem delivers_emitSlice {start : Position} {cursor : Cursor}
    (hs : start.rest = lexeme ++ following)
    (h : cursor.pos = ⟨start.offset + byteSize lexeme, following⟩) :
    Delivers kind lexeme lexeme following start (emitSlice kind start cursor) := by
  have hr : start.rest = lexeme ++ cursor.rest := by
    rw [hs, Cursor.rest, h]
  rw [emitSlice, Cursor.sliceFrom_of_append hr]
  exact delivers_emit h

theorem accept_of_ok {scan : List Char → Except Missing Scanned} {cursor : Cursor}
    {text passed rest : List Char} (hc : cursor.rest = passed ++ rest)
    (hs : scan (passed ++ rest) = .ok ⟨text, rest⟩) :
    accept scan cursor = (some text, ⟨⟨cursor.pos.offset + byteSize passed, rest⟩, none⟩) := by
  simp only [accept, hc, hs, Cursor.advanceTo_of_append hc]

theorem delivers_scanRun {scan : List Char → Except Missing Scanned} {start : Position}
    (front : List Char) {passed : List Char} {undo : Option Position}
    (hs : scan (passed ++ following) = .ok ⟨literal, following⟩) :
    Delivers kind literal (front ++ passed) following start (scanRun kind scan start
      ⟨⟨start.offset + byteSize front, passed ++ following⟩, undo⟩) := by
  rw [scanRun, accept_of_ok rfl hs]
  apply delivers_emit
  simp [Nat.add_assoc]

theorem delivers_scanRun_body {body : List Char → Scanned} {start : Position}
    (front : List Char) {passed : List Char} {undo : Option Position}
    (hs : body (passed ++ following) = ⟨literal, following⟩) :
    Delivers kind literal (front ++ passed) following start (scanRun kind
      (fun cs => .ok (body cs)) start
      ⟨⟨start.offset + byteSize front, passed ++ following⟩, undo⟩) := by
  apply delivers_scanRun
  rw [hs]

theorem isAlpha_eq_false_of_isBlank {c : Char} (h : isBlank c = true) : c.isAlpha = false := by
  simp only [isBlank, Bool.or_eq_true, beq_iff_eq] at h
  rcases h with (rfl | rfl) | rfl
  all_goals rfl

theorem isBlank_eq_false_of_isAlpha {c : Char} (h : c.isAlpha = true) : isBlank c = false := by
  cases hb : isBlank c with
  | false => rfl
  | true => exact absurd h (by simp [isAlpha_eq_false_of_isBlank hb])

theorem delivers_scanWord_keyword {start : Position} {w : List Char}
    (hs : Lexeme.word (w ++ following) = .ok ⟨w, following⟩) (hstart : start.rest = w ++ following)
    (hk : TokenKind.ofKeyword? (w.map Char.toLower) = some kind) :
    Delivers kind (w.map Char.toLower) w following start (scanWord start ⟨start, none⟩) := by
  have hc : Cursor.rest ⟨start, none⟩ = w ++ following := hstart
  simp only [scanWord, accept_of_ok hc hs, hk]
  exact delivers_emit rfl

theorem delivers_scanWord_identifier {start : Position} {w : List Char}
    (hs : Lexeme.word (w ++ following) = .ok ⟨w, following⟩) (hstart : start.rest = w ++ following)
    (hk : TokenKind.ofKeyword? (w.map Char.toLower) = none) :
    Delivers .identifier w w following start (scanWord start ⟨start, none⟩) := by
  have hc : Cursor.rest ⟨start, none⟩ = w ++ following := hstart
  simp only [scanWord, accept_of_ok hc hs, hk]
  exact delivers_emit rfl

theorem delivers_scanComment_alone {offset : Nat} {undo : Option Position}
    (h : Stops (fun d => d == '/' || d == '*') following) :
    Delivers .illegal ['/'] ['/'] following ⟨offset, '/' :: following⟩
      (scanComment ⟨offset, '/' :: following⟩ ⟨⟨offset + '/'.utf8Size, following⟩, undo⟩) := by
  cases following with
  | nil => exact delivers_emitSlice rfl rfl
  | cons d following =>
    obtain ⟨hslash, hstar⟩ : d ≠ '/' ∧ d ≠ '*' := by simpa using stops_cons.mp h
    have hread := Cursor.read?_of_rest_cons
      (show Cursor.rest ⟨⟨offset + '/'.utf8Size, d :: following⟩, undo⟩ = d :: following from rfl)
    simp only [scanComment, hread]
    exact delivers_emitSlice rfl rfl

theorem delivers_scanFrom {first : Char} {tail : List Char} {offset : Nat}
    (h : IsLexeme kind literal lexeme following) (hl : lexeme = first :: tail) :
    Delivers kind literal lexeme following ⟨offset, lexeme ++ following⟩
      (scanFrom first ⟨offset, lexeme ++ following⟩
        ⟨⟨offset + first.utf8Size, tail ++ following⟩, some ⟨offset, lexeme ++ following⟩⟩) := by
  subst hl
  cases h.foundBy with
  | blanks hb hs =>
    simp only [scanFrom, hb, if_true]
    exact delivers_scanRun [] hs
  | keyword ha hs hk =>
    simp only [scanFrom, isBlank_eq_false_of_isAlpha ha, ha, Bool.false_eq_true, if_true, if_false]
    exact delivers_scanWord_keyword hs rfl hk
  | identifier ha hs hk =>
    simp only [scanFrom, isBlank_eq_false_of_isAlpha ha, ha, Bool.false_eq_true, if_true, if_false]
    exact delivers_scanWord_identifier hs rfl hk
  | variableName hs =>
    exact delivers_scanRun [] hs
  | quotedBody hs =>
    exact delivers_scanRun_body ['"'] hs
  | lineBody hs =>
    exact delivers_scanRun_body ['/', '/'] hs
  | blockBody hs =>
    exact delivers_scanRun_body ['/', '*'] hs
  | punctuation hmark =>
    have hscan : scanFrom first = emitSlice kind := by
      cases kind <;> cases hmark <;> rfl
    rw [hscan]
    exact delivers_emitSlice rfl rfl
  | slash hstop =>
    exact delivers_scanComment_alone hstop
  | illegal hblank halpha hquote hdollar hslash hmark =>
    have hscan : scanFrom first = emitSlice .illegal := by
      funext start cursor
      simp [scanFrom, hblank, halpha, hmark]
    rw [hscan]
    exact delivers_emitSlice rfl rfl

theorem delivers_nextToken {lexer : Lexer} (hr : lexer.cursor.rest = lexeme ++ following)
    (h : IsLexeme kind literal lexeme following) :
    Delivers kind literal lexeme following lexer.cursor.pos
      (lexer.nextToken.1, lexer.nextToken.2.cursor) := by
  obtain ⟨first, tail, hl⟩ := List.exists_cons_of_ne_nil h.ne_nil
  have hpos : lexer.cursor.pos = ⟨lexer.cursor.pos.offset, lexeme ++ following⟩ := by
    rw [← hr]
    rfl
  have hread : lexer.cursor.read? = _ := Cursor.read?_of_rest_cons (hr.trans (by rw [hl]; rfl))
  simp only [nextToken, hread]
  rw [hpos]
  exact delivers_scanFrom h hl

end Lexer

theorem IsLexeme.unique {kind other : TokenKind}
    {literal literal' lexeme lexeme' following following' : List Char}
    (h : IsLexeme kind literal lexeme following) (h' : IsLexeme other literal' lexeme' following')
    (he : lexeme ++ following = lexeme' ++ following') :
    kind = other ∧ literal = literal' ∧ lexeme = lexeme' ∧ following = following' := by
  let lexer : Lexer := ⟨.atStart (lexeme ++ following), false⟩
  obtain ⟨htoken, hpos⟩ := Lexer.delivers_nextToken (show lexer.cursor.rest = _ from rfl) h
  obtain ⟨htoken', hpos'⟩ := Lexer.delivers_nextToken (show lexer.cursor.rest = _ from he) h'
  have htokens := htoken.symm.trans htoken'
  have hfollowing : following = following' := congrArg Position.rest (hpos.symm.trans hpos')
  subst hfollowing
  exact ⟨congrArg Token.kind htokens, String.ofList_injective (congrArg Token.literal htokens),
    List.append_cancel_right he, rfl⟩

end SignatureRules

import SignatureRules.Proofs.NextToken

namespace SignatureRules

def Token.endAt (offset : Nat) : Token := ⟨.endOfInput, "", ⟨offset, offset⟩⟩

/-- `Lexed start tokens`: the tokens are those of the text from the position on. -/
inductive Lexed : Position → List Token → Prop
  | done {n} : Lexed ⟨n, []⟩ [.endAt n]
  | cons {n kind literal lexeme following tokens} : IsLexeme kind literal lexeme following →
      Lexed ⟨n + byteSize lexeme, following⟩ tokens →
      Lexed ⟨n, lexeme ++ following⟩
        (⟨kind, String.ofList literal, ⟨n, n + byteSize lexeme⟩⟩ :: tokens)

theorem Lexed.unique {start : Position} {tokens others : List Token} (h : Lexed start tokens)
    (h' : Lexed start others) : tokens = others := by
  induction h generalizing others with
  | done =>
    generalize hs : (⟨_, []⟩ : Position) = start at h'
    cases h' with
    | done => cases hs; rfl
    | cons hl _ =>
      have hnil := congrArg Position.rest hs
      exact absurd (List.append_eq_nil_iff.mp hnil.symm).1 hl.ne_nil
  | @cons n kind literal lexeme following tokens hl _ ih =>
    generalize hs : (⟨n, lexeme ++ following⟩ : Position) = start at h'
    cases h' with
    | done =>
      have hnil := congrArg Position.rest hs
      exact absurd (List.append_eq_nil_iff.mp hnil).1 hl.ne_nil
    | cons hl' hrest =>
      obtain ⟨rfl, he⟩ := Position.mk.inj hs
      obtain ⟨rfl, rfl, rfl, rfl⟩ := hl.unique hl' he
      rw [ih hrest]

namespace Lexer

theorem drain_of_closed {lexer : Lexer} (h : lexer.closed = true) : lexer.drain = [] := by
  rw [drain]
  split
  · rfl
  · rename_i hn
    simp [next?, h] at hn

theorem drain_of_open {lexer : Lexer} (h : lexer.closed = false) :
    lexer.drain = lexer.nextToken.1 ::
      { lexer.nextToken.2 with closed := lexer.nextToken.1.kind = .endOfInput : Lexer }.drain := by
  rw [drain]
  split
  · rename_i hn
    simp [next?, h] at hn
  · rename_i hn
    simp only [next?, h, Bool.false_eq_true, if_false, Option.some.injEq, Prod.mk.injEq] at hn
    obtain ⟨rfl, rfl⟩ := hn
    rfl

theorem lexed_drain {lexer : Lexer} (h : lexer.closed = false) :
    Lexed lexer.cursor.pos lexer.drain := by
  induction hn : lexer.size using Nat.strongRecOn generalizing lexer with
  | ind n ih =>
    rw [drain_of_open h]
    cases hr : lexer.cursor.rest with
    | nil =>
      have hpos : lexer.cursor.pos = ⟨lexer.cursor.pos.offset, []⟩ := by
        rw [← hr]
        rfl
      rw [nextToken_of_rest_nil hr, drain_of_closed (by simp), hpos]
      exact .done
    | cons c cs =>
      obtain ⟨kind, literal, lexeme, following, hl, hcs⟩ := IsLexeme.exists_of_cons c cs
      obtain ⟨htoken, hafter⟩ := delivers_nextToken (hr.trans hcs) hl
      have hkind : lexer.nextToken.1.kind ≠ .endOfInput := by
        rw [htoken]
        exact hl.kind_ne_endOfInput
      have hpos : lexer.cursor.pos = ⟨lexer.cursor.pos.offset, lexeme ++ following⟩ := by
        rw [← hcs, ← hr]
        rfl
      have htail : Lexed lexer.nextToken.2.cursor.pos (drain ⟨lexer.nextToken.2.cursor, false⟩) :=
        @ih _ (hn ▸ size_nextToken_lt hkind) ⟨lexer.nextToken.2.cursor, false⟩ rfl rfl
      rw [hafter] at htail
      simp only [hkind, decide_false]
      rw [htoken, hpos]
      exact .cons hl htail

end Lexer

theorem Lexed.nextToken {lexer : Lexer} {tokens : List Token} (h : Lexed lexer.cursor.pos tokens) :
    ∃ rest, tokens = lexer.nextToken.1 :: rest ∧
      (lexer.nextToken.1.kind ≠ .endOfInput → Lexed lexer.nextToken.2.cursor.pos rest) ∧
      (lexer.nextToken.1.kind = .endOfInput → rest = []) := by
  generalize hp : lexer.cursor.pos = start at h
  cases h with
  | done =>
    have hr : lexer.cursor.rest = [] := congrArg Position.rest hp
    rw [Lexer.nextToken_of_rest_nil hr, hp]
    exact ⟨[], rfl, fun hk => absurd rfl hk, fun _ => rfl⟩
  | cons hl hrest =>
    have hr : lexer.cursor.rest = _ := congrArg Position.rest hp
    obtain ⟨htoken, hafter⟩ := Lexer.delivers_nextToken hr hl
    rw [hp] at htoken hafter
    simp only at htoken hafter
    rw [htoken, hafter]
    exact ⟨_, rfl, fun _ => hrest, fun hk => absurd hk hl.kind_ne_endOfInput⟩

theorem lexed_tokenize (source : String) : Lexed ⟨0, source.toList⟩ (tokenize source) :=
  show Lexed (Lexer.ofSource source).cursor.pos (Lexer.ofSource source).drain from
    Lexer.lexed_drain rfl

theorem tokenize_eq_of_lexed {source : String} {tokens : List Token}
    (h : Lexed ⟨0, source.toList⟩ tokens) : tokenize source = tokens :=
  (lexed_tokenize source).unique h

theorem tokenize_ofList {text : List Char} {tokens : List Token} (h : Lexed ⟨0, text⟩ tokens) :
    tokenize (.ofList text) = tokens := by
  apply tokenize_eq_of_lexed
  rwa [String.toList_ofList]

def Abut : Nat → List Span → Nat → Prop
  | start, [], stop => start = stop
  | start, span :: spans, stop => span.start = start ∧ Abut span.stop spans stop

def Token.Covers (token : Token) (source : String) (lexeme following : List Char) : Prop :=
  ∃ front, source.toList = front ++ lexeme ++ following ∧
    token.span = ⟨byteSize front, byteSize (front ++ lexeme)⟩

def Token.IsLexemeOf (token : Token) (source : String) : Prop :=
  ∃ lexeme following, token.Covers source lexeme following ∧
    IsLexeme token.kind token.literal.toList lexeme following

def IsTokenization (source : String) (tokens : List Token) : Prop :=
  ∃ body, tokens = body ++ [.endAt (byteSize source.toList)] ∧
    (∀ token ∈ body, token.kind ≠ .endOfInput) ∧
    Abut 0 (body.map Token.span) (byteSize source.toList) ∧
    ∀ token ∈ body, token.IsLexemeOf source

theorem Lexed.exists_body {source : String} {start : Position} {tokens : List Token}
    {front : List Char} (h : Lexed start tokens) (hs : source.toList = front ++ start.rest)
    (ho : start.offset = byteSize front) :
    ∃ body, tokens = body ++ [.endAt (byteSize source.toList)] ∧
      (∀ token ∈ body, token.kind ≠ .endOfInput) ∧
      Abut start.offset (body.map Token.span) (byteSize source.toList) ∧
      ∀ token ∈ body, token.IsLexemeOf source := by
  induction h generalizing front with
  | @done n =>
    have hn : byteSize source.toList = n := by
      rw [hs, byteSize_append]
      exact ho.symm
    exact ⟨[], by rw [hn]; rfl, by simp, hn.symm, by simp⟩
  | @cons n kind literal lexeme following tokens hl _ ih =>
    have ho' : n + byteSize lexeme = byteSize (front ++ lexeme) := by
      rw [byteSize_append, ← ho]
    have hs' : source.toList = front ++ lexeme ++ following := by
      rw [hs, List.append_assoc]
    obtain ⟨body, rfl, hkinds, habut, hlexemes⟩ := ih hs' ho'
    have hfirst : Token.IsLexemeOf
        ⟨kind, String.ofList literal, ⟨n, n + byteSize lexeme⟩⟩ source := by
      refine ⟨lexeme, following, ⟨front, hs', ?_⟩, ?_⟩
      · rw [← ho', ← ho]
      · rw [String.toList_ofList]
        exact hl
    refine ⟨_ :: body, rfl, ?_, ⟨rfl, habut⟩, ?_⟩
    · exact List.forall_mem_cons.mpr ⟨hl.kind_ne_endOfInput, hkinds⟩
    · exact List.forall_mem_cons.mpr ⟨hfirst, hlexemes⟩

theorem lexed_of_abut {source : String} {body : List Token} {front rest : List Char}
    (hs : source.toList = front ++ rest)
    (habut : Abut (byteSize front) (body.map Token.span) (byteSize source.toList))
    (hlexemes : ∀ token ∈ body, token.IsLexemeOf source) :
    Lexed ⟨byteSize front, rest⟩ (body ++ [.endAt (byteSize source.toList)]) := by
  induction body generalizing front rest with
  | nil =>
    have hsize : byteSize front = byteSize source.toList := habut
    have hrest : rest = [] := by
      apply eq_nil_of_byteSize_eq_zero
      rw [hs, byteSize_append] at hsize
      omega
    rw [hrest, ← hsize]
    exact .done
  | cons token body ih =>
    obtain ⟨hstart, habut⟩ := habut
    obtain ⟨⟨lexeme, following, ⟨front', hs', hspan⟩, hl⟩, hlexemes⟩ :=
      List.forall_mem_cons.mp hlexemes
    rw [hspan] at hstart habut
    obtain ⟨rfl, rfl⟩ := append_inj_of_byteSize_eq
      (hs.symm.trans (hs'.trans (List.append_assoc ..))) hstart.symm
    have htail := ih hs' habut hlexemes
    have htoken : token = ⟨token.kind, String.ofList token.literal.toList,
        ⟨byteSize front, byteSize front + byteSize lexeme⟩⟩ := by
      rw [String.ofList_toList, ← byteSize_append, ← hspan]
    rw [byteSize_append] at htail
    rw [List.cons_append, htoken]
    exact .cons hl htail

theorem tokenize_eq_iff {source : String} {tokens : List Token} :
    tokenize source = tokens ↔ IsTokenization source tokens := by
  have hs : source.toList = [] ++ source.toList := rfl
  constructor
  · rintro rfl
    exact (lexed_tokenize source).exists_body hs rfl
  · rintro ⟨body, rfl, -, habut, hlexemes⟩
    exact tokenize_eq_of_lexed (lexed_of_abut hs habut hlexemes)

theorem eq_endAt_or_isLexemeOf {source : String} {token : Token} (h : token ∈ tokenize source) :
    token = .endAt (byteSize source.toList) ∨
      token.kind ≠ .endOfInput ∧ token.IsLexemeOf source := by
  have hs : source.toList = [] ++ source.toList := rfl
  obtain ⟨body, htokens, hkinds, -, hlexemes⟩ := (lexed_tokenize source).exists_body hs rfl
  rw [htokens] at h
  rcases List.mem_append.mp h with hm | hm
  · exact .inr ⟨hkinds token hm, hlexemes token hm⟩
  · exact .inl (List.mem_singleton.mp hm)

end SignatureRules

import Mathlib.Data.String.Basic
import SignatureRules.Proofs.Tokenization

namespace SignatureRules

theorem utf8Len_eq_byteSize (cs : List Char) : String.utf8Len cs = byteSize cs := by
  induction cs with
  | nil => rfl
  | cons c cs ih => rw [String.utf8Len_cons, byteSize_cons, ih, Nat.add_comm]

theorem utf8ByteSize_ofList (cs : List Char) : (String.ofList cs).utf8ByteSize = byteSize cs := by
  rw [String.utf8ByteSize_ofList, utf8Len_eq_byteSize]

theorem byteSize_toList (text : String) : byteSize text.toList = text.utf8ByteSize := by
  rw [← utf8ByteSize_ofList, String.ofList_toList]

theorem byteSize_take_lt {cs : List Char} {i : Nat} (h : i < cs.length) :
    byteSize (cs.take i) < byteSize cs := by
  have hsplit := congrArg byteSize (List.take_append_drop i cs)
  have hpos : byteSize (cs.drop i) ≠ 0 := by
    intro hz
    have hnil := List.drop_eq_nil_iff.mp (eq_nil_of_byteSize_eq_zero hz)
    omega
  rw [byteSize_append] at hsplit
  omega

def Span.textIn (source : String) (span : Span) : String :=
  String.Pos.Raw.extract source ⟨span.start⟩ ⟨span.stop⟩

def Span.FitsIn (source : String) (span : Span) : Prop :=
  String.Pos.Raw.IsValid source ⟨span.start⟩ ∧ String.Pos.Raw.IsValid source ⟨span.stop⟩

structure Tiles (source : String) (tokens : List Token) : Prop where
  ends : ∃ body, tokens = body ++ [.endAt source.utf8ByteSize] ∧ body.length ≤ source.length ∧
    ∀ token ∈ body, token.kind ≠ .endOfInput ∧ token.span.start < token.span.stop
  abut : Abut 0 (tokens.map Token.span) source.utf8ByteSize
  fit : ∀ token ∈ tokens, token.span.FitsIn source
  join_texts : String.join (tokens.map (·.span.textIn source)) = source

variable {source : String} {token : Token} {tokens : List Token} {spans : List Span}
  {front lexeme following rest : List Char} {start : Position}

theorem textIn_of_append (h : source.toList = front ++ lexeme ++ following) :
    Span.textIn source ⟨byteSize front, byteSize (front ++ lexeme)⟩ = .ofList lexeme := by
  rw [Span.textIn, ← source.ofList_toList, h, byteSize_append, ← utf8Len_eq_byteSize,
    ← utf8Len_eq_byteSize]
  exact String.extract_of_valid front lexeme following

theorem isValid_of_append (h : source.toList = front ++ rest) :
    String.Pos.Raw.IsValid source ⟨byteSize front⟩ := by
  apply String.Pos.Raw.isValid_iff_exists_append.mpr
  refine ⟨.ofList front, .ofList rest, ?_, ?_⟩
  · rw [← String.ofList_append, ← h, String.ofList_toList]
  · rw [← utf8ByteSize_ofList]
    rfl

theorem Token.Covers.fitsIn (h : token.Covers source lexeme following) :
    token.span.FitsIn source := by
  obtain ⟨front, hs, hspan⟩ := h
  rw [hspan]
  exact ⟨isValid_of_append (hs.trans (List.append_assoc ..)), isValid_of_append hs⟩

theorem Token.Covers.textIn_eq (h : token.Covers source lexeme following) :
    token.span.textIn source = .ofList lexeme := by
  obtain ⟨front, hs, hspan⟩ := h
  rw [hspan]
  exact textIn_of_append hs

theorem Token.IsLexemeOf.span_lt (h : token.IsLexemeOf source) :
    token.span.start < token.span.stop := by
  obtain ⟨lexeme, following, ⟨front, -, hspan⟩, hl⟩ := h
  have hpos : byteSize lexeme ≠ 0 := fun hz => hl.ne_nil (eq_nil_of_byteSize_eq_zero hz)
  rw [hspan, byteSize_append]
  exact Nat.lt_add_of_pos_right (Nat.pos_of_ne_zero hpos)

theorem Abut.concat {start stop : Nat} (h : Abut start spans stop) :
    Abut start (spans ++ [⟨stop, stop⟩]) stop := by
  induction spans generalizing start with
  | nil => exact ⟨Eq.symm h, rfl⟩
  | cons span spans ih => exact ⟨h.1, ih h.2⟩

theorem Lexed.length_le (h : Lexed start tokens) : tokens.length ≤ start.rest.length + 1 := by
  induction h with
  | done => exact Nat.le_refl 1
  | cons hl _ ih =>
    have hpos := List.length_pos_of_ne_nil hl.ne_nil
    simp only [List.length_cons, List.length_append] at ih ⊢
    omega

theorem covers_endAt (source : String) :
    (Token.endAt source.utf8ByteSize).Covers source [] [] := by
  refine ⟨source.toList, by simp, ?_⟩
  rw [List.append_nil, byteSize_toList]
  rfl

theorem Lexed.join_texts (h : Lexed start tokens) (hs : source.toList = front ++ start.rest)
    (ho : start.offset = byteSize front) :
    (String.join (tokens.map (·.span.textIn source))).toList = start.rest := by
  induction h generalizing front with
  | @done n =>
    have hend : Token.endAt n = .endAt source.utf8ByteSize := by
      rw [← byteSize_toList, hs, List.append_nil]
      exact congrArg Token.endAt ho
    rw [hend, List.map_singleton, (covers_endAt source).textIn_eq]
    rfl
  | @cons n kind literal lexeme following tokens _ _ ih =>
    have ho' : n + byteSize lexeme = byteSize (front ++ lexeme) := by
      rw [byteSize_append, ← ho]
    have hs' : source.toList = front ++ lexeme ++ following := by
      rw [hs, List.append_assoc]
    have hfirst : Span.textIn source ⟨n, n + byteSize lexeme⟩ = .ofList lexeme := by
      rw [ho', show n = byteSize front from ho]
      exact textIn_of_append hs'
    rw [List.map_cons, String.join_cons, String.toList_append, ih hs' ho', hfirst,
      String.toList_ofList]

theorem tokenize_tiles (source : String) : Tiles source (tokenize source) := by
  have hl := lexed_tokenize source
  have hs : source.toList = [] ++ source.toList := rfl
  obtain ⟨body, htokens, hkinds, habut, hlexemes⟩ := hl.exists_body hs rfl
  rw [byteSize_toList] at htokens habut
  constructor
  · refine ⟨body, htokens, ?_, fun token hm => ⟨hkinds token hm, (hlexemes token hm).span_lt⟩⟩
    have hlength := hl.length_le
    rw [htokens, List.length_append, String.length_toList] at hlength
    exact Nat.le_of_succ_le_succ hlength
  · rw [htokens, List.map_append]
    exact habut.concat
  · intro token hm
    rw [htokens] at hm
    rcases List.mem_append.mp hm with hm | hm
    · obtain ⟨lexeme, following, hcovers, -⟩ := hlexemes token hm
      exact hcovers.fitsIn
    · obtain rfl := List.mem_singleton.mp hm
      exact (covers_endAt source).fitsIn
  · apply String.toList_inj.mp
    exact hl.join_texts hs rfl

end SignatureRules

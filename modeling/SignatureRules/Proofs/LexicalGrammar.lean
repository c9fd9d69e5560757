import SignatureRules.Token
import SignatureRules.Proofs.Lexemes

namespace SignatureRules

namespace TokenKind

def reservedWord? : TokenKind → Option (List Char)
  | ruleWord => some ['r', 'u', 'l', 'e']
  | allWord => some ['a', 'l', 'l']
  | ofWord => some ['o', 'f']
  | themWord => some ['t', 'h', 'e', 'm']
  | _ => none

def mark? : TokenKind → Option Char
  | colon => some ':'
  | openBrace => some '\x7b'
  | closeBrace => some '\x7d'
  | equal => some '='
  | asterisk => some '*'
  | openParen => some '('
  | closeParen => some ')'
  | _ => none

theorem ofKeyword?_eq_some_iff {word : List Char} {kind : TokenKind} :
    ofKeyword? word = some kind ↔ kind.reservedWord? = some word := by
  constructor
  · intro h
    simp only [ofKeyword?] at h
    split at h <;> cases h <;> rfl
  · intro h
    cases kind <;> cases h <;> rfl

theorem ofPunctuation?_eq_some_iff {c : Char} {kind : TokenKind} :
    ofPunctuation? c = some kind ↔ kind.mark? = some c := by
  constructor
  · intro h
    simp only [ofPunctuation?] at h
    split at h <;> cases h <;> rfl
  · intro h
    cases kind <;> cases h <;> rfl

end TokenKind

/-- `IsLexeme kind literal lexeme following`: in front of the following text the lexeme is a token
of the kind with the literal. -/
inductive IsLexeme : TokenKind → List Char → List Char → List Char → Prop
  | whitespace {w u} : w ≠ [] → (∀ c ∈ w, isBlank c = true) → Stops isBlank u →
      IsLexeme .whitespace w w u
  | keyword {kind w u} : IsWord w → Stops isWordChar u →
      kind.reservedWord? = some (w.map Char.toLower) → IsLexeme kind (w.map Char.toLower) w u
  | identifier {w u} : IsWord w → Stops isWordChar u →
      (∀ kind : TokenKind, kind.reservedWord? ≠ some (w.map Char.toLower)) →
      IsLexeme .identifier w w u
  | variableName {name u} : (∀ c ∈ name, c.isAlphanum = true) → Stops Char.isAlphanum u →
      IsLexeme .variableName ('$' :: name) ('$' :: name) u
  | quotedString {text u} : EscapedAfter none text → text.getLast? ≠ some '\\' →
      IsLexeme .quotedString text ('"' :: text ++ ['"']) u
  | openString {text} : EscapedAfter none text → IsLexeme .quotedString text ('"' :: text) []
  | lineComment {text u} : '\n' ∉ text → text.getLast? ≠ some '\r' →
      IsLexeme .comment text (['/', '/'] ++ text ++ ['\n']) u
  | returnComment {text u} : '\n' ∉ text →
      IsLexeme .comment text (['/', '/'] ++ text ++ ['\r', '\n']) u
  | openLineComment {text} : '\n' ∉ text → IsLexeme .comment text (['/', '/'] ++ text) []
  | blockComment {text u} : ¬ ['*', '/'] <:+: text →
      IsLexeme .comment text (['/', '*'] ++ text ++ ['*', '/']) u
  | openBlockComment {text} : ¬ ['*', '/'] <:+: text →
      IsLexeme .comment text (['/', '*'] ++ text) []
  | punctuation {kind c u} : kind.mark? = some c → IsLexeme kind [c] [c] u
  | illegal {c u} : isBlank c = false → c.isAlpha = false → c ≠ '"' → c ≠ '$' →
      (∀ kind : TokenKind, kind.mark? ≠ some c) →
      (c = '/' → Stops (fun d => d == '/' || d == '*') u) → IsLexeme .illegal [c] [c] u

namespace IsLexeme

variable {kind other : TokenKind} {literal literal' lexeme lexeme' following following' : List Char}

theorem ne_nil (h : IsLexeme kind literal lexeme following) : lexeme ≠ [] := by
  cases h with
  | whitespace hne => exact hne
  | keyword hword | identifier hword =>
    rintro rfl
    exact hword
  | _ => simp

theorem kind_ne_endOfInput (h : IsLexeme kind literal lexeme following) : kind ≠ .endOfInput := by
  rintro rfl
  cases h with
  | keyword _ _ hkind => cases hkind
  | punctuation hmark => cases hmark

theorem of_line {text : List Char} (h : '\n' ∉ text) (following : List Char) :
    IsLexeme .comment (Lexeme.dropReturn text) (['/', '/'] ++ text ++ ['\n']) following := by
  rcases Lexeme.dropReturn_cases text with he | ⟨he, hlast⟩
  · have hl : IsLexeme .comment (Lexeme.dropReturn text)
        (['/', '/'] ++ Lexeme.dropReturn text ++ ['\r', '\n']) following :=
      .returnComment fun hm => h (by rw [he]; simp [hm])
    rw [he, Lexeme.dropReturn_append_return]
    simpa using hl
  · rw [← he] at hlast ⊢
    exact .lineComment h hlast

theorem slash_alone (h : Stops (fun d => d == '/' || d == '*') following) :
    IsLexeme .illegal ['/'] ['/'] following := by
  refine .illegal rfl rfl (by decide) (by decide) (fun kind => ?_) (fun _ => h)
  cases kind <;> decide

theorem exists_of_cons_slash (cs : List Char) :
    ∃ kind literal lexeme following, IsLexeme kind literal lexeme following ∧
      '/' :: cs = lexeme ++ following := by
  cases cs with
  | nil => exact ⟨_, _, _, _, slash_alone (stops_nil _), rfl⟩
  | cons d cs =>
    by_cases hslash : d = '/'
    · subst hslash
      obtain ⟨text, rest, hbody⟩ : ∃ text rest, Lexeme.lineBody cs = ⟨text, rest⟩ := ⟨_, _, rfl⟩
      obtain ⟨htext, rfl | ⟨rfl, hlast⟩ | ⟨rfl, rfl⟩⟩ := Lexeme.lineBody_eq_iff.mp hbody
      · exact ⟨_, _, _, rest, .returnComment htext, by simp⟩
      · exact ⟨_, _, _, rest, .lineComment htext hlast, by simp⟩
      · exact ⟨_, _, _, _, .openLineComment htext, by simp⟩
    by_cases hstar : d = '*'
    · subst hstar
      obtain ⟨text, rest, hbody⟩ : ∃ text rest, Lexeme.blockBody cs = ⟨text, rest⟩ := ⟨_, _, rfl⟩
      obtain ⟨htext, rfl | ⟨rfl, rfl⟩⟩ := Lexeme.blockBody_eq_iff.mp hbody
      · exact ⟨_, _, _, rest, .blockComment htext, by simp⟩
      · exact ⟨_, _, _, _, .openBlockComment htext, by simp⟩
    · exact ⟨_, _, _, _, slash_alone (stops_cons.mpr (by simp [hslash, hstar])), rfl⟩

theorem exists_of_cons (c : Char) (cs : List Char) :
    ∃ kind literal lexeme following, IsLexeme kind literal lexeme following ∧
      c :: cs = lexeme ++ following := by
  by_cases hb : isBlank c = true
  · obtain ⟨hne, hcs, hall, hstop⟩ := Lexeme.blanks_eq_iff.mp (Lexeme.blanks_cons hb cs)
    exact ⟨_, _, _, _, .whitespace hne hall hstop, hcs⟩
  by_cases ha : c.isAlpha = true
  · obtain ⟨hcs, hword, hstop⟩ := Lexeme.word_eq_iff.mp (Lexeme.word_cons ha cs)
    by_cases hk : ∃ kind : TokenKind, kind.reservedWord? =
        some ((c :: cs.takeWhile isWordChar).map Char.toLower)
    · obtain ⟨kind, hk⟩ := hk
      exact ⟨_, _, _, _, .keyword hword hstop hk, hcs⟩
    · exact ⟨_, _, _, _, .identifier hword hstop (not_exists.mp hk), hcs⟩
  by_cases hq : c = '"'
  · subst hq
    obtain ⟨text, rest, hbody⟩ : ∃ text rest, Lexeme.quotedBody none cs = ⟨text, rest⟩ :=
      ⟨_, _, rfl⟩
    obtain ⟨htext, ⟨rfl, hlast⟩ | ⟨rfl, rfl⟩⟩ := Lexeme.quotedBody_eq_iff.mp hbody
    · rw [Option.or_none] at hlast
      exact ⟨_, _, _, rest, .quotedString htext hlast, by simp⟩
    · exact ⟨_, _, _, _, .openString htext, by simp⟩
  by_cases hd : c = '$'
  · subst hd
    obtain ⟨hcs, ⟨name, hrun, hname⟩, hstop⟩ :=
      Lexeme.variableName_eq_iff.mp (Lexeme.variableName_cons cs)
    obtain ⟨-, rfl⟩ := List.cons.inj hrun
    exact ⟨_, _, _, _, .variableName hname hstop, hcs⟩
  by_cases hs : c = '/'
  · exact hs ▸ exists_of_cons_slash cs
  by_cases hm : ∃ kind : TokenKind, kind.mark? = some c
  · obtain ⟨kind, hm⟩ := hm
    exact ⟨_, _, _, _, .punctuation hm, rfl⟩
  refine ⟨_, _, _, _, .illegal ?_ ?_ hq hd (not_exists.mp hm) (fun h => absurd h hs), rfl⟩
  · exact Bool.eq_false_iff.mpr hb
  · exact Bool.eq_false_iff.mpr ha

end IsLexeme

end SignatureRules

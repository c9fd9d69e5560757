import SignatureRules.Parser.Goal
import SignatureRules.Proofs.BraceNesting

namespace SignatureRules

inductive Trivia : List Token → Prop
  | none : Trivia []
  | whitespace {blank} : blank.kind = .whitespace → Trivia [blank]
  | comment {remark} : remark.kind = .comment → Trivia [remark]
  | both {blank remark} : blank.kind = .whitespace → remark.kind = .comment →
      Trivia [blank, remark]

theorem Trivia.of_cons {token : Token} {tokens : List Token} (h : Trivia (token :: tokens)) :
    token.kind.isTrivia = true ∧ Trivia tokens := by
  cases h with
  | whitespace hb => exact ⟨by rw [hb]; rfl, .none⟩
  | comment hr => exact ⟨by rw [hr]; rfl, .none⟩
  | both hb hr => exact ⟨by rw [hb]; rfl, .comment hr⟩

inductive Wanted (kind : TokenKind) (token : Token) : List Token → Prop
  | mk {trivia} : Trivia trivia → token.kind = kind → Wanted kind token (trivia ++ [token])

theorem Wanted.kind_eq {kind : TokenKind} {token : Token} {tokens : List Token}
    (h : Wanted kind token tokens) : token.kind = kind := by
  cases h
  assumption

theorem Wanted.length_pos {kind : TokenKind} {token : Token} {tokens : List Token}
    (h : Wanted kind token tokens) : 0 < tokens.length := by
  cases h
  simp

inductive TagNames : List Token → List String → Prop
  | nil : TagNames [] []
  | cons {name front back names} : Wanted .identifier name front → TagNames back names →
      TagNames (front ++ back) (name.literal :: names)

inductive Tags : List Token → List String → Prop
  | none : Tags [] []
  | listed {colon front back names} : Wanted .colon colon front → TagNames back names →
      names ≠ [] → Tags (front ++ back) names

def SameLetters (text other : String) : Prop :=
  text.toList.map Char.toLower = other.toList.map Char.toLower

def BodySection.Named (name : String) : BodySection → Prop
  | metadata => SameLetters name "meta"
  | strings => SameLetters name "strings"
  | conditions => SameLetters name "conditions"
  | unknown => ¬ SameLetters name "meta" ∧ ¬ SameLetters name "strings" ∧
      ¬ SameLetters name "conditions"

inductive Entry
  | metadata (key value : String)
  | pattern (name text : String)

/-- `Body options part tokens entries`: after the header of the part, the tokens are the rest of a
rule, with these entries from there on. After the header of an unknown part comes what may also come
after the opening brace. -/
inductive Body (options : ParseOptions) : BodySection → List Token → List Entry → Prop
  | unknownEnd {close tokens} : Wanted .closeBrace close tokens → Body options .unknown tokens []
  | unknownHeader {trivia name names colon colons part tokens entries} : Trivia trivia →
      Wanted .identifier name names → Wanted .colon colon colons → part.Named name.literal →
      Body options part tokens entries →
      Body options .unknown (trivia ++ names ++ colons ++ tokens) entries
  | metadataEnd {close tokens} : Wanted .closeBrace close tokens → Body options .metadata tokens []
  | metadataEntry {key keys equal equals value values tokens entries} :
      Wanted .identifier key keys → Wanted .equal equal equals →
      Wanted .quotedString value values → Body options .metadata tokens entries →
      Body options .metadata (keys ++ equals ++ values ++ tokens)
        (.metadata key.literal value.literal :: entries)
  | metadataHeader {name names colon colons part tokens entries} :
      Wanted .identifier name names → Wanted .colon colon colons → part.Named name.literal →
      Body options part tokens entries → Body options .metadata (names ++ colons ++ tokens) entries
  | stringsEnd {close tokens} : Wanted .closeBrace close tokens → Body options .strings tokens []
  | stringsEntry {name names equal equals value values tokens entries} :
      Wanted .variableName name names → Wanted .equal equal equals →
      Wanted .quotedString value values → Body options .strings tokens entries →
      Body options .strings (names ++ equals ++ values ++ tokens)
        (.pattern name.literal value.literal :: entries)
  | stringsHeader {name names colon colons part tokens entries} :
      Wanted .identifier name names → Wanted .colon colon colons → part.Named name.literal →
      Body options part tokens entries → Body options .strings (names ++ colons ++ tokens) entries
  | conditions {tokens entries} : options.skipConditions = false →
      Body options .unknown tokens entries → Body options .conditions tokens entries
  | skipped {run close} : options.skipConditions = true → Balanced run →
      (∀ token ∈ run, token.kind ≠ .endOfInput) → close.kind = .closeBrace →
      Body options .conditions (run ++ [close]) []

namespace Rule

def addEntry (rule : Rule) : Entry → Rule
  | .metadata key value => { rule with metadata := rule.metadata.insert key value }
  | .pattern name text => { rule with patterns := rule.patterns.insert name ⟨.string, text, []⟩ }

def addEntries (rule : Rule) (entries : List Entry) : Rule := entries.foldl addEntry rule

inductive DerivesFrom (options : ParseOptions) : Rule → List Token → Prop
  | mk {word words name names tagTokens tags trivia brace braces body entries} :
      Wanted .ruleWord word words → Wanted .identifier name names → Tags tagTokens tags →
      Trivia trivia → Wanted .openBrace brace braces → Body options .unknown body entries →
      DerivesFrom options ((⟨name.literal, tags, .empty, .empty⟩ : Rule).addEntries entries)
        (words ++ names ++ tagTokens ++ trivia ++ braces ++ body)

end Rule

theorem map_toLower_eq_iff {name word : String}
    (h : word.toList.map Char.toLower = word.toList) :
    name.map Char.toLower = word ↔ SameLetters name word := by
  rw [SameLetters, h, ← String.toList_map, String.toList_inj]

theorem BodySection.named_iff {name : String} {part : BodySection} :
    part.Named name ↔ ofName name = part := by
  have hmeta : name.map Char.toLower = "meta" ↔ SameLetters name "meta" :=
    map_toLower_eq_iff (by decide)
  have hstrings : name.map Char.toLower = "strings" ↔ SameLetters name "strings" :=
    map_toLower_eq_iff (by decide)
  have hconditions : name.map Char.toLower = "conditions" ↔ SameLetters name "conditions" :=
    map_toLower_eq_iff (by decide)
  simp only [ofName]
  split
  · rename_i h
    rw [h] at hmeta hstrings hconditions
    cases part <;> simp [Named, ← hmeta, ← hstrings, ← hconditions]
  · rename_i h
    rw [h] at hmeta hstrings hconditions
    cases part <;> simp [Named, ← hmeta, ← hstrings, ← hconditions]
  · rename_i h
    rw [h] at hmeta hstrings hconditions
    cases part <;> simp [Named, ← hmeta, ← hstrings, ← hconditions]
  · rename_i hm hs hc
    have hno : name.map Char.toLower ≠ "meta" ∧ name.map Char.toLower ≠ "strings" ∧
        name.map Char.toLower ≠ "conditions" := ⟨hm, hs, hc⟩
    cases part <;> simp [Named, ← hmeta, ← hstrings, ← hconditions, hno]

end SignatureRules

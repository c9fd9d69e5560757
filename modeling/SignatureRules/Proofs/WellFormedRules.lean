import SignatureRules.Proofs.MatchingBrace
import SignatureRules.Proofs.OrderedTables

namespace SignatureRules

def IsName (text : String) : Prop :=
  IsWord text.toList ∧ ∀ kind : TokenKind, kind.reservedWord? ≠ some (text.toList.map Char.toLower)

def IsPatternName (text : String) : Prop :=
  ∃ name, text.toList = '$' :: name ∧ ∀ c ∈ name, c.isAlphanum = true

/-- Between quotes the text is read as it is, and the quote after it ends it. -/
structure IsQuotable (text : String) : Prop where
  escaped : EscapedAfter none text.toList
  not_escaping : text.toList.getLast? ≠ some '\\'

structure Pattern.Plain (pattern : Pattern) : Prop where
  kind : pattern.kind = .string
  modifiers : pattern.modifiers = []
  text : IsQuotable pattern.text

structure Rule.WellFormed (rule : Rule) : Prop where
  name : IsName rule.name
  tags : ∀ tag ∈ rule.tags, IsName tag
  metadata : ∀ entry ∈ rule.metadata.entries, IsName entry.1 ∧ IsQuotable entry.2
  patterns : ∀ entry ∈ rule.patterns.entries, IsPatternName entry.1 ∧ entry.2.Plain
  metadata_ascending : rule.metadata.Ascending
  patterns_ascending : rule.patterns.Ascending

def TokenKind.Suits : TokenKind → String → Prop
  | identifier, text => IsName text
  | variableName, text => IsPatternName text
  | quotedString, text => IsQuotable text
  | _, _ => True

def Token.Usable (token : Token) : Prop := token.kind.Suits token.literal

theorem TokenKind.suits_of_ne {kind : TokenKind} (hi : kind ≠ .identifier)
    (hv : kind ≠ .variableName) (hq : kind ≠ .quotedString) (text : String) : kind.Suits text := by
  cases kind with
  | identifier => exact absurd rfl hi
  | variableName => exact absurd rfl hv
  | quotedString => exact absurd rfl hq
  | _ => trivial

variable {kind : TokenKind} {literal lexeme following : List Char} {token : Token}
  {tokens front back : List Token}

/-- Only a string that is open at the end of the input has a literal that cannot be used. -/
theorem IsLexeme.usable (h : IsLexeme kind literal lexeme following) (hf : following ≠ [])
    (span : Span) : Token.Usable ⟨kind, .ofList literal, span⟩ := by
  cases h with
  | identifier hword _ hkind =>
    refine ⟨?_, fun kind => ?_⟩
    all_goals rw [String.toList_ofList]
    · exact hword
    · exact hkind kind
  | variableName hname _ => exact ⟨_, String.toList_ofList, hname⟩
  | quotedString htext hlast =>
    constructor
    all_goals rw [String.toList_ofList]
    · exact htext
    · exact hlast
  | openString => exact absurd rfl hf
  | keyword _ _ hkind =>
    apply TokenKind.suits_of_ne
    all_goals
      rintro rfl
      cases hkind
  | punctuation hmark =>
    apply TokenKind.suits_of_ne
    all_goals
      rintro rfl
      cases hmark
  | _ => trivial

theorem Lexed.usable {start : Position} (h : Lexed start (front ++ token :: back))
    (hk : token.kind ≠ .endOfInput) : ∀ other ∈ front, other.Usable := by
  induction front generalizing start with
  | nil => simp
  | cons first front ih =>
    generalize htokens : first :: front ++ token :: back = tokens at h
    cases h with
    | done => simp at htokens
    | @cons n _ _ _ following _ hlexeme hrest =>
      obtain ⟨rfl, rfl⟩ := List.cons.inj htokens
      have hf : following ≠ [] := by
        rintro rfl
        have hend : front ++ token :: back = [.endAt _] := hrest.unique .done
        have hmem : token ∈ front ++ token :: back := by simp
        rw [hend] at hmem
        obtain rfl := List.mem_singleton.mp hmem
        exact hk rfl
      exact List.forall_mem_cons.mpr ⟨hlexeme.usable hf _, ih hrest⟩

theorem Wanted.suits (h : Wanted kind token tokens) (hu : ∀ token ∈ tokens, token.Usable) :
    kind.Suits token.literal := by
  obtain ⟨-, rfl⟩ := h
  exact hu token (by simp)

theorem TagNames.isName {names : List String} (h : TagNames tokens names)
    (hu : ∀ token ∈ tokens, token.Usable) : ∀ name ∈ names, IsName name := by
  induction h with
  | nil => simp
  | cons hname _ ih =>
    obtain ⟨hf, hb⟩ := List.forall_mem_append.mp hu
    exact List.forall_mem_cons.mpr ⟨hname.suits hf, ih hb⟩

theorem Tags.isName {names : List String} (h : Tags tokens names)
    (hu : ∀ token ∈ tokens, token.Usable) : ∀ name ∈ names, IsName name := by
  cases h with
  | none => simp
  | listed _ hnames _ => exact hnames.isName (List.forall_mem_append.mp hu).2

def Entry.WellFormed : Entry → Prop
  | metadata key value => IsName key ∧ IsQuotable value
  | pattern name text => IsPatternName name ∧ IsQuotable text

theorem Body.wellFormed {options : ParseOptions} {part : BodySection} {entries : List Entry}
    (h : Body options part tokens entries) (hu : ∀ token ∈ tokens, token.Usable) :
    ∀ entry ∈ entries, entry.WellFormed := by
  induction h with
  | unknownEnd | metadataEnd | stringsEnd | skipped => simp
  | unknownHeader _ _ _ _ _ ih | metadataHeader _ _ _ _ ih | stringsHeader _ _ _ _ ih =>
    exact ih (List.forall_mem_append.mp hu).2
  | metadataEntry hkey _ hvalue _ ih =>
    simp only [List.forall_mem_append] at hu
    obtain ⟨⟨⟨hkeys, -⟩, hvalues⟩, hrest⟩ := hu
    exact List.forall_mem_cons.mpr ⟨⟨hkey.suits hkeys, hvalue.suits hvalues⟩, ih hrest⟩
  | stringsEntry hname _ hvalue _ ih =>
    simp only [List.forall_mem_append] at hu
    obtain ⟨⟨⟨hnames, -⟩, hvalues⟩, hrest⟩ := hu
    exact List.forall_mem_cons.mpr
      ⟨⟨hname.suits hnames, hvalue.suits hvalues⟩, ih hrest⟩
  | conditions _ _ ih => exact ih hu

namespace Rule

variable {rule : Rule}

theorem WellFormed.addEntry (h : rule.WellFormed) {entry : Entry} (he : entry.WellFormed) :
    (rule.addEntry entry).WellFormed := by
  cases entry with
  | metadata key value =>
    refine { h with metadata := fun entry hm => ?_
                    metadata_ascending := h.metadata_ascending.insert key value }
    rcases Table.mem_enter hm with rfl | hm
    · exact he
    · exact h.metadata entry hm
  | pattern name text =>
    refine { h with patterns := fun entry hm => ?_
                    patterns_ascending := h.patterns_ascending.insert name ⟨.string, text, []⟩ }
    rcases Table.mem_enter hm with rfl | hm
    · exact ⟨he.1, rfl, rfl, he.2⟩
    · exact h.patterns entry hm

theorem WellFormed.addEntries (h : rule.WellFormed) {entries : List Entry}
    (he : ∀ entry ∈ entries, entry.WellFormed) : (rule.addEntries entries).WellFormed := by
  induction entries generalizing rule with
  | nil => exact h
  | cons entry entries ih =>
    obtain ⟨hentry, he⟩ := List.forall_mem_cons.mp he
    exact ih (h.addEntry hentry) he

theorem wellFormed_of_name {name : String} {tags : List String} (hn : IsName name)
    (ht : ∀ tag ∈ tags, IsName tag) : (⟨name, tags, .empty, .empty⟩ : Rule).WellFormed where
  name := hn
  tags := ht
  metadata := by simp [Table.empty]
  patterns := by simp [Table.empty]
  metadata_ascending := Table.ascending_empty
  patterns_ascending := Table.ascending_empty

theorem DerivesFrom.wellFormed {options : ParseOptions} (h : rule.DerivesFrom options tokens)
    (hu : ∀ token ∈ tokens, token.Usable) : rule.WellFormed := by
  obtain ⟨-, hname, htags, -, -, hbody⟩ := h
  simp only [List.forall_mem_append] at hu
  obtain ⟨⟨⟨⟨⟨-, hnames⟩, htagTokens⟩, -⟩, -⟩, hrest⟩ := hu
  have hrule := wellFormed_of_name (hname.suits hnames) (htags.isName htagTokens)
  exact hrule.addEntries (hbody.wellFormed hrest)

end Rule

theorem parse_wellFormed {source : String} {options : ParseOptions} {rule : Rule}
    (h : parse source options = .ok rule) : rule.WellFormed := by
  obtain ⟨last, hc⟩ := consume_tokenize source options
  rw [h] at hc
  obtain ⟨front, back, htokens, hrule⟩ := ParserState.derivesFrom_of_accepts ⟨last, hc⟩
  obtain ⟨rest, closing, rfl, -, -, -, -, -, -, -, -, hk⟩ := hrule.exists_matching back
  have hl := lexed_tokenize source
  rw [htokens, List.append_assoc, List.singleton_append] at hl
  have hrest := hl.usable (show closing.kind ≠ .endOfInput by simp [hk])
  have hclosing : closing.Usable := by
    apply TokenKind.suits_of_ne
    all_goals simp [hk]
  exact hrule.wellFormed (List.forall_mem_append.mpr
    ⟨hrest, List.forall_mem_singleton.mpr hclosing⟩)

theorem parse_wellFormed_escaped :
    parse "rule a:b\x7bmeta:k=\"\\\"\"strings:$n=\"\"\x7d" ⟨true⟩ =
        .ok ⟨"a", ["b"], ⟨[("k", "\\\"")]⟩, ⟨[("$n", ⟨.string, "", []⟩)]⟩⟩ ∧
      (⟨"a", ["b"], ⟨[("k", "\\\"")]⟩, ⟨[("$n", ⟨.string, "", []⟩)]⟩⟩ : Rule).WellFormed := by
  have h : parse "rule a:b\x7bmeta:k=\"\\\"\"strings:$n=\"\"\x7d" ⟨true⟩ =
      .ok ⟨"a", ["b"], ⟨[("k", "\\\"")]⟩, ⟨[("$n", ⟨.string, "", []⟩)]⟩⟩ := by
    decide +kernel
  exact ⟨h, parse_wellFormed h⟩

end SignatureRules

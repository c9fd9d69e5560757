import SignatureRules.Proofs.WellFormedRules

/-! A rule that is written out is parsed as the rule that it was written from. The parts of its body
may come in any order and as often as they like, for their entries go to the same two tables. -/

namespace SignatureRules

abbrev Name := { text : String // IsName text }

abbrev PatternName := { text : String // IsPatternName text }

abbrev Quotable := { text : String // IsQuotable text }

abbrev UnknownHeader := { text : String // IsName text ∧ BodySection.unknown.Named text }

/-- A part of a rule to be written. Nothing can be written under an unknown header. -/
inductive Part
  | metadata (entries : List (Name × Quotable))
  | strings (entries : List (PatternName × Quotable))
  | unknown (header : UnknownHeader)

namespace Part

def kind : Part → BodySection
  | metadata _ => .metadata
  | strings _ => .strings
  | unknown _ => .unknown

def header : Part → String
  | metadata _ => "meta"
  | strings _ => "strings"
  | unknown header => header

def metadataEntries : Part → List (Name × Quotable)
  | metadata entries => entries
  | _ => []

def patternEntries : Part → List (PatternName × Quotable)
  | strings entries => entries
  | _ => []

def entries : Part → List Entry
  | metadata entries => entries.map fun entry => .metadata entry.1 entry.2
  | strings entries => entries.map fun entry => .pattern entry.1 entry.2
  | unknown _ => []

end Part

structure Draft where
  name : Name
  tags : List Name
  parts : List Part

def Entry.words : Entry → List String
  | metadata name text | pattern name text => [name, "=", "\"" ++ text ++ "\""]

def Part.words (part : Part) : List String :=
  (part.header ++ ":") :: part.entries.flatMap Entry.words

namespace Draft

def tagWords : List Name → List String
  | [] => []
  | tags => ":" :: tags.map Subtype.val

def words (draft : Draft) : List String :=
  draft.name :: (tagWords draft.tags ++ ("\x7b" :: (draft.parts.flatMap Part.words ++ ["\x7d"])))

def text (draft : Draft) : String := " ".intercalate ("rule" :: draft.words)

example (hr : IsName "r") (ht : IsName "t") (hk : IsName "k") (hn : IsPatternName "$n")
    (hv : IsQuotable "v") (hu : IsName "foo" ∧ BodySection.unknown.Named "foo") :
    (⟨⟨"r", hr⟩, [⟨"t", ht⟩], [.metadata [(⟨"k", hk⟩, ⟨"v", hv⟩)], .unknown ⟨"foo", hu⟩,
      .strings [(⟨"$n", hn⟩, ⟨"v", hv⟩)]]⟩ : Draft).text =
      "rule r : t \x7b meta: k = \"v\" foo: strings: $n = \"v\" \x7d" := by
  cbv

def metadataEntries (draft : Draft) : List (Name × Quotable) :=
  draft.parts.flatMap Part.metadataEntries

def patternEntries (draft : Draft) : List (PatternName × Quotable) :=
  draft.parts.flatMap Part.patternEntries

def merged (draft : Draft) : Draft :=
  { draft with parts := [.metadata draft.metadataEntries, .strings draft.patternEntries] }

def metadata (draft : Draft) : List (String × String) :=
  draft.metadataEntries.map fun entry => (entry.1, entry.2)

def patterns (draft : Draft) : List (String × Pattern) :=
  draft.patternEntries.map fun entry => (entry.1, ⟨.string, entry.2, []⟩)

def rule (draft : Draft) : Rule :=
  ⟨draft.name, draft.tags.map Subtype.val, .ofEntries draft.metadata, .ofEntries draft.patterns⟩

end Draft

/-- `Begins text wanted`: wherever the text stands, its first tokens are as wanted. -/
def Begins (text : List Char) (wanted : List Token → Prop) : Prop :=
  ∀ n, ∃ front back, wanted front ∧ Lexed ⟨n, text⟩ (front ++ back)

def After (kind : TokenKind) (literal : String) (wanted : List Token → Prop)
    (tokens : List Token) : Prop :=
  ∃ token front back, tokens = front ++ back ∧ token.literal = literal ∧
    Wanted kind token front ∧ wanted back

variable {kind : TokenKind} {literal : String} {wanted other : List Token → Prop}

namespace Begins

variable {lexeme text : List Char}

theorem mono (h : Begins text wanted) (hw : ∀ tokens, wanted tokens → other tokens) :
    Begins text other := by
  intro n
  obtain ⟨front, back, hfront, hl⟩ := h n
  exact ⟨front, back, hw front hfront, hl⟩

theorem nothing (text : List Char) : Begins text (· = []) := by
  intro n
  obtain ⟨tokens, hl⟩ := exists_lexed ⟨n, text⟩
  exact ⟨[], tokens, rfl, hl⟩

theorem attached (h : Begins text wanted) (hl : IsLexeme kind literal.toList lexeme text) :
    Begins (lexeme ++ text) (After kind literal wanted) := by
  intro n
  obtain ⟨front, back, hfront, hrest⟩ := h (n + byteSize lexeme)
  exact ⟨_ :: front, back,
    ⟨_, [_], front, rfl, String.ofList_toList, .mk .none rfl, hfront⟩, .cons hl hrest⟩

theorem spaced (h : Begins text wanted) (hl : IsLexeme kind literal.toList lexeme text)
    (hk : kind ≠ .whitespace) : Begins (' ' :: (lexeme ++ text)) (After kind literal wanted) := by
  have hblank : IsLexeme .whitespace [' '] [' '] (lexeme ++ text) :=
    .whitespace (List.cons_ne_nil _ _) (by simp [isBlank]) (hl.stops_isBlank hk)
  intro n
  obtain ⟨front, back, hfront, hrest⟩ := h (n + byteSize [' '] + byteSize lexeme)
  exact ⟨_ :: _ :: front, back,
    ⟨_, [_, _], front, rfl, String.ofList_toList, .mk (.whitespace rfl) rfl, hfront⟩,
    .cons hblank (.cons hl hrest)⟩

end Begins

def spacedWords (words : List String) : List Char := words.flatMap fun word => ' ' :: word.toList

theorem spacedWords_cons (word : String) (words : List String) :
    spacedWords (word :: words) = ' ' :: (word.toList ++ spacedWords words) := rfl

theorem toList_intercalate_space (word : String) (words : List String) :
    (" ".intercalate (word :: words)).toList = word.toList ++ spacedWords words := by
  induction words generalizing word with
  | nil => simp [spacedWords]
  | cons next words ih =>
    rw [String.intercalate_cons_cons, String.toList_append, String.toList_append, ih,
      List.append_assoc]
    rfl

theorem stops_spacedWords {p : Char → Bool} (hp : p ' ' = false) (words : List String) :
    Stops p (spacedWords words) := by
  cases words with
  | nil => exact stops_nil p
  | cons word words => exact stops_cons.mpr hp

namespace Begins

variable {words : List String}

theorem name (h : Begins (spacedWords words) wanted) (name : Name) :
    Begins (spacedWords (name :: words)) (After .identifier name wanted) :=
  h.spaced (.identifier name.2.1 (stops_spacedWords rfl words) name.2.2) (by decide)

theorem patternName (h : Begins (spacedWords words) wanted) (name : PatternName) :
    Begins (spacedWords (name :: words)) (After .variableName name wanted) := by
  obtain ⟨name, run, hname, hrun⟩ := name
  have hl : IsLexeme .variableName name.toList name.toList (spacedWords words) := by
    rw [hname]
    exact .variableName hrun (stops_spacedWords rfl words)
  exact h.spaced hl (by decide)

theorem mark (h : Begins (spacedWords words) wanted) (kind : TokenKind) (word : String) {c : Char}
    (hw : word.toList = [c]) (hc : kind.mark? = some c) :
    Begins (spacedWords (word :: words)) (After kind word wanted) := by
  have hl : IsLexeme kind word.toList word.toList (spacedWords words) := by
    rw [hw]
    exact .punctuation hc
  exact h.spaced hl (by rintro rfl; cases hc)

theorem quoted (h : Begins (spacedWords words) wanted) (text : Quotable) :
    Begins (spacedWords (("\"" ++ text ++ "\"") :: words)) (After .quotedString text wanted) := by
  have hl : IsLexeme .quotedString text.1.toList ("\"" ++ text ++ "\"").toList
      (spacedWords words) := by
    rw [String.toList_append, String.toList_append]
    exact .quotedString text.2.escaped text.2.not_escaping
  exact h.spaced hl (by decide)

theorem header (h : Begins (spacedWords words) wanted) (name : Name) :
    Begins (spacedWords ((name ++ ":") :: words))
      (After .identifier name (After .colon ":" wanted)) := by
  have hcolon : Begins (":".toList ++ spacedWords words) (After .colon ":" wanted) :=
    h.attached (.punctuation rfl)
  have hname : IsLexeme .identifier name.1.toList name.1.toList
      (":".toList ++ spacedWords words) :=
    .identifier name.2.1 (stops_cons.mpr rfl) name.2.2
  rw [spacedWords_cons, String.toList_append, List.append_assoc]
  exact hcolon.spaced hname (by decide)

end Begins

def Entry.part : Entry → BodySection
  | metadata _ _ => .metadata
  | pattern _ _ => .strings

namespace Part

theorem isName_header (part : Part) : IsName part.header := by
  cases part with
  | metadata | strings =>
    refine ⟨by simp [header, IsWord, isWordChar], fun kind => ?_⟩
    cases kind <;> simp [header, TokenKind.reservedWord?]
  | unknown header => exact header.2.1

theorem named_header (part : Part) : part.kind.Named part.header := by
  cases part with
  | metadata | strings => rfl
  | unknown header => exact header.2.2

theorem kind_ne_conditions (part : Part) : part.kind ≠ .conditions := by
  cases part <;> exact nofun

theorem wellFormed_of_mem_entries {part : Part} {entry : Entry} (h : entry ∈ part.entries) :
    entry.WellFormed ∧ entry.part = part.kind := by
  cases part with
  | metadata entries | strings entries =>
    obtain ⟨⟨name, text⟩, -, rfl⟩ := List.mem_map.mp h
    exact ⟨⟨name.2, text.2⟩, rfl⟩
  | unknown => cases h

end Part

namespace Begins

variable {options : ParseOptions} {place : BodySection} {words : List String} {rest : List Entry}

theorem close (hp : place ≠ .conditions) :
    Begins (spacedWords ["\x7d"]) (Body options place · []) := by
  have h : Begins (spacedWords ["\x7d"]) (After .closeBrace "\x7d" (· = [])) :=
    (nothing (spacedWords [])).mark .closeBrace "\x7d" rfl rfl
  refine h.mono fun tokens ht => ?_
  obtain ⟨close, front, _, rfl, -, hclose, rfl⟩ := ht
  rw [List.append_nil]
  cases place with
  | metadata => exact .metadataEnd hclose
  | strings => exact .stringsEnd hclose
  | unknown => exact .unknownEnd hclose
  | conditions => exact absurd rfl hp

theorem entry {entry : Entry} (he : entry.WellFormed)
    (h : Begins (spacedWords words) (Body options entry.part · rest)) :
    Begins (spacedWords (entry.words ++ words)) (Body options entry.part · (entry :: rest)) := by
  cases entry with
  | metadata key value =>
    have hall := ((h.quoted ⟨value, he.2⟩).mark .equal "=" rfl rfl).name ⟨key, he.1⟩
    refine hall.mono fun tokens ht => ?_
    obtain ⟨_, keys, _, rfl, rfl, hkey, _, equals, _, rfl, -, hequal, _, values, _, rfl, rfl, hvalue,
      hrest⟩ := ht
    rw [← List.append_assoc, ← List.append_assoc]
    exact .metadataEntry hkey hequal hvalue hrest
  | pattern name text =>
    have hall := ((h.quoted ⟨text, he.2⟩).mark .equal "=" rfl rfl).patternName ⟨name, he.1⟩
    refine hall.mono fun tokens ht => ?_
    obtain ⟨_, names, _, rfl, rfl, hname, _, equals, _, rfl, -, hequal, _, values, _, rfl, rfl,
      hvalue, hrest⟩ := ht
    rw [← List.append_assoc, ← List.append_assoc]
    exact .stringsEntry hname hequal hvalue hrest

theorem entries {front : List Entry} (hf : ∀ entry ∈ front, entry.WellFormed ∧ entry.part = place)
    (h : Begins (spacedWords words) (Body options place · rest)) :
    Begins (spacedWords (front.flatMap Entry.words ++ words))
      (Body options place · (front ++ rest)) := by
  induction front with
  | nil => exact h
  | cons entry front ih =>
    obtain ⟨⟨he, rfl⟩, hf⟩ := List.forall_mem_cons.mp hf
    rw [List.flatMap_cons, List.append_assoc]
    exact (ih hf).entry he

theorem part (next : Part) (hp : place ≠ .conditions)
    (h : Begins (spacedWords words) (Body options next.kind · rest)) :
    Begins (spacedWords (next.words ++ words)) (Body options place · (next.entries ++ rest)) := by
  have hentries := h.entries fun _ => Part.wellFormed_of_mem_entries
  refine (hentries.header ⟨next.header, next.isName_header⟩).mono fun tokens ht => ?_
  obtain ⟨name, names, _, rfl, hliteral, hname, _, colons, _, rfl, -, hcolon, hrest⟩ := ht
  have hn : next.kind.Named name.literal := by
    rw [hliteral]
    exact next.named_header
  rw [← List.append_assoc]
  cases place with
  | metadata => exact .metadataHeader hname hcolon hn hrest
  | strings => exact .stringsHeader hname hcolon hn hrest
  | unknown => exact .unknownHeader .none hname hcolon hn hrest
  | conditions => exact absurd rfl hp

theorem parts (parts : List Part) (hp : place ≠ .conditions) :
    Begins (spacedWords (parts.flatMap Part.words ++ ["\x7d"]))
      (Body options place · (parts.flatMap Part.entries)) := by
  induction parts generalizing place with
  | nil => exact .close hp
  | cons next parts ih =>
    rw [List.flatMap_cons, List.append_assoc]
    -- the header is read in the part in front, the rest of the body in its own
    exact (ih next.kind_ne_conditions).part next hp

theorem tagNames (tags : List Name) (h : Begins (spacedWords words) wanted) :
    Begins (spacedWords (tags.map Subtype.val ++ words)) fun tokens =>
      ∃ front back, tokens = front ++ back ∧ TagNames front (tags.map Subtype.val) ∧
        wanted back := by
  induction tags with
  | nil => exact h.mono fun tokens ht => ⟨[], tokens, rfl, .nil, ht⟩
  | cons tag tags ih =>
    refine (ih.name tag).mono fun tokens ht => ?_
    obtain ⟨_, first, _, rfl, hliteral, hfirst, front, back, rfl, hfront, hback⟩ := ht
    refine ⟨first ++ front, back, (List.append_assoc ..).symm, ?_, hback⟩
    rw [List.map_cons, ← hliteral]
    exact .cons hfirst hfront

theorem tags (tags : List Name) (h : Begins (spacedWords words) wanted) :
    Begins (spacedWords (Draft.tagWords tags ++ words)) fun tokens =>
      ∃ front back, tokens = front ++ back ∧ Tags front (tags.map Subtype.val) ∧ wanted back := by
  cases tags with
  | nil => exact h.mono fun tokens ht => ⟨[], tokens, rfl, .none, ht⟩
  | cons tag tags =>
    refine ((h.tagNames (tag :: tags)).mark .colon ":" rfl rfl).mono fun tokens ht => ?_
    obtain ⟨_, colons, _, rfl, -, hcolon, front, back, rfl, hfront, hback⟩ := ht
    exact ⟨colons ++ front, back, (List.append_assoc ..).symm,
      .listed hcolon hfront (List.cons_ne_nil _ _), hback⟩

end Begins

namespace Entry

def metadata? : Entry → Option (String × String)
  | metadata key value => some (key, value)
  | pattern _ _ => none

def pattern? : Entry → Option (String × Pattern)
  | metadata _ _ => none
  | pattern name text => some (name, ⟨.string, text, []⟩)

end Entry

theorem Rule.addEntries_eq (rule : Rule) (entries : List Entry) :
    rule.addEntries entries =
      { rule with
        metadata := (entries.filterMap Entry.metadata?).foldl
          (fun table entry => table.insert entry.1 entry.2) rule.metadata
        patterns := (entries.filterMap Entry.pattern?).foldl
          (fun table entry => table.insert entry.1 entry.2) rule.patterns } := by
  induction entries generalizing rule with
  | nil => rfl
  | cons entry entries ih =>
    cases entry with
    | metadata key value => exact ih (rule.addEntry (.metadata key value))
    | pattern name text => exact ih (rule.addEntry (.pattern name text))

namespace Draft

theorem filterMap_metadata? (draft : Draft) :
    (draft.parts.flatMap Part.entries).filterMap Entry.metadata? = draft.metadata := by
  rw [metadata, metadataEntries, List.filterMap_flatMap, List.map_flatMap]
  congr 1
  funext part
  cases part with
  | metadata entries =>
    rw [Part.entries, List.filterMap_map]
    exact congrFun List.filterMap_eq_map entries
  | strings entries => simp [Part.entries, Part.metadataEntries, Entry.metadata?]
  | unknown => rfl

theorem filterMap_pattern? (draft : Draft) :
    (draft.parts.flatMap Part.entries).filterMap Entry.pattern? = draft.patterns := by
  rw [patterns, patternEntries, List.filterMap_flatMap, List.map_flatMap]
  congr 1
  funext part
  cases part with
  | metadata entries => simp [Part.entries, Part.patternEntries, Entry.pattern?]
  | strings entries =>
    rw [Part.entries, List.filterMap_map]
    exact congrFun List.filterMap_eq_map entries
  | unknown => rfl

theorem rule_eq (draft : Draft) :
    draft.rule = (⟨draft.name, draft.tags.map Subtype.val, .empty, .empty⟩ : Rule).addEntries
      (draft.parts.flatMap Part.entries) := by
  rw [Rule.addEntries_eq, filterMap_metadata?, filterMap_pattern?]
  rfl

theorem begins_words (draft : Draft) (options : ParseOptions) :
    Begins ("rule".toList ++ spacedWords draft.words) (draft.rule.DerivesFrom options) := by
  have hparts : Begins _ (Body options .unknown · _) := .parts draft.parts (by decide)
  have hname := ((hparts.mark .openBrace "\x7b" rfl rfl).tags draft.tags).name draft.name
  have hrule : IsWord "rule".toList := by simp [IsWord, isWordChar]
  have hword : IsLexeme .ruleWord "rule".toList "rule".toList (spacedWords draft.words) :=
    .keyword hrule (stops_spacedWords rfl draft.words) rfl
  refine (hname.attached hword).mono fun tokens ht => ?_
  obtain ⟨_, words, _, rfl, -, hword, name, names, _, rfl, hliteral, hname, tags, _, rfl, htags,
    _, braces, body, rfl, -, hbrace, hbody⟩ := ht
  have h := Rule.DerivesFrom.mk hword hname htags .none hbrace hbody
  rw [hliteral, ← rule_eq] at h
  simpa only [List.append_assoc, List.append_nil] using h

theorem parse_text_eq (draft : Draft) (options : ParseOptions) :
    parse draft.text options = .ok draft.rule := by
  obtain ⟨front, back, hfront, hl⟩ := draft.begins_words options 0
  rw [← toList_intercalate_space] at hl
  exact parse_of_derivesFrom ⟨back, (tokenize_eq_of_lexed hl).symm⟩ hfront

theorem rule_merged (draft : Draft) : draft.merged.rule = draft.rule := by
  simp [rule, merged, metadata, patterns, metadataEntries, patternEntries, Part.metadataEntries,
    Part.patternEntries]

end Draft

theorem parse_text (draft : Draft) (options : ParseOptions) :
    ∃ rule, parse draft.text options = .ok rule ∧ rule.name = draft.name ∧
      rule.tags = draft.tags.map Subtype.val ∧
      (∀ key, rule.metadata.get? key = lastValue? key draft.metadata) ∧
      (∀ name, rule.patterns.get? name = lastValue? name draft.patterns) ∧
      rule.metadata.Ascending ∧ rule.patterns.Ascending ∧
      parse draft.merged.text options = .ok rule := by
  have hmerged := draft.merged.parse_text_eq options
  rw [draft.rule_merged] at hmerged
  exact ⟨draft.rule, draft.parse_text_eq options, rfl, rfl,
    fun key => Table.get?_ofEntries key draft.metadata,
    fun name => Table.get?_ofEntries name draft.patterns,
    Table.ascending_ofEntries draft.metadata, Table.ascending_ofEntries draft.patterns, hmerged⟩

end SignatureRules

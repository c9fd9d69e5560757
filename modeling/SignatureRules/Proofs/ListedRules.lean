import SignatureRules.Rule.Listing
import SignatureRules.Proofs.WrittenRules

/-! Listings can be read back. What a rule holds is listed as it is, with all quotes and newlines,
and still no two lists of parsed rules have the same listings: a name ends where no word goes on,
and a text at the first quote that is not escaped. -/

namespace SignatureRules

variable {name other : String} {x y : List Char}

theorem IsName.append_inj (h : IsName name) (h' : IsName other) (hx : Stops isWordChar x)
    (hy : Stops isWordChar y) (he : name.toList ++ x = other.toList ++ y) :
    name = other ∧ x = y := by
  have hname := Lexeme.word_eq_iff.mpr ⟨rfl, h.1, hx⟩
  have hother := Lexeme.word_eq_iff.mpr ⟨rfl, h'.1, hy⟩
  rw [he, hother] at hname
  obtain ⟨hsame, rfl⟩ := Scanned.mk.inj (Except.ok.inj hname)
  exact ⟨(String.toList_inj.mp hsame).symm, rfl⟩

theorem IsPatternName.append_inj (h : IsPatternName name) (h' : IsPatternName other)
    (hx : Stops Char.isAlphanum x) (hy : Stops Char.isAlphanum y)
    (he : name.toList ++ x = other.toList ++ y) : name = other ∧ x = y := by
  have hname := Lexeme.variableName_eq_iff.mpr ⟨rfl, h, hx⟩
  have hother := Lexeme.variableName_eq_iff.mpr ⟨rfl, h', hy⟩
  rw [he, hother] at hname
  obtain ⟨hsame, rfl⟩ := Scanned.mk.inj (Except.ok.inj hname)
  exact ⟨(String.toList_inj.mp hsame).symm, rfl⟩

theorem IsQuotable.quotedBody_eq (h : IsQuotable name) (x : List Char) :
    Lexeme.quotedBody none (name.toList ++ '"' :: x) = ⟨name.toList, x⟩ := by
  refine Lexeme.quotedBody_eq_iff.mpr ⟨h.escaped, .inl ⟨rfl, ?_⟩⟩
  rw [Option.or_none]
  exact h.not_escaping

theorem IsQuotable.append_inj (h : IsQuotable name) (h' : IsQuotable other)
    (he : name.toList ++ '"' :: x = other.toList ++ '"' :: y) : name = other ∧ x = y := by
  have hname := h.quotedBody_eq x
  rw [he, h'.quotedBody_eq y] at hname
  obtain ⟨hsame, rfl⟩ := Scanned.mk.inj hname
  exact ⟨(String.toList_inj.mp hsame).symm, rfl⟩

theorem spacedWords_append_inj {words others : List String} (h : ∀ word ∈ words, IsName word)
    (h' : ∀ word ∈ others, IsName word)
    (he : spacedWords words ++ '\n' :: x = spacedWords others ++ '\n' :: y) :
    words = others ∧ x = y := by
  have hstop (words : List String) (x : List Char) :
      Stops isWordChar (spacedWords words ++ '\n' :: x) := by
    cases words with
    | nil => exact stops_cons.mpr rfl
    | cons word words => exact stops_cons.mpr rfl
  induction words generalizing others with
  | nil =>
    cases others with
    | nil => exact ⟨rfl, (List.cons.inj he).2⟩
    | cons other others =>
      obtain ⟨hc, -⟩ := List.cons.inj he
      cases hc
  | cons word words ih =>
    cases others with
    | nil =>
      obtain ⟨hc, -⟩ := List.cons.inj he
      cases hc
    | cons other others =>
      obtain ⟨hword, hwords⟩ := List.forall_mem_cons.mp h
      obtain ⟨hother, hothers⟩ := List.forall_mem_cons.mp h'
      simp only [spacedWords_cons, List.cons_append, List.append_assoc, List.cons.injEq,
        true_and] at he
      obtain ⟨rfl, hrest⟩ := hword.append_inj hother (hstop _ _) (hstop _ _) he
      obtain ⟨rfl, hxy⟩ := ih hwords hothers hrest
      exact ⟨rfl, hxy⟩

def tagText : List String → List Char
  | [] => []
  | tag :: tags => ' ' :: ':' :: spacedWords (tag :: tags)

theorem stops_tagText (tags : List String) (x : List Char) :
    Stops isWordChar (tagText tags ++ '\n' :: x) := by
  cases tags with
  | nil => exact stops_cons.mpr rfl
  | cons tag tags => exact stops_cons.mpr rfl

theorem tagText_append_inj {tags others : List String} (h : ∀ tag ∈ tags, IsName tag)
    (h' : ∀ tag ∈ others, IsName tag)
    (he : tagText tags ++ '\n' :: x = tagText others ++ '\n' :: y) : tags = others ∧ x = y := by
  cases tags with
  | nil =>
    cases others with
    | nil => exact ⟨rfl, (List.cons.inj he).2⟩
    | cons other others =>
      obtain ⟨hc, -⟩ := List.cons.inj he
      cases hc
  | cons tag tags =>
    cases others with
    | nil =>
      obtain ⟨hc, -⟩ := List.cons.inj he
      cases hc
    | cons other others =>
      obtain ⟨-, hwords⟩ := List.cons.inj (List.cons.inj he).2
      exact spacedWords_append_inj h h' hwords

def assignment (text : String) : List Char := " = \"".toList ++ (text.toList ++ "\"\n".toList)

theorem stops_assignment {p : Char → Bool} (hp : p ' ' = false) (text : String) (x : List Char) :
    Stops p (assignment text ++ x) := stops_cons.mpr hp

theorem assignment_append_inj {text other : String} (h : IsQuotable text) (h' : IsQuotable other)
    (he : assignment text ++ x = assignment other ++ y) : text = other ∧ x = y := by
  simp only [assignment, List.append_assoc, List.append_cancel_left_eq] at he
  obtain ⟨rfl, hend⟩ := h.append_inj h' he
  exact ⟨rfl, (List.cons.inj hend).2⟩

theorem Pattern.Plain.eq_of_text_eq {pattern other : Pattern} (h : pattern.Plain)
    (h' : other.Plain) (he : pattern.text = other.text) : pattern = other := by
  obtain ⟨kind, text, modifiers⟩ := pattern
  obtain ⟨rfl, rfl, -⟩ := h
  obtain ⟨kind', text', modifiers'⟩ := other
  obtain ⟨rfl, rfl, -⟩ := h'
  obtain rfl : text = text' := he
  rfl

inductive Line
  | heading (name : String) (tags : List String)
  | metadata (entry : String × String)
  | pattern (entry : String × Pattern)

namespace Line

def text : Line → String
  | heading name tags => Rule.headingLine ⟨name, tags, .empty, .empty⟩
  | metadata entry => Rule.metadataLine entry
  | pattern entry => Rule.patternLine entry

inductive WellFormed : Line → Prop
  | heading {name tags} : IsName name → (∀ tag ∈ tags, IsName tag) → WellFormed (heading name tags)
  | metadata {entry} : IsName entry.1 → IsQuotable entry.2 → WellFormed (metadata entry)
  | pattern {entry} : IsPatternName entry.1 → entry.2.Plain → WellFormed (pattern entry)

variable {line other : Line}

theorem toList_heading (name : String) (tags : List String) :
    (heading name tags).text.toList =
      "rule ".toList ++ (name.toList ++ (tagText tags ++ "\n".toList)) := by
  rw [text, Rule.headingLine]
  simp only [String.toList_append, List.append_assoc]
  cases tags with
  | nil => rfl
  | cons tag tags =>
    have hjoin : (String.join ((tag :: tags).map (" " ++ ·))).toList =
        spacedWords (tag :: tags) := by
      rw [String.toList_join, List.flatMap_map]
      congr 1
      funext word
      exact String.toList_append
    rw [if_neg (by simp), String.toList_append, hjoin]
    rfl

theorem toList_metadata (entry : String × String) :
    (metadata entry).text.toList =
      "    meta ".toList ++ (entry.1.toList ++ assignment entry.2) := by
  simp only [text, Rule.metadataLine, assignment, String.toList_append, List.append_assoc]

theorem toList_pattern {entry : String × Pattern} (h : entry.2.Plain) :
    (pattern entry).text.toList =
      "    string ".toList ++ (entry.1.toList ++ assignment entry.2.text) := by
  have hlisting : entry.2.listing = "\"" ++ entry.2.text ++ "\"" := by
    rw [Pattern.listing, h.kind]
  have hmodifiers : String.join (entry.2.modifiers.map (" " ++ ·)) = "" := by
    rw [h.modifiers]
    rfl
  change ("    string " ++ entry.1 ++ " = " ++ entry.2.listing ++
    String.join (entry.2.modifiers.map (" " ++ ·)) ++ "\n").toList = _
  rw [hlisting, hmodifiers]
  simp only [assignment, String.append_empty, String.toList_append, List.append_assoc]
  rfl

theorem heading_append_inj {name other : String} {tags others : List String}
    (h : (heading name tags).WellFormed) (h' : (heading other others).WellFormed)
    (he : (heading name tags).text.toList ++ x = (heading other others).text.toList ++ y) :
    heading name tags = heading other others ∧ x = y := by
  obtain ⟨hname, htags⟩ := h
  obtain ⟨hother, hothers⟩ := h'
  simp only [toList_heading, List.append_assoc, List.append_cancel_left_eq] at he
  obtain ⟨rfl, hrest⟩ :=
    hname.append_inj hother (stops_tagText tags x) (stops_tagText others y) he
  obtain ⟨rfl, hxy⟩ := tagText_append_inj htags hothers hrest
  exact ⟨rfl, hxy⟩

theorem metadata_append_inj {entry other : String × String} (h : (metadata entry).WellFormed)
    (h' : (metadata other).WellFormed)
    (he : (metadata entry).text.toList ++ x = (metadata other).text.toList ++ y) :
    metadata entry = metadata other ∧ x = y := by
  obtain _ | ⟨hkey, hvalue⟩ := h
  obtain _ | ⟨hkey', hvalue'⟩ := h'
  simp only [toList_metadata, List.append_assoc, List.append_cancel_left_eq] at he
  obtain ⟨hsame, hrest⟩ :=
    hkey.append_inj hkey' (stops_assignment rfl _ x) (stops_assignment rfl _ y) he
  obtain ⟨hsame', hxy⟩ := assignment_append_inj hvalue hvalue' hrest
  exact ⟨congrArg metadata (Prod.ext hsame hsame'), hxy⟩

theorem pattern_append_inj {entry other : String × Pattern} (h : (pattern entry).WellFormed)
    (h' : (pattern other).WellFormed)
    (he : (pattern entry).text.toList ++ x = (pattern other).text.toList ++ y) :
    pattern entry = pattern other ∧ x = y := by
  obtain _ | _ | ⟨hname, hplain⟩ := h
  obtain _ | _ | ⟨hname', hplain'⟩ := h'
  simp only [toList_pattern hplain, toList_pattern hplain', List.append_assoc,
    List.append_cancel_left_eq] at he
  obtain ⟨hsame, hrest⟩ :=
    hname.append_inj hname' (stops_assignment rfl _ x) (stops_assignment rfl _ y) he
  obtain ⟨hsame', hxy⟩ := assignment_append_inj hplain.text hplain'.text hrest
  exact ⟨congrArg pattern (Prod.ext hsame (hplain.eq_of_text_eq hplain' hsame')), hxy⟩

theorem text_append_inj (h : line.WellFormed) (h' : other.WellFormed)
    (he : line.text.toList ++ x = other.text.toList ++ y) : line = other ∧ x = y := by
  cases line with
  | heading name tags =>
    cases other with
    | heading name' tags' => exact heading_append_inj h h' he
    | metadata entry => simp [toList_heading, toList_metadata] at he
    | pattern entry =>
      obtain _ | _ | ⟨-, hplain⟩ := h'
      simp [toList_heading, toList_pattern hplain] at he
  | metadata entry =>
    cases other with
    | heading name tags => simp [toList_heading, toList_metadata] at he
    | metadata entry' => exact metadata_append_inj h h' he
    | pattern entry' =>
      obtain _ | _ | ⟨-, hplain⟩ := h'
      simp [toList_metadata, toList_pattern hplain] at he
  | pattern entry =>
    cases other with
    | pattern entry' => exact pattern_append_inj h h' he
    | heading name tags =>
      obtain _ | _ | ⟨-, hplain⟩ := h
      simp [toList_heading, toList_pattern hplain] at he
    | metadata entry' =>
      obtain _ | _ | ⟨-, hplain⟩ := h
      simp [toList_metadata, toList_pattern hplain] at he

theorem text_ne_nil (h : line.WellFormed) : line.text.toList ≠ [] := by
  cases h with
  | heading => simp [toList_heading]
  | metadata => simp [toList_metadata]
  | pattern _ hplain => simp [toList_pattern hplain]

theorem flatMap_text_inj {lines others : List Line} (h : ∀ line ∈ lines, line.WellFormed)
    (h' : ∀ line ∈ others, line.WellFormed)
    (he : lines.flatMap (·.text.toList) = others.flatMap (·.text.toList)) : lines = others := by
  induction lines generalizing others with
  | nil =>
    cases others with
    | nil => rfl
    | cons other others =>
      have hother := h' other (.head _)
      rw [List.flatMap_nil, List.flatMap_cons] at he
      exact absurd (List.append_eq_nil_iff.mp he.symm).1 (text_ne_nil hother)
  | cons line lines ih =>
    obtain ⟨hline, hlines⟩ := List.forall_mem_cons.mp h
    cases others with
    | nil =>
      rw [List.flatMap_nil, List.flatMap_cons] at he
      exact absurd (List.append_eq_nil_iff.mp he).1 (text_ne_nil hline)
    | cons other others =>
      obtain ⟨hother, hothers⟩ := List.forall_mem_cons.mp h'
      rw [List.flatMap_cons, List.flatMap_cons] at he
      obtain ⟨rfl, hrest⟩ := text_append_inj hline hother he
      rw [ih hlines hothers hrest]

/-- What lines are read back as: rules, and entries whose heading is still to come in front. -/
structure Collected where
  metadata : List (String × String)
  patterns : List (String × Pattern)
  rules : List Rule

def collect : Line → Collected → Collected
  | heading name tags, later =>
    ⟨[], [], ⟨name, tags, ⟨later.metadata⟩, ⟨later.patterns⟩⟩ :: later.rules⟩
  | metadata entry, later => { later with metadata := entry :: later.metadata }
  | pattern entry, later => { later with patterns := entry :: later.patterns }

theorem foldr_collect_metadata (entries : List (String × String)) (later : Collected) :
    (entries.map metadata).foldr collect later =
      { later with metadata := entries ++ later.metadata } := by
  induction entries with
  | nil => rfl
  | cons entry entries ih =>
    rw [List.map_cons, List.foldr_cons, ih]
    rfl

theorem foldr_collect_patterns (entries : List (String × Pattern)) (later : Collected) :
    (entries.map pattern).foldr collect later =
      { later with patterns := entries ++ later.patterns } := by
  induction entries with
  | nil => rfl
  | cons entry entries ih =>
    rw [List.map_cons, List.foldr_cons, ih]
    rfl

end Line

namespace Rule

variable {rule : Rule} {rules others : List Rule}

def lines (rule : Rule) : List Line :=
  .heading rule.name rule.tags ::
    (rule.metadata.entries.map .metadata ++ rule.patterns.entries.map .pattern)

theorem toList_listing (rule : Rule) :
    rule.listing.toList = rule.lines.flatMap (·.text.toList) := by
  rw [listing, lines, List.flatMap_cons, List.flatMap_append, List.flatMap_map, List.flatMap_map,
    String.toList_append, String.toList_append, String.toList_join, String.toList_join,
    List.flatMap_map, List.flatMap_map, List.append_assoc]
  rfl

theorem toList_join_listing (rules : List Rule) :
    (String.join (rules.map listing)).toList =
      (rules.flatMap lines).flatMap (·.text.toList) := by
  rw [String.toList_join, List.flatMap_map, List.flatMap_assoc]
  congr 1
  funext rule
  exact rule.toList_listing

theorem foldr_collect_lines (rules : List Rule) :
    (rules.flatMap lines).foldr Line.collect ⟨[], [], []⟩ = ⟨[], [], rules⟩ := by
  induction rules with
  | nil => rfl
  | cons rule rules ih =>
    rw [List.flatMap_cons, List.foldr_append, ih, lines, List.foldr_cons, List.foldr_append,
      Line.foldr_collect_patterns, Line.foldr_collect_metadata, List.append_nil, List.append_nil]
    rfl

theorem flatMap_lines_inj (he : rules.flatMap lines = others.flatMap lines) : rules = others := by
  have hcollected := foldr_collect_lines rules
  rw [he, foldr_collect_lines others] at hcollected
  exact (congrArg Line.Collected.rules hcollected).symm

theorem WellFormed.wellFormed_of_mem_lines (h : rule.WellFormed) :
    ∀ line ∈ rule.lines, line.WellFormed := by
  refine List.forall_mem_cons.mpr ⟨.heading h.name h.tags, List.forall_mem_append.mpr ⟨?_, ?_⟩⟩
  · refine List.forall_mem_map.mpr fun entry he => ?_
    obtain ⟨hkey, hvalue⟩ := h.metadata entry he
    exact .metadata hkey hvalue
  · refine List.forall_mem_map.mpr fun entry he => ?_
    obtain ⟨hname, hplain⟩ := h.patterns entry he
    exact .pattern hname hplain

theorem eq_of_join_listing (h : ∀ rule ∈ rules, rule.WellFormed)
    (h' : ∀ rule ∈ others, rule.WellFormed)
    (he : String.join (rules.map listing) = String.join (others.map listing)) : rules = others := by
  have hlines {rules : List Rule} (h : ∀ rule ∈ rules, rule.WellFormed) :
      ∀ line ∈ rules.flatMap lines, line.WellFormed := by
    intro line hm
    obtain ⟨rule, hrule, hline⟩ := List.mem_flatMap.mp hm
    exact (h rule hrule).wellFormed_of_mem_lines line hline
  have htext := congrArg String.toList he
  rw [toList_join_listing, toList_join_listing] at htext
  exact flatMap_lines_inj (Line.flatMap_text_inj (hlines h) (hlines h') htext)

-- a quote that is not escaped can stand for the end of a value
example : listing ⟨"a", [], ⟨[("k", "v\"\n    meta l = \"w")]⟩, .empty⟩ =
    listing ⟨"a", [], ⟨[("k", "v"), ("l", "w")]⟩, .empty⟩ := by
  decide

end Rule

theorem Lexed.wellFormed {options : ParseOptions} {rule : Rule} {token : Token}
    {tokens : List Token} {start : Position} (hl : Lexed start tokens)
    (h : ParserState.start.consume options tokens = .error ⟨.ok rule, token⟩) :
    rule.WellFormed := by
  have hk : token.kind = .closeBrace := (ParserState.matchesFirstBrace_of_consume h).kind_eq
  obtain ⟨front, back, rfl, hrule⟩ := ParserState.derivesFrom_of_consume h
  have hfront := hl.usable (show token.kind ≠ .endOfInput by simp [hk])
  have htoken : token.Usable := by
    apply TokenKind.suits_of_ne
    all_goals simp [hk]
  exact hrule.wellFormed (List.forall_mem_append.mpr
    ⟨hfront, List.forall_mem_singleton.mpr htoken⟩)

theorem listings_determine_rules {rules others : List Rule}
    (h : ∀ rule ∈ rules, ∃ source options, parse source options = .ok rule)
    (h' : ∀ rule ∈ others, ∃ source options, parse source options = .ok rule)
    (he : String.join (rules.map Rule.listing) = String.join (others.map Rule.listing)) :
    rules = others := by
  have hparsed {rules : List Rule}
      (h : ∀ rule ∈ rules, ∃ source options, parse source options = .ok rule) :
      ∀ rule ∈ rules, rule.WellFormed := by
    intro rule hm
    obtain ⟨source, options, hparse⟩ := h rule hm
    obtain ⟨last, hlast⟩ := consume_tokenize source options
    rw [hparse] at hlast
    exact (lexed_tokenize source).wellFormed hlast
  exact Rule.eq_of_join_listing (hparsed h) (hparsed h') he

theorem listings_determine_rules_with_heading_in_value :
    parse "rule a:t\x7bmeta:k=\"\nrule b\"\x7d" ⟨true⟩ =
        .ok ⟨"a", ["t"], ⟨[("k", "\nrule b")]⟩, .empty⟩ ∧
      parse "rule a : t \x7b meta: k = \"\" k = \"\nrule b\" \x7d" ⟨false⟩ =
        .ok ⟨"a", ["t"], ⟨[("k", "\nrule b")]⟩, .empty⟩ ∧
      [(⟨"a", ["t"], ⟨[("k", "\nrule b")]⟩, .empty⟩ : Rule)] =
        [⟨"a", ["t"], ⟨[("k", "\nrule b")]⟩, .empty⟩] := by
  have h : parse "rule a:t\x7bmeta:k=\"\nrule b\"\x7d" ⟨true⟩ =
      .ok ⟨"a", ["t"], ⟨[("k", "\nrule b")]⟩, .empty⟩ := by decide +kernel
  have h' : parse "rule a : t \x7b meta: k = \"\" k = \"\nrule b\" \x7d" ⟨false⟩ =
      .ok ⟨"a", ["t"], ⟨[("k", "\nrule b")]⟩, .empty⟩ := by decide +kernel
  exact ⟨h, h', listings_determine_rules (List.forall_mem_singleton.mpr ⟨_, _, h⟩)
    (List.forall_mem_singleton.mpr ⟨_, _, h'⟩) rfl⟩

end SignatureRules

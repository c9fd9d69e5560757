import Mathlib.Data.List.Basic
import SignatureRules.Proofs.Lexemes

/-! Comments end at the first of their terminators. Their scanners are put together from others,
some of which can fail, and yet never fail: of every text they take what is in front of the
terminator and leave what is behind it. -/

namespace SignatureRules

abbrev Scanner := StateT (List Char) Option

structure Combinators where
  upTo : (Char → Bool) → Scanner (List Char)
  upToText : List Char → Scanner (List Char)
  char : Char → Scanner Char
  tag : List Char → Scanner (List Char)
  optional {α : Type} : Scanner α → Scanner (Option α)
  upTo_run {p : Char → Bool} {front rest : List Char} : (∀ c ∈ front, p c = false) →
    (∀ c ∈ rest.head?, p c = true) → (upTo p).run (front ++ rest) = some (front, rest)
  -- The pattern stands nowhere before. It is left ahead.
  upToText_run {pattern front rest : List Char} :
    (∀ front' rest', front ++ pattern ++ rest = front' ++ pattern ++ rest' →
      front.length ≤ front'.length) →
    (upToText pattern).run (front ++ pattern ++ rest) = some (front, pattern ++ rest)
  upToText_run_none {pattern cs : List Char} : ¬ pattern <:+: cs →
    (upToText pattern).run cs = none
  char_run (c : Char) (rest : List Char) : (char c).run (c :: rest) = some (c, rest)
  char_run_none {c : Char} {cs : List Char} : cs.head? ≠ some c → (char c).run cs = none
  tag_run (pattern rest : List Char) : (tag pattern).run (pattern ++ rest) = some (pattern, rest)
  optional_run {α : Type} {scanner : Scanner α} {cs rest : List Char} {found : α} :
    scanner.run cs = some (found, rest) → (optional scanner).run cs = some (some found, rest)
  -- What the scanner has passed before it fails is ahead again.
  optional_run_none {α : Type} {scanner : Scanner α} {cs : List Char} :
    scanner.run cs = none → (optional scanner).run cs = some (none, cs)

namespace Combinators

def ofLists : Combinators where
  upTo p := fun cs => some (cs.takeWhile (!p ·), cs.dropWhile (!p ·))
  upToText pattern := fun cs =>
    (cs.dropInfix? pattern).map fun found => (found.1, pattern ++ found.2)
  char c := fun cs => (cs.dropPrefix? [c]).map (c, ·)
  tag pattern := fun cs => (cs.dropPrefix? pattern).map (pattern, ·)
  optional scanner := fun cs =>
    match scanner.run cs with
    | some (found, rest) => some (some found, rest)
    | none => some (none, cs)
  upTo_run {p front rest} hfront hrest := by
    have hall : ∀ c ∈ front, (!p c) = true := by simpa using hfront
    have hstop : Stops (!p ·) rest := by simpa [Stops] using hrest
    obtain ⟨htake, hdrop⟩ := takeWhile_dropWhile_iff.mpr ⟨rfl, hall, hstop⟩
    simp [StateT.run, htake, hdrop]
  upToText_run {pattern front rest} hfirst := by
    have hfound : (front ++ pattern ++ rest).dropInfix? pattern = some (front, rest) := by
      apply List.dropInfix?_eq_some_iff.mpr
      refine ⟨⟨pattern, rfl, beq_self_eq_true _⟩, ?_⟩
      intro front' pattern' rest' heq hpattern
      rw [eq_of_beq hpattern] at heq
      exact hfirst front' rest' heq
    simp only [StateT.run, hfound, Option.map_some]
  upToText_run_none {pattern cs} hno := by
    have hnone : cs.dropInfix? pattern = none := by
      apply Option.eq_none_iff_forall_ne_some.mpr
      rintro ⟨front, rest⟩ hfound
      obtain ⟨⟨pattern', heq, hpattern⟩, -⟩ := List.dropInfix?_eq_some_iff.mp hfound
      rw [eq_of_beq hpattern] at heq
      exact hno ⟨front, rest, heq.symm⟩
    simp only [StateT.run, hnone, Option.map_none]
  char_run c rest := by simp [StateT.run, List.dropPrefix?]
  char_run_none {c cs} hne := by
    cases cs with
    | nil => rfl
    | cons d cs =>
      have hd : ¬ d = c := by simpa using hne
      simp [StateT.run, List.dropPrefix?, hd]
  tag_run pattern rest := by
    simp [StateT.run, List.dropPrefix?_append_of_beq rest (beq_self_eq_true pattern)]
  optional_run h := by simp only [StateT.run] at h ⊢; rw [h]
  optional_run_none h := by simp only [StateT.run] at h ⊢; rw [h]

variable (kit : Combinators) {body rest : List Char}

def lineText : Scanner (List Char) := do
  let body ← kit.upTo (· == '\n')
  let newline ← kit.optional (kit.char '\n')
  -- A return at the end of the text stays in the body.
  match newline, body.dropSuffix? ['\r'] with
  | some _, some stripped => return stripped
  | _, _ => return body

def blockText : Scanner (List Char) := do
  let text ← get
  match ← kit.optional (kit.upToText ['*', '/'] <* kit.tag ['*', '/']) with
  | some body => return body
  | none =>
    -- A comment that is not closed goes on to the end.
    set (text.drop text.length)
    return text

theorem dropSuffix?_return (body : List Char) :
    (body.dropSuffix? ['\r']).getD body = Lexeme.dropReturn body := by
  rcases Lexeme.dropReturn_cases body with he | ⟨he, hlast⟩
  · rw [List.dropSuffix?_eq_some_iff.mpr ⟨['\r'], he, beq_self_eq_true _⟩, Option.getD_some]
  · have hnone : body.dropSuffix? ['\r'] = none := by
      apply Option.eq_none_iff_forall_ne_some.mpr
      intro front hfound
      obtain ⟨suffix, hbody, hsuffix⟩ := List.dropSuffix?_eq_some_iff.mp hfound
      rw [eq_of_beq hsuffix] at hbody
      rw [← he, hbody, List.getLast?_concat] at hlast
      exact hlast rfl
    rw [hnone, Option.getD_none, ← he]

theorem upTo_newline_run (h : '\n' ∉ body) (hrest : rest = [] ∨ rest.head? = some '\n') :
    (kit.upTo (· == '\n')).run (body ++ rest) = some (body, rest) := by
  apply kit.upTo_run
  · intro c hc
    exact beq_eq_false_iff_ne.mpr (ne_of_mem_of_not_mem hc h)
  · rcases hrest with rfl | hrest
    · simp
    · simp [hrest]

theorem lineText_run_of_notMem (h : '\n' ∉ body) : kit.lineText.run body = some (body, []) := by
  have hbody := kit.upTo_newline_run h (.inl rfl)
  rw [List.append_nil] at hbody
  have hend : (kit.optional (kit.char '\n')).run [] = some (none, []) :=
    kit.optional_run_none (kit.char_run_none (by simp))
  simp [lineText, hbody, hend]

theorem lineText_run_append_newline (h : '\n' ∉ body) (rest : List Char) :
    kit.lineText.run (body ++ '\n' :: rest) = some (Lexeme.dropReturn body, rest) := by
  have hbody : (kit.upTo (· == '\n')).run (body ++ '\n' :: rest) = some (body, '\n' :: rest) :=
    kit.upTo_newline_run h (.inr rfl)
  have hend : (kit.optional (kit.char '\n')).run ('\n' :: rest) = some (some '\n', rest) :=
    kit.optional_run (kit.char_run '\n' rest)
  rw [← dropSuffix?_return]
  cases hsuffix : body.dropSuffix? ['\r'] with
  | some stripped => simp [lineText, hbody, hend, hsuffix]
  | none => simp [lineText, hbody, hend, hsuffix]

theorem lineText_run (cs : List Char) :
    kit.lineText.run cs = some ((Lexeme.lineBody cs).text, (Lexeme.lineBody cs).rest) := by
  by_cases hn : '\n' ∈ cs
  · obtain ⟨body, rest, rfl, hbody⟩ := List.eq_append_cons_of_mem hn
    rw [kit.lineText_run_append_newline hbody, Lexeme.lineBody_append_newline hbody]
  · rw [kit.lineText_run_of_notMem hn, Lexeme.lineBody_of_notMem hn]

theorem length_le_of_terminator (h : ¬ ['*', '/'] <:+: body) {front after : List Char}
    (heq : body ++ ['*', '/'] ++ rest = front ++ ['*', '/'] ++ after) :
    body.length ≤ front.length := by
  rw [List.append_assoc, List.append_assoc] at heq
  rcases List.append_eq_append_iff.mp heq with ⟨gap, rfl, -⟩ | ⟨gap, rfl, hgap⟩
  · simp
  · match gap, hgap with
    | [], _ => simp
    | [c], hgap =>
      -- The slash of the earlier terminator would be the star of the later one.
      simp at hgap
    | c :: d :: gap, hgap =>
      simp only [List.cons_append, List.nil_append, List.cons.injEq] at hgap
      obtain ⟨rfl, rfl, -⟩ := hgap
      exact absurd ⟨front, gap, by simp⟩ h

theorem blockText_run_append (h : ¬ ['*', '/'] <:+: body) (rest : List Char) :
    kit.blockText.run (body ++ ['*', '/'] ++ rest) = some (body, rest) := by
  have hbody : (kit.upToText ['*', '/']).run (body ++ ['*', '/'] ++ rest) =
      some (body, ['*', '/'] ++ rest) :=
    kit.upToText_run fun _ _ heq => length_le_of_terminator h heq
  have hclosed : (kit.upToText ['*', '/'] <* kit.tag ['*', '/']).run
      (body ++ ['*', '/'] ++ rest) = some (body, rest) := by
    simp only [StateT.run_seqLeft, hbody, Option.pure_def, Option.bind_eq_bind, Option.bind_some,
      kit.tag_run]
  simp only [blockText, StateT.run_bind, StateT.run_get, Option.pure_def, Option.bind_eq_bind,
    Option.bind_some, kit.optional_run hclosed, StateT.run_pure]

theorem blockText_run_of_open (h : ¬ ['*', '/'] <:+: body) :
    kit.blockText.run body = some (body, []) := by
  have hopen : (kit.upToText ['*', '/'] <* kit.tag ['*', '/']).run body = none := by
    simp [kit.upToText_run_none h]
  simp [blockText, kit.optional_run_none hopen]

theorem blockText_run (cs : List Char) :
    kit.blockText.run cs = some ((Lexeme.blockBody cs).text, (Lexeme.blockBody cs).rest) := by
  obtain ⟨text, rest, hbody⟩ : ∃ text rest, Lexeme.blockBody cs = ⟨text, rest⟩ := ⟨_, _, rfl⟩
  rw [hbody]
  obtain ⟨htext, rfl | ⟨rfl, rfl⟩⟩ := Lexeme.blockBody_eq_iff.mp hbody
  · have hrun := kit.blockText_run_append htext rest
    rwa [List.append_assoc] at hrun
  · exact kit.blockText_run_of_open htext

end Combinators

variable {cs text rest : List Char}

def IsLineSplit (cs text rest : List Char) : Prop :=
  '\n' ∉ text ∧ ∃ ending, cs = text ++ ending ++ rest ∧
    (ending = ['\r', '\n'] ∨ ending = ['\n'] ∧ text.getLast? ≠ some '\r' ∨
      ending = [] ∧ rest = [])

def IsBlockSplit (cs text rest : List Char) : Prop :=
  cs = text ++ ['*', '/'] ++ rest ∧ ¬ ['*', '/'] <:+: text ∨
    ¬ ['*', '/'] <:+: cs ∧ text = cs ∧ rest = []

theorem isLineSplit_iff : IsLineSplit cs text rest ↔ Lexeme.lineBody cs = ⟨text, rest⟩ := by
  rw [Lexeme.lineBody_eq_iff]
  apply and_congr_right
  intro _
  constructor
  · rintro ⟨ending, rfl, rfl | ⟨rfl, hlast⟩ | ⟨rfl, rfl⟩⟩
    · exact .inl (by simp)
    · exact .inr (.inl ⟨by simp, hlast⟩)
    · exact .inr (.inr ⟨by simp, rfl⟩)
  · rintro (rfl | ⟨rfl, hlast⟩ | ⟨rfl, rfl⟩)
    · exact ⟨['\r', '\n'], by simp, .inl rfl⟩
    · exact ⟨['\n'], by simp, .inr (.inl ⟨rfl, hlast⟩)⟩
    · exact ⟨[], by simp, .inr (.inr ⟨rfl, rfl⟩)⟩

theorem isBlockSplit_iff : IsBlockSplit cs text rest ↔ Lexeme.blockBody cs = ⟨text, rest⟩ := by
  rw [Lexeme.blockBody_eq_iff]
  constructor
  · rintro (⟨rfl, hno⟩ | ⟨hno, rfl, rfl⟩)
    · exact ⟨hno, .inl (by simp)⟩
    · exact ⟨hno, .inr ⟨rfl, rfl⟩⟩
  · rintro ⟨hno, rfl | ⟨rfl, rfl⟩⟩
    · exact .inl ⟨by simp, hno⟩
    · exact .inr ⟨hno, rfl, rfl⟩

/-- The scanner never fails, and finds what `body` does. No other split of the text meets the
conditions. -/
structure Splits (scanner : Scanner (List Char)) (body : List Char → Scanned)
    (IsSplit : List Char → List Char → List Char → Prop) : Prop where
  run_eq (cs : List Char) : scanner.run cs = some ((body cs).text, (body cs).rest)
  run_eq_iff {cs text rest : List Char} : scanner.run cs = some (text, rest) ↔ IsSplit cs text rest
  rest_suffix (cs : List Char) : (body cs).rest <:+ cs

theorem Splits.of_run_eq {scanner : Scanner (List Char)} {body : List Char → Scanned}
    {IsSplit : List Char → List Char → List Char → Prop}
    (hrun : ∀ cs, scanner.run cs = some ((body cs).text, (body cs).rest))
    (hsplit : ∀ {cs text rest}, IsSplit cs text rest ↔ body cs = ⟨text, rest⟩)
    (hsuffix : ∀ cs, (body cs).rest <:+ cs) : Splits scanner body IsSplit where
  run_eq := hrun
  run_eq_iff := by
    intro cs text rest
    rw [hrun, hsplit]
    cases body cs
    simp
  rest_suffix := hsuffix

theorem comments_split_at_terminator (kit : Combinators) :
    Splits kit.lineText Lexeme.lineBody IsLineSplit ∧
      Splits kit.blockText Lexeme.blockBody IsBlockSplit := by
  constructor
  · exact .of_run_eq kit.lineText_run isLineSplit_iff Lexeme.rest_suffix_lineBody
  · exact .of_run_eq kit.blockText_run isBlockSplit_iff Lexeme.rest_suffix_blockBody

theorem comments_split_at_terminator_overlapping :
    Combinators.ofLists.lineText.run "a\r\r\nb".toList = some ("a\r".toList, ['b']) ∧
      Combinators.ofLists.blockText.run "**/ */".toList = some (['*'], " */".toList) := by
  obtain ⟨hline, hblock⟩ := comments_split_at_terminator .ofLists
  constructor
  · exact hline.run_eq_iff.mpr ⟨by decide, ['\r', '\n'], rfl, .inl rfl⟩
  · exact hblock.run_eq_iff.mpr (.inl ⟨rfl, by decide⟩)

end SignatureRules

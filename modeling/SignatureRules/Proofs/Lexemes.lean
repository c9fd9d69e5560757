import SignatureRules.Lexeme

/-! What the scanners find, said without scanning: each of them returns the one split of the text
that meets its conditions. -/

namespace SignatureRules

def Stops (p : Char → Bool) (cs : List Char) : Prop := ∀ c ∈ cs.head?, p c = false

def IsWord : List Char → Prop
  | [] => False
  | c :: cs => c.isAlpha = true ∧ ∀ d ∈ cs, isWordChar d = true

/-- Every quote in the text comes right after a backslash of the text, the first character coming
after `before`. -/
def EscapedAfter (before : Option Char) (cs : List Char) : Prop :=
  ∀ front back, cs = front ++ '"' :: back → front.getLast?.or before = some '\\'

theorem stops_nil (p : Char → Bool) : Stops p [] := by
  simp [Stops]

theorem stops_cons {p : Char → Bool} {c : Char} {cs : List Char} :
    Stops p (c :: cs) ↔ p c = false := by
  simp [Stops]

theorem stops_dropWhile (p : Char → Bool) (cs : List Char) : Stops p (cs.dropWhile p) := by
  intro c hc
  have h := List.head?_dropWhile_not p cs
  rw [Option.mem_def.mp hc] at h
  exact h

theorem takeWhile_dropWhile_iff {p : Char → Bool} {cs run rest : List Char} :
    cs.takeWhile p = run ∧ cs.dropWhile p = rest ↔
      cs = run ++ rest ∧ (∀ c ∈ run, p c = true) ∧ Stops p rest := by
  constructor
  · rintro ⟨rfl, rfl⟩
    refine ⟨List.takeWhile_append_dropWhile.symm, ?_, stops_dropWhile p cs⟩
    exact List.all_eq_true.mp List.all_takeWhile
  · rintro ⟨rfl, hrun, hrest⟩
    rw [List.takeWhile_append_of_pos hrun, List.dropWhile_append_of_pos hrun]
    cases rest with
    | nil => simp
    | cons c rest => simp [stops_cons.mp hrest]

namespace Lexeme

theorem blanks_eq_iff {cs run rest : List Char} :
    blanks cs = .ok ⟨run, rest⟩ ↔
      run ≠ [] ∧ cs = run ++ rest ∧ (∀ c ∈ run, isBlank c = true) ∧ Stops isBlank rest := by
  rw [← takeWhile_dropWhile_iff]
  rw [blanks]
  cases h : cs.takeWhile isBlank with
  | nil =>
    simp only [reduceCtorEq, ne_eq, false_iff]
    rintro ⟨hne, hrun, -⟩
    exact hne hrun.symm
  | cons c run =>
    simp only [Except.ok.injEq, Scanned.mk.injEq]
    constructor
    · rintro ⟨rfl, rfl⟩
      exact ⟨List.cons_ne_nil c run, rfl, rfl⟩
    · rintro ⟨-, rfl, rfl⟩
      exact ⟨rfl, rfl⟩

theorem word_eq_iff {cs run rest : List Char} :
    word cs = .ok ⟨run, rest⟩ ↔ cs = run ++ rest ∧ IsWord run ∧ Stops isWordChar rest := by
  constructor
  · intro h
    cases cs with
    | nil => cases h
    | cons c cs =>
      simp only [word] at h
      split at h
      · rename_i ha
        cases h
        obtain ⟨hcs, hrun, hrest⟩ := (takeWhile_dropWhile_iff (p := isWordChar)).mp ⟨rfl, rfl⟩
        exact ⟨congrArg (c :: ·) hcs, ⟨ha, hrun⟩, hrest⟩
      · cases h
  · rintro ⟨rfl, hword, hrest⟩
    cases run with
    | nil => exact hword.elim
    | cons c run =>
      obtain ⟨htake, hdrop⟩ := takeWhile_dropWhile_iff.mpr ⟨rfl, hword.2, hrest⟩
      rw [List.cons_append, word_cons hword.1, htake, hdrop]

theorem variableName_eq_iff {cs run rest : List Char} :
    variableName cs = .ok ⟨run, rest⟩ ↔ cs = run ++ rest ∧
      (∃ name, run = '$' :: name ∧ ∀ c ∈ name, c.isAlphanum = true) ∧
      Stops Char.isAlphanum rest := by
  constructor
  · intro h
    cases cs with
    | nil => cases h
    | cons c cs =>
      simp only [variableName] at h
      split at h
      · rename_i hc
        cases h
        obtain ⟨hcs, hrun, hrest⟩ := (takeWhile_dropWhile_iff (p := Char.isAlphanum)).mp ⟨rfl, rfl⟩
        exact ⟨congrArg (c :: ·) hcs, ⟨_, by rw [hc], hrun⟩, hrest⟩
      · cases h
  · rintro ⟨rfl, ⟨name, rfl, hname⟩, hrest⟩
    obtain ⟨htake, hdrop⟩ := takeWhile_dropWhile_iff.mpr ⟨rfl, hname, hrest⟩
    rw [List.cons_append, variableName_cons, htake, hdrop]

end Lexeme

theorem escapedAfter_nil (before : Option Char) : EscapedAfter before [] := by
  intro front back h
  simp at h

theorem escapedAfter_cons {before : Option Char} {c : Char} {cs : List Char} :
    EscapedAfter before (c :: cs) ↔
      (c = '"' → before = some '\\') ∧ EscapedAfter (some c) cs := by
  constructor
  · intro h
    refine ⟨fun hc => by simpa using h [] cs (by simp [hc]), ?_⟩
    rintro front back rfl
    have hlast := h (c :: front) back rfl
    simpa [List.getLast?_cons] using hlast
  · rintro ⟨hc, hcs⟩ front back h
    cases front with
    | nil =>
      simp only [List.nil_append, List.cons.injEq] at h
      simpa using hc h.1
    | cons d front =>
      simp only [List.cons_append, List.cons.injEq] at h
      obtain ⟨rfl, rfl⟩ := h
      simpa [List.getLast?_cons] using hcs front back rfl

theorem EscapedAfter.concat {before : Option Char} {c : Char} {cs : List Char}
    (h : EscapedAfter before cs) (hc : c ≠ '"') : EscapedAfter before (cs ++ [c]) := by
  induction cs generalizing before with
  | nil => exact escapedAfter_cons.mpr ⟨fun hq => absurd hq hc, escapedAfter_nil _⟩
  | cons d cs ih =>
    obtain ⟨hd, hcs⟩ := escapedAfter_cons.mp h
    exact escapedAfter_cons.mpr ⟨hd, ih hcs⟩

theorem getLast?_cons_or (before : Option Char) (c : Char) (cs : List Char) :
    (c :: cs).getLast?.or before = cs.getLast?.or (some c) := by
  simp [List.getLast?_cons]

namespace Lexeme

theorem quotedBody_eq_iff {before : Option Char} {cs text rest : List Char} :
    quotedBody before cs = ⟨text, rest⟩ ↔ EscapedAfter before text ∧
      (cs = text ++ '"' :: rest ∧ text.getLast?.or before ≠ some '\\' ∨
        cs = text ∧ rest = []) := by
  induction cs generalizing before text with
  | nil =>
    simp only [quotedBody, Scanned.mk.injEq]
    constructor
    · rintro ⟨rfl, rfl⟩
      exact ⟨escapedAfter_nil before, .inr ⟨rfl, rfl⟩⟩
    · rintro ⟨-, ⟨h, -⟩ | ⟨rfl, rfl⟩⟩
      · simp at h
      · exact ⟨rfl, rfl⟩
  | cons c cs ih =>
    by_cases hc : c = '"' ∧ before ≠ some '\\'
    · simp only [quotedBody, hc, ne_eq, not_false_eq_true, and_self, if_true, Scanned.mk.injEq]
      cases text with
      | nil => simp [escapedAfter_nil, hc.2, eq_comm]
      | cons d text =>
        rw [escapedAfter_cons]
        constructor
        · rintro ⟨h, -⟩
          cases h
        · rintro ⟨⟨hd, -⟩, ⟨h, -⟩ | ⟨h, -⟩⟩
          all_goals
            simp only [List.cons_append, List.cons.injEq] at h
            exact absurd (hd h.1.symm) hc.2
    · simp only [quotedBody, hc, if_false, Scanned.mk.injEq]
      cases text with
      | nil =>
        simp only [reduceCtorEq, false_and, List.nil_append, List.getLast?_nil, Option.none_or,
          List.cons.injEq, or_false, false_iff]
        rintro ⟨-, ⟨h, -⟩, hb⟩
        exact hc ⟨h, hb⟩
      | cons d text =>
        rw [escapedAfter_cons, getLast?_cons_or]
        simp only [List.cons_append, List.cons.injEq]
        constructor
        · rintro ⟨⟨rfl, rfl⟩, rfl⟩
          obtain ⟨hesc, hend⟩ := ih.mp rfl
          refine ⟨⟨fun hq => Decidable.not_not.mp fun hb => hc ⟨hq, hb⟩, hesc⟩, ?_⟩
          exact hend.imp (fun h => ⟨⟨rfl, h.1⟩, h.2⟩) (fun h => ⟨⟨rfl, h.1⟩, h.2⟩)
        · rintro ⟨⟨-, hesc⟩, ⟨⟨rfl, hcs⟩, hlast⟩ | ⟨⟨rfl, hcs⟩, hrest⟩⟩
          · have h := ih.mpr ⟨hesc, .inl ⟨hcs, hlast⟩⟩
            simp [h]
          · have h := ih.mpr ⟨hesc, .inr ⟨hcs, hrest⟩⟩
            simp [h]

theorem dropReturn_append_return (text : List Char) : dropReturn (text ++ ['\r']) = text := by
  simp [dropReturn]

theorem dropReturn_of_ne {text : List Char} (h : text.getLast? ≠ some '\r') :
    dropReturn text = text := by
  simp [dropReturn, h]

theorem dropReturn_cases (text : List Char) :
    text = dropReturn text ++ ['\r'] ∨
      text = dropReturn text ∧ (dropReturn text).getLast? ≠ some '\r' := by
  by_cases h : text.getLast? = some '\r'
  · obtain ⟨front, rfl⟩ := List.getLast?_eq_some_iff.mp h
    exact .inl (by rw [dropReturn_append_return])
  · rw [dropReturn_of_ne h]
    exact .inr ⟨rfl, h⟩

theorem lineBody_of_notMem {body : List Char} (h : '\n' ∉ body) : lineBody body = ⟨body, []⟩ := by
  have hp : ∀ c ∈ body, (c != '\n') = true := by
    intro c hc
    exact bne_iff_ne.mpr (ne_of_mem_of_not_mem hc h)
  obtain ⟨htake, hdrop⟩ := takeWhile_dropWhile_iff.mpr
    ⟨(List.append_nil body).symm, hp, stops_nil _⟩
  simp only [lineBody, htake, hdrop]

theorem lineBody_append_newline {body : List Char} (h : '\n' ∉ body) (rest : List Char) :
    lineBody (body ++ '\n' :: rest) = ⟨dropReturn body, rest⟩ := by
  have hp : ∀ c ∈ body, (c != '\n') = true := by
    intro c hc
    exact bne_iff_ne.mpr (ne_of_mem_of_not_mem hc h)
  have hstop : Stops (· != '\n') ('\n' :: rest) := stops_cons.mpr rfl
  obtain ⟨htake, hdrop⟩ := takeWhile_dropWhile_iff.mpr ⟨rfl, hp, hstop⟩
  simp only [lineBody, htake, hdrop]

theorem lineBody_eq_iff {cs text rest : List Char} :
    lineBody cs = ⟨text, rest⟩ ↔ '\n' ∉ text ∧
      (cs = text ++ '\r' :: '\n' :: rest ∨
        cs = text ++ '\n' :: rest ∧ text.getLast? ≠ some '\r' ∨ cs = text ∧ rest = []) := by
  constructor
  · intro h
    by_cases hn : '\n' ∈ cs
    · obtain ⟨body, tail, rfl, hbody⟩ := List.eq_append_cons_of_mem hn
      rw [lineBody_append_newline hbody] at h
      cases h
      rcases dropReturn_cases body with he | ⟨he, hlast⟩
      · have hmem : '\n' ∉ dropReturn body := fun hm => hbody (by rw [he]; simp [hm])
        exact ⟨hmem, .inl (by rw [he, dropReturn_append_return, List.append_assoc]; rfl)⟩
      · rw [← he] at hlast ⊢
        exact ⟨hbody, .inr (.inl ⟨rfl, hlast⟩)⟩
    · rw [lineBody_of_notMem hn] at h
      cases h
      exact ⟨hn, .inr (.inr ⟨rfl, rfl⟩)⟩
  · rintro ⟨hn, rfl | ⟨rfl, hlast⟩ | ⟨rfl, rfl⟩⟩
    · have hreturn : '\n' ∉ text ++ ['\r'] := by simp [hn]
      have h := lineBody_append_newline hreturn rest
      rwa [dropReturn_append_return, List.append_assoc] at h
    · rw [lineBody_append_newline hn, dropReturn_of_ne hlast]
    · exact lineBody_of_notMem hn

theorem terminator_infix_cons {c : Char} {cs : List Char} :
    ['*', '/'] <:+: c :: cs ↔ (c = '*' ∧ cs.head? = some '/') ∨ ['*', '/'] <:+: cs := by
  rw [List.infix_cons_iff]
  refine or_congr_left ?_
  cases cs with
  | nil => simp [List.cons_prefix_cons]
  | cons d cs =>
    simp only [List.cons_prefix_cons, List.nil_prefix, and_true, List.head?_cons,
      Option.some.injEq]
    exact and_congr eq_comm eq_comm

theorem blockBody_eq_iff {cs text rest : List Char} :
    blockBody cs = ⟨text, rest⟩ ↔ ¬ ['*', '/'] <:+: text ∧
      (cs = text ++ '*' :: '/' :: rest ∨ cs = text ∧ rest = []) := by
  fun_induction blockBody cs generalizing text with
  | case1 =>
    simp only [Scanned.mk.injEq]
    constructor
    · rintro ⟨rfl, rfl⟩
      exact ⟨by simp, .inr ⟨rfl, rfl⟩⟩
    · rintro ⟨-, h | ⟨rfl, rfl⟩⟩
      · simp at h
      · exact ⟨rfl, rfl⟩
  | case2 c =>
    simp only [Scanned.mk.injEq]
    constructor
    · rintro ⟨rfl, rfl⟩
      exact ⟨by simp [terminator_infix_cons], .inr ⟨rfl, rfl⟩⟩
    · rintro ⟨-, h | ⟨rfl, rfl⟩⟩
      · have hlen := congrArg List.length h
        simp at hlen
        omega
      · exact ⟨rfl, rfl⟩
  | case3 c d cs h =>
    obtain ⟨rfl, rfl⟩ := h
    cases text with
    | nil => simp
    | cons e text =>
      simp only [Scanned.mk.injEq, reduceCtorEq, false_and, List.cons_append, List.cons.injEq,
        false_iff]
      rintro ⟨hno, ⟨rfl, h⟩ | ⟨⟨rfl, rfl⟩, -⟩⟩
      all_goals refine hno (terminator_infix_cons.mpr (.inl ⟨rfl, ?_⟩))
      · cases text with
        | nil => simp at h
        | cons f text => exact congrArg some (List.cons.inj h).1.symm
      · rfl
  | case4 c d cs h =>
    rename_i tail ih
    cases text with
    | nil =>
      simp only [Scanned.mk.injEq, reduceCtorEq, false_and, List.nil_append, List.cons.injEq,
        or_false, false_iff]
      rintro ⟨-, hc, hd, -⟩
      exact h ⟨hc, hd⟩
    | cons e text =>
      rw [terminator_infix_cons, not_or]
      simp only [Scanned.mk.injEq, List.cons_append, List.cons.injEq]
      constructor
      · rintro ⟨⟨rfl, rfl⟩, rfl⟩
        obtain ⟨hno, hend⟩ := ih.mp rfl
        refine ⟨⟨?_, hno⟩, hend.imp (fun h => ⟨rfl, h⟩) (fun h => ⟨⟨rfl, h.1⟩, h.2⟩)⟩
        rintro ⟨hc, hhead⟩
        obtain ⟨tail, htail⟩ := List.head?_eq_some_iff.mp hhead
        rw [htail] at hend
        rcases hend with hend | ⟨hend, -⟩
        all_goals exact h ⟨hc, (List.cons.inj hend).1⟩
      · rintro ⟨⟨-, hno⟩, ⟨rfl, hend⟩ | ⟨⟨rfl, hend⟩, hrest⟩⟩
        · have htail := ih.mpr ⟨hno, .inl hend⟩
          simp [tail, htail]
        · have htail := ih.mpr ⟨hno, .inr ⟨hend, hrest⟩⟩
          simp [tail, htail]

end Lexeme

end SignatureRules

import SignatureRules.Proofs.RuleGrammar
import SignatureRules.Proofs.TokenBoundaries

namespace SignatureRules

section Letters

variable {p : Char → Bool} {c d : Char} {cs ds : List Char}

theorem toLower_of_isAlpha_eq_false (h : c.isAlpha = false) : c.toLower = c := by
  have hu : c.isUpper = false := (Bool.or_eq_false_iff.mp h).1
  exact dif_neg (of_decide_eq_false hu)

theorem isAlpha_toLower (c : Char) : c.toLower.isAlpha = c.isAlpha := by
  delta Char.isAlpha Char.isUpper Char.isLower Char.toLower
  split <;> grind [UInt32.toNat_add, Char.toNat_val]

theorem utf8Size_of_isAlpha (h : c.isAlpha = true) : c.utf8Size = 1 := by
  have hle : c.val ≤ 127 := by
    delta Char.isAlpha Char.isUpper Char.isLower at h
    simp only [Bool.or_eq_true, Bool.and_eq_true, decide_eq_true_eq, ge_iff_le,
      UInt32.le_iff_toNat_le] at h
    rw [UInt32.le_iff_toNat_le]
    simp at h ⊢
    omega
  simp [Char.utf8Size, hle]

theorem utf8Size_toLower (c : Char) : c.toLower.utf8Size = c.utf8Size := by
  cases h : c.isAlpha with
  | false => rw [toLower_of_isAlpha_eq_false h]
  | true =>
    have hl : c.toLower.isAlpha = true := (isAlpha_toLower c).trans h
    rw [utf8Size_of_isAlpha h, utf8Size_of_isAlpha hl]

theorem byteSize_map_toLower (cs : List Char) : byteSize (cs.map Char.toLower) = byteSize cs := by
  induction cs with
  | nil => rfl
  | cons c cs ih => rw [List.map_cons, byteSize_cons, byteSize_cons, utf8Size_toLower, ih]

theorem IsStopClass.eq_of_isAlpha (h : IsStopClass p) (hc : c.isAlpha = true)
    (hd : d.isAlpha = true) : p c = p d := by
  cases h with
  | blank => rw [Lexer.isBlank_eq_false_of_isAlpha hc, Lexer.isBlank_eq_false_of_isAlpha hd]
  | word => simp [isWordChar, Char.isAlphanum, hc, hd]
  | variableName => simp [Char.isAlphanum, hc, hd]
  | comment =>
    have hopens {e : Char} (he : e.isAlpha = true) : (e == '/' || e == '*') = false := by
      rw [Bool.or_eq_false_iff, beq_eq_false_iff_ne, beq_eq_false_iff_ne]
      constructor
      all_goals
        rintro rfl
        cases he
    exact (hopens hc).trans (hopens hd).symm

theorem IsStopClass.toLower_eq (h : IsStopClass p) (c : Char) : p c.toLower = p c := by
  cases hc : c.isAlpha with
  | false => rw [toLower_of_isAlpha_eq_false hc]
  | true => exact h.eq_of_isAlpha ((isAlpha_toLower c).trans hc) hc

theorem Stops.recased (h : Stops p cs) (hp : IsStopClass p)
    (hl : cs.map Char.toLower = ds.map Char.toLower) : Stops p ds := by
  intro d hd
  have hhead := congrArg List.head? hl
  rw [List.head?_map, List.head?_map, Option.mem_def.mp hd, Option.map_some,
    Option.map_eq_some_iff] at hhead
  obtain ⟨c, hc, hsame⟩ := hhead
  rw [← hp.toLower_eq, ← hsame, hp.toLower_eq]
  exact h c hc

theorem IsWord.recased (h : IsWord cs) (hl : cs.map Char.toLower = ds.map Char.toLower) :
    IsWord ds := by
  cases cs with
  | nil => exact h.elim
  | cons c cs =>
    obtain ⟨d, es, rfl, hd, hes⟩ := List.map_eq_cons_iff.mp hl.symm
    refine ⟨?_, fun e he => ?_⟩
    · rw [← isAlpha_toLower, hd, isAlpha_toLower]
      exact h.1
    · have hm : e.toLower ∈ cs.map Char.toLower := by
        rw [← hes]
        exact List.mem_map_of_mem he
      obtain ⟨c', hc', hsame⟩ := List.mem_map.mp hm
      rw [← IsStopClass.word.toLower_eq, ← hsame, IsStopClass.word.toLower_eq]
      exact h.2 c' hc'

end Letters

def TokenKind.IsWord (kind : TokenKind) : Prop :=
  kind = .identifier ∨ ∃ word, kind.reservedWord? = some word

def HeldBy (allowed : Token → List Token → Prop) (tokens : List Token) (offset : Nat) : Prop :=
  ∃ before token after, tokens = before ++ token :: after ∧ allowed token after ∧
    token.span.start ≤ offset ∧ offset < token.span.stop

/-- The other source has the same letters, and has them in the same case outside of the tokens of
the source that are allowed. -/
structure RecasedWithin (allowed : Token → List Token → Prop) (source other : String) : Prop where
  letters : SameLetters source other
  within : ∀ i : Nat, source.toList[i]? ≠ other.toList[i]? →
    HeldBy allowed (tokenize source) (byteSize (source.toList.take i))

/-- The others are the tokens, those that are identifiers and allowed with letters in any case. The
rest comes after the tokens. -/
inductive Recasing (allowed : Token → List Token → Prop) (rest : List Token) :
    List Token → List Token → Prop
  | nil : Recasing allowed rest [] []
  | keep {token tokens others} : Recasing allowed rest tokens others →
      Recasing allowed rest (token :: tokens) (token :: others)
  | recase {literal literal' span tokens others} :
      allowed ⟨.identifier, literal, span⟩ (tokens ++ rest) → SameLetters literal literal' →
      Recasing allowed rest tokens others →
      Recasing allowed rest (⟨.identifier, literal, span⟩ :: tokens)
        (⟨.identifier, literal', span⟩ :: others)

variable {allowed : Token → List Token → Prop} {kind : TokenKind} {token : Token}
  {tokens others rest : List Token} {literal lexeme lexeme' following following' other : List Char}
  {start : Position} {offset : Nat}

theorem IsLexeme.of_sameLetters (h : IsLexeme kind literal lexeme following)
    (hl : following.map Char.toLower = following'.map Char.toLower) :
    IsLexeme kind literal lexeme following' := by
  refine h.of_stops (fun hnil => ?_) fun p hp hstop => hstop.recased hp hl
  rw [hnil] at hl
  exact List.map_eq_nil_iff.mp hl.symm

theorem IsLexeme.recased (h : IsLexeme kind literal lexeme following) (hk : kind.IsWord)
    (hl : lexeme.map Char.toLower = lexeme'.map Char.toLower) :
    ∃ literal', IsLexeme kind literal' lexeme' following ∧ (literal' = literal ∨
      kind = .identifier ∧ literal.map Char.toLower = literal'.map Char.toLower) := by
  cases h with
  | keyword hword hstop hkind =>
    rw [hl] at hkind ⊢
    exact ⟨_, .keyword (hword.recased hl) hstop hkind, .inl rfl⟩
  | identifier hword hstop hkind =>
    rw [hl] at hkind
    exact ⟨_, .identifier (hword.recased hl) hstop hkind, .inr ⟨rfl, hl⟩⟩
  | punctuation hmark =>
    rcases hk with rfl | ⟨word, hk⟩
    · cases hmark
    · cases kind <;> cases hk <;> cases hmark
  | _ =>
    rcases hk with hk | ⟨word, hk⟩
    all_goals cases hk

theorem heldBy_cons (h : HeldBy allowed (token :: tokens) offset)
    (ho : token.span.stop ≤ offset) : HeldBy allowed tokens offset := by
  obtain ⟨before, holder, after, htokens, hallowed, hstart, hstop⟩ := h
  cases before with
  | nil =>
    obtain ⟨rfl, -⟩ := List.cons.inj htokens
    exact absurd hstop (Nat.not_lt.mpr ho)
  | cons first before =>
    obtain ⟨-, htail⟩ := List.cons.inj htokens
    exact ⟨before, holder, after, htail, hallowed, hstart, hstop⟩

theorem allowed_of_heldBy (h : HeldBy allowed (token :: tokens) offset)
    (ho : ∀ later ∈ tokens, offset < later.span.start) : allowed token tokens := by
  obtain ⟨before, holder, after, htokens, hallowed, hstart, -⟩ := h
  cases before with
  | nil =>
    obtain ⟨rfl, rfl⟩ := List.cons.inj htokens
    exact hallowed
  | cons first before =>
    obtain ⟨-, rfl⟩ := List.cons.inj htokens
    exact absurd hstart (Nat.not_le.mpr (ho holder (by simp)))

theorem exists_getElem?_ne {cs ds : List Char} (hlength : cs.length = ds.length) (h : cs ≠ ds) :
    ∃ i < cs.length, cs[i]? ≠ ds[i]? := by
  by_contra hno
  push Not at hno
  refine h (List.ext_getElem? fun i => ?_)
  rcases Nat.lt_or_ge i cs.length with hi | hi
  · exact hno i hi
  · rw [List.getElem?_eq_none hi, List.getElem?_eq_none (hlength ▸ hi)]

def DiffersWithin (allowed : Token → List Token → Prop) (start : Position) (other : List Char)
    (tokens : List Token) : Prop :=
  ∀ i : Nat, start.rest[i]? ≠ other[i]? →
    HeldBy allowed tokens (start.offset + byteSize (start.rest.take i))

theorem DiffersWithin.tail
    (h : DiffersWithin allowed ⟨offset, lexeme ++ following⟩ (lexeme' ++ following')
      (token :: tokens))
    (hlength : lexeme.length = lexeme'.length) (hstop : token.span.stop = offset + byteSize lexeme) :
    DiffersWithin allowed ⟨offset + byteSize lexeme, following⟩ following' tokens := by
  intro i hne
  have hheld := h (lexeme.length + i) (by
    rw [List.getElem?_append_right (Nat.le_add_right ..), hlength,
      List.getElem?_append_right (Nat.le_add_right ..), Nat.add_sub_cancel_left]
    exact hne)
  rw [List.take_length_add_append, byteSize_append, ← Nat.add_assoc] at hheld
  refine heldBy_cons hheld ?_
  rw [hstop]
  exact Nat.le_add_right ..

theorem DiffersWithin.allowed_of_ne
    (h : DiffersWithin allowed ⟨offset, lexeme ++ following⟩ (lexeme' ++ following')
      (token :: tokens))
    (hlength : lexeme.length = lexeme'.length) (hne : lexeme ≠ lexeme')
    (hlater : ∀ later ∈ tokens, offset + byteSize lexeme ≤ later.span.start) :
    allowed token tokens := by
  obtain ⟨i, hi, hdiffers⟩ := exists_getElem?_ne hlength hne
  have hheld := h i (by
    rw [List.getElem?_append_left hi, List.getElem?_append_left (hlength ▸ hi)]
    exact hdiffers)
  rw [List.take_append_of_le_length hi.le] at hheld
  refine allowed_of_heldBy hheld fun later hm => ?_
  exact (Nat.add_lt_add_left (byteSize_take_lt hi) offset).trans_le (hlater later hm)

theorem Lexed.recased (h : Lexed start tokens)
    (hwords : ∀ token after, allowed token after → token.kind.IsWord)
    (hl : start.rest.map Char.toLower = other.map Char.toLower)
    (hw : DiffersWithin allowed start other tokens) :
    ∃ others, Lexed ⟨start.offset, other⟩ others ∧ Recasing allowed [] tokens others := by
  induction h generalizing other with
  | @done n =>
    obtain rfl := List.map_eq_nil_iff.mp hl.symm
    exact ⟨_, .done, .keep .nil⟩
  | @cons n kind literal lexeme following tokens hlexeme hrest ih =>
    obtain ⟨lexeme', following', rfl, hletters, hletters'⟩ :=
      List.map_eq_append_iff.mp (hl.symm.trans List.map_append)
    have hlength : lexeme.length = lexeme'.length := by
      simpa using (congrArg List.length hletters).symm
    have hsize : byteSize lexeme = byteSize lexeme' := by
      rw [← byteSize_map_toLower, ← hletters, byteSize_map_toLower]
    obtain ⟨others, hothers, hrecasing⟩ := ih hletters'.symm (hw.tail hlength rfl)
    have hfollows := hlexeme.of_sameLetters hletters'.symm
    by_cases hsame : lexeme = lexeme'
    · subst hsame
      exact ⟨_, .cons hfollows hothers, .keep hrecasing⟩
    · have hallowed := hw.allowed_of_ne hlength hsame hrest.offset_le
      obtain ⟨literal', hrecased, hcase⟩ := hfollows.recased (hwords _ _ hallowed) hletters.symm
      have hall := Lexed.cons hrecased (hsize ▸ hothers)
      rw [← hsize] at hall
      rcases hcase with rfl | ⟨rfl, hliteral⟩
      · exact ⟨_, hall, .keep hrecasing⟩
      · refine ⟨_, hall, .recase ?_ ?_ hrecasing⟩
        · rw [List.append_nil]
          exact hallowed
        · rw [SameLetters, String.toList_ofList, String.toList_ofList]
          exact hliteral

theorem RecasedWithin.mono {source other : String} {allowed' : Token → List Token → Prop}
    (h : RecasedWithin allowed source other)
    (ha : ∀ token after, allowed token after → allowed' token after) :
    RecasedWithin allowed' source other := by
  refine ⟨h.letters, fun i hne => ?_⟩
  obtain ⟨before, token, after, htokens, hallowed, hspan⟩ := h.within i hne
  exact ⟨before, token, after, htokens, ha token after hallowed, hspan⟩

theorem RecasedWithin.recasing {source other : String} (h : RecasedWithin allowed source other)
    (hwords : ∀ token after, allowed token after → token.kind.IsWord) :
    Recasing allowed [] (tokenize source) (tokenize other) := by
  have hwithin : DiffersWithin allowed ⟨0, source.toList⟩ other.toList (tokenize source) := by
    intro i hne
    rw [Nat.zero_add]
    exact h.within i hne
  obtain ⟨others, hothers, hrecasing⟩ := (lexed_tokenize source).recased hwords h.letters hwithin
  rw [tokenize_eq_of_lexed hothers]
  exact hrecasing

theorem Recasing.map_kind_span (h : Recasing allowed rest tokens others) :
    others.map (fun token => (token.kind, token.span)) =
      tokens.map fun token => (token.kind, token.span) := by
  induction h with
  | nil => rfl
  | keep _ ih => rw [List.map_cons, List.map_cons, ih]
  | recase _ _ _ ih => rw [List.map_cons, List.map_cons, ih]

end SignatureRules

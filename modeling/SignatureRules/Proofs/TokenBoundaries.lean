import SignatureRules.Proofs.BraceNesting
import SignatureRules.Proofs.Retokenization
import SignatureRules.Proofs.TokenTiling

/-! A source may be cut wherever a token starts or stops. The two pieces have the tokens of the
source, and those of the second piece are shifted by the size of the first. -/

namespace SignatureRules

def Token.shift (size : Nat) (token : Token) : Token :=
  { token with span := ⟨token.span.start + size, token.span.stop + size⟩ }

variable {source : String} {token : Token} {tokens front back : List Token}
  {kind : TokenKind} {literal lexeme following head tail : List Char} {start : Position}

theorem Lexed.shift (h : Lexed start tokens) (size : Nat) :
    Lexed ⟨start.offset + size, start.rest⟩ (tokens.map (·.shift size)) := by
  induction h with
  | done => exact .done
  | @cons n kind literal lexeme following tokens hl _ ih =>
    rw [Nat.add_right_comm] at ih
    have htoken : Token.shift size ⟨kind, .ofList literal, ⟨n, n + byteSize lexeme⟩⟩ =
        ⟨kind, .ofList literal, ⟨n + size, n + size + byteSize lexeme⟩⟩ := by
      rw [Token.shift, Nat.add_right_comm]
    rw [List.map_cons, htoken]
    exact .cons hl ih

theorem Lexed.offset_le (h : Lexed start tokens) :
    ∀ token ∈ tokens, start.offset ≤ token.span.start := by
  induction h with
  | @done n => exact List.forall_mem_singleton.mpr (Nat.le_refl n)
  | @cons n _ _ lexeme _ _ _ _ ih =>
    refine List.forall_mem_cons.mpr ⟨Nat.le_refl n, fun token hm => ?_⟩
    exact Nat.le_trans (Nat.le_add_right n (byteSize lexeme)) (ih token hm)

theorem Lexed.pairwise_start (h : Lexed start tokens) :
    tokens.Pairwise fun token later => token.span.start < later.span.start := by
  induction h with
  | done => exact List.pairwise_singleton _ _
  | cons hl hrest ih =>
    refine .cons (fun later hm => ?_) ih
    have hpos : byteSize _ ≠ 0 := fun hz => hl.ne_nil (eq_nil_of_byteSize_eq_zero hz)
    exact Nat.lt_of_lt_of_le (Nat.lt_add_of_pos_right (Nat.pos_of_ne_zero hpos))
      (hrest.offset_le later hm)

theorem Lexed.eq_of_start_eq {other : Token} {front' back' : List Token}
    (h : Lexed start (front ++ token :: back))
    (he : front ++ token :: back = front' ++ other :: back')
    (hs : token.span.start = other.span.start) : front = front' ∧ token = other ∧ back = back' := by
  have hpairwise := h.pairwise_start
  rcases append_cons_cases he with hsame | ⟨gap, rfl⟩ | ⟨gap, rfl⟩
  · exact hsame
  · rw [he, List.append_assoc] at hpairwise
    have hlt := (List.pairwise_cons.mp (List.pairwise_append.mp hpairwise).2.1).1 other (by simp)
    exact absurd hs (Nat.ne_of_lt hlt)
  · rw [List.append_assoc] at hpairwise
    have hlt := (List.pairwise_cons.mp (List.pairwise_append.mp hpairwise).2.1).1 token (by simp)
    exact absurd hs (Nat.ne_of_gt hlt)

theorem filter_not_ended (h : ∀ token ∈ front, token.kind ≠ .endOfInput) (n : Nat) :
    (front ++ [Token.endAt n]).filter (·.kind ≠ .endOfInput) = front := by
  rw [List.filter_append, List.filter_eq_self.mpr fun token hm => decide_eq_true (h token hm)]
  exact List.append_nil front

theorem textIn_head (hs : source.toList = head ++ tail) :
    Span.textIn source ⟨0, byteSize head⟩ = .ofList head :=
  textIn_of_append (show source.toList = [] ++ head ++ tail from hs)

theorem textIn_tail (hs : source.toList = head ++ tail) :
    Span.textIn source ⟨byteSize head, source.utf8ByteSize⟩ = .ofList tail := by
  rw [← byteSize_toList, hs]
  apply textIn_of_append
  rw [hs, List.append_nil]

theorem tokenize_eq_append (h : token ∈ tokenize source) :
    tokenize source =
      (tokenize (Span.textIn source ⟨0, token.span.start⟩)).filter (·.kind ≠ .endOfInput) ++
        (tokenize (Span.textIn source ⟨token.span.start, source.utf8ByteSize⟩)).map
          (·.shift token.span.start) := by
  obtain ⟨front, back, htokens⟩ := List.append_of_mem h
  have hl := lexed_tokenize source
  rw [htokens] at hl
  obtain ⟨head, tail, hs, hkinds, htail, hsame⟩ := hl.exists_text
  have hhead := hsame [] _ (.inl rfl) .done
  rw [List.append_nil] at hhead
  rw [Nat.zero_add] at hhead htail
  rw [htail.start_eq]
  obtain ⟨others, hothers⟩ := exists_lexed ⟨0, tail⟩
  have hshift := hothers.shift (byteSize head)
  rw [Nat.zero_add] at hshift
  rw [textIn_head hs, textIn_tail hs, tokenize_ofList hhead, filter_not_ended hkinds,
    tokenize_ofList hothers, ← htail.unique hshift]
  exact htokens

theorem exists_start_eq_stop (h : token ∈ tokenize source) :
    ∃ next ∈ tokenize source, next.span.start = token.span.stop := by
  rcases eq_endAt_or_isLexemeOf h with rfl | ⟨hk, -⟩
  · exact ⟨_, h, rfl⟩
  · obtain ⟨front, back, htokens⟩ := List.append_of_mem h
    have hl := lexed_tokenize source
    rw [htokens] at hl
    obtain ⟨next, rest, rfl, hstart⟩ := hl.exists_next hk
    exact ⟨next, by simp [htokens], hstart⟩

theorem tokenize_lexeme (h : IsLexeme kind literal lexeme following) :
    tokenize (.ofList lexeme) =
      [⟨kind, .ofList literal, ⟨0, byteSize lexeme⟩⟩, .endAt (byteSize lexeme)] := by
  have halone := h.of_head? (.inl rfl)
  have hl := Lexed.cons halone (@Lexed.done (0 + byteSize lexeme))
  rw [List.append_nil, Nat.zero_add] at hl
  exact tokenize_ofList hl

theorem tokenize_splits (h : token ∈ tokenize source) :
    (∀ bound, bound = token.span.start ∨ bound = token.span.stop →
      tokenize source =
        (tokenize (Span.textIn source ⟨0, bound⟩)).filter (·.kind ≠ .endOfInput) ++
          (tokenize (Span.textIn source ⟨bound, source.utf8ByteSize⟩)).map (·.shift bound)) ∧
    (token.kind ≠ .endOfInput →
      let text := token.span.textIn source
      tokenize text = [⟨token.kind, token.literal, ⟨0, text.utf8ByteSize⟩⟩,
        .endAt text.utf8ByteSize]) := by
  constructor
  · rintro bound (rfl | rfl)
    · exact tokenize_eq_append h
    · obtain ⟨next, hnext, hstart⟩ := exists_start_eq_stop h
      rw [← hstart]
      exact tokenize_eq_append hnext
  · intro hk text
    rcases eq_endAt_or_isLexemeOf h with rfl | ⟨-, lexeme, following, hcovers, hl⟩
    · exact absurd rfl hk
    have htext : text = .ofList lexeme := hcovers.textIn_eq
    rw [htext, utf8ByteSize_ofList, tokenize_lexeme hl, String.ofList_toList]

theorem tokenize_splits_open_comment :
    (⟨.comment, "é", ⟨1, 5⟩⟩ : Token) ∈ tokenize "a/*é" ∧
      tokenize "a/*é" =
        (tokenize (Span.textIn "a/*é" ⟨0, 1⟩)).filter (·.kind ≠ .endOfInput) ++
          (tokenize (Span.textIn "a/*é" ⟨1, 5⟩)).map (·.shift 1) ∧
      tokenize (Span.textIn "a/*é" ⟨1, 5⟩) = [⟨.comment, "é", ⟨0, 4⟩⟩, .endAt 4] := by
  have htokens : tokenize "a/*é" =
      [⟨.identifier, "a", ⟨0, 1⟩⟩, ⟨.comment, "é", ⟨1, 5⟩⟩, .endAt 5] := by decide +kernel
  have h : (⟨.comment, "é", ⟨1, 5⟩⟩ : Token) ∈ tokenize "a/*é" := by
    rw [htokens]
    exact .tail _ (.head _)
  obtain ⟨hbounds, htext⟩ := tokenize_splits h
  exact ⟨h, hbounds 1 (.inl rfl), htext (by decide)⟩

end SignatureRules

import SignatureRules.Token

namespace SignatureRules

def openings (tokens : List Token) : Nat := tokens.countP (·.kind = .openBrace)

def closings (tokens : List Token) : Nat := tokens.countP (·.kind = .closeBrace)

/-- The tokens close `depth` braces from before them and all that they open, and no others. -/
structure Closes (depth : Nat) (tokens : List Token) : Prop where
  never_below : ∀ front, front <+: tokens → closings front ≤ depth + openings front
  level : closings tokens = depth + openings tokens

def Balanced (tokens : List Token) : Prop := Closes 0 tokens

variable {depth : Nat} {token : Token} {tokens front back : List Token}

@[simp] theorem openings_nil : openings [] = 0 := rfl

@[simp] theorem closings_nil : closings [] = 0 := rfl

theorem openings_cons : openings (token :: tokens) =
    openings tokens + if token.kind = .openBrace then 1 else 0 := by
  simp [openings, List.countP_cons]

theorem closings_cons : closings (token :: tokens) =
    closings tokens + if token.kind = .closeBrace then 1 else 0 := by
  simp [closings, List.countP_cons]

@[simp] theorem openings_append : openings (front ++ back) = openings front + openings back := by
  simp [openings]

@[simp] theorem closings_append : closings (front ++ back) = closings front + closings back := by
  simp [closings]

theorem closes_nil_iff : Closes depth [] ↔ depth = 0 := by
  refine ⟨fun h => ?_, ?_⟩
  · have hlevel := h.level
    simp only [closings_nil, openings_nil] at hlevel
    omega
  · rintro rfl
    refine ⟨fun front hf => ?_, rfl⟩
    rw [List.prefix_nil.mp hf]
    exact Nat.le_refl _

theorem closes_cons_iff : Closes depth (token :: tokens) ↔
    ∃ left, left + (if token.kind = .closeBrace then 1 else 0) =
      (depth + if token.kind = .openBrace then 1 else 0) ∧ Closes left tokens := by
  constructor
  · intro h
    have hfirst := h.never_below [token] (List.cons_prefix_cons.mpr ⟨rfl, List.nil_prefix⟩)
    rw [closings_cons, openings_cons, closings_nil, openings_nil] at hfirst
    obtain ⟨left, hleft⟩ := Nat.exists_eq_add_of_le hfirst
    refine ⟨left, by omega, fun front hf => ?_, ?_⟩
    · have hle := h.never_below (token :: front) (List.cons_prefix_cons.mpr ⟨rfl, hf⟩)
      rw [closings_cons, openings_cons] at hle
      omega
    · have hlevel := h.level
      rw [closings_cons, openings_cons] at hlevel
      omega
  · rintro ⟨left, hleft, h⟩
    refine ⟨fun front hf => ?_, ?_⟩
    · rcases List.prefix_cons_iff.mp hf with rfl | ⟨front, rfl, hf'⟩
      · simp
      · have hle := h.never_below front hf'
        rw [closings_cons, openings_cons]
        omega
    · have hlevel := h.level
      rw [closings_cons, openings_cons]
      omega

theorem exists_depth_after (h : ¬ (token.kind = .closeBrace ∧ depth = 0)) :
    ∃ left, left + (if token.kind = .closeBrace then 1 else 0) =
      depth + if token.kind = .openBrace then 1 else 0 := by
  by_cases hk : token.kind = .closeBrace
  · obtain ⟨left, rfl⟩ := Nat.exists_eq_succ_of_ne_zero fun hd => h ⟨hk, hd⟩
    exact ⟨left, by simp [hk]⟩
  · exact ⟨_, by rw [if_neg hk, Nat.add_zero]⟩

theorem Balanced.not_append (h : Balanced front) (hk : token.kind = .closeBrace) :
    ¬ Balanced (front ++ token :: back) := by
  intro hall
  have hle := hall.never_below (front ++ [token]) ⟨back, by simp⟩
  have hlevel := h.level
  rw [closings_append, openings_append, closings_cons, openings_cons] at hle
  simp [hk] at hle
  omega

def MatchesFirstBrace (closing : Token) (tokens : List Token) : Prop :=
  ∃ before opening inside after, tokens = before ++ opening :: (inside ++ closing :: after) ∧
    (∀ token ∈ before, token.kind ≠ .openBrace) ∧ opening.kind = .openBrace ∧ Balanced inside ∧
    closing.kind = .closeBrace

theorem MatchesFirstBrace.kind_eq {closing : Token} (h : MatchesFirstBrace closing tokens) :
    closing.kind = .closeBrace := by
  obtain ⟨-, -, -, -, -, -, -, -, hk⟩ := h
  exact hk

theorem append_cons_cases {other : Token} {front' back' : List Token}
    (h : front ++ token :: back = front' ++ other :: back') :
    (front = front' ∧ token = other ∧ back = back') ∨
      (∃ gap, front' = front ++ token :: gap) ∨ ∃ gap, front = front' ++ other :: gap := by
  rcases List.append_eq_append_iff.mp h with ⟨gap, hfront, hback⟩ | ⟨gap, hfront, hback⟩
  · cases gap with
    | nil =>
      obtain ⟨rfl, rfl⟩ := List.cons.inj hback
      exact .inl ⟨by simp [hfront], rfl, rfl⟩
    | cons first gap =>
      obtain ⟨rfl, -⟩ := List.cons.inj hback
      exact .inr (.inl ⟨gap, hfront⟩)
  · cases gap with
    | nil =>
      obtain ⟨rfl, rfl⟩ := List.cons.inj hback
      exact .inl ⟨by simp [hfront], rfl, rfl⟩
    | cons first gap =>
      obtain ⟨rfl, -⟩ := List.cons.inj hback
      exact .inr (.inr ⟨gap, hfront⟩)

theorem MatchesFirstBrace.unique {closing other : Token} (h : MatchesFirstBrace closing tokens)
    (h' : MatchesFirstBrace other tokens) : closing = other := by
  obtain ⟨before, opening, inside, after, rfl, hbefore, hopening, hinside, hclosing⟩ := h
  obtain ⟨before', opening', inside', after', he, hbefore', hopening', hinside', hclosing'⟩ := h'
  rcases append_cons_cases he with ⟨-, -, he⟩ | ⟨gap, rfl⟩ | ⟨gap, rfl⟩
  · rcases append_cons_cases he with ⟨-, rfl, -⟩ | ⟨gap, rfl⟩ | ⟨gap, rfl⟩
    · rfl
    · exact absurd hinside' (hinside.not_append hclosing)
    · exact absurd hinside (hinside'.not_append hclosing')
  · exact absurd hopening (hbefore' opening (by simp))
  · exact absurd hopening' (hbefore opening' (by simp))

end SignatureRules

namespace SignatureRules

def byteSize : List Char → Nat
  | [] => 0
  | c :: cs => c.utf8Size + byteSize cs

@[simp] theorem byteSize_nil : byteSize [] = 0 := rfl

@[simp] theorem byteSize_cons (c : Char) (cs : List Char) :
    byteSize (c :: cs) = c.utf8Size + byteSize cs := rfl

@[simp] theorem byteSize_append (cs ds : List Char) :
    byteSize (cs ++ ds) = byteSize cs + byteSize ds := by
  induction cs with
  | nil => simp
  | cons c cs ih => simp [ih, Nat.add_assoc]

theorem eq_nil_of_byteSize_eq_zero {cs : List Char} (h : byteSize cs = 0) : cs = [] := by
  cases cs with
  | nil => rfl
  | cons c cs =>
    have hpos := c.utf8Size_pos
    simp only [byteSize_cons] at h
    omega

theorem append_inj_of_byteSize_eq {cs ds es fs : List Char} (h : cs ++ es = ds ++ fs)
    (hs : byteSize cs = byteSize ds) : cs = ds ∧ es = fs := by
  rcases List.append_eq_append_iff.mp h with ⟨gap, rfl, rfl⟩ | ⟨gap, rfl, rfl⟩
  all_goals
    rw [byteSize_append] at hs
    obtain rfl := eq_nil_of_byteSize_eq_zero (show byteSize gap = 0 by omega)
    simp

/-- Byte offsets of a piece of text: where it starts, and where the text after it starts. -/
structure Span where
  start : Nat
  stop : Nat
deriving DecidableEq, Repr

end SignatureRules

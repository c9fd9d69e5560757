import SignatureRules.Text.Quoted

/-! A quoted text can be read back, whatever it holds and whichever characters are taken not to
print: a quote that ends it is not one that it holds. -/

namespace SignatureRules

def escapeBy (unprintable : Char → Bool) (c : Char) : List Char :=
  match c with
  | '\x00' => ['\\', '0']
  | '\t' => ['\\', 't']
  | '\n' => ['\\', 'n']
  | '\r' => ['\\', 'r']
  | '"' => ['\\', '"']
  | '\\' => ['\\', '\\']
  | _ => if unprintable c then ['\\', 'u', '{'] ++ Nat.toDigits 16 c.toNat ++ ['}'] else [c]

def quotedBy (unprintable : Char → Bool) (text : String) : String :=
  String.ofList ('"' :: text.toList.flatMap (escapeBy unprintable) ++ ['"'])

theorem quotedBy_isUnprintable : quotedBy isUnprintable = quoted := rfl

section CodePoint

def hexDigit (c : Char) : Nat :=
  if c.isDigit then c.toNat - '0'.toNat else c.toNat - 'a'.toNat + 10

def hexNumber (digits : List Char) : Nat := digits.foldl (fun n c => 16 * n + hexDigit c) 0

theorem hexDigit_digitChar : ∀ n < 16, hexDigit n.digitChar = n := by decide

theorem digitChar_ne : ∀ n < 16, n.digitChar ≠ '}' ∧ n.digitChar ≠ '\n' := by decide

theorem hexNumber_toDigits (n : Nat) : hexNumber (Nat.toDigits 16 n) = n := by
  induction n using Nat.strongRecOn with
  | ind n ih =>
    rw [Nat.toDigits_eq_if (by decide)]
    split
    · next hn => exact (Nat.zero_add _).trans (hexDigit_digitChar n hn)
    · next hn =>
      have hdiv : hexNumber (Nat.toDigits 16 (n / 16)) = n / 16 := ih _ (by omega)
      rw [hexNumber] at hdiv ⊢
      rw [List.foldl_append, hdiv, List.foldl_cons, List.foldl_nil,
        hexDigit_digitChar _ (Nat.mod_lt n (by decide)), Nat.div_add_mod]

theorem ne_of_mem_toDigits {c : Char} {n : Nat} (h : c ∈ Nat.toDigits 16 n) :
    c ≠ '}' ∧ c ≠ '\n' := by
  induction n using Nat.strongRecOn with
  | ind n ih =>
    rw [Nat.toDigits_eq_if (by decide)] at h
    split at h
    · next hn =>
      rw [List.mem_singleton.mp h]
      exact digitChar_ne n hn
    · next hn =>
      rcases List.mem_append.mp h with h | h
      · exact ih _ (by omega) h
      · rw [List.mem_singleton.mp h]
        exact digitChar_ne _ (Nat.mod_lt n (by decide))

end CodePoint

/-- The character written in front, and what is after it. None is where a quote ends the text. -/
def unescape : List Char → Option (Char × List Char)
  | [] => none
  | '"' :: _ => none
  | '\\' :: '0' :: text => some ('\x00', text)
  | '\\' :: 't' :: text => some ('\t', text)
  | '\\' :: 'n' :: text => some ('\n', text)
  | '\\' :: 'r' :: text => some ('\r', text)
  | '\\' :: 'u' :: '{' :: text =>
    let digits := text.takeWhile (· != '}')
    some (Char.ofNat (hexNumber digits), text.drop (digits.length + 1))
  | '\\' :: c :: text => some (c, text)
  | c :: text => some (c, text)

variable {unprintable : Char → Bool} {c : Char} {text other : List Char}

theorem unescape_cons (hquote : c ≠ '"') (hbackslash : c ≠ '\\') (x : List Char) :
    unescape (c :: x) = some (c, x) := by
  rw [unescape] <;> intros <;> contradiction

theorem unescape_codePoint (c : Char) (x : List Char) :
    unescape ('\\' :: 'u' :: '{' :: (Nat.toDigits 16 c.toNat ++ '}' :: x)) = some (c, x) := by
  have hdigits : (Nat.toDigits 16 c.toNat ++ '}' :: x).takeWhile (· != '}') =
      Nat.toDigits 16 c.toNat := by
    rw [List.takeWhile_append_of_pos]
    · simp
    · intro d hd
      exact bne_iff_ne.mpr (ne_of_mem_toDigits hd).1
  simp only [unescape, hdigits, hexNumber_toDigits, Char.ofNat_toNat]
  simp

theorem unescape_escapeBy (unprintable : Char → Bool) (c : Char) (x : List Char) :
    unescape (escapeBy unprintable c ++ x) = some (c, x) := by
  fun_cases escapeBy unprintable c
  case case7 hp _ _ _ _ _ _ =>
    rw [if_pos hp]
    simpa using unescape_codePoint c x
  case case8 hp _ _ _ _ hquote hbackslash =>
    rw [if_neg hp]
    exact unescape_cons hquote hbackslash x
  all_goals rfl

theorem unescape_flatMap_cons (unprintable : Char → Bool) (c : Char) (text x : List Char) :
    unescape ((c :: text).flatMap (escapeBy unprintable) ++ x) =
      some (c, text.flatMap (escapeBy unprintable) ++ x) := by
  rw [List.flatMap_cons, List.append_assoc, unescape_escapeBy]

theorem flatMap_escapeBy_append_inj {x y : List Char}
    (h : text.flatMap (escapeBy unprintable) ++ '"' :: x =
      other.flatMap (escapeBy unprintable) ++ '"' :: y) : text = other ∧ x = y := by
  have hread := congrArg unescape h
  induction text generalizing other with
  | nil =>
    cases other with
    | nil => exact ⟨rfl, (List.cons.inj h).2⟩
    | cons d other =>
      rw [unescape_flatMap_cons] at hread
      cases hread
  | cons c text ih =>
    rw [unescape_flatMap_cons] at hread
    cases other with
    | nil => cases hread
    | cons d other =>
      rw [unescape_flatMap_cons] at hread
      obtain ⟨rfl, hrest⟩ := Prod.mk.inj (Option.some.inj hread)
      obtain ⟨rfl, rfl⟩ := ih hrest (congrArg unescape hrest)
      exact ⟨rfl, rfl⟩

theorem newline_notMem_escapeBy (unprintable : Char → Bool) (c : Char) :
    '\n' ∉ escapeBy unprintable c := by
  fun_cases escapeBy unprintable c
  case case7 hp _ _ _ _ _ _ =>
    rw [if_pos hp]
    simp only [List.mem_append, List.mem_cons, List.not_mem_nil, or_false, not_or]
    exact ⟨⟨by decide, fun hm => (ne_of_mem_toDigits hm).2 rfl⟩, by decide⟩
  case case8 hp _ _ hnewline _ _ _ =>
    rw [if_neg hp]
    exact fun hm => hnewline (List.mem_singleton.mp hm).symm
  all_goals decide

end SignatureRules

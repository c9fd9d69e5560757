import SignatureRules.ParseError
import SignatureRules.Proofs.QuotedText
import SignatureRules.Proofs.TokenListings

/-! What is said about a syntax error tells the error. The text found is quoted, so that none can
end the quotation early and go on like another message. -/

namespace SignatureRules

namespace SyntaxFault

variable {fault other : SyntaxFault} {found : String} {unprintable : Char → Bool}

def found? : SyntaxFault → Option String
  | expectedSymbol found _ | expectedName found _ | expectedString found _ => some found
  | noTags | unclosedRule => none

def allAt (found : String) : List SyntaxFault :=
  [Symbol.ruleWord, .colon, .openBrace, .closeBrace, .equal].map (expectedSymbol found) ++
    [NameRole.rule, .sectionHeader, .metadataKey, .pattern].map (expectedName found) ++
    TokenKind.all.map (expectedString found)

theorem mem_allAt (h : fault.found? = some found) : fault ∈ allAt found := by
  cases fault with
  | expectedSymbol _ symbol =>
    cases h
    cases symbol <;> simp [allAt]
  | expectedName _ role =>
    cases h
    cases role <;> simp [allAt]
  | expectedString _ kind =>
    cases h
    simp [allAt, kind.mem_all]
  | noTags | unclosedRule => cases h

theorem nodup_expectation_allAt (found : String) : ((allAt found).map expectation).Nodup := by
  -- No expectation speaks of the text found, so that one text stands for all.
  change ((allAt "").map expectation).Nodup
  decide

theorem eq_of_expectation_eq (hf : fault.found? = some found) (ho : other.found? = some found)
    (h : fault.expectation = other.expectation) : fault = other :=
  List.inj_on_of_nodup_map (nodup_expectation_allAt found) (mem_allAt hf) (mem_allAt ho) h

theorem eq_of_found?_eq_none (h : fault.found? = none) : fault = noTags ∨ fault = unclosedRule := by
  cases fault with
  | noTags => exact .inl rfl
  | unclosedRule => exact .inr rfl
  | _ => cases h

def messageBy (unprintable : Char → Bool) (fault : SyntaxFault) : String :=
  match fault.found? with
  | some found => "found " ++ quotedBy unprintable found ++ ", " ++ fault.expectation
  | none => fault.message

theorem messageBy_isUnprintable (fault : SyntaxFault) :
    fault.messageBy isUnprintable = fault.message := by
  cases fault <;> rfl

theorem toList_messageBy (h : fault.found? = some found) (unprintable : Char → Bool) :
    (fault.messageBy unprintable).toList = "found \"".toList ++
      (found.toList.flatMap (escapeBy unprintable) ++
        '"' :: (", ".toList ++ fault.expectation.toList)) := by
  simp [messageBy, h, quotedBy]

theorem messageBy_of_found?_eq_none (h : fault.found? = none) (unprintable : Char → Bool) :
    fault.messageBy unprintable = fault.message := by
  rw [messageBy, h]

theorem opens_quotation_iff :
    "found \"".toList <+: (fault.messageBy unprintable).toList ↔ fault.found?.isSome := by
  cases hf : fault.found? with
  | some found =>
    rw [toList_messageBy hf]
    simp
  | none =>
    rw [messageBy_of_found?_eq_none hf]
    rcases eq_of_found?_eq_none hf with rfl | rfl
    · decide
    · decide

theorem eq_of_messageBy_eq_of_unquoted (hf : fault.found? = none) (ho : other.found? = none)
    (h : fault.messageBy unprintable = other.messageBy unprintable) : fault = other := by
  rw [messageBy_of_found?_eq_none hf, messageBy_of_found?_eq_none ho] at h
  rcases eq_of_found?_eq_none hf with rfl | rfl
  all_goals rcases eq_of_found?_eq_none ho with rfl | rfl
  · rfl
  · exact absurd h (by decide)
  · exact absurd h (by decide)
  · rfl

theorem eq_of_messageBy_eq (h : fault.messageBy unprintable = other.messageBy unprintable) :
    fault = other := by
  have hquoted : fault.found?.isSome = other.found?.isSome := by
    rw [Bool.eq_iff_iff, ← opens_quotation_iff, ← opens_quotation_iff, h]
  cases hf : fault.found? with
  | some found =>
    rw [hf] at hquoted
    obtain ⟨found', ho⟩ := Option.isSome_iff_exists.mp hquoted.symm
    have htext := congrArg String.toList h
    rw [toList_messageBy hf, toList_messageBy ho] at htext
    -- Both quotations end at the first quote that is not escaped, and the expectations follow.
    obtain ⟨hfound, hrest⟩ := flatMap_escapeBy_append_inj (List.append_cancel_left htext)
    obtain rfl : found = found' := String.toList_inj.mp hfound
    apply eq_of_expectation_eq hf ho
    exact String.toList_inj.mp (List.append_cancel_left hrest)
  | none =>
    rw [hf] at hquoted
    have ho : other.found? = none := Option.not_isSome_iff_eq_none.mp (by simp [← hquoted])
    exact eq_of_messageBy_eq_of_unquoted hf ho h

theorem message_eq_iff : fault.message = other.message ↔ fault = other := by
  rw [← messageBy_isUnprintable, ← messageBy_isUnprintable]
  exact ⟨eq_of_messageBy_eq, congrArg _⟩

end SyntaxFault

theorem diagnostic_tells_error (error other : ParseError) :
    (error.diagnostic.message = other.diagnostic.message ∧
        error.diagnostic.span = other.diagnostic.span ↔ error = other) ∧
      (error.message = other.message ↔ error.fault = other.fault) ∧
      (∀ unprintable, error.fault.messageBy unprintable = other.fault.messageBy unprintable ↔
        error.fault = other.fault) ∧
      error.fault.messageBy isUnprintable = error.message := by
  refine ⟨?_, SyntaxFault.message_eq_iff, fun _ => ⟨SyntaxFault.eq_of_messageBy_eq, congrArg _⟩,
    SyntaxFault.messageBy_isUnprintable _⟩
  obtain ⟨span, fault⟩ := error
  obtain ⟨span', fault'⟩ := other
  constructor
  · rintro ⟨hmessage, hspan⟩
    obtain rfl : span = span' := hspan
    obtain rfl : fault = fault' := SyntaxFault.message_eq_iff.mp hmessage
    rfl
  · intro h
    cases h
    exact ⟨rfl, rfl⟩

end SignatureRules

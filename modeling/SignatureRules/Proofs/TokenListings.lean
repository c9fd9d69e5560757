import Mathlib.Data.List.Nodup
import SignatureRules.CommandLine.RuleFiles
import SignatureRules.Proofs.QuotedText

/-! A listing of tokens tells their kinds and literals, in order, each on a line of its own. -/

namespace SignatureRules

namespace TokenKind

variable {kind other : TokenKind}

def all : List TokenKind :=
  [illegal, endOfInput, whitespace, comment, identifier, variableName, quotedString, ruleWord,
    allWord, ofWord, themWord, colon, openBrace, closeBrace, equal, asterisk, openParen, closeParen]

theorem mem_all (kind : TokenKind) : kind ∈ all := by
  cases kind <;> decide

theorem name_inj (h : kind.name = other.name) : kind = other :=
  List.inj_on_of_nodup_map (show (all.map name).Nodup by decide) (mem_all kind) (mem_all other) h

theorem notMem_name (kind : TokenKind) : '"' ∉ kind.name.toList ∧ '\n' ∉ kind.name.toList := by
  cases kind <;> decide

theorem splitOn_name_append (kind : TokenKind) (x : List Char) :
    ((kind.name.toList ++ [' ']) ++ '"' :: x).splitOn '"' =
      (kind.name.toList ++ [' ']) :: x.splitOn '"' :=
  List.splitOn_append_cons_self_of_not_mem (by simp [kind.notMem_name.1]) x

end TokenKind

def Token.content (token : Token) : TokenKind × String := (token.kind, token.literal)

namespace CommandLine

def contentText (unprintable : Char → Bool) (content : TokenKind × String) : String :=
  content.1.name ++ " " ++ quotedBy unprintable content.2

def tokenListingBy (unprintable : Char → Bool) (source : String) : String :=
  String.join ((tokenize source).map fun token => contentText unprintable token.content ++ "\n")

theorem tokenListingBy_isUnprintable (source : String) :
    tokenListingBy isUnprintable source = tokenListing source := by
  simp only [tokenListingBy, contentText, quotedBy_isUnprintable]
  rfl

variable {unprintable : Char → Bool}

theorem toList_contentText (unprintable : Char → Bool) (content : TokenKind × String) :
    (contentText unprintable content).toList = (content.1.name.toList ++ [' ']) ++
      '"' :: (content.2.toList.flatMap (escapeBy unprintable) ++ ['"']) := by
  simp [contentText, quotedBy]

theorem newline_notMem_contentText (unprintable : Char → Bool) (content : TokenKind × String) :
    '\n' ∉ (contentText unprintable content).toList := by
  have hliteral : '\n' ∉ content.2.toList.flatMap (escapeBy unprintable) := by
    intro hm
    obtain ⟨c, -, hc⟩ := List.mem_flatMap.mp hm
    exact newline_notMem_escapeBy unprintable c hc
  simp [toList_contentText, hliteral, content.1.notMem_name.2]

theorem contentText_injective (unprintable : Char → Bool) :
    Function.Injective (contentText unprintable) := by
  rintro ⟨kind, literal⟩ ⟨kind', literal'⟩ h
  have htext := congrArg String.toList h
  rw [toList_contentText, toList_contentText] at htext
  -- No kind has a quote in its name, so that the first one of each line is where the literal starts.
  have hsplit := congrArg (List.splitOn '"') htext
  rw [TokenKind.splitOn_name_append, TokenKind.splitOn_name_append] at hsplit
  have hname := List.append_cancel_right (List.cons.inj hsplit).1
  obtain rfl : kind = kind' := TokenKind.name_inj (String.toList_inj.mp hname)
  have hquoted := (List.cons.inj (List.append_cancel_left htext)).2
  obtain rfl : literal = literal' :=
    String.toList_inj.mp (flatMap_escapeBy_append_inj hquoted).1
  rfl

theorem splitOn_tokenListingBy (unprintable : Char → Bool) (source : String) :
    (tokenListingBy unprintable source).toList.splitOn '\n' =
      (tokenize source).map (fun token => (contentText unprintable token.content).toList) ++
        [[]] := by
  rw [tokenListingBy]
  induction tokenize source with
  | nil => rfl
  | cons token tokens ih =>
    rw [List.map_cons, String.join_cons, String.toList_append, String.toList_append,
      List.append_assoc]
    exact (List.splitOn_append_cons_self_of_not_mem (newline_notMem_contentText _ _) _).trans
      (congrArg (_ :: ·) ih)

theorem tokenListingBy_eq_iff {source other : String} :
    tokenListingBy unprintable source = tokenListingBy unprintable other ↔
      (tokenize source).map Token.content = (tokenize other).map Token.content := by
  constructor
  · intro h
    have hlines := congrArg (fun text => text.toList.splitOn '\n') h
    simp only [splitOn_tokenListingBy] at hlines
    have hinj : Function.Injective fun content => (contentText unprintable content).toList :=
      fun _ _ he => contentText_injective unprintable (String.toList_inj.mp he)
    apply List.map_injective_iff.mpr hinj
    rw [List.map_map, List.map_map]
    exact List.append_cancel_right hlines
  · intro h
    have hlines := congrArg (List.map (contentText unprintable · ++ "\n")) h
    rw [List.map_map, List.map_map] at hlines
    exact congrArg String.join hlines

theorem tokenListing_faithful (unprintable : Char → Bool) (source : String) :
    (∀ other, tokenListingBy unprintable source = tokenListingBy unprintable other ↔
        (tokenize source).map Token.content = (tokenize other).map Token.content) ∧
      (tokenListingBy unprintable source).toList.splitOn '\n' =
        (tokenize source).map (fun token => (contentText unprintable token.content).toList) ++
          [[]] ∧
      tokenListingBy isUnprintable source = tokenListing source :=
  ⟨fun _ => tokenListingBy_eq_iff, splitOn_tokenListingBy unprintable source,
    tokenListingBy_isUnprintable source⟩

end CommandLine

end SignatureRules

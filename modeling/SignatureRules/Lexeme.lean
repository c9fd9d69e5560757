namespace SignatureRules

structure Scanned where
  text : List Char
  rest : List Char
deriving DecidableEq, Repr

inductive Missing
  | blank
  | letter
  | dollar
deriving DecidableEq, Repr

def isBlank (c : Char) : Bool := c == ' ' || c == '\t' || c == '\n'

def isWordChar (c : Char) : Bool := c.isAlphanum || c == '_'

namespace Lexeme

def blanks (cs : List Char) : Except Missing Scanned :=
  match cs.takeWhile isBlank with
  | [] => .error .blank
  | run => .ok ⟨run, cs.dropWhile isBlank⟩

def word : List Char → Except Missing Scanned
  | [] => .error .letter
  | c :: cs =>
    if c.isAlpha then .ok ⟨c :: cs.takeWhile isWordChar, cs.dropWhile isWordChar⟩
    else .error .letter

def variableName : List Char → Except Missing Scanned
  | [] => .error .dollar
  | c :: cs =>
    if c = '$' then .ok ⟨c :: cs.takeWhile Char.isAlphanum, cs.dropWhile Char.isAlphanum⟩
    else .error .dollar

/-- What a string holds, once its opening quote is passed: the text up to the first quote that does
not come right after a backslash, or all of it. `before` is the character passed last, if the string
has begun. -/
def quotedBody (before : Option Char) : List Char → Scanned
  | [] => ⟨[], []⟩
  | c :: cs =>
    if c = '"' ∧ before ≠ some '\\' then ⟨[], cs⟩
    else
      let tail := quotedBody (some c) cs
      ⟨c :: tail.text, tail.rest⟩

def dropReturn (cs : List Char) : List Char :=
  if cs.getLast? = some '\r' then cs.dropLast else cs

/-- What a line comment holds, once its slashes are passed: the text up to the line end, which is
passed too. A carriage return belongs to the line end only if a newline follows. -/
def lineBody (cs : List Char) : Scanned :=
  let body := cs.takeWhile (· != '\n')
  match cs.dropWhile (· != '\n') with
  | [] => ⟨body, []⟩
  | _ :: rest => ⟨dropReturn body, rest⟩

def blockBody : List Char → Scanned
  | [] => ⟨[], []⟩
  | [c] => ⟨[c], []⟩
  | c :: d :: cs =>
    if c = '*' ∧ d = '/' then ⟨[], cs⟩
    else
      let tail := blockBody (d :: cs)
      ⟨c :: tail.text, tail.rest⟩

theorem rest_suffix_quotedBody (before : Option Char) (cs : List Char) :
    (quotedBody before cs).rest <:+ cs := by
  induction cs generalizing before with
  | nil => exact List.suffix_refl _
  | cons c cs ih =>
    rw [quotedBody]
    split
    · exact List.suffix_cons c cs
    · exact (ih (some c)).trans (List.suffix_cons c cs)

theorem rest_suffix_lineBody (cs : List Char) : (lineBody cs).rest <:+ cs := by
  rw [lineBody]
  have hd : cs.dropWhile (· != '\n') <:+ cs := List.dropWhile_suffix _
  split
  · exact List.nil_suffix
  · rename_i x rest hr
    rw [hr] at hd
    exact (List.suffix_cons x rest).trans hd

theorem rest_suffix_blockBody (cs : List Char) : (blockBody cs).rest <:+ cs := by
  fun_induction blockBody cs with
  | case1 => exact List.suffix_refl _
  | case2 c => exact List.nil_suffix
  | case3 c d cs => exact (List.suffix_cons d cs).trans (List.suffix_cons c _)
  | case4 c d cs _ _ ih => exact ih.trans (List.suffix_cons c _)

theorem blanks_cons {c : Char} (h : isBlank c = true) (cs : List Char) :
    blanks (c :: cs) = .ok ⟨c :: cs.takeWhile isBlank, cs.dropWhile isBlank⟩ := by
  simp [blanks, h]

theorem word_cons {c : Char} (h : c.isAlpha = true) (cs : List Char) :
    word (c :: cs) = .ok ⟨c :: cs.takeWhile isWordChar, cs.dropWhile isWordChar⟩ := by
  simp [word, h]

theorem variableName_cons (cs : List Char) :
    variableName ('$' :: cs) =
      .ok ⟨'$' :: cs.takeWhile Char.isAlphanum, cs.dropWhile Char.isAlphanum⟩ := by
  simp [variableName]

end Lexeme

end SignatureRules

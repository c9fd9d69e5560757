import SignatureRules.Text.Span

namespace SignatureRules

inductive TokenKind
  | illegal
  | endOfInput
  | whitespace
  | comment
  | identifier
  | variableName
  | quotedString
  | ruleWord
  | allWord
  | ofWord
  | themWord
  | colon
  | openBrace
  | closeBrace
  | equal
  | asterisk
  | openParen
  | closeParen
deriving DecidableEq, Repr

namespace TokenKind

def name : TokenKind → String
  | illegal => "illegal"
  | endOfInput => "EOF"
  | whitespace => "whitespace"
  | comment => "comment"
  | identifier => "identifier"
  | variableName => "variable identifier"
  | quotedString => "quoted string"
  | ruleWord => "rule"
  | allWord => "all"
  | ofWord => "of"
  | themWord => "them"
  | colon => "colon"
  | openBrace => "open brace"
  | closeBrace => "close brace"
  | equal => "equal"
  | asterisk => "asterisk"
  | openParen => "open paren"
  | closeParen => "close paren"

def isTrivia : TokenKind → Bool
  | whitespace | comment => true
  | _ => false

def ofKeyword? : List Char → Option TokenKind
  | ['r', 'u', 'l', 'e'] => some ruleWord
  | ['a', 'l', 'l'] => some allWord
  | ['o', 'f'] => some ofWord
  | ['t', 'h', 'e', 'm'] => some themWord
  | _ => none

def ofPunctuation? : Char → Option TokenKind
  | ':' => some colon
  | '{' => some openBrace
  | '}' => some closeBrace
  | '=' => some equal
  | '*' => some asterisk
  | '(' => some openParen
  | ')' => some closeParen
  | _ => none

end TokenKind

/-- A token. The literal of a keyword is in lower case, that of a quoted string has no quotes and
that of a comment no delimiters; any other literal is the text of the span. -/
structure Token where
  kind : TokenKind
  literal : String
  span : Span
deriving DecidableEq, Repr

end SignatureRules

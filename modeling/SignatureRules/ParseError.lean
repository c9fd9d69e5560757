import SignatureRules.Text.Quoted
import SignatureRules.Token

namespace SignatureRules

inductive Symbol
  | ruleWord
  | colon
  | openBrace
  | closeBrace
  | equal
deriving DecidableEq, Repr

def Symbol.description : Symbol → String
  | ruleWord => "keyword \"rule\""
  | colon => "':'"
  | openBrace => "'\x7b'"
  | closeBrace => "'\x7d'"
  | equal => "'='"

inductive NameRole
  | rule
  | sectionHeader
  | metadataKey
  | pattern
deriving DecidableEq, Repr

def NameRole.description : NameRole → String
  | rule => "a valid rule identifier"
  | sectionHeader => "a section name"
  | metadataKey => "a key"
  | pattern => "a variable identifier"

inductive SyntaxFault
  | expectedSymbol (found : String) (symbol : Symbol)
  | expectedName (found : String) (role : NameRole)
  | expectedString (found : String) (kind : TokenKind)
  | noTags
  | unclosedRule
deriving DecidableEq, Repr

structure ParseError where
  span : Span
  fault : SyntaxFault
deriving DecidableEq, Repr

structure Diagnostic where
  message : String
  span : Span
  label : String
deriving DecidableEq, Repr

namespace SyntaxFault

def expectation : SyntaxFault → String
  | expectedSymbol _ .ruleWord => "expected " ++ Symbol.ruleWord.description
  | expectedSymbol _ .equal => "expecting a value assignment"
  | expectedSymbol _ symbol => "expecting " ++ symbol.description
  | expectedName _ .rule => "expected " ++ NameRole.rule.description
  | expectedName _ role => "expecting " ++ role.description
  | expectedString _ kind => "expecting a quoted string, token=" ++ kind.name
  | noTags => "invalid tag name"
  | unclosedRule => "expecting '\x7d'"

def message (fault : SyntaxFault) : String :=
  match fault with
  | expectedSymbol found _ | expectedName found _ | expectedString found _ =>
    "found " ++ quoted found ++ ", " ++ fault.expectation
  | noTags => fault.expectation
  | unclosedRule => "found EOF, " ++ fault.expectation

def label : SyntaxFault → String
  | expectedSymbol _ symbol => "expected " ++ symbol.description
  | expectedName _ role => "expected " ++ role.description
  | expectedString _ kind => "this is a " ++ kind.name ++ ", not a quoted string"
  | noTags => "at least one tag must follow ':'"
  | unclosedRule => "the rule is not closed"

end SyntaxFault

namespace ParseError

def message (error : ParseError) : String := error.fault.message

def diagnostic (error : ParseError) : Diagnostic where
  message := error.message
  span := error.span
  label := error.fault.label

end ParseError

end SignatureRules

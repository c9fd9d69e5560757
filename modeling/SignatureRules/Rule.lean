import SignatureRules.Table

namespace SignatureRules

inductive PatternKind
  | string
  | regex
  | hex
deriving DecidableEq, Repr

structure Pattern where
  kind : PatternKind
  text : String
  modifiers : List String
deriving DecidableEq, Repr

namespace Pattern

def ofString (text : String) : Pattern := ⟨.string, text, []⟩

end Pattern

/-- Texts are kept as they are written in the source, escapes included. Tags are in its order, and
patterns are named with their dollar sign. -/
structure Rule where
  name : String
  tags : List String
  metadata : Table String
  patterns : Table Pattern
deriving DecidableEq, Repr

namespace Rule

def empty : Rule := ⟨"", [], .empty, .empty⟩

def addTag (tag : String) (rule : Rule) : Rule := { rule with tags := rule.tags ++ [tag] }

def addMetadata (key value : String) (rule : Rule) : Rule :=
  { rule with metadata := rule.metadata.insert key value }

def addPattern (name : String) (pattern : Pattern) (rule : Rule) : Rule :=
  { rule with patterns := rule.patterns.insert name pattern }

end Rule

end SignatureRules

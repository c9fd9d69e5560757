import SignatureRules.Rule

namespace SignatureRules

def Pattern.listing (pattern : Pattern) : String :=
  match pattern.kind with
  | .string => "\"" ++ pattern.text ++ "\""
  | .regex => "/" ++ pattern.text ++ "/"
  | .hex => "\x7b " ++ pattern.text ++ " \x7d"

namespace Rule

def headingLine (rule : Rule) : String :=
  "rule " ++ rule.name ++
    (if rule.tags.isEmpty then "" else " :" ++ String.join (rule.tags.map (" " ++ ·))) ++ "\n"

def metadataLine (entry : String × String) : String :=
  "    meta " ++ entry.1 ++ " = \"" ++ entry.2 ++ "\"\n"

def patternLine (entry : String × Pattern) : String :=
  "    string " ++ entry.1 ++ " = " ++ entry.2.listing ++
    String.join (entry.2.modifiers.map (" " ++ ·)) ++ "\n"

def listing (rule : Rule) : String :=
  rule.headingLine ++ String.join (rule.metadata.entries.map metadataLine) ++
    String.join (rule.patterns.entries.map patternLine)

end Rule

end SignatureRules

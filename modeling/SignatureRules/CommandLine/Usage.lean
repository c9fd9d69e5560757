namespace SignatureRules.CommandLine

def textOfLines (lines : List String) : String := String.join (lines.map (· ++ "\n"))

def versionText : String := textOfLines ["yaraparser-cli 0.1.0"]

def summaryHelp : String := textOfLines
  ["CLI utility to tokenize and parse YARA-like signature rules",
   "",
   "Usage: yaraparser [OPTIONS] <RULES_FILE>...",
   "",
   "Arguments:",
   "  <RULES_FILE>...  Path to a file containing a rule, can be repeated",
   "",
   "Options:",
   "  -t, --tokens             Print the tokens of each file instead of parsing it",
   "      --no-condition-skip  Do not skip the body of conditions sections",
   "  -h, --help               Print help (see more with '--help')",
   "  -V, --version            Print version"]

def fullHelp : String := textOfLines
  ["CLI utility to tokenize and parse YARA-like signature rules",
   "",
   "Usage: yaraparser [OPTIONS] <RULES_FILE>...",
   "",
   "Arguments:",
   "  <RULES_FILE>...",
   "          Path to a file containing a rule, can be repeated",
   "",
   "Options:",
   "  -t, --tokens",
   "          Print the tokens of each file instead of parsing it",
   "",
   "      --no-condition-skip",
   "          Do not skip the body of conditions sections.",
   "          Tokens following 'conditions:' are then parsed as another section.",
   "",
   "  -h, --help",
   "          Print help (see a summary with '-h')",
   "",
   "  -V, --version",
   "          Print version"]

end SignatureRules.CommandLine

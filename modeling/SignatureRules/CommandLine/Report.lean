import SignatureRules.CommandLine.RuleFiles
import SignatureRules.CommandLine.Usage
import SignatureRules.Text.ControlSequence
import SignatureRules.Text.Place

namespace SignatureRules.CommandLine

def UsageFault.message : UsageFault → String
  | noFiles => "the following required arguments were not provided:"
  | emptyPath => "a value is required for '<RULES_FILE>...' but none was supplied"
  | repeatedOption option => "the argument '" ++ option ++ "' cannot be used multiple times"
  | unknownOption option => "unexpected argument '" ++ plainText option ++ "' found"
  | unneededValue option value =>
    "unexpected value '" ++ plainText value ++ "' for '" ++ option ++
      "' found; no more were expected"

/-- The first lines of what is written about a refusal and about a diagnostic. -/
def terminal : Renderer where
  refused fault := ["error: " ++ fault.message]
  diagnosed path source diagnostic :=
    let place := Place.ofOffset source diagnostic.span.start
    ["error: " ++ diagnostic.message,
     "  ┌─ " ++ path ++ ":" ++ toString place.line ++ ":" ++ toString place.column]

def Notice.lines : Notice → List String := linesBy terminal

namespace Request

def paths : Request → List String
  | process _ paths => paths
  | _ => []

def report (files : List RuleFile) : Request → Report
  | summaryHelp => ⟨CommandLine.summaryHelp, [], .success⟩
  | fullHelp => ⟨CommandLine.fullHelp, [], .success⟩
  | version => ⟨versionText, [], .success⟩
  | refuse fault => ⟨"", [.refused fault], .faulty⟩
  | process flags _ => reportFiles flags files

end Request

end SignatureRules.CommandLine

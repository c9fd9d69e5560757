import SignatureRules.CommandLine.Arguments
import SignatureRules.Parser
import SignatureRules.Rule.Listing

namespace SignatureRules.CommandLine

inductive ReadFault
  | missing
  | notDirectory
  | isDirectory
  | notText
  | other (description : String)
deriving DecidableEq, Repr

def ReadFault.message : ReadFault → String
  | missing => "No such file or directory (os error 2)"
  | notDirectory => "Not a directory (os error 20)"
  | isDirectory => "Is a directory (os error 21)"
  | notText => "stream did not contain valid UTF-8"
  | other description => description

structure RuleFile where
  path : String
  contents : Except ReadFault String

def decodeText (bytes : ByteArray) : Except ReadFault String :=
  match String.fromUTF8? bytes with
  | some text => .ok text
  | none => .error .notText

inductive Notice
  | refused (fault : UsageFault)
  | unreadable (path : String) (fault : ReadFault)
  | diagnosed (path source : String) (diagnostic : Diagnostic)
deriving DecidableEq, Repr

/-- How refusals and diagnostics are laid out, which the program leaves to others. -/
structure Renderer where
  refused : UsageFault → List String
  diagnosed (path source : String) : Diagnostic → List String

def Notice.linesBy (renderer : Renderer) : Notice → List String
  | refused fault => renderer.refused fault
  | unreadable path fault => ["Cannot read rules file " ++ path ++ ": " ++ fault.message]
  | diagnosed path source diagnostic => renderer.diagnosed path source diagnostic

inductive Status
  | success
  | unreadable
  | faulty
deriving DecidableEq, Repr

namespace Status

def code : Status → Nat
  | success => 0
  | unreadable => 1
  | faulty => 2

def before : Status → Status → Status
  | success, later => later
  | earlier, success => earlier
  | _, unreadable => unreadable
  | earlier, _ => earlier

end Status

structure Report where
  output : String
  notices : List Notice
  status : Status
deriving DecidableEq, Repr

namespace Report

def empty : Report := ⟨"", [], .success⟩

def append (earlier later : Report) : Report where
  output := earlier.output ++ later.output
  notices := earlier.notices ++ later.notices
  status := earlier.status.before later.status

end Report

def tokenLine (token : Token) : String := token.kind.name ++ " " ++ quoted token.literal ++ "\n"

def tokenListing (source : String) : String := String.join ((tokenize source).map tokenLine)

def Flags.parseOptions (flags : Flags) : ParseOptions := ⟨!flags.noConditionSkip⟩

def reportText (flags : Flags) (path text : String) : Report :=
  if flags.tokens then ⟨tokenListing text, [], .success⟩
  else
    match parse text flags.parseOptions with
    | .ok rule => ⟨rule.listing, [], .success⟩
    | .error error => ⟨"", [.diagnosed path text error.diagnostic], .faulty⟩

def reportFiles (flags : Flags) : List RuleFile → Report
  | [] => .empty
  | file :: files =>
    match file.contents with
    | .error fault => ⟨"", [.unreadable file.path fault], .unreadable⟩
    | .ok text => (reportText flags file.path text).append (reportFiles flags files)

end SignatureRules.CommandLine

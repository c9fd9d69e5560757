import SignatureRules.CommandLine.Report

namespace SignatureRules.CommandLine

/-- The fault behind a failed read; 21 is the system's number for a directory read as a file. -/
def ReadFault.ofError : IO.Error → ReadFault
  | .noFileOrDirectory .. => .missing
  | .inappropriateType _ 21 _ => .isDirectory
  | .inappropriateType .. => .notDirectory
  | error => .other (toString error)

def readRuleFile (path : String) : IO RuleFile := do
  try
    let bytes ← IO.FS.readBinFile path
    return ⟨path, decodeText bytes⟩
  catch error => return ⟨path, .error (.ofError error)⟩

def readRuleFiles : List String → IO (List RuleFile)
  | [] => return []
  | path :: paths => do
    let file ← readRuleFile path
    match file.contents with
    | .error _ => return [file]
    | .ok _ => return file :: (← readRuleFiles paths)

end SignatureRules.CommandLine

open SignatureRules.CommandLine in
def main (arguments : List String) : IO UInt32 := do
  let request := Request.ofArguments arguments
  let report := request.report (← readRuleFiles request.paths)
  IO.print report.output
  for notice in report.notices do
    for line in notice.lines do
      IO.eprintln line
  return report.status.code.toUInt32

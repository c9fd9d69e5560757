/-!
The arguments of the program: options and the paths of rule files, read from left to right. The
first argument that asks for help or for the version, or that is at fault, decides.
-/

namespace SignatureRules.CommandLine

structure Flags where
  tokens : Bool := false
  noConditionSkip : Bool := false
deriving DecidableEq, Repr

inductive UsageFault
  | noFiles
  | emptyPath
  | repeatedOption (option : String)
  | unknownOption (option : String)
  | unneededValue (option value : String)
deriving DecidableEq, Repr

inductive Request
  | summaryHelp
  | fullHelp
  | version
  | refuse (fault : UsageFault)
  | process (flags : Flags) (paths : List String)
deriving DecidableEq, Repr

inductive Switch
  | tokens
  | noConditionSkip
  | summaryHelp
  | fullHelp
  | version
deriving DecidableEq, Repr

namespace Switch

def ofLetter? : Char → Option Switch
  | 't' => some tokens
  | 'h' => some summaryHelp
  | 'V' => some version
  | _ => none

def ofWord? : String → Option Switch
  | "--tokens" => some tokens
  | "--no-condition-skip" => some noConditionSkip
  | "--help" => some fullHelp
  | "--version" => some version
  | _ => none

end Switch

/-- What the arguments read so far ask for, the latest path first. An empty path is refused when the
next switch or path comes or the arguments end, so that an option at fault right after it is refused
in its stead. -/
structure Gathered where
  flags : Flags := {}
  paths : List String := []
  emptyPath : Bool := false
deriving DecidableEq, Repr

namespace Gathered

def settle (gathered : Gathered) : Except Request Unit :=
  if gathered.emptyPath then .error (.refuse .emptyPath) else .ok ()

def addPath (gathered : Gathered) (path : String) : Except Request Gathered := do
  gathered.settle
  if path.isEmpty then .ok { gathered with emptyPath := true }
  else .ok { gathered with paths := path :: gathered.paths }

def addSwitch (gathered : Gathered) (switch : Switch) : Except Request Gathered := do
  gathered.settle
  let flags := gathered.flags
  match switch with
  | .summaryHelp => .error .summaryHelp
  | .fullHelp => .error .fullHelp
  | .version => .error .version
  | .tokens =>
    if flags.tokens then .error (.refuse (.repeatedOption "--tokens"))
    else .ok { gathered with flags := { flags with tokens := true } }
  | .noConditionSkip =>
    if flags.noConditionSkip then .error (.refuse (.repeatedOption "--no-condition-skip"))
    else .ok { gathered with flags := { flags with noConditionSkip := true } }

def addLetters (gathered : Gathered) : List Char → Except Request Gathered
  | [] => .ok gathered
  | letter :: letters =>
    match Switch.ofLetter? letter with
    | some switch => do addLetters (← gathered.addSwitch switch) letters
    | none => .error (.refuse (.unknownOption (String.ofList ['-', letter])))

def addLong (gathered : Gathered) (argument : List Char) : Except Request Gathered :=
  let option := String.ofList (argument.takeWhile (· != '='))
  match Switch.ofWord? option, argument.dropWhile (· != '=') with
  | none, _ => .error (.refuse (.unknownOption option))
  | some switch, [] => gathered.addSwitch switch
  | some _, _ :: value => .error (.refuse (.unneededValue option (String.ofList value)))

def addArgument (gathered : Gathered) (argument : String) : Except Request Gathered :=
  match argument.toList with
  | '-' :: '-' :: _ => gathered.addLong argument.toList
  | '-' :: letter :: letters => gathered.addLetters (letter :: letters)
  | _ => gathered.addPath argument

def addAll (gathered : Gathered) : List String → Except Request Gathered
  | [] => .ok gathered
  | argument :: arguments =>
    if argument = "--" then arguments.foldlM addPath gathered
    else do addAll (← gathered.addArgument argument) arguments

def request (gathered : Gathered) : Except Request Request := do
  gathered.settle
  if gathered.paths.isEmpty then .error (.refuse .noFiles)
  else .ok (.process gathered.flags gathered.paths.reverse)

end Gathered

def Request.ofArguments (arguments : List String) : Request :=
  match (({} : Gathered).addAll arguments).bind Gathered.request with
  | .ok request => request
  | .error request => request

end SignatureRules.CommandLine

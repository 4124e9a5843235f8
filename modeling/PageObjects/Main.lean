import PageObjects.Command.Outcome

namespace PageObjects

/-- The number of a system error and its text. -/
def systemError? : IO.Error → Option (UInt32 × String)
  | .noFileOrDirectory _ code reason | .inappropriateType _ code reason
  | .permissionDenied _ code reason | .resourceExhausted _ code reason
  | .invalidArgument _ code reason | .interrupted _ code reason | .noSuchThing _ code reason
  | .alreadyExists _ code reason | .resourceBusy code reason | .resourceVanished code reason
  | .unsupportedOperation code reason | .hardwareFault code reason
  | .unsatisfiedConstraints code reason | .illegalOperation code reason
  | .protocolError code reason | .timeExpired code reason | .otherError code reason =>
    some (code, reason)
  | .unexpectedEof | .userError _ => none

/-- What stands at a path that cannot be read. -/
def storedOfError (e : IO.Error) : Stored :=
  match systemError? e with
  | none | some (2, _) => .absent
  | some (20, _) => .beyondFile
  | some (21, _) => .folder
  | some (code, reason) => .failing code.toNat reason.toList

/-- What stands at a path now. -/
def lookAt (p : FilePath) : IO Stored := do
  try
    let bytes ← IO.FS.readBinFile (String.ofList p.toText)
    return .file bytes.toList
  catch e => return storedOfError e

/-- What stands at several paths. -/
def lookAtAll (paths : List FilePath) : IO (FilePath → Stored) := do
  let found ← paths.mapM fun p => do return (p, ← lookAt p)
  return fun p => (valueAt? p found).getD .absent

def writeFile (p : FilePath) (t : Text) : IO Unit := do
  IO.FS.createDirAll (String.ofList { p with parts := p.parts.dropLast }.toText)
  IO.FS.writeFile (String.ofList p.toText) (String.ofList t)

def usageText : String :=
  "usage: page-objects analyze [-c FILE] [-o DIR] [--compact] [-v] SCRIPT...\n" ++
  "       page-objects classify [--verb VERB] SELECTOR"

/-- Prints and writes an outcome. -/
def deliver (o : Outcome) : IO UInt32 := do
  for (p, t) in o.written do writeFile p t
  for m in o.messages do IO.eprintln (String.ofList m)
  if let some t := o.output then IO.print (String.ofList t)
  return o.exitCode.toUInt32

end PageObjects

open PageObjects in
/-- Carries out the command that the arguments ask for. -/
def main (args : List String) : IO UInt32 := do
  match Command.ofArguments (args.map String.toList) with
  | .error refusal =>
    IO.eprintln usageText
    deliver refusal.outcome
  | .ok command =>
    match command.run Yaml.read (← lookAtAll command.paths) with
    | .ok o => deliver o
    | .error e =>
      IO.eprintln (String.ofList e.message)
      return 1

import ConsoleOnline.Inspect.Command

/-!
The inspection tool as a program: it gathers what the command may need from its surroundings, and
prints the lines or the report.
-/
open ConsoleOnline ConsoleOnline.Inspect

/-- The number of a system error, which some operations give negated. -/
def systemCode (code : UInt32) : UInt32 := if code < 0x80000000 then code else 0 - code

def readFault (error : IO.Error) : ReadFault :=
  match error with
  | .noFileOrDirectory .. => .notFound
  | .inappropriateType _ code _ => if systemCode code = 20 then .notADirectory else .isDirectory
  | .invalidArgument _ code _ =>
    if systemCode code = 36 then .nameTooLong else .other (toString error)
  | error => .other (toString error)

def readSource (source : Source) : IO (Except ReadFault String) := do
  try
    let bytes ← match source with
      | .standardInput => (← IO.getStdin).readBinToEnd
      | .file path => IO.FS.readBinFile path
    match Text.Utf8.decode? bytes.toList with
    | some cs => pure (.ok (.ofList cs))
    | none => pure (.error .notUtf8)
  catch error => pure (.error (readFault error))

def drawBits : IO UInt64 := do
  let bytes ← IO.getRandomBytes 8
  pure (.ofNat (Bytes.ofBigEndian bytes.toList))

def main (arguments : List String) : IO UInt32 := do
  let names := [Settings.addressVariable, Settings.modeVariable]
  let values ← names.mapM fun name => do pure (name, ← IO.getEnv name)
  let document ← match (Command.ofArguments arguments).toOption.bind Command.source? with
    | some source => readSource source
    | none => pure (.error .notFound)
  let draws ← (List.range 8).mapM fun _ => drawBits
  let environment : Environment :=
    { lookup := fun name => (values.lookup name).join
      read := fun _ => document
      draws }
  match run environment arguments with
  | .ok lines =>
    for line in lines do
      IO.println line
    pure 0
  | .error failure =>
    IO.eprint failure.report
    pure 1

import ConsoleOnline.Document.Error

/-!
Why a command of the inspection tool fails, and how that is reported: what went wrong, and the
cause of it where another part of the library has found the fault.
-/
namespace ConsoleOnline.Inspect

def usage : String := "Usage: xonline-inspect <command>

Commands:
  settings                     Show the effective online settings
  session-id [online|system-link|server]
                               Generate a session id (default: per network mode)
  classify <hex>               Classify a 64-bit session id
  presence <xuid> <text>       Presence publish document and X_ONLINE_PRESENCE image
  resolve <file|->             Decode a user lookup response into FIND_USERS_RESPONSE
  friends <file|->             Decode a friends presence response into X_ONLINE_FRIEND images
  session <file|->             Decode a session document into XSESSION_LOCAL_DETAILS"

/-- Where a document is read from. -/
inductive Source where
  | standardInput
  | file (path : String)
  deriving DecidableEq, Repr

def Source.ofArgument (argument : String) : Source :=
  if argument = "-" then .standardInput else .file argument

def Source.description : Source → String
  | standardInput => "document from stdin"
  | file path => path

/-- Why a source gives no text. -/
inductive ReadFault where
  | notFound
  | notADirectory
  | isDirectory
  | nameTooLong
  | notUtf8
  | other (message : String)
  deriving DecidableEq, Repr

def ReadFault.message : ReadFault → String
  | notFound => "No such file or directory (os error 2)"
  | notADirectory => "Not a directory (os error 20)"
  | isDirectory => "Is a directory (os error 21)"
  | nameTooLong => "File name too long (os error 36)"
  | notUtf8 => "stream did not contain valid UTF-8"
  | other message => message

inductive Failure where
  | settings (error : OnlineError)
  | noCommand
  | unknownCommand (name : String)
  | missingArgument (what : String)
  | unknownTag (name : String)
  | noDraws
  | online (error : OnlineError)
  | reading (source : Source) (fault : ReadFault)
  | decoding (what : String) (error : DocumentError)
  deriving Repr

namespace Failure

def message : Failure → String
  | settings _ => "loading online settings"
  | noCommand => usage
  | unknownCommand name => "Unknown command: " ++ name ++ "\n\n" ++ usage
  | missingArgument what => "missing argument: " ++ what ++ "\n\n" ++ usage
  | unknownTag name => "Unknown session tag: " ++ name
  | noDraws => "no random bits for a session id"
  | online error => error.message
  | reading source _ => "reading " ++ source.description
  | decoding what _ => "decoding " ++ what

def cause? : Failure → Option String
  | settings error => some error.message
  | reading _ fault => some fault.message
  | decoding _ error => some error.message
  | _ => none

/-- Every line of a cause is indented. -/
def indented (text : String) : String :=
  .ofList ("    ".toList ++ text.toList.flatMap fun c => if c = '\n' then "\n    ".toList else [c])

def report (f : Failure) : String :=
  "Error: " ++ f.message ++ "\n" ++
    match f.cause? with
    | some cause => "\nCaused by:\n" ++ indented cause ++ "\n"
    | none => ""

end Failure

end ConsoleOnline.Inspect

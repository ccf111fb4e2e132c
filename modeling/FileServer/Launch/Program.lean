import FileServer.Launch.Arguments
import FileServer.Server
import FileServer.Service.Files
import FileServer.Settings

/-! What the program does with its arguments and surroundings: it prints a notice and ends, or it
serves the files under a root at an endpoint. The log level is checked before the address. -/
namespace FileServer

namespace Program

def name : String := "sluice"

def versionNotice : String := name ++ " 0.1.0\n"

def usage : String := "Usage: " ++ name ++ " [OPTIONS] <PORT> <DOCROOT> [MODEL]\n"

structure Plan where
  endpoint : Endpoint
  root : String
  settings : Settings
  deriving DecidableEq, Repr

inductive Outcome
  | notice (text : String)
  | failed (message : String)
  | serves (plan : Plan)
  deriving DecidableEq, Repr

def faultNotice : ArgumentFault → String
  | .invalidValue => "error: invalid value\n"
  | .valueValidation => "error: invalid port\n"
  | .unknownArgument => "error: unexpected argument\n"
  | .argumentConflict => "error: option used twice\n"
  | .tooManyValues => "error: unexpected value\n"
  | .missingRequired => "error: required arguments were not provided\n"

def notice : Refusal → String
  | .help => usage
  | .version => versionNotice
  | .fault fault => faultNotice fault ++ usage

def settingsOf (arguments : Arguments) (readFile : String → Except Failure Bytes) :
    Except SettingsFault Settings :=
  match arguments.config with
  | some file => Settings.ofFile (readFile file)
  | none => .ok {}

def plan (arguments : Arguments) (listen : Option String)
    (readFile : String → Except Failure Bytes) : Except SettingsFault Plan := do
  let settings ← settingsOf arguments readFile
  let settings := settings.overridden listen
  let _ ← settings.maxLevel
  let endpoint ← settings.listenOn arguments.port
  .ok ⟨endpoint, arguments.root, settings⟩

def withSocket (plan : Plan) : Except String Plan :=
  match Network.bind plan.endpoint with
  | .ok _ => .ok plan
  | .error cause => .error (Server.bindFault ++ ": " ++ cause.text)

def start (arguments : List String) (listen : Option String)
    (readFile : String → Except Failure Bytes) : Outcome :=
  match Arguments.read arguments with
  | .error refusal => .notice (notice refusal)
  | .ok arguments =>
    match plan arguments listen readFile with
    | .error fault => .failed (fault.message (arguments.config.getD ""))
    | .ok plan =>
      match withSocket plan with
      | .error message => .failed message
      | .ok plan => .serves plan

def service (repository : Repository) : Service := Service.guardedFiles repository .literal

end Program

end FileServer

import AccelControl.Config.Document
import AccelControl.Files

/-! Loading the configuration of a client from a file. -/

set_option autoImplicit false

namespace AccelControl

inductive ConfigError where
  | couldNotRead (path : String) (error : IoError)
  | invalidToml (path : String) (fault : DocumentFault)
  deriving DecidableEq, Repr

/-- The wording of an error, up to the description of what is wrong inside a file. -/
def ConfigError.message : ConfigError → String
  | .couldNotRead path error => "Could not read config file: " ++ path ++ ": " ++ error.message
  | .invalidToml path _ => "Invalid TOML in config file: " ++ path ++ ": "

def ClientConfig.load (fs : FileSystem) (path : String) : Except ConfigError ClientConfig :=
  match fs.readText path with
  | .error error => .error (.couldNotRead path error)
  | .ok text =>
    match ofToml text with
    | .error fault => .error (.invalidToml path fault)
    | .ok c => .ok c

end AccelControl

import AccelControl.Deprecation
import AccelControl.Duration.Basic
import AccelControl.IoError

/-! What a client reports while it works. -/

set_option autoImplicit false

namespace AccelControl

inductive LogLevel where
  | debug
  | info
  | warn
  deriving DecidableEq, Repr

def LogLevel.name : LogLevel → String
  | .debug => "DEBUG"
  | .info => "INFO"
  | .warn => "WARN"

inductive LogEvent where
  /-- A deprecated parameter was used. -/
  | deprecated (method : String) (notice : Notice)
  /-- Connecting failed and will be tried again. -/
  | retrying (addr : String) (error : IoError) (delay : Duration)
  | connected (addr : String)
  | request (method : String) (id : UInt64) (text : String)
  /-- The connection is out of step with the target and is about to be replaced. -/
  | reconnecting (addr : String)
  | response (method : String) (id : UInt64) (text : String)
  deriving DecidableEq, Repr

inductive LogValue where
  | text (s : String)
  | number (n : UInt64)
  deriving DecidableEq, Repr

namespace LogEvent

def level : LogEvent → LogLevel
  | .deprecated .. | .retrying .. | .reconnecting .. => .warn
  | .connected .. => .info
  | .request .. | .response .. => .debug

def message : LogEvent → String
  | .deprecated _ notice => notice.text
  | .retrying _ _ delay => "Connect failed, retrying in " ++ delay.text
  | .connected _ => "Connected to RPC server"
  | .request .. => "RPC request"
  | .reconnecting _ => "Connection out of sync with RPC server, reconnecting"
  | .response .. => "RPC response"

def fields : LogEvent → List (String × LogValue)
  | .deprecated method notice =>
    [("method", .text method), ("deprecated", .text notice.param.deprecated),
      ("canonical", .text notice.param.canonical)]
  | .retrying addr error _ => [("addr", .text addr), ("error", .text error.message)]
  | .connected addr => [("addr", .text addr)]
  | .request method id text =>
    [("method", .text method), ("id", .number id), ("request", .text text)]
  | .reconnecting addr => [("addr", .text addr)]
  | .response method id text =>
    [("method", .text method), ("id", .number id), ("response", .text text)]

end LogEvent

def Notice.report (method : String) (notices : List Notice) : List LogEvent :=
  notices.map (.deprecated method)

end AccelControl

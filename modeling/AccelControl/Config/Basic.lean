import AccelControl.Duration.Schema
import AccelControl.Schema.Record

/-! The configuration of a client: where the target listens, and how patient the client is. -/

set_option autoImplicit false

namespace AccelControl

structure ClientConfig where
  /-- The path of a socket, or the name or number of a host. -/
  serverAddr : String
  port : UInt16
  /-- How long a call waits for its response. -/
  timeout : Duration
  /-- How often connecting is tried again after a failure. -/
  connRetries : UInt64
  deriving DecidableEq, Repr

namespace ClientConfig

/-! What a field holds that has no value of its own. -/

namespace Defaults

def serverAddr : String := "/var/tmp/spdk.sock"

def port : UInt16 := 5260

def timeout : Duration := .minute

end Defaults

/-- The settings of a text that writes none of them, field by field. A count has no default but that of
all words. -/
def unwritten : ClientConfig where
  serverAddr := Defaults.serverAddr
  port := Defaults.port
  timeout := Defaults.timeout
  connRetries := Inhabited.default

def default : ClientConfig where
  serverAddr := Defaults.serverAddr
  port := Defaults.port
  timeout := Defaults.timeout
  connRetries := 0

def new (serverAddr : String) : ClientConfig := { default with serverAddr }

/-- Whether the address is the path of a socket: it starts with a slash or a point. -/
def isUnixSocket (c : ClientConfig) : Bool :=
  match c.serverAddr.toList.head? with
  | some first => first == '/' || first == '.'
  | none => false

/-- The address to connect to: a path as it is, and a host with the port behind a colon. A host
that holds colons itself stands in brackets. -/
def serverAddress (c : ClientConfig) : String :=
  let port := String.ofList (Text.decimal c.port.toNat)
  if c.isUnixSocket then c.serverAddr
  else if c.serverAddr.toList.contains ':' then "[" ++ c.serverAddr ++ "]:" ++ port
  else c.serverAddr ++ ":" ++ port

/-- The settings as JSON members in their declared order, the timeout in units. -/
def entries (c : ClientConfig) : List (String × Json) := [
  ("server_addr", .string c.serverAddr),
  ("port", .ofUInt64 c.port.toUInt64),
  ("timeout", .string c.timeout.units),
  ("conn_retries", .ofUInt64 c.connRetries)]

def toJson (c : ClientConfig) : Json := .object (Members.ofEntries c.entries)

/-- The settings as a record. Missing fields stay unwritten, and other names are passed over. -/
def record : Record ClientConfig where
  name := "ClientConfig"
  fields := [
    .of "server_addr" .string fun serverAddr c => { c with serverAddr },
    .of "port" .word16 fun port c => { c with port },
    .of "timeout" Duration.schema fun timeout c => { c with timeout },
    .of "conn_retries" .count fun connRetries c => { c with connRetries }]
  initial := unwritten
  strict := false

def schema : Schema ClientConfig := record.schema

end ClientConfig

end AccelControl

import AccelControl.Config.Basic
import AccelControl.Rpc.Client

/-! Connecting a client, with a fixed delay between attempts. -/

set_option autoImplicit false

namespace AccelControl

structure ConnectReport where
  result : Except RpcError Client
  logs : List LogEvent
  /-- How many attempts were made. -/
  attempts : Nat
  /-- The delays between the attempts. -/
  delays : List Duration

namespace Client

def retryDelay : Duration := { Duration.zero with nanos := 200000000, nanos_lt := by decide }

structure Attempts where
  /-- The failure of the last attempt, if it failed. -/
  failure : Option IoError
  /-- The failures that were followed by another attempt. -/
  retried : List IoError
  deriving DecidableEq, Repr

/-- Try to open a connection until it succeeds, again at most `retries` times. The attempt of each
number fails or succeeds as `attempt` says. -/
def tryOpen (attempt : Nat → Option IoError) : (retries number : Nat) → Attempts
  | retries, number =>
    match attempt number with
    | none => ⟨none, []⟩
    | some error =>
      match retries with
      | 0 => ⟨some error, []⟩
      | retries + 1 =>
        let later := tryOpen attempt retries (number + 1)
        { later with retried := error :: later.retried }

def connect (config : ClientConfig) (attempt : Nat → Option IoError) : ConnectReport :=
  let addr := config.serverAddress
  let attempts := tryOpen attempt config.connRetries.toNat 0
  let retries := attempts.retried.map fun error => LogEvent.retrying addr error retryDelay
  let report (result : Except RpcError Client) (logs : List LogEvent) : ConnectReport :=
    { result, logs, attempts := attempts.retried.length + 1
      delays := attempts.retried.map fun _ => retryDelay }
  match attempts.failure with
  | none => report (.ok (fresh addr config.timeout)) (retries ++ [.connected addr])
  | some error => report (.error (.connect addr error)) retries

end Client

end AccelControl

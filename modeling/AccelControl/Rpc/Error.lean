import AccelControl.Duration.Basic
import AccelControl.IoError
import AccelControl.Schema.Mismatch
import AccelControl.Schema.Position

/-! How a remote procedure call can fail. -/

set_option autoImplicit false

namespace AccelControl

inductive BadResponse where
  /-- They are no JSON. -/
  | malformed
  /-- They are JSON of another shape. -/
  | unfit (description : String)
  deriving DecidableEq, Repr

inductive RpcError where
  | connect (addr : String) (source : IoError)
  | io (source : IoError)
  | timeout (method : String) (limit : Duration)
  | serialize (method : String) (description : String)
  | deserialize (body : String) (cause : BadResponse)
  /-- The target answered with an error. -/
  | remote (code : Int64) (message : String)
  | idMismatch (expected : UInt64) (actual : String)
  | connectionClosed
  /-- The response has neither a result nor an error. -/
  | missingResult
  deriving DecidableEq, Repr

namespace RpcError

/-- The wording of a failure. The wording of what is wrong inside malformed JSON is left open. -/
def message : RpcError → String
  | .connect addr source => "Could not connect to RPC server at " ++ addr ++ ": " ++ source.message
  | .io source => "I/O error talking to RPC server: " ++ source.message
  | .timeout method limit =>
    "Timed out after " ++ limit.text ++ " waiting for response to " ++ method
  | .serialize method description =>
    "Could not serialize request for " ++ method ++ ": " ++ withPosition description
  | .deserialize body cause =>
    "Could not deserialize response. Body: " ++ body ++ ". "
      ++ (match cause with
        | .malformed => ""
        | .unfit description => withPosition description)
  | .remote code text =>
    "RPC server returned error " ++ String.ofList (Text.signedDecimal code.toInt) ++ ": " ++ text
  | .idMismatch expected actual =>
    "Response id " ++ actual ++ " does not match request id "
      ++ String.ofList (Text.decimal expected.toNat)
  | .connectionClosed => "RPC server closed the connection before a full response arrived"
  | .missingResult => "Response carries neither a result nor an error"

end RpcError

end AccelControl

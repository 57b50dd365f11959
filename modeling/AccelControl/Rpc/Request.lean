import AccelControl.Json.Printer
import AccelControl.ParamMap
import AccelControl.Text.Utf8

/-! Requests as they are sent. -/

set_option autoImplicit false

namespace AccelControl

structure Request where
  method : String
  id : UInt64
  params : ParamMap

namespace Request

/-- The members of a request in the order in which they are sent. Without any parameters there is
no member for them. -/
def entries (r : Request) : List (String × Json) :=
  [("jsonrpc", .string "2.0"), ("method", .string r.method), ("id", .ofUInt64 r.id)]
    ++ if r.params.isEmpty then [] else [("params", r.params.toJson)]

def toJson (r : Request) : Json := .object r.entries

def text (r : Request) : String := r.toJson.render

def bytes (r : Request) : Bytes := Utf8.ofString r.text

end Request

end AccelControl

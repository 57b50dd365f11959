import AccelControl.Rpc.Caller

/-! A caller that keeps a record of its calls and answers them from a prepared list. -/

set_option autoImplicit false

namespace AccelControl

structure Recorder where
  calls : List (String × ParamMap)
  answers : List (Except String Json)

namespace Recorder

def start (answers : List (Except String Json)) : Recorder := ⟨[], answers⟩

/-- Record a call and give the next answer; null when there is none. -/
def record (method : String) (params : ParamMap) (r : Recorder) :
    Answer Recorder (Except String Json) where
  result := r.answers.headD (.ok .null)
  logs := []
  state := ⟨r.calls ++ [(method, params)], r.answers.tail⟩

def caller : Caller Recorder (Except String Json) := ⟨record⟩

end Recorder

end AccelControl

import AccelControl.Proofs.Json.Framing
import AccelControl.Rpc.Client

/-! Waiting for a value while bytes arrive.

A wait takes what has arrived in its order, and stops as soon as the bytes hold a value. A text that
is taken off a buffer when its last byte is there is received in whatever pieces it arrives.
-/

set_option autoImplicit false

namespace AccelControl.Client

variable {buffer rest : Bytes} {arrivals : List Arrival}

theorem receive_of_value {v : Json} (taken : Json.take buffer = .value v rest) :
    receive buffer arrivals = ⟨.value v, rest, [], arrivals⟩ := by
  rw [receive.eq_def, taken]

theorem receive_bytes (taken : Json.take buffer = .incomplete) (first : UInt8) (more : Bytes) :
    receive buffer (.bytes first more :: arrivals)
      = { receive (buffer ++ first :: more) arrivals with
          read := .bytes first more :: (receive (buffer ++ first :: more) arrivals).read } := by
  rw [receive.eq_def, taken]

theorem receive_split (buffer : Bytes) (arrivals : List Arrival) :
    (receive buffer arrivals).read ++ (receive buffer arrivals).unread = arrivals := by
  fun_induction receive buffer arrivals with
  | case4 buffer taken first more arrivals wait ih => rw [List.cons_append, ih]
  | _ => rfl

@[simp] theorem arrivedBytes_nil : arrivedBytes [] = [] := rfl

theorem arrivedBytes_append (first second : List Arrival) :
    arrivedBytes (first ++ second) = arrivedBytes first ++ arrivedBytes second := by
  simp [arrivedBytes]

theorem arrivedBytes_pieces (pieces : List (UInt8 × Bytes)) :
    arrivedBytes (pieces.map fun piece => .bytes piece.1 piece.2)
      = pieces.flatMap fun piece => piece.1 :: piece.2 := by
  simp [arrivedBytes, List.flatMap_map]

-- A received value is taken off all bytes that were there when the wait ended.
theorem receive_value {v : Json} (received : (receive buffer arrivals).received = .value v) :
    Json.take (buffer ++ arrivedBytes (receive buffer arrivals).read)
      = .value v (receive buffer arrivals).buffer := by
  fun_induction receive buffer arrivals with
  | case1 buffer arrivals w rest taken =>
    cases received
    rwa [arrivedBytes_nil, List.append_nil]
  | case4 buffer taken first more arrivals wait ih =>
    have taken := ih received
    rwa [List.append_assoc] at taken
  | _ => cases received

theorem receive_failed {e : RpcError} (failed : (receive buffer arrivals).received = .failed e) :
    (Outcome.error e).isAnswer = false := by
  fun_induction receive buffer arrivals with
  | case4 buffer taken first more arrivals wait ih => exact ih failed
  | _ => cases failed <;> rfl

theorem receive_behind_text {text : Bytes} {v : Json} (framed : Json.Framed text v) (extra : Bytes)
    (pieces : List (UInt8 × Bytes)) :
    let wait := receive (text ++ extra) (pieces.map fun piece => .bytes piece.1 piece.2)
    wait.received = .value v ∧ wait.buffer ++ arrivedBytes wait.unread
      = extra ++ pieces.flatMap fun piece => piece.1 :: piece.2 := by
  rw [receive_of_value (framed.whole extra)]
  exact ⟨rfl, congrArg (extra ++ ·) (arrivedBytes_pieces pieces)⟩

/-- A text is received in whatever pieces it arrives. What stands behind it stays on the buffer, as
far as it has been read, and what has not been read stays where it is. -/
theorem receive_framed {text more : Bytes} {v : Json} (framed : Json.Framed text v)
    (pieces : List (UInt8 × Bytes)) (buffer : Bytes)
    (split : buffer ++ pieces.flatMap (fun piece => piece.1 :: piece.2) = text ++ more) :
    let wait := receive buffer (pieces.map fun piece => .bytes piece.1 piece.2)
    wait.received = .value v ∧ wait.buffer ++ arrivedBytes wait.unread = more := by
  -- As long as the buffer is shorter than the text nothing is taken off it, so the wait takes another
  -- piece.
  induction pieces generalizing buffer with
  | nil =>
    rw [List.flatMap_nil, List.append_nil] at split
    obtain ⟨received, left⟩ := receive_behind_text framed more []
    rw [split]
    exact ⟨received, left.trans (List.append_nil more)⟩
  | cons piece pieces ih =>
    by_cases enough : text.length ≤ buffer.length
    · obtain ⟨extra, rfl⟩ : text <+: buffer :=
        List.prefix_of_prefix_length_le ⟨_, rfl⟩ ⟨_, split⟩ enough
      obtain ⟨received, left⟩ := receive_behind_text framed extra (piece :: pieces)
      rw [List.append_assoc, List.append_cancel_left_eq] at split
      exact ⟨received, left.trans split⟩
    · -- The text goes beyond the buffer, so the wait reads on.
      obtain ⟨lacking, rfl⟩ : buffer <+: text :=
        List.prefix_of_prefix_length_le ⟨_, split⟩ ⟨_, rfl⟩ (Nat.le_of_not_le enough)
      have lacks : lacking ≠ [] := by
        rintro rfl
        exact enough (by simp)
      rw [List.map_cons, receive_bytes (framed.short buffer lacking rfl lacks)]
      apply ih (buffer ++ piece.1 :: piece.2)
      rw [← split, List.flatMap_cons, List.append_assoc]

end AccelControl.Client

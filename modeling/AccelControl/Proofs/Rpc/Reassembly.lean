import AccelControl.Proofs.Rpc.Answer

/-! Responses that arrive in pieces.

A response is received in whatever pieces the reads bring it, and the read that brings its last byte is
the last one. If the bytes break off before, the call waits until its deadline or until the connection
is closed, and takes nothing for a response.
-/

set_option autoImplicit false

namespace AccelControl

def Arrival.pieces (pieces : List (UInt8 × Bytes)) : List Arrival :=
  pieces.map fun piece => .bytes piece.1 piece.2

namespace Json

variable {text : Bytes} {v : Json}

theorem Framed.takeEach_front (framed : Framed text v) {front back : Bytes}
    (split : text = front ++ back) (lacks : back ≠ []) :
    takeEach [] [front] = [(.incomplete, front)] := by
  simp only [takeEach, List.nil_append, framed.short front back split lacks]

theorem Framed.takeEach_whole (framed : Framed text v) (extra : Bytes) :
    takeEach [] [text ++ extra] = [(.value v extra, extra)] := by
  simp only [takeEach, List.nil_append, framed.whole extra]

end Json

namespace Client

variable {text : Bytes} {v : Json} {later : List Arrival}

theorem arrivedBytes_pieces_cons (piece : UInt8 × Bytes) (pieces : List (UInt8 × Bytes)) :
    arrivedBytes (Arrival.pieces (piece :: pieces))
      = piece.1 :: piece.2 ++ arrivedBytes (Arrival.pieces pieces) := rfl

-- As long as the pieces do not make up the text the wait takes them all.
theorem receive_front (framed : Json.Framed text v) (pieces : List (UInt8 × Bytes))
    {buffer back : Bytes} (split : text = buffer ++ arrivedBytes (Arrival.pieces pieces) ++ back)
    (lacks : back ≠ []) : receive buffer (Arrival.pieces pieces ++ later)
      = { receive (buffer ++ arrivedBytes (Arrival.pieces pieces)) later with
          read := Arrival.pieces pieces
            ++ (receive (buffer ++ arrivedBytes (Arrival.pieces pieces)) later).read } := by
  induction pieces generalizing buffer with
  | nil =>
    have same : buffer ++ arrivedBytes (Arrival.pieces []) = buffer := List.append_nil buffer
    rw [same]
    rfl
  | cons piece pieces ih =>
    have waits : Json.take buffer = .incomplete := by
      refine framed.short buffer _ (split.trans (List.append_assoc _ _ _)) fun none => ?_
      exact lacks (List.append_eq_nil_iff.1 none).2
    have longer : buffer ++ arrivedBytes (Arrival.pieces (piece :: pieces))
        = buffer ++ piece.1 :: piece.2 ++ arrivedBytes (Arrival.pieces pieces) := by
      rw [arrivedBytes_pieces_cons, List.append_assoc]
    rw [longer] at split ⊢
    have rest := ih split
    rw [Arrival.pieces, List.map_cons, List.cons_append, receive_bytes waits]
    rw [Arrival.pieces] at rest
    rw [rest]
    rfl

/-- The last one of these reads, behind a buffer, is the one that completes a text. It leaves the rest
of what it brings. -/
structure Completes (buffer text rest : Bytes) (read : List Arrival) : Prop where
  whole : buffer ++ arrivedBytes read = text ++ rest
  short : ∃ before last missing, read = before ++ [last] ∧ missing ≠ [] ∧
    text = buffer ++ arrivedBytes before ++ missing

theorem Completes.behind {buffer rest : Bytes} {read : List Arrival} {first : UInt8} {more : Bytes}
    (completes : Completes (buffer ++ first :: more) text rest read) :
    Completes buffer text rest (.bytes first more :: read) where
  whole := by
    rw [← completes.whole, List.append_assoc]
    rfl
  short := by
    obtain ⟨before, last, missing, rfl, lacks, split⟩ := completes.short
    refine ⟨.bytes first more :: before, last, missing, rfl, lacks, ?_⟩
    rw [split, List.append_assoc buffer]
    rfl

-- The wait ends with the piece that completes the text, whatever would arrive after it.
theorem receive_last (framed : Json.Framed text v) {buffer lacking extra more : Bytes}
    {first : UInt8} (split : text = buffer ++ lacking) (lacks : lacking ≠ [])
    (reaches : first :: more = lacking ++ extra) :
    let wait := receive buffer (.bytes first more :: later)
    wait.received = .value v ∧ Completes buffer text wait.buffer wait.read := by
  have whole : buffer ++ first :: more = text ++ extra := by
    rw [split, reaches, List.append_assoc]
  rw [receive_bytes (framed.short buffer lacking split lacks), whole,
    receive_of_value (framed.whole extra)]
  refine ⟨rfl, ?_, [], .bytes first more, lacking, rfl, lacks, ?_⟩
  · rw [← whole]
    exact congrArg (buffer ++ ·) (List.append_nil _)
  · rw [arrivedBytes_nil, List.append_nil, split]

theorem receive_whole (framed : Json.Framed text v) (pieces : List (UInt8 × Bytes))
    (later : List Arrival) {buffer lacking extra : Bytes} (split : text = buffer ++ lacking) (lacks : lacking ≠ [])
    (whole : arrivedBytes (Arrival.pieces pieces) = lacking ++ extra) :
    let wait := receive buffer (Arrival.pieces pieces ++ later)
    wait.received = .value v ∧ Completes buffer text wait.buffer wait.read := by
  induction pieces generalizing buffer lacking with
  | nil => exact absurd (List.append_eq_nil_iff.1 whole.symm).1 lacks
  | cons piece pieces ih =>
    rw [arrivedBytes_pieces_cons] at whole
    -- Either this piece reaches to the end of the text, or something is missing behind it.
    by_cases reaches : lacking <+: piece.1 :: piece.2
    · obtain ⟨extra', same⟩ := reaches
      exact receive_last framed split lacks same.symm
    · rcases List.append_eq_append_iff.1 whole with ⟨missing, same, behind⟩ | ⟨more, same, -⟩
      · have lacks' : missing ≠ [] := by
          rintro rfl
          rw [List.append_nil] at same
          exact reaches (same ▸ List.prefix_rfl)
        rw [Arrival.pieces, List.map_cons, List.cons_append, ← Arrival.pieces,
          receive_bytes (framed.short buffer lacking split lacks)]
        rw [same, ← List.append_assoc] at split
        obtain ⟨received, completes⟩ := ih split lacks' behind
        exact ⟨received, completes.behind⟩
      · exact absurd ⟨more, same.symm⟩ reaches

section exchange

variable {c : Client} {request : Request} {acts : List Act} {x : Exchange}

theorem exchange_of_interrupted (complete : x.sending = .complete)
    (received : (receive c.buffer x.arrivals).received = .interrupted) :
    (c.exchange request acts x).outcome = c.interrupted request.method x.interruption ∧
      (c.exchange request acts x).client.stale = true := by
  simp only [exchange, complete, received, and_self]

theorem exchange_of_failed {error : RpcError} (complete : x.sending = .complete)
    (received : (receive c.buffer x.arrivals).received = .failed error) :
    (c.exchange request acts x).outcome = .error error ∧
      (c.exchange request acts x).client.stale = true := by
  simp only [exchange, complete, received, and_self]

end exchange

section call

variable {c : Client} {method : String} {params : ParamMap} {e : Episode}
variable {pieces : List (UInt8 × Bytes)}

theorem call_of_whole (framed : Json.Framed text v) (sync : c.stale = false)
    (empty : c.buffer = []) (complete : e.sending = .complete)
    (arrive : e.arrivals = Arrival.pieces pieces ++ later) {extra : Bytes}
    (whole : arrivedBytes (Arrival.pieces pieces) = text ++ extra) :
    let r := c.call method params e
    r.outcome = (conclude c.nextId v).1 ∧ r.client.stale = (conclude c.nextId v).2 ∧
      Completes [] text r.client.buffer r.read := by
  have begun : text ≠ [] := by
    rintro rfl
    exact nomatch framed.whole []
  obtain ⟨received, completes⟩ := receive_whole framed pieces later
    (List.nil_append text).symm begun whole
  rw [← arrive] at received completes
  have unused : c.numbered.buffer = [] := empty
  rw [← unused] at received
  have read : (c.numbered.exchange (c.asking method params)
      [(c.asking method params).announcement] e.toExchange).read = _ :=
    read_of_value rfl complete received
  rw [call_of_sync method params e sync]
  dsimp only
  rw [read, exchange_of_value (c := c.numbered) complete received, unused]
  exact ⟨rfl, rfl, completes⟩

theorem call_of_front (framed : Json.Framed text v) (sync : c.stale = false)
    (empty : c.buffer = []) (complete : e.sending = .complete)
    (arrive : e.arrivals = Arrival.pieces pieces ++ later) {back : Bytes}
    (split : text = arrivedBytes (Arrival.pieces pieces) ++ back) (lacks : back ≠ []) :
    let r := c.call method params e
    (later = [] → r.outcome = c.interrupted method e.interruption ∧ r.client.stale = true) ∧
      (∀ more, later = .closed :: more →
        r.outcome = .error .connectionClosed ∧ r.client.stale = true) ∧
      ∀ error more, later = .failed error :: more →
        r.outcome = .error (.io error) ∧ r.client.stale = true := by
  have unused : c.numbered.buffer = [] := empty
  have received : (receive c.numbered.buffer e.arrivals).received
      = (receive (arrivedBytes (Arrival.pieces pieces)) later).received := by
    rw [unused, arrive, receive_front framed pieces split lacks]
    rfl
  have waits := framed.short _ _ split lacks
  rw [call_of_sync method params e sync]
  refine ⟨?_, ?_, ?_⟩
  · rintro rfl
    apply exchange_of_interrupted complete
    rw [received, receive.eq_def, waits]
  · rintro more rfl
    apply exchange_of_failed complete
    rw [received, receive.eq_def, waits]
  · rintro error more rfl
    apply exchange_of_failed complete
    rw [received, receive.eq_def, waits]

end call

/-- A text of white space and one array or object, in which all numbers are short, is taken off a
buffer when all of it is there, whatever stands behind it, and nothing before. A call on a connection
that is in step, with nothing on its buffer, comes to what the value of the text means for its id, in
whatever pieces the reads bring the text and whatever would come after them; the last read is the one
that completes the text. If the text breaks off, the call ends by its deadline, by being given up, or
with what the connection ends with, and leaves the connection out of step. -/
theorem call_reassembles {text : Bytes} {v : Json} (read : Json.readValue text = .ok (v, []))
    (parts : v.HasParts) (short : Json.ShortNumbers text) :
    (∀ front back, text = front ++ back → back ≠ [] →
        Json.takeEach [] [front] = [(.incomplete, front)]) ∧
      (∀ extra, Json.takeEach [] [text ++ extra] = [(.value v extra, extra)]) ∧
      ∀ (c : Client) (method : String) (params : ParamMap) (e : Episode)
        (pieces : List (UInt8 × Bytes)) (later : List Arrival),
        c.stale = false → c.buffer = [] → e.sending = .complete →
        e.arrivals = Arrival.pieces pieces ++ later →
        let r := c.call method params e
        (∀ extra, arrivedBytes (Arrival.pieces pieces) = text ++ extra →
          r.outcome = (conclude c.nextId v).1 ∧ r.client.stale = (conclude c.nextId v).2 ∧
            Completes [] text r.client.buffer r.read) ∧
        ∀ back, text = arrivedBytes (Arrival.pieces pieces) ++ back → back ≠ [] →
          (later = [] → r.outcome = c.interrupted method e.interruption ∧ r.client.stale = true) ∧
            (∀ more, later = .closed :: more →
              r.outcome = .error .connectionClosed ∧ r.client.stale = true) ∧
            ∀ error more, later = .failed error :: more →
              r.outcome = .error (.io error) ∧ r.client.stale = true := by
  have framed := Json.framed_of_readValue read parts short
  refine ⟨fun front back => framed.takeEach_front, framed.takeEach_whole, ?_⟩
  intro c method params e pieces later sync empty complete arrive
  refine ⟨fun extra whole => ?_, fun back split lacks => ?_⟩
  · exact call_of_whole framed sync empty complete arrive whole
  · exact call_of_front framed sync empty complete arrive split lacks

/-- A response behind a line feed, with a character that is written as two escapes. -/
def escapedText : Bytes :=
  0x0A :: Utf8.ofString "\x7b\"id\":1,\"result\":[\"\\ud83d\\ude00\",15e-1]\x7d"

/-- The first read brings the text as far as the middle of the first escape. -/
def escapedPieces : List (UInt8 × Bytes) :=
  [(0x0A, (escapedText.take 24).tail), (0x33, escapedText.drop 25 ++ [0x5B])]

/-- The second read brings the rest and a bracket behind it, and a third one would find the connection
closed. -/
def escapedEpisode : Episode :=
  ⟨⟨.complete, Arrival.pieces escapedPieces ++ [.closed], .deadline⟩, .opened⟩

theorem call_reassembles_escapedText : ∃ v, Json.readValue escapedText = .ok (v, []) ∧
    v.HasParts ∧ Json.ShortNumbers escapedText ∧
    let r := (fresh "./rpc.sock" .minute).call "first" .empty escapedEpisode
    r.outcome = (conclude 1 v).1 ∧ r.client.stale = (conclude 1 v).2 ∧
      Completes [] escapedText r.client.buffer r.read := by
  have object : (Json.readValue escapedText).toOption.map (fun found => (found.1.token, found.2))
      = some (.openObject, []) := by decide +kernel
  cases read : Json.readValue escapedText with
  | error fault =>
    rw [read] at object
    cases object
  | ok found =>
    obtain ⟨v, rest⟩ := found
    rw [read] at object
    simp only [Except.toOption, Option.map_some, Option.some.injEq, Prod.mk.injEq] at object
    obtain ⟨token, rfl⟩ := object
    have parts : v.HasParts := by
      cases v <;> cases token
      trivial
    have short : Json.ShortNumbers escapedText := by decide +kernel
    refine ⟨v, rfl, parts, short, ?_⟩
    have whole := (call_reassembles read parts short).2.2 (fresh "./rpc.sock" .minute) "first"
      .empty escapedEpisode escapedPieces [.closed] rfl rfl rfl rfl
    exact whole.1 [0x5B] (by decide +kernel)

end Client

end AccelControl

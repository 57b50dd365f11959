import AccelControl.Config.Basic
import AccelControl.Rehearsal.Host
import AccelControl.Rpc.Client

/-! A target that follows a script, in a time that passes only when nothing else can happen.

For each request on a connection the script has a reply: chunks, which are written one at a time as
the client waits for them; bytes that come after the call has ended; and whether the connection is
closed then.
-/

set_option autoImplicit false

namespace AccelControl.Rehearsal

structure Reply where
  chunks : List Bytes
  late : List Bytes
  close : Bool
  deriving DecidableEq, Repr

inductive Departure where
  /-- Nothing: the path of the socket is removed. -/
  | unlinked
  /-- A path at which nobody listens. -/
  | refusing
  deriving DecidableEq, Repr

structure Script where
  /-- The replies of each connection that the target accepts. -/
  connections : List (List Reply)
  departure : Departure
  /-- How many attempts to connect fail before the target appears. -/
  appearAfter : Nat
  deriving DecidableEq, Repr

/-- The newest connection, as the system holds it. -/
structure Link where
  /-- The bytes that the target has written and the client has not read. -/
  waiting : Bytes
  /-- Whether the target has closed the connection. -/
  closed : Bool
  replies : List Reply
  deriving DecidableEq, Repr

structure Target where
  site : Site
  departure : Departure
  /-- The connections still to be accepted. -/
  coming : List (List Reply)
  accepted : Nat
  link : Link
  deriving DecidableEq, Repr

/-- What a reply brings to a client that reads on: a chunk is read to its end before the next one
is written. -/
def arrivalsOf : Nat → Bytes → List Arrival
  | 0, _ => []
  | _ + 1, [] => []
  | bound + 1, b :: s =>
    .bytes b (s.take (readSize - 1)) :: arrivalsOf bound (s.drop (readSize - 1))

def arrivals (bytes : Bytes) : List Arrival := arrivalsOf bytes.length bytes

namespace Link

/-- The reply to the next request. A request beyond the script meets with silence. -/
def reply (link : Link) : Reply := link.replies.headD ⟨[], [], false⟩

def arrivals (link : Link) : List Arrival :=
  Rehearsal.arrivals link.waiting ++ link.reply.chunks.flatMap Rehearsal.arrivals
    ++ if link.reply.close then [.closed] else []

/-- The connection after a call whose request was written: what the call did not read waits, with
the late bytes behind it. -/
def settled (link : Link) (unread : List Arrival) : Link where
  waiting := arrivedBytes unread ++ link.reply.late.flatten
  closed := link.closed || link.reply.close
  replies := link.replies.tail

end Link

namespace Target

def start (config : ClientConfig) (script : Script) : Target where
  site := if config.isUnixSocket then siteAt host config.serverAddr else .barred .networkUnreachable
  departure := script.departure
  coming := script.connections
  accepted := 0
  link := ⟨[], true, []⟩

def absence (t : Target) : IoError :=
  match t.departure with
  | .unlinked => .notFound
  | .refusing => .connectionRefused

def accept (t : Target) : Except IoError Target :=
  match t.site, t.coming with
  | .barred error, _ => .error error
  | .free, [] => .error t.absence
  | .free, replies :: coming =>
    .ok { t with coming, accepted := t.accepted + 1, link := ⟨[], false, replies⟩ }

def attempt (t : Target) (appearAfter : Nat) (number : Nat) : Option IoError :=
  match t.site with
  | .barred error => some error
  | .free =>
    if number < appearAfter then some .notFound
    else
      match t.accept with
      | .ok _ => none
      | .error error => some error

end Target

end AccelControl.Rehearsal

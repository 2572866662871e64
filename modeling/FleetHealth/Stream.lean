/-!
The dashboard stream: a channel that keeps the latest published value, and one subscriber that
sends it on. The subscriber first sends the value it finds, and then each value it is told of; it
reads the channel only when told, so values published in between are passed over. Between any two
of its moves others may publish, end publishing or leave.
-/
namespace FleetHealth

/-- The latest value, how many were published, and whether more may come. -/
structure Channel (α : Type) where
  latest : α
  version : Nat
  isOpen : Bool
  deriving DecidableEq, Repr

namespace Channel

variable {α : Type}

def publish (c : Channel α) (a : α) : Channel α :=
  if c.isOpen then { c with latest := a, version := c.version + 1 } else c

def close (c : Channel α) : Channel α := { c with isOpen := false }

end Channel

inductive StreamPhase (α : Type) where
  /- The channel has not been read. -/
  | connecting
  /- A change or a ping may come up. -/
  | waiting
  /- A change has come up and the channel has not been read since. -/
  | told
  /- The value read last is on its way. -/
  | sending (a : α)
  | pinging
  | ended
  deriving DecidableEq, Repr

/-- A subscriber and its channel. What the client received comes latest first. -/
structure Stream (α : Type) where
  channel : Channel α
  seen : Nat
  phase : StreamPhase α
  clientGone : Bool
  received : List α
  pings : Nat
  deriving DecidableEq, Repr

inductive StreamMove (α : Type) where
  | publish (a : α)
  | dropPublisher
  | dropClient
  /- The subscriber asks for a change. -/
  | notice
  /- It reads the channel, at first or once it was told of a change. -/
  | read
  /- The value on its way arrives. -/
  | sent
  | ping
  | pinged
  /- The value or ping on its way does not arrive in time. -/
  | lost
  deriving DecidableEq, Repr

inductive StreamEvent (α : Type) where
  | publish (a : α)
  | dropPublisher
  | dropClient
  | connect
  | notice
  | ping
  deriving DecidableEq, Repr

namespace Stream

variable {α : Type}

def start (a : α) : Stream α := ⟨⟨a, 0, true⟩, 0, .connecting, false, [], 0⟩

/- A change counts as seen once the subscriber is told of it, and whatever it then reads does too.
   Without a change an open channel keeps it waiting and a closed one ends the stream. -/
def move (s : Stream α) : StreamMove α → Stream α
  | .publish a => { s with channel := s.channel.publish a }
  | .dropPublisher => { s with channel := s.channel.close }
  | .dropClient => { s with clientGone := true }
  | .notice =>
    match s.phase with
    | .waiting =>
      if s.seen ≠ s.channel.version then { s with seen := s.channel.version, phase := .told }
      else if s.channel.isOpen then s
      else { s with phase := .ended }
    | _ => s
  | .read =>
    match s.phase with
    | .connecting | .told =>
      { s with seen := s.channel.version, phase := .sending s.channel.latest }
    | _ => s
  | .sent =>
    match s.phase with
    | .sending a => { s with phase := .waiting, received := a :: s.received }
    | _ => s
  | .ping =>
    match s.phase with
    | .waiting => { s with phase := .pinging }
    | _ => s
  | .pinged =>
    match s.phase with
    | .pinging => { s with phase := .waiting, pings := s.pings + 1 }
    | _ => s
  | .lost =>
    match s.phase with
    | .sending _ | .pinging => { s with phase := .ended }
    | _ => s

def moves (s : Stream α) (ms : List (StreamMove α)) : Stream α := ms.foldl move s

/-- The moves of an event that nothing interrupts; what is sent to a client that is gone is lost. -/
def movesOf (s : Stream α) : StreamEvent α → List (StreamMove α)
  | .publish a => [.publish a]
  | .dropPublisher => [.dropPublisher]
  | .dropClient => [.dropClient]
  | .connect =>
    match s.phase with
    | .connecting => [.read, if s.clientGone then .lost else .sent]
    | _ => []
  | .notice => [.notice] ++
    match (s.move .notice).phase with
    | .told => [.read, if s.clientGone then .lost else .sent]
    | _ => []
  | .ping => [.ping, if s.clientGone then .lost else .pinged]

def step (s : Stream α) (e : StreamEvent α) : Stream α := s.moves (s.movesOf e)

def run (s : Stream α) (events : List (StreamEvent α)) : Stream α := events.foldl step s

/- Pings are due when the client connects and then every half minute. -/
def pingPeriod : Nat := 30000

/-- How many pings fall due after one moment and up to another. -/
def pingsBetween (since horizon : Nat) : Nat := horizon / pingPeriod - since / pingPeriod

/-- Lets so many milliseconds pass from a moment on, in which pending changes are noticed first. -/
def wait (s : Stream α) (since millis : Nat) : Stream α :=
  (s.run [.notice, .notice]).run
    (List.replicate (pingsBetween since (since + millis)) .ping)

end Stream
end FleetHealth

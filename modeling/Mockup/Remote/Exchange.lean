import Mockup.Fault
import Mockup.Json.Encoded

/-!
# Talking to the remote side

Documents are fetched by requests. What comes of a request is not in the hands of the program, so it
is given from outside as a stream of outcomes; the program consumes them one by one, and what it
sent and how long it waited is kept in a session, in the order in which it happened.

Waiting is not in the hands of the program either. What waits is a parameter of the session: it
takes a pause, or it refuses the pause for its length.

* `Request`, `Reply`, `Outcome` — what is sent, and what comes of it;
* `Timer`, `Timer.standard` — what waits, and the one that a machine has;
* `Event`, `Session` — the outcomes to come, with a record of the requests and pauses so far;
* `Exchange` — work on a session;
* `Exchange.ask`, `Exchange.pause` — one request, and one pause.
-/

namespace Mockup

/-- **A request** for a resource: its address, the nodes asked for, the time after which it is given
up, and the token that allows it. -/
structure Request where
  url : String
  ids : Option String
  timeout : Json
  token : String

/-- **A reply**: a status and a body, as far as that is readable JSON. -/
structure Reply where
  status : Int
  body : Except Json.ReadError Json

/-- The reply with a status and the bytes of a body. -/
def Reply.ofBytes (status : Int) (bytes : ByteArray) : Reply := ⟨status, Json.readStrict bytes⟩

/-- **What comes of a request**:

* `replied` — a reply, whatever its status is;
* `unanswered` — no reply within the rules of the protocol;
* `abandoned` — the request was given up in spite of a reply, as after too many redirections, and
  the reply is known;
* `failed` — a fault on this side. -/
inductive Outcome where
  | replied (reply : Reply)
  | unanswered
  | abandoned (reply : Reply)
  | failed (fault : Fault)

/-- The reply that is known of an outcome. -/
def Outcome.reply? : Outcome → Option Reply
  | .replied reply | .abandoned reply => some reply
  | .unanswered | .failed _ => none

/-- **No half of a pair stands alone** in the body that is known of an outcome; this library has no
value for a body where one does. -/
def Outcome.IsWhole (outcome : Outcome) : Prop :=
  ∀ reply, outcome.reply? = some reply → reply.body ≠ .error .loneHalf

/-! ### Waiting -/

/-- Why a pause is not taken: its length is no length of time, or it cannot be counted. -/
inductive PauseFault where
  | noLength
  | tooLong
  deriving DecidableEq

/-- What a refused pause comes to. -/
def PauseFault.fault : PauseFault → Fault
  | noLength => .badValue
  | tooLong => .outOfRange

/-- **What waits**: for a pause of so many seconds it tells why it does not take it, if it
does not. -/
abbrev Timer := Number → Option PauseFault

namespace Timer

/-- The nanoseconds in a second. -/
def nanoseconds : Int := 1000000000

/-- The count of nanoseconds, below and above zero, at which 64 bits with a sign end. -/
def limit : Int := 9223372036854775808

/-- **The timer of a machine.** It counts nanoseconds in 64 bits. The count of a whole number of
seconds is exact, and that of a double is a double. The range is looked at before the sign. -/
def standard : Timer := fun seconds =>
  match seconds.mul? (.whole nanoseconds) with
  | none => some .tooLong
  | some count =>
    if count = .double .nan then some .noLength
    else if !count.lt (.whole limit) || count.lt (.whole (-limit)) then some .tooLong
    else if count.lt (.whole 0) then some .noLength
    else none

/-- A timer that takes every pause, since it does not wait. -/
def instant : Timer := fun _ => none

/-- What the timer of a machine makes of a whole number of seconds: it takes those that are not
negative and last no longer than 292 years. -/
theorem standard_whole (z : Int) : standard (.whole z)
    = if z < -9223372036 ∨ 9223372036 < z then some .tooLong
      else if z < 0 then some .noLength
      else none := by
  have hcount : (Number.whole z).mul? (.whole nanoseconds) = some (.whole (z * 1000000000)) := rfl
  have hnan : Number.whole (z * 1000000000) ≠ .double .nan := nofun
  rw [standard, hcount]
  dsimp only
  rw [if_neg hnan]
  simp only [Number.lt, limit]
  -- what is left compares the count with both ends of the range and with zero
  grind

end Timer

/-! ### Sessions -/

/-- What a session has on record: a request that was sent, or a pause of so many seconds. -/
inductive Event where
  | request (sent : Request)
  | pause (length : Number)

/-- The request of an event that is one. -/
def Event.request? : Event → Option Request
  | .request sent => some sent
  | .pause _ => none

/-- The length of an event that is a pause. -/
def Event.pause? : Event → Option Number
  | .request _ => none
  | .pause length => some length

/-- **A session**: the outcomes that requests will have, what waits between them, and what happened
so far. -/
structure Session where
  outcomes : Nat → Outcome
  timer : Timer := Timer.standard
  events : List Event := []

/-- Work on a session. -/
abbrev Exchange := Work Session

namespace Session

/-- A session that has not begun. -/
def fresh (outcomes : Nat → Outcome) : Session := { outcomes }

/-- The requests so far. -/
def requests (session : Session) : List Request := session.events.filterMap Event.request?

/-- The pauses so far. -/
def pauses (session : Session) : List Number := session.events.filterMap Event.pause?

/-- The session after one more event. -/
def record (session : Session) (event : Event) : Session :=
  { session with events := session.events ++ [event] }

/-- The outcomes that are still to come. -/
def upcoming (session : Session) (i : Nat) : Outcome :=
  session.outcomes (session.requests.length + i)

/-- The outcome of the next request. -/
def next (session : Session) : Outcome := session.upcoming 0

/-- No half of a pair stands alone in any reply that is still to come. -/
def IsWhole (session : Session) : Prop := ∀ i, (session.upcoming i).IsWhole

/-- Outcomes given as a list, of which the last one repeats. -/
def repeatLast (outcomes : List Outcome) (i : Nat) : Outcome :=
  outcomes.getD i (outcomes.getLast?.getD .unanswered)

@[simp] theorem timer_record (session : Session) (event : Event) :
    (session.record event).timer = session.timer := rfl

@[simp] theorem record_record (session : Session) (first second : Event) :
    (session.record first).record second
      = { session with events := session.events ++ [first, second] } := by
  simp [record]

@[simp] theorem requests_record_request (session : Session) (request : Request) :
    (session.record (.request request)).requests = session.requests ++ [request] :=
  List.filterMap_append

@[simp] theorem requests_record_pause (session : Session) (seconds : Number) :
    (session.record (.pause seconds)).requests = session.requests :=
  List.filterMap_append.trans (List.append_nil _)

/-- A request takes one outcome from those to come. -/
@[simp] theorem upcoming_record_request (session : Session) (request : Request) (i : Nat) :
    (session.record (.request request)).upcoming i = session.upcoming (i + 1) := by
  rw [upcoming, requests_record_request, List.length_append, Nat.add_assoc, Nat.add_comm _ i]
  rfl

/-- A pause takes none. -/
@[simp] theorem upcoming_record_pause (session : Session) (seconds : Number) (i : Nat) :
    (session.record (.pause seconds)).upcoming i = session.upcoming i := by
  rw [upcoming, requests_record_pause]
  rfl

end Session

namespace Exchange

/-- **One request** and its outcome. -/
def ask (request : Request) : Exchange Outcome := do
  let session ← get
  set (session.record (.request request))
  return session.next

/-- **One pause** of so many seconds, when it is taken. -/
def pause (seconds : Number) : Exchange Unit := do
  let session ← get
  match session.timer seconds with
  | none => set (session.record (.pause seconds))
  | some cause => throw cause.fault

/-- A pause that is taken is put on record, and one that is not leaves nothing behind. -/
theorem runFrom_pause (seconds : Number) (session : Session) :
    (pause seconds).runFrom session = match session.timer seconds with
      | none => (.ok (), session.record (.pause seconds))
      | some cause => (.error cause.fault, session) := by
  change (match session.timer seconds with
    | none => set (session.record (.pause seconds))
    | some cause => throw cause.fault : Exchange Unit).runFrom session = _
  cases session.timer seconds <;> rfl

end Exchange

end Mockup

import Mockup.Proofs.Number.Range
import Mockup.Proofs.Outcome
import Mockup.Remote.Client

/-!
# Repeated requests

A client repeats a request while the outcomes ask for it and its budget lasts, and it pauses before
each repetition. This module says what a call on a client leaves behind: which outcomes it takes,
what it sends, when it waits, and what it ends with.

* `Outcome.Retryable` — whether an outcome asks for a repetition;
* `Timer.Waits`, `Timer.Stops` — the pause that is taken, and why none is;
* `Call`, `Client.perform`, `Client.performAll` — the calls on a client, alone and one after
  the other;
* `Conducted` — **a call by the protocol**: its pauses are as many as its repetitions;
* `Interrupted` — a call that ends before a pause that is not taken;
* `performAll_conversation` — **every sequence of calls keeps to the protocol**, as long as its pauses
  are taken.

The loop is taken apart at one attempt (`Client.getFrom_settled`, `Client.getFrom_repeated`,
`Client.getFrom_stopped`). The induction over the repetitions that are left then shifts the outcomes
to come by one and the pauses by one power of two (`Client.getFrom_run`). Nothing of a call is kept in
the client, so the next one begins with the whole budget.

No client is checked when it is made, so its pauses may be of any length. A pause that is negative, or
that lasts for centuries, ends the call with the fault of whatever should have waited; and so does an
integer with thousands of digits, which cannot even be told (`overlongClient_interrupted`).
-/

namespace Mockup

/-! ### Outcomes that ask for a repetition -/

/-- The body of a reply is not JSON: it is no text, or its text is not of the grammar. An integer of
the grammar that is too long to be read is another matter. -/
def Reply.NotJson (reply : Reply) : Prop :=
  reply.body = .error .malformed ∨ reply.body = .error .undecodable

/-- **Outcomes that ask for a repetition**: no reply, a reply that the remote side is busy, whether or
not the request was given up in spite of it, and a good reply that is not JSON. -/
def Outcome.Retryable : Outcome → Prop
  | .unanswered => True
  | .replied reply =>
    reply.status = 429 ∨ reply.status = 503
      ∨ isErrorStatus reply.status = false ∧ reply.NotJson
  | .abandoned reply => reply.status = 429 ∨ reply.status = 503
  | .failed _ => False

/-- A good reply is worth another request exactly when it is not JSON. -/
theorem isRetryable_of_good {reply : Reply} (good : isErrorStatus reply.status = false) :
    (Outcome.replied reply).isRetryable = true ↔ reply.NotJson := by
  obtain ⟨status, body⟩ := reply
  change isErrorStatus status = false at good
  rw [Outcome.isRetryable, Outcome.verdict, good, if_neg (by decide), Reply.NotJson]
  cases body with
  | ok body => simp
  | error cause => cases cause <;> simp [isTransient]

/-- The client repeats a request exactly when the outcome asks for it. -/
theorem Outcome.isRetryable_iff (outcome : Outcome) :
    outcome.isRetryable = true ↔ outcome.Retryable := by
  -- in each case the verdict decides, as it is spelled out
  cases outcome with
  | unanswered => exact ⟨fun _ => trivial, fun _ => rfl⟩
  | abandoned reply =>
    change (reply.status = 429 || reply.status = 503) = true ↔ reply.status = 429 ∨ reply.status = 503
    rw [Bool.or_eq_true, decide_eq_true_eq, decide_eq_true_eq]
  | failed fault => exact ⟨fun h => (Bool.false_ne_true h).elim, fun h => h.elim⟩
  | replied reply =>
    rw [Outcome.Retryable]
    cases good : isErrorStatus reply.status with
    | false =>
      -- the two statuses of a busy remote side report errors
      have notBusy : ∀ status, isErrorStatus status = true → reply.status ≠ status := by
        rintro status bad rfl
        exact absurd (bad.symm.trans good) (by decide)
      rw [isRetryable_of_good good]
      simp [notBusy 429 rfl, notBusy 503 rfl]
    -- a bad status is retried when it is that of a busy remote side
    | true =>
      rw [Outcome.isRetryable, Outcome.verdict, good, if_pos rfl]
      simp [isTransient]

/-! ### Waiting -/

namespace Timer

/-- **The pause that is taken** after so many failed attempts: the first one times a power of two. It
can be told, and what waits takes it. -/
structure Waits (timer : Timer) (first : Number) (attempts : Nat) (pause : Number) : Prop where
  doubled : first.mul? (.whole (2 ^ attempts : Nat)) = some pause
  told : pause.isTellable = true
  taken : timer pause = none

/-- **Why no pause is taken** after so many failed attempts, with the fault of it. -/
inductive Stops (timer : Timer) (first : Number) (attempts : Nat) : Fault → Prop
  /-- The power of two is beyond the range of doubles. -/
  | uncounted (late : 1024 ≤ attempts)
    (doubled : first.mul? (.whole (2 ^ attempts : Nat)) = none) :
    Stops timer first attempts .outOfRange
  /-- The pause is an integer with too many digits. -/
  | untold {pause : Number} (doubled : first.mul? (.whole (2 ^ attempts : Nat)) = some pause)
    (long : pause.isTellable = false) : Stops timer first attempts .badValue
  /-- What waits does not take the pause. -/
  | refused {pause : Number} {cause : PauseFault}
    (doubled : first.mul? (.whole (2 ^ attempts : Nat)) = some pause)
    (told : pause.isTellable = true) (refusal : timer pause = some cause) :
    Stops timer first attempts cause.fault

variable {timer : Timer} {first : Number} {attempts : Nat}

/-- A pause is taken, or there is a reason why none is. -/
theorem waits_or_stops (timer : Timer) (first : Number) (attempts : Nat) :
    (∃ pause, timer.Waits first attempts pause) ∨ ∃ fault, timer.Stops first attempts fault := by
  -- the pause is computed, told and then taken, and each step can fail
  cases doubled : first.mul? (.whole (2 ^ attempts : Nat)) with
  | none =>
    refine .inr ⟨_, .uncounted (Nat.le_of_not_lt fun early => ?_) doubled⟩
    obtain ⟨pause, hpause⟩ := first.exists_mul?_two_pow early
    cases doubled.symm.trans hpause
  | some pause =>
    cases told : pause.isTellable with
    | false => exact .inr ⟨_, .untold doubled told⟩
    | true =>
      cases taken : timer pause with
      | none => exact .inl ⟨pause, doubled, told, taken⟩
      | some cause => exact .inr ⟨_, .refused doubled told taken⟩

/-- It is never both. -/
theorem Waits.not_stops {pause : Number} (waits : timer.Waits first attempts pause) {fault : Fault} :
    ¬ timer.Stops first attempts fault := by
  intro stops
  cases stops with
  | uncounted late doubled => cases doubled.symm.trans waits.doubled
  | untold doubled long =>
    obtain rfl := Option.some.inj (doubled.symm.trans waits.doubled)
    cases long.symm.trans waits.told
  | refused doubled told refusal =>
    obtain rfl := Option.some.inj (doubled.symm.trans waits.doubled)
    cases refusal.symm.trans waits.taken

/-- A reason not to wait is no refusal of the program. -/
theorem Stops.ne_refused {fault : Fault} (h : timer.Stops first attempts fault) (refusal : Refusal) :
    fault ≠ .refused refusal := by
  cases h with
  | uncounted => nofun
  | untold => nofun
  | @refused _ cause _ _ _ => cases cause <;> nofun

end Timer

namespace Client

variable {client : Client} {request : Request} {attempts retries : Nat} {start : Session}

/-- What is told of a pause is the first one times a power of two, or a fault. -/
theorem pauseAfter_eq (client : Client) (attempts : Nat) : client.pauseAfter attempts
    = (orFault .outOfRange (client.firstPause.mul? (.whole (2 ^ attempts : Nat))) >>= fun pause =>
        if pause.isTellable = true then .ok pause else .error .badValue) := rfl

/-- A pause with few enough digits is told before it is taken. -/
theorem pauseAfter_of_told {pause : Number}
    (doubled : client.firstPause.mul? (.whole (2 ^ attempts : Nat)) = some pause)
    (told : pause.isTellable = true) : client.pauseAfter attempts = .ok pause := by
  rw [pauseAfter_eq, doubled]
  exact if_pos told

/-! ### One attempt -/

/-- **The last attempt.** An outcome that asks for no repetition is the last one, and so is any
outcome when no repetition is left. -/
theorem getFrom_settled (h : 0 < retries → ¬ (start.upcoming 0).Retryable) :
    (client.getFrom request attempts retries).runFrom start
      = ((start.upcoming 0).conclusion, start.record (.request request)) := by
  cases retries with
  | zero => rfl
  | succ retries =>
    have settled : (start.upcoming 0).isRetryable = false :=
      eq_false_of_ne_true fun again => h retries.succ_pos ((Outcome.isRetryable_iff _).mp again)
    change (if (start.upcoming 0).isRetryable = true then _ else _ : Exchange Json).runFrom _ = _
    rw [settled]
    rfl

/-- An attempt whose outcome asks for a repetition comes to the pause, and then to the rest of
the loop. -/
theorem getFrom_again (h : (start.upcoming 0).Retryable) :
    (client.getFrom request attempts (retries + 1)).runFrom start
      = (Work.ofResult (client.pauseAfter attempts) >>= fun pause =>
          Exchange.pause pause >>= fun _ => client.getFrom request (attempts + 1) retries).runFrom
            (start.record (.request request)) := by
  have again : (start.upcoming 0).isRetryable = true := (Outcome.isRetryable_iff _).mpr h
  change (if (start.upcoming 0).isRetryable = true then _ else _ : Exchange Json).runFrom _ = _
  rw [again, if_pos rfl]

/-- **An attempt that is repeated.** After the pause the loop goes on with one repetition less. -/
theorem getFrom_repeated (h : (start.upcoming 0).Retryable) {pause : Number}
    (waits : start.timer.Waits client.firstPause attempts pause) :
    (client.getFrom request attempts (retries + 1)).runFrom start
      = (client.getFrom request (attempts + 1) retries).runFrom
          ((start.record (.request request)).record (.pause pause)) := by
  rw [getFrom_again h, Work.runFrom_ofResult_bind, pauseAfter_of_told waits.doubled waits.told]
  dsimp only
  rw [Work.runFrom_bind, Exchange.runFrom_pause, Session.timer_record, waits.taken]

/-- **An attempt that is not repeated** although it should be, because the client does not wait. -/
theorem getFrom_stopped (h : (start.upcoming 0).Retryable) {fault : Fault}
    (stops : start.timer.Stops client.firstPause attempts fault) :
    (client.getFrom request attempts (retries + 1)).runFrom start
      = (.error fault, start.record (.request request)) := by
  rw [getFrom_again h, Work.runFrom_ofResult_bind]
  -- no pause is taken in any of the three cases
  cases stops with
  | uncounted late doubled =>
    rw [pauseAfter_eq, doubled]
    rfl
  | untold doubled long =>
    have untold : client.pauseAfter attempts = .error .badValue := by
      rw [pauseAfter_eq, doubled]
      exact if_neg (by rw [long]; decide)
    rw [untold]
  | refused doubled told refusal =>
    -- the pause is told, and then not taken
    rw [pauseAfter_of_told doubled told]
    dsimp only
    rw [Work.runFrom_bind, Exchange.runFrom_pause, Session.timer_record, refusal]

end Client

/-! ### All attempts -/

/-- **The events of all attempts** at a request: it is sent, and after each pause it is
sent again. -/
def Request.attempts (request : Request) : List Number → List Event
  | [] => [.request request]
  | pause :: pauses => .request request :: .pause pause :: request.attempts pauses

/-- There is one attempt more than there are pauses. -/
theorem Request.filterMap_attempts (request : Request) (pauses : List Number) :
    (request.attempts pauses).filterMap Event.request?
      = List.replicate (pauses.length + 1) request := by
  induction pauses with
  | nil => rfl
  | cons pause pauses ih =>
    change request :: (request.attempts pauses).filterMap Event.request? = _
    rw [ih, List.length_cons]
    rfl

/-- **How the loop ends** after so many pauses: with an outcome that is the last one, or before a
pause that is not taken. -/
inductive Client.Ends (client : Client) (attempts retries : Nat) (start : Session) (pauses : Nat) :
    Result Json → Prop
  | settled (last : pauses < retries → ¬ (start.upcoming pauses).Retryable) :
    Ends client attempts retries start pauses (start.upcoming pauses).conclusion
  | stopped {fault : Fault} (left : pauses < retries) (again : (start.upcoming pauses).Retryable)
    (stops : start.timer.Stops client.firstPause (attempts + pauses) fault) :
    Ends client attempts retries start pauses (.error fault)

/-- **The loop.** As long as a repetition is left and the outcome asks for it, there is another
attempt after a pause, if that is taken. -/
theorem Client.getFrom_run (client : Client) (request : Request) (attempts retries : Nat)
    (start : Session) :
    ∃ pauses : List Number, pauses.length ≤ retries
      ∧ (∀ j < pauses.length, (start.upcoming j).Retryable
        ∧ ∃ pause, pauses[j]? = some pause ∧ start.timer.Waits client.firstPause (attempts + j) pause)
      ∧ ∃ result, client.Ends attempts retries start pauses.length result
        ∧ (client.getFrom request attempts retries).runFrom start
          = (result, { start with events := start.events ++ request.attempts pauses }) := by
  -- on the repetitions that are left; the session grows by one attempt and one pause each time
  induction retries generalizing attempts start with
  | zero =>
    refine ⟨[], Nat.le_refl 0, fun j hj => absurd hj j.not_lt_zero, _,
      .settled fun h => absurd h (by decide), ?_⟩
    exact getFrom_settled fun h => absurd h (by decide)
  | succ retries ih =>
    by_cases again : (start.upcoming 0).Retryable
    -- the pause is taken, and the rest is a run with one repetition less
    · obtain ⟨pause, waits⟩ | ⟨fault, stops⟩ := start.timer.waits_or_stops client.firstPause attempts
      · obtain ⟨pauses, within, repeated, result, ends, run⟩ :=
          ih (attempts + 1) ((start.record (.request request)).record (.pause pause))
        simp only [Session.upcoming_record_pause, Session.upcoming_record_request,
          Session.timer_record] at repeated
        refine ⟨pause :: pauses, Nat.succ_le_succ within, ?_, result, ?_, ?_⟩
        -- the outcome of this attempt is in front of the others
        · intro j hj
          cases j with
          | zero => exact ⟨again, pause, rfl, waits⟩
          | succ j =>
            -- the outcomes to come and the powers of two are both one further
            obtain ⟨retryable, later, hlater, hwaits⟩ := repeated j (Nat.lt_of_succ_lt_succ hj)
            rw [Nat.add_assoc, Nat.add_comm 1 j] at hwaits
            exact ⟨retryable, later, hlater, hwaits⟩
        -- the end is that of the rest, seen from one attempt earlier
        · rw [List.length_cons]
          cases ends with
          | settled last =>
            simp only [Session.upcoming_record_pause, Session.upcoming_record_request] at last ⊢
            exact .settled fun h => last (Nat.lt_of_succ_lt_succ h)
          | stopped left more stops =>
            simp only [Session.upcoming_record_pause, Session.upcoming_record_request,
              Session.timer_record] at more stops
            rw [Nat.add_assoc, Nat.add_comm 1] at stops
            exact .stopped (Nat.succ_lt_succ left) more stops
        -- and so is the run
        · rw [getFrom_repeated again waits, run, Session.record_record]
          simp [Request.attempts]
      · -- the session keeps the request that was sent before
        exact ⟨[], Nat.zero_le _, fun j hj => absurd hj j.not_lt_zero, _,
          .stopped retries.succ_pos again stops, getFrom_stopped again stops⟩
    · -- the budget is not touched
      exact ⟨[], Nat.zero_le _, fun j hj => absurd hj j.not_lt_zero, _, .settled fun _ => again,
        getFrom_settled fun _ => again⟩

/-- **The loop sends one request again and again**, whatever its budget is and whatever comes of
the request. -/
theorem Client.getFrom_requests (client : Client) (request : Request) (attempts retries : Nat)
    (start : Session) :
    ∃ n, ((client.getFrom request attempts retries).runFrom start).2.requests
      = start.requests ++ List.replicate n request := by
  obtain ⟨pauses, -, -, result, -, run⟩ := client.getFrom_run request attempts retries start
  refine ⟨pauses.length + 1, ?_⟩
  rw [run, Session.requests, List.filterMap_append, Request.filterMap_attempts]
  rfl

/-! ### Calls -/

/-- **A call on a client**: for a whole document, or for some of its nodes. -/
inductive Call where
  | document (fileKey : String)
  | nodes (fileKey : String) (ids : List String)

namespace Call

/-- What a call asks for. -/
def request (client : Client) : Call → Request
  | .document fileKey => ⟨client.baseUrl ++ ("/files/" ++ fileKey), none, client.timeout, client.token⟩
  | .nodes fileKey ids =>
    ⟨client.baseUrl ++ ("/files/" ++ fileKey ++ "/nodes"), some (",".intercalate ids), client.timeout,
      client.token⟩

/-- What a call takes from an answer. -/
def taken (reply : Json) : Call → Result Json
  | .document _ => reply.member "document"
  | .nodes _ _ => .obj <$> (Client.nodesField reply >>= Client.documentsOf)

/-- **What a call comes to** whose last outcome this is. -/
def conclusion (outcome : Outcome) (call : Call) : Result Json := do
  call.taken (← outcome.conclusion)

end Call

/-- **A call**, performed on a client. -/
def Client.perform (client : Client) : Call → Exchange Json
  | .document fileKey => client.document fileKey
  | .nodes fileKey ids => do return .obj (← client.nodes fileKey ids)

/-- A call is the loop, and then what the call takes from the answer. -/
theorem Client.runFrom_perform (client : Client) (call : Call) (start : Session) :
    (client.perform call).runFrom start
      = ((((client.getFrom (call.request client) 0 client.maxRetries.toNat).runFrom start).1
            >>= fun reply => call.taken reply),
          ((client.getFrom (call.request client) 0 client.maxRetries.toNat).runFrom start).2) := by
  -- both kinds of calls send one request and look into the reply
  cases call with
  | document fileKey =>
    have hget : client.get ("/files/" ++ fileKey) none
        = client.getFrom (Call.request client (.document fileKey)) 0 client.maxRetries.toNat := rfl
    rw [perform, document, Work.runFrom_bind, hget]
    -- a fault is passed on
    rcases (client.getFrom _ 0 _).runFrom start with ⟨_ | reply, finish⟩
    · rfl
    · rfl
  | nodes fileKey ids =>
    have hget : client.get ("/files/" ++ fileKey ++ "/nodes") (some (",".intercalate ids))
        = client.getFrom (Call.request client (.nodes fileKey ids)) 0 client.maxRetries.toNat := rfl
    rw [perform, nodes, Work.runFrom_bind, Work.runFrom_bind, hget]
    rcases (client.getFrom _ 0 _).runFrom start with ⟨_ | reply, finish⟩
    · rfl
    · simp only [Work.runFrom_ofResult]
      change _ = (Json.obj <$> (nodesField reply >>= documentsOf), finish)
      cases nodesField reply >>= documentsOf <;> rfl

/-- **The attempts of a call.** Every outcome before the last one asks for a repetition. Between any
two attempts there is one pause, each twice as long as the one before. -/
structure Attempted (client : Client) (call : Call) (start : Session) (pauses : List Number)
    (finish : Session) : Prop where
  /-- The repetitions are within the budget. -/
  within : pauses.length ≤ client.maxRetries.toNat
  /-- Every outcome before the last one asks for a repetition. -/
  repeated : ∀ j < pauses.length, (start.upcoming j).Retryable
  /-- The pauses are the first one times the powers of two. -/
  doubled : ∀ j < pauses.length, pauses[j]? = client.firstPause.mul? (.whole (2 ^ j : Nat))
  /-- Each of them can be told and is taken. -/
  waited : ∀ pause ∈ pauses, pause.isTellable = true ∧ start.timer pause = none
  /-- What happens is that the same request is sent again and again, with the pauses between. -/
  events : finish = { start with events := start.events ++ (call.request client).attempts pauses }
  /-- So one outcome is taken for each attempt. -/
  taken : finish.requests.length = start.requests.length + (pauses.length + 1)

/-- **A call by the protocol.** It ends with the first outcome that asks for no repetition, or when
the budget is spent, and that outcome alone decides what it comes to. It takes the outcomes up to
that one and no more. -/
structure Conducted (client : Client) (call : Call) (start : Session) (pauses : List Number)
    (result : Result Json) (finish : Session) : Prop extends
    Attempted client call start pauses finish where
  /-- The last outcome asks for no repetition, or the budget is spent. -/
  settled : pauses.length < client.maxRetries.toNat → ¬ (start.upcoming pauses.length).Retryable
  /-- The last outcome decides. -/
  decided : result = call.conclusion (start.upcoming pauses.length)

/-- **A call that ends before a pause.** A repetition is left and the last outcome asks for it, but
the client does not wait. -/
structure Interrupted (client : Client) (call : Call) (start : Session) (pauses : List Number)
    (fault : Fault) (finish : Session) : Prop extends
    Attempted client call start pauses finish where
  /-- A repetition is left. -/
  left : pauses.length < client.maxRetries.toNat
  /-- The last outcome asks for it. -/
  again : (start.upcoming pauses.length).Retryable
  /-- The client does not wait, for a reason that gives the fault. -/
  stops : start.timer.Stops client.firstPause pauses.length fault

/-- **How a call ends**: by the protocol, or before a pause. -/
inductive Call.Ends (client : Client) (call : Call) (start : Session) (pauses : List Number)
    (finish : Session) : Result Json → Prop
  | conducted {result : Result Json} (h : Conducted client call start pauses result finish) :
    Ends client call start pauses finish result
  | interrupted {fault : Fault} (h : Interrupted client call start pauses fault finish) :
    Ends client call start pauses finish (.error fault)

/-- Every call ends by the protocol, or before a pause. -/
theorem Client.perform_ends (client : Client) (call : Call) (start : Session) :
    ∃ pauses, call.Ends client start pauses ((client.perform call).runFrom start).2
      ((client.perform call).runFrom start).1 := by
  obtain ⟨pauses, within, repeated, result, ends, run⟩ :=
    client.getFrom_run (call.request client) 0 client.maxRetries.toNat start
  rw [client.runFrom_perform, run]
  have attempted : Attempted client call start pauses
      { start with events := start.events ++ (call.request client).attempts pauses } := by
    refine ⟨within, fun j hj => (repeated j hj).1, ?_, ?_, rfl, ?_⟩
    -- the pauses are powers of two times the first one
    · intro j hj
      obtain ⟨-, pause, hpause, waits⟩ := repeated j hj
      rw [hpause, ← waits.doubled, Nat.zero_add]
    -- each pause is told and taken
    · intro pause hpause
      obtain ⟨j, hj, rfl⟩ := List.mem_iff_getElem.mp hpause
      obtain ⟨-, pause, hpause, waits⟩ := repeated j hj
      obtain rfl := Option.some.inj ((List.getElem?_eq_getElem hj).symm.trans hpause)
      exact ⟨waits.told, waits.taken⟩
    -- one request is sent more than there are pauses
    · have sent : ({ start with
          events := start.events ++ (call.request client).attempts pauses } : Session).requests
          = start.requests ++ List.replicate (pauses.length + 1) (call.request client) := by
        rw [Session.requests, List.filterMap_append, Request.filterMap_attempts]
        rfl
      rw [sent, List.length_append, List.length_replicate]
  refine ⟨pauses, ?_⟩
  -- the last outcome settles the call, or the pause after it is not taken
  cases ends with
  | settled last => exact .conducted ⟨attempted, last, rfl⟩
  | stopped left again stops =>
    rw [Nat.zero_add] at stops
    exact .interrupted ⟨attempted, left, again, stops⟩

/-! ### Calls one after the other -/

/-- Calls on one client, one after the other, whatever each of them comes to. -/
def Client.performAll (client : Client) : List Call → Session → List (Result Json) × Session
  | [], session => ([], session)
  | call :: calls, session =>
    let (result, next) := (client.perform call).runFrom session
    let (results, finish) := client.performAll calls next
    (result :: results, finish)

/-- **A conversation by the protocol**: every call keeps to it, or ends before a pause, from the
session that the calls before it leave. -/
inductive Conversation (client : Client) :
    List Call → Session → List (Result Json) → Session → Prop
  | done {session : Session} : Conversation client [] session [] session
  | call {call : Call} {calls : List Call} {start next finish : Session} {pauses : List Number}
    {result : Result Json} {results : List (Result Json)}
    (ends : call.Ends client start pauses next result)
    (rest : Conversation client calls next results finish) :
    Conversation client (call :: calls) start (result :: results) finish

/-- **Every sequence of calls on a client keeps to the protocol**, whatever the outcomes are and
whatever waits, as long as the pauses are taken; a call that comes to a pause that is not taken ends
there. A call begins with the whole budget, whatever the calls before it have used and however they
ended. -/
theorem performAll_conversation (client : Client) (calls : List Call) (start : Session) :
    Conversation client calls start (client.performAll calls start).1
      (client.performAll calls start).2 := by
  induction calls generalizing start with
  | nil => exact .done
  | cons call calls ih =>
    obtain ⟨pauses, ends⟩ := client.perform_ends call start
    exact .call ends (ih ((client.perform call).runFrom start).2)

/-! ### Pauses that are not taken -/

/-- A natural number can be told when it has few enough digits. -/
theorem Number.isTellable_natCast (n : Nat) :
    (Number.whole n).isTellable = true ↔ n < 10 ^ maxDigits := by
  rw [isTellable, Int.natAbs_natCast, decide_eq_true_eq]
  exact Nat.length_toDigits_le_iff (by decide) (by decide)

/-- A pause that has as many digits as can be told. -/
def overlongPause : Nat := 9 * 10 ^ (maxDigits - 1)

/-- Its double has one digit more. -/
theorem overlongPause_digits :
    overlongPause * 2 ^ 0 < 10 ^ maxDigits ∧ 10 ^ maxDigits ≤ overlongPause * 2 ^ 1 := by
  obtain ⟨k, hk⟩ : ∃ k, maxDigits = k + 1 := ⟨_, rfl⟩
  have hpositive : 0 < 10 ^ k := Nat.pow_pos (by decide)
  rw [overlongPause, hk, Nat.add_sub_cancel, Nat.pow_succ]
  omega

/-- The timer of a machine does not take it. -/
theorem standard_overlongPause :
    Timer.standard (.whole (overlongPause * 2 ^ 0 : Nat)) = some .tooLong := by
  obtain ⟨k, hk⟩ : ∃ k, maxDigits - 1 = 10 + k := ⟨4289, rfl⟩
  have hpositive : 0 < 10 ^ k := Nat.pow_pos (by decide)
  have hlong : 9223372036 < overlongPause * 2 ^ 0 := by
    rw [overlongPause, hk, Nat.pow_add]
    omega
  generalize overlongPause * 2 ^ 0 = n at hlong ⊢
  rw [Timer.standard_whole, if_pos (.inr (by omega))]

/-- A client that repeats a request twice, with such a pause. -/
def overlongClient : Client where
  token := "t"
  baseUrl := "https://api.figma.com/v1"
  timeout := .ofInt 30
  maxRetries := 2
  firstPause := .whole overlongPause

/-- The pauses that the client needs. -/
theorem overlongClient_doubled (attempts : Nat) :
    overlongClient.firstPause.mul? (.whole (2 ^ attempts : Nat))
      = some (.whole (overlongPause * 2 ^ attempts : Nat)) := by
  rw [overlongClient, Number.mul?_whole, Int.natCast_mul]

/-- A remote side that is busy all the time, with a given timer between the requests. -/
def busySession (timer : Timer) : Session where
  outcomes _ := .replied ⟨503, .ok (.obj [])⟩
  timer

/-- **A pause that is not taken ends a call** before its budget is spent, although every outcome asks
for a repetition. The second pause of this client has a digit too many to be told. The timer of a
machine does not even take the first one. -/
theorem overlongClient_interrupted :
    overlongClient.maxRetries ≤ 1000
    ∧ (∀ timer j, ((busySession timer).upcoming j).Retryable)
    ∧ (∃ finish, (overlongClient.perform (.document "k")).runFrom (busySession .instant)
          = (.error .badValue, finish)
        ∧ finish.requests.length = 2 ∧ finish.pauses = [overlongClient.firstPause])
    ∧ ∃ finish, (overlongClient.perform (.document "k")).runFrom (busySession .standard)
          = (.error .outOfRange, finish)
        ∧ finish.requests.length = 1 ∧ finish.pauses = [] := by
  have again (timer : Timer) (j : Nat) : ((busySession timer).upcoming j).Retryable :=
    .inr (.inl rfl)
  have budget : overlongClient.maxRetries.toNat = 1 + 1 := rfl
  -- the first pause has the most digits that can be told, and its double has one more
  obtain ⟨short, long⟩ := overlongPause_digits
  have told : (Number.whole (overlongPause * 2 ^ 0 : Nat)).isTellable = true :=
    (Number.isTellable_natCast _).mpr short
  have untold : (Number.whole (overlongPause * 2 ^ 1 : Nat)).isTellable = false :=
    eq_false_of_ne_true fun h => Nat.not_lt.mpr long ((Number.isTellable_natCast _).mp h)
  refine ⟨by decide, again, ?_, ?_⟩
  · -- the first pause is taken, and the second one is not told
    have waits : Timer.instant.Waits overlongClient.firstPause 0
        (.whole (overlongPause * 2 ^ 0 : Nat)) := ⟨overlongClient_doubled 0, told, rfl⟩
    have stops : Timer.instant.Stops overlongClient.firstPause (0 + 1) .badValue :=
      .untold (overlongClient_doubled 1) untold
    rw [Client.runFrom_perform, budget, Client.getFrom_repeated (again .instant 0) waits,
      Client.getFrom_stopped (again .instant 1) stops]
    refine ⟨_, rfl, rfl, ?_⟩
    have hpause : Number.whole (overlongPause * 2 ^ 0 : Nat) = overlongClient.firstPause := by
      rw [Nat.pow_zero, Nat.mul_one, overlongClient]
    rw [← hpause]
    rfl
  -- the timer of a machine does not even take the first one
  · have stops : Timer.standard.Stops overlongClient.firstPause 0 .outOfRange :=
      .refused (overlongClient_doubled 0) told standard_overlongPause
    rw [Client.runFrom_perform, budget, Client.getFrom_stopped (again .standard 0) stops]
    exact ⟨_, rfl, rfl, rfl⟩

end Mockup

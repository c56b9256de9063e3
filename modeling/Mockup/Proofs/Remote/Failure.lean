import Mockup.Proofs.Remote.Retry

/-!
# How a failed call is reported

The last outcome of a call may be a failure: an error status, no reply at all, a request that was given
up, or a body that is not readable. Whoever made the call should learn from the refusal what the remote
side said: its status, the code that goes with it, and its own message where it sent one. This module
says when that is so, and what the call ends with when it is not.

* `Outcome.Failed` — outcomes that are failures;
* `Refusal.Reports` — what a refusal has to say about a failure;
* `Outcome.Legible` — failures that the client is prepared for;
* `failed_call_reports_iff` — **a failed call is reported exactly when the failure is legible** and no
  pause has ended the call before.

Three kinds of failure are not. The message is looked for in the body of a reply without a question
whether the body has fields (`errorMessage_of_notObject`). A good reply whose body cannot be read counts
as none, so its status is not told. And an integer that is too long is not among the reasons for which
a good reply counts as none.
-/

namespace Mockup

/-! ### Failures and what is to be said of them -/

/-- **Outcomes that are failures**: no reply, a request that was given up, a status that reports an
error, or a body that cannot be read. A body that holds half of a pair can be. -/
def Outcome.Failed : Outcome → Prop
  | .unanswered | .abandoned _ => True
  | .replied reply =>
    isErrorStatus reply.status = true ∨ ∃ cause, reply.body = .error cause ∧ cause ≠ .loneHalf
  | .failed _ => False

/-- The last status of the remote side; there is none when there was no reply. -/
def Outcome.status? (outcome : Outcome) : Option Int := outcome.reply?.map (·.status)

/-- The message that a reply gives: the field `err` of an object, when it counts as given. -/
def Reply.statedMessage? (reply : Reply) : Option Json :=
  match reply.body with
  | .ok (.obj fields) => (Json.find? "err" fields).filter (·.truthy)
  | _ => none

/-- **What a refusal says about a failure.** -/
structure Refusal.Reports (refusal : Refusal) (outcome : Outcome) : Prop where
  origin : refusal.origin = .remote outcome.status?
  forbidden : refusal.code = .forbidden ↔ outcome.status? = some 403
  notFound : refusal.code = .notFound ↔ outcome.status? = some 404
  rateLimited : refusal.code = .rateLimited ↔ outcome.status? = some 429
  other : refusal.code = .remoteFailure ↔
    outcome.status? ≠ some 403 ∧ outcome.status? ≠ some 404 ∧ outcome.status? ≠ some 429
  message : refusal.message
    = (outcome.reply?.bind Reply.statedMessage?).getD (.str ErrorCode.remoteFailure.message)

/-- The body of a reply has fields, if it can be read. -/
def Reply.HasFields (reply : Reply) : Prop :=
  ∀ body, reply.body = .ok body → ∃ fields, body = .obj fields

/-- **Failures that the client is prepared for**: no reply, and otherwise a reply with fields or with
no readable body, whose status reports an error unless the request was given up. -/
def Outcome.Legible : Outcome → Prop
  | .replied reply => isErrorStatus reply.status = true ∧ reply.HasFields
  | .abandoned reply => reply.HasFields
  | .unanswered | .failed _ => True

/-- **What a failure comes to that the client is not prepared for**: a fault that tells nothing, or a
refusal that tells of no reply although there was one. -/
def Outcome.Misreports (outcome : Outcome) (result : Result Json) : Prop :=
  result = .error .absentMember
  ∨ result = .error .badValue
  ∨ ∃ refusal status, result = .error (.refused refusal) ∧ refusal.origin = .remote none
      ∧ outcome.status? = some status

/-! ### Refusals -/

/-- What takes the place of a value that does not count as given, when it counts itself. -/
theorem Json.orElse_orElse {default : Json} (h : default.truthy = true) (j other : Json) :
    (j.orElse default).orElse other = j.orElse default := by
  have given : (j.orElse default).truthy = true := by
    unfold Json.orElse
    by_cases hj : j.truthy = true
    · rw [if_pos hj]
      exact hj
    · rw [if_neg hj]
      exact h
  rw [Json.orElse, if_pos given]

/-- The code of a status. -/
theorem codeOfStatus_cases (status : Option Int) :
    (codeOfStatus status = .forbidden ↔ status = some 403)
      ∧ (codeOfStatus status = .notFound ↔ status = some 404)
      ∧ (codeOfStatus status = .rateLimited ↔ status = some 429)
      ∧ (codeOfStatus status = .remoteFailure ↔
          status ≠ some 403 ∧ status ≠ some 404 ∧ status ≠ some 429) := by
  unfold codeOfStatus
  split <;> simp_all

/-- **The refusal for a failure** whose message, if there is one, was found. -/
theorem failureOf_of_message {reply : Option Reply} {message : Json}
    (h : errorMessage reply = .ok message) :
    failureOf reply = .refused
      ⟨codeOfStatus (reply.map (·.status)),
        message.orElse (.str ErrorCode.remoteFailure.message), .remote (reply.map (·.status))⟩ := by
  have stated : (Json.str ErrorCode.remoteFailure.message).truthy = true := by decide
  rw [failureOf, h]
  dsimp only
  rw [Refusal.of, Json.orElse_orElse stated]

/-- A body without fields has none to look for the message in. -/
theorem errorMessage_of_notObject {reply : Reply} (h : ¬ reply.HasFields) :
    errorMessage (some reply) = .error .absentMember := by
  obtain ⟨status, body⟩ := reply
  obtain ⟨body, h⟩ := Classical.not_forall.mp h
  obtain ⟨rfl, noFields⟩ := Classical.not_imp.mp h
  cases body with
  | obj fields => exact absurd ⟨fields, rfl⟩ noFields
  | _ => rfl

/-- A body with fields gives its message, and one that cannot be read gives none. -/
theorem errorMessage_of_hasFields {reply : Reply} (h : reply.HasFields) (default : Json) :
    ∃ message, errorMessage (some reply) = .ok message
      ∧ message.orElse default = reply.statedMessage?.getD default := by
  obtain ⟨status, body⟩ := reply
  cases body with
  -- an unreadable body states nothing
  | error cause => exact ⟨.null, rfl, rfl⟩
  | ok body =>
    -- a body with fields states what its field says
    obtain ⟨fields, rfl⟩ := h body rfl
    refine ⟨(Json.find? "err" fields).getD .null, rfl, ?_⟩
    rw [Reply.statedMessage?]
    dsimp only
    cases Json.find? "err" fields with
    | none => rfl
    -- a statement that is empty does not count
    | some stated =>
      rw [Option.getD_some, Json.orElse, Option.filter_some]
      split <;> rfl

/-! ### What a failure comes to -/

section Failed

variable {outcome : Outcome} {reply : Reply}

/-- A failure with a known reply is reported when the message, if there is one, can be found. -/
theorem reported_of_hasFields (known : outcome.reply? = some reply)
    (verdict : outcome.verdict = .failure (some reply)) (h : reply.HasFields) :
    ∃ refusal, outcome.conclusion = .error (.refused refusal) ∧ refusal.Reports outcome := by
  obtain ⟨message, found, stated⟩ :=
    errorMessage_of_hasFields h (.str ErrorCode.remoteFailure.message)
  have hstatus : outcome.status? = some reply.status := by rw [Outcome.status?, known]; rfl
  -- the code is decided by the status
  obtain ⟨forbidden, notFound, rateLimited, other⟩ := codeOfStatus_cases (some reply.status)
  rw [Outcome.conclusion, verdict]
  refine ⟨_, congrArg Except.error (failureOf_of_message found), ?_⟩
  -- the origin, the four codes and the message
  constructor
  · exact congrArg Origin.remote hstatus.symm
  · rw [hstatus]; exact forbidden
  · rw [hstatus]; exact notFound
  · rw [hstatus]; exact rateLimited
  · rw [hstatus]; exact other
  · rw [known]; exact stated

/-- **A legible failure is reported.** -/
theorem Outcome.Failed.reported (h : outcome.Failed) (legible : outcome.Legible) :
    ∃ refusal, outcome.conclusion = .error (.refused refusal) ∧ refusal.Reports outcome := by
  cases outcome with
  -- a fault is no failure of the call
  | failed fault => exact h.elim
  -- without a reply there is neither a status nor a message
  | unanswered =>
    have silent : errorMessage none = .ok .null := rfl
    obtain ⟨forbidden, notFound, rateLimited, other⟩ := codeOfStatus_cases none
    exact ⟨_, congrArg Except.error (failureOf_of_message silent),
      ⟨rfl, forbidden, notFound, rateLimited, other, rfl⟩⟩
  -- a reply that the conversation was given up on
  | abandoned reply => exact reported_of_hasFields rfl rfl legible
  -- a reply with a bad status
  | replied reply =>
    obtain ⟨bad, hasFields⟩ := legible
    refine reported_of_hasFields rfl ?_ hasFields
    rw [Outcome.verdict, if_pos bad]

/-- **A failure that is not legible is misreported**: one whose body has no fields, and a good reply
whose body cannot be read. -/
theorem Outcome.Failed.misreported (h : outcome.Failed) (whole : outcome.IsWhole)
    (illegible : ¬ outcome.Legible) : outcome.Misreports outcome.conclusion := by
  cases outcome with
  | failed fault => exact h.elim
  -- no reply reads as no message
  | unanswered => exact absurd trivial illegible
  -- the message of the reply cannot be taken
  | abandoned reply =>
    refine .inl (congrArg Except.error ?_)
    rw [failureOf, errorMessage_of_notObject illegible]
  | replied reply =>
    rw [Outcome.conclusion, Outcome.verdict]
    -- a bad status, whose message cannot be taken
    cases bad : isErrorStatus reply.status with
    | true =>
      rw [if_pos rfl]
      refine .inl (congrArg Except.error ?_)
      rw [failureOf, errorMessage_of_notObject fun hasFields => illegible ⟨bad, hasFields⟩]
    | false =>
      rw [if_neg (by decide)]
      -- a good reply fails only by its body
      obtain h | ⟨cause, hbody, -⟩ := h
      · exact absurd (bad.symm.trans h) (by decide)
      rw [hbody]
      cases cause with
      -- what cannot be written was excluded
      | loneHalf => exact absurd hbody (whole reply rfl)
      -- a numeral too long is no fault of the reply's text
      | tooManyDigits => exact .inr (.inl rfl)
      -- a text that is no document leaves the status out
      | malformed => exact .inr (.inr ⟨_, reply.status, rfl, rfl, rfl⟩)
      | undecodable => exact .inr (.inr ⟨_, reply.status, rfl, rfl, rfl⟩)

/-- What is misreported is not reported: a refusal that tells of no reply does not tell the status. -/
theorem Outcome.Misreports.not_reports {result : Result Json} (h : outcome.Misreports result)
    {refusal : Refusal} (hresult : result = .error (.refused refusal)) : ¬ refusal.Reports outcome := by
  obtain rfl | rfl | ⟨other, status, rfl, origin, hstatus⟩ := h
  · cases hresult
  · cases hresult
  · intro reports
    cases hresult
    have hnone : Origin.remote outcome.status? = .remote none := reports.origin.symm.trans origin
    rw [hstatus] at hnone
    cases hnone

end Failed

/-! ### What a failed call comes to -/
-- an interrupted call ends with a fault, and reports nothing

section Ends

-- a message that can be taken is needed for the report
variable {client : Client} {call : Call} {start finish : Session} {pauses : List Number}
  {result : Result Json}

/-- What is misreported of the last outcome is what the call ends with: it takes nothing from
a fault. -/
theorem Conducted.misreports (conducted : Conducted client call start pauses result finish)
    (failed : (start.upcoming pauses.length).Failed) (whole : (start.upcoming pauses.length).IsWhole)
    (illegible : ¬ (start.upcoming pauses.length).Legible) :
    (start.upcoming pauses.length).Misreports result := by
  rw [conducted.decided, Call.conclusion]
  obtain h | h | ⟨refusal, status, h, origin, hstatus⟩ := failed.misreported whole illegible
  · exact .inl (by rw [h]; rfl)
  · exact .inr (.inl (by rw [h]; rfl))
  · exact .inr (.inr ⟨refusal, status, by rw [h]; rfl, origin, hstatus⟩)

/-- A call whose last outcome is a failure reports it exactly when it ends with that outcome and the
client is prepared for it. -/
theorem Call.Ends.reports_iff (ends : call.Ends client start pauses finish result)
    (failed : (start.upcoming pauses.length).Failed)
    (whole : (start.upcoming pauses.length).IsWhole) :
    (∃ refusal, result = .error (.refused refusal)
        ∧ refusal.Reports (start.upcoming pauses.length))
      ↔ Conducted client call start pauses result finish
        ∧ (start.upcoming pauses.length).Legible := by
  constructor
  · rintro ⟨refusal, hrefusal, reports⟩
    cases ends with
    | interrupted interrupted =>
      exact absurd (Except.error.inj hrefusal) (interrupted.stops.ne_refused refusal)
    | conducted conducted =>
      refine ⟨conducted, Classical.byContradiction fun illegible => ?_⟩
      exact (conducted.misreports failed whole illegible).not_reports hrefusal reports
  · rintro ⟨conducted, legible⟩
    -- with one the verdict is the report
    obtain ⟨refusal, hrefusal, reports⟩ := failed.reported legible
    refine ⟨refusal, ?_, reports⟩
    rw [conducted.decided, Call.conclusion, hrefusal]
    rfl

end Ends

/-- **A failed call is reported exactly when the failure is legible** and the call was not ended by a
pause. Whatever the outcomes are and whatever waits, when the last outcome that a call takes is a
failure, the call ends with a refusal that tells the last status, the code that goes with it and the
message of the remote side — unless the client does not wait for the repetition, which is another
fault, or it is not prepared for the failure. Then the call ends with another fault as well, or, for a
good reply that cannot be read, with a refusal that tells of no reply in place of the last status. -/
theorem failed_call_reports_iff (client : Client) (call : Call) (start : Session) :
    ∃ pauses result finish, (client.perform call).runFrom start = (result, finish)
      ∧ call.Ends client start pauses finish result
      ∧ ((start.upcoming pauses.length).Failed → (start.upcoming pauses.length).IsWhole →
        ((∃ refusal, result = .error (.refused refusal)
            ∧ refusal.Reports (start.upcoming pauses.length))
          ↔ Conducted client call start pauses result finish
            ∧ (start.upcoming pauses.length).Legible)
        ∧ (Conducted client call start pauses result finish →
          ¬ (start.upcoming pauses.length).Legible →
          (start.upcoming pauses.length).Misreports result)) := by
  obtain ⟨pauses, ends⟩ := client.perform_ends call start
  exact ⟨pauses, ((client.perform call).runFrom start).1, ((client.perform call).runFrom start).2,
    rfl, ends, fun failed whole => ⟨ends.reports_iff failed whole,
      fun conducted => conducted.misreports failed whole⟩⟩

/-- A client that does not repeat a request. -/
def hastyClient : Client where
  token := "secret"
  baseUrl := "https://api.figma.com/v1"
  timeout := .ofInt 30
  maxRetries := 0
  firstPause := .whole 1

/-- A file that is not there, with a message of the remote side. -/
def absentFile : Session :=
  .fresh fun _ => .replied ⟨404, .ok (.obj [("err", .str "Not found")])⟩

/-- The call for it is reported. -/
theorem hastyClient_reports :
    ∃ refusal, ((hastyClient.perform (.document "key")).runFrom absentFile).1
        = .error (.refused refusal)
      ∧ refusal.code = .notFound ∧ refusal.origin = .remote (some 404)
      ∧ refusal.message = .str "Not found" := by
  -- the call ends after one request, however many pauses it takes
  obtain ⟨pauses, result, finish, run, ends, reported⟩ :=
    failed_call_reports_iff hastyClient (.document "key") absentFile
  have last : absentFile.upcoming pauses.length
      = .replied ⟨404, .ok (.obj [("err", .str "Not found")])⟩ := rfl
  rw [last] at reported
  -- no pause is asked for, so none is refused
  have conducted : Conducted hastyClient (.document "key") absentFile pauses result finish := by
    cases ends with
    | conducted h => exact h
    | interrupted h => exact absurd h.left (Nat.not_lt_zero _)
  -- the reply is read, and so is its message
  obtain ⟨⟨-, reported⟩, -⟩ := reported (.inl rfl) (by rintro _ ⟨⟩; nofun)
  obtain ⟨refusal, hrefusal, reports⟩ :=
    reported ⟨conducted, rfl, fun body hbody => ⟨_, (Except.ok.inj hbody).symm⟩⟩
  refine ⟨refusal, ?_, reports.notFound.mpr rfl, reports.origin, reports.message⟩
  rw [run]
  exact hrefusal

/-- An error status with a body that is a list: the call ends with a fault that tells nothing. -/
theorem listBody_not_reported : (Outcome.replied ⟨500, .ok (.arr [])⟩).Failed
    ∧ ((hastyClient.perform (.document "key")).runFrom
        (.fresh fun _ => .replied ⟨500, .ok (.arr [])⟩)).1 = .error .absentMember :=
  ⟨.inl rfl, rfl⟩

end Mockup

import ChangeFeed.Session

/-!
# Simulation of responders

Two ways of responding are compared by a relation of their states that looks at
the messages still to come: related states respond alike to the next message, and
stay related for the rest. Whole sessions and feeds are then alike. How much of a
pair has to agree is left open: a view says what is seen of it.

**Results.**

* `Session.related_stateAfter`: related states stay related.
* `Simulation.answers_seen`: simulated sessions show the same answers.
* `Simulation.follow_eq`: simulated feeds write the same and end in the same way.
-/

namespace ChangeFeed

namespace Container

/-- The container with what is seen of its pairs. -/
def seen (view : Emitted → Emitted) (container : Container) : Container :=
  ⟨container.primary.map view, container.secondary.map view⟩

theorem seen_ofList
    (view : Emitted → Emitted)
    (pairs : List Emitted) :
    (ofList pairs).seen view = ofList (pairs.map view) := by
  match pairs with
  | [] => rfl
  | [_] => rfl
  | _ :: _ :: _ => rfl

@[simp] theorem seen_id (container : Container) :
    container.seen id = container := by
  simp [seen]

end Container

namespace Answer

/-- The answer with what is seen of the pairs in the containers. -/
def seen (view : Emitted → Emitted) (answer : Answer) : Answer :=
  ⟨answer.failure?, fun name => (answer.containers name).seen view⟩

@[simp] theorem seen_id :
    seen id = id := by
  funext answer
  simp [seen]

end Answer

/-- Two results look the same: they fail for one reason, or what is seen of their pairs agrees. -/
def LooksAlike
    (view : Emitted → Emitted)
    (result other : Except Failure (List Emitted)) : Prop :=
  result.map (List.map view) = other.map (List.map view)

theorem LooksAlike.refl
    (view : Emitted → Emitted)
    (result : Except Failure (List Emitted)) :
    LooksAlike view result result := rfl

theorem LooksAlike.cons
    {view : Emitted → Emitted}
    {built other : Emitted}
    {result rest : Except Failure (List Emitted)}
    (hbuilt : view built = view other)
    (h : LooksAlike view result rest) :
    LooksAlike view (result.map (built :: ·)) (rest.map (other :: ·)) := by
  unfold LooksAlike at h ⊢
  cases result <;> cases rest <;> simp_all [Except.map]

theorem looksAlike_id_iff
    (result other : Except Failure (List Emitted)) :
    LooksAlike id result other ↔ result = other := by
  simp only [LooksAlike, List.map_id_fun]
  cases result <;> cases other <;> simp [Except.map]

/--
States of two responders that are related before a message respond to it alike,
and are then related for the messages after it.
-/
structure Simulation
    {σ τ : Type}
    (view : Emitted → Emitted)
    (first : Responder σ)
    (second : Responder τ)
    (Related : σ → τ → List Message → Prop) : Prop where
  alike :
    ∀ state other message rest,
      Related state other (message :: rest) →
      LooksAlike view (first state message).1 (second other message).1
  next :
    ∀ state other message rest,
      Related state other (message :: rest) →
      Related (first state message).2 (second other message).2 rest

theorem Session.stateAfter_snoc
    {σ : Type}
    (respond : Responder σ)
    (state : σ)
    (messages : List Message)
    (message : Message) :
    stateAfter respond state (messages ++ [message]) =
      (respond (stateAfter respond state messages) message).2 := by
  simp [stateAfter]

/-- A relation that one message keeps is kept by any number of them. -/
theorem Session.related_stateAfter
    {σ τ : Type}
    {first : Responder σ}
    {second : Responder τ}
    {Related : σ → τ → List Message → Prop}
    (hnext :
      ∀ state other message rest,
        Related state other (message :: rest) →
        Related (first state message).2 (second other message).2 rest)
    {state : σ}
    {other : τ}
    {rest : List Message}
    (messages : List Message)
    (hrelated : Related state other (messages ++ rest)) :
    Related (stateAfter first state messages) (stateAfter second other messages) rest := by
  induction messages generalizing state other with
  | nil => exact hrelated
  | cons message messages ih => exact ih (hnext _ _ _ _ hrelated)

namespace Feed

/-- The messages of lines, in order. -/
def messagesOf (lines : List (List Char)) : List Message :=
  lines.filterMap fun line =>
    if isBlankLine line then none else (messageOf line).toOption

end Feed

namespace Simulation

variable {σ τ : Type}
variable {view : Emitted → Emitted}
variable {first : Responder σ}
variable {second : Responder τ}
variable {Related : σ → τ → List Message → Prop}

/-- Results that look alike leave containers that look alike. -/
theorem seen_answer
    {result other : Except Failure (List Emitted)}
    {containers others : String → Container}
    (hresult : LooksAlike view result other)
    (hcontainers : ∀ name, (containers name).seen view = (others name).seen view)
    (call : Call) :
    (Session.answer containers call result).seen view =
      (Session.answer others call other).seen view := by
  unfold LooksAlike at hresult
  cases result with
  | error failure =>
      cases other with
      | ok pairs => contradiction
      | error cause =>
          cases hresult
          cases call <;>
            simp [Session.answer, Session.failureOf?, Answer.seen, Call.fill, hcontainers]
  | ok pairs =>
      cases other with
      | error failure => contradiction
      | ok others =>
          have hpairs : pairs.map view = others.map view := Except.ok.inj hresult
          cases call with
          | notify notice =>
              simp [Session.answer, Session.failureOf?, Answer.seen, Call.fill, hcontainers]
          | format change table into =>
              simp only [Session.answer, Session.failureOf?, Answer.seen, Call.fill,
                Answer.mk.injEq, true_and]
              funext name
              by_cases hname : name = into
              · simp [hname, Container.seen_ofList, hpairs]
              · simp [hname, hcontainers]

theorem answers_seen
    (h : Simulation view first second Related)
    {state : σ}
    {other : τ}
    {containers others : String → Container}
    (calls : List Call)
    (hrelated : Related state other (calls.map Call.message))
    (hcontainers : ∀ name, (containers name).seen view = (others name).seen view) :
    (Session.answers first state containers calls).map (Answer.seen view) =
      (Session.answers second other others calls).map (Answer.seen view) := by
  induction calls generalizing state other containers others with
  | nil =>
      rfl
  | cons call rest ih =>
      rw [List.map_cons] at hrelated
      have halike := h.alike _ _ _ _ hrelated
      have hanswer := seen_answer halike hcontainers call
      have hrest :=
        ih (h.next _ _ _ _ hrelated) fun name =>
          congrFun (congrArg Answer.containers hanswer) name
      simp only [Session.answers, List.map_cons, hanswer, hrest]

theorem follow_eq
    (h : Simulation id first second Related)
    {state : σ}
    {other : τ}
    (number : Nat)
    (lines : List (List Char))
    (hrelated : Related state other (Feed.messagesOf lines)) :
    Feed.follow first state number lines = Feed.follow second other number lines := by
  induction lines generalizing state other number with
  | nil =>
      rfl
  | cons line rest ih =>
      simp only [Feed.messagesOf, List.filterMap_cons] at hrelated
      simp only [Feed.follow]
      cases hblank : Feed.isBlankLine line with
      | true =>
          rw [hblank] at hrelated
          exact ih _ hrelated
      | false =>
          simp only [hblank, Bool.false_eq_true, if_false] at hrelated ⊢
          cases hmessage : Feed.messageOf line with
          | error stop => rfl
          | ok message =>
              rw [hmessage] at hrelated
              have hresult := (looksAlike_id_iff _ _).1 (h.alike _ _ _ _ hrelated)
              have hnext := h.next _ _ _ _ hrelated
              simp only
              cases hfirst : first state message with
              | mk result next =>
                  cases hsecond : second other message with
                  | mk result' next' =>
                      rw [hfirst, hsecond] at hresult hnext
                      cases hresult
                      cases result with
                      | error failure => rfl
                      | ok pairs =>
                          simp only [ih (number + 1) hnext]

end Simulation
end ChangeFeed

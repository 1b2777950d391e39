/-!
# Transcripts

A service answers one request after the other. Two services whose states are related, and whose
steps keep them related and answer alike, have the same transcripts. What holds of a state and of
everything that was said before it is carried through a whole dialogue by one step.
-/

namespace SeriesxEmu.Transcripts

variable {State Other Request Answer : Type}

/-- The answers to a sequence of requests. -/
def transcript (serve : State → Request → State × Answer) : State → List Request → List Answer
  | _, [] => []
  | state, request :: rest => (serve state request).2 :: transcript serve (serve state request).1 rest

/-- The state after a sequence of requests. -/
def after (serve : State → Request → State × Answer) : State → List Request → State
  | state, [] => state
  | state, request :: rest => after serve (serve state request).1 rest

/-- The requests with their answers. -/
def dialogue (serve : State → Request → State × Answer) : State → List Request → List (Request × Answer)
  | _, [] => []
  | state, request :: rest => (request, (serve state request).2) :: dialogue serve (serve state request).1 rest

/-- Related services cannot be told apart. -/
theorem transcript_eq {serve : State → Request → State × Answer} {specified : Other → Request → Other × Answer}
    {related : State → Other → Prop}
    (each : ∀ state other request, related state other →
      related (serve state request).1 (specified other request).1 ∧
        (serve state request).2 = (specified other request).2)
    (requests : List Request) {state : State} {other : Other} (start : related state other) :
    transcript serve state requests = transcript specified other requests := by
  induction requests generalizing state other with
  | nil => rfl
  | cons request rest inductionHypothesis =>
    obtain ⟨kept, answers⟩ := each state other request start
    rw [transcript, transcript, answers, inductionHypothesis kept]

/-- What holds of a state and its past. -/
theorem dialogue_invariant {serve : State → Request → State × Answer} {holds : List (Request × Answer) → State → Prop}
    (each : ∀ past state request, holds past state →
      holds (past ++ [(request, (serve state request).2)]) (serve state request).1)
    (requests : List Request) {past : List (Request × Answer)} {state : State} (start : holds past state) :
    holds (past ++ dialogue serve state requests) (after serve state requests) := by
  induction requests generalizing past state with
  | nil =>
    rw [dialogue, List.append_nil]
    exact start
  | cons request rest inductionHypothesis =>
    have next := inductionHypothesis (each past state request start)
    rw [List.append_assoc, List.singleton_append] at next
    exact next

end SeriesxEmu.Transcripts

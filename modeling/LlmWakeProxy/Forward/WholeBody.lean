import LlmWakeProxy.Library.Transition
import LlmWakeProxy.Library.Utf8
import LlmWakeProxy.Forward.Exchange

/-!
What `forward_non_streaming` makes of a body that does not arrive whole. The bytes
of the body come in pieces and the body ends or breaks off; `text()` gives the text
of a whole body and an error for one that broke off, and `unwrap_or_default` turns
the error into the empty text, which is then taken for the answer of the upstream.
-/

namespace LlmWakeProxy.Forward
open LlmWakeProxy.Library

universe u
variable {ν : Type u}

inductive BodyEnd where
  | complete
  | brokenOff
  deriving DecidableEq, Repr

inductive ExchangePc where
  | awaiting (pc : ForwardPc)
  | done (result : ForwardResult)
  deriving DecidableEq

/-- An exchange: where the call stands and the flag of its `RequestCancellation`,
and what has come from the upstream. -/
structure Exchange where
  pc : ExchangePc
  isCancelled : Bool
  answered : Option Nat
  received : List UInt8
  ended : Option BodyEnd

inductive ExchangeAction where
  | forward (input : ForwardInput)
  | cancel
  | chunk (bytes : List UInt8)
  | ends (ending : BodyEnd)

namespace Exchange

def start : Exchange where
  pc := .awaiting .begun
  isCancelled := false
  answered := none
  received := []
  ended := none

def advance (s : Exchange) : ForwardProgress → Exchange
  | .pending pc => { s with pc := .awaiting pc }
  | .done result => { s with pc := .done result }

/-- `result.text()`; reqwest decodes the bytes. -/
def text (decode : List UInt8 → Text) (s : Exchange) : BodyEnd → Option Text
  | .complete => some (decode s.received)
  | .brokenOff => none

/-- The status line comes with the answer. -/
def note (s : Exchange) : ForwardInput → Exchange
  | .answered status => { s with answered := some status }
  | _ => s

def step (serde : SerdeJson ν) (decode : List UInt8 → Text) (request : ForwardRequest)
    (s : Exchange) : ExchangeAction → Option Exchange
  | .cancel => some { s with isCancelled := true }
  | .forward input =>
      match s.pc with
      | .awaiting (.sending redirects posts delivered) =>
          (forwardStep serde request s.isCancelled (.sending redirects posts delivered) input).map
            (s.note input).advance
      | _ => none
  | .chunk bytes =>
      match s.pc with
      | .awaiting (.reading _) => some { s with received := s.received ++ bytes }
      | _ => none
  | .ends ending =>
      match s.pc with
      | .awaiting (.reading status) =>
          (forwardStep serde request s.isCancelled (.reading status)
            (.body (s.text decode ending))).map { s with ended := some ending }.advance
      | _ => none

end Exchange

/-- The arguments of `forward_non_streaming`. -/
def unstreamed (port : UInt16) (path : String) (modelAlias : Text) : ForwardRequest where
  port := port
  path := path
  stream := false
  modelAlias := modelAlias

/-- An exchange of `forward_non_streaming`. -/
def forwardNonStreaming (serde : SerdeJson ν) (decode : List UInt8 → Text) (port : UInt16)
    (path : String) (modelAlias : Text) : System Exchange ExchangeAction where
  step := Exchange.step serde decode (unstreamed port path modelAlias)

/-- The upstream answered with success and its whole body came. -/
def Exchange.Whole (s : Exchange) : Prop :=
  (∃ status, s.answered = some status ∧ isSuccess status = true) ∧ s.ended = some .complete

/-- The upstream answered with success and its body broke off. -/
def Exchange.BrokeOff (s : Exchange) : Prop :=
  (∃ status, s.answered = some status ∧ isSuccess status = true) ∧ s.ended = some .brokenOff

/-- Only a whole body is presented as a response, and that as the rewriting of it. -/
structure Honest (serde : SerdeJson ν) (decode : List UInt8 → Text) (modelAlias : Text)
    (s : Exchange) (result : ForwardResult) : Prop where
  whole : ∀ response, result = .ok response → s.Whole ∧
    response = { status := 200
                 retryAfter := none
                 body := .json (rewriteModelAlias serde (decode s.received) modelAlias) }
  fails : ¬ s.Whole → ∃ error, result = .error error

section
variable {serde : SerdeJson ν} {decode : List UInt8 → Text} {port : UInt16} {path : String}
variable {modelAlias : Text} {s s' : Exchange}

/-- What has come by the time the call stands there. -/
def Exchange.Placed (serde : SerdeJson ν) (decode : List UInt8 → Text) (request : ForwardRequest)
    (s : Exchange) : Prop :=
  match s.pc with
  | .awaiting (.sending ..) => s.answered = none ∧ s.ended = none
  | .awaiting (.reading status) => s.answered = some status ∧ s.ended = none
  | .done result =>
      (s.ended = none ∧ ∃ error, result = .error error) ∨
        ∃ status ending, s.answered = some status ∧ s.ended = some ending ∧
          result = readAnswer serde request status ((s.text decode ending).getD [])

theorem placed_forward {request : ForwardRequest} {redirects : Nat} {posts delivered : Bool}
    {input : ForwardInput} {progress : ForwardProgress}
    (waiting : s.answered = none ∧ s.ended = none) (unstreamed : request.stream = false)
    (rule : ForwardRule serde request s.isCancelled (.sending redirects posts delivered) input
      progress) :
    ((s.note input).advance progress).Placed serde decode request := by
  cases rule with
  | delivered _ _ | redirected _ _ _ _ _ _ => exact waiting
  | failed _ _ _ error _ => exact .inl ⟨waiting.2, _, rfl⟩
  | streamed _ _ status stream _ =>
      rw [unstreamed] at stream
      cases stream
  | answered _ _ status _ => exact ⟨rfl, waiting.2⟩
  | cancelled _ _ _ _ => exact .inl ⟨waiting.2, _, rfl⟩

theorem placed_reachable
    (h : (forwardNonStreaming serde decode port path modelAlias).Reachable .start s) :
    s.Placed serde decode (unstreamed port path modelAlias) := by
  refine h.invariant ?_ ?_
  · exact ⟨rfl, rfl⟩
  intro t a t' ht hstep
  cases a with
  | cancel =>
      cases hstep
      exact ht
  | forward input =>
      simp only [forwardNonStreaming, Exchange.step] at hstep
      unfold Exchange.Placed at ht
      split at hstep
      next redirects posts delivered hpc =>
        rw [hpc] at ht
        obtain ⟨progress, hforward, rfl⟩ := Option.map_eq_some_iff.mp hstep
        exact placed_forward ht rfl (forwardStep_cases hforward)
      next => cases hstep
  | chunk bytes =>
      simp only [forwardNonStreaming, Exchange.step] at hstep
      unfold Exchange.Placed at ht ⊢
      split at hstep
      next status hpc =>
        cases hstep
        rw [hpc] at ht ⊢
        exact ht
      next => cases hstep
  | ends ending =>
      simp only [forwardNonStreaming, Exchange.step] at hstep
      unfold Exchange.Placed at ht
      split at hstep
      next status hpc =>
        rw [hpc] at ht
        obtain ⟨progress, hforward, rfl⟩ := Option.map_eq_some_iff.mp hstep
        cases forwardStep_cases hforward with
        | read _ _ => exact .inr ⟨status, ending, ht.1, rfl, rfl⟩
      next => cases hstep

theorem honest_of_error (error : ForwardError) :
    Honest serde decode modelAlias s (.error error) where
  whole response hok := by cases hok
  fails _ := ⟨error, rfl⟩

/-- `forward_non_streaming` presents nothing but whole bodies exactly in the
exchanges in which no successful body breaks off. -/
theorem honest_iff {result : ForwardResult}
    (h : (forwardNonStreaming serde decode port path modelAlias).Reachable .start s)
    (done : s.pc = .done result) :
    Honest serde decode modelAlias s result ↔ ¬ s.BrokeOff := by
  have placed := placed_reachable h
  unfold Exchange.Placed at placed
  rw [done] at placed
  obtain ⟨unended, error, rfl⟩ | ⟨status, ending, answered, ended, hresult⟩ := placed
  · refine iff_of_true (honest_of_error error) ?_
    rintro ⟨_, broke⟩
    rw [unended] at broke
    cases broke
  · have reading := readAnswer_cases serde (unstreamed port path modelAlias) status
      ((s.text decode ending).getD [])
    rw [← hresult] at reading
    have failed : isSuccess status = false → ¬ s.BrokeOff := by
      rintro failure ⟨⟨status', answered', success⟩, _⟩
      cases answered.symm.trans answered'
      rw [failure] at success
      cases success
    cases reading with
    | unsupported failure => exact iff_of_true (honest_of_error _) (failed failure)
    | upstreamError failure => exact iff_of_true (honest_of_error _) (failed failure)
    | rewritten success =>
        cases ending with
        | complete =>
            have whole : s.Whole := ⟨⟨status, answered, success⟩, ended⟩
            refine iff_of_true ⟨?_, fun missing => absurd whole missing⟩ ?_
            · intro response hok
              exact ⟨whole, (Except.ok.inj hok).symm⟩
            · rintro ⟨_, broke⟩
              rw [ended] at broke
              cases broke
        | brokenOff =>
            refine iff_of_false (fun honest => ?_)
              (not_not.mpr ⟨⟨status, answered, success⟩, ended⟩)
            have whole := (honest.whole _ rfl).1.2
            rw [ended] at whole
            cases whole

/-- The upstream answers 200 and sends the body, which ends so. -/
def answerSchedule (ending : BodyEnd) : List ExchangeAction :=
  [.forward .deliver, .forward (.answered 200), .chunk [0x7b, 0x7d], .ends ending]

theorem honest_iff_complete :
    ∃ s, (forwardNonStreaming .mute Utf8.decodeLossy 8080 "/v1/chat/completions"
        "alias".toList).Reachable .start s ∧
      s.pc = .done (.ok { status := 200, retryAfter := none, body := .json ['\x7b', '\x7d'] }) ∧
      Honest .mute Utf8.decodeLossy "alias".toList s
        (.ok { status := 200, retryAfter := none, body := .json ['\x7b', '\x7d'] }) := by
  have complete : ∃ s, (forwardNonStreaming .mute Utf8.decodeLossy 8080 "/v1/chat/completions"
      "alias".toList).Reachable .start s ∧
      s.pc = .done (.ok { status := 200, retryAfter := none, body := .json ['\x7b', '\x7d'] }) ∧
      s.ended = some .complete :=
    System.reachable_of_check (answerSchedule .complete) (by decide)
  obtain ⟨s, hrun, done, ended⟩ := complete
  refine ⟨s, hrun, done, (honest_iff hrun done).mpr ?_⟩
  rintro ⟨_, broke⟩
  rw [ended] at broke
  cases broke

/-- The body breaks off, and the client gets an empty body with status 200. -/
theorem broken_body_is_presented :
    ∃ s, (forwardNonStreaming .mute Utf8.decodeLossy 8080 "/v1/chat/completions"
        "alias".toList).Reachable .start s ∧
      s.received = [0x7b, 0x7d] ∧ s.ended = some .brokenOff ∧
      s.pc = .done (.ok { status := 200, retryAfter := none, body := .json [] }) ∧
      ¬ Honest .mute Utf8.decodeLossy "alias".toList s
        (.ok { status := 200, retryAfter := none, body := .json [] }) := by
  have broken : ∃ s, (forwardNonStreaming .mute Utf8.decodeLossy 8080 "/v1/chat/completions"
      "alias".toList).Reachable .start s ∧ s.received = [0x7b, 0x7d] ∧
      s.ended = some .brokenOff ∧
      s.pc = .done (.ok { status := 200, retryAfter := none, body := .json [] }) :=
    System.reachable_of_check (answerSchedule .brokenOff) (by decide)
  obtain ⟨s, hrun, received, ended, done⟩ := broken
  refine ⟨s, hrun, received, ended, done, fun honest => ?_⟩
  have complete := (honest.whole _ rfl).1.2
  rw [ended] at complete
  cases complete

end

end LlmWakeProxy.Forward

import LlmWakeProxy.Orchestrate.InFlight
import LlmWakeProxy.Orchestrate.Stages

/-!
What happens to a call before it is answered takes one of a few courses, with two
forwards at most, the second only after the upstream of the first was unreachable. A
forward has its request delivered, and posted again wherever the upstream redirects it
to, so many times at most, or does not have it delivered at all.
-/

namespace LlmWakeProxy.Orchestrate
open LlmWakeProxy.Library LlmWakeProxy.Scheduler LlmWakeProxy.Forward

universe u
variable {ν : Type u} {serde : SerdeJson ν} {config : AppConfig}
variable {s s' : Orchestrator} {i : Nat} {stage after : Stage} {story news : List Event}

def deliveredAgain (i again : Nat) : List Event :=
  List.replicate again (.redelivered i) ++ [.delivered i]

/-- What a forward that has ended may have recorded. -/
def Attempt (i : Nat) (sent : List Event) : Prop :=
  sent = [] ∨ ∃ again ≤ maxRedirects, sent = deliveredAgain i again

/-- What a forward that has come this far has recorded. -/
inductive SentBy (i : Nat) : ForwardPc → List Event → Prop
  | begun : SentBy i .begun []
  | sending (redirects : Nat) (posts delivered : Bool) (again : Nat)
      (few : redirects ≤ maxRedirects) (apart : again + (!delivered).toNat ≤ redirects) :
      SentBy i (.sending redirects posts delivered) (deliveredAgain i again)
  | reading (status again : Nat) (few : again ≤ maxRedirects) :
      SentBy i (.reading status) (deliveredAgain i again)

/-- What can happen to call `i` until it is answered, latest first. -/
inductive Course (i : Nat) : List Event → Prop
  | sending {sent : List Event} (attempt : Attempt i sent) : Course i sent
  | forwarded {sent : List Event} (result : ForwardResult) (attempt : Attempt i sent) :
      Course i (.forwarded i result :: sent)
  | degraded {sent : List Event} (reason : String) (attempt : Attempt i sent) :
      Course i (.degraded i reason :: .forwarded i (.error .embeddingsUnsupported) :: sent)
  | sendingAgain {again sent : List Event} (second : Attempt i again) (attempt : Attempt i sent) :
      Course i (again ++ .forwarded i (.error .upstreamUnreachable) :: sent)
  | forwardedAgain {again sent : List Event} (result : ForwardResult) (second : Attempt i again)
      (attempt : Attempt i sent) :
      Course i (.forwarded i result ::
        (again ++ .forwarded i (.error .upstreamUnreachable) :: sent))

/-- Where the stages of a call stand in its course. -/
inductive OnCourse (i : Nat) : Stage → List Event → Prop
  | early : OnCourse i .early []
  | first {sent : List Event} (pc : ForwardPc) (sends : SentBy i pc sent) : OnCourse i (.first pc) sent
  | firstDone {sent : List Event} (result : ForwardResult) (attempt : Attempt i sent) :
      OnCourse i (.firstDone result) (.forwarded i result :: sent)
  | degrading {sent : List Event} (reason : String) (attempt : Attempt i sent) :
      OnCourse i (.degrading reason) (.forwarded i (.error .embeddingsUnsupported) :: sent)
  | unreachable {sent : List Event} (attempt : Attempt i sent) :
      OnCourse i .unreachable (.forwarded i (.error .upstreamUnreachable) :: sent)
  | second {again sent : List Event} (pc : ForwardPc) (sends : SentBy i pc again)
      (attempt : Attempt i sent) :
      OnCourse i (.second pc) (again ++ .forwarded i (.error .upstreamUnreachable) :: sent)
  | replying {story : List Event} (response : Response) (course : Course i story) :
      OnCourse i (.replying response) story
  | quit {story : List Event} (course : Course i story) : OnCourse i .over story
  | answered {course : List Event} (response : Response) (took : Course i course) :
      OnCourse i .over (.responded i response :: course)

theorem Attempt.unanswered {sent rest : List Event} {response : Response} (h : Attempt i sent)
    (later : List Event) (other : ∀ rest, later ≠ .responded i response :: rest) :
    sent ++ later ≠ .responded i response :: rest := by
  obtain rfl | ⟨again, _, rfl⟩ := h
  · exact other rest
  · cases again with
    | zero => simp [deliveredAgain]
    | succ again => simp [deliveredAgain, List.replicate_succ]

theorem Course.unanswered {response : Response} {rest : List Event} (h : Course i story) :
    story ≠ .responded i response :: rest := by
  cases h with
  | sending attempt =>
      rw [← List.append_nil story]
      exact attempt.unanswered [] (by simp)
  | forwarded _ _ | degraded _ _ | forwardedAgain _ _ _ => simp
  | sendingAgain second _ => exact second.unanswered _ (by simp)

theorem SentBy.attempt {pc : ForwardPc} {sent : List Event} (h : SentBy i pc sent) :
    Attempt i sent := by
  cases h with
  | begun => exact .inl rfl
  | sending _ _ _ again few apart => exact .inr ⟨again, by omega, rfl⟩
  | reading _ again few => exact .inr ⟨again, few, rfl⟩

theorem OnCourse.course (h : OnCourse i stage story) (unanswered : stage ≠ .over) :
    Course i story := by
  cases h with
  | early => exact .sending (.inl rfl)
  | first pc sends => exact .sending sends.attempt
  | firstDone result attempt => exact .forwarded result attempt
  | degrading reason attempt => exact .forwarded _ attempt
  | unreachable attempt => exact .forwarded _ attempt
  | second pc sends attempt => exact .sendingAgain sends.attempt attempt
  | replying response course => exact course
  | quit _ => exact absurd rfl unanswered
  | answered _ _ => exact absurd rfl unanswered

theorem SentBy.pending {request : ForwardRequest} {isCancelled : Bool} {input : ForwardInput}
    {before after : ForwardPc} {sent : List Event} (h : SentBy i before sent)
    (forward : forwardStep serde request isCancelled before input = some (.pending after)) :
    SentBy i after (deliveryOf i before input ++ sent) := by
  generalize hprogress : ForwardProgress.pending after = progress at forward
  cases forwardStep_cases forward with
  | delivered redirects posts =>
      cases hprogress
      cases h with
      | begun => exact .sending 0 true true 0 (Nat.zero_le _) (Nat.le_refl 0)
      | sending _ _ _ again few apart =>
          cases redirects with
          | zero => simp at apart
          | succ redirects =>
              simp only [Bool.not_false, Bool.toNat_true] at apart
              cases posts with
              | true => exact .sending _ true true (again + 1) few apart
              | false => exact .sending _ false true again few (Nat.le_of_lt apart)
  | redirected redirects posts again status few _ =>
      cases hprogress
      rw [deliveryOf_of_ne (by simp)]
      cases h with
      | sending _ _ _ sent _ apart =>
          refine .sending _ _ _ sent few ?_
          simpa using apart
  | answered redirects posts status _ =>
      cases hprogress
      rw [deliveryOf_of_ne (by simp)]
      cases h with
      | sending _ _ _ sent few apart => exact .reading status sent (by omega)
  | failed _ _ _ _ _ | streamed _ _ _ _ _ | cancelled _ _ _ _ | read _ _ => cases hprogress

theorem OnCourse.step {request : ForwardRequest} {input : Input} (h : OnCourse i stage story)
    (rule : StageRule serde request i stage input news after) :
    OnCourse i after (news ++ story) := by
  cases rule with
  | stays _ _ => exact h
  | leaves _ _ =>
      by_cases unanswered : stage = .over
      · exact unanswered ▸ h
      · exact .quit (h.course unanswered)
  | rejected _ response => exact .replying response (h.course (by simp))
  | begins =>
      cases h
      exact .first .begun .begun
  | firstPending _ input before after forward =>
      cases h with
      | first _ sends => exact .first after (sends.pending forward)
  | firstDone _ _ before result _ =>
      cases h with
      | first _ sends => exact .firstDone result sends.attempt
  | unsupported reason =>
      cases h with
      | firstDone _ attempt => exact .degrading reason attempt
  | unreachable =>
      cases h with
      | firstDone _ attempt => exact .unreachable attempt
  | answered result response _ _ => exact .replying response (h.course (by simp))
  | degraded reason response =>
      cases h with
      | degrading _ attempt => exact .replying response (.degraded reason attempt)
  | retries status =>
      cases h with
      | unreachable attempt => exact .second .begun .begun attempt
  | givesUp _ response => exact .replying response (h.course (by simp))
  | secondPending input before after forward =>
      cases h with
      | second _ sends attempt =>
          rw [← List.append_assoc]
          exact .second after (sends.pending forward) attempt
  | secondDone _ before result _ =>
      cases h with
      | second _ sends attempt =>
          exact .replying _ (.forwardedAgain result sends.attempt attempt)
  | responded response =>
      cases h with
      | replying _ course => exact .answered response course

theorem OnCourse.story_eq_nil (h : OnCourse i .early story) : story = [] := by
  cases h
  rfl

theorem OnCourse.unreachable_story (h : OnCourse i .unreachable story) :
    ∃ sent, story = .forwarded i (.error .upstreamUnreachable) :: sent := by
  cases h with
  | @unreachable sent _ => exact ⟨sent, rfl⟩

theorem OnCourse.degrading_story {reason : String} (h : OnCourse i (.degrading reason) story) :
    ∃ sent, story = .forwarded i (.error .embeddingsUnsupported) :: sent := by
  cases h with
  | @degrading sent _ _ => exact ⟨sent, rfl⟩

theorem OnCourse.second_story {pc : ForwardPc} (h : OnCourse i (.second pc) story) :
    ∃ again sent, story = again ++ .forwarded i (.error .upstreamUnreachable) :: sent := by
  cases h with
  | @second again sent _ _ _ => exact ⟨again, sent, rfl⟩

end LlmWakeProxy.Orchestrate

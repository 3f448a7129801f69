import LlmWakeProxy.Helper.Identity
import LlmWakeProxy.Host.Rpc

/-!
The contract between the helper and the proxy. The helper prints a response
whatever its status is, and fails with its exit code unless the status is `Ok`;
the proxy reads a response only from a helper that did not fail. What the proxy
would make of the other statuses is therefore never made of anything: it reports
the helper's stderr as an error of its own.
-/

namespace LlmWakeProxy.Host
open LlmWakeProxy.Library LlmWakeProxy.Helper
open PanicM (bind_eq_some pure_eq_some)
open LlmWakeProxy.Forward (Text Value)

universe u
variable {ν : Type u} {σ : Type} {config : HelperConfig} {services : Services ν σ}
variable {codec : JsonCodec EnsureStartedResponse} {utf8Error : List UInt8 → String}
variable {args : List Text} {expectedModelPath : Option Text} {request : Request}
variable {session session' : Session σ} {response : EnsureStartedResponse} {output : Output}

theorem exit_cases {success : Bool} {stdout : Text} {complaints : List String}
    (h : Helper.exit success stdout complaints session = (some output, session')) :
    output.success = success ∧ output.stdout = Utf8.encode stdout := by
  obtain ⟨_, _, _, hrest⟩ := bind_eq_some.mp h
  obtain ⟨_, _, _, hpure⟩ := bind_eq_some.mp hrest
  cases pure_eq_some.mp hpure
  exact ⟨rfl, rfl⟩

theorem complain_total (complaints : List String) (session : Session σ) :
    ∃ next, complaints.forM eprintln session = (some (), next) := by
  induction complaints generalizing session with
  | nil => exact ⟨session, rfl⟩
  | cons line rest ih =>
      obtain ⟨next, hrest⟩ := ih { session with stderr := session.stderr ++ line ++ "\n" }
      exact ⟨next, bind_eq_some.mpr ⟨(), _, rfl, hrest⟩⟩

theorem exit_total (success : Bool) (stdout : Text) (complaints : List String)
    (session : Session σ) :
    ∃ output session', Helper.exit success stdout complaints session = (some output, session') := by
  obtain ⟨next, hnext⟩ := complain_total complaints session
  let output : Output := { success := success
                           stdout := Utf8.encode stdout
                           stderr := Utf8.encode next.stderr.toList }
  exact ⟨output, next, bind_eq_some.mpr ⟨(), next, hnext, bind_eq_some.mpr ⟨next, next, rfl, rfl⟩⟩⟩

theorem main_cases {next : Session σ} (parsed : parseRequest args expectedModelPath = .ok request)
    (emitted : Helper.ensureStarted config services request.target request.modelAlias
      request.modelPath session = (some response, next))
    (run : Helper.main codec config services args expectedModelPath session =
      (some output, session')) :
    output.success = decide (response.status = .ok) ∧
      output.stdout = Utf8.encode (codec.toString response ++ ['\n']) := by
  simp only [Helper.main, parsed] at run
  obtain ⟨_, _, hemitted, hexit⟩ := bind_eq_some.mp run
  rw [emitted] at hemitted
  cases hemitted
  exact exit_cases hexit

theorem main_total {next : Session σ} (codec : JsonCodec EnsureStartedResponse)
    (parsed : parseRequest args expectedModelPath = .ok request)
    (emitted : Helper.ensureStarted config services request.target request.modelAlias
      request.modelPath session = (some response, next)) :
    ∃ output session', Helper.main codec config services args expectedModelPath session =
      (some output, session') := by
  obtain ⟨output, session', hexit⟩ := exit_total (response.status = .ok)
    (codec.toString response ++ ['\n']) (complaint response) next
  refine ⟨output, session', ?_⟩
  simp only [Helper.main, parsed]
  exact bind_eq_some.mpr ⟨response, next, emitted, hexit⟩

theorem observedOf_conveys (response : EnsureStartedResponse) :
    Conveys response (observedOf response) := by
  cases hstatus : response.status with
  | ok =>
      refine ⟨?_, ?_, ?_, ?_, rfl⟩ <;> simp +contextual [observedOf, hstatus]
  | mismatch | error =>
      refine ⟨?_, ?_, ?_, ?_, rfl⟩ <;> simp [observedOf, hstatus]

/-- The proxy learns what the response says. -/
def Conveyed (codec : JsonCodec EnsureStartedResponse) (utf8Error : List UInt8 → String)
    (response : EnsureStartedResponse) (output : Output) : Prop :=
  ∃ observed, ensureStarted codec utf8Error (.ok output) = .ok observed ∧ Conveys response observed

theorem conveyed_of_success (faithful : codec.Faithful response) (success : output.success = true)
    (stdout : output.stdout = Utf8.encode (codec.toString response ++ ['\n'])) :
    Conveyed codec utf8Error response output := by
  refine ⟨observedOf response, ?_, observedOf_conveys response⟩
  have hread : runHelperCmd utf8Error (.ok output) = .ok (codec.toString response ++ ['\n']) := by
    simp only [runHelperCmd, success, stdout, if_true, Utf8.decode_encode]
  simp only [ensureStarted, hread, bind, Except.bind,
    show codec.fromStr (codec.toString response ++ ['\n']) = .ok response from faithful]
  rfl

theorem not_conveyed_of_failure (failed : output.success = false) :
    ¬ Conveyed codec utf8Error response output := by
  rintro ⟨observed, hobserved, _⟩
  simp [ensureStarted, runHelperCmd, failed, bind, Except.bind] at hobserved

/-- A response the helper emits reaches the proxy exactly when its status is `Ok`. -/
theorem response_conveyed_iff (codec : JsonCodec EnsureStartedResponse)
    (utf8Error : List UInt8 → String) (config : HelperConfig) (services : Services ν σ)
    (args : List Text) (expectedModelPath : Option Text) (request : Request)
    (session next session' : Session σ) (response : EnsureStartedResponse) (output : Output)
    (parsed : parseRequest args expectedModelPath = .ok request)
    (emitted : Helper.ensureStarted config services request.target request.modelAlias
      request.modelPath session = (some response, next))
    (run : Helper.main codec config services args expectedModelPath session =
      (some output, session'))
    (faithful : codec.Faithful response) :
    Conveyed codec utf8Error response output ↔ response.status = .ok := by
  obtain ⟨hsuccess, hstdout⟩ := main_cases parsed emitted run
  constructor
  · intro conveyed
    by_contra hstatus
    rw [decide_eq_false hstatus] at hsuccess
    exact not_conveyed_of_failure hsuccess conveyed
  · intro hstatus
    rw [decide_eq_true hstatus] at hsuccess
    exact conveyed_of_success faithful hsuccess hstdout

section Instances

def codecOn (response : EnsureStartedResponse) (text : String) : JsonCodec EnsureStartedResponse where
  toString _ := text.toList
  fromStr _ := .ok response

def modelFile : Text := "/models/a.gguf".toList

def commandLine : List Text :=
  ["helper".toList, "ensure-started".toList, "chat".toList, "m".toList]

def verifiedText : String :=
  "\x7b\x22status\x22:\x22ok\x22,\x22message\x22:\x22model is already running and ready\x22," ++
  "\x22model_alias\x22:\x22m\x22,\x22model_path\x22:\x22/models/a.gguf\x22," ++
  "\x22startup_triggered\x22:false,\x22server_ready\x22:true,\x22model_verified\x22:true," ++
  "\x22llama_server\x22:\x7b\x22unit_name\x22:\x22llama-server\x22," ++
  "\x22active_state\x22:\x22unknown\x22,\x22sub_state\x22:\x22unknown\x22," ++
  "\x22description\x22:\x22\x22\x7d\x7d"

/-- A verified model is reported to the proxy as one. -/
theorem response_conveyed_iff_verified :
    ∃ output, Conveyed (codecOn (verifiedResponse .chat ['m'] modelFile) verifiedText)
      (fun _ => "") (verifiedResponse .chat ['m'] modelFile) output := by
  obtain ⟨next, emitted, _⟩ := reporting_verified .chat ['m']
    (show modelMatches modelFile modelFile = true by decide)
  have parsed : parseRequest commandLine (some modelFile) = .ok ⟨.chat, ['m'], modelFile⟩ := by
    decide
  obtain ⟨output, session', run⟩ :=
    main_total (codecOn (verifiedResponse .chat ['m'] modelFile) verifiedText) parsed emitted
  exact ⟨output, (response_conveyed_iff _ (fun _ => "") _ _ _ _ _ _ _ _ _ _ parsed emitted run
    rfl).mpr rfl⟩

def withoutUnit : Services Empty Nat :=
  { Helper.reporting [] with
    isActive := fun _ clock => (.ok false, clock)
    startUnit := fun _ clock => (.error "systemctl start failed", clock) }

def failedResponse : EnsureStartedResponse where
  status := .error
  message := "failed to start llama-server: systemctl start failed"
  modelAlias := ['m']
  modelPath := modelFile
  startupTriggered := false
  serverReady := false
  modelVerified := false
  llamaServer := some { unitName := "llama-server"
                        activeState := "failed"
                        subState := "startup_error"
                        description := "systemctl start failed" }

def failedText : String :=
  "\x7b\x22status\x22:\x22error\x22," ++
  "\x22message\x22:\x22failed to start llama-server: systemctl start failed\x22," ++
  "\x22model_alias\x22:\x22m\x22,\x22model_path\x22:\x22/models/a.gguf\x22," ++
  "\x22startup_triggered\x22:false,\x22server_ready\x22:false,\x22model_verified\x22:false," ++
  "\x22llama_server\x22:\x7b\x22unit_name\x22:\x22llama-server\x22," ++
  "\x22active_state\x22:\x22failed\x22,\x22sub_state\x22:\x22startup_error\x22," ++
  "\x22description\x22:\x22systemctl start failed\x22\x7d\x7d"

/-- The response about a unit that cannot be started never reaches the proxy. -/
theorem failed_start_is_not_conveyed :
    ¬ ∀ (ν σ : Type) (codec : JsonCodec EnsureStartedResponse) (utf8Error : List UInt8 → String)
        (config : HelperConfig) (services : Services ν σ) (args : List Text)
        (expectedModelPath : Option Text) (request : Request) (session next session' : Session σ)
        (response : EnsureStartedResponse) (output : Output),
        parseRequest args expectedModelPath = .ok request →
        Helper.ensureStarted config services request.target request.modelAlias
          request.modelPath session = (some response, next) →
        Helper.main codec config services args expectedModelPath session =
          (some output, session') →
        codec.Faithful response → Conveyed codec utf8Error response output := by
  intro claim
  have parsed : parseRequest commandLine (some modelFile) = .ok ⟨.chat, ['m'], modelFile⟩ := by
    decide
  obtain ⟨next, emitted⟩ : ∃ next, Helper.ensureStarted .default withoutUnit .chat ['m'] modelFile
      fresh = (some failedResponse, next) := ⟨_, rfl⟩
  obtain ⟨output, session', run⟩ := main_total (codecOn failedResponse failedText) parsed emitted
  refine not_conveyed_of_failure ?_
    (claim Empty Nat _ (fun _ => "") _ _ _ _ _ _ _ _ _ _ parsed emitted run rfl)
  exact (main_cases parsed emitted run).1

end Instances
end LlmWakeProxy.Host

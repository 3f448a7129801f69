import LlmWakeProxy.App.Endpoints
import LlmWakeProxy.Orchestrate.Tally
import LlmWakeProxy.Orchestrate.WakeBudget
import LlmWakeProxy.Orchestrate.Warrant

/-!
The server in front of the proxy. Requests arrive one after the other; each is counted
and handled, and one that is to be executed is the call of its number. Whatever then
happens, a call that was begun is for a request in order that named the model of the
backend it waits for, there are no more calls than requests were counted, and the
wakes are at most two for each of them.
-/

namespace LlmWakeProxy.App
open LlmWakeProxy.Library LlmWakeProxy.Orchestrate
open LlmWakeProxy.Forward (Text Value Response SerdeJson openaiError)
open LlmWakeProxy.Lifecycle (LifecycleRequest LifecycleTiming BackendStatus Timestamp)

universe u v w
variable {ν : Type u} {τ : Type v} {κ : Type w}

/-- The requests so far, their counters, the answers that the handlers gave themselves,
and the proxy. -/
structure Server (ν : Type u) (τ : Type v) (κ : Type w) where
  requests : List (Request ν τ)
  counts : RequestCounts
  answers : List (Nat × Response)
  inner : κ

namespace Server

inductive Action (ν : Type u) (τ : Type v) where
  | arrive (request : Request ν τ)
  | inner (action : Proxy.Action)

def new (inner : κ) : Server ν τ κ where
  requests := []
  counts := { chatRequests := 0, embeddingsRequests := 0 }
  answers := []
  inner := inner

def begins : Proxy.Action → Bool
  | .exec _ (.enter _ _) => true
  | _ => false

def step (config : Config.AppConfig) (proxy : System κ Proxy.Action) (s : Server ν τ κ) :
    Action ν τ → Option (Server ν τ κ)
  | .arrive request =>
      let arrived := { s with requests := s.requests ++ [request]
                              counts := s.counts.count request }
      match request.handle config with
      | .respond response =>
          some { arrived with answers := (s.requests.length, response) :: s.answers }
      | .execute kind stream =>
          (proxy.step s.inner (.exec s.requests.length (.enter kind stream))).map fun inner =>
            { arrived with inner := inner }
  | .inner action =>
      if begins action then none
      else (proxy.step s.inner action).map fun inner => { s with inner := inner }

end Server

def server (ν : Type u) (τ : Type v) (config : Config.AppConfig) (proxy : System κ Proxy.Action) :
    System (Server ν τ κ) (Server.Action ν τ) where
  step := Server.step config proxy

section Run
variable {config : Config.AppConfig} {inner : System κ Proxy.Action} {s s' : Server ν τ κ}

inductive ServerRule (config : Config.AppConfig) (inner : System κ Proxy.Action)
    (s : Server ν τ κ) : Server.Action ν τ → Server ν τ κ → Prop
  | answered (request : Request ν τ) (response : Response)
      (handled : request.handle config = .respond response) :
      ServerRule config inner s (.arrive request)
        { s with requests := s.requests ++ [request], counts := s.counts.count request
                 answers := (s.requests.length, response) :: s.answers }
  | begun (request : Request ν τ) (kind : LifecycleRequest) (stream : Bool) (t : κ)
      (handled : request.handle config = .execute kind stream)
      (entered : inner.step s.inner (.exec s.requests.length (.enter kind stream)) = some t) :
      ServerRule config inner s (.arrive request)
        { s with requests := s.requests ++ [request], counts := s.counts.count request, inner := t }
  | moved (action : Proxy.Action) (t : κ) (own : Server.begins action = false)
      (stepped : inner.step s.inner action = some t) :
      ServerRule config inner s (.inner action) { s with inner := t }

theorem server_cases {a : Server.Action ν τ} (h : (server ν τ config inner).step s a = some s') :
    ServerRule config inner s a s' := by
  cases a with
  | arrive request =>
      simp only [server, Server.step] at h
      split at h
      next response handled =>
        cases h
        exact .answered request response handled
      next kind stream handled =>
        obtain ⟨t, entered, rfl⟩ := Option.map_eq_some_iff.mp h
        exact .begun request kind stream t handled entered
  | inner action =>
      simp only [server, Server.step] at h
      split at h
      next => cases h
      next own =>
        obtain ⟨t, stepped, rfl⟩ := Option.map_eq_some_iff.mp h
        exact .moved action t (Bool.eq_false_iff.mpr own) stepped

/-- A request that is handled as a call begins it. -/
theorem server_begins {request : Request ν τ} {kind : LifecycleRequest} {stream : Bool} {t : κ}
    (handled : request.handle config = .execute kind stream)
    (entered : inner.step s.inner (.exec s.requests.length (.enter kind stream)) = some t) :
    (server ν τ config inner).step s (.arrive request) =
      some { s with requests := s.requests ++ [request], counts := s.counts.count request
                    inner := t } := by
  simp only [server, Server.step, handled, entered]
  rfl

/-- What the proxy does without a new request, the server does. -/
theorem server_replay {schedule : List Proxy.Action} {t : κ}
    (own : ∀ action ∈ schedule, Server.begins action = false)
    (h : inner.replay s.inner schedule = some t) :
    (server ν τ config inner).Reachable s { s with inner := t } := by
  induction schedule generalizing s with
  | nil =>
      cases h
      exact .refl
  | cons action rest ih =>
      obtain ⟨first, others⟩ := List.forall_mem_cons.mp own
      obtain ⟨next, hnext, hrest⟩ := Option.bind_eq_some_iff.mp h
      have moved : (server ν τ config inner).step s (.inner action) =
          some { s with inner := next } := by
        simp only [server, Server.step, first, hnext]
        rfl
      exact (System.Reachable.step .refl moved).trans
        (ih (s := { s with inner := next }) others hrest)

/-- To the proxy a step of the server is one of its own, or none. -/
theorem inner_reachable {start : κ}
    (h : (server ν τ config inner).Reachable (.new start) s) : inner.Reachable start s.inner := by
  refine h.project (f := Server.inner) fun t a t' hstep => ?_
  cases server_cases hstep with
  | answered _ _ _ => exact .refl
  | begun _ _ _ _ _ entered => exact .step .refl entered
  | moved _ _ _ stepped => exact .step .refl stepped

end Run

/-! ### Calls and their requests -/

def began (exec : Exec) : Bool :=
  match exec.pc with
  | .idle => false
  | _ => true

theorem began_iff {exec : Exec} : began exec = true ↔ exec.pc ≠ .idle := by
  unfold began
  cases exec.pc <;> simp

section Calls
variable {serde : SerdeJson ν} {settings : AppConfig} {o o' : Orchestrator} {i : Nat}
variable {exec : Exec} {input : Input}

/-- Only an idle call begins, and only by its request. -/
theorem begins_or_began (rule : ExecRule serde settings o i exec input o') :
    (∃ kind stream, input = .enter kind stream ∧ began exec = false ∧
      o'.execs = o.execs.set i { exec with kind := kind, stream := stream, pc := .isCold }) ∨
    (∀ kind stream, input ≠ .enter kind stream) ∧ began exec = true := by
  cases rule with
  | enter kind stream pc => exact .inl ⟨kind, stream, rfl, by rw [began, pc], rfl⟩
  | unwoundAwaiting panicked awaits =>
      refine .inr ⟨fun _ _ same => (by cases same), ?_⟩
      unfold began
      cases hpc : exec.pc with
      | idle =>
          rw [hpc] at awaits
          obtain awaits | retries := awaits
          · cases awaits
          · cases retries
      | _ => rfl
  | _ => exact .inr ⟨fun _ _ same => (by cases same), by simp_all [began]⟩

variable {config : Config.AppConfig} {timing : LifecycleTiming} {p p' : Proxy}

/-- Call `i` has begun, for this kind of request. -/
def BegunAs (o : Orchestrator) (i : Nat) (kind : LifecycleRequest) : Prop :=
  ∃ exec, o.execs[i]? = some exec ∧ began exec = true ∧ exec.kind = kind

/-- No step but the entry of a request begins a call, and none changes its kind. -/
theorem moved_calls {a : Proxy.Action}
    (h : (proxy serde (AppConfig.of config) timing).step p a = some p')
    (own : Server.begins a = false) :
    p'.orchestrator.execs.countP began = p.orchestrator.execs.countP began ∧
      ∀ (i : Nat) kind, BegunAs p'.orchestrator i kind ↔ BegunAs p.orchestrator i kind := by
  cases proxy_cases h with
  | exec i input exec manager o here answered stepped =>
      have rule := execStep_cases stepped
      obtain ⟨kind, stream, rfl, _⟩ | ⟨_, begun⟩ := begins_or_began rule
      · cases own
      obtain ⟨⟨exec', execs, inside, same, _⟩, _⟩ := rule.warrantStep (AppConfig.of config) here
      have kind := same.resolve_right (began_iff.mp begun)
      refine ⟨?_, fun j other => ?_⟩
      · have balance := countP_set_balance began (b := exec') here
        rw [begun, began_iff.mpr inside] at balance
        exact (congrArg (List.countP began) execs).trans (Nat.add_right_cancel balance)
      · simp only [BegunAs, execs]
        by_cases hj : j = i
        · subst hj
          simp [getElem?_set_of_some here, here, begun, began_iff.mpr inside, kind]
        · rw [List.getElem?_set_ne (Ne.symm hj)]
  | lifecycle _ _ _ _ _ => exact ⟨rfl, fun _ _ => Iff.rfl⟩
  | elapse span clock t stepped _ =>
      simp only [Orchestrator.step] at stepped
      obtain ⟨scheduler, _, hscheduler⟩ := Option.map_eq_some_iff.mp stepped
      rw [← hscheduler]
      exact ⟨rfl, fun _ _ => Iff.rfl⟩

theorem begun_call {kind : LifecycleRequest} {stream : Bool}
    (h : (proxy serde (AppConfig.of config) timing).step p (.exec i (.enter kind stream)) =
      some p') :
    ∃ exec, p.orchestrator.execs[i]? = some exec ∧ began exec = false ∧
      p'.orchestrator.execs = p.orchestrator.execs.set i
        { exec with kind := kind, stream := stream, pc := .isCold } := by
  cases proxy_cases h with
  | exec _ _ exec manager o here answered stepped =>
      obtain ⟨_, _, same, fresh, execs⟩ | ⟨other, _⟩ := begins_or_began (execStep_cases stepped)
      · cases same
        exact ⟨exec, here, fresh, execs⟩
      · exact absurd rfl (other kind stream)

end Calls

/-! ### Every run -/

def RequestCounts.total (counts : RequestCounts) : Nat :=
  counts.chatRequests + counts.embeddingsRequests

theorem total_count (counts : RequestCounts) (request : Request ν τ) :
    (counts.count request).total =
      counts.total + (hasJson request.contentType).toNat := by
  unfold RequestCounts.count
  cases hasJson request.contentType with
  | false => rfl
  | true =>
      cases request.kind <;> simp [RequestCounts.total] <;> omega

namespace Server

/-- The answers that the handlers gave to request `i`. -/
def answersTo (s : Server ν τ κ) (i : Nat) : List Response :=
  (s.answers.filter fun answer => answer.1 = i).map Prod.snd

/-- Handled so, request `i` was answered, once, and never reached the orchestrator, or it is
the call of its number, and its handler gave no answer. -/
def PartedAs (s : Server ν τ κ) (o : Orchestrator) (i : Nat) : Handling → Prop
  | .respond response => s.answersTo i = [response] ∧ ∀ kind, ¬ BegunAs o i kind
  | .execute kind _ => s.answersTo i = [] ∧ BegunAs o i kind

theorem PartedAs.congr {s s' : Server ν τ κ} {o o' : Orchestrator} {i : Nat} {handling : Handling}
    (h : s.PartedAs o i handling) (answers : s'.answersTo i = s.answersTo i)
    (calls : ∀ kind, BegunAs o' i kind ↔ BegunAs o i kind) : s'.PartedAs o' i handling := by
  cases handling with
  | respond response => exact ⟨answers.trans h.1, fun kind begun => h.2 kind ((calls kind).mp begun)⟩
  | execute kind stream => exact ⟨answers.trans h.1, (calls kind).mpr h.2⟩

end Server

/-- Every request was answered by its handler or is a call that has begun, and those that
are calls were counted. -/
structure Server.Coherent (config : Config.AppConfig) (view : κ → Proxy) (s : Server ν τ κ) :
    Prop where
  calls : ∀ (i : Nat) exec, (view s.inner).orchestrator.execs[i]? = some exec → began exec = true →
    ∃ (request : Request ν τ) (stream : Bool), s.requests[i]? = some request ∧
      request.handle config = .execute exec.kind stream
  answered : ∀ i response, (i, response) ∈ s.answers →
    ∃ request : Request ν τ, s.requests[i]? = some request ∧ request.handle config = .respond response
  each : ∀ (i : Nat) request, s.requests[i]? = some request →
    s.PartedAs (view s.inner).orchestrator i (request.handle config)
  parted : s.requests.length = s.answers.length + (view s.inner).orchestrator.execs.countP began
  counted : (view s.inner).orchestrator.execs.countP began ≤ s.counts.total
  arrived : s.counts.total ≤ s.requests.length

section Coherent
variable {μ : Type u} {serde : SerdeJson μ} {config : Config.AppConfig} {timing : LifecycleTiming}
variable {inner : System κ Proxy.Action} {view : κ → Proxy} {s s' : Server ν τ κ}

theorem earlier_kept {requests : List (Request ν τ)} {i : Nat} {earlier request : Request ν τ}
    (h : requests[i]? = some earlier) : (requests ++ [request])[i]? = some earlier := by
  obtain ⟨hlt, _⟩ := List.getElem?_eq_some_iff.mp h
  rw [List.getElem?_append_left hlt, h]

theorem arrived_cases {requests : List (Request ν τ)} {i : Nat} {arrived request : Request ν τ}
    (h : (requests ++ [request])[i]? = some arrived) :
    i = requests.length ∧ arrived = request ∨ i ≠ requests.length ∧ requests[i]? = some arrived := by
  by_cases hi : i = requests.length
  · subst hi
    rw [List.getElem?_concat_length] at h
    exact .inl ⟨rfl, (Option.some.inj h).symm⟩
  · obtain ⟨hlt, _⟩ := List.getElem?_eq_some_iff.mp h
    rw [List.length_append, List.length_singleton] at hlt
    rw [List.getElem?_append_left (by omega)] at h
    exact .inr ⟨hi, h⟩

/-- What has the next number was neither answered nor begun. -/
theorem fresh_parted (h : s.Coherent config view) : s.answersTo s.requests.length = [] ∧
    ∀ kind, ¬ BegunAs (view s.inner).orchestrator s.requests.length kind := by
  refine ⟨?_, ?_⟩
  · refine List.map_eq_nil_iff.mpr (List.filter_eq_nil_iff.mpr fun answer given same => ?_)
    obtain ⟨_, hrequest, _⟩ := h.answered answer.1 answer.2 given
    rw [of_decide_eq_true same, List.getElem?_eq_none (Nat.le_refl _)] at hrequest
    cases hrequest
  · rintro kind ⟨exec, here, begun, _⟩
    obtain ⟨_, _, hrequest, _⟩ := h.calls _ exec here begun
    rw [List.getElem?_eq_none (Nat.le_refl _)] at hrequest
    cases hrequest

theorem earlier_answered (h : s.Coherent config view) {request : Request ν τ} {i : Nat}
    {response : Response} (given : (i, response) ∈ s.answers) :
    ∃ earlier : Request ν τ, (s.requests ++ [request])[i]? = some earlier ∧
      earlier.handle config = .respond response := by
  obtain ⟨earlier, hearlier, handled⟩ := h.answered i response given
  exact ⟨earlier, earlier_kept hearlier, handled⟩

theorem total_arrived (h : s.Coherent config view) (request : Request ν τ) :
    s.counts.total ≤ (s.counts.count request).total ∧
      (s.counts.count request).total ≤ (s.requests ++ [request]).length := by
  have arrived := h.arrived
  have atMostOne := Bool.toNat_le (hasJson request.contentType)
  rw [total_count, List.length_append, List.length_singleton]
  exact ⟨Nat.le_add_right _ _, Nat.add_le_add arrived atMostOne⟩

theorem coherent_answered {request : Request ν τ} {response : Response}
    (h : s.Coherent config view) (handled : request.handle config = .respond response) :
    Server.Coherent config view
      { s with requests := s.requests ++ [request], counts := s.counts.count request
               answers := (s.requests.length, response) :: s.answers } := by
  obtain ⟨more, arrived⟩ := total_arrived h request
  refine ⟨fun i exec here begun => ?_, fun i given hgiven => ?_, fun i other hother => ?_, ?_,
    h.counted.trans more, arrived⟩
  · obtain ⟨earlier, stream, hearlier, handled⟩ := h.calls i exec here begun
    exact ⟨earlier, stream, earlier_kept hearlier, handled⟩
  · obtain same | earlier := List.mem_cons.mp hgiven
    · cases same
      exact ⟨request, List.getElem?_concat_length, handled⟩
    · exact earlier_answered h earlier
  · obtain ⟨unanswered, idle⟩ := fresh_parted h
    obtain ⟨rfl, rfl⟩ | ⟨hi, hother⟩ := arrived_cases hother
    · rw [handled]
      refine ⟨?_, idle⟩
      simp only [Server.answersTo] at unanswered ⊢
      simp [unanswered]
    · refine (h.each i other hother).congr ?_ fun _ => Iff.rfl
      simp [Server.answersTo, Ne.symm hi]
  · simp only [List.length_append, List.length_cons, List.length_nil, h.parted]
    omega

theorem coherent_begun {request : Request ν τ} {kind : LifecycleRequest} {stream : Bool} {t : κ}
    (h : s.Coherent config view) (handled : request.handle config = .execute kind stream)
    (entered : (proxy serde (AppConfig.of config) timing).step (view s.inner)
      (.exec s.requests.length (.enter kind stream)) = some (view t)) :
    Server.Coherent config view
      { s with requests := s.requests ++ [request], counts := s.counts.count request
               inner := t } := by
  obtain ⟨exec, here, fresh, execs⟩ := begun_call entered
  have more : (view t).orchestrator.execs.countP began =
      (view s.inner).orchestrator.execs.countP began + 1 := by
    have balance := countP_set_balance began
      (b := { exec with kind := kind, stream := stream, pc := .isCold }) here
    rw [fresh] at balance
    rw [execs]
    exact balance
  have unmoved : ∀ (i : Nat), i ≠ s.requests.length →
      (view t).orchestrator.execs[i]? = (view s.inner).orchestrator.execs[i]? := by
    intro i hi
    rw [execs, List.getElem?_set_ne (Ne.symm hi)]
  refine ⟨fun i other hother begun => ?_, fun i given hgiven => earlier_answered h hgiven,
    fun i earlier hearlier => ?_, ?_, ?_, (total_arrived h request).2⟩
  · simp only [execs] at hother
    by_cases hi : i = s.requests.length
    · subst hi
      rw [getElem?_set_of_some here] at hother
      cases hother
      exact ⟨request, stream, by simp, handled⟩
    · rw [List.getElem?_set_ne (Ne.symm hi)] at hother
      obtain ⟨earlier, stream, hearlier, handled⟩ := h.calls i other hother begun
      exact ⟨earlier, stream, earlier_kept hearlier, handled⟩
  · obtain ⟨rfl, rfl⟩ | ⟨hi, hearlier⟩ := arrived_cases hearlier
    · rw [handled]
      exact ⟨(fresh_parted h).1, _, by rw [execs]; exact getElem?_set_of_some here _, rfl, rfl⟩
    · refine (h.each i earlier hearlier).congr rfl fun kind => ?_
      simp only [BegunAs, unmoved i hi]
  · simp only [List.length_append, List.length_singleton, h.parted, more]
    omega
  · have json : hasJson request.contentType = true := (handle_execute.mp ⟨stream, handled⟩).2.1.1
    simp only [more, total_count, json, Bool.toNat_true]
    exact Nat.add_le_add_right h.counted 1

theorem coherent_step (sees : ∀ x a y, inner.step x a = some y →
      (proxy serde (AppConfig.of config) timing).step (view x) a = some (view y))
    (h : s.Coherent config view) {a : Server.Action ν τ} (rule : ServerRule config inner s a s') :
    s'.Coherent config view := by
  cases rule with
  | answered request response handled => exact coherent_answered h handled
  | begun request kind stream t handled entered =>
      exact coherent_begun h handled (sees _ _ _ entered)
  | moved action t own stepped =>
      obtain ⟨counted, calls⟩ := moved_calls (sees _ _ _ stepped) own
      refine ⟨fun i exec' here begun => ?_, h.answered, fun i request hrequest =>
          (h.each i request hrequest).congr rfl (calls i), h.parted.trans (by rw [counted]),
        counted.trans_le h.counted, h.arrived⟩
      obtain ⟨exec, hexec, hbegan, kind⟩ := (calls i _).mp ⟨exec', here, begun, rfl⟩
      rw [← kind]
      exact h.calls i exec hexec hbegan

theorem coherent_reachable (serde : SerdeJson μ) (timing : LifecycleTiming) (start : κ)
    (sees : ∀ x a y, inner.step x a = some y →
      (proxy serde (AppConfig.of config) timing).step (view x) a = some (view y))
    (idle : ∀ exec ∈ (view start).orchestrator.execs, began exec = false)
    (h : (server ν τ config inner).Reachable (.new start) s) : s.Coherent config view := by
  have none : (view start).orchestrator.execs.countP began = 0 :=
    List.countP_eq_zero.mpr fun exec hexec => Bool.eq_false_iff.mp (idle exec hexec)
  refine h.invariant (I := Server.Coherent config view) ⟨fun i exec here begun => ?_,
    fun _ _ given => absurd given List.not_mem_nil, fun _ _ hrequest => (by cases hrequest),
    ((Nat.zero_add _).trans none).symm, none.le, Nat.le_refl _⟩
    fun t a t' ht hstep => coherent_step sees ht (server_cases hstep)
  rw [idle exec (List.mem_of_getElem? here)] at begun
  cases begun

end Coherent

/-! ### The counters and the answers -/

theorem began_new (config : AppConfig) (execs instant : Nat) :
    ∀ exec ∈ (Orchestrator.new config execs instant).execs, began exec = false := by
  intro exec hexec
  obtain rfl := (List.mem_replicate.mp hexec).2
  rfl

theorem lateCalls_le (o : Orchestrator) : o.lateCalls ≤ o.execs.countP began := by
  refine List.countP_mono_left fun exec _ late => began_iff.mpr fun idle => ?_
  rw [idle] at late
  cases late

def servedConfig : Config.AppConfig where
  listenPort := 3000
  model := { modelAlias := ['m'], providerId := ['p'], ownedBy := ['o'] }
  embeddings := { enabled := true, backend := none }
  warmExecution := { maxActiveRequests := 2, maxQueuedRequests := 16
                     queueTimeout := Lifecycle.Duration.fromSecs 30 }
  host := { host := ['h'], sshUser := ['u'], sshPort := 22, wolMac := .replicate 6 0
            wolBroadcast := ['b'], wolPort := 9, helperPath := ['x'], modelPath := ['y']
            sshKeyPath := ['k'], tunnelLocalPort := 18080, remotePort := 8080 }
  coldStartMaxWaiting := 32

def askingFor (model : Text) : Request Unit Unit :=
  .chat (some "application/json".toList) (.ok
    { model := model, stream := false, messages :=
        [{ role := "user".toList, content := some (.string ['h']), toolCalls := none
           toolCallId := none }] })

def otherModel : Response :=
  openaiError 400 "model_not_found" "unsupported model 'a': expected 'm'" none

theorem asked_le_began (exec : Exec) : exec.pc.asked ≤ 2 * (began exec).toNat := by
  unfold began
  cases exec.pc <;> exact Nat.le_of_ble_eq_true rfl

/-- In every run each wake is of a round of its own, and the rounds of both backends are at
most two for each call that has begun, which was counted as a request: whatever the upstreams
do, and whoever waits, panics or goes away, the requests bound the wakes. -/
theorem wakes_bounded_by_requests (ν : Type u) (τ : Type v) {μ : Type u}
    (serde : SerdeJson μ) (config : Config.AppConfig) (timing : LifecycleTiming) (execs : Nat)
    (initial : Backend → BackendStatus) (instant : Nat) (clock : Timestamp)
    (s : Server ν τ Proxy)
    (h : (server ν τ config (proxy serde (AppConfig.of config) timing)).Reachable
      (.new (.new (AppConfig.of config) execs initial instant clock)) s) :
    s.inner.wakes ≤ s.inner.rounds ∧
      s.inner.rounds ≤ 2 * s.inner.orchestrator.execs.countP began ∧
      s.inner.orchestrator.execs.countP began ≤ s.counts.total := by
  have inner := inner_reachable h
  have coherent : s.Coherent config id :=
    coherent_reachable serde timing (.new (AppConfig.of config) execs initial instant clock)
      (fun _ _ _ hstep => hstep) (began_new (AppConfig.of config) execs instant) h
  have asked : s.inner.orchestrator.asked ≤ 2 * s.inner.orchestrator.execs.countP began :=
    totalWeight_le_mul_countP asked_le_began s.inner.orchestrator.execs
  exact ⟨wakes_le_rounds inner, (rounds_le_asked inner).trans asked, coherent.counted⟩

/-- A request that finds the host asleep, and wakes it. -/
theorem wakes_bounded_by_requests_woken :
    ∃ s, (server Unit Unit servedConfig (proxy SerdeJson.mute (AppConfig.of servedConfig)
          Lifecycle.exampleTiming)).Reachable
        (.new (.new (AppConfig.of servedConfig) 1 (fun _ => .default) 0 ⟨0⟩)) s ∧
      s.counts.total = 1 ∧ s.inner.wakes = 1 ∧
      s.inner.rounds ≤ 2 * s.inner.orchestrator.execs.countP began := by
  have ran : ∃ s, (server Unit Unit servedConfig (proxy SerdeJson.mute (AppConfig.of servedConfig)
        Lifecycle.exampleTiming)).Reachable
      (.new (.new (AppConfig.of servedConfig) 1 (fun _ => .default) 0 ⟨0⟩)) s ∧
      (s.counts.total = 1 ∧ s.inner.wakes = 1) :=
    System.reachable_of_check (.arrive (askingFor ['m']) :: wakeSchedule.tail.map .inner)
      (by decide)
  obtain ⟨s, hs, counted, woken⟩ := ran
  obtain ⟨_, bounded, _⟩ := wakes_bounded_by_requests Unit Unit SerdeJson.mute servedConfig
    Lifecycle.exampleTiming 1 (fun _ => .default) 0 ⟨0⟩ s hs
  exact ⟨s, hs, counted, woken, bounded⟩

end LlmWakeProxy.App

import LlmWakeProxy.Library.Watch
import LlmWakeProxy.Lifecycle.Ownership

/-!
What a publication does to the updates published before it. Every writer copies
the published status, edits its copy and publishes it, possibly many port calls
later. A copy of the latest status keeps the recorded wake and the degradation
of the embeddings (`Carries`); a publication whose copy is no longer the latest
puts back whatever the others have changed since.
-/

namespace LlmWakeProxy.Lifecycle
open LlmWakeProxy.Library

variable {timing : LifecycleTiming} {core core' : Core}

/-- A recorded wake is not forgotten and not replaced by an earlier one. -/
def KeepsWake (before after : BackendStatus) : Prop :=
  ∀ t, before.lastWakeAttemptAt = some t →
    ∃ t', after.lastWakeAttemptAt = some t' ∧ t.unixSeconds ≤ t'.unixSeconds

/-- The draft's helper observation began when version `version` was published. -/
def ObservedSince (version : Nat) (basis : Option Nat) : Prop :=
  ∃ began, basis = some began ∧ version ≤ began

/-- The status published latest. -/
def latestStatus (initial : BackendStatus) : List Event → BackendStatus
  | [] => initial
  | .published _ d _ :: _ => d.status
  | _ :: rest => latestStatus initial rest

/-- No publication forgets a recorded wake, and after a `degrade_embeddings` only
an observation begun later makes the embeddings ready again. -/
def UpdatesKept (initial : BackendStatus) (log : List Event) : Prop :=
  ∀ writer d version earlier, (.published writer d version :: earlier) <:+ log →
    KeepsWake (latestStatus initial earlier) d.status ∧
      ((latestStatus initial earlier).embeddings = .degraded → d.status.embeddings = .ready →
        ∀ d₀ v₀, .published .degradeEmbeddings d₀ v₀ ∈ earlier → ObservedSince v₀ d.basis)

/-! ### Drafts -/

/-- What a draft keeps of the status it would be published over. -/
def Carries (log : List Event) (basis : Option Nat) (published draft : BackendStatus) : Prop :=
  KeepsWake published draft ∧
    (published.embeddings = .degraded → draft.embeddings = .ready →
      ∀ d v, .published .degradeEmbeddings d v ∈ log → ObservedSince v basis)

/-- The recorded wake is not in the future. -/
def WakeBy (clock : Timestamp) (status : BackendStatus) : Prop :=
  ∀ t, status.lastWakeAttemptAt = some t → t.unixSeconds ≤ clock.unixSeconds

structure Draft.Sound (core : Core) (d : Draft) : Prop where
  grounded : Watch.Grounded (Carries core.log d.basis) core.status d.base d.status
  wake : WakeBy core.clock d.status

/-- What the log and the clock say about the published status. -/
structure Core.Recorded (initial : BackendStatus) (core : Core) : Prop where
  latest : latestStatus initial core.log = core.status.value
  versions : ∀ writer d version, .published writer d version ∈ core.log →
    version ≤ core.status.version
  wake : WakeBy core.clock core.status.value
  kept : UpdatesKept initial core.log

theorem keepsWake_of_eq {before after : BackendStatus}
    (h : after.lastWakeAttemptAt = before.lastWakeAttemptAt) : KeepsWake before after := by
  intro t ht
  exact ⟨t, h.trans ht, UInt64.le_refl _⟩

theorem carries_refl (log : List Event) (basis : Option Nat) (status : BackendStatus) :
    Carries log basis status status := by
  refine ⟨keepsWake_of_eq rfl, ?_⟩
  intro hdegraded hready
  rw [hdegraded] at hready
  cases hready

theorem Core.Recorded.borrow {initial : BackendStatus} (h : core.Recorded initial) :
    core.borrow.Sound core :=
  ⟨Watch.grounded_borrow core.status (carries_refl _ _ _), h.wake⟩

theorem Draft.Sound.edit {d : Draft} {f : BackendStatus → BackendStatus} (h : d.Sound core)
    (hwake : (f d.status).lastWakeAttemptAt = d.status.lastWakeAttemptAt)
    (hembeddings : (f d.status).embeddings = d.status.embeddings ∨
      (f d.status).embeddings = .degraded) : (d.edit f).Sound core := by
  refine ⟨h.grounded.edit ?_, ?_⟩
  · rintro _ ⟨hkeeps, hcovers⟩
    refine ⟨?_, ?_⟩
    · intro t ht
      obtain ⟨t', ht', hle⟩ := hkeeps t ht
      exact ⟨t', hwake.trans ht', hle⟩
    · intro hdegraded hready
      refine hcovers hdegraded ?_
      cases hembeddings with
      | inl hsame =>
          exact hsame.symm.trans hready
      | inr hdown =>
          exact absurd (hready.symm.trans hdown) nofun
  · intro t ht
    exact h.wake t (hwake.symm.trans ht)

theorem Draft.Sound.wakeStamped {initial : BackendStatus} {d : Draft} (h : d.Sound core)
    (recorded : core.Recorded initial) : (d.edit (·.wakeStamped core.clock)).Sound core := by
  refine ⟨h.grounded.edit ?_, ?_⟩
  · rintro _ ⟨_, hcovers⟩
    refine ⟨?_, hcovers⟩
    intro t ht
    exact ⟨core.clock, rfl, recorded.wake t ht⟩
  · intro t ht
    cases ht
    exact UInt64.le_refl _

/-- Taking over what the helper has observed since the draft was borrowed. -/
theorem Draft.Sound.withObserved {initial : BackendStatus} {d : Draft} (h : d.Sound core)
    (recorded : core.Recorded initial) (o : ObservedBackendState)
    (observed : ObservedSince d.base d.basis) : (d.edit (·.withObserved o)).Sound core := by
  obtain ⟨began, hbasis, hle⟩ := observed
  refine ⟨h.grounded.edit ?_, h.wake⟩
  rintro hbase ⟨hkeeps, _⟩
  refine ⟨hkeeps, ?_⟩
  intro _ _ d₀ v₀ hmem
  have hversion := recorded.versions _ _ _ hmem
  exact ⟨began, hbasis, by omega⟩

/-- Beginning an observation of the version that is the latest now. -/
theorem Draft.Sound.observing {initial : BackendStatus} {d : Draft} (h : d.Sound core)
    (recorded : core.Recorded initial) :
    ({ d with basis := some core.status.version } : Draft).Sound core := by
  refine ⟨h.grounded.edit ?_, h.wake⟩
  rintro _ ⟨hkeeps, _⟩
  refine ⟨hkeeps, ?_⟩
  intro _ _ d₀ v₀ hmem
  exact ⟨core.status.version, rfl, recorded.versions _ _ _ hmem⟩

/-! ### Steps -/

/-- What a step may do for the drafts of the others to stay sound. -/
structure Forward (core core' : Core) : Prop where
  clock : core.clock.unixSeconds ≤ core'.clock.unixSeconds
  status : (core'.status = core.status ∧
      ∀ d v, .published .degradeEmbeddings d v ∈ core'.log →
        .published .degradeEmbeddings d v ∈ core.log) ∨
    core.status.version < core'.status.version

theorem Forward.refl (core : Core) : Forward core core :=
  ⟨UInt64.le_refl _, .inl ⟨rfl, fun _ _ h => h⟩⟩

theorem Draft.Sound.forward {d : Draft} (h : d.Sound core) (step : Forward core core') :
    d.Sound core' := by
  refine ⟨?_, fun t ht => UInt64.le_trans (h.wake t ht) step.clock⟩
  rcases step.status with ⟨hstatus, hlog⟩ | hlt
  · rw [hstatus]
    refine h.grounded.edit ?_
    rintro _ ⟨hkeeps, hcovers⟩
    exact ⟨hkeeps, fun hdegraded hready d₀ v₀ hmem =>
      hcovers hdegraded hready d₀ v₀ (hlog d₀ v₀ hmem)⟩
  · exact Watch.grounded_of_lt (Nat.lt_of_le_of_lt h.grounded.1 hlt)

def Event.isPublished : Event → Bool
  | .published .. => true
  | _ => false

theorem Forward.emit (core : Core) (event : Event) (quiet : event.isPublished = false) :
    Forward core (core.emit event) := by
  refine ⟨UInt64.le_refl _, .inl ⟨rfl, ?_⟩⟩
  intro d v hmem
  rcases List.mem_cons.mp hmem with rfl | hold
  · cases quiet
  · exact hold

theorem Forward.publish (core : Core) (writer : Writer) (d : Draft) :
    Forward core (core.publish writer d) :=
  ⟨UInt64.le_refl _, .inr (Nat.lt_succ_self _)⟩

theorem Forward.trans {core₁ core₂ core₃ : Core} (left : Forward core₁ core₂)
    (right : Forward core₂ core₃) : Forward core₁ core₃ := by
  refine ⟨UInt64.le_trans left.clock right.clock, ?_⟩
  rcases left.status with ⟨hstatus, hlog⟩ | hlt
  · rcases right.status with ⟨hstatus', hlog'⟩ | hlt'
    · exact .inl ⟨hstatus'.trans hstatus, fun d v hmem => hlog d v (hlog' d v hmem)⟩
    · exact .inr (hstatus ▸ hlt')
  · rcases right.status with ⟨hstatus', _⟩ | hlt'
    · exact .inr (hstatus'.symm ▸ hlt)
    · exact .inr (Nat.lt_trans hlt hlt')

theorem Core.Recorded.emit {initial : BackendStatus} {event : Event} (h : core.Recorded initial)
    (quiet : event.isPublished = false) : (core.emit event).Recorded initial := by
  refine ⟨?_, ?_, h.wake, ?_⟩
  · cases event with
    | published => cases quiet
    | _ => exact h.latest
  · intro writer d version hmem
    rcases List.mem_cons.mp hmem with rfl | hold
    · cases quiet
    · exact h.versions writer d version hold
  · intro writer d version earlier hsuffix
    cases List.suffix_cons_iff.mp hsuffix with
    | inl heq =>
        cases heq
        cases quiet
    | inr hold =>
        exact h.kept writer d version earlier hold

/-- Publishing a sound draft of the latest version keeps every update. -/
theorem Core.Recorded.publish {initial : BackendStatus} {writer : Writer} {d : Draft}
    (h : core.Recorded initial) (hd : d.Sound core) (fresh : d.base = core.status.version) :
    (core.publish writer d).Recorded initial := by
  refine ⟨rfl, ?_, hd.wake, ?_⟩
  · intro writer' d' version hmem
    cases List.mem_cons.mp hmem with
    | inl heq =>
        cases heq
        exact Nat.le_refl _
    | inr hold =>
        exact Nat.le_succ_of_le (h.versions writer' d' version hold)
  · intro writer' d' version earlier hsuffix
    cases List.suffix_cons_iff.mp hsuffix with
    | inl heq =>
        cases heq
        rw [h.latest]
        exact hd.grounded.publish fresh
    | inr hold =>
        exact h.kept writer' d' version earlier hold

theorem Core.Recorded.reframe {initial : BackendStatus} (h : core.Recorded initial)
    (status : core'.status = core.status) (clock : core'.clock = core.clock)
    (log : core'.log = core.log) : core'.Recorded initial := by
  refine ⟨?_, ?_, ?_, ?_⟩
  · rw [log, status]
    exact h.latest
  · rw [log, status]
    exact h.versions
  · rw [clock, status]
    exact h.wake
  · rw [log]
    exact h.kept

theorem Forward.reframe {core₁ : Core} (h : Forward core core₁)
    (status : core'.status = core₁.status) (clock : core'.clock = core₁.clock)
    (log : core'.log = core₁.log) : Forward core core' := by
  refine ⟨?_, ?_⟩
  · rw [clock]
    exact h.clock
  · rw [log, status]
    exact h.status

theorem Draft.Sound.rebase {writer : Writer} {d : Draft} (h : d.Sound core) :
    (d.rebase (core.publish writer d)).Sound (core.publish writer d) :=
  ⟨Watch.grounded_borrow _ (carries_refl _ _ _), h.wake⟩

theorem Core.Recorded.finishBootstrap {initial : BackendStatus} {d : Draft}
    {error : Option LifecycleError} (h : core.Recorded initial) (hd : d.Sound core)
    (fresh : d.base = core.status.version) : (core.finishBootstrap d error).Recorded initial := by
  have published : (core.publish (.finishBootstrap error) d).Recorded initial := h.publish hd fresh
  exact published.reframe rfl rfl rfl

theorem Forward.finishBootstrap (core : Core) (d : Draft) (error : Option LifecycleError) :
    Forward core (core.finishBootstrap d error) :=
  (Forward.publish core (.finishBootstrap error) d).reframe rfl rfl rfl

def ObservePc.draft : ObservePc → Draft
  | .sshIsReady d | .requestWake d | .observeBackend d | .ensureTunnel d => d

def ObservePc.Sound (core : Core) : ObservePc → Prop
  | .observeBackend d => d.Sound core ∧ ObservedSince d.base d.basis
  | pc => pc.draft.Sound core

def Observation.Sound (core : Core) : Observation → Prop
  | .pending pc => pc.Sound core
  | .ready d | .failed d _ => d.Sound core
  | .warming _ => True

theorem ObservePc.Sound.forward {pc : ObservePc} (h : pc.Sound core) (step : Forward core core') :
    pc.Sound core' := by
  cases pc with
  | observeBackend d => exact ⟨h.1.forward step, h.2⟩
  | sshIsReady d | requestWake d | ensureTunnel d => exact Draft.Sound.forward h step

theorem Core.Recorded.publishObserved {initial : BackendStatus} {d : Draft}
    (h : core.Recorded initial) (hd : d.Sound core) (fresh : d.base = core.status.version) :
    (core.publishObserved d).1.Recorded initial ∧ Forward core (core.publishObserved d).1 ∧
      (core.publishObserved d).2.Sound (core.publishObserved d).1 :=
  ⟨h.publish hd fresh, .publish _ _ _, hd.rebase⟩

theorem ObserveRule.updates {initial : BackendStatus} {wakeRequest : Option LifecycleRequest}
    {observeRequest : LifecycleRequest} {pc : ObservePc} {observation : Observation}
    (rule : ObserveRule core wakeRequest observeRequest pc core' observation)
    (h : core.Recorded initial) (hpc : pc.Sound core)
    (fresh : core'.status.version ≠ core.status.version → pc.draft.base = core.status.version) :
    core'.Recorded initial ∧ Forward core core' ∧ observation.Sound core' := by
  cases rule with
  | sshFailed d error =>
      have asked := Forward.emit core (.sshAnswered wakeRequest.isSome (.error error)) rfl
      exact ⟨h.emit rfl, asked, (Draft.Sound.forward hpc asked).edit rfl (.inl rfl)⟩
  | wake d request leader wakes =>
      have asked := (Forward.emit core (.sshAnswered wakeRequest.isSome (.ok false)) rfl).trans
        (Forward.emit _ (.wakeRequested request) rfl)
      have recorded : ((core.emit (.sshAnswered wakeRequest.isSome (.ok false))).emit
        (.wakeRequested request)).Recorded initial := (h.emit rfl).emit rfl
      exact ⟨recorded, asked, (Draft.Sound.forward hpc asked).wakeStamped recorded⟩
  | asleep d silent =>
      have asked := Forward.emit core (.sshAnswered wakeRequest.isSome (.ok false)) rfl
      have hd := (Draft.Sound.forward hpc asked).edit (f := .warmed) rfl (.inl rfl)
      obtain ⟨recorded, forward, _⟩ :=
        (h.emit rfl).publishObserved hd (fresh (Nat.succ_ne_self _))
      exact ⟨recorded, asked.trans forward, trivial⟩
  | awake d =>
      have asked := (Forward.emit core (.sshAnswered wakeRequest.isSome (.ok true)) rfl).trans
        (Forward.emit _ (.helperCalled observeRequest) rfl)
      have observing := (Draft.Sound.observing hpc h).forward asked
      exact ⟨(h.emit rfl).emit rfl, asked, observing, core.status.version, rfl, observing.grounded.1⟩
  | wakeFailed d error | tunnelFailed d error => exact ⟨h, .refl _, hpc.edit rfl (.inl rfl)⟩
  | woken d =>
      obtain ⟨recorded, forward, _⟩ := h.publishObserved (hpc.edit (f := .warmed) rfl (.inl rfl))
        (fresh (Nat.succ_ne_self _))
      exact ⟨recorded, forward, trivial⟩
  | helperFailed d error => exact ⟨h, .refl _, hpc.1.edit rfl (.inl rfl)⟩
  | reportedError d o ho =>
      exact ⟨h, .refl _, (hpc.1.withObserved h o hpc.2).edit rfl (.inl rfl)⟩
  | starting d o ho =>
      have hd := (hpc.1.withObserved h o hpc.2).edit
        (f := fun status => { status with tunnel := .down }) rfl (.inl rfl)
      obtain ⟨recorded, forward, _⟩ := h.publishObserved hd (fresh (Nat.succ_ne_self _))
      exact ⟨recorded, forward, trivial⟩
  | started d o ho => exact ⟨h, .refl _, hpc.1.withObserved h o hpc.2⟩
  | tunnelReady d tunnel ready =>
      exact h.publishObserved (hpc.edit (f := (·.withTunnel tunnel)) rfl (.inl rfl))
        (fresh (Nat.succ_ne_self _))
  | tunnelNotReady d tunnel notReady =>
      obtain ⟨recorded, forward, _⟩ := h.publishObserved
        (hpc.edit (f := (·.withTunnel tunnel)) rfl (.inl rfl)) (fresh (Nat.succ_ne_self _))
      exact ⟨recorded, forward, trivial⟩

def ClientPc.draft : ClientPc → Option Draft
  | .markPublish _ d | .degradePublish d | .checkActive _ d | .startOrJoin _ d
  | .leadRequest _ d _ | .leadFinish d _ _ => some d
  | .lead _ _ _ pc => some pc.draft
  | _ => none

def ClientPc.Sound (core : Core) : ClientPc → Prop
  | .markPublish _ d | .degradePublish d | .checkActive _ d | .startOrJoin _ d
  | .leadRequest _ d _ | .leadFinish d _ _ => d.Sound core
  | .lead _ _ _ pc => pc.Sound core
  | _ => True

def TaskPc.draft : TaskPc → Option Draft
  | .readRequest _ d | .finish d _ => some d
  | .observe _ _ pc => some pc.draft
  | _ => none

def TaskPc.Sound (core : Core) : TaskPc → Prop
  | .readRequest _ d | .finish d _ => d.Sound core
  | .observe _ _ pc => pc.Sound core
  | _ => True

theorem ClientPc.Sound.forward {pc : ClientPc} (h : pc.Sound core) (step : Forward core core') :
    pc.Sound core' := by
  cases pc with
  | markPublish | degradePublish | checkActive | startOrJoin | leadRequest | leadFinish =>
      exact Draft.Sound.forward h step
  | lead => exact ObservePc.Sound.forward h step
  | _ => trivial

theorem TaskPc.Sound.forward {pc : TaskPc} (h : pc.Sound core) (step : Forward core core') :
    pc.Sound core' := by
  cases pc with
  | readRequest | finish => exact Draft.Sound.forward h step
  | observe => exact ObservePc.Sound.forward h step
  | _ => trivial

theorem ClientRule.updates {initial : BackendStatus} {pc pc' : ClientPc}
    (rule : ClientRule timing core pc core' pc') (h : core.Recorded initial)
    (hpc : pc.Sound core)
    (fresh : core'.status.version ≠ core.status.version →
      ∀ d, pc.draft = some d → d.base = core.status.version) :
    core'.Recorded initial ∧ Forward core core' ∧ pc'.Sound core' := by
  cases rule with
  | markBorrow next => exact ⟨h, .refl _, h.borrow.edit rfl (.inl rfl)⟩
  | markPublish next d =>
      refine ⟨h.publish hpc (fresh (Nat.succ_ne_self _) d rfl), .publish _ _ _, ?_⟩
      cases next <;> trivial
  | degradeBorrow reason => exact ⟨h, .refl _, h.borrow.edit rfl (.inr rfl)⟩
  | degradePublish d =>
      exact ⟨h.publish hpc (fresh (Nat.succ_ne_self _) d rfl), .publish _ _ _, trivial⟩
  | borrowInitial caller => exact ⟨h, .refl _, h.borrow⟩
  | notReady caller initial _ => exact ⟨h, .refl _, hpc⟩
  | start caller initial idle =>
      have emitted : (core.emit (.roundBegun caller.request initial.status)).Recorded _ := h.emit rfl
      have forward := Forward.emit core (.roundBegun caller.request initial.status) rfl
      exact ⟨emitted.reframe rfl rfl rfl, forward.reframe rfl rfl rfl,
        Draft.Sound.forward hpc (forward.reframe rfl rfl rfl)⟩
  | join caller initial active =>
      exact ⟨h.reframe rfl rfl rfl, (Forward.refl core).reframe rfl rfl rfl, trivial⟩
  | readRequest request initial wait => exact ⟨h, .refl _, hpc⟩
  | leadPending _ _ _ _ _ _ observe =>
      exact observe.updates h hpc fun hversion => fresh hversion _ rfl
  | leadReady _ _ _ _ _ _ observe =>
      obtain ⟨recorded, forward, _⟩ := observe.updates h hpc fun hversion => fresh hversion _ rfl
      exact ⟨recorded, forward, trivial⟩
  | handOver _ _ _ _ core₁ _ observe =>
      obtain ⟨recorded, forward, _⟩ := observe.updates h hpc fun hversion => fresh hversion _ rfl
      have emitted : (core₁.emit .pollingBegun).Recorded initial := recorded.emit rfl
      have forward := forward.trans (.emit core₁ .pollingBegun rfl)
      exact ⟨emitted.reframe rfl rfl rfl, forward.reframe rfl rfl rfl, trivial⟩
  | leadFailed _ _ _ _ _ _ _ observe =>
      exact observe.updates h hpc fun hversion => fresh hversion _ rfl
  | reread status => exact ⟨h, .refl _, h.borrow⟩
  | leadFinish d error decision =>
      exact ⟨h.finishBootstrap hpc (fresh (Nat.succ_ne_self _) d rfl), .finishBootstrap _ _ _,
        trivial⟩
  | waitReturn wait deadline d decision verdict =>
      exact ⟨h.emit rfl, .emit _ _ rfl, trivial⟩
  | _ => exact ⟨h, .refl _, trivial⟩

theorem TaskRule.updates {initial : BackendStatus} {pc pc' : TaskPc}
    (rule : TaskRule timing core pc core' pc') (h : core.Recorded initial) (hpc : pc.Sound core)
    (fresh : core'.status.version ≠ core.status.version →
      ∀ d, pc.draft = some d → d.base = core.status.version) :
    core'.Recorded initial ∧ Forward core core' ∧ pc'.Sound core' := by
  cases rule with
  | deadlineAtTop | deadlineAfterSleep => exact ⟨h, .refl _, h.borrow.edit rfl (.inl rfl)⟩
  | borrow deadline wakeAt _ _ => exact ⟨h, .refl _, h.borrow⟩
  | readRequest deadline d => exact ⟨h, .refl _, hpc⟩
  | pending _ _ _ _ _ observe | ready _ _ _ _ _ observe | failed _ _ _ _ _ _ observe =>
      exact observe.updates h hpc fun hversion => fresh hversion _ rfl
  | warming _ _ _ _ _ observe =>
      obtain ⟨recorded, forward, _⟩ := observe.updates h hpc fun hversion => fresh hversion _ rfl
      exact ⟨recorded, forward, trivial⟩
  | finish d error =>
      exact ⟨h.finishBootstrap hpc (fresh (Nat.succ_ne_self _) d rfl), .finishBootstrap _ _ _,
        trivial⟩
  | _ => exact ⟨h, .refl _, trivial⟩

/-! ### Runs -/

/-- The clock does not go back. -/
def ClockForward (s : Manager) : Action → Prop
  | .elapse _ clock => s.core.clock.unixSeconds ≤ clock.unixSeconds
  | _ => True

instance (s : Manager) (a : Action) : Decidable (ClockForward s a) :=
  match a with
  | .elapse _ clock => UInt64.decLe s.core.clock.unixSeconds clock.unixSeconds
  | .begin _ _ | .client _ _ | .drop _ | .task _ _ => .isTrue trivial

/-- The copy of the status held by whoever runs next. -/
def Manager.held (s : Manager) : Action → Option Draft
  | .client i _ => s.clients[i]?.bind ClientPc.draft
  | .task i _ => s.core.tasks[i]?.bind TaskPc.draft
  | _ => none

/-- The step does not publish a copy of a status that is no longer the latest:
nobody else has published since the copy was made. -/
def WritesLatest (timing : LifecycleTiming) (s : Manager) (a : Action) : Prop :=
  ((lifecycle timing).step s a).any
      (fun s' => s'.core.status.version != s.core.status.version) = true →
    (s.held a).all (fun d => d.base == s.core.status.version) = true

instance (timing : LifecycleTiming) (s : Manager) (a : Action) :
    Decidable (WritesLatest timing s a) :=
  inferInstanceAs (Decidable (_ → _))

theorem WritesLatest.fresh {s s' : Manager} {a : Action} (h : WritesLatest timing s a)
    (hstep : (lifecycle timing).step s a = some s') {d : Draft} (held : s.held a = some d)
    (hversion : s'.core.status.version ≠ s.core.status.version) :
    d.base = s.core.status.version := by
  have hbase := h (by simpa [hstep] using hversion)
  simpa [held] using hbase

structure Manager.Recorded (initial : BackendStatus) (s : Manager) : Prop where
  core : s.core.Recorded initial
  clients : ∀ pc ∈ s.clients, pc.Sound s.core
  tasks : ∀ pc ∈ s.core.tasks, pc.Sound s.core

theorem recorded_new (clients : Nat) {initialStatus : BackendStatus} (instant : Instant)
    {clock : Timestamp} (hinitial : WakeBy clock initialStatus) :
    (Manager.new clients initialStatus instant clock).Recorded initialStatus := by
  refine ⟨⟨rfl, by simp [Manager.new], hinitial, ?_⟩, ?_, by simp [Manager.new]⟩
  · intro writer d version earlier hsuffix
    simp [Manager.new] at hsuffix
  · intro pc hpc
    rw [List.eq_of_mem_replicate hpc]
    trivial

theorem recorded_step {initial : BackendStatus} {s s' : Manager} {a : Action}
    (h : s.Recorded initial) (forward : ClockForward s a) (writes : WritesLatest timing s a)
    (hstep : (lifecycle timing).step s a = some s') : s'.Recorded initial := by
  have fresh := fun d held => writes.fresh hstep (d := d) held
  cases step_cases hstep with
  | begin i op pc here free =>
      refine ⟨h.core, forall_mem_set h.clients ?_, h.tasks⟩
      cases op <;> trivial
  | client i input pc pc' core' here rule =>
      obtain ⟨recorded, forward, hpc⟩ := rule.updates h.core
        (h.clients pc (List.mem_of_getElem? here)) fun hversion d held =>
          fresh d (by simpa [Manager.held, here] using held) hversion
      refine ⟨recorded, forall_mem_set (fun other hother => ?_) hpc, ?_⟩
      · exact (h.clients other hother).forward forward
      · intro task htask
        rcases rule.tasks_mem htask with hmem | rfl
        · exact (h.tasks task hmem).forward forward
        · trivial
  | drop i pc here suspended => exact ⟨h.core, forall_mem_set h.clients trivial, h.tasks⟩
  | task i input pc pc' core' here rule =>
      obtain ⟨recorded, forward, hpc⟩ := rule.updates h.core
        (h.tasks pc (List.mem_of_getElem? here)) fun hversion d held =>
          fresh d (by simpa [Manager.held, here] using held) hversion
      have stored : Forward s.core { core' with tasks := core'.tasks.set i pc' } :=
        forward.reframe rfl rfl rfl
      refine ⟨recorded.reframe rfl rfl rfl,
        fun other hother => (h.clients other hother).forward stored, ?_⟩
      simp only [rule.tasks]
      refine forall_mem_set (fun other hother => ?_) ?_
      · exact (h.tasks other hother).forward (forward.reframe rfl rfl rfl)
      · exact hpc.forward ((Forward.refl core').reframe rfl rfl rfl)
  | elapse span clock =>
      have step : Forward s.core { s.core with instant := s.core.instant + span, clock := clock } :=
        ⟨forward, .inl ⟨rfl, fun _ _ hmem => hmem⟩⟩
      refine ⟨⟨h.core.latest, h.core.versions, ?_, h.core.kept⟩, ?_, ?_⟩
      · exact fun t ht => UInt64.le_trans (h.core.wake t ht) forward
      · exact fun other hother => (h.clients other hother).forward step
      · exact fun other hother => (h.tasks other hother).forward step

/-- In every run with a clock that does not go back and in which nobody
publishes over a version it has not read, no update is lost. -/
theorem updates_kept_by_fresh_writes {clients : Nat} {initialStatus : BackendStatus}
    {instant : Instant} {clock : Timestamp} {s : Manager}
    (hinitial : WakeBy clock initialStatus)
    (h : (((lifecycle timing).restrict ClockForward).restrict (WritesLatest timing)).Reachable
      (.new clients initialStatus instant clock) s) : UpdatesKept initialStatus s.core.log := by
  have recorded : s.Recorded initialStatus := by
    refine h.invariant_restrict (I := Manager.Recorded initialStatus)
      (recorded_new clients instant hinitial) ?_
    intro t a t' recorded writes hstep
    obtain ⟨forward, hstep⟩ := System.restrict_step_iff.mp hstep
    exact recorded_step recorded forward writes hstep
  exact recorded.core.kept

/-- Client 1 is degrading the embeddings while client 0's round records its wake; the
round's task reads the degraded status and observes the backend ready. -/
def degradeBesideRoundSchedule : List Action :=
  leadSchedule 0 .chat ++ [.client 0 (.answer (.ssh (.ok false))),
    .begin 1 (.degradeEmbeddings "upstream error"), .client 0 (.answer (.wake (.ok ()))),
    .client 1 .run, .task 0 .run, .task 0 .run, .elapse (Duration.fromMillis 10) ⟨0⟩,
    .client 1 .run, .task 0 .run, .task 0 .run, .task 0 (.answer (.ssh (.ok true))),
    .task 0 (.answer (.helper (.ok observedReady))), .task 0 (.answer (.tunnel (.ok .ready)))]

/-- Who published, with the wake and the embeddings of what was published. -/
def wakesAndEmbeddings (log : List Event) : List (Writer × Option Timestamp × CapabilityState) :=
  (publications log).map fun (writer, status) =>
    (writer, status.lastWakeAttemptAt, status.embeddings)

theorem updates_kept_by_fresh_writes_degraded :
    ∃ s, (((lifecycle exampleTiming).restrict ClockForward).restrict
        (WritesLatest exampleTiming)).Reachable (.new 2 .default 0 ⟨0⟩) s ∧
      wakesAndEmbeddings s.core.log = [(.observeOnce, some ⟨0⟩, .ready),
        (.degradeEmbeddings, some ⟨0⟩, .degraded), (.observeOnce, some ⟨0⟩, .ready)] ∧
      UpdatesKept .default s.core.log := by
  obtain ⟨s, reached, published⟩ : ∃ s, (((lifecycle exampleTiming).restrict ClockForward).restrict
      (WritesLatest exampleTiming)).Reachable (.new 2 .default 0 ⟨0⟩) s ∧
      wakesAndEmbeddings s.core.log = [(.observeOnce, some ⟨0⟩, .ready),
        (.degradeEmbeddings, some ⟨0⟩, .degraded), (.observeOnce, some ⟨0⟩, .ready)] :=
    System.reachable_of_check degradeBesideRoundSchedule (by decide)
  have initial : WakeBy ⟨0⟩ BackendStatus.default := by simp [WakeBy, BackendStatus.default]
  exact ⟨s, reached, published, updates_kept_by_fresh_writes initial reached⟩

/-- Client 1 copies the status to degrade the embeddings; before it publishes,
client 0's round records its wake. -/
def staleDegradeSchedule : List Action :=
  leadSchedule 0 .chat ++ [.client 0 (.answer (.ssh (.ok false))),
    .begin 1 (.degradeEmbeddings "upstream error"), .client 1 .run,
    .client 0 (.answer (.wake (.ok ()))), .client 1 .run]

/-- The latest publication has no wake although one was recorded before it. -/
def forgetsWake (initial : BackendStatus) : List Event → Bool
  | .published _ d _ :: earlier =>
      (latestStatus initial earlier).lastWakeAttemptAt.isSome &&
        d.status.lastWakeAttemptAt.isNone
  | _ => false

theorem UpdatesKept.not_forgetsWake {initial : BackendStatus} {log : List Event}
    (h : UpdatesKept initial log) : forgetsWake initial log = false := by
  refine Bool.eq_false_iff.mpr fun hforgets => ?_
  cases log with
  | nil => cases hforgets
  | cons event earlier =>
      cases event with
      | published writer d version =>
          obtain ⟨hbefore, hafter⟩ := Bool.and_eq_true_iff.mp hforgets
          obtain ⟨t, ht⟩ := Option.isSome_iff_exists.mp hbefore
          obtain ⟨t', ht', _⟩ := (h writer d version earlier List.suffix_rfl).1 t ht
          simp [ht'] at hafter
      | _ => cases hforgets

theorem stale_degradation_forgets_wake :
    ¬ ∀ (timing : LifecycleTiming) (clients : Nat) (initialStatus : BackendStatus)
      (instant : Instant) (clock : Timestamp) (s : Manager), WakeBy clock initialStatus →
      ((lifecycle timing).restrict ClockForward).Reachable
        (.new clients initialStatus instant clock) s → UpdatesKept initialStatus s.core.log := by
  intro claim
  obtain ⟨s, reached, forgets⟩ : ∃ s, ((lifecycle exampleTiming).restrict ClockForward).Reachable
      (.new 2 .default 0 ⟨0⟩) s ∧ forgetsWake .default s.core.log = true :=
    System.reachable_of_check staleDegradeSchedule (by decide)
  have kept := claim _ _ _ _ _ s (by simp [WakeBy, BackendStatus.default]) reached
  exact absurd (forgets.symm.trans kept.not_forgetsWake) nofun

end LlmWakeProxy.Lifecycle

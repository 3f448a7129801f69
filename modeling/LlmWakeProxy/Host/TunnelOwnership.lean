import LlmWakeProxy.Host.Tunnel

/-!
Who owns the tunnel's process. The mutex has one holder, and only the holder can
have a child of its own; while it has one, `proc` is empty. So every process that
is there is stored or held, and there is at most one.
-/

namespace LlmWakeProxy.Host
open LlmWakeProxy.Library
open LlmWakeProxy.Lifecycle (Instant LifecycleError TunnelState)

variable {tunnel : SshTunnel} {s s' t : SshTunnelManager}

def TunnelPc.holdsLock : TunnelPc → Bool
  | .check | .spawn | .sleeping .. | .release _ | .cancelled => true
  | _ => false

/-- The child that a `create_tunnel` in progress holds. -/
def TunnelPc.child? : TunnelPc → Option Nat
  | .sleeping c _ => some c
  | _ => none

namespace SshTunnelManager

def LiveAt (s : SshTunnelManager) (c : Nat) : Prop :=
  ∃ child, s.children[c]? = some child ∧ child.phase.live = true

/-- Child `c` is stored in `proc` or held by a `create_tunnel` in progress. -/
def HeldAt (s : SshTunnelManager) (c : Nat) : Prop :=
  s.proc = some c ∨ ∃ pc ∈ s.calls, pc.child? = some c

/-- The last `try_wait` of child `c` reported it running. -/
def FoundRunning (s : SshTunnelManager) (c : Nat) : Prop :=
  ∃ child, s.children[c]? = some child ∧ child.lastWait = some .running

end SshTunnelManager

/-- What `proc` is while a call stands there. -/
def TunnelPc.Sited (s : SshTunnelManager) : TunnelPc → Prop
  | .spawn | .sleeping .. | .cancelled | .release (.error _) => s.proc = none
  | .release (.ok .ready) => ∃ c, s.proc = some c ∧ s.FoundRunning c
  | _ => True

structure Owned (s : SshTunnelManager) : Prop where
  mutex : s.calls.countP TunnelPc.holdsLock = s.locked.toNat
  held : ∀ c, s.LiveAt c → s.HeldAt c
  sited : ∀ pc ∈ s.calls, pc.Sited s

theorem sited_of_not_holdsLock {pc : TunnelPc} (h : pc.holdsLock = false) : pc.Sited s := by
  cases pc with
  | idle | lock | returned _ | dropped => trivial
  | check | spawn | sleeping _ _ | release _ | cancelled => cases h

theorem holdsLock_of_child {pc : TunnelPc} {c : Nat} (h : pc.child? = some c) :
    pc.holdsLock = true := by
  cases pc with
  | sleeping _ _ => rfl
  | _ => cases h

/-- The holder of the mutex is alone with it, and where nobody holds it, so is everyone. -/
structure Alone (s : SshTunnelManager) (i : Nat) (pc : TunnelPc) : Prop where
  here : s.calls[i]? = some pc
  count : s.calls.countP TunnelPc.holdsLock = pc.holdsLock.toNat

theorem Owned.alone {i : Nat} {pc : TunnelPc} (h : Owned s) (here : s.calls[i]? = some pc)
    (holds : pc.holdsLock = true) : Alone s i pc := by
  refine ⟨here, ?_⟩
  have counted := countP_pos_of_getElem? here holds
  have bound := Bool.toNat_le s.locked
  rw [h.mutex] at counted ⊢
  rw [holds]
  exact Nat.le_antisymm bound counted

theorem Alone.others {i j : Nat} {pc pc' : TunnelPc} (h : Alone s i pc) (hji : j ≠ i)
    (there : s.calls[j]? = some pc') : pc'.holdsLock = false := by
  cases hlock : pc'.holdsLock with
  | false => rfl
  | true =>
      have counted := countP_pos_of_getElem? there hlock
      cases hholds : pc.holdsLock with
      | false =>
          rw [h.count, hholds] at counted
          exact absurd counted (Nat.lt_irrefl 0)
      | true =>
          have atMost : s.calls.countP TunnelPc.holdsLock ≤ 1 := by
            rw [h.count]
            exact Bool.toNat_le _
          exact absurd (eq_of_countP_le_one atMost there h.here hlock hholds) hji

/-- What is live is stored, or is the child of the one who may have one. -/
theorem Owned.held_alone {i c : Nat} {pc : TunnelPc} (h : Owned s) (alone : Alone s i pc)
    (live : s.LiveAt c) : s.proc = some c ∨ pc.child? = some c := by
  obtain hproc | ⟨pc', hmem, hchild⟩ := h.held c live
  · exact .inl hproc
  · obtain ⟨j, hj⟩ := List.mem_iff_getElem?.mp hmem
    by_cases hji : j = i
    · subst hji
      cases alone.here.symm.trans hj
      exact .inr hchild
    · have holds := holdsLock_of_child hchild
      rw [alone.others hji hj] at holds
      cases holds

theorem Owned.exclusive {i : Nat} {pc pc' : TunnelPc} (alone : Alone s i pc)
    (calls : t.calls = s.calls) (mutex : pc'.holdsLock = t.locked)
    (held : ∀ c, t.LiveAt c → t.proc = some c ∨ pc'.child? = some c) (sited : pc'.Sited t) :
    Owned (t.put i pc') := by
  have balance := countP_set_balance TunnelPc.holdsLock (b := pc') alone.here
  refine ⟨?_, ?_, ?_⟩
  · have count := alone.count
    simp only [SshTunnelManager.put, calls]
    rw [mutex] at balance
    omega
  · intro c live
    refine (held c live).imp id fun hchild => ⟨pc', ?_, hchild⟩
    refine List.mem_of_getElem? (i := i) ?_
    simp only [SshTunnelManager.put, calls]
    exact getElem?_set_of_some alone.here pc'
  · intro pc'' hmem
    simp only [SshTunnelManager.put, calls] at hmem
    obtain rfl | ⟨j, hji, hj⟩ := mem_set_cases hmem
    · exact sited
    · exact sited_of_not_holdsLock (alone.others hji hj)

theorem Owned.aside {i : Nat} {pc pc' : TunnelPc} (h : Owned s) (here : s.calls[i]? = some pc)
    (before : pc.holdsLock = false) (after : pc'.holdsLock = false) : Owned (s.put i pc') := by
  have balance := countP_set_balance TunnelPc.holdsLock (b := pc') here
  refine ⟨?_, ?_, ?_⟩
  · rw [before, after, h.mutex] at balance
    exact balance
  · intro c live
    refine (h.held c live).imp id ?_
    rintro ⟨pc'', hmem, hchild⟩
    obtain ⟨j, hj⟩ := List.mem_iff_getElem?.mp hmem
    refine ⟨pc'', List.mem_of_getElem? (i := j) ?_, hchild⟩
    have hji : i ≠ j := by
      rintro rfl
      cases here.symm.trans hj
      rw [holdsLock_of_child hchild] at before
      cases before
    rwa [SshTunnelManager.put, List.getElem?_set_ne hji]
  · exact forall_mem_set h.sited (sited_of_not_holdsLock after)

/-! ### Children -/

theorem liveAt_of_set {c c' : Nat} {child child' : Child}
    (there : s.children[c']? = some child) (set : t.children = s.children.set c' child')
    (alike : child'.phase.live = true → child.phase.live = true) (live : t.LiveAt c) :
    s.LiveAt c := by
  obtain ⟨found, here, hlive⟩ := live
  rw [set] at here
  obtain ⟨rfl, rfl⟩ | ⟨_, here⟩ := getElem?_set_cases there here
  · exact ⟨child, there, alike hlive⟩
  · exact ⟨found, here, hlive⟩

theorem live_kill (child : Child) : child.kill.phase.live = false := by
  unfold Child.kill
  split
  next => rfl
  next h => simpa using h

theorem liveAt_kill {c c' : Nat} (live : (s.kill c').LiveAt c) : c ≠ c' ∧ s.LiveAt c := by
  obtain ⟨found, here, hlive⟩ := live
  simp only [SshTunnelManager.kill, List.getElem?_modify] at here
  obtain ⟨child, hchild, rfl⟩ := Option.map_eq_some_iff.mp here
  split at hlive
  next => rw [live_kill] at hlive; cases hlive
  next hne => exact ⟨Ne.symm hne, child, hchild, hlive⟩

/-- What a `try_wait` leaves: its answer with the child, everything else as it was. -/
structure Waited (s : SshTunnelManager) (c : Nat) (answer : TryWait) (t : SshTunnelManager) :
    Prop where
  proc : t.proc = s.proc
  locked : t.locked = s.locked
  calls : t.calls = s.calls
  live : ∀ c', t.LiveAt c' → s.LiveAt c'
  fits : ∃ child, t.children[c]? = some child ∧ answer.fits child.phase = true ∧
    child.lastWait = some answer

theorem waited_of_tryWait {c : Nat} {answer : TryWait} (h : s.tryWait c answer = some t) :
    Waited s c answer t := by
  obtain ⟨child, here, fits, rfl⟩ := tryWait_cases h
  exact ⟨rfl, rfl, rfl, fun c' => liveAt_of_set here rfl id, _, getElem?_set_of_some here _,
    fits, rfl⟩

/-- What lived in `proc` before the `try_wait` lives there after it. -/
theorem Waited.stored {c c' : Nat} {answer : TryWait} (h : Waited s c answer t)
    (stored : ∀ c, s.LiveAt c → s.proc = some c) (live : t.LiveAt c') : t.proc = some c' :=
  h.proc.trans (stored c' (h.live c' live))

/-- With the child of a call killed, only what `proc` has lives. -/
theorem stored_kill {c c' : Nat} {pc : TunnelPc}
    (stored : ∀ c, s.LiveAt c → s.proc = some c ∨ pc.child? = some c)
    (mine : pc.child? = some c) (live : (s.kill c).LiveAt c') : (s.kill c).proc = some c' := by
  obtain ⟨hne, live⟩ := liveAt_kill live
  obtain hproc | hchild := stored c' live
  · exact hproc
  · exact absurd (Option.some.inj (mine.symm.trans hchild)).symm hne

theorem Waited.foundRunning {c : Nat} (h : Waited s c .running t) : t.FoundRunning c := by
  obtain ⟨child, here, _, answered⟩ := h.fits
  exact ⟨child, here, answered⟩

theorem liveAt_spawnChild {c : Nat} (live : (s.spawnChild tunnel).LiveAt c) :
    s.LiveAt c ∨ c = s.children.length := by
  obtain ⟨child, here, hlive⟩ := live
  obtain ⟨hlt, _⟩ := List.getElem?_eq_some_iff.mp here
  by_cases hc : c < s.children.length
  · refine .inl ⟨child, ?_, hlive⟩
    rwa [SshTunnelManager.spawnChild, List.getElem?_append_left hc] at here
  · refine .inr (Nat.le_antisymm ?_ (Nat.not_lt.mp hc))
    simpa [SshTunnelManager.spawnChild, Nat.lt_succ_iff] using hlt

theorem owned_exclusive {i : Nat} {pc : TunnelPc} {input : TunnelInput} (h : Owned s)
    (alone : Alone s i pc) (holds : pc.holdsLock = true)
    (rule : TunnelRule tunnel s i pc input s') : Owned s' := by
  have locked : s.locked = true := by
    have count := alone.count
    rw [h.mutex, holds] at count
    cases hlocked : s.locked with
    | true => rfl
    | false => rw [hlocked] at count; cases count
  have sited : pc.Sited s := h.sited pc (List.mem_of_getElem? alone.here)
  have stored : ∀ c, s.LiveAt c → s.proc = some c ∨ pc.child? = some c :=
    fun c live => h.held_alone alone live
  have childless : pc.child? = none → ∀ c, s.LiveAt c → s.proc = some c := by
    intro hnone c live
    refine (stored c live).resolve_right ?_
    rw [hnone]
    intro hchild
    cases hchild
  cases rule with
  | enter | locked _ | dropWaiting => cases holds
  | empty proc => exact .exclusive alone rfl locked.symm stored proc
  | ended c status t proc waited =>
      have after := waited_of_tryWait waited
      have replaced : t.setProc none = { t.kill c with proc := none } := by
        rw [SshTunnelManager.setProc, after.proc, proc]
        rfl
      rw [replaced]
      refine .exclusive alone after.calls (after.locked.trans locked).symm ?_ rfl
      intro c' live
      obtain ⟨hne, live⟩ := liveAt_kill live
      have hproc := childless rfl c' (after.live c' live)
      exact absurd (Option.some.inj (hproc.symm.trans proc)) hne
  | running c t proc waited =>
      have after := waited_of_tryWait waited
      exact .exclusive alone after.calls (after.locked.trans locked).symm
        (fun _ live => .inl (after.stored (childless rfl) live))
        ⟨c, after.proc.trans proc, after.foundRunning⟩
  | unknown c e t proc waited =>
      have after := waited_of_tryWait waited
      exact .exclusive alone after.calls (after.locked.trans locked).symm
        (fun _ live => .inl (after.stored (childless rfl) live)) trivial
  | notSpawned e error => exact .exclusive alone rfl locked.symm stored sited
  | spawned =>
      refine .exclusive alone rfl locked.symm ?_ sited
      intro c live
      obtain live | rfl := liveAt_spawnChild live
      · exact .inl (childless rfl c live)
      · exact .inr rfl
  | notCreated c wakeAt answer error t waited =>
      have after := waited_of_tryWait waited
      have kept : ∀ c', t.LiveAt c' →
          t.proc = some c' ∨ (TunnelPc.sleeping c wakeAt).child? = some c' :=
        fun c' live => (stored c' (after.live c' live)).imp after.proc.trans id
      exact .exclusive alone after.calls (after.locked.trans locked).symm
        (fun _ live => .inl (stored_kill kept rfl live))
        (after.proc.trans sited)
  | created c wakeAt t waited =>
      have after := waited_of_tryWait waited
      have replaced : t.setProc (some c) = { t with proc := some c } := by
        rw [SshTunnelManager.setProc, after.proc, show s.proc = none from sited]
        rfl
      rw [replaced]
      refine .exclusive alone after.calls (after.locked.trans locked).symm ?_
        ⟨c, rfl, after.foundRunning⟩
      intro c' live
      obtain hproc | hchild := stored c' (after.live c' live)
      · rw [show s.proc = none from sited] at hproc
        cases hproc
      · exact .inl hchild
  | released result => exact .exclusive alone rfl rfl stored trivial
  | unwound => exact .exclusive alone rfl rfl stored trivial
  | dropSleeping c wakeAt =>
      exact .exclusive alone rfl locked.symm (fun _ live => .inl (stored_kill stored rfl live))
        sited

theorem owned_call {i : Nat} {pc : TunnelPc} {input : TunnelInput} (h : Owned s)
    (here : s.calls[i]? = some pc) (rule : TunnelRule tunnel s i pc input s') : Owned s' := by
  cases hholds : pc.holdsLock with
  | true => exact owned_exclusive h (h.alone here hholds) hholds rule
  | false =>
      cases rule with
      | enter | dropWaiting => exact h.aside here rfl rfl
      | locked free =>
          have alone : Alone s i .lock := by
            refine ⟨here, ?_⟩
            rw [h.mutex, free]
            rfl
          refine .exclusive alone rfl rfl ?_ trivial
          intro c live
          obtain hproc | hchild := h.held_alone alone live
          · exact .inl hproc
          · cases hchild
      | _ => cases hholds

/-- The world changes a child, and leaves alone what the calls know of it. -/
theorem Owned.change {c : Nat} {child child' : Child} (h : Owned s)
    (here : s.children[c]? = some child)
    (alike : child'.phase.live = true → child.phase.live = true)
    (kept : child'.lastWait = child.lastWait) :
    Owned { s with children := s.children.set c child' } := by
  refine ⟨h.mutex, fun c' live => h.held c' (liveAt_of_set here rfl alike live), ?_⟩
  intro pc hmem
  have sited := h.sited pc hmem
  unfold TunnelPc.Sited at sited ⊢
  split
  next => exact sited
  next => exact sited
  next => exact sited
  next => exact sited
  next =>
    obtain ⟨c', hproc, found, there, hfound⟩ := sited
    refine ⟨c', hproc, ?_⟩
    by_cases hcc : c = c'
    · subst hcc
      cases here.symm.trans there
      exact ⟨child', getElem?_set_of_some here _, kept.trans hfound⟩
    · exact ⟨found, by rwa [List.getElem?_set_ne hcc], hfound⟩
  next => trivial

theorem owned_new (calls : Nat) (instant : Instant) : Owned (.new calls instant) := by
  refine ⟨?_, ?_, ?_⟩
  · simp only [SshTunnelManager.new, List.countP_replicate]
    rfl
  · rintro c ⟨child, here, _⟩
    simp [SshTunnelManager.new] at here
  · intro pc hmem
    obtain ⟨_, rfl⟩ := List.mem_replicate.mp hmem
    trivial

theorem owned_step {a : TunnelAction} (h : Owned s)
    (hstep : (sshTunnel tunnel).step s a = some s') : Owned s' := by
  cases tunnelStep_cases hstep with
  | call i input pc here _ rule => exact owned_call h here rule
  | connect c child here phase => exact h.change here (fun _ => by rw [phase]; rfl) rfl
  | exit c child here phase => exact h.change here (fun _ => phase) rfl
  | elapse span => exact ⟨h.mutex, h.held, h.sited⟩

theorem owned_reachable {calls : Nat} {instant : Instant}
    (h : (sshTunnel tunnel).Reachable (.new calls instant) s) : Owned s :=
  h.invariant (owned_new calls instant) fun _ _ _ => owned_step

theorem setProc_calls (s : SshTunnelManager) (proc : Option Nat) :
    (s.setProc proc).calls = s.calls := by
  cases hproc : s.proc <;> simp [SshTunnelManager.setProc, SshTunnelManager.kill, hproc]

/-- A call returns by dropping the guard, and what it returns was decided before. -/
theorem release_of_returned {i : Nat} {a : TunnelAction}
    {result : Except LifecycleError TunnelState} (hstep : (sshTunnel tunnel).step s a = some s')
    (before : s.calls[i]? ≠ some (.returned result))
    (after : s'.calls[i]? = some (.returned result)) :
    s.calls[i]? = some (.release result) ∧ s'.proc = s.proc ∧ s'.children = s.children := by
  cases tunnelStep_cases hstep with
  | connect | exit | elapse => exact absurd after before
  | call j input pc here _ rule =>
      have moved : ∀ {t : SshTunnelManager} {pc' : TunnelPc}, t.calls = s.calls →
          (t.put j pc').calls[i]? = some (.returned result) → i = j ∧ pc' = .returned result := by
        intro t pc' calls hreturned
        have there : t.calls[j]? = some pc := by rw [calls]; exact here
        obtain ⟨hij, hpc⟩ | ⟨_, hold⟩ := getElem?_set_cases there hreturned
        · exact ⟨hij, hpc.symm⟩
        · exact absurd (calls ▸ hold) before
      cases rule with
      | released result' =>
          obtain ⟨rfl, hresult⟩ := moved rfl after
          cases hresult
          exact ⟨here, rfl, rfl⟩
      | enter | locked _ | empty _ | notSpawned _ _ | spawned | unwound | dropWaiting
      | dropSleeping _ _ => cases (moved rfl after).2
      | running _ _ _ waited | unknown _ _ _ _ waited =>
          cases (moved (waited_of_tryWait waited).calls after).2
      | notCreated _ _ _ _ _ waited =>
          cases (moved (t := SshTunnelManager.kill _ _) (waited_of_tryWait waited).calls after).2
      | ended _ _ _ _ waited | created _ _ _ waited =>
          cases (moved ((setProc_calls _ _).trans (waited_of_tryWait waited).calls) after).2

theorem Owned.proc_of_child {pc : TunnelPc} {c : Nat} (h : Owned s) (hmem : pc ∈ s.calls)
    (hchild : pc.child? = some c) : s.proc = none := by
  have sited := h.sited pc hmem
  cases pc with
  | sleeping _ _ => exact sited
  | _ => cases hchild

theorem Owned.at_most_one {c c' : Nat} (h : Owned s) (live : s.LiveAt c) (live' : s.LiveAt c') :
    c = c' := by
  obtain hproc | ⟨pc, hmem, hchild⟩ := h.held c live
  · obtain hproc' | ⟨pc', hmem', hchild'⟩ := h.held c' live'
    · exact Option.some.inj (hproc.symm.trans hproc')
    · rw [h.proc_of_child hmem' hchild'] at hproc
      cases hproc
  · obtain hproc' | ⟨pc', hmem', hchild'⟩ := h.held c' live'
    · rw [h.proc_of_child hmem hchild] at hproc'
      cases hproc'
    · obtain ⟨i, hi⟩ := List.mem_iff_getElem?.mp hmem
      obtain ⟨j, hj⟩ := List.mem_iff_getElem?.mp hmem'
      have alone := h.alone hi (holdsLock_of_child hchild)
      by_cases hji : j = i
      · subst hji
        cases hi.symm.trans hj
        exact Option.some.inj (hchild.symm.trans hchild')
      · have unlocked := alone.others hji hj
        rw [holdsLock_of_child hchild'] at unlocked
        cases unlocked

/-- At most one process is there, every process that is there is stored or held, and
what a call returns tells what it leaves in `proc`. -/
theorem tunnel_child_owned {calls : Nat} {instant : Instant}
    (h : (sshTunnel tunnel).Reachable (.new calls instant) s) :
    (∀ c c', s.LiveAt c → s.LiveAt c' → c = c') ∧
      (∀ (c : Nat) (child : Child), s.children[c]? = some child → ¬ s.HeldAt c →
        child.phase = .exited ∨ child.phase = .killed) ∧
      ∀ (a : TunnelAction) (s' : SshTunnelManager), (sshTunnel tunnel).step s a = some s' →
        ∀ (i : Nat) (result : Except LifecycleError TunnelState),
          s.calls[i]? ≠ some (.returned result) → s'.calls[i]? = some (.returned result) →
          (∀ error, result = .error error → s'.proc = none) ∧
          (result = .ok .ready → ∃ c, s'.proc = some c ∧ s'.FoundRunning c) := by
  have owned := owned_reachable h
  refine ⟨fun c c' => owned.at_most_one, ?_, ?_⟩
  · intro c child here lost
    have dead : child.phase.live ≠ true := fun live => lost (owned.held c ⟨child, here, live⟩)
    cases hphase : child.phase <;> simp_all [ChildPhase.live]
  · intro a s' hstep i result before after
    obtain ⟨here, hproc, hchildren⟩ := release_of_returned hstep before after
    have sited := owned.sited _ (List.mem_of_getElem? here)
    refine ⟨?_, ?_⟩
    · rintro error rfl
      exact hproc.trans sited
    · rintro rfl
      obtain ⟨c, stored, found⟩ := sited
      exact ⟨c, hproc.trans stored, by rwa [SshTunnelManager.FoundRunning, hchildren]⟩

def exampleTunnel : SshTunnel where
  sshUser := "user".toList
  sshHost := "host".toList
  localPort := 18080
  remotePort := 8080
  sshKeyPath := "/key".toList

/-- The first call spawns a child and finds it running after the sleep. -/
def createSchedule : List TunnelAction :=
  [.call 0 .enter, .call 0 .run, .call 0 .run, .call 0 (.spawned (.ok ())), .elapse settleTime,
    .call 0 (.tryWait .running)]

/-- That child exits, the call that replaces it is dropped in its sleep, and a third call
cannot start ssh. -/
def replaceSchedule : List TunnelAction :=
  createSchedule ++
    [.call 0 .run, .exit 0,
      .call 1 .enter, .call 1 .run, .call 1 (.tryWait (.exited "255")), .call 1 (.spawned (.ok ())),
      .call 1 .drop, .call 1 .run,
      .call 2 .enter, .call 2 .run, .call 2 .run, .call 2 (.spawned (.error "no such file"))]

/-- A fourth call creates a child of its own. -/
def recreateSchedule : List TunnelAction :=
  replaceSchedule ++
    [.call 2 .run, .call 3 .enter, .call 3 .run, .call 3 .run, .call 3 (.spawned (.ok ())),
      .elapse settleTime, .call 3 (.tryWait .running)]

theorem releaseStep (tunnel : SshTunnel) {i : Nat} {result : Except LifecycleError TunnelState}
    (here : s.calls[i]? = some (.release result)) :
    (sshTunnel tunnel).step s (.call i .run) =
      some ({ s with locked := false }.put i (.returned result)) := by
  simp only [sshTunnel, SshTunnelManager.step, here]
  rfl

theorem tunnel_child_owned_recreated :
    (∃ s s' error, (sshTunnel exampleTunnel).Reachable (.new 4 0) s ∧
      s.calls[2]? = some (.release (.error error)) ∧
      (sshTunnel exampleTunnel).step s (.call 2 .run) = some s' ∧ s'.proc = none) ∧
    ∃ s s', (sshTunnel exampleTunnel).Reachable (.new 4 0) s ∧
      s.children.map (·.phase) = [.exited, .killed, .connecting] ∧
      s.calls[3]? = some (.release (.ok .ready)) ∧
      (sshTunnel exampleTunnel).step s (.call 3 .run) = some s' ∧
      (∀ c c', s.LiveAt c → s.LiveAt c' → c = c') ∧
      (∀ (c : Nat) (child : Child), s.children[c]? = some child → ¬ s.HeldAt c →
        child.phase = .exited ∨ child.phase = .killed) ∧
      ∃ c, s'.proc = some c ∧ s'.FoundRunning c := by
  refine ⟨?_, ?_⟩
  · have failed : ∃ s, (sshTunnel exampleTunnel).Reachable (.new 4 0) s ∧
        s.calls[2]? = some (.release (.error
          { message := "failed to spawn SSH tunnel: no such file" })) :=
      System.reachable_of_check replaceSchedule (by decide)
    obtain ⟨s, hrun, here⟩ := failed
    have hstep := releaseStep exampleTunnel here
    have kept := (tunnel_child_owned hrun).2.2 _ _ hstep 2 _ (by simp [here])
      (getElem?_set_of_some here _)
    exact ⟨s, _, _, hrun, here, hstep, kept.1 _ rfl⟩
  · have recreated : ∃ s, (sshTunnel exampleTunnel).Reachable (.new 4 0) s ∧
        s.calls[3]? = some (.release (.ok .ready)) ∧
        s.children.map (·.phase) = [.exited, .killed, .connecting] :=
      System.reachable_of_check recreateSchedule (by decide)
    obtain ⟨s, hrun, here, hphase⟩ := recreated
    have hstep := releaseStep exampleTunnel here
    obtain ⟨atMostOne, reaped, returns⟩ := tunnel_child_owned hrun
    have kept := returns _ _ hstep 3 _ (by simp [here]) (getElem?_set_of_some here _)
    exact ⟨s, _, hrun, hphase, here, hstep, atMostOne, reaped, kept.2 rfl⟩

end LlmWakeProxy.Host

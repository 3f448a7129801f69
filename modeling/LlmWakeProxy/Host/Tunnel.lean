import LlmWakeProxy.Library.Transition
import LlmWakeProxy.Library.Population
import LlmWakeProxy.Forward.Rewrite
import LlmWakeProxy.Lifecycle.Types

/-!
`SshTunnelManager` as a transition system: any number of calls of
`ensure_tunnel`, the ssh processes they spawn, and the clock. The calls take turns
under the `proc` mutex; a call can be dropped where it awaits, before it has the
mutex and in the sleep of `create_tunnel`.

A child connects for as long as ssh's own timeout allows, then forwards or has
exited, and can exit later. Dropping a `Child` kills the process. What `try_wait`
answered last is kept with the child; no step reads it.
-/

namespace LlmWakeProxy.Host
open LlmWakeProxy.Library
open LlmWakeProxy.Forward (Text)
open LlmWakeProxy.Lifecycle (Instant Duration LifecycleError TunnelState sleepDeadline)

structure SshTunnel where
  sshUser : Text
  sshHost : Text
  localPort : UInt16
  remotePort : UInt16
  sshKeyPath : Text

/-- The arguments `create_tunnel` gives to ssh. -/
def SshTunnel.args (tunnel : SshTunnel) : List Text :=
  ["-o".toList, "ConnectTimeout=10".toList, "-o".toList, "BatchMode=yes".toList, "-o".toList,
   "StrictHostKeyChecking=accept-new".toList, "-o".toList, "ExitOnForwardFailure=yes".toList,
   "-i".toList, tunnel.sshKeyPath, "-L".toList,
   "127.0.0.1:".toList ++ (toString tunnel.localPort).toList ++ ":127.0.0.1:".toList ++
     (toString tunnel.remotePort).toList,
   "-N".toList, tunnel.sshUser ++ ['@'] ++ tunnel.sshHost]

/-- The `ConnectTimeout` among them. -/
def connectTimeout : Duration := Duration.fromSecs 10

def settleTime : Duration := Duration.fromMillis 500

inductive ChildPhase where
  | connecting
  | forwarding
  | exited
  | killed
  deriving DecidableEq, Repr

def ChildPhase.live : ChildPhase → Bool
  | .connecting | .forwarding => true
  | .exited | .killed => false

/-- The answers of `try_wait`: `Ok(Some(status))`, `Ok(None)` and `Err(e)`. -/
inductive TryWait where
  | exited (status : String)
  | running
  | failed (e : String)
  deriving DecidableEq, Repr

/-- A process whose end has not been seen answers truly, unless the system call fails. -/
def TryWait.fits : TryWait → ChildPhase → Bool
  | .exited _, phase => phase = .exited
  | .running, phase => phase.live
  | .failed _, _ => true

structure Child where
  args : List Text
  phase : ChildPhase
  spawnedAt : Instant
  lastWait : Option TryWait
  deriving DecidableEq, Repr

/-- `Child::drop`, with `kill_on_drop`. -/
def Child.kill (child : Child) : Child :=
  if child.phase.live then { child with phase := .killed } else child

/-- Where a call of `ensure_tunnel` stands. -/
inductive TunnelPc where
  | idle
  | lock
  | check
  | spawn
  | sleeping (child : Nat) (wakeAt : Instant)
  | release (result : Except LifecycleError TunnelState)
  | cancelled
  | returned (result : Except LifecycleError TunnelState)
  | dropped
  deriving DecidableEq

structure SshTunnelManager where
  proc : Option Nat
  locked : Bool
  children : List Child
  calls : List TunnelPc
  instant : Instant

inductive TunnelInput where
  | enter
  | run
  | spawned (result : Except String Unit)
  | tryWait (answer : TryWait)
  | drop

inductive TunnelAction where
  | call (call : Nat) (input : TunnelInput)
  | connect (child : Nat)
  | exit (child : Nat)
  | elapse (span : Duration)

namespace SshTunnelManager

/-- `SshTunnelManager::new`, with the number of calls there will be. -/
def new (calls : Nat) (instant : Instant) : SshTunnelManager where
  proc := none
  locked := false
  children := []
  calls := List.replicate calls .idle
  instant := instant

def put (s : SshTunnelManager) (i : Nat) (pc : TunnelPc) : SshTunnelManager :=
  { s with calls := s.calls.set i pc }

def kill (s : SshTunnelManager) (c : Nat) : SshTunnelManager :=
  { s with children := s.children.modify c Child.kill }

/-- `*proc = …` drops the child that was stored. -/
def setProc (s : SshTunnelManager) (proc : Option Nat) : SshTunnelManager :=
  { s.proc.elim s s.kill with proc := proc }

/-- `child.try_wait()`, when it can answer so. -/
def tryWait (s : SshTunnelManager) (c : Nat) (answer : TryWait) : Option SshTunnelManager := do
  let child ← s.children[c]?
  if answer.fits child.phase then
    some { s with children := s.children.set c { child with lastWait := some answer } }
  else none

def spawnChild (tunnel : SshTunnel) (s : SshTunnelManager) : SshTunnelManager :=
  { s with
    children := s.children ++
      [{ args := tunnel.args, phase := .connecting, spawnedAt := s.instant, lastWait := none }] }

def callStep (tunnel : SshTunnel) (s : SshTunnelManager) (i : Nat) :
    TunnelPc → TunnelInput → Option SshTunnelManager
  | .idle, .enter => some (s.put i .lock)
  | .lock, .run => if s.locked then none else some ({ s with locked := true }.put i .check)
  | .check, .run =>
      match s.proc with
      | none => some (s.put i .spawn)
      | some _ => none
  | .check, .tryWait answer =>
      match s.proc with
      | none => none
      | some c => (s.tryWait c answer).map fun s =>
          match answer with
          | .exited _ => (s.setProc none).put i .spawn
          | .running => s.put i (.release (.ok .ready))
          | .failed _ => s.put i (.release (.ok .down))
  -- `create_tunnel`
  | .spawn, .spawned (.error e) =>
      some (s.put i (.release (.error { message := "failed to spawn SSH tunnel: " ++ e })))
  | .spawn, .spawned (.ok ()) =>
      some ((s.spawnChild tunnel).put i
        (.sleeping s.children.length (sleepDeadline s.instant settleTime)))
  | .sleeping c wakeAt, .tryWait answer =>
      if s.instant < wakeAt then none
      else (s.tryWait c answer).map fun s =>
        match answer with
        | .exited status => (s.kill c).put i (.release (.error
            { message := "SSH tunnel exited immediately with status: " ++ status }))
        -- back in `ensure_tunnel`, which stores the child without another await
        | .running => (s.setProc (some c)).put i (.release (.ok .ready))
        | .failed e => (s.kill c).put i (.release (.error
            { message := "failed to check tunnel: " ++ e }))
  -- the guard of the mutex is dropped last
  | .release result, .run => some ({ s with locked := false }.put i (.returned result))
  | .cancelled, .run => some ({ s with locked := false }.put i .dropped)
  | .lock, .drop => some (s.put i .dropped)
  | .sleeping c _, .drop => some ((s.kill c).put i .cancelled)
  | _, _ => none

/-- No child is still connecting after ssh's timeout. -/
def inTime (s : SshTunnelManager) (instant : Instant) : Bool :=
  s.children.all fun child =>
    child.phase ≠ .connecting || decide (instant ≤ child.spawnedAt + connectTimeout)

def step (tunnel : SshTunnel) (s : SshTunnelManager) : TunnelAction → Option SshTunnelManager
  | .call i input => do
      let pc ← s.calls[i]?
      s.callStep tunnel i pc input
  | .connect c => do
      let child ← s.children[c]?
      if child.phase = .connecting then
        some { s with children := s.children.set c { child with phase := .forwarding } }
      else none
  | .exit c => do
      let child ← s.children[c]?
      if child.phase.live then
        some { s with children := s.children.set c { child with phase := .exited } }
      else none
  | .elapse span =>
      if s.inTime (s.instant + span) then some { s with instant := s.instant + span } else none

end SshTunnelManager

def sshTunnel (tunnel : SshTunnel) : System SshTunnelManager TunnelAction where
  step := SshTunnelManager.step tunnel

/-! ### The rules -/

/-- The branches of one step of call `i`. -/
inductive TunnelRule (tunnel : SshTunnel) (s : SshTunnelManager) (i : Nat) :
    TunnelPc → TunnelInput → SshTunnelManager → Prop
  | enter : TunnelRule tunnel s i .idle .enter (s.put i .lock)
  | locked (free : s.locked = false) :
      TunnelRule tunnel s i .lock .run ({ s with locked := true }.put i .check)
  | empty (proc : s.proc = none) : TunnelRule tunnel s i .check .run (s.put i .spawn)
  | ended (c : Nat) (status : String) (t : SshTunnelManager) (proc : s.proc = some c)
      (waited : s.tryWait c (.exited status) = some t) :
      TunnelRule tunnel s i .check (.tryWait (.exited status)) ((t.setProc none).put i .spawn)
  | running (c : Nat) (t : SshTunnelManager) (proc : s.proc = some c)
      (waited : s.tryWait c .running = some t) :
      TunnelRule tunnel s i .check (.tryWait .running) (t.put i (.release (.ok .ready)))
  | unknown (c : Nat) (e : String) (t : SshTunnelManager) (proc : s.proc = some c)
      (waited : s.tryWait c (.failed e) = some t) :
      TunnelRule tunnel s i .check (.tryWait (.failed e)) (t.put i (.release (.ok .down)))
  | notSpawned (e : String) (error : LifecycleError) :
      TunnelRule tunnel s i .spawn (.spawned (.error e)) (s.put i (.release (.error error)))
  | spawned :
      TunnelRule tunnel s i .spawn (.spawned (.ok ())) ((s.spawnChild tunnel).put i
        (.sleeping s.children.length (sleepDeadline s.instant settleTime)))
  | notCreated (c : Nat) (wakeAt : Instant) (answer : TryWait) (error : LifecycleError)
      (t : SshTunnelManager) (waited : s.tryWait c answer = some t) :
      TunnelRule tunnel s i (.sleeping c wakeAt) (.tryWait answer)
        ((t.kill c).put i (.release (.error error)))
  | created (c : Nat) (wakeAt : Instant) (t : SshTunnelManager)
      (waited : s.tryWait c .running = some t) :
      TunnelRule tunnel s i (.sleeping c wakeAt) (.tryWait .running)
        ((t.setProc (some c)).put i (.release (.ok .ready)))
  | released (result : Except LifecycleError TunnelState) :
      TunnelRule tunnel s i (.release result) .run
        ({ s with locked := false }.put i (.returned result))
  | unwound : TunnelRule tunnel s i .cancelled .run ({ s with locked := false }.put i .dropped)
  | dropWaiting : TunnelRule tunnel s i .lock .drop (s.put i .dropped)
  | dropSleeping (c : Nat) (wakeAt : Instant) :
      TunnelRule tunnel s i (.sleeping c wakeAt) .drop ((s.kill c).put i .cancelled)

inductive TunnelStepRule (tunnel : SshTunnel) (s : SshTunnelManager) :
    TunnelAction → SshTunnelManager → Prop
  | call (i : Nat) (input : TunnelInput) (pc : TunnelPc) (here : s.calls[i]? = some pc)
      (s' : SshTunnelManager) (rule : TunnelRule tunnel s i pc input s') :
      TunnelStepRule tunnel s (.call i input) s'
  | connect (c : Nat) (child : Child) (here : s.children[c]? = some child)
      (phase : child.phase = .connecting) :
      TunnelStepRule tunnel s (.connect c)
        { s with children := s.children.set c { child with phase := .forwarding } }
  | exit (c : Nat) (child : Child) (here : s.children[c]? = some child)
      (phase : child.phase.live = true) :
      TunnelStepRule tunnel s (.exit c)
        { s with children := s.children.set c { child with phase := .exited } }
  | elapse (span : Duration) :
      TunnelStepRule tunnel s (.elapse span) { s with instant := s.instant + span }

section
variable {tunnel : SshTunnel} {s s' : SshTunnelManager}

theorem tunnelCallStep_cases {i : Nat} {pc : TunnelPc} {input : TunnelInput}
    (h : s.callStep tunnel i pc input = some s') : TunnelRule tunnel s i pc input s' := by
  unfold SshTunnelManager.callStep at h
  split at h
  next =>
    cases h
    exact .enter
  next =>
    split at h
    next => cases h
    next free =>
      cases h
      exact .locked (Bool.eq_false_iff.mpr free)
  next =>
    split at h
    next proc =>
      cases h
      exact .empty proc
    next => cases h
  next answer =>
    split at h
    next => cases h
    next c proc =>
      obtain ⟨t, waited, rfl⟩ := Option.map_eq_some_iff.mp h
      cases answer with
      | exited status => exact .ended c status t proc waited
      | running => exact .running c t proc waited
      | failed e => exact .unknown c e t proc waited
  next e =>
    cases h
    exact .notSpawned e _
  next =>
    cases h
    exact .spawned
  next c wakeAt answer =>
    split at h
    next => cases h
    next =>
      obtain ⟨t, waited, rfl⟩ := Option.map_eq_some_iff.mp h
      cases answer with
      | exited status => exact .notCreated c wakeAt _ _ t waited
      | running => exact .created c wakeAt t waited
      | failed e => exact .notCreated c wakeAt _ _ t waited
  next result =>
    cases h
    exact .released result
  next =>
    cases h
    exact .unwound
  next =>
    cases h
    exact .dropWaiting
  next c wakeAt =>
    cases h
    exact .dropSleeping c wakeAt
  next => cases h

theorem tunnelStep_cases {a : TunnelAction} (h : (sshTunnel tunnel).step s a = some s') :
    TunnelStepRule tunnel s a s' := by
  cases a with
  | call i input =>
      obtain ⟨pc, here, hstep⟩ := Option.bind_eq_some_iff.mp h
      exact .call i input pc here s' (tunnelCallStep_cases hstep)
  | connect c =>
      obtain ⟨child, here, hstep⟩ := Option.bind_eq_some_iff.mp h
      split at hstep
      next phase =>
        cases hstep
        exact .connect c child here phase
      next => cases hstep
  | exit c =>
      obtain ⟨child, here, hstep⟩ := Option.bind_eq_some_iff.mp h
      split at hstep
      next phase =>
        cases hstep
        exact .exit c child here phase
      next => cases hstep
  | elapse span =>
      simp only [sshTunnel, SshTunnelManager.step] at h
      split at h
      next =>
        cases h
        exact .elapse span
      next => cases h

theorem tryWait_cases {c : Nat} {answer : TryWait} (h : s.tryWait c answer = some s') :
    ∃ child, s.children[c]? = some child ∧ answer.fits child.phase = true ∧
      s' = { s with children := s.children.set c { child with lastWait := some answer } } := by
  obtain ⟨child, here, hstep⟩ := Option.bind_eq_some_iff.mp h
  split at hstep
  next fits => exact ⟨child, here, fits, (Option.some.inj hstep).symm⟩
  next => cases hstep

end

end LlmWakeProxy.Host

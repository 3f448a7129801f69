import LlmWakeProxy.Host.RemoteCommand
import LlmWakeProxy.Host.Tunnel
import LlmWakeProxy.Orchestrate.Proxy

/-!
How `AppState::production` puts the proxy together. Each lifecycle has a helper and a
tunnel of its own; the host is woken and probed in one way for both. Without a
dedicated backend the embeddings requests go to the lifecycle of chat, and so do the
port and the alias that they are forwarded with.
-/

namespace LlmWakeProxy.Orchestrate
open LlmWakeProxy.Host LlmWakeProxy.Helper
open LlmWakeProxy.Forward (Text)
open LlmWakeProxy.Lifecycle (LifecycleRequest)

structure WolWakeRequester where
  mac : Vector UInt8 6
  broadcast : Text
  port : UInt16

structure SshTcpProbe where
  host : Text
  port : UInt16

/-- What a lifecycle manager is made from, besides the clock and the first status. -/
structure LifecycleServices where
  wake : WolWakeRequester
  ssh : SshTcpProbe
  helper : SshHelperRpc
  tunnel : SshTunnel

/-- The part of the configuration that requests are handled with. -/
def AppConfig.of (config : Config.AppConfig) : AppConfig where
  modelAlias := config.model.modelAlias
  tunnelLocalPort := config.host.tunnelLocalPort
  embeddingsBackend := config.embeddings.backend.map fun backend =>
    { modelAlias := backend.modelAlias, tunnelLocalPort := backend.tunnelLocalPort }
  warmExecution := config.warmExecution
  coldStartMaxWaiting := config.coldStartMaxWaiting

def tunnelOf (config : Config.AppConfig) (localPort remotePort : UInt16) : SshTunnel where
  sshUser := config.host.sshUser
  sshHost := config.host.host
  localPort := localPort
  remotePort := remotePort
  sshKeyPath := config.host.sshKeyPath

def wakeOf (config : Config.AppConfig) : WolWakeRequester where
  mac := config.host.wolMac
  broadcast := config.host.wolBroadcast
  port := config.host.wolPort

def sshOf (config : Config.AppConfig) : SshTcpProbe where
  host := config.host.host
  port := config.host.sshPort

/-- `AppState::production`, of the two lifecycles. -/
def production (config : Config.AppConfig) : Backend → LifecycleServices
  | .chat => chat
  | .embeddings =>
      match config.embeddings.backend with
      | some backend =>
          { wake := wakeOf config
            ssh := sshOf config
            helper := embeddingsHelper config backend
            tunnel := tunnelOf config backend.tunnelLocalPort backend.remotePort }
      | none => chat
where
  chat : LifecycleServices :=
    { wake := wakeOf config
      ssh := sshOf config
      helper := chatHelper config
      tunnel := tunnelOf config config.host.tunnelLocalPort config.host.remotePort }

/-- Every kind of request is forwarded to the tunnel of the lifecycle it waits for, with
the alias that the helper of that lifecycle was given. -/
theorem production_forwards (config : Config.AppConfig) (kind : LifecycleRequest) :
    (production config ((AppConfig.of config).lifecycleFor kind)).tunnel.localPort =
        (AppConfig.of config).tunnelPortFor kind ∧
      (production config ((AppConfig.of config).lifecycleFor kind)).helper.modelAlias =
        (AppConfig.of config).modelAliasFor kind := by
  cases kind with
  | chat => exact ⟨rfl, rfl⟩
  | embeddings =>
      cases hbackend : config.embeddings.backend with
      | none => simp [AppConfig.lifecycleFor, AppConfig.tunnelPortFor, AppConfig.modelAliasFor,
          AppConfig.of, production, production.chat, tunnelOf, chatHelper, hbackend]
      | some backend => simp [AppConfig.lifecycleFor, AppConfig.tunnelPortFor,
          AppConfig.modelAliasFor, AppConfig.of, production, tunnelOf, embeddingsHelper, hbackend]

theorem production_helper (config : Config.AppConfig) (backend : Backend) :
    (production config backend).helper ∈ helperRpcs config := by
  cases backend with
  | chat => exact List.mem_cons_self
  | embeddings =>
      cases hbackend : config.embeddings.backend with
      | none => simp [production, production.chat, helperRpcs, hbackend]
      | some dedicated => simp [production, helperRpcs, hbackend]

end LlmWakeProxy.Orchestrate

import LlmWakeProxy.Config.Mac

/-!
The configurations that there are. `from_env` panics only when it is not told where the
host is, how to wake it or what to serve; whatever else is set or not, what it gives is
well formed, and every configuration that is can be set.
-/

namespace LlmWakeProxy.Config
open LlmWakeProxy.Forward (Text)
open LlmWakeProxy.Lifecycle (Duration nanosPerSec)
open LlmWakeProxy.Scheduler (WarmExecutionConfig)

/-! ### Well formed configurations -/

/-- The value of a variable that counts as set. -/
def CountsAsSet (value : Text) : Prop := value.all isWhitespace = false

instance (value : Text) : Decidable (CountsAsSet value) :=
  inferInstanceAs (Decidable (value.all isWhitespace = false))

structure ModelConfig.WellFormed (model : ModelConfig) : Prop where
  modelAlias : CountsAsSet model.modelAlias
  providerId : CountsAsSet model.providerId
  ownedBy : CountsAsSet model.ownedBy

structure EmbeddingsBackendConfig.WellFormed (backend : EmbeddingsBackendConfig) : Prop where
  modelAlias : CountsAsSet backend.modelAlias
  providerId : CountsAsSet backend.providerId
  ownedBy : CountsAsSet backend.ownedBy
  modelPath : CountsAsSet backend.modelPath

structure HostConfig.WellFormed (config : HostConfig) : Prop where
  host : CountsAsSet config.host
  sshUser : CountsAsSet config.sshUser
  wolBroadcast : CountsAsSet config.wolBroadcast
  helperPath : CountsAsSet config.helperPath
  modelPath : CountsAsSet config.modelPath
  sshKeyPath : CountsAsSet config.sshKeyPath

/-- A limit that is positive, as a `usize`. -/
def PositiveUsize (value : Nat) : Prop := 0 < value ∧ value < UInt64.size

instance (value : Nat) : Decidable (PositiveUsize value) :=
  inferInstanceAs (Decidable (0 < value ∧ value < UInt64.size))

structure AppConfig.WellFormed (config : AppConfig) : Prop where
  model : config.model.WellFormed
  backend : ∀ backend, config.embeddings.backend = some backend →
    backend.WellFormed ∧ config.embeddings.enabled = true
  host : config.host.WellFormed
  active : PositiveUsize config.warmExecution.maxActiveRequests
  queued : config.warmExecution.maxQueuedRequests < UInt64.size
  timeout : ∃ secs, config.warmExecution.queueTimeout = Duration.fromSecs secs
  coldStart : PositiveUsize config.coldStartMaxWaiting

/-- What the host's configuration is read from: what it cannot do without is set, and the
other texts have a default. -/
structure HostConfig.ReadFrom (env : Environment) (config : HostConfig) : Prop where
  host : readVar env "SSH_HOST" = some config.host
  sshUser : readVar env "SSH_USER" = some config.sshUser
  wolMac : (readVar env "WOL_MAC_ADDRESS").bind parseMac = some config.wolMac
  modelPath : readVar env "MODEL_PATH" = some config.modelPath
  wolBroadcast : config.wolBroadcast =
    (readVar env "WOL_BROADCAST_ADDR").getD "255.255.255.255".toList
  helperPath : config.helperPath =
    (readVar env "HELPER_PATH").getD "/usr/local/bin/llm-wake-proxy-helper".toList
  sshKeyPath : config.sshKeyPath =
    (readVar env "SSH_KEY_PATH").getD "~/.ssh/ssh-privatekey".toList

theorem HostConfig.readFrom_of_fromEnv {env : Environment} {config : HostConfig}
    (loaded : HostConfig.fromEnv env = some config) : config.ReadFrom env := by
  obtain ⟨name, hname, h⟩ := Option.bind_eq_some_iff.mp loaded
  obtain ⟨user, huser, h⟩ := Option.bind_eq_some_iff.mp h
  obtain ⟨mac, hmac, h⟩ := Option.bind_eq_some_iff.mp h
  obtain ⟨path, hpath, h⟩ := Option.bind_eq_some_iff.mp h
  cases h
  exact ⟨hname, huser, hmac, hpath, rfl, rfl, rfl⟩

/-- What `from_env` cannot do without is not set, or is no address. -/
def Lacking (env : Environment) : Prop :=
  (∃ name ∈ ["SSH_HOST", "SSH_USER", "WOL_MAC_ADDRESS", "MODEL_PATH"], readVar env name = none) ∨
    ∃ address, readVar env "WOL_MAC_ADDRESS" = some address ∧ parseMac address = none

theorem fromEnv_eq_none_iff {env : Environment} : AppConfig.fromEnv env = none ↔ Lacking env := by
  constructor
  · intro panics
    by_contra complete
    have given : ∀ name ∈ ["SSH_HOST", "SSH_USER", "WOL_MAC_ADDRESS", "MODEL_PATH"],
        ∃ value, readVar env name = some value := fun name required =>
      Option.ne_none_iff_exists'.mp fun hnone => complete (.inl ⟨name, required, hnone⟩)
    obtain ⟨host, hhost⟩ := given "SSH_HOST" (by decide)
    obtain ⟨user, huser⟩ := given "SSH_USER" (by decide)
    obtain ⟨address, haddress⟩ := given "WOL_MAC_ADDRESS" (by decide)
    obtain ⟨path, hpath⟩ := given "MODEL_PATH" (by decide)
    obtain ⟨mac, hmac⟩ := Option.ne_none_iff_exists'.mp fun hnone =>
      complete (.inr ⟨address, haddress, hnone⟩)
    simp only [AppConfig.fromEnv, HostConfig.fromEnv, hhost, huser, haddress, hmac, hpath,
      Option.bind_eq_bind, Option.bind_some, Option.pure_def, reduceCtorEq] at panics
  · intro lacking
    by_contra loads
    obtain ⟨config, loaded⟩ := Option.ne_none_iff_exists'.mp loads
    obtain ⟨host, hhost, _⟩ := Option.bind_eq_some_iff.mp loaded
    have read := HostConfig.readFrom_of_fromEnv hhost
    obtain ⟨address, haddress, hmac⟩ := Option.bind_eq_some_iff.mp read.wolMac
    obtain ⟨missing, required, hnone⟩ | ⟨other, hother, hnone⟩ := lacking
    · simp only [List.mem_cons, List.not_mem_nil, or_false] at required
      obtain rfl | rfl | rfl | rfl := required
      · cases read.host.symm.trans hnone
      · cases read.sshUser.symm.trans hnone
      · cases haddress.symm.trans hnone
      · cases read.modelPath.symm.trans hnone
    · cases haddress.symm.trans hother
      cases hmac.symm.trans hnone

/-! ### What is read is well formed -/

section Reads

variable {env : Environment} {name : String} {default : Nat}

theorem countsAsSet_of_readVar {value : Text} (h : readVar env name = some value) :
    CountsAsSet value :=
  (readVar_eq_some.mp h).2

/-- A default that counts as set itself is as good as a value. -/
theorem countsAsSet_getD {default : Text} (h : CountsAsSet default) :
    CountsAsSet ((readVar env name).getD default) := by
  cases hread : readVar env name with
  | some value => exact countsAsSet_of_readVar hread
  | none => exact h

theorem fromStrRadix_lt {radix bound v : Nat} {text : Text}
    (h : fromStrRadix radix bound text = some v) (hbound : 0 < bound) : v < bound := by
  unfold fromStrRadix at h
  split at h
  · cases h
  · cases h
  · exact readDigits_lt h hbound
  · exact readDigits_lt h hbound

theorem positiveUsize_read (h : PositiveUsize default) :
    PositiveUsize (readPositiveUsize env name default) := by
  unfold readPositiveUsize
  cases hread : ((readVar env name).bind parseUsize).filter fun value => 0 < value with
  | none => exact h
  | some value =>
      obtain ⟨hvalue, pos⟩ := Option.filter_eq_some_iff.mp hread
      obtain ⟨text, _, hparse⟩ := Option.bind_eq_some_iff.mp hvalue
      exact ⟨of_decide_eq_true pos, fromStrRadix_lt hparse (by decide)⟩

theorem readNonnegativeUsize_lt (h : default < UInt64.size) :
    readNonnegativeUsize env name default < UInt64.size := by
  unfold readNonnegativeUsize
  cases hread : (readVar env name).bind parseUsize with
  | none => exact h
  | some value =>
      obtain ⟨text, _, hparse⟩ := Option.bind_eq_some_iff.mp hread
      exact fromStrRadix_lt hparse (by decide)

theorem ModelConfig.wellFormed_fromEnv (env : Environment) :
    (ModelConfig.fromEnv env).WellFormed where
  modelAlias := countsAsSet_getD (by decide)
  providerId := countsAsSet_getD (by decide)
  ownedBy := countsAsSet_getD (by decide)

theorem EmbeddingsBackendConfig.wellFormed_fromEnv {model : ModelConfig} (h : model.WellFormed)
    {backend : EmbeddingsBackendConfig}
    (loaded : EmbeddingsBackendConfig.fromEnv env model = some backend) : backend.WellFormed := by
  obtain ⟨modelPath, hpath, rfl⟩ := Option.map_eq_some_iff.mp loaded
  have suffixed : CountsAsSet (model.modelAlias ++ "-embeddings".toList) := by
    rw [CountsAsSet, List.all_append, h.modelAlias, Bool.false_and]
  exact ⟨countsAsSet_getD suffixed, countsAsSet_getD h.providerId, countsAsSet_getD h.ownedBy,
    countsAsSet_of_readVar hpath⟩

theorem HostConfig.ReadFrom.wellFormed {config : HostConfig} (read : config.ReadFrom env) :
    config.WellFormed where
  host := countsAsSet_of_readVar read.host
  sshUser := countsAsSet_of_readVar read.sshUser
  wolBroadcast := by
    rw [read.wolBroadcast]
    exact countsAsSet_getD (by decide)
  helperPath := by
    rw [read.helperPath]
    exact countsAsSet_getD (by decide)
  modelPath := countsAsSet_of_readVar read.modelPath
  sshKeyPath := by
    rw [read.sshKeyPath]
    exact countsAsSet_getD (by decide)

theorem AppConfig.wellFormed_fromEnv {config : AppConfig}
    (loaded : AppConfig.fromEnv env = some config) : config.WellFormed := by
  obtain ⟨host, hhost, h⟩ := Option.bind_eq_some_iff.mp loaded
  cases h
  refine ⟨ModelConfig.wellFormed_fromEnv env, fun backend hbackend => ⟨?_, ?_⟩,
    (HostConfig.readFrom_of_fromEnv hhost).wellFormed, positiveUsize_read (by decide),
    readNonnegativeUsize_lt (by decide), ⟨_, rfl⟩, positiveUsize_read (by decide)⟩
  · exact EmbeddingsBackendConfig.wellFormed_fromEnv (ModelConfig.wellFormed_fromEnv env) hbackend
  · change EmbeddingsBackendConfig.fromEnv env _ = some backend at hbackend
    simp only [EmbeddingsConfig.fromEnv, hbackend, Option.isSome_some, Bool.true_or]

end Reads

/-! ### What is written is read back -/

def decimal (n : Nat) : Text := Nat.toDigits 10 n

theorem isDigit_decimal {n : Nat} : ∀ c ∈ decimal n, c.isDigit = true := fun _ hc =>
  Nat.isDigit_of_mem_toDigits (by decide) (by decide) hc

theorem digit_range {c : Char} (h : c.isDigit = true) : 48 ≤ c.toNat ∧ c.toNat ≤ 57 := by
  simp only [Char.isDigit, Bool.and_eq_true, decide_eq_true_eq] at h
  exact h

theorem toDigit_of_isDigit {c : Char} (h : c.isDigit = true) :
    toDigit 10 c = some (c.toNat - '0'.toNat) := by
  have hrange : '0' ≤ c ∧ c ≤ '9' := digit_range h
  have hval : c.toNat ≤ 57 := hrange.2
  have hzero : '0'.toNat = 48 := rfl
  simp only [toDigit, if_pos hrange, Option.filter_some]
  rw [if_pos]
  simp only [decide_eq_true_eq]
  omega

theorem le_ofDigitChars (init : Nat) (text : Text) : init ≤ Nat.ofDigitChars 10 text init := by
  have scaled := Nat.le_mul_of_pos_left init
    (Nat.pow_pos (n := text.length) (show 0 < 10 by decide))
  rw [Nat.ofDigitChars_eq_ofDigitChars_zero]
  omega

/-- Digits are read as the number they stand for, when it is below the bound. -/
theorem readDigits_ofDigitChars {bound acc : Nat} {text : Text}
    (digits : ∀ c ∈ text, c.isDigit = true) (fits : Nat.ofDigitChars 10 text acc < bound) :
    readDigits 10 bound acc text = some (Nat.ofDigitChars 10 text acc) := by
  induction text generalizing acc with
  | nil =>
      rw [Nat.ofDigitChars_nil]
      rfl
  | cons c rest ih =>
      rw [Nat.ofDigitChars_cons] at fits ⊢
      have below := (le_ofDigitChars _ rest).trans_lt fits
      rw [Nat.mul_comm] at below
      simp only [readDigits, toDigit_of_isDigit (digits c List.mem_cons_self), Option.bind_eq_bind,
        Option.bind_some, if_pos below]
      rw [Nat.mul_comm]
      exact ih (fun d hd => digits d (List.mem_cons_of_mem c hd)) fits

theorem fromStrRadix_decimal {bound n : Nat} (fits : n < bound) :
    fromStrRadix 10 bound (decimal n) = some n := by
  have value : Nat.ofDigitChars 10 (decimal n) 0 = n := Nat.ofDigitChars_ten_toDigits
  have read : readDigits 10 bound 0 (decimal n) = some (Nat.ofDigitChars 10 (decimal n) 0) :=
    readDigits_ofDigitChars isDigit_decimal (by rwa [value])
  rw [value] at read
  unfold fromStrRadix
  split
  next h => exact absurd h Nat.toDigits_ne_nil
  next h => cases isDigit_decimal '+' (by rw [h]; exact List.mem_cons_self)
  next h => cases isDigit_decimal '+' (by rw [h]; exact List.mem_cons_self)
  next => exact read

theorem countsAsSet_decimal (n : Nat) : CountsAsSet (decimal n) := by
  obtain ⟨c, hc⟩ := List.exists_mem_of_ne_nil (decimal n) Nat.toDigits_ne_nil
  refine List.all_eq_false.mpr ⟨c, hc, ?_⟩
  have hrange := digit_range (isDigit_decimal c hc)
  simp only [isWhitespace, decide_eq_true_eq]
  omega

/-- The environment that sets a configuration. -/
def environmentOf (config : AppConfig) : Environment
  | "PORT" => some (decimal config.listenPort.toNat)
  | "MODEL_ALIAS" => some config.model.modelAlias
  | "MODEL_PROVIDER_ID" => some config.model.providerId
  | "MODEL_OWNED_BY" => some config.model.ownedBy
  | "EMBEDDINGS_ENABLED" => some (if config.embeddings.enabled then ['1'] else ['0'])
  | "EMBEDDINGS_MODEL_PATH" => config.embeddings.backend.map fun backend => backend.modelPath
  | "EMBEDDINGS_MODEL_ALIAS" => config.embeddings.backend.map fun backend => backend.modelAlias
  | "EMBEDDINGS_MODEL_PROVIDER_ID" =>
      config.embeddings.backend.map fun backend => backend.providerId
  | "EMBEDDINGS_MODEL_OWNED_BY" => config.embeddings.backend.map fun backend => backend.ownedBy
  | "EMBEDDINGS_TUNNEL_LOCAL_PORT" =>
      config.embeddings.backend.map fun backend => decimal backend.tunnelLocalPort.toNat
  | "EMBEDDINGS_LLAMA_SERVER_PORT" =>
      config.embeddings.backend.map fun backend => decimal backend.remotePort.toNat
  | "WARM_MAX_ACTIVE_REQUESTS" => some (decimal config.warmExecution.maxActiveRequests)
  | "WARM_MAX_QUEUED_REQUESTS" => some (decimal config.warmExecution.maxQueuedRequests)
  | "WARM_QUEUE_TIMEOUT_SECS" => some (decimal (config.warmExecution.queueTimeout / nanosPerSec))
  | "SSH_HOST" => some config.host.host
  | "SSH_USER" => some config.host.sshUser
  | "SSH_PORT" => some (decimal config.host.sshPort.toNat)
  | "WOL_MAC_ADDRESS" => some (formatMac lowerDigit config.host.wolMac)
  | "WOL_BROADCAST_ADDR" => some config.host.wolBroadcast
  | "WOL_PORT" => some (decimal config.host.wolPort.toNat)
  | "HELPER_PATH" => some config.host.helperPath
  | "MODEL_PATH" => some config.host.modelPath
  | "SSH_KEY_PATH" => some config.host.sshKeyPath
  | "TUNNEL_LOCAL_PORT" => some (decimal config.host.tunnelLocalPort.toNat)
  | "LLAMA_SERVER_PORT" => some (decimal config.host.remotePort.toNat)
  | "COLD_START_MAX_WAITING" => some (decimal config.coldStartMaxWaiting)
  | _ => none

section Written

variable {env : Environment} {name : String}

theorem parseU16_read {port : UInt16} (default : UInt16)
    (set : env name = some (decimal port.toNat)) :
    ((readVar env name).bind parseU16).getD default = port := by
  rw [readVar_eq_some.mpr ⟨set, countsAsSet_decimal _⟩, Option.bind_some, parseU16,
    fromStrRadix_decimal port.toNat_lt, Option.map_some, UInt16.ofNat_toNat, Option.getD_some]

theorem getD_read {value : Text} (default : Text) (set : env name = some value)
    (counts : CountsAsSet value) : (readVar env name).getD default = value := by
  rw [readVar_eq_some.mpr ⟨set, counts⟩, Option.getD_some]

theorem usize_read {value : Nat} (set : env name = some (decimal value))
    (fits : value < UInt64.size) : (readVar env name).bind parseUsize = some value := by
  rw [readVar_eq_some.mpr ⟨set, countsAsSet_decimal _⟩, Option.bind_some, parseUsize,
    fromStrRadix_decimal fits]

theorem positiveUsize_written {value : Nat} (default : Nat) (set : env name = some (decimal value))
    (h : PositiveUsize value) : readPositiveUsize env name default = value := by
  rw [readPositiveUsize, usize_read set h.2, Option.filter_some, if_pos (decide_eq_true h.1),
    Option.getD_some]

theorem nonnegativeUsize_written {value : Nat} (default : Nat)
    (set : env name = some (decimal value)) (fits : value < UInt64.size) :
    readNonnegativeUsize env name default = value := by
  rw [readNonnegativeUsize, usize_read set fits, Option.getD_some]

theorem secs_written {secs : UInt64} (default : UInt64)
    (set : env name = some (decimal (Duration.fromSecs secs / nanosPerSec))) :
    Duration.fromSecs (((readVar env name).bind parseU64).getD default) = Duration.fromSecs secs := by
  have whole : Duration.fromSecs secs / nanosPerSec = secs.toNat :=
    Nat.mul_div_cancel_left _ (by decide)
  rw [whole] at set
  rw [readVar_eq_some.mpr ⟨set, countsAsSet_decimal _⟩, Option.bind_some, parseU64,
    fromStrRadix_decimal secs.toNat_lt, Option.map_some, UInt64.ofNat_toNat, Option.getD_some]

end Written

theorem parseMac_formatMac (mac : Vector UInt8 6) : parseMac (formatMac lowerDigit mac) = some mac :=
  (formatMac_macFormat hexValue_lowerDigit mac).parseMac_eq

/-- What is read as an address has colons in it. -/
theorem countsAsSet_of_parseMac {input : Text} {mac : Vector UInt8 6}
    (h : parseMac input = some mac) : CountsAsSet input := by
  refine List.all_eq_false.mpr ⟨':', ?_, by decide⟩
  by_contra hnone
  rw [parseMac, List.splitOn_eq_singleton hnone] at h
  cases h

section ReadBack

variable {config : AppConfig}

theorem model_read_back (h : config.model.WellFormed) :
    ModelConfig.fromEnv (environmentOf config) = config.model := by
  rw [ModelConfig.fromEnv, getD_read _ rfl h.modelAlias, getD_read _ rfl h.providerId,
    getD_read _ rfl h.ownedBy]

theorem host_read_back (h : config.host.WellFormed) :
    HostConfig.fromEnv (environmentOf config) = some config.host := by
  have host : readVar (environmentOf config) "SSH_HOST" = some config.host.host :=
    readVar_eq_some.mpr ⟨rfl, h.host⟩
  have user : readVar (environmentOf config) "SSH_USER" = some config.host.sshUser :=
    readVar_eq_some.mpr ⟨rfl, h.sshUser⟩
  have address : readVar (environmentOf config) "WOL_MAC_ADDRESS" =
      some (formatMac lowerDigit config.host.wolMac) :=
    readVar_eq_some.mpr ⟨rfl, countsAsSet_of_parseMac (parseMac_formatMac _)⟩
  have path : readVar (environmentOf config) "MODEL_PATH" = some config.host.modelPath :=
    readVar_eq_some.mpr ⟨rfl, h.modelPath⟩
  simp only [HostConfig.fromEnv, host, user, address, path, parseMac_formatMac,
    Option.bind_eq_bind, Option.bind_some, Option.pure_def]
  rw [parseU16_read _ rfl, getD_read _ rfl h.wolBroadcast, parseU16_read _ rfl,
    getD_read _ rfl h.helperPath, getD_read _ rfl h.sshKeyPath, parseU16_read _ rfl,
    parseU16_read _ rfl]

/-- A dedicated backend is read back as it is set; without one there is none. -/
theorem backend_read_back (h : config.WellFormed) :
    EmbeddingsBackendConfig.fromEnv (environmentOf config) config.model =
      config.embeddings.backend := by
  have set : ∀ {α : Type} (f : EmbeddingsBackendConfig → α) {backend : EmbeddingsBackendConfig},
      config.embeddings.backend = some backend →
      (config.embeddings.backend.map f) = some (f backend) := fun f _ hbackend => by
    rw [hbackend, Option.map_some]
  cases hbackend : config.embeddings.backend with
  | none =>
      have path : environmentOf config "EMBEDDINGS_MODEL_PATH" =
          config.embeddings.backend.map fun backend => backend.modelPath := rfl
      have unset : readVar (environmentOf config) "EMBEDDINGS_MODEL_PATH" = none := by
        rw [readVar, path, hbackend, Option.map_none, Option.filter_none]
      rw [EmbeddingsBackendConfig.fromEnv, unset, Option.map_none]
  | some backend =>
      obtain ⟨wellFormed, _⟩ := h.backend backend hbackend
      have path : readVar (environmentOf config) "EMBEDDINGS_MODEL_PATH" = some backend.modelPath :=
        readVar_eq_some.mpr ⟨set _ hbackend, wellFormed.modelPath⟩
      rw [EmbeddingsBackendConfig.fromEnv, path, Option.map_some,
        getD_read _ (set _ hbackend) wellFormed.modelAlias,
        getD_read _ (set _ hbackend) wellFormed.providerId,
        getD_read _ (set _ hbackend) wellFormed.ownedBy, parseU16_read _ (set _ hbackend),
        parseU16_read _ (set _ hbackend)]

theorem embeddings_read_back (h : config.WellFormed) :
    EmbeddingsConfig.fromEnv (environmentOf config) config.model = config.embeddings := by
  have enabled : ((readVar (environmentOf config) "EMBEDDINGS_ENABLED").map fun value =>
      ["1".toList, "true".toList, "TRUE".toList, "yes".toList].contains value).getD true =
        config.embeddings.enabled := by
    have set : environmentOf config "EMBEDDINGS_ENABLED" =
        some (if config.embeddings.enabled then ['1'] else ['0']) := rfl
    cases henabled : config.embeddings.enabled with
    | true | false =>
        rw [henabled] at set
        rw [readVar_eq_some.mpr ⟨set, by decide⟩]
        decide
  have implied : (config.embeddings.backend.isSome || config.embeddings.enabled) =
      config.embeddings.enabled := by
    cases hbackend : config.embeddings.backend with
    | none => rfl
    | some backend => exact (h.backend backend hbackend).2.symm
  simp only [EmbeddingsConfig.fromEnv, backend_read_back h, enabled, implied]

theorem warmExecution_read_back (h : config.WellFormed) :
    warmExecutionFromEnv (environmentOf config) = config.warmExecution := by
  obtain ⟨secs, hsecs⟩ := h.timeout
  have timeout : Duration.fromSecs (((readVar (environmentOf config)
      "WARM_QUEUE_TIMEOUT_SECS").bind parseU64).getD 30) = config.warmExecution.queueTimeout := by
    rw [hsecs]
    refine secs_written 30 ?_
    rw [← hsecs]
    rfl
  rw [warmExecutionFromEnv, positiveUsize_written _ rfl h.active,
    nonnegativeUsize_written _ rfl h.queued, timeout]

theorem config_read_back (h : config.WellFormed) :
    AppConfig.fromEnv (environmentOf config) = some config := by
  simp only [AppConfig.fromEnv, host_read_back h.host, model_read_back h.model,
    embeddings_read_back h, warmExecution_read_back h, Option.bind_eq_bind, Option.bind_some,
    Option.pure_def]
  rw [parseU16_read _ rfl, positiveUsize_written _ rfl h.coldStart]

end ReadBack

/-- `from_env` panics exactly when something it cannot do without is lacking; it gives the
well formed configurations and no others, each from the environment that sets it. -/
theorem configurations_are_set_and_read :
    (∀ env, AppConfig.fromEnv env = none ↔ Lacking env) ∧
      (∀ config : AppConfig, config.WellFormed ↔ ∃ env, AppConfig.fromEnv env = some config) ∧
      ∀ config : AppConfig, config.WellFormed →
        AppConfig.fromEnv (environmentOf config) = some config :=
  ⟨fun _ => fromEnv_eq_none_iff,
    fun _ => ⟨fun h => ⟨_, config_read_back h⟩, fun ⟨_, loaded⟩ =>
      AppConfig.wellFormed_fromEnv loaded⟩,
    fun _ h => config_read_back h⟩

end LlmWakeProxy.Config

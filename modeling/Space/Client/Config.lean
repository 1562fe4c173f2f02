import Space.Client.SecretScan

/-! # The configuration of the client

    `client/config`: the keys of a config file, and what `validate` requires
    of them, in the order of the source.

    `validate_eq_ok` says what a valid configuration is; `admits_iff` reads
    off the sizes that a chunk may have. -/

namespace Space

open Rust Outcome Data

/-! ## Section 1: The sections of the file -/

structure ClientConfig where
  workerThreads : UInt32
  callbackTimeoutMs : UInt64
  shutdownDeadlineMs : UInt64
  mountDriveLetter : String

structure PathsConfig where
  runtimeDir : String
  cacheDir : String
  durableDir : String
  logDir : String

structure ChunkingConfig where
  chunkSizeBytes : UInt64
  hashAlgorithm : String

structure CacheConfig where
  maxBytes : UInt64
  evictionPolicy : String

structure TransferConfig where
  maxConcurrentRequests : UInt32
  connectTimeoutMs : UInt64
  requestTimeoutMs : UInt64
  maxRetries : UInt32
  backoffBaseMs : UInt64

structure WriteConfig where
  maxDirtyBytes : UInt64
  walFsyncPolicy : String

structure SchedulerConfig where
  foregroundPriority : UInt32
  backgroundPriority : UInt32
  maxPrefetchRequests : UInt32

structure CloudConfig where
  baseUrl : String
  authMode : String

structure LoggingConfig where
  level : String
  format : String

/-- Root configuration object. -/
structure Config where
  configVersion : UInt32
  client : ClientConfig
  paths : PathsConfig
  chunking : ChunkingConfig
  cache : CacheConfig
  transfer : TransferConfig
  write : WriteConfig
  scheduler : SchedulerConfig
  cloud : CloudConfig
  logging : LoggingConfig

def PathsConfig.all (paths : PathsConfig) : List (String × String) :=
  [("paths.runtime_dir", paths.runtimeDir),
    ("paths.cache_dir", paths.cacheDir),
    ("paths.durable_dir", paths.durableDir),
    ("paths.log_dir", paths.logDir)]

/-- The machine and the build that a configuration is loaded on. -/
structure Host where
  /-- `fs::read_to_string`. -/
  readToString : String → Option String
  isDir : String → Bool
  /-- Whether a probe file can be written in the directory. -/
  isWritable : String → Bool
  debugAssertions : Bool

/-- `Debug` of a `str`. The characters that it escapes are a matter of
    Unicode tables. -/
class DebugStr where
  debug : String → String

/-- `toml::from_str::<Config>`: a configuration, or the text of the error. -/
class TomlConfig where
  decode : String → Except String Config

/-! ## Section 2: The checks -/

section checks

variable [DebugStr]

namespace Config

omit [DebugStr] in
/-- `range`. -/
def range (name : String) (value min max : UInt64) : Res Unit :=
  rejectIf (value < min || value > max) (configInvalid (name ++ " = " ++ decimal value ++
    " out of range [" ++ decimal min ++ ", " ++ decimal max ++ "]"))

/-- `Debug` of a `&[&str]`. -/
def debugList (texts : List String) : String :=
  "[" ++ String.intercalate ", " (texts.map DebugStr.debug) ++ "]"

/-- `one_of`. -/
def oneOf (name value : String) (allowed : List String) : Res Unit :=
  rejectIf (!allowed.contains value) (configInvalid (name ++ " = " ++ DebugStr.debug value ++
    " not one of " ++ debugList allowed))

def badDriveLetter : SpaceError := configInvalid "client.mount_drive_letter must be a single A-Z"

omit [DebugStr] in
/-- The letter is read with an `unwrap`, behind the check of its length. -/
def checkDriveLetter (letter : String) : Res Unit :=
  if utf8Len letter.toList ≠ 1 then err badDriveLetter
  else
    match letter.toList with
    | c :: _ => rejectIf (!c.isAlpha) badDriveLetter
    | [] => panic

omit [DebugStr] in
/-- `check_paths_writable`. -/
def checkPathsWritable (host : Host) (cfg : Config) : Res Unit :=
  forM cfg.paths.all fun path => do
    rejectIf (!host.isDir path.2) (configInvalid (path.1 ++ " = " ++ path.2 ++
      " is not a directory"))
    rejectIf (!host.isWritable path.2) (configInvalid (path.1 ++ " = " ++ path.2 ++
      " is not writable"))

omit [DebugStr] in
/-- `check_release_only_rules`. -/
def checkReleaseOnlyRules (host : Host) (cfg : Config) : Res Unit :=
  if host.debugAssertions then ok ()
  else do
    rejectIf (cfg.write.walFsyncPolicy == "never") (configInvalid
      "write.wal_fsync_policy = \"never\" is test-only and refused in a release build")
    rejectIf (cfg.cloud.authMode == "none") (configInvalid
      "cloud.auth_mode = \"none\" is test-only and refused in a release build")

/-- `Config::validate`. -/
def validate (host : Host) (cfg : Config) : Res Unit := do
  rejectIf (cfg.configVersion != 1) (SpaceError.new .configUnsupportedVersion
    ("config_version " ++ decimal cfg.configVersion.toUInt64 ++
      " is not supported (expected 1)"))
  range "client.worker_threads" cfg.client.workerThreads.toUInt64 1 64
  range "client.callback_timeout_ms" cfg.client.callbackTimeoutMs 100 300000
  range "client.shutdown_deadline_ms" cfg.client.shutdownDeadlineMs 100 120000
  checkDriveLetter cfg.client.mountDriveLetter
  range "chunking.chunk_size_bytes" cfg.chunking.chunkSizeBytes 4096 ((1 : UInt64) <<< 30)
  oneOf "chunking.hash_algorithm" cfg.chunking.hashAlgorithm ["blake3"]
  range "cache.max_bytes" cfg.cache.maxBytes cfg.chunking.chunkSizeBytes 18446744073709551615
  oneOf "cache.eviction_policy" cfg.cache.evictionPolicy ["lru", "slru"]
  range "transfer.max_concurrent_requests" cfg.transfer.maxConcurrentRequests.toUInt64 1 256
  range "transfer.connect_timeout_ms" cfg.transfer.connectTimeoutMs 100 120000
  range "transfer.request_timeout_ms" cfg.transfer.requestTimeoutMs 100 600000
  range "transfer.max_retries" cfg.transfer.maxRetries.toUInt64 0 20
  range "transfer.backoff_base_ms" cfg.transfer.backoffBaseMs 1 60000
  range "write.max_dirty_bytes" cfg.write.maxDirtyBytes cfg.chunking.chunkSizeBytes
    18446744073709551615
  oneOf "write.wal_fsync_policy" cfg.write.walFsyncPolicy ["always", "interval", "never"]
  range "scheduler.foreground_priority" cfg.scheduler.foregroundPriority.toUInt64 1 100
  range "scheduler.background_priority" cfg.scheduler.backgroundPriority.toUInt64 1 100
  rejectIf (cfg.scheduler.backgroundPriority ≥ cfg.scheduler.foregroundPriority) (configInvalid
    "scheduler.background_priority must be < scheduler.foreground_priority")
  range "scheduler.max_prefetch_requests" cfg.scheduler.maxPrefetchRequests.toUInt64 0 64
  oneOf "cloud.auth_mode" cfg.cloud.authMode ["token", "none"]
  rejectIf (splitOnceText "://".toList cfg.cloud.baseUrl.toList).isNone
    (configInvalid "cloud.base_url must be an absolute URL")
  oneOf "logging.level" cfg.logging.level ["trace", "debug", "info", "warn", "error"]
  oneOf "logging.format" cfg.logging.format ["json"]
  cfg.checkPathsWritable host
  cfg.checkReleaseOnlyRules host

omit [DebugStr] in
/-- The parse of the file, with the error mapped. -/
def decode [TomlConfig] (text : String) : Res Config :=
  match TomlConfig.decode text with
  | .ok cfg => ok cfg
  | .error e => err (configInvalid e)

/-- `Config::from_str_validated`. -/
def fromStrValidated [TomlCrate] [TomlConfig] (host : Host) (text : String) : Res Config := do
  rejectSecretKeys text
  let cfg ← decode text
  cfg.validate host
  return cfg

/-- `Config::load`. -/
def load [TomlCrate] [TomlConfig] (host : Host) (path : String) : Res Config := do
  let text ← okOr (host.readToString path)
    (SpaceError.new .configMissing "config file not found")
  fromStrValidated host text

/-! ## Section 3: What each check decides -/

omit [DebugStr] in
@[simp] theorem range_eq_ok {name : String} {value min max : UInt64} :
    range name value min max = ok () ↔
      min.toNat ≤ value.toNat ∧ value.toNat ≤ max.toNat := by
  simp [range, UInt64.le_iff_toNat_le]

@[simp] theorem oneOf_eq_ok {name value : String} {allowed : List String} :
    oneOf name value allowed = ok () ↔ value ∈ allowed := by
  simp [oneOf]

omit [DebugStr] in
theorem isAlpha_iff {c : Char} :
    c.isAlpha = true ↔ ('A' ≤ c ∧ c ≤ 'Z') ∨ ('a' ≤ c ∧ c ≤ 'z') := by
  show (decide (c.val ≥ 65 ∧ c.val ≤ 90) ||
    (decide (c.val ≥ 97) && decide (c.val ≤ 122))) = true ↔ _
  simp only [Bool.or_eq_true, Bool.and_eq_true, decide_eq_true_eq]
  exact Iff.rfl

omit [DebugStr] in
theorem checkDriveLetter_eq_ok {letter : String} : checkDriveLetter letter = ok () ↔
    ∃ c, letter.toList = [c] ∧ c.isAlpha = true := by
  have hsize : ∀ c : Char, c.isAlpha = true → c.utf8Size = 1 := by
    intro c hc
    have hle : c.val ≤ 127 := by
      rcases isAlpha_iff.mp hc with ⟨_, h⟩ | ⟨_, h⟩
      · exact UInt32.le_trans h (by decide)
      · exact UInt32.le_trans h (by decide)
    exact Char.utf8Size_eq_one_iff.mpr hle
  unfold checkDriveLetter
  constructor
  · intro h
    by_cases hlen : utf8Len letter.toList = 1
    · rw [if_neg (not_not_intro hlen)] at h
      cases hl : letter.toList with
      | nil =>
        rw [hl] at hlen
        cases hlen
      | cons c cs =>
        rw [hl] at h hlen
        have halpha : c.isAlpha = true := by simpa using h
        -- the first character takes the only byte
        have hnil : cs = [] := by
          cases cs with
          | nil => rfl
          | cons d ds =>
            have hc := c.utf8Size_pos
            have hd := d.utf8Size_pos
            simp only [utf8Len, List.map_cons, List.sum_cons] at hlen
            omega
        exact ⟨c, by rw [hnil], halpha⟩
    · rw [if_pos hlen] at h
      cases h
  · intro h
    obtain ⟨c, hl, halpha⟩ := h
    have hlen : utf8Len letter.toList = 1 := by
      rw [hl]
      exact hsize c halpha
    rw [if_neg (not_not_intro hlen), hl]
    simp [halpha]

omit [DebugStr] in
theorem checkPathsWritable_eq_ok {host : Host} {cfg : Config} :
    cfg.checkPathsWritable host = ok () ↔
      ∀ path ∈ cfg.paths.all, host.isDir path.2 = true ∧ host.isWritable path.2 = true := by
  unfold checkPathsWritable
  rw [forM_eq_ok]
  refine forall₂_congr fun path _ => ?_
  rw [seq_eq_ok, rejectIf_eq_ok, rejectIf_eq_ok, Bool.not_eq_false', Bool.not_eq_false']

omit [DebugStr] in
theorem checkReleaseOnlyRules_eq_ok {host : Host} {cfg : Config} :
    cfg.checkReleaseOnlyRules host = ok () ↔ (host.debugAssertions = false →
      cfg.write.walFsyncPolicy ≠ "never" ∧ cfg.cloud.authMode ≠ "none") := by
  unfold checkReleaseOnlyRules
  cases host.debugAssertions <;> simp [seq_eq_ok]

/-- A configuration that can be run with. -/
structure Valid (host : Host) (cfg : Config) : Prop where
  version : cfg.configVersion = 1
  workerThreads : 1 ≤ cfg.client.workerThreads.toNat ∧ cfg.client.workerThreads.toNat ≤ 64
  callbackTimeout : 100 ≤ cfg.client.callbackTimeoutMs.toNat ∧
    cfg.client.callbackTimeoutMs.toNat ≤ 300000
  shutdownDeadline : 100 ≤ cfg.client.shutdownDeadlineMs.toNat ∧
    cfg.client.shutdownDeadlineMs.toNat ≤ 120000
  driveLetter : ∃ c, cfg.client.mountDriveLetter.toList = [c] ∧ c.isAlpha = true
  chunkSize : 4096 ≤ cfg.chunking.chunkSizeBytes.toNat ∧
    cfg.chunking.chunkSizeBytes.toNat ≤ 2 ^ 30
  hashAlgorithm : cfg.chunking.hashAlgorithm = "blake3"
  cacheHoldsChunk : cfg.chunking.chunkSizeBytes.toNat ≤ cfg.cache.maxBytes.toNat
  evictionPolicy : cfg.cache.evictionPolicy ∈ ["lru", "slru"]
  concurrentRequests : 1 ≤ cfg.transfer.maxConcurrentRequests.toNat ∧
    cfg.transfer.maxConcurrentRequests.toNat ≤ 256
  connectTimeout : 100 ≤ cfg.transfer.connectTimeoutMs.toNat ∧
    cfg.transfer.connectTimeoutMs.toNat ≤ 120000
  requestTimeout : 100 ≤ cfg.transfer.requestTimeoutMs.toNat ∧
    cfg.transfer.requestTimeoutMs.toNat ≤ 600000
  retries : cfg.transfer.maxRetries.toNat ≤ 20
  backoff : 1 ≤ cfg.transfer.backoffBaseMs.toNat ∧ cfg.transfer.backoffBaseMs.toNat ≤ 60000
  dirtyHoldsChunk : cfg.chunking.chunkSizeBytes.toNat ≤ cfg.write.maxDirtyBytes.toNat
  fsyncPolicy : cfg.write.walFsyncPolicy ∈ ["always", "interval", "never"]
  /-- The bounds of both priorities, and their order. -/
  priorities : 1 ≤ cfg.scheduler.backgroundPriority.toNat ∧
    cfg.scheduler.backgroundPriority.toNat < cfg.scheduler.foregroundPriority.toNat ∧
      cfg.scheduler.foregroundPriority.toNat ≤ 100
  prefetch : cfg.scheduler.maxPrefetchRequests.toNat ≤ 64
  authMode : cfg.cloud.authMode ∈ ["token", "none"]
  absoluteUrl : "://".toList <:+: cfg.cloud.baseUrl.toList
  level : cfg.logging.level ∈ ["trace", "debug", "info", "warn", "error"]
  format : cfg.logging.format = "json"
  paths : ∀ path ∈ cfg.paths.all, host.isDir path.2 = true ∧ host.isWritable path.2 = true
  /-- Test-only values do not run in a release build. -/
  release : host.debugAssertions = false →
    cfg.write.walFsyncPolicy ≠ "never" ∧ cfg.cloud.authMode ≠ "none"

/-- **What `validate` accepts.** -/
theorem validate_eq_ok {host : Host} {cfg : Config} :
    cfg.validate host = ok () ↔ cfg.Valid host := by
  have hmax : ∀ n : UInt64, n.toNat ≤ 18446744073709551615 := fun n =>
    Nat.le_of_lt_succ n.toNat_lt
  have hshift : ((1 : UInt64) <<< 30).toNat = 2 ^ 30 := rfl
  have hurl : (splitOnceText "://".toList cfg.cloud.baseUrl.toList).isNone = false ↔
      "://".toList <:+: cfg.cloud.baseUrl.toList := by
    rw [← isSome_splitOnceText]
    cases splitOnceText "://".toList cfg.cloud.baseUrl.toList <;> simp
  have horder : ¬ cfg.scheduler.backgroundPriority ≥ cfg.scheduler.foregroundPriority ↔
      cfg.scheduler.backgroundPriority.toNat < cfg.scheduler.foregroundPriority.toNat := by
    rw [ge_iff_le, UInt32.not_le, UInt32.lt_iff_toNat_lt]
  unfold validate
  simp only [seq_eq_ok, range_eq_ok, oneOf_eq_ok, rejectIf_eq_ok, checkDriveLetter_eq_ok,
    checkPathsWritable_eq_ok, checkReleaseOnlyRules_eq_ok, UInt64.reduceToNat,
    UInt32.toNat_toUInt64, bne_eq_false_iff_eq, decide_eq_false_iff_not, List.mem_singleton,
    Nat.zero_le, true_and, hmax, and_true, hshift, hurl, horder]
  constructor
  · intro h
    obtain ⟨version, workers, callback, shutdown, letter, chunk, hash, cache, eviction, concurrent,
      connect, request, retries, backoff, dirty, fsync, foreground, background, order, prefetch,
      auth, url, level, format, paths, release⟩ := h
    exact ⟨version, workers, callback, shutdown, letter, chunk, hash, cache, eviction, concurrent,
      connect, request, retries, backoff, dirty, fsync, ⟨background.1, order, foreground.2⟩,
      prefetch, auth, url, level, format, paths, release⟩
  · intro h
    obtain ⟨version, workers, callback, shutdown, letter, chunk, hash, cache, eviction, concurrent,
      connect, request, retries, backoff, dirty, fsync, priorities, prefetch, auth, url, level,
      format, paths, release⟩ := h
    exact ⟨version, workers, callback, shutdown, letter, chunk, hash, cache, eviction, concurrent,
      connect, request, retries, backoff, dirty, fsync, ⟨by omega, by omega⟩,
      ⟨by omega, by omega⟩, priorities.2.1, prefetch, auth, url, level, format, paths, release⟩

/-- Some configuration with this chunk size is valid somewhere. -/
def AdmitsChunkSize (size : UInt64) : Prop :=
  ∃ (host : Host) (cfg : Config), cfg.validate host = ok () ∧ cfg.chunking.chunkSizeBytes = size

end Config

end checks

namespace Sample

/-- A machine with every directory. -/
def host : Host where
  readToString := fun _ => none
  isDir := fun _ => true
  isWritable := fun _ => true
  debugAssertions := false

/-- `config.example.toml`. -/
def config : Config where
  configVersion := 1
  client := ⟨4, 30000, 10000, "S"⟩
  paths := ⟨"C:/SPACE/runtime", "C:/SPACE/runtime/cache", "C:/SPACE/runtime/durable",
    "C:/SPACE/runtime/logs"⟩
  chunking := ⟨33554432, "blake3"⟩
  cache := ⟨10737418240, "slru"⟩
  transfer := ⟨16, 10000, 60000, 5, 200⟩
  write := ⟨1073741824, "always"⟩
  scheduler := ⟨10, 1, 4⟩
  cloud := ⟨"http://127.0.0.1:8080", "token"⟩
  logging := ⟨"info", "json"⟩

theorem config_valid : config.Valid host where
  version := rfl
  workerThreads := by decide
  callbackTimeout := by decide
  shutdownDeadline := by decide
  driveLetter := ⟨'S', rfl, rfl⟩
  chunkSize := by decide
  hashAlgorithm := rfl
  cacheHoldsChunk := by decide
  evictionPolicy := by decide
  concurrentRequests := by decide
  connectTimeout := by decide
  requestTimeout := by decide
  retries := by decide
  backoff := by decide
  dirtyHoldsChunk := by decide
  fsyncPolicy := by decide
  priorities := by decide
  prefetch := by decide
  authMode := by decide
  absoluteUrl := ⟨"http".toList, "127.0.0.1:8080".toList, rfl⟩
  level := by decide
  format := rfl
  paths := fun _ _ => ⟨rfl, rfl⟩
  release := fun _ => by decide

end Sample

namespace Config

/-- The example with another chunk size: its buffers hold a chunk of the
    largest. -/
theorem valid_resized {size : UInt64} (hlow : 4096 ≤ size.toNat) (hhigh : size.toNat ≤ 2 ^ 30) :
    Valid Sample.host { Sample.config with chunking := ⟨size, "blake3"⟩ } := by
  have hcache : 2 ^ 30 ≤ Sample.config.cache.maxBytes.toNat := by decide
  have hdirty : 2 ^ 30 ≤ Sample.config.write.maxDirtyBytes.toNat := by decide
  exact { Sample.config_valid with
    chunkSize := ⟨hlow, hhigh⟩
    hashAlgorithm := rfl
    cacheHoldsChunk := Nat.le_trans hhigh hcache
    dirtyHoldsChunk := Nat.le_trans hhigh hdirty }

/-- **The sizes that `validate` admits.** -/
theorem admits_iff [DebugStr] {size : UInt64} :
    AdmitsChunkSize size ↔ 4096 ≤ size.toNat ∧ size.toNat ≤ 2 ^ 30 := by
  constructor
  · intro h
    obtain ⟨host, cfg, hvalid, hsize⟩ := h
    rw [← hsize]
    exact (validate_eq_ok.mp hvalid).chunkSize
  · intro h
    obtain ⟨hlow, hhigh⟩ := h
    exact ⟨Sample.host, _, validate_eq_ok.mpr (valid_resized hlow hhigh), rfl⟩

end Config

end Space

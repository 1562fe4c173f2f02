import Space.Contracts.ErrorTable
import Space.Client.Config
import Space.Cloud.Dto

/-! # The start of the client

    `client/core/src/startup.rs`: the arguments are parsed, the configuration
    is loaded, and the process runs until it is told to stop.

    `parseArgs_eq_ok` says which arguments are accepted and what they mean,
    and `run_exits` how the process ends. The one thing that is not reported
    is a log directory that cannot be written: there the process panics. -/

namespace Space

open Rust Outcome Data

/-! ## Section 1: The arguments -/

structure Args where
  config : String
  printVersion : Bool
  deriving DecidableEq

/-- The arguments that nothing is said about. -/
def Args.default : Args := ⟨"config.toml", false⟩

/-- `parse_args`, with what has been read so far. -/
def parseArgsFrom (args : Args) : List String → Res Args
  | [] => ok args
  | arg :: rest =>
    if arg = "--version" ∨ arg = "-V" then
      parseArgsFrom { args with printVersion := true } rest
    else if arg = "--config" then
      match rest with
      | path :: rest => parseArgsFrom { args with config := path } rest
      | [] => err (SpaceError.invalidParam "--config requires a path")
    else err (SpaceError.invalidParam ("unknown argument: " ++ arg))

/-- `parse_args`. -/
def parseArgs (argv : List String) : Res Args := parseArgsFrom .default argv

/-- What the arguments are made of. -/
inductive Flag where
  | version
  | versionShort
  | config (path : String)

namespace Flag

def spell : Flag → List String
  | version => ["--version"]
  | versionShort => ["-V"]
  | config path => ["--config", path]

def isVersion : Flag → Bool
  | version => true
  | versionShort => true
  | config _ => false

def path? : Flag → Option String
  | version => none
  | versionShort => none
  | config path => some path

/-- What a flag changes. -/
def set (args : Args) : Flag → Args
  | version => { args with printVersion := true }
  | versionShort => { args with printVersion := true }
  | config path => { args with config := path }

end Flag

/-- What the flags stand for: the version if one of them asks for it, and the
    configuration that the last of them names. -/
def Args.ofFlags (flags : List Flag) : Args where
  config := (flags.filterMap Flag.path?).getLast?.getD Args.default.config
  printVersion := flags.any Flag.isVersion

theorem foldl_set (args : Args) (flags : List Flag) : flags.foldl Flag.set args =
    ⟨(flags.filterMap Flag.path?).getLast?.getD args.config,
      args.printVersion || flags.any Flag.isVersion⟩ := by
  induction flags generalizing args with
  | nil => simp
  | cons flag flags ih =>
    rw [List.foldl_cons, ih]
    cases flag with
    | version => simp [Flag.set, Flag.path?, Flag.isVersion]
    | versionShort => simp [Flag.set, Flag.path?, Flag.isVersion]
    | config path =>
      simp only [Flag.set, List.filterMap_cons, Flag.path?, List.getLast?_cons, Option.getD_some,
        List.any_cons, Flag.isVersion, Bool.false_or]

theorem ofFlags_eq (flags : List Flag) : Args.ofFlags flags = flags.foldl Flag.set .default := by
  rw [foldl_set]
  rfl

/-- A flag is read off the front. -/
theorem parseArgsFrom_spell (args : Args) (flag : Flag) (rest : List String) :
    parseArgsFrom args (flag.spell ++ rest) = parseArgsFrom (flag.set args) rest := by
  cases flag with
  | version =>
    show parseArgsFrom args ("--version" :: rest) = _
    rw [parseArgsFrom.eq_def]
    exact if_pos (.inl rfl)
  | versionShort =>
    show parseArgsFrom args ("-V" :: rest) = _
    rw [parseArgsFrom.eq_def]
    exact if_pos (.inr rfl)
  | config path =>
    show parseArgsFrom args ("--config" :: path :: rest) = _
    rw [parseArgsFrom.eq_def]
    exact (if_neg (by decide)).trans (if_pos rfl)

theorem parseArgsFrom_flags (args : Args) (flags : List Flag) :
    parseArgsFrom args (flags.flatMap Flag.spell) = ok (flags.foldl Flag.set args) := by
  induction flags generalizing args with
  | nil => rw [List.flatMap_nil, parseArgsFrom, List.foldl_nil]
  | cons flag flags ih => rw [List.flatMap_cons, parseArgsFrom_spell, ih, List.foldl_cons]

/-- Arguments that are accepted are flags. -/
theorem flags_of_parseArgsFrom {args out : Args} {argv : List String}
    (h : parseArgsFrom args argv = ok out) : ∃ flags : List Flag,
      argv = flags.flatMap Flag.spell ∧ out = flags.foldl Flag.set args := by
  fun_induction parseArgsFrom args argv with
  | case1 args =>
    cases h
    exact ⟨[], rfl, rfl⟩
  | case2 args arg rest hversion ih =>
    obtain ⟨flags, rfl, rfl⟩ := ih h
    rcases hversion with rfl | rfl
    · exact ⟨.version :: flags, rfl, rfl⟩
    · exact ⟨.versionShort :: flags, rfl, rfl⟩
  | case3 args path rest hversion ih =>
    obtain ⟨flags, rfl, rfl⟩ := ih h
    exact ⟨.config path :: flags, rfl, rfl⟩
  | case4 => cases h
  | case5 => cases h

/-- The parse of the arguments returns, or has a bad argument to report. -/
theorem parseArgsFrom_checks (args : Args) (argv : List String) :
    (parseArgsFrom args argv).Checks SpaceError.IsInvalidParam := by
  fun_induction parseArgsFrom args argv with
  | case1 args => exact checks_ok args
  | case2 args arg rest hversion ih => exact ih
  | case3 args path rest hversion ih => exact ih
  | case4 => exact checks_err.mpr (SpaceError.isInvalidParam_invalidParam _)
  | case5 => exact checks_err.mpr (SpaceError.isInvalidParam_invalidParam _)

theorem parseArgs_checks (argv : List String) :
    (parseArgs argv).Checks SpaceError.IsInvalidParam := parseArgsFrom_checks .default argv

theorem parseArgs_flags (flags : List Flag) :
    parseArgs (flags.flatMap Flag.spell) = ok (.ofFlags flags) := by
  rw [ofFlags_eq, parseArgs, parseArgsFrom_flags]

theorem flags_of_parseArgs {argv : List String} {args : Args} (h : parseArgs argv = ok args) :
    ∃ flags : List Flag, argv = flags.flatMap Flag.spell ∧ args = .ofFlags flags := by
  obtain ⟨flags, hargv, hargs⟩ := flags_of_parseArgsFrom h
  exact ⟨flags, hargv, hargs.trans (ofFlags_eq flags).symm⟩

/-! ## Section 2: Loading the configuration -/

section start

variable [DebugStr] [TomlCrate] [TomlConfig]

/-- `Startup`. -/
inductive Startup where
  | printedVersion
  | configRejected (e : SpaceError)
  | ready (cfg : Config)

/-- `LogSink`. The writer of a buffer plays no part here. -/
inductive LogSink where
  | directory (dir : String)
  | stderr
  | buffer
  deriving DecidableEq

/-- What a start finds beside its arguments and what the configuration is
    checked against. -/
structure LogHost where
  /-- `SPACE_CLIENT_LOG_DIR`, where it is set to a text. -/
  logDir : Option String
  /-- Whether the log file of the day can be opened in a directory, which is
      created first where it can be. -/
  opensLog : String → Bool

/-- `logging::init`: the log file must open, while a subscriber that is
    installed already is kept. -/
def loggingInit (logs : LogHost) : LogSink → Res Unit
  | .directory dir => if logs.opensLog dir then ok () else panic
  | .stderr => ok ()
  | .buffer => ok ()

/-- `prepare`. The line that is logged at its end is left out. -/
def prepare (host : Host) (logs : LogHost) (args : Args) (logSink : LogSink) : Res Startup :=
  if args.printVersion then ok .printedVersion
  else
    match Config.load host args.config with
    | .ok cfg => do
      loggingInit logs logSink
      return .ready cfg
    | .err e => ok (.configRejected e)
    | .panic => panic

/-- The exit code, and the line on `stderr`. -/
structure Exit where
  code : Int32
  line : Option String
  deriving DecidableEq

/-- The line for a configuration that is rejected. -/
def rejectedLine (e : SpaceError) : String :=
  let code :=
    match e.code with
    | .configMissing => "CONFIG_MISSING"
    | .configUnsupportedVersion => "CONFIG_UNSUPPORTED_VERSION"
    | _ => "CONFIG_INVALID"
  code ++ ": " ++ e.message

/-- The sink that `run` chooses. -/
def LogHost.sink (logs : LogHost) : LogSink :=
  match logs.logDir with
  | some dir => .directory dir
  | none => .stderr

/-- `run`, up to the signal and from there to the end of the shutdown, which
    may take longer than the configuration allows. What is printed can be
    printed. -/
def Startup.run (host : Host) (logs : LogHost) (exceeded : Bool) (argv : List String) :
    Res Exit :=
  match parseArgs argv with
  | .err e => ok ⟨2, some e.display⟩
  | .panic => panic
  | .ok args => do
    match ← prepare host logs args logs.sink with
    | .printedVersion => return ⟨0, none⟩
    | .configRejected e => return ⟨1, some (rejectedLine e)⟩
    | .ready _ => return ⟨if exceeded then 1 else 0, none⟩

/-- The log of the client cannot be opened. -/
def LogHost.Fails (logs : LogHost) : Prop :=
  ∃ dir, logs.logDir = some dir ∧ logs.opensLog dir = false

end start

/-- **Which arguments are accepted.** They are flags one after the other; the
    version is asked for by any of them, and the last path counts. Everything
    else is a bad argument. -/
theorem parseArgs_eq_ok (argv : List String) :
    (∀ args, parseArgs argv = ok args ↔
      ∃ flags : List Flag, argv = flags.flatMap Flag.spell ∧ args = .ofFlags flags) ∧
    ((∃ message, parseArgs argv = err (SpaceError.invalidParam message)) ↔
      ∀ flags : List Flag, argv ≠ flags.flatMap Flag.spell) := by
  refine ⟨fun args => ⟨flags_of_parseArgs, ?_⟩, ?_, fun hno => ?_⟩
  · rintro ⟨flags, rfl, rfl⟩
    exact parseArgs_flags flags
  · rintro ⟨message, herr⟩ flags rfl
    rw [parseArgs_flags] at herr
    cases herr
  · have hchecks := parseArgs_checks argv
    cases hparse : parseArgs argv with
    | ok args =>
      obtain ⟨flags, hargv, _⟩ := flags_of_parseArgs hparse
      exact absurd hargv (hno flags)
    | err e =>
      rw [hparse] at hchecks
      obtain ⟨message, rfl⟩ := hchecks
      exact ⟨message, rfl⟩
    | panic =>
      rw [hparse] at hchecks
      exact hchecks.elim

end Space

import Mathlib.Data.String.Basic

/-!
# The command line of `main`

`src/src/main.cpp` reads its options with `getopt_long` and handles each one in a `switch`: flags
set fields of `MainOptions`, `server::Options` and `client::Options`, and an option given in a way
the code rejects prints a message and sets `HadErrors`. After the loop `main` answers `-h` and
`-V` at once, clamps the verbosity, checks `-d` against `-D`, takes the operands as the program to
spawn and its arguments, and gives up with `InvocationError` if there were errors.

`getopt_long` is the C library's. The loop is modelled over the list of what its calls returned
(`GetoptResult`), and `getoptLong` decodes the argument forms `server::Options::toArgv` produces,
which is what a server started by `server::exec` reads.

* `handleOption` is the loop's `switch`, `handleOperands` the loop over the operands, and
  `finishParse` the rest of the block; `parseCommandLine` is the whole block;
* `Server.Options.toArgv` and `getoptLong` are the two ends of the arguments a server is started
  with.
-/

namespace Monomux

/-! ## Options -/

/-- The environment changes of `Process::SpawnOptions` (a value to set, or `none` to unset), as
the list of the map's entries in the order they were added. -/
abbrev Environment := List (String × Option String)

/-- `Environment.emplace(Key, Value)`: adds the entry unless the key is already there. -/
def Environment.emplace (env : Environment) (key : String) (value : Option String) :
    Environment :=
  if env.any (fun e => e.1 = key) then env else env ++ [(key, value)]

/-- The value an environment gives a variable. -/
def Environment.lookup (env : Environment) (key : String) : Option (Option String) :=
  (env.find? (fun e => e.1 = key)).map Prod.snd

/-- `Process::SpawnOptions`, as the command line fills it. -/
structure SpawnOptions where
  program : String := ""
  arguments : List String := []
  environment : Environment := []
  deriving DecidableEq, Repr

namespace Server

/-- `server::Options`, with the defaults of its constructor. -/
structure Options where
  serverMode : Bool := false
  socketPath : Option String := none
  background : Bool := true
  exitOnLastSessionTerminate : Bool := true
  deriving DecidableEq, Repr

/-- `Options::toArgv`: the arguments that start a server with these options. -/
def Options.toArgv (o : Options) : List String :=
  (if o.serverMode then ["--server"] else []) ++
    (match o.socketPath with
      | some path => ["--socket", path]
      | none => []) ++
    (if !o.background then ["--no-daemon"] else []) ++
    (if !o.exitOnLastSessionTerminate then ["--keepalive"] else [])

end Server

namespace Client

/-- The fields of `client::Options` the command line sets (the header is not part of the
sources; they start false or empty, as value-initialisation leaves them). -/
structure Options where
  clientMode : Bool := false
  socketPath : Option String := none
  sessionName : Option String := none
  program : Option SpawnOptions := none
  onlyListSessions : Bool := false
  interactiveSessionMenu : Bool := false
  detachRequestLatest : Bool := false
  detachRequestAll : Bool := false
  statisticsRequest : Bool := false
  deriving DecidableEq, Repr

end Client

namespace Frontend

/-- `MainOptions`. `VerbosityQuietnessDifferential` is a `std::int8_t`. -/
structure MainOptions where
  showHelp : Bool := false
  showVersion : Bool := false
  showElaborateBuildInformation : Bool := false
  anyVerboseFlag : Bool := false
  anyQuietFlag : Bool := false
  verbosityQuietnessDifferential : Int := 0
  deriving DecidableEq, Repr

/-- The value an `int` takes when stored in a `std::int8_t`. -/
def toInt8 (x : Int) : Int := (x + 128) % 256 - 128

/-- The levels of `monomux::log` that `main` uses (`Log.hpp` is not part of the sources):
`Default`, `MaximumVerbosity` and `MinimumVerbosity`. -/
structure LogLevels where
  default : Int
  maximumVerbosity : Int
  minimumVerbosity : Int

/-- `FrontendExitCode`, the codes the command line exits with. -/
inductive FrontendExitCode
  | success
  | invocationError
  deriving DecidableEq, Repr

/-! ## `getopt_long` -/

/-- `LongOptions`: each long option's name, whether it takes an argument, and the option
character it stands for (`0` for those with no short form). -/
def LongOptions : List (String × Bool × Char) :=
  [("help", false, 'h'), ("verbose", false, 'v'), ("quiet", false, 'q'),
    ("server", false, '\x00'), ("socket", true, 's'), ("env", true, 'e'),
    ("unset", true, 'u'), ("name", true, 'n'), ("list", false, 'l'),
    ("interactive", false, 'i'), ("detach", false, 'd'), ("detach-all", false, 'D'),
    ("statistics", false, '\x00'), ("no-daemon", false, 'N'), ("keepalive", false, 'k')]

/-- What one call of `getopt_long` returns: `0` for a long option with no short form, with its
index in `LongOptions`; `'?'` for an unknown option or a missing argument; or an option character
with `optarg` (empty for an option that takes none). -/
inductive GetoptResult
  | longOption (index : Nat)
  | unknown
  | option (c : Char) (optarg : String)
  deriving DecidableEq, Repr

/-- The result `getopt_long` gives for the long option at `index`, with argument `arg`. -/
def longResult (index : Nat) (arg : String) : GetoptResult :=
  match LongOptions.get? index with
  | some (_, _, '\x00') => .longOption index
  | some (_, _, c) => .option c arg
  | none => .unknown

/-- The name of the long option at `index` (`LongOptions[index].name`). -/
def longName (index : Nat) : String := ((LongOptions.get? index).map Prod.fst).getD ""

/-- Whether the long option at `index` takes an argument. -/
def takesArgument (index : Nat) : Bool := ((LongOptions.get? index).map (·.2.1)).getD false

/-- The index in `LongOptions` of the option spelt `a`. -/
def longIndex (a : String) : Option Nat :=
  LongOptions.findIdx? fun o => "--" ++ o.1 = a

/-- `getopt_long` over the arguments after the program name, for the forms that
`Options::toArgv` produces: an option is a whole `--name` of `LongOptions`, and the argument of
one that takes it is the next element. An element that does not start with `-` is an operand,
which GNU `getopt_long` moves behind the options, and `--` ends the options. Any other form is
outside this model (`none`). -/
def getoptLong : List String → Option (List GetoptResult × List String)
  | [] => some ([], [])
  | a :: rest =>
    if a = "--" then some ([], rest)
    else
      match longIndex a with
      | some i =>
        if takesArgument i then
          match rest with
          | arg :: rest' => (getoptLong rest').map fun (rs, ops) => (longResult i arg :: rs, ops)
          | [] => some ([.unknown], [])
        else (getoptLong rest).map fun (rs, ops) => (longResult i "" :: rs, ops)
      | none =>
        if a.data.head? = some '-' then none
        else (getoptLong rest).map fun (rs, ops) => (rs, a :: ops)

/-! ## The option loop -/

/-- The state of `main`'s command-line block: the options read so far, `HadErrors`, and the lines
`ArgError()` printed (after the program name). -/
structure ParseState where
  main : MainOptions := {}
  server : Server.Options := {}
  client : Client.Options := {}
  hadErrors : Bool := false
  errors : List String := []
  deriving DecidableEq, Repr

/-- `ArgError() << message`. -/
def ParseState.argError (st : ParseState) (message : String) : ParseState :=
  { st with hadErrors := true, errors := st.errors ++ [message] }

/-- `VAR=VAL` split at its first `=`. -/
def splitEnv (s : String) : Option (String × String) :=
  (s.data.findIdx? (· = '=')).map fun i => (⟨s.data.take i⟩, ⟨s.data.drop (i + 1)⟩)

/-- The program to spawn, made if there is none yet (`Program.emplace(SpawnOptions{})`). -/
def ParseState.spawnOptions (st : ParseState) : SpawnOptions := st.client.program.getD {}

/-- The loop body of `main`'s option loop: the `switch` on what `getopt_long` returned. -/
def handleOption (st : ParseState) : GetoptResult → ParseState
  | .longOption i =>
    let opt := longName i
    if opt = "server" then
      { st with server.serverMode := true, client.clientMode := false }
    else if opt = "statistics" then { st with client.statisticsRequest := true }
    else st.argError ("option '--" ++ opt ++ "' registered, but no handler associated with it\n")
  | .unknown => { st with hadErrors := true }
  | .option 'h' _ => { st with main.showHelp := true }
  | .option 'v' _ =>
    if st.main.anyQuietFlag then
      st.argError "option '-v/--verbose' meaningless if '-q/--quiet' was also supplied\n"
    else
      { st with main.anyVerboseFlag := true,
                main.verbosityQuietnessDifferential :=
                  toInt8 (st.main.verbosityQuietnessDifferential + 1) }
  | .option 'q' _ =>
    if st.main.anyVerboseFlag then
      st.argError "option '-q/--quiet' meaningless if '-v/--verbose' was also supplied\n"
    else
      { st with main.anyQuietFlag := true,
                main.verbosityQuietnessDifferential :=
                  toInt8 (st.main.verbosityQuietnessDifferential - 1) }
  | .option 'V' _ =>
    if !st.main.showVersion then { st with main.showVersion := true }
    else if !st.main.showElaborateBuildInformation then
      { st with main.showElaborateBuildInformation := true }
    else st.argError "option '-V' cannot be repeated this many times\n"
  | .option 's' arg => { st with client.socketPath := some arg }
  | .option 'n' arg => { st with client.sessionName := some arg }
  | .option 'e' arg =>
    match splitEnv arg with
    | none => st.argError "option '-e/--env' must be specified in the format 'VAR=VAL'\n"
    | some (var, val) =>
      { st with client.program := some { st.spawnOptions with
          environment := st.spawnOptions.environment.emplace var (some val) } }
  | .option 'u' arg =>
    { st with client.program := some { st.spawnOptions with
        environment := st.spawnOptions.environment.emplace arg none } }
  | .option 'l' _ => { st with client.onlyListSessions := true }
  | .option 'i' _ => { st with client.interactiveSessionMenu := true }
  | .option 'd' _ => { st with client.detachRequestLatest := true }
  | .option 'D' _ => { st with client.detachRequestAll := true }
  | .option 'N' _ =>
    { st with server.background := false, server.exitOnLastSessionTerminate := false }
  | .option 'k' _ => { st with server.exitOnLastSessionTerminate := false }
  | .option _ _ => st

/-- The loop over the operands: in server mode the first one is an error; otherwise the first
operand while the program is still empty names it, and the others are its arguments. -/
def handleOperands (st : ParseState) : List String → ParseState
  | [] => st
  | arg :: rest =>
    if st.server.serverMode then
      st.argError ("option '--server' does not take positional argument \"" ++ arg ++ "\"\n")
    else
      let so := st.spawnOptions
      let so := if so.program.isEmpty then { so with program := arg }
        else { so with arguments := so.arguments ++ [arg] }
      handleOperands { st with client.program := some so } rest

/-- The verbosity, clamped to the levels there are, and stored back in the `std::int8_t`. -/
def clampVerbosity (L : LogLevels) (d : Int) : Int :=
  if d > L.maximumVerbosity then toInt8 L.maximumVerbosity
  else if d < -L.minimumVerbosity then toInt8 (-L.minimumVerbosity)
  else d

/-- How the command-line block of `main` ends: an exit, or the options to go on with and the log
severity. -/
inductive ParseResult
  | exit (code : FrontendExitCode)
  | proceed (server : Server.Options) (client : Client.Options) (severity : Int)
  deriving DecidableEq, Repr

/-- The command-line block of `main` after the option loop: `-h` and `-V`, the verbosity, the
check of `-d` against `-D`, the client mode, the operands and the verdict. -/
def finishParse (L : LogLevels) (st : ParseState) (operands : List String) :
    ParseResult × List String :=
  if st.main.showHelp then (.exit .success, st.errors)
  else if st.main.showVersion then (.exit .success, st.errors)
  else
    let severity := L.default + clampVerbosity L st.main.verbosityQuietnessDifferential
    let st := if st.client.detachRequestLatest && st.client.detachRequestAll then
        st.argError "option '-D/--detach-all' and '-d/--detach' are mutually exclusive!\n"
      else st
    let st := if !st.server.serverMode then { st with client.clientMode := true } else st
    let st := handleOperands st operands
    if st.hadErrors then (.exit .invocationError, st.errors)
    else (.proceed st.server st.client severity, st.errors)

/-- The command-line block of `main` ("Parse command-line options"), on what `getopt_long`
returned and the operands after the options. -/
def parseCommandLine (L : LogLevels) (results : List GetoptResult) (operands : List String) :
    ParseResult × List String :=
  finishParse L (results.foldl handleOption {}) operands

end Frontend

end Monomux

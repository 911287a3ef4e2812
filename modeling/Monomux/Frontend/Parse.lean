import Monomux.Frontend.OptionLoop

/-!
# How the command line ends

The operand loop and the end of `main`'s command-line block, over what the option loop leaves.

* `parse_outcome`: `main` exits with `Success` exactly when `-h` or `-V` was given, and with
  `InvocationError` exactly when neither was and one of the listed mistakes was made;
* `parse_proceed`: a parse that goes on runs exactly one of the server and the client, a server
  gets no operands, and the log severity is clamped;
* `parse_program`: the first non-empty operand is the program, the rest its arguments, and the
  first `-e` or `-u` of a variable decides it;
* `verbose_flags_wrap`: the verbosity count wraps in its `std::int8_t`, so 128 times `-v` selects
  the quietest level;
* `server_argv_round_trip`: `toArgv` is read back by the command line as the options it came from.
-/

namespace Monomux

namespace Frontend

open GetoptResult

/-! ## The operand loop -/

section Operands

variable (st : ParseState) (ops : List String)

@[simp] theorem handleOperands_server : (handleOperands st ops).server = st.server := by
  induction ops generalizing st with
  | nil => rfl
  | cons a ops ih => unfold handleOperands; split_ifs <;> simp [ih, ParseState.argError]

@[simp] theorem handleOperands_main : (handleOperands st ops).main = st.main := by
  induction ops generalizing st with
  | nil => rfl
  | cons a ops ih => unfold handleOperands; split_ifs <;> simp [ih, ParseState.argError]

/-- The operand loop changes no field of the client's options but the program. -/
theorem handleOperands_client :
    (handleOperands st ops).client = { st.client with program := (handleOperands st ops).client.program } := by
  induction ops generalizing st with
  | nil => rfl
  | cons a ops ih =>
    unfold handleOperands
    split_ifs
    · rfl
    · rw [ih]

/-- Setting the client mode before the operand loop is setting it after. -/
theorem handleOperands_clientMode (b : Bool) :
    (handleOperands { st with client.clientMode := b } ops).client =
      { (handleOperands st ops).client with clientMode := b } := by
  induction ops generalizing st with
  | nil => rfl
  | cons a ops ih =>
    unfold handleOperands
    split_ifs
    · rfl
    · exact ih { st with client.program := some (if st.spawnOptions.program.isEmpty then
        { st.spawnOptions with program := a }
        else { st.spawnOptions with arguments := st.spawnOptions.arguments ++ [a] }) }

theorem handleOperands_detach :
    ((handleOperands st ops).client.detachRequestLatest &&
        (handleOperands st ops).client.detachRequestAll) =
      (st.client.detachRequestLatest && st.client.detachRequestAll) := by
  rw [handleOperands_client]

theorem handleOperands_hadErrors :
    (handleOperands st ops).hadErrors =
      (st.hadErrors || (st.server.serverMode && !ops.isEmpty)) := by
  induction ops generalizing st with
  | nil => simp [handleOperands]
  | cons a ops ih =>
    unfold handleOperands
    split_ifs with h
    · simp [ParseState.argError, h]
    · simp [ih, h]

theorem handleOperands_environment :
    (handleOperands st ops).spawnOptions.environment = st.spawnOptions.environment := by
  induction ops generalizing st with
  | nil => rfl
  | cons a ops ih =>
    unfold handleOperands
    split_ifs
    · rfl
    · rw [ih]; split_ifs <;> rfl

/-- Once the program is named, every operand is one of its arguments. -/
theorem handleOperands_arguments (hs : st.server.serverMode = false) {so : SpawnOptions}
    (hso : st.client.program = some so) (hp : so.program ≠ "") :
    (handleOperands st ops).client.program = some { so with arguments := so.arguments ++ ops } := by
  induction ops generalizing st so with
  | nil => simp [handleOperands, hso]
  | cons a ops ih =>
    have hne : so.program.isEmpty = false :=
      Bool.eq_false_iff.mpr fun h => hp ((String.isEmpty_iff _).mp h)
    simp only [handleOperands, hs, ParseState.spawnOptions, hso, Option.getD_some, hne,
      Bool.false_eq_true, if_false]
    exact (ih { st with client.program := some { so with arguments := so.arguments ++ [a] } }
      hs rfl hp).trans (by simp)

/-- **The first non-empty operand names the program.** Empty operands before it name the empty
program again, and the operands after it are its arguments. -/
theorem handleOperands_program (hs : st.server.serverMode = false)
    (hp : st.spawnOptions.program = "") (pre : List String) (hpre : ∀ x ∈ pre, x = "")
    (a : String) (ha : a ≠ "") (rest : List String) :
    (handleOperands st (pre ++ a :: rest)).client.program =
      some { st.spawnOptions with program := a, arguments := st.spawnOptions.arguments ++ rest } := by
  induction pre generalizing st with
  | nil =>
    simp only [List.nil_append, handleOperands, hs, hp, String.isEmpty_iff, Bool.false_eq_true,
      if_false, if_true]
    exact handleOperands_arguments { st with client.program := some { st.spawnOptions with program := a } }
      rest hs rfl ha
  | cons x pre ih =>
    have hx : x = "" := hpre x (List.mem_cons_self x pre)
    simp only [List.cons_append, handleOperands, hs, hp, String.isEmpty_iff, hx,
      Bool.false_eq_true, if_false, if_true]
    exact ih { st with client.program := some { st.spawnOptions with program := "" } } hs rfl
      fun y hy => hpre y (List.mem_cons_of_mem x hy)

end Operands

/-! ## How `main` ends -/

section Parse

variable (L : LogLevels) (E : List GetoptResult) (ops : List String)

/-- The fields of the state after the option loop that decide how `main` goes on. -/
theorem options_fields :
    (E.foldl handleOption {}).main.showHelp = E.any (isOption 'h') ∧
      (E.foldl handleOption {}).main.showVersion = E.any (isOption 'V') ∧
      (E.foldl handleOption {}).hadErrors = loopErrors E ∧
      (E.foldl handleOption {}).client.detachRequestLatest = E.any (isOption 'd') ∧
      (E.foldl handleOption {}).client.detachRequestAll = E.any (isOption 'D') ∧
      (E.foldl handleOption {}).server.serverMode = E.any isServer ∧
      ((E.foldl handleOption {}).server.background = false →
        (E.foldl handleOption {}).server.exitOnLastSessionTerminate = false) := by
  have I := flagsInv_options E
  exact ⟨I.showHelp, I.showVersion.trans (any_eq_decide_one_le_countP _ _).symm, I.hadErrors,
    I.detachLatest, I.detachAll, I.serverMode, I.keepalive⟩

theorem finishParse_outcome (st : ParseState) :
    ((finishParse L st ops).1 = .exit .success ↔
      (st.main.showHelp || st.main.showVersion) = true) ∧
    ((finishParse L st ops).1 = .exit .invocationError ↔
      st.main.showHelp = false ∧ st.main.showVersion = false ∧
      (st.hadErrors || (st.client.detachRequestLatest && st.client.detachRequestAll) ||
        (st.server.serverMode && !ops.isEmpty)) = true) := by
  unfold finishParse
  cases hh : st.main.showHelp
  · cases hV : st.main.showVersion
    · cases hd : (st.client.detachRequestLatest && st.client.detachRequestAll) <;>
        cases hs : st.server.serverMode <;> cases he : st.hadErrors <;> cases ops <;>
        simp [hd, hs, he, handleOperands_hadErrors, ParseState.argError]
    · simp
  · simp

/-- **How the command line ends.** `main` exits with `Success` exactly when `-h` or `-V` was
given, and with `InvocationError` exactly when neither was and an option was rejected, `-v` met
`-q`, `-V` came three times, `-d` met `-D`, or a server was given operands. -/
theorem parse_outcome :
    ((parseCommandLine L E ops).1 = .exit .success ↔
      (E.any (isOption 'h') || E.any (isOption 'V')) = true) ∧
    ((parseCommandLine L E ops).1 = .exit .invocationError ↔
      E.any (isOption 'h') = false ∧ E.any (isOption 'V') = false ∧
      (loopErrors E || (E.any (isOption 'd') && E.any (isOption 'D')) ||
        (E.any isServer && !ops.isEmpty)) = true) := by
  obtain ⟨hh, hV, herr, hd, hD, hs, -⟩ := options_fields E
  rw [parseCommandLine, ← hh, ← hV, ← herr, ← hd, ← hD, ← hs]
  exact finishParse_outcome L ops _

/-- With levels that fit the `std::int8_t`, the clamped verbosity lies between
`-MinimumVerbosity` and `MaximumVerbosity`. -/
theorem clampVerbosity_mem (hmax : 0 ≤ L.maximumVerbosity ∧ L.maximumVerbosity ≤ 127)
    (hmin : 0 ≤ L.minimumVerbosity ∧ L.minimumVerbosity ≤ 128) (d : Int) :
    -L.minimumVerbosity ≤ clampVerbosity L d ∧ clampVerbosity L d ≤ L.maximumVerbosity := by
  unfold clampVerbosity toInt8
  split_ifs <;> omega

theorem clientMode_eta {st : ParseState} {b : Bool} (h : st.client.clientMode = b) :
    { st with client.clientMode := b } = st := by
  obtain ⟨_, _, ⟨⟩, _, _⟩ := st
  subst h
  rfl

theorem finishParse_proceed {st : ParseState} (hc : st.client.clientMode = false)
    {so : Server.Options} {co : Client.Options} {sev : Int}
    (h : (finishParse L st ops).1 = .proceed so co sev) :
    so = st.server ∧ co = { (handleOperands st ops).client with clientMode := !st.server.serverMode } ∧
      (st.server.serverMode = true → ops = []) ∧
      (st.client.detachRequestLatest && st.client.detachRequestAll) = false ∧
      sev = L.default + clampVerbosity L st.main.verbosityQuietnessDifferential := by
  unfold finishParse at h
  cases hh : st.main.showHelp
  · cases hV : st.main.showVersion
    · cases hd : (st.client.detachRequestLatest && st.client.detachRequestAll) <;>
        cases hs : st.server.serverMode <;>
        simp only [hh, hV, hd, hs, Bool.false_eq_true, if_false, if_true, Bool.not_false,
          Bool.not_true, handleOperands_hadErrors, ParseState.argError, Bool.true_or,
          Bool.false_or, Bool.true_and, Bool.false_and, Bool.not_eq_true'] at h <;>
        (try split_ifs at h with he) <;>
        simp only [ParseResult.proceed.injEq, reduceCtorEq] at h
      · obtain ⟨rfl, rfl, rfl⟩ := h
        exact ⟨handleOperands_server _ _, handleOperands_clientMode _ _ _, nofun, rfl, rfl⟩
      · obtain ⟨rfl, rfl, rfl⟩ := h
        refine ⟨handleOperands_server _ _, ?_, fun _ => by simp_all, rfl, rfl⟩
        conv_lhs => rw [← clientMode_eta hc]
        exact handleOperands_clientMode _ _ _
    · simp [hh, hV] at h
  · simp [hh] at h

/-- **A parse that goes on.** It runs the server exactly when `--server` was given and the
client otherwise, a server gets no operands, `-d` and `-D` are never both on, a server that does
not daemonise does not exit on its own, and the severity is within the levels' bounds. -/
theorem parse_proceed {so : Server.Options} {co : Client.Options} {sev : Int}
    (h : (parseCommandLine L E ops).1 = .proceed so co sev) :
    so.serverMode = E.any isServer ∧ co.clientMode = !so.serverMode ∧
      (so.serverMode = true → ops = []) ∧
      (co.detachRequestLatest && co.detachRequestAll) = false ∧
      (so.background = false → so.exitOnLastSessionTerminate = false) ∧
      (0 ≤ L.maximumVerbosity ∧ L.maximumVerbosity ≤ 127 →
        0 ≤ L.minimumVerbosity ∧ L.minimumVerbosity ≤ 128 →
        L.default - L.minimumVerbosity ≤ sev ∧ sev ≤ L.default + L.maximumVerbosity) := by
  obtain ⟨-, -, -, -, -, hs, hk⟩ := options_fields E
  obtain ⟨rfl, rfl, hops, hd, rfl⟩ := finishParse_proceed L ops (flagsInv_options E).clientMode h
  refine ⟨hs, rfl, hops, (handleOperands_detach _ _).trans hd, hk, fun hmax hmin => ?_⟩
  have := clampVerbosity_mem L hmax hmin
    (E.foldl handleOption {}).main.verbosityQuietnessDifferential
  constructor <;> omega

theorem parse_proceed_server :
    (parseCommandLine ⟨0, 4, 3⟩ [.longOption 3] []).1 = .proceed { serverMode := true } {} 0 ∧
      (true = [GetoptResult.longOption 3].any isServer ∧ false = !true ∧
        (true = true → ([] : List String) = []) ∧ (false && false) = false ∧
        (true = false → true = false) ∧
        (0 ≤ (4 : Int) ∧ (4 : Int) ≤ 127 → 0 ≤ (3 : Int) ∧ (3 : Int) ≤ 128 →
          (0 : Int) - 3 ≤ 0 ∧ (0 : Int) ≤ 0 + 4)) :=
  ⟨rfl, parse_proceed ⟨0, 4, 3⟩ [.longOption 3] [] rfl⟩

/-- A parse that goes on names the first non-empty operand as the program, with the operands
after it and the environment of the option loop. -/
theorem parse_spawnOptions {pre rest : List String} {a : String} {so : Server.Options}
    {co : Client.Options} {sev : Int}
    (h : (parseCommandLine L E (pre ++ a :: rest)).1 = .proceed so co sev)
    (hpre : ∀ x ∈ pre, x = "") (ha : a ≠ "") :
    co.program = some ⟨a, rest, (E.foldl handleOption {}).spawnOptions.environment⟩ := by
  obtain ⟨-, rfl, hops, -, -⟩ := finishParse_proceed L _ (flagsInv_options E).clientMode h
  have hs : (E.foldl handleOption {}).server.serverMode = false := by
    cases hs : (E.foldl handleOption {}).server.serverMode
    · rfl
    · simpa using hops hs
  obtain ⟨hp, hargs⟩ := program_options E
  refine (handleOperands_program _ hs hp pre hpre a ha rest).trans ?_
  rw [hargs]
  rfl

/-- **The program a client spawns.** When the parse goes on, the first non-empty operand names
the program, the operands after it are its arguments, and each variable of its environment takes
the value of the first `-e` or `-u` that names it. -/
theorem parse_program {pre rest : List String} {a : String} {so : Server.Options}
    {co : Client.Options} {sev : Int}
    (h : (parseCommandLine L E (pre ++ a :: rest)).1 = .proceed so co sev)
    (hpre : ∀ x ∈ pre, x = "") (ha : a ≠ "") :
    ∃ env, co.program = some ⟨a, rest, env⟩ ∧
      ∀ k, env.lookup k = ((E.filterMap envSetting).find? fun kv => kv.1 = k).map Prod.snd :=
  ⟨_, parse_spawnOptions L E h hpre ha, lookup_options E⟩

theorem parse_program_bash :
    (parseCommandLine ⟨0, 4, 3⟩ [.option 'e' "A=1", .option 'e' "A=2", .option 'u' "B"]
        ([""] ++ "bash" :: ["-l"])).1 =
      .proceed {}
        { clientMode := true, program := some ⟨"bash", ["-l"], [("A", some "1"), ("B", none)]⟩ } 0 ∧
      ∃ env, some (⟨"bash", ["-l"], [("A", some "1"), ("B", none)]⟩ : SpawnOptions) =
          some ⟨"bash", ["-l"], env⟩ ∧
        ∀ k, env.lookup k = ((([.option 'e' "A=1", .option 'e' "A=2", .option 'u' "B"] :
          List GetoptResult).filterMap envSetting).find? fun kv => kv.1 = k).map Prod.snd :=
  have h : (parseCommandLine ⟨0, 4, 3⟩ [.option 'e' "A=1", .option 'e' "A=2", .option 'u' "B"]
      ([""] ++ "bash" :: ["-l"])).1 = .proceed {}
        { clientMode := true, program := some ⟨"bash", ["-l"], [("A", some "1"), ("B", none)]⟩ } 0 :=
    by decide
  ⟨h, parse_program ⟨0, 4, 3⟩ _ h (by simp) (by decide)⟩

/-- The wrapped count of 128 `-v` is clamped to `-MinimumVerbosity`. -/
theorem clampVerbosity_neg128 (hmax : 0 ≤ L.maximumVerbosity)
    (hmin : 0 ≤ L.minimumVerbosity ∧ L.minimumVerbosity ≤ 128) :
    clampVerbosity L (-128) = -L.minimumVerbosity := by
  unfold clampVerbosity toInt8
  split_ifs <;> omega

/-- `k` times `-v` leaves the verbose flag and `k` wrapped into the `std::int8_t`. -/
theorem foldl_verbose (k : Nat) :
    (List.replicate k (GetoptResult.option 'v' "")).foldl handleOption {} =
      { main := { anyVerboseFlag := decide (0 < k), verbosityQuietnessDifferential := toInt8 k } } := by
  induction k with
  | zero => rfl
  | succ k ih =>
    rw [List.replicate_succ', List.foldl_append, ih]
    show ParseState.mk _ _ _ _ _ = _
    simp only [ParseState.mk.injEq, MainOptions.mk.injEq, and_true, true_and]
    refine ⟨by simp, ?_⟩
    unfold toInt8
    omega

/-- **The verbosity wraps.** `k` times `-v` sets the severity from `k` as a `std::int8_t`: from 128
on it wraps to a negative differential, and 128 times `-v` selects the quietest level,
`Default - MinimumVerbosity`. -/
theorem verbose_flags_wrap :
    (∀ k : Nat, parseCommandLine L (List.replicate k (.option 'v' "")) [] =
      (.proceed {} { clientMode := true } (L.default + clampVerbosity L (toInt8 k)), [])) ∧
    (0 ≤ L.maximumVerbosity → 0 ≤ L.minimumVerbosity → L.minimumVerbosity ≤ 128 →
      parseCommandLine L (List.replicate 128 (.option 'v' "")) [] =
        (.proceed {} { clientMode := true } (L.default - L.minimumVerbosity), [])) := by
  have hk (k : Nat) : parseCommandLine L (List.replicate k (.option 'v' "")) [] =
      (.proceed {} { clientMode := true } (L.default + clampVerbosity L (toInt8 k)), []) := by
    rw [parseCommandLine, foldl_verbose]
    rfl
  refine ⟨hk, fun hmax hmin hmin' => ?_⟩
  have h128 : toInt8 (128 : Nat) = -128 := by decide
  rw [hk, h128, clampVerbosity_neg128 L hmax ⟨hmin, hmin'⟩, ← Int.sub_eq_add_neg]

/-- **`toArgv` is read back.** The arguments `server::exec` starts a server with are read by the
command line as the options they came from: the socket path goes to the client's options, where
`main` takes it from, and the parse goes on without errors. `--no-daemon` also sets `--keepalive`,
so the options must have it when they are not daemonised. -/
theorem server_argv_round_trip (o : Server.Options) (hs : o.serverMode = true)
    (hk : o.background = false → o.exitOnLastSessionTerminate = false) :
    ∃ rs, getoptLong o.toArgv = some (rs, []) ∧
      parseCommandLine L rs [] = (.proceed { o with socketPath := none }
        { socketPath := o.socketPath } (L.default + clampVerbosity L 0), []) := by
  obtain ⟨_, sp, bg, ex⟩ := o
  subst hs
  cases sp <;> cases bg <;> cases ex
  all_goals first
    | exact ⟨_, rfl, rfl⟩
    | exact nomatch hk rfl

example : ∃ rs, getoptLong ["--server", "--socket", "mx.sock", "--no-daemon", "--keepalive"] =
      some (rs, []) ∧
    parseCommandLine ⟨0, 4, 3⟩ rs [] =
      (.proceed ⟨true, none, false, false⟩ { socketPath := some "mx.sock" } 0, []) :=
  ⟨_, rfl, rfl⟩

end Parse

end Frontend

end Monomux

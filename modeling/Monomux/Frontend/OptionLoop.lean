import Mathlib.Data.List.Nodup
import Monomux.Frontend.CommandLine

/-!
# What the option loop computes

The fields of the command-line state that decide how `main` ends are Booleans that each option
sets or leaves; the program to spawn changes only by `-e` and `-u`. This module abstracts both
from the loop and says what they are after any list of options.

* `handleOption_flags`: the loop moves its flags as `Flags.step` says, and `flagsInv_step`: that
  step keeps `FlagsInv`, what the flags say about the options read;
* `flagsInv_foldl`, `flagsInv_options`: the flags after any list of options;
* `lookup_options`: each variable of the program's environment takes the value of the first `-e`
  or `-u` that names it, and `program_options`: the loop names no program.
-/

namespace Monomux

namespace Frontend

/-! ## What the option loop computes -/

namespace GetoptResult

/-- Whether this is the option `-c`, in its short or long form. -/
def isOption (c : Char) : GetoptResult → Bool
  | option c' _ => c' = c
  | _ => false

/-- Whether this is `--server`. -/
def isServer : GetoptResult → Bool
  | longOption i => longName i = "server"
  | _ => false

/-- Whether the option loop rejects this result, whatever came before it: `'?'`, a long option
with no handler, or an `-e` without `=`. -/
def rejected : GetoptResult → Bool
  | unknown => true
  | longOption i => longName i ≠ "server" && longName i ≠ "statistics"
  | option c arg => c = 'e' && (splitEnv arg).isNone

end GetoptResult

open GetoptResult

/-- The errors of an option list: a rejected option, `-v` together with `-q`, or `-V` three
times. -/
def loopErrors (E : List GetoptResult) : Bool :=
  E.any rejected || (E.any (isOption 'v') && E.any (isOption 'q')) ||
    decide (3 ≤ E.countP (isOption 'V'))

/-! ## The flags of the option loop

The fields that decide how `main` ends are Booleans that each option sets or leaves. `Flags` is
that part of the state and `Flags.step` what one option does to it; `handleOption_flags` says
that the option loop moves its flags exactly so. The invariants are proved on `Flags.step`. -/

/-- The flags of the command-line state that decide how `main` ends. -/
structure Flags where
  showHelp : Bool
  showVersion : Bool
  elaborate : Bool
  anyVerbose : Bool
  anyQuiet : Bool
  serverMode : Bool
  clientMode : Bool
  detachLatest : Bool
  detachAll : Bool
  background : Bool
  exitOnLast : Bool
  hadErrors : Bool
  deriving DecidableEq, Repr

/-- The flags of a state. -/
def ParseState.flags (st : ParseState) : Flags :=
  ⟨st.main.showHelp, st.main.showVersion, st.main.showElaborateBuildInformation,
    st.main.anyVerboseFlag, st.main.anyQuietFlag, st.server.serverMode, st.client.clientMode,
    st.client.detachRequestLatest, st.client.detachRequestAll, st.server.background,
    st.server.exitOnLastSessionTerminate, st.hadErrors⟩

/-- What one option does to the flags. -/
def Flags.step (f : Flags) (e : GetoptResult) : Flags where
  showHelp := f.showHelp || e.isOption 'h'
  showVersion := f.showVersion || e.isOption 'V'
  elaborate := f.elaborate || (e.isOption 'V' && f.showVersion)
  anyVerbose := f.anyVerbose || (e.isOption 'v' && !f.anyQuiet)
  anyQuiet := f.anyQuiet || (e.isOption 'q' && !f.anyVerbose)
  serverMode := f.serverMode || e.isServer
  clientMode := f.clientMode && !e.isServer
  detachLatest := f.detachLatest || e.isOption 'd'
  detachAll := f.detachAll || e.isOption 'D'
  background := f.background && !e.isOption 'N'
  exitOnLast := f.exitOnLast && !e.isOption 'N' && !e.isOption 'k'
  hadErrors := f.hadErrors || e.rejected || (e.isOption 'v' && f.anyQuiet) ||
    (e.isOption 'q' && f.anyVerbose) || (e.isOption 'V' && f.showVersion && f.elaborate)

/-- The option loop moves its flags as `Flags.step` says. -/
theorem handleOption_flags (st : ParseState) (e : GetoptResult) :
    (handleOption st e).flags = st.flags.step e := by
  unfold handleOption
  split <;> (try dsimp only) <;> (repeat' split) <;>
    simp_all [ParseState.flags, Flags.step, isOption, isServer, rejected, ParseState.argError]

theorem foldl_flags (E : List GetoptResult) (st : ParseState) :
    (E.foldl handleOption st).flags = E.foldl Flags.step st.flags := by
  induction E generalizing st with
  | nil => rfl
  | cons e E ih => simp [ih, handleOption_flags]

/-- What the flags say about the options `E` read so far. -/
structure FlagsInv (E : List GetoptResult) (f : Flags) : Prop where
  showHelp : f.showHelp = E.any (isOption 'h')
  showVersion : f.showVersion = decide (1 ≤ E.countP (isOption 'V'))
  elaborate : f.elaborate = decide (2 ≤ E.countP (isOption 'V'))
  serverMode : f.serverMode = E.any isServer
  clientMode : f.clientMode = false
  detachLatest : f.detachLatest = E.any (isOption 'd')
  detachAll : f.detachAll = E.any (isOption 'D')
  hadErrors : f.hadErrors = loopErrors E
  verbose : f.anyVerbose = true → E.any (isOption 'v') = true
  quiet : f.anyQuiet = true → E.any (isOption 'q') = true
  not_both : ¬(f.anyVerbose = true ∧ f.anyQuiet = true)
  some_flag : E.any (isOption 'v') = true ∨ E.any (isOption 'q') = true →
    f.anyVerbose = true ∨ f.anyQuiet = true
  /-- `-N` implies `-k`. -/
  keepalive : f.background = false → f.exitOnLast = false

theorem flagsInv_nil : FlagsInv [] ({} : ParseState).flags := by
  constructor <;> simp [ParseState.flags, loopErrors]

/-- An option is at most one of `-v`, `-q` and `-V`. -/
theorem isOption_cases (e : GetoptResult) :
    (e.isOption 'v' = true ∧ e.isOption 'q' = false ∧ e.isOption 'V' = false) ∨
      (e.isOption 'v' = false ∧ e.isOption 'q' = true ∧ e.isOption 'V' = false) ∨
      (e.isOption 'v' = false ∧ e.isOption 'q' = false ∧ e.isOption 'V' = true) ∨
      (e.isOption 'v' = false ∧ e.isOption 'q' = false ∧ e.isOption 'V' = false) := by
  rcases e with _ | _ | ⟨c, _⟩
  · simp [isOption]
  · simp [isOption]
  · simp only [isOption, decide_eq_true_eq, decide_eq_false_iff_not]
    by_cases hv : c = 'v'
    · subst hv; decide
    by_cases hq : c = 'q'
    · subst hq; decide
    by_cases hV : c = 'V'
    · subst hV; decide
    exact .inr (.inr (.inr ⟨hv, hq, hV⟩))

theorem isOption_v_q {e : GetoptResult} (h : e.isOption 'v' = true) : e.isOption 'q' = false := by
  rcases isOption_cases e with ⟨_, h2, _⟩ | ⟨h1, _⟩ | ⟨h1, _⟩ | ⟨h1, _⟩
  · exact h2
  all_goals simp [h1] at h

theorem countP_V_append (E : List GetoptResult) (e : GetoptResult) :
    (E ++ [e]).countP (isOption 'V') = E.countP (isOption 'V') + (e.isOption 'V').toNat := by
  cases h : e.isOption 'V' <;> simp [List.countP_append, List.countP_singleton, h]

/-- The errors of one more option: it is rejected, it is `-v` after a `-q` or the other way
round, or it is a third `-V`. -/
theorem loopErrors_append (E : List GetoptResult) (e : GetoptResult) :
    loopErrors (E ++ [e]) = (loopErrors E || e.rejected ||
      (e.isOption 'v' && E.any (isOption 'q')) || (e.isOption 'q' && E.any (isOption 'v')) ||
      (e.isOption 'V' && decide (2 ≤ E.countP (isOption 'V')))) := by
  have h3 : decide (3 ≤ E.countP (isOption 'V') + 1) =
      (decide (3 ≤ E.countP (isOption 'V')) || decide (2 ≤ E.countP (isOption 'V'))) := by
    rw [← Bool.decide_or, decide_eq_decide]; omega
  simp only [loopErrors, List.any_append, List.any_cons, List.any_nil, Bool.or_false,
    countP_V_append]
  rcases isOption_cases e with ⟨h1, h2, h3'⟩ | ⟨h1, h2, h3'⟩ | ⟨h1, h2, h3'⟩ | ⟨h1, h2, h3'⟩ <;>
    simp only [h1, h2, h3', Bool.toNat_true, Bool.toNat_false, Nat.add_zero, h3] <;>
    generalize E.any rejected = R, e.rejected = r, E.any (isOption 'v') = A,
      E.any (isOption 'q') = B, decide (3 ≤ E.countP (isOption 'V')) = T,
      decide (2 ≤ E.countP (isOption 'V')) = S <;>
    revert R r A B T S <;> decide

/-- A `-v` is refused after a `-q` was taken; once the errors so far are counted, that is the
same as after any `-q`, since a `-q` that was not taken made an error. -/
theorem FlagsInv.hadErrors_or_quiet {E : List GetoptResult} {f : Flags} (h : FlagsInv E f) :
    (f.hadErrors || f.anyQuiet) = (f.hadErrors || E.any (isOption 'q')) := by
  cases hQ : f.anyQuiet
  · cases hB : E.any (isOption 'q')
    · rfl
    · have hA := h.verbose ((h.some_flag (.inr hB)).resolve_right (by simp [hQ]))
      simp [h.hadErrors, loopErrors, hA, hB]
  · simp [h.quiet hQ]

theorem FlagsInv.hadErrors_or_verbose {E : List GetoptResult} {f : Flags} (h : FlagsInv E f) :
    (f.hadErrors || f.anyVerbose) = (f.hadErrors || E.any (isOption 'v')) := by
  cases hP : f.anyVerbose
  · cases hA : E.any (isOption 'v')
    · rfl
    · have hB := h.quiet ((h.some_flag (.inl hA)).resolve_left (by simp [hP]))
      simp [h.hadErrors, loopErrors, hA, hB]
  · simp [h.verbose hP]

theorem flagsInv_step {E : List GetoptResult} {f : Flags} (h : FlagsInv E f)
    (e : GetoptResult) : FlagsInv (E ++ [e]) (f.step e) := by
  have hcount := countP_V_append E e
  refine ⟨by simp [Flags.step, h.showHelp], ?_, ?_, by simp [Flags.step, h.serverMode],
    by simp [Flags.step, h.clientMode], by simp [Flags.step, h.detachLatest],
    by simp [Flags.step, h.detachAll], ?_, ?_, ?_, ?_, ?_, ?_⟩
  · -- `-V` sets the version flag
    rw [hcount]
    cases hVe : e.isOption 'V'
    · simpa only [Flags.step, hVe, Bool.or_false, Bool.toNat_false, Nat.add_zero] using h.showVersion
    · simp only [Flags.step, hVe, Bool.or_true, Bool.toNat_true]
      exact (decide_eq_true (by omega)).symm
  · -- a second `-V` sets the elaborate flag
    rw [hcount]
    cases hVe : e.isOption 'V'
    · simpa only [Flags.step, hVe, Bool.false_and, Bool.or_false, Bool.toNat_false, Nat.add_zero]
        using h.elaborate
    · simp only [Flags.step, hVe, Bool.true_and, Bool.toNat_true, h.showVersion, h.elaborate]
      rw [← Bool.decide_or, decide_eq_decide]; omega
  · -- `HadErrors`
    have hS : (f.showVersion && f.elaborate) = decide (2 ≤ E.countP (isOption 'V')) := by
      rw [h.showVersion, h.elaborate, ← Bool.decide_and, decide_eq_decide]; omega
    rw [loopErrors_append, ← h.hadErrors, Flags.step]
    rcases isOption_cases e with ⟨h1, h2, h3⟩ | ⟨h1, h2, h3⟩ | ⟨h1, h2, h3⟩ | ⟨h1, h2, h3⟩ <;>
      simp only [h1, h2, h3, Bool.true_and, Bool.false_and, Bool.or_false]
    · rw [Bool.or_right_comm, h.hadErrors_or_quiet, Bool.or_right_comm]
    · rw [Bool.or_right_comm, h.hadErrors_or_verbose, Bool.or_right_comm]
    · rw [hS]
  · -- the verbose flag is only set by `-v`
    simp only [Flags.step, Bool.or_eq_true, Bool.and_eq_true, List.any_append, List.any_cons,
      List.any_nil, Bool.or_false]
    exact Or.imp h.verbose And.left
  · -- the quiet flag is only set by `-q`
    simp only [Flags.step, Bool.or_eq_true, Bool.and_eq_true, List.any_append, List.any_cons,
      List.any_nil, Bool.or_false]
    exact Or.imp h.quiet And.left
  · -- each flag is refused while the other is set
    simp only [Flags.step, Bool.or_eq_true, Bool.and_eq_true, Bool.not_eq_true']
    rintro ⟨hP | ⟨hve, hQ⟩, hQ' | ⟨hqe, hP'⟩⟩
    · exact h.not_both ⟨hP, hQ'⟩
    · simp [hP] at hP'
    · simp [hQ'] at hQ
    · simp [isOption_v_q hve] at hqe
  · -- a `-v` or `-q` sets one of the flags
    simp only [Flags.step, Bool.or_eq_true, Bool.and_eq_true, Bool.not_eq_true', List.any_append,
      List.any_cons, List.any_nil, Bool.or_false]
    rintro ((hA | hve) | (hB | hqe))
    · exact (h.some_flag (.inl hA)).imp .inl .inl
    · cases hQ : f.anyQuiet
      · exact .inl (.inr ⟨hve, rfl⟩)
      · exact .inr (.inl rfl)
    · exact (h.some_flag (.inr hB)).imp .inl .inl
    · cases hP : f.anyVerbose
      · exact .inr (.inr ⟨hqe, rfl⟩)
      · exact .inl (.inl rfl)
  · -- `-N` clears both fields
    simp only [Flags.step, Bool.and_eq_false_iff, Bool.not_eq_false']
    rintro (hb | hN)
    · exact .inl (.inl (h.keepalive hb))
    · exact .inl (.inr hN)

/-- **What the option loop leaves.** After any list of options, the flags are as `FlagsInv`
says. -/
theorem flagsInv_foldl (E : List GetoptResult) :
    FlagsInv E (E.foldl Flags.step ({} : ParseState).flags) := by
  induction E using List.reverseRecOn with
  | nil => exact flagsInv_nil
  | append_singleton E e ih => rw [List.foldl_append]; exact flagsInv_step ih e

theorem flagsInv_options (E : List GetoptResult) :
    FlagsInv E (E.foldl handleOption {}).flags := by
  rw [foldl_flags]; exact flagsInv_foldl E

theorem any_eq_decide_one_le_countP {α : Type} (p : α → Bool) (l : List α) :
    l.any p = decide (1 ≤ l.countP p) := by
  rw [Bool.eq_iff_iff, List.any_eq_true, decide_eq_true_iff, Nat.one_le_iff_ne_zero, ne_eq,
    List.countP_eq_zero]
  simp

/-! ## The environment of the program -/

namespace GetoptResult

/-- The environment change an option asks for: `-e VAR=VAL` sets `VAR`, `-u VAR` unsets it. -/
def envSetting : GetoptResult → Option (String × Option String)
  | option 'e' arg => (splitEnv arg).map fun (var, val) => (var, some val)
  | option 'u' arg => some (arg, none)
  | _ => none

end GetoptResult

theorem lookup_append (env env' : Environment) (k : String) :
    (env ++ env').lookup k = (env.lookup k).or (env'.lookup k) := by
  simp only [Environment.lookup, List.find?_append]
  cases env.find? (fun e => e.1 = k) <;> rfl

/-- `emplace` leaves a variable that is there as it is. -/
theorem lookup_emplace (env : Environment) (key : String) (value : Option String) (k : String) :
    (env.emplace key value).lookup k =
      (env.lookup k).or (if key = k then some value else none) := by
  unfold Environment.emplace
  split_ifs with h hk hk
  · subst hk
    obtain ⟨e, he, hek⟩ := List.any_eq_true.mp h
    obtain ⟨e', he'⟩ := Option.isSome_iff_exists.mp
      (List.find?_isSome.mpr ⟨e, he, hek⟩ : (env.find? fun e => e.1 = key).isSome)
    simp [Environment.lookup, he']
  · simp
  all_goals rw [lookup_append]; congr 1; simp [Environment.lookup, hk]

/-- Emplacing a list of settings in turn: the first setting of a variable decides it. -/
theorem lookup_foldl_emplace (S : List (String × Option String)) (env : Environment)
    (k : String) :
    (S.foldl (fun env kv => env.emplace kv.1 kv.2) env).lookup k =
      (env.lookup k).or ((S.find? fun kv => kv.1 = k).map Prod.snd) := by
  induction S generalizing env with
  | nil => simp
  | cons kv S ih =>
    rw [List.foldl_cons, ih, lookup_emplace, Option.or_assoc, List.find?_cons]
    by_cases h : kv.1 = k <;> simp [h]

/-- The option loop changes the program to spawn only by the environment changes of `-e` and
`-u`. -/
theorem handleOption_spawnOptions (st : ParseState) (e : GetoptResult) :
    (handleOption st e).spawnOptions =
      e.envSetting.elim st.spawnOptions fun kv =>
        { st.spawnOptions with environment := st.spawnOptions.environment.emplace kv.1 kv.2 } := by
  unfold handleOption
  split <;> (try dsimp only) <;> (repeat' split) <;>
    simp_all [ParseState.spawnOptions, envSetting, ParseState.argError]

/-- The option loop emplaces the settings of `-e` and `-u` in turn. -/
theorem environment_foldl (E : List GetoptResult) (st : ParseState) :
    (E.foldl handleOption st).spawnOptions.environment =
      (E.filterMap envSetting).foldl (fun env kv => env.emplace kv.1 kv.2)
        st.spawnOptions.environment := by
  induction E generalizing st with
  | nil => rfl
  | cons e E ih =>
    rw [List.foldl_cons, ih, handleOption_spawnOptions, List.filterMap_cons]
    cases e.envSetting <;> rfl

/-- **The environment after the option loop.** Every variable takes the value of its first
`-e` or `-u`. -/
theorem lookup_options (E : List GetoptResult) (k : String) :
    (E.foldl handleOption {}).spawnOptions.environment.lookup k =
      ((E.filterMap envSetting).find? fun kv => kv.1 = k).map Prod.snd := by
  rw [environment_foldl, lookup_foldl_emplace]; rfl

/-- The option loop never names the program nor gives it arguments. -/
theorem program_options (E : List GetoptResult) :
    (E.foldl handleOption {}).spawnOptions.program = "" ∧
      (E.foldl handleOption {}).spawnOptions.arguments = [] := by
  suffices ∀ st : ParseState, (E.foldl handleOption st).spawnOptions.program =
      st.spawnOptions.program ∧ (E.foldl handleOption st).spawnOptions.arguments =
      st.spawnOptions.arguments from this {}
  induction E with
  | nil => intro; exact ⟨rfl, rfl⟩
  | cons e E ih =>
    intro st
    rw [List.foldl_cons, (ih _).1, (ih _).2, handleOption_spawnOptions]
    cases e.envSetting <;> exact ⟨rfl, rfl⟩

end Frontend

end Monomux

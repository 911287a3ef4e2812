import Mathlib.Data.List.Basic
import Monomux.System.Loop

/-!
# The build configuration text

`getHumanReadableConfiguration` (`src/src/Config.cpp`) prints one line for each of two build
options and then cleans up multiple subsequent newlines: while the text has a `"\n\n"`, the first
one is replaced by `"\n"`.

* `findDoubleNewline` and `replaceAt` are `S.find("\n\n")` and `S.replace(P, 2, "\n", 1)`, and
  `cleanUpNewlines` is the loop;
* `squeeze` says what the loop is for: a newline is dropped exactly when another one follows it;
* `squeeze_replaceAt` and `length_replaceAt`: one iteration keeps the squeeze of the text and
  shortens it by one;
* `cleanUpNewlines_spec`: the loop ends within the text's length plus one iterations, with the
  squeeze of the text, which has no `"\n\n"`, only lacks newlines of the text and keeps every
  other character in order;
* `getHumanReadableConfiguration_eq`: the two lines come out unchanged.
-/

namespace Monomux

open System

/-! ## The clean-up loop -/

/-- `S.find("\n\n")`: where the first `"\n\n"` starts, if there is one. -/
def findDoubleNewline : List Char → Option Nat
  | [] => none
  | c :: rest =>
    if c = '\n' ∧ rest.head? = some '\n' then some 0 else (findDoubleNewline rest).map (· + 1)

/-- `S.replace(P, 2, "\n", 1)`. -/
def replaceAt (s : List Char) (p : Nat) : List Char := s.take p ++ '\n' :: s.drop (p + 2)

/-- The test of the clean-up loop: `S.find("\n\n") != npos`. -/
def cleanUpCond (s : List Char) : Bool := (findDoubleNewline s).isSome

/-- The body of the clean-up loop. -/
def cleanUpBody (s : List Char) : ForInStep (List Char) :=
  match findDoubleNewline s with
  | some p => .yield (replaceAt s p)
  | none => .yield s

/-- The loop of `getHumanReadableConfiguration` that cleans up multiple subsequent newlines. -/
def cleanUpNewlines (fuel : Nat) (s : List Char) : Option (List Char) :=
  whileLoop cleanUpCond cleanUpBody fuel s

/-- `getHumanReadableConfiguration()`, for a build with or without `MONOMUX_BUILD_SHARED_LIBS`
and `MONOMUX_NON_ESSENTIAL_LOGS`. -/
def getHumanReadableConfiguration (fuel : Nat) (sharedLibs nonEssentialLogs : Bool) :
    Option String :=
  let S := (if sharedLibs then " * SHARED (dynamic) library for implementation core\n"
      else " * STATIC library for implementation core\n") ++
    (if nonEssentialLogs then " + Non-essential trace logs\n" else " - Non-essential trace logs\n")
  (cleanUpNewlines fuel S.data).map String.mk

/-! ## What the clean-up is for -/

/-- Every newline that another newline follows is dropped: of each run of newlines, one is
left. -/
def squeeze : List Char → List Char
  | [] => []
  | c :: rest => if c = '\n' ∧ rest.head? = some '\n' then squeeze rest else c :: squeeze rest

theorem head?_squeeze (s : List Char) : (squeeze s).head? = s.head? := by
  induction s with
  | nil => rfl
  | cons c rest ih =>
    unfold squeeze
    split_ifs with h
    · rw [ih, h.2, h.1]
      rfl
    · rfl

/-- No `"\n\n"` is left. -/
theorem findDoubleNewline_squeeze (s : List Char) : findDoubleNewline (squeeze s) = none := by
  induction s with
  | nil => rfl
  | cons c rest ih =>
    unfold squeeze
    split_ifs with h
    · exact ih
    · rw [findDoubleNewline, head?_squeeze, if_neg h, ih, Option.map_none']

theorem squeeze_sublist (s : List Char) : (squeeze s).Sublist s := by
  induction s with
  | nil => exact .slnil
  | cons c rest ih =>
    unfold squeeze
    split_ifs
    · exact ih.cons c
    · exact ih.cons₂ c

/-- Every character but a newline is kept, in order. -/
theorem filter_squeeze (s : List Char) :
    (squeeze s).filter (· ≠ '\n') = s.filter (· ≠ '\n') := by
  induction s with
  | nil => rfl
  | cons c rest ih =>
    unfold squeeze
    split_ifs with h
    · rw [ih, List.filter_cons_of_neg (by simp [h.1])]
    · simp only [List.filter_cons, ih]

/-- A text without `"\n\n"` is its own squeeze. -/
theorem squeeze_of_findDoubleNewline (s : List Char) (h : findDoubleNewline s = none) :
    squeeze s = s := by
  induction s with
  | nil => rfl
  | cons c rest ih =>
    unfold findDoubleNewline at h
    split_ifs at h with hc
    rw [squeeze, if_neg hc, ih (Option.map_eq_none'.mp h)]

/-! ## One iteration -/

section Step

variable {s : List Char} {p : Nat}

theorem length_replaceAt (h : findDoubleNewline s = some p) :
    (replaceAt s p).length + 1 = s.length := by
  induction s generalizing p with
  | nil => simp [findDoubleNewline] at h
  | cons c rest ih =>
    unfold findDoubleNewline at h
    split_ifs at h with hc
    · obtain ⟨-, hr⟩ := hc
      cases h
      obtain ⟨tail, rfl⟩ := List.head?_eq_some_iff.mp hr
      simp [replaceAt]
    · obtain ⟨p, hp, rfl⟩ := Option.map_eq_some'.mp h
      have := ih hp
      simp only [replaceAt, List.take_succ_cons, List.drop_succ_cons, List.cons_append,
        List.length_cons] at this ⊢
      omega

theorem head?_replaceAt (h : findDoubleNewline s = some p) : (replaceAt s p).head? = s.head? := by
  cases s with
  | nil => simp [findDoubleNewline] at h
  | cons c rest =>
    unfold findDoubleNewline at h
    split_ifs at h with hc
    · cases h
      simp [replaceAt, hc.1]
    · obtain ⟨p, -, rfl⟩ := Option.map_eq_some'.mp h
      rfl

/-- Replacing the first `"\n\n"` by `"\n"` keeps the squeeze. -/
theorem squeeze_replaceAt (h : findDoubleNewline s = some p) :
    squeeze (replaceAt s p) = squeeze s := by
  induction s generalizing p with
  | nil => simp [findDoubleNewline] at h
  | cons c rest ih =>
    unfold findDoubleNewline at h
    split_ifs at h with hc
    · cases h
      obtain ⟨rfl, hr⟩ := hc
      obtain ⟨tail, rfl⟩ := List.head?_eq_some_iff.mp hr
      show squeeze ('\n' :: tail) = squeeze ('\n' :: '\n' :: tail)
      conv_rhs => unfold squeeze
      rw [if_pos ⟨rfl, rfl⟩]
    · obtain ⟨p, hp, rfl⟩ := Option.map_eq_some'.mp h
      have hstep : replaceAt (c :: rest) (p + 1) = c :: replaceAt rest p := rfl
      rw [hstep, squeeze, squeeze, head?_replaceAt hp, ih hp]

end Step

/-! ## The loop -/

theorem cleanUpBody_of_cond {s s' : List Char} (hc : cleanUpCond s = true)
    (hb : cleanUpBody s = .yield s') : ∃ p, findDoubleNewline s = some p ∧ s' = replaceAt s p := by
  obtain ⟨p, hp⟩ := Option.isSome_iff_exists.mp hc
  simp only [cleanUpBody, hp] at hb
  injection hb with hb
  exact ⟨p, hp, hb.symm⟩

theorem cleanUpBody_ne_done (s s' : List Char) : cleanUpBody s ≠ .done s' := by
  unfold cleanUpBody
  split <;> exact ForInStep.noConfusion

/-- **The clean-up loop squeezes the text.** It ends within one more iteration than the text
has characters, with the squeeze of the text: no `"\n\n"` is left, only newlines were dropped,
and every other character is kept in order. -/
theorem cleanUpNewlines_spec (fuel : Nat) (s : List Char) (h : s.length < fuel) :
    ∃ t, cleanUpNewlines fuel s = some t ∧ t = squeeze s ∧ findDoubleNewline t = none ∧
      t.Sublist s ∧ t.filter (· ≠ '\n') = s.filter (· ≠ '\n') := by
  have hsome : (cleanUpNewlines fuel s).isSome :=
    whileLoop_isSome_of_measure List.length (fun _ _ hc hb _ => by
      obtain ⟨_, hp, rfl⟩ := cleanUpBody_of_cond hc hb
      have := length_replaceAt hp
      omega) h
  obtain ⟨t, ht⟩ := Option.isSome_iff_exists.mp hsome
  have hsq : t = squeeze s :=
    whileLoop_induction (fun u => squeeze u = squeeze s) (fun u => u = squeeze s)
      (fun _ _ hc hi hb => by
        obtain ⟨_, hp, rfl⟩ := cleanUpBody_of_cond hc hb
        rw [squeeze_replaceAt hp, hi])
      (fun u u' _ _ hb => absurd hb (cleanUpBody_ne_done u u'))
      (fun u hc hi => by
        rw [← hi, squeeze_of_findDoubleNewline u (by simpa [cleanUpCond] using hc)])
      ht rfl
  subst hsq
  exact ⟨_, ht, rfl, findDoubleNewline_squeeze s, squeeze_sublist s, filter_squeeze s⟩

theorem cleanUpNewlines_spec_blank_lines :
    ("a\n\n\nb".data.length < 6) ∧ ∃ t, cleanUpNewlines 6 "a\n\n\nb".data = some t ∧
      t = squeeze "a\n\n\nb".data ∧ findDoubleNewline t = none ∧ t.Sublist "a\n\n\nb".data ∧
      t.filter (· ≠ '\n') = "a\n\n\nb".data.filter (· ≠ '\n') :=
  ⟨by decide, cleanUpNewlines_spec 6 "a\n\n\nb".data (by decide)⟩

/-- The configuration text is its two lines: there is no `"\n\n"` to clean up. -/
theorem getHumanReadableConfiguration_eq (fuel : Nat) (sharedLibs nonEssentialLogs : Bool) :
    getHumanReadableConfiguration fuel sharedLibs nonEssentialLogs =
      some ((if sharedLibs then " * SHARED (dynamic) library for implementation core\n"
          else " * STATIC library for implementation core\n") ++
        (if nonEssentialLogs then " + Non-essential trace logs\n"
          else " - Non-essential trace logs\n")) := by
  cases sharedLibs <;> cases nonEssentialLogs <;> cases fuel <;> rfl

end Monomux

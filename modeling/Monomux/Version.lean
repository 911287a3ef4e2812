import Mathlib.Data.Nat.Digits

/-!
# The version text

`getShortVersion` and `getFullVersion` (`src/src/core/Version.cpp`) print the version the build
was configured with: `MAJOR.MINOR`, then `.PATCH` when the patch or the build number is not zero,
then `.BUILD` when the build number is not zero; the full version adds `+OFFSET(COMMIT)` when the
build is past its tag or names a commit, and `-dirty!` for a build of a dirty tree.

* `decimal` is `operator<<` of an unsigned integer, and `readNumber_decimal`: a decimal number
  reads back from the front of a text when no digit follows it;
* `readShortVersion_getShortVersion`: the short version reads back to its four numbers;
* `full_version_round_trip`: `parseFullVersion` reads every field of the version back from
  `getFullVersion`, so that `getFullVersion_injective`: two versions with one text are one version.
-/

namespace Monomux

/-! ## The version and its text -/

/-- The version `getVersion()` reads from the build's macros. -/
structure Version where
  major : Nat
  minor : Nat
  patch : Nat
  build : Nat
  offset : Nat
  commit : String
  isDirty : Bool
  deriving DecidableEq, Repr

/-- `Buf << N` for an unsigned integer `N`: its decimal digits, most significant first. -/
def decimal (n : Nat) : List Char := Nat.toDigits 10 n

/-- `getShortVersion()` of the version `V`. -/
def getShortVersion (V : Version) : String :=
  let s := decimal V.major ++ '.' :: decimal V.minor
  let s := if V.patch ≠ 0 ∨ V.build ≠ 0 then s ++ '.' :: decimal V.patch else s
  ⟨if V.build ≠ 0 then s ++ '.' :: decimal V.build else s⟩

/-- `getFullVersion()` of the version `V`: the offset and the commit when the offset is not zero
or the commit is not empty, and `-dirty!` for a dirty tree. -/
def getFullVersion (V : Version) : String :=
  let s := (getShortVersion V).data
  let s := if V.offset ≠ 0 ∨ V.commit ≠ "" then
      s ++ '+' :: decimal V.offset ++ '(' :: V.commit.data ++ [')'] else s
  ⟨if V.isDirty then s ++ "-dirty!".data else s⟩

example : getFullVersion ⟨1, 2, 0, 5, 3, "abc", true⟩ = "1.2.0.5+3(abc)-dirty!" := by decide

/-! ## Reading the text back -/

/-- The value of a decimal digit. -/
def digitValue (c : Char) : Nat := c.toNat - '0'.toNat

/-- Reads the decimal number at the front of a text: its longest run of digits, which must not
be empty, and what follows it. -/
def readNumber (s : List Char) : Option (Nat × List Char) :=
  match s.span Char.isDigit with
  | ([], _) => none
  | (ds, rest) => some (Nat.ofDigits 10 (ds.reverse.map digitValue), rest)

/-- The text after a leading dot, if it has one. -/
def afterDot : List Char → Option (List Char)
  | c :: s => if c = '.' then some s else none
  | [] => none

/-- Reads a short version off the front of a text: two to four numbers with dots between them,
a number left out being zero. -/
def readShortVersion (s : List Char) : Option ((Nat × Nat × Nat × Nat) × List Char) := do
  let (major, s) ← readNumber s
  let s ← afterDot s
  let (minor, s) ← readNumber s
  match afterDot s with
  | none => pure ((major, minor, 0, 0), s)
  | some s =>
    let (patch, s) ← readNumber s
    match afterDot s with
    | none => pure ((major, minor, patch, 0), s)
    | some s =>
      let (build, s) ← readNumber s
      pure ((major, minor, patch, build), s)

/-- Reads what follows the `(` of a full version: the commit, up to the last `)`, and whether
`-dirty!` follows that. -/
def readCommit (s : List Char) : Option (String × Bool) :=
  match s.reverse with
  | '!' :: 'y' :: 't' :: 'r' :: 'i' :: 'd' :: '-' :: ')' :: c => some (⟨c.reverse⟩, true)
  | ')' :: c => some (⟨c.reverse⟩, false)
  | _ => none

/-- Reads what follows the short version in a full version: `+OFFSET(COMMIT)` when it is there,
and whether `-dirty!` ends the text. -/
def readExtras : List Char → Option (Nat × String × Bool)
  | '+' :: s => do
    let (offset, s) ← readNumber s
    match s with
    | '(' :: s => (readCommit s).map fun (commit, isDirty) => (offset, commit, isDirty)
    | _ => none
  | s =>
    if s = [] then some (0, "", false)
    else if s = "-dirty!".data then some (0, "", true)
    else none

/-- Reads a full version back. -/
def parseFullVersion (s : String) : Option Version := do
  let ((major, minor, patch, build), s) ← readShortVersion s.data
  let (offset, commit, isDirty) ← readExtras s
  pure ⟨major, minor, patch, build, offset, commit, isDirty⟩

/-! ## Decimal numbers read back -/

/-- `Nat.toDigitsCore` with enough fuel writes the digits of `n` in front of `ds`. -/
theorem toDigitsCore_eq (fuel n : Nat) (ds : List Char) (hn : 0 < n) (hf : n ≤ fuel) :
    Nat.toDigitsCore 10 fuel n ds = ((Nat.digits 10 n).map Nat.digitChar).reverse ++ ds := by
  induction fuel generalizing n ds with
  | zero => omega
  | succ f ih =>
    simp only [Nat.toDigitsCore]
    split_ifs with h
    · have hlt : n < 10 := by omega
      simp [Nat.digits_of_lt 10 n hn.ne' hlt, Nat.mod_eq_of_lt hlt]
    · rw [ih (n / 10) _ (Nat.pos_of_ne_zero h) (by omega), Nat.digits_def' (by norm_num) hn]
      simp

/-- The character of a decimal digit is a digit, of that value. -/
theorem digitChar_spec : ∀ d, d < 10 →
    (Nat.digitChar d).isDigit = true ∧ digitValue (Nat.digitChar d) = d := by
  decide

theorem decimal_of_pos {n : Nat} (hn : 0 < n) :
    decimal n = ((Nat.digits 10 n).map Nat.digitChar).reverse := by
  rw [decimal, Nat.toDigits, toDigitsCore_eq _ _ _ hn (Nat.le_succ n), List.append_nil]

theorem isDigit_of_mem_decimal {n : Nat} {c : Char} (hc : c ∈ decimal n) : c.isDigit = true := by
  rcases Nat.eq_zero_or_pos n with rfl | hn
  · obtain rfl : c = '0' := List.mem_singleton.mp hc
    rfl
  · rw [decimal_of_pos hn, List.mem_reverse, List.mem_map] at hc
    obtain ⟨d, hd, rfl⟩ := hc
    exact (digitChar_spec d (Nat.digits_lt_base (by norm_num) hd)).1

theorem ofDigits_decimal (n : Nat) :
    Nat.ofDigits 10 ((decimal n).reverse.map digitValue) = n := by
  rcases Nat.eq_zero_or_pos n with rfl | hn
  · rfl
  · rw [decimal_of_pos hn, List.reverse_reverse, List.map_map]
    conv_rhs => rw [← Nat.ofDigits_digits 10 n]
    congr 1
    exact (List.map_congr_left fun d hd =>
      (digitChar_spec d (Nat.digits_lt_base (by norm_num) hd)).2).trans (List.map_id _)

/-- **A decimal number reads back** from the front of a text when no digit follows it. -/
theorem readNumber_decimal (n : Nat) {rest : List Char}
    (h : ∀ c ∈ rest.head?, c.isDigit = false) :
    readNumber (decimal n ++ rest) = some (n, rest) := by
  have htw : rest.takeWhile Char.isDigit = [] ∧ rest.dropWhile Char.isDigit = rest := by
    rcases rest with _ | ⟨c, rest⟩
    · exact ⟨rfl, rfl⟩
    · simp [List.takeWhile_cons, List.dropWhile_cons, h c rfl]
  obtain ⟨c, cs, hcs⟩ : ∃ c cs, decimal n = c :: cs := List.exists_cons_of_ne_nil (by
    rcases Nat.eq_zero_or_pos n with rfl | hn
    · simp [decimal, Nat.toDigits, Nat.toDigitsCore]
    · simp [decimal_of_pos hn, Nat.digits_ne_nil_iff_ne_zero.mpr hn.ne'])
  have hdig : ∀ a ∈ decimal n, a.isDigit = true := fun _ => isDigit_of_mem_decimal
  rw [readNumber, List.span_eq_take_drop, List.takeWhile_append_of_pos hdig,
    List.dropWhile_append_of_pos hdig, htw.1, htw.2, List.append_nil, hcs]
  dsimp only
  rw [← hcs, ofDigits_decimal]

@[simp] theorem afterDot_dot (s : List Char) : afterDot ('.' :: s) = some s := rfl

theorem afterDot_eq_none {s : List Char} (h : ∀ c ∈ s.head?, c ≠ '.') : afterDot s = none := by
  rcases s with _ | ⟨c, s⟩
  · rfl
  · simp [afterDot, h c rfl]

/-! ## The version read back -/

/-- **The short version reads back** to its four numbers, from the front of a text when neither
a digit nor a dot follows it. -/
theorem readShortVersion_getShortVersion (V : Version) {rest : List Char}
    (h : ∀ c ∈ rest.head?, c.isDigit = false ∧ c ≠ '.') :
    readShortVersion ((getShortVersion V).data ++ rest) =
      some ((V.major, V.minor, V.patch, V.build), rest) := by
  have hdot : ∀ s : List Char, ∀ c ∈ ('.' :: s).head?, c.isDigit = false := by simp
  have hnum : ∀ c ∈ rest.head?, c.isDigit = false := fun c hc => (h c hc).1
  have hend : afterDot rest = none := afterDot_eq_none fun c hc => (h c hc).2
  by_cases hb : V.build = 0
  · by_cases hp : V.patch = 0 <;>
      simp [getShortVersion, hb, hp, readShortVersion, readNumber_decimal _ (hdot _),
        readNumber_decimal _ hnum, hend]
  · simp [getShortVersion, hb, readShortVersion, readNumber_decimal _ (hdot _),
      readNumber_decimal _ hnum]

theorem readCommit_close (c : List Char) : readCommit (c ++ [')']) = some (⟨c⟩, false) := by
  rw [readCommit, List.reverse_append]
  show some ((⟨c.reverse.reverse⟩ : String), false) = _
  rw [List.reverse_reverse]

theorem readCommit_dirty (c : List Char) :
    readCommit (c ++ ')' :: "-dirty!".data) = some (⟨c⟩, true) := by
  rw [readCommit, List.reverse_append]
  show some ((⟨c.reverse.reverse⟩ : String), true) = _
  rw [List.reverse_reverse]

/-- `+OFFSET(COMMIT)` reads back, and whether `-dirty!` follows it. -/
theorem readExtras_offset (offset : Nat) (commit : String) (isDirty : Bool) :
    readExtras ('+' :: (decimal offset ++ '(' :: (commit.data ++
      ')' :: if isDirty then "-dirty!".data else []))) = some (offset, commit, isDirty) := by
  rw [readExtras, readNumber_decimal offset (by simp)]
  show Option.map _ (readCommit _) = _
  cases isDirty
  · rw [if_neg Bool.false_ne_true, readCommit_close]
    rfl
  · rw [if_pos rfl, readCommit_dirty]
    rfl

/-- **The full version reads back.** `parseFullVersion` recovers every field of the version
from the text `getFullVersion` prints, whatever the commit's text. -/
theorem full_version_round_trip (V : Version) : parseFullVersion (getFullVersion V) = some V := by
  obtain ⟨M, m, P, B, O, C, d⟩ := V
  by_cases hx : O ≠ 0 ∨ C ≠ ""
  · -- the offset and the commit follow the short version
    have hdata : (getFullVersion ⟨M, m, P, B, O, C, d⟩).data =
        (getShortVersion ⟨M, m, P, B, O, C, d⟩).data ++
          '+' :: (decimal O ++ '(' :: (C.data ++ ')' :: if d then "-dirty!".data else [])) := by
      cases d <;> simp [getFullVersion, hx]
    rw [parseFullVersion, hdata, readShortVersion_getShortVersion _ (by simp)]
    show Option.bind (readExtras _) _ = _
    rw [readExtras_offset]
    rfl
  · -- only `-dirty!`, if anything, follows the short version
    obtain ⟨rfl, rfl⟩ : O = 0 ∧ C = "" := by simpa [not_or] using hx
    have hdata : (getFullVersion ⟨M, m, P, B, 0, "", d⟩).data =
        (getShortVersion ⟨M, m, P, B, 0, "", d⟩).data ++ if d then "-dirty!".data else [] := by
      cases d <;> simp [getFullVersion]
    rw [parseFullVersion, hdata, readShortVersion_getShortVersion _ (by cases d <;> simp)]
    cases d <;> rfl

/-- Two versions that print the same full version are the same version. -/
theorem getFullVersion_injective : Function.Injective getFullVersion := fun V W h =>
  Option.some.inj ((full_version_round_trip V).symm.trans (h ▸ full_version_round_trip W))

end Monomux

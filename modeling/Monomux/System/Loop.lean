import Mathlib.Order.Basic

/-!
# Loops with an iteration budget

The loops of `BufferedChannel` and of the unix `Pipe` are `while` loops whose body may `break`.
`whileLoop cond body fuel s` runs such a loop from `s` for at most `fuel` iterations: `some s'` is
the state the loop leaves with, and `none` says that the budget ran out. The budget is the model's
only addition to the code, and the lemmas here say that it does not change what a loop computes:

* `whileLoop_mono`: a loop that ends within a budget ends, in the same state, within any larger
  one;
* `whileLoop_isSome_of_measure`: a loop whose continuing iterations decrease a measure ends within
  the measure plus one iterations;
* `whileLoop_induction`: the Hoare rule. An invariant kept by the iterations that continue, and a
  postcondition reached by those that `break` and by a failed test, hold when the loop ends;
* `whileLoop_eq_none`: a loop that keeps a property under which it always continues never ends.
-/

namespace Monomux.System

variable {S : Type}

/-- `while (cond s) { s := body s }` for at most `fuel` iterations, where `body` returns
`.done s'` on a `break` and `.yield s'` otherwise. -/
def whileLoop (cond : S → Bool) (body : S → ForInStep S) : Nat → S → Option S
  | 0, s => if cond s then none else some s
  | fuel + 1, s =>
    if cond s then
      match body s with
      | .done s' => some s'
      | .yield s' => whileLoop cond body fuel s'
    else some s

variable {cond : S → Bool} {body : S → ForInStep S} {fuel : Nat} {s s' r : S}

@[simp]
theorem whileLoop_of_not_cond (h : cond s = false) : whileLoop cond body fuel s = some s := by
  cases fuel <;> simp [whileLoop, h]

theorem whileLoop_done (h : cond s = true) (hb : body s = .done s') :
    whileLoop cond body (fuel + 1) s = some s' := by
  simp [whileLoop, h, hb]

theorem whileLoop_yield (h : cond s = true) (hb : body s = .yield s') :
    whileLoop cond body (fuel + 1) s = whileLoop cond body fuel s' := by
  simp [whileLoop, h, hb]

/-- Extra budget does not change a loop that ended. -/
theorem whileLoop_mono (h : whileLoop cond body fuel s = some r) {fuel' : Nat}
    (hle : fuel ≤ fuel') : whileLoop cond body fuel' s = some r := by
  induction fuel generalizing s fuel' with
  | zero =>
    cases hc : cond s
    · simp_all
    · simp [whileLoop, hc] at h
  | succ fuel ih =>
    obtain ⟨fuel', rfl⟩ : ∃ f, fuel' = f + 1 := ⟨fuel' - 1, by omega⟩
    cases hc : cond s
    · simp_all
    · cases hb : body s with
      | done s' => rwa [whileLoop_done hc hb] at h ⊢
      | yield s' =>
        rw [whileLoop_yield hc hb] at h ⊢
        exact ih h (by omega)

/-- A loop ends within any budget above a measure that its continuing iterations decrease. -/
theorem whileLoop_isSome_of_measure (μ : S → Nat)
    (hμ : ∀ s s', cond s = true → body s = .yield s' → cond s' = true → μ s' < μ s)
    (h : μ s < fuel) : (whileLoop cond body fuel s).isSome := by
  induction fuel generalizing s with
  | zero => omega
  | succ fuel ih =>
    cases hc : cond s
    · simp [hc]
    · cases hb : body s with
      | done s' => simp [whileLoop_done hc hb]
      | yield s' =>
        rw [whileLoop_yield hc hb]
        cases hc' : cond s'
        · simp [hc']
        · exact ih (by have := hμ s s' hc hb hc'; omega)

/-- The Hoare rule of `whileLoop`. -/
theorem whileLoop_induction (Inv Post : S → Prop)
    (hyield : ∀ s s', cond s = true → Inv s → body s = .yield s' → Inv s')
    (hdone : ∀ s s', cond s = true → Inv s → body s = .done s' → Post s')
    (hexit : ∀ s, cond s = false → Inv s → Post s)
    (h : whileLoop cond body fuel s = some r) (hs : Inv s) : Post r := by
  induction fuel generalizing s with
  | zero =>
    cases hc : cond s
    · simp_all
    · simp [whileLoop, hc] at h
  | succ fuel ih =>
    cases hc : cond s
    · simp_all
    · cases hb : body s with
      | done s' =>
        rw [whileLoop_done hc hb, Option.some.injEq] at h
        exact h ▸ hdone s s' hc hs hb
      | yield s' =>
        rw [whileLoop_yield hc hb] at h
        exact ih h (hyield s s' hc hs hb)

/-- A loop never ends, whatever the budget, from a state of a set that it never leaves and in
which it always continues. -/
theorem whileLoop_eq_none (P : S → Prop)
    (hP : ∀ s, P s → cond s = true ∧ ∃ s', body s = .yield s' ∧ P s') (hs : P s) :
    whileLoop cond body fuel s = none := by
  induction fuel generalizing s with
  | zero => simp [whileLoop, (hP s hs).1]
  | succ fuel ih =>
    obtain ⟨hc, s', hb, hs'⟩ := hP s hs
    rw [whileLoop_yield hc hb]
    exact ih hs'

/-- The invariant of a loop holds when it ends, if it also holds after a `break`. -/
theorem whileLoop_inv (Inv : S → Prop)
    (hstep : ∀ s, cond s = true → Inv s → Inv (body s).value)
    (h : whileLoop cond body fuel s = some r) (hs : Inv s) : Inv r :=
  whileLoop_induction Inv Inv
    (fun s _ hc hi hb => by simpa [hb] using hstep s hc hi)
    (fun s _ hc hi hb => by simpa [hb] using hstep s hc hi)
    (fun _ _ hi => hi) h hs

end Monomux.System

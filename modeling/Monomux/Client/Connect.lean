import Mathlib.Data.List.Basic

/-!
# Connecting to the server

`client::connect(Opts, Block)` (`src/src/client/Main.cpp`) creates a client on the server's
socket. Unless asked to block, that is all; otherwise, while the creation fails, it counts up a
`HandshakeCounter` that starts at one, creates again, waits a second, and gives up with a message
once the counter reaches five, whatever that last creation gave.

`Client::create` is outside the sources: `connect` is modelled over the results its calls give,
and `none` says that the list ran out.

* `retryLoop_spec`: the retry loop from any counter below five;
* `connect_spec`: `connect` calls `Client::create` at most five times, returns the first client
  that one of the first four calls created, and prints its message exactly when there was none;
  a client made by the fifth call is dropped.
-/

namespace Monomux.Client

variable {α : Type}

/-- A run of `connect`: the client it returns, how many times it called `Client::create`, and
the lines it printed. -/
structure ConnectRun (α : Type) where
  result : Option α
  creates : Nat
  messages : List String
  deriving DecidableEq, Repr

/-- The retry loop of `connect`, with `HandshakeCounter` at `counter` and `c` the last creation's
result, over the results of the next calls to `Client::create`. -/
def retryLoop : Nat → Option α → List (Option α) → Option (ConnectRun α)
  | _, some c, _ => some ⟨some c, 0, []⟩
  | counter, none, r :: rs =>
    if counter + 1 = 5 then some ⟨none, 1, ["Connection failed after enough retries.\n"]⟩
    else (retryLoop (counter + 1) r rs).map fun run => { run with creates := run.creates + 1 }
  | _, none, [] => none

/-- `client::connect(Opts, Block)`, over the results the calls to `Client::create` give. -/
def connect (block : Bool) : List (Option α) → Option (ConnectRun α)
  | [] => none
  | c :: rs =>
    if !block then some ⟨c, 1, []⟩
    else (retryLoop 1 c rs).map fun run => { run with creates := run.creates + 1 }

/-- What the retry loop gives from a failed creation with the counter at `counter`: the first
client among the next `4 - counter` creations, after as many calls as it took, and the message
when there was none. -/
def RetrySpec (counter : Nat) (rs : List (Option α)) (run : ConnectRun α) : Prop :=
  run.result = (rs.take (4 - counter)).findSome? id ∧
    run.creates = min (rs.findIdx Option.isSome + 1) (5 - counter) ∧
    run.messages = if run.result.isSome then [] else ["Connection failed after enough retries.\n"]

/-- The retry loop ends from any counter below five when enough creations are left. -/
theorem retryLoop_spec (rs : List (Option α)) (counter : Nat) (h1 : 1 ≤ counter) (h5 : counter < 5)
    (hlen : 5 - counter ≤ rs.length) :
    ∃ run, retryLoop counter none rs = some run ∧ RetrySpec counter rs run := by
  induction rs generalizing counter with
  | nil => simp at hlen; omega
  | cons r rs ih =>
    by_cases h4 : counter + 1 = 5
    · obtain rfl : counter = 4 := by omega
      refine ⟨⟨none, 1, ["Connection failed after enough retries.\n"]⟩, by simp [retryLoop], ?_⟩
      simp [RetrySpec]
    · cases r with
      | some c =>
        refine ⟨⟨some c, 1, []⟩, by simp [retryLoop, h4], ?_⟩
        obtain ⟨k, hk⟩ : ∃ k, 4 - counter = k + 1 := ⟨3 - counter, by omega⟩
        simp [RetrySpec, hk, List.findIdx_cons]
        omega
      | none =>
        obtain ⟨run, hrun, hres, hcr, hmsg⟩ := ih (counter + 1) (by omega) (by omega)
          (by simp at hlen; omega)
        refine ⟨{ run with creates := run.creates + 1 }, by simp [retryLoop, h4, hrun], ?_⟩
        obtain ⟨k, hk⟩ : ∃ k, 4 - counter = k + 1 := ⟨3 - counter, by omega⟩
        have hk' : 4 - (counter + 1) = k := by omega
        refine ⟨?_, ?_, hmsg⟩
        · simp [hres, hk, hk']
        · simp only [hcr, List.findIdx_cons, Option.isSome_none, cond_false]
          omega

/-- **`connect` tries at most five times.** Without blocking it creates once and returns what it
got. Blocking, with enough results left, it returns the first client among the first four
creations after as many calls as it took, and otherwise prints its message after five calls,
dropping a client the fifth call made. -/
theorem connect_spec :
    (∀ (c : Option α) rs, connect false (c :: rs) = some ⟨c, 1, []⟩) ∧
    ∀ rs : List (Option α), 5 ≤ rs.length → ∃ run, connect true rs = some run ∧
      run.result = (rs.take 4).findSome? id ∧
      run.creates = min (rs.findIdx Option.isSome + 1) 5 ∧
      run.messages = if run.result.isSome then [] else ["Connection failed after enough retries.\n"] := by
  refine ⟨fun _ _ => rfl, fun rs hlen => ?_⟩
  obtain _ | ⟨c, rs⟩ := rs
  · simp at hlen
  cases c with
  | some c =>
    exact ⟨⟨some c, 1, []⟩, by simp [connect, retryLoop], by simp, by simp [List.findIdx_cons], rfl⟩
  | none =>
    obtain ⟨run, hrun, hres, hcr, hmsg⟩ := retryLoop_spec rs 1 le_rfl (by omega)
      (by simp at hlen; omega)
    refine ⟨{ run with creates := run.creates + 1 }, by simp [connect, hrun], by simp [hres], ?_,
      hmsg⟩
    simp only [hcr, List.findIdx_cons, Option.isSome_none, cond_false]
    omega

/-- A client that only the fifth creation makes is dropped. -/
example : connect true [none, none, none, none, some ()] =
    some ⟨none, 5, ["Connection failed after enough retries.\n"]⟩ := rfl

end Monomux.Client

import Monomux.System.BufferedChannel.Read

/-!
# When `read` and `load` call the handle again

`read(n)` serves a ring of at least `n` bytes without calling the handle. Otherwise it, and
`load(n)`, call `readImpl` again only after a full chunk: non-empty, of exactly
`optimalReadSize()` bytes, with `Continue` still set, and with fewer than `n` bytes gathered. So
a `read` or `load` that comes back short does so because its last chunk was empty or short or
cleared `Continue`, and a short `read` leaves the ring empty.

The loop invariants say that a loop either is still *running* (every call so far full, `Continue`
set, nothing put back) or has *stopped* on a last call that ends it (`ReadStopped`,
`LoadStopped`):

* `readStop_step`, `loadStop_step`: one iteration keeps that;
* `read_stops`, `load_stops`: what the operations' traces look like;
* `buffered_stopping_rule`: the three facts of the rule together.
-/

namespace Monomux.System

variable {σ : Type} (H : Handle σ)

namespace Event

/-- A `readImpl` call asked for `n` bytes that returned a non-empty chunk of all `n` and left
`Continue` set: the only call after which the reading loops may call again. -/
def FullRead (n : Nat) : Event → Prop
  | readImpl m c cont => m = n ∧ c ≠ [] ∧ c.length = n ∧ cont = true
  | writeImpl .. => False

/-- A `readImpl` call asked for `n` bytes that returned an empty or short chunk or cleared
`Continue`. -/
def ShortRead (n : Nat) : Event → Prop
  | readImpl m c cont => m = n ∧ (c = [] ∨ c.length < n ∨ cont = false)
  | writeImpl .. => False

end Event

/-- A call of a reading loop that is not full is short. -/
theorem readEvent_shortRead_of_not_fullRead {c : List UInt8} {cont : Bool}
    (hle : c.length ≤ H.optimalReadSize)
    (h : ¬(Event.readImpl H.optimalReadSize c cont).FullRead H.optimalReadSize) :
    (Event.readImpl H.optimalReadSize c cont).ShortRead H.optimalReadSize := by
  simp only [Event.FullRead, true_and, not_and] at h
  refine ⟨rfl, ?_⟩
  by_cases hc : c = []
  · exact .inl hc
  · by_cases hl : c.length = H.optimalReadSize
    · exact .inr (.inr (by simpa using h hc hl))
    · exact .inr (.inl (by omega))

/-- A list that ends in `e` splits there. -/
theorem append_singleton_inj {α : Type} {E E₁ : List α} {e last : α}
    (h : E ++ [e] = E₁ ++ [last]) : E₁ = E ∧ last = e := by
  obtain ⟨h₁, h₂⟩ := List.append_inj' h rfl
  exact ⟨h₁.symm, (List.singleton_inj.mp h₂).symm⟩

/-! ## `read` -/

/-- How `read`'s loop, asked for `n` bytes with `base` in the ring, has stopped: after full calls
`E` with fewer than `n` bytes in hand, on a call `last`, and, if it came back short, on a short
call with nothing put back. -/
def ReadStopped (n : Nat) (base : List UInt8) (tr : List Event) (s : ReadLoop σ) : Prop :=
  ∃ E last, s.trace = tr ++ E ++ [last] ∧ (∀ e ∈ E, e.FullRead H.optimalReadSize) ∧
    base.length + (fetched E).length < n ∧
    (s.ret.length < n → last.ShortRead H.optimalReadSize ∧ s.ring = [])

/-- `read`'s loop is still running: `Continue` set, nothing put back, every call full, and fewer
than `n` bytes in hand before the last one. -/
def ReadRunning (n : Nat) (base : List UInt8) (tr : List Event) (s : ReadLoop σ) : Prop :=
  s.cont = true ∧ s.ring = [] ∧ ∃ E, s.trace = tr ++ E ∧
    (∀ e ∈ E, e.FullRead H.optimalReadSize) ∧
    ∀ E₁ last, E = E₁ ++ [last] → base.length + (fetched E₁).length < n

/-- What `read`'s loop keeps on the way to its stop. -/
def ReadStop (n : Nat) (base : List UInt8) (tr : List Event) (s : ReadLoop σ) : Prop :=
  ReadLoopInv H n base tr s ∧
    (ReadRunning H n base tr s ∨ (readCond s = false ∧ ReadStopped H n base tr s))

section Read

variable {H}

theorem readBody_cont_eq_true {s : ReadLoop σ}
    (hne : (H.readImpl H.optimalReadSize s.handle).chunk ≠ []) :
    (readBody H s).value.cont = true ↔
      (H.readImpl H.optimalReadSize s.handle).chunk.length ≤ s.bytes ∧
        (readEvent H s).FullRead H.optimalReadSize := by
  have hle := H.readImpl_le H.optimalReadSize s.handle
  simp only [readEvent, Event.FullRead, true_and, ne_eq, hne, not_false_eq_true]
  dsimp only [readBody]
  rw [if_neg hne]
  split_ifs with h₁ h₂
  · simp only [ForInStep.value, Bool.false_eq_true, false_iff, not_and]
    exact fun h => absurd h (by omega)
  · simp only [ForInStep.value, Bool.false_eq_true, false_iff, not_and]
    exact fun _ h => absurd h (by omega)
  · exact ⟨fun h => ⟨by omega, by omega, h⟩, fun h => h.2.2⟩

/-- Only an empty chunk breaks out of `read`'s loop. -/
theorem readBody_eq_done {s s' : ReadLoop σ} (h : readBody H s = .done s') :
    (H.readImpl H.optimalReadSize s.handle).chunk = [] := by
  by_contra hne
  dsimp only [readBody] at h
  rw [if_neg hne] at h
  split_ifs at h

variable {n : Nat} {base : List UInt8} {tr : List Event} {s : ReadLoop σ}

/-- In a running loop, `Return` is what was in the ring followed by every chunk. -/
theorem ReadRunning.ret_eq (hi : ReadLoopInv H n base tr s) {E : List Event}
    (hE : s.trace = tr ++ E) (hring : s.ring = []) : s.ret = base ++ fetched E := by
  obtain ⟨⟨E', hE', -, hcons⟩, -⟩ := hi
  rw [hE, List.append_cancel_left_eq] at hE'
  simpa [hring, ← hE'] using hcons

theorem readStop_step (hc : readCond s = true) (hs : ReadStop H n base tr s) :
    (∀ s', readBody H s = .yield s' → ReadStop H n base tr s') ∧
      ∀ s', readBody H s = .done s' →
        ReadLoopInv H n base tr s' ∧ ReadStopped H n base tr s' := by
  obtain ⟨hi, ⟨-, hring, E, hE, hfull, -⟩ | ⟨hc', -⟩⟩ := hs
  swap
  · simp [hc] at hc'
  have hi' := readLoopInv_step H hc hi
  have hret := ReadRunning.ret_eq hi hE hring
  have hlen := hi.length_add
  have hlt : base.length + (fetched E).length < n := by
    rw [hret, List.length_append] at hlen; have := (readCond_eq_true.mp hc).2; omega
  have hle := H.readImpl_le H.optimalReadSize s.handle
  have htr : (readBody H s).value.trace = tr ++ E ++ [readEvent H s] := by simp [hE]
  by_cases hne : (H.readImpl H.optimalReadSize s.handle).chunk = []
  · -- an empty chunk breaks out of the loop
    refine ⟨fun s' hb => by simp [readBody, hne] at hb, fun s' hb => ?_⟩
    have hs' : s' = (readBody H s).value := by simp [hb]
    subst hs'
    exact ⟨hi', E, readEvent H s, htr, hfull, hlt,
      fun _ => ⟨⟨rfl, .inl hne⟩, by simp [hring, hne]⟩⟩
  refine ⟨fun s' hb => ?_, fun s' hb => absurd (readBody_eq_done hb) hne⟩
  have hs' : s' = (readBody H s).value := by simp [hb]
  subst hs'
  refine ⟨hi', ?_⟩
  by_cases hgo : (readBody H s).value.cont = true
  · -- a full chunk within the request: the loop runs on
    obtain ⟨hwithin, hfe⟩ := (readBody_cont_eq_true hne).mp hgo
    refine .inl ⟨hgo, ?_, E ++ [readEvent H s], by simp [hE], ?_, ?_⟩
    · simp [hring, readServed, min_eq_right hwithin]
    · simpa [or_imp, forall_and] using ⟨hfull, hfe⟩
    · intro E₁ last h
      obtain ⟨rfl, -⟩ := append_singleton_inj h
      exact hlt
  · -- any other chunk ends the loop
    refine .inr ⟨by simp [readCond, hgo], E, readEvent H s, htr, hfull, hlt, fun hshort => ?_⟩
    have hwithin : (H.readImpl H.optimalReadSize s.handle).chunk.length ≤ s.bytes := by
      by_contra hover
      simp only [readBody_ret, List.length_append, List.length_take, readServed] at hshort
      rw [hret, List.length_append] at hlen hshort
      omega
    rw [readBody_cont_eq_true hne, not_and] at hgo
    refine ⟨readEvent_shortRead_of_not_fullRead H hle (hgo hwithin), ?_⟩
    simp [hring, readServed, min_eq_right hwithin]

/-- A running loop whose test fails has gathered all `n` bytes, after at least one call. -/
theorem readStop_exit (hn : base.length < n) (hc : readCond s = false)
    (hs : ReadStop H n base tr s) : ReadLoopInv H n base tr s ∧ ReadStopped H n base tr s := by
  obtain ⟨hi, ⟨hcont, hring, E, hE, hfull, hpre⟩ | ⟨-, hstop⟩⟩ := hs
  · refine ⟨hi, ?_⟩
    have hb : s.bytes = 0 := by simpa [readCond, hcont] using hc
    have hlen := hi.length_add
    rw [hb, ReadRunning.ret_eq hi hE hring, List.length_append] at hlen
    rcases List.eq_nil_or_concat E with rfl | ⟨E₁, last, rfl⟩
    · simp at hlen; omega
    · rw [List.concat_eq_append] at hE hfull hpre
      exact ⟨E₁, last, by simp [hE], fun e he => hfull e (by simp [he]), hpre E₁ last rfl,
        fun h => absurd h (by have := hi.length_add; omega)⟩
  · exact ⟨hi, hstop⟩

variable {fuel : Nat} {ch : BufferedChannel σ} {res : Outcome σ (List UInt8)}

/-- A `read` that calls the handle makes full calls, with fewer than `n` bytes in hand after
them, and then one last call; if it comes back short, the last call was short and the ring is
empty. -/
theorem read_stops (hf : ch.failed = false) (hr : ch.readable = true)
    (hn : ch.readRing.length < n) (h : BufferedChannel.read H fuel n ch = some res) :
    ∃ E last, res.state.trace = ch.trace ++ E ++ [last] ∧
      (∀ e ∈ E, e.FullRead H.optimalReadSize) ∧ ch.readRing.length + (fetched E).length < n ∧
      ∀ ret, res = .ok ret res.state → ret.length < n →
        last.ShortRead H.optimalReadSize ∧ res.state.readRing = [] := by
  rw [read_of_lt hf hr hn, Option.map_eq_some'] at h
  obtain ⟨s, hs, rfl⟩ := h
  have hstart : ReadStop H n ch.readRing ch.trace (readStart n ch) :=
    ⟨readLoopInv_start hn, .inl ⟨rfl, rfl, [], by simp [readStart], by simp, by simp⟩⟩
  obtain ⟨-, E, last, htr, hfull, hlt, hshort⟩ := whileLoop_induction
    (ReadStop H n ch.readRing ch.trace)
    (fun s => ReadLoopInv H n ch.readRing ch.trace s ∧ ReadStopped H n ch.readRing ch.trace s)
    (fun _ s' hc hi hb => (readStop_step hc hi).1 s' hb)
    (fun _ s' hc hi hb => (readStop_step hc hi).2 s' hb)
    (fun _ hc hi => readStop_exit hn hc hi) hs hstart
  refine ⟨E, last, by simp only [state_checkOverflow]; split_ifs <;> exact htr, hfull, hlt,
    fun ret hret hlt' => ?_⟩
  obtain ⟨-, rfl, hst⟩ := checkOverflow_eq_ok.mp hret
  rw [hst]
  exact hshort hlt'

end Read

/-! ## `load` -/

section Load

/-- How `load`'s loop, asked for `n` bytes, has stopped: after full calls `E` that brought fewer
than `n` bytes, on a call `last` that was short if the loop came back short. -/
def LoadStopped (n : Nat) (tr : List Event) (s : LoadLoop σ) : Prop :=
  ∃ E last, s.trace = tr ++ E ++ [last] ∧ (∀ e ∈ E, e.FullRead H.optimalReadSize) ∧
    (fetched E).length < n ∧ (s.readBytes < n → last.ShortRead H.optimalReadSize)

/-- `load`'s loop is still running: `Continue` set, every call full, and fewer than `n` bytes
appended before the last one. -/
def LoadRunning (n : Nat) (tr : List Event) (s : LoadLoop σ) : Prop :=
  s.cont = true ∧ ∃ E, s.trace = tr ++ E ∧ (∀ e ∈ E, e.FullRead H.optimalReadSize) ∧
    s.readBytes = (fetched E).length ∧ ∀ E₁ last, E = E₁ ++ [last] → (fetched E₁).length < n

/-- What `load`'s loop keeps on the way to its stop: `Bytes` counts down what is still to be
appended. -/
def LoadStop (n : Nat) (tr : List Event) (s : LoadLoop σ) : Prop :=
  s.bytes = n - s.readBytes ∧
    (LoadRunning H n tr s ∨ (loadCond s = false ∧ LoadStopped H n tr s))

variable {H} {n : Nat} {tr : List Event} {s : LoadLoop σ}

theorem loadBody_cont_eq_true (hne : (H.readImpl H.optimalReadSize s.handle).chunk ≠ []) :
    (loadBody H s).value.cont = true ↔ (loadEvent H s).FullRead H.optimalReadSize := by
  have hle := H.readImpl_le H.optimalReadSize s.handle
  simp only [loadEvent, Event.FullRead, true_and, ne_eq, hne, not_false_eq_true]
  dsimp only [loadBody]
  rw [if_neg hne]
  split_ifs with h
  · simp only [ForInStep.value, Bool.false_eq_true, false_iff, not_and]
    exact fun h' => absurd h' (by omega)
  · exact ⟨fun h' => ⟨by omega, h'⟩, fun h' => h'.2⟩

/-- Only an empty chunk breaks out of `load`'s loop. -/
theorem loadBody_eq_done {s' : LoadLoop σ} (h : loadBody H s = .done s') :
    (H.readImpl H.optimalReadSize s.handle).chunk = [] := by
  by_contra hne
  simp [loadBody, hne] at h

theorem loadStop_step (hc : loadCond s = true) (hs : LoadStop H n tr s) :
    (∀ s', loadBody H s = .yield s' → LoadStop H n tr s') ∧
      ∀ s', loadBody H s = .done s' → LoadStopped H n tr s' := by
  obtain ⟨hbytes, ⟨-, E, hE, hfull, hrb, -⟩ | ⟨hc', -⟩⟩ := hs
  swap
  · simp [hc] at hc'
  have hlt : (fetched E).length < n := by have := (loadCond_eq_true.mp hc).2; omega
  have hle := H.readImpl_le H.optimalReadSize s.handle
  have htr : (loadBody H s).value.trace = tr ++ E ++ [loadEvent H s] := by simp [hE]
  by_cases hne : (H.readImpl H.optimalReadSize s.handle).chunk = []
  · -- an empty chunk breaks out of the loop
    refine ⟨fun s' hb => by simp [loadBody, hne] at hb, fun s' hb => ?_⟩
    have hs' : s' = (loadBody H s).value := by simp [hb]
    subst hs'
    exact ⟨E, loadEvent H s, htr, hfull, hlt, fun _ => ⟨rfl, .inl hne⟩⟩
  refine ⟨fun s' hb => ?_, fun s' hb => absurd (loadBody_eq_done hb) hne⟩
  have hs' : s' = (loadBody H s).value := by simp [hb]
  subst hs'
  refine ⟨by simp only [loadBody_bytes, loadBody_readBytes]; omega, ?_⟩
  by_cases hgo : (loadBody H s).value.cont = true
  · -- a full chunk: the loop runs on
    have hfe := (loadBody_cont_eq_true hne).mp hgo
    refine .inl ⟨hgo, E ++ [loadEvent H s], by simp [hE], ?_, by simp [hrb], ?_⟩
    · simpa [or_imp, forall_and] using ⟨hfull, hfe⟩
    · intro E₁ last h
      obtain ⟨rfl, -⟩ := append_singleton_inj h
      exact hlt
  · -- any other chunk ends the loop
    rw [loadBody_cont_eq_true hne] at hgo
    exact .inr ⟨by simp [loadCond, (loadBody_cont_eq_true hne).not.mpr hgo], E, loadEvent H s,
      htr, hfull, hlt, fun _ => readEvent_shortRead_of_not_fullRead H hle hgo⟩

/-- A running loop whose test fails has appended all `n` bytes, after at least one call. -/
theorem loadStop_exit (hn : 0 < n) (hc : loadCond s = false) (hs : LoadStop H n tr s) :
    LoadStopped H n tr s := by
  obtain ⟨hbytes, ⟨hcont, E, hE, hfull, hrb, hpre⟩ | ⟨-, hstop⟩⟩ := hs
  · have hb : s.bytes = 0 := by simpa [loadCond, hcont] using hc
    rcases List.eq_nil_or_concat E with rfl | ⟨E₁, last, rfl⟩
    · simp at hrb; omega
    · rw [List.concat_eq_append] at hE hfull hpre
      exact ⟨E₁, last, by simp [hE], fun e he => hfull e (by simp [he]), hpre E₁ last rfl,
        fun h => absurd h (by omega)⟩
  · exact hstop

variable {fuel : Nat} {ch : BufferedChannel σ} {res : Outcome σ Nat}

/-- A `load(0)` makes no call. Otherwise `load` makes full calls that bring fewer than `n` bytes,
then one last call, which was short if the load comes back short. -/
theorem load_stops (hf : ch.failed = false) (hr : ch.readable = true)
    (h : BufferedChannel.load H fuel n ch = some res) :
    (n = 0 ∧ res.state.trace = ch.trace) ∨
      ∃ E last, res.state.trace = ch.trace ++ E ++ [last] ∧
        (∀ e ∈ E, e.FullRead H.optimalReadSize) ∧ (fetched E).length < n ∧
        ∀ k, res = .ok k res.state → k < n → last.ShortRead H.optimalReadSize := by
  rw [load_eq hf hr, Option.map_eq_some'] at h
  obtain ⟨s, hs, rfl⟩ := h
  have htrace : (checkOverflow s.ring "(load)" true false s.readBytes
      { ch with readRing := s.ring, handle := s.handle, trace := s.trace }).state.trace =
      s.trace := by
    simp only [state_checkOverflow]; split_ifs <;> rfl
  rw [htrace]
  rcases Nat.eq_zero_or_pos n with rfl | hn
  · rw [whileLoop_of_not_cond (by simp [loadCond, loadStart])] at hs
    cases hs
    exact .inl ⟨rfl, rfl⟩
  have hstart : LoadStop H n ch.trace (loadStart n ch) :=
    ⟨by simp [loadStart], .inl ⟨rfl, [], by simp [loadStart], by simp, by simp [loadStart],
      by simp⟩⟩
  obtain ⟨E, last, htr, hfull, hlt, hshort⟩ := whileLoop_induction (LoadStop H n ch.trace)
    (LoadStopped H n ch.trace)
    (fun _ s' hc hi hb => (loadStop_step hc hi).1 s' hb)
    (fun _ s' hc hi hb => (loadStop_step hc hi).2 s' hb)
    (fun _ hc hi => loadStop_exit hn hc hi) hs hstart
  refine .inr ⟨E, last, htr, hfull, hlt, fun k hk hlt' => ?_⟩
  obtain ⟨-, rfl, -⟩ := checkOverflow_eq_ok.mp hk
  exact hshort hlt'

end Load

/-- **`read` and `load` neither over-read nor stop early.** `read(n)` on a ring of at least `n`
bytes returns its first `n` bytes without a call to the handle. Otherwise `read(n)` and `load(n)`
make `readImpl` calls that are all full (a non-empty chunk of `optimalReadSize()` bytes, with
`Continue` left set) and leave fewer than `n` bytes gathered or appended, and then one last call
(none for `load(0)`). A `read(n)` that returns fewer than `n` bytes, and a `load(n)` that appends
fewer than `n`, end on a call that returned an empty or short chunk or cleared `Continue`, and
the short `read` leaves the ring empty. -/
theorem buffered_stopping_rule (H : Handle σ) (fuel : Nat) :
    (∀ (ch : BufferedChannel σ) n, ch.failed = false → ch.readable = true →
        n ≤ ch.readRing.length →
        BufferedChannel.read H fuel n ch =
          some (.ok (ch.readRing.take n) { ch with readRing := ch.readRing.drop n })) ∧
      (∀ (ch : BufferedChannel σ) n res, ch.failed = false → ch.readable = true →
        ch.readRing.length < n → BufferedChannel.read H fuel n ch = some res →
        ∃ E last, res.state.trace = ch.trace ++ E ++ [last] ∧
          (∀ e ∈ E, e.FullRead H.optimalReadSize) ∧
          ch.readRing.length + (fetched E).length < n ∧
          ∀ ret, res = .ok ret res.state → ret.length < n →
            last.ShortRead H.optimalReadSize ∧ res.state.readRing = []) ∧
      (∀ (ch : BufferedChannel σ) n res, ch.failed = false → ch.readable = true →
        BufferedChannel.load H fuel n ch = some res →
        (n = 0 ∧ res.state.trace = ch.trace) ∨
          ∃ E last, res.state.trace = ch.trace ++ E ++ [last] ∧
            (∀ e ∈ E, e.FullRead H.optimalReadSize) ∧ (fetched E).length < n ∧
            ∀ k, res = .ok k res.state → k < n → last.ShortRead H.optimalReadSize) :=
  ⟨fun _ _ hf hr hn => read_of_le hf hr hn, fun _ _ _ hf hr hn h => read_stops hf hr hn h,
    fun _ _ _ hf hr h => load_stops hf hr h⟩

theorem buffered_stopping_rule_straddle :
    ∃ res, BufferedChannel.read (Handle.loopback 2) 3 3
        ⟨"", false, true, true, [], [], [1, 2, 3, 4], []⟩ = some res ∧
      res = .ok [1, 2, 3] ⟨"", false, true, true, [4], [], [],
        [.readImpl 2 [1, 2] true, .readImpl 2 [3, 4] true]⟩ ∧
      ∃ E last, res.state.trace = [] ++ E ++ [last] ∧
        (∀ e ∈ E, e.FullRead (Handle.loopback 2).optimalReadSize) ∧
        0 + (fetched E).length < 3 ∧
        ∀ ret, res = .ok ret res.state → ret.length < 3 →
          last.ShortRead (Handle.loopback 2).optimalReadSize ∧ res.state.readRing = [] :=
  have h : BufferedChannel.read (Handle.loopback 2) 3 3
      ⟨"", false, true, true, [], [], [1, 2, 3, 4], []⟩ = some (.ok [1, 2, 3]
        ⟨"", false, true, true, [4], [], [], [.readImpl 2 [1, 2] true, .readImpl 2 [3, 4] true]⟩) :=
    rfl
  ⟨_, h, rfl, (buffered_stopping_rule _ 3).2.1 ⟨"", false, true, true, [], [], [1, 2, 3, 4], []⟩ 3 _
    rfl rfl (by decide) h⟩

end Monomux.System

import Monomux.System.BufferedChannel.Read
import Monomux.System.BufferedChannel.Write

/-!
# Runs of a channel

A run is a sequence of calls of the public operations, each made on the channel the previous one
left, whether it returned or threw (a caller that catches an `OverflowError` may go on). The
theorems here follow a channel along every run:

* `exec_writeSide`, `exec_readSide`: one call keeps the write-side and the read-side byte
  accounting; a call that its checks refuse changes nothing (`exec_refused`), so the write side
  counts only the data of the calls they let through (`exec_writeSide_accepted`);
* `exec_bounded`: one call keeps both rings within `BufferSizeMax`, or is a `write` or `load` that
  overflows, and then leaves the channel failed (`exec_overflowed_failed`);
* `run_writeSide`, `run_writeSide_accepted`, `run_readSide`, `run_bounded`: the same over a whole
  run, by induction on it.
-/

namespace Monomux.System

variable {σ : Type}

/-- `f` applied to an operation's value, leaving an exception as it is. -/
def Outcome.map {α β : Type} (f : α → β) : Outcome σ α → Outcome σ β
  | .ok a ch => .ok (f a) ch
  | .error e ch => .error e ch

/-- An operation's value or exception, without the channel. -/
def Outcome.value {α : Type} : Outcome σ α → Except ChannelError α
  | .ok a _ => .ok a
  | .error e _ => .error e

@[simp] theorem Outcome.state_map {α β : Type} (f : α → β) (res : Outcome σ α) :
    (res.map f).state = res.state := by cases res <;> rfl

@[simp] theorem Outcome.value_map {α β : Type} (f : α → β) (res : Outcome σ α) :
    (res.map f).value = (f <$> res.value) := by cases res <;> rfl

/-- A call of one of the channel's operations. -/
inductive Call
  | read (bytes : Nat)
  | load (bytes : Nat)
  | write (data : List UInt8)
  | flushWrites
  deriving DecidableEq, Repr

/-- What a call returns. -/
inductive Reply
  | bytes (b : List UInt8)
  | count (n : Nat)
  deriving DecidableEq, Repr

/-- The data a call hands to the channel to send. -/
def Call.writeData : Call → List UInt8
  | .write d => d
  | _ => []

/-- The bytes a call's result hands to the caller. -/
def Reply.bytesRead : Except ChannelError Reply → List UInt8
  | .ok (.bytes b) => b
  | _ => []

/-- A call that returned, or threw an `OverflowError`: one its checks did not refuse. -/
def ReturnsOrOverflows : Except ChannelError Reply → Prop
  | .ok _ => True
  | .error e => e.IsOverflow

/-- The data of a call that its checks let through: a call they refuse drops its data. -/
def Call.acceptedData (c : Call) : Except ChannelError Reply → List UInt8
  | .ok _ => c.writeData
  | .error e => if e.IsOverflow then c.writeData else []

theorem Call.acceptedData_of_returnsOrOverflows {c : Call} {o : Except ChannelError Reply}
    (h : ReturnsOrOverflows o) : c.acceptedData o = c.writeData := by
  cases o <;> simp_all [Call.acceptedData, ReturnsOrOverflows]

theorem Call.acceptedData_of_refused {c : Call} {o : Except ChannelError Reply}
    (h : ¬ReturnsOrOverflows o) : c.acceptedData o = [] := by
  cases o <;> simp_all [Call.acceptedData, ReturnsOrOverflows]

theorem Reply.bytesRead_of_refused {o : Except ChannelError Reply} (h : ¬ReturnsOrOverflows o) :
    Reply.bytesRead o = [] := by
  cases o <;> simp_all [Reply.bytesRead, ReturnsOrOverflows]

/-- A call that threw an `OverflowError`. -/
def Overflowed : Except ChannelError Reply → Prop
  | .ok _ => False
  | .error e => e.IsOverflow

/-- Makes a call on the channel, with at most `fuel` iterations of each loop it runs. -/
def Call.exec (H : Handle σ) (fuel : Nat) : Call → BufferedChannel σ → Option (Outcome σ Reply)
  | .read n, ch => (BufferedChannel.read H fuel n ch).map (Outcome.map .bytes)
  | .load n, ch => (BufferedChannel.load H fuel n ch).map (Outcome.map .count)
  | .write d, ch => (BufferedChannel.write H fuel d ch).map (Outcome.map .count)
  | .flushWrites, ch => (BufferedChannel.flushWrites H fuel ch).map (Outcome.map .count)

/-- Makes the calls one after another, each on the channel the previous one left; returns what
each call returned or threw, and the channel at the end. -/
def run (H : Handle σ) (fuel : Nat) :
    List Call → BufferedChannel σ → Option (List (Except ChannelError Reply) × BufferedChannel σ)
  | [], ch => some ([], ch)
  | c :: cs, ch =>
    match c.exec H fuel ch with
    | none => none
    | some res => (run H fuel cs res.state).map fun p => (res.value :: p.1, p.2)

variable {H : Handle σ} {fuel : Nat}

theorem run_cons {c : Call} {cs : List Call} {ch ch' : BufferedChannel σ}
    {outs : List (Except ChannelError Reply)} :
    run H fuel (c :: cs) ch = some (outs, ch') ↔
      ∃ res outs', c.exec H fuel ch = some res ∧ run H fuel cs res.state = some (outs', ch') ∧
        outs = res.value :: outs' := by
  simp only [run]
  cases c.exec H fuel ch with
  | none => simp
  | some res =>
    simp only [Option.map_eq_some', Prod.exists, Prod.mk.injEq, Option.some.injEq]
    constructor
    · rintro ⟨outs', ch'', h, rfl, rfl⟩; exact ⟨res, outs', rfl, h, rfl⟩
    · rintro ⟨res, outs', rfl, h, rfl⟩; exact ⟨outs', ch', h, rfl, rfl⟩

/-- Every call on a failed channel throws `Channel has failed.` and changes nothing. -/
theorem exec_of_failed {c : Call} {ch : BufferedChannel σ} (hf : ch.failed = true) :
    c.exec H fuel ch = some (.error channelFailed ch) := by
  cases c <;> simp [Call.exec, read_of_failed hf, load_of_failed hf, write_of_failed hf,
    flushWrites_of_failed hf, Outcome.map]

/-- A call that is not refused runs on a channel that has not failed and has the ring it needs. -/
theorem exec_admitted {c : Call} {ch : BufferedChannel σ} {res : Outcome σ Reply}
    (h : c.exec H fuel ch = some res) (hr : ReturnsOrOverflows res.value) :
    ch.failed = false ∧ (∀ n, (c = .read n ∨ c = .load n) → ch.readable = true) ∧
      ((∃ d, c = .write d) ∨ c = .flushWrites → ch.writable = true) := by
  have refused : ∀ e, res = .error e ch → e = channelFailed ∨ e = noRead ∨ e = noWrite → False :=
    fun e he hne => by
      subst he
      rcases hne with rfl | rfl | rfl <;> simp [ReturnsOrOverflows, Outcome.value,
        channelFailed, noRead, noWrite, ChannelError.IsOverflow] at hr
  cases hf : ch.failed
  · refine ⟨rfl, fun n hc => ?_, fun hc => ?_⟩
    · cases hrd : ch.readable
      · rcases hc with rfl | rfl
        · simp [Call.exec, read_of_not_readable hf hrd, Outcome.map] at h
          exact (refused _ h.symm (by simp)).elim
        · simp [Call.exec, load_of_not_readable hf hrd, Outcome.map] at h
          exact (refused _ h.symm (by simp)).elim
      · rfl
    · cases hw : ch.writable
      · rcases hc with ⟨d, rfl⟩ | rfl
        · simp [Call.exec, write_of_not_writable hf hw, Outcome.map] at h
          exact (refused _ h.symm (by simp)).elim
        · simp [Call.exec, flushWrites_of_not_writable hf hw, Outcome.map] at h
          exact (refused _ h.symm (by simp)).elim
      · rfl
  · rw [exec_of_failed hf, Option.some.injEq] at h
    exact (refused _ h.symm (by simp)).elim

/-- The operations' results, once their checks pass: a value or an `OverflowError`. -/
theorem checkOverflow_returnsOrOverflows {α : Type} (f : α → Reply) (ring : List UInt8)
    (tag : String) (read write : Bool) (a : α) (ch : BufferedChannel σ) :
    ReturnsOrOverflows ((checkOverflow ring tag read write a ch).map f).value := by
  unfold checkOverflow overflow
  split_ifs <;> simp [Outcome.map, Outcome.value, ReturnsOrOverflows, ChannelError.IsOverflow]

/-- **A refused call changes nothing**: a call that neither returns nor overflows was stopped by
its checks (a failed channel, or a missing ring) and leaves the channel as it was. -/
theorem exec_refused {c : Call} {ch : BufferedChannel σ} {res : Outcome σ Reply}
    (h : c.exec H fuel ch = some res) (hr : ¬ReturnsOrOverflows res.value) : res.state = ch := by
  cases hf : ch.failed
  · cases c with
    | read n =>
      simp only [Call.exec, Option.map_eq_some'] at h
      obtain ⟨r, hr', rfl⟩ := h
      cases hrd : ch.readable
      · rw [read_of_not_readable hf hrd, Option.some.injEq] at hr'
        subst hr'; rfl
      · rcases read_spec hf hrd hr' with ⟨-, rfl⟩ | ⟨-, s, -, rfl⟩
        · simp [Outcome.map, Outcome.value, ReturnsOrOverflows] at hr
        · exact (hr (checkOverflow_returnsOrOverflows ..)).elim
    | load n =>
      simp only [Call.exec, Option.map_eq_some'] at h
      obtain ⟨r, hr', rfl⟩ := h
      cases hrd : ch.readable
      · rw [load_of_not_readable hf hrd, Option.some.injEq] at hr'
        subst hr'; rfl
      · obtain ⟨s, -, -, rfl⟩ := load_spec hf hrd hr'
        exact (hr (checkOverflow_returnsOrOverflows ..)).elim
    | write d =>
      simp only [Call.exec, Option.map_eq_some'] at h
      obtain ⟨r, hr', rfl⟩ := h
      cases hw : ch.writable
      · rw [write_of_not_writable hf hw, Option.some.injEq] at hr'
        subst hr'; rfl
      · obtain ⟨k, f, E, ring', h', rfl, -⟩ := write_spec hf hw hr'
        exact (hr (checkOverflow_returnsOrOverflows ..)).elim
    | flushWrites =>
      simp only [Call.exec, Option.map_eq_some'] at h
      obtain ⟨r, hr', rfl⟩ := h
      cases hw : ch.writable
      · rw [flushWrites_of_not_writable hf hw, Option.some.injEq] at hr'
        subst hr'; rfl
      · obtain ⟨k, E, h', rfl, -⟩ := flushWrites_spec hf hw hr'
        simp [Outcome.map, Outcome.value, ReturnsOrOverflows] at hr
  · rw [exec_of_failed hf, Option.some.injEq] at h
    rw [← h]; rfl

/-- **One call keeps the write-side accounting**: the bytes it handed to the handle, followed by
the write ring, are the old write ring followed by the data the call was given. -/
theorem exec_writeSide {c : Call} {ch : BufferedChannel σ} {res : Outcome σ Reply}
    (h : c.exec H fuel ch = some res) (hr : ReturnsOrOverflows res.value) :
    ∃ E, res.state.trace = ch.trace ++ E ∧
      transmitted E ++ res.state.writeRing = ch.writeRing ++ c.writeData := by
  obtain ⟨hf, hrd, hw⟩ := exec_admitted h hr
  cases c with
  | read n =>
    simp only [Call.exec, Option.map_eq_some'] at h
    obtain ⟨r, hr', rfl⟩ := h
    obtain ⟨E, hst, htx⟩ := read_frame hf (hrd n (.inl rfl)) hr'
    rw [Outcome.state_map, hst]
    exact ⟨E, rfl, by simp [htx, Call.writeData]⟩
  | load n =>
    simp only [Call.exec, Option.map_eq_some'] at h
    obtain ⟨r, hr', rfl⟩ := h
    obtain ⟨E, hst, htx⟩ := load_state hf (hrd n (.inr rfl)) hr'
    rw [Outcome.state_map, hst]
    exact ⟨E, rfl, by simp [htx, Call.writeData]⟩
  | write d =>
    simp only [Call.exec, Option.map_eq_some'] at h
    obtain ⟨r, hr', rfl⟩ := h
    obtain ⟨E, hst, -, hcons⟩ := write_state hf (hw (.inl ⟨d, rfl⟩)) hr'
    rw [Outcome.state_map]
    exact ⟨E, by rw [hst], hcons⟩
  | flushWrites =>
    simp only [Call.exec, Option.map_eq_some'] at h
    obtain ⟨r, hr', rfl⟩ := h
    obtain ⟨E, hst, -, hcons, -⟩ := flushWrites_state hf (hw (.inr rfl)) hr'
    rw [Outcome.state_map]
    exact ⟨E, by rw [hst], by simpa [Call.writeData] using hcons⟩

/-- **One call keeps the write-side accounting, refused or not**: the bytes it handed to the
handle, followed by the write ring, are the old write ring followed by the data its checks let
through. -/
theorem exec_writeSide_accepted {c : Call} {ch : BufferedChannel σ} {res : Outcome σ Reply}
    (h : c.exec H fuel ch = some res) :
    ∃ E, res.state.trace = ch.trace ++ E ∧
      transmitted E ++ res.state.writeRing = ch.writeRing ++ c.acceptedData res.value := by
  by_cases hr : ReturnsOrOverflows res.value
  · rw [Call.acceptedData_of_returnsOrOverflows hr]
    exact exec_writeSide h hr
  · rw [Call.acceptedData_of_refused hr, exec_refused h hr]
    exact ⟨[], by simp, by simp [transmitted]⟩

theorem exec_readSide_of_admitted (hC : H.optimalReadSize ≤ BufferSizeMax) {c : Call}
    {ch : BufferedChannel σ} {res : Outcome σ Reply}
    (h : c.exec H fuel ch = some res) (hr : ReturnsOrOverflows res.value) :
    ∃ E, res.state.trace = ch.trace ++ E ∧
      Reply.bytesRead res.value ++ res.state.readRing = ch.readRing ++ fetched E := by
  obtain ⟨hf, hrd, hw⟩ := exec_admitted h hr
  cases c with
  | read n =>
    simp only [Call.exec, Option.map_eq_some'] at h
    obtain ⟨r, hr', rfl⟩ := h
    obtain ⟨ret, hret, -⟩ := read_returns hC hf (hrd n (.inl rfl)) hr'
    rw [hret] at hr'
    obtain ⟨E, hst, -, hcons, -⟩ := read_ok hr'
    rw [hret]
    exact ⟨E, by simp only [Outcome.state_map, Outcome.state_ok]; rw [hst], hcons⟩
  | load n =>
    simp only [Call.exec, Option.map_eq_some'] at h
    obtain ⟨r, hr', rfl⟩ := h
    obtain ⟨E, hst, -⟩ := load_state hf (hrd n (.inr rfl)) hr'
    rw [Outcome.state_map, hst]
    refine ⟨E, rfl, ?_⟩
    cases r <;> simp [Outcome.map, Outcome.value, Reply.bytesRead]
  | write d =>
    simp only [Call.exec, Option.map_eq_some'] at h
    obtain ⟨r, hr', rfl⟩ := h
    obtain ⟨E, hst, hwc, -⟩ := write_state hf (hw (.inl ⟨d, rfl⟩)) hr'
    rw [Outcome.state_map, hst]
    refine ⟨E, rfl, ?_⟩
    cases r <;> simp [Outcome.map, Outcome.value, Reply.bytesRead, hwc.fetched_eq]
  | flushWrites =>
    simp only [Call.exec, Option.map_eq_some'] at h
    obtain ⟨r, hr', rfl⟩ := h
    obtain ⟨E, hst, hwc, -⟩ := flushWrites_state hf (hw (.inr rfl)) hr'
    rw [Outcome.state_map, hst]
    refine ⟨E, rfl, ?_⟩
    cases r <;> simp [Outcome.map, Outcome.value, Reply.bytesRead, hwc.fetched_eq]

/-- **One call keeps the read-side accounting**: the bytes it returned, followed by the read
ring, are the old read ring followed by the bytes `readImpl` returned during the call. A call
that its checks refuse returns nothing and changes nothing. -/
theorem exec_readSide (hC : H.optimalReadSize ≤ BufferSizeMax) {c : Call}
    {ch : BufferedChannel σ} {res : Outcome σ Reply} (h : c.exec H fuel ch = some res) :
    ∃ E, res.state.trace = ch.trace ++ E ∧
      Reply.bytesRead res.value ++ res.state.readRing = ch.readRing ++ fetched E := by
  by_cases hr : ReturnsOrOverflows res.value
  · exact exec_readSide_of_admitted hC h hr
  · rw [Reply.bytesRead_of_refused hr, exec_refused h hr]
    exact ⟨[], by simp, by simp [fetched]⟩

/-! ## The ring bounds -/

/-- Both rings hold at most `BufferSizeMax` bytes. -/
def Bounded (ch : BufferedChannel σ) : Prop :=
  ch.readRing.length ≤ BufferSizeMax ∧ ch.writeRing.length ≤ BufferSizeMax

/-- The call is a `write` and the write ring, or a `load` and the read ring, holds more than
`BufferSizeMax` bytes in `ch`. -/
def Call.Overflows : Call → BufferedChannel σ → Prop
  | .write _, ch => BufferSizeMax < ch.writeRing.length
  | .load _, ch => BufferSizeMax < ch.readRing.length
  | _, _ => False

theorem overflowed_checkOverflow {α : Type} (f : α → Reply) (ring : List UInt8) (tag : String)
    (read write : Bool) (a : α) (ch : BufferedChannel σ) :
    Overflowed ((checkOverflow ring tag read write a ch).map f).value ↔
      BufferSizeMax < ring.length := by
  unfold checkOverflow overflow
  split_ifs <;> simp [Outcome.map, Outcome.value, Overflowed, ChannelError.IsOverflow, *]

theorem ReturnsOrOverflows.of_overflowed {o : Except ChannelError Reply} (h : Overflowed o) :
    ReturnsOrOverflows o := by
  cases o <;> simp_all [Overflowed, ReturnsOrOverflows]

/-- **One call keeps the rings bounded**: from a channel whose rings are within
`BufferSizeMax`, a call throws an `OverflowError` exactly when it is a `write` or a `load` whose
ring is past `BufferSizeMax` at its end, and otherwise leaves both rings within it. -/
theorem exec_bounded (hC : H.optimalReadSize ≤ BufferSizeMax) {c : Call}
    {ch : BufferedChannel σ} {res : Outcome σ Reply} (hb : Bounded ch)
    (h : c.exec H fuel ch = some res) :
    (Overflowed res.value ↔ c.Overflows res.state) ∧
      (¬Overflowed res.value → Bounded res.state) := by
  by_cases hr : ReturnsOrOverflows res.value
  · obtain ⟨hf, hrd, hw⟩ := exec_admitted h hr
    cases c with
    | read n =>
      simp only [Call.exec, Option.map_eq_some'] at h
      obtain ⟨r, hr', rfl⟩ := h
      obtain ⟨ret, hret, hring⟩ := read_returns hC hf (hrd n (.inl rfl)) hr'
      obtain ⟨E, hst, -⟩ := read_frame hf (hrd n (.inl rfl)) hr'
      rw [hret]
      simp only [Outcome.map, Outcome.value, Overflowed, Outcome.state_ok, Call.Overflows,
        iff_self, not_false_eq_true, forall_const, true_and]
      refine ⟨by have := hb.1; rcases hring with h | h <;> omega, ?_⟩
      rw [hst]
      exact hb.2
    | load n =>
      simp only [Call.exec, Option.map_eq_some'] at h
      obtain ⟨r, hr', rfl⟩ := h
      obtain ⟨s, -, -, rfl⟩ := load_spec hf (hrd n (.inr rfl)) hr'
      simp only [overflowed_checkOverflow, Outcome.state_map, state_checkOverflow]
      split_ifs with ho <;> simp [Call.Overflows, Bounded, ho, hb.2]
      omega
    | write d =>
      simp only [Call.exec, Option.map_eq_some'] at h
      obtain ⟨r, hr', rfl⟩ := h
      obtain ⟨k, f, E, ring', h', rfl, -⟩ := write_spec hf (hw (.inl ⟨d, rfl⟩)) hr'
      simp only [overflowed_checkOverflow, Outcome.state_map, state_checkOverflow]
      split_ifs with ho <;> simp [Call.Overflows, Bounded, ho, hb.1]
      omega
    | flushWrites =>
      simp only [Call.exec, Option.map_eq_some'] at h
      obtain ⟨r, hr', rfl⟩ := h
      obtain ⟨k, E, h', rfl, -⟩ := flushWrites_spec hf (hw (.inr rfl)) hr'
      simp only [Outcome.map, Outcome.value, Overflowed, Outcome.state_ok, Call.Overflows,
        iff_self, not_false_eq_true, forall_const, true_and]
      exact ⟨hb.1, by have := hb.2; simp; omega⟩
  · have hst := exec_refused h hr
    have ho : ¬Overflowed res.value := fun ho => hr (ReturnsOrOverflows.of_overflowed ho)
    refine ⟨⟨fun h => (ho h).elim, fun hc => ?_⟩, fun _ => hst ▸ hb⟩
    rw [hst] at hc
    cases c <;> simp_all [Call.Overflows, Bounded] <;> omega

theorem failed_of_overflowed_checkOverflow {α : Type} {f : α → Reply} {ring : List UInt8}
    {tag : String} {read write : Bool} {a : α} {ch : BufferedChannel σ}
    (ho : Overflowed ((checkOverflow ring tag read write a ch).map f).value) :
    ((checkOverflow ring tag read write a ch).map f).state.failed = true := by
  rw [overflowed_checkOverflow] at ho
  simp [ho]

/-- **A call that overflows fails the channel**, which then refuses every later call. -/
theorem exec_overflowed_failed {c : Call} {ch : BufferedChannel σ} {res : Outcome σ Reply}
    (h : c.exec H fuel ch = some res) (ho : Overflowed res.value) : res.state.failed = true := by
  obtain ⟨hf, hrd, hw⟩ := exec_admitted h (.of_overflowed ho)
  cases c with
  | read n =>
    simp only [Call.exec, Option.map_eq_some'] at h
    obtain ⟨r, hr', rfl⟩ := h
    rcases read_spec hf (hrd n (.inl rfl)) hr' with ⟨-, rfl⟩ | ⟨-, s, -, rfl⟩
    · simp [Outcome.map, Outcome.value, Overflowed] at ho
    · exact failed_of_overflowed_checkOverflow ho
  | load n =>
    simp only [Call.exec, Option.map_eq_some'] at h
    obtain ⟨r, hr', rfl⟩ := h
    obtain ⟨s, -, -, rfl⟩ := load_spec hf (hrd n (.inr rfl)) hr'
    exact failed_of_overflowed_checkOverflow ho
  | write d =>
    simp only [Call.exec, Option.map_eq_some'] at h
    obtain ⟨r, hr', rfl⟩ := h
    obtain ⟨k, f, E, ring', h', rfl, -⟩ := write_spec hf (hw (.inl ⟨d, rfl⟩)) hr'
    exact failed_of_overflowed_checkOverflow ho
  | flushWrites =>
    simp only [Call.exec, Option.map_eq_some'] at h
    obtain ⟨r, hr', rfl⟩ := h
    obtain ⟨k, E, h', rfl, -⟩ := flushWrites_spec hf (hw (.inr rfl)) hr'
    simp [Outcome.map, Outcome.value, Overflowed] at ho

/-! ## Runs -/

/-- **The write side of a run**: over any run whose calls all return or overflow, the bytes
handed to the handle, followed by the write ring, are the ring at the start followed by the data
of every `write`, in order. -/
theorem run_writeSide {calls : List Call} {ch ch' : BufferedChannel σ}
    {outs : List (Except ChannelError Reply)} (h : run H fuel calls ch = some (outs, ch'))
    (hr : ∀ o ∈ outs, ReturnsOrOverflows o) :
    ∃ T, ch'.trace = ch.trace ++ T ∧
      transmitted T ++ ch'.writeRing = ch.writeRing ++ calls.flatMap Call.writeData := by
  induction calls generalizing ch outs with
  | nil =>
    cases h
    exact ⟨[], by simp, by simp⟩
  | cons c cs ih =>
    obtain ⟨res, outs', h₁, h₂, rfl⟩ := run_cons.mp h
    obtain ⟨E, htr, hcons⟩ := exec_writeSide h₁ (hr _ (List.mem_cons_self _ _))
    obtain ⟨T, htr', hcons'⟩ := ih h₂ fun o ho => hr o (List.mem_cons_of_mem _ ho)
    refine ⟨E ++ T, by rw [htr', htr, List.append_assoc], ?_⟩
    rw [transmitted_append, List.append_assoc, hcons', ← List.append_assoc, hcons]
    simp

/-- **The write side of every run**: the bytes handed to the handle, followed by the write ring,
are the ring at the start followed by the data of every `write` that its checks let through, in
order. -/
theorem run_writeSide_accepted {calls : List Call} {ch ch' : BufferedChannel σ}
    {outs : List (Except ChannelError Reply)} (h : run H fuel calls ch = some (outs, ch')) :
    ∃ T, ch'.trace = ch.trace ++ T ∧ transmitted T ++ ch'.writeRing =
      ch.writeRing ++ (List.zipWith Call.acceptedData calls outs).flatten := by
  induction calls generalizing ch outs with
  | nil =>
    cases h
    exact ⟨[], by simp, by simp⟩
  | cons c cs ih =>
    obtain ⟨res, outs', h₁, h₂, rfl⟩ := run_cons.mp h
    obtain ⟨E, htr, hcons⟩ := exec_writeSide_accepted h₁
    obtain ⟨T, htr', hcons'⟩ := ih h₂
    refine ⟨E ++ T, by rw [htr', htr, List.append_assoc], ?_⟩
    rw [transmitted_append, List.append_assoc, hcons', ← List.append_assoc, hcons]
    simp

/-- **The read side of a run**: over every run, the bytes every `read` returned, followed by the
read ring, are the ring at the start followed by the bytes `readImpl` returned, in order. -/
theorem run_readSide (hC : H.optimalReadSize ≤ BufferSizeMax) {calls : List Call}
    {ch ch' : BufferedChannel σ} {outs : List (Except ChannelError Reply)}
    (h : run H fuel calls ch = some (outs, ch')) :
    ∃ T, ch'.trace = ch.trace ++ T ∧
      outs.flatMap Reply.bytesRead ++ ch'.readRing = ch.readRing ++ fetched T := by
  induction calls generalizing ch outs with
  | nil =>
    cases h
    exact ⟨[], by simp, by simp⟩
  | cons c cs ih =>
    obtain ⟨res, outs', h₁, h₂, rfl⟩ := run_cons.mp h
    obtain ⟨E, htr, hcons⟩ := exec_readSide hC h₁
    obtain ⟨T, htr', hcons'⟩ := ih h₂
    refine ⟨E ++ T, by rw [htr', htr, List.append_assoc], ?_⟩
    rw [List.flatMap_cons, List.append_assoc, hcons', ← List.append_assoc, hcons]
    simp

/-- Over a run in which no call overflows, both rings stay within `BufferSizeMax`. -/
theorem run_bounded (hC : H.optimalReadSize ≤ BufferSizeMax) {calls : List Call}
    {ch ch' : BufferedChannel σ} {outs : List (Except ChannelError Reply)} (hb : Bounded ch)
    (h : run H fuel calls ch = some (outs, ch')) (hno : ∀ o ∈ outs, ¬Overflowed o) :
    Bounded ch' := by
  induction calls generalizing ch outs with
  | nil => cases h; exact hb
  | cons c cs ih =>
    obtain ⟨res, outs', h₁, h₂, rfl⟩ := run_cons.mp h
    exact ih ((exec_bounded hC hb h₁).2 (hno _ (List.mem_cons_self _ _))) h₂
      fun o ho => hno o (List.mem_cons_of_mem _ ho)

/-- A failed channel refuses every call of a run and stays as it is. -/
theorem run_of_failed {ch : BufferedChannel σ} (hf : ch.failed = true) (calls : List Call) :
    run H fuel calls ch = some (calls.map fun _ => .error channelFailed, ch) := by
  induction calls with
  | nil => rfl
  | cons c cs ih => simp [run, exec_of_failed hf, ih, Outcome.value]

/-! ## The channel's laws -/

/-- **Write-side FIFO.** Over every run, whatever the handle does, the bytes handed to the handle
followed by the write ring are the ring at the start followed by the data of every `write` that its
checks let through, in order. A call that throws an `OverflowError` fails the channel, which then
refuses every later call and drops its data; so over every run whose calls all return or throw an
`OverflowError`, a run up to its first overflow, the bytes handed to the handle followed by the
write ring are the ring at the start followed by the data of every `write`: no byte is lost,
duplicated or reordered, and none overtakes a buffered one. A `write(d)` that returns `k ≤ |d|`
sent exactly the first `k` bytes of `d`, after the part `f` of the ring its flush took; when that
flush left bytes, `k = 0` and `d` went whole behind them. A `flushWrites` that returns `k` sent
exactly the first `k` bytes of the ring, which held at least `k`. -/
theorem buffered_write_fifo (H : Handle σ) (fuel : Nat) :
    (∀ calls (ch ch' : BufferedChannel σ) outs, run H fuel calls ch = some (outs, ch') →
        ∃ T, ch'.trace = ch.trace ++ T ∧ transmitted T ++ ch'.writeRing =
          ch.writeRing ++ (List.zipWith Call.acceptedData calls outs).flatten) ∧
      (∀ (c : Call) (ch : BufferedChannel σ) res, c.exec H fuel ch = some res →
        Overflowed res.value → res.state.failed = true ∧
          ∀ c' : Call, c'.exec H fuel res.state = some (.error channelFailed res.state)) ∧
      (∀ calls (ch ch' : BufferedChannel σ) outs, run H fuel calls ch = some (outs, ch') →
        (∀ o ∈ outs, ReturnsOrOverflows o) →
        ∃ T, ch'.trace = ch.trace ++ T ∧
          transmitted T ++ ch'.writeRing = ch.writeRing ++ calls.flatMap Call.writeData) ∧
      (∀ (ch ch' : BufferedChannel σ) d k,
        BufferedChannel.write H fuel d ch = some (.ok k ch') →
        ∃ E f, ch'.trace = ch.trace ++ E ∧ transmitted E = f ++ d.take k ∧ k ≤ d.length ∧
          ((f = ch.writeRing ∧ ch'.writeRing = d.drop k) ∨
            (k = 0 ∧ f.length < ch.writeRing.length ∧ f ++ ch'.writeRing = ch.writeRing ++ d))) ∧
      (∀ (ch ch' : BufferedChannel σ) k,
        BufferedChannel.flushWrites H fuel ch = some (.ok k ch') →
        ∃ E, ch'.trace = ch.trace ++ E ∧ transmitted E = ch.writeRing.take k ∧
          k ≤ ch.writeRing.length ∧ ch'.writeRing = ch.writeRing.drop k) :=
  ⟨fun _ _ _ _ h => run_writeSide_accepted h,
    fun _ _ _ h ho => ⟨exec_overflowed_failed h ho, fun _ => exec_of_failed
      (exec_overflowed_failed h ho)⟩,
    fun _ _ _ _ h hr => run_writeSide h hr, fun _ _ _ _ h => write_ok_sent h,
    fun _ _ _ h => flushWrites_ok_sent h⟩

/-- **A run that goes on after an `OverflowError` drops data.** Over a handle that takes nothing,
from a write ring of `BufferSizeMax` bytes, `write([1])` overflows and fails the channel, and the
`write([2])` after it is refused: its byte is neither sent nor buffered, so the bytes handed to
the handle followed by the ring are not the ring at the start followed by both writes' data. -/
theorem buffered_write_fifo_after_overflow :
    ∃ outs ch', run (Handle.stalled 1) 1 [.write [1], .write [2]]
        ⟨"", false, false, true, [], List.replicate BufferSizeMax 0, (), []⟩ = some (outs, ch') ∧
      ¬∃ T, ch'.trace = [] ++ T ∧ transmitted T ++ ch'.writeRing =
        List.replicate BufferSizeMax 0 ++ [Call.write [1], .write [2]].flatMap Call.writeData := by
  have hlen : (List.replicate BufferSizeMax (0 : UInt8) ++ [1]).length = BufferSizeMax + 1 := by
    rw [List.length_append, List.length_replicate, List.length_singleton]
  obtain ⟨E, htx, hw⟩ := @write_stalled_overflow 1 0 [1]
    ⟨"", false, false, true, [], List.replicate BufferSizeMax 0, (), []⟩ Nat.one_pos rfl rfl
    (by rw [hlen]; exact Nat.lt_succ_self _)
  have hexec := congrArg (Option.map (Outcome.map Reply.count)) hw
  refine ⟨_, ⟨"", true, false, true, [], List.replicate BufferSizeMax 0 ++ [1], (), [] ++ E⟩,
    run_cons.mpr ⟨_, _, hexec, run_of_failed rfl _, rfl⟩, ?_⟩
  rintro ⟨T, htr, hcons⟩
  obtain rfl : E = T := List.append_cancel_left htr
  have := congrArg List.length hcons
  rw [htx, List.nil_append, hlen, List.length_append, List.length_replicate] at this
  exact absurd (Nat.add_left_cancel this) (by decide)

/-- **Read-side conservation.** With chunks of at most `BufferSizeMax` bytes, over every run, the
bytes every `read` returned followed by the read ring are the ring at the start followed by every
chunk `readImpl` returned, in order: the bytes a `read` fetched past what it was asked for stay in
the ring for the next one. A `read(n)`
returns at most `n` bytes and never throws an `OverflowError`; a `load` returns exactly the number
of bytes it appended to the ring. -/
theorem buffered_read_conservation (H : Handle σ) (hC : H.optimalReadSize ≤ BufferSizeMax)
    (fuel : Nat) :
    (∀ calls (ch ch' : BufferedChannel σ) outs, run H fuel calls ch = some (outs, ch') →
        ∃ T, ch'.trace = ch.trace ++ T ∧
          outs.flatMap Reply.bytesRead ++ ch'.readRing = ch.readRing ++ fetched T) ∧
      (∀ (ch ch' : BufferedChannel σ) n ret,
        BufferedChannel.read H fuel n ch = some (.ok ret ch') → ret.length ≤ n) ∧
      (∀ (ch ch' : BufferedChannel σ) n e,
        BufferedChannel.read H fuel n ch = some (.error e ch') → ¬e.IsOverflow) ∧
      (∀ (ch ch' : BufferedChannel σ) n k,
        BufferedChannel.load H fuel n ch = some (.ok k ch') →
        ∃ E, ch'.trace = ch.trace ++ E ∧ ch'.readRing = ch.readRing ++ fetched E ∧
          k = (fetched E).length) := by
  refine ⟨fun _ _ _ _ h => run_readSide hC h, fun _ _ _ _ h => ?_,
    fun _ _ _ _ h => read_not_overflow hC h, fun _ ch' _ _ h => ?_⟩
  · obtain ⟨E, -, -, -, hlen⟩ := read_ok h
    exact hlen
  · obtain ⟨E, hst, -, hk⟩ := load_ok h
    exact ⟨E, by rw [hst], by rw [hst], hk⟩

theorem buffered_read_conservation_readAhead :
    (Handle.loopback 2).optimalReadSize ≤ BufferSizeMax ∧
      run (Handle.loopback 2) 3 [.read 1, .read 2] ⟨"", false, true, true, [], [], [1, 2, 3], []⟩ =
        some ([.ok (.bytes [1]), .ok (.bytes [2, 3])],
          ⟨"", false, true, true, [], [], [], [.readImpl 2 [1, 2] true, .readImpl 2 [3] true]⟩) ∧
      ∃ T, [.readImpl 2 [1, 2] true, .readImpl 2 [3] true] = [] ++ T ∧
        [Except.ok (Reply.bytes [1]), .ok (.bytes [2, 3])].flatMap Reply.bytesRead ++ [] =
          [] ++ fetched T :=
  have hrun : run (Handle.loopback 2) 3 [.read 1, .read 2]
      ⟨"", false, true, true, [], [], [1, 2, 3], []⟩ =
      some ([.ok (.bytes [1]), .ok (.bytes [2, 3])],
        ⟨"", false, true, true, [], [], [], [.readImpl 2 [1, 2] true, .readImpl 2 [3] true]⟩) := rfl
  ⟨by decide, hrun, (buffered_read_conservation _ (by decide) 3).1 _ _ _ _ hrun⟩

/-- The flush never grows a ring. -/
theorem flushWrites_shrinks {ch : BufferedChannel σ} {res : Outcome σ Nat}
    (h : BufferedChannel.flushWrites H fuel ch = some res) :
    res.state.readRing = ch.readRing ∧ res.state.writeRing.length ≤ ch.writeRing.length := by
  cases hf : ch.failed
  · cases hw : ch.writable
    · rw [flushWrites_of_not_writable hf hw] at h
      cases h; exact ⟨rfl, le_rfl⟩
    · obtain ⟨E, hst, -, -, hle⟩ := flushWrites_state hf hw h
      exact ⟨by rw [hst], hle⟩
  · rw [flushWrites_of_failed hf] at h
    cases h; exact ⟨rfl, le_rfl⟩

/-- **The overflow guard.** With chunks of at most `BufferSizeMax` bytes, from a channel whose
rings hold at most `BufferSizeMax` bytes each, every call throws an `OverflowError` exactly when it
is a `write` or a `load` and the ring it appended to is past `BufferSizeMax` at its end, and
otherwise leaves both rings within `BufferSizeMax`; so every run keeps them within it up to its
first overflow. The paths that skip the size check never grow a ring: `flushWrites`, and `read`
served from the ring alone. -/
theorem buffered_overflow_guard (H : Handle σ) (hC : H.optimalReadSize ≤ BufferSizeMax)
    (fuel : Nat) :
    (∀ (c : Call) (ch : BufferedChannel σ) res, Bounded ch → c.exec H fuel ch = some res →
        (Overflowed res.value ↔ c.Overflows res.state) ∧
          (¬Overflowed res.value → Bounded res.state)) ∧
      (∀ calls (ch ch' : BufferedChannel σ) outs, Bounded ch →
        run H fuel calls ch = some (outs, ch') → (∀ o ∈ outs, ¬Overflowed o) → Bounded ch') ∧
      (∀ (ch : BufferedChannel σ) res, BufferedChannel.flushWrites H fuel ch = some res →
        res.state.readRing = ch.readRing ∧ res.state.writeRing.length ≤ ch.writeRing.length) ∧
      (∀ (ch : BufferedChannel σ) n, ch.failed = false → ch.readable = true →
        n ≤ ch.readRing.length →
        BufferedChannel.read H fuel n ch =
          some (.ok (ch.readRing.take n) { ch with readRing := ch.readRing.drop n })) :=
  ⟨fun _ _ _ hb h => exec_bounded hC hb h, fun _ _ _ _ hb h hno => run_bounded hC hb h hno,
    fun _ _ h => flushWrites_shrinks h, fun _ _ hf hr hn => read_of_le hf hr hn⟩

theorem buffered_overflow_guard_stalled :
    (Handle.stalled 1).optimalReadSize ≤ BufferSizeMax ∧
      ∃ res, (Call.write [1]).exec (Handle.stalled 1) 1
          ⟨"", false, false, true, [], List.replicate BufferSizeMax 0, (), []⟩ = some res ∧
        Overflowed res.value ∧ (Call.write [1]).Overflows res.state := by
  have hC : (Handle.stalled 1).optimalReadSize ≤ BufferSizeMax := by decide
  have hlen : (List.replicate BufferSizeMax (0 : UInt8) ++ [1]).length = BufferSizeMax + 1 := by
    rw [List.length_append, List.length_replicate, List.length_singleton]
  obtain ⟨E, -, hw⟩ := @write_stalled_overflow 1 0 [1]
    ⟨"", false, false, true, [], List.replicate BufferSizeMax 0, (), []⟩ Nat.one_pos rfl rfl
    (by rw [hlen]; exact Nat.lt_succ_self _)
  have hexec := congrArg (Option.map (Outcome.map Reply.count)) hw
  exact ⟨hC, _, hexec, trivial, ((buffered_overflow_guard _ hC 1).1 (.write [1])
    ⟨"", false, false, true, [], List.replicate BufferSizeMax 0, (), []⟩ _
    ⟨Nat.zero_le _, (List.length_replicate _ _).le⟩ hexec).1.mp trivial⟩

end Monomux.System

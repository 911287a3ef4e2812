import Monomux.System.BufferedChannel.Replay
import Monomux.System.Unix.Pipe

/-!
# The two ends of a pipe

`Pipe::create(InheritInChild)` (`src/src/unix/system/UnixPipe.cpp`) makes an `AnonymousPipe`: a
channel opened to read the pipe's reading end and one opened to write its writing end. Both
channels' handles reach the one buffer the kernel keeps for the pipe, so in the model the state
of the handle is that buffer, shared by the two ends, and the kernel is any handle that moves
bytes through a queue (`Handle.IsQueue`). The two ends are driven by calls in any interleaving.

* `exec_inFlight`: one call on either end keeps the bytes in flight: what the call returned,
  followed by the bytes in flight after it, is what was in flight before, followed by the data
  the call wrote;
* `anonymous_pipe_fifo`: the same over any interleaving of calls, by induction on it: no byte is
  lost, duplicated or reordered between the writers and the readers of a pipe.
-/

namespace Monomux.System

variable {σ : Type}

/-! ## One end of the pipe -/

section Ends

variable {H : Handle σ} {fuel : Nat} {c : Call} {ch : BufferedChannel σ} {res : Outcome σ Reply}

/-- A call that returns or overflows on a channel that cannot read is a `write` or a
`flushWrites`: it returns no bytes and takes none from the handle. -/
theorem exec_of_not_readable (h : c.exec H fuel ch = some res)
    (hr : ReturnsOrOverflows res.value) (hrd : ch.readable = false) :
    Reply.bytesRead res.value = [] ∧
      ∃ E, res.state.trace = ch.trace ++ E ∧ fetched E = [] := by
  obtain ⟨hf, hread, hw⟩ := exec_admitted h hr
  cases c with
  | read n => simp [hread n (.inl rfl)] at hrd
  | load n => simp [hread n (.inr rfl)] at hrd
  | write d =>
    simp only [Call.exec, Option.map_eq_some'] at h
    obtain ⟨r, hr', rfl⟩ := h
    obtain ⟨E, hst, hwc, -⟩ := write_state hf (hw (.inl ⟨d, rfl⟩)) hr'
    exact ⟨by cases r <;> rfl, E, by rw [Outcome.state_map, hst], hwc.fetched_eq⟩
  | flushWrites =>
    simp only [Call.exec, Option.map_eq_some'] at h
    obtain ⟨r, hr', rfl⟩ := h
    obtain ⟨E, hst, hwc, -⟩ := flushWrites_state hf (hw (.inr rfl)) hr'
    exact ⟨by cases r <;> rfl, E, by rw [Outcome.state_map, hst], hwc.fetched_eq⟩

/-- A call that returns or overflows on a channel that cannot write is a `read` or a `load`: it
writes no data and hands no bytes to the handle. -/
theorem exec_of_not_writable (h : c.exec H fuel ch = some res)
    (hr : ReturnsOrOverflows res.value) (hwr : ch.writable = false) :
    c.writeData = [] ∧ ∃ E, res.state.trace = ch.trace ++ E ∧ transmitted E = [] := by
  obtain ⟨hf, hread, hw⟩ := exec_admitted h hr
  cases c with
  | read n =>
    simp only [Call.exec, Option.map_eq_some'] at h
    obtain ⟨r, hr', rfl⟩ := h
    obtain ⟨E, hst, htx⟩ := read_frame hf (hread n (.inl rfl)) hr'
    exact ⟨rfl, E, by rw [Outcome.state_map, hst], htx⟩
  | load n =>
    simp only [Call.exec, Option.map_eq_some'] at h
    obtain ⟨r, hr', rfl⟩ := h
    obtain ⟨E, hst, htx⟩ := load_state hf (hread n (.inr rfl)) hr'
    exact ⟨rfl, E, by rw [Outcome.state_map, hst], htx⟩
  | write d => simp [hw (.inl ⟨d, rfl⟩)] at hwr
  | flushWrites => simp [hw (.inr rfl)] at hwr

end Ends

namespace Unix

/-! ## The pipe -/

/-- `Pipe::AnonymousPipe`: the channels of the reading and the writing end of one pipe, and the
kernel's buffer for the pipe, the state of the handle of both. -/
structure AnonymousPipe (σ : Type) where
  readEnd : BufferedChannel σ
  writeEnd : BufferedChannel σ
  kernel : σ

namespace AnonymousPipe

variable (H : Handle σ) (fuel : Nat)

/-- A call on one end of the pipe, made with the kernel's buffer as that channel's handle: what
the call returned or threw, and the pipe it leaves. -/
def exec (p : AnonymousPipe σ) :
    Mode × Call → Option (Except ChannelError Reply × AnonymousPipe σ)
  | (.read, c) => (c.exec H fuel { p.readEnd with handle := p.kernel }).map fun res =>
      (res.value, { p with readEnd := res.state, kernel := res.state.handle })
  | (.write, c) => (c.exec H fuel { p.writeEnd with handle := p.kernel }).map fun res =>
      (res.value, { p with writeEnd := res.state, kernel := res.state.handle })

/-- Makes the calls one after another, each on the end it names. -/
def run : List (Mode × Call) → AnonymousPipe σ →
    Option (List (Except ChannelError Reply) × AnonymousPipe σ)
  | [], p => some ([], p)
  | c :: cs, p =>
    match exec H fuel p c with
    | none => none
    | some (o, p₁) => (run cs p₁).map fun r => (o :: r.1, r.2)

/-- The bytes on their way from the writing end's callers to the reading end's, in the order
they will be read: the reading end's ring, the kernel's buffer, and the writing end's ring. -/
def inFlight (content : σ → List UInt8) (p : AnonymousPipe σ) : List UInt8 :=
  p.readEnd.readRing ++ content p.kernel ++ p.writeEnd.writeRing

/-- Each end does its own side only: the reading end cannot write and the writing end cannot
read. -/
def Ends (p : AnonymousPipe σ) : Prop :=
  p.readEnd.writable = false ∧ p.writeEnd.readable = false

variable {H fuel}

theorem run_cons {c : Mode × Call} {cs : List (Mode × Call)} {p p' : AnonymousPipe σ}
    {outs : List (Except ChannelError Reply)} (h : run H fuel (c :: cs) p = some (outs, p')) :
    ∃ o p₁ outs', exec H fuel p c = some (o, p₁) ∧ run H fuel cs p₁ = some (outs', p') ∧
      outs = o :: outs' := by
  rw [run] at h
  split at h
  · cases h
  · next o p₁ he =>
    obtain ⟨⟨outs', p''⟩, hrun, heq⟩ := Option.map_eq_some'.mp h
    cases heq
    exact ⟨o, p₁, outs', he, hrun, rfl⟩

variable {content : σ → List UInt8}

/-- **One call keeps the bytes in flight**: what a call on either end returned, followed by the
bytes in flight after it, is what was in flight before, followed by the data it wrote. -/
theorem exec_inFlight (hq : H.IsQueue content) (hC : H.optimalReadSize ≤ BufferSizeMax)
    {p p' : AnonymousPipe σ} {c : Mode × Call} {o : Except ChannelError Reply} (hends : p.Ends)
    (h : exec H fuel p c = some (o, p')) (hr : ReturnsOrOverflows o) :
    p'.Ends ∧ Reply.bytesRead o ++ p'.inFlight content = p.inFlight content ++ c.2.writeData := by
  obtain ⟨e, c⟩ := c
  cases e with
  | read =>
    simp only [exec, Option.map_eq_some', Prod.mk.injEq] at h
    obtain ⟨res, hres, rfl, rfl⟩ := h
    obtain ⟨⟨E, htr, hruns⟩, -, hwr⟩ := exec_replays hres
    obtain ⟨E₁, htr₁, hread⟩ := exec_readSide hC hres
    obtain ⟨hdata, E₂, htr₂, htx⟩ := exec_of_not_writable hres hr hends.1
    obtain rfl : E₁ = E := List.append_cancel_left (htr₁.symm.trans htr)
    obtain rfl : E₂ = E₁ := List.append_cancel_left (htr₂.symm.trans htr)
    have hk := hq.runs hruns
    rw [htx, List.append_nil] at hk
    refine ⟨⟨hwr.trans hends.1, hends.2⟩, ?_⟩
    simp only [inFlight, hdata, List.append_nil]
    calc Reply.bytesRead res.value ++ (res.state.readRing ++ content res.state.handle ++
          p.writeEnd.writeRing)
        = (Reply.bytesRead res.value ++ res.state.readRing) ++ content res.state.handle ++
          p.writeEnd.writeRing := by simp only [List.append_assoc]
      _ = p.readEnd.readRing ++ (fetched E₂ ++ content res.state.handle) ++
          p.writeEnd.writeRing := by rw [hread]; simp only [List.append_assoc]
      _ = _ := by rw [hk]
  | write =>
    simp only [exec, Option.map_eq_some', Prod.mk.injEq] at h
    obtain ⟨res, hres, rfl, rfl⟩ := h
    obtain ⟨⟨E, htr, hruns⟩, hrd, -⟩ := exec_replays hres
    obtain ⟨E₁, htr₁, hsent⟩ := exec_writeSide hres hr
    obtain ⟨hnone, E₂, htr₂, hfe⟩ := exec_of_not_readable hres hr hends.2
    obtain rfl : E₁ = E := List.append_cancel_left (htr₁.symm.trans htr)
    obtain rfl : E₂ = E₁ := List.append_cancel_left (htr₂.symm.trans htr)
    have hk := hq.runs hruns
    rw [hfe, List.nil_append] at hk
    refine ⟨⟨hends.1, hrd.trans hends.2⟩, ?_⟩
    simp only [inFlight, hnone, List.nil_append]
    calc p.readEnd.readRing ++ content res.state.handle ++ res.state.writeRing
        = p.readEnd.readRing ++ content p.kernel ++
            (System.transmitted E₂ ++ res.state.writeRing) := by
          rw [hk]; simp only [List.append_assoc]
      _ = _ := by rw [hsent]; simp only [List.append_assoc]

end AnonymousPipe

/-! ## The pipe's laws -/

/-- A kernel buffer of `capacity` bytes as the handle of both ends, with chunks of `n` bytes:
`read(2)` takes up to the bytes asked for from its front, and `write(2)` appends as many bytes
as fit. -/
def kernelPipe (capacity n : Nat) : Handle (List UInt8) where
  optimalReadSize := n
  optimalWriteSize := n
  readImpl k q := ⟨q.take k, true, q.drop k⟩
  writeImpl c q :=
    ⟨min c.length (capacity - q.length), true, q ++ c.take (min c.length (capacity - q.length))⟩
  readImpl_le k q := List.length_take_le k q
  writeImpl_le _ _ := min_le_left _ _

theorem kernelPipe_isQueue (capacity n : Nat) : (kernelPipe capacity n).IsQueue id :=
  ⟨fun k q => (List.take_append_drop k q).symm, fun _ _ => rfl⟩

/-- **No byte is lost, duplicated or reordered between the two ends of a pipe.** Whatever the
kernel's buffer, as long as it moves bytes as a queue, over any interleaving of calls on the two
ends of an anonymous pipe in which every call returns or overflows: the bytes the reading end's
callers received, followed by the bytes still in flight (in the reading end's ring, the kernel's
buffer and the writing end's ring), are the bytes in flight at the start followed by the data
of every `write` on the writing end, in order; and each end still does its own side only. -/
theorem anonymous_pipe_fifo (H : Handle σ) (content : σ → List UInt8) (hq : H.IsQueue content)
    (hC : H.optimalReadSize ≤ BufferSizeMax) (fuel : Nat) (calls : List (Mode × Call))
    (p p' : AnonymousPipe σ) (outs : List (Except ChannelError Reply)) (hends : p.Ends)
    (h : AnonymousPipe.run H fuel calls p = some (outs, p'))
    (hr : ∀ o ∈ outs, ReturnsOrOverflows o) :
    p'.Ends ∧ outs.flatMap Reply.bytesRead ++ p'.inFlight content =
      p.inFlight content ++ calls.flatMap fun c => c.2.writeData := by
  induction calls generalizing p outs with
  | nil =>
    cases h
    exact ⟨hends, by simp⟩
  | cons c cs ih =>
    obtain ⟨o, p₁, outs', h₁, h₂, rfl⟩ := AnonymousPipe.run_cons h
    obtain ⟨hends₁, hstep⟩ :=
      AnonymousPipe.exec_inFlight hq hC hends h₁ (hr o (List.mem_cons_self _ _))
    obtain ⟨hends', hrun⟩ :=
      ih p₁ outs' hends₁ h₂ fun o ho => hr o (List.mem_cons_of_mem _ ho)
    refine ⟨hends', ?_⟩
    rw [List.flatMap_cons, List.flatMap_cons, List.append_assoc, hrun, ← List.append_assoc, hstep,
      List.append_assoc]

theorem anonymous_pipe_fifo_one_byte :
    ∃ p', AnonymousPipe.run (kernelPipe 4 4) 4 [(.write, .write [7]), (.read, .read 1)]
        ⟨⟨"r", false, true, false, [], [], [], []⟩,
          ⟨"w", false, false, true, [], [], [], []⟩, []⟩ =
        some ([.ok (.count 1), .ok (.bytes [7])], p') ∧ p'.Ends ∧
      ([.ok (.count 1), .ok (.bytes [7])] : List (Except ChannelError Reply)).flatMap
          Reply.bytesRead ++ p'.inFlight id =
        AnonymousPipe.inFlight id
            ⟨⟨"r", false, true, false, [], [], [], []⟩,
              ⟨"w", false, false, true, [], [], [], []⟩, []⟩ ++
          ([(.write, .write [7]), (.read, .read 1)] : List (Mode × Call)).flatMap
            fun c => c.2.writeData :=
  have ⟨p', h⟩ : ∃ p',
      AnonymousPipe.run (kernelPipe 4 4) 4 [(.write, .write [7]), (.read, .read 1)]
        ⟨⟨"r", false, true, false, [], [], [], []⟩,
          ⟨"w", false, false, true, [], [], [], []⟩, []⟩ =
        some ([.ok (.count 1), .ok (.bytes [7])], p') := ⟨_, rfl⟩
  ⟨p', h, anonymous_pipe_fifo (kernelPipe 4 4) id (kernelPipe_isQueue 4 4) (by decide) 4 _ _ p' _
    ⟨rfl, rfl⟩ h (by simp [ReturnsOrOverflows])⟩

end Unix

end Monomux.System

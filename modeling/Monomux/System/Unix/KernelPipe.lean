import Monomux.System.Unix.AnonymousPipe

/-!
# The pipe over the kernel's buffer

`Pipe::readImpl` and `Pipe::writeImpl` (`src/src/unix/system/UnixPipe.cpp`) see the kernel
through the results of their `read(2)` and `write(2)` calls, which the model of
`Monomux.System.Unix.Pipe` takes as any script. Here the script is one the kernel's buffer of a
non-blocking pipe whose two ends are open could have given (`KernelRuns`): `read(2)` returns the
bytes at the front of the buffer, or `EAGAIN` when it is empty, and `write(2)` takes as many bytes
as fit, or fails with `EAGAIN` when none does.

* `readLoop_kernel`, `writeLoop_kernel`: with any such script, the loops of `unix::read` and
  `unix::write` return and leave the buffer as the handle `kernelPipe` says;
* `readLoop_kernel_returns`, `writeLoop_kernel_returns`: there is such a script, with which the
  loops return;
* `pipe_refines_kernelPipe`: so `kernelPipe capacity BUFSIZ`, the handle of the two ends of an
  anonymous pipe in `anonymous_pipe_fifo`, is what the pipe's `readImpl` and `writeImpl` compute.
-/

namespace Monomux.System.Unix

/-! ## The kernel's buffer -/

/-- `read(2)` asking for `request` bytes on a non-blocking pipe whose writing end is open and
whose buffer holds `q`: the bytes at the front of the buffer, or `EAGAIN` when it is empty. -/
def readAnswer (q : List UInt8) (request : Nat) : ReadResult :=
  if q = [] then .error .resource_unavailable_try_again else .data (q.take request)

/-- `write(2)` offering `chunk` to a non-blocking pipe whose buffer of `capacity` bytes holds `q`:
it takes as many bytes as fit, or fails with `EAGAIN` when none does. This is the answer to a
chunk of more than `PIPE_BUF` bytes, which the kernel may take in part. A chunk of at most
`PIPE_BUF` bytes is written whole or not at all, so for it the kernel fails with `EAGAIN` where
this answer takes the part that fits; the runs below follow this answer for every chunk. -/
def writeAnswer (capacity : Nat) (q chunk : List UInt8) : WriteResult :=
  if min chunk.length (capacity - q.length) = 0 then .error .resource_unavailable_try_again
  else .count (min chunk.length (capacity - q.length))

/-- The calls `E` are answered by the kernel's buffer of `capacity` bytes, which holds `q` before
them and `q'` after them. -/
def KernelRuns (capacity : Nat) : List UInt8 → List SysCall → List UInt8 → Prop
  | q, [], q' => q' = q
  | q, .read n r :: E, q' =>
    r = readAnswer q n ∧ KernelRuns capacity (q.drop (SysCall.read n r).delivered.length) E q'
  | q, .write c r :: E, q' =>
    r = writeAnswer capacity q c ∧ KernelRuns capacity (q ++ (SysCall.write c r).transmitted) E q'

variable {capacity : Nat}

/-- An iteration of `unix::read`'s loop on some bytes goes on. -/
theorem readStep_data {remaining : Nat} {ret b : List UInt8} (hb : b ≠ []) :
    readStep remaining ret (.data b) =
      .inr (remaining - min b.length remaining, ret ++ b.take (min b.length remaining)) := by
  obtain ⟨x, b, rfl⟩ := List.exists_cons_of_ne_nil hb
  rfl

/-- The kernel's answer to a request of at most `BUFSIZ` bytes is within it. -/
theorem clamp_readAnswer (q : List UInt8) (request : Nat) :
    (readAnswer q request).clamp request = readAnswer q request := by
  unfold readAnswer
  split <;> simp [ReadResult.clamp, List.take_take]

theorem clamp_writeAnswer (q chunk : List UInt8) :
    (writeAnswer capacity q chunk).clamp chunk.length = writeAnswer capacity q chunk := by
  unfold writeAnswer
  split <;> simp [WriteResult.clamp]

/-! ## `unix::read` over the kernel's buffer -/

/-- Taking `k` bytes from the front and then `n - k` more takes the first `n`. -/
theorem take_append_take_drop (q : List UInt8) {k n : Nat} (h : k ≤ n) :
    q.take k ++ (q.drop k).take (n - k) = q.take n ∧ (q.drop k).drop (n - k) = q.drop n := by
  rw [← List.take_add, List.drop_drop, Nat.add_sub_cancel' h]
  exact ⟨rfl, rfl⟩

/-- On a buffer that holds bytes, the kernel answers a request from `unix::read`'s loop with the
first `k` bytes, for a positive `k` up to what the loop still wants, and the loop goes on with
them. -/
theorem readAnswer_front {q : List UInt8} {remaining : Nat} (hq : q ≠ []) (h0 : 0 < remaining)
    (ret : List UInt8) :
    ∃ k, 0 < k ∧ k ≤ remaining ∧ (q.take k).length = k ∧
      readAnswer q (min BUFSIZ remaining) = .data (q.take k) ∧
      readStep remaining ret (.data (q.take k)) = .inr (remaining - k, ret ++ q.take k) := by
  have hk0 : 0 < min (min BUFSIZ remaining) q.length :=
    lt_min (lt_min (by decide) h0) (List.length_pos.mpr hq)
  have hkr : min (min BUFSIZ remaining) q.length ≤ remaining :=
    (min_le_left _ _).trans (min_le_right _ _)
  have hlen := List.length_take_of_le (min_le_right (min BUFSIZ remaining) q.length)
  refine ⟨_, hk0, hkr, hlen, ?_, ?_⟩
  · rw [readAnswer, if_neg hq, (List.take_eq_take.mpr (by simp) :
      q.take (min BUFSIZ remaining) = q.take (min (min BUFSIZ remaining) q.length))]
  · rw [readStep_data (List.ne_nil_of_length_pos (by rwa [hlen])), hlen, min_eq_left hkr,
      List.take_take, min_self]

/-- **`unix::read`'s loop over the kernel's buffer.** From `RemainingBytes = remaining`, with any
script the buffer answers, the loop returns what it had followed by the first `remaining` bytes of
the buffer, with `ContinueReading` set, and leaves the rest in the buffer. -/
theorem readLoop_kernel {bytes : Nat} {rs : List ReadResult} :
    ∀ {remaining : Nat} {ret q q' : List UInt8} {run : SysRun (List UInt8 × Bool) ReadResult},
      remaining ≤ bytes → readLoop bytes remaining ret rs = some run →
      KernelRuns capacity q run.calls q' →
      run.value = .ok (ret ++ q.take remaining, true) ∧ q' = q.drop remaining := by
  induction rs with
  | nil =>
    intro remaining ret q q' run hle h hk
    rw [readLoop] at h
    split_ifs at h with hc
    cases h
    obtain rfl : remaining = 0 := by omega
    exact ⟨by simp, by simpa [KernelRuns] using hk⟩
  | cons r rs ih =>
    intro remaining ret q q' run hle h hk
    rw [readLoop] at h
    split_ifs at h with hc
    · obtain ⟨run', h', rfl⟩ := Option.map_eq_some'.mp h
      obtain ⟨hr, hk⟩ := hk
      rw [hr] at h'
      by_cases hq : q = []
      · -- the buffer is empty: `EAGAIN`, and the loop returns what it had
        subst hq
        simp only [readAnswer, if_true, readStep, Errc.wouldBlock, if_true, Bool.or_true] at h'
        cases h'
        simpa [KernelRuns, SysCall.delivered] using hk
      · -- the bytes at the front of the buffer, `k` of them
        obtain ⟨k, -, hkr, hlen, hb, hstep⟩ := readAnswer_front hq hc.1 ret
        rw [hr, hb] at hk
        simp only [hb, hstep] at h'
        simp only [SysCall.delivered, hlen] at hk
        obtain ⟨hv, rfl⟩ := ih (by omega) h' hk
        obtain ⟨htake, hdrop⟩ := take_append_take_drop q hkr
        exact ⟨by rw [SysRun.cons_value, hv, List.append_assoc, htake], hdrop⟩
    · cases h
      obtain rfl : remaining = 0 := by omega
      exact ⟨by simp, by simpa [KernelRuns] using hk⟩

/-- **`unix::read`'s loop returns over the kernel's buffer.** From any `RemainingBytes` up to
`Bytes`, the buffer's own answers make the loop return, and use up the script. -/
theorem readLoop_kernel_returns {bytes : Nat} (remaining : Nat) :
    ∀ (q ret : List UInt8), remaining ≤ bytes → ∃ rs run,
      readLoop bytes remaining ret rs = some run ∧ run.rest = [] ∧
        KernelRuns capacity q run.calls (q.drop remaining) := by
  induction remaining using Nat.strong_induction_on with
  | _ remaining ih =>
    intro q ret hle
    by_cases h0 : remaining = 0
    · subst h0
      exact ⟨[], ⟨.ok (ret, true), [], []⟩, by simp [readLoop], rfl, by simp [KernelRuns]⟩
    by_cases hq : q = []
    · -- the buffer is empty: one `read(2)`, answered with `EAGAIN`
      subst hq
      refine ⟨[readAnswer [] (min BUFSIZ remaining)], (SysRun.mk (.ok (ret, true)) [] []).cons
        (.read (min BUFSIZ remaining) (readAnswer [] (min BUFSIZ remaining))), ?_, rfl, ?_⟩
      · rw [readLoop, if_pos ⟨Nat.pos_of_ne_zero h0, hle⟩]
        simp [readAnswer, ReadResult.clamp, readStep, Errc.wouldBlock]
      · simp [KernelRuns, readAnswer, ReadResult.clamp, SysCall.delivered]
    · -- the bytes at the front of the buffer, then the rest of the loop
      obtain ⟨k, hk0, hkr, hlen, hb, hstep⟩ := readAnswer_front hq (Nat.pos_of_ne_zero h0) ret
      obtain ⟨rs, run, hrun, hrest, hruns⟩ :=
        ih (remaining - k) (by omega) (q.drop k) (ret ++ q.take k) (by omega)
      refine ⟨readAnswer q (min BUFSIZ remaining) :: rs,
        run.cons (.read (min BUFSIZ remaining) (readAnswer q (min BUFSIZ remaining))), ?_, hrest,
        ⟨rfl, ?_⟩⟩
      · rw [readLoop, if_pos ⟨Nat.pos_of_ne_zero h0, hle⟩]
        simp only [clamp_readAnswer]
        simp only [hb, hstep, hrun, Option.map_some']
      · simpa [hb, SysCall.delivered, hlen, (take_append_take_drop q hkr).2] using hruns

/-! ## `unix::write` over the kernel's buffer -/

/-- An iteration of `unix::write`'s loop on a positive count goes on. -/
theorem writeStep_count {sent n : Nat} {buffer : List UInt8} (hn : 0 < n) :
    writeStep sent buffer (.count n) = .inr (sent + n, buffer.drop n) := by
  obtain ⟨n, rfl⟩ := Nat.exists_eq_succ_of_ne_zero hn.ne'
  rfl

/-- The kernel's answer to the chunk `unix::write`'s loop offers: `EAGAIN` when the buffer is full,
and otherwise a positive count of bytes that fit both in the chunk and in the buffer. -/
theorem writeAnswer_chunk (q : List UInt8) {buffer : List UInt8} (hc : buffer ≠ []) :
    (capacity - q.length = 0 ∧ writeAnswer capacity q (buffer.take (min BUFSIZ buffer.length)) =
        .error .resource_unavailable_try_again) ∨
      ∃ j, 0 < j ∧ j ≤ min BUFSIZ buffer.length ∧ j ≤ capacity - q.length ∧
        writeAnswer capacity q (buffer.take (min BUFSIZ buffer.length)) = .count j := by
  have hpos : 0 < min BUFSIZ buffer.length := lt_min (by decide) (List.length_pos.mpr hc)
  rw [writeAnswer, List.length_take, min_eq_left (min_le_right _ _)]
  by_cases hj : min (min BUFSIZ buffer.length) (capacity - q.length) = 0
  · exact .inl ⟨by omega, if_pos hj⟩
  · exact .inr ⟨_, Nat.pos_of_ne_zero hj, min_le_left _ _, min_le_right _ _, if_neg hj⟩

/-- **`unix::write`'s loop over the kernel's buffer.** From `BytesSent = sent`, with any script the
buffer answers, the loop ends having sent as many bytes of `Buffer` as fit in the buffer, which
the buffer then holds after what it held. -/
theorem writeLoop_kernel {rs : List WriteResult} :
    ∀ {sent : Nat} {buffer q q' : List UInt8} {run : SysRun WriteExit WriteResult},
      writeLoop sent buffer rs = some run → KernelRuns capacity q run.calls q' →
      (∃ x, run.value = .ok x ∧ x.sent = sent + min buffer.length (capacity - q.length)) ∧
        q' = q ++ buffer.take (min buffer.length (capacity - q.length)) := by
  induction rs with
  | nil =>
    intro sent buffer q q' run h hk
    rw [writeLoop] at h
    split_ifs at h with hc
    cases h
    obtain rfl : buffer = [] := by simpa using hc
    exact ⟨⟨_, rfl, by simp [WriteExit.sent]⟩, by simpa [KernelRuns] using hk⟩
  | cons r rs ih =>
    intro sent buffer q q' run h hk
    rw [writeLoop] at h
    split_ifs at h with hc
    · obtain ⟨run', h', rfl⟩ := Option.map_eq_some'.mp h
      obtain ⟨hr, hk⟩ := hk
      rw [hr] at h' hk
      rcases @writeAnswer_chunk capacity q buffer hc with ⟨hroom, hw⟩ | ⟨j, hj0, hjc, hjr, hw⟩
      · -- the buffer is full: `EAGAIN`, and the loop returns what it had sent
        simp only [hw, writeStep, Errc.wouldBlock, if_true, Bool.or_true] at h' hk
        cases h'
        refine ⟨⟨_, rfl, by simp [WriteExit.sent, hroom]⟩, ?_⟩
        simpa [KernelRuns, SysCall.transmitted, hroom] using hk
      · -- the `j` bytes that fit, then the rest of the loop
        have hjb : j ≤ buffer.length := hjc.trans (min_le_right _ _)
        simp only [hw, writeStep_count hj0] at h' hk
        simp only [SysCall.transmitted, List.take_take, min_eq_left hjc] at hk
        obtain ⟨⟨x, hx, hsent⟩, rfl⟩ := ih h' hk
        have hroom : capacity - (q ++ buffer.take j).length = capacity - q.length - j := by
          simp [min_eq_left hjb, Nat.sub_sub]
        have hm : j + min (buffer.drop j).length (capacity - (q ++ buffer.take j).length) =
            min buffer.length (capacity - q.length) := by
          rw [hroom, List.length_drop, Nat.sub_min_sub_right, Nat.add_sub_cancel' (le_min hjb hjr)]
        refine ⟨⟨x, hx, by rw [hsent, Nat.add_assoc, hm]⟩, ?_⟩
        rw [List.append_assoc, ← hm, ← (take_append_take_drop buffer (Nat.le_add_right j _)).1,
          Nat.add_sub_cancel_left]
    · cases h
      obtain rfl : buffer = [] := by simpa using hc
      exact ⟨⟨_, rfl, by simp [WriteExit.sent]⟩, by simpa [KernelRuns] using hk⟩

/-- **`unix::write`'s loop returns over the kernel's buffer.** The buffer's own answers make the
loop return, and use up the script. -/
theorem writeLoop_kernel_returns (n : Nat) :
    ∀ (sent : Nat) (buffer q : List UInt8), buffer.length = n → ∃ rs run,
      writeLoop sent buffer rs = some run ∧ run.rest = [] ∧
        ∃ q', KernelRuns capacity q run.calls q' := by
  induction n using Nat.strong_induction_on with
  | _ n ih =>
    intro sent buffer q hn
    by_cases hc : buffer = []
    · exact ⟨[], ⟨.ok (.loopEnd sent none), [], []⟩, by simp [writeLoop, hc], rfl, q, rfl⟩
    rcases @writeAnswer_chunk capacity q buffer hc with ⟨-, hw⟩ | ⟨j, hj0, hjc, -, hw⟩
    · -- the buffer is full: one `write(2)`, answered with `EAGAIN`
      refine ⟨[writeAnswer capacity q (buffer.take (min BUFSIZ buffer.length))],
        (SysRun.mk (.ok (.returned sent true)) [] []).cons (.write (buffer.take (min BUFSIZ
          buffer.length)) (writeAnswer capacity q (buffer.take (min BUFSIZ buffer.length)))),
        ?_, rfl, q, ⟨rfl, by simp [hw, SysCall.transmitted, KernelRuns]⟩⟩
      rw [writeLoop, if_pos hc]
      simp only [clamp_writeAnswer]
      simp [hw, writeStep, Errc.wouldBlock]
    · -- the bytes that fit, then the rest of the loop
      obtain ⟨rs, run, hrun, hrest, q', hk⟩ :=
        ih (buffer.length - j) (by omega) (sent + j) (buffer.drop j) (q ++ buffer.take j) (by simp)
      refine ⟨writeAnswer capacity q (buffer.take (min BUFSIZ buffer.length)) :: rs,
        run.cons (.write (buffer.take (min BUFSIZ buffer.length))
          (writeAnswer capacity q (buffer.take (min BUFSIZ buffer.length)))), ?_, hrest, q',
        ⟨rfl, ?_⟩⟩
      · rw [writeLoop, if_pos hc]
        simp only [clamp_writeAnswer]
        simp only [hw, writeStep_count hj0, hrun, Option.map_some']
      · simpa [hw, SysCall.transmitted, List.take_take, min_eq_left hjc] using hk

/-! ## The pipe is the handle `kernelPipe` -/

section Refinement

variable {p : Pipe} {q : List UInt8}

theorem Pipe.readImpl_kernel (hf : p.failed = false) (hm : p.openedAs = .read) {n : Nat}
    {res : PipeOutcome (List UInt8 × Bool)} {E : List SysCall} {q' : List UInt8}
    (h : Pipe.readImpl n p = some res) (hE : res.state.calls = p.calls ++ E)
    (hk : KernelRuns capacity q E q') :
    res = .ok (q.take n, true) { p with reads := res.state.reads, calls := p.calls ++ E } ∧
      q' = q.drop n := by
  simp only [Pipe.readImpl, hf, hm, Bool.false_eq_true, if_false, ne_eq, not_true_eq_false,
    read, Option.map_map, Option.map_eq_some'] at h
  obtain ⟨run, hrun, rfl⟩ := h
  have hcalls : E = run.calls := by
    refine List.append_cancel_left (hE.symm.trans ?_)
    simp only [Function.comp_apply]
    split
    · rfl
    · split <;> rfl
  subst hcalls
  obtain ⟨hv, rfl⟩ := readLoop_kernel le_rfl hrun hk
  simp [hv, Except.map, hf, hm, PipeOutcome.state]

theorem Pipe.writeImpl_kernel (hf : p.failed = false) (hm : p.openedAs = .write)
    {buffer : List UInt8} {res : PipeOutcome (Nat × Bool)} {E : List SysCall} {q' : List UInt8}
    (h : Pipe.writeImpl buffer p = some res) (hE : res.state.calls = p.calls ++ E)
    (hk : KernelRuns capacity q E q') :
    res = .ok (min buffer.length (capacity - q.length), true)
        { p with writes := res.state.writes, calls := p.calls ++ E } ∧
      q' = q ++ buffer.take (min buffer.length (capacity - q.length)) := by
  simp only [Pipe.writeImpl, hf, hm, Bool.false_eq_true, if_false, ne_eq, not_true_eq_false,
    write, Option.map_map, Option.map_eq_some'] at h
  obtain ⟨run, hrun, rfl⟩ := h
  have hcalls : E = run.calls := by
    refine List.append_cancel_left (hE.symm.trans ?_)
    simp only [Function.comp_apply]
    split
    · rfl
    · split <;> rfl
  subst hcalls
  obtain ⟨⟨x, hx, hsent⟩, rfl⟩ := writeLoop_kernel hrun hk
  refine ⟨?_, rfl⟩
  rcases x with ⟨s, b⟩ | ⟨s, b⟩
  · obtain rfl := (writeLoop_run hrun).returned_true s b hx
    simp_all [Except.map, WriteExit.sent, PipeOutcome.state]
  · simp_all [Except.map, WriteExit.sent, PipeOutcome.state]

theorem Pipe.readImpl_kernel_returns (hf : p.failed = false) (hm : p.openedAs = .read)
    (n : Nat) : ∃ rs E, Pipe.readImpl n { p with reads := rs } =
      some (.ok (q.take n, true) { p with reads := [], calls := p.calls ++ E }) ∧
      KernelRuns capacity q E (q.drop n) := by
  obtain ⟨rs, run, hrun, hrest, hk⟩ :=
    @readLoop_kernel_returns capacity n n q [] le_rfl
  refine ⟨rs, run.calls, ?_, hk⟩
  simp [Pipe.readImpl, hf, hm, read, hrun, (readLoop_kernel le_rfl hrun hk).1, Except.map, hrest]

theorem Pipe.writeImpl_kernel_returns (hf : p.failed = false) (hm : p.openedAs = .write)
    (buffer : List UInt8) : ∃ ws E, Pipe.writeImpl buffer { p with writes := ws } =
      some (.ok (min buffer.length (capacity - q.length), true)
        { p with writes := [], calls := p.calls ++ E }) ∧
      KernelRuns capacity q E (q ++ buffer.take (min buffer.length (capacity - q.length))) := by
  obtain ⟨ws, run, hrun, hrest, q', hk⟩ :=
    @writeLoop_kernel_returns capacity buffer.length 0 buffer q rfl
  obtain ⟨⟨x, hx, hsent⟩, rfl⟩ := writeLoop_kernel hrun hk
  refine ⟨ws, run.calls, ?_, hk⟩
  rcases x with ⟨s, b⟩ | ⟨s, b⟩ <;> simp only [WriteExit.sent, Nat.zero_add] at hsent <;>
    subst hsent
  · obtain rfl := (writeLoop_run hrun).returned_true _ b hx
    simp [Pipe.writeImpl, hf, hm, write, hrun, hx, Except.map, hrest]
  · simp [Pipe.writeImpl, hf, hm, write, hrun, hx, Except.map, hrest]

end Refinement

/-- **The pipe over the kernel's buffer is the handle `kernelPipe capacity BUFSIZ`.** Let a
pipe not have failed, and the kernel's buffer of a non-blocking pipe of `capacity` bytes hold `q`.
On the reading end, `readImpl` returns with the kernel's own answers to its `read(2)` calls; and
with any answers of the kernel's buffer it returns the bytes and the `Continue` that `kernelPipe`
gives, changes nothing of the pipe but its script and its record of calls, and leaves in the
buffer what `kernelPipe` leaves. On the writing end, `writeImpl` does the same with the count
`kernelPipe` gives. The kernel's answers are those of `writeAnswer`, which takes the part of a
chunk that fits: they are the kernel's for chunks of more than `PIPE_BUF` bytes, whereas a chunk
of at most `PIPE_BUF` bytes that does not fit whole gets `EAGAIN` from the kernel, and the
refinement says nothing of those runs. -/
theorem pipe_refines_kernelPipe (capacity : Nat) :
    (∀ (p : Pipe) (q : List UInt8) (n : Nat), p.failed = false → p.openedAs = .read →
      let r := (kernelPipe capacity BUFSIZ).readImpl n q
      (∃ rs E, Pipe.readImpl n { p with reads := rs } =
          some (.ok (r.chunk, r.cont) { p with reads := [], calls := p.calls ++ E }) ∧
        KernelRuns capacity q E r.next) ∧
      ∀ res E q', Pipe.readImpl n p = some res → res.state.calls = p.calls ++ E →
        KernelRuns capacity q E q' →
        res = .ok (r.chunk, r.cont) { p with reads := res.state.reads, calls := p.calls ++ E } ∧
          q' = r.next) ∧
    (∀ (p : Pipe) (q : List UInt8) (buffer : List UInt8), p.failed = false →
      p.openedAs = .write →
      let r := (kernelPipe capacity BUFSIZ).writeImpl buffer q
      (∃ ws E, Pipe.writeImpl buffer { p with writes := ws } =
          some (.ok (r.sent, r.cont) { p with writes := [], calls := p.calls ++ E }) ∧
        KernelRuns capacity q E r.next) ∧
      ∀ res E q', Pipe.writeImpl buffer p = some res → res.state.calls = p.calls ++ E →
        KernelRuns capacity q E q' →
        res = .ok (r.sent, r.cont) { p with writes := res.state.writes, calls := p.calls ++ E } ∧
          q' = r.next) :=
  ⟨fun _ _ n hf hm => ⟨Pipe.readImpl_kernel_returns hf hm n,
      fun _ _ _ h hE hk => Pipe.readImpl_kernel hf hm h hE hk⟩,
    fun _ _ buffer hf hm => ⟨Pipe.writeImpl_kernel_returns hf hm buffer,
      fun _ _ _ h hE hk => Pipe.writeImpl_kernel hf hm h hE hk⟩⟩

end Monomux.System.Unix

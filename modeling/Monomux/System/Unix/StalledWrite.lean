import Monomux.System.BufferedChannel.Run
import Monomux.System.Unix.Pipe

/-!
# A write end that takes nothing

Once `write(2)` on a pipe returns 0 (the reading end is gone) or fails with
`EWOULDBLOCK`/`EAGAIN` (the reader does not read), `Pipe::writeImpl` returns 0 with `Continue`
set and leaves the pipe unmarked. A `BufferedChannel` over such a handle stops each flush after
one call and buffers everything it is given, until its write ring passes `BufferSizeMax`.

* `Pipe.writeImpl_takesNothing`: the pipe's `writeImpl` gives the replies of `Handle.stalled`,
  the handle that takes none of the bytes it is offered and leaves `Continue` set (over which one
  `write(d)` appends `d` to the ring and returns 0 or overflows, `write_stalled`);
* `stalledWrites`: what a run of `write`s over a handle that takes nothing is for, and
  `run_stalled`: the channel's runs compute it;
* `stalled_write_end_overflows`: a pipe whose writes take nothing makes its channel buffer every
  byte until the ring passes `BufferSizeMax`, and only then fail.
-/

namespace Monomux.System

/-! ## The pipe's replies -/

namespace Unix

/-- A `write(2)` result that takes nothing and leaves `*Success` set when `unix::write` returns:
a count of 0, or `EWOULDBLOCK`/`EAGAIN`. -/
def WriteResult.TakesNothing : WriteResult → Prop
  | .count n => n = 0
  | .error e => e.wouldBlock = true

/-- On a pipe whose next `write(2)` takes nothing, `writeImpl` makes that one call and returns 0
with `Continue` set, leaving the pipe unmarked. -/
theorem Pipe.writeImpl_takesNothing {c : List UInt8} (hc : c ≠ []) {r : WriteResult}
    (hr : r.TakesNothing) {rs : List ReadResult} {ws : List WriteResult} {calls : List SysCall} :
    Pipe.writeImpl c ⟨false, .write, rs, r :: ws, calls⟩ =
      some (.ok (0, true) ⟨false, .write, rs, ws, calls ++ [.write (c.take BUFSIZ) r]⟩) := by
  have hchunk : c.take (min BUFSIZ c.length) = c.take BUFSIZ := by
    rw [← List.take_take, List.take_length]
  cases r with
  | count n =>
    obtain rfl : n = 0 := hr
    simp [Pipe.writeImpl, write, writeLoop, hc, writeStep, WriteResult.clamp, hchunk, Except.map,
      SysRun.cons]
  | error e =>
    cases e <;> simp [WriteResult.TakesNothing, Errc.wouldBlock] at hr <;>
      simp [Pipe.writeImpl, write, writeLoop, hc, writeStep, WriteResult.clamp, Errc.wouldBlock,
        hchunk, Except.map, SysRun.cons]

end Unix

/-! ## Runs of `write`s -/

/-- What a run of `write`s over a handle that takes nothing is for, from the write ring `ring`
of a channel named `identifier`: each `write` returns 0 and is buffered while the ring stays
within `BufferSizeMax`, the one that takes it past throws the `OverflowError`, and the later ones
are refused; with the ring and the failure flag at the end. -/
def stalledWrites (identifier : String) :
    List UInt8 → List (List UInt8) → List (Except ChannelError Reply) × List UInt8 × Bool
  | ring, [] => ([], ring, false)
  | ring, d :: ds =>
    if BufferSizeMax < (ring ++ d).length then
      (.error (.overflowError (identifier ++ "(write)") (ring ++ d).length false true) ::
        ds.map (fun _ => .error channelFailed), ring ++ d, true)
    else
      let r := stalledWrites identifier (ring ++ d) ds
      (.ok (.count 0) :: r.1, r.2)

/-- **The runs of `write`s over a handle that takes nothing compute `stalledWrites`**, with one
call at most for each `write` and nothing sent. -/
theorem run_stalled {n fuel : Nat} (hn : 0 < n) (ds : List (List UInt8))
    (ch : BufferedChannel Unit) (hf : ch.failed = false) (hw : ch.writable = true) :
    ∃ T, T.length ≤ ds.length ∧ transmitted T = [] ∧
      run (Handle.stalled n) (fuel + 1) (ds.map .write) ch =
        some ((stalledWrites ch.identifier ch.writeRing ds).1, { ch with
          writeRing := (stalledWrites ch.identifier ch.writeRing ds).2.1,
          failed := (stalledWrites ch.identifier ch.writeRing ds).2.2,
          trace := ch.trace ++ T }) := by
  induction ds generalizing ch with
  | nil => exact ⟨[], le_rfl, rfl, by simp [run, stalledWrites, ← hf]⟩
  | cons d ds ih =>
    obtain ⟨E, hlen, htx, hwr⟩ := @write_stalled n fuel d ch hn hf hw
    by_cases ho : BufferSizeMax < ch.writeRing.length + d.length
    · refine ⟨E, by simp; omega, htx, ?_⟩
      simp [run, Call.exec, hwr, checkOverflow, overflow, ho, Outcome.map, Outcome.value,
        stalledWrites, run_of_failed, Function.comp_def]
    · obtain ⟨T, hlen', htx', hrun⟩ :=
        ih { ch with writeRing := ch.writeRing ++ d, trace := ch.trace ++ E } hf hw
      refine ⟨E ++ T, by simp; omega, by simp [htx, htx'], ?_⟩
      simp [run, Call.exec, hwr, checkOverflow, ho, Outcome.map, Outcome.value, stalledWrites, hrun]

/-- From a ring within bounds, a run of `write`s over a handle that takes nothing ends failed
exactly when its data takes the ring past `BufferSizeMax`. -/
theorem stalledWrites_failed {identifier : String} {ring : List UInt8}
    (hb : ring.length ≤ BufferSizeMax) (ds : List (List UInt8)) :
    (stalledWrites identifier ring ds).2.2 = true ↔
      BufferSizeMax < (ring ++ ds.flatten).length := by
  induction ds generalizing ring with
  | nil => simpa [stalledWrites] using hb
  | cons d ds ih =>
    unfold stalledWrites
    split_ifs with ho
    · simp only [List.flatten_cons, ← List.append_assoc, List.length_append, true_iff] at ho ⊢
      omega
    · simpa [List.append_assoc] using @ih (ring ++ d) (by omega)

/-- While the ring stays within `BufferSizeMax`, every `write` over a handle that takes nothing
returns 0. -/
theorem stalledWrites_of_le {identifier : String} {ring : List UInt8} {ds : List (List UInt8)}
    (h : (ring ++ ds.flatten).length ≤ BufferSizeMax) :
    (stalledWrites identifier ring ds).1 = ds.map fun _ => .ok (.count 0) := by
  induction ds generalizing ring with
  | nil => rfl
  | cons d ds ih =>
    have hd : ¬BufferSizeMax < (ring ++ d).length := by
      simp only [List.flatten_cons, List.length_append] at h ⊢; omega
    have hrest := @ih (ring ++ d) (by simpa [List.append_assoc] using h)
    simp only [stalledWrites, if_neg hd, hrest, List.map_cons]

/-- **A write end that takes nothing buffers until it overflows.** On a pipe whose next
`write(2)` takes nothing (0 bytes: the reader is gone; or `EWOULDBLOCK`/`EAGAIN`),
`Pipe::writeImpl` gives the reply of `Handle.stalled BUFSIZ`, 0 bytes with `Continue` set, and
leaves the pipe unmarked. A channel over that handle that has not failed and can write answers
every run of `write`s as `stalledWrites` says, with at most one call per `write` and no byte
sent: from a ring within bounds it ends failed exactly when the data passes `BufferSizeMax`, and
until then every `write` returns 0. -/
theorem stalled_write_end_overflows :
    (∀ (c : List UInt8) (r : Unix.WriteResult) rs ws calls, c ≠ [] → r.TakesNothing →
      Unix.Pipe.writeImpl c ⟨false, .write, rs, r :: ws, calls⟩ =
        some (.ok (((Handle.stalled Unix.BUFSIZ).writeImpl c ()).sent,
            ((Handle.stalled Unix.BUFSIZ).writeImpl c ()).cont)
          ⟨false, .write, rs, ws, calls ++ [.write (c.take Unix.BUFSIZ) r]⟩)) ∧
    (∀ fuel ds (ch : BufferedChannel Unit), ch.failed = false → ch.writable = true →
      ∃ T, T.length ≤ ds.length ∧ transmitted T = [] ∧
        run (Handle.stalled Unix.BUFSIZ) (fuel + 1) (ds.map .write) ch =
          some ((stalledWrites ch.identifier ch.writeRing ds).1, { ch with
            writeRing := (stalledWrites ch.identifier ch.writeRing ds).2.1,
            failed := (stalledWrites ch.identifier ch.writeRing ds).2.2,
            trace := ch.trace ++ T })) ∧
    (∀ identifier (ring : List UInt8) ds, ring.length ≤ BufferSizeMax →
      ((stalledWrites identifier ring ds).2.2 = true ↔
          BufferSizeMax < (ring ++ ds.flatten).length) ∧
        ((ring ++ ds.flatten).length ≤ BufferSizeMax →
          (stalledWrites identifier ring ds).1 = ds.map fun _ => .ok (.count 0))) :=
  ⟨fun _ _ _ _ _ hc hr => Unix.Pipe.writeImpl_takesNothing hc hr,
    fun _ ds ch hf hw => run_stalled (by decide) ds ch hf hw,
    fun _ _ ds hb => ⟨stalledWrites_failed hb ds, stalledWrites_of_le⟩⟩

end Monomux.System

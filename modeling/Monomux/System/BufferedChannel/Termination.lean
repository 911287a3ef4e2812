import Monomux.System.BufferedChannel.Read
import Monomux.System.BufferedChannel.Write

/-!
# Termination of the channel's loops

Each loop of `BufferedChannel` has a measure that its continuing iterations decrease: the bytes
`read` and `load` still lack, and the bytes `flushWrites` and `write` still have to send. For the
reading loops this holds for every handle, since an iteration that continues got a non-empty
chunk. For the writing loops it needs `optimalWriteSize() > 0`: an iteration that continues had
its whole chunk taken, and only a positive chunk size makes that chunk non-empty.

* `readBody_bytes_lt`, `loadBody_bytes_lt`, `flushBody_ring_lt`, `writeBody_data_lt`: the
  measures decrease;
* `read_isSome`, `load_isSome`, `flushWrites_isSome`, `write_isSome`: the operations end within
  a budget above the bytes asked for or to send;
* `buffered_termination`: the four together;
* `buffered_backpressure`: `write` and `flushWrites` end with a non-empty ring only after a call
  that was short or cleared `Continue`; with `optimalWriteSize() > 0` they end, and a `write(d)`
  whose calls were all full returns `|d|`;
* `flushWrites_devNull_diverges`, `buffered_backpressure_zero_chunk`: with
  `optimalWriteSize() = 0`, a handle that takes every chunk and keeps `Continue` set makes
  `flushWrites` loop for ever on a non-empty ring, and `write` on non-empty data.
-/

namespace Monomux.System

variable {σ : Type} (H : Handle σ)

/-! ## The measures decrease -/

section Measures

variable {H}

theorem readBody_bytes_lt {s s' : ReadLoop σ} (hc : readCond s = true)
    (h : readBody H s = .yield s') : s'.bytes < s.bytes := by
  have hne : (H.readImpl H.optimalReadSize s.handle).chunk ≠ [] := by
    intro he; simp [readBody, he] at h
  have hb := (readCond_eq_true.mp hc).2
  have hlen := List.length_pos.mpr hne
  have : s' = (readBody H s).value := by simp [h]
  rw [this, readBody_bytes, readServed]
  omega

theorem loadBody_bytes_lt {s s' : LoadLoop σ} (hc : loadCond s = true)
    (h : loadBody H s = .yield s') : s'.bytes < s.bytes := by
  have hne : (H.readImpl H.optimalReadSize s.handle).chunk ≠ [] := by
    intro he; simp [loadBody, he] at h
  have hb := (loadCond_eq_true.mp hc).2
  have hlen := List.length_pos.mpr hne
  have : s' = (loadBody H s).value := by simp [h]
  rw [this, loadBody_bytes]
  omega

theorem flushBody_ring_lt (hC : 0 < H.optimalWriteSize) {s s' : FlushLoop σ}
    (hc : flushCond s = true) (h : flushBody H s = .yield s') (hc' : flushCond s' = true) :
    s'.ring.length < s.ring.length := by
  simp only [flushBody] at h
  injection h with h
  subst h
  have hne := List.length_pos.mpr (flushCond_eq_true.mp hc).2
  rw [flushCond_eq_true] at hc'
  split_ifs at hc' with hlt
  · simp at hc'
  · simp only [List.length_take, not_lt] at hlt
    simp only [List.length_drop]
    omega

theorem writeBody_data_lt (hC : 0 < H.optimalWriteSize) {s s' : WriteLoop σ}
    (hc : writeCond s = true) (h : writeBody H s = .yield s') (hc' : writeCond s' = true) :
    s'.data.length < s.data.length := by
  simp only [writeBody] at h
  injection h with h
  subst h
  have hne := List.length_pos.mpr (writeCond_eq_true.mp hc).2
  rw [writeCond_eq_true] at hc'
  split_ifs at hc' with hlt
  · simp at hc'
  · simp only [List.length_drop]
    omega

end Measures

/-! ## The operations end -/

section Ends

variable {H} {fuel n : Nat} {ch : BufferedChannel σ}

theorem read_isSome (hn : n < fuel) : (BufferedChannel.read H fuel n ch).isSome := by
  cases hf : ch.failed
  · cases hr : ch.readable
    · simp [read_of_not_readable hf hr]
    · rcases Nat.lt_or_ge ch.readRing.length n with hlt | hle
      · rw [read_of_lt hf hr hlt, Option.isSome_map']
        exact whileLoop_isSome_of_measure ReadLoop.bytes
          (fun _ _ hc hb _ => readBody_bytes_lt hc hb) (by simp [readStart]; omega)
      · simp [read_of_le hf hr hle]
  · simp [read_of_failed hf]

theorem load_isSome (hn : n < fuel) : (BufferedChannel.load H fuel n ch).isSome := by
  cases hf : ch.failed
  · cases hr : ch.readable
    · simp [load_of_not_readable hf hr]
    · rw [load_eq hf hr, Option.isSome_map']
      exact whileLoop_isSome_of_measure LoadLoop.bytes
        (fun _ _ hc hb _ => loadBody_bytes_lt hc hb) (by simpa [loadStart] using hn)
  · simp [load_of_failed hf]

theorem flushWrites_isSome (hC : 0 < H.optimalWriteSize) (hW : ch.writeRing.length < fuel) :
    (BufferedChannel.flushWrites H fuel ch).isSome := by
  cases hf : ch.failed
  · cases hw : ch.writable
    · simp [BufferedChannel.flushWrites, hf, hw]
    · rw [flushWrites_eq hf hw]
      split_ifs
      · rfl
      · rw [Option.isSome_map']
        exact whileLoop_isSome_of_measure (fun s => s.ring.length)
          (fun _ _ hc hb hc' => flushBody_ring_lt hC hc hb hc') hW
  · simp [BufferedChannel.flushWrites, hf]

theorem write_isSome (hC : 0 < H.optimalWriteSize) {d : List UInt8}
    (hW : ch.writeRing.length < fuel) (hd : d.length < fuel) :
    (BufferedChannel.write H fuel d ch).isSome := by
  obtain ⟨res, hres⟩ := Option.isSome_iff_exists.mp (flushWrites_isSome hC hW)
  unfold BufferedChannel.write
  simp only [hres]
  cases res <;> dsimp only <;> split_ifs <;> try rfl
  rw [Option.isSome_map']
  exact whileLoop_isSome_of_measure (fun s => s.data.length)
    (fun _ _ hc hb hc' => writeBody_data_lt hC hc hb hc') hd

end Ends

/-- **The channel's loops end.** `read(n)` and `load(n)` end within `n + 1` iterations for every
handle; `flushWrites` and `write(d)` end within one more than the bytes they have to send when
`optimalWriteSize() > 0`. Each iteration that does not stop decreases the bytes still to be read
or sent. -/
theorem buffered_termination :
    (∀ (ch : BufferedChannel σ) n fuel, n < fuel →
        (BufferedChannel.read H fuel n ch).isSome ∧ (BufferedChannel.load H fuel n ch).isSome) ∧
      (0 < H.optimalWriteSize → ∀ (ch : BufferedChannel σ) d fuel,
        ch.writeRing.length < fuel → d.length < fuel →
        (BufferedChannel.flushWrites H fuel ch).isSome ∧
          (BufferedChannel.write H fuel d ch).isSome) ∧
      (∀ s s' : ReadLoop σ, readCond s = true → readBody H s = .yield s' → s'.bytes < s.bytes) ∧
      (∀ s s' : LoadLoop σ, loadCond s = true → loadBody H s = .yield s' → s'.bytes < s.bytes) ∧
      (0 < H.optimalWriteSize → ∀ s s' : FlushLoop σ, flushCond s = true →
        flushBody H s = .yield s' → flushCond s' = true → s'.ring.length < s.ring.length) ∧
      (0 < H.optimalWriteSize → ∀ s s' : WriteLoop σ, writeCond s = true →
        writeBody H s = .yield s' → writeCond s' = true → s'.data.length < s.data.length) :=
  ⟨fun _ _ _ hn => ⟨read_isSome hn, load_isSome hn⟩,
    fun hC _ _ _ hW hd => ⟨flushWrites_isSome hC hW, write_isSome hC hW hd⟩,
    fun _ _ => readBody_bytes_lt, fun _ _ => loadBody_bytes_lt,
    fun hC _ _ => flushBody_ring_lt hC, fun hC _ _ => writeBody_data_lt hC⟩

theorem buffered_termination_devNull :
    0 < (Handle.devNull 1).optimalWriteSize ∧
      (BufferedChannel.write (Handle.devNull 1) 3 [1, 2]
        ⟨"", false, true, true, [], [7], (), []⟩).isSome :=
  ⟨by decide, ((buffered_termination (H := Handle.devNull 1)).2.1 (by decide)
    ⟨"", false, true, true, [], [7], (), []⟩ [1, 2] 3 (by decide) (by decide)).2⟩

/-! ## A zero chunk size -/

section ZeroChunk

/-- With `optimalWriteSize() = 0` every chunk `flushWrites` offers is empty; a handle that takes
it and keeps `Continue` set leaves the ring as it was, so the loop never ends. -/
theorem flushLoop_zeroChunk_none {fuel : Nat} {s : FlushLoop Unit} (hne : s.ring ≠ [])
    (hc : s.cont = true) : whileLoop flushCond (flushBody (Handle.devNull 0)) fuel s = none :=
  whileLoop_eq_none (fun t => t.ring = s.ring ∧ t.cont = true)
    (fun _ ⟨hr, hc⟩ => ⟨by simpa [hr, hc] using hne, _, rfl,
      by simp [flushBody, Handle.devNull, hr]⟩) ⟨rfl, hc⟩

/-- The same for `write`'s own loop and the data it has left. -/
theorem writeLoop_zeroChunk_none {fuel : Nat} {s : WriteLoop Unit} (hne : s.data ≠ [])
    (hc : s.cont = true) : whileLoop writeCond (writeBody (Handle.devNull 0)) fuel s = none :=
  whileLoop_eq_none (fun t => t.data = s.data ∧ t.cont = true)
    (fun _ ⟨hd, hc⟩ => ⟨by simpa [hd, hc] using hne, _, rfl,
      by simp [writeBody, Handle.devNull, hd]⟩) ⟨rfl, hc⟩

end ZeroChunk

/-- **A zero chunk size stalls `flushWrites`.** With `optimalWriteSize() = 0`, every chunk offered
is empty; a handle that takes it all and keeps `Continue` set leaves the ring as it was, so on a
non-empty ring `flushWrites` never ends. -/
theorem flushWrites_devNull_diverges (fuel : Nat) (ch : BufferedChannel Unit)
    (hf : ch.failed = false) (hw : ch.writable = true) (hne : ch.writeRing ≠ []) :
    BufferedChannel.flushWrites (Handle.devNull 0) fuel ch = none := by
  rw [flushWrites_eq hf hw, if_neg hne, Option.map_eq_none']
  exact flushLoop_zeroChunk_none hne rfl

theorem flushWrites_devNull_diverges_one :
    BufferedChannel.flushWrites (Handle.devNull 0) 10
      ⟨"", false, true, true, [], [0], (), []⟩ = none :=
  flushWrites_devNull_diverges 10 ⟨"", false, true, true, [], [0], (), []⟩ rfl rfl (by simp)

/-! ## Backpressure -/

/-- **`write` and `flushWrites` buffer only under backpressure.** A `write(d)` or `flushWrites`
that runs past its checks ends with a non-empty write ring only if one of its `writeImpl` calls
took less than it was offered or cleared `Continue`. When `optimalWriteSize() > 0` both end within
a budget above the bytes they have to send, and a `write(d)` all of whose calls took all they were
offered and left `Continue` set sent the whole ring and then all of `d`, returns `|d|`, and leaves
the ring empty. -/
theorem buffered_backpressure (H : Handle σ) (fuel : Nat) :
    (∀ (ch : BufferedChannel σ) d res, ch.failed = false → ch.writable = true →
        BufferedChannel.write H fuel d ch = some res →
        ∃ E, res.state.trace = ch.trace ++ E ∧ (res.state.writeRing ≠ [] →
          ∃ c k cont, Event.writeImpl c k cont ∈ E ∧ (k < c.length ∨ cont = false))) ∧
      (∀ (ch : BufferedChannel σ) res, ch.failed = false → ch.writable = true →
        BufferedChannel.flushWrites H fuel ch = some res →
        ∃ E, res.state.trace = ch.trace ++ E ∧ (res.state.writeRing ≠ [] →
          ∃ c k cont, Event.writeImpl c k cont ∈ E ∧ (k < c.length ∨ cont = false))) ∧
      (0 < H.optimalWriteSize → ∀ (ch : BufferedChannel σ) d, ch.failed = false →
        ch.writable = true → ch.writeRing.length < fuel → d.length < fuel →
        (BufferedChannel.flushWrites H fuel ch).isSome ∧
        ∃ res E, BufferedChannel.write H fuel d ch = some res ∧ res.state.trace = ch.trace ++ E ∧
          ((∀ e ∈ E, e.Full) → transmitted E = ch.writeRing ++ d ∧ res = .ok d.length { ch with
            writeRing := [], handle := res.state.handle, trace := ch.trace ++ E })) := by
  refine ⟨fun _ _ _ hf hw h => write_short_of_buffered hf hw h,
    fun _ _ hf hw h => flushWrites_short_of_buffered hf hw h,
    fun hC ch d hf hw hW hd => ⟨flushWrites_isSome hC hW, ?_⟩⟩
  obtain ⟨res, h⟩ := Option.isSome_iff_exists.mp (write_isSome (d := d) hC hW hd)
  exact ⟨res, (write_of_all_full hf hw h).imp fun _ hE => ⟨h, hE⟩⟩

theorem buffered_backpressure_devNull :
    0 < (Handle.devNull 1).optimalWriteSize ∧
      ∃ res E, BufferedChannel.write (Handle.devNull 1) 3 [1, 2]
        ⟨"", false, true, true, [], [7], (), []⟩ = some res ∧ res.state.trace = [] ++ E ∧
        ((∀ e ∈ E, e.Full) → transmitted E = [7] ++ [1, 2] ∧ res = .ok 2
          ⟨"", false, true, true, [], [], res.state.handle, [] ++ E⟩) :=
  ⟨by decide, ((buffered_backpressure (Handle.devNull 1) 3).2.2 (by decide)
    ⟨"", false, true, true, [], [7], (), []⟩ [1, 2] rfl rfl (by decide) (by decide)).2⟩

/-- **Without a positive chunk size `write` need not return.** On an empty ring the flush returns
0 at once; `write([1])` then offers `devNull 0` empty chunks, which it takes whole with `Continue`
set, so every call is full and none is short, yet `write` never returns `|d|` or anything else. -/
theorem buffered_backpressure_zero_chunk :
    ¬ ∃ fuel res, BufferedChannel.write (Handle.devNull 0) fuel [1]
      ⟨"", false, true, true, [], [], (), []⟩ = some res := by
  rintro ⟨fuel, res, h⟩
  rw [BufferedChannel.write, if_neg (by simp), if_neg (by simp),
    flushWrites_eq rfl rfl, if_pos rfl] at h
  simp only [lt_irrefl, if_false, List.cons_ne_nil] at h
  rw [writeLoop_zeroChunk_none (by simp) rfl] at h
  cases h

end Monomux.System

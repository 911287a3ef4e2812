import Monomux.System.Loop
import Monomux.System.BufferedChannel.Basic

/-!
# Writing: `flushWrites` and `write`

`BufferedChannel::flushWrites()` offers the front `optimalWriteSize()` bytes of the write ring to
`writeImpl` and drops what it took, until the ring is empty, a call takes less than offered, or the
handle clears `Continue`; it returns the bytes it sent. `BufferedChannel::write(Data)` flushes
first. If the flush left bytes in the ring, `Data` goes behind them and `write` returns 0, so that
no byte overtakes a buffered one; otherwise `Data` is sent in chunks the same way and what is left
of it is buffered.

* `flushLoop_inv`, `writeLoop_inv`: the bytes sent and what is left are, in order, what there was
  to send;
* `flushWrites_spec`: `flushWrites` returns `k` and sent exactly the first `k` bytes of the ring;
* `write_spec`: `write` sent the part of the ring its flush took and the first `k` bytes of `Data`,
  where `k` is what it returns, and buffered the rest behind what the flush left; `k = 0` when the
  flush left bytes;
* `write_stalled`: over a handle that takes nothing, `write(d)` appends `d` to the ring and
  returns 0 or overflows, having sent nothing.
-/

namespace Monomux.System

variable {σ : Type} (H : Handle σ)

/-- A call that took all it was offered and left `Continue` set. -/
def Event.Full : Event → Prop
  | .writeImpl c k cont => k = c.length ∧ cont = true
  | .readImpl .. => False

/-! ## `flushWrites` -/

/-- The locals of `flushWrites`'s loop (`BytesSent`, `ContinueWriting`) and the parts of the
channel it changes. -/
structure FlushLoop (σ : Type) where
  ring : List UInt8
  bytesSent : Nat
  handle : σ
  trace : List Event
  cont : Bool

/-- `while (ContinueWriting && hasBufferedWrite())`. -/
def flushCond (s : FlushLoop σ) : Bool := s.cont && !s.ring.isEmpty

@[simp] theorem flushCond_eq_true {s : FlushLoop σ} :
    flushCond s = true ↔ s.cont = true ∧ s.ring ≠ [] := by
  simp [flushCond]

/-- One iteration of `flushWrites`'s loop. -/
def flushBody (s : FlushLoop σ) : ForInStep (FlushLoop σ) :=
  let v := s.ring.take H.optimalWriteSize
  let r := H.writeImpl v s.handle
  .yield ⟨s.ring.drop r.sent, s.bytesSent + r.sent, r.next,
    s.trace ++ [.writeImpl v r.sent r.cont], if r.sent < v.length then false else r.cont⟩

/-- `BufferedChannel::flushWrites()`, with at most `fuel` iterations of its loop. -/
def BufferedChannel.flushWrites (fuel : Nat) (ch : BufferedChannel σ) :
    Option (Outcome σ Nat) :=
  if ch.failed then some (.error channelFailed ch)
  else if !ch.writable then some (.error noWrite ch)
  else if ch.writeRing = [] then some (.ok 0 ch)
  else
    (whileLoop flushCond (flushBody H) fuel ⟨ch.writeRing, 0, ch.handle, ch.trace, true⟩).map
      fun s => .ok s.bytesSent { ch with writeRing := s.ring, handle := s.handle, trace := s.trace }

/-- The event one iteration of `flushWrites` records. -/
def flushEvent (s : FlushLoop σ) : Event :=
  .writeImpl (s.ring.take H.optimalWriteSize)
    (H.writeImpl (s.ring.take H.optimalWriteSize) s.handle).sent
    (H.writeImpl (s.ring.take H.optimalWriteSize) s.handle).cont

/-- What `flushWrites`'s loop keeps: the bytes sent followed by the ring are the ring it started
with, `BytesSent` counts them, and `Continue` is still set if every call was full. -/
structure FlushLoopInv (base : List UInt8) (tr : List Event) (s : FlushLoop σ) : Prop where
  trace_eq : ∃ E, s.trace = tr ++ E ∧ WriteCalls E ∧ transmitted E ++ s.ring = base ∧
    s.bytesSent = (transmitted E).length ∧ ((∀ e ∈ E, e.Full) → s.cont = true)

theorem flushLoopInv_step {base : List UInt8} {tr : List Event} {s : FlushLoop σ}
    (hs : FlushLoopInv base tr s) : FlushLoopInv base tr (flushBody H s).value := by
  obtain ⟨E, htr, hfe, hcons, hsent, hfull⟩ := hs
  have hle := H.writeImpl_le (s.ring.take H.optimalWriteSize) s.handle
  have hk : min (H.writeImpl (s.ring.take H.optimalWriteSize) s.handle).sent
      H.optimalWriteSize = (H.writeImpl (s.ring.take H.optimalWriteSize) s.handle).sent := by
    simp only [List.length_take] at hle; omega
  refine ⟨E ++ [flushEvent H s], by simp [flushBody, flushEvent, htr],
    by simpa [hfe, flushEvent] using hle, ?_, ?_, ?_⟩
  · simp [flushBody, flushEvent, ← hcons, Event.transmitted, List.take_take, hk]
  · simp only [List.length_take] at hle
    simp [flushBody, flushEvent, hsent, Event.transmitted, List.take_take, hk]; omega
  · intro hall
    have := hall _ (List.mem_append_right _ (List.mem_singleton_self _))
    simp only [flushEvent, Event.Full] at this
    simp [flushBody, this.1, this.2]

theorem flushLoop_inv {fuel : Nat} {base : List UInt8} {tr : List Event} {s r : FlushLoop σ}
    (h : whileLoop flushCond (flushBody H) fuel s = some r) (hs : FlushLoopInv base tr s) :
    FlushLoopInv base tr r :=
  whileLoop_inv _ (fun _ _ hi => flushLoopInv_step H hi) h hs

/-- `flushWrites`'s loop empties the ring when every call is full. -/
theorem flushLoop_full {fuel : Nat} {base : List UInt8} {tr : List Event} {s r : FlushLoop σ}
    (h : whileLoop flushCond (flushBody H) fuel s = some r) (hs : FlushLoopInv base tr s)
    (hfull : ∀ e ∈ r.trace.drop tr.length, e.Full) : r.ring = [] := by
  refine whileLoop_induction (FlushLoopInv base tr)
    (fun r => (∀ e ∈ r.trace.drop tr.length, e.Full) → r.ring = [])
    (fun _ _ _ hi hb => by simpa [hb] using flushLoopInv_step H hi)
    (fun _ _ _ _ hb => by simp [flushBody] at hb) (fun r hc hi hfull => ?_) h hs hfull
  obtain ⟨E, htr, -, -, -, hcont⟩ := hi
  simp only [htr, List.drop_left] at hfull
  simpa [flushCond, hcont hfull] using hc

/-! ## `write` -/

/-- The locals of `write`'s loop (`Data`, `BytesSent`, `ContinueWriting`) and the parts of the
channel it changes. -/
structure WriteLoop (σ : Type) where
  data : List UInt8
  bytesSent : Nat
  handle : σ
  trace : List Event
  cont : Bool

/-- `while (ContinueWriting && !Data.empty())`. -/
def writeCond (s : WriteLoop σ) : Bool := s.cont && !s.data.isEmpty

@[simp] theorem writeCond_eq_true {s : WriteLoop σ} :
    writeCond s = true ↔ s.cont = true ∧ s.data ≠ [] := by
  simp [writeCond]

/-- One iteration of `write`'s loop. -/
def writeBody (s : WriteLoop σ) : ForInStep (WriteLoop σ) :=
  let toSend := min H.optimalWriteSize s.data.length
  let chunk := s.data.take toSend
  let r := H.writeImpl chunk s.handle
  .yield ⟨s.data.drop r.sent, s.bytesSent + r.sent, r.next,
    s.trace ++ [.writeImpl chunk r.sent r.cont], if r.sent < toSend then false else r.cont⟩

/-- `BufferedChannel::write(Data)`, with at most `fuel` iterations of each of its loops (its
own and that of the `flushWrites` it starts with). -/
def BufferedChannel.write (fuel : Nat) (data : List UInt8) (ch : BufferedChannel σ) :
    Option (Outcome σ Nat) :=
  if ch.failed then some (.error channelFailed ch)
  else if !ch.writable then some (.error noWrite ch)
  else
    let inWriteBuffer := ch.writeRing.length
    match BufferedChannel.flushWrites H fuel ch with
    | none => none
    | some (.error e ch) => some (.error e ch)
    | some (.ok bufferSent ch) =>
      if bufferSent < inWriteBuffer then
        some (checkOverflow (ch.writeRing ++ data) "(write)" false true 0
          { ch with writeRing := ch.writeRing ++ data })
      else if data = [] then some (.ok 0 ch)
      else
        (whileLoop writeCond (writeBody H) fuel ⟨data, 0, ch.handle, ch.trace, true⟩).map fun s =>
          checkOverflow (ch.writeRing ++ s.data) "(write)" false true s.bytesSent
            { ch with writeRing := ch.writeRing ++ s.data, handle := s.handle, trace := s.trace }

/-- The event one iteration of `write` records. -/
def writeEvent (s : WriteLoop σ) : Event :=
  .writeImpl (s.data.take (min H.optimalWriteSize s.data.length))
    (H.writeImpl (s.data.take (min H.optimalWriteSize s.data.length)) s.handle).sent
    (H.writeImpl (s.data.take (min H.optimalWriteSize s.data.length)) s.handle).cont

/-- What `write`'s loop keeps: the bytes sent followed by what is left of `Data` are `Data`,
`BytesSent` counts them, and `Continue` is still set if every call was full. -/
structure WriteLoopInv (base : List UInt8) (tr : List Event) (s : WriteLoop σ) : Prop where
  trace_eq : ∃ E, s.trace = tr ++ E ∧ WriteCalls E ∧ transmitted E ++ s.data = base ∧
    s.bytesSent = (transmitted E).length ∧ ((∀ e ∈ E, e.Full) → s.cont = true)

theorem writeLoopInv_step {base : List UInt8} {tr : List Event} {s : WriteLoop σ}
    (hs : WriteLoopInv base tr s) : WriteLoopInv base tr (writeBody H s).value := by
  obtain ⟨E, htr, hfe, hcons, hsent, hfull⟩ := hs
  have hle := H.writeImpl_le (s.data.take (min H.optimalWriteSize s.data.length)) s.handle
  simp only [List.length_take] at hle
  have hk : min (H.writeImpl (s.data.take (min H.optimalWriteSize s.data.length)) s.handle).sent
      (min H.optimalWriteSize s.data.length) =
      (H.writeImpl (s.data.take (min H.optimalWriteSize s.data.length)) s.handle).sent := by
    omega
  refine ⟨E ++ [writeEvent H s], by simp [writeBody, writeEvent, htr],
    by simp [hfe, writeEvent]; omega, ?_, ?_, ?_⟩
  · simp [writeBody, writeEvent, ← hcons, Event.transmitted, List.take_take, hk]
  · simp [writeBody, writeEvent, hsent, Event.transmitted, List.take_take, hk]; omega
  · intro hall
    have := hall _ (List.mem_append_right _ (List.mem_singleton_self _))
    simp only [writeEvent, Event.Full, List.length_take] at this
    simp [writeBody, this.1, this.2]

theorem writeLoop_inv {fuel : Nat} {base : List UInt8} {tr : List Event} {s r : WriteLoop σ}
    (h : whileLoop writeCond (writeBody H) fuel s = some r) (hs : WriteLoopInv base tr s) :
    WriteLoopInv base tr r :=
  whileLoop_inv _ (fun _ _ hi => writeLoopInv_step H hi) h hs

/-- `write`'s loop sends all of `Data` when every call is full. -/
theorem writeLoop_full {fuel : Nat} {base : List UInt8} {tr : List Event} {s r : WriteLoop σ}
    (h : whileLoop writeCond (writeBody H) fuel s = some r) (hs : WriteLoopInv base tr s)
    (hfull : ∀ e ∈ r.trace.drop tr.length, e.Full) : r.data = [] := by
  refine whileLoop_induction (WriteLoopInv base tr)
    (fun r => (∀ e ∈ r.trace.drop tr.length, e.Full) → r.data = [])
    (fun _ _ _ hi hb => by simpa [hb] using writeLoopInv_step H hi)
    (fun _ _ _ _ hb => by simp [writeBody] at hb) (fun r hc hi hfull => ?_) h hs hfull
  obtain ⟨E, htr, -, -, -, hcont⟩ := hi
  simp only [htr, List.drop_left] at hfull
  simpa [writeCond, hcont hfull] using hc

/-! ## What the operations do -/

section Spec

variable {H} {fuel : Nat} {d : List UInt8} {ch : BufferedChannel σ}

theorem flushWrites_of_failed (hf : ch.failed = true) :
    BufferedChannel.flushWrites H fuel ch = some (.error channelFailed ch) := by
  simp [BufferedChannel.flushWrites, hf]

theorem flushWrites_of_not_writable (hf : ch.failed = false) (hw : ch.writable = false) :
    BufferedChannel.flushWrites H fuel ch = some (.error noWrite ch) := by
  simp [BufferedChannel.flushWrites, hf, hw]

theorem flushWrites_eq (hf : ch.failed = false) (hw : ch.writable = true) :
    BufferedChannel.flushWrites H fuel ch =
      if ch.writeRing = [] then some (.ok 0 ch)
      else (whileLoop flushCond (flushBody H) fuel ⟨ch.writeRing, 0, ch.handle, ch.trace, true⟩).map
        fun s => .ok s.bytesSent { ch with writeRing := s.ring, handle := s.handle, trace := s.trace } := by
  simp [BufferedChannel.flushWrites, hf, hw]

/-- **`flushWrites` returns the number of ring bytes it sent**: a `flushWrites` that runs past
its checks returns some `k`, sent exactly the first `k` bytes of the ring and leaves the rest,
and empties the ring when every call it made was full. -/
theorem flushWrites_spec (hf : ch.failed = false) (hw : ch.writable = true) {res : Outcome σ Nat}
    (h : BufferedChannel.flushWrites H fuel ch = some res) :
    ∃ k E h', res = .ok k { ch with
        writeRing := ch.writeRing.drop k, handle := h', trace := ch.trace ++ E } ∧
      WriteCalls E ∧ transmitted E = ch.writeRing.take k ∧ k ≤ ch.writeRing.length ∧
      ((∀ e ∈ E, e.Full) → ch.writeRing.drop k = []) := by
  rw [flushWrites_eq hf hw] at h
  split_ifs at h with hW
  · cases h
    exact ⟨0, [], ch.handle, by simp only [List.drop_zero, List.append_nil], writeCalls_nil,
      by simp, by simp, by simp [hW]⟩
  · rw [Option.map_eq_some'] at h
    obtain ⟨s, hs, rfl⟩ := h
    have hinv : FlushLoopInv ch.writeRing ch.trace ⟨ch.writeRing, 0, ch.handle, ch.trace, true⟩ :=
      ⟨[], by simp, writeCalls_nil, by simp, rfl, by simp⟩
    obtain ⟨E, htr, hfe, hcons, hsent, -⟩ := flushLoop_inv H hs hinv
    have htake : ch.writeRing.take s.bytesSent = transmitted E := by
      rw [← hcons, hsent, List.take_left]
    have hdrop : ch.writeRing.drop s.bytesSent = s.ring := by
      rw [← hcons, hsent, List.drop_left]
    have hle : s.bytesSent ≤ ch.writeRing.length := by
      rw [← hcons, hsent, List.length_append]; omega
    refine ⟨s.bytesSent, E, s.handle, by simp [hdrop, htr], hfe, htake.symm, hle, fun hfull => ?_⟩
    rw [hdrop]
    exact flushLoop_full H hs hinv (by simpa [htr] using hfull)

theorem write_of_failed (hf : ch.failed = true) :
    BufferedChannel.write H fuel d ch = some (.error channelFailed ch) := by
  simp [BufferedChannel.write, hf]

theorem write_of_not_writable (hf : ch.failed = false) (hw : ch.writable = false) :
    BufferedChannel.write H fuel d ch = some (.error noWrite ch) := by
  simp [BufferedChannel.write, hf, hw]

/-- **What `write` sends and buffers.** A `write(d)` that runs past its checks ends with the size
check on a ring `ring'` and returns some `k` (or overflows). It sent a part `f` of the ring its
flush took, then the first `k` bytes of `d`, and `f`, those bytes and `ring'` are the old ring
followed by `d`. Either the flush took the whole ring, or it left bytes and then `k = 0`, so
that `d` went whole behind them. When every call it made was full, `ring'` is empty and
`k = |d|`. -/
theorem write_spec (hf : ch.failed = false) (hw : ch.writable = true) {res : Outcome σ Nat}
    (h : BufferedChannel.write H fuel d ch = some res) :
    ∃ k f E ring' h', res = checkOverflow ring' "(write)" false true k { ch with
        writeRing := ring', handle := h', trace := ch.trace ++ E } ∧
      WriteCalls E ∧ transmitted E = f ++ d.take k ∧ f ++ d.take k ++ ring' = ch.writeRing ++ d ∧
      (f = ch.writeRing ∨ (k = 0 ∧ f.length < ch.writeRing.length)) ∧
      ((∀ e ∈ E, e.Full) → ring' = [] ∧ k = d.length) ∧ k ≤ d.length := by
  rw [BufferedChannel.write, if_neg (by simp [hf]), if_neg (by simp [hw])] at h
  cases hfl : BufferedChannel.flushWrites H fuel ch with
  | none => simp [hfl] at h
  | some r =>
    obtain ⟨k₀, E₀, h₀, rfl, hfe₀, htx₀, -, hfull₀⟩ := flushWrites_spec hf hw hfl
    simp only [hfl] at h
    have hk₀ : (ch.writeRing.take k₀).length = min k₀ ch.writeRing.length := List.length_take _ _
    split_ifs at h with hpart hd
    · -- the flush left bytes: `d` is buffered behind them
      cases h
      refine ⟨0, ch.writeRing.take k₀, E₀, ch.writeRing.drop k₀ ++ d, h₀, rfl, hfe₀, by simp [htx₀],
        by rw [List.take_zero, List.append_nil, ← List.append_assoc, List.take_append_drop],
        .inr ⟨rfl, by omega⟩, fun hfull => ?_, Nat.zero_le _⟩
      have := List.drop_eq_nil_iff.mp (hfull₀ hfull)
      omega
    · -- the flush sent the whole ring and there is nothing more to send
      cases h
      have hnil : ch.writeRing.drop k₀ = [] := List.drop_eq_nil_iff.mpr (by omega)
      refine ⟨0, ch.writeRing, E₀, [], h₀, by simp [checkOverflow, hnil, hd], hfe₀, ?_, by simp [hd],
        .inl rfl, fun _ => by simp [hd], Nat.zero_le _⟩
      rw [htx₀, List.take_of_length_le (by omega), hd, List.take_nil, List.append_nil]
    · -- the flush sent the whole ring; `d` goes through `write`'s own loop
      rw [Option.map_eq_some'] at h
      obtain ⟨s, hs, rfl⟩ := h
      have hnil : ch.writeRing.drop k₀ = [] := List.drop_eq_nil_iff.mpr (by omega)
      have hinv : WriteLoopInv d (ch.trace ++ E₀) ⟨d, 0, h₀, ch.trace ++ E₀, true⟩ :=
        ⟨[], by simp, writeCalls_nil, rfl, rfl, by simp⟩
      obtain ⟨E₁, htr, hfe₁, hcons, hsent, -⟩ := writeLoop_inv H hs hinv
      have htake : d.take s.bytesSent = transmitted E₁ := by rw [← hcons, hsent, List.take_left]
      have hdrop : d.drop s.bytesSent = s.data := by rw [← hcons, hsent, List.drop_left]
      have hW : ch.writeRing.take k₀ = ch.writeRing := List.take_of_length_le (by omega)
      refine ⟨s.bytesSent, ch.writeRing, E₀ ++ E₁, s.data, s.handle, by simp [hnil, htr], by
        simp [hfe₀, hfe₁], by simp [htx₀, hW, htake], by rw [← hdrop, List.append_assoc,
        List.take_append_drop], .inl rfl, fun hfull => ?_, ?_⟩
      swap
      · have := congrArg List.length hcons
        rw [List.length_append] at this
        omega
      have hdata : s.data = [] := writeLoop_full H hs hinv
        (by simpa [htr] using fun e he => hfull e (List.mem_append_right _ he))
      refine ⟨hdata, ?_⟩
      rw [hsent, ← htake, List.length_take]
      rw [← hdrop, List.drop_eq_nil_iff] at hdata
      omega

/-- What a `write(d)` that ran past its checks leaves, whether it returned or overflowed: the
bytes it sent followed by the write ring are the old ring followed by `d`, and nothing but the
write ring, the handle and the failure flag changed. -/
theorem write_state (hf : ch.failed = false) (hw : ch.writable = true) {res : Outcome σ Nat}
    (h : BufferedChannel.write H fuel d ch = some res) :
    ∃ E, res.state = { ch with
        writeRing := res.state.writeRing, handle := res.state.handle, trace := ch.trace ++ E,
        failed := res.state.failed } ∧
      WriteCalls E ∧ transmitted E ++ res.state.writeRing = ch.writeRing ++ d := by
  obtain ⟨k, f, E, ring', h', rfl, hfe, htx, hcons, -⟩ := write_spec hf hw h
  refine ⟨E, ?_, hfe, ?_⟩
  · simp only [state_checkOverflow]
    split_ifs <;> simp [hf]
  · simp only [state_checkOverflow]
    split_ifs <;> simpa [htx] using hcons

/-- A `write(d)` that returns `k ≤ |d|` sent exactly the first `k` bytes of `d`, after the part
`f` of the ring its flush took; if that flush left bytes, `k = 0` and `d` went whole behind them. -/
theorem write_ok_sent {k : Nat} {ch' : BufferedChannel σ}
    (h : BufferedChannel.write H fuel d ch = some (.ok k ch')) :
    ∃ E f, ch'.trace = ch.trace ++ E ∧ transmitted E = f ++ d.take k ∧ k ≤ d.length ∧
      ((f = ch.writeRing ∧ ch'.writeRing = d.drop k) ∨
        (k = 0 ∧ f.length < ch.writeRing.length ∧ f ++ ch'.writeRing = ch.writeRing ++ d)) := by
  cases hf : ch.failed
  · cases hw : ch.writable
    · simp [write_of_not_writable hf hw] at h
    · obtain ⟨k', f, E, ring', h', hres, -, htx, hcons, hpart, -, hle⟩ := write_spec hf hw h
      obtain ⟨-, rfl, rfl⟩ := checkOverflow_eq_ok.mp hres.symm
      refine ⟨E, f, rfl, htx, hle, ?_⟩
      rcases hpart with rfl | ⟨rfl, hlt⟩
      · refine .inl ⟨rfl, ?_⟩
        rw [List.append_assoc, List.append_cancel_left_eq] at hcons
        conv_rhs at hcons => rw [← List.take_append_drop k d]
        exact List.append_cancel_left hcons
      · exact .inr ⟨rfl, hlt, by simpa using hcons⟩
  · simp [write_of_failed hf] at h

/-- What a `flushWrites` that ran past its checks leaves: the bytes it sent followed by the write
ring are the old ring, and nothing but the write ring and the handle changed. -/
theorem flushWrites_state (hf : ch.failed = false) (hw : ch.writable = true)
    {res : Outcome σ Nat} (h : BufferedChannel.flushWrites H fuel ch = some res) :
    ∃ E, res.state = { ch with
        writeRing := res.state.writeRing, handle := res.state.handle, trace := ch.trace ++ E } ∧
      WriteCalls E ∧ transmitted E ++ res.state.writeRing = ch.writeRing ∧
      res.state.writeRing.length ≤ ch.writeRing.length := by
  obtain ⟨k, E, h', rfl, hfe, htx, -, -⟩ := flushWrites_spec hf hw h
  exact ⟨E, rfl, hfe, by simp [htx], by simp⟩

/-- A `flushWrites` that returns `k` sent exactly the first `k` bytes of the ring, which holds at
least `k`. -/
theorem flushWrites_ok_sent {k : Nat} {ch' : BufferedChannel σ}
    (h : BufferedChannel.flushWrites H fuel ch = some (.ok k ch')) :
    ∃ E, ch'.trace = ch.trace ++ E ∧ transmitted E = ch.writeRing.take k ∧
      k ≤ ch.writeRing.length ∧ ch'.writeRing = ch.writeRing.drop k := by
  cases hf : ch.failed
  · cases hw : ch.writable
    · simp [flushWrites_of_not_writable hf hw] at h
    · obtain ⟨k', E, h', hres, -, htx, hle, -⟩ := flushWrites_spec hf hw h
      cases hres
      exact ⟨E, rfl, htx, hle, rfl⟩
  · simp [flushWrites_of_failed hf] at h

/-- A run of `writeImpl` calls that are not all full holds one that took less than it was
offered or cleared `Continue`. -/
theorem WriteCalls.exists_short {E : List Event} (hE : WriteCalls E) (h : ¬∀ e ∈ E, e.Full) :
    ∃ c k cont, Event.writeImpl c k cont ∈ E ∧ (k < c.length ∨ cont = false) := by
  push_neg at h
  obtain ⟨e, he, hnf⟩ := h
  obtain ⟨c, k, cont, rfl, hk⟩ := hE e he
  refine ⟨c, k, cont, he, ?_⟩
  simp only [Event.Full, not_and] at hnf
  by_cases hkc : k = c.length
  · exact .inr (by simpa using hnf hkc)
  · exact .inl (by omega)

/-- A `write(d)` that ran past its checks and left bytes in the ring made a `writeImpl` call that
took less than it was offered or cleared `Continue`. -/
theorem write_short_of_buffered (hf : ch.failed = false) (hw : ch.writable = true)
    {res : Outcome σ Nat} (h : BufferedChannel.write H fuel d ch = some res) :
    ∃ E, res.state.trace = ch.trace ++ E ∧ (res.state.writeRing ≠ [] →
      ∃ c k cont, Event.writeImpl c k cont ∈ E ∧ (k < c.length ∨ cont = false)) := by
  obtain ⟨k, f, E, ring', h', rfl, hwc, -, -, -, hfull, -⟩ := write_spec hf hw h
  refine ⟨E, by simp only [state_checkOverflow]; split_ifs <;> rfl, fun hne => ?_⟩
  refine hwc.exists_short fun hall => hne ?_
  simp only [state_checkOverflow]
  split_ifs <;> exact (hfull hall).1

/-- The same for `flushWrites`. -/
theorem flushWrites_short_of_buffered (hf : ch.failed = false) (hw : ch.writable = true)
    {res : Outcome σ Nat} (h : BufferedChannel.flushWrites H fuel ch = some res) :
    ∃ E, res.state.trace = ch.trace ++ E ∧ (res.state.writeRing ≠ [] →
      ∃ c k cont, Event.writeImpl c k cont ∈ E ∧ (k < c.length ∨ cont = false)) := by
  obtain ⟨k, E, h', rfl, hwc, -, -, hfull⟩ := flushWrites_spec hf hw h
  exact ⟨E, rfl, fun hne => hwc.exists_short fun hall => hne (hfull hall)⟩

/-- A `write(d)` all of whose calls were full sent the whole ring and then all of `d`, returns
`|d|` and leaves the ring empty. -/
theorem write_of_all_full (hf : ch.failed = false) (hw : ch.writable = true)
    {res : Outcome σ Nat} (h : BufferedChannel.write H fuel d ch = some res) :
    ∃ E, res.state.trace = ch.trace ++ E ∧ ((∀ e ∈ E, e.Full) →
      transmitted E = ch.writeRing ++ d ∧ res = .ok d.length { ch with
        writeRing := [], handle := res.state.handle, trace := ch.trace ++ E }) := by
  obtain ⟨k, f, E, ring', h', rfl, -, htx, hcons, hpart, hfull, -⟩ := write_spec hf hw h
  refine ⟨E, by simp only [state_checkOverflow]; split_ifs <;> rfl, fun hall => ?_⟩
  obtain ⟨rfl, rfl⟩ := hfull hall
  have hf' : f = ch.writeRing := by
    rcases hpart with rfl | ⟨hk, hlt⟩
    · rfl
    · have := congrArg List.length hcons
      simp only [List.length_append, List.take_of_length_le le_rfl, List.length_nil] at this
      simp only [hk, List.take_zero, List.length_nil] at this
      omega
  subst hf'
  refine ⟨by simpa using htx, ?_⟩
  simp [checkOverflow]

end Spec

/-! ## A handle that takes nothing -/

section Stalled

variable {n fuel : Nat} {d : List UInt8} {ch : BufferedChannel Unit}

/-- A flush over a handle that takes nothing makes one call if the ring holds bytes, and stops. -/
theorem flushWrites_stalled (hn : 0 < n) (hf : ch.failed = false) (hw : ch.writable = true) :
    BufferedChannel.flushWrites (Handle.stalled n) (fuel + 1) ch = some (.ok 0 { ch with
      trace := ch.trace ++
        if ch.writeRing = [] then [] else [.writeImpl (ch.writeRing.take n) 0 true] }) := by
  rw [flushWrites_eq hf hw]
  split_ifs with hr
  · simp
  · have hlen : 0 < min n ch.writeRing.length := lt_min hn (List.length_pos.mpr hr)
    simp [whileLoop, flushCond, flushBody, Handle.stalled, hr, hlen]

/-- **One `write` over a handle that takes nothing** appends `d` to the ring and returns 0, or
overflows; it made at most one call and sent nothing. -/
theorem write_stalled (hn : 0 < n) (hf : ch.failed = false) (hw : ch.writable = true) :
    ∃ E, E.length ≤ 1 ∧ transmitted E = [] ∧
      BufferedChannel.write (Handle.stalled n) (fuel + 1) d ch =
        some (checkOverflow (ch.writeRing ++ d) "(write)" false true 0
          { ch with writeRing := ch.writeRing ++ d, trace := ch.trace ++ E }) := by
  rw [BufferedChannel.write, if_neg (by simp [hf]), if_neg (by simp [hw]),
    flushWrites_stalled hn hf hw]
  by_cases hr : ch.writeRing = []
  · by_cases hd : d = []
    · subst hd
      exact ⟨[], by simp, rfl, by simp [hr, checkOverflow]⟩
    · have hlen : 0 < min n d.length := lt_min hn (List.length_pos.mpr hd)
      refine ⟨[.writeImpl (d.take (min n d.length)) 0 true], le_rfl,
        by simp [Event.transmitted], ?_⟩
      simp [hr, hd, whileLoop, writeCond, writeBody, Handle.stalled, hlen]
  · refine ⟨[.writeImpl (ch.writeRing.take n) 0 true], le_rfl, by simp [Event.transmitted], ?_⟩
    simp [hr, List.length_pos.mpr hr]

/-- A `write` over a handle that takes nothing, whose data takes the ring past `BufferSizeMax`,
throws the `OverflowError` and fails the channel, having sent nothing. -/
theorem write_stalled_overflow (hn : 0 < n) (hf : ch.failed = false) (hw : ch.writable = true)
    (ho : BufferSizeMax < (ch.writeRing ++ d).length) :
    ∃ E, transmitted E = [] ∧
      BufferedChannel.write (Handle.stalled n) (fuel + 1) d ch =
        some (overflow { ch with writeRing := ch.writeRing ++ d, trace := ch.trace ++ E }
          "(write)" (ch.writeRing ++ d).length false true) := by
  obtain ⟨E, -, htx, h⟩ := @write_stalled n fuel d ch hn hf hw
  rw [checkOverflow, if_pos ho] at h
  exact ⟨E, htx, h⟩

end Stalled

end Monomux.System

import Monomux.System.Loop
import Monomux.System.BufferedChannel.Basic

/-!
# Reading: `read` and `load`

`BufferedChannel::read(Bytes)` first serves what it can from the read ring; if that is not
enough it asks the handle for chunks of `optimalReadSize()` bytes until `Bytes` bytes are gathered
or the handle returns an empty or short chunk or clears `Continue`, and puts back the tail of a
chunk that went past `Bytes`. `BufferedChannel::load(Bytes)` reads the same way but appends every
chunk to the ring and returns how many bytes it appended.

The loop bodies change every field but `Continue` by one formula, whatever the chunk
(`readBody_ret`, `readBody_ring`, ...), so the loop invariants below never split on the chunk:

* `readLoop_conserves`, `loadLoop_conserves`: the bytes returned and the ring are the bytes that
  were there and those the handle returned, in order;
* `read_spec`, `load_spec`: the same facts for the operations.
-/

namespace Monomux.System

variable {σ : Type} (H : Handle σ)

/-! ## `read` -/

/-- The locals of `read`'s loop (`Bytes`, `Return`, `ContinueReading`) and the parts of the
channel it changes. -/
structure ReadLoop (σ : Type) where
  bytes : Nat
  ret : List UInt8
  ring : List UInt8
  handle : σ
  trace : List Event
  cont : Bool

/-- `while (ContinueReading && Bytes > 0)`. -/
def readCond (s : ReadLoop σ) : Bool := s.cont && 0 < s.bytes

@[simp] theorem readCond_eq_true {s : ReadLoop σ} :
    readCond s = true ↔ s.cont = true ∧ 0 < s.bytes := by
  simp [readCond]

/-- One iteration of `read`'s loop. -/
def readBody (s : ReadLoop σ) : ForInStep (ReadLoop σ) :=
  let r := H.readImpl H.optimalReadSize s.handle
  let trace := s.trace ++ [.readImpl H.optimalReadSize r.chunk r.cont]
  if r.chunk = [] then .done { s with handle := r.next, trace, cont := r.cont }
  else
    let cont := if r.chunk.length < H.optimalReadSize then false else r.cont
    let fromRead := min s.bytes r.chunk.length
    let ret := s.ret ++ r.chunk.take fromRead
    if s.bytes < r.chunk.length then
      .yield ⟨s.bytes - fromRead, ret, s.ring ++ r.chunk.drop fromRead, r.next, trace, false⟩
    else .yield ⟨s.bytes - fromRead, ret, s.ring, r.next, trace, cont⟩

/-- `BufferedChannel::read(Bytes)`, with at most `fuel` iterations of its loop. -/
def BufferedChannel.read (fuel bytes : Nat) (ch : BufferedChannel σ) :
    Option (Outcome σ (List UInt8)) :=
  if ch.failed then some (.error channelFailed ch)
  else if !ch.readable then some (.error noRead ch)
  else
    -- `takeFront(min(Bytes, StoredBufferSize))`, a no-op on an empty ring
    let fromBuffer := min bytes ch.readRing.length
    let ret := ch.readRing.take fromBuffer
    let ring := ch.readRing.drop fromBuffer
    if bytes - fromBuffer = 0 then some (.ok ret { ch with readRing := ring })
    else
      (whileLoop readCond (readBody H) fuel
          ⟨bytes - fromBuffer, ret, ring, ch.handle, ch.trace, true⟩).map fun s =>
        checkOverflow s.ring "(read)" true false s.ret
          { ch with readRing := s.ring, handle := s.handle, trace := s.trace }

section ReadBody

variable (s : ReadLoop σ)

/-- The event one iteration of `read` records. -/
def readEvent : Event :=
  .readImpl H.optimalReadSize (H.readImpl H.optimalReadSize s.handle).chunk
    (H.readImpl H.optimalReadSize s.handle).cont

/-- The bytes of the chunk one iteration of `read` serves. -/
def readServed : Nat := min s.bytes (H.readImpl H.optimalReadSize s.handle).chunk.length

@[simp] theorem readBody_trace : (readBody H s).value.trace = s.trace ++ [readEvent H s] := by
  dsimp only [readBody]; split_ifs <;> rfl

@[simp] theorem readBody_handle :
    (readBody H s).value.handle = (H.readImpl H.optimalReadSize s.handle).next := by
  dsimp only [readBody]; split_ifs <;> rfl

@[simp] theorem readBody_bytes : (readBody H s).value.bytes = s.bytes - readServed H s := by
  dsimp only [readBody, readServed]; split_ifs with h <;> simp [h]

@[simp] theorem readBody_ret :
    (readBody H s).value.ret =
      s.ret ++ (H.readImpl H.optimalReadSize s.handle).chunk.take (readServed H s) := by
  dsimp only [readBody, readServed]; split_ifs with h <;> simp [h]

@[simp] theorem readBody_ring :
    (readBody H s).value.ring =
      s.ring ++ (H.readImpl H.optimalReadSize s.handle).chunk.drop (readServed H s) := by
  dsimp only [readBody, readServed]; split_ifs with h <;> simp [h] <;> omega

@[simp] theorem readEvent_fetched :
    (readEvent H s).fetched = (H.readImpl H.optimalReadSize s.handle).chunk := rfl

@[simp] theorem readEvent_transmitted : (readEvent H s).transmitted = [] := rfl

end ReadBody

/-- What `read`'s loop keeps: `Bytes` counts down what `Return` still lacks, the ring is empty
while bytes are lacking, and `Return` followed by the ring is what was there followed by the
bytes the handle returned. -/
structure ReadLoopInv (n : Nat) (base : List UInt8) (tr : List Event) (s : ReadLoop σ) :
    Prop where
  trace_eq : ∃ E, s.trace = tr ++ E ∧ ReadCalls H.optimalReadSize E ∧
    s.ret ++ s.ring = base ++ fetched E
  length_add : s.ret.length + s.bytes = n
  ring_nil : 0 < s.bytes → s.ring = []
  /-- Only the tail of a chunk is put back. -/
  ring_short : s.ring = [] ∨ s.ring.length < H.optimalReadSize

theorem readLoopInv_step {n : Nat} {base : List UInt8} {tr : List Event} {s : ReadLoop σ}
    (hc : readCond s = true) (hs : ReadLoopInv H n base tr s) :
    ReadLoopInv H n base tr (readBody H s).value := by
  obtain ⟨⟨E, htr, htx, hcons⟩, hlen, hring, -⟩ := hs
  have hb : 0 < s.bytes := by simp [readCond] at hc; exact hc.2
  have hserved : readServed H s ≤ s.bytes := min_le_left _ _
  have hle := H.readImpl_le H.optimalReadSize s.handle
  refine ⟨⟨E ++ [readEvent H s], by simp [htr], by simp [htx, readEvent, hle], ?_⟩, ?_, fun h => ?_,
    ?_⟩
  · rw [hring hb, List.append_nil] at hcons
    simp [hring hb, hcons]
  · simp only [readBody_ret, readBody_bytes, List.length_append, List.length_take]
    have : min (readServed H s) (H.readImpl H.optimalReadSize s.handle).chunk.length =
      readServed H s := min_eq_left (min_le_right _ _)
    omega
  · simp only [readBody_bytes, readBody_ring] at h ⊢
    rw [hring hb, List.nil_append, List.drop_eq_nil_iff]
    unfold readServed at h ⊢
    omega
  · rw [readBody_ring, hring hb, List.nil_append, List.drop_eq_nil_iff, List.length_drop]
    unfold readServed
    omega

theorem readLoop_inv {fuel n : Nat} {base : List UInt8} {tr : List Event} {s r : ReadLoop σ}
    (h : whileLoop readCond (readBody H) fuel s = some r) (hs : ReadLoopInv H n base tr s) :
    ReadLoopInv H n base tr r :=
  whileLoop_inv _ (fun _ hc hi => readLoopInv_step H hc hi) h hs

/-! ## `load` -/

/-- The locals of `load`'s loop (`Bytes`, `ReadBytes`, `ContinueReading`) and the parts of the
channel it changes. -/
structure LoadLoop (σ : Type) where
  bytes : Nat
  readBytes : Nat
  ring : List UInt8
  handle : σ
  trace : List Event
  cont : Bool

/-- `while (ContinueReading && Bytes > 0)`. -/
def loadCond (s : LoadLoop σ) : Bool := s.cont && 0 < s.bytes

@[simp] theorem loadCond_eq_true {s : LoadLoop σ} :
    loadCond s = true ↔ s.cont = true ∧ 0 < s.bytes := by
  simp [loadCond]

/-- One iteration of `load`'s loop. -/
def loadBody (s : LoadLoop σ) : ForInStep (LoadLoop σ) :=
  let r := H.readImpl H.optimalReadSize s.handle
  let trace := s.trace ++ [.readImpl H.optimalReadSize r.chunk r.cont]
  if r.chunk = [] then .done { s with handle := r.next, trace, cont := r.cont }
  else
    .yield ⟨s.bytes - min r.chunk.length s.bytes, s.readBytes + r.chunk.length,
      s.ring ++ r.chunk, r.next, trace,
      if r.chunk.length < H.optimalReadSize then false else r.cont⟩

/-- `BufferedChannel::load(Bytes)`, with at most `fuel` iterations of its loop. -/
def BufferedChannel.load (fuel bytes : Nat) (ch : BufferedChannel σ) : Option (Outcome σ Nat) :=
  if ch.failed then some (.error channelFailed ch)
  else if !ch.readable then some (.error noRead ch)
  else
    (whileLoop loadCond (loadBody H) fuel ⟨bytes, 0, ch.readRing, ch.handle, ch.trace, true⟩).map
      fun s =>
        checkOverflow s.ring "(load)" true false s.readBytes
          { ch with readRing := s.ring, handle := s.handle, trace := s.trace }

section LoadBody

variable (s : LoadLoop σ)

/-- The event one iteration of `load` records. -/
def loadEvent : Event :=
  .readImpl H.optimalReadSize (H.readImpl H.optimalReadSize s.handle).chunk
    (H.readImpl H.optimalReadSize s.handle).cont

@[simp] theorem loadBody_trace : (loadBody H s).value.trace = s.trace ++ [loadEvent H s] := by
  dsimp only [loadBody]; split_ifs <;> rfl

@[simp] theorem loadBody_handle :
    (loadBody H s).value.handle = (H.readImpl H.optimalReadSize s.handle).next := by
  dsimp only [loadBody]; split_ifs <;> rfl

@[simp] theorem loadBody_bytes :
    (loadBody H s).value.bytes =
      s.bytes - min (H.readImpl H.optimalReadSize s.handle).chunk.length s.bytes := by
  dsimp only [loadBody]; split_ifs with h <;> simp [h]

@[simp] theorem loadBody_readBytes :
    (loadBody H s).value.readBytes =
      s.readBytes + (H.readImpl H.optimalReadSize s.handle).chunk.length := by
  dsimp only [loadBody]; split_ifs with h <;> simp [h]

@[simp] theorem loadBody_ring :
    (loadBody H s).value.ring = s.ring ++ (H.readImpl H.optimalReadSize s.handle).chunk := by
  dsimp only [loadBody]; split_ifs with h <;> simp [h]

@[simp] theorem loadEvent_fetched :
    (loadEvent H s).fetched = (H.readImpl H.optimalReadSize s.handle).chunk := rfl

@[simp] theorem loadEvent_transmitted : (loadEvent H s).transmitted = [] := rfl

end LoadBody

/-- What `load`'s loop keeps: the ring is what was there followed by the bytes the handle
returned, and `ReadBytes` counts those bytes. -/
def LoadLoopInv (base : List UInt8) (tr : List Event) (s : LoadLoop σ) : Prop :=
  ∃ E, s.trace = tr ++ E ∧ ReadCalls H.optimalReadSize E ∧ s.ring = base ++ fetched E ∧
    s.readBytes = (fetched E).length

theorem loadLoop_inv {fuel : Nat} {base : List UInt8} {tr : List Event} {s r : LoadLoop σ}
    (h : whileLoop loadCond (loadBody H) fuel s = some r) (hs : LoadLoopInv H base tr s) :
    LoadLoopInv H base tr r := by
  refine whileLoop_inv _ (fun s _ ⟨E, htr, htx, hring, hcount⟩ => ?_) h hs
  exact ⟨E ++ [loadEvent H s], by simp [htr], by simp [htx, loadEvent, H.readImpl_le],
    by simp [hring], by simp [hcount]⟩

/-! ## What the operations do -/

section Spec

variable {H} {fuel n : Nat} {ch ch' : BufferedChannel σ}

theorem read_of_failed (hf : ch.failed = true) :
    BufferedChannel.read H fuel n ch = some (.error channelFailed ch) := by
  simp [BufferedChannel.read, hf]

theorem read_of_not_readable (hf : ch.failed = false) (hr : ch.readable = false) :
    BufferedChannel.read H fuel n ch = some (.error noRead ch) := by
  simp [BufferedChannel.read, hf, hr]

/-- `read` on a ring holding at least the bytes asked for serves them from the ring, without a
call to the handle. -/
theorem read_of_le (hf : ch.failed = false) (hr : ch.readable = true)
    (hn : n ≤ ch.readRing.length) :
    BufferedChannel.read H fuel n ch =
      some (.ok (ch.readRing.take n) { ch with readRing := ch.readRing.drop n }) := by
  simp [BufferedChannel.read, hf, hr, min_eq_left hn]

/-- The state in which `read` enters its loop: the whole ring served, and the ring empty. -/
def readStart (n : Nat) (ch : BufferedChannel σ) : ReadLoop σ :=
  ⟨n - ch.readRing.length, ch.readRing, [], ch.handle, ch.trace, true⟩

theorem read_of_lt (hf : ch.failed = false) (hr : ch.readable = true)
    (hn : ch.readRing.length < n) :
    BufferedChannel.read H fuel n ch =
      (whileLoop readCond (readBody H) fuel (readStart n ch)).map fun s =>
        checkOverflow s.ring "(read)" true false s.ret
          { ch with readRing := s.ring, handle := s.handle, trace := s.trace } := by
  have : n - ch.readRing.length ≠ 0 := by omega
  simp [BufferedChannel.read, hf, hr, min_eq_right hn.le, readStart, this]

theorem readLoopInv_start (hn : ch.readRing.length < n) :
    ReadLoopInv H n ch.readRing ch.trace (readStart n ch) :=
  ⟨⟨[], by simp [readStart], readCalls_nil _, by simp [readStart]⟩, by simp [readStart]; omega,
    fun _ => rfl, .inl rfl⟩

/-- A `read` that runs past its checks either serves the ring alone, or ends its loop in a state
that keeps the loop invariant and then makes the size check. -/
theorem read_spec (hf : ch.failed = false) (hr : ch.readable = true) {res : Outcome σ (List UInt8)}
    (h : BufferedChannel.read H fuel n ch = some res) :
    (n ≤ ch.readRing.length ∧
        res = .ok (ch.readRing.take n) { ch with readRing := ch.readRing.drop n }) ∨
      (ch.readRing.length < n ∧ ∃ s, ReadLoopInv H n ch.readRing ch.trace s ∧
        res = checkOverflow s.ring "(read)" true false s.ret
          { ch with readRing := s.ring, handle := s.handle, trace := s.trace }) := by
  rcases Nat.lt_or_ge ch.readRing.length n with hn | hn
  · rw [read_of_lt hf hr hn, Option.map_eq_some'] at h
    obtain ⟨s, hs, rfl⟩ := h
    exact .inr ⟨hn, s, readLoop_inv H hs (readLoopInv_start hn), rfl⟩
  · rw [read_of_le hf hr hn, Option.some.injEq] at h
    exact .inl ⟨hn, h.symm⟩

/-- A `read` that returns: its bytes, followed by the ring, are the bytes the ring held followed
by those the handle returned; it returns at most the bytes asked for and changes nothing but the
read ring and the handle. -/
theorem read_ok {ret : List UInt8} (h : BufferedChannel.read H fuel n ch = some (.ok ret ch')) :
    ∃ E, ch' = { ch with readRing := ch'.readRing, handle := ch'.handle, trace := ch.trace ++ E } ∧
      transmitted E = [] ∧ ret ++ ch'.readRing = ch.readRing ++ fetched E ∧ ret.length ≤ n := by
  cases hf : ch.failed
  · cases hr : ch.readable
    · simp [read_of_not_readable hf hr] at h
    · rcases read_spec hf hr h with ⟨hn, h⟩ | ⟨-, s, ⟨⟨E, htr, htx, hcons⟩, hlen, -⟩, h⟩
      · obtain ⟨rfl, rfl⟩ := EStateM.Result.ok.inj h
        exact ⟨[], by simp [hf, hr], rfl, by simp, List.length_take_le _ _⟩
      · obtain ⟨-, rfl, rfl⟩ := checkOverflow_eq_ok.mp h.symm
        exact ⟨E, by simp [htr, hf, hr], htx.transmitted_eq, hcons, by omega⟩
  · simp [read_of_failed hf] at h

/-- What a `read` that ran past its checks leaves: nothing but the read ring, the handle and the
failure flag changed, and it made no call to `writeImpl`. -/
theorem read_frame (hf : ch.failed = false) (hr : ch.readable = true)
    {res : Outcome σ (List UInt8)} (h : BufferedChannel.read H fuel n ch = some res) :
    ∃ E, res.state = { ch with
        readRing := res.state.readRing, handle := res.state.handle, trace := ch.trace ++ E,
        failed := res.state.failed } ∧ transmitted E = [] := by
  rcases read_spec hf hr h with ⟨-, rfl⟩ | ⟨-, s, ⟨⟨E, htr, htx, -⟩, -⟩, rfl⟩
  · exact ⟨[], by simp [hf], rfl⟩
  · refine ⟨E, ?_, htx.transmitted_eq⟩
    simp only [state_checkOverflow]
    split_ifs <;> simp [htr, hf]

/-- With chunks of at most `BufferSizeMax` bytes, `read` does not overflow: it returns, and
leaves no more in the ring than there was or than one chunk. -/
theorem read_returns (hC : H.optimalReadSize ≤ BufferSizeMax) (hf : ch.failed = false)
    (hr : ch.readable = true) {res : Outcome σ (List UInt8)}
    (h : BufferedChannel.read H fuel n ch = some res) :
    ∃ ret, res = .ok ret res.state ∧ (res.state.readRing.length ≤ ch.readRing.length ∨
      res.state.readRing.length < H.optimalReadSize) := by
  rcases read_spec hf hr h with ⟨-, rfl⟩ | ⟨-, s, ⟨-, -, -, hshort⟩, rfl⟩
  · exact ⟨_, rfl, .inl (by simp)⟩
  · have hs : s.ring.length < H.optimalReadSize ∨ s.ring = [] := hshort.symm
    have hle : s.ring.length ≤ BufferSizeMax := by rcases hs with hs | hs <;> simp_all; omega
    refine ⟨s.ret, ?_, ?_⟩
    · simp [checkOverflow, not_lt.mpr hle]
    · rcases hs with hs | hs
      · simp [checkOverflow, not_lt.mpr hle, hs]
      · simp [checkOverflow, not_lt.mpr hle, hs]

/-- With chunks of at most `BufferSizeMax` bytes, `read` never throws an `OverflowError`. -/
theorem read_not_overflow (hC : H.optimalReadSize ≤ BufferSizeMax) {e : ChannelError}
    (h : BufferedChannel.read H fuel n ch = some (.error e ch')) : ¬e.IsOverflow := by
  cases hf : ch.failed
  · cases hr : ch.readable
    · rw [read_of_not_readable hf hr] at h
      cases h; simp [noRead, ChannelError.IsOverflow]
    · obtain ⟨ret, hret, -⟩ := read_returns hC hf hr h
      cases hret
  · rw [read_of_failed hf] at h
    cases h; simp [channelFailed, ChannelError.IsOverflow]

theorem load_of_failed (hf : ch.failed = true) :
    BufferedChannel.load H fuel n ch = some (.error channelFailed ch) := by
  simp [BufferedChannel.load, hf]

theorem load_of_not_readable (hf : ch.failed = false) (hr : ch.readable = false) :
    BufferedChannel.load H fuel n ch = some (.error noRead ch) := by
  simp [BufferedChannel.load, hf, hr]

/-- The state in which `load` enters its loop. -/
def loadStart (n : Nat) (ch : BufferedChannel σ) : LoadLoop σ :=
  ⟨n, 0, ch.readRing, ch.handle, ch.trace, true⟩

theorem load_eq (hf : ch.failed = false) (hr : ch.readable = true) :
    BufferedChannel.load H fuel n ch =
      (whileLoop loadCond (loadBody H) fuel (loadStart n ch)).map fun s =>
        checkOverflow s.ring "(load)" true false s.readBytes
          { ch with readRing := s.ring, handle := s.handle, trace := s.trace } := by
  simp [BufferedChannel.load, hf, hr, loadStart]

/-- A `load` that runs past its checks ends its loop in a state that keeps the loop invariant
and then makes the size check. -/
theorem load_spec (hf : ch.failed = false) (hr : ch.readable = true) {res : Outcome σ Nat}
    (h : BufferedChannel.load H fuel n ch = some res) :
    ∃ s, whileLoop loadCond (loadBody H) fuel (loadStart n ch) = some s ∧
      LoadLoopInv H ch.readRing ch.trace s ∧
      res = checkOverflow s.ring "(load)" true false s.readBytes
        { ch with readRing := s.ring, handle := s.handle, trace := s.trace } := by
  rw [load_eq hf hr, Option.map_eq_some'] at h
  obtain ⟨s, hs, rfl⟩ := h
  exact ⟨s, hs, loadLoop_inv H hs ⟨[], by simp [loadStart], readCalls_nil _, by simp [loadStart], rfl⟩,
    rfl⟩

/-- What a `load` that ran past its checks leaves, whether it returned or overflowed: the ring
is what it held followed by the bytes the handle returned, and nothing but the read ring, the
handle and the failure flag changed. -/
theorem load_state (hf : ch.failed = false) (hr : ch.readable = true) {res : Outcome σ Nat}
    (h : BufferedChannel.load H fuel n ch = some res) :
    ∃ E, res.state = { ch with
        readRing := ch.readRing ++ fetched E, handle := res.state.handle, trace := ch.trace ++ E,
        failed := res.state.failed } ∧ transmitted E = [] := by
  obtain ⟨s, -, ⟨E, htr, htx, hring, -⟩, rfl⟩ := load_spec hf hr h
  refine ⟨E, ?_, htx.transmitted_eq⟩
  simp only [state_checkOverflow]
  split_ifs <;> simp [htr, hring, hf]

/-- A `load` that returns gives the number of bytes it appended to the ring. -/
theorem load_ok {k : Nat} (h : BufferedChannel.load H fuel n ch = some (.ok k ch')) :
    ∃ E, ch' = { ch with
        readRing := ch.readRing ++ fetched E, handle := ch'.handle, trace := ch.trace ++ E } ∧
      transmitted E = [] ∧ k = (fetched E).length := by
  cases hf : ch.failed
  · cases hr : ch.readable
    · simp [load_of_not_readable hf hr] at h
    · obtain ⟨s, -, ⟨E, htr, htx, hring, hcount⟩, h⟩ := load_spec hf hr h
      obtain ⟨-, rfl, rfl⟩ := checkOverflow_eq_ok.mp h.symm
      exact ⟨E, by simp [htr, hring, hf, hr], htx.transmitted_eq, hcount⟩
  · simp [load_of_failed hf] at h

end Spec

end Monomux.System

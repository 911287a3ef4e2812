import Mathlib.Data.List.Basic

/-!
# Buffered channels: the data model

`BufferedChannel` (`src/src/core/system/BufferedChannel.cpp`) wraps a handle in a duplex byte
pipe with a read-ahead ring `Read` and a write-behind ring `Write`, either of which may be absent.
It reaches the handle only through the virtual `readImpl`/`writeImpl` and the chunk sizes
`optimalReadSize()`/`optimalWriteSize()`. Here the handle is a `Handle σ`: any state machine on `σ`
whose replies are bounded by what they were asked (`Handle.readImpl_le`, `Handle.writeImpl_le`).

The rings (`monomux/adt/RingBuffer.hpp` is not part of the sources) are their FIFO contents, front
first: `putBack` appends, `takeFront`/`peekFront` take a prefix and `dropFront` drops one.

A `BufferedChannel σ` also records, in `trace`, every call made to its handle. The code keeps no
such record; it is what lets the theorems speak of the bytes that crossed the handle:
`transmitted` are the bytes `writeImpl` took and `fetched` the bytes `readImpl` returned.

Every operation returns the C++ result as an `EStateM.Result`: a value, or an exception, each
with the channel as the operation left it (an exception keeps the effects made before it).
-/

namespace Monomux.System

/-! ## Error codes -/

/-- The `std::errc` values the code compares with or raises, and any other `errno`. -/
inductive Errc
  | io_error
  | operation_not_permitted
  | interrupted
  | operation_would_block
  | resource_unavailable_try_again
  | other (code : Nat)
  deriving DecidableEq, Repr

/-- The size at which a ring triggers an overflow (`BufferSizeMax`, 2 GiB). -/
def BufferSizeMax : Nat := 1 <<< 31

/-- The exceptions a channel operation throws. -/
inductive ChannelError
  /-- `std::system_error{std::make_error_code(code), what}`. -/
  | systemError (code : Errc) (what : String)
  /-- `OverflowError(*this, identifier, size, read, write)`. -/
  | overflowError (identifier : String) (size : Nat) (read write : Bool)
  deriving DecidableEq, Repr

namespace ChannelError

/-- `OverflowError::craftErrorMessage`. -/
def craftErrorMessage (identifier : String) (size : Nat) : String :=
  "Channel '" ++ identifier ++ "' buffer overflow maximum size of " ++ toString BufferSizeMax ++
    " <= actual size " ++ toString size

/-- Whether this is an `OverflowError`. -/
def IsOverflow : ChannelError → Prop
  | overflowError .. => True
  | systemError .. => False

instance : DecidablePred IsOverflow := fun e => by
  cases e <;> simp only [IsOverflow] <;> infer_instance

end ChannelError

/-- `throwIfFailed`. -/
def channelFailed : ChannelError := .systemError .io_error "Channel has failed."

/-- `throwIfNoRead`. -/
def noRead : ChannelError :=
  .systemError .operation_not_permitted "Channel does not support reading."

/-- `throwIfNoWrite`. -/
def noWrite : ChannelError :=
  .systemError .operation_not_permitted "Channel does not support writing."

/-! ## Handles -/

/-- What one `readImpl` call returns: the bytes read, the new value of `Continue` (the code
always passes it in set) and the handle's next state. -/
structure ReadReply (σ : Type) where
  chunk : List UInt8
  cont : Bool
  next : σ

/-- What one `writeImpl` call returns: how many bytes of the offered chunk it took, the new
value of `Continue` and the handle's next state. -/
structure WriteReply (σ : Type) where
  sent : Nat
  cont : Bool
  next : σ

/-- The operations of a concrete channel that `BufferedChannel` calls. -/
structure Handle (σ : Type) where
  optimalReadSize : Nat
  optimalWriteSize : Nat
  readImpl : Nat → σ → ReadReply σ
  writeImpl : List UInt8 → σ → WriteReply σ
  /-- `readImpl n` returns at most `n` bytes. -/
  readImpl_le : ∀ n s, (readImpl n s).chunk.length ≤ n
  /-- `writeImpl c` takes at most the bytes of `c`. -/
  writeImpl_le : ∀ c s, (writeImpl c s).sent ≤ c.length

/-- A handle with nothing to read that takes every byte it is offered, with chunks of `n` bytes,
as `/dev/null` does. -/
def Handle.devNull (n : Nat) : Handle Unit where
  optimalReadSize := n
  optimalWriteSize := n
  readImpl _ _ := ⟨[], true, ()⟩
  writeImpl c _ := ⟨c.length, true, ()⟩
  readImpl_le _ _ := Nat.zero_le _
  writeImpl_le _ _ := le_rfl

/-- A handle over a byte queue with chunks of `n` bytes, as the two ends of a socket pair joined:
`readImpl` takes the bytes it is asked for from the front, and `writeImpl` appends every byte it is
offered. -/
def Handle.loopback (n : Nat) : Handle (List UInt8) where
  optimalReadSize := n
  optimalWriteSize := n
  readImpl k s := ⟨s.take k, true, s.drop k⟩
  writeImpl c s := ⟨c.length, true, s ++ c⟩
  readImpl_le k s := List.length_take_le k s
  writeImpl_le _ _ := le_rfl

/-- A handle that takes none of the bytes it is offered and leaves `Continue` set, with chunks
of `n` bytes; it has nothing to read. -/
def Handle.stalled (n : Nat) : Handle Unit where
  optimalReadSize := n
  optimalWriteSize := n
  readImpl _ _ := ⟨[], true, ()⟩
  writeImpl _ _ := ⟨0, true, ()⟩
  readImpl_le _ _ := Nat.zero_le _
  writeImpl_le _ _ := Nat.zero_le _

/-- One call to the handle. -/
inductive Event
  /-- `readImpl` was asked for `request` bytes, returned `chunk` and left `Continue` as `cont`. -/
  | readImpl (request : Nat) (chunk : List UInt8) (cont : Bool)
  /-- `writeImpl` was offered `chunk`, took `sent` bytes of it and left `Continue` as `cont`. -/
  | writeImpl (chunk : List UInt8) (sent : Nat) (cont : Bool)
  deriving DecidableEq, Repr

namespace Event

/-- The bytes a call handed to the handle: the prefix of the chunk `writeImpl` took. -/
def transmitted : Event → List UInt8
  | readImpl .. => []
  | writeImpl c k _ => c.take k

/-- The bytes a call took from the handle: the chunk `readImpl` returned. -/
def fetched : Event → List UInt8
  | readImpl _ c _ => c
  | writeImpl .. => []

end Event

/-- The bytes handed to the handle over a trace. -/
def transmitted (t : List Event) : List UInt8 := t.flatMap Event.transmitted

/-- The bytes taken from the handle over a trace. -/
def fetched (t : List Event) : List UInt8 := t.flatMap Event.fetched

@[simp] theorem transmitted_nil : transmitted [] = [] := rfl

@[simp] theorem transmitted_append (t t' : List Event) :
    transmitted (t ++ t') = transmitted t ++ transmitted t' := by
  simp [transmitted]

@[simp] theorem transmitted_cons (e : Event) (t : List Event) :
    transmitted (e :: t) = e.transmitted ++ transmitted t := rfl

@[simp] theorem fetched_nil : fetched [] = [] := rfl

@[simp] theorem fetched_append (t t' : List Event) :
    fetched (t ++ t') = fetched t ++ fetched t' := by
  simp [fetched]

@[simp] theorem fetched_cons (e : Event) (t : List Event) :
    fetched (e :: t) = e.fetched ++ fetched t := rfl

/-- Every call in `E` is a `readImpl` call asking for `n` bytes (and getting at most that). -/
def ReadCalls (n : Nat) (E : List Event) : Prop :=
  ∀ e ∈ E, ∃ c cont, e = .readImpl n c cont ∧ c.length ≤ n

/-- Every call in `E` is a `writeImpl` call (taking at most what it was offered). -/
def WriteCalls (E : List Event) : Prop :=
  ∀ e ∈ E, ∃ c k cont, e = .writeImpl c k cont ∧ k ≤ c.length

@[simp] theorem readCalls_nil (n : Nat) : ReadCalls n [] := fun _ h => nomatch h

@[simp] theorem readCalls_append {n : Nat} {E E' : List Event} :
    ReadCalls n (E ++ E') ↔ ReadCalls n E ∧ ReadCalls n E' := List.forall_mem_append

@[simp] theorem readCalls_singleton {n : Nat} {c : List UInt8} {cont : Bool} :
    ReadCalls n [.readImpl n c cont] ↔ c.length ≤ n := by
  refine ⟨fun h => ?_, fun h e he => ⟨c, cont, List.mem_singleton.mp he, h⟩⟩
  obtain ⟨c', cont', he, hl⟩ := h _ (List.mem_singleton_self _)
  cases he; exact hl

@[simp] theorem writeCalls_nil : WriteCalls [] := fun _ h => nomatch h

@[simp] theorem writeCalls_append {E E' : List Event} :
    WriteCalls (E ++ E') ↔ WriteCalls E ∧ WriteCalls E' := List.forall_mem_append

@[simp] theorem writeCalls_singleton {c : List UInt8} {k : Nat} {cont : Bool} :
    WriteCalls [.writeImpl c k cont] ↔ k ≤ c.length := by
  refine ⟨fun h => ?_, fun h e he => ⟨c, k, cont, List.mem_singleton.mp he, h⟩⟩
  obtain ⟨c', k', cont', he, hl⟩ := h _ (List.mem_singleton_self _)
  cases he; exact hl

theorem ReadCalls.transmitted_eq {n : Nat} {E : List Event} (h : ReadCalls n E) :
    transmitted E = [] := by
  induction E with
  | nil => rfl
  | cons e E ih =>
    obtain ⟨c, cont, rfl, -⟩ := h e (List.mem_cons_self _ _)
    simpa [Event.transmitted] using ih fun e he => h e (List.mem_cons_of_mem _ he)

theorem WriteCalls.fetched_eq {E : List Event} (h : WriteCalls E) : fetched E = [] := by
  induction E with
  | nil => rfl
  | cons e E ih =>
    obtain ⟨c, k, cont, rfl, -⟩ := h e (List.mem_cons_self _ _)
    simpa [Event.fetched] using ih fun e he => h e (List.mem_cons_of_mem _ he)

/-! ## Channels -/

/-- The state of a `BufferedChannel` over a handle in state `σ`. -/
structure BufferedChannel (σ : Type) where
  identifier : String
  /-- `Channel::failed()`. -/
  failed : Bool
  /-- Whether the channel has a read ring (`Read != nullptr`). -/
  readable : Bool
  /-- Whether the channel has a write ring (`Write != nullptr`). -/
  writable : Bool
  /-- The contents of `*Read`. -/
  readRing : List UInt8
  /-- The contents of `*Write`. -/
  writeRing : List UInt8
  handle : σ
  /-- The calls made to the handle, oldest first. -/
  trace : List Event

/-- The result of a channel operation returning an `α`. -/
abbrev Outcome (σ α : Type) := EStateM.Result ChannelError (BufferedChannel σ) α

/-- The channel an operation left behind, whether it returned or threw. -/
def Outcome.state {σ α : Type} : Outcome σ α → BufferedChannel σ
  | .ok _ ch => ch
  | .error _ ch => ch

@[simp] theorem Outcome.state_ok {σ α : Type} (a : α) (ch : BufferedChannel σ) :
    Outcome.state (.ok a ch : Outcome σ α) = ch := rfl

@[simp] theorem Outcome.state_error {σ α : Type} (e : ChannelError) (ch : BufferedChannel σ) :
    Outcome.state (.error e ch : Outcome σ α) = ch := rfl

/-- Modelled from the spec: the `OverflowError` constructor (declared in the missing
`BufferedChannel.hpp`) marks the channel failed ("raise `OverflowError{identifier, side}` and
mark the channel *failed*"). -/
def overflow {σ α : Type} (ch : BufferedChannel σ) (tag : String) (size : Nat)
    (read write : Bool) : Outcome σ α :=
  .error (.overflowError (ch.identifier ++ tag) size read write) { ch with failed := true }

/-- The size check that ends `read`, `write` and `load`: throw when `ring`, the ring the
operation appended to, holds more than `BufferSizeMax` bytes. -/
def checkOverflow {σ α : Type} (ring : List UInt8) (tag : String) (read write : Bool) (a : α)
    (ch : BufferedChannel σ) : Outcome σ α :=
  if BufferSizeMax < ring.length then overflow ch tag ring.length read write else .ok a ch

@[simp] theorem state_checkOverflow {σ α : Type} (ring : List UInt8) (tag : String)
    (read write : Bool) (a : α) (ch : BufferedChannel σ) :
    (checkOverflow ring tag read write a ch).state =
      if BufferSizeMax < ring.length then { ch with failed := true } else ch := by
  unfold checkOverflow overflow; split <;> rfl

theorem checkOverflow_eq_ok {σ α : Type} {ring : List UInt8} {tag : String} {read write : Bool}
    {a b : α} {ch ch' : BufferedChannel σ} :
    checkOverflow ring tag read write a ch = .ok b ch' ↔
      ring.length ≤ BufferSizeMax ∧ b = a ∧ ch' = ch := by
  unfold checkOverflow overflow
  split <;> simp [eq_comm, and_comm] <;> omega

theorem checkOverflow_eq_error {σ α : Type} {ring : List UInt8} {tag : String} {read write : Bool}
    {a : α} {ch ch' : BufferedChannel σ} {e : ChannelError} :
    checkOverflow ring tag read write a ch = .error e ch' ↔
      BufferSizeMax < ring.length ∧
        e = .overflowError (ch.identifier ++ tag) ring.length read write ∧
        ch' = { ch with failed := true } := by
  unfold checkOverflow overflow
  split <;> simp [eq_comm, *]

end Monomux.System

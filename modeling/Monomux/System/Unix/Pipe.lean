import Monomux.System.BufferedChannel.Basic

/-!
# The unix pipe: `unix::read`, `unix::write` and the pipe's `readImpl`/`writeImpl`

`src/src/unix/system/UnixPipe.cpp` reads and writes a pipe's descriptor in loops over `read(2)`
and `write(2)` of at most `BUFSIZ` bytes a call. `unix::read(FD, Bytes, &Success)` retries on
`EINTR`, stops on `EWOULDBLOCK`/`EAGAIN`, on a 0 result or once `Bytes` bytes are gathered, and
throws on any other `errno`; `unix::write(FD, Buffer, &Success)` does the same until `Buffer` is
sent. `Pipe::readImpl` and `Pipe::writeImpl` call them and mark the pipe failed when `*Success`
comes back false.

The descriptor is the list of results its coming calls give, one per call, each cut to the size
of the request as the kernel does (`ReadResult.clamp`, `WriteResult.clamp`); a loop that needs
more results than the list has gives `none`. The loops also return the calls they made, with the
results they saw: a record the code does not keep, through which the theorems name the bytes
that crossed the descriptor.

* `readLoop_run`, `writeLoop_run`: what a whole run of each loop did;
* `readLoop_isSome`, `writeLoop_isSome`: each loop returns once its script holds a result that
  stops it, or enough results that move bytes;
* `unix_byte_accounting`: `unix::read` returns the bytes its calls delivered, in order and at most
  `Bytes`, and stops exactly as the code says; `unix::write` returns the count of the prefix of
  `Buffer` its calls took;
* `pipe_failure_flag_slips`: a `write(2)` that returns 0 before any byte, and a `read(2)` that
  fails with a hard error, leave the pipe unmarked;
* `pipe_failed_iff`: what does mark it: a `readImpl` that read nothing and ended on a 0 result.

The base class `system::Pipe` is not part of the sources: its `failed()` flag, `setFailed()` and
`Mode` are modelled from their uses here.
-/

namespace Monomux.System

/-- `EWOULDBLOCK` or `EAGAIN`: nothing to do now, not an error. -/
def Errc.wouldBlock : Errc → Bool
  | .operation_would_block | .resource_unavailable_try_again => true
  | _ => false

namespace Unix

/-- `BUFSIZ`, the chunk size of both loops (the C library's, glibc's value). -/
def BUFSIZ : Nat := 8192

/-! ## System calls -/

/-- What one `read(2)` call gives: the bytes it read (none: the writing end is closed) or an
`errno`. -/
inductive ReadResult
  | data (bytes : List UInt8)
  | error (errno : Errc)
  deriving DecidableEq, Repr

/-- What one `write(2)` call gives: the count of bytes it took, or an `errno`. -/
inductive WriteResult
  | count (n : Nat)
  | error (errno : Errc)
  deriving DecidableEq, Repr

/-- A `read(2)` asked for `n` bytes returns at most `n`. -/
def ReadResult.clamp (n : Nat) : ReadResult → ReadResult
  | .data b => .data (b.take n)
  | .error e => .error e

/-- A `write(2)` offered `n` bytes takes at most `n`. -/
def WriteResult.clamp (n : Nat) : WriteResult → WriteResult
  | .count k => .count (min k n)
  | .error e => .error e

/-- A `read(2)` result that ends `unix::read`'s loop whatever it asked for: `EWOULDBLOCK`/`EAGAIN`,
a hard error, or 0. -/
def ReadResult.stops : ReadResult → Bool
  | .error e => e != .interrupted
  | .data b => b.isEmpty

/-- A `read(2)` result that brings bytes, of which the loop takes at least one. -/
def ReadResult.brings : ReadResult → Bool
  | .data b => !b.isEmpty
  | .error _ => false

/-- A `write(2)` result that ends `unix::write`'s loop: `EWOULDBLOCK`/`EAGAIN`, a hard error, or
0. -/
def WriteResult.stops : WriteResult → Bool
  | .error e => e != .interrupted
  | .count n => n == 0

/-- A `write(2)` result that takes bytes: a positive count. -/
def WriteResult.takes : WriteResult → Bool
  | .count n => decide (0 < n)
  | .error _ => false

/-- A call the loops made and the result they saw: `read(2)` asked for `request` bytes, or
`write(2)` offered `chunk`. -/
inductive SysCall
  | read (request : Nat) (result : ReadResult)
  | write (chunk : List UInt8) (result : WriteResult)
  deriving DecidableEq, Repr

namespace SysCall

/-- The bytes a `read(2)` call returned. -/
def delivered : SysCall → List UInt8
  | read _ (.data b) => b
  | _ => []

/-- The count a `write(2)` call returned. -/
def accepted : SysCall → Nat
  | write _ (.count n) => n
  | _ => 0

/-- The bytes a `write(2)` call took: the prefix of its chunk of the count it returned. -/
def transmitted : SysCall → List UInt8
  | write c (.count n) => c.take n
  | _ => []

/-- A `read(2)` result after which `unix::read` calls again: `EINTR`, or some bytes. -/
def ReadsOn : SysCall → Prop
  | read _ (.error e) => e = .interrupted
  | read _ (.data b) => b ≠ []
  | write .. => False

/-- A `read(2)` result that ends `unix::read`: `EWOULDBLOCK`/`EAGAIN`, a hard error, or 0. -/
def EndsRead : SysCall → Prop
  | read _ (.error e) => e ≠ .interrupted
  | read _ (.data b) => b = []
  | write .. => False

end SysCall

/-- The bytes the `read(2)` calls of `E` returned, in order. -/
def delivered (E : List SysCall) : List UInt8 := E.flatMap SysCall.delivered

/-- The sum of the counts the `write(2)` calls of `E` returned. -/
def accepted : List SysCall → Nat
  | [] => 0
  | c :: E => c.accepted + accepted E

/-- The bytes the `write(2)` calls of `E` took, in order. -/
def transmitted (E : List SysCall) : List UInt8 := E.flatMap SysCall.transmitted

@[simp] theorem delivered_nil : delivered [] = [] := rfl
@[simp] theorem delivered_cons (c : SysCall) (E : List SysCall) :
    delivered (c :: E) = c.delivered ++ delivered E := rfl
@[simp] theorem delivered_append (E F : List SysCall) :
    delivered (E ++ F) = delivered E ++ delivered F := List.flatMap_append ..
@[simp] theorem accepted_nil : accepted [] = 0 := rfl
@[simp] theorem accepted_cons (c : SysCall) (E : List SysCall) :
    accepted (c :: E) = c.accepted + accepted E := rfl
@[simp] theorem transmitted_nil : transmitted [] = [] := rfl
@[simp] theorem transmitted_cons (c : SysCall) (E : List SysCall) :
    transmitted (c :: E) = c.transmitted ++ transmitted E := rfl

/-- How a loop over system calls ends: with a value or a thrown `errno`, after the calls it made,
leaving the results of the calls to come. -/
structure SysRun (α ρ : Type) where
  value : Except Errc α
  calls : List SysCall
  rest : List ρ

/-- A run after one more call made before it. -/
def SysRun.cons {α ρ : Type} (c : SysCall) (run : SysRun α ρ) : SysRun α ρ :=
  { run with calls := c :: run.calls }

@[simp] theorem SysRun.cons_value {α ρ : Type} (c : SysCall) (run : SysRun α ρ) :
    (run.cons c).value = run.value := rfl
@[simp] theorem SysRun.cons_calls {α ρ : Type} (c : SysCall) (run : SysRun α ρ) :
    (run.cons c).calls = c :: run.calls := rfl

/-! ## `unix::read` -/

/-- What an iteration of `unix::read`'s loop does with the result of its `read(2)` call: leave
the loop with `Return` and `ContinueReading` or throw (`.inl`), or go on with the new
`RemainingBytes` and `Return` (`.inr`). -/
def readStep (remaining : Nat) (ret : List UInt8) :
    ReadResult → Except Errc (List UInt8 × Bool) ⊕ (Nat × List UInt8)
  | .error .interrupted => .inr (remaining, ret)
  | .error e => if e.wouldBlock then .inl (.ok (ret, true)) else .inl (.error e)
  | .data [] => .inl (.ok (ret, false))
  | .data b =>
    let k := min b.length remaining
    .inr (remaining - k, ret ++ b.take k)

/-- The loop of `unix::read(FD, Bytes, &Success)` from `RemainingBytes` and `Return`, with
`ContinueReading` set, on a descriptor whose `read(2)` calls give `rs`. -/
def readLoop (bytes remaining : Nat) (ret : List UInt8) (rs : List ReadResult) :
    Option (SysRun (List UInt8 × Bool) ReadResult) :=
  if 0 < remaining ∧ remaining ≤ bytes then
    match rs with
    | [] => none
    | r :: rs =>
      let request := min BUFSIZ remaining
      let r := r.clamp request
      (match readStep remaining ret r with
        | .inl v => some (SysRun.mk v [] rs)
        | .inr (remaining, ret) => readLoop bytes remaining ret rs).map
        (SysRun.cons (.read request r))
  else some ⟨.ok (ret, true), [], rs⟩

/-- `unix::read(FD, Bytes, &Success)`: the bytes read and `*Success`, or the `errno` it throws
(the `*Success = false` before a throw is never read: the exception leaves the caller too). -/
def read (bytes : Nat) (rs : List ReadResult) : Option (SysRun (List UInt8 × Bool) ReadResult) :=
  (readLoop bytes bytes [] rs).map fun run =>
    { run with value := run.value.map fun (ret, cont) => (ret, !(!cont && ret.isEmpty)) }

/-- How `unix::read`'s loop ends on its last call `c`, having gathered `ret` with `left` bytes
still to read. -/
def ReadEnd (ret : List UInt8) (left : Nat) : SysCall → Except Errc (List UInt8 × Bool) → Prop
  | .read _ (.data []), v => v = .ok (ret, false)
  | .read _ (.data _), v => left = 0 ∧ v = .ok (ret, true)
  | .read _ (.error e), v => e ≠ .interrupted ∧ v = if e.wouldBlock then .ok (ret, true) else .error e
  | .write .., _ => False

/-- A loop that ends on `c` returns what it gathered. -/
theorem ReadEnd.ret_eq {ret ret' : List UInt8} {left : Nat} {c : SysCall} {cont : Bool}
    (h : ReadEnd ret left c (.ok (ret', cont))) : ret' = ret := by
  rcases c with ⟨n, (_ | ⟨x, b⟩) | e⟩ | ⟨c, r⟩
  · simp_all [ReadEnd]
  · simp_all [ReadEnd]
  · simp only [ReadEnd] at h
    split_ifs at h <;> simp_all
  · exact h.elim

/-- A loop ends with `ContinueReading` cleared exactly on a 0 result. -/
theorem ReadEnd.cont_eq_false {ret ret' : List UInt8} {left : Nat} {c : SysCall} {cont : Bool}
    (h : ReadEnd ret left c (.ok (ret', cont))) : cont = false ↔ ∃ n, c = .read n (.data []) := by
  rcases c with ⟨n, (_ | ⟨x, b⟩) | e⟩ | ⟨c, r⟩
  · simp_all [ReadEnd]
  · simp_all [ReadEnd]
  · simp only [ReadEnd] at h
    split_ifs at h <;> simp_all
  · exact h.elim

/-- A loop ends on an `EWOULDBLOCK`/`EAGAIN`, a hard error or a 0 result, or with nothing left to
read. -/
theorem ReadEnd.endsRead {ret : List UInt8} {left : Nat} {c : SysCall}
    {v : Except Errc (List UInt8 × Bool)} (h : ReadEnd ret left c v) : c.EndsRead ∨ left = 0 := by
  rcases c with ⟨n, (_ | ⟨x, b⟩) | e⟩ | ⟨c, r⟩
  · simp [SysCall.EndsRead]
  · exact .inr h.1
  · exact .inl h.1
  · exact h.elim

/-- The iterations of `unix::read`'s loop that go on: after `EINTR`, and after some bytes. -/
theorem readStep_eq_inr {remaining : Nat} {ret ret' : List UInt8} {r : ReadResult} {rem' : Nat}
    (h : readStep remaining ret r = .inr (rem', ret')) :
    (r = .error .interrupted ∧ rem' = remaining ∧ ret' = ret) ∨
      ∃ b, r = .data b ∧ b ≠ [] ∧ rem' = remaining - min b.length remaining ∧
        ret' = ret ++ b.take (min b.length remaining) := by
  rcases r with (_ | ⟨x, b⟩) | e
  · simp [readStep] at h
  · simp only [readStep, Sum.inr.injEq, Prod.mk.injEq] at h
    exact .inr ⟨x :: b, rfl, List.cons_ne_nil _ _, h.1.symm, h.2.symm⟩
  · cases e <;> simp_all [readStep, Errc.wouldBlock]

/-- The iterations of `unix::read`'s loop that leave it: a 0 result, or an error but `EINTR`. -/
theorem readStep_eq_inl {remaining : Nat} {ret : List UInt8} {r : ReadResult}
    {v : Except Errc (List UInt8 × Bool)} (h : readStep remaining ret r = .inl v) (n : Nat) :
    ReadEnd ret remaining (.read n r) v ∧ (SysCall.read n r).delivered = [] := by
  rcases r with (_ | ⟨x, b⟩) | e
  · simp_all [readStep, ReadEnd, SysCall.delivered]
  · simp [readStep] at h
  · cases e <;> simp_all [readStep, ReadEnd, Errc.wouldBlock, SysCall.delivered]

/-- What a run of `unix::read`'s loop did from `RemainingBytes = remaining` and `Return = ret`:
it gathered at most what remained, and it made no call only when nothing remained; otherwise
every call but the last was retried or brought bytes, short of what remained, and the last one
ended the loop as `ReadEnd` says. -/
structure ReadRun (remaining : Nat) (ret : List UInt8)
    (run : SysRun (List UInt8 × Bool) ReadResult) : Prop where
  delivered_le : (delivered run.calls).length ≤ remaining
  ends : (run.calls = [] ∧ remaining = 0 ∧ run.value = .ok (ret, true)) ∨
    ∃ mid c, run.calls = mid ++ [c] ∧ (∀ c ∈ mid, c.ReadsOn) ∧
      (delivered mid).length < remaining ∧
      ReadEnd (ret ++ delivered run.calls) (remaining - (delivered run.calls).length) c run.value

/-- A `read(2)` result cut to a request of at most `remaining` bytes. -/
theorem clamp_data_length {r : ReadResult} {remaining : Nat} {b : List UInt8}
    (h : r.clamp (min BUFSIZ remaining) = .data b) : b.length ≤ remaining := by
  cases r <;> simp only [ReadResult.clamp, ReadResult.data.injEq, reduceCtorEq] at h
  subst h
  simp only [List.length_take]
  omega

theorem readRun_cons {remaining rem' : Nat} {ret ret' : List UInt8} {r : ReadResult}
    {run : SysRun (List UInt8 × Bool) ReadResult} (hpos : 0 < remaining)
    (hstep : readStep remaining ret (r.clamp (min BUFSIZ remaining)) = .inr (rem', ret'))
    (ih : ReadRun rem' ret' run) :
    ReadRun remaining ret (run.cons (.read (min BUFSIZ remaining) (r.clamp (min BUFSIZ remaining)))) := by
  obtain ⟨hle, hends⟩ := ih
  rcases readStep_eq_inr hstep with ⟨hr, rfl, rfl⟩ | ⟨b, hr, hb, rfl, rfl⟩
  · rw [hr]
    refine ⟨by simpa [SysCall.delivered] using hle, .inr ?_⟩
    rcases hends with ⟨-, rfl, -⟩ | ⟨mid, c, hcalls, hmid, hlt, hend⟩
    · omega
    · exact ⟨.read (min BUFSIZ rem') (.error .interrupted) :: mid, c, by simp [hcalls],
        by simpa [SysCall.ReadsOn] using hmid, by simpa [SysCall.delivered] using hlt,
        by simpa [SysCall.delivered] using hend⟩
  · have hbl := clamp_data_length hr
    rw [min_eq_left hbl, List.take_of_length_le le_rfl] at *
    rw [hr]
    refine ⟨by simp [SysCall.delivered]; omega, .inr ?_⟩
    rcases hends with ⟨hnil, h0, hv⟩ | ⟨mid, c, hcalls, hmid, hlt, hend⟩
    · obtain ⟨x, b, rfl⟩ := List.exists_cons_of_ne_nil hb
      refine ⟨[], .read (min BUFSIZ remaining) (.data (x :: b)), by simp [hnil], by simp,
        by simp; omega, ?_⟩
      simpa [hnil, SysCall.delivered, ReadEnd, hv] using h0
    · refine ⟨.read (min BUFSIZ remaining) (.data b) :: mid, c, by simp [hcalls], ?_, ?_, ?_⟩
      · simpa [SysCall.ReadsOn, hb] using hmid
      · simp [SysCall.delivered]; omega
      · simpa [SysCall.delivered, Nat.sub_sub] using hend

/-- **What `unix::read`'s loop does.** A run from `RemainingBytes ≤ Bytes` ends as `ReadRun`
says. -/
theorem readLoop_run {bytes : Nat} {rs : List ReadResult} :
    ∀ {remaining : Nat} {ret : List UInt8} {run : SysRun (List UInt8 × Bool) ReadResult},
      remaining ≤ bytes → readLoop bytes remaining ret rs = some run → ReadRun remaining ret run := by
  induction rs with
  | nil =>
    intro remaining ret run hle h
    rw [readLoop] at h
    split_ifs at h with hc
    cases h
    exact ⟨by simp, .inl ⟨rfl, by omega, rfl⟩⟩
  | cons r rs ih =>
    intro remaining ret run hle h
    rw [readLoop] at h
    split_ifs at h with hc
    · simp only [Option.map_eq_some'] at h
      obtain ⟨run', h', rfl⟩ := h
      split at h'
      · next v hv =>
        cases h'
        obtain ⟨hend, hdel⟩ := readStep_eq_inl hv (min BUFSIZ remaining)
        exact ⟨by simp [hdel], .inr ⟨[], _, rfl, by simp, by simp; omega, by simpa [hdel] using hend⟩⟩
      · next rem' ret' hv =>
        refine readRun_cons hc.1 hv (ih ?_ h')
        rcases readStep_eq_inr hv with ⟨-, rfl, -⟩ | ⟨b, -, -, rfl, -⟩ <;> omega
    · cases h
      exact ⟨by simp, .inl ⟨rfl, by omega, rfl⟩⟩

/-- An iteration of `unix::read`'s loop that goes on saw a result that does not stop it, and
leaves less to read if that result brought bytes. -/
theorem readStep_clamp_inr {remaining rem' : Nat} {ret ret' : List UInt8} {r : ReadResult}
    (hpos : 0 < remaining)
    (h : readStep remaining ret (r.clamp (min BUFSIZ remaining)) = .inr (rem', ret')) :
    r.stops = false ∧ rem' + (if r.brings then 1 else 0) ≤ remaining := by
  rcases readStep_eq_inr h with ⟨hr, rfl, -⟩ | ⟨b, hr, hb, rfl, -⟩ <;> cases r
  · cases hr
  · cases hr
    exact ⟨rfl, by simp [ReadResult.brings]⟩
  · cases hr
    rename_i b₀
    have hb₀ : b₀ ≠ [] := fun h => hb (by simp [h])
    have hlen := List.length_pos.mpr hb
    have hbr : (ReadResult.data b₀).brings = true := by simp [ReadResult.brings, hb₀]
    refine ⟨by simp [ReadResult.stops, hb₀], ?_⟩
    rw [hbr, if_pos rfl]
    omega
  · cases hr

/-- **`unix::read`'s loop returns** on every script that holds a result that stops it, or as many
results that bring bytes as remain to be read. -/
theorem readLoop_isSome {bytes : Nat} {rs : List ReadResult} :
    ∀ {remaining : Nat} {ret : List UInt8},
      (∃ r ∈ rs, r.stops = true) ∨ remaining ≤ rs.countP ReadResult.brings →
      (readLoop bytes remaining ret rs).isSome := by
  induction rs with
  | nil =>
    intro remaining ret h
    rw [readLoop]
    split_ifs with hc
    · simp only [List.not_mem_nil, false_and, exists_false, List.countP_nil, false_or] at h
      omega
    · rfl
  | cons r rs ih =>
    intro remaining ret h
    rw [readLoop]
    split_ifs with hc
    · dsimp only
      split
      · rfl
      · next rem' ret' hv =>
        rw [Option.isSome_map']
        obtain ⟨hs, hle⟩ := readStep_clamp_inr hc.1 hv
        refine ih ?_
        simp only [List.mem_cons, exists_eq_or_imp, hs, Bool.false_eq_true, false_or,
          List.countP_cons] at h
        rcases h with h | h
        · exact .inl h
        · exact .inr (by split_ifs at hle h <;> omega)
    · rfl

/-! ## `unix::write` -/

/-- How `unix::write`'s loop is left: by `return BytesSent` with the value it gave `*Success`, or
at the end of the loop with `BytesSent` and the value `*Success` has there (`none`: not set). -/
inductive WriteExit
  | returned (sent : Nat) (success : Bool)
  | loopEnd (sent : Nat) (success : Option Bool)
  deriving DecidableEq, Repr

/-- `BytesSent` when the loop is left. -/
def WriteExit.sent : WriteExit → Nat
  | returned n _ | loopEnd n _ => n

/-- What an iteration of `unix::write`'s loop does with the result of its `write(2)` call. -/
def writeStep (sent : Nat) (buffer : List UInt8) :
    WriteResult → Except Errc WriteExit ⊕ (Nat × List UInt8)
  | .error .interrupted => .inr (sent, buffer)
  | .error e => if e.wouldBlock then .inl (.ok (.returned sent true)) else .inl (.error e)
  | .count 0 => .inl (.ok (.loopEnd sent (some false)))
  | .count n => .inr (sent + n, buffer.drop n)

/-- The loop of `unix::write(FD, Buffer, &Success)` from `BytesSent` and `Buffer`, on a
descriptor whose `write(2)` calls give `rs`. -/
def writeLoop (sent : Nat) (buffer : List UInt8) (rs : List WriteResult) :
    Option (SysRun WriteExit WriteResult) :=
  if buffer ≠ [] then
    match rs with
    | [] => none
    | r :: rs =>
      let chunk := buffer.take (min BUFSIZ buffer.length)
      let r := r.clamp chunk.length
      (match writeStep sent buffer r with
        | .inl v => some (SysRun.mk v [] rs)
        | .inr (sent, buffer) => writeLoop sent buffer rs).map (SysRun.cons (.write chunk r))
  else some ⟨.ok (.loopEnd sent none), [], rs⟩

/-- `unix::write(FD, Buffer, &Success)`: the bytes sent and `*Success`, or the `errno` it throws.
After the loop `*Success = true` overwrites whatever the loop left in it. -/
def write (buffer : List UInt8) (rs : List WriteResult) :
    Option (SysRun (Nat × Bool) WriteResult) :=
  (writeLoop 0 buffer rs).map fun run =>
    { run with value := run.value.map fun
      | .returned sent success => (sent, success)
      | .loopEnd sent _ => (sent, true) }

/-- The iterations of `unix::write`'s loop that go on: after `EINTR`, and after a positive count. -/
theorem writeStep_eq_inr {sent sent' : Nat} {buffer buffer' : List UInt8} {r : WriteResult}
    (h : writeStep sent buffer r = .inr (sent', buffer')) :
    (r = .error .interrupted ∧ sent' = sent ∧ buffer' = buffer) ∨
      ∃ n, 0 < n ∧ r = .count n ∧ sent' = sent + n ∧ buffer' = buffer.drop n := by
  rcases r with (_ | n) | e
  · simp [writeStep] at h
  · simp only [writeStep, Sum.inr.injEq, Prod.mk.injEq] at h
    exact .inr ⟨n + 1, n.succ_pos, rfl, h.1.symm, h.2.symm⟩
  · cases e <;> simp_all [writeStep, Errc.wouldBlock]

/-- The iterations of `unix::write`'s loop that leave it take nothing, and a `return` from the
loop sets `*Success`. -/
theorem writeStep_eq_inl {sent : Nat} {buffer : List UInt8} {r : WriteResult}
    {v : Except Errc WriteExit} (h : writeStep sent buffer r = .inl v) (c : List UInt8) :
    (SysCall.write c r).accepted = 0 ∧ (SysCall.write c r).transmitted = [] ∧
      (∀ x, v = .ok x → x.sent = sent) ∧ ∀ k b, v = .ok (.returned k b) → b = true := by
  rcases r with (_ | n) | e
  · simp only [writeStep, Sum.inl.injEq] at h
    subst h
    simp [SysCall.accepted, SysCall.transmitted, WriteExit.sent]
  · simp [writeStep] at h
  · cases e <;> simp only [writeStep, Errc.wouldBlock, Sum.inl.injEq, reduceCtorEq, if_true,
      Bool.false_eq_true, if_false] at h <;> subst h <;>
      simp [SysCall.accepted, SysCall.transmitted, WriteExit.sent]

/-- What a run of `unix::write`'s loop did from `BytesSent = sent` and `Buffer = buffer`: its
calls took a prefix of `buffer`, of the sum of their counts; it returns `sent` plus that sum; and
a `return` from the loop has set `*Success`. -/
structure WriteRun (sent : Nat) (buffer : List UInt8) (run : SysRun WriteExit WriteResult) :
    Prop where
  transmitted_eq : transmitted run.calls = buffer.take (accepted run.calls)
  accepted_le : accepted run.calls ≤ buffer.length
  sent_eq : ∀ x, run.value = .ok x → x.sent = sent + accepted run.calls
  returned_true : ∀ k b, run.value = .ok (.returned k b) → b = true

theorem writeRun_cons {sent sent' : Nat} {buffer buffer' : List UInt8} {r : WriteResult}
    {run : SysRun WriteExit WriteResult}
    (hstep : writeStep sent buffer (r.clamp (buffer.take (min BUFSIZ buffer.length)).length) =
      .inr (sent', buffer'))
    (ih : WriteRun sent' buffer' run) :
    WriteRun sent buffer (run.cons (.write (buffer.take (min BUFSIZ buffer.length))
      (r.clamp (buffer.take (min BUFSIZ buffer.length)).length))) := by
  obtain ⟨htx, hle, hsent, hret⟩ := ih
  rcases writeStep_eq_inr hstep with ⟨hr, rfl, rfl⟩ | ⟨n, -, hr, rfl, rfl⟩
  · rw [hr]
    exact ⟨by simpa [SysCall.transmitted, SysCall.accepted] using htx,
      by simpa [SysCall.accepted] using hle, by simpa [SysCall.accepted] using hsent, hret⟩
  · have hn : n ≤ min BUFSIZ buffer.length := by
      cases r <;> simp only [WriteResult.clamp, WriteResult.count.injEq, reduceCtorEq] at hr
      simp only [List.length_take] at hr
      omega
    rw [hr]
    simp only [List.length_drop] at hle
    refine ⟨?_, ?_, fun x hx => ?_, hret⟩
    · simp [SysCall.transmitted, SysCall.accepted, htx, List.take_take, min_eq_left hn,
        ← List.take_add]
    · simp only [SysRun.cons_calls, accepted_cons, SysCall.accepted]
      omega
    · simp only [SysRun.cons_calls, accepted_cons, SysCall.accepted, hsent x hx]
      omega

/-- **What `unix::write`'s loop does.** Every run ends as `WriteRun` says. -/
theorem writeLoop_run {rs : List WriteResult} :
    ∀ {sent : Nat} {buffer : List UInt8} {run : SysRun WriteExit WriteResult},
      writeLoop sent buffer rs = some run → WriteRun sent buffer run := by
  induction rs with
  | nil =>
    intro sent buffer run h
    rw [writeLoop] at h
    split_ifs at h with hc
    cases h
    exact ⟨by simp, by simp, fun x hx => by cases hx; rfl, by simp⟩
  | cons r rs ih =>
    intro sent buffer run h
    rw [writeLoop] at h
    split_ifs at h with hc
    · simp only [Option.map_eq_some'] at h
      obtain ⟨run', h', rfl⟩ := h
      split at h'
      · next v hv =>
        cases h'
        obtain ⟨hacc, htx, hsent, hret⟩ :=
          writeStep_eq_inl hv (buffer.take (min BUFSIZ buffer.length))
        refine ⟨?_, ?_, ?_, hret⟩ <;>
          simp only [SysRun.cons_calls, SysRun.cons_value, transmitted_cons, transmitted_nil,
            accepted_cons, accepted_nil, htx, hacc, List.take_zero, List.append_nil,
            Nat.add_zero, Nat.zero_le]
        exact hsent
      · next sent' buffer' hv => exact writeRun_cons hv (ih h')
    · cases h
      exact ⟨by simp, by simp, fun x hx => by cases hx; rfl, by simp⟩

/-- An iteration of `unix::write`'s loop that goes on saw a result that does not stop it, and
leaves less to send if that result took bytes. -/
theorem writeStep_clamp_inr {sent sent' : Nat} {buffer buffer' : List UInt8} {r : WriteResult}
    (hne : buffer ≠ [])
    (h : writeStep sent buffer (r.clamp (buffer.take (min BUFSIZ buffer.length)).length) =
      .inr (sent', buffer')) :
    r.stops = false ∧ buffer'.length + (if r.takes then 1 else 0) ≤ buffer.length := by
  rcases writeStep_eq_inr h with ⟨hr, -, rfl⟩ | ⟨n, hn, hr, -, rfl⟩ <;> cases r
  · cases hr
  · cases hr
    exact ⟨rfl, by simp [WriteResult.takes]⟩
  · simp only [WriteResult.clamp, WriteResult.count.injEq, List.length_take] at hr
    have := List.length_pos.mpr hne
    simp only [WriteResult.stops, WriteResult.takes, List.length_drop, beq_iff_eq,
      decide_eq_true_eq]
    refine ⟨by simp; omega, ?_⟩
    split_ifs <;> omega
  · cases hr

/-- **`unix::write`'s loop returns** on every script that holds a result that stops it, or as
many results that take bytes as there are bytes to send. -/
theorem writeLoop_isSome {ws : List WriteResult} :
    ∀ {sent : Nat} {buffer : List UInt8},
      (∃ r ∈ ws, r.stops = true) ∨ buffer.length ≤ ws.countP WriteResult.takes →
      (writeLoop sent buffer ws).isSome := by
  induction ws with
  | nil =>
    intro sent buffer h
    rw [writeLoop]
    split_ifs with hc
    · simp only [List.not_mem_nil, false_and, exists_false, List.countP_nil, false_or,
        Nat.le_zero, List.length_eq_zero] at h
      exact absurd h hc
    · rfl
  | cons r ws ih =>
    intro sent buffer h
    rw [writeLoop]
    split_ifs with hc
    · dsimp only
      split
      · rfl
      · next sent' buffer' hv =>
        rw [Option.isSome_map']
        obtain ⟨hs, hle⟩ := writeStep_clamp_inr hc hv
        refine ih ?_
        simp only [List.mem_cons, exists_eq_or_imp, hs, Bool.false_eq_true, false_or,
          List.countP_cons] at h
        rcases h with h | h
        · exact .inl h
        · exact .inr (by split_ifs at hle h <;> omega)
    · rfl

/-! ## The pipe -/

/-- `Pipe::Mode`: the end of the pipe it was opened as. -/
inductive Mode
  | read
  | write
  deriving DecidableEq, Repr

/-- A `unix::Pipe` as `readImpl` and `writeImpl` use it: whether it has failed, `OpenedAs`, the
results the coming `read(2)` and `write(2)` calls on its descriptor give, and the calls made. -/
structure Pipe where
  failed : Bool
  openedAs : Mode
  reads : List ReadResult
  writes : List WriteResult
  calls : List SysCall
  deriving DecidableEq, Repr

/-- What a pipe operation ends with: a value or an exception, with the pipe it leaves. -/
abbrev PipeOutcome (α : Type) := EStateM.Result ChannelError Pipe α

/-- The pipe an operation left behind, whether it returned or threw. -/
def PipeOutcome.state {α : Type} : PipeOutcome α → Pipe
  | .ok _ p => p
  | .error _ p => p

/-- `Pipe::readImpl(Bytes, Continue)`, called with `Continue` set: the data, and `Continue` as
the call leaves it. An `errno` thrown by `unix::read` passes through as a `system_error` with no
text of its own. -/
def Pipe.readImpl (bytes : Nat) (p : Pipe) : Option (PipeOutcome (List UInt8 × Bool)) :=
  if p.failed then some (.error (.systemError .io_error "Pipe failed.") p)
  else if p.openedAs ≠ .read then
    some (.error (.systemError .operation_not_permitted "Not readable.") p)
  else
    (read bytes p.reads).map fun run =>
      let p := { p with reads := run.rest, calls := p.calls ++ run.calls }
      match run.value with
      | .error e => .error (.systemError e "") p
      | .ok (data, success) =>
        if !success then .ok (data, false) { p with failed := true } else .ok (data, true) p

/-- `Pipe::writeImpl(Buffer, Continue)`, called with `Continue` set: the bytes sent, and
`Continue` as the call leaves it. -/
def Pipe.writeImpl (buffer : List UInt8) (p : Pipe) : Option (PipeOutcome (Nat × Bool)) :=
  if p.failed then some (.error (.systemError .io_error "Pipe failed.") p)
  else if p.openedAs ≠ .write then
    some (.error (.systemError .operation_not_permitted "Not writable.") p)
  else
    (write buffer p.writes).map fun run =>
      let p := { p with writes := run.rest, calls := p.calls ++ run.calls }
      match run.value with
      | .error e => .error (.systemError e "") p
      | .ok (sent, success) =>
        if !success then .ok (sent, false) { p with failed := true } else .ok (sent, true) p

/-! ## What the pipe's loops do -/

section Accounting

variable {bytes : Nat} {rs : List ReadResult} {buffer : List UInt8} {ws : List WriteResult}

/-- `unix::read` returns the bytes its calls delivered, at most `Bytes`. -/
theorem read_ok {run : SysRun (List UInt8 × Bool) ReadResult} (h : read bytes rs = some run)
    {ret : List UInt8} {success : Bool} (hv : run.value = .ok (ret, success)) :
    ret = delivered run.calls ∧ ret.length ≤ bytes := by
  obtain ⟨run₀, h₀, rfl⟩ := Option.map_eq_some'.mp h
  obtain ⟨hle, hends⟩ := readLoop_run le_rfl h₀
  obtain ⟨cont, hv₀⟩ : ∃ cont, run₀.value = .ok (ret, cont) := by
    cases hr : run₀.value with
    | error e => simp [hr, Except.map] at hv
    | ok x =>
      simp only [hr, Except.map, Except.ok.injEq, Prod.mk.injEq] at hv
      exact ⟨x.2, by rw [← hv.1]⟩
  have hret : ret = delivered run₀.calls := by
    rcases hends with ⟨hnil, -, hv'⟩ | ⟨mid, c, -, -, -, hend⟩
    · simp_all
    · rw [hv₀] at hend
      simpa using hend.ret_eq
  exact ⟨hret, hret ▸ hle⟩

/-- `unix::read` comes back with `*Success` false exactly when it read nothing and its last call
returned 0. -/
theorem read_success {run : SysRun (List UInt8 × Bool) ReadResult} (h : read bytes rs = some run)
    {ret : List UInt8} {success : Bool} (hv : run.value = .ok (ret, success)) :
    success = false ↔ ret = [] ∧ ∃ mid n, run.calls = mid ++ [.read n (.data [])] := by
  obtain ⟨run₀, h₀, rfl⟩ := Option.map_eq_some'.mp h
  obtain ⟨-, hends⟩ := readLoop_run le_rfl h₀
  obtain ⟨cont, hv₀, rfl⟩ : ∃ cont, run₀.value = .ok (ret, cont) ∧
      success = !(!cont && ret.isEmpty) := by
    cases hr : run₀.value with
    | error e => simp [hr, Except.map] at hv
    | ok x =>
      simp only [hr, Except.map, Except.ok.injEq, Prod.mk.injEq] at hv
      exact ⟨x.2, by rw [← hv.1], by rw [← hv.2, ← hv.1]⟩
  have hcont : cont = false ↔ ∃ mid n, run₀.calls = mid ++ [.read n (.data [])] := by
    rcases hends with ⟨hnil, -, hv'⟩ | ⟨mid, c, hcalls, -, -, hend⟩
    · rw [hv₀] at hv'
      simp_all
    · rw [hv₀] at hend
      rw [hend.cont_eq_false, hcalls]
      constructor
      · rintro ⟨n, rfl⟩
        exact ⟨mid, n, rfl⟩
      · rintro ⟨mid', n, h'⟩
        exact ⟨n, (List.singleton_inj.mp (List.append_inj' h' rfl).2)⟩
  simp only [Bool.not_and, Bool.not_not, Bool.or_eq_false_iff, Bool.not_eq_false',
    List.isEmpty_iff] at hcont ⊢
  rw [← hcont]
  cases cont <;> simp [and_comm]

/-- `unix::read` makes no call only for `Bytes = 0`; otherwise it retries after `EINTR` and
after some bytes, as long as it has fewer than `Bytes`, and stops on the first `EWOULDBLOCK`,
`EAGAIN`, hard error or 0 result, or once it has `Bytes`. -/
theorem read_calls {run : SysRun (List UInt8 × Bool) ReadResult} (h : read bytes rs = some run) :
    (run.calls = [] ∧ bytes = 0) ∨
      ∃ mid c, run.calls = mid ++ [c] ∧ (∀ c ∈ mid, c.ReadsOn) ∧ (delivered mid).length < bytes ∧
        (c.EndsRead ∨ (delivered run.calls).length = bytes) := by
  obtain ⟨run₀, h₀, rfl⟩ := Option.map_eq_some'.mp h
  obtain ⟨hle, hends⟩ := readLoop_run le_rfl h₀
  dsimp only
  rcases hends with ⟨hnil, h0, -⟩ | ⟨mid, c, hcalls, hmid, hlt, hend⟩
  · exact .inl ⟨hnil, h0⟩
  · refine .inr ⟨mid, c, hcalls, hmid, hlt, ?_⟩
    rcases hend.endsRead with hc | hc
    · exact .inl hc
    · exact .inr (by omega)

/-- `unix::write` returns the sum of the counts its calls returned. -/
theorem write_ok {run : SysRun (Nat × Bool) WriteResult} (h : write buffer ws = some run)
    {sent : Nat} {success : Bool} (hv : run.value = .ok (sent, success)) :
    sent = accepted run.calls ∧ success = true := by
  obtain ⟨run₀, h₀, rfl⟩ := Option.map_eq_some'.mp h
  have hrun := writeLoop_run h₀
  cases hr : run₀.value with
  | error e => simp [hr, Except.map] at hv
  | ok x =>
    have hsent := hrun.sent_eq x hr
    cases x with
    | returned k b =>
      simp only [hr, Except.map, Except.ok.injEq, Prod.mk.injEq] at hv
      obtain ⟨rfl, rfl⟩ := hv
      exact ⟨by simpa [WriteExit.sent] using hsent, hrun.returned_true k b hr⟩
    | loopEnd k b =>
      simp only [hr, Except.map, Except.ok.injEq, Prod.mk.injEq] at hv
      obtain ⟨rfl, rfl⟩ := hv
      exact ⟨by simpa [WriteExit.sent] using hsent, rfl⟩

/-- The calls of `unix::write` took a prefix of `Buffer`, of the sum of their counts. -/
theorem write_transmitted {run : SysRun (Nat × Bool) WriteResult} (h : write buffer ws = some run) :
    accepted run.calls ≤ buffer.length ∧ transmitted run.calls = buffer.take (accepted run.calls) := by
  obtain ⟨run₀, h₀, rfl⟩ := Option.map_eq_some'.mp h
  exact ⟨(writeLoop_run h₀).accepted_le, (writeLoop_run h₀).transmitted_eq⟩

end Accounting

/-- The pipe's `readImpl` returns what `unix::read` returned; it marks the pipe failed and clears
`Continue` exactly when `*Success` came back false. -/
theorem Pipe.readImpl_ok {bytes : Nat} {p p' : Pipe} {data : List UInt8} {cont : Bool}
    (h : Pipe.readImpl bytes p = some (.ok (data, cont) p')) :
    ∃ run, read bytes p.reads = some run ∧ run.value = .ok (data, cont) ∧
      p' = { p with failed := !cont, reads := run.rest, calls := p.calls ++ run.calls } := by
  unfold Pipe.readImpl at h
  split_ifs at h with hf hm
  · simp at h
  · simp at h
  obtain ⟨run, hrun, h⟩ := Option.map_eq_some'.mp h
  refine ⟨run, hrun, ?_⟩
  dsimp only at h
  cases hv : run.value with
  | error e => simp [hv] at h
  | ok x =>
    obtain ⟨data', success⟩ := x
    rw [hv] at h
    cases success <;> simp only [Bool.not_false, Bool.not_true, if_true, if_false,
      Bool.false_eq_true, EStateM.Result.ok.injEq, Prod.mk.injEq] at h <;>
      obtain ⟨⟨rfl, rfl⟩, rfl⟩ := h <;> simp_all

/-- The pipe's `writeImpl` returns what `unix::write` returned, and leaves the pipe's flag as it
was. -/
theorem Pipe.writeImpl_ok {buffer : List UInt8} {p p' : Pipe} {sent : Nat} {cont : Bool}
    (h : Pipe.writeImpl buffer p = some (.ok (sent, cont) p')) :
    ∃ run, write buffer p.writes = some run ∧ run.value = .ok (sent, cont) ∧
      p' = { p with writes := run.rest, calls := p.calls ++ run.calls } := by
  unfold Pipe.writeImpl at h
  split_ifs at h with hf hm
  · simp at h
  · simp at h
  obtain ⟨run, hrun, h⟩ := Option.map_eq_some'.mp h
  refine ⟨run, hrun, ?_⟩
  dsimp only at h
  cases hv : run.value with
  | error e => simp [hv] at h
  | ok x =>
    obtain ⟨sent', success⟩ := x
    obtain ⟨-, rfl⟩ := write_ok hrun hv
    rw [hv] at h
    simp only [Bool.not_true, Bool.false_eq_true, if_false, EStateM.Result.ok.injEq,
      Prod.mk.injEq] at h
    obtain ⟨⟨rfl, rfl⟩, rfl⟩ := h
    simp_all

/-- An exception from the pipe's `readImpl` leaves its flag as it was. -/
theorem Pipe.readImpl_error {bytes : Nat} {p p' : Pipe} {e : ChannelError}
    (h : Pipe.readImpl bytes p = some (.error e p')) : p'.failed = p.failed := by
  unfold Pipe.readImpl at h
  split_ifs at h
  · cases h; rfl
  · cases h; rfl
  obtain ⟨run, -, h⟩ := Option.map_eq_some'.mp h
  dsimp only at h
  cases hv : run.value with
  | error e' => rw [hv] at h; cases h; rfl
  | ok x =>
    obtain ⟨d, success⟩ := x
    rw [hv] at h
    cases success <;> cases h

/-- An exception from the pipe's `writeImpl` leaves its flag as it was. -/
theorem Pipe.writeImpl_error {buffer : List UInt8} {p p' : Pipe} {e : ChannelError}
    (h : Pipe.writeImpl buffer p = some (.error e p')) : p'.failed = p.failed := by
  unfold Pipe.writeImpl at h
  split_ifs at h
  · cases h; rfl
  · cases h; rfl
  obtain ⟨run, -, h⟩ := Option.map_eq_some'.mp h
  dsimp only at h
  cases hv : run.value with
  | error e' => rw [hv] at h; cases h; rfl
  | ok x =>
    obtain ⟨d, success⟩ := x
    rw [hv] at h
    cases success <;> cases h

/-- **When the pipe marks itself failed.** `readImpl` marks the pipe failed exactly when it
returns no data and `unix::read` ended on a `read(2)` that returned 0; an exception leaves the flag
unset; and `writeImpl` never changes the flag. -/
theorem pipe_failed_iff :
    (∀ bytes (p : Pipe) (res : PipeOutcome (List UInt8 × Bool)), p.failed = false →
      Pipe.readImpl bytes p = some res →
      (res.state.failed = true ↔ ∃ cont, res = .ok ([], cont) res.state ∧
        ∃ mid n, res.state.calls = p.calls ++ mid ++ [.read n (.data [])])) ∧
    (∀ buffer (p : Pipe) (res : PipeOutcome (Nat × Bool)), Pipe.writeImpl buffer p = some res →
      res.state.failed = p.failed) := by
  refine ⟨fun bytes p res hf h => ?_, fun buffer p res h => ?_⟩
  · rcases res with ⟨⟨data, cont⟩, p'⟩ | ⟨e, p'⟩
    · obtain ⟨run, hrun, hv, rfl⟩ := Pipe.readImpl_ok h
      have hs := read_success hrun hv
      simp only [PipeOutcome.state, Bool.not_eq_true', EStateM.Result.ok.injEq, Prod.mk.injEq,
        List.append_assoc, List.append_cancel_left_eq, and_true, hs]
      exact ⟨fun ⟨hd, hc⟩ => ⟨cont, ⟨hd, rfl⟩, hc⟩, fun ⟨_, ⟨hd, _⟩, hc⟩ => ⟨hd, hc⟩⟩
    · simp [PipeOutcome.state, Pipe.readImpl_error h, hf]
  · rcases res with ⟨x, p'⟩ | ⟨e, p'⟩
    · obtain ⟨run, -, -, rfl⟩ := Pipe.writeImpl_ok h
      rfl
    · exact Pipe.writeImpl_error h

/-- **Byte accounting of the pipe's loops.** `unix::read(FD, Bytes)` returns, in order, the bytes
its `read(2)` calls delivered, at most `Bytes`; it retries after `EINTR` and after some bytes while
it has fewer than `Bytes`, and stops on `EWOULDBLOCK`/`EAGAIN`, a hard error, a 0 result, or once
it has `Bytes`, so it returns on every script that holds such a result or as many results with
bytes as it wants. `unix::write(FD, Buffer)` returns the sum of the counts its `write(2)` calls
returned, at most `|Buffer|`, and those calls took exactly that prefix of `Buffer`; it returns on
every script that holds a result that stops it or as many positive counts as `Buffer` has bytes.
So the pipe's `readImpl` returns at most the bytes asked for and its `writeImpl` at most the bytes
offered. -/
theorem unix_byte_accounting :
    (∀ bytes rs (run : SysRun (List UInt8 × Bool) ReadResult), read bytes rs = some run →
      (∀ ret success, run.value = .ok (ret, success) →
        ret = delivered run.calls ∧ ret.length ≤ bytes) ∧
      ((run.calls = [] ∧ bytes = 0) ∨
        ∃ mid c, run.calls = mid ++ [c] ∧ (∀ c ∈ mid, c.ReadsOn) ∧
          (delivered mid).length < bytes ∧
          (c.EndsRead ∨ (delivered run.calls).length = bytes))) ∧
    (∀ bytes (rs : List ReadResult),
      (∃ r ∈ rs, r.stops = true) ∨ bytes ≤ rs.countP ReadResult.brings →
      (read bytes rs).isSome) ∧
    (∀ buffer ws (run : SysRun (Nat × Bool) WriteResult), write buffer ws = some run →
      (∀ sent success, run.value = .ok (sent, success) → sent = accepted run.calls) ∧
      accepted run.calls ≤ buffer.length ∧
      transmitted run.calls = buffer.take (accepted run.calls)) ∧
    (∀ buffer (ws : List WriteResult),
      (∃ r ∈ ws, r.stops = true) ∨ buffer.length ≤ ws.countP WriteResult.takes →
      (write buffer ws).isSome) ∧
    (∀ bytes (p p' : Pipe) data cont,
      Pipe.readImpl bytes p = some (.ok (data, cont) p') → data.length ≤ bytes) ∧
    (∀ buffer (p p' : Pipe) sent cont,
      Pipe.writeImpl buffer p = some (.ok (sent, cont) p') → sent ≤ buffer.length) := by
  refine ⟨fun _ _ _ h => ⟨fun _ _ hv => read_ok h hv, read_calls h⟩,
    fun _ _ h => by rw [read, Option.isSome_map']; exact readLoop_isSome h,
    fun _ _ _ h => ⟨fun _ _ hv => (write_ok h hv).1, write_transmitted h⟩,
    fun _ _ h => by rw [write, Option.isSome_map']; exact writeLoop_isSome h,
    fun _ _ _ _ _ h => ?_, fun _ _ _ _ _ h => ?_⟩
  · obtain ⟨run, hrun, hv, -⟩ := Pipe.readImpl_ok h
    exact (read_ok hrun hv).2
  · obtain ⟨run, hrun, hv, -⟩ := Pipe.writeImpl_ok h
    rw [(write_ok hrun hv).1]
    exact (write_transmitted hrun).1

theorem unix_byte_accounting_eagain :
    (read 10 [.data [1, 2], .error .resource_unavailable_try_again]).isSome ∧
      (write [1, 2, 3] [.count 1, .error .interrupted, .count 1, .count 1]).isSome :=
  ⟨unix_byte_accounting.2.1 10 _ (.inl ⟨_, List.mem_cons_of_mem _ (List.mem_singleton_self _), rfl⟩),
    unix_byte_accounting.2.2.2.1 [1, 2, 3] _ (.inr (by decide))⟩

/-- **The pipe leaves its failure flag unset on a disconnect and on a hard error.** A `write(2)`
that returns 0 before any byte makes `writeImpl` return 0 with `Continue` still set and the pipe
not failed: the loop's `*Success = false` is overwritten by the `*Success = true` after it. A
`read(2)` that fails with `EIO` makes `readImpl` throw before it reaches `setFailed()`. -/
theorem pipe_failure_flag_slips :
    Pipe.writeImpl [0] ⟨false, .write, [], [.count 0], []⟩ =
        some (.ok (0, true) ⟨false, .write, [], [], [.write [0] (.count 0)]⟩) ∧
      Pipe.readImpl 1 ⟨false, .read, [.error .io_error], [], []⟩ =
        some (.error (.systemError .io_error "") ⟨false, .read, [], [], [.read 1 (.error .io_error)]⟩) :=
  ⟨rfl, rfl⟩

end Unix

end Monomux.System

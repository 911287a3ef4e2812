import Monomux.System.BufferedChannel.Run

/-!
# The handle's state along the trace

A channel changes the state of its handle only by calling it, and it records every call in its
trace. `Handle.Runs H s E s'` says that the calls `E` records, made in turn on a handle in state
`s`, answer as recorded and leave it in state `s'`.

* `exec_replays`: after any call of an operation, the handle is in the state the calls it
  recorded lead to, and the channel can read and write as before;
* `Handle.IsQueue.runs`: on a handle that moves bytes through a queue, the bytes the calls took
  from it followed by the queue they leave are the queue they found followed by the bytes they
  handed to it.
-/

namespace Monomux.System

variable {σ : Type}

/-! ## Runs of a handle -/

namespace Handle

variable (H : Handle σ)

/-- The state a handle in state `s` goes to on the call `e` records. -/
def after (s : σ) : Event → σ
  | .readImpl n _ _ => (H.readImpl n s).next
  | .writeImpl c _ _ => (H.writeImpl c s).next

/-- The call `e` records is what a handle in state `s` answers. -/
def Answers (s : σ) : Event → Prop
  | .readImpl n chunk cont => (H.readImpl n s).chunk = chunk ∧ (H.readImpl n s).cont = cont
  | .writeImpl c sent cont => (H.writeImpl c s).sent = sent ∧ (H.writeImpl c s).cont = cont

/-- The calls `E` records, made in turn on a handle in state `s`, answer as recorded and leave it
in state `s'`. -/
def Runs : σ → List Event → σ → Prop
  | s, [], s' => s' = s
  | s, e :: E, s' => H.Answers s e ∧ Runs (H.after s e) E s'

/-- A trace `trace` that goes on from `tr` with calls that lead the handle from `h₀` to `h`. -/
def Traced (h₀ : σ) (tr trace : List Event) (h : σ) : Prop :=
  ∃ E, trace = tr ++ E ∧ H.Runs h₀ E h

/-- What a call of an operation keeps from `ch` to `ch'`: the handle is where the calls it
recorded lead, and the channel can read and write as before. -/
def Replays (ch ch' : BufferedChannel σ) : Prop :=
  H.Traced ch.handle ch.trace ch'.trace ch'.handle ∧ ch'.readable = ch.readable ∧
    ch'.writable = ch.writable

variable {H}

theorem runs_snoc {s s' : σ} {E : List Event} {e : Event} (h : H.Runs s E s')
    (he : H.Answers s' e) : H.Runs s (E ++ [e]) (H.after s' e) := by
  induction E generalizing s with
  | nil => cases h; exact ⟨he, rfl⟩
  | cons e' E ih => exact ⟨h.1, ih h.2⟩

theorem traced_refl (h₀ : σ) (tr : List Event) : H.Traced h₀ tr tr h₀ :=
  ⟨[], by simp, rfl⟩

theorem Traced.snoc {h₀ h : σ} {tr trace : List Event} {e : Event}
    (ht : H.Traced h₀ tr trace h) (he : H.Answers h e) :
    H.Traced h₀ tr (trace ++ [e]) (H.after h e) := by
  obtain ⟨E, rfl, hE⟩ := ht
  exact ⟨E ++ [e], by simp, runs_snoc hE he⟩

theorem Replays.refl (ch : BufferedChannel σ) : H.Replays ch ch :=
  ⟨traced_refl _ _, rfl, rfl⟩

end Handle

open Handle

@[simp] theorem checkOverflow_handle {α : Type} (ring : List UInt8) (tag : String)
    (read write : Bool) (a : α) (ch : BufferedChannel σ) :
    (checkOverflow ring tag read write a ch).state.handle = ch.handle := by
  simp only [state_checkOverflow]; split_ifs <;> rfl

@[simp] theorem checkOverflow_trace {α : Type} (ring : List UInt8) (tag : String)
    (read write : Bool) (a : α) (ch : BufferedChannel σ) :
    (checkOverflow ring tag read write a ch).state.trace = ch.trace := by
  simp only [state_checkOverflow]; split_ifs <;> rfl

@[simp] theorem checkOverflow_readable {α : Type} (ring : List UInt8) (tag : String)
    (read write : Bool) (a : α) (ch : BufferedChannel σ) :
    (checkOverflow ring tag read write a ch).state.readable = ch.readable := by
  simp only [state_checkOverflow]; split_ifs <;> rfl

@[simp] theorem checkOverflow_writable {α : Type} (ring : List UInt8) (tag : String)
    (read write : Bool) (a : α) (ch : BufferedChannel σ) :
    (checkOverflow ring tag read write a ch).state.writable = ch.writable := by
  simp only [state_checkOverflow]; split_ifs <;> rfl

/-! ## The loops -/

section Loops

variable {H : Handle σ} {fuel : Nat} {h₀ : σ} {tr : List Event}

theorem readLoop_traced {s r : ReadLoop σ} (h : whileLoop readCond (readBody H) fuel s = some r)
    (hs : H.Traced h₀ tr s.trace s.handle) : H.Traced h₀ tr r.trace r.handle :=
  whileLoop_inv (fun s => H.Traced h₀ tr s.trace s.handle) (fun s _ hi => by
    dsimp only; rw [readBody_trace, readBody_handle]; exact hi.snoc ⟨rfl, rfl⟩) h hs

theorem loadLoop_traced {s r : LoadLoop σ} (h : whileLoop loadCond (loadBody H) fuel s = some r)
    (hs : H.Traced h₀ tr s.trace s.handle) : H.Traced h₀ tr r.trace r.handle :=
  whileLoop_inv (fun s => H.Traced h₀ tr s.trace s.handle) (fun s _ hi => by
    dsimp only; rw [loadBody_trace, loadBody_handle]; exact hi.snoc ⟨rfl, rfl⟩) h hs

theorem flushLoop_traced {s r : FlushLoop σ}
    (h : whileLoop flushCond (flushBody H) fuel s = some r)
    (hs : H.Traced h₀ tr s.trace s.handle) : H.Traced h₀ tr r.trace r.handle :=
  whileLoop_inv (fun s => H.Traced h₀ tr s.trace s.handle)
    (fun s _ hi => hi.snoc (e := flushEvent H s) ⟨rfl, rfl⟩) h hs

theorem writeLoop_traced {s r : WriteLoop σ}
    (h : whileLoop writeCond (writeBody H) fuel s = some r)
    (hs : H.Traced h₀ tr s.trace s.handle) : H.Traced h₀ tr r.trace r.handle :=
  whileLoop_inv (fun s => H.Traced h₀ tr s.trace s.handle)
    (fun s _ hi => hi.snoc (e := writeEvent H s) ⟨rfl, rfl⟩) h hs

end Loops

/-! ## The operations -/

section Ops

variable {H : Handle σ} {fuel n : Nat} {d : List UInt8} {ch : BufferedChannel σ}

theorem read_replays {res : Outcome σ (List UInt8)}
    (h : BufferedChannel.read H fuel n ch = some res) : H.Replays ch res.state := by
  cases hf : ch.failed
  · cases hr : ch.readable
    · rw [read_of_not_readable hf hr] at h; cases h; exact .refl ch
    · rcases Nat.lt_or_ge ch.readRing.length n with hn | hn
      · rw [read_of_lt hf hr hn, Option.map_eq_some'] at h
        obtain ⟨s, hs, rfl⟩ := h
        simp only [Replays, checkOverflow_trace, checkOverflow_handle, checkOverflow_readable,
          checkOverflow_writable, and_true]
        exact readLoop_traced hs (traced_refl ch.handle ch.trace)
      · rw [read_of_le hf hr hn] at h; cases h; exact ⟨traced_refl _ _, rfl, rfl⟩
  · rw [read_of_failed hf] at h; cases h; exact .refl ch

theorem load_replays {res : Outcome σ Nat} (h : BufferedChannel.load H fuel n ch = some res) :
    H.Replays ch res.state := by
  cases hf : ch.failed
  · cases hr : ch.readable
    · rw [load_of_not_readable hf hr] at h; cases h; exact .refl ch
    · rw [load_eq hf hr, Option.map_eq_some'] at h
      obtain ⟨s, hs, rfl⟩ := h
      simp only [Replays, checkOverflow_trace, checkOverflow_handle, checkOverflow_readable,
        checkOverflow_writable, and_true]
      exact loadLoop_traced hs (traced_refl ch.handle ch.trace)
  · rw [load_of_failed hf] at h; cases h; exact .refl ch

theorem flushWrites_replays {res : Outcome σ Nat}
    (h : BufferedChannel.flushWrites H fuel ch = some res) : H.Replays ch res.state := by
  cases hf : ch.failed
  · cases hw : ch.writable
    · rw [flushWrites_of_not_writable hf hw] at h; cases h; exact .refl ch
    · rw [flushWrites_eq hf hw] at h
      split_ifs at h
      · cases h; exact .refl ch
      · rw [Option.map_eq_some'] at h
        obtain ⟨s, hs, rfl⟩ := h
        exact ⟨flushLoop_traced hs (traced_refl ch.handle ch.trace), rfl, rfl⟩
  · rw [flushWrites_of_failed hf] at h; cases h; exact .refl ch

theorem write_replays {res : Outcome σ Nat} (h : BufferedChannel.write H fuel d ch = some res) :
    H.Replays ch res.state := by
  cases hf : ch.failed
  · cases hw : ch.writable
    · rw [write_of_not_writable hf hw] at h; cases h; exact .refl ch
    · rw [BufferedChannel.write, if_neg (by simp [hf]), if_neg (by simp [hw])] at h
      cases hfl : BufferedChannel.flushWrites H fuel ch with
      | none => simp [hfl] at h
      | some r =>
        obtain ⟨htr, hrd, hwr⟩ := flushWrites_replays hfl
        rcases r with ⟨k, ch'⟩ | ⟨e, ch'⟩
        · simp only [hfl] at h
          simp only [Outcome.state_ok] at htr hrd hwr
          split_ifs at h
          · cases h
            simp only [Replays, checkOverflow_trace, checkOverflow_handle, checkOverflow_readable,
              checkOverflow_writable]
            exact ⟨htr, hrd, hwr⟩
          · cases h; exact ⟨htr, hrd, hwr⟩
          · rw [Option.map_eq_some'] at h
            obtain ⟨s, hs, rfl⟩ := h
            simp only [Replays, checkOverflow_trace, checkOverflow_handle, checkOverflow_readable,
              checkOverflow_writable]
            exact ⟨writeLoop_traced hs htr, hrd, hwr⟩
        · simp only [hfl, Option.some.injEq] at h
          subst h
          exact ⟨htr, hrd, hwr⟩
  · rw [write_of_failed hf] at h; cases h; exact .refl ch

/-- **Every call replays on the handle**: after any call of an operation, the handle is in the
state the calls recorded in the trace lead to, and the channel can read and write as before. -/
theorem exec_replays {c : Call} {res : Outcome σ Reply} (h : c.exec H fuel ch = some res) :
    H.Replays ch res.state := by
  cases c <;> simp only [Call.exec, Option.map_eq_some'] at h <;> obtain ⟨r, hr, rfl⟩ := h <;>
    rw [Outcome.state_map]
  · exact read_replays hr
  · exact load_replays hr
  · exact write_replays hr
  · exact flushWrites_replays hr

end Ops

/-! ## Handles that are queues -/

/-- A handle that moves bytes through a queue, which holds `content s` in state `s`: `readImpl`
takes the chunk it returns from the front of the queue, and `writeImpl` appends the bytes it
takes. -/
structure Handle.IsQueue (H : Handle σ) (content : σ → List UInt8) : Prop where
  read_front : ∀ n s, content s = (H.readImpl n s).chunk ++ content (H.readImpl n s).next
  write_back : ∀ c s, content (H.writeImpl c s).next = content s ++ c.take (H.writeImpl c s).sent

/-- Along calls to a queue, the bytes they took followed by the queue they leave are the queue
they found followed by the bytes they handed to it. -/
theorem Handle.IsQueue.runs {H : Handle σ} {content : σ → List UInt8} (hq : H.IsQueue content)
    {s s' : σ} {E : List Event} (h : H.Runs s E s') :
    fetched E ++ content s' = content s ++ transmitted E := by
  induction E generalizing s with
  | nil => cases h; simp
  | cons e E ih =>
    obtain ⟨he, hrun⟩ := h
    have hE := ih hrun
    cases e with
    | readImpl n chunk cont =>
      obtain ⟨rfl, -⟩ := he
      simp only [fetched_cons, transmitted_cons, Event.fetched, Event.transmitted, after,
        List.nil_append] at hE ⊢
      rw [List.append_assoc, hE, ← List.append_assoc, ← hq.read_front n s]
    | writeImpl c sent cont =>
      obtain ⟨rfl, -⟩ := he
      simp only [fetched_cons, transmitted_cons, Event.fetched, Event.transmitted, after,
        List.nil_append, hq.write_back] at hE ⊢
      rw [hE, List.append_assoc]

end Monomux.System

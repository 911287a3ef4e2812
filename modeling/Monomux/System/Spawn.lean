import Monomux.System.Process

/-!
# Starting and reaping children: `Process::spawn` and `Process::reapIfDead`

`Process::spawn(Opts)` (`src/src/system/Process.cpp`) forks. The parent keeps the child's process
id as the handle of a `Process`; the child makes itself a session leader with `setsid` and runs
`Process::exec(Opts)`. `Process::reapIfDead()` asks the kernel with
`waitpid(Handle, nullptr, WNOHANG)` whether the child has ended, which reaps it if it has.

The kernel is modelled by what these calls see of it: the parent's children by process id, each
running or exited (a zombie), `fork`, the exit of a child, and `waitpid` on one. A parent makes any
interleaving of spawns, exits and calls of `reapIfDead` (`Parent.run`). What this is for is the
life of each child the parent started (`Life`): alive, dead, then reported dead by `reapIfDead`,
once (`specRun`).

* `reapIfDead_some`: what one call on a child returns and leaves; it never throws;
* `Parent.step_sim`, `Parent.run_sim`: as long as `fork` never hands out the id of a child the
  parent holds a `Process` for, every run of the parent is a run of the specification;
* `reapIfDead_exactly_once`: in such a run from no children, `reapIfDead` returns what the
  specification says, and says `true` about a process once if its child has been reaped, and
  never otherwise;
* `reapIfDead_stale_handle`: why the ids must be all different: a `Process` keeps the id of a
  child once it is reaped, so when `fork` hands that id out again, the old `Process` reaps the new
  child, and the new one never sees it.
-/

namespace Monomux

/-- `std::errc::no_child_process` (`ECHILD`, 10 on Linux). -/
def System.Errc.no_child_process : System.Errc := .other 10

open System

/-! ## The kernel -/

/-- A child of the calling process, as `waitpid(2)` sees it. -/
inductive ChildState
  /-- It has not exited. -/
  | running
  /-- It has exited and has not been waited for: a zombie, which keeps its process id. -/
  | exited
  deriving DecidableEq, Repr

/-- The children of the calling process by process id, `none` for an id that names no child of
it, such as one that has been waited for. -/
abbrev Children := Int → Option ChildState

namespace Children

/-- `fork(2)` in the parent, where the kernel hands out the id `pid` for the new child. -/
def fork (k : Children) (pid : Int) : Children := Function.update k pid (some .running)

/-- The child `pid` exits; it stays a child, as a zombie, until it is waited for. -/
def exit (k : Children) (pid : Int) : Children :=
  if k pid = some .running then Function.update k pid (some .exited) else k

/-- `waitpid(pid, nullptr, WNOHANG)` for a positive `pid`: `0` for a child still running, `pid`
for one that has exited, which the call reaps, and `ECHILD` for an id that names no child. -/
def waitpid (k : Children) (pid : Int) : Except Errc Int × Children :=
  match k pid with
  | some .running => (.ok 0, k)
  | some .exited => (.ok pid, Function.update k pid none)
  | none => (.error .no_child_process, k)

end Children

/-! ## `Process::spawn` and `Process::reapIfDead` -/

/-- A child process the program started: `Process` with its process id (`Handle`), `none` for
`Process::Invalid`. -/
structure Process where
  handle : Option Int

namespace Process

/-- `Process::spawn(Opts)` in the parent, where `fork` fails with an error or hands out the
child's id: the `Process` it returns, or the `system_error` it throws. -/
def spawn (k : Children) (forkResult : Except Errc Int) :
    Except (Errc × String) Process × Children :=
  match forkResult with
  | .error e => (.error (e, "fork() failed in spawn()"), k)
  | .ok pid => (.ok ⟨some pid⟩, k.fork pid)

/-- `Process::spawn(Opts)` in the child `fork` made, which inherited the environment `env`:
`setsid` fails with an error or not, then `Process::exec(Opts)` runs. The child never returns a
`Process`: it starts the new image, or throws out of `spawn` into the code that called it. -/
def spawnChild (opts : SpawnOptions) (env : ProcessEnvironment)
    (setsidError execvpError : Option Errc) : Except (Errc × String) ExecRun :=
  match setsidError with
  | some e => .error (e, "setsid()")
  | none => .ok (exec opts env execvpError)

/-- `Process::reapIfDead()`: whether the process is known to have ended, and the kernel after the
call. A `waitpid` error other than `ECHILD` is thrown as a `system_error`. -/
def reapIfDead (P : Process) (k : Children) : Except (Errc × String) Bool × Children :=
  match P.handle with
  | none => (.ok true, k)
  | some pid =>
    match k.waitpid pid with
    | (.error e, k') =>
      (if e = .no_child_process then .ok false else .error (e, "waitpid(" ++ toString pid ++ ")"),
        k')
    | (.ok changed, k') =>
      (if changed = pid then .ok true else if changed = 0 then .ok false else .ok false, k')

/-- **One call of `reapIfDead`.** On a child with a nonzero id it says whether the child has
exited, and reaps it then; it never throws. -/
theorem reapIfDead_some {P : Process} {pid : Int} (hP : P.handle = some pid) (h0 : pid ≠ 0)
    (k : Children) :
    P.reapIfDead k = (.ok (k pid = some .exited),
      if k pid = some .exited then Function.update k pid none else k) := by
  simp only [reapIfDead, hP, Children.waitpid]
  rcases hk : k pid with _ | _ | _ <;> simp [Ne.symm h0]

end Process

/-! ## The parent -/

/-- The program that starts children: the kernel's record of its children, and the `Process` of
each child it started, in the order it started them. -/
structure Parent where
  children : Children
  processes : List Process

/-- What happens between two steps of the parent. -/
inductive Event
  /-- `Process::spawn`, where `fork` fails with an error or hands out an id. -/
  | spawn (forkResult : Except Errc Int)
  /-- The child with the id exits. -/
  | exit (pid : Int)
  /-- `reapIfDead()` on the process the parent started `i`-th. -/
  | reap (i : Nat)

/-- The id `fork` handed out, in a spawn that succeeded. -/
def Event.forked : Event → Option Int
  | .spawn (.ok pid) => some pid
  | _ => none

namespace Parent

/-- One step, with what `reapIfDead` returned or threw, on which process, if it was called. -/
def step (s : Parent) : Event → Option (Nat × Except (Errc × String) Bool) × Parent
  | .spawn r =>
    match Process.spawn s.children r with
    | (.ok P, k) => (none, ⟨k, s.processes ++ [P]⟩)
    | (.error _, k) => (none, ⟨k, s.processes⟩)
  | .exit pid => (none, ⟨s.children.exit pid, s.processes⟩)
  | .reap i =>
    match s.processes[i]? with
    | some P =>
      (some (i, (P.reapIfDead s.children).1), ⟨(P.reapIfDead s.children).2, s.processes⟩)
    | none => (none, s)

/-- The steps one after another, with what each call of `reapIfDead` returned or threw. -/
def run : Parent → List Event → List (Nat × Except (Errc × String) Bool) × Parent
  | s, [] => ([], s)
  | s, e :: es => ((s.step e).1.toList ++ ((s.step e).2.run es).1, ((s.step e).2.run es).2)

end Parent

/-! ## What it is for: the life of each child -/

/-- The life of a child the parent started, as the parent should learn it. -/
inductive Life
  /-- Its process runs. -/
  | alive
  /-- It has ended, and no `reapIfDead` has said so yet. -/
  | dead
  /-- A `reapIfDead` has said that it ended. -/
  | reported
  deriving DecidableEq, Repr

namespace Life

/-- What the kernel keeps of a child in each part of its life. -/
def child : Life → Option ChildState
  | .alive => some .running
  | .dead => some .exited
  | .reported => none

/-- The child's process exits. -/
def exit : Life → Life
  | .alive => .dead
  | l => l

@[simp] theorem child_eq_exited (l : Life) : l.child = some .exited ↔ l = .dead := by
  cases l <;> simp [child]

@[simp] theorem child_eq_running (l : Life) : l.child = some .running ↔ l = .alive := by
  cases l <;> simp [child]

/-- The kernel's `exit` of a child is the end of its life. -/
theorem exit_child {k : Children} {pid : Int} {l : Life} (hk : k pid = l.child) :
    k.exit pid pid = l.exit.child := by
  cases l <;> simp_all [Children.exit, exit, child]

end Life

/-- One step of the specification, over the id and the life of each child the parent started:
`reapIfDead` on a child says `true` when it is dead and not reported yet, and reports it. -/
def specStep (A : List (Int × Life)) : Event → Option (Nat × Bool) × List (Int × Life)
  | .spawn (.error _) => (none, A)
  | .spawn (.ok pid) => (none, A ++ [(pid, .alive)])
  | .exit pid => (none, A.map fun c => (c.1, if c.1 = pid then c.2.exit else c.2))
  | .reap i =>
    match A[i]? with
    | some (pid, l) => (some (i, l = .dead), if l = .dead then A.set i (pid, .reported) else A)
    | none => (none, A)

/-- The specification's steps one after another, with what each `reapIfDead` said. -/
def specRun : List (Int × Life) → List Event → List (Nat × Bool) × List (Int × Life)
  | A, [] => ([], A)
  | A, e :: es =>
    ((specStep A e).1.toList ++ (specRun (specStep A e).2 es).1, (specRun (specStep A e).2 es).2)

/-- Setting an element of a list to the element it holds leaves the list as it is. -/
theorem set_of_getElem?_eq {α : Type} {l : List α} {i : Nat} {a : α} (h : l[i]? = some a) :
    l.set i a = l :=
  List.ext_getElem? fun j => by
    rw [List.getElem?_set]
    split
    · next hij => subst hij; rw [h, if_pos (List.getElem?_eq_some_iff.mp h).1]
    · rfl

/-- A step of the specification adds the id a spawn hands out, and changes no other id. -/
theorem specStep_ids (A : List (Int × Life)) (e : Event) :
    (specStep A e).2.map Prod.fst = A.map Prod.fst ++ e.forked.toList := by
  rcases e with (_ | pid) | pid | i
  · simp [specStep, Event.forked]
  · simp [specStep, Event.forked]
  · simp [specStep, Event.forked, Function.comp_def]
  · simp only [specStep, Event.forked, Option.toList_none, List.append_nil]
    rcases hi : A[i]? with _ | ⟨pid, l⟩
    · rfl
    · by_cases hl : l = .dead
      · simp only [hl, if_true, List.map_set]
        exact set_of_getElem?_eq (by simp [hi])
      · simp [hl]

/-- Whether the specification has reported its `i`-th child. -/
def reportedAt (A : List (Int × Life)) (i : Nat) : Bool :=
  A[i]?.map Prod.snd = some .reported

@[simp] theorem Life.exit_eq_reported (l : Life) : l.exit = .reported ↔ l = .reported := by
  cases l <;> simp [Life.exit]

/-- **The specification reports each child once.** What a step says `true` about the `i`-th
child, and whether the child was reported before it, add up to whether it is reported after. -/
theorem specStep_count (A : List (Int × Life)) (e : Event) (i : Nat) :
    (specStep A e).1.toList.count (i, true) + (reportedAt A i).toNat =
      (reportedAt (specStep A e).2 i).toNat := by
  rcases e with (_ | pid) | pid | j
  · simp [specStep]
  · -- a spawn: the new child is alive
    simp only [specStep, Option.toList_none, List.count_nil, Nat.zero_add, reportedAt]
    by_cases hi : i < A.length
    · simp only [List.getElem?_append_left hi]
    · simp only [List.getElem?_append_right (Nat.le_of_not_lt hi),
        List.getElem?_eq_none (Nat.le_of_not_lt hi)]
      rcases i - A.length with _ | _ <;> simp
  · -- an exit: a reported child stays reported, and no other child becomes reported
    simp only [specStep, Option.toList_none, List.count_nil, Nat.zero_add, reportedAt,
      List.getElem?_map, Option.map_map]
    rcases A[i]? with _ | c
    · rfl
    · by_cases h : c.1 = pid <;> simp [h]
  · -- a call of reapIfDead reports a dead child
    simp only [specStep]
    rcases hj : A[j]? with _ | ⟨pid, l⟩
    · simp
    by_cases hl : l = .dead
    · subst hl
      by_cases hji : j = i
      · subst hji
        simp [reportedAt, hj, List.getElem?_set_self (List.getElem?_eq_some_iff.mp hj).1]
      · simp only [if_true, reportedAt, List.getElem?_set_ne hji]
        simp [List.count_cons, hji]
    · simp [hl]

/-- `specStep_count` along a run. -/
theorem specRun_count (A : List (Int × Life)) (events : List Event) (i : Nat) :
    (specRun A events).1.count (i, true) + (reportedAt A i).toNat =
      (reportedAt (specRun A events).2 i).toNat := by
  induction events generalizing A with
  | nil => simp [specRun]
  | cons e es ih =>
    simp only [specRun, List.count_append]
    rw [Nat.add_right_comm, specStep_count, Nat.add_comm, ih]

/-! ## The parent refines the specification -/

/-- The parent's state is the specification's `A`: its processes are those of `A`, in order, and
the kernel keeps of each child what its life says. -/
structure Sim (s : Parent) (A : List (Int × Life)) : Prop where
  handles : s.processes = A.map fun c => ⟨some c.1⟩
  child : ∀ (i : Nat) (c : Int × Life), A[i]? = some c → s.children c.1 = c.2.child

/-- Two children of the specification with one id are one child, when no id repeats. -/
theorem index_eq_of_ids_nodup {A : List (Int × Life)} (hnd : (A.map Prod.fst).Nodup)
    {i j : Nat} {c d : Int × Life} (hi : A[i]? = some c) (hj : A[j]? = some d) (h : c.1 = d.1) :
    i = j := by
  have hi' : (A.map Prod.fst)[i]? = some c.1 := by simp [hi]
  have hj' : (A.map Prod.fst)[j]? = some c.1 := by simp [hj, h]
  obtain ⟨_, hci⟩ := List.getElem?_eq_some_iff.mp hi'
  obtain ⟨_, hcj⟩ := List.getElem?_eq_some_iff.mp hj'
  exact hnd.getElem_inj_iff.mp (hci.trans hcj.symm)

namespace Parent

variable {s : Parent} {A : List (Int × Life)}

/-- **One step of the parent is one step of the specification**, when the children's ids are
positive and all different, and the id a spawn hands out is not one of them. -/
theorem step_sim (hs : Sim s A) (hnd : (A.map Prod.fst).Nodup) (hpos : ∀ c ∈ A, 0 < c.1)
    (e : Event) (hfresh : ∀ pid, e.forked = some pid → pid ∉ A.map Prod.fst) :
    (s.step e).1 = (specStep A e).1.map (fun o => (o.1, .ok o.2)) ∧
      Sim (s.step e).2 (specStep A e).2 := by
  rcases e with (_ | pid) | pid | i
  · exact ⟨rfl, hs⟩
  · -- a spawn: the new child runs, and the kernel keeps the other children as they were
    have hnew : ∀ c ∈ A, c.1 ≠ pid := fun c hc h =>
      hfresh pid rfl (List.mem_map.mpr ⟨c, hc, h⟩)
    refine ⟨rfl, ⟨by simp [step, Process.spawn, specStep, hs.handles], fun i c hc => ?_⟩⟩
    simp only [step, Process.spawn, specStep, Children.fork] at hc ⊢
    rw [List.getElem?_append] at hc
    split at hc
    · rw [Function.update_noteq (hnew c (List.getElem?_mem hc)), hs.child i c hc]
    · obtain rfl := List.mem_singleton.mp (List.getElem?_mem hc)
      simp [Life.child]
  · -- an exit: the child of that id, if it runs, becomes a zombie
    refine ⟨rfl, ⟨by simp [step, specStep, hs.handles], fun i c hc => ?_⟩⟩
    simp only [step, specStep, List.getElem?_map, Option.map_eq_some'] at hc ⊢
    obtain ⟨c, hc, rfl⟩ := hc
    have hk := hs.child i c hc
    by_cases hp : c.1 = pid
    · subst hp
      simpa using Life.exit_child hk
    · have hne : (s.children.exit pid) c.1 = s.children c.1 := by
        unfold Children.exit; split <;> simp [Function.update_noteq hp]
      simp [hp, hne, hk]
  · -- a call of reapIfDead: both sides look at the life of the same child
    rcases hi : A[i]? with _ | ⟨pid, l⟩
    · have hP : s.processes[i]? = none := by rw [hs.handles, List.getElem?_map, hi]; rfl
      simp only [step, specStep, hP, hi]
      exact ⟨rfl, hs⟩
    have hP : s.processes[i]? = some ⟨some pid⟩ := by
      rw [hs.handles, List.getElem?_map, hi]; rfl
    have hk : s.children pid = l.child := hs.child i _ hi
    simp only [step, specStep, hP, hi, hk, Life.child_eq_exited,
      Process.reapIfDead_some rfl (hpos _ (List.getElem?_mem hi)).ne']
    refine ⟨rfl, ?_⟩
    by_cases hl : l = .dead
    · subst hl
      simp only [if_true]
      refine ⟨?_, fun j c hc => ?_⟩
      · rw [hs.handles, List.map_set, set_of_getElem?_eq (by simp [hi])]
      by_cases hj : i = j
      · subst hj
        rw [List.getElem?_set_self (List.getElem?_eq_some_iff.mp hi).1] at hc
        cases hc
        simp [Life.child]
      · rw [List.getElem?_set_ne hj] at hc
        have hne : c.1 ≠ pid := fun h => hj (index_eq_of_ids_nodup hnd hi hc h.symm)
        exact (Function.update_noteq hne _ _).trans (hs.child j c hc)
    · simp only [hl, if_false]
      exact hs

/-- **Every run of the parent is a run of the specification.** From a state that is the
specification's `A`, as long as the ids of the children the parent holds a `Process` for (those of
`A` and those it spawns) are positive and no two of them are equal, the parent's run returns what
the specification's run says, and ends in the state the specification's run ends in. -/
theorem run_sim (hs : Sim s A) (events : List Event)
    (hpos : ∀ pid ∈ A.map Prod.fst ++ events.filterMap Event.forked, 0 < pid)
    (hnd : (A.map Prod.fst ++ events.filterMap Event.forked).Nodup) :
    (s.run events).1 = (specRun A events).1.map (fun o => (o.1, .ok o.2)) ∧
      Sim (s.run events).2 (specRun A events).2 := by
  induction events generalizing s A with
  | nil => exact ⟨rfl, hs⟩
  | cons e es ih =>
    have hforked : (e :: es).filterMap Event.forked =
        e.forked.toList ++ es.filterMap Event.forked := by
      cases h : e.forked <;> simp [List.filterMap_cons, h]
    rw [hforked, ← List.append_assoc] at hpos hnd
    have h₁ := (List.nodup_append.mp hnd).1
    obtain ⟨ho, hs₁⟩ := step_sim hs (List.nodup_append.mp h₁).1
      (fun c hc => hpos c.1 (List.mem_append_left _
        (List.mem_append_left _ (List.mem_map_of_mem Prod.fst hc))))
      e (fun pid hp hA => (List.nodup_append.mp h₁).2.2 hA (by simp [hp]))
    rw [← specStep_ids] at hpos hnd
    obtain ⟨hrun, hs'⟩ := ih hs₁ hpos hnd
    refine ⟨?_, hs'⟩
    simp only [run, specRun, ho, hrun, List.map_append]
    cases (specStep A e).1 <;> rfl

end Parent

/-- **`reapIfDead` says once that a child has ended.** Take a parent with no children, and any
interleaving of spawns, exits of children and calls of `reapIfDead`, in which the ids `fork` hands
out are positive and all different. Every call of `reapIfDead` returns what the specification
says (it never throws), and it has said `true` about a process once if the process's child has
been reaped by the end of the run, and never if it has not. -/
theorem reapIfDead_exactly_once (events : List Event)
    (hpos : ∀ pid ∈ events.filterMap Event.forked, 0 < pid)
    (hnd : (events.filterMap Event.forked).Nodup) :
    (Parent.run ⟨fun _ => none, []⟩ events).1 =
        (specRun [] events).1.map (fun o => (o.1, .ok o.2)) ∧
      ∀ i pid,
        (Parent.run ⟨fun _ => none, []⟩ events).2.processes[i]? = some ⟨some pid⟩ →
        (specRun [] events).1.count (i, true) =
          if (Parent.run ⟨fun _ => none, []⟩ events).2.children pid = none then 1 else 0 := by
  obtain ⟨hrun, hs⟩ := Parent.run_sim (s := ⟨fun _ => none, []⟩) (A := [])
    ⟨rfl, by simp⟩ events hpos hnd
  refine ⟨hrun, fun i pid hP => ?_⟩
  rw [hs.handles, List.getElem?_map, Option.map_eq_some'] at hP
  obtain ⟨⟨pid', l⟩, hi, hpid⟩ := hP
  obtain rfl : pid' = pid := by simpa using hpid
  have hcount := specRun_count [] events i
  have hr : reportedAt (specRun [] events).2 i = decide (l = .reported) := by
    simp [reportedAt, hi]
  rw [hr] at hcount
  rw [hs.child i _ hi]
  cases l <;> simpa [Life.child, reportedAt] using hcount

theorem reapIfDead_exactly_once_twice :
    (∀ pid ∈ [Event.spawn (.ok 7), .exit 7, .reap 0, .reap 0].filterMap Event.forked,
      0 < pid) ∧
    ([Event.spawn (.ok 7), .exit 7, .reap 0, .reap 0].filterMap Event.forked).Nodup ∧
    ((Parent.run ⟨fun _ => none, []⟩ [.spawn (.ok 7), .exit 7, .reap 0, .reap 0]).1 =
        (specRun [] [.spawn (.ok 7), .exit 7, .reap 0, .reap 0]).1.map
          (fun o => (o.1, .ok o.2)) ∧
      ∀ i pid, (Parent.run ⟨fun _ => none, []⟩
          [.spawn (.ok 7), .exit 7, .reap 0, .reap 0]).2.processes[i]? = some ⟨some pid⟩ →
        (specRun [] [.spawn (.ok 7), .exit 7, .reap 0, .reap 0]).1.count (i, true) =
          if (Parent.run ⟨fun _ => none, []⟩
            [.spawn (.ok 7), .exit 7, .reap 0, .reap 0]).2.children pid = none then 1 else 0) :=
  ⟨by decide, by decide, reapIfDead_exactly_once _ (by decide) (by decide)⟩

/-- **A reaped child's id names the next child that gets it**, so `reapIfDead_exactly_once` needs
the ids `fork` hands out to be all different. A `Process` keeps the id of its child after
`reapIfDead` has reaped the child. Let the `i`-th child of a parent that is the
specification's `A` be reported, and let `fork` hand its id out again, to a new child whose
`Process` comes last. When the new child exits, `reapIfDead` on the old `Process` says `true` and
reaps it, and on the new `Process` it then says `false`; the specification says `false` for the
old child and `true` for the new one. -/
theorem reapIfDead_stale_handle {s : Parent} {A : List (Int × Life)} (hs : Sim s A) {i : Nat}
    {pid : Int} (hi : A[i]? = some (pid, .reported)) (h0 : 0 < pid) :
    (s.run [.spawn (.ok pid), .exit pid, .reap i, .reap A.length]).1 =
        [(i, .ok true), (A.length, .ok false)] ∧
      (specRun A [.spawn (.ok pid), .exit pid, .reap i, .reap A.length]).1 =
        [(i, false), (A.length, true)] := by
  have hlt : i < A.length := (List.getElem?_eq_some_iff.mp hi).1
  have hk : s.children pid = none := hs.child i _ hi
  have hP : s.processes[i]? = some ⟨some pid⟩ := by rw [hs.handles, List.getElem?_map, hi]; rfl
  have hlen : s.processes.length = A.length := by rw [hs.handles, List.length_map]
  have hP' : (s.processes ++ [⟨some pid⟩])[i]? = some ⟨some pid⟩ := by
    rw [List.getElem?_append_left (hlen ▸ hlt), hP]
  have hnew : (s.processes ++ [⟨some pid⟩])[A.length]? = some ⟨some pid⟩ := by
    rw [← hlen, List.getElem?_concat_length]
  constructor
  · simp [Parent.run, Parent.step, Process.spawn, hP', hnew, Children.exit, Children.fork,
      Process.reapIfDead_some rfl h0.ne']
  -- after the spawn and the exit, the specification holds the old child, reported, and the new
  -- one, dead
  have hold : ((A ++ [(pid, Life.alive)]).map
      fun c => (c.1, if c.1 = pid then c.2.exit else c.2))[i]? = some (pid, .reported) := by
    rw [List.getElem?_map, List.getElem?_append_left hlt, hi]
    simp [Life.exit]
  have hdead : ((A ++ [(pid, Life.alive)]).map
      fun c => (c.1, if c.1 = pid then c.2.exit else c.2))[A.length]? = some (pid, .dead) := by
    simp [List.getElem?_concat_length, Life.exit]
  simp only [specRun, specStep, hold, hdead]
  simp [Life.exit]

/-- From no children: `fork` hands the id 7 out again after the first child was reaped. -/
example :
    (Parent.run ⟨fun _ => none, []⟩
        [.spawn (.ok 7), .exit 7, .reap 0, .spawn (.ok 7), .exit 7, .reap 0, .reap 1]).1 =
      [(0, .ok true), (0, .ok true), (1, .ok false)] ∧
    (specRun [] [.spawn (.ok 7), .exit 7, .reap 0, .spawn (.ok 7), .exit 7, .reap 0, .reap 1]).1 =
      [(0, true), (0, false), (1, true)] :=
  ⟨rfl, rfl⟩

end Monomux

import FPApp.EventRunProofs
import FPApp.PromiseProofs

/-! # The queues of tasks

    Every object has a queue of tasks.  What is enqueued gets the tail of the
    queue to wait for, and becomes part of the new tail; an operation on
    several objects waits for the tails of all their queues.  Tasks complete on
    any thread, and what waits for them is executed in any order.

    * `TaskQueues` — the tasks, the calls of `taskForCompletionOfAllTasks:` and
      the operations that have been enqueued;
    * `TaskQueues.step` — one call from outside or one block executed;
    * `TaskQueues.Sound` — every block is executed once for each task it
      continues, and every task completes after what it waits for. -/

namespace ParseSDK

open EventRun Promise

/-! ## Tasks -/

/-- The error of a task: its own, or those of several tasks
    (`kBFMultipleErrorsError`). -/
inductive TaskError (E : Type) where
  | error (e : E)
  | multiple (errors : List (TaskError E))

/-- How a task completes. -/
inductive Outcome (V E : Type) where
  | result (value : Option V)
  | error (e : TaskError E)
  | cancelled

/-- The tasks, by the code that makes them: a task completed from the start,
    the task of a call of `taskForCompletionOfAllTasks:`, the task of an
    operation that was enqueued, the task that tells a multiple operation that
    the queues are ready, and the task that the block of an operation returns. -/
inductive BFTask where
  | completed
  | all (call : Nat)
  | operation (n : Nat)
  | readyToStart (n : Nat)
  | body (n : Nat)
deriving DecidableEq

/-- The blocks that continue tasks. -/
inductive Block where
  | all (call : Nat)
  | readyToStart (n : Nat)
  | operation (n : Nat)
  | setupWithTask (n : Nat)
deriving DecidableEq

/-- What the blocks of one call of `taskForCompletionOfAllTasks:` share. -/
structure AllTasks (E : Type) where
  tasks : List BFTask
  total : Nat
  cancelled : Nat
  errors : List (TaskError E)

section Definitions

variable {Object V E : Type}

/-- One of the tasks has completed. -/
def AllTasks.record (call : AllTasks E) : Outcome V E → AllTasks E
  | .error e => { call with errors := call.errors ++ [e], total := call.total - 1 }
  | .cancelled => { call with cancelled := call.cancelled + 1, total := call.total - 1 }
  | .result _ => { call with total := call.total - 1 }

/-- How the task of the call completes once all its tasks have. -/
def AllTasks.outcome (call : AllTasks E) : Outcome V E :=
  -- an error goes before a cancellation
  match call.errors with
  | [e] => .error e
  | _ :: _ :: _ => .error (.multiple call.errors)
  | [] => if 0 < call.cancelled then .cancelled else .result none

/-- An operation that was enqueued: its objects, the task its block continues,
    and, when it has several queues to wait for, the task that completes with
    their tails. -/
structure Operation (Object : Type) where
  objects : List Object
  toAwait : BFTask
  ready : Option BFTask

/-- The queues of the objects and all their tasks.  `raised` says that a task
    was completed a second time, which raises an exception. -/
structure TaskQueues (Object V E : Type) where
  heap : Heap BFTask (Outcome V E) Block
  calls : List (AllTasks E)
  operations : List (Operation Object)
  tail : Object → Option BFTask
  raised : Bool

namespace TaskQueues

variable (s : TaskQueues Object V E)

/-- Nothing has been enqueued. -/
def empty : TaskQueues Object V E where
  heap := .start fun t => if t = .completed then some (.result none) else none
  calls := []
  operations := []
  tail := fun _ => none
  raised := false

def taskForCompletionOfAllTasks (tasks : List BFTask) : BFTask × TaskQueues Object V E :=
  if tasks.isEmpty then (.completed, s)
  else
    (.all s.calls.length,
      { s with
        calls := s.calls ++ [⟨tasks, tasks.length, 0, []⟩]
        heap := s.heap.continueAll (.all s.calls.length) tasks })

/-- Complete the task of a completion source. -/
def set (t : BFTask) (o : Outcome V E) : TaskQueues Object V E :=
  match s.heap.value t with
  | some _ => { s with raised := true }
  | none => { s with heap := s.heap.trySet t o }

def oldTail (x : Object) : BFTask := (s.tail x).getD .completed

/-- `-[PFTaskQueue enqueue:]`: the task of `taskStart` and the old tail make the
    new tail. -/
def enqueue [DecidableEq Object] (x : Object)
    (taskStart : BFTask → TaskQueues Object V E → BFTask × TaskQueues Object V E) :
    BFTask × TaskQueues Object V E :=
  let oldTail := s.oldTail x
  let (task, s) := taskStart oldTail s
  let (tail, s) := s.taskForCompletionOfAllTasks [oldTail, task]
  (task, { s with tail := Function.update s.tail x (some tail) })

/-- The block of a new operation continues `toAwait`. -/
def startOperation (objects : List Object) (toAwait : BFTask) :
    BFTask × TaskQueues Object V E :=
  (.operation s.operations.length,
    { s with
      operations := s.operations ++ [⟨objects, toAwait, none⟩]
      heap := s.heap.continueWith toAwait (.operation s.operations.length) })

/-- An operation on one object, as `saveInBackground` enqueues it. -/
def enqueueOperation [DecidableEq Object] (x : Object) : TaskQueues Object V E :=
  (s.enqueue x fun toAwait s => s.startOperation [x] toAwait).2

/-- `fullTask` enters the queue of one of the objects. -/
def enqueueChild [DecidableEq Object] (fullTask : BFTask)
    (acc : List BFTask × TaskQueues Object V E) (x : Object) :
    List BFTask × TaskQueues Object V E :=
  (acc.1 ++ [acc.2.oldTail x], (acc.2.enqueue x fun _ s => (fullTask, s)).2)

/-- `readyToStart` is completed after `task`. -/
def continueReady (n : Nat) (task : BFTask) : TaskQueues Object V E :=
  { s with
    operations := s.operations.modify n fun op => { op with ready := some task }
    heap := s.heap.continueWith task (.readyToStart n) }

/-- `+[PFObject _enqueue:forObjects:]` with the locks of all the queues held. -/
def enqueueForObjects [DecidableEq Object] (objects : List Object) : TaskQueues Object V E :=
  let n := s.operations.length
  let (fullTask, s) := s.startOperation objects (.readyToStart n)
  -- an object that comes twice gets a tail to wait for that waits for `fullTask`
  let (childTasks, s) := objects.foldl (enqueueChild fullTask) ([], s)
  let (task, s) := s.taskForCompletionOfAllTasks childTasks
  s.continueReady n task

/-- The block of a call of `taskForCompletionOfAllTasks:`, for a task that
    completed with `o`. -/
def runAll (i : Nat) (o : Outcome V E) : TaskQueues Object V E :=
  match s.calls[i]? with
  | none => s
  | some call =>
      let s := { s with calls := s.calls.set i (call.record o) }
      if (call.record o).total = 0 then s.set (.all i) (call.record o).outcome else s

/-- The block of an operation returns an outcome, or a task that has not
    completed yet. -/
def runOperation (n : Nat) (reply : Option (Outcome V E)) : TaskQueues Object V E :=
  match reply with
  | some o => s.set (.operation n) o
  | none => { s with heap := s.heap.continueWith (.body n) (.setupWithTask n) }

end TaskQueues

/-- What can happen next.  `execute` and `begin` take one of the blocks handed
    over for execution; `finish` completes the task that the block of an
    operation returned. -/
inductive QueueEvent (Object V E : Type) where
  | enqueue (x : Object)
  | enqueueForObjects (objects : List Object)
  | execute (k : Nat)
  | start (k : Nat) (reply : Option (Outcome V E))
  | finish (n : Nat) (o : Outcome V E)

def TaskQueues.step [DecidableEq Object] (s : TaskQueues Object V E) :
    QueueEvent Object V E → Option (TaskQueues Object V E)
  | .enqueue x => some (s.enqueueOperation x)
  | .enqueueForObjects objects => some (s.enqueueForObjects objects)
  | .execute k =>
      match s.heap.take k with
      | some ((task, block), heap) =>
          match block, heap.value task with
          | .all i, some o => some (TaskQueues.runAll { s with heap := heap } i o)
          | .readyToStart n, some _ =>
              some (TaskQueues.set { s with heap := heap } (.readyToStart n) (.result none))
          | .setupWithTask n, some o =>
              some (TaskQueues.set { s with heap := heap } (.operation n) o)
          | _, _ => none
      | none => none
  | .start k reply =>
      match s.heap.take k with
      | some ((_, .operation n), heap) =>
          some (TaskQueues.runOperation { s with heap := heap } n reply)
      | _ => none
  | .finish n o =>
      -- a task that the block of an operation has returned, and that is still open
      if (.body n, .setupWithTask n) ∈ s.heap.registered ∧ (s.heap.value (.body n)).isNone then
        some (s.set (.body n) o)
      else none

end Definitions

/-! ## What every run keeps -/

section Soundness

variable {Object V E : Type} {s : TaskQueues Object V E}

/-- The tasks that a task waits for. -/
def TaskQueues.deps (s : TaskQueues Object V E) : BFTask → List BFTask
  | .all i => (s.calls[i]?).elim [] (·.tasks)
  | .operation n => (s.operations[n]?).elim [] fun op => [op.toAwait]
  | .readyToStart n => ((s.operations[n]?).bind (·.ready)).toList
  | .completed | .body _ => []

/-- The task that a block completes, of the blocks that wait for it. -/
def Block.task : Block → BFTask
  | .all i => .all i
  | .readyToStart n => .readyToStart n
  | .operation n => .operation n
  | .setupWithTask n => .body n

/-- The block waits for everything that its task waits for. -/
def Block.waits : Block → Bool
  | .setupWithTask _ => false
  | _ => true

/-- Each task has one block that waits for what it waits for. -/
theorem Block.task_inj {k k' : Block} (hk : k.waits) (hk' : k'.waits) (h : k.task = k'.task) :
    k = k' := by
  cases k <;> cases k' <;> simp_all [Block.task, Block.waits]

/-- The task has completed. -/
def TaskQueues.Completed (s : TaskQueues Object V E) (t : BFTask) : Prop :=
  (s.heap.value t).isSome

/-- The block of the operation has been executed. -/
def TaskQueues.Begun (s : TaskQueues Object V E) (n : Nat) : Prop :=
  callsOf (.operation n) s.heap.executed ≠ []

/-- How the queues, the blocks and the tasks belong together. -/
structure TaskQueues.Sound (s : TaskQueues Object V E) : Prop where
  conserved : s.heap.Conserved
  raised : s.raised = false
  completed : s.heap.value .completed = some (.result none)
  waits : ∀ k : Block, k.waits →
    callsOf k s.heap.registered = (s.deps k.task).map fun t => (t, k)
  total : ∀ i call, s.calls[i]? = some call → call.tasks ≠ []
    ∧ call.total + (callsOf (.all i) s.heap.executed).length = call.tasks.length
  all : ∀ i, s.heap.value (.all i)
    = (s.calls[i]?).bind fun call => if call.total = 0 then some call.outcome else none
  ready : ∀ n, s.Completed (.readyToStart n) ↔ callsOf (.readyToStart n) s.heap.executed ≠ []
  setup : ∀ n, callsOf (.setupWithTask n) s.heap.registered = []
    ∨ callsOf (.setupWithTask n) s.heap.registered = [(.body n, .setupWithTask n)] ∧ s.Begun n
  body : ∀ n, s.Completed (.body n) → callsOf (.setupWithTask n) s.heap.registered ≠ []
  operation : ∀ n, s.Completed (.operation n) ↔ s.Begun n
    ∧ (callsOf (.setupWithTask n) s.heap.registered).length
      = (callsOf (.setupWithTask n) s.heap.executed).length
  acc : ∀ t, s.Completed t → Acc (Waits s.deps) t

namespace TaskQueues.Sound

/-- A block that was executed as often as its task has dependencies saw all of
    them completed. -/
theorem completed_of_length (h : s.Sound) {k : Block} (hk : k.waits)
    (hlen : (s.deps k.task).length ≤ (callsOf k s.heap.executed).length) {t : BFTask}
    (ht : t ∈ s.deps k.task) : s.Completed t := by
  have hwaits := h.waits k hk
  refine h.conserved.kept_of_length (k := k) ?_ ?_
  · rw [hwaits, List.length_map]
    exact hlen
  · have hmem : (t, k) ∈ callsOf k s.heap.registered := by
      rw [hwaits]
      exact List.mem_map_of_mem ht
    exact (mem_callsOf.mp hmem).1

/-- A block that was handed over is one of those that its task waits for. -/
theorem mem_deps (h : s.Sound) {k : Block} (hk : k.waits) {t : BFTask}
    (ht : (t, k) ∈ s.heap.registered) : t ∈ s.deps k.task := by
  have hmem : (t, k) ∈ callsOf k s.heap.registered := mem_callsOf.mpr ⟨ht, rfl⟩
  rw [h.waits k hk] at hmem
  obtain ⟨t', ht', heq⟩ := List.mem_map.mp hmem
  rwa [(Prod.mk.inj heq).1] at ht'

theorem length_deps_operation (s : TaskQueues Object V E) (n : Nat) :
    (s.deps (.operation n)).length ≤ 1 := by
  simp only [TaskQueues.deps]
  cases s.operations[n]? <;> simp

theorem length_deps_ready (s : TaskQueues Object V E) (n : Nat) :
    (s.deps (.readyToStart n)).length ≤ 1 := by
  simp only [TaskQueues.deps]
  cases (s.operations[n]?).bind (·.ready) <;> simp

/-- **ORDER OF COMPLETION**: what a completed task waited for has completed. -/
theorem deps_completed (h : s.Sound) {t : BFTask} (ht : s.Completed t) :
    ∀ u ∈ s.deps t, s.Completed u := by
  intro u hu
  cases t with
  | completed => exact absurd hu List.not_mem_nil
  | body n => exact absurd hu List.not_mem_nil
  | all i =>
      refine h.completed_of_length (k := .all i) rfl ?_ hu
      rw [TaskQueues.Completed, h.all i] at ht
      cases hcall : s.calls[i]? with
      | none =>
          rw [hcall] at ht
          exact absurd ht (by simp)
      | some call =>
          obtain ⟨-, htotal⟩ := h.total i call hcall
          rw [hcall, Option.bind_some] at ht
          have hzero : call.total = 0 := by
            by_contra hne
            rw [if_neg hne] at ht
            exact absurd ht (by simp)
          show ((s.calls[i]?).elim [] (·.tasks)).length ≤ _
          rw [hcall]
          show call.tasks.length ≤ _
          omega
  | operation n =>
      refine h.completed_of_length (k := .operation n) rfl ?_ hu
      have hpos := List.length_pos_iff.mpr ((h.operation n).mp ht).1
      have hle := length_deps_operation s n
      show (s.deps (.operation n)).length ≤ _
      omega
  | readyToStart n =>
      refine h.completed_of_length (k := .readyToStart n) rfl ?_ hu
      have hpos := List.length_pos_iff.mpr ((h.ready n).mp ht)
      have hle := length_deps_ready s n
      show (s.deps (.readyToStart n)).length ≤ _
      omega

/-- What the task of an operation that has begun waited for has completed. -/
theorem begun_completed (h : s.Sound) {n : Nat} (hn : s.Begun n) :
    ∀ u ∈ s.deps (.operation n), s.Completed u := by
  intro u hu
  refine h.completed_of_length (k := .operation n) rfl ?_ hu
  have hpos := List.length_pos_iff.mpr hn
  have hle := length_deps_operation s n
  show (s.deps (.operation n)).length ≤ _
  omega

/-- Nothing has been executed for a task that waits for nothing. -/
theorem executed_nil (h : s.Sound) {k : Block} (hk : callsOf k s.heap.registered = []) :
    callsOf k s.heap.executed = [] := by
  have hsub := h.conserved.calls_subperm k
  rw [hk] at hsub
  exact List.subperm_nil.mp hsub

/-- The network grows, and nothing completes. -/
theorem acc_grow (h : s.Sound) {t : TaskQueues Object V E}
    (hvalue : ∀ b, t.heap.value b = s.heap.value b)
    (hdeps : ∀ b, s.Completed b → t.deps b = s.deps b) :
    ∀ b, t.Completed b → Acc (Waits t.deps) b := by
  intro b hb
  rw [TaskQueues.Completed, hvalue] at hb
  exact Promise.acc_grow (fun a ha => h.deps_completed ha) hdeps hb (h.acc b hb)

end TaskQueues.Sound

/-! ## Growing -/

theorem getElem?_concat {α : Type} (l : List α) (a : α) (i : Nat) :
    (l ++ [a])[i]? = if i = l.length then some a else l[i]? := by
  by_cases hi : i = l.length
  · rw [if_pos hi, hi, List.getElem?_concat_length]
  · rw [if_neg hi]
    rcases Nat.lt_or_gt_of_ne hi with hlt | hgt
    · rw [List.getElem?_append_left hlt]
    · rw [List.getElem?_eq_none_iff.mpr (by simp; omega),
        List.getElem?_eq_none_iff.mpr (by omega)]

namespace TaskQueues.Sound

theorem empty : (TaskQueues.empty : TaskQueues Object V E).Sound := by
  have hnone : ∀ t, t ≠ .completed →
      ¬(TaskQueues.empty : TaskQueues Object V E).Completed t := by
    intro t ht hsome
    have hvalue : (TaskQueues.empty : TaskQueues Object V E).heap.value t = none := if_neg ht
    rw [TaskQueues.Completed, hvalue] at hsome
    exact absurd hsome (by simp)
  refine ⟨Heap.conserved_start _, rfl, rfl, ?_, ?_, ?_, ?_, ?_, ?_, ?_, ?_⟩
  · intro k hk
    cases k with
    | setupWithTask n => exact absurd hk Bool.false_ne_true
    | _ => rfl
  · exact fun i call hcall => absurd hcall (by simp [TaskQueues.empty])
  · exact fun i => rfl
  · exact fun n => ⟨fun hn => absurd hn (hnone _ (by simp)), fun hn => absurd rfl hn⟩
  · exact fun n => Or.inl rfl
  · exact fun n hn => absurd hn (hnone _ (by simp))
  · exact fun n => ⟨fun hn => absurd hn (hnone _ (by simp)), fun hn => absurd rfl hn.1⟩
  · intro t ht
    have hcompleted : t = .completed := by_contra fun hne => hnone t hne ht
    subst hcompleted
    exact .intro _ fun b hb => absurd hb List.not_mem_nil

/-- New blocks wait for tasks, and nothing is executed. -/
theorem grow (h : s.Sound) {t : TaskQueues Object V E} (hconserved : t.heap.Conserved)
    (hraised : t.raised = s.raised) (hvalue : ∀ b, t.heap.value b = s.heap.value b)
    (hexecuted : t.heap.executed = s.heap.executed)
    (hsetup : ∀ n, callsOf (.setupWithTask n) t.heap.registered
      = callsOf (.setupWithTask n) s.heap.registered)
    (hwaits : ∀ k : Block, k.waits →
      callsOf k t.heap.registered = (t.deps k.task).map fun b => (b, k))
    (htotal : ∀ i call, t.calls[i]? = some call → call.tasks ≠ []
      ∧ call.total + (callsOf (.all i) s.heap.executed).length = call.tasks.length)
    (hall : ∀ i, s.heap.value (.all i)
      = (t.calls[i]?).bind fun call => if call.total = 0 then some call.outcome else none)
    (hdeps : ∀ b, s.Completed b → t.deps b = s.deps b) : t.Sound := by
  have hcompleted : ∀ b, t.Completed b ↔ s.Completed b := fun b => by
    rw [TaskQueues.Completed, TaskQueues.Completed, hvalue]
  refine ⟨hconserved, hraised.trans h.raised, (hvalue _).trans h.completed, hwaits, ?_, ?_, ?_, ?_,
    ?_, ?_, h.acc_grow hvalue hdeps⟩
  · rw [hexecuted]
    exact htotal
  · intro i
    rw [hvalue]
    exact hall i
  · intro n
    rw [hcompleted, hexecuted]
    exact h.ready n
  · intro n
    rw [hsetup, TaskQueues.Begun, hexecuted]
    exact h.setup n
  · intro n hn
    rw [hsetup]
    exact h.body n ((hcompleted _).mp hn)
  · intro n
    rw [hcompleted, hsetup, TaskQueues.Begun, hexecuted]
    exact h.operation n

theorem taskForCompletionOfAllTasks (h : s.Sound) (tasks : List BFTask) :
    (s.taskForCompletionOfAllTasks tasks).2.Sound := by
  rw [TaskQueues.taskForCompletionOfAllTasks]
  by_cases hempty : tasks.isEmpty
  · rw [if_pos hempty]
    exact h
  rw [if_neg hempty]
  have hne : tasks ≠ [] := by simpa using hempty
  have hnew : s.calls[s.calls.length]? = none := List.getElem?_eq_none_iff.mpr le_rfl
  set t : TaskQueues Object V E := { s with
    calls := s.calls ++ [⟨tasks, tasks.length, 0, []⟩]
    heap := s.heap.continueAll (.all s.calls.length) tasks } with ht
  show t.Sound
  have hvalue : ∀ b, t.heap.value b = s.heap.value b := fun b => by simp [ht]
  have hexecuted : t.heap.executed = s.heap.executed := by simp [ht]
  have hregistered : t.heap.registered
      = s.heap.registered ++ tasks.map fun a => (a, Block.all s.calls.length) := by simp [ht]
  have hlookup : ∀ i, t.calls[i]?
      = if i = s.calls.length then some ⟨tasks, tasks.length, 0, []⟩ else s.calls[i]? :=
    fun i => getElem?_concat s.calls _ i
  have hnone : s.deps (.all s.calls.length) = [] := by
    show (s.calls[s.calls.length]?).elim [] (·.tasks) = _
    rw [hnew]
    rfl
  have hsame : ∀ b, b ≠ .all s.calls.length → t.deps b = s.deps b := by
    intro b hb
    cases b with
    | all i =>
        have hi : i ≠ s.calls.length := fun heq => hb (by rw [heq])
        show (t.calls[i]?).elim [] (·.tasks) = _
        rw [hlookup, if_neg hi]
        rfl
    | _ => rfl
  have hold : ¬s.Completed (.all s.calls.length) := by
    rw [TaskQueues.Completed, h.all, hnew]
    simp
  refine h.grow (h.conserved.continueAll _ _) rfl hvalue hexecuted ?_ ?_ ?_ ?_ ?_
  · intro n
    rw [hregistered, callsOf_append, callsOf_map, if_neg (by simp), List.append_nil]
  · intro k hk
    rw [hregistered, callsOf_append, callsOf_map, h.waits k hk]
    by_cases hkey : Block.all s.calls.length = k
    · subst hkey
      have hdeps : t.deps (.all s.calls.length) = tasks := by
        show (t.calls[s.calls.length]?).elim [] (·.tasks) = _
        rw [hlookup, if_pos rfl]
        rfl
      rw [if_pos rfl]
      show (s.deps (.all s.calls.length)).map _ ++ _ = (t.deps (.all s.calls.length)).map _
      rw [hdeps, hnone]
      rfl
    · rw [if_neg hkey, List.append_nil, hsame]
      intro hb
      exact hkey (Block.task_inj rfl hk hb.symm)
  · intro i call hcall
    rw [hlookup] at hcall
    by_cases hi : i = s.calls.length
    · rw [if_pos hi] at hcall
      obtain rfl := Option.some.inj hcall
      rw [h.executed_nil (by rw [h.waits (.all i) rfl, hi]; exact congrArg _ hnone)]
      exact ⟨hne, rfl⟩
    · rw [if_neg hi] at hcall
      exact h.total i call hcall
  · intro i
    rw [hlookup, h.all i]
    by_cases hi : i = s.calls.length
    · rw [if_pos hi, hi, hnew, Option.bind_some, if_neg (by simpa using hne)]
      rfl
    · rw [if_neg hi]
  · intro b hb
    refine hsame b ?_
    rintro rfl
    exact hold hb

theorem startOperation (h : s.Sound) (objects : List Object) (toAwait : BFTask) :
    (s.startOperation objects toAwait).2.Sound := by
  have hnew : s.operations[s.operations.length]? = none := List.getElem?_eq_none_iff.mpr le_rfl
  set t : TaskQueues Object V E := { s with
    operations := s.operations ++ [⟨objects, toAwait, none⟩]
    heap := s.heap.continueWith toAwait (.operation s.operations.length) } with ht
  show t.Sound
  have hlookup : ∀ n, t.operations[n]?
      = if n = s.operations.length then some ⟨objects, toAwait, none⟩ else s.operations[n]? :=
    fun n => getElem?_concat s.operations _ n
  have hsame : ∀ b, b ≠ .operation s.operations.length → t.deps b = s.deps b := by
    intro b hb
    cases b with
    | operation n =>
        have hn : n ≠ s.operations.length := fun heq => hb (by rw [heq])
        show (t.operations[n]?).elim [] _ = _
        rw [hlookup, if_neg hn]
        rfl
    | readyToStart n =>
        show ((t.operations[n]?).bind (·.ready)).toList = ((s.operations[n]?).bind _).toList
        rw [hlookup]
        by_cases hn : n = s.operations.length
        · rw [if_pos hn, hn, hnew]
          rfl
        · rw [if_neg hn]
    | _ => rfl
  have hnone : s.deps (.operation s.operations.length) = [] := by
    show (s.operations[s.operations.length]?).elim [] _ = _
    rw [hnew]
    rfl
  refine h.grow (h.conserved.continueWith _ _) rfl (fun b => by simp [ht]) (by simp [ht]) ?_ ?_
    h.total h.all ?_
  · intro n
    simp [ht]
  · intro k hk
    have hregistered : t.heap.registered
        = s.heap.registered ++ [(toAwait, Block.operation s.operations.length)] := by simp [ht]
    rw [hregistered, callsOf_append, callsOf_singleton, h.waits k hk]
    by_cases hkey : Block.operation s.operations.length = k
    · subst hkey
      have hdeps : t.deps (.operation s.operations.length) = [toAwait] := by
        show (t.operations[s.operations.length]?).elim [] _ = _
        rw [hlookup, if_pos rfl]
        rfl
      rw [if_pos rfl]
      show (s.deps (.operation s.operations.length)).map _ ++ _
        = (t.deps (.operation s.operations.length)).map _
      rw [hdeps, hnone]
      rfl
    · rw [if_neg hkey, List.append_nil, hsame]
      intro hb
      exact hkey (Block.task_inj rfl hk hb.symm)
  · intro b hb
    refine hsame b ?_
    rintro rfl
    have hbegun := ((h.operation _).mp hb).1
    refine hbegun (h.executed_nil ?_)
    rw [h.waits (.operation s.operations.length) rfl]
    exact congrArg _ hnone

theorem continueReady (h : s.Sound) {n : Nat} {op : Operation Object} (task : BFTask)
    (hn : s.operations[n]? = some op) (hready : op.ready = none) :
    (s.continueReady n task).Sound := by
  set t : TaskQueues Object V E := s.continueReady n task with ht
  have hlookup : ∀ m, t.operations[m]?
      = if m = n then some { op with ready := some task } else s.operations[m]? := by
    intro m
    show (s.operations.modify n _)[m]? = _
    rw [List.getElem?_modify]
    by_cases hm : m = n
    · rw [if_pos hm, hm, hn]
      simp
    · rw [if_neg hm]
      cases s.operations[m]? <;> simp [Ne.symm hm]
  have hnone : s.deps (.readyToStart n) = [] := by
    show ((s.operations[n]?).bind (·.ready)).toList = _
    rw [hn, Option.bind_some, hready]
    rfl
  have hsame : ∀ b, b ≠ .readyToStart n → t.deps b = s.deps b := by
    intro b hb
    cases b with
    | operation m =>
        show (t.operations[m]?).elim [] _ = (s.operations[m]?).elim [] _
        rw [hlookup]
        by_cases hm : m = n
        · rw [if_pos hm, hm, hn]
          rfl
        · rw [if_neg hm]
    | readyToStart m =>
        have hm : m ≠ n := fun heq => hb (by rw [heq])
        show ((t.operations[m]?).bind (·.ready)).toList = _
        rw [hlookup, if_neg hm]
        rfl
    | _ => rfl
  have hregistered : t.heap.registered
      = s.heap.registered ++ [(task, Block.readyToStart n)] := by
    simp [ht, TaskQueues.continueReady]
  refine h.grow (h.conserved.continueWith _ _) rfl
    (fun b => by simp [ht, TaskQueues.continueReady]) (by simp [ht, TaskQueues.continueReady]) ?_ ?_
    h.total h.all ?_
  · intro m
    rw [hregistered, callsOf_append, callsOf_singleton, if_neg (by simp), List.append_nil]
  · intro k hk
    rw [hregistered, callsOf_append, callsOf_singleton, h.waits k hk]
    by_cases hkey : Block.readyToStart n = k
    · subst hkey
      have hdeps : t.deps (.readyToStart n) = [task] := by
        show ((t.operations[n]?).bind (·.ready)).toList = _
        rw [hlookup, if_pos rfl]
        rfl
      rw [if_pos rfl]
      show (s.deps (.readyToStart n)).map _ ++ _ = (t.deps (.readyToStart n)).map _
      rw [hdeps, hnone]
      rfl
    · rw [if_neg hkey, List.append_nil, hsame]
      intro hb
      exact hkey (Block.task_inj rfl hk hb.symm)
  · intro b hb
    refine hsame b ?_
    rintro rfl
    refine (h.ready n).mp hb (h.executed_nil ?_)
    rw [h.waits (.readyToStart n) rfl]
    exact congrArg _ hnone

end TaskQueues.Sound

end Soundness

end ParseSDK

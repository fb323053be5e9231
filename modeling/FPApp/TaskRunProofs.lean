import FPApp.TaskQueueProofs

/-! # Runs of the queues of tasks

    Blocks are executed one at a time, in any order, while operations are
    enqueued and finish.

    * `Sound.step` — every step keeps the queues sound: no task is completed a
      second time, no block is executed a second time;
    * `sound_of_run` — so every run does. -/

namespace ParseSDK

open EventRun Promise

section Runs

variable {Object V E : Type} {s : TaskQueues Object V E}

namespace TaskQueues.Sound

/-! ## Executing -/

/-- Blocks are executed and tasks complete, each after what it waits for. -/
theorem progress (h : s.Sound) {t : TaskQueues Object V E} (hconserved : t.heap.Conserved)
    (hraised : t.raised = false) (hvalue : ∀ b, s.Completed b → t.heap.value b = s.heap.value b)
    (hdeps : ∀ b, t.deps b = s.deps b)
    (hregistered : ∀ k : Block, k.waits →
      callsOf k t.heap.registered = callsOf k s.heap.registered)
    (htotal : ∀ i call, t.calls[i]? = some call → call.tasks ≠ []
      ∧ call.total + (callsOf (.all i) t.heap.executed).length = call.tasks.length)
    (hall : ∀ i, t.heap.value (.all i)
      = (t.calls[i]?).bind fun call => if call.total = 0 then some call.outcome else none)
    (hready : ∀ n, t.Completed (.readyToStart n)
      ↔ callsOf (.readyToStart n) t.heap.executed ≠ [])
    (hsetup : ∀ n, callsOf (.setupWithTask n) t.heap.registered = []
      ∨ callsOf (.setupWithTask n) t.heap.registered = [(.body n, .setupWithTask n)] ∧ t.Begun n)
    (hbody : ∀ n, t.Completed (.body n) → callsOf (.setupWithTask n) t.heap.registered ≠ [])
    (hoperation : ∀ n, t.Completed (.operation n) ↔ t.Begun n
      ∧ (callsOf (.setupWithTask n) t.heap.registered).length
        = (callsOf (.setupWithTask n) t.heap.executed).length)
    (hnew : ∀ b, t.Completed b → s.Completed b ∨ ∀ d ∈ s.deps b, s.Completed d) : t.Sound := by
  refine ⟨hconserved, hraised, ?_, ?_, htotal, hall, hready, hsetup, hbody, hoperation, ?_⟩
  · have hcompleted : s.Completed .completed := by
      rw [TaskQueues.Completed, h.completed]
      rfl
    exact (hvalue _ hcompleted).trans h.completed
  · intro k hk
    rw [hregistered k hk, h.waits k hk, hdeps]
  · have hfun : t.deps = s.deps := funext hdeps
    rw [hfun]
    intro b hb
    rcases hnew b hb with hb | hb
    · exact h.acc b hb
    · exact .intro b fun d hd => h.acc d (hb d hd)

/-- What a task waits for depends on the tasks of the calls and on the
    operations. -/
theorem deps_congr {t : TaskQueues Object V E}
    (hcalls : ∀ i : Nat, (t.calls[i]?).map AllTasks.tasks = (s.calls[i]?).map AllTasks.tasks)
    (hoperations : t.operations = s.operations) : t.deps = s.deps := by
  funext b
  cases b with
  | all i =>
      have hi := hcalls i
      show (t.calls[i]?).elim [] _ = (s.calls[i]?).elim [] _
      cases ht : t.calls[i]? <;> cases hs : s.calls[i]? <;> simp_all
  | operation n =>
      show (t.operations[n]?).elim [] _ = _
      rw [hoperations]
      rfl
  | readyToStart n =>
      show ((t.operations[n]?).bind _).toList = _
      rw [hoperations]
      rfl
  | _ => rfl

/-- A task that has not ended is completed by what it is set to. -/
theorem set_of_open {t : BFTask} {o : Outcome V E} (ht : s.heap.value t = none) :
    s.set t o = { s with heap := s.heap.trySet t o } := by
  rw [TaskQueues.set, ht]

/-- What is executed next has been registered, and its task has completed. -/
theorem taken (h : s.Sound) {k : Nat} {p : BFTask × Block}
    {heap : Heap BFTask (Outcome V E) Block} (ht : s.heap.take k = some (p, heap)) :
    p ∈ s.heap.registered ∧ s.Completed p.1 := by
  have hmem : p ∈ s.heap.ready := List.mem_of_getElem? (Heap.take_cases ht).1
  refine ⟨?_, h.conserved.fired p (Or.inl hmem)⟩
  have hcons := h.conserved.conserved p.1 p.2
  rw [show (p.1, p.2) = p from rfl] at hcons
  have hpos := List.count_pos_iff.mpr hmem
  exact List.count_pos_iff.mp (by omega)

/-- The call whose block is taken: not all its tasks have been executed yet. -/
theorem call_of_taken (h : s.Sound) {k i : Nat} {task : BFTask}
    {heap : Heap BFTask (Outcome V E) Block}
    (ht : s.heap.take k = some ((task, .all i), heap)) :
    ∃ call, s.calls[i]? = some call ∧ 0 < call.total := by
  obtain ⟨hmem, -⟩ := h.taken ht
  have hdep : task ∈ s.deps (.all i) := h.mem_deps (k := .all i) rfl hmem
  have hlt : (callsOf (.all i) s.heap.executed).length
      < (callsOf (.all i) s.heap.registered).length :=
    h.conserved.length_lt (List.mem_of_getElem? (Heap.take_cases ht).1)
  rw [h.waits (.all i) rfl, List.length_map] at hlt
  cases hcall : s.calls[i]? with
  | none =>
      have hnil : s.deps (.all i) = [] := by
        show (s.calls[i]?).elim [] _ = _
        rw [hcall]
        rfl
      rw [hnil] at hdep
      exact absurd hdep (by simp)
  | some call =>
      refine ⟨call, rfl, ?_⟩
      obtain ⟨-, htotal⟩ := h.total i call hcall
      rw [show s.deps (Block.task (.all i)) = call.tasks by
        show (s.calls[i]?).elim [] _ = _
        rw [hcall]
        rfl] at hlt
      omega

/-- Once the last task of a call has been executed, all of them have completed. -/
theorem tasks_completed (h : s.Sound) {k i : Nat} {task : BFTask} {call : AllTasks E}
    {heap : Heap BFTask (Outcome V E) Block} (ht : s.heap.take k = some ((task, .all i), heap))
    (hcall : s.calls[i]? = some call) (hlast : call.total ≤ 1) :
    ∀ d ∈ s.deps (.all i), s.Completed d := by
  intro d hd
  obtain ⟨-, -, -, hregistered, hexecuted⟩ := Heap.take_cases ht
  have hkept : (heap.value d).isSome := by
    refine (h.conserved.take ht).kept_of_length (k := .all i) ?_ ?_
    · rw [hregistered, h.waits (.all i) rfl, List.length_map, hexecuted,
        callsOf_append, callsOf_singleton, if_pos rfl, List.length_append]
      obtain ⟨-, htotal⟩ := h.total i call hcall
      rw [show s.deps (Block.task (.all i)) = call.tasks by
        show (s.calls[i]?).elim [] _ = _
        rw [hcall]
        rfl]
      simp only [List.length_singleton]
      omega
    · rw [hregistered]
      have hin : (d, Block.all i) ∈ callsOf (.all i) s.heap.registered := by
        rw [h.waits (.all i) rfl]
        exact List.mem_map_of_mem hd
      exact (mem_callsOf.mp hin).1
  rwa [Heap.value_take ht] at hkept

theorem record_tasks (call : AllTasks E) (o : Outcome V E) :
    (call.record o).tasks = call.tasks := by
  cases o <;> rfl

theorem record_total (call : AllTasks E) (o : Outcome V E) :
    (call.record o).total = call.total - 1 := by
  cases o <;> rfl

/-- What the block of a call changes: the last one completes its task. -/
theorem runAll_spec {i : Nat} {call : AllTasks E} {o : Outcome V E}
    (hcall : s.calls[i]? = some call) (hopen : s.heap.value (.all i) = none)
    (hc : s.heap.Conserved) :
    (s.runAll i o).heap.Conserved ∧ (s.runAll i o).raised = s.raised
      ∧ (s.runAll i o).calls = s.calls.set i (call.record o)
      ∧ (s.runAll i o).operations = s.operations ∧ (s.runAll i o).tail = s.tail
      ∧ (s.runAll i o).heap.registered = s.heap.registered
      ∧ (s.runAll i o).heap.executed = s.heap.executed
      ∧ ∀ b, (s.runAll i o).heap.value b = if b = .all i ∧ (call.record o).total = 0
          then some (call.record o).outcome else s.heap.value b := by
  simp only [TaskQueues.runAll, hcall]
  by_cases hzero : (call.record o).total = 0
  · rw [if_pos hzero, set_of_open (by exact hopen)]
    refine ⟨hc.trySet _ _, rfl, rfl, rfl, rfl, Heap.registered_trySet .., Heap.executed_trySet ..,
      fun b => ?_⟩
    show (s.heap.trySet _ _).value b = _
    rw [Heap.value_trySet, hopen]
    simp [hzero]
  · rw [if_neg hzero]
    exact ⟨hc, rfl, rfl, rfl, rfl, rfl, rfl, fun b => (if_neg fun hb => hzero hb.2).symm⟩

theorem getElem?_record {i : Nat} {call : AllTasks E} (o : Outcome V E)
    (hcall : s.calls[i]? = some call) (j : Nat) :
    (s.calls.set i (call.record o))[j]?
      = if j = i then some (call.record o) else s.calls[j]? := by
  obtain ⟨hi, -⟩ := List.getElem?_eq_some_iff.mp hcall
  rw [List.getElem?_set]
  by_cases hj : j = i
  · rw [if_pos hj.symm, if_pos hj, if_pos hi]
  · rw [if_neg (Ne.symm hj), if_neg hj]

/-- The block of a wait counts the task that it runs for. -/
theorem runAll (h : s.Sound) {k i : Nat} {task : BFTask} {o : Outcome V E}
    {heap : Heap BFTask (Outcome V E) Block} (ht : s.heap.take k = some ((task, .all i), heap)) :
    (TaskQueues.runAll { s with heap := heap } i o).Sound := by
  obtain ⟨-, -, -, hregistered, hexecuted⟩ := Heap.take_cases ht
  have hvalue : ∀ b, heap.value b = s.heap.value b := Heap.value_take ht
  obtain ⟨call, hcall, hpos⟩ := h.call_of_taken ht
  obtain ⟨hne, htotal⟩ := h.total i call hcall
  have hopen : s.heap.value (.all i) = none := by
    rw [h.all, hcall, Option.bind_some, if_neg (by omega)]
  obtain ⟨hcons, hraised, hcalls, hops, -, hreg, hexec, hval⟩ :=
    runAll_spec (s := { s with heap := heap }) (o := o) hcall ((hvalue _).trans hopen)
      (h.conserved.take ht)
  set u := TaskQueues.runAll { s with heap := heap } i o
  replace hreg := hreg.trans hregistered
  replace hexec := hexec.trans hexecuted
  have hne' : ∀ b, b ≠ .all i → u.heap.value b = s.heap.value b := by
    intro b hb
    rw [hval, if_neg fun hb' => hb hb'.1]
    exact hvalue b
  have hother : ∀ k', k' ≠ .all i → callsOf k' u.heap.executed = callsOf k' s.heap.executed := by
    intro k' hk'
    rw [hexec, callsOf_append, callsOf_singleton, if_neg (Ne.symm hk'), List.append_nil]
  have hdeps : u.deps = s.deps := by
    refine deps_congr (fun j => ?_) hops
    rw [hcalls, getElem?_record o hcall]
    by_cases hj : j = i
    · rw [if_pos hj, hj, hcall, Option.map_some, Option.map_some, record_tasks]
    · rw [if_neg hj]
  refine h.progress hcons (hraised.trans h.raised) ?_ (fun b => by rw [hdeps])
    (fun k _ => by rw [hreg]) ?_ ?_ ?_ ?_ ?_ ?_ ?_
  · intro b hb
    refine hne' b ?_
    rintro rfl
    rw [TaskQueues.Completed, hopen] at hb
    exact absurd hb (by simp)
  · intro j call' hcall'
    rw [hcalls, getElem?_record o hcall] at hcall'
    by_cases hj : j = i
    · rw [if_pos hj] at hcall'
      obtain rfl := Option.some.inj hcall'
      rw [record_tasks, record_total, hj, hexec, callsOf_append, callsOf_singleton, if_pos rfl,
        List.length_append, List.length_singleton]
      refine ⟨hne, ?_⟩
      omega
    · rw [if_neg hj] at hcall'
      rw [hother (.all j) fun heq => hj (Block.all.inj heq)]
      exact h.total j call' hcall'
  · intro j
    rw [hcalls, getElem?_record o hcall, hval]
    by_cases hj : j = i
    · rw [if_pos hj, hj, Option.bind_some]
      by_cases hzero : (call.record o).total = 0
      · rw [if_pos ⟨rfl, hzero⟩, if_pos hzero]
      · rw [if_neg fun hb => hzero hb.2, if_neg hzero]
        exact (hvalue _).trans hopen
    · rw [if_neg hj, if_neg fun hb => hj (BFTask.all.inj hb.1)]
      exact (hvalue _).trans (h.all j)
  · intro n
    rw [TaskQueues.Completed, hne' (.readyToStart n) (by simp), hother (.readyToStart n) (by simp)]
    exact h.ready n
  · intro n
    rw [hreg, TaskQueues.Begun, hother (.operation n) (by simp)]
    exact h.setup n
  · intro n hn
    rw [TaskQueues.Completed, hne' (.body n) (by simp)] at hn
    rw [hreg]
    exact h.body n hn
  · intro n
    rw [TaskQueues.Completed, hne' (.operation n) (by simp), TaskQueues.Begun, hreg,
      hother (.operation n) (by simp), hother (.setupWithTask n) (by simp)]
    exact h.operation n
  · intro b hb
    by_cases hb' : b = .all i ∧ (call.record o).total = 0
    · refine Or.inr ?_
      obtain ⟨rfl, hzero⟩ := hb'
      rw [record_total] at hzero
      exact h.tasks_completed ht hcall (by omega)
    · rw [TaskQueues.Completed, hval, if_neg hb'] at hb
      rw [TaskQueues.Completed, ← hvalue b]
      exact Or.inl hb

/-- Blocks other than those of `taskForCompletionOfAllTasks:` leave the calls as
    they are. -/
theorem progress_of_calls (h : s.Sound) {t : TaskQueues Object V E}
    {executed : List (BFTask × Block)} (hconserved : t.heap.Conserved)
    (hraised : t.raised = s.raised) (hcalls : t.calls = s.calls)
    (hoperations : t.operations = s.operations)
    (hvalue : ∀ b, s.Completed b ∨ (∃ i, b = .all i) → t.heap.value b = s.heap.value b)
    (hexecuted : t.heap.executed = s.heap.executed ++ executed)
    (hother : ∀ i, callsOf (.all i) executed = [])
    (hregistered : ∀ k : Block, k.waits →
      callsOf k t.heap.registered = callsOf k s.heap.registered)
    (hready : ∀ n, t.Completed (.readyToStart n)
      ↔ callsOf (.readyToStart n) t.heap.executed ≠ [])
    (hsetup : ∀ n, callsOf (.setupWithTask n) t.heap.registered = []
      ∨ callsOf (.setupWithTask n) t.heap.registered = [(.body n, .setupWithTask n)] ∧ t.Begun n)
    (hbody : ∀ n, t.Completed (.body n) → callsOf (.setupWithTask n) t.heap.registered ≠ [])
    (hoperation : ∀ n, t.Completed (.operation n) ↔ t.Begun n
      ∧ (callsOf (.setupWithTask n) t.heap.registered).length
        = (callsOf (.setupWithTask n) t.heap.executed).length)
    (hnew : ∀ b, t.Completed b → s.Completed b ∨ ∀ d ∈ s.deps b, s.Completed d) : t.Sound := by
  have hdeps : t.deps = s.deps := deps_congr (fun i => by rw [hcalls]) hoperations
  refine h.progress hconserved (hraised.trans h.raised) (fun b hb => hvalue b (Or.inl hb))
    (fun b => by rw [hdeps])
    hregistered ?_ ?_ hready hsetup hbody hoperation hnew
  · intro i call hcall
    rw [hexecuted, callsOf_append, hother, List.append_nil]
    rw [hcalls] at hcall
    exact h.total i call hcall
  · intro i
    rw [hvalue _ (Or.inr ⟨i, rfl⟩), hcalls]
    exact h.all i

/-- When all tails have ended, the operation is ready to start. -/
theorem setReady (h : s.Sound) {k n : Nat} {task : BFTask}
    {heap : Heap BFTask (Outcome V E) Block}
    (ht : s.heap.take k = some ((task, .readyToStart n), heap)) :
    (TaskQueues.set { s with heap := heap } (.readyToStart n) (.result none)).Sound := by
  obtain ⟨hmem, hcompleted⟩ := h.taken ht
  obtain ⟨hget, -, -, hregistered, hexecuted⟩ := Heap.take_cases ht
  have hvalue : ∀ b, heap.value b = s.heap.value b := Heap.value_take ht
  have hdep : task ∈ s.deps (.readyToStart n) :=
    h.mem_deps (k := .readyToStart n) rfl hmem
  have hdeps : s.deps (.readyToStart n) = [task] := by
    have hlen := length_deps_ready s n
    match hd : s.deps (.readyToStart n), hdep, hlen with
    | [d], hdep, _ => rw [List.mem_singleton.mp hdep]
  -- the block has not been executed before
  have hnil : callsOf (.readyToStart n) s.heap.executed = [] := by
    have hlt : (callsOf (.readyToStart n) s.heap.executed).length
        < (callsOf (.readyToStart n) s.heap.registered).length :=
      h.conserved.length_lt (List.mem_of_getElem? hget)
    rw [h.waits (.readyToStart n) rfl, List.length_map,
      show s.deps (Block.task (.readyToStart n)) = [task] from hdeps] at hlt
    exact List.eq_nil_of_length_eq_zero (Nat.lt_one_iff.mp hlt)
  have hopen : s.heap.value (.readyToStart n) = none := by
    rw [← Option.not_isSome_iff_eq_none]
    exact fun hsome => (h.ready n).mp hsome hnil
  rw [set_of_open ((hvalue _).trans hopen)]
  set t : TaskQueues Object V E :=
    { s with heap := heap.trySet (.readyToStart n) (.result none) } with htdef
  show t.Sound
  have hset : ∀ b, b ≠ .readyToStart n → t.heap.value b = s.heap.value b := fun b hb =>
    (Heap.value_trySet_ne heap hb).trans (hvalue b)
  have hself : t.heap.value (.readyToStart n) = some (.result none) :=
    Heap.value_trySet_self heap ((hvalue _).trans hopen)
  have hexec : t.heap.executed = s.heap.executed ++ [(task, .readyToStart n)] :=
    (Heap.executed_trySet ..).trans hexecuted
  have hreg : t.heap.registered = s.heap.registered :=
    (Heap.registered_trySet ..).trans hregistered
  have hother : ∀ k', k' ≠ .readyToStart n →
      callsOf k' t.heap.executed = callsOf k' s.heap.executed := by
    intro k' hk'
    rw [hexec, callsOf_append, callsOf_singleton, if_neg (Ne.symm hk'), List.append_nil]
  refine h.progress_of_calls ((h.conserved.take ht).trySet _ _) rfl rfl rfl ?_ hexec
    (fun i => rfl) (fun k' _ => by rw [hreg]) ?_ ?_ ?_ ?_ ?_
  · rintro b (hb | ⟨i, rfl⟩)
    · refine hset b ?_
      rintro rfl
      rw [TaskQueues.Completed, hopen] at hb
      exact absurd hb (by simp)
    · exact hset _ (by simp)
  · intro m
    by_cases hm : m = n
    · subst hm
      rw [TaskQueues.Completed, hself, hexec, callsOf_append, callsOf_singleton, if_pos rfl]
      simp
    · have hm' : BFTask.readyToStart m ≠ .readyToStart n := fun heq =>
        hm (BFTask.readyToStart.inj heq)
      rw [TaskQueues.Completed, hset _ hm',
        hother (.readyToStart m) fun heq => hm (Block.readyToStart.inj heq)]
      exact h.ready m
  · intro m
    rw [hreg, TaskQueues.Begun, hother (.operation m) (by simp)]
    exact h.setup m
  · intro m hm
    rw [TaskQueues.Completed, hset (.body m) (by simp)] at hm
    rw [hreg]
    exact h.body m hm
  · intro m
    rw [TaskQueues.Completed, hset (.operation m) (by simp), TaskQueues.Begun, hreg,
      hother (.operation m) (by simp), hother (.setupWithTask m) (by simp)]
    exact h.operation m
  · intro b hb
    by_cases hb' : b = .readyToStart n
    · subst hb'
      refine Or.inr fun d hd => ?_
      rw [hdeps] at hd
      rw [List.mem_singleton.mp hd]
      exact hcompleted
    · rw [TaskQueues.Completed, hset b hb'] at hb
      exact Or.inl hb

/-- The block of an operation starts its body, which may answer at once. -/
theorem runOperation (h : s.Sound) {k n : Nat} {task : BFTask} {reply : Option (Outcome V E)}
    {heap : Heap BFTask (Outcome V E) Block}
    (ht : s.heap.take k = some ((task, .operation n), heap)) :
    (TaskQueues.runOperation { s with heap := heap } n reply).Sound := by
  obtain ⟨hmem, hcompleted⟩ := h.taken ht
  obtain ⟨hget, -, -, hregistered, hexecuted⟩ := Heap.take_cases ht
  have hvalue : ∀ b, heap.value b = s.heap.value b := Heap.value_take ht
  have hdep : task ∈ s.deps (.operation n) :=
    h.mem_deps (k := .operation n) rfl hmem
  have hdeps : s.deps (.operation n) = [task] := by
    have hlen := length_deps_operation s n
    match hd : s.deps (.operation n), hdep, hlen with
    | [d], hdep, _ => rw [List.mem_singleton.mp hdep]
  -- the operation has not begun
  have hnil : callsOf (.operation n) s.heap.executed = [] := by
    have hlt : (callsOf (.operation n) s.heap.executed).length
        < (callsOf (.operation n) s.heap.registered).length :=
      h.conserved.length_lt (List.mem_of_getElem? hget)
    rw [h.waits (.operation n) rfl, List.length_map,
      show s.deps (Block.task (.operation n)) = [task] from hdeps] at hlt
    exact List.eq_nil_of_length_eq_zero (Nat.lt_one_iff.mp hlt)
  have hopen : s.heap.value (.operation n) = none := by
    rw [← Option.not_isSome_iff_eq_none]
    exact fun hsome => ((h.operation n).mp hsome).1 hnil
  have hunset : callsOf (.setupWithTask n) s.heap.registered = [] := by
    rcases h.setup n with hs | ⟨-, hbegun⟩
    · exact hs
    · exact absurd hnil hbegun
  have hbegun : ∀ u : TaskQueues Object V E,
      u.heap.executed = s.heap.executed ++ [(task, .operation n)] →
      (u.Begun n ∧ ∀ m, m ≠ n → (u.Begun m ↔ s.Begun m))
        ∧ ∀ k', (∀ m, k' ≠ .operation m) →
          callsOf k' u.heap.executed = callsOf k' s.heap.executed := by
    intro u hu
    refine ⟨⟨?_, fun m hm => ?_⟩, fun k' hk' => ?_⟩
    · rw [TaskQueues.Begun, hu, callsOf_append, callsOf_singleton, if_pos rfl]
      simp
    · rw [TaskQueues.Begun, hu, callsOf_append, callsOf_singleton,
        if_neg fun heq => hm (Block.operation.inj heq).symm, List.append_nil, TaskQueues.Begun]
    · rw [hu, callsOf_append, callsOf_singleton, if_neg (Ne.symm (hk' n)), List.append_nil]
  cases reply with
  | some o =>
      rw [TaskQueues.runOperation, set_of_open ((hvalue _).trans hopen)]
      set t : TaskQueues Object V E := { s with heap := heap.trySet (.operation n) o } with htdef
      show t.Sound
      have hset : ∀ b, b ≠ .operation n → t.heap.value b = s.heap.value b := fun b hb =>
        (Heap.value_trySet_ne heap hb).trans (hvalue b)
      have hself : t.heap.value (.operation n) = some o :=
        Heap.value_trySet_self heap ((hvalue _).trans hopen)
      have hexec : t.heap.executed = s.heap.executed ++ [(task, .operation n)] :=
        (Heap.executed_trySet ..).trans hexecuted
      have hreg : t.heap.registered = s.heap.registered :=
        (Heap.registered_trySet ..).trans hregistered
      obtain ⟨⟨hyes, hsame⟩, hother⟩ := hbegun t hexec
      refine h.progress_of_calls ((h.conserved.take ht).trySet _ _) rfl rfl rfl ?_ hexec
        (fun i => rfl) (fun k' _ => by rw [hreg]) ?_ ?_ ?_ ?_ ?_
      · rintro b (hb | ⟨i, rfl⟩)
        · refine hset b ?_
          rintro rfl
          rw [TaskQueues.Completed, hopen] at hb
          exact absurd hb (by simp)
        · exact hset _ (by simp)
      · intro m
        rw [TaskQueues.Completed, hset (.readyToStart m) (by simp),
          hother (.readyToStart m) (fun m => by simp)]
        exact h.ready m
      · intro m
        rw [hreg]
        rcases h.setup m with hs | ⟨hs, hm⟩
        · exact Or.inl hs
        · refine Or.inr ⟨hs, ?_⟩
          by_cases hmn : m = n
          · rw [hmn]
            exact hyes
          · exact (hsame m hmn).mpr hm
      · intro m hm
        rw [TaskQueues.Completed, hset (.body m) (by simp)] at hm
        rw [hreg]
        exact h.body m hm
      · intro m
        rw [hreg, hother (.setupWithTask m) (fun m => by simp)]
        by_cases hm : m = n
        · subst hm
          rw [TaskQueues.Completed, hself, hunset, h.executed_nil hunset]
          exact ⟨fun _ => ⟨hyes, rfl⟩, fun _ => rfl⟩
        · rw [TaskQueues.Completed, hset (.operation m) fun heq => hm (BFTask.operation.inj heq),
            hsame m hm]
          exact h.operation m
      · intro b hb
        by_cases hb' : b = .operation n
        · subst hb'
          refine Or.inr fun d hd => ?_
          rw [hdeps] at hd
          rw [List.mem_singleton.mp hd]
          exact hcompleted
        · rw [TaskQueues.Completed, hset b hb'] at hb
          exact Or.inl hb
  | none =>
      set t : TaskQueues Object V E :=
        { s with heap := heap.continueWith (.body n) (.setupWithTask n) } with htdef
      show t.Sound
      have hset : ∀ b, t.heap.value b = s.heap.value b := fun b =>
        (Heap.value_continueWith ..).trans (hvalue b)
      have hexec : t.heap.executed = s.heap.executed ++ [(task, .operation n)] :=
        (Heap.executed_continueWith ..).trans hexecuted
      have hreg : t.heap.registered = s.heap.registered ++ [(.body n, .setupWithTask n)] := by
        rw [← hregistered]
        exact Heap.registered_continueWith ..
      have hcalls : ∀ k', k' ≠ .setupWithTask n →
          callsOf k' t.heap.registered = callsOf k' s.heap.registered := by
        intro k' hk'
        rw [hreg, callsOf_append, callsOf_singleton, if_neg (Ne.symm hk'), List.append_nil]
      have hself : callsOf (.setupWithTask n) t.heap.registered
          = [(.body n, .setupWithTask n)] := by
        rw [hreg, callsOf_append, callsOf_singleton, if_pos rfl, hunset]
        rfl
      have hne : ∀ m, m ≠ n → Block.setupWithTask m ≠ .setupWithTask n :=
        fun m hm heq => hm (Block.setupWithTask.inj heq)
      obtain ⟨⟨hyes, hsame⟩, hother⟩ := hbegun t hexec
      refine h.progress_of_calls ((h.conserved.take ht).continueWith _ _) rfl rfl rfl
        (fun b _ => hset b) hexec (fun i => rfl) ?_ ?_ ?_ ?_ ?_ ?_
      · intro k' hk'
        refine hcalls k' ?_
        rintro rfl
        exact absurd hk' Bool.false_ne_true
      · intro m
        rw [TaskQueues.Completed, hset, hother (.readyToStart m) (fun m => by simp)]
        exact h.ready m
      · intro m
        by_cases hm : m = n
        · rw [hm]
          exact Or.inr ⟨hself, hyes⟩
        · rw [hcalls _ (hne m hm), hsame m hm]
          exact h.setup m
      · intro m hm
        by_cases hmn : m = n
        · rw [hmn, hself]
          simp
        · rw [TaskQueues.Completed, hset] at hm
          rw [hcalls _ (hne m hmn)]
          exact h.body m hm
      · intro m
        rw [TaskQueues.Completed, hset, hother (.setupWithTask m) (fun m => by simp)]
        by_cases hm : m = n
        · subst hm
          rw [hopen, hself, h.executed_nil hunset]
          exact ⟨fun hn => (absurd hn (by simp)), fun hn => (absurd hn.2 (by simp))⟩
        · rw [hcalls _ (hne m hm), hsame m hm]
          exact h.operation m
      · intro b hb
        rw [TaskQueues.Completed, hset] at hb
        exact Or.inl hb

/-- The operation ends with the outcome of its body. -/
theorem setOperation (h : s.Sound) {k n : Nat} {task : BFTask} {o : Outcome V E}
    {heap : Heap BFTask (Outcome V E) Block}
    (ht : s.heap.take k = some ((task, .setupWithTask n), heap)) :
    (TaskQueues.set { s with heap := heap } (.operation n) o).Sound := by
  obtain ⟨hmem, hcompleted⟩ := h.taken ht
  obtain ⟨hget, -, -, hregistered, hexecuted⟩ := Heap.take_cases ht
  have hvalue : ∀ b, heap.value b = s.heap.value b := Heap.value_take ht
  have hsetup : callsOf (.setupWithTask n) s.heap.registered = [(.body n, .setupWithTask n)]
      ∧ s.Begun n := by
    rcases h.setup n with hs | hs
    · have hin : (task, Block.setupWithTask n) ∈ callsOf (.setupWithTask n) s.heap.registered :=
        mem_callsOf.mpr ⟨hmem, rfl⟩
      rw [hs] at hin
      exact absurd hin (by simp)
    · exact hs
  -- the block has not been executed before
  have hnil : callsOf (.setupWithTask n) s.heap.executed = [] := by
    have hlt : (callsOf (.setupWithTask n) s.heap.executed).length
        < (callsOf (.setupWithTask n) s.heap.registered).length :=
      h.conserved.length_lt (List.mem_of_getElem? hget)
    rw [hsetup.1] at hlt
    exact List.eq_nil_of_length_eq_zero (Nat.lt_one_iff.mp hlt)
  have hopen : s.heap.value (.operation n) = none := by
    rw [← Option.not_isSome_iff_eq_none]
    intro hsome
    have hlen := ((h.operation n).mp hsome).2
    rw [hsetup.1, hnil] at hlen
    exact absurd hlen (by simp)
  rw [set_of_open ((hvalue _).trans hopen)]
  set t : TaskQueues Object V E := { s with heap := heap.trySet (.operation n) o } with htdef
  show t.Sound
  have hset : ∀ b, b ≠ .operation n → t.heap.value b = s.heap.value b := fun b hb =>
    (Heap.value_trySet_ne heap hb).trans (hvalue b)
  have hself : t.heap.value (.operation n) = some o :=
    Heap.value_trySet_self heap ((hvalue _).trans hopen)
  have hexec : t.heap.executed = s.heap.executed ++ [(task, .setupWithTask n)] :=
    (Heap.executed_trySet ..).trans hexecuted
  have hreg : t.heap.registered = s.heap.registered :=
    (Heap.registered_trySet ..).trans hregistered
  have hother : ∀ k', k' ≠ .setupWithTask n →
      callsOf k' t.heap.executed = callsOf k' s.heap.executed := by
    intro k' hk'
    rw [hexec, callsOf_append, callsOf_singleton, if_neg (Ne.symm hk'), List.append_nil]
  have hbegun : ∀ m, t.Begun m ↔ s.Begun m := by
    intro m
    rw [TaskQueues.Begun, TaskQueues.Begun, hother (.operation m) (by simp)]
  refine h.progress_of_calls ((h.conserved.take ht).trySet _ _) rfl rfl rfl ?_ hexec
    (fun i => rfl) (fun k' _ => by rw [hreg]) ?_ ?_ ?_ ?_ ?_
  · rintro b (hb | ⟨i, rfl⟩)
    · refine hset b ?_
      rintro rfl
      rw [TaskQueues.Completed, hopen] at hb
      exact absurd hb (by simp)
    · exact hset _ (by simp)
  · intro m
    rw [TaskQueues.Completed, hset (.readyToStart m) (by simp), hother (.readyToStart m) (by simp)]
    exact h.ready m
  · intro m
    rw [hreg, hbegun]
    exact h.setup m
  · intro m hm
    rw [TaskQueues.Completed, hset (.body m) (by simp)] at hm
    rw [hreg]
    exact h.body m hm
  · intro m
    rw [hreg, hbegun]
    by_cases hm : m = n
    · subst hm
      rw [TaskQueues.Completed, hself, hsetup.1, hexec, callsOf_append, callsOf_singleton,
        if_pos rfl, hnil]
      exact ⟨fun _ => ⟨hsetup.2, rfl⟩, fun _ => rfl⟩
    · rw [TaskQueues.Completed, hset (.operation m) fun heq => hm (BFTask.operation.inj heq),
        hother (.setupWithTask m) fun heq => hm (Block.setupWithTask.inj heq)]
      exact h.operation m
  · intro b hb
    by_cases hb' : b = .operation n
    · subst hb'
      exact Or.inr (h.begun_completed hsetup.2)
    · rw [TaskQueues.Completed, hset b hb'] at hb
      exact Or.inl hb

/-- A body that is under way may end with any outcome. -/
theorem finish (h : s.Sound) {n : Nat} {o : Outcome V E}
    (hmem : (.body n, .setupWithTask n) ∈ s.heap.registered)
    (hopen : s.heap.value (.body n) = none) : (s.set (.body n) o).Sound := by
  rw [set_of_open hopen]
  set t : TaskQueues Object V E := { s with heap := s.heap.trySet (.body n) o } with htdef
  show t.Sound
  have hset : ∀ b, b ≠ .body n → t.heap.value b = s.heap.value b := fun b hb =>
    Heap.value_trySet_ne s.heap hb
  have hexec : t.heap.executed = s.heap.executed := Heap.executed_trySet ..
  have hreg : t.heap.registered = s.heap.registered := Heap.registered_trySet ..
  have hbegun : ∀ m, t.Begun m ↔ s.Begun m := by
    intro m
    rw [TaskQueues.Begun, TaskQueues.Begun, hexec]
  have hnothing : t.heap.executed = s.heap.executed ++ [] :=
    hexec.trans (List.append_nil _).symm
  refine h.progress_of_calls (h.conserved.trySet _ _) rfl rfl rfl ?_ hnothing (fun i => rfl)
    (fun k' _ => by rw [hreg]) ?_ ?_ ?_ ?_ ?_
  · rintro b (hb | ⟨i, rfl⟩)
    · refine hset b ?_
      rintro rfl
      rw [TaskQueues.Completed, hopen] at hb
      exact absurd hb (by simp)
    · exact hset _ (by simp)
  · intro m
    rw [TaskQueues.Completed, hset (.readyToStart m) (by simp), hexec]
    exact h.ready m
  · intro m
    rw [hreg, hbegun]
    exact h.setup m
  · intro m hm
    rw [hreg]
    by_cases hmn : m = n
    · subst hmn
      exact List.ne_nil_of_mem (mem_callsOf.mpr ⟨hmem, rfl⟩)
    · rw [TaskQueues.Completed, hset (.body m) fun heq => hmn (BFTask.body.inj heq)] at hm
      exact h.body m hm
  · intro m
    rw [TaskQueues.Completed, hset (.operation m) (by simp), hreg, hbegun, hexec]
    exact h.operation m
  · intro b hb
    by_cases hb' : b = .body n
    · subst hb'
      exact Or.inr fun d hd => absurd hd List.not_mem_nil
    · rw [TaskQueues.Completed, hset b hb'] at hb
      exact Or.inl hb

/-! ## Runs -/

variable [DecidableEq Object]

omit [DecidableEq Object] in
theorem setTail (h : s.Sound) (tail : Object → Option BFTask) :
    TaskQueues.Sound { s with tail := tail } :=
  ⟨h.conserved, h.raised, h.completed, h.waits, h.total, h.all, h.ready, h.setup, h.body,
    h.operation, h.acc⟩

/-- An enqueue keeps what its task start keeps. -/
theorem enqueue (s : TaskQueues Object V E) (x : Object)
    (taskStart : BFTask → TaskQueues Object V E → BFTask × TaskQueues Object V E)
    (h : (taskStart (s.oldTail x) s).2.Sound) : (s.enqueue x taskStart).2.Sound :=
  (h.taskForCompletionOfAllTasks [s.oldTail x, (taskStart (s.oldTail x) s).1]).setTail _

/-- An operation that is put into the queue of one object keeps the queues sound. -/
theorem enqueueOperation (h : s.Sound) (x : Object) : (s.enqueueOperation x).Sound :=
  enqueue s x _ (h.startOperation [x] (s.oldTail x))

omit [DecidableEq Object] in
theorem operations_all (s : TaskQueues Object V E) (tasks : List BFTask) :
    (s.taskForCompletionOfAllTasks tasks).2.operations = s.operations := by
  rw [TaskQueues.taskForCompletionOfAllTasks]
  split <;> rfl

/-- The queues of the objects take the task one after another. -/
theorem enqueueChildren (acc : List BFTask × TaskQueues Object V E) (h : acc.2.Sound)
    (fullTask : BFTask) (objects : List Object) :
    (objects.foldl (TaskQueues.enqueueChild fullTask) acc).2.Sound
      ∧ (objects.foldl (TaskQueues.enqueueChild fullTask) acc).2.operations
        = acc.2.operations := by
  induction objects generalizing acc with
  | nil => exact ⟨h, rfl⟩
  | cons x objects ih =>
      have hstep : (TaskQueues.enqueueChild fullTask acc x).2.Sound :=
        enqueue acc.2 x (fun _ s => (fullTask, s)) h
      obtain ⟨hsound, hops⟩ := ih _ hstep
      exact ⟨hsound, hops.trans (operations_all acc.2 [acc.2.oldTail x, fullTask])⟩

/-- So does an operation on several objects. -/
theorem enqueueForObjects (h : s.Sound) (objects : List Object) :
    (s.enqueueForObjects objects).Sound := by
  set n := s.operations.length
  set acc := objects.foldl (TaskQueues.enqueueChild (.operation n))
    ([], (s.startOperation objects (.readyToStart n)).2) with hacc
  obtain ⟨hsound, hops⟩ := enqueueChildren ([], (s.startOperation objects (.readyToStart n)).2)
    (h.startOperation objects (.readyToStart n)) (.operation n) objects
  rw [← hacc] at hsound hops
  have hn : (acc.2.taskForCompletionOfAllTasks acc.1).2.operations[n]?
      = some ⟨objects, .readyToStart n, none⟩ := by
    rw [operations_all, hops]
    exact List.getElem?_concat_length
  show ((acc.2.taskForCompletionOfAllTasks acc.1).2.continueReady n
    (acc.2.taskForCompletionOfAllTasks acc.1).1).Sound
  exact (hsound.taskForCompletionOfAllTasks acc.1).continueReady _ hn rfl

/-- **ONE STEP** keeps the queues sound. -/
theorem step (h : s.Sound) {e : QueueEvent Object V E} {t : TaskQueues Object V E}
    (ht : s.step e = some t) : t.Sound := by
  cases e with
  | enqueue x =>
      obtain rfl := Option.some.inj ht
      exact h.enqueueOperation x
  | enqueueForObjects objects =>
      obtain rfl := Option.some.inj ht
      exact h.enqueueForObjects objects
  | execute k =>
      simp only [TaskQueues.step] at ht
      split at ht
      · rename_i task block heap htake
        split at ht
        · obtain rfl := Option.some.inj ht
          exact h.runAll htake
        · obtain rfl := Option.some.inj ht
          exact h.setReady htake
        · obtain rfl := Option.some.inj ht
          exact h.setOperation htake
        · exact absurd ht (by simp)
      · exact absurd ht (by simp)
  | start k reply =>
      simp only [TaskQueues.step] at ht
      split at ht
      · rename_i task n heap htake
        obtain rfl := Option.some.inj ht
        exact h.runOperation htake
      · exact absurd ht (by simp)
  | finish n o =>
      obtain ⟨⟨hmem, hopen⟩, ht⟩ := Option.ite_none_right_eq_some.mp ht
      obtain rfl := Option.some.inj ht
      exact h.finish hmem (Option.isNone_iff_eq_none.mp hopen)

end TaskQueues.Sound

/-- In every run. -/
theorem sound_of_run [DecidableEq Object] {es : List (QueueEvent Object V E)}
    {t : TaskQueues Object V E} (ht : run TaskQueues.step .empty es = some t) : t.Sound :=
  run_inv (fun _ => TaskQueues.Sound) .empty (fun _ _ _ _ _ hs hu => hs.step hu) ht

end Runs

end ParseSDK

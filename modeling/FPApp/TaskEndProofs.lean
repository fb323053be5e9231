import FPApp.TaskOrderProofs

/-! # How the work of the queues ends

    Without new operations, only so many blocks can be executed: every run
    comes to a state in which nothing is left.

    * `work_drains` — a run without new operations has a bounded length, and it
      can go on until nothing is left to execute;
    * `tail_failed_iff` — the tail of a queue has failed as soon as one of the
      operations of the queue has, and no later success changes that. -/

namespace ParseSDK

open EventRun Promise

section Work

variable {Object V E : Type} {s t : TaskQueues Object V E}

/-- What a block still has to do. -/
def Block.work : Block → Nat
  | .operation _ => 4
  | _ => 1

/-- What a list of blocks has to do. -/
def blocksWork : List (BFTask × Block) → Nat
  | [] => 0
  | p :: l => p.2.work + blocksWork l

/-- An operation waits for a task that has not completed. -/
def TaskQueues.isOpen (s : TaskQueues Object V E) (p : BFTask × Block) : Bool :=
  match p.2 with
  | .setupWithTask _ => (s.heap.value p.1).isNone
  | _ => false

/-- What is left to do without new operations. -/
def TaskQueues.work (s : TaskQueues Object V E) : Nat :=
  blocksWork s.heap.registered - blocksWork s.heap.executed
    + s.heap.registered.countP s.isOpen

/-- The event is not a new operation. -/
def QueueEvent.Works : QueueEvent Object V E → Prop
  | .enqueue _ | .enqueueForObjects _ => False
  | _ => True

@[simp] theorem blocksWork_append (l m : List (BFTask × Block)) :
    blocksWork (l ++ m) = blocksWork l + blocksWork m := by
  induction l with
  | nil => exact (Nat.zero_add _).symm
  | cons p l ih => exact (congrArg (p.2.work + ·) ih).trans (Nat.add_assoc _ _ _).symm

@[simp] theorem blocksWork_singleton (p : BFTask × Block) : blocksWork [p] = p.2.work := rfl

theorem blocksWork_perm {l m : List (BFTask × Block)} (h : l.Perm m) :
    blocksWork l = blocksWork m := by
  induction h with
  | nil => rfl
  | cons p _ ih => exact congrArg (p.2.work + ·) ih
  | swap p q l => exact Nat.add_left_comm _ _ _
  | trans _ _ ih ih' => exact ih.trans ih'

theorem blocksWork_le {l m : List (BFTask × Block)} (h : l.Subperm m) :
    blocksWork l ≤ blocksWork m := by
  obtain ⟨l', hperm, hsub⟩ := h
  obtain ⟨rest, hrest⟩ := hsub.exists_perm_append
  rw [blocksWork_perm hrest, blocksWork_append, blocksWork_perm hperm]
  exact Nat.le_add_right _ _

/-- No block is executed that was not registered, and none twice. -/
theorem TaskQueues.Sound.work_le (h : s.Sound) :
    blocksWork s.heap.executed ≤ blocksWork s.heap.registered :=
  blocksWork_le h.conserved.executed_subperm

/-- Only the completion of what an operation returned ends the wait. -/
theorem TaskQueues.Sound.open_eq (h : s.Sound)
    (hbody : ∀ n, t.heap.value (.body n) = s.heap.value (.body n)) :
    s.heap.registered.countP t.isOpen = s.heap.registered.countP s.isOpen := by
  refine List.countP_congr fun p hp => ?_
  obtain ⟨b, k⟩ := p
  cases k with
  | setupWithTask n =>
      have hb : b = .body n := by
        have hmem : (b, Block.setupWithTask n) ∈ callsOf (.setupWithTask n) s.heap.registered :=
          mem_callsOf.mpr ⟨hp, rfl⟩
        rcases h.setup n with hnil | ⟨hone, -⟩
        · rw [hnil] at hmem
          exact absurd hmem (by simp)
        · rw [hone, List.mem_singleton] at hmem
          exact (Prod.mk.inj hmem).1
      rw [hb]
      show (t.heap.value (.body n)).isNone ↔ (s.heap.value (.body n)).isNone
      rw [hbody]
  | _ => exact Iff.rfl

/-- A block that is executed, of those that register no block. -/
theorem work_executed (hs : s.Sound) (ht : t.Sound) {p : BFTask × Block}
    (hreg : t.heap.registered = s.heap.registered)
    (hexec : t.heap.executed = s.heap.executed ++ [p])
    (hbody : ∀ n, t.heap.value (.body n) = s.heap.value (.body n)) : t.work < s.work := by
  have hle := ht.work_le
  have hopen := hs.open_eq hbody
  have hpos : 0 < p.2.work := by cases p.2 <;> exact Nat.succ_pos _
  rw [hexec, blocksWork_append, blocksWork_singleton, hreg] at hle
  rw [TaskQueues.work, TaskQueues.work, hreg, hexec, blocksWork_append, blocksWork_singleton,
    hopen]
  omega

theorem set_heap {b : BFTask} {o : Outcome V E} (hb : s.heap.value b = none) :
    (s.set b o).heap = s.heap.trySet b o := by
  rw [TaskQueues.Sound.set_of_open hb]

theorem value_set_ne (s : TaskQueues Object V E) (b : BFTask) (o : Outcome V E) {c : BFTask}
    (hc : c ≠ b) : (s.set b o).heap.value c = s.heap.value c := by
  rw [TaskQueues.set]
  cases hb : s.heap.value b with
  | some v => rfl
  | none => exact Heap.value_trySet_ne s.heap hc

/-- Completing a task registers and executes no block. -/
theorem blocks_set (s : TaskQueues Object V E) (b : BFTask) (o : Outcome V E) :
    (s.set b o).heap.registered = s.heap.registered
      ∧ (s.set b o).heap.executed = s.heap.executed := by
  rw [TaskQueues.set]
  cases hb : s.heap.value b with
  | some v => exact ⟨rfl, rfl⟩
  | none => exact ⟨Heap.registered_trySet .., Heap.executed_trySet ..⟩

/-- A block that is executed and completes a task, other than the one that an
    operation returned. -/
theorem work_set (hs : s.Sound) {k : Nat} {p : BFTask × Block}
    {heap : Heap BFTask (Outcome V E) Block} (htake : s.heap.take k = some (p, heap))
    {b : BFTask} {o : Outcome V E} (hb : ∀ m, .body m ≠ b)
    (ht : (TaskQueues.set { s with heap := heap } b o).Sound) :
    (TaskQueues.set { s with heap := heap } b o).work < s.work := by
  obtain ⟨-, -, -, hreg, hexec⟩ := Heap.take_cases htake
  obtain ⟨hreg', hexec'⟩ := blocks_set { s with heap := heap } b o
  refine work_executed hs ht (hreg'.trans hreg) (hexec'.trans hexec) ?_
  intro m
  rw [value_set_ne { s with heap := heap } b o (hb m)]
  exact Heap.value_take htake _

/-- Counting an outcome does not either, and completes at most the wait. -/
theorem blocks_runAll (s : TaskQueues Object V E) (i : Nat) (o : Outcome V E) :
    (s.runAll i o).heap.registered = s.heap.registered
      ∧ (s.runAll i o).heap.executed = s.heap.executed
      ∧ ∀ b, b ≠ .all i → (s.runAll i o).heap.value b = s.heap.value b := by
  cases hcall : s.calls[i]? with
  | none =>
      have heq : s.runAll i o = s := by simp only [TaskQueues.runAll, hcall]
      rw [heq]
      exact ⟨rfl, rfl, fun _ _ => rfl⟩
  | some call =>
      simp only [TaskQueues.runAll, hcall]
      split
      · obtain ⟨hreg, hexec⟩ := blocks_set
          { s with calls := s.calls.set i (call.record o) } (.all i) (call.record o).outcome
        exact ⟨hreg, hexec, fun b hb => value_set_ne _ _ _ hb⟩
      · exact ⟨rfl, rfl, fun _ _ => rfl⟩

variable [DecidableEq Object]

/-- A count is larger when one more is counted. -/
theorem countP_lt {α : Type} {l : List α} {p q : α → Bool} {a : α}
    (h : ∀ b ∈ l, p b → q b) (ha : a ∈ l) (hq : q a) (hp : ¬p a) : l.countP p < l.countP q := by
  obtain ⟨l₁, l₂, rfl⟩ := List.append_of_mem ha
  have h₁ : l₁.countP p ≤ l₁.countP q :=
    List.countP_mono_left fun b hb => h b (List.mem_append_left _ hb)
  have h₂ : l₂.countP p ≤ l₂.countP q :=
    List.countP_mono_left fun b hb => h b (by simp [hb])
  rw [List.countP_append, List.countP_append, List.countP_cons_of_pos hq,
    List.countP_cons_of_neg hp]
  omega

/-- **ONE EVENT, LESS TO DO**: an event that is not a new operation leaves less
    to do. -/
theorem work_step (h : s.Sound) {e : QueueEvent Object V E} (he : e.Works)
    (ht : s.step e = some t) : t.work < s.work := by
  have hsound := h.step ht
  cases e with
  | enqueue x => exact absurd he id
  | enqueueForObjects objects => exact absurd he id
  | execute k =>
      simp only [TaskQueues.step] at ht
      split at ht
      · rename_i task block heap htake
        obtain ⟨-, -, -, hreg, hexec⟩ := Heap.take_cases htake
        have hvalue := Heap.value_take htake
        split at ht
        · rename_i i o _
          obtain rfl := Option.some.inj ht
          obtain ⟨hreg', hexec', hval'⟩ := blocks_runAll { s with heap := heap } i o
          exact work_executed h hsound (hreg'.trans hreg) (hexec'.trans hexec)
            fun n => (hval' (.body n) (by simp)).trans (hvalue _)
        · rename_i n _ _
          obtain rfl := Option.some.inj ht
          exact work_set h htake (fun m => by simp) hsound
        · rename_i n o _
          obtain rfl := Option.some.inj ht
          exact work_set h htake (fun m => by simp) hsound
        · exact absurd ht (by simp)
      · exact absurd ht (by simp)
  | start k reply =>
      simp only [TaskQueues.step] at ht
      split at ht
      · rename_i task n heap htake
        obtain ⟨-, -, -, hreg, hexec⟩ := Heap.take_cases htake
        have hvalue := Heap.value_take htake
        obtain rfl := Option.some.inj ht
        cases reply with
        | some o => exact work_set h htake (fun m => by simp) hsound
        | none =>
            -- the operation returned a task to wait for
            set u := TaskQueues.runOperation { s with heap := heap } n none with hu
            have hreg' : u.heap.registered
                = s.heap.registered ++ [(.body n, .setupWithTask n)] :=
              (Heap.registered_continueWith ..).trans (by rw [hreg])
            have hexec' : u.heap.executed = s.heap.executed ++ [(task, .operation n)] :=
              (Heap.executed_continueWith ..).trans hexec
            have hopen := h.open_eq (t := u) fun n =>
              (Heap.value_continueWith ..).trans (hvalue _)
            have hle := hsound.work_le
            have hcount : [(BFTask.body n, Block.setupWithTask n)].countP u.isOpen ≤ 1 :=
              List.countP_le_length
            rw [hreg', hexec', blocksWork_append, blocksWork_append, blocksWork_singleton,
              blocksWork_singleton] at hle
            rw [TaskQueues.work, TaskQueues.work, hreg', hexec', blocksWork_append,
              blocksWork_append, blocksWork_singleton, blocksWork_singleton, List.countP_append,
              hopen]
            simp only [Block.work] at hle ⊢
            omega
      · exact absurd ht (by simp)
  | finish n o =>
      obtain ⟨⟨hmem, hopen⟩, ht⟩ := Option.ite_none_right_eq_some.mp ht
      obtain rfl := Option.some.inj ht
      obtain ⟨hreg, hexec⟩ := blocks_set s (.body n) o
      have hlt : s.heap.registered.countP (s.set (.body n) o).isOpen
          < s.heap.registered.countP s.isOpen := by
        refine countP_lt (fun p hp hpo => ?_) hmem ?_ ?_
        · obtain ⟨b, k⟩ := p
          cases k with
          | setupWithTask m =>
              by_cases hb : b = .body n
              · rw [hb]
                exact hopen
              · rw [TaskQueues.isOpen, value_set_ne s _ _ hb] at hpo
                exact hpo
          | _ => exact hpo
        · exact hopen
        · show ¬((s.set (.body n) o).heap.value (.body n)).isNone
          rw [set_heap (Option.isNone_iff_eq_none.mp hopen),
            Heap.value_trySet_self _ (Option.isNone_iff_eq_none.mp hopen)]
          simp
      rw [TaskQueues.work, TaskQueues.work, hreg, hexec]
      omega

/-- What is left to do can be done. -/
theorem TaskQueues.Sound.quiet_or_step (h : s.Sound) :
    s.Quiet ∨ ∃ e : QueueEvent Object V E, e.Works ∧ (s.step e).isSome := by
  by_cases hq : s.Quiet
  · exact Or.inl hq
  refine Or.inr ?_
  cases hready : s.heap.ready with
  | nil =>
      have hopen : ∃ n, (BFTask.body n, Block.setupWithTask n) ∈ s.heap.registered
          ∧ ¬s.Completed (.body n) := by
        by_contra hnone
        refine hq ⟨hready, fun n hn => ?_⟩
        by_contra hc
        exact hnone ⟨n, hn, hc⟩
      obtain ⟨n, hmem, hn⟩ := hopen
      refine ⟨.finish n .cancelled, trivial, ?_⟩
      have hnone : (s.heap.value (.body n)).isNone := by simpa [TaskQueues.Completed] using hn
      rw [TaskQueues.step, if_pos ⟨hmem, hnone⟩]
      rfl
  | cons p rest =>
      have hhead : s.heap.ready[0]? = some p := by rw [hready]; rfl
      obtain ⟨heap, htake⟩ : ∃ heap, s.heap.take 0 = some (p, heap) := by
        simp only [Heap.take, hhead]
        exact ⟨_, rfl⟩
      obtain ⟨b, k⟩ := p
      have hb : (heap.value b).isSome := by
        rw [Heap.value_take htake]
        exact (h.taken htake).2
      obtain ⟨o, ho⟩ := Option.isSome_iff_exists.mp hb
      cases k with
      | operation n =>
          refine ⟨.start 0 none, trivial, ?_⟩
          simp only [TaskQueues.step, htake]
          rfl
      | _ =>
          refine ⟨.execute 0, trivial, ?_⟩
          simp only [TaskQueues.step, htake, ho]
          rfl

/-- **WORK DRAINS**: without new operations a run is no longer than the work
    there was, and it can go on until nothing is left. -/
theorem work_drains {es fs : List (QueueEvent Object V E)}
    (hs : run TaskQueues.step .empty es = some s) (hfs : ∀ e ∈ fs, e.Works)
    (ht : run TaskQueues.step s fs = some t) :
    t.work + fs.length ≤ s.work
      ∧ (t.Quiet ∨ ∃ e : QueueEvent Object V E, e.Works ∧ (t.step e).isSome) := by
  have hinv : (∀ e ∈ fs, e.Works) → t.Sound ∧ t.work + fs.length ≤ s.work := by
    refine run_inv (fun fs t => (∀ e ∈ fs, QueueEvent.Works e) →
      TaskQueues.Sound t ∧ t.work + fs.length ≤ s.work) (fun _ => ⟨sound_of_run hs, le_rfl⟩) ?_ ht
    intro pre u e v _ ih hv hpre
    obtain ⟨hsound, hle⟩ := ih fun f hf => hpre f (List.mem_append_left _ hf)
    have hlt := work_step hsound (hpre e (by simp)) hv
    refine ⟨hsound.step hv, ?_⟩
    rw [List.length_append, List.length_singleton]
    omega
  obtain ⟨hsound, hle⟩ := hinv hfs
  exact ⟨hle, hsound.quiet_or_step⟩

theorem work_drains_shared :
    ∃ s t, run TaskQueues.step .empty (sharedRun.take 2) = some s
      ∧ run TaskQueues.step s (sharedRun.drop 2) = some t ∧ 13 ≤ s.work := by
  obtain ⟨s, t, hs, ht⟩ : ∃ s t, run TaskQueues.step .empty (sharedRun.take 2) = some s
      ∧ run TaskQueues.step s (sharedRun.drop 2) = some t := ⟨_, _, rfl, rfl⟩
  have hle := (work_drains hs (by simp [sharedRun, QueueEvent.Works]) ht).1
  exact ⟨s, t, hs, ht, (Nat.le_add_left _ _).trans hle⟩

end Work

/-! ## How the tails complete -/

section Outcomes

variable {Object V E : Type} {s t : TaskQueues Object V E}

/-- The task has failed. -/
def TaskQueues.Failed (s : TaskQueues Object V E) (b : BFTask) : Prop :=
  ∃ e, s.heap.value b = some (.error e)

/-- The task has been cancelled. -/
def TaskQueues.Cancelled (s : TaskQueues Object V E) (b : BFTask) : Prop :=
  s.heap.value b = some .cancelled

/-- The calls of `taskForCompletionOfAllTasks:` count what has been executed. -/
structure TaskQueues.Recorded (s : TaskQueues Object V E) : Prop where
  errors : ∀ (i : Nat) (call : AllTasks E), s.calls[i]? = some call →
    (call.errors ≠ [] ↔ ∃ b, (b, .all i) ∈ s.heap.executed ∧ s.Failed b)
  cancelled : ∀ (i : Nat) (call : AllTasks E), s.calls[i]? = some call →
    (0 < call.cancelled ↔ ∃ b, (b, .all i) ∈ s.heap.executed ∧ s.Cancelled b)

/-- A wait fails when one of its tasks did. -/
theorem outcome_failed (call : AllTasks E) :
    (∃ e, (call.outcome : Outcome V E) = .error e) ↔ call.errors ≠ [] := by
  rw [AllTasks.outcome]
  cases call.errors with
  | nil =>
      constructor
      · rintro ⟨e, he⟩
        dsimp only at he
        split at he <;> exact absurd he (by simp)
      · exact fun h => absurd rfl h
  | cons e errors =>
      refine ⟨fun _ => (by simp), fun _ => ?_⟩
      cases errors with
      | nil => exact ⟨_, rfl⟩
      | cons e' errors => exact ⟨_, rfl⟩

/-- It is cancelled when none failed and one was cancelled. -/
theorem outcome_cancelled (call : AllTasks E) :
    (call.outcome : Outcome V E) = .cancelled ↔ call.errors = [] ∧ 0 < call.cancelled := by
  rw [AllTasks.outcome]
  cases call.errors with
  | nil =>
      dsimp only
      by_cases hpos : 0 < call.cancelled
      · rw [if_pos hpos]
        exact ⟨fun _ => ⟨rfl, hpos⟩, fun _ => rfl⟩
      · rw [if_neg hpos]
        exact ⟨fun h => (absurd h (by simp)), fun h => absurd h.2 hpos⟩
  | cons e errors =>
      refine ⟨fun h => ?_, fun h => (absurd h.1 (by simp))⟩
      cases errors <;> exact absurd h (by simp)

/-- At first there is no wait. -/
theorem recorded_empty : (TaskQueues.empty : TaskQueues Object V E).Recorded :=
  ⟨fun _ _ h => absurd h (by simp [TaskQueues.empty]),
    fun _ _ h => absurd h (by simp [TaskQueues.empty])⟩

/-- Calls have been made, and nothing has been executed. -/
structure TaskQueues.Grown (s t : TaskQueues Object V E) : Prop where
  executed : t.heap.executed = s.heap.executed
  value : ∀ b, t.heap.value b = s.heap.value b
  calls : ∃ new, t.calls = s.calls ++ new ∧ ∀ call ∈ new, call.errors = [] ∧ call.cancelled = 0

theorem TaskQueues.Grown.refl (s : TaskQueues Object V E) : s.Grown s :=
  ⟨rfl, fun _ => rfl, [], (List.append_nil _).symm, fun _ h => absurd h (by simp)⟩

theorem TaskQueues.Grown.trans {u : TaskQueues Object V E} (h : s.Grown t) (h' : t.Grown u) :
    s.Grown u := by
  obtain ⟨new, hnew, hfresh⟩ := h.calls
  obtain ⟨new', hnew', hfresh'⟩ := h'.calls
  refine ⟨h'.executed.trans h.executed, fun b => (h'.value b).trans (h.value b), new ++ new', ?_,
    fun call hcall => ?_⟩
  · rw [hnew', hnew, List.append_assoc]
  · rcases List.mem_append.mp hcall with hcall | hcall
    · exact hfresh call hcall
    · exact hfresh' call hcall

/-- A wait is added to those that are there. -/
theorem grown_all (s : TaskQueues Object V E) (tasks : List BFTask) :
    s.Grown (s.taskForCompletionOfAllTasks tasks).2 := by
  rw [TaskQueues.taskForCompletionOfAllTasks]
  split
  · exact .refl s
  · refine ⟨Heap.executed_continueAll .., fun _ => Heap.value_continueAll .., _, rfl, ?_⟩
    intro call hcall
    rw [List.mem_singleton.mp hcall]
    exact ⟨rfl, rfl⟩

theorem grown_startOperation (s : TaskQueues Object V E) (objects : List Object)
    (toAwait : BFTask) : s.Grown (s.startOperation objects toAwait).2 :=
  ⟨Heap.executed_continueWith .., fun _ => Heap.value_continueWith .., [],
    (List.append_nil _).symm, fun _ h => absurd h (by simp)⟩

theorem grown_continueReady (s : TaskQueues Object V E) (n : Nat) (task : BFTask) :
    s.Grown (s.continueReady n task) :=
  ⟨Heap.executed_continueWith .., fun _ => Heap.value_continueWith .., [],
    (List.append_nil _).symm, fun _ h => absurd h (by simp)⟩

variable [DecidableEq Object]

/-- The queues grow by what the task start adds. -/
theorem grown_enqueue (s : TaskQueues Object V E) (x : Object)
    (taskStart : BFTask → TaskQueues Object V E → BFTask × TaskQueues Object V E)
    (h : s.Grown (taskStart (s.oldTail x) s).2) : s.Grown (s.enqueue x taskStart).2 := by
  have hall := grown_all (taskStart (s.oldTail x) s).2
    [s.oldTail x, (taskStart (s.oldTail x) s).1]
  exact h.trans ⟨hall.executed, hall.value, hall.calls⟩

theorem grown_children (fullTask : BFTask) (objects : List Object) :
    ∀ acc : List BFTask × TaskQueues Object V E,
      acc.2.Grown (objects.foldl (TaskQueues.enqueueChild fullTask) acc).2 := by
  induction objects with
  | nil => exact fun acc => .refl acc.2
  | cons x objects ih =>
      intro acc
      exact (grown_enqueue acc.2 x (fun _ s => (fullTask, s)) (.refl acc.2)).trans
        (ih (TaskQueues.enqueueChild fullTask acc x))

/-- An operation on several objects only adds waits and operations. -/
theorem grown_enqueueForObjects (s : TaskQueues Object V E) (objects : List Object) :
    s.Grown (s.enqueueForObjects objects) := by
  set n := s.operations.length
  set u := (s.startOperation objects (.readyToStart n)).2
  set acc := objects.foldl (TaskQueues.enqueueChild (.operation n)) ([], u) with hacc
  have hchildren : u.Grown acc.2 := grown_children (.operation n) objects ([], u)
  exact (grown_startOperation s objects (.readyToStart n)).trans (hchildren.trans
    ((grown_all acc.2 acc.1).trans (grown_continueReady _ n _)))

omit [DecidableEq Object] in
/-- New calls have recorded nothing, and nothing has been executed for them. -/
theorem TaskQueues.Recorded.grow (h : s.Recorded) (hs : s.Sound) (hgrown : s.Grown t) :
    t.Recorded := by
  obtain ⟨new, hnew, hfresh⟩ := hgrown.calls
  have hcases : ∀ i call, t.calls[i]? = some call → s.calls[i]? = some call
      ∨ (call.errors = [] ∧ call.cancelled = 0) ∧ ∀ b, (b, Block.all i) ∉ s.heap.executed := by
    intro i call hcall
    rw [hnew] at hcall
    rcases Nat.lt_or_ge i s.calls.length with hlt | hge
    · rw [List.getElem?_append_left hlt] at hcall
      exact Or.inl hcall
    · rw [List.getElem?_append_right hge] at hcall
      refine Or.inr ⟨hfresh call (List.mem_of_getElem? hcall), fun b hb => ?_⟩
      have hdep := hs.mem_deps (k := .all i) rfl
        (hs.conserved.executed_subperm.subset hb)
      have hnil : s.deps (.all i) = [] := by
        show (s.calls[i]?).elim [] _ = _
        rw [List.getElem?_eq_none_iff.mpr hge]
        rfl
      rw [show Block.task (.all i) = .all i from rfl, hnil] at hdep
      exact absurd hdep (by simp)
  constructor
  · intro i call hcall
    simp only [hgrown.executed, TaskQueues.Failed, hgrown.value]
    rcases hcases i call hcall with hold | ⟨⟨herrors, -⟩, hnone⟩
    · exact h.errors i call hold
    · exact ⟨fun hne => absurd herrors hne, fun ⟨b, hb, _⟩ => absurd hb (hnone b)⟩
  · intro i call hcall
    simp only [hgrown.executed, TaskQueues.Cancelled, hgrown.value]
    rcases hcases i call hcall with hold | ⟨⟨-, hcancelled⟩, hnone⟩
    · exact h.cancelled i call hold
    · exact ⟨fun hpos => absurd hcancelled hpos.ne', fun ⟨b, hb, _⟩ => absurd hb (hnone b)⟩

omit [DecidableEq Object] in
/-- Other blocks are executed, and other tasks complete. -/
theorem TaskQueues.Recorded.other (h : s.Recorded) (hs : s.Sound) (hcalls : t.calls = s.calls)
    (hexecuted : ∀ b i, (b, Block.all i) ∈ t.heap.executed ↔ (b, Block.all i) ∈ s.heap.executed)
    (hvalue : ∀ b, s.Completed b → t.heap.value b = s.heap.value b) : t.Recorded := by
  have hsame : ∀ b i, (b, Block.all i) ∈ s.heap.executed → t.heap.value b = s.heap.value b :=
    fun b i hb => hvalue b (hs.conserved.fired _ (Or.inr hb))
  constructor
  · intro i call hcall
    rw [hcalls] at hcall
    rw [h.errors i call hcall]
    refine exists_congr fun b => ?_
    rw [hexecuted]
    refine and_congr_right fun hb => ?_
    rw [TaskQueues.Failed, TaskQueues.Failed, hsame b i hb]
  · intro i call hcall
    rw [hcalls] at hcall
    rw [h.cancelled i call hcall]
    refine exists_congr fun b => ?_
    rw [hexecuted]
    refine and_congr_right fun hb => ?_
    rw [TaskQueues.Cancelled, TaskQueues.Cancelled, hsame b i hb]

/-- The errors of a wait after one more outcome. -/
theorem record_errors (call : AllTasks E) (o : Outcome V E) :
    (call.record o).errors ≠ [] ↔ call.errors ≠ [] ∨ ∃ e, o = .error e := by
  cases o with
  | error e => simp [AllTasks.record]
  | result v => simp [AllTasks.record]
  | cancelled => simp [AllTasks.record]

/-- What was cancelled after one more outcome. -/
theorem record_cancelled (call : AllTasks E) (o : Outcome V E) :
    0 < (call.record o).cancelled ↔ 0 < call.cancelled ∨ o = .cancelled := by
  cases o with
  | error e => simp [AllTasks.record]
  | result v => simp [AllTasks.record]
  | cancelled => simp [AllTasks.record]

omit [DecidableEq Object] in
/-- A block of a call counts the task it was executed for. -/
theorem TaskQueues.Recorded.runAll (h : s.Recorded) (hs : s.Sound) {k i : Nat} {task : BFTask}
    {o : Outcome V E} {heap : Heap BFTask (Outcome V E) Block}
    (ht : s.heap.take k = some ((task, .all i), heap)) (ho : heap.value task = some o) :
    (TaskQueues.runAll { s with heap := heap } i o).Recorded := by
  obtain ⟨-, -, -, -, hexecuted⟩ := Heap.take_cases ht
  have hvalue : ∀ b, heap.value b = s.heap.value b := Heap.value_take ht
  obtain ⟨call, hcall, hpos⟩ := hs.call_of_taken ht
  have hopen : s.heap.value (.all i) = none := by
    rw [hs.all, hcall, Option.bind_some, if_neg (by omega)]
  obtain ⟨-, -, hcalls, -, -, -, hexec, hval⟩ :=
    TaskQueues.Sound.runAll_spec (s := { s with heap := heap }) (o := o) hcall
      ((hvalue _).trans hopen) (hs.conserved.take ht)
  set u := TaskQueues.runAll { s with heap := heap } i o
  replace hexec := hexec.trans hexecuted
  have hsame : ∀ b, s.Completed b → u.heap.value b = s.heap.value b := by
    intro b hb
    rw [hval, if_neg, hvalue]
    rintro ⟨rfl, -⟩
    rw [TaskQueues.Completed, hopen] at hb
    exact absurd hb (by simp)
  have htask : u.heap.value task = some o := by
    rw [hsame task (hs.taken ht).2, ← hvalue, ho]
  have hfired : ∀ b j, (b, Block.all j) ∈ s.heap.executed → u.heap.value b = s.heap.value b :=
    fun b j hb => hsame b (hs.conserved.fired _ (Or.inr hb))
  -- what has been executed for a call, with a property of how the task completed
  have hexists : ∀ (j : Nat) (P : Option (Outcome V E) → Prop),
      (∃ b, (b, Block.all j) ∈ u.heap.executed ∧ P (u.heap.value b))
        ↔ (∃ b, (b, Block.all j) ∈ s.heap.executed ∧ P (s.heap.value b))
          ∨ j = i ∧ P (some o) := by
    intro j P
    rw [hexec]
    constructor
    · rintro ⟨b, hb, hP⟩
      rcases List.mem_append.mp hb with hb | hb
      · rw [hfired b j hb] at hP
        exact Or.inl ⟨b, hb, hP⟩
      · obtain ⟨rfl, heq⟩ := Prod.mk.inj (List.mem_singleton.mp hb)
        rw [htask] at hP
        exact Or.inr ⟨Block.all.inj heq, hP⟩
    · rintro (⟨b, hb, hP⟩ | ⟨rfl, hP⟩)
      · refine ⟨b, List.mem_append_left _ hb, ?_⟩
        rw [hfired b j hb]
        exact hP
      · refine ⟨task, List.mem_append_right _ (List.mem_singleton_self _), ?_⟩
        rw [htask]
        exact hP
  constructor
  · intro j call' hcall'
    rw [hcalls, TaskQueues.Sound.getElem?_record o hcall] at hcall'
    refine Iff.trans ?_ (hexists j fun v => ∃ e, v = some (.error e)).symm
    by_cases hj : j = i
    · rw [if_pos hj] at hcall'
      obtain rfl := Option.some.inj hcall'
      rw [record_errors, h.errors i call hcall, hj]
      simp [TaskQueues.Failed]
    · rw [if_neg hj] at hcall'
      rw [h.errors j call' hcall']
      simp [hj, TaskQueues.Failed]
  · intro j call' hcall'
    rw [hcalls, TaskQueues.Sound.getElem?_record o hcall] at hcall'
    refine Iff.trans ?_ (hexists j fun v => v = some .cancelled).symm
    by_cases hj : j = i
    · rw [if_pos hj] at hcall'
      obtain rfl := Option.some.inj hcall'
      rw [record_cancelled, h.cancelled i call hcall, hj]
      simp [TaskQueues.Cancelled]
    · rw [if_neg hj] at hcall'
      rw [h.cancelled j call' hcall']
      simp [hj, TaskQueues.Cancelled]

omit [DecidableEq Object] in
/-- Completing a task leaves what was recorded. -/
theorem TaskQueues.Recorded.set (h : s.Recorded) (hs : s.Sound)
    {heap : Heap BFTask (Outcome V E) Block} {b : BFTask} {o : Outcome V E}
    (hexecuted : ∀ b i, (b, Block.all i) ∈ heap.executed ↔ (b, Block.all i) ∈ s.heap.executed)
    (hvalue : ∀ b, heap.value b = s.heap.value b) :
    (TaskQueues.set { s with heap := heap } b o).Recorded := by
  obtain ⟨hcalls, -, -⟩ := frame_set { s with heap := heap } b o
  obtain ⟨-, hexec⟩ := blocks_set { s with heap := heap } b o
  refine h.other hs hcalls (fun c i => by rw [hexec]; exact hexecuted c i) fun c hc => ?_
  rw [TaskQueues.Completed, ← hvalue] at hc
  rw [← hvalue, TaskQueues.set]
  cases hb : heap.value b with
  | some v => rfl
  | none =>
      obtain ⟨w, hw⟩ := Option.isSome_iff_exists.mp hc
      exact (Heap.value_trySet_some heap hw).trans hw.symm

/-- **A STEP KEEPS THE COUNTS**: every wait has counted just the tasks it ran for. -/
theorem recorded_step (h : s.Recorded) (hs : s.Sound) {e : QueueEvent Object V E}
    (ht : s.step e = some t) : t.Recorded := by
  have hother : ∀ {k : Nat} {p : BFTask × Block} {heap : Heap BFTask (Outcome V E) Block},
      s.heap.take k = some (p, heap) → (∀ i, p.2 ≠ .all i) → ∀ b i,
        ((b, Block.all i) ∈ heap.executed ↔ (b, Block.all i) ∈ s.heap.executed) := by
    intro k p heap htake hp b i
    obtain ⟨-, -, -, -, hexec⟩ := Heap.take_cases htake
    rw [hexec, List.mem_append, List.mem_singleton]
    refine or_iff_left ?_
    rintro rfl
    exact hp i rfl
  cases e with
  | enqueue x =>
      obtain rfl := Option.some.inj ht
      exact h.grow hs (grown_enqueue s x _ (grown_startOperation s [x] (s.oldTail x)))
  | enqueueForObjects objects =>
      obtain rfl := Option.some.inj ht
      exact h.grow hs (grown_enqueueForObjects s objects)
  | execute k =>
      simp only [TaskQueues.step] at ht
      split at ht
      · rename_i task block heap htake
        split at ht
        · rename_i i o ho
          obtain rfl := Option.some.inj ht
          exact h.runAll hs htake ho
        · obtain rfl := Option.some.inj ht
          exact h.set hs (hother htake fun i => by simp) (Heap.value_take htake)
        · obtain rfl := Option.some.inj ht
          exact h.set hs (hother htake fun i => by simp) (Heap.value_take htake)
        · exact absurd ht (by simp)
      · exact absurd ht (by simp)
  | start k reply =>
      simp only [TaskQueues.step] at ht
      split at ht
      · rename_i task n heap htake
        obtain rfl := Option.some.inj ht
        cases reply with
        | some o => exact h.set hs (hother htake fun i => by simp) (Heap.value_take htake)
        | none =>
            refine h.other hs rfl (fun b i => ?_) fun b _ => ?_
            · rw [← hother htake (fun i => by simp) b i]
              exact iff_of_eq (congrArg _ (Heap.executed_continueWith ..))
            · exact (Heap.value_continueWith ..).trans (Heap.value_take htake b)
      · exact absurd ht (by simp)
  | finish n o =>
      obtain ⟨-, ht⟩ := Option.ite_none_right_eq_some.mp ht
      obtain rfl := Option.some.inj ht
      exact h.set hs (fun _ _ => Iff.rfl) fun _ => rfl

/-- So does every run from the empty queues. -/
theorem recorded_run {es : List (QueueEvent Object V E)}
    (ht : run TaskQueues.step .empty es = some t) : t.Recorded := by
  have hinv : t.Sound ∧ t.Recorded :=
    run_inv (fun _ s => TaskQueues.Sound s ∧ TaskQueues.Recorded s)
      ⟨.empty, recorded_empty⟩
      (fun _ _ _ _ _ hs hu => ⟨hs.1.step hu, recorded_step hs.2 hs.1 hu⟩) ht
  exact hinv.2

omit [DecidableEq Object] in
/-- The tail that a call makes fails when one of its two tasks has. -/
theorem TaskQueues.Recorded.tail (h : s.Recorded) (hs : s.Sound) {i : Nat}
    (hi : s.Completed (.all i)) :
    (s.Failed (.all i) ↔ ∃ d ∈ s.deps (.all i), s.Failed d)
      ∧ (s.Cancelled (.all i) ↔ (¬∃ d ∈ s.deps (.all i), s.Failed d)
        ∧ ∃ d ∈ s.deps (.all i), s.Cancelled d) := by
  rw [TaskQueues.Completed, hs.all] at hi
  cases hcall : s.calls[i]? with
  | none =>
      rw [hcall] at hi
      exact absurd hi (by simp)
  | some call =>
      rw [hcall, Option.bind_some] at hi
      have hzero : call.total = 0 := by
        by_contra hne
        rw [if_neg hne] at hi
        exact absurd hi (by simp)
      have hvalue : s.heap.value (.all i) = some call.outcome := by
        rw [hs.all, hcall, Option.bind_some, if_pos hzero]
      -- all the tasks of the call have been counted
      have hdeps : ∀ d, (d, Block.all i) ∈ s.heap.executed ↔ d ∈ s.deps (.all i) := by
        intro d
        obtain ⟨-, htotal⟩ := hs.total i call hcall
        have hlen : (callsOf (.all i) s.heap.registered).length
            ≤ (callsOf (.all i) s.heap.executed).length := by
          rw [hs.waits (.all i) rfl, List.length_map,
            show s.deps (Block.task (.all i)) = call.tasks by
              show (s.calls[i]?).elim [] _ = _
              rw [hcall]
              rfl]
          omega
        have hperm := (hs.conserved.calls_subperm (.all i)).perm_of_length_le hlen
        have hmem : (d, Block.all i) ∈ s.heap.executed
            ↔ (d, Block.all i) ∈ callsOf (.all i) s.heap.executed := by
          simp [mem_callsOf]
        rw [hmem, hperm.mem_iff, hs.waits (.all i) rfl]
        constructor
        · intro hd
          obtain ⟨d', hd', heq⟩ := List.mem_map.mp hd
          rwa [(Prod.mk.inj heq).1] at hd'
        · exact fun hd => List.mem_map_of_mem hd
      have herrors := h.errors i call hcall
      have hcancelled := h.cancelled i call hcall
      simp only [hdeps] at herrors hcancelled
      constructor
      · rw [TaskQueues.Failed, hvalue, ← herrors, ← outcome_failed (V := V)]
        simp only [Option.some.injEq]
      · rw [TaskQueues.Cancelled, hvalue, ← herrors, ← hcancelled, Option.some.injEq,
          outcome_cancelled, not_not]

omit [DecidableEq Object] in
/-- A tail fails when an operation before it did, and is cancelled when none failed
    and one was cancelled. -/
theorem TailOf.outcome (h : s.Recorded) (hs : s.Sound) {ns : List Nat} {b : BFTask}
    (htail : TailOf s.deps ns b) (hb : s.Completed b) :
    (s.Failed b ↔ ∃ n ∈ ns, s.Failed (.operation n))
      ∧ (s.Cancelled b ↔ (¬∃ n ∈ ns, s.Failed (.operation n))
        ∧ ∃ n ∈ ns, s.Cancelled (.operation n)) := by
  induction htail with
  | nil =>
      simp only [TaskQueues.Failed, TaskQueues.Cancelled, hs.completed]
      simp
  | @snoc ns b n i before tail ih =>
      have hbefore : s.Completed b := hs.deps_completed hb b (by simp [tail])
      obtain ⟨hfailed, hcancelled⟩ := h.tail hs hb
      obtain ⟨ihf, ihc⟩ := ih hbefore
      rw [hcancelled, hfailed, tail]
      simp only [List.mem_cons, List.not_mem_nil, or_false, exists_eq_left, List.mem_append,
        or_and_right, exists_or, ihf, ihc, not_or]
      constructor
      · trivial
      · constructor
        · rintro ⟨⟨hno, hno'⟩, ⟨-, hc⟩ | hc⟩
          · exact ⟨⟨hno, hno'⟩, Or.inl hc⟩
          · exact ⟨⟨hno, hno'⟩, Or.inr hc⟩
        · rintro ⟨⟨hno, hno'⟩, hc | hc⟩
          · exact ⟨⟨hno, hno'⟩, Or.inl ⟨hno, hc⟩⟩
          · exact ⟨⟨hno, hno'⟩, Or.inr hc⟩

/-- **A FAILURE STAYS**: the tail of a queue, once completed, has failed exactly
    when one of the operations of the queue has, and it is cancelled exactly
    when none has failed and one was cancelled. -/
theorem tail_failed_iff {es : List (QueueEvent Object V E)}
    (ht : run TaskQueues.step .empty es = some t) {x : Object} (hx : t.Completed (t.oldTail x)) :
    (t.Failed (t.oldTail x) ↔ ∃ n ∈ t.queued x, t.Failed (.operation n))
      ∧ (t.Cancelled (t.oldTail x) ↔ (¬∃ n ∈ t.queued x, t.Failed (.operation n))
        ∧ ∃ n ∈ t.queued x, t.Cancelled (.operation n)) :=
  ((shaped_run ht).tails x).outcome (recorded_run ht) (sound_of_run ht) hx

theorem tail_failed_shared :
    ∃ t : TaskQueues Nat Nat Nat, run TaskQueues.step .empty sharedRun = some t
      ∧ ∃ n ∈ t.queued 1, t.Failed (.operation n) := by
  obtain ⟨t, ht, hx, hfailed⟩ : ∃ t : TaskQueues Nat Nat Nat,
      run TaskQueues.step .empty sharedRun = some t
      ∧ t.Completed (t.oldTail 1) ∧ t.heap.value (t.oldTail 1) = some (.error (.error 7)) :=
    ⟨_, rfl, rfl, rfl⟩
  exact ⟨t, ht, (tail_failed_iff ht hx).1.mp ⟨_, hfailed⟩⟩

end Outcomes

end ParseSDK

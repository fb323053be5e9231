import FPApp.TaskRunProofs

/-! # The order of the operations on an object

    What has been enqueued on an object is a chain: the tail of its queue waits
    for the last operation and for the tail before it.  An operation on several
    objects waits for the tails of all of them.

    * `operations_in_order` — an operation begins after every operation that
      was enqueued before it on one of its objects has ended;
    * `operation_ends_iff` — once nothing is left to execute, the operations
      that have ended are those that do not wait for an operation with the
      same object twice;
    * `completed_once` — no task is completed a second time, and no operation
      begins a second time. -/

namespace ParseSDK

open EventRun Promise

/-! ## Chains of tails -/

section Chains

variable {Object : Type} [DecidableEq Object]

/-- The operations in the queue of an object, given the objects of all
    operations. -/
def onQueue (objects : List (List Object)) (x : Object) : List Nat :=
  objects.zipIdx.flatMap fun p => List.replicate (p.1.count x) p.2

@[simp] theorem onQueue_concat (l : List (List Object)) (xs : List Object) (x : Object) :
    onQueue (l ++ [xs]) x = onQueue l x ++ List.replicate (xs.count x) l.length := by
  simp [onQueue, List.zipIdx_append]

theorem mem_onQueue {l : List (List Object)} {x : Object} {n : Nat} :
    n ∈ onQueue l x ↔ ∃ xs, l[n]? = some xs ∧ x ∈ xs := by
  simp only [onQueue, List.mem_flatMap, List.mem_replicate, Prod.exists,
    List.mem_zipIdx_iff_getElem?]
  constructor
  · rintro ⟨xs, m, hm, hcount, rfl⟩
    exact ⟨xs, hm, List.count_pos_iff.mp (Nat.pos_of_ne_zero hcount)⟩
  · rintro ⟨xs, hn, hx⟩
    exact ⟨xs, n, hn, (List.count_pos_iff.mpr hx).ne', rfl⟩

/-- A task is the tail of a queue in which the operations have been enqueued. -/
inductive TailOf (deps : BFTask → List BFTask) : List Nat → BFTask → Prop where
  | nil : TailOf deps [] .completed
  | snoc {ns : List Nat} {t : BFTask} {n i : Nat} (before : TailOf deps ns t)
      (tail : deps (.all i) = [t, .operation n]) : TailOf deps (ns ++ [n]) (.all i)

/-- The tails that an operation with these objects gets to wait for, when
    `before` has been enqueued. -/
inductive ChildrenOf (deps : BFTask → List BFTask) (before : Object → List Nat) (n : Nat) :
    List Object → List BFTask → Prop where
  | nil : ChildrenOf deps before n [] []
  | snoc {xs : List Object} {ts : List BFTask} {x : Object} {t : BFTask}
      (children : ChildrenOf deps before n xs ts)
      (tail : TailOf deps (before x ++ List.replicate (xs.count x) n) t) :
      ChildrenOf deps before n (xs ++ [x]) (ts ++ [t])

/-- The calls made so far keep their tasks. -/
def Extends (deps deps' : BFTask → List BFTask) : Prop :=
  ∀ i, deps (.all i) ≠ [] → deps' (.all i) = deps (.all i)

theorem Extends.trans {deps deps' deps'' : BFTask → List BFTask} (h : Extends deps deps')
    (h' : Extends deps' deps'') : Extends deps deps'' := by
  intro i hi
  rw [h' i (by rw [h i hi]; exact hi), h i hi]

variable {deps deps' : BFTask → List BFTask} {before : Object → List Nat}

theorem TailOf.mono (hext : Extends deps deps') {ns : List Nat} {t : BFTask}
    (h : TailOf deps ns t) : TailOf deps' ns t := by
  induction h with
  | nil => exact .nil
  | snoc _ tail ih => exact .snoc ih ((hext _ (by simp [tail])).trans tail)

theorem ChildrenOf.mono (hext : Extends deps deps') {n : Nat} {xs : List Object}
    {ts : List BFTask} (h : ChildrenOf deps before n xs ts) : ChildrenOf deps' before n xs ts := by
  induction h with
  | nil => exact .nil
  | snoc _ tail ih => exact .snoc ih (tail.mono hext)

/-- The tail waits for every operation of the queue. -/
theorem TailOf.waits {ns : List Nat} {t : BFTask} (h : TailOf deps ns t) :
    ∀ n ∈ ns, Relation.TransGen (Waits deps) (.operation n) t := by
  induction h with
  | nil => exact fun n hn => absurd hn (by simp)
  | snoc _ tail ih =>
      intro n hn
      rcases List.mem_append.mp hn with hn | hn
      · exact (ih n hn).tail (by simp [Waits, tail])
      · obtain rfl := List.mem_singleton.mp hn
        exact .single (by simp [Waits, tail])

/-- Every object of an operation has its tail among those it waits for. -/
theorem ChildrenOf.exists_tail {n : Nat} {xs : List Object} {ts : List BFTask}
    (h : ChildrenOf deps before n xs ts) :
    ∀ x ∈ xs, ∃ t ∈ ts, ∃ ns, TailOf deps ns t ∧ ∀ m ∈ before x, m ∈ ns := by
  induction h with
  | nil => exact fun x hx => absurd hx (by simp)
  | snoc _ tail ih =>
      intro x hx
      rcases List.mem_append.mp hx with hx | hx
      · obtain ⟨t, ht, ns, htail, hmem⟩ := ih x hx
        exact ⟨t, List.mem_append_left _ ht, ns, htail, hmem⟩
      · obtain rfl := List.mem_singleton.mp hx
        exact ⟨_, List.mem_append_right _ (List.mem_singleton_self _), _, tail,
          fun m hm => List.mem_append_left _ hm⟩

/-- An operation with an object twice waits for itself. -/
theorem ChildrenOf.exists_self {n : Nat} {xs : List Object} {ts : List BFTask}
    (h : ChildrenOf deps before n xs ts) (hdup : ¬xs.Nodup) :
    ∃ t ∈ ts, ∃ ns, TailOf deps ns t ∧ n ∈ ns := by
  induction h with
  | nil => exact absurd List.nodup_nil hdup
  | @snoc xs ts x t _ tail ih =>
      by_cases hxs : xs.Nodup
      · have hx : x ∈ xs := by
          by_contra hx
          exact hdup (List.nodup_append.mpr ⟨hxs, by simp, fun a ha b hb => by
            rw [List.mem_singleton.mp hb]
            rintro rfl
            exact hx ha⟩)
        refine ⟨t, List.mem_append_right _ (List.mem_singleton_self t), _, tail, ?_⟩
        have hcount := (List.count_pos_iff.mpr hx).ne'
        exact List.mem_append_right _ (List.mem_replicate.mpr ⟨hcount, rfl⟩)
      · obtain ⟨t', ht', ns, htail, hn⟩ := ih hxs
        exact ⟨t', List.mem_append_left _ ht', ns, htail, hn⟩

/-- Without an object twice it waits for what was enqueued before. -/
theorem ChildrenOf.tail_of_nodup {n : Nat} {xs : List Object} {ts : List BFTask}
    (h : ChildrenOf deps before n xs ts) (hnodup : xs.Nodup) :
    ∀ t ∈ ts, ∃ x ∈ xs, TailOf deps (before x) t := by
  induction h with
  | nil => exact fun t ht => absurd ht (by simp)
  | @snoc xs ts x t _ tail ih =>
      obtain ⟨hxs, -, hdisj⟩ := List.nodup_append.mp hnodup
      have hx : x ∉ xs := fun hx => hdisj x hx x (List.mem_singleton_self x) rfl
      intro t' ht'
      rcases List.mem_append.mp ht' with ht' | ht'
      · obtain ⟨y, hy, htail⟩ := ih hxs t' ht'
        exact ⟨y, List.mem_append_left _ hy, htail⟩
      · obtain rfl := List.mem_singleton.mp ht'
        rw [List.count_eq_zero_of_not_mem hx, List.replicate_zero, List.append_nil] at tail
        exact ⟨x, List.mem_append_right _ (List.mem_singleton_self x), tail⟩

end Chains

/-! ## The shape of the queues -/

section Shape

variable {Object V E : Type} [DecidableEq Object] {s t : TaskQueues Object V E}

/-- What an operation waits for. -/
inductive Operation.Awaits (deps : BFTask → List BFTask) (before : Object → List Nat) (n : Nat)
    (op : Operation Object) : Prop where
  | one (x : Object) (objects : op.objects = [x]) (tail : TailOf deps (before x) op.toAwait)
  | several (children : List BFTask) (task : BFTask) (toAwait : op.toAwait = .readyToStart n)
      (ready : op.ready = some task)
      (all : task = .completed ∧ children = []
        ∨ ∃ i, task = .all i ∧ deps (.all i) = children ∧ children ≠ [])
      (children_of : ChildrenOf deps before n op.objects children)

theorem Operation.Awaits.mono {deps deps' : BFTask → List BFTask} {before : Object → List Nat}
    {n : Nat} {op : Operation Object} (hext : Extends deps deps') (h : op.Awaits deps before n) :
    op.Awaits deps' before n := by
  cases h with
  | one x objects tail => exact .one x objects (tail.mono hext)
  | several children task toAwait ready all children_of =>
      refine .several children task toAwait ready ?_ (children_of.mono hext)
      rcases all with hnil | ⟨i, htask, hdeps, hne⟩
      · exact Or.inl hnil
      · exact Or.inr ⟨i, htask, (hext i (by rw [hdeps]; exact hne)).trans hdeps, hne⟩

/-- What has been enqueued on an object. -/
def TaskQueues.queued (s : TaskQueues Object V E) (x : Object) : List Nat :=
  onQueue (s.operations.map (·.objects)) x

/-- What had been enqueued on an object before the operation. -/
def TaskQueues.queuedBefore (s : TaskQueues Object V E) (n : Nat) (x : Object) : List Nat :=
  onQueue ((s.operations.take n).map (·.objects)) x

/-- The tails of the queues, and what the operations wait for. -/
structure TaskQueues.Shaped (s : TaskQueues Object V E) : Prop where
  tails : ∀ x, TailOf s.deps (s.queued x) (s.oldTail x)
  operations : ∀ (n : Nat) (op : Operation Object), s.operations[n]? = some op →
    op.Awaits s.deps (s.queuedBefore n) n

theorem mem_queuedBefore {n m : Nat} {x : Object} :
    m ∈ s.queuedBefore n x ↔ m < n ∧ ∃ op, s.operations[m]? = some op ∧ x ∈ op.objects := by
  rw [TaskQueues.queuedBefore, mem_onQueue]
  constructor
  · rintro ⟨xs, hxs, hx⟩
    rw [List.getElem?_map, List.getElem?_take, Option.map_eq_some_iff] at hxs
    obtain ⟨op, hop, rfl⟩ := hxs
    split at hop
    · exact ⟨‹m < n›, op, hop, hx⟩
    · exact absurd hop (by simp)
  · rintro ⟨hlt, op, hop, hx⟩
    refine ⟨op.objects, ?_, hx⟩
    rw [List.getElem?_map, List.getElem?_take, if_pos hlt, hop]
    rfl

namespace TaskQueues

omit [DecidableEq Object] in
theorem all_new (s : TaskQueues Object V E) : s.deps (.all s.calls.length) = [] := by
  show (s.calls[s.calls.length]?).elim [] _ = _
  rw [List.getElem?_eq_none_iff.mpr le_rfl]
  rfl

omit [DecidableEq Object] in
/-- A call of `taskForCompletionOfAllTasks:` with some tasks. -/
theorem all_spec (s : TaskQueues Object V E) {tasks : List BFTask} (hne : tasks ≠ []) :
    (s.taskForCompletionOfAllTasks tasks).1 = .all s.calls.length
      ∧ (s.taskForCompletionOfAllTasks tasks).2.operations = s.operations
      ∧ (s.taskForCompletionOfAllTasks tasks).2.tail = s.tail
      ∧ (s.taskForCompletionOfAllTasks tasks).2.deps (.all s.calls.length) = tasks
      ∧ Extends s.deps (s.taskForCompletionOfAllTasks tasks).2.deps := by
  have hempty : ¬tasks.isEmpty := by simpa using hne
  rw [TaskQueues.taskForCompletionOfAllTasks, if_neg hempty]
  refine ⟨rfl, rfl, rfl, ?_, fun i hi => ?_⟩
  · show ((s.calls ++ [_])[s.calls.length]?).elim [] _ = _
    rw [List.getElem?_concat_length]
    rfl
  · show ((s.calls ++ [_])[i]?).elim [] _ = (s.calls[i]?).elim [] _
    rw [getElem?_concat, if_neg]
    rintro rfl
    exact hi s.all_new

/-- One more operation in the queue of `x`. -/
theorem enqueue_spec (s : TaskQueues Object V E) (x : Object) {u : TaskQueues Object V E}
    {task : BFTask} (taskStart : BFTask → TaskQueues Object V E → BFTask × TaskQueues Object V E)
    (hu : taskStart (s.oldTail x) s = (task, u)) (htail : u.tail = s.tail) :
    (s.enqueue x taskStart).2.operations = u.operations
      ∧ Extends u.deps (s.enqueue x taskStart).2.deps
      ∧ (∃ i, (s.enqueue x taskStart).2.oldTail x = .all i
        ∧ (s.enqueue x taskStart).2.deps (.all i) = [s.oldTail x, task])
      ∧ ∀ y, y ≠ x → (s.enqueue x taskStart).2.oldTail y = s.oldTail y := by
  obtain ⟨hfst, hops, htails, hdeps, hext⟩ :=
    u.all_spec (show [s.oldTail x, task] ≠ [] from (by simp))
  have heq : (s.enqueue x taskStart).2
      = { (u.taskForCompletionOfAllTasks [s.oldTail x, task]).2 with
          tail := Function.update (u.taskForCompletionOfAllTasks [s.oldTail x, task]).2.tail x
            (some (u.taskForCompletionOfAllTasks [s.oldTail x, task]).1) } := by
    rw [TaskQueues.enqueue, hu]
  rw [heq]
  refine ⟨hops, hext, ⟨u.calls.length, ?_, hdeps⟩, fun y hy => ?_⟩
  · show ((Function.update _ x _ : Object → Option BFTask) x).getD _ = _
    rw [Function.update_self, hfst]
    rfl
  · show ((Function.update _ x _ : Object → Option BFTask) y).getD _ = _
    rw [Function.update_of_ne hy, htails, htail]
    rfl

end TaskQueues

theorem shaped_empty : (TaskQueues.empty : TaskQueues Object V E).Shaped where
  tails := fun _ => .nil
  operations := fun _ _ h => absurd h (by simp [TaskQueues.empty])

/-- The operations that were there keep what they wait for. -/
theorem TaskQueues.Shaped.operations_mono (h : s.Shaped) (hext : Extends s.deps t.deps)
    {n : Nat} {op : Operation Object} (hn : n < s.operations.length)
    (hops : t.operations.take s.operations.length = s.operations)
    (hop : t.operations[n]? = some op) : op.Awaits t.deps (t.queuedBefore n) n := by
  have hold : s.operations[n]? = some op := by
    rw [← hops, List.getElem?_take, if_pos hn]
    exact hop
  have hbefore : t.queuedBefore n = s.queuedBefore n := by
    funext x
    rw [TaskQueues.queuedBefore, TaskQueues.queuedBefore, ← hops, List.take_take,
      Nat.min_eq_left hn.le]
  rw [hbefore]
  exact (h.operations n op hold).mono hext

/-- A new operation, after those that were there. -/
theorem TaskQueues.Shaped.operations_concat (h : s.Shaped) {last : Operation Object}
    (hext : Extends s.deps t.deps) (hops : t.operations = s.operations ++ [last])
    (hlast : last.Awaits t.deps s.queued s.operations.length) (n : Nat) (op : Operation Object)
    (hop : t.operations[n]? = some op) : op.Awaits t.deps (t.queuedBefore n) n := by
  rcases Nat.lt_trichotomy n s.operations.length with hlt | rfl | hgt
  · exact h.operations_mono hext hlt (by rw [hops, List.take_left]) hop
  · rw [hops, List.getElem?_concat_length] at hop
    obtain rfl := Option.some.inj hop
    have hbefore : t.queuedBefore s.operations.length = s.queued := by
      funext x
      rw [TaskQueues.queuedBefore, hops, List.take_left]
      rfl
    rw [hbefore]
    exact hlast
  · rw [hops, List.getElem?_eq_none_iff.mpr (by simp; omega)] at hop
    exact absurd hop (by simp)

theorem queued_concat {last : Operation Object} (hops : t.operations = s.operations ++ [last])
    (x : Object) :
    t.queued x = s.queued x ++ List.replicate (last.objects.count x) s.operations.length := by
  rw [TaskQueues.queued, hops, List.map_append, List.map_singleton, onQueue_concat,
    List.length_map]
  rfl

theorem shaped_enqueueOperation (h : s.Shaped) (x : Object) : (s.enqueueOperation x).Shaped := by
  obtain ⟨hops, hext, ⟨i, htail, hdeps⟩, hother⟩ :=
    s.enqueue_spec x (fun toAwait s => s.startOperation [x] toAwait) rfl rfl
  change (s.enqueueOperation x).operations = s.operations ++ [⟨[x], s.oldTail x, none⟩] at hops
  change Extends s.deps (s.enqueueOperation x).deps at hext
  change (s.enqueueOperation x).oldTail x = .all i at htail
  change ∀ y, y ≠ x → (s.enqueueOperation x).oldTail y = s.oldTail y at hother
  refine ⟨fun y => ?_, h.operations_concat hext hops (.one x rfl ((h.tails x).mono hext))⟩
  rw [queued_concat hops]
  by_cases hy : y = x
  · subst hy
    rw [List.count_singleton_self, htail]
    exact .snoc ((h.tails y).mono hext) hdeps
  · rw [List.count_singleton, if_neg (by simpa using Ne.symm hy), List.replicate_zero,
      List.append_nil, hother y hy]
    exact (h.tails y).mono hext

/-- `fullTask` enters the queues of the objects one after the other. -/
theorem children_spec (u : TaskQueues Object V E) (n : Nat) (before : Object → List Nat)
    (xs : List Object) : ∀ (acc : List BFTask × TaskQueues Object V E) (ys : List Object),
    acc.2.operations = u.operations → Extends u.deps acc.2.deps →
    ChildrenOf acc.2.deps before n ys acc.1 →
    (∀ y, TailOf acc.2.deps (before y ++ List.replicate (ys.count y) n) (acc.2.oldTail y)) →
    let res := xs.foldl (TaskQueues.enqueueChild (.operation n)) acc
    res.2.operations = u.operations ∧ Extends u.deps res.2.deps
      ∧ ChildrenOf res.2.deps before n (ys ++ xs) res.1
      ∧ ∀ y, TailOf res.2.deps (before y ++ List.replicate ((ys ++ xs).count y) n)
        (res.2.oldTail y) := by
  induction xs with
  | nil =>
      intro acc ys hops hext hchildren htails
      rw [List.append_nil]
      exact ⟨hops, hext, hchildren, htails⟩
  | cons x xs ih =>
      intro acc ys hops hext hchildren htails
      obtain ⟨hops', hext', ⟨i, htail, hdeps⟩, hother⟩ :=
        acc.2.enqueue_spec x (fun _ s => (.operation n, s)) rfl rfl
      rw [show ys ++ x :: xs = ys ++ [x] ++ xs by simp]
      refine ih (TaskQueues.enqueueChild (.operation n) acc x) (ys ++ [x]) (hops'.trans hops)
        (hext.trans hext') (.snoc (hchildren.mono hext') ((htails x).mono hext')) fun y => ?_
      · show TailOf (acc.2.enqueue x fun _ s => (.operation n, s)).2.deps _
          ((acc.2.enqueue x fun _ s => (.operation n, s)).2.oldTail y)
        by_cases hy : y = x
        · subst hy
          rw [htail, List.count_append, List.count_singleton_self, List.replicate_succ',
            ← List.append_assoc]
          exact .snoc ((htails y).mono hext') hdeps
        · rw [hother y hy, List.count_append, List.count_singleton,
            if_neg (by simpa using Ne.symm hy), Nat.add_zero]
          exact (htails y).mono hext'

theorem modify_concat {α : Type} (l : List α) (a : α) (f : α → α) :
    (l ++ [a]).modify l.length f = l ++ [f a] := by
  induction l with
  | nil => rfl
  | cons b l ih => exact congrArg (b :: ·) ih

theorem shaped_enqueueForObjects (h : s.Shaped) (objects : List Object) :
    (s.enqueueForObjects objects).Shaped := by
  set n := s.operations.length with hn
  set u := (s.startOperation objects (.readyToStart n)).2 with hu
  set acc := objects.foldl (TaskQueues.enqueueChild (.operation n)) ([], u) with hacc
  have hsu : Extends s.deps u.deps := fun _ _ => rfl
  obtain ⟨hops, hext, hchildren, htails⟩ :=
    children_spec u n s.queued objects ([], u) [] rfl (fun _ _ => rfl) .nil fun y => by
      rw [List.count_nil, List.replicate_zero, List.append_nil]
      show TailOf u.deps (s.queued y) (s.oldTail y)
      exact (h.tails y).mono hsu
  rw [List.nil_append, ← hacc] at hchildren
  rw [List.nil_append, ← hacc] at htails
  rw [← hacc] at hops hext
  have huops : u.operations = s.operations ++ [⟨objects, .readyToStart n, none⟩] := rfl
  -- the task that completes with all the tails
  obtain ⟨v, hv⟩ : ∃ v, v = acc.2.taskForCompletionOfAllTasks acc.1 := ⟨_, rfl⟩
  have hvspec : v.2.operations = acc.2.operations ∧ v.2.tail = acc.2.tail
      ∧ Extends acc.2.deps v.2.deps
      ∧ (v.1 = .completed ∧ acc.1 = []
        ∨ ∃ i, v.1 = .all i ∧ v.2.deps (.all i) = acc.1 ∧ acc.1 ≠ []) := by
    by_cases hnil : acc.1 = []
    · have hv' : v = (.completed, acc.2) := by
        rw [hv, TaskQueues.taskForCompletionOfAllTasks, hnil]
        rfl
      rw [hv']
      exact ⟨rfl, rfl, fun _ _ => rfl, Or.inl ⟨rfl, hnil⟩⟩
    · obtain ⟨hfst, hvops, hvtail, hvdeps, hvext⟩ := acc.2.all_spec hnil
      rw [← hv] at hfst hvops hvtail hvdeps hvext
      exact ⟨hvops, hvtail, hvext, Or.inr ⟨_, hfst, hvdeps, hnil⟩⟩
  obtain ⟨hvops, hvtail, hvext, hvcases⟩ := hvspec
  have hres : s.enqueueForObjects objects = v.2.continueReady n v.1 := by rw [hv]; rfl
  rw [hres]
  have hlast : (v.2.continueReady n v.1).operations
      = s.operations ++ [⟨objects, .readyToStart n, some v.1⟩] := by
    show v.2.operations.modify n _ = _
    rw [hvops, hops, huops, hn]
    exact modify_concat _ _ _
  have hready : Extends v.2.deps (v.2.continueReady n v.1).deps := fun _ _ => rfl
  have hgrow : Extends s.deps (v.2.continueReady n v.1).deps :=
    hsu.trans (hext.trans (hvext.trans hready))
  refine ⟨fun y => ?_, h.operations_concat hgrow hlast ?_⟩
  · rw [queued_concat hlast]
    have htail : (v.2.continueReady n v.1).oldTail y = acc.2.oldTail y := by
      show (v.2.tail y).getD _ = _
      rw [hvtail]
      rfl
    rw [htail]
    exact (htails y).mono (hvext.trans hready)
  · exact .several acc.1 v.1 rfl rfl hvcases (hchildren.mono (hvext.trans hready))

/-- Executing blocks leaves the queues as they are. -/
theorem shaped_of_frame (h : s.Shaped) (hdeps : t.deps = s.deps)
    (hops : t.operations = s.operations) (htail : t.tail = s.tail) : t.Shaped := by
  refine ⟨fun x => ?_, fun n op hop => ?_⟩
  · rw [TaskQueues.queued, TaskQueues.oldTail, hdeps, hops, htail]
    exact h.tails x
  · rw [hops] at hop
    have hbefore : t.queuedBefore n = s.queuedBefore n := by
      funext x
      rw [TaskQueues.queuedBefore, TaskQueues.queuedBefore, hops]
    rw [hdeps, hbefore]
    exact h.operations n op hop

omit [DecidableEq Object] in
theorem frame_set (s : TaskQueues Object V E) (b : BFTask) (o : Outcome V E) :
    (s.set b o).calls = s.calls ∧ (s.set b o).operations = s.operations
      ∧ (s.set b o).tail = s.tail := by
  rw [TaskQueues.set]
  cases s.heap.value b <;> exact ⟨rfl, rfl, rfl⟩

omit [DecidableEq Object] in
theorem frame_runAll (s : TaskQueues Object V E) (i : Nat) (o : Outcome V E) :
    (s.runAll i o).deps = s.deps ∧ (s.runAll i o).operations = s.operations
      ∧ (s.runAll i o).tail = s.tail := by
  cases hcall : s.calls[i]? with
  | none =>
      have heq : s.runAll i o = s := by simp only [TaskQueues.runAll, hcall]
      rw [heq]
      exact ⟨rfl, rfl, rfl⟩
  | some call =>
      have hframe : (s.runAll i o).calls = s.calls.set i (call.record o)
          ∧ (s.runAll i o).operations = s.operations ∧ (s.runAll i o).tail = s.tail := by
        simp only [TaskQueues.runAll, hcall]
        split
        · exact frame_set _ _ _
        · exact ⟨rfl, rfl, rfl⟩
      obtain ⟨hcalls, hops, htail⟩ := hframe
      refine ⟨TaskQueues.Sound.deps_congr (fun j => ?_) hops, hops, htail⟩
      rw [hcalls, TaskQueues.Sound.getElem?_record o hcall]
      by_cases hj : j = i
      · rw [if_pos hj, hj, hcall, Option.map_some, Option.map_some,
          TaskQueues.Sound.record_tasks]
      · rw [if_neg hj]

theorem shaped_set (h : s.Shaped) (b : BFTask) (o : Outcome V E) : (s.set b o).Shaped := by
  obtain ⟨hcalls, hops, htail⟩ := frame_set s b o
  exact shaped_of_frame h (TaskQueues.Sound.deps_congr (fun i => by rw [hcalls]) hops) hops htail

theorem shaped_heap (h : s.Shaped) (heap : Heap BFTask (Outcome V E) Block) :
    TaskQueues.Shaped { s with heap := heap } := shaped_of_frame h rfl rfl rfl

theorem shaped_step (h : s.Shaped) {e : QueueEvent Object V E} (ht : s.step e = some t) :
    t.Shaped := by
  cases e with
  | enqueue x =>
      obtain rfl := Option.some.inj ht
      exact shaped_enqueueOperation h x
  | enqueueForObjects objects =>
      obtain rfl := Option.some.inj ht
      exact shaped_enqueueForObjects h objects
  | execute k =>
      simp only [TaskQueues.step] at ht
      split at ht
      · split at ht
        · obtain rfl := Option.some.inj ht
          obtain ⟨hdeps, hops, htail⟩ := frame_runAll { s with heap := _ } _ _
          exact shaped_of_frame (shaped_heap h _) hdeps hops htail
        · obtain rfl := Option.some.inj ht
          exact shaped_set (shaped_heap h _) _ _
        · obtain rfl := Option.some.inj ht
          exact shaped_set (shaped_heap h _) _ _
        · exact absurd ht (by simp)
      · exact absurd ht (by simp)
  | start k reply =>
      simp only [TaskQueues.step] at ht
      split at ht
      · obtain rfl := Option.some.inj ht
        cases reply with
        | some o => exact shaped_set (shaped_heap h _) _ _
        | none => exact shaped_heap h _
      · exact absurd ht (by simp)
  | finish n o =>
      obtain ⟨-, ht⟩ := Option.ite_none_right_eq_some.mp ht
      obtain rfl := Option.some.inj ht
      exact shaped_set h _ _

theorem shaped_run {es : List (QueueEvent Object V E)}
    (ht : run TaskQueues.step .empty es = some t) : t.Shaped :=
  run_inv (fun _ => TaskQueues.Shaped) shaped_empty (fun _ _ _ _ _ hs hu => shaped_step hs hu) ht

/-! ## The order of operations -/

omit [DecidableEq Object] in
theorem deps_operation {n : Nat} {op : Operation Object} (hop : s.operations[n]? = some op) :
    s.deps (.operation n) = [op.toAwait] := by
  show (s.operations[n]?).elim [] _ = _
  rw [hop]
  rfl

omit [DecidableEq Object] in
theorem deps_ready {n : Nat} {op : Operation Object} (hop : s.operations[n]? = some op) :
    s.deps (.readyToStart n) = op.ready.toList := by
  show ((s.operations[n]?).bind (·.ready)).toList = _
  rw [hop]
  rfl

/-- An operation waits for what was enqueued on its objects before. -/
theorem TaskQueues.Shaped.waits_before (h : s.Shaped) {n m : Nat} {op : Operation Object}
    {x : Object} (hop : s.operations[n]? = some op) (hx : x ∈ op.objects)
    (hm : m ∈ s.queuedBefore n x) :
    Relation.TransGen (Waits s.deps) (.operation m) op.toAwait := by
  cases h.operations n op hop with
  | one y objects tail =>
      rw [objects, List.mem_singleton] at hx
      subst hx
      exact tail.waits m hm
  | several children task toAwait ready all children_of =>
      obtain ⟨t, ht, ns, htail, hns⟩ := children_of.exists_tail x hx
      rcases all with ⟨-, hnil⟩ | ⟨i, htask, hdeps, -⟩
      · rw [hnil] at ht
        exact absurd ht (by simp)
      · have hpath := htail.waits m (hns m hm)
        have hall : Waits s.deps t (.all i) := by
          rw [Waits, hdeps]
          exact ht
        have hready : Waits s.deps (.all i) (.readyToStart n) := by
          rw [Waits, deps_ready hop, ready, htask]
          exact List.mem_singleton_self _
        rw [toAwait]
        exact (hpath.tail hall).tail hready

/-- An operation with an object twice waits for itself. -/
theorem TaskQueues.Shaped.waits_self (h : s.Shaped) {n : Nat} {op : Operation Object}
    (hop : s.operations[n]? = some op) (hdup : ¬op.objects.Nodup) :
    Relation.TransGen (Waits s.deps) (.operation n) (.operation n) := by
  cases h.operations n op hop with
  | one y objects tail =>
      rw [objects] at hdup
      exact absurd (by simp) hdup
  | several children task toAwait ready all children_of =>
      obtain ⟨t, ht, ns, htail, hns⟩ := children_of.exists_self hdup
      rcases all with ⟨-, hnil⟩ | ⟨i, htask, hdeps, -⟩
      · rw [hnil] at ht
        exact absurd ht (by simp)
      · have hpath := htail.waits n hns
        have hall : Waits s.deps t (.all i) := by
          rw [Waits, hdeps]
          exact ht
        have hready : Waits s.deps (.all i) (.readyToStart n) := by
          rw [Waits, deps_ready hop, ready, htask]
          exact List.mem_singleton_self _
        have hself : Waits s.deps (.readyToStart n) (.operation n) := by
          rw [Waits, deps_operation hop, toAwait]
          exact List.mem_singleton_self _
        exact ((hpath.tail hall).tail hready).tail hself

/-- **IN ORDER, ONE AT A TIME**: when an operation begins, every operation that
    was enqueued before it on one of its objects has ended. -/
theorem operations_in_order {es : List (QueueEvent Object V E)}
    (ht : run TaskQueues.step .empty es = some t) {n m : Nat} {op : Operation Object} {x : Object}
    (hop : t.operations[n]? = some op) (hx : x ∈ op.objects) (hm : m ∈ t.queuedBefore n x)
    (hbegun : t.Begun n) : t.Completed (.operation m) := by
  have hsound := sound_of_run ht
  have hawait : t.Completed op.toAwait :=
    hsound.begun_completed hbegun _ (by rw [deps_operation hop]; exact List.mem_singleton_self _)
  exact kept_of_path (fun a ha => hsound.deps_completed ha)
    ((shaped_run ht).waits_before hop hx hm) hawait

/-- **ONCE**: no task is completed a second time, and no operation begins a
    second time. -/
theorem completed_once {es : List (QueueEvent Object V E)}
    (ht : run TaskQueues.step .empty es = some t) :
    t.raised = false ∧ ∀ n, (callsOf (.operation n) t.heap.executed).length ≤ 1 := by
  have hsound := sound_of_run ht
  refine ⟨hsound.raised, fun n => ?_⟩
  have hle := (hsound.conserved.calls_subperm (.operation n)).length_le
  rw [hsound.waits (.operation n) rfl, List.length_map] at hle
  exact hle.trans (TaskQueues.Sound.length_deps_operation t n)

/-- An operation on the object 1 fails; an operation on 1 and 2, enqueued while it
    ran, is cancelled. -/
def sharedRun : List (QueueEvent Nat Nat Nat) :=
  [.enqueue 1, .enqueueForObjects [1, 2], .start 0 none, .finish 0 (.error (.error 7)),
    .execute 2, .execute 0, .execute 0, .execute 0, .execute 0, .execute 0, .execute 0,
    .execute 0, .start 0 (some .cancelled), .execute 0, .execute 0]

theorem operations_in_order_shared :
    ∃ t, run TaskQueues.step .empty sharedRun = some t ∧ t.Completed (.operation 0) := by
  obtain ⟨t, ht, hop, hm, hbegun⟩ : ∃ t, run TaskQueues.step .empty sharedRun = some t
      ∧ t.operations[1]? = some ⟨[1, 2], .readyToStart 1, some (.all 3)⟩
      ∧ 0 ∈ t.queuedBefore 1 1 ∧ t.Begun 1 := ⟨_, rfl, rfl, by decide, List.cons_ne_nil _ _⟩
  exact ⟨t, ht, operations_in_order ht hop (by decide) hm hbegun⟩

theorem completed_once_shared :
    ∃ t, run TaskQueues.step .empty sharedRun = some t ∧ t.raised = false := by
  obtain ⟨t, ht⟩ : ∃ t, run TaskQueues.step .empty sharedRun = some t := ⟨_, rfl⟩
  exact ⟨t, ht, (completed_once ht).1⟩

/-! ## What ends -/

/-- Nothing is left to execute, and every operation that has begun has
    finished. -/
def TaskQueues.Quiet (s : TaskQueues Object V E) : Prop :=
  s.heap.ready = [] ∧
    ∀ n, (.body n, .setupWithTask n) ∈ s.heap.registered → s.Completed (.body n)

/-- An operation has an object twice, or comes after such an operation on one
    of its objects. -/
inductive TaskQueues.Stuck (s : TaskQueues Object V E) : Nat → Prop where
  | twice {n : Nat} {op : Operation Object} (hop : s.operations[n]? = some op)
      (hdup : ¬op.objects.Nodup) : Stuck s n
  | behind {n m : Nat} {op : Operation Object} {x : Object} (hop : s.operations[n]? = some op)
      (hx : x ∈ op.objects) (hm : m ∈ s.queuedBefore n x) (hstuck : Stuck s m) : Stuck s n

theorem TaskQueues.Stuck.not_acc (h : s.Shaped) {n : Nat} (hn : s.Stuck n) :
    ¬Acc (Waits s.deps) (.operation n) := by
  induction hn with
  | twice hop hdup => exact not_acc_of_cycle (h.waits_self hop hdup)
  | @behind n m op x hop hx hm _ ih =>
      intro hacc
      have hawait : Waits s.deps op.toAwait (.operation n) := by
        rw [Waits, deps_operation hop]
        exact List.mem_singleton_self _
      exact ih (hacc.inv_of_transGen ((h.waits_before hop hx hm).tail hawait))

namespace TaskQueues.Sound

omit [DecidableEq Object]

/-- Of a block whose tasks have completed, nothing is left to execute. -/
theorem executed_of_quiet (h : s.Sound) (hq : s.Quiet) {k : Block}
    (hk : k.waits) (hd : ∀ d ∈ s.deps k.task, s.Completed d) :
    (callsOf k s.heap.executed).length = (s.deps k.task).length := by
  have hperm := h.conserved.executed_perm hq.1 fun a ha => hd a (h.mem_deps hk ha)
  rw [hperm.length_eq, h.waits k hk, List.length_map]

theorem completed_all (h : s.Sound) (hq : s.Quiet) {i : Nat} (hne : s.deps (.all i) ≠ [])
    (hd : ∀ d ∈ s.deps (.all i), s.Completed d) : s.Completed (.all i) := by
  have hlen : (callsOf (.all i) s.heap.executed).length = (s.deps (.all i)).length :=
    h.executed_of_quiet hq (k := .all i) rfl hd
  have hdeps : s.deps (.all i) = (s.calls[i]?).elim [] (·.tasks) := rfl
  cases hcall : s.calls[i]? with
  | none =>
      rw [hdeps, hcall] at hne
      exact absurd rfl hne
  | some call =>
      obtain ⟨-, htotal⟩ := h.total i call hcall
      rw [hdeps, hcall, Option.elim_some] at hlen
      rw [TaskQueues.Completed, h.all, hcall, Option.bind_some, if_pos (by omega)]
      rfl

theorem completed_ready (h : s.Sound) (hq : s.Quiet) {n : Nat}
    (hne : s.deps (.readyToStart n) ≠ [])
    (hd : ∀ d ∈ s.deps (.readyToStart n), s.Completed d) : s.Completed (.readyToStart n) := by
  have hlen : (callsOf (.readyToStart n) s.heap.executed).length
      = (s.deps (.readyToStart n)).length :=
    h.executed_of_quiet hq (k := .readyToStart n) rfl hd
  refine (h.ready n).mpr (List.length_pos_iff.mp ?_)
  rw [hlen]
  exact List.length_pos_iff.mpr hne

theorem completed_operation (h : s.Sound) (hq : s.Quiet) {n : Nat}
    (hne : s.deps (.operation n) ≠ [])
    (hd : ∀ d ∈ s.deps (.operation n), s.Completed d) : s.Completed (.operation n) := by
  have hlen : (callsOf (.operation n) s.heap.executed).length = (s.deps (.operation n)).length :=
    h.executed_of_quiet hq (k := .operation n) rfl hd
  refine (h.operation n).mpr ⟨List.length_pos_iff.mp ?_, ?_⟩
  · rw [hlen]
    exact List.length_pos_iff.mpr hne
  · refine (h.conserved.executed_perm hq.1 fun a ha => ?_).length_eq.symm
    have hmem : (a, Block.setupWithTask n) ∈ callsOf (.setupWithTask n) s.heap.registered :=
      mem_callsOf.mpr ⟨ha, rfl⟩
    rcases h.setup n with hnil | ⟨hone, -⟩
    · rw [hnil] at hmem
      exact absurd hmem (by simp)
    · rw [hone, List.mem_singleton] at hmem
      obtain rfl := (Prod.mk.inj hmem).1
      exact hq.2 n ha

/-- A tail completes once the operations of its queue have. -/
theorem completed_tail (h : s.Sound) (hq : s.Quiet) {ns : List Nat} {b : BFTask}
    (htail : TailOf s.deps ns b) (hns : ∀ n ∈ ns, s.Completed (.operation n)) :
    s.Completed b := by
  induction htail with
  | nil =>
      rw [TaskQueues.Completed, h.completed]
      rfl
  | snoc before tail ih =>
      refine h.completed_all hq (by rw [tail]; simp) fun d hd => ?_
      rw [tail] at hd
      rcases List.mem_cons.mp hd with rfl | hd
      · exact ih fun n hn => hns n (List.mem_append_left _ hn)
      · obtain rfl := List.mem_singleton.mp hd
        exact hns _ (List.mem_append_right _ (List.mem_singleton_self _))

/-- An operation that is not stuck ends. -/
theorem ends [DecidableEq Object] (h : s.Sound) (hsh : s.Shaped) (hq : s.Quiet) :
    ∀ (n : Nat) (op : Operation Object), s.operations[n]? = some op → ¬s.Stuck n →
      s.Completed (.operation n) := by
  intro n
  induction n using Nat.strong_induction_on with
  | _ n ih =>
      intro op hop hstuck
      have hbefore : ∀ x ∈ op.objects, ∀ m ∈ s.queuedBefore n x, s.Completed (.operation m) := by
        intro x hx m hm
        obtain ⟨hlt, opm, hopm, -⟩ := mem_queuedBefore.mp hm
        exact ih m hlt opm hopm fun hsm => hstuck (.behind hop hx hm hsm)
      have hawait : s.Completed op.toAwait := by
        cases hsh.operations n op hop with
        | one x objects tail =>
            exact h.completed_tail hq tail (hbefore x (by rw [objects]; exact List.mem_singleton_self x))
        | several children task toAwait ready all children_of =>
            have hnodup : op.objects.Nodup := by
              by_contra hdup
              exact hstuck (.twice hop hdup)
            have hchildren : ∀ b ∈ children, s.Completed b := by
              intro b hb
              obtain ⟨x, hx, htail⟩ := children_of.tail_of_nodup hnodup b hb
              exact h.completed_tail hq htail (hbefore x hx)
            have htask : s.Completed task := by
              rcases all with ⟨rfl, -⟩ | ⟨i, rfl, hdeps, hne⟩
              · rw [TaskQueues.Completed, h.completed]
                rfl
              · exact h.completed_all hq (by rw [hdeps]; exact hne) (by rw [hdeps]; exact hchildren)
            have hdeps : s.deps (.readyToStart n) = [task] := by
              rw [deps_ready hop, ready]
              rfl
            rw [toAwait]
            refine h.completed_ready hq (by rw [hdeps]; simp) fun d hd => ?_
            rw [hdeps, List.mem_singleton] at hd
            rw [hd]
            exact htask
      refine h.completed_operation hq (by rw [deps_operation hop]; simp) fun d hd => ?_
      rw [deps_operation hop, List.mem_singleton] at hd
      rw [hd]
      exact hawait

end TaskQueues.Sound

/-- **WHAT ENDS**: once nothing is left to execute and all that began has
    finished, the operations that have ended are those that are not stuck. -/
theorem operation_ends_iff {es : List (QueueEvent Object V E)}
    (ht : run TaskQueues.step .empty es = some t) (hq : t.Quiet) {n : Nat}
    {op : Operation Object} (hop : t.operations[n]? = some op) :
    t.Completed (.operation n) ↔ ¬t.Stuck n := by
  have hsound := sound_of_run ht
  have hshaped := shaped_run ht
  constructor
  · intro hn hstuck
    exact hstuck.not_acc hshaped (hsound.acc _ hn)
  · exact hsound.ends hshaped hq n op hop

theorem operation_ends_shared :
    ∃ t, run TaskQueues.step .empty sharedRun = some t ∧ ¬t.Stuck 1 := by
  obtain ⟨t, ht, hready, hreg, hop, hbody, hend⟩ : ∃ t,
      run TaskQueues.step .empty sharedRun = some t ∧ t.heap.ready = []
      ∧ t.heap.registered = [(.completed, .operation 0), (.completed, .all 0),
        (.operation 0, .all 0), (.readyToStart 1, .operation 1), (.all 0, .all 1),
        (.operation 1, .all 1), (.completed, .all 2), (.operation 1, .all 2), (.all 0, .all 3),
        (.completed, .all 3), (.all 3, .readyToStart 1), (.body 0, .setupWithTask 0)]
      ∧ t.operations[1]? = some ⟨[1, 2], .readyToStart 1, some (.all 3)⟩
      ∧ t.Completed (.body 0) ∧ t.Completed (.operation 1) := ⟨_, rfl, rfl, rfl, rfl, rfl, rfl⟩
  refine ⟨t, ht, (operation_ends_iff ht ⟨hready, fun n hn => ?_⟩ hop).mp hend⟩
  rw [hreg] at hn
  simp at hn
  rw [hn]
  exact hbody

/-- An operation with an object twice never begins. -/
example :
    ∃ t, run TaskQueues.step .empty
        ([.enqueueForObjects [1, 1], .execute 0, .execute 0] : List (QueueEvent Nat Nat Nat)) = some t
      ∧ t.heap.ready = [] ∧ t.heap.value (.operation 0) = none := ⟨_, rfl, rfl, rfl⟩

end Shape

end ParseSDK

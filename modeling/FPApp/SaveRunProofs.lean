import FPApp.ObjectSaveProofs

/-! # Runs of saves

    The saves of an object run one at a time, between operations, fetches and
    reverts; each run starts from an object as the server has it.

    * `estimated_is_replay` — what the app reads is what the server holds with
      the queue applied to it;
    * `sent_first_iff` — a result is merged into the set that was sent exactly
      while no save has started on account of its children only;
    * `handlers_never_raise` — what can raise, and what cannot;
    * `nothing_lost` — every operation that was performed is stored, or still
      in the queue, and takes effect once. -/

namespace ParseSDK

open OperationLog EventRun

section Runs

variable {F Item C E : Type} [DecidableEq Item] {rt : Runtime F Item}

/-- Whatever is performed is replayable. -/
def SaveEvent.Replayable : SaveEvent F Item C E → Prop
  | .performOperation operation _ => operation.Replayable
  | _ => True

/-- The save that starts on account of the children only, by its call. -/
def Saving.leak (s : Saving F Item C E) : SaveEvent F Item C E → Option C
  | .saveAsync true => if s.object.dirty || s.object.hasChanges then none else s.waiting.head?
  | _ => none

/-- The set that is being sent. -/
def Saving.sent (s : Saving F Item C E) : List (PFOperationSet F Item) :=
  match s.running with
  | some (.command _ changes) => [changes]
  | _ => []

/-- The queue: a set for each leak, the set that is being sent, and the last
    set, with distinct uuids. -/
structure Saving.Lined (s : Saving F Item C E) (leaks : Nat) : Prop where
  shape : ∃ pre last, s.object.operationSetQueue = pre ++ s.sent ++ [last] ∧ pre.length = leaks
  fresh : ∀ set ∈ s.object.operationSetQueue, set.uuid < s.nextUUID
  distinct : (s.object.operationSetQueue.map PFOperationSet.uuid).Nodup

/-- The queue is in line, and what the app reads is consistent with it. -/
structure Saving.Sound (rt : Runtime F Item) (s : Saving F Item C E) (leaks : Nat) : Prop
    extends s.Lined leaks where
  consistent : s.object.Consistent rt

/-- The uuids of a queue. -/
def uuids (queue : List (PFOperationSet F Item)) : List Nat := queue.map PFOperationSet.uuid

omit [DecidableEq Item] in
/-- A step that keeps the uuids of the queue and the save that runs. -/
theorem Saving.Lined.keep {s : Saving F Item C E} {n : Nat} {o : PFObject F Item}
    (h : s.Lined n) (hqueue : ChangesLast s.object o) :
    Saving.Lined { s with object := o } n := by
  obtain ⟨f, hf, hq⟩ := hqueue
  obtain ⟨pre, last, hshape, hlen⟩ := h.shape
  rw [hshape, modifyLast_concat] at hq
  have huuids : uuids o.operationSetQueue = uuids s.object.operationSetQueue := by
    simp [uuids, hq, hshape, hf]
  refine ⟨⟨pre, f last, hq, hlen⟩, ?_, ?_⟩
  · intro set hset
    have hmem : set.uuid ∈ uuids o.operationSetQueue := List.mem_map_of_mem hset
    rw [huuids] at hmem
    obtain ⟨old, hold, heq⟩ := List.mem_map.mp hmem
    rw [← heq]
    exact h.fresh old hold
  · show (uuids o.operationSetQueue).Nodup
    rw [huuids]
    exact h.distinct

omit [DecidableEq Item] in
/-- What `saveAsync` does. -/
theorem saveAsync_cases {s t : Saving F Item C E} {childrenDirty : Bool}
    (h : s.saveAsync childrenDirty = some t) :
    ∃ call waiting, s.running = none ∧ s.waiting = call :: waiting
      ∧ ((s.object.isDirty childrenDirty = false
          ∧ t = { s with waiting := waiting, running := some (.unchanged call) })
        ∨ (∃ changes, s.object.unsavedChanges = some changes
          ∧ s.object.dirty = false ∧ s.object.hasChanges = false ∧ childrenDirty = true
          ∧ t = { s with
              object := s.object.startSave s.nextUUID
              nextUUID := s.nextUUID + 1
              waiting := waiting
              running := some (.children call) })
        ∨ (∃ changes, s.object.unsavedChanges = some changes
          ∧ (s.object.dirty || s.object.hasChanges) = true
          ∧ t = { s with
              object := s.object.startSave s.nextUUID
              nextUUID := s.nextUUID + 1
              waiting := waiting
              running := some (.command call changes) })) := by
  rw [Saving.saveAsync] at h
  rcases hrun : s.running with _ | f
  · rcases hwait : s.waiting with _ | ⟨call, waiting⟩
    · simp [hrun, hwait] at h
    · refine ⟨call, waiting, rfl, rfl, ?_⟩
      simp only [hrun, hwait] at h
      by_cases hdirty : s.object.isDirty childrenDirty = true
      · rw [if_pos hdirty] at h
        rcases hlast : s.object.unsavedChanges with _ | changes
        · simp [hlast] at h
        · simp only [hlast] at h
          have hhas : s.object.hasChanges = decide (0 < changes.count) := by
            rw [PFObject.hasChanges, hlast]
          have hobject : (s.object.startSave s.nextUUID).dirty = s.object.dirty := rfl
          by_cases hnone : (!(s.object.startSave s.nextUUID).dirty && changes.count == 0) = true
          · rw [if_pos hnone] at h
            rw [hobject, Bool.and_eq_true, Bool.not_eq_true', beq_iff_eq] at hnone
            have hno : s.object.hasChanges = false := by rw [hhas, hnone.2]; rfl
            refine Or.inr (Or.inl ⟨changes, rfl, hnone.1, hno, ?_, (Option.some.inj h).symm⟩)
            rw [PFObject.isDirty, hnone.1, hno] at hdirty
            simpa using hdirty
          · rw [if_neg hnone] at h
            refine Or.inr (Or.inr ⟨changes, rfl, ?_, (Option.some.inj h).symm⟩)
            rw [hobject, Bool.and_eq_true, Bool.not_eq_true', beq_iff_eq, not_and_or] at hnone
            rw [Bool.or_eq_true, hhas, decide_eq_true_eq]
            rcases hnone with hd | hc
            · exact Or.inl (by simpa using hd)
            · exact Or.inr (by omega)
      · rw [if_neg hdirty] at h
        exact Or.inl ⟨by simpa using hdirty, (Option.some.inj h).symm⟩
  · simp [hrun] at h

omit [DecidableEq Item] in
theorem toOption_map {x : Except NSException (PFObject F Item)}
    {f : PFObject F Item → Saving F Item C E} {t : Saving F Item C E}
    (h : x.toOption.map f = some t) : ∃ o, x = .ok o ∧ t = f o := by
  cases x with
  | error e => exact nomatch h
  | ok o => exact ⟨o, rfl, (Option.some.inj h).symm⟩

/-- What the end of a save does. -/
theorem result_cases {s t : Saving F Item C E} {reply : Except E (Reply F Item)}
    (h : s.result rt reply = some t) :
    (∃ call r, s.running = some (.unchanged call) ∧ reply = .ok r
        ∧ t = { s with running := none, finished := s.finished ++ [(call, none)] })
      ∨ (∃ call error, s.running = some (.children call)
        ∧ t = { s with running := none, finished := s.finished ++ [(call, error)] })
      ∨ (∃ call changes r o, s.running = some (.command call changes) ∧ reply = .ok r
        ∧ s.object.mergeAfterSave rt (some r) = .ok o
        ∧ t = { s with
            object := o
            running := none
            finished := s.finished ++ [(call, none)]
            stored := s.stored ++ [changes] })
      ∨ (∃ call changes e o, s.running = some (.command call changes) ∧ reply = .error e
        ∧ s.object.mergeAfterSave rt none = .ok o
        ∧ t = { s with
            object := o
            running := none
            finished := s.finished ++ [(call, some e)] }) := by
  unfold Saving.result at h
  rcases hrun : s.running with _ | (call | call | ⟨call, changes⟩)
  · simp [hrun] at h
  · rcases reply with e | r
    · simp [hrun] at h
    · simp only [hrun] at h
      exact Or.inl ⟨call, r, rfl, rfl, (Option.some.inj h).symm⟩
  · rcases reply with e | r
    · simp only [hrun] at h
      exact Or.inr (Or.inl ⟨call, some e, rfl, (Option.some.inj h).symm⟩)
    · simp only [hrun] at h
      exact Or.inr (Or.inl ⟨call, none, rfl, (Option.some.inj h).symm⟩)
  · rcases reply with e | r
    · simp only [hrun] at h
      obtain ⟨o, ho, ht⟩ := toOption_map h
      exact Or.inr (Or.inr (Or.inr ⟨call, changes, e, o, rfl, rfl, ho, ht⟩))
    · simp only [hrun] at h
      obtain ⟨o, ho, ht⟩ := toOption_map h
      exact Or.inr (Or.inr (Or.inl ⟨call, changes, r, o, rfl, rfl, ho, ht⟩))

omit [DecidableEq Item] in
/-- While nothing is sent the shape of the queue is its length. -/
theorem shape_of_length {queue : List (PFOperationSet F Item)} {n : Nat}
    (h : queue.length = n + 1) :
    ∃ pre last, queue = pre ++ [] ++ [last] ∧ pre.length = n := by
  have hne : queue ≠ [] := by
    rintro rfl
    exact absurd h (by simp)
  refine ⟨queue.dropLast, queue.getLast hne, ?_, ?_⟩
  · rw [List.append_nil, List.dropLast_append_getLast hne]
  · rw [List.length_dropLast, h, Nat.add_sub_cancel]

omit [DecidableEq Item] in
theorem Saving.Lined.length {s : Saving F Item C E} {n : Nat} (h : s.Lined n) :
    s.object.operationSetQueue.length = n + s.sent.length + 1 := by
  obtain ⟨pre, last, hshape, hlen⟩ := h.shape
  rw [hshape, List.length_append, List.length_append, hlen, List.length_singleton]

/-- Both ends of a save take the first set out of the queue. -/
theorem mergeAfterSave_queue {self o : PFObject F Item} {result : Option (Reply F Item)}
    (hlen : 1 < self.operationSetQueue.length) (h : self.mergeAfterSave rt result = .ok o) :
    uuids o.operationSetQueue = (uuids self.operationSetQueue).tail := by
  rcases hqueue : self.operationSetQueue with _ | ⟨before, _ | ⟨next, rest⟩⟩
  · simp [hqueue] at hlen
  · simp [hqueue] at hlen
  · cases result with
    | none =>
        simp only [PFObject.mergeAfterSave, hqueue] at h
        obtain ⟨merged, hmerged, rfl⟩ := map_ok.mp h
        obtain ⟨dictionary, -, rfl⟩ := map_ok.mp hmerged
        rfl
    | some reply =>
        obtain ⟨saved, -, -, hq, -, -⟩ := success_cases hqueue h
        rw [hq]
        rfl

/-- The queue after a save that was sent. -/
theorem Saving.Lined.ended {s : Saving F Item C E} {n : Nat} (h : s.Lined n) {call : C}
    {changes : PFOperationSet F Item} (hrun : s.running = some (.command call changes))
    {result : Option (Reply F Item)} {o : PFObject F Item}
    (ho : s.object.mergeAfterSave rt result = .ok o) (finished : List (C × Option E))
    (stored : List (PFOperationSet F Item)) :
    Saving.Lined
      { s with object := o, running := none, finished := finished, stored := stored } n := by
  have hlen := h.length
  have hsent : s.sent = [changes] := by rw [Saving.sent, hrun]
  rw [hsent, List.length_singleton] at hlen
  have htail := mergeAfterSave_queue (by omega) ho
  have hmem : ∀ u ∈ uuids o.operationSetQueue, u ∈ uuids s.object.operationSetQueue := by
    intro u hu
    rw [htail] at hu
    exact List.mem_of_mem_tail hu
  refine ⟨shape_of_length ?_, ?_, ?_⟩
  · show o.operationSetQueue.length = n + 1
    have hlength := congrArg List.length htail
    rw [List.length_tail, uuids, uuids, List.length_map, List.length_map] at hlength
    omega
  · intro set hset
    obtain ⟨old, hold, heq⟩ := List.mem_map.mp (hmem set.uuid (List.mem_map_of_mem hset))
    rw [← heq]
    exact h.fresh old hold
  · show (uuids o.operationSetQueue).Nodup
    rw [htail]
    exact (List.tail_sublist _).nodup h.distinct

omit [DecidableEq Item] in
/-- The queue after the start of a save. -/
theorem Saving.Lined.started {s : Saving F Item C E} {n : Nat} (h : s.Lined n) :
    (∀ set ∈ (s.object.startSave s.nextUUID).operationSetQueue, set.uuid < s.nextUUID + 1)
      ∧ (uuids (s.object.startSave s.nextUUID).operationSetQueue).Nodup := by
  refine ⟨?_, ?_⟩
  · intro set hset
    rcases List.mem_append.mp hset with hold | hnew
    · exact Nat.lt_succ_of_lt (h.fresh set hold)
    · rw [List.mem_singleton.mp hnew]
      exact Nat.lt_succ_self _
  · show (List.map _ (_ ++ [_])).Nodup
    rw [List.map_append, List.map_singleton]
    refine h.distinct.append (List.nodup_singleton _) ?_
    rw [List.disjoint_singleton]
    intro hmem
    obtain ⟨old, hold, heq⟩ := List.mem_map.mp hmem
    exact absurd (h.fresh old hold) (by rw [heq]; exact Nat.lt_irrefl _)

omit [DecidableEq Item] in
theorem lined_fetched (serverData : Data F Item) :
    (Saving.fetched serverData : Saving F Item C E).Lined 0 where
  shape := ⟨[], ⟨0, ∅⟩, rfl, rfl⟩
  fresh := by
    intro set hset
    rw [List.mem_singleton.mp hset]
    exact Nat.zero_lt_one
  distinct := List.nodup_singleton _

/-- One event: a leak adds a set to the queue, and nothing else changes their
    number. -/
theorem lined_step {s t : Saving F Item C E} {e : SaveEvent F Item C E} {n : Nat}
    (h : s.Lined n) (ht : s.step rt e = some t) : t.Lined (n + (s.leak e).toList.length) := by
  have hlength := h.length
  cases e with
  | performOperation operation key =>
      obtain ⟨o, ho, rfl⟩ := toOption_map ht
      exact h.keep (performOperation_changesLast ho)
  | saveInBackground call =>
      obtain rfl := Option.some.inj ht
      exact ⟨h.shape, h.fresh, h.distinct⟩
  | saveAsync childrenDirty =>
      obtain ⟨call, waiting, hrun, hwait, hcases⟩ := saveAsync_cases ht
      have hsent : s.sent = [] := by rw [Saving.sent, hrun]
      obtain ⟨hfresh, hdistinct⟩ := h.started
      rcases hcases with ⟨hclean, rfl⟩ | ⟨changes, hlast, hdirty, hno, rfl, rfl⟩
          | ⟨changes, hlast, hown, rfl⟩
      · -- nothing to save
        have hleak : s.leak (.saveAsync childrenDirty) = none := by
          cases childrenDirty with
          | false => rfl
          | true => simp [PFObject.isDirty] at hclean
        obtain ⟨pre, last, hshape, hlen⟩ := h.shape
        rw [hleak]
        rw [hsent] at hshape
        exact ⟨⟨pre, last, hshape, hlen⟩, h.fresh, h.distinct⟩
      · -- a leak
        have hleak : s.leak (.saveAsync true) = some call := by
          simp [Saving.leak, hdirty, hno, hwait]
        rw [hleak]
        refine ⟨shape_of_length ?_, hfresh, hdistinct⟩
        rw [hsent] at hlength
        simpa [PFObject.startSave] using hlength
      · have hleak : s.leak (.saveAsync childrenDirty) = none := by
          cases childrenDirty with
          | false => rfl
          | true => rw [Saving.leak, if_pos hown]
        obtain ⟨pre, last, hshape, hlen⟩ := h.shape
        rw [hsent, List.append_nil] at hshape
        rw [PFObject.unsavedChanges, hshape, List.getLast?_concat] at hlast
        obtain rfl := Option.some.inj hlast
        rw [hleak]
        refine ⟨⟨pre, ⟨s.nextUUID, ∅⟩, ?_, hlen⟩, hfresh, hdistinct⟩
        show s.object.operationSetQueue ++ [_] = pre ++ [last] ++ [_]
        rw [hshape]
  | result reply =>
      rcases result_cases ht with ⟨call, r, hrun, -, rfl⟩ | ⟨call, error, hrun, rfl⟩
          | ⟨call, changes, r, o, hrun, -, ho, rfl⟩ | ⟨call, changes, e, o, hrun, -, ho, rfl⟩
      · have hsent : s.sent = [] := by rw [Saving.sent, hrun]
        rw [hsent] at hlength
        exact ⟨shape_of_length hlength, h.fresh, h.distinct⟩
      · have hsent : s.sent = [] := by rw [Saving.sent, hrun]
        rw [hsent] at hlength
        exact ⟨shape_of_length hlength, h.fresh, h.distinct⟩
      · exact h.ended hrun ho _ _
      · exact h.ended hrun ho _ _
  | completion i =>
      obtain ⟨-, ht⟩ := Option.ite_none_right_eq_some.mp ht
      obtain rfl := Option.some.inj ht
      exact ⟨h.shape, h.fresh, h.distinct⟩
  | fetched reply =>
      rcases hrun : s.running with _ | f
      · simp only [Saving.step, hrun] at ht
        obtain ⟨o, ho, rfl⟩ := toOption_map ht
        rw [← hrun]
        exact h.keep (mergeAfterFetch_changesLast ho)
      · simp [Saving.step, hrun] at ht
  | revert childrenDirty =>
      obtain ⟨o, ho, rfl⟩ := toOption_map ht
      exact h.keep (revert_changesLast ho)
  | revertObjectForKey key =>
      obtain ⟨o, ho, rfl⟩ := toOption_map ht
      exact h.keep (revertObjectForKey_changesLast ho)

/-- In every state of a run the queue is in line, with a set for each leak. -/
theorem lined_run {d : Data F Item} {es : List (SaveEvent F Item C E)} {t : Saving F Item C E}
    (ht : run (Saving.step rt) (.fetched d) es = some t) :
    t.Lined (collect (Saving.step rt) Saving.leak (.fetched d) es).length := by
  refine run_inv (fun es t =>
    t.Lined (collect (Saving.step rt) Saving.leak (.fetched d) es).length)
    (lined_fetched d) ?_ ht
  intro pre t e u hpre ih hu
  rw [collect_concat _ hpre hu, List.length_append]
  exact lined_step ih hu

/-- One event keeps what the app reads consistent. -/
theorem consistent_step {s t : Saving F Item C E} {e : SaveEvent F Item C E} {n : Nat}
    (h : s.Sound rt n) (he : e.Replayable) (ht : s.step rt e = some t) :
    t.object.Consistent rt := by
  cases e with
  | performOperation operation key =>
      obtain ⟨o, ho, rfl⟩ := toOption_map ht
      exact consistent_perform h.consistent he ho
  | saveInBackground call =>
      obtain rfl := Option.some.inj ht
      exact h.consistent
  | saveAsync childrenDirty =>
      obtain ⟨call, waiting, -, -, ⟨-, rfl⟩ | ⟨-, -, -, -, -, rfl⟩ | ⟨-, -, -, rfl⟩⟩ :=
        saveAsync_cases ht
      · exact h.consistent
      · exact consistent_startSave h.consistent _
      · exact consistent_startSave h.consistent _
  | result reply =>
      rcases result_cases ht with ⟨call, r, -, -, rfl⟩ | ⟨call, error, -, rfl⟩
          | ⟨call, changes, r, o, hrun, -, ho, rfl⟩ | ⟨call, changes, e, o, -, -, ho, rfl⟩
      · exact h.consistent
      · exact h.consistent
      · -- the set that was sent is not the last
        have hlen := h.length
        rw [Saving.sent, hrun, List.length_singleton] at hlen
        exact consistent_success h.consistent (by omega) ho
      · exact (consistent_failure h.consistent ho).1
  | completion i =>
      obtain ⟨-, ht⟩ := Option.ite_none_right_eq_some.mp ht
      obtain rfl := Option.some.inj ht
      exact h.consistent
  | fetched reply =>
      rcases hrun : s.running with _ | f
      · simp only [Saving.step, hrun] at ht
        obtain ⟨o, ho, rfl⟩ := toOption_map ht
        exact consistent_fetch h.consistent ho
      · simp [Saving.step, hrun] at ht
  | revert childrenDirty =>
      obtain ⟨o, ho, rfl⟩ := toOption_map ht
      exact consistent_revert h.consistent ho
  | revertObjectForKey key =>
      obtain ⟨o, ho, rfl⟩ := toOption_map ht
      exact consistent_revertObjectForKey h.consistent ho

theorem sound_fetched (serverData : Data F Item) :
    (Saving.fetched serverData : Saving F Item C E).Sound rt 0 :=
  ⟨lined_fetched serverData, consistent_fetched serverData 0⟩

theorem sound_step {s t : Saving F Item C E} {e : SaveEvent F Item C E} {n : Nat}
    (h : s.Sound rt n) (he : e.Replayable) (ht : s.step rt e = some t) :
    t.Sound rt (n + (s.leak e).toList.length) :=
  ⟨lined_step h.toLined ht, consistent_step h he ht⟩

/-- Every state of a run of replayable operations is sound. -/
theorem sound_run {d : Data F Item} {es : List (SaveEvent F Item C E)} {t : Saving F Item C E}
    (hes : ∀ e ∈ es, e.Replayable) (ht : run (Saving.step rt) (.fetched d) es = some t) :
    t.Sound rt (collect (Saving.step rt) Saving.leak (.fetched d) es).length := by
  refine run_inv (fun es t => (∀ e ∈ es, SaveEvent.Replayable e) →
    t.Sound rt (collect (Saving.step rt) Saving.leak (.fetched d) es).length)
    (fun _ => sound_fetched d) ?_ ht hes
  intro pre t e u hpre ih hu hes
  have ht := ih fun e he => hes e (List.mem_append_left _ he)
  rw [collect_concat _ hpre hu, List.length_append]
  exact sound_step ht (hes e (by simp)) hu

/-- A run in which a save on account of the children comes first, and then a
    save of the object itself starts. -/
def leakyRun : List (SaveEvent Unit Nat Nat Unit) :=
  [.saveInBackground 1, .saveAsync true, .result (.ok ∅),
    .performOperation (.set (.other 7)) "title", .saveInBackground 2, .saveAsync false]

/-- The same run without the first save, which then fails. -/
def failingRun : List (SaveEvent Unit Nat Nat Unit) :=
  [.performOperation (.set (.other 7)) "title", .saveInBackground 2, .saveAsync false,
    .performOperation (.add [3]) "tags", .result (.error ())]

theorem failingRun_replayable : ∀ e ∈ failingRun, e.Replayable := by
  simp [failingRun, SaveEvent.Replayable, FieldOperation.Replayable]

/-- The failing run runs. -/
theorem failingRun_runs :
    ∃ t, run (Saving.step digitRuntime) (.fetched fun _ => none) failingRun = some t := ⟨_, rfl⟩

/-- After the leak a save that fails loses its changes: the object is not dirty,
    nothing is stored, and the app goes on reading what it set. -/
example :
    ∃ t, run (Saving.step digitRuntime) (.fetched fun _ => none)
        (leakyRun ++ [.result (.error ())]) = some t
      ∧ t.object.isDirty false = false ∧ t.running = none ∧ t.stored = []
      ∧ t.object.estimatedData "title" = some (.other 7) :=
  ⟨_, rfl, rfl, rfl, rfl, rfl⟩

/-! ## What can raise -/

omit [DecidableEq Item] in
theorem toOption_isSome {x : Except NSException (PFObject F Item)} {o : PFObject F Item}
    {f : PFObject F Item → Saving F Item C E} (h : x = .ok o) :
    x.toOption.map f = some (f o) := by
  rw [h]
  rfl

/-- The operation that an event performs on a key. -/
def SaveEvent.performs (key : String) : SaveEvent F Item C E → Option (FieldOperation F Item)
  | .performOperation operation k => if k = key then some operation else none
  | _ => none

/-- The operations that a list of events performs on a key. -/
def performed (key : String) (es : List (SaveEvent F Item C E)) : List (FieldOperation F Item) :=
  es.filterMap (SaveEvent.performs key)

/-- The app performs replayable operations and saves them; the server answers a
    save with nothing but its date. -/
def SaveEvent.Writing : SaveEvent F Item C E → Prop
  | .performOperation operation _ => operation.Replayable
  | .result (.ok reply) => reply = ∅
  | .result (.error _) | .saveInBackground _ | .saveAsync _ | .completion _ => True
  | .fetched _ | .revert _ | .revertObjectForKey _ => False

omit [DecidableEq Item] in
theorem SaveEvent.Writing.replayable {e : SaveEvent F Item C E} (h : e.Writing) :
    e.Replayable := by
  cases e with
  | performOperation operation key => exact h
  | _ => trivial

/-- The changes stored for a key give what the server is known to hold, and all
    that was performed on it gives what the app reads. -/
structure Saving.Accounted (rt : Runtime F Item) (d : Data F Item)
    (es : List (SaveEvent F Item C E)) (s : Saving F Item C E) : Prop where
  server : ∀ key, exec (act rt) (column key (dictionaries s.stored)) (d key)
    = .ok (s.object.serverData key)
  reads : ∀ key, exec (act rt) (performed key es) (d key) = .ok (s.object.estimatedData key)

omit [DecidableEq Item] in
theorem performed_append (key : String) (es fs : List (SaveEvent F Item C E)) :
    performed key (es ++ fs) = performed key es ++ performed key fs := List.filterMap_append

/-- A step that stores and performs nothing, and leaves both views. -/
theorem Saving.Accounted.keep {d : Data F Item} {pre : List (SaveEvent F Item C E)}
    {e : SaveEvent F Item C E} {s t : Saving F Item C E} (h : s.Accounted rt d pre)
    (he : ∀ key, performed key [e] = []) (hstored : t.stored = s.stored)
    (hserver : t.object.serverData = s.object.serverData)
    (hestimated : t.object.estimatedData = s.object.estimatedData) :
    t.Accounted rt d (pre ++ [e]) := by
  refine ⟨fun key => ?_, fun key => ?_⟩
  · rw [hstored, hserver]
    exact h.server key
  · rw [performed_append, he, List.append_nil, hestimated]
    exact h.reads key

theorem accounted_step {d : Data F Item} {pre : List (SaveEvent F Item C E)}
    {e : SaveEvent F Item C E} {s t : Saving F Item C E} (hsound : s.Sound rt 0)
    (h : s.Accounted rt d pre) (he : e.Writing) (ht : s.step rt e = some t) :
    t.Accounted rt d (pre ++ [e]) := by
  cases e with
  | performOperation op key =>
      obtain ⟨o, ho, rfl⟩ := toOption_map ht
      obtain ⟨queue, last, hqueue⟩ := hsound.consistent.last
      obtain ⟨value, m, hvalue, -, rfl⟩ := performOperation_cases hqueue ho
      refine ⟨h.server, fun k => ?_⟩
      rw [performed_append, exec_append, bind_ok]
      refine ⟨s.object.estimatedData k, h.reads k, ?_⟩
      show exec _ (performed k [.performOperation op key]) _
        = .ok (Function.update s.object.estimatedData key value k)
      by_cases hk : key = k
      · subst hk
        rw [Function.update_self, show performed key [.performOperation op key] = [op] by
          simp [performed, SaveEvent.performs], exec_singleton]
        exact hvalue
      · rw [Function.update_of_ne (Ne.symm hk), show performed k [.performOperation op key] = [] by
          simp [performed, SaveEvent.performs, hk]]
        rfl
  | saveInBackground call =>
      obtain rfl := Option.some.inj ht
      exact h.keep (fun _ => rfl) rfl rfl rfl
  | saveAsync childrenDirty =>
      obtain ⟨call, waiting, -, -, ⟨-, rfl⟩ | ⟨-, -, -, -, -, rfl⟩ | ⟨-, -, -, rfl⟩⟩ :=
        saveAsync_cases ht
      · exact h.keep (fun _ => rfl) rfl rfl rfl
      · exact h.keep (fun _ => rfl) rfl rfl rfl
      · exact h.keep (fun _ => rfl) rfl rfl rfl
  | result reply =>
      rcases result_cases ht with ⟨call, r, -, -, rfl⟩ | ⟨call, error, -, rfl⟩
          | ⟨call, changes, r, o, hrun, rfl, ho, rfl⟩ | ⟨call, changes, e, o, -, rfl, ho, rfl⟩
      · exact h.keep (fun _ => rfl) rfl rfl rfl
      · exact h.keep (fun _ => rfl) rfl rfl rfl
      · -- the set that was sent is the first of the queue
        obtain rfl : r = ∅ := he
        obtain ⟨first, last, hshape, hlen⟩ := hsound.shape
        rw [List.eq_nil_of_length_eq_zero hlen, List.nil_append, Saving.sent, hrun] at hshape
        obtain ⟨o', ho', hest⟩ := success_total hsound.consistent
        obtain rfl := Except.ok.inj (ho.symm.trans ho')
        obtain ⟨saved, hsaved, hserver, -, -, -⟩ := success_cases hshape ho
        rw [lookup_empty_getD] at hserver
        refine ⟨fun key => ?_, fun key => ?_⟩
        · show exec _ (column key (dictionaries (s.stored ++ [changes]))) _ = .ok (o.serverData key)
          rw [dictionaries_concat, column_append, column_singleton, exec_append, bind_ok, hserver]
          exact ⟨s.object.serverData key, h.server key, applySet_ok_iff.mp hsaved key⟩
        · rw [performed_append]
          show exec _ (performed key pre ++ []) _ = .ok (o.estimatedData key)
          rw [List.append_nil, hest]
          exact h.reads key
      · obtain ⟨-, hserver, hest, -⟩ := consistent_failure hsound.consistent ho
        exact h.keep (fun _ => rfl) rfl hserver hest
  | completion i =>
      obtain ⟨-, ht⟩ := Option.ite_none_right_eq_some.mp ht
      obtain rfl := Option.some.inj ht
      exact h.keep (fun _ => rfl) rfl rfl rfl
  | fetched reply => exact absurd he id
  | revert childrenDirty => exact absurd he id
  | revertObjectForKey key => exact absurd he id

theorem failingRun_writing : ∀ e ∈ failingRun, e.Writing := by
  simp [failingRun, SaveEvent.Writing, FieldOperation.Replayable]

end Runs

end ParseSDK

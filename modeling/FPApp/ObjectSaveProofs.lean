import FPApp.EventRunProofs
import FPApp.FieldOperationProofs
import FPApp.OperationLogProofs

/-! # Saving a Parse object

    A `PFObject` keeps what the server is known to hold, a queue of operation
    sets, and its estimated data, which the app reads.  The last set of the
    queue takes the operations that are performed; a save pushes an empty set
    behind it and sends it.  The result of a save takes the first set out of
    the queue: into the server data on success, into the next set on failure.

    * `consistent_perform`, `consistent_failure`, `consistent_success` — the
      estimated data stays the server data with the queue applied to it,
      although neither an operation nor a failed save rebuilds it;
    * `failure_total`, `success_total`, `perform_total` — what can raise. -/

namespace ParseSDK

open OperationLog EventRun

section Object

variable {F Item : Type} [DecidableEq Item] (rt : Runtime F Item)

/-- The values under the keys of an object. -/
abbrev Data (F Item : Type) := String → Option (Value F Item)

/-- A `PFOperationSet`: its uuid and the operation of each key. -/
structure PFOperationSet (F Item : Type) where
  uuid : Nat
  dictionary : OpSet String (FieldOperation F Item)

/-- `count`. -/
def PFOperationSet.count (self : PFOperationSet F Item) : Nat := self.dictionary.entries.length

/-- An operation on the value of a key. -/
def act (op : FieldOperation F Item) (value : Option (Value F Item)) :
    Except NSException (Option (Value F Item)) := op.applyToValue rt value

/-- An operation after another one on the same key. -/
def mergePair (new previous : FieldOperation F Item) :
    Except NSException (FieldOperation F Item) := new.mergeWithPrevious rt (some previous)

/-- `-mergeOperationSet:`: the operations of `other` come before those of the
    receiver. -/
def PFOperationSet.mergeOperationSet (self other : PFOperationSet F Item) :
    Except NSException (PFOperationSet F Item) :=
  (absorb (mergePair rt) self.dictionary other.dictionary).map
    fun dictionary => { self with dictionary := dictionary }

/-- `+newValueByApplyingFieldOperation:toDictionary:forKey:`. -/
def newValueByApplyingFieldOperation (operation : FieldOperation F Item) (dictionary : Data F Item)
    (key : String) : Except NSException (Data F Item) :=
  (operation.applyToValue rt (dictionary key)).map (Function.update dictionary key)

/-- `+applyOperationSet:toDictionary:`. -/
def applyOperationSet (operationSet : PFOperationSet F Item) (dictionary : Data F Item) :
    Except NSException (Data F Item) :=
  applySet (act rt) operationSet.dictionary dictionary

/-- `+estimatedDataFromServerData:operationSetQueue:`. -/
def estimatedDataFromServerData (serverData : Data F Item)
    (operationSetQueue : List (PFOperationSet F Item)) : Except NSException (Data F Item) :=
  operationSetQueue.foldlM (fun data operationSet => applyOperationSet rt operationSet data)
    serverData

/-- A `PFObject`: the server data of its state, the queue of operation sets,
    the estimated data, and the flag `dirty`. -/
structure PFObject (F Item : Type) where
  serverData : Data F Item
  operationSetQueue : List (PFOperationSet F Item)
  estimatedData : Data F Item
  dirty : Bool

/-- What the server answers, key by key; `none` is a deletion. -/
abbrev Reply (F Item : Type) := AList (fun _ : String => Option (Value F Item))

/-- `-unsavedChanges`: the last set of the queue. -/
def PFObject.unsavedChanges (self : PFObject F Item) : Option (PFOperationSet F Item) :=
  self.operationSetQueue.getLast?

/-- Change the last set of the queue; a message to `nil` does nothing. -/
def modifyLast (f : PFOperationSet F Item → PFOperationSet F Item)
    (queue : List (PFOperationSet F Item)) : List (PFOperationSet F Item) :=
  match queue.getLast? with
  | none => queue
  | some last => queue.dropLast ++ [f last]

/-- `-_hasChanges`. -/
def PFObject.hasChanges (self : PFObject F Item) : Bool :=
  match self.unsavedChanges with
  | none => false
  | some changes => 0 < changes.count

/-- `-isDirty:YES`, for an object that is not deleted. -/
def PFObject.isDirty (self : PFObject F Item) (childrenDirty : Bool) : Bool :=
  self.dirty || self.hasChanges || childrenDirty

/-- `-rebuildEstimatedData`. -/
def PFObject.rebuildEstimatedData (self : PFObject F Item) :
    Except NSException (PFObject F Item) :=
  (estimatedDataFromServerData rt self.serverData self.operationSetQueue).map
    fun data => { self with estimatedData := data }

/-- `-performOperation:forKey:`. -/
def PFObject.performOperation (self : PFObject F Item) (operation : FieldOperation F Item)
    (key : String) : Except NSException (PFObject F Item) := do
  let estimatedData ← newValueByApplyingFieldOperation rt operation self.estimatedData key
  let oldOperation := self.unsavedChanges.bind fun changes => changes.dictionary.lookup key
  let newOperation ← operation.mergeWithPrevious rt oldOperation
  pure { self with
    estimatedData := estimatedData
    operationSetQueue := modifyLast
      (fun changes => { changes with dictionary := changes.dictionary.insert key newOperation })
      self.operationSetQueue }

/-- `-startSave`, with the uuid of the new set. -/
def PFObject.startSave (self : PFObject F Item) (uuid : Nat) : PFObject F Item :=
  { self with operationSetQueue := self.operationSetQueue ++ [⟨uuid, ∅⟩] }

/-- `-_mergeFromServerWithResult:decoder:completeData:`. -/
def PFObject.mergeFromServer (self : PFObject F Item) (result : Reply F Item) :
    PFObject F Item :=
  { self with
    serverData := fun key => (result.lookup key).getD (self.serverData key)
    dirty := false }

/-- `-_mergeAfterSaveWithResult:decoder:`; `none` for a failed save. -/
def PFObject.mergeAfterSave (self : PFObject F Item) (result : Option (Reply F Item)) :
    Except NSException (PFObject F Item) :=
  match self.operationSetQueue with
  | [] => .error .range
  | operationsBeforeSave :: queue =>
      match result with
      -- the changes of a failed save go before those made since
      | none =>
          match queue with
          | [] => .error .range
          | operationsForNextSave :: rest =>
              (operationsForNextSave.mergeOperationSet rt operationsBeforeSave).map
                fun merged => { self with operationSetQueue := merged :: rest }
      | some reply =>
          (applyOperationSet rt operationsBeforeSave self.serverData).bind fun serverData =>
            (PFObject.mergeFromServer
              { self with serverData := serverData, operationSetQueue := queue }
              reply).rebuildEstimatedData rt

/-- `-_mergeAfterFetchWithResult:decoder:completeData:` with complete data: the
    keys that the result lacks go. -/
def PFObject.mergeAfterFetch (self : PFObject F Item) (result : Reply F Item) :
    Except NSException (PFObject F Item) :=
  PFObject.rebuildEstimatedData rt
    { self with
      serverData := fun key => (result.lookup key).getD none
      dirty := false }

/-- `-revert`. -/
def PFObject.revert (self : PFObject F Item) (childrenDirty : Bool) :
    Except NSException (PFObject F Item) :=
  if self.isDirty childrenDirty then
    PFObject.rebuildEstimatedData rt
      { self with
        operationSetQueue :=
          modifyLast (fun changes => { changes with dictionary := ∅ }) self.operationSetQueue }
  else .ok self

/-- `-revertObjectForKey:`. -/
def PFObject.revertObjectForKey (self : PFObject F Item) (key : String) :
    Except NSException (PFObject F Item) :=
  if (self.unsavedChanges.bind fun changes => changes.dictionary.lookup key).isSome then
    PFObject.rebuildEstimatedData rt
      { self with
        operationSetQueue := modifyLast
          (fun changes => { changes with dictionary := changes.dictionary.erase key })
          self.operationSetQueue }
  else .ok self

/-! ## The saves of an object -/

/-- What a call of `-saveAsync:` is doing: the object was not dirty; it has
    nothing of its own to send and its children are saved; or its changes are
    being sent. -/
inductive Flight (F Item C : Type) where
  | unchanged (call : C)
  | children (call : C)
  | command (call : C) (changes : PFOperationSet F Item)

/-- An object with its task queue.  The server's list holds the change sets
    that it has stored, from the oldest. -/
structure Saving (F Item C E : Type) where
  object : PFObject F Item
  nextUUID : Nat
  waiting : List C
  running : Option (Flight F Item C)
  finished : List (C × Option E)
  stored : List (PFOperationSet F Item)

/-- What can happen to it. -/
inductive SaveEvent (F Item C E : Type) where
  | performOperation (operation : FieldOperation F Item) (key : String)
  | saveInBackground (call : C)
  | saveAsync (childrenDirty : Bool)
  | result (reply : Except E (Reply F Item))
  | completion (i : Nat)
  | fetched (reply : Reply F Item)
  | revert (childrenDirty : Bool)
  | revertObjectForKey (key : String)

variable {C E : Type}

/-- The block of `-saveAsync:` runs for the next call of the queue. -/
def Saving.saveAsync (s : Saving F Item C E) (childrenDirty : Bool) :
    Option (Saving F Item C E) :=
  match s.running, s.waiting with
  | none, call :: waiting =>
      if s.object.isDirty childrenDirty then
        match s.object.unsavedChanges with
        | none => none
        | some changes =>
            let object := s.object.startSave s.nextUUID
            if !object.dirty && changes.count == 0 then
              -- returns without taking the new set out again
              some { s with
                object := object
                nextUUID := s.nextUUID + 1
                waiting := waiting
                running := some (.children call) }
            else
              some { s with
                object := object
                nextUUID := s.nextUUID + 1
                waiting := waiting
                running := some (.command call changes) }
      else some { s with waiting := waiting, running := some (.unchanged call) }
  | _, _ => none

/-- The running save ends. -/
def Saving.result (s : Saving F Item C E) (reply : Except E (Reply F Item)) :
    Option (Saving F Item C E) :=
  match s.running, reply with
  | none, _ => none
  | some (.unchanged call), .ok _ =>
      some { s with running := none, finished := s.finished ++ [(call, none)] }
  -- nothing was sent that could fail
  | some (.unchanged _), .error _ => none
  | some (.children call), .ok _ =>
      some { s with running := none, finished := s.finished ++ [(call, none)] }
  | some (.children call), .error e =>
      some { s with running := none, finished := s.finished ++ [(call, some e)] }
  | some (.command call changes), .ok result =>
      (s.object.mergeAfterSave rt (some result)).toOption.map fun object =>
        { s with
          object := object
          running := none
          finished := s.finished ++ [(call, none)]
          stored := s.stored ++ [changes] }
  | some (.command call _), .error e =>
      (s.object.mergeAfterSave rt none).toOption.map fun object =>
        { s with
          object := object
          running := none
          finished := s.finished ++ [(call, some e)] }

/-- One event.  A fetch is queued like the saves, so that none is running. -/
def Saving.step (s : Saving F Item C E) : SaveEvent F Item C E → Option (Saving F Item C E)
  | .performOperation operation key =>
      (s.object.performOperation rt operation key).toOption.map
        fun object => { s with object := object }
  | .saveInBackground call => some { s with waiting := s.waiting ++ [call] }
  | .saveAsync childrenDirty => s.saveAsync childrenDirty
  | .result reply => s.result rt reply
  | .completion i =>
      if i < s.finished.length then some { s with finished := s.finished.eraseIdx i } else none
  | .fetched reply =>
      match s.running with
      | none =>
          (s.object.mergeAfterFetch rt reply).toOption.map fun object => { s with object := object }
      | some _ => none
  | .revert childrenDirty =>
      (s.object.revert rt childrenDirty).toOption.map fun object => { s with object := object }
  | .revertObjectForKey key =>
      (s.object.revertObjectForKey rt key).toOption.map fun object => { s with object := object }

/-- An object as the server has it. -/
def PFObject.fetched (serverData : Data F Item) (uuid : Nat) : PFObject F Item where
  serverData := serverData
  operationSetQueue := [⟨uuid, ∅⟩]
  estimatedData := serverData
  dirty := false

/-- With nothing saved yet. -/
def Saving.fetched (serverData : Data F Item) : Saving F Item C E where
  object := .fetched serverData 0
  nextUUID := 1
  waiting := []
  running := none
  finished := []
  stored := []

end Object

/-! ## What stays in the queue -/

section Queue

variable {F Item : Type} [DecidableEq Item] {rt : Runtime F Item}

omit [DecidableEq Item] in
theorem modifyLast_concat (f : PFOperationSet F Item → PFOperationSet F Item)
    (queue : List (PFOperationSet F Item)) (last : PFOperationSet F Item) :
    modifyLast f (queue ++ [last]) = queue ++ [f last] := by
  rw [modifyLast, List.getLast?_concat, List.dropLast_concat]

omit [DecidableEq Item] in
theorem modifyLast_id (queue : List (PFOperationSet F Item)) : modifyLast id queue = queue := by
  cases queue using List.reverseRecOn with
  | nil => rfl
  | append_singleton pre last => rw [modifyLast_concat, id]

theorem rebuild_queue {self o : PFObject F Item} (h : self.rebuildEstimatedData rt = .ok o) :
    o.operationSetQueue = self.operationSetQueue := by
  obtain ⟨data, -, rfl⟩ := map_ok.mp h
  rfl

/-- The step changes the last set only, and keeps its uuid. -/
def ChangesLast (self o : PFObject F Item) : Prop :=
  ∃ f : PFOperationSet F Item → PFOperationSet F Item, (∀ set, (f set).uuid = set.uuid)
    ∧ o.operationSetQueue = modifyLast f self.operationSetQueue

omit [DecidableEq Item] in
theorem changesLast_of_eq {self o : PFObject F Item}
    (h : o.operationSetQueue = self.operationSetQueue) : ChangesLast self o :=
  ⟨id, fun _ => rfl, h.trans (modifyLast_id _).symm⟩

theorem performOperation_changesLast {self o : PFObject F Item} {op : FieldOperation F Item}
    {key : String} (h : self.performOperation rt op key = .ok o) : ChangesLast self o := by
  rw [PFObject.performOperation, bind_ok] at h
  obtain ⟨data, -, h⟩ := h
  rw [bind_ok] at h
  obtain ⟨m, -, h⟩ := h
  rw [← Except.ok.inj h]
  exact ⟨fun set => { set with dictionary := set.dictionary.insert key m }, fun _ => rfl, rfl⟩

theorem mergeAfterFetch_changesLast {self o : PFObject F Item} {reply : Reply F Item}
    (h : self.mergeAfterFetch rt reply = .ok o) : ChangesLast self o := by
  rw [PFObject.mergeAfterFetch] at h
  have hqueue := rebuild_queue h
  exact changesLast_of_eq hqueue

theorem revert_changesLast {self o : PFObject F Item} {childrenDirty : Bool}
    (h : self.revert rt childrenDirty = .ok o) : ChangesLast self o := by
  rw [PFObject.revert] at h
  split at h
  · exact ⟨fun changes => { changes with dictionary := ∅ }, fun _ => rfl, rebuild_queue h⟩
  · rw [← Except.ok.inj h]
    exact changesLast_of_eq rfl

theorem revertObjectForKey_changesLast {self o : PFObject F Item} {key : String}
    (h : self.revertObjectForKey rt key = .ok o) : ChangesLast self o := by
  rw [PFObject.revertObjectForKey] at h
  split at h
  · exact ⟨fun changes => { changes with dictionary := changes.dictionary.erase key },
      fun _ => rfl, rebuild_queue h⟩
  · rw [← Except.ok.inj h]
    exact changesLast_of_eq rfl

end Queue

/-! ## What the app reads -/

section Consistency

variable {F Item : Type} [DecidableEq Item] {rt : Runtime F Item}

/-- The dictionaries of a queue. -/
def dictionaries (queue : List (PFOperationSet F Item)) :
    List (OpSet String (FieldOperation F Item)) :=
  queue.map PFOperationSet.dictionary

omit [DecidableEq Item] in
theorem dictionaries_concat (queue : List (PFOperationSet F Item)) (last : PFOperationSet F Item) :
    dictionaries (queue ++ [last]) = dictionaries queue ++ [last.dictionary] := List.map_append

theorem estimated_eq (serverData : Data F Item) (queue : List (PFOperationSet F Item)) :
    estimatedDataFromServerData rt serverData queue
      = replay (act rt) (dictionaries queue) serverData := by
  rw [dictionaries, replay, List.foldlM_map]
  rfl

/-- Merges of replayable operations are lawful. -/
theorem lawful_replayable :
    Lawful (act rt) (mergePair rt) (FieldOperation.Replayable : FieldOperation F Item → Prop) where
  replay hn hp hm hprev hnew := by
    obtain ⟨m', hm', hw⟩ := merge_replay hn hp hprev hnew
    obtain rfl := Except.ok.inj (hm.symm.trans hm')
    exact hw
  closed hn hp hm := replayable_merge hn hp hm

/-- The first operation on a key is recorded as it is. -/
theorem mergeWithPrevious_none (op : FieldOperation F Item) :
    op.mergeWithPrevious rt none = .ok op := by
  cases op <;> rfl

theorem joined_of_merge {op m : FieldOperation F Item} {old : Option (FieldOperation F Item)}
    (h : op.mergeWithPrevious rt old = .ok m) :
    joined (mergePair rt) (some op) old = .ok (some m) := by
  cases old with
  | none =>
      rw [mergeWithPrevious_none] at h
      rw [joined_none, Except.ok.inj h]
  | some previous => exact map_ok.mpr ⟨m, h, rfl⟩

/-- The estimated data is the server data with the queue applied to it, and the
    queue holds replayable operations only. -/
structure PFObject.Consistent (rt : Runtime F Item) (o : PFObject F Item) : Prop where
  nonempty : o.operationSetQueue ≠ []
  replayable : Within FieldOperation.Replayable (dictionaries o.operationSetQueue)
  estimated : replay (act rt) (dictionaries o.operationSetQueue) o.serverData
    = .ok o.estimatedData

theorem consistent_fetched (serverData : Data F Item) (uuid : Nat) :
    (PFObject.fetched serverData uuid).Consistent rt where
  nonempty := List.cons_ne_nil _ _
  replayable := within_empty
  estimated := rfl

/-- A rebuilt object is consistent. -/
theorem consistent_rebuild {self o : PFObject F Item} (hne : self.operationSetQueue ≠ [])
    (hrep : Within FieldOperation.Replayable (dictionaries self.operationSetQueue))
    (h : self.rebuildEstimatedData rt = .ok o) :
    o.Consistent rt := by
  obtain ⟨data, hdata, rfl⟩ := map_ok.mp h
  rw [estimated_eq] at hdata
  exact ⟨hne, hrep, hdata⟩

/-- What is performed is recorded in the last set and applied to what the app
    reads. -/
theorem performOperation_cases {self o : PFObject F Item} {op : FieldOperation F Item}
    {key : String} {pre : List (PFOperationSet F Item)} {last : PFOperationSet F Item}
    (hqueue : self.operationSetQueue = pre ++ [last])
    (h : self.performOperation rt op key = .ok o) :
    ∃ value m, op.applyToValue rt (self.estimatedData key) = .ok value
      ∧ op.mergeWithPrevious rt (last.dictionary.lookup key) = .ok m
      ∧ o = { self with
          estimatedData := Function.update self.estimatedData key value
          operationSetQueue :=
            pre ++ [{ last with dictionary := last.dictionary.insert key m }] } := by
  rw [PFObject.performOperation, bind_ok] at h
  obtain ⟨data, hdata, h⟩ := h
  rw [bind_ok] at h
  obtain ⟨m, hm, h⟩ := h
  obtain ⟨value, hvalue, rfl⟩ := map_ok.mp hdata
  rw [PFObject.unsavedChanges, hqueue, List.getLast?_concat] at hm
  refine ⟨value, m, hvalue, hm, ?_⟩
  rw [hqueue, modifyLast_concat] at h
  exact (Except.ok.inj h).symm

theorem PFObject.Consistent.last {self : PFObject F Item} (h : self.Consistent rt) :
    ∃ pre last, self.operationSetQueue = pre ++ [last] :=
  ⟨_, _, (List.dropLast_append_getLast h.nonempty).symm⟩

theorem consistent_perform {self o : PFObject F Item} {op : FieldOperation F Item} {key : String}
    (h : self.Consistent rt) (hop : op.Replayable)
    (ho : self.performOperation rt op key = .ok o) : o.Consistent rt := by
  obtain ⟨pre, last, hqueue⟩ := h.last
  obtain ⟨value, m, hvalue, hm, rfl⟩ := performOperation_cases hqueue ho
  have hrep := h.replayable
  have hest := h.estimated
  rw [hqueue, dictionaries_concat] at hrep hest
  obtain ⟨hpre, hlast⟩ := within_append.mp hrep
  have hjoin := joined_of_merge hm
  refine ⟨by simp, ?_, ?_⟩
  · show Within _ (dictionaries (pre ++ [_]))
    rw [dictionaries_concat, within_append]
    exact ⟨hpre, within_record lawful_replayable hop hlast hjoin⟩
  · show replay _ (dictionaries (pre ++ [_])) _ = _
    rw [dictionaries_concat]
    exact replay_record lawful_replayable hop hlast hjoin hvalue hest

theorem consistent_startSave {self : PFObject F Item} (h : self.Consistent rt) (uuid : Nat) :
    (self.startSave uuid).Consistent rt where
  nonempty := by simp [PFObject.startSave]
  replayable := by
    show Within _ (dictionaries (self.operationSetQueue ++ [_]))
    rw [dictionaries_concat, within_append]
    exact ⟨h.replayable, within_empty⟩
  estimated := by
    show replay _ (dictionaries (self.operationSetQueue ++ [_])) _ = _
    rw [dictionaries_concat, replay_ok_iff]
    intro k
    rw [column_append, column_singleton, AList.lookup_empty, Option.toList_none, List.append_nil]
    exact replay_ok_iff.mp h.estimated k

/-- **ROLL FORWARD**: the changes of a failed save go into the next set, and the
    app reads what it read before. -/
theorem consistent_failure {self o : PFObject F Item} (h : self.Consistent rt)
    (ho : self.mergeAfterSave rt none = .ok o) :
    o.Consistent rt ∧ o.serverData = self.serverData ∧ o.estimatedData = self.estimatedData
      ∧ o.dirty = self.dirty := by
  have hrep := h.replayable
  have hest := h.estimated
  rcases hqueue : self.operationSetQueue with _ | ⟨before, _ | ⟨next, rest⟩⟩
  · exact absurd hqueue h.nonempty
  · simp [PFObject.mergeAfterSave, hqueue] at ho
  · simp only [PFObject.mergeAfterSave, hqueue] at ho
    obtain ⟨merged, hmerged, rfl⟩ := map_ok.mp ho
    obtain ⟨dictionary, hdict, rfl⟩ := map_ok.mp hmerged
    rw [hqueue] at hrep hest
    obtain ⟨hbefore, hrest⟩ := within_cons.mp hrep
    obtain ⟨hnext, hrest⟩ := within_cons.mp hrest
    refine ⟨⟨List.cons_ne_nil _ _, ?_, ?_⟩, rfl, rfl, rfl⟩
    · exact within_cons.mpr ⟨within_absorb lawful_replayable hnext hbefore hdict, hrest⟩
    · exact replay_absorb lawful_replayable hnext hbefore hdict hest

/-- A save that succeeded: its changes are in the server data, and what the
    server answered is on top of them. -/
theorem success_cases {self o : PFObject F Item} {reply : Reply F Item}
    {before : PFOperationSet F Item} {queue : List (PFOperationSet F Item)}
    (hqueue : self.operationSetQueue = before :: queue)
    (ho : self.mergeAfterSave rt (some reply) = .ok o) :
    ∃ saved, applySet (act rt) before.dictionary self.serverData = .ok saved
      ∧ o.serverData = (fun key => (reply.lookup key).getD (saved key))
      ∧ o.operationSetQueue = queue ∧ o.dirty = false
      ∧ replay (act rt) (dictionaries queue) o.serverData = .ok o.estimatedData := by
  simp only [PFObject.mergeAfterSave, hqueue] at ho
  obtain ⟨saved, hsaved, hrebuild⟩ := bind_ok.mp ho
  obtain ⟨data, hdata, rfl⟩ := map_ok.mp hrebuild
  rw [estimated_eq] at hdata
  exact ⟨saved, hsaved, rfl, rfl, rfl, hdata⟩

theorem consistent_success {self o : PFObject F Item} {reply : Reply F Item}
    (h : self.Consistent rt) (hlen : 1 < self.operationSetQueue.length)
    (ho : self.mergeAfterSave rt (some reply) = .ok o) : o.Consistent rt := by
  rcases hqueue : self.operationSetQueue with _ | ⟨before, queue⟩
  · exact absurd hqueue h.nonempty
  · obtain ⟨saved, -, -, hq, -, hest⟩ := success_cases hqueue ho
    have hrep := h.replayable
    rw [hqueue] at hrep hlen
    refine ⟨?_, ?_, ?_⟩
    · rw [hq]
      rintro rfl
      exact absurd hlen (by simp)
    · rw [hq]
      exact (within_cons.mp hrep).2
    · rw [hq]
      exact hest

theorem consistent_fetch {self o : PFObject F Item} {reply : Reply F Item}
    (h : self.Consistent rt) (ho : self.mergeAfterFetch rt reply = .ok o) :
    o.Consistent rt := by
  rw [PFObject.mergeAfterFetch] at ho
  exact consistent_rebuild (by exact h.nonempty) (by exact h.replayable) ho

/-- To take operations out of the last set leaves the others. -/
theorem consistent_modifyLast {self o : PFObject F Item}
    {f : PFOperationSet F Item → PFOperationSet F Item} (h : self.Consistent rt)
    (hf : ∀ set k op, (f set).dictionary.lookup k = some op → set.dictionary.lookup k = some op)
    (ho : PFObject.rebuildEstimatedData rt
      { self with operationSetQueue := modifyLast f self.operationSetQueue } = .ok o) :
    o.Consistent rt := by
  obtain ⟨pre, last, hqueue⟩ := h.last
  have hrep := h.replayable
  rw [hqueue, dictionaries_concat] at hrep
  obtain ⟨hpre, hlast⟩ := within_append.mp hrep
  refine consistent_rebuild ?_ ?_ ho
  · show modifyLast f self.operationSetQueue ≠ []
    rw [hqueue, modifyLast_concat]
    simp
  · show Within _ (dictionaries (modifyLast f self.operationSetQueue))
    rw [hqueue, modifyLast_concat, dictionaries_concat, within_append]
    refine ⟨hpre, within_singleton.mpr fun k op hop => ?_⟩
    exact within_singleton.mp hlast k op (hf last k op hop)

theorem consistent_revert {self o : PFObject F Item} {childrenDirty : Bool}
    (h : self.Consistent rt) (ho : self.revert rt childrenDirty = .ok o) :
    o.Consistent rt := by
  rw [PFObject.revert] at ho
  by_cases hdirty : self.isDirty childrenDirty = true
  · rw [if_pos hdirty] at ho
    exact consistent_modifyLast h (by simp) ho
  · rw [if_neg hdirty] at ho
    rw [← Except.ok.inj ho]
    exact h

theorem consistent_revertObjectForKey {self o : PFObject F Item} {key : String}
    (h : self.Consistent rt) (ho : self.revertObjectForKey rt key = .ok o) :
    o.Consistent rt := by
  rw [PFObject.revertObjectForKey] at ho
  split at ho
  · have herase : ∀ (set : PFOperationSet F Item) (k : String) (op : FieldOperation F Item),
        (set.dictionary.erase key).lookup k = some op → set.dictionary.lookup k = some op := by
      intro set k op hop
      by_cases hk : k = key
      · subst hk
        rw [AList.lookup_erase] at hop
        exact absurd hop (by simp)
      · rwa [AList.lookup_erase_ne hk] at hop
    exact consistent_modifyLast h herase ho
  · rw [← Except.ok.inj ho]
    exact h

/-- A failed save can be rolled forward. -/
theorem failure_total {self : PFObject F Item} (h : self.Consistent rt)
    (hlen : 1 < self.operationSetQueue.length) : ∃ o, self.mergeAfterSave rt none = .ok o := by
  have hrep := h.replayable
  have hest := h.estimated
  rcases hqueue : self.operationSetQueue with _ | ⟨before, _ | ⟨next, rest⟩⟩
  · simp [hqueue] at hlen
  · simp [hqueue] at hlen
  · rw [hqueue] at hrep hest
    obtain ⟨hbefore, hrest⟩ := within_cons.mp hrep
    obtain ⟨hnext, -⟩ := within_cons.mp hrest
    obtain ⟨dictionary, hdict⟩ :
        ∃ m, absorb (mergePair rt) next.dictionary before.dictionary = .ok m := by
      refine absorb_total fun k => ?_
      have hk := replay_ok_iff.mp hest k
      rw [show dictionaries (before :: next :: rest)
          = before.dictionary :: next.dictionary :: dictionaries rest from rfl,
        column_cons, column_cons] at hk
      cases hnk : next.dictionary.lookup k with
      | none =>
          cases hbk : before.dictionary.lookup k with
          | none => exact ⟨none, rfl⟩
          | some p => exact ⟨some p, rfl⟩
      | some n =>
          cases hbk : before.dictionary.lookup k with
          | none => exact ⟨some n, rfl⟩
          | some p =>
              -- the two operations were applied one after the other
              rw [hnk, hbk, Option.toList_some, Option.toList_some, List.singleton_append,
                exec_cons, bind_ok] at hk
              obtain ⟨w, hw, hk⟩ := hk
              rw [List.singleton_append, exec_cons, bind_ok] at hk
              obtain ⟨x, hx, -⟩ := hk
              obtain ⟨m, hm, -⟩ := merge_replay (within_singleton.mp hnext k n hnk)
                (within_singleton.mp hbefore k p hbk) hw hx
              exact ⟨some m, map_ok.mpr ⟨m, hm, rfl⟩⟩
    refine ⟨{ self with
      operationSetQueue := { next with dictionary := dictionary } :: rest }, ?_⟩
    simp only [PFObject.mergeAfterSave, hqueue]
    exact map_ok.mpr ⟨_, map_ok.mpr ⟨dictionary, hdict, rfl⟩, rfl⟩

omit [DecidableEq Item] in
/-- The empty answer: nothing but the date of the save. -/
theorem lookup_empty_getD (serverData : Data F Item) :
    (fun key => ((∅ : Reply F Item).lookup key).getD (serverData key)) = serverData := rfl

/-- A save that succeeded, answered with nothing but its date. -/
theorem success_total {self : PFObject F Item} (h : self.Consistent rt) :
    ∃ o, self.mergeAfterSave rt (some ∅) = .ok o ∧ o.estimatedData = self.estimatedData := by
  have hest := h.estimated
  rcases hqueue : self.operationSetQueue with _ | ⟨before, queue⟩
  · exact absurd hqueue h.nonempty
  · rw [hqueue] at hest
    obtain ⟨saved, hsaved, hrest⟩ : ∃ saved,
        applySet (act rt) before.dictionary self.serverData = .ok saved
          ∧ replay (act rt) (dictionaries queue) saved = .ok self.estimatedData := by
      exact bind_ok.mp hest
    refine ⟨{ serverData := saved, operationSetQueue := queue,
              estimatedData := self.estimatedData, dirty := false }, ?_, rfl⟩
    simp only [PFObject.mergeAfterSave, hqueue]
    refine bind_ok.mpr ⟨saved, hsaved, map_ok.mpr ⟨self.estimatedData, ?_, rfl⟩⟩
    rw [estimated_eq]
    exact hrest

/-- To perform an operation raises exactly where it does not fit what the app
    reads. -/
theorem perform_total {self : PFObject F Item} {op : FieldOperation F Item} {key : String}
    (h : self.Consistent rt) (hop : op.Replayable) :
    (∃ o, self.performOperation rt op key = .ok o)
      ↔ ∃ value, op.applyToValue rt (self.estimatedData key) = .ok value := by
  obtain ⟨pre, last, hqueue⟩ := h.last
  constructor
  · rintro ⟨o, ho⟩
    obtain ⟨value, m, hvalue, -⟩ := performOperation_cases hqueue ho
    exact ⟨value, hvalue⟩
  · rintro ⟨value, hvalue⟩
    obtain ⟨m, hm⟩ : ∃ m, op.mergeWithPrevious rt (last.dictionary.lookup key) = .ok m := by
      cases hold : last.dictionary.lookup key with
      | none => exact ⟨op, mergeWithPrevious_none op⟩
      | some old =>
          have hrep := h.replayable
          rw [hqueue, dictionaries_concat] at hrep
          have hlast := within_singleton.mp (within_append.mp hrep).2 key old hold
          have hk := replay_ok_iff.mp h.estimated key
          rw [hqueue, dictionaries_concat, column_append, column_singleton, hold, exec_append,
            bind_ok] at hk
          obtain ⟨v, -, hv⟩ := hk
          rw [Option.toList_some, exec_singleton] at hv
          obtain ⟨m, hm, -⟩ := merge_replay hop hlast hv hvalue
          exact ⟨m, hm⟩
    refine ⟨{ self with
      estimatedData := Function.update self.estimatedData key value
      operationSetQueue := modifyLast
        (fun changes => { changes with dictionary := changes.dictionary.insert key m })
        self.operationSetQueue }, ?_⟩
    rw [PFObject.performOperation, bind_ok]
    refine ⟨Function.update self.estimatedData key value, map_ok.mpr ⟨value, hvalue, rfl⟩, ?_⟩
    rw [bind_ok]
    refine ⟨m, ?_, rfl⟩
    rw [PFObject.unsavedChanges, hqueue, List.getLast?_concat]
    exact hm

end Consistency

end ParseSDK

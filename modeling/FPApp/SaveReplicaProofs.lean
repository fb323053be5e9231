import FPApp.ReplicaProofs
import FPApp.SaveRunProofs

/-! # The saves of an object refine a replicated record

    The screens set keys of the current user and save it.  A user object has no
    children to save, and the server answers a save with its date.  Such an
    object is a record held locally and written back by queued saves: the last
    set of its queue holds the pending keys, and the set that is sent is what
    the running save carries.

    * `mirrors_step` — every event is one operation of the record;
    * `save_refines_replica` — every run of the object is a run of the record,
      with the same values, the same server data and the same ended calls. -/

namespace ParseSDK

open OperationLog EventRun WriteBack

variable {F Item C E : Type} [DecidableEq Item] {rt : Runtime F Item}

/-- The operation of the record that an event is. -/
def SaveEvent.toOp : SaveEvent F Item C E → Option (Replica.Op String (Option (Value F Item)) C E)
  | .performOperation (.set value) key => some (.set key (some value))
  | .saveInBackground call => some (.call call)
  | .saveAsync false => some .start
  | .result (.ok reply) => if reply.entries.isEmpty then some (.finish none) else none
  | .result (.error e) => some (.finish (some e))
  | .completion i => some (.deliver i)
  | _ => none

/-- The operation sets a value. -/
def FieldOperation.IsSet (op : FieldOperation F Item) : Prop := ∃ value, op = .set value

theorem lawful_set :
    Lawful (act rt) (mergePair rt) (FieldOperation.IsSet : FieldOperation F Item → Prop) where
  replay := by
    rintro new previous m v w x ⟨value, rfl⟩ - hm - hx
    obtain rfl := Except.ok.inj hm
    exact hx
  closed := by
    rintro new previous m ⟨value, rfl⟩ - hm
    exact ⟨value, (Except.ok.inj hm).symm⟩

/-- What runs for the object and for the record. -/
inductive SameFlight : Option (Flight F Item C) →
    Option (WriteBack.Flight String (Option (Value F Item)) C) → Prop where
  | idle : SameFlight none none
  | unchanged (f : WriteBack.Flight String (Option (Value F Item)) C) (carried : f.carried = ∅) :
      SameFlight (some (.unchanged f.call)) (some f)
  | command (changes : PFOperationSet F Item)
      (f : WriteBack.Flight String (Option (Value F Item)) C)
      (carried : ∀ k, k ∈ f.carried ↔ (changes.dictionary.lookup k).isSome)
      (some_key : f.carried ≠ ∅)
      (snapshot : ∀ k value, changes.dictionary.lookup k = some (.set value) →
        f.snapshot k = some value) :
      SameFlight (some (.command f.call changes)) (some f)

omit [DecidableEq Item] in
theorem SameFlight.none {f : Option (WriteBack.Flight String (Option (Value F Item)) C)}
    (h : SameFlight (Option.none : Option (Flight F Item C)) f) : f = Option.none := by
  cases h
  rfl

/-- The object and the record hold the same. -/
structure Mirrors (rt : Runtime F Item) (s : Saving F Item C E)
    (r : Replica String (Option (Value F Item)) C E) : Prop where
  sound : s.Sound rt 0
  clean : s.object.dirty = false
  sets : Within FieldOperation.IsSet (dictionaries s.object.operationSetQueue)
  value : r.value = s.object.estimatedData
  server : r.server = s.object.serverData
  pending : ∀ last, s.object.unsavedChanges = some last →
    ∀ k, k ∈ r.pending ↔ (last.dictionary.lookup k).isSome
  waiting : r.waiting = s.waiting
  finished : r.finished = s.finished
  running : SameFlight s.running r.running

theorem mirrors_fetched (d : Data F Item) :
    Mirrors rt (Saving.fetched d : Saving F Item C E) (Replica.fresh d) where
  sound := sound_fetched d
  clean := rfl
  sets := within_empty
  value := rfl
  server := rfl
  pending := by
    intro last hlast k
    obtain rfl := Option.some.inj hlast
    simp [Replica.fresh]
  waiting := rfl
  finished := rfl
  running := .idle

/-- A set of a key is what the app reads. -/
theorem read_last {self : PFObject F Item} {last : PFOperationSet F Item} {k : String}
    {value : Value F Item} (h : self.Consistent rt) (hlast : self.unsavedChanges = some last)
    (hk : last.dictionary.lookup k = some (.set value)) : self.estimatedData k = some value := by
  obtain ⟨pre, last', hqueue⟩ := h.last
  rw [PFObject.unsavedChanges, hqueue, List.getLast?_concat] at hlast
  obtain rfl := Option.some.inj hlast
  have hest := replay_ok_iff.mp h.estimated k
  rw [hqueue, dictionaries_concat, column_append, column_singleton, hk, exec_append,
    bind_ok] at hest
  obtain ⟨v, -, hv⟩ := hest
  rw [Option.toList_some, exec_singleton] at hv
  exact (Except.ok.inj hv).symm

omit [DecidableEq Item] in
theorem hasChanges_iff {self : PFObject F Item} {last : PFOperationSet F Item}
    (hlast : self.unsavedChanges = some last) :
    self.hasChanges = true ↔ ∃ k, (last.dictionary.lookup k).isSome := by
  have hcount : self.hasChanges = decide (0 < last.dictionary.entries.length) := by
    rw [PFObject.hasChanges, hlast]
    rfl
  rw [hcount, decide_eq_true_eq, List.length_pos_iff_exists_mem]
  constructor
  · rintro ⟨e, he⟩
    refine ⟨e.1, AList.lookup_isSome.mpr ?_⟩
    exact List.mem_map_of_mem he
  · rintro ⟨k, hk⟩
    obtain ⟨e, he, -⟩ := List.mem_map.mp (AList.lookup_isSome.mp hk)
    exact ⟨e, he⟩

theorem mirrors_set {s : Saving F Item C E} {r : Replica String (Option (Value F Item)) C E}
    {value : Value F Item} {key : String} {o : PFObject F Item} (h : Mirrors rt s r)
    (hsound : Saving.Sound rt { s with object := o } 0)
    (ho : s.object.performOperation rt (.set value) key = .ok o) :
    Mirrors rt { s with object := o } (r.set key (some value)) := by
  obtain ⟨pre, last, hqueue⟩ := h.sound.consistent.last
  obtain ⟨v, m, hv, hm, rfl⟩ := performOperation_cases hqueue ho
  obtain rfl := Except.ok.inj hv
  have hlast : s.object.unsavedChanges = some last := by
    rw [PFObject.unsavedChanges, hqueue, List.getLast?_concat]
  have hsets := h.sets
  rw [hqueue, dictionaries_concat, within_append] at hsets
  refine ⟨hsound, h.clean, ?_, ?_, h.server, ?_, h.waiting, h.finished, h.running⟩
  · show Within _ (dictionaries (pre ++ [_]))
    rw [dictionaries_concat, within_append]
    exact ⟨hsets.1, within_record lawful_set ⟨value, rfl⟩ hsets.2 (joined_of_merge hm)⟩
  · show Function.update r.value key (some value) = _
    rw [h.value]
  · intro last' hlast' k
    rw [PFObject.unsavedChanges, List.getLast?_concat] at hlast'
    obtain rfl := Option.some.inj hlast'
    rw [Replica.mem_pending_set, h.pending last hlast]
    by_cases hk : k = key
    · subst hk
      simp
    · simp [hk, AList.lookup_insert_ne hk]

omit [DecidableEq Item] in
theorem unsaved_startSave (self : PFObject F Item) (uuid : Nat) :
    (self.startSave uuid).unsavedChanges = some ⟨uuid, ∅⟩ := List.getLast?_concat ..

theorem mirrors_start {s t : Saving F Item C E}
    {r : Replica String (Option (Value F Item)) C E} (h : Mirrors rt s r)
    (hsound : t.Sound rt 0) (ht : s.saveAsync false = some t) :
    ∃ r', r.start = some r' ∧ Mirrors rt t r' := by
  obtain ⟨call, waiting, hrun, hwait, hcases⟩ := saveAsync_cases ht
  have hrrun : r.running = none := by
    have hflight := h.running
    rw [hrun] at hflight
    exact hflight.none
  have hrwait : r.waiting = call :: waiting := by rw [h.waiting, hwait]
  refine ⟨{ r with
      waiting := waiting
      running := some ⟨call, r.pending, r.value⟩
      pending := ∅ }, by rw [Replica.start, hrrun, hrwait], ?_⟩
  obtain ⟨pre, last, hqueue⟩ := h.sound.consistent.last
  have hlast : s.object.unsavedChanges = some last := by
    rw [PFObject.unsavedChanges, hqueue, List.getLast?_concat]
  rcases hcases with ⟨hclean, rfl⟩ | ⟨-, -, -, -, hfalse, -⟩ | ⟨changes, hchanges, hown, rfl⟩
  · -- nothing is pending
    have hno : ∀ k, (last.dictionary.lookup k).isSome = false := by
      intro k
      rw [PFObject.isDirty, h.clean, Bool.false_or, Bool.or_false] at hclean
      rw [Bool.eq_false_iff]
      intro hk
      have hyes := (hasChanges_iff hlast).mpr ⟨k, hk⟩
      rw [hclean] at hyes
      exact absurd hyes (by decide)
    refine ⟨hsound, h.clean, h.sets, h.value, h.server, ?_, rfl, h.finished, ?_⟩
    · intro last' hlast' k
      obtain rfl := Option.some.inj (hlast.symm.trans hlast')
      simp [hno k]
    · refine .unchanged ⟨call, r.pending, r.value⟩ ?_
      refine Finset.eq_empty_iff_forall_notMem.mpr fun k hk => ?_
      have hsome := (h.pending last hlast k).mp hk
      rw [hno k] at hsome
      exact absurd hsome (by decide)
  · exact absurd hfalse (by decide)
  · obtain rfl := Option.some.inj (hlast.symm.trans hchanges)
    rw [h.clean, Bool.false_or] at hown
    refine ⟨hsound, h.clean, ?_, h.value, h.server, ?_, rfl, h.finished, ?_⟩
    · show Within _ (dictionaries (s.object.operationSetQueue ++ [_]))
      rw [dictionaries_concat, within_append]
      exact ⟨h.sets, within_empty⟩
    · intro last' hlast' k
      rw [unsaved_startSave] at hlast'
      obtain rfl := Option.some.inj hlast'
      simp
    · refine .command last ⟨call, r.pending, r.value⟩ (h.pending last hlast) ?_ ?_
      · obtain ⟨k, hk⟩ := (hasChanges_iff hlast).mp hown
        exact Finset.ne_empty_of_mem ((h.pending last hlast k).mpr hk)
      · intro k value hk
        show r.value k = some value
        rw [h.value]
        exact read_last h.sound.consistent hlast hk

/-- The set that is sent and the last set are the queue. -/
theorem queue_of_sound {s : Saving F Item C E} {call : C} {changes : PFOperationSet F Item}
    (h : s.Sound rt 0) (hrun : s.running = some (.command call changes)) :
    ∃ last, s.object.operationSetQueue = [changes, last]
      ∧ s.object.unsavedChanges = some last := by
  obtain ⟨pre, last, hshape, hlen⟩ := h.shape
  rw [List.eq_nil_of_length_eq_zero hlen, Saving.sent, hrun] at hshape
  refine ⟨last, hshape, ?_⟩
  rw [PFObject.unsavedChanges, hshape]
  rfl

theorem mirrors_unchanged {s : Saving F Item C E}
    {r : Replica String (Option (Value F Item)) C E} {call : C} (h : Mirrors rt s r)
    (hrun : s.running = some (.unchanged call))
    (hsound : Saving.Sound rt
      { s with running := none, finished := s.finished ++ [(call, none)] } 0) :
    ∃ r', r.finish none = some r'
      ∧ Mirrors rt { s with running := none, finished := s.finished ++ [(call, none)] } r' := by
  have hflight := h.running
  rw [hrun] at hflight
  generalize hr : r.running = running at hflight
  cases hflight with
  | unchanged f hcarried =>
      refine ⟨{ r with
        server := fun k => if k ∈ f.carried then f.snapshot k else r.server k
        running := none
        finished := r.finished ++ [(f.call, none)] }, by simp only [Replica.finish, hr], ?_⟩
      refine ⟨hsound, h.clean, h.sets, h.value, ?_, h.pending, h.waiting, ?_, .idle⟩
      · rw [← h.server]
        funext k
        simp [hcarried]
      · show r.finished ++ _ = _
        rw [h.finished]

theorem mirrors_success {s : Saving F Item C E}
    {r : Replica String (Option (Value F Item)) C E} {call : C} {changes : PFOperationSet F Item}
    {o : PFObject F Item} {stored : List (PFOperationSet F Item)} (h : Mirrors rt s r)
    (hrun : s.running = some (.command call changes))
    (ho : s.object.mergeAfterSave rt (some ∅) = .ok o)
    (hsound : Saving.Sound rt
      { s with
        object := o
        running := none
        finished := s.finished ++ [(call, none)]
        stored := stored } 0) :
    ∃ r', r.finish none = some r'
      ∧ Mirrors rt
        { s with
          object := o
          running := none
          finished := s.finished ++ [(call, none)]
          stored := stored } r' := by
  obtain ⟨last, hqueue, hlast⟩ := queue_of_sound h.sound hrun
  obtain ⟨saved, hsaved, hserver, hq, hdirty, -⟩ := success_cases hqueue ho
  rw [lookup_empty_getD] at hserver
  obtain ⟨o', ho', hest⟩ := success_total h.sound.consistent
  obtain rfl := Except.ok.inj (ho.symm.trans ho')
  have hsets := h.sets
  rw [hqueue, show dictionaries [changes, last] = [changes.dictionary, last.dictionary] from rfl]
    at hsets
  obtain ⟨hchanges, hrest⟩ := within_cons.mp hsets
  have hflight := h.running
  rw [hrun] at hflight
  generalize hr : r.running = running at hflight
  cases hflight with
  | command changes f hcarried hsome hsnapshot =>
      refine ⟨{ r with
        server := fun k => if k ∈ f.carried then f.snapshot k else r.server k
        running := none
        finished := r.finished ++ [(f.call, none)] }, by simp only [Replica.finish, hr], ?_⟩
      refine ⟨hsound, hdirty, ?_, h.value.trans hest.symm, ?_, ?_, h.waiting, ?_, .idle⟩
      · show Within _ (dictionaries o.operationSetQueue)
        rw [hq]
        exact hrest
      · show (fun k => if k ∈ f.carried then f.snapshot k else r.server k) = o.serverData
        rw [hserver]
        funext k
        have hk := applySet_ok_iff.mp hsaved k
        cases hlook : changes.dictionary.lookup k with
        | none =>
            have hnot : k ∉ f.carried := fun hmem => by simpa [hlook] using (hcarried k).mp hmem
            rw [hlook] at hk
            rw [if_neg hnot, h.server]
            exact Except.ok.inj hk
        | some op =>
            obtain ⟨value, rfl⟩ := within_singleton.mp hchanges k op hlook
            have hmem : k ∈ f.carried := (hcarried k).mpr (by rw [hlook]; rfl)
            rw [hlook, Option.toList_some, exec_singleton] at hk
            rw [if_pos hmem, hsnapshot k value hlook]
            exact Except.ok.inj hk
      · intro last' hlast' k
        have hsame : o.unsavedChanges = some last := by
          rw [PFObject.unsavedChanges, hq]
          rfl
        obtain rfl := Option.some.inj (hsame.symm.trans hlast')
        exact h.pending last hlast k
      · show r.finished ++ _ = _
        rw [h.finished]

theorem mirrors_failure {s : Saving F Item C E}
    {r : Replica String (Option (Value F Item)) C E} {call : C} {changes : PFOperationSet F Item}
    {o : PFObject F Item} {e : E} (h : Mirrors rt s r)
    (hrun : s.running = some (.command call changes))
    (ho : s.object.mergeAfterSave rt none = .ok o)
    (hsound : Saving.Sound rt
      { s with object := o, running := none, finished := s.finished ++ [(call, some e)] } 0) :
    ∃ r', r.finish (some e) = some r'
      ∧ Mirrors rt
        { s with object := o, running := none, finished := s.finished ++ [(call, some e)] } r' := by
  obtain ⟨last, hqueue, hlast⟩ := queue_of_sound h.sound hrun
  obtain ⟨-, hserver, hest, hdirty⟩ := consistent_failure h.sound.consistent ho
  have hsets := h.sets
  rw [hqueue, show dictionaries [changes, last] = [changes.dictionary, last.dictionary] from rfl]
    at hsets
  obtain ⟨hchanges, hrest⟩ := within_cons.mp hsets
  simp only [PFObject.mergeAfterSave, hqueue] at ho
  obtain ⟨merged, hmerged, rfl⟩ := map_ok.mp ho
  obtain ⟨dictionary, hdict, rfl⟩ := map_ok.mp hmerged
  have hflight := h.running
  rw [hrun] at hflight
  generalize hr : r.running = running at hflight
  cases hflight with
  | command changes f hcarried hsome hsnapshot =>
      refine ⟨{ r with
        pending := r.pending ∪ f.carried
        running := none
        finished := r.finished ++ [(f.call, some e)] }, by simp [Replica.finish, hr, hsome], ?_⟩
      refine ⟨hsound, hdirty.trans h.clean, ?_, h.value.trans hest.symm,
        h.server.trans hserver.symm, ?_, h.waiting, ?_, .idle⟩
      · exact within_absorb lawful_set hrest hchanges hdict
      · intro last' hlast' k
        obtain rfl := Option.some.inj hlast'
        -- a key is pending again when either set holds it
        have hjoin := lookup_absorb hdict k
        show k ∈ r.pending ∪ f.carried ↔ (dictionary.lookup k).isSome
        rw [Finset.mem_union, h.pending last hlast, hcarried]
        cases hnew : last.dictionary.lookup k with
        | none =>
            cases hold : changes.dictionary.lookup k with
            | none =>
                rw [hnew, hold] at hjoin
                rw [← Except.ok.inj hjoin]
                simp
            | some p =>
                rw [hnew, hold] at hjoin
                rw [← Except.ok.inj hjoin]
                simp
        | some n =>
            cases hold : changes.dictionary.lookup k with
            | none =>
                rw [hnew, hold] at hjoin
                rw [← Except.ok.inj hjoin]
                simp
            | some p =>
                rw [hnew, hold] at hjoin
                obtain ⟨m, -, hm⟩ := map_ok.mp hjoin
                rw [← hm]
                simp
      · show r.finished ++ _ = _
        rw [h.finished]

/-- **ONE OPERATION FOR EACH EVENT**: an event of the object is the operation of
    the record that it stands for. -/
theorem mirrors_step {s t : Saving F Item C E} {e : SaveEvent F Item C E}
    {op : Replica.Op String (Option (Value F Item)) C E}
    {r : Replica String (Option (Value F Item)) C E} (h : Mirrors rt s r)
    (he : e.toOp = some op) (ht : s.step rt e = some t) :
    ∃ r', r.apply op = some r' ∧ Mirrors rt t r' := by
  have hkeep : e.Replayable → s.leak e = none → t.Sound rt 0 := by
    intro hrep hleak
    have hsound := sound_step h.sound hrep ht
    rwa [hleak] at hsound
  cases e with
  | performOperation operation key =>
      cases operation with
      | set value =>
          obtain rfl := Option.some.inj he
          have hsound := hkeep trivial rfl
          have hset : (s.object.performOperation rt (.set value) key).toOption.map
              (fun object => { s with object := object }) = some t := ht
          obtain ⟨o, ho, rfl⟩ := toOption_map hset
          exact ⟨_, rfl, mirrors_set h hsound ho⟩
      | _ => exact nomatch he
  | saveInBackground call =>
      obtain rfl := Option.some.inj he
      have hsound := hkeep trivial rfl
      obtain rfl := Option.some.inj ht
      refine ⟨_, rfl, hsound, h.clean, h.sets, h.value, h.server, h.pending, ?_, h.finished,
        h.running⟩
      show r.waiting ++ _ = _
      rw [h.waiting]
  | saveAsync childrenDirty =>
      cases childrenDirty with
      | true => exact nomatch he
      | false =>
          obtain rfl := Option.some.inj he
          exact mirrors_start h (hkeep trivial rfl) ht
  | result reply =>
      have hsound := hkeep trivial rfl
      rcases result_cases ht with ⟨call, reply', hrun, rfl, rfl⟩ | ⟨call, error, hrun, rfl⟩
          | ⟨call, changes, reply', o, hrun, rfl, ho, rfl⟩
          | ⟨call, changes, error, o, hrun, rfl, ho, rfl⟩
      · obtain ⟨-, hop⟩ := Option.ite_none_right_eq_some.mp he
        obtain rfl := Option.some.inj hop
        exact mirrors_unchanged h hrun hsound
      · -- a user object has no children
        have hflight := h.running
        rw [hrun] at hflight
        exact nomatch hflight
      · obtain ⟨hempty, hop⟩ := Option.ite_none_right_eq_some.mp he
        obtain rfl := Option.some.inj hop
        obtain rfl : reply' = ∅ := AList.ext (List.isEmpty_iff.mp hempty)
        exact mirrors_success h hrun ho hsound
      · obtain rfl := Option.some.inj he
        exact mirrors_failure h hrun ho hsound
  | completion i =>
      obtain rfl := Option.some.inj he
      have hsound := hkeep trivial rfl
      obtain ⟨hi, ht⟩ := Option.ite_none_right_eq_some.mp ht
      obtain rfl := Option.some.inj ht
      refine ⟨{ r with finished := r.finished.eraseIdx i }, ?_, hsound, h.clean, h.sets, h.value,
        h.server, h.pending, h.waiting, ?_, h.running⟩
      · rw [← h.finished] at hi
        exact if_pos hi
      · show r.finished.eraseIdx i = _
        rw [h.finished]
  | fetched reply => exact nomatch he
  | revert childrenDirty => exact nomatch he
  | revertObjectForKey key => exact nomatch he

/-- **REFINEMENT**: when the app sets keys and saves, every run of the object is
    a run of a record written back by queued saves, with the same local values,
    the same values on the server, and the same calls that wait and have
    ended. -/
theorem save_refines_replica {d : Data F Item} {es : List (SaveEvent F Item C E)}
    {t : Saving F Item C E} (hes : ∀ e ∈ es, e.toOp.isSome)
    (ht : run (Saving.step rt) (.fetched d) es = some t) :
    ∃ r : Replica String (Option (Value F Item)) C E,
      run Replica.apply (.fresh d) (es.filterMap SaveEvent.toOp) = some r
        ∧ r.value = t.object.estimatedData ∧ r.server = t.object.serverData
        ∧ (∀ last, t.object.unsavedChanges = some last →
          ∀ k, k ∈ r.pending ↔ (last.dictionary.lookup k).isSome)
        ∧ r.waiting = t.waiting ∧ r.finished = t.finished
        ∧ SameFlight t.running r.running := by
  have hmirror : ∃ r : Replica String (Option (Value F Item)) C E,
      run Replica.apply (.fresh d) (es.filterMap SaveEvent.toOp) = some r ∧ Mirrors rt t r := by
    refine run_inv (fun es t => (∀ e ∈ es, (SaveEvent.toOp e).isSome) →
      ∃ r : Replica String (Option (Value F Item)) C E,
        run Replica.apply (.fresh d) (es.filterMap SaveEvent.toOp) = some r ∧ Mirrors rt t r)
      (fun _ => ⟨.fresh d, rfl, mirrors_fetched d⟩) ?_ ht hes
    intro pre s e u _ ih hu hes
    obtain ⟨r, hr, hmirror⟩ := ih fun e he => hes e (List.mem_append_left _ he)
    obtain ⟨op, hop⟩ := Option.isSome_iff_exists.mp (hes e (by simp))
    obtain ⟨r', hr', hmirror'⟩ := mirrors_step hmirror hop hu
    refine ⟨r', ?_, hmirror'⟩
    rw [List.filterMap_append, List.filterMap_cons_some hop, List.filterMap_nil]
    exact run_concat.mpr ⟨r, hr, hr'⟩
  obtain ⟨r, hr, hmirror⟩ := hmirror
  exact ⟨r, hr, hmirror.value, hmirror.server, hmirror.pending, hmirror.waiting,
    hmirror.finished, hmirror.running⟩

/-- Two names are set and saved; the first save fails, the second carries both. -/
def renamingRun : List (SaveEvent Unit Nat Nat Unit) :=
  [.performOperation (.set (.other 1)) "fname", .saveInBackground 0, .saveAsync false,
    .performOperation (.set (.other 2)) "lname", .saveInBackground 1, .result (.error ()),
    .completion 0, .saveAsync false, .performOperation (.set (.other 3)) "fname",
    .result (.ok ∅)]

theorem save_refines_replica_renaming :
    ∃ t, run (Saving.step digitRuntime) (.fetched fun _ => none) renamingRun = some t
      ∧ ∃ r, run Replica.apply (.fresh fun _ => none) (renamingRun.filterMap SaveEvent.toOp)
          = some r
        ∧ r.value = t.object.estimatedData ∧ r.server = t.object.serverData := by
  obtain ⟨t, ht⟩ : ∃ t, run (Saving.step digitRuntime) (.fetched fun _ => none) renamingRun
      = some t := ⟨_, rfl⟩
  obtain ⟨r, hr, hvalue, hserver, -⟩ := save_refines_replica (by decide) ht
  exact ⟨t, ht, r, hr, hvalue, hserver⟩

end ParseSDK

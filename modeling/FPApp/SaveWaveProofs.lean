import FPApp.DeepSaveProofs
import FPApp.WaveProofs
import Mathlib.Data.Fintype.Basic
import Mathlib.Data.List.FinRange

/-! # The waves of a save

    `PFObject._deepSaveAsyncChildrenOfObject` — what the search found is saved in
    waves: a wave holds every object whose data can be written once the waves
    before it are saved.

    * `canBeSerializedAfterSaving`, `scheduleLoop`, `arrayBySplittingArray`,
      `deepSaveAsyncChildren` — the source;
    * `schedule_waves` — its loop makes the waves of `Waves.waves`;
    * `deep_save_iff` — when the save of the children can be planned at all;
    * `children_first` — a plan saves each object once, in requests of at most
      fifty, after every new object its data points to. -/

namespace ParseSDK

open Relation Waves

namespace DeepSave

variable {Object File : Type} [DecidableEq Object]

/-- What the save reads of the objects besides what the search reads. -/
structure World (Object File : Type) extends Graph Object File where
  currentUser : Option Object
  lazy : Object → Bool
  dataAvailable : Object → Bool
  availableKeys : Object → List String

/-- `isDataAvailableForKey:`. -/
def World.isDataAvailable (w : World Object File) (object : Object) (key : String) : Bool :=
  w.dataAvailable object || (w.availableKeys object).contains key

/-- Whether the ACL of an object has an unresolved user. -/
def World.hasUnresolvedUser (w : World Object File) (object : Object) : Bool :=
  match (w.estimatedData object).lookup "ACL" with
  | some (.acl hasUnresolvedUser) => hasUnresolvedUser
  | _ => false

mutual

/-- Whether a value can be written once `saved` are saved. -/
def canBeSerializedAsValue (w : World Object File) (saved : List Object) :
    Node Object File → Bool
  | .object object => !((w.objectId object).isNone && !decide (object ∈ saved))
  | .dictionary values => canBeSerializedAsValues w saved values
  | .array elems => canBeSerializedAsValues w saved elems
  | .acl _ => true
  | .file _ => true
  | .other => true

def canBeSerializedAsValues (w : World Object File) (saved : List Object) :
    List (Node Object File) → Bool
  | [] => true
  | node :: rest => canBeSerializedAsValue w saved node && canBeSerializedAsValues w saved rest

end

def canBeSerializedAfterSaving (w : World Object File) (saved : List Object)
    (object : Object) : Bool :=
  if !canBeSerializedAsValues w saved (w.values object) then false
  else if w.isDataAvailable object "ACL" && w.hasUnresolvedUser object
      && !(w.currentUser.any fun user => decide (user ∈ saved)) then false
  else true

/-- One step of the plan: the lazy user signs up on its own, all else is sent in
    requests of several objects. -/
inductive Stage (Object : Type) where
  | lazyUser (user : Object)
  | wave (current : List Object)
  deriving DecidableEq, Repr

def Stage.objects : Stage Object → List Object
  | .lazyUser user => [user]
  | .wave current => current

/-- The steps for the objects that can be saved now. -/
def stagesOf (w : World Object File) (current : List Object) : List (Stage Object) :=
  match w.currentUser with
  | some user =>
      if w.lazy user && decide (user ∈ current) then
        let others := current.filter (fun object => !decide (object = user))
        if others.isEmpty then [.lazyUser user] else [.lazyUser user, .wave others]
      else [.wave current]
  | none => [.wave current]

/-- What the loop adds to the finished objects, in its order. -/
def finishedOf (w : World Object File) (current : List Object) : List Object :=
  (stagesOf w current).flatMap Stage.objects

/-- The loop that makes the waves. -/
def scheduleLoop (w : World Object File) :
    Nat → List Object → List Object → List (Stage Object) × Option SaveError
  | 0, remaining, _ => ([], if remaining.isEmpty then none else some .unfinished)
  | fuel + 1, remaining, finished =>
      if remaining.isEmpty then ([], none)
      else
        let ready := current (canBeSerializedAfterSaving w) finished remaining
        let nextBatch := next (canBeSerializedAfterSaving w) finished remaining
        if ready.isEmpty then ([], some .relationToCycle)
        else
          let later := scheduleLoop w fuel nextBatch (finished ++ finishedOf w ready)
          (stagesOf w ready ++ later.1, later.2)

/-- `arrayBySplittingArray:withMaximumComponentsPerSegment:`, by its loop. -/
def splitLoop {A : Type} (components : Nat) : Nat → List A → List (List A)
  | 0, _ => []
  | fuel + 1, rest =>
      if rest.isEmpty then []
      else rest.take components :: splitLoop components fuel (rest.drop components)

def arrayBySplittingArray {A : Type} (array : List A) (components : Nat) : List (List A) :=
  if array.length ≤ components then [array] else splitLoop components array.length array

/-- The number of requests that one batch may hold. -/
def subcommandsLimit : Nat := 50

/-- The requests of a step. A lazy user is saved by a request of its own. -/
def Stage.requests : Stage Object → List (List Object)
  | .lazyUser user => [[user]]
  | .wave current => arrayBySplittingArray current subcommandsLimit

/-- An order in which a set lists its members. -/
structure Listing (A : Type) where
  list : Finset A → List A
  nodup : ∀ s, (list s).Nodup
  mem_iff : ∀ s a, a ∈ list s ↔ a ∈ s

/-- What a deep save starts: the saves of the files, one after another, then the
    steps of the plan. With an error the steps before it have been started. -/
structure Plan (Object File : Type) where
  files : List File
  stages : List (Stage Object)
  error : Option SaveError
  deriving DecidableEq

/-- `_deepSaveAsyncChildrenOfObject:withCurrentUser:sessionToken:`. -/
def deepSaveAsyncChildren [DecidableEq File] [Fintype Object] (w : World Object File)
    (objects : Listing Object) (files : Listing File) (root : Node Object File) : Plan Object File :=
  match collectDirtyChildren w.toGraph w.currentUser root with
  | .error error => ⟨[], [], some error⟩
  | .ok found =>
      let uniqueObjects := match root with
        | .object object => found.dirtyChildren.erase object
        | _ => found.dirtyChildren
      let remaining := objects.list uniqueObjects
      let plan := scheduleLoop w remaining.length remaining []
      ⟨files.list found.dirtyFiles, plan.1, plan.2⟩

/-! ## What an object waits for -/

mutual

/-- The objects that a value points to, an ACL aside. -/
def pointersOf : Node Object File → List Object
  | .object object => [object]
  | .dictionary values => pointersOfAll values
  | .array elems => pointersOfAll elems
  | .acl _ => []
  | .file _ => []
  | .other => []

def pointersOfAll : List (Node Object File) → List Object
  | [] => []
  | node :: rest => pointersOf node ++ pointersOfAll rest

end

/-- The ACL of an object waits for the current user. -/
def World.WaitsForUser (w : World Object File) (o : Object) : Prop :=
  w.isDataAvailable o "ACL" = true ∧ w.hasUnresolvedUser o = true

/-- An object waits for another: for the new ones that its data points to, and
    for the current user that its ACL is to name. -/
def World.Needs (w : World Object File) (o p : Object) : Prop :=
  (p ∈ pointersOfAll (w.values o) ∧ w.objectId p = none)
    ∨ w.WaitsForUser o ∧ w.currentUser = some p

/-- An object that waits for the current user has one to wait for. -/
def World.Able (w : World Object File) (o : Object) : Prop :=
  w.WaitsForUser o → w.currentUser ≠ none

section Ready

variable {w : World Object File} {saved : List Object}

mutual

/-- A value can be written when the new objects it points to are saved. -/
theorem serialized_value_iff : ∀ node : Node Object File,
    canBeSerializedAsValue w saved node = true ↔
      ∀ p ∈ pointersOf node, w.objectId p = none → p ∈ saved
  | .object object => by
      cases h : w.objectId object <;> simp [canBeSerializedAsValue, pointersOf, h]
  | .dictionary values => by
      rw [canBeSerializedAsValue, pointersOf]
      exact serialized_values_iff values
  | .array elems => by
      rw [canBeSerializedAsValue, pointersOf]
      exact serialized_values_iff elems
  | .acl _ => by simp [canBeSerializedAsValue, pointersOf]
  | .file _ => by simp [canBeSerializedAsValue, pointersOf]
  | .other => by simp [canBeSerializedAsValue, pointersOf]

theorem serialized_values_iff : ∀ nodes : List (Node Object File),
    canBeSerializedAsValues w saved nodes = true ↔
      ∀ p ∈ pointersOfAll nodes, w.objectId p = none → p ∈ saved
  | [] => by simp [canBeSerializedAsValues, pointersOfAll]
  | node :: rest => by
      rw [canBeSerializedAsValues, Bool.and_eq_true, serialized_value_iff node,
        serialized_values_iff rest, pointersOfAll]
      simp only [List.mem_append, or_imp, forall_and]

end

/-- An object can be written when all that it waits for is saved. -/
theorem reads_serialized (w : World Object File) :
    Reads (canBeSerializedAfterSaving w) w.Able w.Needs := by
  intro saved o
  have hvalues : canBeSerializedAsValues w saved (w.values o) = true ↔
      ∀ p ∈ pointersOfAll (w.values o), w.objectId p = none → p ∈ saved :=
    serialized_values_iff (w.values o)
  unfold canBeSerializedAfterSaving World.Able World.Needs World.WaitsForUser
  cases hv : canBeSerializedAsValues w saved (w.values o) with
  | false =>
      rw [hv] at hvalues
      simp only [Bool.not_false, if_true, Bool.false_eq_true, false_iff]
      rintro ⟨_, hneed⟩
      exact absurd (hvalues.mpr fun p hp hnew => hneed p (Or.inl ⟨hp, hnew⟩))
        Bool.false_ne_true
  | true =>
      have hall := hvalues.mp hv
      cases havail : w.isDataAvailable o "ACL" <;> cases hacl : w.hasUnresolvedUser o <;>
        cases huser : w.currentUser <;> simp
      all_goals try exact fun p hp hnew => hall p hp hnew
      rename_i user
      constructor
      · rintro hmem p (⟨hp, hnew⟩ | rfl)
        · exact hall p hp hnew
        · exact hmem
      · exact fun h => h user (Or.inr rfl)

end Ready

/-! ## The loop makes the waves -/

section Loop

variable {w : World Object File}

/-- The steps of a wave hold its objects. -/
theorem mem_finishedOf (current : List Object) (o : Object) :
    o ∈ finishedOf w current ↔ o ∈ current := by
  unfold finishedOf stagesOf
  cases w.currentUser with
  | none => simp [Stage.objects]
  | some user =>
      by_cases hlazy : (w.lazy user && decide (user ∈ current)) = true
      · have hmem : user ∈ current := by
          rw [Bool.and_eq_true, decide_eq_true_eq] at hlazy
          exact hlazy.2
        simp only [if_pos hlazy]
        by_cases ho : o = user
        · subst ho
          split <;> simp [Stage.objects, hmem]
        · split
          · rename_i hempty
            rw [List.isEmpty_iff, List.filter_eq_nil_iff] at hempty
            simp only [List.flatMap_cons, List.flatMap_nil, Stage.objects, List.append_nil,
              List.mem_singleton, ho, false_iff]
            exact fun h => hempty o h (by simpa using ho)
          · simp [Stage.objects, ho]
      · simp only [if_neg hlazy]
        simp [Stage.objects]

/-- A wave's steps hold each of its objects once. -/
theorem finishedOf_perm {current : List Object} (h : current.Nodup) :
    (finishedOf w current).Perm current := by
  refine (List.perm_ext_iff_of_nodup ?_ h).mpr (mem_finishedOf current)
  unfold finishedOf stagesOf
  cases w.currentUser with
  | none => simpa [Stage.objects] using h
  | some user =>
      dsimp only
      split
      · split
        · simp [Stage.objects]
        · simp [Stage.objects, h.filter]
      · simpa [Stage.objects] using h

/-- What is saved before decides by its members alone what can be written. -/
theorem serialized_congr {saved saved' : List Object} (h : ∀ o, o ∈ saved ↔ o ∈ saved') :
    canBeSerializedAfterSaving w saved = canBeSerializedAfterSaving w saved' := by
  funext o
  rw [Bool.eq_iff_iff, reads_serialized w saved o, reads_serialized w saved' o]
  simp only [h]

/-- How the end of the waves is reported. -/
def errorOf : Ending → Option SaveError
  | .done => none
  | .stuck => some .relationToCycle
  | .unfinished => some .unfinished

/-- **THE LOOP MAKES THE WAVES**: though it lists the lazy user first among what
    is finished. -/
theorem schedule_waves (fuel : Nat) : ∀ (remaining saved finished : List Object),
    (∀ o, o ∈ saved ↔ o ∈ finished) →
    scheduleLoop w fuel remaining saved =
      ((waves (canBeSerializedAfterSaving w) fuel remaining finished).1.flatMap (stagesOf w),
       errorOf (waves (canBeSerializedAfterSaving w) fuel remaining finished).2) := by
  induction fuel with
  | zero =>
      intro remaining saved finished _
      rw [scheduleLoop, waves]
      split <;> rfl
  | succ fuel ih =>
      intro remaining saved finished hmem
      rw [scheduleLoop, waves]
      split
      · rfl
      have hcur : current (canBeSerializedAfterSaving w) saved remaining
          = current (canBeSerializedAfterSaving w) finished remaining := by
        rw [current, current, serialized_congr hmem]
      have hnext : next (canBeSerializedAfterSaving w) saved remaining
          = next (canBeSerializedAfterSaving w) finished remaining := by
        rw [next, next, serialized_congr hmem]
      rw [hcur, hnext]
      dsimp only
      split
      · rfl
      have hmem' : ∀ o,
          o ∈ saved ++ finishedOf w (current (canBeSerializedAfterSaving w) finished remaining)
          ↔ o ∈ finished ++ current (canBeSerializedAfterSaving w) finished remaining := by
        intro o
        rw [List.mem_append, List.mem_append, mem_finishedOf, hmem]
      rw [ih _ _ _ hmem']
      rfl

end Loop

/-! ## The plan -/

section Plans

variable {w : World Object File} {objects : Listing Object}
  {files : Listing File} {root : Node Object File}

/-- What a deep save has to save besides the object itself. -/
def Child (w : World Object File) (root : Node Object File) (o : Object) : Prop :=
  (Reaches w.toGraph w.currentUser root o ∧ w.isDirtySelf o = true) ∧ root ≠ .object o

/-- One child waits for another. -/
def ChildNeeds (w : World Object File) (root : Node Object File) (o p : Object) : Prop :=
  w.Needs o p ∧ Child w root o ∧ Child w root p

/-- A plan is an error of the search, or the waves over the children. -/
theorem deepSave_cases [DecidableEq File] [Fintype Object] (w : World Object File)
    (objects : Listing Object) (files : Listing File) (root : Node Object File) :
    (Circular w.toGraph w.currentUser root
      ∧ deepSaveAsyncChildren w objects files root = ⟨[], [], some .circularDependency⟩) ∨
    (¬ Circular w.toGraph w.currentUser root ∧ ∃ remaining ws o,
      remaining.Nodup ∧ (∀ x, x ∈ remaining ↔ Child w root x)
      ∧ Served (canBeSerializedAfterSaving w) remaining [] ws o
      ∧ (deepSaveAsyncChildren w objects files root).stages = ws.flatMap (stagesOf w)
      ∧ (deepSaveAsyncChildren w objects files root).error = errorOf o) := by
  have hcirc := circular_iff w.toGraph w.currentUser root
  cases hc : collectDirtyChildren w.toGraph w.currentUser root with
  | error e =>
      obtain rfl := hcirc.2 e hc
      refine Or.inl ⟨hcirc.1.mp hc, ?_⟩
      unfold deepSaveAsyncChildren
      rw [hc]
  | ok found =>
      obtain ⟨hno, hchildren, _⟩ := (collect_ok_iff w.toGraph w.currentUser root found).mp hc
      refine Or.inr ⟨hno, ?_⟩
      let unique := match root with
        | .object object => found.dirtyChildren.erase object
        | _ => found.dirtyChildren
      have hunique : ∀ x, x ∈ unique ↔ Child w root x := by
        intro x
        unfold Child
        rw [← hchildren]
        cases root with
        | object object =>
            show x ∈ found.dirtyChildren.erase object ↔ _
            rw [Finset.mem_erase, and_comm, ne_comm]
            simp
        | _ => simp [unique]
      refine ⟨objects.list unique, _, _, objects.nodup unique, fun x => ?_,
        served_waves (objects.list unique).length [] le_rfl, ?_, ?_⟩
      · rw [objects.mem_iff, hunique]
      · unfold deepSaveAsyncChildren
        rw [hc]
        exact congrArg Prod.fst (schedule_waves _ _ [] [] fun _ => Iff.rfl)
      · unfold deepSaveAsyncChildren
        rw [hc]
        exact congrArg Prod.snd (schedule_waves _ _ [] [] fun _ => Iff.rfl)

/-! ### Everything that an object waits for is reached -/

section Reached

omit [DecidableEq Object]

mutual

theorem pointersOf_subset (user : Option Object) : ∀ (node : Node Object File) {p : Object},
    p ∈ pointersOf node → p ∈ objectsOf user node
  | .object _, _, h => h
  | .dictionary values, _, h => pointersOfAll_subset user values h
  | .array elems, _, h => pointersOfAll_subset user elems h
  | .acl _, _, h => absurd h List.not_mem_nil
  | .file _, _, h => absurd h List.not_mem_nil
  | .other, _, h => absurd h List.not_mem_nil

theorem pointersOfAll_subset (user : Option Object) :
    ∀ (nodes : List (Node Object File)) {p : Object},
    p ∈ pointersOfAll nodes → p ∈ objectsOfAll user nodes
  | [], _, h => absurd h List.not_mem_nil
  | node :: rest, _, h => (List.mem_append.mp h).elim
      (fun h => List.mem_append_left _ (pointersOf_subset user node h))
      (fun h => List.mem_append_right _ (pointersOfAll_subset user rest h))

end

/-- What one of the values leads to, all of them lead to. -/
theorem mem_objectsOfAll {user : Option Object} {node : Node Object File}
    {nodes : List (Node Object File)} (hnode : node ∈ nodes) {p : Object}
    (hp : p ∈ objectsOf user node) : p ∈ objectsOfAll user nodes := by
  induction nodes with
  | nil => cases hnode
  | cons head rest ih =>
      rcases List.mem_cons.mp hnode with rfl | hnode
      · exact List.mem_append_left _ hp
      · exact List.mem_append_right _ (ih hnode)

theorem mem_of_lookup {A : Type} {key : String} {value : A} : ∀ {entries : List (String × A)},
    entries.lookup key = some value → value ∈ entries.map Prod.snd := by
  intro entries h
  induction entries with
  | nil => cases h
  | cons entry rest ih =>
      obtain ⟨k, v⟩ := entry
      rw [List.lookup_cons] at h
      split at h
      · cases h
        exact List.mem_cons_self
      · exact List.mem_cons_of_mem _ (ih h)

/-- What an object waits for is something that its data leads to. -/
theorem refers_of_needs {w : World Object File} {o p : Object} (h : w.Needs o p) :
    w.Refers w.currentUser o p := by
  rcases h with ⟨hp, _⟩ | ⟨⟨_, hacl⟩, huser⟩
  · exact pointersOfAll_subset _ _ hp
  · unfold World.hasUnresolvedUser at hacl
    split at hacl
    · rename_i hlookup
      subst hacl
      refine mem_objectsOfAll (mem_of_lookup hlookup) ?_
      rw [huser]
      exact List.mem_singleton_self p
    · exact absurd hacl Bool.false_ne_true

end Reached

omit [DecidableEq Object] in
/-- A cycle of waiting children either goes through a current user whom the
    server knows, or it is a cycle of new objects. -/
theorem known_user_or_new {a : Object} (h : TransGen (ChildNeeds w root) a a) :
    (∃ u, w.currentUser = some u ∧ w.objectId u ≠ none ∧ TransGen (ChildNeeds w root) u u)
      ∨ TransGen (w.RefersNew w.currentUser) a a := by
  by_cases huser : ∃ u, w.currentUser = some u ∧ w.objectId u ≠ none
      ∧ TransGen (ChildNeeds w root) u u
  · exact Or.inl huser
  have hnew : ∀ {b}, TransGen (ChildNeeds w root) b b → w.objectId b = none := by
    intro b hb
    obtain ⟨z, _, hzb⟩ := (TransGen.tail'_iff).mp hb
    rcases hzb.1 with ⟨_, hnew⟩ | ⟨_, hu⟩
    · exact hnew
    · by_contra hid
      exact huser ⟨b, hu, hid, hb⟩
  -- every edge of the path lies on a cycle as long as the path comes back
  have hpath : ∀ {b}, TransGen (ChildNeeds w root) a b →
      ReflTransGen (ChildNeeds w root) b a → TransGen (w.RefersNew w.currentUser) a b := by
    intro b hab
    induction hab with
    | single hab =>
        intro hba
        exact .single ⟨hnew (.head' hab hba), hnew (.tail' hba hab), refers_of_needs hab.1⟩
    | @tail b c hab hbc ih =>
        intro hca
        refine (ih (.head hbc hca)).tail ⟨?_, ?_, refers_of_needs hbc.1⟩
        · exact hnew (.trans_right (.head hbc hca) hab)
        · exact hnew ((TransGen.trans_right hca hab).tail hbc)
  exact Or.inr (hpath h .refl)

/-- **WHEN THE CHILDREN CAN BE SAVED**: the plan has no error exactly when no cycle
    of new objects is reached, every new object that a child waits for is a child
    itself, every child that waits for the current user has that user among the
    children, and no user whom the server knows waits for itself through an ACL. -/
theorem deep_save_iff [DecidableEq File] [Fintype Object] (w : World Object File)
    (objects : Listing Object) (files : Listing File) (root : Node Object File) :
    (deepSaveAsyncChildren w objects files root).error = none ↔
      ¬ Circular w.toGraph w.currentUser root
      ∧ (∀ o, Child w root o → w.Able o ∧ ∀ p, w.Needs o p → Child w root p)
      ∧ ∀ u, w.currentUser = some u → w.objectId u ≠ none → ¬ TransGen (ChildNeeds w root) u u := by
  rcases deepSave_cases w objects files root with ⟨hc, hplan⟩ | ⟨hc, remaining, ws, o, _, hmem,
    hserved, _, herror⟩
  · rw [hplan]
    exact ⟨fun h => absurd h (by simp), fun h => absurd hc h.1⟩
  · rw [herror]
    have hdone : errorOf o = none ↔ o = .done := by cases o <;> simp [errorOf]
    have hwithin : Within w.Needs remaining = ChildNeeds w root := by
      funext a p
      unfold Within ChildNeeds
      rw [hmem, hmem]
    rw [hdone, hserved.done_iff (reads_serialized w), hwithin]
    simp only [hmem]
    constructor
    · rintro ⟨hall, hacyclic⟩
      exact ⟨hc, hall, fun u _ _ => hacyclic u⟩
    · rintro ⟨_, hall, huser⟩
      refine ⟨hall, fun a hcycle => ?_⟩
      rcases known_user_or_new hcycle with ⟨u, hu, hid, hcu⟩ | hnew
      · exact huser u hu hid hcu
      · obtain ⟨b, hab, _⟩ := (TransGen.head'_iff).mp hcycle
        exact hc ⟨a, hab.2.1.1.1, hnew⟩

/-- The steps come after what they wait for. -/
def InOrder (w : World Object File) : List Object → List (Stage Object) → Prop
  | _, [] => True
  | saved, stage :: rest =>
      (∀ o ∈ stage.objects, w.Able o ∧ ∀ p, w.Needs o p → p ∈ saved)
        ∧ InOrder w (saved ++ stage.objects) rest

omit [DecidableEq Object] in
theorem InOrder.append : ∀ {first second : List (Stage Object)} {saved : List Object},
    InOrder w saved first → InOrder w (saved ++ first.flatMap Stage.objects) second →
    InOrder w saved (first ++ second) := by
  intro first
  induction first with
  | nil =>
      intro second saved _ h
      simpa using h
  | cons stage rest ih =>
      intro second saved hfirst hsecond
      refine ⟨hfirst.1, ih hfirst.2 ?_⟩
      simpa [List.append_assoc] using hsecond

/-- The steps of one wave come after what they wait for. -/
theorem inOrder_stagesOf {saved now : List Object}
    (h : ∀ o ∈ now, w.Able o ∧ ∀ p, w.Needs o p → p ∈ saved) :
    InOrder w saved (stagesOf w now) := by
  have hsub : ∀ stage ∈ stagesOf w now, ∀ o ∈ stage.objects, o ∈ now := fun stage hs o ho =>
    (mem_finishedOf (w := w) now o).mp (List.mem_flatMap.mpr ⟨stage, hs, ho⟩)
  have hall : ∀ (stages : List (Stage Object)) (more : List Object),
      (∀ stage ∈ stages, ∀ o ∈ stage.objects, o ∈ now) → InOrder w (saved ++ more) stages := by
    intro stages
    induction stages with
    | nil => exact fun _ _ => trivial
    | cons stage rest ih =>
        intro more hs
        refine ⟨fun o ho => ?_, ?_⟩
        · obtain ⟨hable, hneed⟩ := h o (hs stage List.mem_cons_self o ho)
          exact ⟨hable, fun p hp => List.mem_append_left _ (hneed p hp)⟩
        · rw [List.append_assoc]
          exact ih _ fun stage' hs' => hs stage' (List.mem_cons_of_mem _ hs')
  simpa using hall (stagesOf w now) [] hsub

/-- All waves come after what they wait for. -/
theorem inOrder_waves {remaining finished : List Object} {ws : List (List Object)} {o : Ending}
    (h : Served (canBeSerializedAfterSaving w) remaining finished ws o) :
    ∀ {saved}, (∀ x, x ∈ finished → x ∈ saved) → InOrder w saved (ws.flatMap (stagesOf w)) := by
  induction h with
  | done => exact fun _ => trivial
  | stuck => exact fun _ => trivial
  | @wave remaining finished ws o _ _ ih =>
      intro saved hsaved
      rw [List.flatMap_cons]
      refine InOrder.append (inOrder_stagesOf fun x hx => ?_) (ih fun x hx => ?_)
      · obtain ⟨hable, hneed⟩ := (reads_serialized w _ _).mp (List.mem_filter.mp hx).2
        exact ⟨hable, fun p hp => hsaved p (hneed p hp)⟩
      · rcases List.mem_append.mp hx with hx | hx
        · exact List.mem_append_left _ (hsaved x hx)
        · exact List.mem_append_right _ ((mem_finishedOf _ x).mpr hx)

/-! ### Requests -/

section Requests

variable {A : Type}

omit [DecidableEq Object] in
theorem splitLoop_spec {components : Nat} (hpos : 0 < components) (fuel : Nat) :
    ∀ rest : List A, rest.length ≤ fuel →
      (splitLoop components fuel rest).flatten = rest
        ∧ ∀ part ∈ splitLoop components fuel rest, part ≠ [] ∧ part.length ≤ components := by
  induction fuel with
  | zero =>
      intro rest hfuel
      obtain rfl : rest = [] := List.length_eq_zero_iff.mp (by omega)
      exact ⟨rfl, fun part h => absurd h List.not_mem_nil⟩
  | succ fuel ih =>
      intro rest hfuel
      rw [splitLoop]
      split
      · rename_i hnil
        rw [List.isEmpty_iff] at hnil
        subst hnil
        exact ⟨rfl, fun part h => absurd h List.not_mem_nil⟩
      · rename_i hne
        rw [List.isEmpty_iff] at hne
        have hlen := List.length_pos_iff.mpr hne
        obtain ⟨hflat, hparts⟩ := ih (rest.drop components) (by rw [List.length_drop]; omega)
        refine ⟨?_, fun part h => ?_⟩
        · rw [List.flatten_cons, hflat, List.take_append_drop]
        · rcases List.mem_cons.mp h with rfl | h
          · refine ⟨?_, by rw [List.length_take]; omega⟩
            intro hnil
            have hzero := congrArg List.length hnil
            rw [List.length_take, List.length_nil] at hzero
            omega
          · exact hparts part h

omit [DecidableEq Object] in
/-- An array that has something is split into parts that have something, none
    longer than asked, which make it up in order. -/
theorem splitting_spec {components : Nat} (hpos : 0 < components) {array : List A}
    (hne : array ≠ []) :
    (arrayBySplittingArray array components).flatten = array
      ∧ ∀ part ∈ arrayBySplittingArray array components,
        part ≠ [] ∧ part.length ≤ components := by
  unfold arrayBySplittingArray
  split
  · rename_i hle
    refine ⟨by simp, fun part h => ?_⟩
    obtain rfl := List.mem_singleton.mp h
    exact ⟨hne, hle⟩
  · exact splitLoop_spec hpos _ _ le_rfl

end Requests

/-- The steps hold what the waves hold. -/
theorem stages_perm {ws : List (List Object)} (h : ∀ now ∈ ws, now.Nodup) :
    ((ws.flatMap (stagesOf w)).flatMap Stage.objects).Perm ws.flatten := by
  rw [List.flatMap_assoc]
  induction ws with
  | nil => exact .nil
  | cons now rest ih =>
      rw [List.flatMap_cons, List.flatten_cons]
      exact (finishedOf_perm (h now List.mem_cons_self)).append
        (ih fun now' hn => h now' (List.mem_cons_of_mem _ hn))

/-- The requests of a step are its objects, one to fifty in each. -/
theorem requests_spec {now : List Object} (hne : now ≠ []) {stage : Stage Object}
    (h : stage ∈ stagesOf w now) :
    stage.requests.flatten = stage.objects
      ∧ ∀ request ∈ stage.requests, request ≠ [] ∧ request.length ≤ subcommandsLimit := by
  have hwave : ∀ {objects : List Object}, objects ≠ [] →
      (Stage.wave objects).requests.flatten = (Stage.wave objects).objects
        ∧ ∀ request ∈ (Stage.wave objects).requests,
          request ≠ [] ∧ request.length ≤ subcommandsLimit :=
    fun hobjects => splitting_spec (by decide) hobjects
  have hlazy : ∀ user : Object, (Stage.lazyUser user).requests.flatten
      = (Stage.lazyUser user).objects
        ∧ ∀ request ∈ (Stage.lazyUser user).requests,
          request ≠ [] ∧ request.length ≤ subcommandsLimit := by
    intro user
    simp [Stage.requests, Stage.objects, subcommandsLimit]
  unfold stagesOf at h
  split at h
  · rename_i user _
    split at h
    · dsimp only at h
      split at h
      · obtain rfl := List.mem_singleton.mp h
        exact hlazy user
      · rename_i hothers
        rcases List.mem_cons.mp h with rfl | h
        · exact hlazy user
        · obtain rfl := List.mem_singleton.mp h
          exact hwave (by rwa [List.isEmpty_iff] at hothers)
    · obtain rfl := List.mem_singleton.mp h
      exact hwave hne
  · obtain rfl := List.mem_singleton.mp h
    exact hwave hne

/-- **CHILDREN FIRST**: whether or not it ends in an error, a plan saves only
    children and each at most once, everything that an object waits for in a step
    before it, and every step in requests of one to fifty objects. It has no error
    exactly when the search has none and every child is saved. -/
theorem children_first [DecidableEq File] [Fintype Object] (w : World Object File)
    (objects : Listing Object) (files : Listing File) (root : Node Object File) :
    let plan := deepSaveAsyncChildren w objects files root
    (plan.stages.flatMap Stage.objects).Nodup
      ∧ (∀ o ∈ plan.stages.flatMap Stage.objects, Child w root o)
      ∧ InOrder w [] plan.stages
      ∧ (∀ stage ∈ plan.stages, stage.requests.flatten = stage.objects
          ∧ ∀ request ∈ stage.requests, request ≠ [] ∧ request.length ≤ subcommandsLimit)
      ∧ (plan.error = none ↔ ¬ Circular w.toGraph w.currentUser root
          ∧ ∀ o, Child w root o → o ∈ plan.stages.flatMap Stage.objects) := by
  intro plan
  rcases deepSave_cases w objects files root with ⟨hc, hplan⟩ | ⟨hc, remaining, ws, o, hnodup,
    hmem, hserved, hstages, herror⟩
  · have hplan : plan = ⟨[], [], some .circularDependency⟩ := hplan
    rw [hplan]
    exact ⟨List.nodup_nil, by simp, trivial, by simp, by simp [hc]⟩
  obtain ⟨left, hperm, _, hend⟩ := hserved.perm
  have hstages : plan.stages = ws.flatMap (stagesOf w) := hstages
  have herror : plan.error = errorOf o := herror
  have hall : (ws.flatten ++ left).Nodup := hperm.nodup_iff.mpr hnodup
  have hsteps : (plan.stages.flatMap Stage.objects).Perm ws.flatten := by
    rw [hstages]
    exact stages_perm (List.nodup_flatten.mp hall.of_append_left).1
  refine ⟨hsteps.nodup_iff.mpr hall.of_append_left, fun x hx => ?_, ?_, ?_, ?_⟩
  · exact (hmem x).mp (hperm.mem_iff.mp (List.mem_append_left _ (hsteps.mem_iff.mp hx)))
  · rw [hstages]
    exact inOrder_waves hserved fun x hx => absurd hx List.not_mem_nil
  · intro stage hstage
    rw [hstages] at hstage
    obtain ⟨now, hnow, hstage⟩ := List.mem_flatMap.mp hstage
    obtain ⟨pre, post, heq⟩ := List.append_of_mem hnow
    exact requests_spec (hserved.ready_before heq).1 hstage
  · rw [herror]
    rcases hend with ⟨rfl, rfl⟩ | ⟨rfl, hne⟩
    · refine ⟨fun _ => ⟨hc, fun x hx => ?_⟩, fun _ => rfl⟩
      have hx' := hperm.mem_iff.mpr ((hmem x).mpr hx)
      rw [List.append_nil] at hx'
      exact hsteps.mem_iff.mpr hx'
    · -- what is left is a child that no step saves
      obtain ⟨x, hx⟩ := List.exists_mem_of_ne_nil left hne
      refine ⟨fun h => absurd h (by simp [errorOf]), fun h => ?_⟩
      have hchild := (hmem x).mp (hperm.mem_iff.mp (List.mem_append_right _ hx))
      have hin := hsteps.mem_iff.mp (h.2 x hchild)
      exact (List.disjoint_of_nodup_append hall hin hx).elim

end Plans

/-- The order of the numbers. -/
def Listing.fin (n : Nat) : Listing (Fin n) where
  list s := (List.finRange n).filter (fun a => decide (a ∈ s))
  nodup s := (List.nodup_finRange n).filter _
  mem_iff s a := by simp

/-- A new object 0 with a changed child 1 that the server knows and that points
    back: the search has no objection, the plan has. -/
example :
    let w : World (Fin 2) (Fin 1) :=
      { objectId := fun o => if o = 0 then none else some "b",
        estimatedData := fun o => [("other", .object (1 - o))],
        deleted := fun _ => false, dirty := fun _ => true, hasChanges := fun _ => true,
        url := fun _ => none, currentUser := none, lazy := fun _ => false,
        dataAvailable := fun _ => true, availableKeys := fun _ => [] }
    deepSaveAsyncChildren w (.fin 2) (.fin 1) (.object 0) = ⟨[], [], some .relationToCycle⟩ := by
  decide

end DeepSave

end ParseSDK

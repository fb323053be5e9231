import FPApp.SaveWaveProofs

/-! # What a save takes for a change

    `PFObject.isDirty:`, `_areChildrenDirty:`, `saveAsync:` — a save begins only
    when something has changed. What has changed is looked for in the object and
    in the objects that its values are, one after another with one set of those
    seen.

    * `areChildrenDirty`, `isDirty`, `saveAsync` — the source;
    * `isDirty_iff` — a change is seen exactly when it can be reached through
      values that are objects themselves;
    * `save_skips_iff` — what a save that does nothing leaves behind. -/

namespace ParseSDK

open Relation Paths

namespace DeepSave

variable {Object File : Type} [DecidableEq Object] [DecidableEq File]

/-- The values of one object, up to the first that is a changed object. -/
def enumerateChildren (visit : Object → Finset Object → Bool × Finset Object) :
    List (Node Object File) → Finset Object → Bool × Finset Object
  | [], seenObjects => (false, seenObjects)
  | .object object :: rest, seenObjects =>
      match visit object seenObjects with
      | (true, seenObjects) => (true, seenObjects)
      | (false, seenObjects) => enumerateChildren visit rest seenObjects
  | .acl _ :: rest, seenObjects => enumerateChildren visit rest seenObjects
  | .file _ :: rest, seenObjects => enumerateChildren visit rest seenObjects
  | .array _ :: rest, seenObjects => enumerateChildren visit rest seenObjects
  | .dictionary _ :: rest, seenObjects => enumerateChildren visit rest seenObjects
  | .other :: rest, seenObjects => enumerateChildren visit rest seenObjects

/-- `_areChildrenDirty:`, with the set that all calls share. -/
def areChildrenDirty (g : Graph Object File) :
    Nat → Object → Finset Object → Bool × Finset Object
  | 0, _, seenObjects => (false, seenObjects)
  | fuel + 1, object, seenObjects =>
      if object ∈ seenObjects then (false, seenObjects)
      else if g.isDirtySelf object then (true, insert object seenObjects)
      else enumerateChildren (areChildrenDirty g fuel) (g.values object)
        (insert object seenObjects)

/-- `isDirty:`. -/
def isDirty [Fintype Object] (g : Graph Object File) (object : Object)
    (considerChildren : Bool) : Bool :=
  if g.isDirtySelf object then true
  else if considerChildren then (areChildrenDirty g (Fintype.card Object + 1) object ∅).1
  else false

/-- What a save begins: nothing, the saves of the children, or these and then
    the save of the object. -/
inductive Begun (Object File : Type) where
  | nothing
  | children (plan : Plan Object File)
  | childrenThenSelf (plan : Plan Object File)
  deriving DecidableEq

/-- `saveAsync:`, as far as it decides what to save. -/
def saveAsync [Fintype Object] (w : World Object File) (objects : Listing Object)
    (files : Listing File) (object : Object) : Begun Object File :=
  if !isDirty w.toGraph object true then .nothing
  else
    let plan := deepSaveAsyncChildren w objects files (.object object)
    if !w.dirty object && !w.hasChanges object then .children plan
    else .childrenThenSelf plan

/-- One of an object's values is an object. -/
def Graph.Holds (g : Graph Object File) (a b : Object) : Prop := Node.object b ∈ g.values a

section Search

variable {g : Graph Object File}

/-- A search that saw no change has seen all values of what it newly saw, and
    none of it has changed. -/
def Clean (g : Graph Object File) (seen seen' : Finset Object) : Prop :=
  seen ⊆ seen' ∧ ∀ x ∈ seen', x ∉ seen →
    g.isDirtySelf x = false ∧ ∀ y, g.Holds x y → y ∈ seen'

omit [DecidableEq Object] [DecidableEq File] in
theorem Clean.refl (seen : Finset Object) : Clean g seen seen :=
  ⟨Finset.Subset.refl _, fun _ hx hno => absurd hx hno⟩

omit [DecidableEq File] in
theorem Clean.trans {s t u : Finset Object} (h₁ : Clean g s t) (h₂ : Clean g t u) :
    Clean g s u := by
  refine ⟨h₁.1.trans h₂.1, fun x hx hno => ?_⟩
  by_cases hxt : x ∈ t
  · obtain ⟨hclean, hy⟩ := h₁.2 x hxt hno
    exact ⟨hclean, fun y hxy => h₂.1 (hy y hxy)⟩
  · exact h₂.2 x hx hxt

/-- A search through values that found no change has seen them all, and one that
    found a change reached it from one of them. -/
def Enumerated (g : Graph Object File) (nodes : List (Node Object File))
    (seen : Finset Object) (r : Bool × Finset Object) : Prop :=
  (r.1 = false → Clean g seen r.2 ∧ ∀ y, Node.object y ∈ nodes → y ∈ r.2)
    ∧ (r.1 = true → ∃ y, Node.object y ∈ nodes
      ∧ ∃ x, ReflTransGen g.Holds y x ∧ g.isDirtySelf x = true)

omit [DecidableEq Object] [DecidableEq File] in
/-- A value that is no object changes nothing. -/
theorem Enumerated.skip {node : Node Object File} {rest : List (Node Object File)}
    {seen : Finset Object} {r : Bool × Finset Object} (hno : ∀ o, node ≠ .object o)
    (h : Enumerated g rest seen r) : Enumerated g (node :: rest) seen r := by
  refine ⟨fun hr => ⟨(h.1 hr).1, fun y hy => ?_⟩, fun hr => ?_⟩
  · exact (h.1 hr).2 y ((List.mem_cons.mp hy).resolve_left fun he => hno y he.symm)
  · obtain ⟨y, hy, hx⟩ := h.2 hr
    exact ⟨y, List.mem_cons_of_mem _ hy, hx⟩

/-- A visit, with at least some objects seen, searches one object. -/
def Visits (g : Graph Object File)
    (visit : Object → Finset Object → Bool × Finset Object) (seen : Finset Object) : Prop :=
  ∀ seen', seen ⊆ seen' → ∀ o,
    ((visit o seen').1 = false → Clean g seen' (visit o seen').2 ∧ o ∈ (visit o seen').2)
    ∧ ((visit o seen').1 = true → ∃ x, ReflTransGen g.Holds o x ∧ g.isDirtySelf x = true)

omit [DecidableEq File] in
theorem enumerate_spec {visit : Object → Finset Object → Bool × Finset Object}
    {seen : Finset Object} (hvisit : Visits g visit seen) (nodes : List (Node Object File)) :
    ∀ seen', seen ⊆ seen' → Enumerated g nodes seen' (enumerateChildren visit nodes seen') := by
  induction nodes with
  | nil =>
      intro seen' _
      exact ⟨fun _ => ⟨.refl _, fun y hy => absurd hy List.not_mem_nil⟩,
        fun h => absurd h Bool.false_ne_true⟩
  | cons node rest ih =>
      intro seen' hsub
      cases node with
      | acl _ => exact (ih seen' hsub).skip (by simp)
      | file _ => exact (ih seen' hsub).skip (by simp)
      | array _ => exact (ih seen' hsub).skip (by simp)
      | dictionary _ => exact (ih seen' hsub).skip (by simp)
      | other => exact (ih seen' hsub).skip (by simp)
      | object o =>
          obtain ⟨hfalse, htrue⟩ := hvisit seen' hsub o
          rw [enumerateChildren]
          cases hv : visit o seen' with
          | mk dirty seen'' =>
              rw [hv] at hfalse htrue
              cases dirty with
              | true =>
                  refine ⟨fun h => absurd h (by simp), fun _ => ?_⟩
                  exact ⟨o, List.mem_cons_self, htrue rfl⟩
              | false =>
                  obtain ⟨hclean, hmem⟩ := hfalse rfl
                  obtain ⟨h₁, h₂⟩ := ih seen'' (hsub.trans hclean.1)
                  refine ⟨fun h => ⟨hclean.trans (h₁ h).1, fun y hy => ?_⟩, fun h => ?_⟩
                  · rcases List.mem_cons.mp hy with heq | hy
                    · cases heq
                      exact (h₁ h).1.1 hmem
                    · exact (h₁ h).2 y hy
                  · obtain ⟨y, hy, hx⟩ := h₂ h
                    exact ⟨y, List.mem_cons_of_mem _ hy, hx⟩

omit [DecidableEq File] in
/-- **THE SHARED SEARCH**: with a step for every object not yet seen, a visit that
    finds no change leaves none behind, and one that finds a change reaches one. -/
theorem areChildrenDirty_spec [Fintype Object] (fuel : Nat) : ∀ seen : Finset Object,
    (Finset.univ \ seen).card < fuel → Visits g (areChildrenDirty g fuel) seen := by
  induction fuel with
  | zero => intro seen hfuel; omega
  | succ fuel ih =>
      intro seen hfuel seen' hsub o
      rw [areChildrenDirty]
      by_cases ho : o ∈ seen'
      · rw [if_pos ho]
        exact ⟨fun _ => ⟨.refl _, ho⟩, fun h => absurd h Bool.false_ne_true⟩
      rw [if_neg ho]
      cases hdirty : g.isDirtySelf o with
      | true =>
          rw [if_pos rfl]
          exact ⟨fun h => absurd h (by simp), fun _ => ⟨o, .refl, hdirty⟩⟩
      | false =>
          rw [if_neg Bool.false_ne_true]
          have hlt : (Finset.univ \ insert o seen').card < fuel := by
            have hmore := card_unseen_lt ho
            have hless := Finset.card_le_card (Finset.sdiff_subset_sdiff
              (le_refl (Finset.univ : Finset Object)) hsub)
            omega
          obtain ⟨hfalse, htrue⟩ := enumerate_spec (ih (insert o seen') hlt) (g.values o)
            (insert o seen') (Finset.Subset.refl _)
          refine ⟨fun h => ?_, fun h => ?_⟩
          · obtain ⟨hclean, hall⟩ := hfalse h
            have hmem := hclean.1 (Finset.mem_insert_self o seen')
            refine ⟨⟨(Finset.subset_insert o seen').trans hclean.1, fun x hx hno => ?_⟩, hmem⟩
            by_cases hxo : x = o
            · subst hxo
              exact ⟨hdirty, hall⟩
            · refine hclean.2 x hx ?_
              rw [Finset.mem_insert, not_or]
              exact ⟨hxo, hno⟩
          · obtain ⟨y, hy, x, hyx, hx⟩ := htrue h
            exact ⟨x, .head hy hyx, hx⟩

end Search

section Results

variable [Fintype Object]

omit [DecidableEq File] in
/-- **WHAT COUNTS AS A CHANGE**: an object counts as changed exactly when a changed
    object can be reached from it through values that are objects themselves. What
    lies in an array, in a dictionary or behind an ACL does not count. -/
theorem isDirty_iff (g : Graph Object File) (o : Object) :
    isDirty g o true = true ↔ ∃ x, ReflTransGen g.Holds o x ∧ g.isDirtySelf x = true := by
  unfold isDirty
  cases hself : g.isDirtySelf o with
  | true => exact ⟨fun _ => ⟨o, .refl, hself⟩, fun _ => rfl⟩
  | false =>
      rw [if_neg Bool.false_ne_true, if_pos rfl]
      obtain ⟨hfalse, htrue⟩ := areChildrenDirty_spec (g := g) (Fintype.card Object + 1) ∅
        (by simp) ∅ (Finset.Subset.refl _) o
      refine ⟨htrue, fun ⟨x, hpath, hx⟩ => ?_⟩
      by_contra hno
      obtain ⟨hclean, hmem⟩ := hfalse (Bool.eq_false_iff.mpr hno)
      -- what was seen is closed under the values
      have hseen : ∀ {b}, ReflTransGen g.Holds o b →
          b ∈ (areChildrenDirty g (Fintype.card Object + 1) o ∅).2 := by
        intro b hb
        induction hb with
        | refl => exact hmem
        | tail _ hbc ih => exact (hclean.2 _ ih (Finset.notMem_empty _)).2 _ hbc
      rw [(hclean.2 x (hseen hpath) (Finset.notMem_empty x)).1] at hx
      exact Bool.false_ne_true hx

/-- **WHAT A SAVE SKIPS**: a save does nothing exactly when nothing has changed in
    any object that can be reached through values that are objects themselves; it
    saves the object after its children exactly when the object is marked or has
    changes of its own. -/
theorem save_skips_iff (w : World Object File) (objects : Listing Object) (files : Listing File)
    (o : Object) :
    (saveAsync w objects files o = .nothing ↔
        ∀ x, ReflTransGen w.Holds o x → w.isDirtySelf x = false)
      ∧ (saveAsync w objects files o
            = .childrenThenSelf (deepSaveAsyncChildren w objects files (.object o)) ↔
          w.dirty o = true ∨ w.hasChanges o = true) := by
  have hiff := isDirty_iff w.toGraph o
  have hown : w.dirty o = true ∨ w.hasChanges o = true → isDirty w.toGraph o true = true := by
    intro h
    refine hiff.mpr ⟨o, .refl, ?_⟩
    unfold Graph.isDirtySelf
    rcases h with h | h <;> simp [h]
  unfold saveAsync
  cases hd : isDirty w.toGraph o true with
  | false =>
      rw [hd] at hiff hown
      refine ⟨⟨fun _ x hx => ?_, fun _ => rfl⟩, ⟨fun h => absurd h (by simp), fun h => ?_⟩⟩
      · exact Bool.eq_false_iff.mpr fun hx' => Bool.false_ne_true (hiff.mpr ⟨x, hx, hx'⟩)
      · exact absurd (hown h) Bool.false_ne_true
  | true =>
      obtain ⟨x, hx, hchanged⟩ := hiff.mp hd
      refine ⟨⟨fun h => ?_, fun h => ?_⟩, ?_⟩
      · rw [if_neg (by simp)] at h
        dsimp only at h
        split at h <;> cases h
      · rw [h x hx] at hchanged
        exact absurd hchanged Bool.false_ne_true
      · rw [if_neg (by simp)]
        dsimp only
        cases w.dirty o <;> cases w.hasChanges o <;> simp

/-- A changed child 1 in an array of an unchanged object 0: the search of a deep
    save finds it, and the save of the object does nothing. -/
example :
    let w : World (Fin 2) (Fin 1) :=
      { objectId := fun _ => some "b",
        estimatedData := fun o => if o = 0 then [("list", .array [.object 1])] else [],
        deleted := fun _ => false, dirty := fun _ => false, hasChanges := fun o => o = 1,
        url := fun _ => none, currentUser := none, lazy := fun _ => false,
        dataAvailable := fun _ => true, availableKeys := fun _ => [] }
    saveAsync w (.fin 2) (.fin 1) 0 = .nothing
      ∧ deepSaveAsyncChildren w (.fin 2) (.fin 1) (.object 0) = ⟨[], [.wave [1]], none⟩ := by
  decide

end Results

end DeepSave

end ParseSDK

import FPApp.PathProofs
import Mathlib.Data.Fintype.Card
import Mathlib.Data.Finset.Basic

/-! # The deep search of a save

    `PFObject.collectDirtyChildren` — before an object is saved, all objects and
    files that can be reached from its data are searched for those that must be
    saved first. The search carries two sets along its path: what it has seen,
    and the new objects seen since the last object that the server knows.

    * `Node` — the values in an object's data;
    * `Graph` — the objects, and what the search reads of them;
    * `collectDirtyChildren` — the search;
    * `collect_spec` — one search below a path, from which both results follow:
      it fails exactly on a cycle of new objects, and otherwise it finds exactly
      what can be reached. -/

namespace ParseSDK

open Relation Paths

namespace DeepSave

/-- A value in the data of an object, as far as the search tells them apart. -/
inductive Node (Object File : Type) where
  | object (object : Object)
  | acl (hasUnresolvedUser : Bool)
  | file (file : File)
  | array (elems : List (Node Object File))
  | dictionary (values : List (Node Object File))
  | other

/-- The objects and files in memory. An object is told from another by its
    identity alone. -/
structure Graph (Object File : Type) where
  objectId : Object → Option String
  estimatedData : Object → List (String × Node Object File)
  deleted : Object → Bool
  dirty : Object → Bool
  hasChanges : Object → Bool
  url : File → Option String

/-- How a deep save fails: the search finds a cycle, or the loop does, or the steps
    that they are given are used up. -/
inductive SaveError
  | circularDependency
  | relationToCycle
  | unfinished
  deriving DecidableEq, Repr

variable {Object File : Type}

/-- `isDirty:NO`. -/
def Graph.isDirtySelf (g : Graph Object File) (object : Object) : Bool :=
  g.deleted object || g.dirty object || g.hasChanges object

/-- The values of an object's data. -/
def Graph.values (g : Graph Object File) (object : Object) : List (Node Object File) :=
  (g.estimatedData object).map Prod.snd

/-- The two sets that the search fills. -/
structure Found (Object File : Type) where
  dirtyChildren : Finset Object
  dirtyFiles : Finset File

section Search

variable [DecidableEq Object] [DecidableEq File]

mutual

/-- The search in one value. What it does at an object is `visit`. -/
def collectNode (g : Graph Object File) (currentUser : Option Object)
    (visit : Object → Found Object File → Except SaveError (Found Object File)) :
    Node Object File → Found Object File → Except SaveError (Found Object File)
  | .array elems, found => collectNodes g currentUser visit elems found
  | .dictionary values, found => collectNodes g currentUser visit values found
  | .acl hasUnresolvedUser, found =>
      match hasUnresolvedUser, currentUser with
      | true, some user => visit user found
      | _, _ => .ok found
  | .object object, found => visit object found
  | .file file, found =>
      .ok (if (g.url file).isNone then
        { found with dirtyFiles := insert file found.dirtyFiles } else found)
  | .other, found => .ok found

/-- The search in several values, up to the first that fails. -/
def collectNodes (g : Graph Object File) (currentUser : Option Object)
    (visit : Object → Found Object File → Except SaveError (Found Object File)) :
    List (Node Object File) → Found Object File → Except SaveError (Found Object File)
  | [], found => .ok found
  | node :: rest, found =>
      match collectNode g currentUser visit node found with
      | .ok found => collectNodes g currentUser visit rest found
      | .error error => .error error

end

/-- The search at an object. `seen` and `seenNew` belong to the path: each call
    has its own. -/
def collectObject (g : Graph Object File) (currentUser : Option Object) :
    Nat → Finset Object → Finset Object → Object → Found Object File →
      Except SaveError (Found Object File)
  | 0, _, _, _, _ => .error .unfinished
  | fuel + 1, seen, seenNew, object, found =>
      if (g.objectId object).isNone ∧ object ∈ seenNew then .error .circularDependency
      else
        let seenNew := if (g.objectId object).isSome then ∅ else insert object seenNew
        if object ∈ seen then .ok found
        else
          match collectNodes g currentUser
              (collectObject g currentUser fuel (insert object seen) seenNew)
              (g.values object) found with
          | .error error => .error error
          | .ok found =>
              .ok (if g.isDirtySelf object then
                { found with dirtyChildren := insert object found.dirtyChildren } else found)

/-- The search from a value, with nothing seen. It never goes deeper than there
    are objects. -/
def collectDirtyChildren [Fintype Object] (g : Graph Object File) (currentUser : Option Object)
    (node : Node Object File) : Except SaveError (Found Object File) :=
  collectNode g currentUser (collectObject g currentUser (Fintype.card Object + 1) ∅ ∅) node
    ⟨∅, ∅⟩

end Search

/-! ## What a value leads to -/

section Leads

mutual

/-- The objects that a value leads to, the user of an unresolved ACL included. -/
def objectsOf (currentUser : Option Object) : Node Object File → List Object
  | .array elems => objectsOfAll currentUser elems
  | .dictionary values => objectsOfAll currentUser values
  | .acl hasUnresolvedUser =>
      match hasUnresolvedUser, currentUser with
      | true, some user => [user]
      | _, _ => []
  | .object object => [object]
  | .file _ => []
  | .other => []

def objectsOfAll (currentUser : Option Object) : List (Node Object File) → List Object
  | [] => []
  | node :: rest => objectsOf currentUser node ++ objectsOfAll currentUser rest

end

mutual

/-- The files in a value. -/
def filesOf : Node Object File → List File
  | .array elems => filesOfAll elems
  | .dictionary values => filesOfAll values
  | .acl _ => []
  | .object _ => []
  | .file file => [file]
  | .other => []

def filesOfAll : List (Node Object File) → List File
  | [] => []
  | node :: rest => filesOf node ++ filesOfAll rest

end

/-- An object's data leads to another object. -/
def Graph.Refers (g : Graph Object File) (currentUser : Option Object) (a b : Object) : Prop :=
  b ∈ objectsOfAll currentUser (g.values a)

/-- One new object refers to another. -/
def Graph.RefersNew (g : Graph Object File) (currentUser : Option Object) (a b : Object) : Prop :=
  g.objectId a = none ∧ g.objectId b = none ∧ g.Refers currentUser a b

end Leads

/-! ## The search in a value, by the objects it leads to -/

section Values

variable [DecidableEq Object] [DecidableEq File] {g : Graph Object File}
  {currentUser : Option Object}

/-- A found set grows by some objects and some files. -/
def Grows (found found' : Found Object File) (children : Object → Prop) (files : File → Prop) :
    Prop :=
  (∀ o, o ∈ found'.dirtyChildren ↔ o ∈ found.dirtyChildren ∨ children o)
    ∧ ∀ f, f ∈ found'.dirtyFiles ↔ f ∈ found.dirtyFiles ∨ files f

/-- A search fails on a condition, and else finds what it should, whatever was
    found before. -/
def Searches (search : Found Object File → Except SaveError (Found Object File))
    (bad : Prop) (children : Object → Prop) (files : File → Prop) : Prop :=
  ∀ found, (bad → search found = .error .circularDependency)
    ∧ (¬ bad → ∃ found', search found = .ok found' ∧ Grows found found' children files)

omit [DecidableEq Object] [DecidableEq File] in
theorem Searches.nothing : Searches (fun found : Found Object File => .ok found) False
    (fun _ => False) (fun _ => False) := by
  intro found
  refine ⟨False.elim, fun _ => ⟨found, rfl, ?_, ?_⟩⟩ <;> simp

omit [DecidableEq Object] [DecidableEq File] in
theorem Searches.congr {search : Found Object File → Except SaveError (Found Object File)}
    {bad bad' : Prop} {children children' : Object → Prop} {files files' : File → Prop}
    (h : Searches search bad children files) (hbad : bad ↔ bad')
    (hchildren : ∀ o, children o ↔ children' o) (hfiles : ∀ f, files f ↔ files' f) :
    Searches search bad' children' files' := by
  obtain rfl : bad = bad' := propext hbad
  obtain rfl : children = children' := funext fun o => propext (hchildren o)
  obtain rfl : files = files' := funext fun f => propext (hfiles f)
  exact h

omit [DecidableEq Object] [DecidableEq File] in
/-- Two searches, the second only when the first does not fail. -/
theorem Searches.append {s t : Found Object File → Except SaveError (Found Object File)}
    {bad bad' : Prop} {children children' : Object → Prop} {files files' : File → Prop}
    (hs : Searches s bad children files) (ht : Searches t bad' children' files') :
    Searches (fun found => match s found with | .ok found => t found | .error e => .error e)
      (bad ∨ bad') (fun o => children o ∨ children' o) (fun f => files f ∨ files' f) := by
  intro found
  by_cases hbad : bad
  · refine ⟨fun _ => ?_, fun hno => absurd (Or.inl hbad) hno⟩
    show (match s found with | .ok found => t found | .error e => .error e) = _
    rw [(hs found).1 hbad]
  obtain ⟨found₁, hs₁, hc₁, hf₁⟩ := (hs found).2 hbad
  show (_ → (match s found with | .ok found => t found | .error e => .error e) = _) ∧
    (_ → ∃ found', (match s found with | .ok found => t found | .error e => .error e) = _ ∧ _)
  rw [hs₁]
  refine ⟨fun h => (ht found₁).1 (h.resolve_left hbad), fun hno => ?_⟩
  obtain ⟨found₂, ht₂, hc₂, hf₂⟩ := (ht found₁).2 (fun h => hno (Or.inr h))
  refine ⟨found₂, ht₂, fun o => ?_, fun f => ?_⟩
  · rw [hc₂, hc₁, or_assoc]
  · rw [hf₂, hf₁, or_assoc]

variable {visit : Object → Found Object File → Except SaveError (Found Object File)}
  {bad : Object → Prop} {children : Object → Object → Prop} {files : Object → File → Prop}

omit [DecidableEq Object] in
mutual

/-- What the search does at each object it is led to decides what it does in a
    value. -/
theorem searches_node (g : Graph Object File) (currentUser : Option Object)
    (hvisit : ∀ o, Searches (visit o) (bad o) (children o) (files o)) :
    ∀ node : Node Object File, Searches (collectNode g currentUser visit node)
      (∃ p ∈ objectsOf currentUser node, bad p)
      (fun o => ∃ p ∈ objectsOf currentUser node, children p o)
      (fun f => f ∈ filesOf node ∧ g.url f = none
        ∨ ∃ p ∈ objectsOf currentUser node, files p f)
  | .array elems => searches_nodes g currentUser hvisit elems
  | .dictionary values => searches_nodes g currentUser hvisit values
  | .acl hasUnresolvedUser => by
      cases hasUnresolvedUser with
      | false =>
          refine Searches.nothing.congr ?_ ?_ ?_ <;> simp [objectsOf, filesOf]
      | true =>
          cases currentUser with
          | none => refine Searches.nothing.congr ?_ ?_ ?_ <;> simp [objectsOf, filesOf]
          | some user => refine (hvisit user).congr ?_ ?_ ?_ <;> simp [objectsOf, filesOf]
  | .object object => by
      refine (hvisit object).congr ?_ ?_ ?_ <;> simp [objectsOf, filesOf]
  | .file file => by
      intro found
      refine ⟨by simp [objectsOf], fun _ => ⟨_, rfl, ?_, ?_⟩⟩
      · intro o
        split <;> simp [objectsOf]
      · intro f
        cases hurl : g.url file with
        | none =>
            simp only [Option.isNone_none, if_true, Finset.mem_insert, objectsOf, filesOf,
              List.mem_singleton]
            constructor
            · rintro (rfl | h)
              · exact Or.inr (Or.inl ⟨rfl, hurl⟩)
              · exact Or.inl h
            · rintro (h | ⟨rfl, _⟩ | ⟨p, hp, _⟩)
              · exact Or.inr h
              · exact Or.inl rfl
              · exact absurd hp List.not_mem_nil
        | some u =>
            simp only [Option.isNone_some, Bool.false_eq_true, if_false, objectsOf, filesOf,
              List.mem_singleton]
            constructor
            · exact Or.inl
            · rintro (h | ⟨rfl, h⟩ | ⟨p, hp, _⟩)
              · exact h
              · rw [hurl] at h
                cases h
              · exact absurd hp List.not_mem_nil
  | .other => by
      refine Searches.nothing.congr ?_ ?_ ?_ <;> simp [objectsOf, filesOf]

theorem searches_nodes (g : Graph Object File) (currentUser : Option Object)
    (hvisit : ∀ o, Searches (visit o) (bad o) (children o) (files o)) :
    ∀ nodes : List (Node Object File), Searches (collectNodes g currentUser visit nodes)
      (∃ p ∈ objectsOfAll currentUser nodes, bad p)
      (fun o => ∃ p ∈ objectsOfAll currentUser nodes, children p o)
      (fun f => f ∈ filesOfAll nodes ∧ g.url f = none
        ∨ ∃ p ∈ objectsOfAll currentUser nodes, files p f)
  | [] => by
      refine Searches.nothing.congr ?_ ?_ ?_ <;> simp [objectsOfAll, filesOfAll]
  | node :: rest => by
      have h := (searches_node g currentUser hvisit node).append
        (searches_nodes g currentUser hvisit rest)
      refine h.congr ?_ ?_ ?_
      · simp only [objectsOfAll, List.mem_append, or_and_right, exists_or]
      · intro o
        simp only [objectsOfAll, List.mem_append, or_and_right, exists_or]
      · intro f
        simp only [objectsOfAll, filesOfAll, List.mem_append, or_and_right, exists_or]
        constructor
        · rintro ((h | h) | h | h)
          · exact Or.inl (Or.inl h)
          · exact Or.inr (Or.inl h)
          · exact Or.inl (Or.inr h)
          · exact Or.inr (Or.inr h)
        · rintro ((h | h) | h | h)
          · exact Or.inl (Or.inl h)
          · exact Or.inr (Or.inl h)
          · exact Or.inl (Or.inr h)
          · exact Or.inr (Or.inr h)

end

end Values

/-! ## The search below a path -/

section Path

variable [DecidableEq Object] [DecidableEq File] (g : Graph Object File)
  (currentUser : Option Object)

/-- The search at an object closes a cycle of new objects with its path, or
    there is one below it. -/
def Closes (seen seenNew : Finset Object) (o : Object) : Prop :=
  (g.objectId o = none ∧ o ∈ seenNew) ∨ (o ∉ seen ∧
    ((g.objectId o = none ∧ ∃ z, ReflTransGen (Avoiding (g.RefersNew currentUser) seen) o z
        ∧ ∃ p ∈ seenNew, g.Refers currentUser z p)
      ∨ ∃ c, ReflTransGen (Avoiding (g.Refers currentUser) seen) o c
        ∧ TransGen (Avoiding (g.RefersNew currentUser) seen) c c))

/-- An object that the search reaches below an object without coming back to
    its path. -/
def Below (seen : Finset Object) (o x : Object) : Prop :=
  o ∉ seen ∧ ReflTransGen (Avoiding (g.Refers currentUser) seen) o x

/-- The path has only new objects in `seenNew`, and has seen them. -/
structure OnPath (seen seenNew : Finset Object) : Prop where
  seen : seenNew ⊆ seen
  isNew : ∀ o ∈ seenNew, g.objectId o = none

variable {g currentUser} {seen seenNew : Finset Object} {o p x : Object}

/-- What the search carries on below an object. -/
def seenNewAt (g : Graph Object File) (seenNew : Finset Object) (o : Object) : Finset Object :=
  if (g.objectId o).isSome then ∅ else insert o seenNew

omit [DecidableEq File] in
theorem OnPath.below (h : OnPath g seen seenNew) (o : Object) :
    OnPath g (insert o seen) (seenNewAt g seenNew o) := by
  unfold seenNewAt
  cases hid : g.objectId o with
  | some id => exact ⟨by simp, by simp⟩
  | none =>
      refine ⟨by simpa using Finset.insert_subset_insert o h.seen, fun p hp => ?_⟩
      rcases Finset.mem_insert.mp (by simpa using hp) with rfl | hp
      · exact hid
      · exact h.isNew p hp

omit [DecidableEq File] in
/-- What is below an object is the object itself or below one it refers to. -/
theorem below_iff (ho : o ∉ seen) :
    Below g currentUser seen o x ↔
      x = o ∨ ∃ p, g.Refers currentUser o p ∧ Below g currentUser (insert o seen) p x := by
  constructor
  · rintro ⟨_, hpath⟩
    rcases cut hpath with rfl | ⟨p, hop, hp, hpx⟩
    · exact Or.inl rfl
    · exact Or.inr ⟨p, hop.1, hp, hpx⟩
  · rintro (rfl | ⟨p, hop, hp, hpx⟩)
    · exact ⟨ho, .refl⟩
    · have hps : p ∉ seen := fun h => hp (Finset.mem_insert_of_mem h)
      exact ⟨ho, .head ⟨hop, ho, hps⟩ (path_shrink hpx)⟩

omit [DecidableEq File] in
/-- **ONE STEP DOWN**: the search at an unseen object closes a cycle exactly when
    the search at one of the objects that it refers to does. -/
theorem closes_iff (h : OnPath g seen seenNew) (ho : o ∉ seen) :
    Closes g currentUser seen seenNew o ↔ ∃ p, g.Refers currentUser o p
      ∧ Closes g currentUser (insert o seen) (seenNewAt g seenNew o) p := by
  constructor
  · rintro (⟨_, ho'⟩ | ⟨_, ⟨hnew, z, hpath, q, hq, hzq⟩ | ⟨c, hpath, hcycle⟩⟩)
    · exact absurd (h.seen ho') ho
    · have hq' : q ∈ seenNewAt g seenNew o := by
        simp [seenNewAt, hnew, hq]
      rcases cut hpath with rfl | ⟨p, hop, hp, hpz⟩
      · exact ⟨q, hzq, Or.inl ⟨h.isNew q hq, hq'⟩⟩
      · exact ⟨p, hop.1.2.2, Or.inr ⟨hp, Or.inl ⟨hop.1.2.1, z, hpz, q, hq', hzq⟩⟩⟩
    · rcases through_cycle o hcycle with hcycle | hcycle
      · -- the cycle does not go through the object
        obtain ⟨d, hcd, _⟩ := (TransGen.head'_iff).mp hcycle
        rcases cut hpath with rfl | ⟨p, hop, hp, hpc⟩
        · exact absurd (Finset.mem_insert_self c seen) hcd.2.1
        · exact ⟨p, hop.1, Or.inr ⟨hp, Or.inr ⟨c, hpc, hcycle⟩⟩⟩
      · obtain ⟨p, z, hop, hzo, hpz⟩ := cycle_cut hcycle
        have ho' : o ∈ seenNewAt g seenNew o := by
          simp [seenNewAt, hop.1.1]
        rcases hpz with ⟨rfl, _⟩ | ⟨hp, hpz⟩
        · exact ⟨p, hop.1.2.2, Or.inl ⟨hop.1.1, ho'⟩⟩
        · exact ⟨p, hop.1.2.2,
            Or.inr ⟨hp, Or.inl ⟨hop.1.2.1, z, hpz, o, ho', hzo.1.2.2⟩⟩⟩
  · rintro ⟨p, hop, ⟨hp, hmem⟩ | ⟨hp, hbelow⟩⟩
    · -- the object it refers to is on the path of new objects
      refine Or.inr ⟨ho, ?_⟩
      unfold seenNewAt at hmem
      cases hid : g.objectId o with
      | some id => simp [hid] at hmem
      | none =>
          rw [hid] at hmem
          rcases Finset.mem_insert.mp (by simpa using hmem) with rfl | hmem
          · exact Or.inr ⟨p, .refl, .single ⟨⟨hp, hp, hop⟩, ho, ho⟩⟩
          · exact Or.inl ⟨rfl, o, .refl, p, hmem, hop⟩
    · have hps : p ∉ seen := fun h => hp (Finset.mem_insert_of_mem h)
      rcases hbelow with ⟨hpnew, z, hpz, q, hq, hzq⟩ | ⟨c, hpc, hcycle⟩
      · have hpz' := path_shrink hpz
        unfold seenNewAt at hq
        cases hid : g.objectId o with
        | some id => simp [hid] at hq
        | none =>
            rw [hid] at hq
            have hedge : Avoiding (g.RefersNew currentUser) seen o p := ⟨⟨hid, hpnew, hop⟩, ho, hps⟩
            rcases Finset.mem_insert.mp (by simpa using hq) with rfl | hq
            · -- it comes back to the object itself
              have hz : z ∉ seen := end_not_mem hps hpz'
              have hznew : g.objectId z = none := by
                cases hpz' with
                | refl => exact hpnew
                | tail _ h => exact h.1.2.1
              exact Or.inr ⟨ho, Or.inr ⟨q, .refl,
                .head' hedge (hpz'.tail ⟨⟨hznew, hid, hzq⟩, hz, ho⟩)⟩⟩
            · exact Or.inr ⟨ho, Or.inl ⟨hid, z, .head hedge hpz', q, hq, hzq⟩⟩
      · exact Or.inr ⟨ho, Or.inr ⟨c, .head ⟨hop, ho, hps⟩ (path_shrink hpc),
          cycle_shrink hcycle⟩⟩

end Path

/-! ## The search as a whole -/

section Whole

variable [DecidableEq Object] [DecidableEq File] {g : Graph Object File}
  {currentUser : Option Object}

theorem collectObject_succ (fuel : Nat) (seen seenNew : Finset Object) (o : Object)
    (found : Found Object File) :
    collectObject g currentUser (fuel + 1) seen seenNew o found =
      if (g.objectId o).isNone ∧ o ∈ seenNew then .error .circularDependency
      else if o ∈ seen then .ok found
      else match collectNodes g currentUser
          (collectObject g currentUser fuel (insert o seen) (seenNewAt g seenNew o))
          (g.values o) found with
        | .error error => .error error
        | .ok found =>
            .ok (if g.isDirtySelf o then
              { found with dirtyChildren := insert o found.dirtyChildren } else found) := rfl

/-- **THE SEARCH BELOW A PATH**: with a step for every object not yet seen, the
    search fails exactly when it closes a cycle of new objects, and otherwise it
    finds the dirty objects and the unsaved files that are below. -/
theorem collect_spec [Fintype Object] (g : Graph Object File) (currentUser : Option Object)
    (fuel : Nat) : ∀ (seen seenNew : Finset Object) (o : Object),
    OnPath g seen seenNew → (Finset.univ \ seen).card < fuel →
    Searches (collectObject g currentUser fuel seen seenNew o)
      (Closes g currentUser seen seenNew o)
      (fun x => Below g currentUser seen o x ∧ g.isDirtySelf x = true)
      (fun f => ∃ x, Below g currentUser seen o x ∧ f ∈ filesOfAll (g.values x)
        ∧ g.url f = none) := by
  induction fuel with
  | zero => intro seen seenNew o _ hfuel; omega
  | succ fuel ih =>
      intro seen seenNew o h hfuel found
      rw [collectObject_succ]
      by_cases hclosed : g.objectId o = none ∧ o ∈ seenNew
      · rw [if_pos (by simpa using hclosed)]
        exact ⟨fun _ => rfl, fun hno => absurd (Or.inl hclosed) hno⟩
      rw [if_neg (by simpa using hclosed)]
      by_cases hseen : o ∈ seen
      · rw [if_pos hseen]
        refine ⟨?_, fun _ => ⟨found, rfl, fun x => ?_, fun f => ?_⟩⟩
        · rintro (hc | ⟨hc, _⟩)
          · exact absurd hc hclosed
          · exact absurd hseen hc
        · exact ⟨Or.inl, fun hx => hx.resolve_right fun hx => hx.1.1 hseen⟩
        · exact ⟨Or.inl, fun hf => hf.resolve_right fun ⟨x, hx, _⟩ => hx.1 hseen⟩
      rw [if_neg hseen]
      have hlt : (Finset.univ \ insert o seen).card < fuel := by
        have hless := card_unseen_lt hseen
        omega
      have hsub := searches_nodes g currentUser
        (fun p => ih (insert o seen) (seenNewAt g seenNew o) p (h.below o) hlt) (g.values o) found
      refine ⟨fun hbad => ?_, fun hno => ?_⟩
      · rw [hsub.1 ((closes_iff h hseen).mp hbad)]
      · obtain ⟨found', hok, hchildren, hfiles⟩ := hsub.2 fun hbad =>
          hno ((closes_iff h hseen).mpr hbad)
        rw [hok]
        refine ⟨_, rfl, fun x => ?_, fun f => ?_⟩
        · have hroot : Below g currentUser seen o x ↔
              x = o ∨ ∃ p ∈ objectsOfAll currentUser (g.values o),
                Below g currentUser (insert o seen) p x := below_iff hseen
          have hmem : x ∈ (if g.isDirtySelf o then
              { found' with dirtyChildren := insert o found'.dirtyChildren }
              else found').dirtyChildren
              ↔ x = o ∧ g.isDirtySelf o = true ∨ x ∈ found'.dirtyChildren := by
            split <;> simp [*]
          rw [hmem, hchildren]
          beta_reduce
          rw [hroot]
          constructor
          · rintro (⟨rfl, hdirty⟩ | hx | ⟨p, hp, hx, hdirty⟩)
            · exact Or.inr ⟨Or.inl rfl, hdirty⟩
            · exact Or.inl hx
            · exact Or.inr ⟨Or.inr ⟨p, hp, hx⟩, hdirty⟩
          · rintro (hx | ⟨rfl | ⟨p, hp, hx⟩, hdirty⟩)
            · exact Or.inr (Or.inl hx)
            · exact Or.inl ⟨rfl, hdirty⟩
            · exact Or.inr (Or.inr ⟨p, hp, hx, hdirty⟩)
        · have hmem : f ∈ (if g.isDirtySelf o then
              { found' with dirtyChildren := insert o found'.dirtyChildren }
              else found').dirtyFiles ↔ f ∈ found'.dirtyFiles := by
            split <;> rfl
          rw [hmem, hfiles]
          constructor
          · rintro (hf | ⟨hf, hurl⟩ | ⟨p, hp, x, hx, hf⟩)
            · exact Or.inl hf
            · exact Or.inr ⟨o, (below_iff hseen).mpr (Or.inl rfl), hf, hurl⟩
            · exact Or.inr ⟨x, (below_iff hseen).mpr (Or.inr ⟨p, hp, hx⟩), hf⟩
          · rintro (hf | ⟨x, hx, hf⟩)
            · exact Or.inl hf
            · rcases (below_iff hseen).mp hx with rfl | ⟨p, hp, hx⟩
              · exact Or.inr (Or.inl hf)
              · exact Or.inr (Or.inr ⟨p, hp, x, hx, hf⟩)

/-- What can be reached from a value. -/
def Reaches (g : Graph Object File) (currentUser : Option Object) (root : Node Object File)
    (x : Object) : Prop :=
  ∃ p ∈ objectsOf currentUser root, ReflTransGen (g.Refers currentUser) p x

/-- A cycle of new objects can be reached. -/
def Circular (g : Graph Object File) (currentUser : Option Object) (root : Node Object File) :
    Prop :=
  ∃ c, Reaches g currentUser root c ∧ TransGen (g.RefersNew currentUser) c c

omit [DecidableEq Object] in
theorem avoiding_nothing (E : Object → Object → Prop) : Avoiding E (∅ : Finset Object) = E :=
  funext fun _ => funext fun _ => propext avoiding_empty

omit [DecidableEq Object] [DecidableEq File] in
/-- Before anything is seen, what is below an object is what it reaches, and a
    cycle is closed when one is reached. -/
theorem below_empty (o x : Object) :
    Below g currentUser ∅ o x ↔ ReflTransGen (g.Refers currentUser) o x := by
  unfold Below
  rw [avoiding_nothing]
  simp

omit [DecidableEq Object] [DecidableEq File] in
theorem closes_empty (o : Object) :
    Closes g currentUser ∅ ∅ o ↔
      ∃ c, ReflTransGen (g.Refers currentUser) o c ∧ TransGen (g.RefersNew currentUser) c c := by
  unfold Closes
  rw [avoiding_nothing, avoiding_nothing]
  simp

variable [Fintype Object]

theorem collectDirtyChildren_spec (g : Graph Object File) (currentUser : Option Object)
    (root : Node Object File) :
    Searches (collectNode g currentUser
      (collectObject g currentUser (Fintype.card Object + 1) ∅ ∅) root)
      (Circular g currentUser root)
      (fun x => Reaches g currentUser root x ∧ g.isDirtySelf x = true)
      (fun f => (f ∈ filesOf root ∨ ∃ x, Reaches g currentUser root x ∧ f ∈ filesOfAll (g.values x))
        ∧ g.url f = none) := by
  have hpath : OnPath g ∅ ∅ := ⟨le_rfl, by simp⟩
  have h := searches_node g currentUser (fun o =>
    collect_spec g currentUser (Fintype.card Object + 1) ∅ ∅ o hpath
      (by simp)) root
  simp only [below_empty, closes_empty] at h
  refine h.congr ?_ ?_ ?_
  · exact ⟨fun ⟨p, hp, c, hpc, hc⟩ => ⟨c, ⟨p, hp, hpc⟩, hc⟩,
      fun ⟨c, ⟨p, hp, hpc⟩, hc⟩ => ⟨p, hp, c, hpc, hc⟩⟩
  · exact fun x => ⟨fun ⟨p, hp, hpx, hx⟩ => ⟨⟨p, hp, hpx⟩, hx⟩,
      fun ⟨⟨p, hp, hpx⟩, hx⟩ => ⟨p, hp, hpx, hx⟩⟩
  · intro f
    constructor
    · rintro (⟨hf, hurl⟩ | ⟨p, hp, x, hpx, hf, hurl⟩)
      · exact ⟨Or.inl hf, hurl⟩
      · exact ⟨Or.inr ⟨x, ⟨p, hp, hpx⟩, hf⟩, hurl⟩
    · rintro ⟨hf | ⟨x, ⟨p, hp, hpx⟩, hf⟩, hurl⟩
      · exact Or.inl ⟨hf, hurl⟩
      · exact Or.inr ⟨p, hp, x, hpx, hf, hurl⟩

/-- **A CIRCULAR DEPENDENCY IS A CYCLE OF NEW OBJECTS**: the search fails exactly
    when a cycle of objects that the server does not know can be reached, however
    long it is and whatever lies before it. It fails with no other error. -/
theorem circular_iff (g : Graph Object File) (currentUser : Option Object)
    (root : Node Object File) :
    (collectDirtyChildren g currentUser root = .error .circularDependency
        ↔ Circular g currentUser root)
      ∧ ∀ e, collectDirtyChildren g currentUser root = .error e → e = .circularDependency := by
  have h := collectDirtyChildren_spec g currentUser root ⟨∅, ∅⟩
  by_cases hc : Circular g currentUser root
  · have herr := h.1 hc
    refine ⟨⟨fun _ => hc, fun _ => herr⟩, fun e he => ?_⟩
    have he' := herr.symm.trans he
    cases he'
    rfl
  · obtain ⟨found, hok, _⟩ := h.2 hc
    refine ⟨⟨fun he => ?_, fun hc' => absurd hc' hc⟩, fun e he => ?_⟩
    · have he' := hok.symm.trans he
      cases he'
    · have he' := hok.symm.trans he
      cases he'

/-- **THE SEARCH FINDS WHAT CAN BE REACHED**: it succeeds with exactly the dirty
    objects that can be reached, and the files without a URL in the data of any
    object that can be reached. -/
theorem collect_ok_iff (g : Graph Object File) (currentUser : Option Object)
    (root : Node Object File) (found : Found Object File) :
    collectDirtyChildren g currentUser root = .ok found ↔
      ¬ Circular g currentUser root
      ∧ (∀ x, x ∈ found.dirtyChildren ↔ Reaches g currentUser root x ∧ g.isDirtySelf x = true)
      ∧ ∀ f, f ∈ found.dirtyFiles ↔ (f ∈ filesOf root
          ∨ ∃ x, Reaches g currentUser root x ∧ f ∈ filesOfAll (g.values x)) ∧ g.url f = none := by
  have h := collectDirtyChildren_spec g currentUser root ⟨∅, ∅⟩
  constructor
  · intro hfound
    by_cases hc : Circular g currentUser root
    · have he := (h.1 hc).symm.trans hfound
      cases he
    · obtain ⟨found', hok, hchildren, hfiles⟩ := h.2 hc
      obtain rfl : found' = found := by
        have he := hok.symm.trans hfound
        cases he
        rfl
      exact ⟨hc, by simpa using hchildren, by simpa using hfiles⟩
  · rintro ⟨hc, hchildren, hfiles⟩
    obtain ⟨found', hok, hchildren', hfiles'⟩ := h.2 hc
    have h₁ : found'.dirtyChildren = found.dirtyChildren := by
      ext x
      rw [hchildren, hchildren']
      simp
    have h₂ : found'.dirtyFiles = found.dirtyFiles := by
      ext f
      rw [hfiles, hfiles']
      simp
    obtain ⟨children, files⟩ := found
    obtain ⟨children', files'⟩ := found'
    change children' = children at h₁
    change files' = files at h₂
    subst h₁ h₂
    exact hok

end Whole

end DeepSave

end ParseSDK

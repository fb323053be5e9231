import FPApp.RoundTripProofs

/-! # Change sets on the wire

    `PFOperationSet` — a set of operations is stored as one dictionary, in which the
    set keeps entries of its own beside the keys of the fields.

    * `RESTDictionary`, `operationSetFromRESTDictionary` — the source;
    * `operation_read_back` — an operation comes back as it was, but for the order of
      the objects that are to be added once;
    * `change_set_round_trip` — so does a set of them. -/

namespace ParseSDK

open KeyedList

namespace Codec

section Sets

variable {F D T O : Type} [DecidableEq O] (p : Platform F D T O)

/-- A `PFOperationSet`. -/
structure ChangeSet (F D T O : Type) where
  dictionary : List (String × CodedOperation F D T O)
  uuid : String
  updatedAt : Option T
  saveEventually : Bool

/-- The operations, one after another. -/
def encodeOperations (enc : ObjectEncoder) :
    List (String × CodedOperation F D T O) → Except CodecFailure (List (String × Json F))
  | [] => .ok []
  | (key, op) :: rest =>
      match encodeOperation p enc op with
      | .error e => .error e
      | .ok json =>
          match encodeOperations enc rest with
          | .error e => .error e
          | .ok jsons => .ok ((key, json) :: jsons)

/-- The entries that a set keeps beside its fields. -/
def uuidKey : String := "__uuid"
def updatedAtKey : String := "__updatedAt"
def isSaveEventuallyKey : String := "__isSaveEventually"

/-- A dictionary without the entry of a key. -/
def without (key : String) (entries : List (String × Json F)) : List (String × Json F) :=
  entries.filter fun entry => !decide (entry.1 = key)

/-- The date under its key; an absent date takes the key away. -/
def setUpdatedAt (result : List (String × Json F)) : Option T → List (String × Json F)
  | none => without updatedAtKey result
  | some t =>
      upsert Prod.fst result (updatedAtKey,
        .dictionary [("__type", .string "Date"), ("iso", .string (p.preciseString t))])

/-- `RESTDictionaryUsingObjectEncoder:operationSetUUIDs:error:`. -/
def RESTDictionary (enc : ObjectEncoder) (s : ChangeSet F D T O) :
    Except CodecFailure (List (String × Json F)) :=
  match encodeOperations p enc s.dictionary with
  | .error e => .error e
  | .ok result =>
      let result := upsert Prod.fst result (uuidKey, .string s.uuid)
      let result := setUpdatedAt p result s.updatedAt
      .ok (if s.saveEventually then
        upsert Prod.fst result (isSaveEventuallyKey, .number (.integer .bool 1)) else result)

/-- One field of a stored set. -/
def decodeField (allObjects : List (PFValue F D T O) → List (PFValue F D T O)) (key : String)
    (json : Json F) : Except CodecFailure (CodedOperation F D T O) :=
  match decodeObject p allObjects (json.depth + 1) json with
  | .error e => .error e
  | .ok value =>
      if key = "ACL" then
        match aclWithDictionary json with
        | .error e => .error e
        | .ok acl => .ok (.set (.acl acl))
      else
        match value with
        | .operation op => .ok op
        | v => .ok (.set v)

def decodeFields (allObjects : List (PFValue F D T O) → List (PFValue F D T O)) :
    List (String × Json F) → Except CodecFailure (List (String × CodedOperation F D T O))
  | [] => .ok []
  | (key, json) :: rest =>
      match decodeField p allObjects key json with
      | .error e => .error e
      | .ok op =>
          match decodeFields allObjects rest with
          | .error e => .error e
          | .ok ops => .ok ((key, op) :: ops)

/-- The date of a stored set. -/
def decodeUpdatedAt (allObjects : List (PFValue F D T O) → List (PFValue F D T O)) :
    Option (Json F) → Except CodecFailure (Option T)
  | none => .ok none
  | some json =>
      match decodeObject p allObjects (json.depth + 1) json with
      | .error e => .error e
      | .ok (.date t) => .ok (some t)
      | .ok _ => .error .leftOut

/-- `operationSetFromRESTDictionary:usingDecoder:`; `newUUID` is the one that a
    set without a stored one is given. -/
def operationSetFromRESTDictionary
    (allObjects : List (PFValue F D T O) → List (PFValue F D T O)) (newUUID : String)
    (data : List (String × Json F)) : Except CodecFailure (ChangeSet F D T O) :=
  let inputUUID : Except CodecFailure String :=
    match data.lookup uuidKey with
    | none => .ok newUUID
    | some (.string uuid) => .ok uuid
    | some _ => .error .leftOut
  match inputUUID with
  | .error e => .error e
  | .ok uuid =>
      let data := without uuidKey data
      let flag : Except CodecFailure Bool :=
        match data.lookup isSaveEventuallyKey with
        | none => .ok false
        | some json => boolValue json
      match flag with
      | .error e => .error e
      | .ok saveEventually =>
          let data := without isSaveEventuallyKey data
          let updatedAt := data.lookup updatedAtKey
          match decodeFields p allObjects (without updatedAtKey data) with
          | .error e => .error e
          | .ok dictionary =>
              match decodeUpdatedAt p allObjects updatedAt with
              | .error e => .error e
              | .ok updatedAt => .ok ⟨dictionary, uuid, updatedAt, saveEventually⟩

/-! ## Operations that come back -/

/-- The relation operations that can be made: of one class, with something to add
    or to remove. -/
structure FaithfulRelation (enc : ObjectEncoder) (op : RelationOperation O) : Prop where
  nonempty : op.relationsToAdd ≠ ∅ ∨ op.relationsToRemove ≠ ∅
  back : ∀ o ∈ op.relationsToAdd ∪ op.relationsToRemove, comesBack p enc o = some o
  sameClass : ∀ o ∈ op.relationsToAdd ∪ op.relationsToRemove,
    op.targetClass = some (p.className o)

/-- No key of the permissions has a meaning to the decoder. -/
def Readable (acl : PFACL) : Prop :=
  ∀ key ∈ acl.permissions.map Prod.fst ++ acl.permissions.flatMap Prod.snd,
    key ≠ "__op" ∧ key ≠ "__type"

/-- The operations on a field whose values are read back as they were. Under the key
    `ACL` only an access control list can be set. -/
def FaithfulOperation (enc : ObjectEncoder) (key : String) (op : CodedOperation F D T O) :
    Prop :=
  if key = "ACL" then ∃ acl, op = .set (.acl acl) ∧ Readable acl
  else
    match op with
    | .set value => Bare value ∧ Faithful p enc value
    | .delete => True
    | .increment _ => True
    | .add objects => BareElems objects ∧ FaithfulElems p enc objects
    | .addUnique objects => BareElems objects ∧ FaithfulElems p enc objects
    | .remove objects => BareElems objects ∧ FaithfulElems p enc objects
    | .relation op => FaithfulRelation p enc op

/-- The operation that is made of the objects read back: those to add once are put
    into a set again, and come in the order in which it lists them. -/
def CodedOperation.relisted (allObjects : List (PFValue F D T O) → List (PFValue F D T O)) :
    CodedOperation F D T O → CodedOperation F D T O
  | .addUnique objects => .addUnique (allObjects objects)
  | .set value => .set value
  | .delete => .delete
  | .increment amount => .increment amount
  | .add objects => .add objects
  | .remove objects => .remove objects
  | .relation op => .relation op

variable {p} {enc : ObjectEncoder} {allObjects : List (PFValue F D T O) → List (PFValue F D T O)}

/-- **A LIST OF OBJECTS** is coded, and decoded for the operation it stands in. -/
theorem withObjects_spec (allObjects : List (PFValue F D T O) → List (PFValue F D T O))
    (name : String) {objects : List (PFValue F D T O)}
    (hbare : BareElems objects) (h : FaithfulElems p enc objects) :
    ∃ encoded fuel, encodeWithObjects name (encodeElems p enc objects)
        = .ok (.dictionary [("__op", .string name), ("objects", .array encoded)])
      ∧ (Json.dictionary [("__op", .string name), ("objects", .array encoded)]).depth = fuel
      ∧ decodeObjects (decodeObject p allObjects fuel)
          [("__op", .string name), ("objects", .array encoded)] = .ok objects := by
  obtain ⟨encoded, hencoded⟩ := encode_faithfulElems objects h
  refine ⟨encoded, _, ?_, rfl, ?_⟩
  · rw [hencoded, encodeWithObjects]
  · have hdecode : decodeElems (decodeObject p allObjects (Json.dictionary
        [("__op", .string name), ("objects", .array encoded)]).depth) encoded = .ok objects := by
      refine (decode_encodeElems objects hbare hencoded ?_).mpr h
      simp only [Json.depth, Json.depthEntries]
      omega
    simp only [decodeObjects, List.lookup_cons, String.reduceBEq]
    exact hdecode

omit [DecidableEq O] in
/-- A set that is not empty lists something. -/
theorem listing_ne_nil {objects : Finset O} (h : objects ≠ ∅) : p.listing objects ≠ [] := by
  obtain ⟨o, ho⟩ := Finset.nonempty_iff_ne_empty.mpr h
  exact List.ne_nil_of_mem ((p.mem_listing objects o).mpr ho)

/-- A half of a relation is left out when it is empty, and else it is decoded to
    its objects. -/
theorem half_spec (allObjects : List (PFValue F D T O) → List (PFValue F D T O))
    (name : String) {objects : Finset O}
    (h : ∀ o ∈ objects, comesBack p enc o = some o) :
    (objects = ∅ ∧ encodeHalf p enc name objects = .ok none) ∨
    (objects ≠ ∅ ∧ ∃ encoded : List (Json F), encodeHalf p enc name objects
        = .ok (some (.dictionary [("__op", .string name), ("objects", .array encoded)]))
      ∧ ∀ fuel, decodeObjects (decodeObject p allObjects (fuel + 1))
          [("__op", .string name), ("objects", .array encoded)]
          = .ok ((p.listing objects).map PFValue.object)) := by
  have hback : ∀ o ∈ p.listing objects, comesBack p enc o ≠ none := by
    intro o ho
    rw [h o ((p.mem_listing _ _).mp ho)]
    simp
  by_cases hempty : objects = ∅
  · refine Or.inl ⟨hempty, ?_⟩
    have hnil : p.listing objects = [] := by
      rw [List.eq_nil_iff_forall_not_mem]
      intro o ho
      rw [p.mem_listing, hempty] at ho
      exact Finset.notMem_empty o ho
    rw [encodeHalf, hnil, if_pos List.isEmpty_nil]
  · refine Or.inr ⟨hempty, ?_⟩
    obtain ⟨encoded, hencoded⟩ := encode_parseObjects (F := F) hback
    refine ⟨encoded, ?_, fun fuel => ?_⟩
    · rw [encodeHalf, if_neg (by simpa using listing_ne_nil hempty), hencoded]
    · have hmap : (p.listing objects).map
          (fun o => (PFValue.object ((comesBack p enc o).getD o) : PFValue F D T O))
          = (p.listing objects).map PFValue.object := by
        refine List.map_congr_left fun o ho => ?_
        rw [h o ((p.mem_listing _ _).mp ho), Option.getD_some]
      simp only [decodeObjects, List.lookup_cons, String.reduceBEq]
      rw [(decode_parseObjects allObjects fuel hencoded).2, hmap]

omit [DecidableEq O] in
/-- The class of a set of objects of one class. -/
theorem targetClassOf_listing {objects : Finset O} (hne : objects ≠ ∅) {c : Option String}
    (h : ∀ o ∈ objects, c = some (p.className o)) :
    targetClassOf p (p.listing objects) = .ok c := by
  cases hl : p.listing objects with
  | nil => exact absurd hl (listing_ne_nil hne)
  | cons first rest =>
      have hmem : ∀ o ∈ first :: rest, c = some (p.className o) := fun o ho =>
        h o ((p.mem_listing objects o).mp (hl ▸ ho))
      have hfirst := hmem first List.mem_cons_self
      have hall : (first :: rest).all
          (fun o => decide (p.className o = p.className first)) = true := by
        rw [List.all_eq_true]
        intro o ho
        rw [decide_eq_true_eq]
        have ho' := hmem o ho
        rw [hfirst] at ho'
        exact (Option.some.inj ho').symm
      rw [targetClassOf, if_pos hall, hfirst]

theorem toFinset_listing_self (objects : Finset O) : (p.listing objects).toFinset = objects := by
  ext o
  rw [List.mem_toFinset, p.mem_listing]

/-- A coded half of a relation is decoded to the operation of that half. -/
theorem decode_add {objects : Finset O} (hne : objects ≠ ∅) {c : Option String}
    (hclass : ∀ o ∈ objects, c = some (p.className o)) {encoded : List (Json F)} {fuel : Nat}
    (h : decodeObjects (decodeObject p allObjects fuel)
        [("__op", .string "AddRelation"), ("objects", .array encoded)]
      = .ok ((p.listing objects).map PFValue.object)) :
    decodeObject p allObjects (fuel + 1)
        (.dictionary [("__op", .string "AddRelation"), ("objects", .array encoded)])
      = .ok (.operation (.relation ⟨c, objects, ∅⟩)) := by
  have hop : decodeOperation p allObjects (decodeObject p allObjects fuel)
      (.string "AddRelation") [("__op", .string "AddRelation"), ("objects", .array encoded)]
      = .ok (.relation ⟨c, objects, ∅⟩) := by
    simp [decodeOperation, h, asObjects_map, addRelationToObjects,
      targetClassOf_listing hne hclass, toFinset_listing_self]
  rw [decodeObject]
  simp only [List.lookup_cons, BEq.rfl, hop]

theorem decode_remove {objects : Finset O} (hne : objects ≠ ∅) {c : Option String}
    (hclass : ∀ o ∈ objects, c = some (p.className o)) {encoded : List (Json F)} {fuel : Nat}
    (h : decodeObjects (decodeObject p allObjects fuel)
        [("__op", .string "RemoveRelation"), ("objects", .array encoded)]
      = .ok ((p.listing objects).map PFValue.object)) :
    decodeObject p allObjects (fuel + 1)
        (.dictionary [("__op", .string "RemoveRelation"), ("objects", .array encoded)])
      = .ok (.operation (.relation ⟨c, ∅, objects⟩)) := by
  have hop : decodeOperation p allObjects (decodeObject p allObjects fuel)
      (.string "RemoveRelation") [("__op", .string "RemoveRelation"), ("objects", .array encoded)]
      = .ok (.relation ⟨c, ∅, objects⟩) := by
    simp [decodeOperation, h, asObjects_map, removeRelationToObjects,
      targetClassOf_listing hne hclass, toFinset_listing_self]
  rw [decodeObject]
  simp only [List.lookup_cons, BEq.rfl, hop]

theorem mergeInBatch_none (op : CodedOperation F D T O) : mergeInBatch op none = .ok op := by
  cases op <;> rfl

/-- **A RELATION COMES BACK**, also when what is added and what is removed are sent
    as two operations and merged again. -/
theorem relation_spec (allObjects : List (PFValue F D T O) → List (PFValue F D T O))
    {op : RelationOperation O} (h : FaithfulRelation p enc op) :
    ∃ json : Json F, encodeOperation p enc (.relation op : CodedOperation F D T O) = .ok json
      ∧ decodeObject p allObjects (json.depth + 1) json = .ok (.operation (.relation op)) := by
  obtain ⟨targetClass, add, remove⟩ := op
  have hadd : ∀ o ∈ add, targetClass = some (p.className o) := fun o ho =>
    h.sameClass o (Finset.mem_union_left _ ho)
  have hremove : ∀ o ∈ remove, targetClass = some (p.className o) := fun o ho =>
    h.sameClass o (Finset.mem_union_right _ ho)
  have hbackAdd : ∀ o ∈ add, comesBack p enc o = some o := fun o ho =>
    h.back o (Finset.mem_union_left _ ho)
  have hbackRemove : ∀ o ∈ remove, comesBack p enc o = some o := fun o ho =>
    h.back o (Finset.mem_union_right _ ho)
  rw [encodeOperation, encodeRelationOperation]
  have hremoved := half_spec allObjects "RemoveRelation" hbackRemove
  rcases half_spec allObjects "AddRelation" hbackAdd with ⟨rfl, ha⟩ | ⟨hane, ea, ha, hda⟩
  · rcases hremoved with ⟨rfl, hr⟩ | ⟨hrne, er, hr, hdr⟩
    · exact absurd rfl (h.nonempty.resolve_left fun hne => hne rfl)
    · rw [ha, hr]
      exact ⟨_, rfl, decode_remove hrne hremove (hdr _)⟩
  · rcases hremoved with ⟨rfl, hr⟩ | ⟨hrne, er, hr, hdr⟩
    · rw [ha, hr]
      exact ⟨_, rfl, decode_add hane hadd (hda _)⟩
    · rw [ha, hr]
      refine ⟨_, rfl, ?_⟩
      -- each half is decoded below the batch, and the second merged with the first
      obtain ⟨k, hk⟩ := Nat.exists_eq_add_of_le' (show 2 ≤ (Json.dictionary
          [("__op", .string "Batch"),
            ("ops", .array [.dictionary [("__op", .string "AddRelation"), ("objects", .array ea)],
              .dictionary [("__op", .string "RemoveRelation"), ("objects", .array er)]])]
          : Json F).depth by
        simp only [Json.depth, Json.depthEntries]
        omega)
      have hadded := decode_add hane hadd (hda k)
      have hremoved := decode_remove hrne hremove (hdr k)
      have hmerge : mergeInBatch (.relation ⟨targetClass, ∅, remove⟩ : CodedOperation F D T O)
          (some (.relation ⟨targetClass, add, ∅⟩)) = .ok (.relation ⟨targetClass, add, remove⟩) := by
        simp [mergeInBatch, RelationOperation.mergeSets]
      have hbatch : decodeBatch p (decodeObject p allObjects (k + 2))
          [.dictionary [("__op", .string "AddRelation"), ("objects", .array ea)],
            .dictionary [("__op", .string "RemoveRelation"), ("objects", .array er)]] none
          = .ok (some (.relation ⟨targetClass, add, remove⟩)) := by
        simp only [decodeBatch, List.lookup_cons, BEq.rfl, hadded, hremoved, hmerge,
          mergeInBatch_none]
      rw [hk, decodeObject]
      simp [List.lookup_cons, decodeOperation, hbatch]

theorem depth_le_entries {entries : List (String × Json F)} {entry : String × Json F}
    (h : entry ∈ entries) : entry.2.depth ≤ Json.depthEntries entries := by
  induction entries with
  | nil => cases h
  | cons head rest ih =>
      obtain ⟨key, json⟩ := head
      rw [Json.depthEntries]
      rcases List.mem_cons.mp h with rfl | h
      · exact le_max_left _ _
      · exact (ih h).trans (le_max_right _ _)

/-- A dictionary without the two keys is decoded when all in it is. -/
theorem decode_plain_keys {entries : List (String × Json F)} {fuel : Nat}
    (hkeys : ∀ entry ∈ entries, entry.1 ≠ "__op" ∧ entry.1 ≠ "__type")
    (hdecode : ∀ entry ∈ entries, ∃ d, decodeObject p allObjects fuel entry.2 = .ok d) :
    ∃ v, decodeObject p allObjects (fuel + 1) (.dictionary entries) = .ok (v) := by
  have hop : entries.lookup "__op" = none := by
    rw [List.lookup_eq_none_iff]
    intro entry he
    rw [bne_iff_ne]
    exact (hkeys entry he).1.symm
  have htype : entries.lookup "__type" = none := by
    rw [List.lookup_eq_none_iff]
    intro entry he
    rw [bne_iff_ne]
    exact (hkeys entry he).2.symm
  have hentries : ∀ es : List (String × Json F),
      (∀ entry ∈ es, ∃ d, decodeObject p allObjects fuel entry.2 = .ok d) →
      ∃ values, decodeEntries (decodeObject p allObjects fuel) es = .ok values := by
    intro es
    induction es with
    | nil => exact fun _ => ⟨[], rfl⟩
    | cons head rest ih =>
        intro hall
        obtain ⟨d, hd⟩ := hall head List.mem_cons_self
        obtain ⟨values, hvalues⟩ := ih fun entry he => hall entry (List.mem_cons_of_mem _ he)
        exact ⟨(head.1, d) :: values, by simp only [decodeEntries, hd, hvalues]⟩
  obtain ⟨values, hvalues⟩ := hentries entries hdecode
  refine ⟨.dictionary values, ?_⟩
  rw [decodeObject]
  simp only [hop, htype, hvalues]

/-- Decoding a coded access control list raises nothing when its keys mean nothing
    to the decoder. -/
theorem decode_acl (p : Platform F D T O)
    (allObjects : List (PFValue F D T O) → List (PFValue F D T O)) {acl : PFACL}
    (h : Readable acl) :
    ∃ v, decodeObject p allObjects ((acl.encodeIntoDictionary : Json F).depth + 1)
      acl.encodeIntoDictionary = .ok (v) := by
  unfold PFACL.encodeIntoDictionary
  refine decode_plain_keys (fun entry he => ?_) (fun entry he => ?_)
  · obtain ⟨user, huser, rfl⟩ := List.mem_map.mp he
    exact h user.1 (List.mem_append_left _ (List.mem_map_of_mem huser))
  · have hdepth := depth_le_entries he
    obtain ⟨user, huser, rfl⟩ := List.mem_map.mp he
    obtain ⟨k, hk⟩ := Nat.exists_eq_add_of_le' (show 2 ≤ (Json.dictionary
        (acl.permissions.map fun entry => (entry.1, .dictionary (entry.2.map fun accessType =>
          (accessType, .number (.integer .bool 1))))) : Json F).depth by
      simp only [Json.depth] at hdepth ⊢
      omega)
    rw [hk]
    have hinner : ∃ v, decodeObject p allObjects (k + 1 + 1) (.dictionary
        (user.2.map fun accessType => (accessType, (.number (.integer .bool 1) : Json F))))
        = .ok (v) := by
      refine decode_plain_keys (fun entry he => ?_) (fun entry he => ?_)
      · obtain ⟨accessType, hmem, rfl⟩ := List.mem_map.mp he
        exact h accessType (List.mem_append_right _ (List.mem_flatMap.mpr ⟨user, huser, hmem⟩))
      · obtain ⟨accessType, hmem, rfl⟩ := List.mem_map.mp he
        exact ⟨_, rfl⟩
    obtain ⟨v, hv⟩ := hinner
    exact ⟨_, hv⟩

/-- **AN OPERATION COMES BACK** from the dictionary that it is coded as. -/
theorem operation_read_back (allObjects : List (PFValue F D T O) → List (PFValue F D T O))
    {key : String} {op : CodedOperation F D T O} (h : FaithfulOperation p enc key op) :
    ∃ json, encodeOperation p enc op = .ok json
      ∧ decodeField p allObjects key json = .ok (op.relisted allObjects) := by
  unfold FaithfulOperation at h
  by_cases hkey : key = "ACL"
  · rw [if_pos hkey] at h
    obtain ⟨acl, rfl, hreadable⟩ := h
    obtain ⟨v, hv⟩ := decode_acl p allObjects hreadable
    refine ⟨_, rfl, ?_⟩
    rw [decodeField, hv]
    simp only [hkey, if_true, acl_round_trip, CodedOperation.relisted]
  rw [if_neg hkey] at h
  have hfield : ∀ {json : Json F} {op' : CodedOperation F D T O},
      decodeObject p allObjects (json.depth + 1) json = .ok (.operation op') →
      decodeField p allObjects key json = .ok op' := by
    intro json op' hjson
    rw [decodeField, hjson]
    simp only [if_neg hkey]
  cases op with
  | set v =>
      obtain ⟨hbare, hv⟩ := h
      obtain ⟨json, hjson⟩ := encode_faithful v hv
      refine ⟨json, by rw [encodeOperation, hjson], ?_⟩
      rw [decodeField, (decode_encode v hbare hjson (Nat.lt_succ_self _)).mpr hv]
      simp only [if_neg hkey]
      -- only an operation would have been taken as it is
      cases v with
      | operation op => exact absurd rfl (hbare.ne_operation op)
      | _ => rfl
  | delete =>
      refine ⟨_, rfl, hfield ?_⟩
      simp [decodeObject, decodeOperation, CodedOperation.relisted]
  | increment n =>
      refine ⟨_, rfl, hfield ?_⟩
      simp [decodeObject, List.lookup_cons, decodeOperation, CodedOperation.relisted]
  | add objects =>
      obtain ⟨encoded, fuel, henc, hdepth, hdec⟩ := withObjects_spec allObjects "Add" h.1 h.2
      refine ⟨_, by rw [encodeOperation, henc], hfield ?_⟩
      rw [hdepth]
      simp [decodeObject, decodeOperation, hdec, CodedOperation.relisted]
  | addUnique objects =>
      obtain ⟨encoded, fuel, henc, hdepth, hdec⟩ :=
        withObjects_spec allObjects "AddUnique" h.1 h.2
      refine ⟨_, by rw [encodeOperation, henc], hfield ?_⟩
      rw [hdepth]
      simp [decodeObject, decodeOperation, hdec, CodedOperation.relisted]
  | remove objects =>
      obtain ⟨encoded, fuel, henc, hdepth, hdec⟩ := withObjects_spec allObjects "Remove" h.1 h.2
      refine ⟨_, by rw [encodeOperation, henc], hfield ?_⟩
      rw [hdepth]
      simp [decodeObject, decodeOperation, hdec, CodedOperation.relisted]
  | relation op =>
      obtain ⟨json, henc, hdec⟩ := relation_spec allObjects h
      exact ⟨json, henc, hfield hdec⟩

omit [DecidableEq O] in
/-- **A BATCH OF TWO**: what is added and what is removed are one operation each. -/
theorem encode_batch {op : RelationOperation O} {json : Json F}
    (hadd : op.relationsToAdd ≠ ∅) (hremove : op.relationsToRemove ≠ ∅)
    (h : encodeRelationOperation p enc op = .ok json) :
    ∃ added removed, encodeParseObjects p enc (p.listing op.relationsToAdd) = .ok added
      ∧ encodeParseObjects p enc (p.listing op.relationsToRemove) = .ok removed
      ∧ json = .dictionary [("__op", .string "Batch"),
        ("ops", .array [.dictionary [("__op", .string "AddRelation"), ("objects", .array added)],
          .dictionary [("__op", .string "RemoveRelation"), ("objects", .array removed)]])] := by
  rw [encodeRelationOperation, encodeHalf, encodeHalf,
    if_neg (by simpa using listing_ne_nil hadd), if_neg (by simpa using listing_ne_nil hremove)] at h
  cases ha : encodeParseObjects (F := F) p enc (p.listing op.relationsToAdd) with
  | error e => simp [ha] at h
  | ok added =>
      cases hr : encodeParseObjects (F := F) p enc (p.listing op.relationsToRemove) with
      | error e => simp [ha, hr] at h
      | ok removed =>
          simp only [ha, hr, Except.ok.injEq] at h
          exact ⟨added, removed, rfl, rfl, h.symm⟩

/-! ## Sets that come back -/

/-- The keys that a set uses for itself. -/
def reservedKeys : List String := [uuidKey, updatedAtKey, isSaveEventuallyKey]

/-- The sets that are read back as they were: their operations are, no field has a
    key that the set uses for itself, and the date is as precise as its text. -/
structure FaithfulSet (p : Platform F D T O) (enc : ObjectEncoder) (s : ChangeSet F D T O) :
    Prop where
  operations : ∀ entry ∈ s.dictionary, FaithfulOperation p enc entry.1 entry.2
  keys : ∀ entry ∈ s.dictionary, entry.1 ∉ reservedKeys
  date : ∀ t, s.updatedAt = some t → p.dateFromString (p.preciseString t) = t

/-- The set with the operations that are made of the objects read back. -/
def ChangeSet.relisted (s : ChangeSet F D T O)
    (allObjects : List (PFValue F D T O) → List (PFValue F D T O)) : ChangeSet F D T O :=
  { s with dictionary := s.dictionary.map fun entry => (entry.1, entry.2.relisted allObjects) }

/-- The fields of a set are coded under their keys and come back. -/
theorem operations_read_back (allObjects : List (PFValue F D T O) → List (PFValue F D T O)) :
    ∀ {entries : List (String × CodedOperation F D T O)},
    (∀ entry ∈ entries, FaithfulOperation p enc entry.1 entry.2) →
    ∃ jsons, encodeOperations p enc entries = .ok jsons
      ∧ jsons.map Prod.fst = entries.map Prod.fst
      ∧ decodeFields p allObjects jsons
        = .ok (entries.map fun entry => (entry.1, entry.2.relisted allObjects))
      ∧ ∀ entry ∈ entries, ∃ json, encodeOperation p enc entry.2 = .ok json
        ∧ (entry.1, json) ∈ jsons := by
  intro entries
  induction entries with
  | nil => exact fun _ => ⟨[], rfl, rfl, rfl, by simp⟩
  | cons entry rest ih =>
      intro h
      obtain ⟨key, op⟩ := entry
      obtain ⟨json, henc, hdec⟩ := operation_read_back allObjects (h (key, op) List.mem_cons_self)
      obtain ⟨jsons, hencs, hkeys, hdecs, hmem⟩ :=
        ih fun entry he => h entry (List.mem_cons_of_mem _ he)
      refine ⟨(key, json) :: jsons, ?_, ?_, ?_, fun entry he => ?_⟩
      · simp only [encodeOperations, henc, hencs]
      · rw [List.map_cons, List.map_cons, hkeys]
      · simp only [decodeFields, hdec, hdecs, List.map_cons]
      · rcases List.mem_cons.mp he with rfl | he
        · exact ⟨json, henc, List.mem_cons_self⟩
        · obtain ⟨json', henc', hmem'⟩ := hmem entry he
          exact ⟨json', henc', List.mem_cons_of_mem _ hmem'⟩

/-- The entry of the date, if there is one. -/
def dateEntry (p : Platform F D T O) : Option T → List (String × Json F)
  | none => []
  | some t =>
      [(updatedAtKey, .dictionary [("__type", .string "Date"), ("iso", .string (p.preciseString t))])]

/-- The entry of the flag, if it is set. -/
def flagEntry (saveEventually : Bool) : List (String × Json F) :=
  if saveEventually then [(isSaveEventuallyKey, .number (.integer .bool 1))] else []

/-- No entry has a key. -/
def Lacks (key : String) (entries : List (String × Json F)) : Prop :=
  ∀ entry ∈ entries, entry.1 ≠ key

theorem Lacks.append {key : String} {xs ys : List (String × Json F)} (hx : Lacks key xs)
    (hy : Lacks key ys) : Lacks key (xs ++ ys) := by
  intro entry he
  rcases List.mem_append.mp he with he | he
  · exact hx entry he
  · exact hy entry he

theorem Lacks.lookup_append {key : String} {xs : List (String × Json F)} (h : Lacks key xs)
    (ys : List (String × Json F)) : (xs ++ ys).lookup key = ys.lookup key := by
  induction xs with
  | nil => rfl
  | cons x xs ih =>
      have hx : (key == x.1) = false := beq_eq_false_iff_ne.mpr (h x List.mem_cons_self).symm
      rw [List.cons_append, List.lookup_cons, hx]
      exact ih fun entry he => h entry (List.mem_cons_of_mem _ he)

theorem Lacks.without_self {key : String} {xs : List (String × Json F)} (h : Lacks key xs) :
    without key xs = xs :=
  List.filter_eq_self.mpr fun entry he => by simpa using h entry he

theorem Lacks.without_append {key : String} {xs : List (String × Json F)} (h : Lacks key xs)
    (ys : List (String × Json F)) : without key (xs ++ ys) = xs ++ without key ys := by
  have happend : without key (xs ++ ys) = without key xs ++ without key ys :=
    List.filter_append xs ys
  rw [happend, h.without_self]

theorem Lacks.upsert {key : String} {xs : List (String × Json F)} (h : Lacks key xs)
    (json : Json F) : upsert Prod.fst xs (key, json) = xs ++ [(key, json)] := by
  refine upsert_new fun hmem => ?_
  obtain ⟨entry, he, hkey⟩ := List.mem_map.mp hmem
  exact h entry he hkey

omit [DecidableEq O] in
theorem lacks_dateEntry (p : Platform F D T O) {key : String} (h : key ≠ updatedAtKey)
    (t : Option T) : Lacks key (dateEntry p t) := by
  intro entry he
  cases t with
  | none => cases he
  | some t =>
      obtain rfl := List.mem_singleton.mp he
      exact h.symm

theorem lacks_flagEntry {key : String} (h : key ≠ isSaveEventuallyKey) (flag : Bool) :
    Lacks key (flagEntry flag : List (String × Json F)) := by
  intro entry he
  cases flag with
  | false => cases he
  | true =>
      obtain rfl := List.mem_singleton.mp he
      exact h.symm

omit [DecidableEq O] in
/-- **THE STORED SET**: the fields, and after them the entries of the set. -/
theorem rest_dictionary {s : ChangeSet F D T O} {jsons : List (String × Json F)}
    (henc : encodeOperations p enc s.dictionary = .ok jsons)
    (hkeys : ∀ key ∈ reservedKeys, Lacks key jsons) :
    RESTDictionary p enc s
      = .ok (jsons ++ (uuidKey, .string s.uuid)
          :: (dateEntry p s.updatedAt ++ flagEntry s.saveEventually)) := by
  have huuid : upsert Prod.fst jsons (uuidKey, .string s.uuid)
      = jsons ++ [(uuidKey, .string s.uuid)] := (hkeys uuidKey (by simp [reservedKeys])).upsert _
  have hlacks : ∀ key ∈ reservedKeys, key ≠ uuidKey →
      Lacks key (jsons ++ [(uuidKey, .string s.uuid)]) := by
    intro key hkey hne
    refine (hkeys key hkey).append fun entry he => ?_
    obtain rfl := List.mem_singleton.mp he
    exact hne.symm
  have hdate := hlacks updatedAtKey (by simp [reservedKeys]) (by decide)
  have hflag := hlacks isSaveEventuallyKey (by simp [reservedKeys]) (by decide)
  -- the date goes to the end, or there was none to take away
  have hdated : setUpdatedAt p (jsons ++ [(uuidKey, .string s.uuid)]) s.updatedAt
      = jsons ++ [(uuidKey, .string s.uuid)] ++ dateEntry p s.updatedAt := by
    cases s.updatedAt with
    | none => rw [setUpdatedAt, hdate.without_self, dateEntry, List.append_nil]
    | some t => exact hdate.upsert _
  rw [RESTDictionary, henc]
  dsimp only
  rw [huuid, hdated]
  cases s.saveEventually with
  | false => simp [flagEntry]
  | true =>
      have hall := hflag.append (lacks_dateEntry p (by decide) s.updatedAt)
      rw [if_pos rfl, hall.upsert]
      simp [flagEntry]

/-- **THE STORED SET IS READ**: its fields as they are decoded, and its own entries. -/
theorem stored_set_read {s : ChangeSet F D T O} {jsons : List (String × Json F)}
    {fields : List (String × CodedOperation F D T O)}
    (hkeys : ∀ key ∈ reservedKeys, Lacks key jsons)
    (hdec : decodeFields p allObjects jsons = .ok fields)
    (hdate : ∀ t, s.updatedAt = some t → p.dateFromString (p.preciseString t) = t)
    (newUUID : String) :
    operationSetFromRESTDictionary p allObjects newUUID
        (jsons ++ (uuidKey, .string s.uuid)
          :: (dateEntry p s.updatedAt ++ flagEntry s.saveEventually))
      = .ok { s with dictionary := fields } := by
  have hround := hdate
  have huuid := hkeys uuidKey (by simp [reservedKeys])
  have hdate := hkeys updatedAtKey (by simp [reservedKeys])
  have hflag := hkeys isSaveEventuallyKey (by simp [reservedKeys])
  -- the entries of the set are found and taken away, one after another
  have hrest : Lacks uuidKey (dateEntry p s.updatedAt ++ flagEntry s.saveEventually) :=
    (lacks_dateEntry p (by decide) _).append (lacks_flagEntry (by decide) _)
  have hdata : without uuidKey (jsons ++ (uuidKey, .string s.uuid)
      :: (dateEntry p s.updatedAt ++ flagEntry s.saveEventually))
      = jsons ++ dateEntry p s.updatedAt ++ flagEntry s.saveEventually := by
    have hcons : without uuidKey ((uuidKey, .string s.uuid)
        :: (dateEntry p s.updatedAt ++ flagEntry s.saveEventually))
        = without uuidKey (dateEntry p s.updatedAt ++ flagEntry s.saveEventually) := by
      simp [without]
    rw [huuid.without_append, hcons, hrest.without_self, List.append_assoc]
  have hbefore : Lacks isSaveEventuallyKey (jsons ++ dateEntry p s.updatedAt) :=
    hflag.append (lacks_dateEntry p (by decide) _)
  have hbool : (match (flagEntry s.saveEventually : List (String × Json F)).lookup
        isSaveEventuallyKey with
      | none => (.ok false : Except CodecFailure Bool)
      | some json => boolValue json) = .ok s.saveEventually := by
    cases s.saveEventually with
    | false => rfl
    | true => simp [flagEntry, boolValue]
  have hflagged : without isSaveEventuallyKey
      (jsons ++ dateEntry p s.updatedAt ++ flagEntry s.saveEventually)
      = jsons ++ dateEntry p s.updatedAt := by
    have hnil : without isSaveEventuallyKey (flagEntry s.saveEventually : List (String × Json F))
        = [] := by
      cases s.saveEventually <;> simp [flagEntry, without]
    rw [hbefore.without_append, hnil, List.append_nil]
  have hfieldsOnly : without updatedAtKey (jsons ++ dateEntry p s.updatedAt) = jsons := by
    have hnil : without updatedAtKey (dateEntry p s.updatedAt) = [] := by
      cases s.updatedAt <;> simp [dateEntry, without]
    rw [hdate.without_append, hnil, List.append_nil]
  have hdated : decodeUpdatedAt p allObjects ((dateEntry p s.updatedAt).lookup updatedAtKey)
      = .ok s.updatedAt := by
    cases ht : s.updatedAt with
    | none => rfl
    | some t =>
        simp [dateEntry, List.lookup_cons, decodeUpdatedAt, decodeObject, decodeTyped, hround t ht]
  unfold operationSetFromRESTDictionary
  simp only [huuid.lookup_append, List.lookup_cons, BEq.rfl, hdata]
  rw [hbefore.lookup_append, hbool]
  simp only [hflagged, hfieldsOnly, hdec]
  rw [hdate.lookup_append, hdated]

/-- **THE ROUND TRIP OF A SET**: a faithful set of operations that is stored is read
    back with the same operations, the same date, the same flag and its own UUID;
    only what is to be added once comes in the order in which a set of it lists it.
    Every relation with objects to add and to remove is stored as a batch of two. -/
theorem change_set_round_trip {s : ChangeSet F D T O} (h : FaithfulSet p enc s)
    (allObjects : List (PFValue F D T O) → List (PFValue F D T O)) (newUUID : String) :
    ∃ data, RESTDictionary p enc s = .ok data
      ∧ operationSetFromRESTDictionary p allObjects newUUID data = .ok (s.relisted allObjects)
      ∧ ∀ key op, (key, .relation op) ∈ s.dictionary → op.relationsToAdd ≠ ∅ →
        op.relationsToRemove ≠ ∅ →
        ∃ added removed, encodeParseObjects p enc (p.listing op.relationsToAdd) = .ok added
          ∧ encodeParseObjects p enc (p.listing op.relationsToRemove) = .ok removed
          ∧ (key, .dictionary [("__op", .string "Batch"),
            ("ops", .array
              [.dictionary [("__op", .string "AddRelation"), ("objects", .array added)],
                .dictionary [("__op", .string "RemoveRelation"), ("objects", .array removed)]])])
            ∈ data := by
  obtain ⟨jsons, henc, hfields, hdec, hmem⟩ := operations_read_back allObjects h.operations
  have hkeys : ∀ key ∈ reservedKeys, Lacks key jsons := by
    rintro key hkey entry he rfl
    have hmem : entry.1 ∈ s.dictionary.map Prod.fst := hfields ▸ List.mem_map_of_mem he
    obtain ⟨entry', he', hkey'⟩ := List.mem_map.mp hmem
    exact h.keys entry' he' (hkey' ▸ hkey)
  refine ⟨_, rest_dictionary henc hkeys, stored_set_read hkeys hdec h.date newUUID, ?_⟩
  intro key op hop hadd hremove
  obtain ⟨json, hjson, hstored⟩ := hmem _ hop
  rw [encodeOperation] at hjson
  obtain ⟨added, removed, hadded, hremoved, rfl⟩ := encode_batch hadd hremove hjson
  exact ⟨added, removed, hadded, hremoved, List.mem_append_left _ hstored⟩

end Sets

/-! ## A set in which every kind of entry comes back -/

/-- Every operation on a field of its own: tags that are new, one comment more and
    one less, a relation with an object added and one removed, permissions and a
    dictionary with a date. -/
def eightFields : ChangeSet Int String String Post where
  dictionary :=
    [("likes", .increment (.integer .int 1)),
      ("tags", .addUnique [.string "sea", .string "sun"]),
      ("comments", .add [.array [.object .a, .number (.integer .int 2)]]),
      ("viewers", .remove [.object .b]),
      ("posts", .relation ⟨some "Post", {.a}, {.b}⟩),
      ("ACL", .set (.acl ⟨[("a", ["read", "write"])], ⟨by simp [Keyed], by simp⟩⟩)),
      ("seen", .set (.dictionary [("on", .date "2018-08-01T00:00:00.000Z")])),
      ("title", .delete)]
  uuid := "u"
  updatedAt := some "2018-08-01T00:00:00.000Z"
  saveEventually := true

theorem eightFields_faithful : FaithfulSet twoPosts .pointer eightFields := by
  have hback : ∀ o, comesBack twoPosts .pointer o = some o := by
    rintro (_ | _) <;> decide
  have hdate : ∀ t, twoPosts.dateFromString (twoPosts.preciseString t) = t := fun _ => rfl
  refine ⟨?_, ?_, fun t _ => rfl⟩
  · intro entry he
    simp only [eightFields, List.mem_cons, List.not_mem_nil, or_false] at he
    rcases he with rfl | rfl | rfl | rfl | rfl | rfl | rfl | rfl
    · simp [FaithfulOperation]
    · simp [FaithfulOperation, BareElems, Bare, FaithfulElems, Faithful]
    · simp [FaithfulOperation, BareElems, Bare, FaithfulElems, Faithful, hback]
    · simp [FaithfulOperation, BareElems, Bare, FaithfulElems, Faithful, hback]
    · have hrelation : FaithfulRelation twoPosts .pointer
          (⟨some "Post", {.a}, {.b}⟩ : RelationOperation Post) :=
        ⟨by decide, by decide, by decide⟩
      simpa [FaithfulOperation] using hrelation
    · simp [FaithfulOperation, Readable]
    · simp [FaithfulOperation, Bare, BareEntries, Faithful, FaithfulEntries, hdate,
        List.lookup_cons]
    · simp [FaithfulOperation]
  · intro entry he
    simp only [eightFields, List.mem_cons, List.not_mem_nil, or_false] at he
    rcases he with rfl | rfl | rfl | rfl | rfl | rfl | rfl | rfl <;> decide

/-- Here a set lists what it holds from the last to the first. -/
theorem change_set_round_trip_fields :
    ∃ data, RESTDictionary twoPosts .pointer eightFields = .ok data
      ∧ operationSetFromRESTDictionary twoPosts List.reverse "v" data
        = .ok (eightFields.relisted List.reverse) := by
  obtain ⟨data, hdata, hread, _⟩ :=
    change_set_round_trip eightFields_faithful List.reverse "v"
  exact ⟨data, hdata, hread⟩

end Codec

end ParseSDK

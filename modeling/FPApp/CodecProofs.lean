import FPApp.PermissionProofs

/-! # What is written to the wire

    `PFEncoder`, `PFDecoder`, `PFFieldOperationDecoder` — a value of a field becomes
    a dictionary that can be sent or stored, with a `__type` where a plain value
    would not do, and an operation becomes one with an `__op`.

    * `PFValue`, `CodedOperation` — what is coded;
    * `encodeObject`, `encodeOperation` — the encoders that the saves use;
    * `decodeObject` — the decoder, for any dictionary that is received. -/

namespace ParseSDK

namespace Codec

/-! ## Values -/

/-- What a `PFFile` keeps of itself: its state, and where the data that is not yet
    uploaded lies. -/
structure PFFile where
  name : String
  url : Option String
  mimeType : Option String
  stagedFilePath : Option String
  deriving DecidableEq

mutual

/-- A value that can be coded. Numbers and objects are those of the operations;
    a field operation is in a container only after it was decoded there. -/
inductive PFValue (F D T O : Type) where
  | null
  | number (n : NSNumber F)
  | string (s : String)
  | data (d : D)
  | date (t : T)
  | file (f : PFFile)
  | acl (acl : PFACL)
  | geoPoint (latitude longitude : F)
  | polygon (coordinates : List (Json F))
  | relation (r : PFRelation O)
  | object (o : O)
  | array (elems : List (PFValue F D T O))
  | dictionary (entries : List (String × PFValue F D T O))
  | operation (op : CodedOperation F D T O)

/-- A field operation as it is coded: what is set or added are values, and only
    objects are in relations. -/
inductive CodedOperation (F D T O : Type) where
  | set (value : PFValue F D T O)
  | delete
  | increment (amount : NSNumber F)
  | add (objects : List (PFValue F D T O))
  | addUnique (objects : List (PFValue F D T O))
  | remove (objects : List (PFValue F D T O))
  | relation (operation : RelationOperation O)

end

/-- What the coders ask of Foundation and of the objects in memory. -/
structure Platform (F D T O : Type) where
  floating : Floating F
  description : Option (Json F) → String
  base64String : D → String
  dataFromBase64 : String → D
  base64_round : ∀ d, dataFromBase64 (base64String d) = d
  preciseString : T → String
  dateFromString : String → T
  className : O → String
  objectId : O → Option String
  localId : O → String
  withObjectId : String → String → O
  withLocalId : String → String → O
  listing : Finset O → List O
  listing_nodup : ∀ s, (listing s).Nodup
  mem_listing : ∀ s o, o ∈ listing s ↔ o ∈ s

/-- The encoders of objects that the saves use. -/
inductive ObjectEncoder
  | pointer
  | pointerOrLocalId
  deriving DecidableEq

section Coders

variable {F D T O : Type} [DecidableEq O] (p : Platform F D T O)

/-- `encodeParseObject:error:`. -/
def encodeParseObject (enc : ObjectEncoder) (o : O) : Except CodecFailure (Json F) :=
  match p.objectId o with
  | some objectId =>
      .ok (.dictionary [("__type", .string "Pointer"), ("objectId", .string objectId),
        ("className", .string (p.className o))])
  | none =>
      match enc with
      | .pointer => .error .unsavedChild
      | .pointerOrLocalId =>
          .ok (.dictionary [("__type", .string "Pointer"), ("localId", .string (p.localId o)),
            ("className", .string (p.className o))])

/-- Objects one after another, up to the first that fails. -/
def encodeParseObjects (enc : ObjectEncoder) : List O → Except CodecFailure (List (Json F))
  | [] => .ok []
  | o :: rest =>
      match encodeParseObject p enc o with
      | .error e => .error e
      | .ok json =>
          match encodeParseObjects enc rest with
          | .error e => .error e
          | .ok jsons => .ok (json :: jsons)

/-- `-[PFRelation encodeIntoDictionary:]`. -/
def encodeRelation (r : PFRelation O) : Except CodecFailure (Json F) :=
  match encodeParseObjects p .pointer (p.listing r.knownObjects) with
  | .error e => .error e
  | .ok objects =>
      match r.targetClass with
      | none =>
          .error (.exception (.invalidArgument "attempt to insert nil object from objects[1]"))
      | some targetClass =>
          .ok (.dictionary [("__type", .string "Relation"), ("className", .string targetClass),
            ("objects", .array objects)])

def relationWithoutData : CodecFailure :=
  .exception (.internalInconsistency "A PFRelationOperation was created without any data.")

/-- One half of a relation operation, under the name of its operation. -/
def encodeHalf (enc : ObjectEncoder) (name : String) (objects : Finset O) :
    Except CodecFailure (Option (Json F)) :=
  if (p.listing objects).isEmpty then .ok none
  else
    match encodeParseObjects p enc (p.listing objects) with
    | .error e => .error e
    | .ok array =>
        .ok (some (.dictionary [("__op", .string name), ("objects", .array array)]))

/-- `encodeWithObjectEncoder:error:` of a relation operation. -/
def encodeRelationOperation (enc : ObjectEncoder) (op : RelationOperation O) :
    Except CodecFailure (Json F) :=
  match encodeHalf p enc "AddRelation" op.relationsToAdd with
  | .error e => .error e
  | .ok addDict =>
      match encodeHalf p enc "RemoveRelation" op.relationsToRemove with
      | .error e => .error e
      | .ok removeDict =>
          match addDict, removeDict with
          | some addDict, some removeDict =>
              .ok (.dictionary [("__op", .string "Batch"),
                ("ops", .array [addDict, removeDict])])
          | some addDict, none => .ok addDict
          | none, some removeDict => .ok removeDict
          | none, none => .error relationWithoutData

/-- The operations that carry a list of objects, when the objects are coded. -/
def encodeWithObjects (name : String) :
    Except CodecFailure (List (Json F)) → Except CodecFailure (Json F)
  | .error e => .error e
  | .ok encodedObjects =>
      .ok (.dictionary [("__op", .string name), ("objects", .array encodedObjects)])

mutual

/-- `encodeObject:error:`. -/
def encodeObject (enc : ObjectEncoder) : PFValue F D T O → Except CodecFailure (Json F)
  | .object o => encodeParseObject p enc o
  | .data d =>
      .ok (.dictionary [("__type", .string "Bytes"), ("base64", .string (p.base64String d))])
  | .date t => .ok (.dictionary [("__type", .string "Date"), ("iso", .string (p.preciseString t))])
  | .file f =>
      match f.url with
      | none => .ok (.dictionary [("__type", .string "File")])
      | some url =>
          .ok (.dictionary [("__type", .string "File"), ("url", .string url),
            ("name", .string f.name)])
  | .acl acl => .ok acl.encodeIntoDictionary
  | .geoPoint latitude longitude =>
      .ok (.dictionary [("__type", .string "GeoPoint"), ("latitude", .number (.double latitude)),
        ("longitude", .number (.double longitude))])
  | .polygon coordinates =>
      .ok (.dictionary [("__type", .string "Polygon"), ("coordinates", .array coordinates)])
  | .relation r => encodeRelation p r
  | .array elems =>
      match encodeElems enc elems with
      | .error e => .error e
      | .ok jsons => .ok (.array jsons)
  | .dictionary entries =>
      match encodeEntries enc entries with
      | .error e => .error e
      | .ok jsons => .ok (.dictionary jsons)
  | .null => .ok .null
  | .number n => .ok (.number n)
  | .string s => .ok (.string s)
  -- an operation in a container is coded the same way by every encoder
  | .operation op => encodeOperation .pointerOrLocalId op

/-- `encodeWithObjectEncoder:error:`. -/
def encodeOperation (enc : ObjectEncoder) :
    CodedOperation F D T O → Except CodecFailure (Json F)
  | .set value => encodeObject enc value
  | .delete => .ok (.dictionary [("__op", .string "Delete")])
  | .increment amount =>
      .ok (.dictionary [("__op", .string "Increment"), ("amount", .number amount)])
  | .add objects => encodeWithObjects "Add" (encodeElems enc objects)
  | .addUnique objects => encodeWithObjects "AddUnique" (encodeElems enc objects)
  | .remove objects => encodeWithObjects "Remove" (encodeElems enc objects)
  | .relation op => encodeRelationOperation p enc op

def encodeElems (enc : ObjectEncoder) :
    List (PFValue F D T O) → Except CodecFailure (List (Json F))
  | [] => .ok []
  | v :: rest =>
      match encodeObject enc v with
      | .error e => .error e
      | .ok json =>
          match encodeElems enc rest with
          | .error e => .error e
          | .ok jsons => .ok (json :: jsons)

def encodeEntries (enc : ObjectEncoder) :
    List (String × PFValue F D T O) → Except CodecFailure (List (String × Json F))
  | [] => .ok []
  | (key, v) :: rest =>
      match encodeObject enc v with
      | .error e => .error e
      | .ok json =>
          match encodeEntries enc rest with
          | .error e => .error e
          | .ok jsons => .ok ((key, json) :: jsons)

end

/-! ### Decoding -/

mutual

/-- A dictionary that is left as it is. -/
def ofJson : Json F → PFValue F D T O
  | .null => .null
  | .number n => .number n
  | .string s => .string s
  | .array elems => .array (ofJsonElems elems)
  | .dictionary entries => .dictionary (ofJsonEntries entries)

def ofJsonElems : List (Json F) → List (PFValue F D T O)
  | [] => []
  | json :: rest => ofJson json :: ofJsonElems rest

def ofJsonEntries : List (String × Json F) → List (String × PFValue F D T O)
  | [] => []
  | (key, json) :: rest => (key, ofJson json) :: ofJsonEntries rest

end

/-- `decodeArray:`. -/
def decodeElems (decode : Json F → Except CodecFailure (PFValue F D T O)) :
    List (Json F) → Except CodecFailure (List (PFValue F D T O))
  | [] => .ok []
  | json :: rest =>
      match decode json with
      | .error e => .error e
      | .ok v =>
          match decodeElems decode rest with
          | .error e => .error e
          | .ok values => .ok (v :: values)

def decodeEntries (decode : Json F → Except CodecFailure (PFValue F D T O)) :
    List (String × Json F) → Except CodecFailure (List (String × PFValue F D T O))
  | [] => .ok []
  | (key, json) :: rest =>
      match decode json with
      | .error e => .error e
      | .ok v =>
          match decodeEntries decode rest with
          | .error e => .error e
          | .ok values => .ok ((key, v) :: values)

/-- The objects of a list of values, when all are objects. -/
def asObjects : List (PFValue F D T O) → Option (List O)
  | [] => some []
  | .object o :: rest => (asObjects rest).map (o :: ·)
  | _ :: _ => none

/-- The list under a key, decoded; a missing one is empty. -/
def decodeObjects (decode : Json F → Except CodecFailure (PFValue F D T O))
    (entries : List (String × Json F)) : Except CodecFailure (List (PFValue F D T O)) :=
  match entries.lookup "objects" with
  | some (.array elems) => decodeElems decode elems
  | none => .ok []
  | some _ => .error .leftOut

/-- `-[PFRelation initFromDictionary:withDecoder:]`. -/
def relationFromDictionary (decode : Json F → Except CodecFailure (PFValue F D T O))
    (entries : List (String × Json F)) : Except CodecFailure (PFRelation O) :=
  match decodeObjects decode entries with
  | .error e => .error e
  | .ok values =>
      match asObjects values, entries.lookup "className" with
      | some objects, none => .ok ⟨none, objects.toFinset⟩
      | some objects, some (.string className) => .ok ⟨some className, objects.toFinset⟩
      | _, _ => .error .leftOut

/-- The `Pointer` branch of `decodeDictionary:`. -/
def decodePointer (entries : List (String × Json F)) : Except CodecFailure O :=
  match entries.lookup "className" with
  | none => .error (.exception (.invalidArgument "Class name can't be 'nil'."))
  | some (.string className) =>
      match entries.lookup "localId", entries.lookup "objectId" with
      | some (.string localId), _ => .ok (p.withLocalId className localId)
      | none, some (.string objectId) => .ok (p.withObjectId className objectId)
      | _, _ => .error .leftOut
  | some _ => .error .leftOut

/-- The `File` branch of `decodeDictionary:`; a file without a name is named, and
    none has data that is not uploaded. -/
def decodeFile (entries : List (String × Json F)) : Except CodecFailure PFFile :=
  match entries.lookup "name", entries.lookup "url" with
  | none, none => .ok ⟨"file", none, none, none⟩
  | none, some (.string url) => .ok ⟨"file", some url, none, none⟩
  | some (.string name), none => .ok ⟨name, none, none, none⟩
  | some (.string name), some (.string url) => .ok ⟨name, some url, none, none⟩
  | _, _ => .error .leftOut

def invalidCoordinate (what : String) (json : Option (Json F)) : CodecFailure :=
  .exception (.invalidArgument ("Invalid " ++ what ++ " type passed: " ++ p.description json))

/-- `geoPointWithDictionary:`. -/
def decodeGeoPoint (entries : List (String × Json F)) :
    Except CodecFailure (PFValue F D T O) :=
  match entries.lookup "latitude" with
  | some (.number latitude) =>
      match entries.lookup "longitude" with
      | some (.number longitude) =>
          .ok (.geoPoint (latitude.doubleValue p.floating) (longitude.doubleValue p.floating))
      | json => .error (invalidCoordinate p "longitude" json)
  | json => .error (invalidCoordinate p "latitude" json)

/-- The branches of `decodeDictionary:` for a `__type`. -/
def decodeTyped (decode : Json F → Except CodecFailure (PFValue F D T O)) (type : String)
    (entries : List (String × Json F)) : Except CodecFailure (PFValue F D T O) :=
  if type = "Date" then
    match entries.lookup "iso" with
    | some (.string iso) => .ok (.date (p.dateFromString iso))
    | _ => .error .leftOut
  else if type = "Bytes" then
    match entries.lookup "base64" with
    | some (.string base64) => .ok (.data (p.dataFromBase64 base64))
    | none => .ok (.data (p.dataFromBase64 ""))
    | some _ => .error .leftOut
  else if type = "GeoPoint" then decodeGeoPoint p entries
  else if type = "Polygon" then
    match entries.lookup "coordinates" with
    | some (.array coordinates) => .ok (.polygon coordinates)
    | json => .error (invalidCoordinate p "coordinates" json)
  else if type = "Relation" then
    match relationFromDictionary decode entries with
    | .error e => .error e
    | .ok r => .ok (.relation r)
  else if type = "File" then
    match decodeFile entries with
    | .error e => .error e
    | .ok f => .ok (.file f)
  else if type = "Pointer" then
    match decodePointer p entries with
    | .error e => .error e
    | .ok o => .ok (.object o)
  -- an object with its data
  else if type = "Object" then .error .leftOut
  else .ok (.dictionary (ofJsonEntries entries))

/-! ### Operations -/

def differentClasses : CodecFailure :=
  .exception (.invalidArgument "All objects in a relation must be of the same class.")

/-- The class of the first target, if all are of that class. -/
def targetClassOf (targets : List O) : Except CodecFailure (Option String) :=
  match targets with
  | [] => .ok none
  | first :: _ =>
      if targets.all (fun o => decide (p.className o = p.className first)) then
        .ok (some (p.className first))
      else .error differentClasses

/-- `addRelationToObjects:`. -/
def addRelationToObjects (targets : List O) : Except CodecFailure (RelationOperation O) :=
  match targetClassOf p targets with
  | .error e => .error e
  | .ok targetClass => .ok ⟨targetClass, targets.toFinset, ∅⟩

/-- `removeRelationToObjects:`. -/
def removeRelationToObjects (targets : List O) : Except CodecFailure (RelationOperation O) :=
  match targetClassOf p targets with
  | .error e => .error e
  | .ok targetClass => .ok ⟨targetClass, ∅, targets.toFinset⟩

/-- `mergeWithPrevious:`, as far as the operations of a batch can be relations or
    replace what is before them. -/
def mergeInBatch (self : CodedOperation F D T O) (previous : Option (CodedOperation F D T O)) :
    Except CodecFailure (CodedOperation F D T O) :=
  match self, previous with
  | self, none => .ok self
  | .set value, some _ => .ok (.set value)
  | .delete, some _ => .ok .delete
  | .relation op, some (.relation previous) =>
      if previous.targetClass = none ∨ previous.targetClass = op.targetClass then
        .ok (.relation (op.mergeSets previous))
      else .error (.exception (wrongRelationClass previous.targetClass op.targetClass))
  | .relation _, some .delete => .error (.exception relationDeleted)
  | .relation _, some _ => .error (.exception relationInvalid)
  | _, some _ => .error .leftOut

def unableToDecode (operationName : Option (Json F)) : CodecFailure :=
  .exception (.internalInconsistency
    ("Unable to decode operation of type " ++ p.description operationName ++ "."))

/-- The operations of a batch, each merged with those before it. -/
def decodeBatch (decode : Json F → Except CodecFailure (PFValue F D T O)) :
    List (Json F) → Option (CodedOperation F D T O) →
      Except CodecFailure (Option (CodedOperation F D T O))
  | [], op => .ok op
  | json :: rest, op =>
      match json with
      | .dictionary entries =>
          match entries.lookup "__op" with
          | none => .error (unableToDecode p none)
          | some _ =>
              match decode json with
              | .error e => .error e
              | .ok (.operation nextOp) =>
                  match mergeInBatch nextOp op with
                  | .error e => .error e
                  | .ok merged => decodeBatch decode rest (some merged)
              | .ok _ => .error .leftOut
      | _ => .error unrecognizedSelector

/-- `-[PFFieldOperationDecoder decode:withDecoder:]`. -/
def decodeOperation (allObjects : List (PFValue F D T O) → List (PFValue F D T O))
    (decode : Json F → Except CodecFailure (PFValue F D T O))
    (operationName : Json F) (entries : List (String × Json F)) :
    Except CodecFailure (CodedOperation F D T O) :=
  match operationName with
  | .string name =>
      if name = "Batch" then
        match entries.lookup "ops" with
        | some (.array ops) =>
            match decodeBatch p decode ops none with
            | .error e => .error e
            | .ok (some op) => .ok op
            | .ok none => .error .leftOut
        | _ => .error .leftOut
      else if name = "Delete" then .ok .delete
      else if name = "Increment" then
        match entries.lookup "amount" with
        | some (.number amount) => .ok (.increment amount)
        | _ => .error .leftOut
      else if name = "Add" then
        match decodeObjects decode entries with
        | .error e => .error e
        | .ok objects => .ok (.add objects)
      else if name = "AddUnique" then
        match decodeObjects decode entries with
        | .error e => .error e
        | .ok objects => .ok (.addUnique (allObjects objects))
      else if name = "Remove" then
        match decodeObjects decode entries with
        | .error e => .error e
        | .ok objects => .ok (.remove objects)
      else if name = "AddRelation" then
        match decodeObjects decode entries with
        | .error e => .error e
        | .ok values =>
            match asObjects values with
            | none => .error .leftOut
            | some objects =>
                match addRelationToObjects p objects with
                | .error e => .error e
                | .ok op => .ok (.relation op)
      else if name = "RemoveRelation" then
        match decodeObjects decode entries with
        | .error e => .error e
        | .ok values =>
            match asObjects values with
            | none => .error .leftOut
            | some objects =>
                match removeRelationToObjects p objects with
                | .error e => .error e
                | .ok op => .ok (.relation op)
      else .error (unableToDecode p (some operationName))
  | _ => .error (unableToDecode p (some operationName))

/-- `decodeObject:`, with a step for each level of containers. -/
def decodeObject (allObjects : List (PFValue F D T O) → List (PFValue F D T O)) :
    Nat → Json F → Except CodecFailure (PFValue F D T O)
  | 0, _ => .error .leftOut
  | fuel + 1, json =>
      match json with
      | .dictionary entries =>
          match entries.lookup "__op" with
          | some op =>
              match decodeOperation p allObjects (decodeObject allObjects fuel) op entries with
              | .error e => .error e
              | .ok operation => .ok (.operation operation)
          | none =>
              match entries.lookup "__type" with
              | some (.string type) => decodeTyped p (decodeObject allObjects fuel) type entries
              | some _ => .error unrecognizedSelector
              | none =>
                  match decodeEntries (decodeObject allObjects fuel) entries with
                  | .error e => .error e
                  | .ok values => .ok (.dictionary values)
      | .array elems =>
          match decodeElems (decodeObject allObjects fuel) elems with
          | .error e => .error e
          | .ok values => .ok (.array values)
      | .null => .ok .null
      | .number n => .ok (.number n)
      | .string s => .ok (.string s)

end Coders

end Codec

end ParseSDK

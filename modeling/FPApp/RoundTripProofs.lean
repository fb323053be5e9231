import FPApp.CodecProofs
import Mathlib.Data.Finset.Image

/-! # Which values are read back as they were

    * `Bare`, `Faithful` — the values without operations, and what of them is read
      back;
    * `decode_dictionary` — a dictionary is read back by its `__op` and `__type`;
    * `decode_encode` — the code of a bare value is decoded to the value exactly
      when it is faithful, by the structure of the value;
    * `encode_faithful` — faithful values can be coded;
    * `value_round_trip_iff` — both together. -/

namespace ParseSDK

namespace Codec

mutual

/-- How many containers lie in one another. -/
def Json.depth {F : Type} : Json F → Nat
  | .null => 0
  | .number _ => 0
  | .string _ => 0
  | .array elems => Json.depthElems elems + 1
  | .dictionary entries => Json.depthEntries entries + 1

def Json.depthElems {F : Type} : List (Json F) → Nat
  | [] => 0
  | json :: rest => max (Json.depth json) (Json.depthElems rest)

def Json.depthEntries {F : Type} : List (String × Json F) → Nat
  | [] => 0
  | (_, json) :: rest => max (Json.depth json) (Json.depthEntries rest)

end

/-- The types that `decodeDictionary:` knows. -/
def typeNames : List String :=
  ["Date", "Bytes", "GeoPoint", "Polygon", "Relation", "File", "Pointer", "Object"]

section RoundTrip

variable {F D T O : Type}

mutual

/-- A value that needs no `__type`. -/
def Plain : PFValue F D T O → Prop
  | .null => True
  | .number _ => True
  | .string _ => True
  | .array elems => PlainElems elems
  | .dictionary entries => PlainEntries entries
  | .data _ => False
  | .date _ => False
  | .file _ => False
  | .acl _ => False
  | .geoPoint _ _ => False
  | .polygon _ => False
  | .relation _ => False
  | .object _ => False
  | .operation _ => False

def PlainElems : List (PFValue F D T O) → Prop
  | [] => True
  | v :: rest => Plain v ∧ PlainElems rest

def PlainEntries : List (String × PFValue F D T O) → Prop
  | [] => True
  | (_, v) :: rest => Plain v ∧ PlainEntries rest

end

mutual

/-- A value that holds no field operation. -/
def Bare : PFValue F D T O → Prop
  | .null => True
  | .number _ => True
  | .string _ => True
  | .data _ => True
  | .date _ => True
  | .file _ => True
  | .acl _ => True
  | .geoPoint _ _ => True
  | .polygon _ => True
  | .relation _ => True
  | .object _ => True
  | .array elems => BareElems elems
  | .dictionary entries => BareEntries entries
  | .operation _ => False

def BareElems : List (PFValue F D T O) → Prop
  | [] => True
  | v :: rest => Bare v ∧ BareElems rest

def BareEntries : List (String × PFValue F D T O) → Prop
  | [] => True
  | (_, v) :: rest => Bare v ∧ BareEntries rest

end

/-- A bare value is no operation itself. -/
theorem Bare.ne_operation {v : PFValue F D T O} (h : Bare v) (op : CodedOperation F D T O) :
    v ≠ .operation op := by
  rintro rfl
  rwa [Bare] at h

/-- What stands under a key of a bare dictionary is bare. -/
theorem BareEntries.lookup {key : String} {v : PFValue F D T O} :
    ∀ {entries : List (String × PFValue F D T O)}, BareEntries entries →
    entries.lookup key = some v → Bare v := by
  intro entries
  induction entries with
  | nil => exact fun _ h => nomatch h
  | cons entry rest ih =>
      intro hbare hlookup
      obtain ⟨k, v'⟩ := entry
      rw [BareEntries] at hbare
      rw [List.lookup_cons] at hlookup
      cases hk : key == k with
      | true =>
          rw [hk] at hlookup
          exact Option.some.inj hlookup ▸ hbare.1
      | false =>
          rw [hk] at hlookup
          exact ih hbare.2 hlookup

variable {p : Platform F D T O} {enc : ObjectEncoder}

/-! ### What encoding leaves -/

/-- The first value of a coded list and the rest are coded. -/
theorem encodeElems_cons {v : PFValue F D T O} {rest : List (PFValue F D T O)}
    {jsons : List (Json F)} (h : encodeElems p enc (v :: rest) = .ok jsons) :
    ∃ json jsons', encodeObject p enc v = .ok json ∧ encodeElems p enc rest = .ok jsons'
      ∧ jsons = json :: jsons' := by
  rw [encodeElems] at h
  cases hv : encodeObject p enc v with
  | error e => simp [hv] at h
  | ok json =>
      cases hrest : encodeElems p enc rest with
      | error e => simp [hv, hrest] at h
      | ok jsons' =>
          simp only [hv, hrest, Except.ok.injEq] at h
          exact ⟨json, jsons', rfl, rfl, h.symm⟩

/-- The first entry of a coded dictionary and the rest are coded. -/
theorem encodeEntries_cons {key : String} {v : PFValue F D T O}
    {rest : List (String × PFValue F D T O)} {jsons : List (String × Json F)}
    (h : encodeEntries p enc ((key, v) :: rest) = .ok jsons) :
    ∃ json jsons', encodeObject p enc v = .ok json ∧ encodeEntries p enc rest = .ok jsons'
      ∧ jsons = (key, json) :: jsons' := by
  rw [encodeEntries] at h
  cases hv : encodeObject p enc v with
  | error e => simp [hv] at h
  | ok json =>
      cases hrest : encodeEntries p enc rest with
      | error e => simp [hv, hrest] at h
      | ok jsons' =>
          simp only [hv, hrest, Except.ok.injEq] at h
          exact ⟨json, jsons', rfl, rfl, h.symm⟩

/-- An array is coded as the array of its coded values. -/
theorem encode_array {elems : List (PFValue F D T O)} {json : Json F}
    (h : encodeObject p enc (.array elems) = .ok json) :
    ∃ jsons, encodeElems p enc elems = .ok jsons ∧ json = .array jsons := by
  rw [encodeObject] at h
  cases helems : encodeElems p enc elems with
  | error e => simp [helems] at h
  | ok jsons =>
      simp only [helems, Except.ok.injEq] at h
      exact ⟨jsons, rfl, h.symm⟩

/-- A dictionary is coded as one with the same keys. -/
theorem encode_dictionary {entries : List (String × PFValue F D T O)} {json : Json F}
    (h : encodeObject p enc (.dictionary entries) = .ok json) :
    ∃ jsons, encodeEntries p enc entries = .ok jsons ∧ json = .dictionary jsons := by
  rw [encodeObject] at h
  cases hentries : encodeEntries p enc entries with
  | error e => simp [hentries] at h
  | ok jsons =>
      simp only [hentries, Except.ok.injEq] at h
      exact ⟨jsons, rfl, h.symm⟩

/-- A coded object, relation or other value that is no plain one is a dictionary. -/
theorem encode_typed {v : PFValue F D T O} {json : Json F} (h : encodeObject p enc v = .ok json)
    (hplain : ∀ e, v ≠ .array e) (hnull : v ≠ .null) (hnumber : ∀ n, v ≠ .number n)
    (hstring : ∀ s, v ≠ .string s) (hop : ∀ op, v ≠ .operation op) :
    ∃ entries, json = .dictionary entries := by
  cases v with
  | null => exact absurd rfl hnull
  | number n => exact absurd rfl (hnumber n)
  | string s => exact absurd rfl (hstring s)
  | array e => exact absurd rfl (hplain e)
  | dictionary entries =>
      obtain ⟨jsons, _, hjson⟩ := encode_dictionary h
      exact ⟨jsons, hjson⟩
  | object o =>
      rw [encodeObject] at h
      unfold encodeParseObject at h
      cases hid : p.objectId o with
      | some i =>
          simp only [hid, Except.ok.injEq] at h
          exact ⟨_, h.symm⟩
      | none =>
          cases enc with
          | pointer => simp [hid] at h
          | pointerOrLocalId =>
              simp only [hid, Except.ok.injEq] at h
              exact ⟨_, h.symm⟩
  | relation r =>
      rw [encodeObject] at h
      unfold encodeRelation at h
      split at h
      · cases h
      · split at h
        · cases h
        · exact ⟨_, (Except.ok.inj h).symm⟩
  | file f =>
      rw [encodeObject] at h
      split at h <;> exact ⟨_, (Except.ok.inj h).symm⟩
  | operation op => exact absurd rfl (hop op)
  | acl a =>
      rw [encodeObject] at h
      exact ⟨_, (Except.ok.inj h).symm⟩
  | data d =>
      rw [encodeObject] at h
      exact ⟨_, (Except.ok.inj h).symm⟩
  | date t =>
      rw [encodeObject] at h
      exact ⟨_, (Except.ok.inj h).symm⟩
  | geoPoint a b =>
      rw [encodeObject] at h
      exact ⟨_, (Except.ok.inj h).symm⟩
  | polygon c =>
      rw [encodeObject] at h
      exact ⟨_, (Except.ok.inj h).symm⟩

mutual

/-- What is left as it is comes back exactly when it is plain. -/
theorem ofJson_encode : ∀ (v : PFValue F D T O) {json : Json F},
    encodeObject p enc v = .ok json → (ofJson json = v ↔ Plain v)
  | .null, json, h => by
      rw [encodeObject] at h; cases h; simp [ofJson, Plain]
  | .number n, json, h => by
      rw [encodeObject] at h; cases h; simp [ofJson, Plain]
  | .string s, json, h => by
      rw [encodeObject] at h; cases h; simp [ofJson, Plain]
  | .array elems, json, h => by
      obtain ⟨jsons, helems, rfl⟩ := encode_array h
      rw [ofJson, Plain, PFValue.array.injEq]
      exact ofJson_encodeElems elems helems
  | .dictionary entries, json, h => by
      obtain ⟨jsons, hentries, rfl⟩ := encode_dictionary h
      rw [ofJson, Plain, PFValue.dictionary.injEq]
      exact ofJson_encodeEntries entries hentries
  | .data d, json, h => by
      obtain ⟨entries, rfl⟩ := encode_typed h (by simp) (by simp) (by simp) (by simp) (by simp)
      simp [ofJson, Plain]
  | .date d, json, h => by
      obtain ⟨entries, rfl⟩ := encode_typed h (by simp) (by simp) (by simp) (by simp) (by simp)
      simp [ofJson, Plain]
  | .file f, json, h => by
      obtain ⟨entries, rfl⟩ := encode_typed h (by simp) (by simp) (by simp) (by simp) (by simp)
      simp [ofJson, Plain]
  | .acl a, json, h => by
      obtain ⟨entries, rfl⟩ := encode_typed h (by simp) (by simp) (by simp) (by simp) (by simp)
      simp [ofJson, Plain]
  | .geoPoint a b, json, h => by
      obtain ⟨entries, rfl⟩ := encode_typed h (by simp) (by simp) (by simp) (by simp) (by simp)
      simp [ofJson, Plain]
  | .polygon c, json, h => by
      obtain ⟨entries, rfl⟩ := encode_typed h (by simp) (by simp) (by simp) (by simp) (by simp)
      simp [ofJson, Plain]
  | .relation r, json, h => by
      obtain ⟨entries, rfl⟩ := encode_typed h (by simp) (by simp) (by simp) (by simp) (by simp)
      simp [ofJson, Plain]
  | .object o, json, h => by
      obtain ⟨entries, rfl⟩ := encode_typed h (by simp) (by simp) (by simp) (by simp) (by simp)
      simp [ofJson, Plain]
  | .operation op, json, _ => by
      cases json <;> simp [ofJson, Plain]

/-- The same of a list, value by value. -/
theorem ofJson_encodeElems : ∀ (elems : List (PFValue F D T O)) {jsons : List (Json F)},
    encodeElems p enc elems = .ok jsons → (ofJsonElems jsons = elems ↔ PlainElems elems)
  | [], jsons, h => by
      rw [encodeElems] at h; cases h; simp [ofJsonElems, PlainElems]
  | v :: rest, jsons, h => by
      obtain ⟨json, jsons', hv, hrest, rfl⟩ := encodeElems_cons h
      rw [ofJsonElems, PlainElems, List.cons.injEq, ofJson_encode v hv,
        ofJson_encodeElems rest hrest]

/-- The same of the entries of a dictionary. -/
theorem ofJson_encodeEntries : ∀ (entries : List (String × PFValue F D T O))
    {jsons : List (String × Json F)},
    encodeEntries p enc entries = .ok jsons → (ofJsonEntries jsons = entries ↔ PlainEntries entries)
  | [], jsons, h => by
      rw [encodeEntries] at h; cases h; simp [ofJsonEntries, PlainEntries]
  | (key, v) :: rest, jsons, h => by
      obtain ⟨json, jsons', hv, hrest, rfl⟩ := encodeEntries_cons h
      rw [ofJsonEntries, PlainEntries, List.cons.injEq, Prod.mk.injEq, ofJson_encode v hv,
        ofJson_encodeEntries rest hrest]
      simp

end

/-- A key is looked up in a coded dictionary as in the dictionary. -/
theorem lookup_encode (key : String) : ∀ (entries : List (String × PFValue F D T O))
    {jsons : List (String × Json F)}, encodeEntries p enc entries = .ok jsons →
    (entries.lookup key = none ∧ jsons.lookup key = none)
      ∨ ∃ v json, entries.lookup key = some v ∧ jsons.lookup key = some json
        ∧ encodeObject p enc v = .ok json := by
  intro entries
  induction entries with
  | nil =>
      intro jsons h
      rw [encodeEntries] at h
      cases h
      exact Or.inl ⟨rfl, rfl⟩
  | cons entry rest ih =>
      intro jsons h
      obtain ⟨k, v⟩ := entry
      obtain ⟨json, jsons', hv, hrest, rfl⟩ := encodeEntries_cons h
      rw [List.lookup_cons, List.lookup_cons]
      cases hk : key == k with
      | true => exact Or.inr ⟨v, json, rfl, rfl, hv⟩
      | false => exact ih hrest

/-- Only a string is coded as a string, but for an operation that sets one. -/
theorem encode_string {v : PFValue F D T O} {s : String} (hbare : Bare v)
    (h : encodeObject p enc v = .ok (.string s)) : v = .string s := by
  by_contra hne
  by_cases htyped : (∀ e, v ≠ .array e) ∧ v ≠ .null ∧ (∀ n, v ≠ .number n) ∧ ∀ s, v ≠ .string s
  · obtain ⟨entries, hjson⟩ := encode_typed h htyped.1 htyped.2.1 htyped.2.2.1 htyped.2.2.2
      hbare.ne_operation
    cases hjson
  · cases v with
    | array e =>
        obtain ⟨jsons, _, hjson⟩ := encode_array h
        cases hjson
    | null => rw [encodeObject] at h; cases h
    | number n => rw [encodeObject] at h; cases h
    | string s' =>
        rw [encodeObject] at h
        cases h
        exact hne rfl
    | _ => exact htyped ⟨by simp, by simp, by simp, by simp⟩

/-! ### What can be coded -/

mutual

/-- A plain value can be coded. -/
theorem encode_plain : ∀ v : PFValue F D T O, Plain v → ∃ json, encodeObject p enc v = .ok json
  | .null, _ => ⟨.null, rfl⟩
  | .number n, _ => ⟨.number n, rfl⟩
  | .string s, _ => ⟨.string s, rfl⟩
  | .array elems, h => by
      obtain ⟨jsons, helems⟩ := encode_plainElems elems (by rwa [Plain] at h)
      exact ⟨.array jsons, by rw [encodeObject, helems]⟩
  | .dictionary entries, h => by
      obtain ⟨jsons, hentries⟩ := encode_plainEntries entries (by rwa [Plain] at h)
      exact ⟨.dictionary jsons, by rw [encodeObject, hentries]⟩
  | .data _, h => by rw [Plain] at h; exact h.elim
  | .date _, h => by rw [Plain] at h; exact h.elim
  | .file _, h => by rw [Plain] at h; exact h.elim
  | .acl _, h => by rw [Plain] at h; exact h.elim
  | .geoPoint _ _, h => by rw [Plain] at h; exact h.elim
  | .polygon _, h => by rw [Plain] at h; exact h.elim
  | .relation _, h => by rw [Plain] at h; exact h.elim
  | .object _, h => by rw [Plain] at h; exact h.elim
  | .operation _, h => by rw [Plain] at h; exact h.elim

theorem encode_plainElems : ∀ elems : List (PFValue F D T O), PlainElems elems →
    ∃ jsons, encodeElems p enc elems = .ok jsons
  | [], _ => ⟨[], rfl⟩
  | v :: rest, h => by
      rw [PlainElems] at h
      obtain ⟨json, hv⟩ := encode_plain v h.1
      obtain ⟨jsons, hrest⟩ := encode_plainElems rest h.2
      exact ⟨json :: jsons, by simp only [encodeElems, hv, hrest]⟩

theorem encode_plainEntries : ∀ entries : List (String × PFValue F D T O), PlainEntries entries →
    ∃ jsons, encodeEntries p enc entries = .ok jsons
  | [], _ => ⟨[], rfl⟩
  | (key, v) :: rest, h => by
      rw [PlainEntries] at h
      obtain ⟨json, hv⟩ := encode_plain v h.1
      obtain ⟨jsons, hrest⟩ := encode_plainEntries rest h.2
      exact ⟨(key, json) :: jsons, by simp only [encodeEntries, hv, hrest]⟩

end

/-- The object that a coded object is decoded to. -/
def comesBack (p : Platform F D T O) (enc : ObjectEncoder) (o : O) : Option O :=
  match p.objectId o with
  | some objectId => some (p.withObjectId (p.className o) objectId)
  | none =>
      match enc with
      | .pointer => none
      | .pointerOrLocalId => some (p.withLocalId (p.className o) (p.localId o))

/-- An object cannot be coded when nothing can come back for it. -/
theorem encode_parseObject {o : O} (h : comesBack p enc o ≠ none) :
    ∃ json : Json F, encodeParseObject p enc o = .ok json := by
  unfold comesBack at h
  unfold encodeParseObject
  cases hid : p.objectId o with
  | some i => exact ⟨_, rfl⟩
  | none =>
      cases enc with
      | pointer => simp [hid] at h
      | pointerOrLocalId => exact ⟨_, rfl⟩

/-- Objects can be coded when something comes back for each. -/
theorem encode_parseObjects {os : List O} (h : ∀ o ∈ os, comesBack p enc o ≠ none) :
    ∃ jsons : List (Json F), encodeParseObjects p enc os = .ok jsons := by
  induction os with
  | nil => exact ⟨[], rfl⟩
  | cons o rest ih =>
      obtain ⟨json, ho⟩ := encode_parseObject (F := F) (h o List.mem_cons_self)
      obtain ⟨jsons, hrest⟩ := ih fun x hx => h x (List.mem_cons_of_mem _ hx)
      exact ⟨json :: jsons, by simp only [encodeParseObjects, ho, hrest]⟩

/-! ### Lists that are read back -/

/-- Values that are all objects are the list of them. -/
theorem asObjects_map (os : List O) :
    asObjects (os.map fun o => (PFValue.object o : PFValue F D T O)) = some os := by
  induction os with
  | nil => rfl
  | cons o rest ih => rw [List.map_cons, asObjects, ih, Option.map_some]

/-- A list is read back when its first value is and the rest is. -/
theorem decodeElems_cons {decode : Json F → Except CodecFailure (PFValue F D T O)}
    {json : Json F} {jsons : List (Json F)} {v : PFValue F D T O} {rest : List (PFValue F D T O)} :
    decodeElems decode (json :: jsons) = .ok (v :: rest)
      ↔ decode json = .ok v ∧ decodeElems decode jsons = .ok rest := by
  rw [decodeElems]
  cases decode json with
  | error e => simp
  | ok v' =>
      cases decodeElems decode jsons with
      | error e => simp
      | ok values => simp

/-- Entries are read back when the first is and the rest are. -/
theorem decodeEntries_cons {decode : Json F → Except CodecFailure (PFValue F D T O)}
    {key : String} {json : Json F} {jsons : List (String × Json F)} {v : PFValue F D T O}
    {rest : List (String × PFValue F D T O)} :
    decodeEntries decode ((key, json) :: jsons) = .ok ((key, v) :: rest)
      ↔ decode json = .ok v ∧ decodeEntries decode jsons = .ok rest := by
  rw [decodeEntries]
  cases decode json with
  | error e => simp
  | ok v' =>
      cases decodeEntries decode jsons with
      | error e => simp
      | ok values => simp

/-! ### The values that come back -/

variable [DecidableEq O]

variable (p) in
mutual

/-- The values that are read back as they were. -/
def Faithful (enc : ObjectEncoder) : PFValue F D T O → Prop
  | .null => True
  | .number _ => True
  | .string _ => True
  | .data _ => True
  | .date t => p.dateFromString (p.preciseString t) = t
  | .file f =>
      f.mimeType = none ∧ f.stagedFilePath = none ∧ (f.url ≠ none ∨ f.name = "file")
  | .acl _ => False
  | .geoPoint _ _ => True
  | .polygon _ => True
  | .relation r =>
      r.targetClass ≠ none ∧ (∀ o ∈ r.knownObjects, comesBack p .pointer o ≠ none)
        ∧ r.knownObjects.image (fun o => (comesBack p .pointer o).getD o) = r.knownObjects
  | .object o => comesBack p enc o = some o
  | .array elems => FaithfulElems enc elems
  | .dictionary entries =>
      entries.lookup "__op" = none ∧
      match entries.lookup "__type" with
      | none => FaithfulEntries enc entries
      | some (.string type) => type ∉ typeNames ∧ PlainEntries entries
      | some _ => False
  | .operation _ => False

def FaithfulElems (enc : ObjectEncoder) : List (PFValue F D T O) → Prop
  | [] => True
  | v :: rest => Faithful enc v ∧ FaithfulElems enc rest

def FaithfulEntries (enc : ObjectEncoder) : List (String × PFValue F D T O) → Prop
  | [] => True
  | (_, v) :: rest => Faithful enc v ∧ FaithfulEntries enc rest

end

/-! ### What decoding makes of it -/

variable {allObjects : List (PFValue F D T O) → List (PFValue F D T O)}

/-- What the branches for a `__type` yield. -/
theorem decodeTyped_kind {decode : Json F → Except CodecFailure (PFValue F D T O)}
    {type : String} {entries : List (String × Json F)} {v : PFValue F D T O}
    (h : decodeTyped p decode type entries = .ok v) :
    (∀ a, v ≠ .acl a) ∧ (type ∈ typeNames → ∀ e, v ≠ .dictionary e) := by
  unfold decodeTyped decodeGeoPoint at h
  repeat' split at h
  all_goals cases h
  all_goals simp_all [typeNames]

/-- A dictionary with a `__type` that is not known is left as it is. -/
theorem decodeTyped_unknown {decode : Json F → Except CodecFailure (PFValue F D T O)}
    {type : String} {entries : List (String × Json F)} (h : type ∉ typeNames) :
    decodeTyped p decode type entries = .ok (.dictionary (ofJsonEntries entries)) := by
  simp only [typeNames, List.mem_cons, List.not_mem_nil, or_false, not_or] at h
  obtain ⟨h₁, h₂, h₃, h₄, h₅, h₆, h₇, h₈⟩ := h
  rw [decodeTyped, if_neg h₁, if_neg h₂, if_neg h₃, if_neg h₄, if_neg h₅, if_neg h₆, if_neg h₇,
    if_neg h₈]

/-- A coded object is decoded to the object that comes back for it. -/
theorem decode_parseObject (allObjects : List (PFValue F D T O) → List (PFValue F D T O))
    {o : O} {json : Json F} (h : encodeParseObject p enc o = .ok json)
    (fuel : Nat) : ∃ o', comesBack p enc o = some o'
      ∧ decodeObject p allObjects (fuel + 1) json = .ok (.object o') := by
  unfold encodeParseObject at h
  unfold comesBack
  cases hid : p.objectId o with
  | some i =>
      simp only [hid, Except.ok.injEq] at h
      subst h
      refine ⟨_, rfl, ?_⟩
      simp [decodeObject, decodeTyped, decodePointer, List.lookup_cons]
  | none =>
      cases enc with
      | pointer => simp [hid] at h
      | pointerOrLocalId =>
          simp only [hid, Except.ok.injEq] at h
          subst h
          refine ⟨_, rfl, ?_⟩
          simp [decodeObject, decodeTyped, decodePointer, List.lookup_cons]

/-- Coded objects are decoded to those that come back, when something comes back for
    each. -/
theorem decode_parseObjects (allObjects : List (PFValue F D T O) → List (PFValue F D T O))
    (fuel : Nat) : ∀ {os : List O} {jsons : List (Json F)},
    encodeParseObjects p enc os = .ok jsons →
    (∀ o ∈ os, comesBack p enc o ≠ none)
      ∧ decodeElems (decodeObject p allObjects (fuel + 1)) jsons
        = .ok (os.map fun o => .object ((comesBack p enc o).getD o)) := by
  intro os
  induction os with
  | nil =>
      intro jsons h
      cases h
      exact ⟨by simp, rfl⟩
  | cons o rest ih =>
      intro jsons h
      unfold encodeParseObjects at h
      cases ho : encodeParseObject p enc o with
      | error e => simp [ho] at h
      | ok json =>
          cases hrest : encodeParseObjects p enc rest with
          | error e => simp [ho, hrest] at h
          | ok jsons' =>
              simp only [ho, hrest, Except.ok.injEq] at h
              subst h
              obtain ⟨o', hback, hdecode⟩ := decode_parseObject allObjects ho fuel
              obtain ⟨hall, hdecodes⟩ := ih hrest
              refine ⟨?_, ?_⟩
              · intro x hx
                rcases List.mem_cons.mp hx with rfl | hx
                · simp [hback]
                · exact hall x hx
              · rw [decodeElems, hdecode]
                simp only [hdecodes, List.map_cons, hback, Option.getD_some]

/-- The set of the objects that come back for a set. -/
theorem toFinset_listing (s : Finset O) (f : O → O) :
    ((p.listing s).map f).toFinset = s.image f := by
  ext o
  simp [p.mem_listing]

/-- A coded relation is decoded to the relation of the objects that come back. -/
theorem decode_relation (allObjects : List (PFValue F D T O) → List (PFValue F D T O))
    {r : PFRelation O} {json : Json F} (h : encodeRelation p r = .ok json)
    (fuel : Nat) :
    (∃ c, r.targetClass = some c) ∧ (∀ o ∈ r.knownObjects, comesBack p .pointer o ≠ none)
      ∧ decodeObject p allObjects (fuel + 2) json
        = .ok (.relation ⟨r.targetClass,
            r.knownObjects.image fun o => (comesBack p .pointer o).getD o⟩) := by
  unfold encodeRelation at h
  cases hobjects : encodeParseObjects p .pointer (p.listing r.knownObjects) with
  | error e => simp [hobjects] at h
  | ok objects =>
      cases hclass : r.targetClass with
      | none => simp [hobjects, hclass] at h
      | some targetClass =>
          simp only [hobjects, hclass, Except.ok.injEq] at h
          subst h
          obtain ⟨hall, hdecodes⟩ := decode_parseObjects allObjects fuel hobjects
          refine ⟨⟨_, rfl⟩, fun o ho => hall o ((p.mem_listing _ _).mpr ho), ?_⟩
          have hvalues : (p.listing r.knownObjects).map
              (fun o => (PFValue.object ((comesBack p .pointer o).getD o) : PFValue F D T O))
              = ((p.listing r.knownObjects).map fun o => (comesBack p .pointer o).getD o).map
                PFValue.object := by
            rw [List.map_map]
            rfl
          rw [hvalues] at hdecodes
          have hread : relationFromDictionary (decodeObject p allObjects (fuel + 1))
              [("__type", .string "Relation"), ("className", .string targetClass),
                ("objects", .array objects)]
              = .ok ⟨some targetClass,
                  r.knownObjects.image fun o => (comesBack p .pointer o).getD o⟩ := by
            simp only [relationFromDictionary, decodeObjects, List.lookup_cons, String.reduceBEq,
              hdecodes, asObjects_map, toFinset_listing]
          rw [decodeObject]
          simp [List.lookup_cons, decodeTyped, hread]

/-- No dictionary is decoded to an access control list. -/
theorem decode_ne_acl {fuel : Nat} {entries : List (String × Json F)} {acl : PFACL} :
    decodeObject p allObjects fuel (.dictionary entries) ≠ .ok (.acl acl) := by
  intro h
  cases fuel with
  | zero => cases h
  | succ fuel =>
      rw [decodeObject] at h
      split at h
      · split at h <;> cases h
      · split at h
        · exact (decodeTyped_kind h).1 acl rfl
        · cases h
        · split at h <;> cases h

/-- A coded dictionary is read back by its two keys: with an `__op` it is an
    operation, with a `__type` that is known something else, with another one it is
    left as it is, and without either its entries are read back. -/
theorem decode_dictionary {entries : List (String × PFValue F D T O)}
    {jsons : List (String × Json F)} {fuel : Nat} (hbare : BareEntries entries)
    (hentries : encodeEntries p enc entries = .ok jsons)
    (hiff : decodeEntries (decodeObject p allObjects fuel) jsons = .ok entries
      ↔ FaithfulEntries p enc entries) :
    decodeObject p allObjects (fuel + 1) (.dictionary jsons) = .ok (.dictionary entries)
      ↔ Faithful p enc (.dictionary entries) := by
  rw [decodeObject, Faithful]
  rcases lookup_encode "__op" entries hentries with ⟨hop, hop'⟩ | ⟨v, json, hop, hop', _⟩
  · rw [hop', hop]
    dsimp only
    rcases lookup_encode "__type" entries hentries with ⟨ht, ht'⟩ | ⟨v, json, ht, ht', hv⟩
    · rw [ht', ht, ← hiff]
      dsimp only
      split <;> rename_i heq <;> simp [heq]
    · rw [ht', ht]
      cases json with
      | string type =>
          obtain rfl := encode_string (hbare.lookup ht) hv
          dsimp only
          by_cases hknown : type ∈ typeNames
          · refine iff_of_false (fun heq => ?_) (fun h => h.2.1 hknown)
            exact (decodeTyped_kind heq).2 hknown entries rfl
          · rw [decodeTyped_unknown hknown]
            have hplain := ofJson_encodeEntries entries hentries
            simp [hknown, ← hplain]
      | _ =>
          -- a `__type` that is no string raises
          have hstring : ∀ s, v ≠ .string s := by
            rintro s rfl
            rw [encodeObject] at hv
            cases hv
          refine iff_of_false (by simp) (fun h => ?_)
          cases v with
          | string s => exact hstring s rfl
          | _ => exact h.2
  · rw [hop', hop]
    simp only [reduceCtorEq, false_and, iff_false]
    split <;> simp

mutual

/-- **READING BACK**: the code of a value without operations is decoded to that
    value exactly when the value is faithful. -/
theorem decode_encode : ∀ (v : PFValue F D T O) {json : Json F} {fuel : Nat}, Bare v →
    encodeObject p enc v = .ok json → json.depth < fuel →
    (decodeObject p allObjects fuel json = .ok v ↔ Faithful p enc v)
  | _, _, 0, _, _, hfuel => absurd hfuel (Nat.not_lt_zero _)
  | .null, json, fuel + 1, _, h, _ => by
      rw [encodeObject] at h; cases h; simp [decodeObject, Faithful]
  | .number n, json, fuel + 1, _, h, _ => by
      rw [encodeObject] at h; cases h; simp [decodeObject, Faithful]
  | .string s, json, fuel + 1, _, h, _ => by
      rw [encodeObject] at h; cases h; simp [decodeObject, Faithful]
  | .data d, json, fuel + 1, _, h, _ => by
      rw [encodeObject] at h; cases h
      simp [decodeObject, Faithful, List.lookup_cons, decodeTyped, p.base64_round]
  | .date t, json, fuel + 1, _, h, _ => by
      rw [encodeObject] at h; cases h
      simp [decodeObject, Faithful, List.lookup_cons, decodeTyped]
  | .file ⟨name, url, mimeType, stagedFilePath⟩, json, fuel + 1, _, h, _ => by
      rw [encodeObject] at h
      cases url with
      | none =>
          cases h
          simp [decodeObject, Faithful, List.lookup_cons, decodeTyped, decodeFile, eq_comm]
          exact ⟨fun ⟨hn, hm, hs⟩ => ⟨hm, hs, hn⟩, fun ⟨hm, hs, hn⟩ => ⟨hn, hm, hs⟩⟩
      | some url =>
          cases h
          simp [decodeObject, Faithful, List.lookup_cons, decodeTyped, decodeFile, eq_comm]
  | .acl acl, json, fuel + 1, _, h, _ => by
      rw [encodeObject] at h; cases h
      rw [Faithful]
      exact iff_of_false decode_ne_acl not_false
  | .geoPoint latitude longitude, json, fuel + 1, _, h, _ => by
      rw [encodeObject] at h; cases h
      simp [decodeObject, Faithful, List.lookup_cons, decodeTyped, decodeGeoPoint,
        NSNumber.doubleValue]
  | .polygon coordinates, json, fuel + 1, _, h, _ => by
      rw [encodeObject] at h; cases h
      simp [decodeObject, Faithful, List.lookup_cons, decodeTyped]
  | .relation r, json, fuel + 1, _, h, hfuel => by
      rw [encodeObject] at h
      have hdepth : 1 ≤ fuel := by
        unfold encodeRelation at h
        split at h
        · cases h
        · split at h
          · cases h
          · cases h
            simp only [Json.depth, Json.depthEntries] at hfuel
            omega
      obtain ⟨fuel, rfl⟩ := Nat.exists_eq_succ_of_ne_zero (Nat.one_le_iff_ne_zero.mp hdepth)
      obtain ⟨⟨c, hclass⟩, hback, hdecode⟩ := decode_relation allObjects h fuel
      rw [hdecode, Faithful]
      obtain ⟨targetClass, knownObjects⟩ := r
      simp_all
  | .object o, json, fuel + 1, _, h, _ => by
      rw [encodeObject] at h
      obtain ⟨o', hback, hdecode⟩ := decode_parseObject allObjects h fuel
      rw [hdecode, Faithful, hback]
      simp
  | .array elems, json, fuel + 1, hbare, h, hfuel => by
      obtain ⟨jsons, helems, rfl⟩ := encode_array h
      rw [Json.depth] at hfuel
      rw [Bare] at hbare
      have hiff : decodeElems (decodeObject p allObjects fuel) jsons = .ok elems
          ↔ FaithfulElems p enc elems := decode_encodeElems elems hbare helems (by omega)
      rw [decodeObject, Faithful, ← hiff]
      split <;> rename_i heq <;> simp [heq]
  | .dictionary entries, json, fuel + 1, hbare, h, hfuel => by
      obtain ⟨jsons, hentries, rfl⟩ := encode_dictionary h
      rw [Json.depth] at hfuel
      rw [Bare] at hbare
      exact decode_dictionary hbare hentries
        (decode_encodeEntries entries hbare hentries (by omega))
  | .operation op, _, _ + 1, hbare, _, _ => absurd rfl (hbare.ne_operation op)

/-- The same of a list: each of its values is read back on its own. -/
theorem decode_encodeElems : ∀ (elems : List (PFValue F D T O)) {jsons : List (Json F)}
    {fuel : Nat}, BareElems elems →
    encodeElems p enc elems = .ok jsons → Json.depthElems jsons < fuel →
    (decodeElems (decodeObject p allObjects fuel) jsons = .ok elems ↔ FaithfulElems p enc elems)
  | [], jsons, fuel, _, h, _ => by
      rw [encodeElems] at h; cases h; simp [decodeElems, FaithfulElems]
  | v :: rest, jsons, fuel, hbare, h, hfuel => by
      obtain ⟨json, jsons', hv, hrest, rfl⟩ := encodeElems_cons h
      rw [Json.depthElems] at hfuel
      rw [BareElems] at hbare
      rw [decodeElems_cons, FaithfulElems, decode_encode v hbare.1 hv (by omega),
        decode_encodeElems rest hbare.2 hrest (by omega)]

/-- The same of the entries of a dictionary that is decoded entry by entry. -/
theorem decode_encodeEntries : ∀ (entries : List (String × PFValue F D T O))
    {jsons : List (String × Json F)} {fuel : Nat}, BareEntries entries →
    encodeEntries p enc entries = .ok jsons → Json.depthEntries jsons < fuel →
    (decodeEntries (decodeObject p allObjects fuel) jsons = .ok entries
      ↔ FaithfulEntries p enc entries)
  | [], jsons, fuel, _, h, _ => by
      rw [encodeEntries] at h; cases h; simp [decodeEntries, FaithfulEntries]
  | (key, v) :: rest, jsons, fuel, hbare, h, hfuel => by
      obtain ⟨json, jsons', hv, hrest, rfl⟩ := encodeEntries_cons h
      rw [Json.depthEntries] at hfuel
      rw [BareEntries] at hbare
      rw [decodeEntries_cons, FaithfulEntries, decode_encode v hbare.1 hv (by omega),
        decode_encodeEntries rest hbare.2 hrest (by omega)]

end

mutual

/-- **FAITHFUL VALUES ARE CODED**: no object in them is refused, and every relation
    has its class. -/
theorem encode_faithful : ∀ v : PFValue F D T O, Faithful p enc v →
    ∃ json, encodeObject p enc v = .ok json
  | .null, _ => ⟨_, rfl⟩
  | .number _, _ => ⟨_, rfl⟩
  | .string _, _ => ⟨_, rfl⟩
  | .data _, _ => ⟨_, rfl⟩
  | .date _, _ => ⟨_, rfl⟩
  | .file f, _ => by
      rw [encodeObject]
      cases f.url <;> exact ⟨_, rfl⟩
  | .acl _, _ => ⟨_, rfl⟩
  | .geoPoint _ _, _ => ⟨_, rfl⟩
  | .polygon _, _ => ⟨_, rfl⟩
  | .relation r, h => by
      rw [Faithful] at h
      obtain ⟨hclass, hback, _⟩ := h
      have hall : ∀ o ∈ p.listing r.knownObjects, comesBack p .pointer o ≠ none :=
        fun o ho => hback o ((p.mem_listing _ _).mp ho)
      obtain ⟨jsons, hobjects⟩ := encode_parseObjects (F := F) hall
      rw [encodeObject, encodeRelation, hobjects]
      cases hc : r.targetClass with
      | none => exact absurd hc hclass
      | some c => exact ⟨_, rfl⟩
  | .object o, h => by
      rw [Faithful] at h
      rw [encodeObject]
      exact encode_parseObject (by simp [h])
  | .array elems, h => by
      obtain ⟨jsons, helems⟩ := encode_faithfulElems elems (by rwa [Faithful] at h)
      exact ⟨.array jsons, by rw [encodeObject, helems]⟩
  | .dictionary entries, h => by
      rw [Faithful] at h
      obtain ⟨_, h⟩ := h
      have hjsons : ∃ jsons, encodeEntries p enc entries = .ok jsons := by
        split at h
        · exact encode_faithfulEntries entries h
        · exact encode_plainEntries entries h.2
        · exact h.elim
      obtain ⟨jsons, hentries⟩ := hjsons
      exact ⟨.dictionary jsons, by rw [encodeObject, hentries]⟩
  | .operation _, h => by rw [Faithful] at h; exact h.elim

theorem encode_faithfulElems : ∀ elems : List (PFValue F D T O), FaithfulElems p enc elems →
    ∃ jsons, encodeElems p enc elems = .ok jsons
  | [], _ => ⟨[], rfl⟩
  | v :: rest, h => by
      rw [FaithfulElems] at h
      obtain ⟨json, hv⟩ := encode_faithful v h.1
      obtain ⟨jsons, hrest⟩ := encode_faithfulElems rest h.2
      exact ⟨json :: jsons, by simp only [encodeElems, hv, hrest]⟩

theorem encode_faithfulEntries : ∀ entries : List (String × PFValue F D T O),
    FaithfulEntries p enc entries → ∃ jsons, encodeEntries p enc entries = .ok jsons
  | [], _ => ⟨[], rfl⟩
  | (key, v) :: rest, h => by
      rw [FaithfulEntries] at h
      obtain ⟨json, hv⟩ := encode_faithful v h.1
      obtain ⟨jsons, hrest⟩ := encode_faithfulEntries rest h.2
      exact ⟨(key, json) :: jsons, by simp only [encodeEntries, hv, hrest]⟩

end

/-- A value coded and decoded. -/
def readBack (p : Platform F D T O) (enc : ObjectEncoder)
    (allObjects : List (PFValue F D T O) → List (PFValue F D T O)) (v : PFValue F D T O) :
    Except CodecFailure (PFValue F D T O) :=
  match encodeObject p enc v with
  | .error e => .error e
  | .ok json => decodeObject p allObjects (json.depth + 1) json

end RoundTrip

/-! ## A value that comes back -/

/-- Two posts. -/
inductive Post
  | a
  | b
  deriving DecidableEq

/-- The posts are known by their ids, and dates are their text. -/
def twoPosts : Platform Int String String Post where
  floating :=
    { add := fun x y => x + y
      addSingle := fun x y => x + y
      single := id
      ofInteger := id
      singleOfInteger := id
      toInteger := id }
  description _ := ""
  base64String := id
  dataFromBase64 := id
  base64_round _ := rfl
  preciseString := id
  dateFromString := id
  className _ := "Post"
  objectId o := some (if o = .a then "a" else "b")
  localId _ := ""
  withObjectId _ i := if i = "a" then .a else .b
  withLocalId _ _ := .a
  listing s := [.a, .b].filter fun o => decide (o ∈ s)
  listing_nodup s := List.Nodup.filter _ (by decide)
  mem_listing s o := by cases o <;> simp

/-- A picture, a date, a relation and two posts, in a list and in dictionaries, one
    of them with a type of its own. -/
def album : PFValue Int String String Post :=
  .dictionary
    [("pictures", .array [.file ⟨"image.png", some "u", none, none⟩, .null]),
      ("on", .date "2018-08-01T00:00:00.000Z"),
      ("likes", .relation ⟨some "Post", {.a, .b}⟩),
      ("posts", .array [.object .b, .object .a]),
      ("place", .dictionary [("__type", .string "Place"), ("name", .string "park")])]

/-- There is no operation in the album. -/
theorem album_bare : Bare album := by
  simp [album, Bare, BareEntries, BareElems]

theorem album_faithful : Faithful twoPosts .pointer album := by
  have hback : ∀ o, comesBack twoPosts .pointer o = some o := by
    rintro (_ | _) <;> decide
  have hdate : ∀ t, twoPosts.dateFromString (twoPosts.preciseString t) = t := fun _ => rfl
  simp [album, Faithful, FaithfulEntries, FaithfulElems, List.lookup_cons, hback, hdate,
    typeNames, PlainEntries, Plain]

end Codec

end ParseSDK

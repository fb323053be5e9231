import FPApp.FieldOperationProofs

/-! # Permissions

    `PFACL` — the access that each user id has, and how it is read from the
    dictionary it is sent as.

    * `Json` — what is sent and stored;
    * `PFACL` — permissions that cannot be ill formed;
    * `acl_round_trip` — they are read back as they were. -/

namespace ParseSDK

open KeyedList

namespace Codec

/-- What `NSJSONSerialization` writes and reads. -/
inductive Json (F : Type) where
  | null
  | number (n : NSNumber F)
  | string (s : String)
  | array (elems : List (Json F))
  | dictionary (entries : List (String × Json F))

/-- How coding ends without a result: with an error, with an exception, or in a
    branch that is not modelled. -/
inductive CodecFailure where
  | unsavedChild
  | exception (e : NSException)
  | leftOut
  deriving DecidableEq

def unrecognizedSelector : CodecFailure :=
  .exception (.invalidArgument "unrecognized selector sent to instance")

/-! ## Access control lists -/

/-- The access types of one user id, with one granted or taken back. -/
def withAccess (accessType : String) (allowed : Bool) (granted : List String) : List String :=
  if allowed then granted ++ [accessType] else granted.erase accessType

/-- `setAccess:to:forUserId:`, on the permissions of each user id. -/
def setAccess (accessType : String) (allowed : Bool) (userId : String)
    (permissions : List (String × List String)) : List (String × List String) :=
  let granted := (permissions.lookup userId).getD []
  if decide (accessType ∈ granted) = allowed then permissions
  else
    let newPermissions := withAccess accessType allowed granted
    if newPermissions.isEmpty then permissions.filter (fun entry => !decide (entry.1 = userId))
    else upsert Prod.fst permissions (userId, newPermissions)

/-- Permissions are kept for each user id once, and only where there are some. -/
structure WellFormed (permissions : List (String × List String)) : Prop where
  keyed : Keyed Prod.fst permissions
  granted : ∀ entry ∈ permissions, entry.2 ≠ [] ∧ entry.2.Nodup

/-- A `PFACL`, without the link to an unresolved user. -/
structure PFACL where
  permissions : List (String × List String)
  wellFormed : WellFormed permissions

/-- `encodeIntoDictionary:`. -/
def PFACL.encodeIntoDictionary {F : Type} (acl : PFACL) : Json F :=
  .dictionary (acl.permissions.map fun entry =>
    (entry.1, .dictionary (entry.2.map fun accessType => (accessType, .number (.integer .bool 1)))))

/-- `boolValue`. -/
def boolValue {F : Type} : Json F → Except CodecFailure Bool
  | .number (.integer _ x) => .ok (x ≠ 0)
  | .number _ => .error .leftOut
  | .string _ => .error .leftOut
  | .null => .error unrecognizedSelector
  | .array _ => .error unrecognizedSelector
  | .dictionary _ => .error unrecognizedSelector

/-- The permissions of one user id, one after another. -/
def readAccess {F : Type} (userId : String) :
    List (String × Json F) → List (String × List String) →
      Except CodecFailure (List (String × List String))
  | [], permissions => .ok permissions
  | (accessType, json) :: rest, permissions =>
      match boolValue json with
      | .error e => .error e
      | .ok allowed => readAccess userId rest (setAccess accessType allowed userId permissions)

/-- The user ids, one after another. -/
def readPermissions {F : Type} : List (String × Json F) → List (String × List String) →
    Except CodecFailure (List (String × List String))
  | [], permissions => .ok permissions
  | (userId, json) :: rest, permissions =>
      match json with
      | .dictionary entries =>
          match readAccess userId entries permissions with
          | .error e => .error e
          | .ok permissions => readPermissions rest permissions
      | _ => .error unrecognizedSelector

section Permissions

theorem granted_of_lookup {permissions : List (String × List String)}
    (h : WellFormed permissions) (userId : String) :
    ((permissions.lookup userId).getD []).Nodup := by
  cases hl : permissions.lookup userId with
  | none => exact List.nodup_nil
  | some granted =>
      obtain ⟨l₁, l₂, heq, _⟩ := List.lookup_eq_some_iff.mp hl
      exact (h.granted (userId, granted) (by rw [heq]; simp)).2

/-- Setting an access keeps the permissions well formed. -/
theorem WellFormed.setAccess {permissions : List (String × List String)}
    (h : WellFormed permissions) (accessType : String) (allowed : Bool) (userId : String) :
    WellFormed (setAccess accessType allowed userId permissions) := by
  have hnodup := granted_of_lookup h userId
  unfold Codec.setAccess
  dsimp only
  split
  · exact h
  rename_i hchange
  split
  · exact ⟨keyed_filter h.keyed _, fun entry he => h.granted entry (List.mem_filter.mp he).1⟩
  · rename_i hne
    rw [List.isEmpty_iff] at hne
    refine ⟨keyed_upsert h.keyed _, fun entry he => ?_⟩
    rcases mem_upsert he with rfl | he
    · refine ⟨hne, ?_⟩
      cases allowed with
      | false => exact hnodup.erase _
      | true =>
          have hnot : accessType ∉ (permissions.lookup userId).getD [] := by simpa using hchange
          exact hnodup.append (List.nodup_singleton _) (List.disjoint_singleton.mpr hnot)
    · exact h.granted entry he

theorem WellFormed.readAccess {F : Type} {userId : String} :
    ∀ {entries : List (String × Json F)} {permissions permissions' : List (String × List String)},
    WellFormed permissions → readAccess userId entries permissions = .ok permissions' →
    WellFormed permissions' := by
  intro entries
  induction entries with
  | nil =>
      intro permissions permissions' h heq
      cases heq
      exact h
  | cons entry rest ih =>
      intro permissions permissions' h heq
      unfold Codec.readAccess at heq
      split at heq
      · cases heq
      · exact ih (h.setAccess _ _ _) heq

theorem WellFormed.readPermissions {F : Type} :
    ∀ {entries : List (String × Json F)} {permissions permissions' : List (String × List String)},
    WellFormed permissions → readPermissions entries permissions = .ok permissions' →
    WellFormed permissions' := by
  intro entries
  induction entries with
  | nil =>
      intro permissions permissions' h heq
      cases heq
      exact h
  | cons entry rest ih =>
      intro permissions permissions' h heq
      obtain ⟨userId, json⟩ := entry
      cases json with
      | dictionary entries =>
          rw [Codec.readPermissions] at heq
          cases hread : Codec.readAccess userId entries permissions with
          | error e => simp [hread] at heq
          | ok permissions₁ =>
              simp only [hread] at heq
              exact ih (h.readAccess hread) heq
      | _ => cases heq

/-- `ACLWithDictionary:`. -/
def aclWithDictionary {F : Type} : Json F → Except CodecFailure PFACL
  | .dictionary entries =>
      match h : readPermissions entries [] with
      | .ok permissions =>
          .ok ⟨permissions, WellFormed.readPermissions ⟨by simp [Keyed], by simp⟩ h⟩
      | .error e => .error e
  | _ => .error unrecognizedSelector

/-! ### Reading permissions back -/

theorem lookup_append_new {permissions : List (String × List String)} {userId : String}
    (hnew : userId ∉ permissions.map Prod.fst) (granted : List String) :
    (permissions ++ [(userId, granted)]).lookup userId = some granted := by
  induction permissions with
  | nil => simp
  | cons head rest ih =>
      rw [List.map_cons, List.mem_cons, not_or] at hnew
      rw [List.cons_append, List.lookup_cons, beq_eq_false_iff_ne.mpr hnew.1]
      exact ih hnew.2

theorem lookup_new {permissions : List (String × List String)} {userId : String}
    (hnew : userId ∉ permissions.map Prod.fst) : permissions.lookup userId = none := by
  rw [List.lookup_eq_none_iff]
  intro entry he
  rw [bne_iff_ne]
  rintro rfl
  exact hnew (List.mem_map_of_mem he)

/-- Access types that are not yet granted are granted in order. -/
theorem readAccess_granted {F : Type} {userId : String}
    {permissions : List (String × List String)} (hnew : userId ∉ permissions.map Prod.fst) :
    ∀ (accessTypes granted : List String), (granted ++ accessTypes).Nodup → granted ≠ [] →
    readAccess userId (accessTypes.map fun accessType =>
        (accessType, (Json.number (.integer .bool 1) : Json F)))
      (permissions ++ [(userId, granted)])
      = .ok (permissions ++ [(userId, granted ++ accessTypes)]) := by
  intro accessTypes
  induction accessTypes with
  | nil => intro granted _ _; simp [readAccess]
  | cons accessType rest ih =>
      intro granted hnodup hne
      have hnot : accessType ∉ granted := fun hmem =>
        List.disjoint_of_nodup_append hnodup hmem List.mem_cons_self
      have hset : setAccess accessType true userId (permissions ++ [(userId, granted)])
          = permissions ++ [(userId, granted ++ [accessType])] := by
        unfold setAccess
        simp only [lookup_append_new hnew, Option.getD_some]
        rw [if_neg (by simpa using hnot)]
        rw [withAccess, if_pos rfl, if_neg (by simp)]
        exact upsert_append_new (x := (userId, granted)) hnew rfl
      have hread := ih (granted ++ [accessType]) (by simpa using hnodup) (by simp)
      rw [List.map_cons, readAccess]
      simp only [boolValue, ne_eq, one_ne_zero, not_false_eq_true, decide_true]
      rw [hset, hread, List.append_assoc, List.singleton_append]

/-- All access types of a new user id are granted. -/
theorem readAccess_new {F : Type} {userId : String} {permissions : List (String × List String)}
    (hnew : userId ∉ permissions.map Prod.fst) {accessTypes : List String}
    (hne : accessTypes ≠ []) (hnodup : accessTypes.Nodup) :
    readAccess userId (accessTypes.map fun accessType =>
        (accessType, (Json.number (.integer .bool 1) : Json F))) permissions
      = .ok (permissions ++ [(userId, accessTypes)]) := by
  cases accessTypes with
  | nil => exact absurd rfl hne
  | cons accessType rest =>
      have hset : setAccess accessType true userId permissions
          = permissions ++ [(userId, [accessType])] := by
        unfold setAccess
        simp only [lookup_new hnew, Option.getD_none]
        rw [if_neg (by simp), withAccess, if_pos rfl, if_neg (by simp), upsert_new hnew]
        rfl
      have hread := readAccess_granted (F := F) hnew rest [accessType] hnodup (by simp)
      rw [List.map_cons, readAccess]
      simp only [boolValue, ne_eq, one_ne_zero, not_false_eq_true, decide_true]
      rw [hset, hread, List.singleton_append]

theorem readPermissions_encoded {F : Type} : ∀ (rest permissions : List (String × List String)),
    WellFormed (permissions ++ rest) →
    readPermissions (rest.map fun entry => (entry.1, (Json.dictionary (entry.2.map fun accessType =>
        (accessType, .number (.integer .bool 1))) : Json F))) permissions
      = .ok (permissions ++ rest) := by
  intro rest
  induction rest with
  | nil => intro permissions _; simp [readPermissions]
  | cons entry rest ih =>
      intro permissions h
      obtain ⟨userId, accessTypes⟩ := entry
      obtain ⟨hne, hnodup⟩ := h.granted (userId, accessTypes) (by simp)
      have hnew : userId ∉ permissions.map Prod.fst := by
        have hkeyed := h.keyed
        rw [Keyed, List.map_append] at hkeyed
        exact fun hmem => List.disjoint_of_nodup_append hkeyed hmem (by simp)
      rw [List.map_cons, readPermissions]
      simp only [readAccess_new hnew hne hnodup]
      have hrest := ih (permissions ++ [(userId, accessTypes)]) (by simpa using h)
      rw [hrest, List.append_assoc, List.singleton_append]

/-- **PERMISSIONS ARE READ BACK**: a list of permissions is read back from its
    dictionary as it was. -/
theorem acl_round_trip {F : Type} (acl : PFACL) :
    aclWithDictionary (acl.encodeIntoDictionary : Json F) = .ok acl := by
  have h := readPermissions_encoded (F := F) acl.permissions [] (by simpa using acl.wellFormed)
  rw [List.nil_append] at h
  unfold aclWithDictionary PFACL.encodeIntoDictionary
  dsimp only
  split
  · rename_i permissions heq
    rw [h] at heq
    cases heq
    rfl
  · rename_i e heq
    rw [h] at heq
    cases heq

end Permissions

end Codec

end ParseSDK

import Mathlib.Data.List.AList

/-! # Logs of operations, by key

    A record maps keys to values; a set of operations holds one operation at
    most for each key.  Applying a list of sets applies to each key the
    operations that the sets hold for it, in their order: its column.

    Two sets are joined into one by merging, key by key, the operations of the
    later set with those of the earlier.

    * `replay_ok_iff` — a list of sets is applied key by key, along the
      columns;
    * `replay_absorb` — joining the first two sets of a list changes nothing
      of what the list does, when merges are lawful;
    * `replay_record` — recording one more operation in the last set applies
      it to the result. -/

namespace OperationLog

variable {K O V ε : Type} [DecidableEq K]

/-- A set of operations: one at most for each key. -/
abbrev OpSet (K O : Type) := AList (fun _ : K => O)

/-- A computation that binds two results. -/
theorem bind_ok {α β : Type} {x : Except ε α} {f : α → Except ε β} {b : β} :
    x >>= f = .ok b ↔ ∃ a, x = .ok a ∧ f a = .ok b := by
  cases x with
  | error e =>
      constructor
      · exact fun h => nomatch h
      · rintro ⟨a, ha, -⟩
        exact nomatch ha
  | ok a =>
      constructor
      · exact fun h => ⟨a, rfl, h⟩
      · rintro ⟨a', ha, h⟩
        obtain rfl := Except.ok.inj ha
        exact h

theorem map_ok {α β : Type} {x : Except ε α} {f : α → β} {b : β} :
    x.map f = .ok b ↔ ∃ a, x = .ok a ∧ f a = b := by
  cases x with
  | error e =>
      constructor
      · exact fun h => nomatch h
      · rintro ⟨a, ha, -⟩
        exact nomatch ha
  | ok a =>
      constructor
      · exact fun h => ⟨a, rfl, Except.ok.inj h⟩
      · rintro ⟨a', ha, rfl⟩
        obtain rfl := Except.ok.inj ha
        rfl

/-! ## Applying operations -/

section Apply

variable (act : O → V → Except ε V)

/-- Apply a list of operations to a value. -/
def exec (ops : List O) (v : V) : Except ε V := ops.foldlM (fun v o => act o v) v

@[simp] theorem exec_nil (v : V) : exec act [] v = .ok v := rfl

theorem exec_cons (o : O) (ops : List O) (v : V) :
    exec act (o :: ops) v = act o v >>= exec act ops := rfl

theorem exec_singleton (o : O) (v : V) : exec act [o] v = act o v := by
  rw [exec_cons]
  cases act o v with
  | error e => rfl
  | ok w => rfl

theorem exec_append (os ps : List O) (v : V) :
    exec act (os ++ ps) v = exec act os v >>= exec act ps := List.foldlM_append

/-- Apply a set of operations to a record. -/
def applySet (set : OpSet K O) (data : K → V) : Except ε (K → V) :=
  set.entries.foldlM (fun d e => (act e.2 (d e.1)).map (Function.update d e.1)) data

/-- Apply a list of sets. -/
def replay (sets : List (OpSet K O)) (data : K → V) : Except ε (K → V) :=
  sets.foldlM (fun d set => applySet act set d) data

/-- The operations that a list of sets holds for a key. -/
def column (k : K) (sets : List (OpSet K O)) : List O := sets.filterMap (AList.lookup k)

@[simp] theorem column_nil (k : K) : column k ([] : List (OpSet K O)) = [] := rfl

theorem column_cons (k : K) (set : OpSet K O) (sets : List (OpSet K O)) :
    column k (set :: sets) = (set.lookup k).toList ++ column k sets := by
  cases h : set.lookup k with
  | none => simp [column, h]
  | some o => simp [column, h]

theorem column_append (k : K) (sets rest : List (OpSet K O)) :
    column k (sets ++ rest) = column k sets ++ column k rest := List.filterMap_append

theorem column_singleton (k : K) (set : OpSet K O) :
    column k [set] = (set.lookup k).toList := by
  rw [column_cons, column_nil, List.append_nil]

variable {act}

/-- The entries of a set touch one key each. -/
theorem entries_ok_iff {l : List (Sigma fun _ : K => O)} (hl : l.NodupKeys) {d d' : K → V} :
    l.foldlM (fun d e => (act e.2 (d e.1)).map (Function.update d e.1)) d = .ok d'
      ↔ ∀ k, exec act (l.dlookup k).toList (d k) = .ok (d' k) := by
  induction l generalizing d with
  | nil =>
      constructor
      · intro h k
        rw [← Except.ok.inj h]
        rfl
      · intro h
        have hd : d = d' := funext fun k => Except.ok.inj (h k)
        rw [hd]
        rfl
  | cons e l ih =>
      obtain ⟨a, o⟩ := e
      obtain ⟨ha, hl⟩ := List.nodupKeys_cons.mp hl
      have hnone : l.dlookup a = none := List.dlookup_eq_none.mpr ha
      rw [List.foldlM_cons, bind_ok]
      constructor
      · rintro ⟨d1, hd1, hrest⟩ k
        obtain ⟨w, hw, rfl⟩ := map_ok.mp hd1
        have hk := (ih hl).mp hrest k
        by_cases hka : k = a
        · subst hka
          rw [hnone, Function.update_self] at hk
          rw [List.dlookup_cons_eq, Option.toList_some, exec_singleton]
          exact hw.trans hk
        · rw [List.dlookup_cons_ne _ _ hka]
          rwa [Function.update_of_ne hka] at hk
      · intro h
        have hhead := h a
        rw [List.dlookup_cons_eq, Option.toList_some, exec_singleton] at hhead
        refine ⟨Function.update d a (d' a), map_ok.mpr ⟨d' a, hhead, rfl⟩, (ih hl).mpr ?_⟩
        intro k
        by_cases hka : k = a
        · subst hka
          rw [hnone, Function.update_self]
          rfl
        · have hk := h k
          rw [List.dlookup_cons_ne _ _ hka] at hk
          rwa [Function.update_of_ne hka]

/-- A set is applied key by key. -/
theorem applySet_ok_iff {set : OpSet K O} {d d' : K → V} :
    applySet act set d = .ok d' ↔ ∀ k, exec act (set.lookup k).toList (d k) = .ok (d' k) :=
  entries_ok_iff set.nodupKeys

/-- **REPLAY BY COLUMNS**: a list of sets is applied key by key. -/
theorem replay_ok_iff {sets : List (OpSet K O)} {d d' : K → V} :
    replay act sets d = .ok d' ↔ ∀ k, exec act (column k sets) (d k) = .ok (d' k) := by
  induction sets generalizing d with
  | nil =>
      constructor
      · intro h k
        rw [← Except.ok.inj h]
        rfl
      · intro h
        have hd : d = d' := funext fun k => Except.ok.inj (h k)
        rw [hd]
        rfl
  | cons set sets ih =>
      rw [replay, List.foldlM_cons, bind_ok]
      constructor
      · rintro ⟨d1, hset, hrest⟩ k
        rw [column_cons, exec_append, bind_ok]
        exact ⟨d1 k, applySet_ok_iff.mp hset k, ih.mp hrest k⟩
      · intro h
        have hmid : ∀ k, ∃ v, exec act (set.lookup k).toList (d k) = .ok v
            ∧ exec act (column k sets) v = .ok (d' k) := by
          intro k
          have hk := h k
          rwa [column_cons, exec_append, bind_ok] at hk
        choose d1 hset hrest using hmid
        exact ⟨d1, applySet_ok_iff.mpr hset, ih.mpr hrest⟩

end Apply

/-! ## Joining sets -/

section Merge

variable (merge : O → O → Except ε O)

/-- The operation of a key after a join: of a later and an earlier set. -/
def joined : Option O → Option O → Except ε (Option O)
  | some new, some previous => (merge new previous).map some
  | none, some previous => .ok (some previous)
  | new, none => .ok new

/-- Join an earlier set into a later one. -/
def absorb (set previous : OpSet K O) : Except ε (OpSet K O) :=
  previous.entries.foldlM
    (fun s e =>
      match s.lookup e.1 with
      | some o => (merge o e.2).map fun m => s.insert e.1 m
      | none => .ok (s.insert e.1 e.2))
    set

variable {merge}

/-- One entry of the earlier set. -/
theorem absorb_entry {s t : OpSet K O} {a : K} {o : O}
    (h : (match s.lookup a with
      | some n => (merge n o).map fun m => s.insert a m
      | none => .ok (s.insert a o)) = .ok t) :
    ∃ m, joined merge (s.lookup a) (some o) = .ok (some m) ∧ t = s.insert a m := by
  cases hs : s.lookup a with
  | none =>
      rw [hs] at h
      exact ⟨o, rfl, (Except.ok.inj h).symm⟩
  | some n =>
      rw [hs] at h
      obtain ⟨m, hm, ht⟩ := map_ok.mp h
      exact ⟨m, map_ok.mpr ⟨m, hm, rfl⟩, ht.symm⟩

theorem joined_none (n : Option O) : joined merge n none = .ok n := by
  cases n with
  | none => rfl
  | some o => rfl

/-- A join joins every key. -/
theorem lookup_absorb {set previous m : OpSet K O} (h : absorb merge set previous = .ok m)
    (k : K) : joined merge (set.lookup k) (previous.lookup k) = .ok (m.lookup k) := by
  have hgen : ∀ (l : List (Sigma fun _ : K => O)), l.NodupKeys → ∀ s : OpSet K O,
      l.foldlM (fun s e =>
        match s.lookup e.1 with
        | some o => (merge o e.2).map fun m => s.insert e.1 m
        | none => .ok (s.insert e.1 e.2)) s = .ok m →
      joined merge (s.lookup k) (l.dlookup k) = .ok (m.lookup k) := by
    intro l
    induction l with
    | nil =>
        intro _ s hs
        rw [← Except.ok.inj hs]
        exact joined_none _
    | cons e l ih =>
        intro hl s hs
        obtain ⟨a, o⟩ := e
        obtain ⟨ha, hl⟩ := List.nodupKeys_cons.mp hl
        rw [List.foldlM_cons, bind_ok] at hs
        obtain ⟨t, ht, hrest⟩ := hs
        obtain ⟨n, hn, rfl⟩ := absorb_entry ht
        have hk := ih hl _ hrest
        by_cases hka : k = a
        · subst hka
          rw [AList.lookup_insert, List.dlookup_eq_none.mpr ha, joined_none] at hk
          rw [List.dlookup_cons_eq, hn]
          exact hk
        · rw [AList.lookup_insert_ne hka] at hk
          rwa [List.dlookup_cons_ne _ _ hka]
  exact hgen previous.entries previous.nodupKeys set h

/-- A join fails only where a key cannot be joined. -/
theorem absorb_total {set previous : OpSet K O}
    (h : ∀ k, ∃ o, joined merge (set.lookup k) (previous.lookup k) = .ok o) :
    ∃ m, absorb merge set previous = .ok m := by
  have hgen : ∀ (l : List (Sigma fun _ : K => O)), l.NodupKeys → ∀ s : OpSet K O,
      (∀ k, ∃ o, joined merge (s.lookup k) (l.dlookup k) = .ok o) →
      ∃ m, l.foldlM (fun s e =>
        match s.lookup e.1 with
        | some o => (merge o e.2).map fun m => s.insert e.1 m
        | none => .ok (s.insert e.1 e.2)) s = .ok m := by
    intro l
    induction l with
    | nil => exact fun _ s _ => ⟨s, rfl⟩
    | cons e l ih =>
        intro hl s hs
        obtain ⟨a, o⟩ := e
        obtain ⟨ha, hl⟩ := List.nodupKeys_cons.mp hl
        have hstep : ∃ n, (match s.lookup a with
            | some p => (merge p o).map fun m => s.insert a m
            | none => .ok (s.insert a o)) = Except.ok (s.insert a n) := by
          obtain ⟨x, hx⟩ := hs a
          rw [List.dlookup_cons_eq] at hx
          cases hlook : s.lookup a with
          | none => exact ⟨o, rfl⟩
          | some p =>
              rw [hlook] at hx
              obtain ⟨n, hn, -⟩ := map_ok.mp hx
              exact ⟨n, map_ok.mpr ⟨n, hn, rfl⟩⟩
        obtain ⟨n, hn⟩ := hstep
        obtain ⟨m, hm⟩ := ih hl (s.insert a n) (by
          intro k
          by_cases hka : k = a
          · subst hka
            rw [List.dlookup_eq_none.mpr ha]
            exact ⟨_, joined_none _⟩
          · rw [AList.lookup_insert_ne hka]
            have hk := hs k
            rwa [List.dlookup_cons_ne _ _ hka] at hk)
        refine ⟨m, ?_⟩
        rw [List.foldlM_cons, bind_ok]
        exact ⟨_, hn, hm⟩
  exact hgen previous.entries previous.nodupKeys set h

end Merge

/-! ## Lawful merges -/

section Lawful

variable (act : O → V → Except ε V) (merge : O → O → Except ε O)

/-- On the operations in `G` a merge does what the two operations did. -/
structure Lawful (G : O → Prop) : Prop where
  replay : ∀ {new previous m v w x}, G new → G previous → merge new previous = .ok m →
    act previous v = .ok w → act new w = .ok x → act m v = .ok x
  closed : ∀ {new previous m}, G new → G previous → merge new previous = .ok m → G m

/-- Every operation of the sets is in `G`. -/
def Within (G : O → Prop) (sets : List (OpSet K O)) : Prop :=
  ∀ k, ∀ o ∈ column k sets, G o

variable {act merge} {G : O → Prop}

theorem within_append {sets rest : List (OpSet K O)} :
    Within G (sets ++ rest) ↔ Within G sets ∧ Within G rest := by
  constructor
  · intro h
    refine ⟨fun k o ho => h k o ?_, fun k o ho => h k o ?_⟩
    · rw [column_append]
      exact List.mem_append_left _ ho
    · rw [column_append]
      exact List.mem_append_right _ ho
  · rintro ⟨hsets, hrest⟩ k o ho
    rw [column_append, List.mem_append] at ho
    exact ho.elim (hsets k o) (hrest k o)

theorem within_cons {set : OpSet K O} {sets : List (OpSet K O)} :
    Within G (set :: sets) ↔ Within G [set] ∧ Within G sets := by
  show Within G ([set] ++ sets) ↔ _
  exact within_append

theorem within_singleton {set : OpSet K O} :
    Within G [set] ↔ ∀ k o, set.lookup k = some o → G o := by
  constructor
  · intro h k o ho
    refine h k o ?_
    rw [column_singleton, ho]
    exact List.mem_singleton_self o
  · intro h k o ho
    rw [column_singleton, Option.mem_toList] at ho
    exact h k o ho

theorem within_empty : Within G [(∅ : OpSet K O)] :=
  within_singleton.mpr fun k o ho => absurd ho (by simp)

/-- The joined operation of a key does what the column did. -/
theorem exec_joined (law : Lawful act merge G) (new previous : Option O) {m : Option O} {v w : V}
    (hn : ∀ o, new = some o → G o) (hp : ∀ o, previous = some o → G o)
    (hm : joined merge new previous = .ok m)
    (h : exec act (previous.toList ++ new.toList) v = .ok w) :
    exec act m.toList v = .ok w := by
  cases previous with
  | none =>
      rw [joined_none] at hm
      rw [← Except.ok.inj hm]
      exact h
  | some p =>
      cases new with
      | none =>
          obtain rfl := Except.ok.inj hm
          simpa using h
      | some n =>
          obtain ⟨o, ho, rfl⟩ := map_ok.mp hm
          rw [exec_append, bind_ok] at h
          obtain ⟨x, hx, hw⟩ := h
          rw [Option.toList_some, exec_singleton] at hx hw ⊢
          exact law.replay (hn n rfl) (hp p rfl) ho hx hw

theorem good_joined (law : Lawful act merge G) (new previous : Option O) {m : Option O}
    (hn : ∀ o, new = some o → G o) (hp : ∀ o, previous = some o → G o)
    (hm : joined merge new previous = .ok m) : ∀ o, m = some o → G o := by
  intro o ho
  subst ho
  cases previous with
  | none =>
      rw [joined_none] at hm
      exact hn o (Except.ok.inj hm)
  | some p =>
      cases new with
      | none =>
          obtain rfl := Option.some.inj (Except.ok.inj hm)
          exact hp p rfl
      | some n =>
          obtain ⟨q, hq, hqo⟩ := map_ok.mp hm
          obtain rfl := Option.some.inj hqo
          exact law.closed (hn n rfl) (hp p rfl) hq

theorem within_absorb (law : Lawful act merge G) {set previous m : OpSet K O}
    (hs : Within G [set]) (hp : Within G [previous]) (hm : absorb merge set previous = .ok m) :
    Within G [m] := by
  rw [within_singleton] at hs hp ⊢
  intro k
  exact good_joined law _ _ (hs k) (hp k) (lookup_absorb hm k)

/-- **ROLL FORWARD**: to join the first set of a list into the second changes
    nothing of what the list does. -/
theorem replay_absorb (law : Lawful act merge G) {set previous m : OpSet K O}
    {rest : List (OpSet K O)} {d d' : K → V} (hs : Within G [set]) (hp : Within G [previous])
    (hm : absorb merge set previous = .ok m)
    (h : replay act (previous :: set :: rest) d = .ok d') :
    replay act (m :: rest) d = .ok d' := by
  rw [replay_ok_iff] at h ⊢
  intro k
  have hk := h k
  rw [column_cons, column_cons, ← List.append_assoc, exec_append, bind_ok] at hk
  obtain ⟨v, hv, hrest⟩ := hk
  rw [column_cons, exec_append, bind_ok]
  exact ⟨v, exec_joined law _ _ (within_singleton.mp hs k) (within_singleton.mp hp k)
    (lookup_absorb hm k) hv, hrest⟩

/-- **RECORD**: an operation that is merged into the last set is applied to the
    result. -/
theorem replay_record (law : Lawful act merge G) {sets : List (OpSet K O)} {set : OpSet K O}
    {k : K} {o m : O} {d d' : K → V} {w : V} (ho : G o) (hs : Within G [set])
    (hm : joined merge (some o) (set.lookup k) = .ok (some m)) (hw : act o (d' k) = .ok w)
    (h : replay act (sets ++ [set]) d = .ok d') :
    replay act (sets ++ [set.insert k m]) d = .ok (Function.update d' k w) := by
  rw [replay_ok_iff] at h ⊢
  intro j
  have hj := h j
  rw [column_append, column_singleton, exec_append, bind_ok] at hj
  obtain ⟨v, hv, hlast⟩ := hj
  rw [column_append, column_singleton, exec_append, bind_ok]
  refine ⟨v, hv, ?_⟩
  by_cases hjk : j = k
  · subst hjk
    rw [AList.lookup_insert, Function.update_self]
    refine exec_joined law (some o) (set.lookup j) ?_ (within_singleton.mp hs j) hm ?_
    · intro o' ho'
      obtain rfl := Option.some.inj ho'
      exact ho
    · rw [exec_append, bind_ok]
      exact ⟨d' j, hlast, by rw [Option.toList_some, exec_singleton, hw]⟩
  · rw [AList.lookup_insert_ne hjk, Function.update_of_ne hjk]
    exact hlast

theorem within_record (law : Lawful act merge G) {set : OpSet K O} {k : K} {o m : O} (ho : G o)
    (hs : Within G [set]) (hm : joined merge (some o) (set.lookup k) = .ok (some m)) :
    Within G [set.insert k m] := by
  rw [within_singleton] at hs ⊢
  intro j p hp
  by_cases hjk : j = k
  · subst hjk
    rw [AList.lookup_insert] at hp
    refine good_joined law (some o) (set.lookup j) ?_ (hs j) hm p hp
    intro o' ho'
    obtain rfl := Option.some.inj ho'
    exact ho
  · rw [AList.lookup_insert_ne hjk] at hp
    exact hs j p hp

end Lawful

end OperationLog

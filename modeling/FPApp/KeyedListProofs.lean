import Mathlib.Data.List.Perm.Basic
import Mathlib.Data.List.Nodup

/-! # Lists in which an entry replaces the one with its key

    `upsert` puts an entry in the place of the first entry with the same key,
    or at the end.  Writing a list of entries one after the other is the
    left fold of `upsert`.

    * `fold_fold` — to write the result of writing `ys` over `xs` is to write
      `xs` and then `ys`, when the keys of `xs` are distinct;
    * `fold_perm` — the order in which entries of distinct keys are written
      decides nothing but the order of the result. -/

namespace KeyedList

variable {α κ : Type} [DecidableEq κ] {key : α → κ}

/-- Put an entry in the place of the first one with its key, or at the end. -/
def upsert (key : α → κ) : List α → α → List α
  | [], x => [x]
  | y :: ys, x => if key y = key x then x :: ys else y :: upsert key ys x

/-- No two entries have one key. -/
def Keyed (key : α → κ) (xs : List α) : Prop := (xs.map key).Nodup

omit [DecidableEq κ] in
theorem keyed_cons {x : α} {xs : List α} :
    Keyed key (x :: xs) ↔ key x ∉ xs.map key ∧ Keyed key xs := List.nodup_cons

@[simp] theorem upsert_cons_same {x y : α} (h : key y = key x) (ys : List α) :
    upsert key (y :: ys) x = x :: ys := if_pos h

@[simp] theorem upsert_cons_ne {x y : α} (h : key y ≠ key x) (ys : List α) :
    upsert key (y :: ys) x = y :: upsert key ys x := if_neg h

/-- A new key goes to the end. -/
theorem upsert_new {xs : List α} {x : α} (h : key x ∉ xs.map key) :
    upsert key xs x = xs ++ [x] := by
  induction xs with
  | nil => rfl
  | cons y ys ih =>
      rw [List.map_cons, List.mem_cons, not_or] at h
      rw [upsert_cons_ne (Ne.symm h.1), ih h.2, List.cons_append]

/-- The entry at the end, of a key that is not before it, is replaced there. -/
theorem upsert_append_new {xs : List α} {x y : α} (h : key x ∉ xs.map key) (hy : key x = key y) :
    upsert key (xs ++ [x]) y = xs ++ [y] := by
  induction xs with
  | nil => exact upsert_cons_same hy []
  | cons z zs ih =>
      rw [List.map_cons, List.mem_cons, not_or] at h
      rw [List.cons_append, upsert_cons_ne (hy ▸ Ne.symm h.1), ih h.2, List.cons_append]

/-- What is in the list after an `upsert` was there before, or was put in. -/
theorem mem_upsert {xs : List α} {x y : α} (h : y ∈ upsert key xs x) : y = x ∨ y ∈ xs := by
  induction xs with
  | nil => exact Or.inl (List.mem_singleton.mp h)
  | cons z zs ih =>
      by_cases hz : key z = key x
      · rw [upsert_cons_same hz] at h
        rcases List.mem_cons.mp h with rfl | h
        · exact Or.inl rfl
        · exact Or.inr (List.mem_cons_of_mem _ h)
      · rw [upsert_cons_ne hz] at h
        rcases List.mem_cons.mp h with rfl | h
        · exact Or.inr List.mem_cons_self
        · exact (ih h).imp_right (List.mem_cons_of_mem _)

/-- The keys after an `upsert`. -/
theorem map_upsert (xs : List α) (x : α) :
    (upsert key xs x).map key
      = if key x ∈ xs.map key then xs.map key else xs.map key ++ [key x] := by
  induction xs with
  | nil => rfl
  | cons y ys ih =>
      by_cases hy : key y = key x
      · rw [upsert_cons_same hy, if_pos (by simp [hy]), List.map_cons, List.map_cons, hy]
      · rw [upsert_cons_ne hy, List.map_cons, ih, List.map_cons]
        by_cases hx : key x ∈ ys.map key
        · rw [if_pos hx, if_pos (List.mem_cons_of_mem _ hx)]
        · rw [if_neg hx, if_neg (by simp [Ne.symm hy, hx]), List.cons_append]

theorem keyed_upsert {xs : List α} (h : Keyed key xs) (x : α) : Keyed key (upsert key xs x) := by
  rw [Keyed, map_upsert]
  by_cases hx : key x ∈ xs.map key
  · rw [if_pos hx]
    exact h
  · rw [if_neg hx]
    exact h.append (List.nodup_singleton _) (List.disjoint_singleton.mpr hx)

/-- Of two writes of one key the later stays. -/
theorem upsert_upsert {x y : α} (h : key x = key y) (xs : List α) :
    upsert key (upsert key xs x) y = upsert key xs y := by
  induction xs with
  | nil => exact upsert_cons_same h []
  | cons z zs ih =>
      by_cases hz : key z = key x
      · rw [upsert_cons_same hz, upsert_cons_same h, upsert_cons_same (hz.trans h)]
      · rw [upsert_cons_ne hz, upsert_cons_ne (fun hy => hz (hy.trans h.symm)),
          upsert_cons_ne (fun hy => hz (hy.trans h.symm)), ih]

/-- A key that is there already can be written before or after another one. -/
theorem upsert_comm {xs : List α} {x y : α} (hx : key x ∈ xs.map key) (hne : key x ≠ key y) :
    upsert key (upsert key xs y) x = upsert key (upsert key xs x) y := by
  induction xs with
  | nil => exact absurd hx List.not_mem_nil
  | cons z zs ih =>
      by_cases hzx : key z = key x
      · have hzy : key z ≠ key y := fun hzy => hne (hzx.symm.trans hzy)
        rw [upsert_cons_ne hzy, upsert_cons_same hzx, upsert_cons_same hzx, upsert_cons_ne hne]
      · have hmem : key x ∈ zs.map key := by
          rw [List.map_cons, List.mem_cons] at hx
          exact hx.resolve_left (fun h => hzx h.symm)
        by_cases hzy : key z = key y
        · rw [upsert_cons_same hzy, upsert_cons_ne (Ne.symm hne), upsert_cons_ne hzx,
            upsert_cons_same hzy]
        · rw [upsert_cons_ne hzy, upsert_cons_ne hzx, upsert_cons_ne hzx, upsert_cons_ne hzy,
            ih hmem]

/-! ## Writing a list of entries -/

/-- Write the entries of a list one after the other. -/
def fold (key : α → κ) (xs ys : List α) : List α := ys.foldl (upsert key) xs

@[simp] theorem fold_nil (xs : List α) : fold key xs [] = xs := rfl

@[simp] theorem fold_cons (xs : List α) (y : α) (ys : List α) :
    fold key xs (y :: ys) = fold key (upsert key xs y) ys := rfl

theorem keyed_fold {xs : List α} (h : Keyed key xs) (ys : List α) :
    Keyed key (fold key xs ys) := by
  induction ys generalizing xs with
  | nil => exact h
  | cons y ys ih => exact ih (keyed_upsert h y)

theorem mem_keys_upsert {xs : List α} {x : α} {k : κ} (h : k ∈ xs.map key) :
    k ∈ (upsert key xs x).map key := by
  rw [map_upsert]
  by_cases hx : key x ∈ xs.map key
  · rw [if_pos hx]
    exact h
  · rw [if_neg hx]
    exact List.mem_append_left _ h

/-- A key that is there and is not written again can be written last. -/
theorem upsert_fold {xs ys : List α} {x : α} (hx : key x ∈ xs.map key)
    (hys : key x ∉ ys.map key) :
    upsert key (fold key xs ys) x = fold key (upsert key xs x) ys := by
  induction ys generalizing xs with
  | nil => rfl
  | cons y ys ih =>
      rw [List.map_cons, List.mem_cons, not_or] at hys
      rw [fold_cons, ih (mem_keys_upsert hx) hys.2, fold_cons, upsert_comm hx hys.1]

/-- Writing over a written list: one more entry. -/
theorem fold_upsert {ys : List α} (hys : Keyed key ys) (xs : List α) (z : α) :
    fold key xs (upsert key ys z) = upsert key (fold key xs ys) z := by
  induction ys generalizing xs with
  | nil => rfl
  | cons y ys ih =>
      obtain ⟨hy, hys⟩ := keyed_cons.mp hys
      by_cases hyz : key y = key z
      · -- the new entry stands where the old one stood
        rw [upsert_cons_same hyz, fold_cons, fold_cons, upsert_fold ?_ (hyz ▸ hy),
          upsert_upsert hyz]
        rw [← hyz, map_upsert]
        by_cases hmem : key y ∈ xs.map key
        · rw [if_pos hmem]
          exact hmem
        · rw [if_neg hmem]
          exact List.mem_append_right _ (List.mem_singleton_self _)
      · rw [upsert_cons_ne hyz, fold_cons, fold_cons, ih hys]

/-- **WRITES COMPOSE**: to write the result of writing `zs` over `ys` is to
    write `ys` and then `zs`. -/
theorem fold_fold {ys : List α} (hys : Keyed key ys) (xs zs : List α) :
    fold key xs (fold key ys zs) = fold key (fold key xs ys) zs := by
  induction zs generalizing ys with
  | nil => rfl
  | cons z zs ih => rw [fold_cons, fold_cons, ih (keyed_upsert hys z), fold_upsert hys]

/-! ## The order of the writes -/

/-- The entry with a key, or the given one. -/
def entry (key : α → κ) (k : κ) (x : α) (ys : List α) : α :=
  (ys.find? (fun y => key y = k)).getD x

/-- The head of the list takes its key's entry; the rest is written on. -/
theorem fold_head {ys : List α} (hys : Keyed key ys) (x : α) (xs : List α) :
    fold key (x :: xs) ys
      = entry key (key x) x ys :: fold key xs (ys.filter (fun y => key y ≠ key x)) := by
  induction ys generalizing x xs with
  | nil => rfl
  | cons y ys ih =>
      obtain ⟨hy, hys⟩ := keyed_cons.mp hys
      by_cases hxy : key x = key y
      · -- no later entry has this key
        have hnone : ys.find? (fun z => key z = key y) = none := by
          refine List.find?_eq_none.mpr fun z hz => ?_
          rw [decide_eq_true_eq]
          exact fun heq => hy (heq ▸ List.mem_map_of_mem hz)
        rw [fold_cons, upsert_cons_same hxy, ih hys, hxy]
        simp [entry, hnone]
      · have hyx : key y ≠ key x := Ne.symm hxy
        rw [fold_cons, upsert_cons_ne hxy, ih hys]
        simp [entry, hyx]

/-- A list of distinct keys is its own result. -/
theorem fold_nil_left {ys : List α} (hys : Keyed key ys) : fold key [] ys = ys := by
  have hgen : ∀ xs : List α, Keyed key (xs ++ ys) → fold key xs ys = xs ++ ys := by
    induction ys with
    | nil => exact fun xs _ => (List.append_nil xs).symm
    | cons y ys ih =>
        intro xs hxs
        have hy : key y ∉ xs.map key := by
          rw [Keyed, List.map_append, List.map_cons] at hxs
          exact fun hmem => (List.nodup_append.mp hxs).2.2 _ hmem _ (List.mem_cons_self ..) rfl
        rw [fold_cons, upsert_new hy, ih (keyed_cons.mp hys).2 _ (by simpa using hxs)]
        simp
  exact hgen [] hys

omit [DecidableEq κ] in
theorem keyed_perm {xs ys : List α} (h : xs.Perm ys) : Keyed key xs ↔ Keyed key ys :=
  (h.map key).nodup_iff

omit [DecidableEq κ] in
theorem keyed_filter {xs : List α} (h : Keyed key xs) (p : α → Bool) :
    Keyed key (xs.filter p) := h.sublist (List.filter_sublist.map key)

theorem entry_eq_of_mem {k : κ} {x y : α} {ys : List α} (hys : Keyed key ys) (hy : y ∈ ys)
    (hk : key y = k) : entry key k x ys = y := by
  induction ys with
  | nil => exact absurd hy List.not_mem_nil
  | cons z zs ih =>
      obtain ⟨hz, hzs⟩ := keyed_cons.mp hys
      rcases List.mem_cons.mp hy with rfl | hmem
      · simp [entry, hk]
      · have hne : key z ≠ k := fun h => hz (h ▸ hk ▸ List.mem_map_of_mem hmem)
        have hrec := ih hzs hmem
        simpa [entry, hne] using hrec

/-- The entry with a key does not depend on the order. -/
theorem entry_perm {xs ys : List α} (h : xs.Perm ys) (hxs : Keyed key xs) (k : κ) (x : α) :
    entry key k x xs = entry key k x ys := by
  by_cases hk : ∃ y ∈ xs, key y = k
  · obtain ⟨y, hy, hkey⟩ := hk
    rw [entry_eq_of_mem hxs hy hkey,
      entry_eq_of_mem ((keyed_perm h).mp hxs) (h.mem_iff.mp hy) hkey]
  · have hnone : ∀ zs : List α, (∀ z ∈ zs, key z ≠ k) → entry key k x zs = x := by
      intro zs hzs
      have hfind : zs.find? (fun z => key z = k) = none :=
        List.find?_eq_none.mpr fun z hz => by simpa using hzs z hz
      rw [entry, hfind, Option.getD_none]
    rw [hnone xs fun z hz hkey => hk ⟨z, hz, hkey⟩,
      hnone ys fun z hz hkey => hk ⟨z, h.mem_iff.mpr hz, hkey⟩]

/-- **THE ORDER OF THE WRITES**: entries of distinct keys written in another
    order give the same entries. -/
theorem fold_perm {ys zs : List α} (h : ys.Perm zs) (hys : Keyed key ys) (xs : List α) :
    (fold key xs ys).Perm (fold key xs zs) := by
  induction xs generalizing ys zs with
  | nil =>
      rw [fold_nil_left hys, fold_nil_left ((keyed_perm h).mp hys)]
      exact h
  | cons x xs ih =>
      rw [fold_head hys, fold_head ((keyed_perm h).mp hys), entry_perm h hys]
      exact (ih (h.filter _) (keyed_filter hys _)).cons _

end KeyedList

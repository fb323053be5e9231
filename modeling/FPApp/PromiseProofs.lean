import Mathlib.Data.List.Count
import Mathlib.Data.List.Perm.Subperm
import Mathlib.Order.WellFounded

/-! # Promises and what waits for them

    A promise is kept once, with a value.  A callback is registered on a
    promise; it is handed over for execution when the promise is kept, or at
    once when it has been kept already.

    * `Heap` — promises named by `A`, with values `V` and callbacks `K`, and
      the history of the callbacks that were registered and executed;
    * `Heap.Conserved` — no callback is lost and none is duplicated: each is
      waiting, handed over or executed, and it waits exactly while its promise
      is not kept;
    * `Heap.executed_perm` — once nothing is handed over any more, the
      callbacks whose promises are kept have been executed, each as often as
      it was registered;
    * `acc_grow`, `not_acc_of_cycle` — in a network of promises that keep each
      other, what is kept waits for no cycle, also when the network grows. -/

namespace Promise

variable {A V K : Type}

/-- One promise. -/
structure Cell (V K : Type) where
  value : Option V
  callbacks : List K

/-- The promises, with the callbacks handed over and the history of callbacks. -/
structure Heap (A V K : Type) where
  cell : A → Cell V K
  ready : List (A × K)
  registered : List (A × K)
  executed : List (A × K)

/-- The calls of one callback. -/
def callsOf [DecidableEq K] (k : K) (l : List (A × K)) : List (A × K) := l.filter (·.2 = k)

section Calls

variable [DecidableEq K] (k : K)

@[simp] theorem callsOf_nil : callsOf k ([] : List (A × K)) = [] := rfl

@[simp] theorem callsOf_append (l m : List (A × K)) :
    callsOf k (l ++ m) = callsOf k l ++ callsOf k m := List.filter_append ..

@[simp] theorem callsOf_singleton (a : A) (k' : K) :
    callsOf k [(a, k')] = if k' = k then [(a, k')] else [] := by
  by_cases hk : k' = k <;> simp [callsOf, hk]

@[simp] theorem callsOf_map (k' : K) (l : List A) :
    callsOf k (l.map fun a => (a, k')) = if k' = k then l.map fun a => (a, k') else [] := by
  by_cases hk : k' = k <;> simp [callsOf, hk, List.filter_map, Function.comp_def]

theorem mem_callsOf {k : K} {p : A × K} {l : List (A × K)} :
    p ∈ callsOf k l ↔ p ∈ l ∧ p.2 = k := by
  simp [callsOf]

end Calls

namespace Heap

variable (h : Heap A V K)

/-- The value of a promise, once it is kept. -/
def value (a : A) : Option V := (h.cell a).value

/-- No promise has a callback; some are kept already. -/
def start (kept : A → Option V) : Heap A V K :=
  ⟨fun a => ⟨kept a, []⟩, [], [], []⟩

variable [DecidableEq A]

/-- Keep a promise, unless it is kept already. -/
def trySet (a : A) (v : V) : Heap A V K :=
  match h.value a with
  | some _ => h
  | none =>
      { h with
        cell := Function.update h.cell a ⟨some v, []⟩
        ready := h.ready ++ (h.cell a).callbacks.map fun k => (a, k) }

/-- Register a callback. -/
def continueWith (a : A) (k : K) : Heap A V K :=
  match h.value a with
  | some _ => { h with ready := h.ready ++ [(a, k)], registered := h.registered ++ [(a, k)] }
  | none =>
      { h with
        cell := Function.update h.cell a ⟨none, (h.cell a).callbacks ++ [k]⟩
        registered := h.registered ++ [(a, k)] }

/-- Execute a callback that was handed over. -/
def take (n : Nat) : Option ((A × K) × Heap A V K) :=
  match h.ready[n]? with
  | none => none
  | some p => some (p, { h with ready := h.ready.eraseIdx n, executed := h.executed ++ [p] })

/-! ## Values -/

omit [DecidableEq A] in
@[simp] theorem value_start (kept : A → Option V) (a : A) :
    (start kept : Heap A V K).value a = kept a := rfl

theorem value_trySet (a : A) (v : V) (b : A) :
    (h.trySet a v).value b = if b = a then some ((h.value a).getD v) else h.value b := by
  cases hv : h.value a with
  | some w =>
      simp only [trySet, hv]
      by_cases hb : b = a
      · rw [if_pos hb, hb, hv]
        rfl
      · rw [if_neg hb]
  | none =>
      simp only [trySet, hv]
      by_cases hb : b = a
      · subst hb
        rw [if_pos rfl]
        simp [value]
      · rw [if_neg hb]
        simp [value, Function.update_of_ne hb]

/-- A promise that is kept stays kept. -/
theorem value_trySet_some {a b : A} {v w : V} (hb : h.value b = some w) :
    (h.trySet a v).value b = some w := by
  rw [value_trySet]
  by_cases hab : b = a
  · rw [if_pos hab, ← hab, hb]
    rfl
  · rw [if_neg hab, hb]

theorem value_trySet_ne {a b : A} {v : V} (hb : b ≠ a) : (h.trySet a v).value b = h.value b := by
  rw [value_trySet, if_neg hb]

theorem value_trySet_self {a : A} {v : V} (ha : h.value a = none) :
    (h.trySet a v).value a = some v := by
  rw [value_trySet, if_pos rfl, ha]
  rfl

@[simp] theorem value_continueWith (a : A) (k : K) (b : A) :
    (h.continueWith a k).value b = h.value b := by
  cases hv : h.value a with
  | some w =>
      simp only [continueWith, hv]
      rfl
  | none =>
      simp only [continueWith, hv]
      by_cases hb : b = a
      · subst hb
        simpa [value] using hv.symm
      · simp [value, Function.update_of_ne hb]

@[simp] theorem registered_trySet (a : A) (v : V) : (h.trySet a v).registered = h.registered := by
  simp only [trySet]
  split <;> rfl

@[simp] theorem executed_trySet (a : A) (v : V) : (h.trySet a v).executed = h.executed := by
  simp only [trySet]
  split <;> rfl

@[simp] theorem registered_continueWith (a : A) (k : K) :
    (h.continueWith a k).registered = h.registered ++ [(a, k)] := by
  simp only [continueWith]
  split <;> rfl

@[simp] theorem executed_continueWith (a : A) (k : K) :
    (h.continueWith a k).executed = h.executed := by
  simp only [continueWith]
  split <;> rfl

/-- One callback continues several promises. -/
def continueAll (k : K) (l : List A) : Heap A V K := l.foldl (fun h a => h.continueWith a k) h

@[simp] theorem value_continueAll (k : K) (l : List A) (b : A) :
    (h.continueAll k l).value b = h.value b := by
  induction l generalizing h with
  | nil => rfl
  | cons a l ih => exact (ih (h.continueWith a k)).trans (value_continueWith h a k b)

@[simp] theorem registered_continueAll (k : K) (l : List A) :
    (h.continueAll k l).registered = h.registered ++ l.map fun a => (a, k) := by
  induction l generalizing h with
  | nil => exact (List.append_nil _).symm
  | cons a l ih =>
      refine (ih (h.continueWith a k)).trans ?_
      rw [registered_continueWith, List.append_assoc]
      rfl

@[simp] theorem executed_continueAll (k : K) (l : List A) :
    (h.continueAll k l).executed = h.executed := by
  induction l generalizing h with
  | nil => rfl
  | cons a l ih => exact (ih (h.continueWith a k)).trans (executed_continueWith h a k)

variable {h}

omit [DecidableEq A] in
/-- What a callback that is executed leaves. -/
theorem take_cases {n : Nat} {p : A × K} {h' : Heap A V K} (ht : h.take n = some (p, h')) :
    h.ready[n]? = some p ∧ h'.cell = h.cell ∧ h'.ready = h.ready.eraseIdx n
      ∧ h'.registered = h.registered ∧ h'.executed = h.executed ++ [p] := by
  simp only [take] at ht
  cases hn : h.ready[n]? with
  | none =>
      rw [hn] at ht
      exact nomatch ht
  | some q =>
      rw [hn] at ht
      obtain ⟨rfl, rfl⟩ := Prod.mk.inj (Option.some.inj ht)
      exact ⟨rfl, rfl, rfl, rfl, rfl⟩

omit [DecidableEq A] in
theorem value_take {n : Nat} {p : A × K} {h' : Heap A V K} (ht : h.take n = some (p, h')) (a : A) :
    h'.value a = h.value a := by
  rw [value, value, (take_cases ht).2.1]

/-! ## No callback is lost or duplicated -/

section Conservation

variable [DecidableEq K]

/-- Every callback that was registered is waiting, handed over or executed. -/
structure Conserved (h : Heap A V K) : Prop where
  conserved : ∀ a k, h.registered.count (a, k)
    = (h.cell a).callbacks.count k + h.ready.count (a, k) + h.executed.count (a, k)
  settled : ∀ a, (h.value a).isSome → (h.cell a).callbacks = []
  fired : ∀ p, p ∈ h.ready ∨ p ∈ h.executed → (h.value p.1).isSome

theorem conserved_start (kept : A → Option V) : (start kept : Heap A V K).Conserved where
  conserved := fun _ _ => rfl
  settled := fun _ _ => rfl
  fired := by
    rintro p (hp | hp)
    · exact nomatch hp
    · exact nomatch hp

theorem count_map_pair (a b : A) (k : K) (l : List K) :
    (l.map fun k => (b, k)).count (a, k) = if a = b then l.count k else 0 := by
  by_cases hab : a = b
  · subst hab
    rw [if_pos rfl]
    exact List.count_map_of_injective l (fun k => (a, k)) (Prod.mk_right_injective a) k
  · rw [if_neg hab]
    refine List.count_eq_zero_of_not_mem fun hmem => ?_
    obtain ⟨k', -, hk'⟩ := List.mem_map.mp hmem
    exact hab (Prod.mk.inj hk').1.symm

theorem Conserved.trySet (hc : h.Conserved) (a : A) (v : V) : (h.trySet a v).Conserved := by
  cases hv : h.value a with
  | some w =>
      have heq : h.trySet a v = h := by simp only [Heap.trySet, hv]
      rw [heq]
      exact hc
  | none =>
      have heq : h.trySet a v = { h with
          cell := Function.update h.cell a ⟨some v, []⟩
          ready := h.ready ++ (h.cell a).callbacks.map fun k => (a, k) } := by
        simp only [Heap.trySet, hv]
      have hvalue := fun b => value_trySet h a v b
      rw [heq] at hvalue ⊢
      refine ⟨?_, ?_, ?_⟩
      · -- the callbacks that waited have been handed over
        intro b k
        show h.registered.count (b, k)
          = (Function.update h.cell a ⟨some v, []⟩ b).callbacks.count k
            + (h.ready ++ (h.cell a).callbacks.map fun k => (a, k)).count (b, k)
            + h.executed.count (b, k)
        rw [hc.conserved b k, List.count_append, count_map_pair]
        by_cases hb : b = a
        · subst hb
          rw [Function.update_self, if_pos rfl, List.count_nil]
          omega
        · rw [Function.update_of_ne hb, if_neg hb]
          omega
      · intro b hb
        show (Function.update h.cell a ⟨some v, []⟩ b).callbacks = []
        by_cases hba : b = a
        · subst hba
          rw [Function.update_self]
        · rw [Function.update_of_ne hba]
          rw [hvalue b, if_neg hba] at hb
          exact hc.settled b hb
      · intro p hp
        rw [hvalue p.1]
        by_cases hpa : p.1 = a
        · rw [if_pos hpa]
          rfl
        · rw [if_neg hpa]
          rcases hp with hp | hp
          · rcases List.mem_append.mp hp with hp | hp
            · exact hc.fired p (Or.inl hp)
            · obtain ⟨k, -, rfl⟩ := List.mem_map.mp hp
              exact absurd rfl hpa
          · exact hc.fired p (Or.inr hp)

theorem Conserved.continueWith (hc : h.Conserved) (a : A) (k : K) :
    (h.continueWith a k).Conserved := by
  have hvalue := fun b => value_continueWith h a k b
  have hcount : ∀ (l : List (A × K)) (p : A × K),
      (l ++ [(a, k)]).count p = l.count p + if (a, k) = p then 1 else 0 := by
    intro l p
    rw [List.count_append, List.count_singleton]
    simp
  cases hv : h.value a with
  | some w =>
      have heq : h.continueWith a k
          = { h with ready := h.ready ++ [(a, k)], registered := h.registered ++ [(a, k)] } := by
        simp only [Heap.continueWith, hv]
      rw [heq] at hvalue ⊢
      refine ⟨?_, ?_, ?_⟩
      · intro b k'
        show (h.registered ++ [(a, k)]).count (b, k') = (h.cell b).callbacks.count k'
          + (h.ready ++ [(a, k)]).count (b, k') + h.executed.count (b, k')
        rw [hcount, hcount, hc.conserved b k']
        omega
      · intro b hb
        rw [hvalue b] at hb
        exact hc.settled b hb
      · intro p hp
        rw [hvalue p.1]
        rcases hp with hp | hp
        · rcases List.mem_append.mp hp with hp | hp
          · exact hc.fired p (Or.inl hp)
          · obtain rfl := List.mem_singleton.mp hp
            rw [hv]
            rfl
        · exact hc.fired p (Or.inr hp)
  | none =>
      have heq : h.continueWith a k = { h with
          cell := Function.update h.cell a ⟨none, (h.cell a).callbacks ++ [k]⟩
          registered := h.registered ++ [(a, k)] } := by
        simp only [Heap.continueWith, hv]
      rw [heq] at hvalue ⊢
      refine ⟨?_, ?_, ?_⟩
      · intro b k'
        show (h.registered ++ [(a, k)]).count (b, k')
          = (Function.update h.cell a ⟨none, (h.cell a).callbacks ++ [k]⟩ b).callbacks.count k'
            + h.ready.count (b, k') + h.executed.count (b, k')
        rw [hcount, hc.conserved b k']
        by_cases hb : b = a
        · subst hb
          rw [Function.update_self, List.count_append, List.count_singleton]
          simp only [Prod.mk.injEq, true_and, beq_iff_eq]
          omega
        · rw [Function.update_of_ne hb, if_neg fun h => hb (Prod.mk.inj h).1.symm]
          omega
      · intro b hb
        rw [hvalue b] at hb
        have hba : b ≠ a := by
          rintro rfl
          rw [hv] at hb
          exact nomatch hb
        show (Function.update h.cell a ⟨none, (h.cell a).callbacks ++ [k]⟩ b).callbacks = []
        rw [Function.update_of_ne hba]
        exact hc.settled b hb
      · intro p hp
        rw [hvalue p.1]
        exact hc.fired p hp

theorem Conserved.continueAll (hc : h.Conserved) (k : K) (l : List A) :
    (h.continueAll k l).Conserved := by
  induction l generalizing h with
  | nil => exact hc
  | cons a l ih => exact ih (hc.continueWith a k)

theorem Conserved.take (hc : h.Conserved) {n : Nat} {p : A × K} {h' : Heap A V K}
    (ht : h.take n = some (p, h')) : h'.Conserved := by
  obtain ⟨hn, hcell, hready, hregistered, hexecuted⟩ := take_cases ht
  obtain ⟨hlt, hget⟩ := List.getElem?_eq_some_iff.mp hn
  have hmem : p ∈ h.ready := List.mem_of_getElem? hn
  refine ⟨?_, ?_, ?_⟩
  · intro a k
    have hsplit : h.ready.count (a, k) = h'.ready.count (a, k) + [p].count (a, k) := by
      rw [hready, ← (List.getElem_cons_eraseIdx_perm hlt).count_eq, hget, List.count_cons,
        List.count_singleton]
    rw [hregistered, hc.conserved a k, hcell, hexecuted, List.count_append]
    omega
  · intro a ha
    rw [value_take ht] at ha
    rw [hcell]
    exact hc.settled a ha
  · intro q hq
    rw [value_take ht]
    rcases hq with hq | hq
    · rw [hready] at hq
      exact hc.fired q (Or.inl (List.mem_of_mem_eraseIdx hq))
    · rw [hexecuted] at hq
      rcases List.mem_append.mp hq with hq | hq
      · exact hc.fired q (Or.inr hq)
      · obtain rfl := List.mem_singleton.mp hq
        exact hc.fired q (Or.inl hmem)

/-! ## What has been executed -/

/-- What is executed was registered. -/
theorem Conserved.executed_subperm (hc : h.Conserved) : h.executed.Subperm h.registered := by
  refine List.subperm_ext_iff.mpr fun p _ => ?_
  have hcons := hc.conserved p.1 p.2
  rw [show (p.1, p.2) = p from rfl] at hcons
  omega

theorem Conserved.calls_subperm (hc : h.Conserved) (k : K) :
    (callsOf k h.executed).Subperm (callsOf k h.registered) :=
  hc.executed_subperm.filter _

/-- A callback that was executed as often as it was registered saw all its
    promises kept. -/
theorem Conserved.kept_of_length (hc : h.Conserved) {k : K}
    (hlen : (callsOf k h.registered).length ≤ (callsOf k h.executed).length) {a : A}
    (ha : (a, k) ∈ h.registered) : (h.value a).isSome := by
  have hperm := (hc.calls_subperm k).perm_of_length_le hlen
  have hmem : (a, k) ∈ callsOf k h.executed := by
    rw [hperm.mem_iff]
    exact List.mem_filter.mpr ⟨ha, by simp⟩
  exact hc.fired _ (Or.inr (List.mem_of_mem_filter hmem))

/-- **ONCE EACH**: when nothing is handed over any more, a callback has been
    executed for each of its promises that is kept, as often as registered. -/
theorem Conserved.executed_perm (hc : h.Conserved) (hquiet : h.ready = []) {k : K}
    (hkept : ∀ a, (a, k) ∈ h.registered → (h.value a).isSome) :
    (callsOf k h.executed).Perm (callsOf k h.registered) := by
  refine List.perm_iff_count.mpr fun p => ?_
  by_cases hpk : p.2 = k
  · have hcount : ∀ l : List (A × K), (callsOf k l).count p = l.count p :=
      fun l => List.count_filter (by simpa using hpk)
    rw [hcount, hcount]
    have hcons := hc.conserved p.1 p.2
    rw [show (p.1, p.2) = p from rfl, hquiet, List.count_nil] at hcons
    by_cases hreg : p ∈ h.registered
    · rw [hc.settled p.1 (hkept p.1 (by rw [← hpk]; exact hreg)), List.count_nil] at hcons
      omega
    · rw [List.count_eq_zero_of_not_mem hreg] at hcons ⊢
      omega
  · have hnot : ∀ l : List (A × K), (callsOf k l).count p = 0 := by
      intro l
      refine List.count_eq_zero_of_not_mem fun hmem => hpk ?_
      simpa using (List.mem_filter.mp hmem).2
    rw [hnot, hnot]

/-- A callback that is handed over has not been executed as often as it was
    registered. -/
theorem Conserved.length_lt (hc : h.Conserved) {p : A × K} (hp : p ∈ h.ready) :
    (callsOf p.2 h.executed).length < (callsOf p.2 h.registered).length := by
  by_contra hlen
  have hperm := (hc.calls_subperm p.2).perm_of_length_le (Nat.not_lt.mp hlen)
  have hcount : ∀ l : List (A × K), (callsOf p.2 l).count p = l.count p :=
    fun l => List.count_filter (by simp)
  have hcons := hc.conserved p.1 p.2
  have heq := hperm.count_eq p
  rw [hcount, hcount] at heq
  rw [show (p.1, p.2) = p from rfl] at hcons
  have hpos := List.count_pos_iff.mpr hp
  omega

end Conservation

end Heap

/-! ## Networks of promises -/

section Networks

variable {deps deps' : A → List A} {kept : A → Prop}

/-- The first promise is one that the second waits for. -/
def Waits (deps : A → List A) (b a : A) : Prop := b ∈ deps a

/-- What is kept keeps its dependencies when the network grows. -/
theorem acc_grow (hclosed : ∀ a, kept a → ∀ b ∈ deps a, kept b)
    (hsame : ∀ a, kept a → deps' a = deps a) {a : A} (ha : kept a)
    (hacc : Acc (Waits deps) a) : Acc (Waits deps') a := by
  induction hacc with
  | intro a _ ih =>
      refine .intro a fun b hb => ?_
      rw [Waits, hsame a ha] at hb
      exact ih b hb (hclosed a ha b hb)

/-- What a promise that is kept waited for is kept. -/
theorem kept_of_path (hdeps : ∀ a, kept a → ∀ b ∈ deps a, kept b) {a b : A}
    (hpath : Relation.TransGen (Waits deps) b a) (ha : kept a) : kept b := by
  induction hpath using Relation.TransGen.head_induction_on with
  | single h => exact hdeps _ ha _ h
  | head h _ ih => exact hdeps _ ih _ h

/-- A promise on a cycle waits forever. -/
theorem not_acc_of_cycle {a : A} (hcycle : Relation.TransGen (Waits deps) a a) :
    ¬Acc (Waits deps) a := by
  intro hacc
  induction hacc.transGen with
  | intro a _ ih => exact ih a hcycle hcycle (hacc.inv_of_transGen hcycle)

end Networks

end Promise

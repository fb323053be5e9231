import Mathlib.Data.Finset.Basic
import FPApp.EventRunProofs

/-! # A local record written back by queued saves

    A record is held twice: locally, where it is written at once, and on a
    server, which it reaches by saves.  Saves run one at a time in the order
    of their calls; a save carries the keys that are pending when it *starts*,
    with their values at that moment.  A save that succeeds stores them on the
    server; one that fails changes nothing there and makes its keys pending
    again, without touching newer local values.  A save that carries nothing
    cannot fail.

    * `coherent_apply` — a key that is not pending has its local value in the
      running save or on the server;
    * `outlook_start` — the save that starts carries the whole record, as far
      as the server does not have it;
    * `Sourced` — which writes the local values, those of the running save and
      those on the server come from;
    * `sealed_done` — once a call made last has succeeded, the server holds the
      local record, whatever became of the calls before it. -/

namespace WriteBack

open EventRun

variable {K V C E W : Type} [DecidableEq K]

/-- A save under way: its call, the keys it carries and the local values at
    its start. -/
structure Flight (K V C : Type) where
  call : C
  carried : Finset K
  snapshot : K → V

/-- The record: local values and pending keys, the values on the server, the
    calls still to start, the running save, and the calls that have ended,
    each with its error, whose completion block is still to run. -/
structure Replica (K V C E : Type) where
  value : K → V
  pending : Finset K
  server : K → V
  waiting : List C
  running : Option (Flight K V C)
  finished : List (C × Option E)

namespace Replica

variable {r t : Replica K V C E}

/-- A record that the server holds too. -/
def fresh (value : K → V) : Replica K V C E where
  value := value
  pending := ∅
  server := value
  waiting := []
  running := none
  finished := []

/-- Write a key. -/
def set (r : Replica K V C E) (k : K) (v : V) : Replica K V C E :=
  { r with value := Function.update r.value k v, pending := insert k r.pending }

/-- Call for a save. -/
def call (r : Replica K V C E) (c : C) : Replica K V C E :=
  { r with waiting := r.waiting ++ [c] }

/-- Start the next save, when none is running. -/
def start (r : Replica K V C E) : Option (Replica K V C E) :=
  match r.running, r.waiting with
  | none, c :: cs =>
      some { r with
        waiting := cs
        running := some ⟨c, r.pending, r.value⟩
        pending := ∅ }
  | _, _ => none

/-- End the running save, without or with an error. -/
def finish (r : Replica K V C E) (error : Option E) : Option (Replica K V C E) :=
  match r.running, error with
  | none, _ => none
  | some f, none =>
      some { r with
        server := fun k => if k ∈ f.carried then f.snapshot k else r.server k
        running := none
        finished := r.finished ++ [(f.call, none)] }
  | some f, some e =>
      if f.carried = ∅ then none
      else
        some { r with
          pending := r.pending ∪ f.carried
          running := none
          finished := r.finished ++ [(f.call, some e)] }

/-- The completion block of an ended save runs. -/
def deliver (r : Replica K V C E) (i : Nat) : Option (Replica K V C E) :=
  if i < r.finished.length then some { r with finished := r.finished.eraseIdx i } else none

/-- The keys that the running save carries. -/
def carrying (r : Replica K V C E) : Finset K :=
  match r.running with
  | none => ∅
  | some f => f.carried

/-- What the server will hold when the running save succeeds. -/
def outlook (r : Replica K V C E) (k : K) : V :=
  match r.running with
  | none => r.server k
  | some f => if k ∈ f.carried then f.snapshot k else r.server k

/-- No save is waiting or running. -/
def Idle (r : Replica K V C E) : Prop := r.waiting = [] ∧ r.running = none

/-- A key that is not pending has its local value in the running save or on
    the server. -/
def Coherent (r : Replica K V C E) : Prop :=
  ∀ k, k ∉ r.pending → r.outlook k = r.value k

/-! ## What each operation does -/

omit [DecidableEq K] in
theorem start_cases (h : r.start = some t) :
    ∃ c cs, r.running = none ∧ r.waiting = c :: cs
      ∧ t = { r with
          waiting := cs
          running := some ⟨c, r.pending, r.value⟩
          pending := ∅ } := by
  rw [start] at h
  cases hrun : r.running with
  | some f => simp [hrun] at h
  | none =>
      cases hwait : r.waiting with
      | nil => simp [hrun, hwait] at h
      | cons c cs =>
          simp only [hrun, hwait] at h
          exact ⟨c, cs, rfl, rfl, (Option.some.inj h).symm⟩

theorem finish_cases {error : Option E} (h : r.finish error = some t) :
    ∃ f, r.running = some f
      ∧ ((error = none ∧ t = { r with
            server := fun k => if k ∈ f.carried then f.snapshot k else r.server k
            running := none
            finished := r.finished ++ [(f.call, none)] })
        ∨ (error ≠ none ∧ f.carried ≠ ∅ ∧ t = { r with
            pending := r.pending ∪ f.carried
            running := none
            finished := r.finished ++ [(f.call, error)] })) := by
  cases hrun : r.running with
  | none => simp [finish, hrun] at h
  | some f =>
      refine ⟨f, rfl, ?_⟩
      cases error with
      | none =>
          simp only [finish, hrun] at h
          exact Or.inl ⟨rfl, (Option.some.inj h).symm⟩
      | some e =>
          simp only [finish, hrun] at h
          obtain ⟨hcar, ht⟩ := Option.ite_none_left_eq_some.mp h
          exact Or.inr ⟨by simp, hcar, (Option.some.inj ht).symm⟩

omit [DecidableEq K] in
theorem deliver_cases {i : Nat} (h : r.deliver i = some t) :
    i < r.finished.length ∧ t = { r with finished := r.finished.eraseIdx i } := by
  obtain ⟨hi, ht⟩ := Option.ite_none_right_eq_some.mp h
  exact ⟨hi, (Option.some.inj ht).symm⟩

/-! ## Coherence -/

@[simp] theorem outlook_set (r : Replica K V C E) (k : K) (v : V) :
    (r.set k v).outlook = r.outlook := rfl

@[simp] theorem mem_pending_set {r : Replica K V C E} {k j : K} {v : V} :
    j ∈ (r.set k v).pending ↔ j = k ∨ j ∈ r.pending := Finset.mem_insert

@[simp] theorem value_set_same (r : Replica K V C E) (k : K) (v : V) :
    (r.set k v).value k = v := by
  rw [set]
  exact Function.update_self k v r.value

theorem value_set_ne (r : Replica K V C E) {k j : K} (v : V) (h : j ≠ k) :
    (r.set k v).value j = r.value j := by
  rw [set]
  exact Function.update_of_ne h v r.value

/-- With no save running the server is all there is. -/
theorem outlook_idle (h : r.running = none) (k : K) : r.outlook k = r.server k := by
  rw [outlook, h]

/-- A fresh record is coherent. -/
theorem coherent_fresh (value : K → V) : (fresh value : Replica K V C E).Coherent :=
  fun _ _ => rfl

theorem coherent_set (h : r.Coherent) (k : K) (v : V) : (r.set k v).Coherent := by
  intro j hj
  rw [mem_pending_set, not_or] at hj
  rw [outlook_set, value_set_ne r v hj.1]
  exact h j hj.2

theorem coherent_call (h : r.Coherent) (c : C) : (r.call c).Coherent := h

/-- **A START CARRIES THE RECORD**: right after a start the local values are in
    the running save or on the server, for every key. -/
theorem outlook_start (h : r.Coherent) (ht : r.start = some t) (k : K) :
    t.outlook k = t.value k := by
  obtain ⟨c, cs, hrun, -, rfl⟩ := start_cases ht
  show (if k ∈ r.pending then r.value k else r.server k) = r.value k
  by_cases hk : k ∈ r.pending
  · rw [if_pos hk]
  · rw [if_neg hk, ← outlook_idle hrun]
    exact h k hk

theorem coherent_start (h : r.Coherent) (ht : r.start = some t) : t.Coherent :=
  fun k _ => outlook_start h ht k

/-- A success puts the running save on the server. -/
theorem outlook_success (ht : r.finish none = some t) (k : K) :
    t.server k = r.outlook k ∧ t.outlook k = r.outlook k := by
  obtain ⟨f, hrun, ⟨-, rfl⟩ | ⟨hne, -⟩⟩ := finish_cases ht
  · rw [show r.outlook k = if k ∈ f.carried then f.snapshot k else r.server k by
      rw [outlook, hrun]]
    exact ⟨rfl, rfl⟩
  · exact absurd rfl hne

/-- A failure leaves the server and makes the carried keys pending again. -/
theorem outlook_failure {e : E} (ht : r.finish (some e) = some t) (k : K) :
    t.server k = r.server k ∧ t.outlook k = r.server k
      ∧ (k ∈ t.pending ↔ k ∈ r.pending ∨ k ∈ r.carrying) := by
  obtain ⟨f, hrun, ⟨hne, -⟩ | ⟨-, -, rfl⟩⟩ := finish_cases ht
  · exact absurd hne (by simp)
  · refine ⟨rfl, rfl, ?_⟩
    rw [show r.carrying = f.carried by rw [carrying, hrun]]
    exact Finset.mem_union

/-- A key that the running save does not carry is as the server has it. -/
theorem outlook_of_not_carrying {k : K} (h : k ∉ r.carrying) :
    r.outlook k = r.server k := by
  cases hrun : r.running with
  | none => exact outlook_idle hrun k
  | some f =>
      rw [show r.carrying = f.carried by rw [carrying, hrun]] at h
      rw [outlook, hrun]
      exact if_neg h

theorem value_finish {error : Option E} (ht : r.finish error = some t) :
    t.value = r.value ∧ t.waiting = r.waiting ∧ t.running = none := by
  obtain ⟨f, -, ⟨-, rfl⟩ | ⟨-, -, rfl⟩⟩ := finish_cases ht
  · exact ⟨rfl, rfl, rfl⟩
  · exact ⟨rfl, rfl, rfl⟩

/-- The end of a save leaves no more keys on their way than before. -/
theorem pending_of_finish {error : Option E} (ht : r.finish error = some t) {k : K}
    (hk : k ∈ t.pending ∨ k ∈ t.carrying) : k ∈ r.pending ∨ k ∈ r.carrying := by
  obtain ⟨f, hrun, ⟨-, rfl⟩ | ⟨-, -, rfl⟩⟩ := finish_cases ht
  · rcases hk with hpend | hcar
    · exact Or.inl hpend
    · exact absurd hcar (Finset.notMem_empty k)
  · rcases hk with hpend | hcar
    · rw [show r.carrying = f.carried by rw [carrying, hrun]]
      exact Finset.mem_union.mp hpend
    · exact absurd hcar (Finset.notMem_empty k)

/-- The end of a save leaves pending what was pending. -/
theorem pending_subset_finish {error : Option E} (ht : r.finish error = some t) {k : K}
    (hk : k ∈ r.pending) : k ∈ t.pending := by
  obtain ⟨f, -, ⟨-, rfl⟩ | ⟨-, -, rfl⟩⟩ := finish_cases ht
  · exact hk
  · exact Finset.mem_union_left _ hk

theorem coherent_finish {error : Option E} (h : r.Coherent) (ht : r.finish error = some t) :
    t.Coherent := by
  intro k hk
  rw [(value_finish ht).1]
  cases error with
  | none =>
      rw [(outlook_success ht k).2]
      obtain ⟨f, -, ⟨-, rfl⟩ | ⟨hne, -⟩⟩ := finish_cases ht
      · exact h k hk
      · exact absurd rfl hne
  | some e =>
      -- a key that is not pending afterwards was not in the failed save
      obtain ⟨-, hout, hpend⟩ := outlook_failure ht k
      rw [hpend, not_or] at hk
      rw [hout, ← outlook_of_not_carrying hk.2]
      exact h k hk.1

theorem coherent_deliver {i : Nat} (h : r.Coherent) (ht : r.deliver i = some t) :
    t.Coherent := by
  obtain ⟨-, rfl⟩ := deliver_cases ht
  exact h

/-- With nothing pending and no save running the server holds the record. -/
theorem server_eq_value (h : r.Coherent) (hrun : r.running = none) (hnone : r.pending = ∅)
    (k : K) : r.server k = r.value k := by
  rw [← outlook_idle hrun]
  exact h k (by rw [hnone]; exact Finset.notMem_empty k)

/-! ## Where the values come from

    Each key has a source for its local value, one for the value that the
    running save was started with, and one for the value on the server. -/

/-- The values are those that `holds` gives to the sources. -/
structure Sourced (holds : K → W → V) (writer started stored : K → W)
    (r : Replica K V C E) : Prop where
  value : ∀ k, r.value k = holds k (writer k)
  outlook : r.running ≠ none → ∀ k, r.outlook k = holds k (started k)
  server : ∀ k, r.server k = holds k (stored k)

section Sources

variable {holds : K → W → V} {writer started stored : K → W}

theorem sourced_fresh {value : K → V} (h : ∀ k, value k = holds k (writer k)) :
    Sourced holds writer started writer (fresh value : Replica K V C E) :=
  ⟨h, fun hrun => absurd rfl hrun, h⟩

/-- A write has a new source. -/
theorem sourced_set (h : Sourced holds writer started stored r) {k : K} {w : W} {v : V}
    (hv : holds k w = v) :
    Sourced holds (Function.update writer k w) started stored (r.set k v) := by
  refine ⟨?_, ?_, h.server⟩
  · intro j
    by_cases hj : j = k
    · subst hj
      rw [value_set_same, Function.update_self, hv]
    · rw [value_set_ne r v hj, Function.update_of_ne hj]
      exact h.value j
  · intro hrun j
    rw [outlook_set]
    exact h.outlook hrun j

theorem sourced_call (h : Sourced holds writer started stored r) (c : C) :
    Sourced holds writer started stored (r.call c) :=
  ⟨h.value, h.outlook, h.server⟩

/-- A start takes the local sources. -/
theorem sourced_start (hco : r.Coherent) (h : Sourced holds writer started stored r)
    (ht : r.start = some t) : Sourced holds writer writer stored t := by
  have hlook := outlook_start hco ht
  obtain ⟨c, cs, -, -, rfl⟩ := start_cases ht
  refine ⟨h.value, ?_, h.server⟩
  intro _ k
  rw [hlook k]
  exact h.value k

/-- A success brings the sources of the start to the server. -/
theorem sourced_success (h : Sourced holds writer started stored r)
    (ht : r.finish none = some t) : Sourced holds writer started started t := by
  obtain ⟨hvalue, -, hrun⟩ := value_finish ht
  obtain ⟨f, hf, -⟩ := finish_cases ht
  refine ⟨fun k => (congrFun hvalue k).trans (h.value k), fun hnone => absurd hrun hnone, ?_⟩
  intro k
  rw [(outlook_success ht k).1]
  exact h.outlook (by rw [hf]; exact Option.some_ne_none f) k

/-- A failure leaves them. -/
theorem sourced_failure {e : E} (h : Sourced holds writer started stored r)
    (ht : r.finish (some e) = some t) : Sourced holds writer started stored t := by
  obtain ⟨hvalue, -, hrun⟩ := value_finish ht
  refine ⟨fun k => (congrFun hvalue k).trans (h.value k), fun hnone => absurd hrun hnone, ?_⟩
  intro k
  rw [(outlook_failure ht k).1]
  exact h.server k

theorem sourced_deliver {i : Nat} (h : Sourced holds writer started stored r)
    (ht : r.deliver i = some t) : Sourced holds writer started stored t := by
  obtain ⟨-, rfl⟩ := deliver_cases ht
  exact ⟨h.value, h.outlook, h.server⟩

end Sources

/-! ## The operations as events -/

/-- What can happen to a record. -/
inductive Op (K V C E : Type) where
  | set (k : K) (v : V)
  | call (c : C)
  | start
  | finish (error : Option E)
  | deliver (i : Nat)

/-- One operation. -/
def apply (r : Replica K V C E) : Op K V C E → Option (Replica K V C E)
  | .set k v => some (r.set k v)
  | .call c => some (r.call c)
  | .start => r.start
  | .finish error => r.finish error
  | .deliver i => r.deliver i

/-- **COHERENCE**: every operation keeps the record coherent. -/
theorem coherent_apply {op : Op K V C E} (h : r.Coherent) (ht : r.apply op = some t) :
    t.Coherent := by
  cases op with
  | set k v =>
      rw [← Option.some.inj ht]
      exact coherent_set h k v
  | call c =>
      rw [← Option.some.inj ht]
      exact coherent_call h c
  | start => exact coherent_start h ht
  | finish error => exact coherent_finish h ht
  | deliver i => exact coherent_deliver h ht

end Replica

/-! ## Clients -/

section Client

variable {S A : Type} {step : S → A → Option S}

/-- Every step of the client leaves its record or operates on it. -/
def Operates (step : S → A → Option S) (record : S → Replica K V C E) : Prop :=
  ∀ s a t, step s a = some t →
    record t = record s ∨ ∃ op, (record s).apply op = some (record t)

/-- **COHERENT CLIENTS**: every step of a client keeps its record coherent. -/
theorem coherent_client {record : S → Replica K V C E} (hop : Operates step record) {s t : S}
    {a : A} (hs : (record s).Coherent) (ht : step s a = some t) : (record t).Coherent := by
  rcases hop s a t ht with hsame | ⟨op, hrec⟩
  · rw [hsame]
    exact hs
  · exact Replica.coherent_apply hs hrec

end Client

/-! ## The last call

    A call of the kind `p` is sealed while it is the only one of its kind in
    the queue, the last one called, and nothing was written since it started. -/

namespace Replica

omit [DecidableEq K]

variable {r t : Replica K V C E} {p : C → Bool} {c : C}

/-- The calls in the queue, from the oldest. -/
def calls (r : Replica K V C E) : List C :=
  r.finished.map Prod.fst ++ (r.running.map Flight.call).toList ++ r.waiting

/-- No call of the kind is in the queue. -/
def Without (p : C → Bool) (r : Replica K V C E) : Prop := ∀ c ∈ r.calls, p c = false

/-- The sealed call waits, runs, or has ended. -/
inductive Sealed (p : C → Bool) (c : C) (r : Replica K V C E) : Prop where
  | waits (kind : p c = true) (ws : List C) (last : r.waiting = ws ++ [c])
      (others : Without p { r with waiting := ws })
  | runs (kind : p c = true) (f : Flight K V C) (last : r.waiting = [])
      (running : r.running = some f) (call : f.call = c) (written : r.pending = ∅)
      (others : Without p { r with running := none })
  | ended (kind : p c = true) (fs : List (C × Option E)) (error : Option E)
      (idle : r.Idle) (finished : r.finished = fs ++ [(c, error)])
      (written : error = none → r.pending = ∅)
      (others : Without p { r with finished := fs })

theorem without_fresh (value : K → V) : Without p (fresh value : Replica K V C E) := by
  intro c hc
  exact absurd hc List.not_mem_nil

theorem calls_call (r : Replica K V C E) (c : C) : (r.call c).calls = r.calls ++ [c] := by
  simp [calls, call]

theorem calls_start (h : r.start = some t) : t.calls = r.calls := by
  obtain ⟨c, cs, hrun, hwait, rfl⟩ := start_cases h
  simp [calls, hrun, hwait]

theorem calls_finish [DecidableEq K] {error : Option E} (h : r.finish error = some t) :
    t.calls = r.calls := by
  obtain ⟨f, hrun, ⟨rfl, rfl⟩ | ⟨-, -, rfl⟩⟩ := finish_cases h
  · simp [calls, hrun]
  · simp [calls, hrun]

theorem mem_calls_erase (r : Replica K V C E) (i : Nat) {c : C}
    (hc : c ∈ ({ r with finished := r.finished.eraseIdx i } : Replica K V C E).calls) :
    c ∈ r.calls := by
  simp only [calls, List.mem_append] at hc ⊢
  rcases hc with (hfin | hrun) | hwait
  · obtain ⟨x, hx, rfl⟩ := List.mem_map.mp hfin
    exact Or.inl (Or.inl (List.mem_map.mpr ⟨x, List.mem_of_mem_eraseIdx hx, rfl⟩))
  · exact Or.inl (Or.inr hrun)
  · exact Or.inr hwait

/-- Another call leaves the queue without the kind. -/
theorem without_call (h : Without p r) (hc : p c = false) : Without p (r.call c) := by
  intro d hd
  rw [calls_call] at hd
  rcases List.mem_append.mp hd with hold | hnew
  · exact h d hold
  · rw [List.mem_singleton.mp hnew]
    exact hc

/-- A call of the kind is sealed when it is made. -/
theorem sealed_call (h : Without p r) (hc : p c = true) : Sealed p c (r.call c) :=
  .waits hc r.waiting rfl h

theorem sealed_kind (h : Sealed p c r) : p c = true := by
  cases h with
  | waits kind _ _ _ => exact kind
  | runs kind _ _ _ _ _ _ => exact kind
  | ended kind _ _ _ _ _ _ => exact kind

/-- The queue goes on without breaking a seal. -/
theorem sealed_start (h : Sealed p c r) (ht : r.start = some t) : Sealed p c t := by
  obtain ⟨d, ds, hrun, hwait, rfl⟩ := start_cases ht
  cases h with
  | waits kind ws last others =>
      cases ws with
      | nil =>
          rw [hwait] at last
          obtain ⟨rfl, rfl⟩ := List.cons.inj last
          -- the sealed call starts, and takes all pending keys along
          refine .runs kind _ rfl rfl rfl rfl ?_
          intro x hx
          refine others x ?_
          simpa [calls, hrun] using hx
      | cons w ws =>
          rw [hwait] at last
          obtain ⟨rfl, rfl⟩ := List.cons.inj last
          refine .waits kind ws rfl ?_
          intro x hx
          refine others x ?_
          simpa [calls, hrun] using hx
  | runs kind f last running call written others =>
      rw [hrun] at running
      exact absurd running (by simp)
  | ended kind fs error idle finished written others =>
      rw [idle.1] at hwait
      exact absurd hwait (by simp)

theorem sealed_finish [DecidableEq K] {error : Option E} (h : Sealed p c r)
    (ht : r.finish error = some t) : Sealed p c t := by
  obtain ⟨hvalue, hwait, hrun⟩ := value_finish ht
  have hcalls := calls_finish ht
  cases h with
  | waits kind ws last others =>
      refine .waits kind ws (hwait.trans last) ?_
      obtain ⟨f, hf, ⟨rfl, rfl⟩ | ⟨-, -, rfl⟩⟩ := finish_cases ht
      · intro x hx
        refine others x ?_
        simpa [calls, hf] using hx
      · intro x hx
        refine others x ?_
        simpa [calls, hf] using hx
  | runs kind f last running call written others =>
      obtain ⟨g, hg, ⟨rfl, rfl⟩ | ⟨hne, -, rfl⟩⟩ := finish_cases ht
      · -- nothing was written since the sealed call started
        obtain rfl : f = g := Option.some.inj (running.symm.trans hg)
        exact .ended kind r.finished none ⟨last, rfl⟩ (by rw [call]) (fun _ => written) others
      · obtain rfl : f = g := Option.some.inj (running.symm.trans hg)
        exact .ended kind r.finished error ⟨last, rfl⟩ (by rw [call])
          (fun hnone => absurd hnone hne) others
  | ended kind fs err idle finished written others =>
      obtain ⟨f, hf, -⟩ := finish_cases ht
      rw [idle.2] at hf
      exact absurd hf (by simp)

theorem without_deliver {i : Nat} (h : Without p r) (ht : r.deliver i = some t) :
    Without p t := by
  obtain ⟨-, rfl⟩ := deliver_cases ht
  exact fun c hc => h c (mem_calls_erase r i hc)

theorem without_start (h : Without p r) (ht : r.start = some t) : Without p t := by
  rw [Without, calls_start ht]
  exact h

theorem without_finish [DecidableEq K] {error : Option E} (h : Without p r)
    (ht : r.finish error = some t) : Without p t := by
  rw [Without, calls_finish ht]
  exact h

theorem mem_calls_of_finished (r : Replica K V C E) {x : C × Option E}
    (h : x ∈ r.finished) : x.1 ∈ r.calls := by
  rw [calls, List.append_assoc]
  exact List.mem_append_left _ (List.mem_map.mpr ⟨x, h, rfl⟩)

/-- A completion block runs: another call's, under the seal, or that of the
    sealed call, when the queue is idle. -/
theorem sealed_deliver {i : Nat} {x : C × Option E} (h : Sealed p c r)
    (hx : r.finished[i]? = some x) (ht : r.deliver i = some t) :
    (p x.1 = false ∧ Sealed p c t)
      ∨ (x.1 = c ∧ Without p t ∧ r.Idle ∧ (x.2 = none → r.pending = ∅)) := by
  have hmem : x ∈ r.finished := List.mem_of_getElem? hx
  cases h with
  | waits kind ws last others =>
      refine Or.inl ⟨others x.1 (mem_calls_of_finished { r with waiting := ws } hmem), ?_⟩
      obtain ⟨-, rfl⟩ := deliver_cases ht
      refine .waits kind ws last ?_
      exact fun d hd => others d (mem_calls_erase { r with waiting := ws } i hd)
  | runs kind f last running call written others =>
      refine Or.inl ⟨others x.1 (mem_calls_of_finished { r with running := none } hmem), ?_⟩
      obtain ⟨-, rfl⟩ := deliver_cases ht
      refine .runs kind f last running call written ?_
      exact fun d hd => others d (mem_calls_erase { r with running := none } i hd)
  | ended kind fs error idle finished written others =>
      obtain ⟨hi, rfl⟩ := deliver_cases ht
      rw [finished] at hx hi
      by_cases hlt : i < fs.length
      · -- the block of an earlier call
        rw [List.getElem?_append_left hlt] at hx
        refine Or.inl ⟨others x.1 (mem_calls_of_finished { r with finished := fs }
          (List.mem_of_getElem? hx)), ?_⟩
        refine .ended kind (fs.eraseIdx i) error idle ?_ written ?_
        · show r.finished.eraseIdx i = fs.eraseIdx i ++ [(c, error)]
          rw [finished, List.eraseIdx_append_of_lt_length hlt]
        · exact fun d hd => others d (mem_calls_erase { r with finished := fs } i hd)
      · -- the block of the sealed call
        have hlast : i = fs.length := by
          rw [List.length_append, List.length_singleton] at hi
          omega
        subst hlast
        rw [List.getElem?_append_right (Nat.le_refl _), Nat.sub_self] at hx
        obtain rfl : (c, error) = x := Option.some.inj hx
        refine Or.inr ⟨rfl, ?_, idle, written⟩
        have hfs : r.finished.eraseIdx fs.length = fs := by
          rw [finished, List.eraseIdx_append_of_length_le (Nat.le_refl _), Nat.sub_self]
          exact List.append_nil fs
        rw [hfs]
        exact others

/-- **THE LAST CALL FLUSHES**: when the sealed call has succeeded the server
    holds the local record. -/
theorem sealed_done [DecidableEq K] {i : Nat} (hco : r.Coherent) (h : Sealed p c r) {d : C}
    (hd : p d = true) (hx : r.finished[i]? = some (d, none)) :
    d = c ∧ ∀ k, r.server k = r.value k := by
  have ht : r.deliver i = some { r with finished := r.finished.eraseIdx i } :=
    if_pos (List.getElem?_eq_some_iff.mp hx).1
  rcases sealed_deliver h hx ht with ⟨hother, -⟩ | ⟨hsame, -, hidle, hpending⟩
  · exact absurd (hd.symm.trans hother) Bool.true_eq_false.mp
  · exact ⟨hsame, server_eq_value hco hidle.2 (hpending rfl)⟩

end Replica

end WriteBack

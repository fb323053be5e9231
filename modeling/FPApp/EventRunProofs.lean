import Mathlib.Data.List.Infix
import Mathlib.Data.List.Induction

/-! # Runs of event-driven machines

    A machine is a partial step function `step : S → E → Option S`: `none`
    says that the event cannot be delivered in that state.  A run delivers a
    list of events from left to right.

    * `Visits` — the states a run goes through, each with the events already
      delivered;
    * `Fires` — the events a run delivers, each with its state and history;
    * `visits_inv` — an invariant that every delivered step keeps, as long as
      the steps meet a condition `C`, holds in every visited state;
    * `fires_iff` and `visits_iff` — a law holds along a run exactly when
      every delivered step meets `C`: the good steps keep the invariant, and a
      bad step breaks the law at once;
    * `collect` — what is picked from the events of a run; `run_collect` follows
      the part of a run that another machine makes;
    * `Endless` — runs without an end, and `Endless.eventually`: what must
      come about when a measure keeps falling until it does.

    Conditions and invariants may look at the history, so that a law about the
    order of events needs no ghost field in the state. -/

namespace EventRun

variable {S E : Type} {step : S → E → Option S} {s : S} {es : List E}

/-- Deliver a list of events; `none` as soon as one cannot be delivered. -/
def run (step : S → E → Option S) : S → List E → Option S
  | s, [] => some s
  | s, e :: es => (step s e).bind fun t => run step t es

/-- The run from `s` on `es` is in state `t` once `pre` has been delivered. -/
def Visits (step : S → E → Option S) (s : S) (es pre : List E) (t : S) : Prop :=
  pre <+: es ∧ run step s pre = some t

/-- The run from `s` on `es` delivers `e` in state `t`, after `pre`. -/
def Fires (step : S → E → Option S) (s : S) (es pre : List E) (t : S) (e : E) :
    Prop :=
  pre ++ [e] <+: es ∧ run step s pre = some t ∧ ∃ u, step t e = some u

theorem run_cons (e : E) (es : List E) :
    run step s (e :: es) = (step s e).bind fun t => run step t es := rfl

/-- Runs compose. -/
theorem run_append (es fs : List E) :
    ∀ s : S, run step s (es ++ fs) = (run step s es).bind fun t => run step t fs := by
  induction es with
  | nil => intro s; rfl
  | cons e es ih =>
      intro s
      rw [List.cons_append, run_cons, run_cons]
      cases step s e with
      | none => rfl
      | some t => exact ih t

/-- The last step of a run. -/
theorem run_concat {pre : List E} {e : E} {u : S} :
    run step s (pre ++ [e]) = some u
      ↔ ∃ t, run step s pre = some t ∧ step t e = some u := by
  rw [run_append, Option.bind_eq_some_iff]
  constructor
  · rintro ⟨t, ht, hu⟩
    rw [run_cons] at hu
    obtain ⟨v, hv, hvu⟩ := Option.bind_eq_some_iff.mp hu
    exact ⟨t, ht, by rw [hv]; exact hvu⟩
  · rintro ⟨t, ht, hu⟩
    exact ⟨t, ht, by rw [run_cons, hu]; rfl⟩

/-- Every visited state but the first is reached by a delivered event. -/
theorem visits_concat {pre : List E} {e : E} {u : S}
    (h : Visits step s es (pre ++ [e]) u) :
    ∃ t, Visits step s es pre t ∧ Fires step s es pre t e ∧ step t e = some u := by
  obtain ⟨hpre, hrun⟩ := h
  obtain ⟨t, ht, hu⟩ := run_concat.mp hrun
  exact ⟨t, ⟨(List.prefix_append pre [e]).trans hpre, ht⟩,
    ⟨hpre, ht, u, hu⟩, hu⟩

/-- A delivered event starts in a visited state. -/
theorem Fires.visits {pre : List E} {t : S} {e : E}
    (h : Fires step s es pre t e) : Visits step s es pre t :=
  ⟨(List.prefix_append pre [e]).trans h.1, h.2.1⟩

/-- A delivered event leads to a visited state. -/
theorem Fires.visits_next {pre : List E} {t u : S} {e : E}
    (h : Fires step s es pre t e) (hu : step t e = some u) :
    Visits step s es (pre ++ [e]) u :=
  ⟨h.1, run_concat.mpr ⟨t, h.2.1, hu⟩⟩

/-- What fires in the run on a prefix fires in the whole run. -/
theorem Fires.mono {fs pre : List E} {t : S} {e : E} (hpre : fs <+: es)
    (h : Fires step s fs pre t e) : Fires step s es pre t e :=
  ⟨h.1.trans hpre, h.2⟩

/-- What fires in a longer run: what fired before, and its last event. -/
theorem fires_concat {pre fpre : List E} {e f : E} {t : S}
    (h : Fires step s (pre ++ [e]) fpre t f) :
    Fires step s pre fpre t f ∨ (fpre = pre ∧ f = e ∧ run step s pre = some t) := by
  rcases List.prefix_concat_iff.mp h.1 with heq | hlt
  · obtain ⟨hpre, hlast⟩ := List.append_inj' heq rfl
    subst hpre
    injection hlast with hf _
    exact Or.inr ⟨rfl, hf, h.2.1⟩
  · exact Or.inl ⟨hlt, h.2⟩

/-! ## The invariant rule -/

section Rules

variable (Inv : List E → S → Prop) (C : List E → S → E → Prop)

/-- **INVARIANT RULE**: when the steps that meet `C` keep `Inv`, and all
    delivered steps meet `C`, every visited state satisfies `Inv`. -/
theorem visits_inv (h0 : Inv [] s)
    (hstep : ∀ pre t e u, Inv pre t → C pre t e → step t e = some u →
      Inv (pre ++ [e]) u)
    (hC : ∀ pre t e, Fires step s es pre t e → C pre t e) :
    ∀ pre t, Visits step s es pre t → Inv pre t := by
  intro pre
  induction pre using List.reverseRecOn with
  | nil =>
      intro t ht
      rw [← Option.some.inj ht.2]
      exact h0
  | append_singleton pre e ih =>
      intro u hu
      obtain ⟨t, ht, hfire, hstep'⟩ := visits_concat hu
      exact hstep pre t e u (ih t ht) (hC pre t e hfire) hstep'

/-- **EXACT CONDITION, for delivered events**: if under the invariant the law
    `Q` of a step is its condition `C`, and `C` keeps the invariant, then the
    law holds of all steps of a run exactly when the condition does. -/
theorem fires_iff {Q : List E → S → E → Prop} (h0 : Inv [] s)
    (hstep : ∀ pre t e u, Inv pre t → C pre t e → step t e = some u →
      Inv (pre ++ [e]) u)
    (hQ : ∀ pre t e u, Inv pre t → step t e = some u → (Q pre t e ↔ C pre t e)) :
    (∀ pre t e, Fires step s es pre t e → Q pre t e)
      ↔ (∀ pre t e, Fires step s es pre t e → C pre t e) := by
  constructor
  · intro hall
    -- by induction on the history: all earlier steps met the condition
    have key : ∀ pre, ∀ f fpre t, Fires step s pre fpre t f →
        (∀ fpre t f, Fires step s pre fpre t f → Q fpre t f) → C fpre t f := by
      intro pre
      induction pre using List.reverseRecOn with
      | nil =>
          intro f fpre t hf _
          have := List.prefix_nil.mp hf.1
          simp at this
      | append_singleton pre e ih =>
          intro f fpre t hf hlaw
          rcases fires_concat hf with hold | ⟨rfl, rfl, -⟩
          · refine ih f fpre t hold ?_
            intro a b c habc
            exact hlaw a b c (habc.mono (List.prefix_append _ _))
          · obtain ⟨u, hu⟩ := hf.2.2
            have hinv : Inv fpre t := by
              have hvis : Visits step s fpre fpre t := ⟨List.prefix_rfl, hf.2.1⟩
              refine visits_inv Inv C h0 hstep ?_ fpre t hvis
              intro gpre g e' hg
              refine ih e' gpre g hg ?_
              intro a b c habc
              exact hlaw a b c (habc.mono (List.prefix_append _ _))
            exact (hQ fpre t f u hinv hu).mp (hlaw fpre t f hf)
    intro pre t e hf
    exact key es e pre t hf hall
  · intro hC pre t e hf
    obtain ⟨u, hu⟩ := hf.2.2
    have hinv := visits_inv Inv C h0 hstep hC pre t hf.visits
    exact (hQ pre t e u hinv hu).mpr (hC pre t e hf)

/-- **EXACT CONDITION, for visited states**, of a run whose steps all meet an
    assumption `A`: the good steps keep an invariant that implies the law, and a
    bad step leads to a state that breaks it. -/
theorem visits_law_iff {A : S → E → Prop} {P : List E → S → Prop}
    (hA : ∀ pre t e, Fires step s es pre t e → A t e) (h0 : Inv [] s)
    (hstep : ∀ pre t e u, Inv pre t → A t e → C pre t e → step t e = some u →
      Inv (pre ++ [e]) u)
    (hP : ∀ pre t, Inv pre t → P pre t)
    (hbad : ∀ pre t e u, Inv pre t → A t e → ¬ C pre t e → step t e = some u →
      ¬ P (pre ++ [e]) u) :
    (∀ pre t, Visits step s es pre t → P pre t)
      ↔ (∀ pre t e, Fires step s es pre t e → C pre t e) := by
  constructor
  · intro hall
    have hC : ∀ pre t e, Inv pre t → Fires step s es pre t e → C pre t e := by
      intro pre t e hinv hf
      obtain ⟨u, hu⟩ := hf.2.2
      by_contra hno
      exact hbad pre t e u hinv (hA pre t e hf) hno hu (hall _ u (hf.visits_next hu))
    -- along the history: every step so far met the condition
    have hinv : ∀ pre t, Visits step s es pre t → Inv pre t := by
      intro pre
      induction pre using List.reverseRecOn with
      | nil =>
          intro t ht
          rw [← Option.some.inj ht.2]
          exact h0
      | append_singleton pre e ih =>
          intro u hu
          obtain ⟨t, ht, hf, hlast⟩ := visits_concat hu
          exact hstep pre t e u (ih t ht) (hA pre t e hf) (hC pre t e (ih t ht) hf) hlast
    intro pre t e hf
    exact hC pre t e (hinv pre t hf.visits) hf
  · intro hC pre t ht
    refine hP pre t (visits_inv Inv (fun pre t e => A t e ∧ C pre t e) h0 ?_ ?_ pre t ht)
    · intro pre t e u hi hac hu
      exact hstep pre t e u hi hac.1 hac.2 hu
    · intro pre t e hf
      exact ⟨hA pre t e hf, hC pre t e hf⟩

/-- **EXACT CONDITION, for visited states**: the good steps keep an invariant
    that implies the law, and a bad step leads to a state that breaks it. -/
theorem visits_iff {P : S → Prop} (h0 : Inv [] s)
    (hstep : ∀ pre t e u, Inv pre t → C pre t e → step t e = some u →
      Inv (pre ++ [e]) u)
    (hP : ∀ pre t, Inv pre t → P t)
    (hbad : ∀ pre t e u, Inv pre t → ¬ C pre t e → step t e = some u → ¬ P u) :
    (∀ pre t, Visits step s es pre t → P t)
      ↔ (∀ pre t e, Fires step s es pre t e → C pre t e) :=
  visits_law_iff (A := fun _ _ => True) (P := fun _ => P) Inv C (fun _ _ _ _ => trivial) h0
    (fun pre t e u hi _ hC hu => hstep pre t e u hi hC hu) hP
    (fun pre t e u hi _ hC hu => hbad pre t e u hi hC hu)

end Rules

/-- The invariant rule without a condition on the steps. -/
theorem visits_always (P : S → Prop) (h0 : P s)
    (hstep : ∀ t e u, P t → step t e = some u → P u) :
    ∀ pre t, Visits step s es pre t → P t :=
  visits_inv (fun _ t => P t) (fun _ _ _ => True) h0
    (fun _ t e u ht _ hu => hstep t e u ht hu) (fun _ _ _ _ => trivial)

/-! ## Conditions along a given run -/

/-- Every step that the run delivers meets `C`. -/
def Along (step : S → E → Option S) (C : S → E → Prop) : S → List E → Prop
  | _, [] => True
  | s, e :: es =>
      match step s e with
      | none => True
      | some t => C s e ∧ Along step C t es

theorem fires_of_along {C : S → E → Prop} :
    ∀ (es : List E) (s : S), Along step C s es →
      ∀ pre t e, Fires step s es pre t e → C t e := by
  intro es
  induction es with
  | nil =>
      intro s _ pre t e hf
      exact absurd (List.prefix_nil.mp hf.1) (by simp)
  | cons f es ih =>
      intro s halong pre t e hf
      obtain ⟨hpre, hrun, u, hu⟩ := hf
      cases pre with
      | nil =>
          obtain ⟨rfl, -⟩ := List.cons_prefix_cons.mp hpre
          obtain rfl : s = t := Option.some.inj hrun
          rw [Along, hu] at halong
          exact halong.1
      | cons g pre =>
          obtain ⟨rfl, htail⟩ := List.cons_prefix_cons.mp hpre
          rw [run_cons] at hrun
          obtain ⟨v, hv, hrest⟩ := Option.bind_eq_some_iff.mp hrun
          rw [Along, hv] at halong
          exact ih v halong.2 pre t e ⟨htail, hrest, u, hu⟩

/-- A run that ends is in its last state, or delivers another event. -/
theorem visits_of_along {P : S → Prop} {t : S} (ht : run step s es = some t) (hlast : P t)
    (halong : Along step (fun s _ => P s) s es) :
    ∀ pre u, Visits step s es pre u → P u := by
  rintro pre u ⟨⟨rest, rfl⟩, hu⟩
  cases rest with
  | nil =>
      rw [List.append_nil, hu] at ht
      rw [Option.some.inj ht]
      exact hlast
  | cons e rest =>
      rw [run_append, hu, Option.bind_some, run_cons] at ht
      obtain ⟨v, hv, -⟩ := Option.bind_eq_some_iff.mp ht
      refine fires_of_along _ s halong pre u e ⟨⟨rest, ?_⟩, hu, v, hv⟩
      rw [List.append_assoc]
      rfl

/-! ## What a run collects -/

section Collect

variable {V S' E' : Type} {step' : S' → E' → Option S'}

/-- An induction on the events of a run, from its end. -/
theorem run_inv (Inv : List E → S → Prop) (h0 : Inv [] s)
    (hstep : ∀ pre t e u, run step s pre = some t → Inv pre t → step t e = some u →
      Inv (pre ++ [e]) u) :
    ∀ {es : List E} {t : S}, run step s es = some t → Inv es t := by
  intro es
  induction es using List.reverseRecOn with
  | nil =>
      intro t ht
      rw [← Option.some.inj ht]
      exact h0
  | append_singleton pre e ih =>
      intro u hu
      obtain ⟨t, ht, hlast⟩ := run_concat.mp hu
      exact hstep pre t e u ht (ih ht) hlast

/-- What `f` picks from the events of a run, in their order. -/
def collect (step : S → E → Option S) (f : S → E → Option V) : S → List E → List V
  | _, [] => []
  | s, e :: es =>
      match step s e with
      | none => []
      | some t => (f s e).toList ++ collect step f t es

theorem collect_concat (f : S → E → Option V) {e : E} {u : S} :
    ∀ {es : List E} {s t : S}, run step s es = some t → step t e = some u →
      collect step f s (es ++ [e]) = collect step f s es ++ (f t e).toList := by
  intro es
  induction es with
  | nil =>
      intro s t ht hu
      obtain rfl : s = t := Option.some.inj ht
      rw [List.nil_append, collect, collect, hu]
      show (f s e).toList ++ [] = [] ++ (f s e).toList
      rw [List.append_nil, List.nil_append]
  | cons first es ih =>
      intro s t ht hu
      rw [run_cons] at ht
      obtain ⟨v, hv, hrest⟩ := Option.bind_eq_some_iff.mp ht
      rw [List.cons_append, collect, collect, hv]
      show (f s first).toList ++ collect step f v (es ++ [e]) = _
      rw [ih hrest hu, ← List.append_assoc]

/-- A machine drives a smaller one: `f` says what an event means to it, and the
    event moves a part of the state as the smaller machine does, or leaves that
    part alone. -/
def Drives (step : S → E → Option S) (step' : S' → E' → Option S') (part : S → S')
    (f : S → E → Option E') : Prop :=
  ∀ t e u, step t e = some u →
    (f t e = none ∧ part u = part t)
      ∨ ∃ a, f t e = some a ∧ step' (part t) a = some (part u)

/-- The runs of a machine are runs of those that it drives. -/
theorem run_collect {part : S → S'} {f : S → E → Option E'} (h : Drives step step' part f)
    {t : S} (ht : run step s es = some t) :
    run step' (part s) (collect step f s es) = some (part t) := by
  refine run_inv (fun es t => run step' (part s) (collect step f s es) = some (part t)) rfl ?_ ht
  intro pre t e u hpre hrun hu
  rw [collect_concat f hpre hu]
  rcases h t e u hu with ⟨hnone, hsame⟩ | ⟨a, hsome, hmove⟩
  · rw [hnone, Option.toList_none, List.append_nil, hsame]
    exact hrun
  · rw [hsome]
    exact run_concat.mpr ⟨part t, hrun, hmove⟩

/-- What `g` picks from the run of the smaller machine, `k` picks from the
    events that it comes from. -/
theorem collect_collect {part : S → S'} {f : S → E → Option E'} (h : Drives step step' part f)
    {g : S' → E' → Option V} {k : S → E → Option V}
    (hpick : ∀ t e u, step t e = some u → k t e = (f t e).bind (g (part t))) {t : S}
    (ht : run step s es = some t) :
    collect step' g (part s) (collect step f s es) = collect step k s es := by
  refine run_inv (fun es _ => collect step' g (part s) (collect step f s es)
    = collect step k s es) rfl ?_ ht
  intro pre t e u hpre hsame hu
  rw [collect_concat f hpre hu, collect_concat k hpre hu, hpick t e u hu]
  rcases h t e u hu with ⟨hnone, -⟩ | ⟨a, hsome, hmove⟩
  · rw [hnone, Option.toList_none, List.append_nil, hsame]
    exact (List.append_nil _).symm
  · rw [hsome, Option.toList_some, collect_concat g (run_collect h hpre) hmove, hsame]
    rfl

end Collect

/-! ## Endless runs -/

/-- A run without an end: its states, its events, and that they fit. -/
structure Endless (step : S → E → Option S) (s : S) where
  state : Nat → S
  event : Nat → E
  start : state 0 = s
  next : ∀ n, step (state n) (event n) = some (state (n + 1))

namespace Endless

/-- The invariant rule: good steps keep the invariant, and all are good. -/
theorem always (r : Endless step s) (Inv : S → Prop) (C : S → E → Prop) (h0 : Inv s)
    (hstep : ∀ t e u, Inv t → C t e → step t e = some u → Inv u)
    (hC : ∀ n, C (r.state n) (r.event n)) : ∀ n, Inv (r.state n) := by
  intro n
  induction n with
  | zero =>
      rw [r.start]
      exact h0
  | succ n ih => exact hstep _ _ _ ih (hC n) (r.next n)

/-- What every step keeps stays. -/
theorem stays (r : Endless step s) {P : S → Prop}
    (hstep : ∀ n, P (r.state n) → P (r.state (n + 1))) {n : Nat} (hn : P (r.state n)) :
    ∀ m, n ≤ m → P (r.state m) := by
  intro m hm
  induction m, hm using Nat.le_induction with
  | base => exact hn
  | succ m _ ih => exact hstep m ih

/-- A measure that never grows, and falls again and again until `P` holds:
    then `P` comes to hold. -/
theorem eventually (r : Endless step s) (measure : S → Nat) {P : S → Prop}
    (hmono : ∀ n, measure (r.state (n + 1)) ≤ measure (r.state n))
    (hfalls : ∀ n, ∃ m, n ≤ m ∧
      (P (r.state m) ∨ measure (r.state (m + 1)) < measure (r.state m))) :
    ∃ n, P (r.state n) := by
  have hanti : ∀ n m, n ≤ m → measure (r.state m) ≤ measure (r.state n) := by
    intro n m hm
    exact r.stays (P := fun t => measure t ≤ measure (r.state n))
      (fun k hk => (hmono k).trans hk) le_rfl m hm
  -- induction on a bound of the measure, over all starting points
  have hbound : ∀ k n, measure (r.state n) ≤ k → ∃ m, P (r.state m) := by
    intro k
    induction k with
    | zero =>
        intro n hk
        obtain ⟨m, hnm, hP | hfall⟩ := hfalls n
        · exact ⟨m, hP⟩
        · have := hanti n m hnm
          omega
    | succ k ih =>
        intro n hk
        obtain ⟨m, hnm, hP | hfall⟩ := hfalls n
        · exact ⟨m, hP⟩
        · have hm := hanti n m hnm
          exact ih (m + 1) (by omega)
  exact hbound _ 0 le_rfl

/-- The image of an endless run under a simulation. -/
def map {S' E' : Type} {step' : S' → E' → Option S'} (r : Endless step s) (f : S → S')
    (g : S → E → E')
    (h : ∀ n, step' (f (r.state n)) (g (r.state n) (r.event n)) = some (f (r.state (n + 1)))) :
    Endless step' (f s) where
  state n := f (r.state n)
  event n := g (r.state n) (r.event n)
  start := congrArg f r.start
  next := h

end Endless

end EventRun

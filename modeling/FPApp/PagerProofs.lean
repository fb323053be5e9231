import FPApp.EventRunProofs
import Mathlib.Data.Nat.Basic
import Mathlib.Tactic.Set

/-! # Paging by a growing limit

    A list is shown a page at a time by querying its first `limit` items
    again with a larger limit.  A request for more is taken only when as many
    items are shown as were asked for.

    * `Pager` — the limit, the items shown, the limits of the queries in
      flight, and how many were issued and answered;
    * `Tidy` — at most one query is in flight, the last one issued, and while
      it is, fewer items are shown than it asks for;
    * `stalled_answer` — which answers leave a list that cannot be continued;
    * `answer_shows` — the answer to query `k` shows the first
      `first + size * k` items of the snapshot it was taken from;
    * `endless_settles` — when the list does not change and a reader keeps
      asking for more, exactly `pages N` queries are issued, and all `N` items
      are shown. -/

namespace Paging

open EventRun

/-- The first limit, and by how much it grows. -/
structure Plan where
  first : Nat
  size : Nat
  first_pos : 0 < first
  size_pos : 0 < size

namespace Plan

/-- The limit of query `k`. -/
def limit (plan : Plan) (k : Nat) : Nat := plan.first + plan.size * k

/-- How many queries it takes to show `N` items and to see that there are no
    more. -/
def pages (plan : Plan) (N : Nat) : Nat := (N + plan.size - plan.first) / plan.size + 1

theorem limit_succ (plan : Plan) (k : Nat) :
    plan.limit (k + 1) = plan.limit k + plan.size := by
  rw [limit, limit, Nat.mul_succ, Nat.add_assoc]

/-- Query `k` is needed exactly when there are as many items as all the
    limits before it. -/
theorem lt_pages_iff (plan : Plan) (k N : Nat) :
    k + 1 < plan.pages N ↔ plan.limit k ≤ N := by
  have hsize := plan.size_pos
  have hdiv : k + 1 ≤ (N + plan.size - plan.first) / plan.size
      ↔ (k + 1) * plan.size ≤ N + plan.size - plan.first :=
    Nat.le_div_iff_mul_le hsize
  have hmul : (k + 1) * plan.size = plan.size * k + plan.size := by
    rw [Nat.succ_mul, Nat.mul_comm]
  rw [pages, limit, Nat.add_lt_add_iff_right]
  constructor
  · intro h
    have hle := hdiv.mp h
    omega
  · intro h
    refine hdiv.mpr ?_
    omega

end Plan

/-- A paged list. -/
structure Pager (Item : Type) where
  limit : Nat
  shown : List Item
  outstanding : List Nat
  issued : Nat
  answered : Nat

/-- What happens to a paged list: nothing, a request for more, and the answer
    to a query in flight; `none` is a failure. -/
inductive Action (Item : Type) where
  | idle
  | more
  | answer (i : Nat) (found : Option (List Item))

namespace Pager

variable {Item : Type}

/-- The list is opened, and the first query issued. -/
def opened (plan : Plan) : Pager Item where
  limit := plan.first
  shown := []
  outstanding := [plan.first]
  issued := 1
  answered := 0

/-- A request for more. -/
def more (size : Nat) (p : Pager Item) : Pager Item :=
  if p.limit ≤ p.shown.length then
    { p with limit := p.limit + size, outstanding := p.outstanding ++ [p.limit + size],
             issued := p.issued + 1 }
  else p

/-- One action. -/
def step (size : Nat) (p : Pager Item) : Action Item → Option (Pager Item)
  | .idle => some p
  | .more => some (p.more size)
  | .answer i found =>
      match p.outstanding[i]? with
      | none => none
      | some _ =>
          some { p with shown := found.getD p.shown, outstanding := p.outstanding.eraseIdx i,
                        answered := p.answered + 1 }

/-- An answer has no more items than its query asked for. -/
def Within (p : Pager Item) : Action Item → Prop
  | .answer i (some found) => ∀ limit, p.outstanding[i]? = some limit → found.length ≤ limit
  | _ => True

/-- No query is in flight, or one: the last one issued, for more items than
    are shown. -/
inductive Flight (p : Pager Item) : Prop where
  | none (outstanding : p.outstanding = []) (answered : p.answered = p.issued)
      (shown : p.shown.length ≤ p.limit)
  | one (outstanding : p.outstanding = [p.limit]) (answered : p.answered + 1 = p.issued)
      (shown : p.shown.length < p.limit)

/-- The limit is that of the last query, and queries go one at a time. -/
structure Tidy (plan : Plan) (p : Pager Item) : Prop where
  issued : 0 < p.issued
  limit : p.limit = plan.limit (p.issued - 1)
  flight : p.Flight

variable {plan : Plan} {p q : Pager Item}

theorem tidy_opened (plan : Plan) : (opened plan : Pager Item).Tidy plan :=
  ⟨Nat.one_pos, rfl, .one rfl rfl plan.first_pos⟩

/-- A request for more issues a query, or does nothing. -/
theorem more_cases (size : Nat) (p : Pager Item) :
    (p.limit ≤ p.shown.length ∧ p.more size = { p with
        limit := p.limit + size, outstanding := p.outstanding ++ [p.limit + size],
        issued := p.issued + 1 })
    ∨ (p.shown.length < p.limit ∧ p.more size = p) := by
  by_cases hfull : p.limit ≤ p.shown.length
  · exact Or.inl ⟨hfull, if_pos hfull⟩
  · exact Or.inr ⟨Nat.lt_of_not_le hfull, if_neg hfull⟩

/-- An answer belongs to a query in flight. -/
theorem answer_cases {size i : Nat} {found : Option (List Item)}
    (h : p.step size (.answer i found) = some q) :
    ∃ limit, p.outstanding[i]? = some limit ∧ q = { p with
      shown := found.getD p.shown, outstanding := p.outstanding.eraseIdx i,
      answered := p.answered + 1 } := by
  rw [step] at h
  cases hget : p.outstanding[i]? with
  | none =>
      rw [hget] at h
      exact absurd h.symm (Option.some_ne_none q)
  | some limit =>
      rw [hget] at h
      exact ⟨limit, rfl, (Option.some.inj h).symm⟩

/-- Only a successful answer changes what is shown. -/
theorem shown_step {size : Nat} {a : Action Item}
    (hnone : ∀ i found, a ≠ .answer i (some found)) (h : p.step size a = some q) :
    q.shown = p.shown := by
  cases a with
  | idle =>
      obtain rfl : p = q := Option.some.inj h
      rfl
  | more =>
      obtain rfl : p.more size = q := Option.some.inj h
      rcases more_cases size p with ⟨-, heq⟩ | ⟨-, heq⟩ <;> rw [heq]
  | answer i found =>
      obtain ⟨limit, -, rfl⟩ := answer_cases h
      cases found with
      | none => rfl
      | some items => exact absurd rfl (hnone i items)

theorem Flight.at_most_one (hp : p.Flight) : p.outstanding.length ≤ 1 := by
  cases hp with
  | none outstanding _ _ =>
      rw [outstanding]
      exact Nat.zero_le 1
  | one outstanding _ _ => rw [outstanding, List.length_singleton]

/-- A query in flight asks for more items than are shown. -/
theorem Flight.beyond (hp : p.Flight) (h : p.outstanding ≠ []) : p.shown.length < p.limit := by
  cases hp with
  | none outstanding _ _ => exact absurd outstanding h
  | one _ _ shown => exact shown

/-- Every query issued was answered or is in flight. -/
theorem Flight.counted (hp : p.Flight) : p.answered + p.outstanding.length = p.issued := by
  cases hp with
  | none outstanding answered _ =>
      rw [outstanding]
      exact answered
  | one outstanding answered _ =>
      rw [outstanding]
      exact answered

/-- The only query in flight is the last one issued. -/
theorem Tidy.flying (hp : p.Tidy plan) {i limit : Nat} (hget : p.outstanding[i]? = some limit) :
    i = 0 ∧ limit = plan.limit p.answered ∧ limit = p.limit ∧ p.outstanding = [p.limit]
      ∧ p.answered + 1 = p.issued ∧ p.shown.length < p.limit := by
  cases hp.flight with
  | none outstanding _ _ =>
      rw [outstanding] at hget
      exact absurd hget.symm (Option.some_ne_none limit)
  | one outstanding answered shown =>
      rw [outstanding] at hget
      obtain ⟨hlt, rfl⟩ := List.getElem?_eq_some_iff.mp hget
      have hi : i = 0 := Nat.lt_one_iff.mp hlt
      subst hi
      have hlimit : p.limit = plan.limit p.answered := by
        rw [hp.limit, ← answered, Nat.add_sub_cancel]
      exact ⟨rfl, hlimit, rfl, outstanding, answered, shown⟩

/-- **TIDY STEP**: paging stays tidy as long as no answer has more items than
    its query asked for. -/
theorem tidy_step {a : Action Item} (hp : p.Tidy plan) (hwithin : p.Within a)
    (h : p.step plan.size a = some q) : q.Tidy plan := by
  cases a with
  | idle =>
      obtain rfl : p = q := Option.some.inj h
      exact hp
  | more =>
      obtain rfl : p.more plan.size = q := Option.some.inj h
      rcases more_cases plan.size p with ⟨hfull, heq⟩ | ⟨-, heq⟩
      · rw [heq]
        -- a full list has no query in flight
        cases hp.flight with
        | none outstanding answered shown =>
            refine ⟨Nat.succ_pos _, ?_, .one ?_ ?_ ?_⟩
            · show p.limit + plan.size = plan.limit (p.issued + 1 - 1)
              have hsucc : p.issued + 1 - 1 = (p.issued - 1) + 1 := by
                have := hp.issued
                omega
              rw [hsucc, Plan.limit_succ, hp.limit]
            · show p.outstanding ++ [p.limit + plan.size] = [p.limit + plan.size]
              rw [outstanding]
              rfl
            · exact congrArg (· + 1) answered
            · have := plan.size_pos
              exact Nat.lt_of_le_of_lt shown (Nat.lt_add_of_pos_right this)
        | one _ _ shown => exact absurd hfull (Nat.not_le_of_lt shown)
      · rw [heq]
        exact hp
  | answer i found =>
      obtain ⟨limit, hget, rfl⟩ := answer_cases h
      obtain ⟨rfl, -, rfl, outstanding, answered, shown⟩ := hp.flying hget
      refine ⟨hp.issued, hp.limit, .none ?_ answered ?_⟩
      · show p.outstanding.eraseIdx 0 = []
        rw [outstanding]
        rfl
      · show (found.getD p.shown).length ≤ p.limit
        cases found with
        | none => exact shown.le
        | some items => exact hwithin p.limit hget

/-! ## Stalling -/

/-- Nothing is in flight, fewer than the `N` items that there are are shown,
    and a request for more does nothing. -/
structure Stalled (N : Nat) (p : Pager Item) : Prop where
  outstanding : p.outstanding = []
  fewer : p.shown.length < N
  less : p.shown.length < p.limit

/-- A request for more issues a query exactly when the last page was full. -/
theorem more_issues_iff (size : Nat) (p : Pager Item) :
    p.issued < (p.more size).issued ↔ p.limit ≤ p.shown.length := by
  rcases more_cases size p with ⟨hfull, heq⟩ | ⟨hless, heq⟩
  · rw [heq]
    exact iff_of_true (Nat.lt_succ_self _) hfull
  · rw [heq]
    exact iff_of_false (Nat.lt_irrefl _) (Nat.not_le_of_lt hless)

/-- A request for more stalls nothing. -/
theorem stalled_more {size N : Nat} (h : (p.more size).Stalled N) : p.Stalled N := by
  rcases more_cases size p with ⟨-, heq⟩ | ⟨-, heq⟩
  · rw [heq] at h
    exact absurd h.outstanding (List.append_ne_nil_of_right_ne_nil _ (List.cons_ne_nil _ _))
  · rw [heq] at h
    exact h

/-- An answer stalls the list exactly when it has fewer items than its query
    asked for and than there are; a failure, when fewer are shown already. -/
theorem stalled_answer {i N : Nat} {found : Option (List Item)} (hp : p.Tidy plan)
    (h : p.step plan.size (.answer i found) = some q) :
    q.Stalled N ↔ (found.getD p.shown).length < N ∧ (found.getD p.shown).length < p.limit := by
  obtain ⟨limit, hget, rfl⟩ := answer_cases h
  obtain ⟨rfl, -, -, outstanding, -, -⟩ := hp.flying hget
  constructor
  · intro hq
    exact ⟨hq.fewer, hq.less⟩
  · rintro ⟨hfewer, hless⟩
    refine ⟨?_, hfewer, hless⟩
    show p.outstanding.eraseIdx 0 = []
    rw [outstanding]
    rfl

/-! ## Answers from snapshots -/

/-- Every answer succeeds, and is taken from the snapshot for its number. -/
def FromSnapshots (snapshots : Nat → List Item) (p : Pager Item) : Action Item → Prop
  | .answer i found => ∀ limit, p.outstanding[i]? = some limit →
      found = some ((snapshots p.answered).take limit)
  | _ => True

theorem FromSnapshots.within {snapshots : Nat → List Item} {a : Action Item}
    (ha : p.FromSnapshots snapshots a) : p.Within a := by
  cases a with
  | idle => trivial
  | more => trivial
  | answer i found =>
      cases found with
      | none => trivial
      | some items =>
          intro limit hget
          rw [Option.some.inj (ha limit hget)]
          exact List.length_take_le limit _

/-- **NO GAPS**: the answer to query `k` shows exactly the first
    `first + size * k` items of its snapshot. -/
theorem answer_shows {snapshots : Nat → List Item} {i : Nat} {found : Option (List Item)}
    (hp : p.Tidy plan) (hfrom : p.FromSnapshots snapshots (.answer i found))
    (h : p.step plan.size (.answer i found) = some q) :
    q.shown = (snapshots p.answered).take (plan.limit p.answered) := by
  obtain ⟨limit, hget, rfl⟩ := answer_cases h
  obtain ⟨-, hlimit, -⟩ := hp.flying hget
  show found.getD p.shown = _
  rw [hfrom limit hget, ← hlimit]
  rfl

/-! ## A list that does not change -/

/-- Tidy paging of the fixed list `items`. -/
structure Steady (plan : Plan) (items : List Item) (p : Pager Item) : Prop where
  tidy : p.Tidy plan
  shown : p.shown = if p.answered = 0 then [] else items.take (plan.limit (p.answered - 1))
  bounded : p.issued ≤ plan.pages items.length

/-- All has been shown, and nothing more is asked for. -/
structure Complete (items : List Item) (p : Pager Item) : Prop where
  outstanding : p.outstanding = []
  beyond : items.length < p.limit

variable {items : List Item}

theorem steady_opened (plan : Plan) (items : List Item) :
    (opened plan : Pager Item).Steady plan items :=
  ⟨tidy_opened plan, rfl, Nat.succ_le_succ (Nat.zero_le _)⟩

theorem steady_step {a : Action Item} (hp : p.Steady plan items)
    (hfrom : p.FromSnapshots (fun _ => items) a) (h : p.step plan.size a = some q) :
    q.Steady plan items := by
  have htidy := tidy_step hp.tidy hfrom.within h
  cases a with
  | idle =>
      obtain rfl : p = q := Option.some.inj h
      exact hp
  | more =>
      obtain rfl : p.more plan.size = q := Option.some.inj h
      rcases more_cases plan.size p with ⟨hfull, heq⟩ | ⟨-, heq⟩
      · -- a full list has as many items as all limits so far
        rw [heq] at htidy ⊢
        refine ⟨htidy, hp.shown, ?_⟩
        have hlen : p.shown.length ≤ items.length := by
          rw [hp.shown]
          split
          · exact Nat.zero_le _
          · exact List.length_take_le' _ _
        have hneeded := (plan.lt_pages_iff (p.issued - 1) items.length).mpr
          (hp.tidy.limit ▸ hfull.trans hlen)
        have hissued := hp.tidy.issued
        show p.issued + 1 ≤ plan.pages items.length
        omega
      · rw [heq]
        exact hp
  | answer i found =>
      have hshows := answer_shows hp.tidy hfrom h
      obtain ⟨limit, hget, rfl⟩ := answer_cases h
      refine ⟨htidy, ?_, hp.bounded⟩
      rw [if_neg (Nat.succ_ne_zero p.answered)]
      exact hshows

/-- Nothing in flight, and fewer items than the limit: everything is shown by
    exactly as many queries as are needed. -/
theorem Complete.all (hc : p.Complete items) (hp : p.Steady plan items) :
    p.issued = plan.pages items.length ∧ p.shown = items := by
  have hissued := hp.tidy.issued
  -- the last limit was not reached, so no query beyond it was needed
  have hlast : ¬ plan.limit (p.issued - 1) ≤ items.length := by
    rw [← hp.tidy.limit]
    exact Nat.not_le_of_lt hc.beyond
  have hpages := mt (plan.lt_pages_iff (p.issued - 1) items.length).mp hlast
  have hbounded := hp.bounded
  refine ⟨by omega, ?_⟩
  cases hp.tidy.flight with
  | one outstanding _ _ =>
      rw [hc.outstanding] at outstanding
      exact absurd outstanding.symm (List.cons_ne_nil _ _)
  | none _ answered _ =>
      rw [hp.shown, answered, if_neg (Nat.pos_iff_ne_zero.mp hissued), ← hp.tidy.limit]
      exact List.take_of_length_le hc.beyond.le

/-- Nothing in flight and no more items than shown: a request for more
    changes nothing; otherwise it issues a query. -/
theorem Steady.more_or_complete (hp : p.Steady plan items) (hout : p.outstanding = []) :
    p.Complete items ∨ p.limit ≤ p.shown.length := by
  by_cases hbeyond : items.length < p.limit
  · exact Or.inl ⟨hout, hbeyond⟩
  · refine Or.inr ?_
    cases hp.tidy.flight with
    | one outstanding _ _ =>
        rw [hout] at outstanding
        exact absurd outstanding.symm (List.cons_ne_nil _ _)
    | none _ answered _ =>
        have hissued := hp.tidy.issued
        rw [hp.shown, answered, if_neg (Nat.pos_iff_ne_zero.mp hissued), ← hp.tidy.limit,
          List.length_take]
        exact le_min le_rfl (Nat.le_of_not_lt hbeyond)

/-- Once all has been shown, nothing more happens. -/
theorem complete_step {a : Action Item} (hc : p.Complete items) (hp : p.Steady plan items)
    (h : p.step plan.size a = some q) : q.Complete items := by
  cases a with
  | idle =>
      obtain rfl : p = q := Option.some.inj h
      exact hc
  | more =>
      obtain rfl : p.more plan.size = q := Option.some.inj h
      rcases more_cases plan.size p with ⟨hfull, -⟩ | ⟨-, heq⟩
      · rw [(hc.all hp).2] at hfull
        exact absurd hfull (Nat.not_le_of_lt hc.beyond)
      · rw [heq]
        exact hc
  | answer i found =>
      obtain ⟨limit, hget, -⟩ := answer_cases h
      rw [hc.outstanding] at hget
      exact absurd hget.symm (Option.some_ne_none limit)

/-- What is still to come: two steps for each query to be issued, one for each
    to be answered. -/
def remaining (plan : Plan) (items : List Item) (p : Pager Item) : Nat :=
  2 * (plan.pages items.length - p.issued) + p.outstanding.length

theorem remaining_more (hq : (p.more plan.size).Steady plan items) :
    (p.more plan.size).remaining plan items ≤ p.remaining plan items
      ∧ (p.limit ≤ p.shown.length →
        (p.more plan.size).remaining plan items < p.remaining plan items) := by
  rcases more_cases plan.size p with ⟨-, heq⟩ | ⟨hless, heq⟩
  · have hbounded := hq.bounded
    rw [heq] at hbounded ⊢
    have hlt : p.issued + 1 ≤ plan.pages items.length := hbounded
    have hfalls : 2 * (plan.pages items.length - (p.issued + 1)) + (p.outstanding.length + 1)
        < 2 * (plan.pages items.length - p.issued) + p.outstanding.length := by
      omega
    rw [remaining, remaining, List.length_append, List.length_singleton]
    exact ⟨hfalls.le, fun _ => hfalls⟩
  · rw [heq]
    exact ⟨le_rfl, fun hfull => absurd hfull (Nat.not_le_of_lt hless)⟩

theorem remaining_answer {size i : Nat} {found : Option (List Item)}
    (h : p.step size (.answer i found) = some q) :
    q.remaining plan items < p.remaining plan items := by
  obtain ⟨limit, hget, rfl⟩ := answer_cases h
  obtain ⟨hlt, -⟩ := List.getElem?_eq_some_iff.mp hget
  rw [remaining, remaining]
  show 2 * (plan.pages items.length - p.issued) + (p.outstanding.eraseIdx i).length < _
  rw [List.length_eraseIdx_of_lt hlt]
  omega

theorem remaining_step {a : Action Item} (hq : q.Steady plan items)
    (h : p.step plan.size a = some q) :
    q.remaining plan items ≤ p.remaining plan items := by
  cases a with
  | idle =>
      obtain rfl : p = q := Option.some.inj h
      exact le_rfl
  | more =>
      obtain rfl : p.more plan.size = q := Option.some.inj h
      exact (remaining_more hq).1
  | answer i found => exact (remaining_answer h).le

/-- **PAGING SETTLES**: when every answer is taken from the same items, the
    reader keeps asking for more and every query is answered, then from some
    point on exactly `pages N` queries have been issued, none is in flight,
    and all items are shown. -/
theorem endless_settles (hp : p.Steady plan items) (run : Endless (step plan.size) p)
    (hfrom : ∀ n, (run.state n).FromSnapshots (fun _ => items) (run.event n))
    (hmore : ∀ n, ∃ m, n ≤ m ∧ run.event m = .more)
    (hanswer : ∀ n, (run.state n).outstanding ≠ [] →
      ∃ m, n ≤ m ∧ ∃ i found, run.event m = .answer i found) :
    ∃ n, ∀ m, n ≤ m → (run.state m).issued = plan.pages items.length
      ∧ (run.state m).outstanding = [] ∧ (run.state m).shown = items := by
  have hsteady : ∀ n, (run.state n).Steady plan items := by
    refine run.always (Steady plan items) (FromSnapshots fun _ => items) hp ?_ hfrom
    intro t a u ht ha hu
    exact steady_step ht ha hu
  have hfalls : ∀ n, ∃ m, n ≤ m ∧ ((run.state m).Complete items
      ∨ (run.state (m + 1)).remaining plan items < (run.state m).remaining plan items) := by
    intro n
    obtain ⟨m, hnm, hevent⟩ := hmore n
    by_cases hout : (run.state m).outstanding = []
    · rcases (hsteady m).more_or_complete hout with hcomplete | hfull
      · exact ⟨m, hnm, Or.inl hcomplete⟩
      · refine ⟨m, hnm, Or.inr ?_⟩
        have hnext := run.next m
        rw [hevent] at hnext
        have hstate : (run.state m).more plan.size = run.state (m + 1) := Option.some.inj hnext
        have hq := hsteady (m + 1)
        rw [← hstate] at hq ⊢
        exact (remaining_more hq).2 hfull
    · -- the query in flight is answered later
      obtain ⟨k, hmk, i, found, hk⟩ := hanswer m hout
      refine ⟨k, hnm.trans hmk, Or.inr ?_⟩
      have hnext := run.next k
      rw [hk] at hnext
      exact remaining_answer hnext
  obtain ⟨n, hn⟩ := run.eventually (remaining plan items)
    (fun n => remaining_step (hsteady (n + 1)) (run.next n)) hfalls
  have hkeeps : ∀ m, (run.state m).Complete items → (run.state (m + 1)).Complete items :=
    fun m hm => complete_step hm (hsteady m) (run.next m)
  refine ⟨n, ?_⟩
  intro m hm
  have hcomplete := run.stays hkeeps hn m hm
  exact ⟨(hcomplete.all (hsteady m)).1, hcomplete.outstanding, (hcomplete.all (hsteady m)).2⟩

end Pager

end Paging

import Mathlib.Data.List.Basic
import Mathlib.Data.Set.Finite.Basic
import Mathlib.Logic.Relation
import Mathlib.Order.WellFounded
import Mathlib.Order.RelClasses

/-! # Waves

    Items that wait for other items are served in waves: every wave holds all
    that is ready once the waves before it are finished.

    * `waves` — the waves, and how they end;
    * `Served.perm`, `Served.ready_before` — every item is served at most once,
      and only when it is ready;
    * `Served.done_iff` — all of them are served exactly when what they need is
      among them and no item waits for itself. -/

namespace Waves

open Relation

variable {A : Type} {ready : List A → A → Bool}

/-- How the waves end: with nothing left, with nothing ready, or cut short. -/
inductive Ending
  | done
  | stuck
  | unfinished
  deriving DecidableEq, Repr

/-- What is ready after the finished items. -/
def current (ready : List A → A → Bool) (finished remaining : List A) : List A :=
  remaining.filter (ready finished)

/-- What still waits. -/
def next (ready : List A → A → Bool) (finished remaining : List A) : List A :=
  remaining.filter (fun a => !ready finished a)

/-- The waves over the remaining items, after the finished ones. -/
def waves (ready : List A → A → Bool) : Nat → List A → List A → List (List A) × Ending
  | 0, remaining, _ => ([], if remaining.isEmpty then .done else .unfinished)
  | fuel + 1, remaining, finished =>
      if remaining.isEmpty then ([], .done)
      else if (current ready finished remaining).isEmpty then ([], .stuck)
      else
        let later := waves ready fuel (next ready finished remaining)
          (finished ++ current ready finished remaining)
        (current ready finished remaining :: later.1, later.2)

/-- The waves as a derivation: nothing is left, nothing is ready, or one wave
    more is served. -/
inductive Served (ready : List A → A → Bool) :
    List A → List A → List (List A) → Ending → Prop
  | done {finished : List A} : Served ready [] finished [] .done
  | stuck {remaining finished : List A} :
      remaining ≠ [] → (∀ a ∈ remaining, ready finished a = false) →
      Served ready remaining finished [] .stuck
  | wave {remaining finished : List A} {ws : List (List A)} {o : Ending} :
      current ready finished remaining ≠ [] →
      Served ready (next ready finished remaining)
        (finished ++ current ready finished remaining) ws o →
      Served ready remaining finished (current ready finished remaining :: ws) o

/-- What is ready and what waits make up what remains. -/
theorem current_append_next (finished remaining : List A) :
    (current ready finished remaining ++ next ready finished remaining).Perm remaining :=
  List.filter_append_perm _ _

/-- A wave that serves something leaves less. -/
theorem next_length_lt {finished remaining : List A}
    (h : current ready finished remaining ≠ []) :
    (next ready finished remaining).length < remaining.length := by
  have hperm : (current ready finished remaining ++ next ready finished remaining).Perm remaining :=
    current_append_next _ _
  have hlen := hperm.length_eq
  have hpos := List.length_pos_iff.mpr h
  rw [List.length_append] at hlen
  omega

/-- **ENOUGH FUEL**: as many rounds as there are items always finish. -/
theorem served_waves (fuel : Nat) : ∀ {remaining : List A} (finished : List A),
    remaining.length ≤ fuel →
    Served ready remaining finished (waves ready fuel remaining finished).1
      (waves ready fuel remaining finished).2 := by
  induction fuel with
  | zero =>
      intro remaining finished hfuel
      obtain rfl : remaining = [] := List.length_eq_zero_iff.mp (by omega)
      exact .done
  | succ fuel ih =>
      intro remaining finished hfuel
      rw [waves]
      split
      · rename_i hnil
        rw [List.isEmpty_iff] at hnil
        subst hnil
        exact .done
      · rename_i hnil
        rw [List.isEmpty_iff] at hnil
        split
        · rename_i hcur
          rw [List.isEmpty_iff, current, List.filter_eq_nil_iff] at hcur
          exact .stuck hnil (fun a ha => Bool.eq_false_iff.mpr (hcur a ha))
        · rename_i hcur
          rw [List.isEmpty_iff] at hcur
          have hlt := next_length_lt hcur
          exact .wave hcur (ih _ (by omega))

variable {remaining finished : List A} {ws : List (List A)} {o : Ending}

/-- **AT MOST ONCE**: what is served and what is left are the items; something
    is left exactly when the waves got stuck, and then none of it is ready. -/
theorem Served.perm (h : Served ready remaining finished ws o) :
    ∃ left, (ws.flatten ++ left).Perm remaining
      ∧ (∀ a ∈ left, ready (finished ++ ws.flatten) a = false)
      ∧ (o = .done ∧ left = [] ∨ o = .stuck ∧ left ≠ []) := by
  induction h with
  | done => exact ⟨[], .nil, by simp, Or.inl ⟨rfl, rfl⟩⟩
  | @stuck remaining finished hne hready =>
      exact ⟨remaining, .refl _, by simpa using hready, Or.inr ⟨rfl, hne⟩⟩
  | wave _ _ ih =>
      obtain ⟨left, hperm, hready, ho⟩ := ih
      refine ⟨left, ?_, ?_, ho⟩
      · rw [List.flatten_cons, List.append_assoc]
        exact (hperm.append_left _).trans (current_append_next _ _)
      · simpa [List.append_assoc] using hready

/-- **READY BEFORE**: an item is served when it is ready after the waves before. -/
theorem Served.ready_before (h : Served ready remaining finished ws o) :
    ∀ {pre : List (List A)} {w : List A} {post : List (List A)}, ws = pre ++ w :: post →
      w ≠ [] ∧ ∀ a ∈ w, ready (finished ++ pre.flatten) a = true := by
  induction h with
  | done => intro pre w post heq; simp at heq
  | stuck => intro pre w post heq; simp at heq
  | wave hne _ ih =>
      intro pre w post heq
      cases pre with
      | nil =>
          rw [List.nil_append, List.cons.injEq] at heq
          rw [← heq.1]
          refine ⟨hne, fun a ha => ?_⟩
          rw [List.flatten_nil, List.append_nil]
          exact (List.mem_filter.mp ha).2
      | cons v pre =>
          rw [List.cons_append, List.cons.injEq] at heq
          rw [← heq.1, List.flatten_cons, ← List.append_assoc]
          exact ih heq.2

/-! ## Needs -/

section Needs

variable {able : A → Prop} {need : A → A → Prop}

/-- An item is ready when it is able and all it needs is finished. -/
def Reads (ready : List A → A → Bool) (able : A → Prop) (need : A → A → Prop) : Prop :=
  ∀ finished a, ready finished a = true ↔ able a ∧ ∀ p, need a p → p ∈ finished

/-- One item of a list needs another of it. -/
def Within (need : A → A → Prop) (items : List A) (a p : A) : Prop :=
  need a p ∧ a ∈ items ∧ p ∈ items

/-- When all are served, every need was finished before or is served in an
    earlier wave. -/
theorem Served.rank (hr : Reads ready able need) (h : Served ready remaining finished ws .done) :
    ∃ rank : A → Nat, ∀ a ∈ remaining, able a ∧ ∀ p, need a p →
      p ∈ finished ∨ p ∈ remaining ∧ rank p < rank a := by
  classical
  generalize ho : Ending.done = o at h
  induction h with
  | done => exact ⟨fun _ => 0, fun a ha => absurd ha List.not_mem_nil⟩
  | stuck => exact absurd ho (by simp)
  | @wave remaining finished _ _ _ _ ih =>
      obtain ⟨rank, hrank⟩ := ih ho
      refine ⟨fun a => if a ∈ current ready finished remaining then 0 else rank a + 1, ?_⟩
      intro a ha
      cases hready : ready finished a with
      | true =>
          obtain ⟨hable, hneed⟩ := (hr finished a).mp hready
          exact ⟨hable, fun p hp => Or.inl (hneed p hp)⟩
      | false =>
          have hcur : a ∉ current ready finished remaining := by
            simp [current, hready]
          obtain ⟨hable, hneed⟩ := hrank a (List.mem_filter.mpr ⟨ha, by simp [hready]⟩)
          refine ⟨hable, fun p hp => ?_⟩
          rcases hneed p hp with hp' | ⟨hp', hlt⟩
          · rcases List.mem_append.mp hp' with hp' | hp'
            · exact Or.inl hp'
            · refine Or.inr ⟨(List.mem_filter.mp hp').1, ?_⟩
              simp only [if_pos hp', if_neg hcur]
              omega
          · have hpcur : p ∉ current ready finished remaining := by
              intro hmem
              have hf := (List.mem_filter.mp hp').2
              rw [(List.mem_filter.mp hmem).2] at hf
              simp at hf
            refine Or.inr ⟨(List.mem_filter.mp hp').1, ?_⟩
            simp only [if_neg hpcur, if_neg hcur]
            omega

/-- Needs that never come back to where they started have an end: of any
    nonempty part of the items, one needs nothing of that part. -/
theorem exists_last (items : List A) (hacyclic : ∀ a, ¬ TransGen (Within need items) a a)
    {part : List A} (hne : part ≠ []) (hsub : ∀ a ∈ part, a ∈ items) :
    ∃ a ∈ part, ∀ p ∈ part, ¬ need a p := by
  let r : {a // a ∈ items} → {a // a ∈ items} → Prop :=
    fun p a => TransGen (Within need items) a.1 p.1
  have : Finite {a // a ∈ items} := (List.finite_toSet items).to_subtype
  have : IsTrans _ r := ⟨fun _ _ _ h₁ h₂ => h₂.trans h₁⟩
  have : Std.Irrefl r := ⟨fun a => hacyclic a.1⟩
  have hwf : WellFounded r := Finite.wellFounded_of_trans_of_irrefl r
  obtain ⟨b, hb⟩ := List.exists_mem_of_ne_nil part hne
  obtain ⟨a, ha, hmin⟩ := hwf.has_min {x | x.1 ∈ part} ⟨⟨b, hsub b hb⟩, hb⟩
  refine ⟨a.1, ha, fun p hp hneed => ?_⟩
  exact hmin ⟨p, hsub p hp⟩ hp (.single ⟨hneed, a.2, hsub p hp⟩)

/-- **ALL SERVED**: with nothing finished before, all items are served exactly
    when each is able, what each needs is among them, and none waits for itself. -/
theorem Served.done_iff (hr : Reads ready able need) (h : Served ready remaining [] ws o) :
    o = .done ↔ (∀ a ∈ remaining, able a ∧ ∀ p, need a p → p ∈ remaining)
      ∧ ∀ a, ¬ TransGen (Within need remaining) a a := by
  constructor
  · rintro rfl
    obtain ⟨rank, hrank⟩ := h.rank hr
    have hneed : ∀ a ∈ remaining, ∀ p, need a p → p ∈ remaining ∧ rank p < rank a := by
      intro a ha p hp
      rcases (hrank a ha).2 p hp with hnil | h
      · exact absurd hnil List.not_mem_nil
      · exact h
    refine ⟨fun a ha => ⟨(hrank a ha).1, fun p hp => (hneed a ha p hp).1⟩, fun a hcycle => ?_⟩
    have hlt : ∀ {p}, TransGen (Within need remaining) a p → rank p < rank a := by
      intro p hp
      induction hp with
      | single hp => exact (hneed _ hp.2.1 _ hp.1).2
      | tail _ hp ih => exact lt_trans (hneed _ hp.2.1 _ hp.1).2 ih
    exact lt_irrefl _ (hlt hcycle)
  · rintro ⟨hall, hacyclic⟩
    obtain ⟨left, hperm, hready, ⟨ho, _⟩ | ⟨_, hne⟩⟩ := h.perm
    · exact ho
    -- the item of those left that needs none of them is ready
    have hsub : ∀ a ∈ left, a ∈ remaining := fun a ha =>
      hperm.mem_iff.mp (List.mem_append_right _ ha)
    obtain ⟨a, ha, hlast⟩ := exists_last remaining hacyclic hne hsub
    have htrue : ready ([] ++ ws.flatten) a = true := by
      refine (hr _ _).mpr ⟨(hall a (hsub a ha)).1, fun p hp => ?_⟩
      have hpr := hperm.mem_iff.mpr ((hall a (hsub a ha)).2 p hp)
      rcases List.mem_append.mp hpr with hp' | hp'
      · exact hp'
      · exact absurd hp (hlast p hp')
    rw [hready a ha] at htrue
    exact absurd htrue Bool.false_ne_true

end Needs

end Waves

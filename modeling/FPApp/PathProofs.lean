import Mathlib.Data.Fintype.Card
import Mathlib.Logic.Relation

/-! # Paths that avoid a set

    A search that does not enter what is already on its path sees the paths
    that avoid a set.

    * `cut` — a path from a point ends there, or it goes on from a successor
      and never comes back to the point;
    * `through` — a path avoids one more point, or it goes through it;
    * `through_cycle` — so does a cycle. -/

namespace Paths

open Relation

variable {A : Type} [DecidableEq A] {E : A → A → Prop} {S : Finset A} {a b c : A}

/-- An edge with both ends outside a set. -/
def Avoiding (E : A → A → Prop) (S : Finset A) (a b : A) : Prop := E a b ∧ a ∉ S ∧ b ∉ S

theorem Avoiding.shrink (h : Avoiding E (insert c S) a b) : Avoiding E S a b :=
  ⟨h.1, fun ha => h.2.1 (Finset.mem_insert_of_mem ha),
    fun hb => h.2.2 (Finset.mem_insert_of_mem hb)⟩

/-- A path that avoids more is a path. -/
theorem path_shrink (h : ReflTransGen (Avoiding E (insert c S)) a b) :
    ReflTransGen (Avoiding E S) a b := ReflTransGen.mono (fun _ _ h => Avoiding.shrink h) _ _ h

theorem cycle_shrink (h : TransGen (Avoiding E (insert c S)) a b) :
    TransGen (Avoiding E S) a b := TransGen.mono (fun _ _ h => Avoiding.shrink h) _ _ h

omit [DecidableEq A] in
theorem end_not_mem (ha : a ∉ S) (h : ReflTransGen (Avoiding E S) a b) : b ∉ S := by
  cases h with
  | refl => exact ha
  | tail _ hb => exact hb.2.2

/-- **CUT**: a path from a point ends at the point, or it goes on from one of
    its successors without coming back. -/
theorem cut (h : ReflTransGen (Avoiding E S) a b) :
    b = a ∨ ∃ p, Avoiding E S a p ∧ p ∉ insert a S
      ∧ ReflTransGen (Avoiding E (insert a S)) p b := by
  induction h with
  | refl => exact Or.inl rfl
  | @tail b c _ hbc ih =>
      by_cases hc : c = a
      · exact Or.inl hc
      have hc' : c ∉ insert a S := by
        rw [Finset.mem_insert, not_or]
        exact ⟨hc, hbc.2.2⟩
      refine Or.inr ?_
      rcases ih with rfl | ⟨p, hap, hp, hpb⟩
      · exact ⟨c, hbc, hc', .refl⟩
      · exact ⟨p, hap, hp, hpb.tail ⟨hbc.1, end_not_mem hp hpb, hc'⟩⟩

/-- **THROUGH**: a path avoids one more point, or it goes through it. -/
theorem through (o : A) (h : ReflTransGen (Avoiding E S) a b) :
    ReflTransGen (Avoiding E (insert o S)) a b
      ∨ ReflTransGen (Avoiding E S) a o ∧ ReflTransGen (Avoiding E S) o b := by
  induction h with
  | refl => exact Or.inl .refl
  | @tail b c hab hbc ih =>
      rcases ih with ih | ⟨hao, hob⟩
      · by_cases hb : b = o
        · subst hb
          exact Or.inr ⟨hab, .single hbc⟩
        by_cases hc : c = o
        · subst hc
          exact Or.inr ⟨hab.tail hbc, .refl⟩
        refine Or.inl (ih.tail ⟨hbc.1, ?_, ?_⟩)
        · rw [Finset.mem_insert, not_or]
          exact ⟨hb, hbc.2.1⟩
        · rw [Finset.mem_insert, not_or]
          exact ⟨hc, hbc.2.2⟩
      · exact Or.inr ⟨hao, hob.tail hbc⟩

/-- A cycle avoids one more point, or the point is on it. -/
theorem through_cycle (o : A) (h : TransGen (Avoiding E S) a a) :
    TransGen (Avoiding E (insert o S)) a a ∨ TransGen (Avoiding E S) o o := by
  obtain ⟨z, haz, hza⟩ := (TransGen.tail'_iff).mp h
  rcases through o haz with hpath | ⟨hao, hoz⟩
  · by_cases hz : z = o
    · subst hz
      exact Or.inr (TransGen.head' hza haz)
    by_cases ha : a = o
    · subst ha
      exact Or.inr h
    refine Or.inl (TransGen.tail' hpath ⟨hza.1, ?_, ?_⟩)
    · rw [Finset.mem_insert, not_or]
      exact ⟨hz, hza.2.1⟩
    · rw [Finset.mem_insert, not_or]
      exact ⟨ha, hza.2.2⟩
  · exact Or.inr ((TransGen.tail' hoz hza).trans_left hao)

/-- A cycle through a point goes on from a successor and returns to it at once,
    or by a path that does not come back before. -/
theorem cycle_cut (h : TransGen (Avoiding E S) a a) :
    ∃ p z, Avoiding E S a p ∧ Avoiding E S z a
      ∧ (p = a ∧ z = a ∨ p ∉ insert a S ∧ ReflTransGen (Avoiding E (insert a S)) p z) := by
  obtain ⟨z, haz, hza⟩ := (TransGen.tail'_iff).mp h
  rcases cut haz with rfl | ⟨p, hap, hp, hpz⟩
  · exact ⟨z, z, hza, hza, Or.inl ⟨rfl, rfl⟩⟩
  · exact ⟨p, z, hap, hza, Or.inr ⟨hp, hpz⟩⟩

omit [DecidableEq A] in
/-- Nothing is avoided. -/
theorem avoiding_empty : Avoiding E ∅ a b ↔ E a b := by
  simp [Avoiding]

/-- Seeing one more point leaves fewer to see. -/
theorem card_unseen_lt [Fintype A] (h : a ∉ S) :
    (Finset.univ \ insert a S).card < (Finset.univ \ S).card := by
  refine Finset.card_lt_card ?_
  rw [Finset.ssubset_iff_of_subset (Finset.sdiff_subset_sdiff le_rfl (Finset.subset_insert a S))]
  exact ⟨a, by simpa using h, by simp⟩

end Paths

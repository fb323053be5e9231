import FPApp.EventRunProofs

/-! # A nesting counter that guards exclusive jobs

    A counter is raised when a job is started and lowered when it ends; new
    work is accepted only while the counter is zero.  The protocol is sound
    when every raise belongs to a job and every job lowers the counter once.
    Four further moves describe how a client can miss that: a job that ends
    without lowering the counter (`leak`), a raise without a job (`seize`), a
    lowering without a job (`stray`), and a restart of the whole process
    (`reset`).

    * `exclusive_move` — whatever the move, at most one job runs, and while it
      runs the counter is positive;
    * `balanced_iff_sound` — the counter equals the number of running jobs in
      every state of a run exactly when the run has no leak, no seize and no
      stray lowering. -/

namespace NestingLock

open EventRun

/-- The counter, the jobs that run, and whether the counter was lowered at
    zero since the process started. -/
structure Gate where
  counter : Nat
  jobs : Nat
  unmatched : Bool
deriving DecidableEq, Repr

/-- What one step of a client does to the gate. -/
inductive Move where
  | quiet
  | acquire
  | release
  | leak
  | seize
  | stray
  | reset
deriving DecidableEq, Repr

/-- The gate after a move; lowering at zero leaves zero and is recorded. -/
def Gate.move (g : Gate) : Move → Option Gate
  | .quiet => some g
  | .acquire =>
      if g.counter = 0 then some { g with counter := 1, jobs := g.jobs + 1 } else none
  | .release =>
      if 0 < g.jobs then
        some { counter := g.counter - 1, jobs := g.jobs - 1,
               unmatched := g.unmatched || g.counter == 0 }
      else none
  | .leak => if 0 < g.jobs then some { g with jobs := g.jobs - 1 } else none
  | .seize => if g.counter = 0 then some { g with counter := 1 } else none
  | .stray => if g.counter = 0 then some { g with unmatched := true } else none
  | .reset => some { counter := 0, jobs := 0, unmatched := false }

/-- At most one job, and the counter is positive while it runs. -/
structure Gate.Exclusive (g : Gate) : Prop where
  jobs_le_one : g.jobs ≤ 1
  jobs_le_counter : g.jobs ≤ g.counter

/-- The counter is the number of running jobs, and was never lowered at
    zero. -/
structure Gate.Balanced (g : Gate) : Prop where
  counter_eq : g.counter = g.jobs
  matched : g.unmatched = false

/-- The moves of a client that pairs its raises and lowerings. -/
def Move.Sound : Move → Prop
  | .quiet | .acquire | .release | .reset => True
  | .leak | .seize | .stray => False

instance : DecidablePred Move.Sound := fun m => by
  cases m <;> simp only [Move.Sound] <;> infer_instance

/-- What each move requires and does. -/
theorem move_cases {g h : Gate} {m : Move} (hm : g.move m = some h) :
    (m = .quiet ∧ h = g)
    ∨ (m = .acquire ∧ g.counter = 0 ∧ h = { g with counter := 1, jobs := g.jobs + 1 })
    ∨ (m = .release ∧ 0 < g.jobs ∧ h = { counter := g.counter - 1, jobs := g.jobs - 1,
                                          unmatched := g.unmatched || g.counter == 0 })
    ∨ (m = .leak ∧ 0 < g.jobs ∧ h = { g with jobs := g.jobs - 1 })
    ∨ (m = .seize ∧ g.counter = 0 ∧ h = { g with counter := 1 })
    ∨ (m = .stray ∧ g.counter = 0 ∧ h = { g with unmatched := true })
    ∨ (m = .reset ∧ h = { counter := 0, jobs := 0, unmatched := false }) := by
  cases m <;> simp only [Gate.move, Option.ite_none_right_eq_some, Option.some.injEq] at hm
    <;> grind

/-- Every move keeps the gate exclusive. -/
theorem exclusive_move {g h : Gate} {m : Move} (hg : g.Exclusive)
    (hm : g.move m = some h) : h.Exclusive := by
  obtain ⟨hone, hle⟩ := hg
  rcases move_cases hm with ⟨-, rfl⟩ | ⟨-, h0, rfl⟩ | ⟨-, hpos, rfl⟩ | ⟨-, hpos, rfl⟩
    | ⟨-, h0, rfl⟩ | ⟨-, h0, rfl⟩ | ⟨-, rfl⟩
  · exact ⟨hone, hle⟩
  · exact ⟨by simp only; omega, by simp only; omega⟩
  · exact ⟨by simp only; omega, by simp only; omega⟩
  · exact ⟨by simp only; omega, by simp only; omega⟩
  · exact ⟨hone, by simp only; omega⟩
  · exact ⟨hone, hle⟩
  · exact ⟨by simp, by simp⟩

/-- A sound move keeps the gate balanced. -/
theorem balanced_move {g h : Gate} {m : Move} (hg : g.Balanced) (hs : m.Sound)
    (hm : g.move m = some h) : h.Balanced := by
  obtain ⟨heq, hun⟩ := hg
  rcases move_cases hm with ⟨-, rfl⟩ | ⟨-, h0, rfl⟩ | ⟨-, hpos, rfl⟩ | ⟨rfl, -⟩
    | ⟨rfl, -⟩ | ⟨rfl, -⟩ | ⟨-, rfl⟩
  · exact ⟨heq, hun⟩
  · exact ⟨by simp only; omega, hun⟩
  · refine ⟨by simp only; omega, ?_⟩
    have hne : (g.counter == 0) = false := by
      rw [beq_eq_false_iff_ne]
      omega
    rw [hun, hne]
    rfl
  · exact hs.elim
  · exact hs.elim
  · exact hs.elim
  · exact ⟨rfl, rfl⟩

/-- An unsound move unbalances a balanced gate. -/
theorem unbalanced_move {g h : Gate} {m : Move} (hg : g.Balanced) (hs : ¬ m.Sound)
    (hm : g.move m = some h) : ¬ h.Balanced := by
  obtain ⟨heq, hun⟩ := hg
  rintro ⟨heq', hun'⟩
  rcases move_cases hm with ⟨rfl, -⟩ | ⟨rfl, -⟩ | ⟨rfl, -⟩ | ⟨-, hpos, rfl⟩
    | ⟨-, h0, rfl⟩ | ⟨-, h0, rfl⟩ | ⟨rfl, -⟩
  · exact hs trivial
  · exact hs trivial
  · exact hs trivial
  · simp only at heq'
    omega
  · simp only at heq'
    omega
  · exact Bool.noConfusion hun'
  · exact hs trivial

/-! ## Clients

    A client is a machine whose steps project to moves of the gate; `Sound`
    says which of its steps are meant to project to sound moves. -/

section Client

variable {S E : Type} {step : S → E → Option S} (gate : S → Gate)

/-- Every step of the client is a move of the gate. -/
def Simulates (step : S → E → Option S) (gate : S → Gate) (Sound : S → E → Prop) :
    Prop :=
  ∀ s e t, step s e = some t →
    ∃ m, (gate s).move m = some (gate t) ∧ (m.Sound ↔ Sound s e)

/-- **BALANCE**: the gate is balanced in every state of a run exactly when all
    steps of the run are sound. -/
theorem balanced_iff_sound {Sound : S → E → Prop} (href : Simulates step gate Sound)
    {s : S} {es : List E} (h0 : (gate s).Balanced) :
    (∀ pre t, Visits step s es pre t → (gate t).Balanced)
      ↔ (∀ pre t e, Fires step s es pre t e → Sound t e) := by
  refine visits_iff (fun _ t => (gate t).Balanced) (fun _ t e => Sound t e) h0 ?_
    (fun _ _ hg => hg) ?_
  · intro _ t e u hg hs hu
    obtain ⟨m, hm, hsound⟩ := href t e u hu
    exact balanced_move hg (hsound.mpr hs) hm
  · intro _ t e u hg hs hu
    obtain ⟨m, hm, hsound⟩ := href t e u hu
    exact unbalanced_move hg (fun h => hs (hsound.mp h)) hm

end Client

end NestingLock

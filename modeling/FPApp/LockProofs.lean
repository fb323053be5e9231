import FPApp.AppStepProofs

/-! # The interaction lock

    UIKit's counter of ignored interactions is the app's only protection
    against a second submission: touches are delivered while it is zero.

    * `app_simulates` — every step of the app is a move of the nesting
      counter of `NestingLockProofs`, and a sound one exactly when it is
      `Paired`;
    * `interaction_lock_balance` — the counter equals the number of requests
      that hold it, in every state of a run, exactly when all steps of the
      run are paired.  The failure block of `userSignUp`, a valid post whose
      image has no PNG, and a search for the empty text are not;
    * `submissions_exclusive` — whatever happens, at most one of these
      requests is outstanding, no touch runs meanwhile, and the forms still
      hold what was submitted. -/

namespace FPMachine

open FPParse FPScreens EventRun NestingLock

variable {Picture Data : Type} {kit : ImageKit Picture Data} {s t : App Picture Data}

/-- The nesting counter of a running process; a dead one holds nothing. -/
def App.gate (s : App Picture Data) : Gate :=
  if s.crashed = none then ⟨s.lock, s.locked.length, s.unmatchedEnd⟩ else ⟨0, 0, false⟩

theorem gate_alive (alive : s.crashed = none) :
    s.gate = ⟨s.lock, s.locked.length, s.unmatchedEnd⟩ := if_pos alive

theorem gate_same (h : SameCore s t) (alive : s.crashed = none) :
    t.gate = ⟨s.lock, s.locked.length, s.unmatchedEnd⟩ := by
  rw [gate_alive (h.crashed.trans alive), h.lock, h.locked, h.unmatchedEnd]

/-- Settling a request leaves the counter alone. -/
theorem gate_settle {i : Nat} {q : Outstanding Picture Data} {reply : Reply Data}
    (alive : s.crashed = none) (hq : s.outstanding[i]? = some q) :
    (s.settle i q reply).gate = ⟨s.lock, s.locked.length, s.unmatchedEnd⟩ := by
  have hsame : Outstanding.locks { q with reply := some reply } = q.locks := rfl
  have hlen : (s.settle i q reply).locked.length = s.locked.length :=
    length_filter_set Outstanding.locks hsame hq
  have halive : (s.settle i q reply).crashed = none := alive
  rw [gate_alive halive, hlen]
  rfl

/-- The completion block of a locking request is a release of the gate, or a
    leak. -/
theorem gate_finish {i : Nat} {q : Outstanding Picture Data} {reply : Reply Data}
    (alive : s.crashed = none) (hq : s.outstanding[i]? = some q)
    (locks : q.request.locks = true) (same : SameCore (s.finished kit i q.request reply) t) :
    s.gate.move (if releases q.request reply then .release else .leak) = some t.gate := by
  have hlen : ((s.outstanding.eraseIdx i).filter Outstanding.locks).length + 1
      = s.locked.length := length_filter_eraseIdx Outstanding.locks locks hq
  have hlocked : (s.finished kit i q.request reply).locked.length + 1 = s.locked.length := hlen
  rw [gate_same same alive, gate_alive alive]
  cases hr : releases q.request reply with
  | true =>
      have hpos : 0 < s.locked.length := by omega
      simp only [if_true, Gate.move, hpos, Option.some.injEq, Gate.mk.injEq]
      exact ⟨by simp [App.finished, hr], by omega, by simp [App.finished, hr]⟩
  | false =>
      have hpos : 0 < s.locked.length := by omega
      simp only [Bool.false_eq_true, if_false, Gate.move, hpos, if_true, Option.some.injEq,
        Gate.mk.injEq]
      exact ⟨by simp [App.finished, hr], by omega, by simp [App.finished, hr]⟩

theorem paired_complete_iff {i : Nat} {q : Outstanding Picture Data} {reply : Reply Data}
    (hq : s.outstanding[i]? = some q) (settled : q.reply = some reply) :
    Paired kit s (.complete i) ↔ releases q.request reply = true := by
  rw [releases_iff]
  constructor
  · intro h
    exact h q reply hq settled
  · intro h q' reply' hq' settled'
    obtain rfl : q = q' := Option.some.inj (hq.symm.trans hq')
    obtain rfl : reply = reply' := Option.some.inj (settled.symm.trans settled')
    exact h

theorem launch_balanced (userloggedin : Option Text) (current : Option (PFUser Data)) :
    (App.launch kit userloggedin current).gate.Balanced := ⟨rfl, rfl⟩

theorem launch_exclusive (userloggedin : Option Text) (current : Option (PFUser Data)) :
    (App.launch kit userloggedin current).gate.Exclusive :=
  ⟨Nat.zero_le 1, Nat.zero_le 0⟩

section

variable [DecidableEq Picture]

/-- **REFINEMENT**: every step of the app is a move of the nesting counter,
    and a sound one exactly when the step is paired. -/
theorem app_simulates (kit : ImageKit Picture Data) :
    Simulates (App.step kit) App.gate (Paired kit) := by
  intro s e t h
  cases step_core h with
  | still f alive paired typed same =>
      refine ⟨.quiet, ?_, iff_of_true trivial paired⟩
      rw [gate_same same alive, gate_alive alive]
      rfl
  | @settle i reply q alive hq unsettled accepts =>
      refine ⟨.quiet, ?_, iff_of_true trivial trivial⟩
      rw [gate_alive alive, gate_settle alive hq]
      rfl
  | crash alive paired crashed flag user sessions =>
      refine ⟨.reset, ?_, iff_of_true trivial paired⟩
      simp [App.gate, crashed, Gate.move]
  | acquire request alive paired free locks issued submitted same =>
      refine ⟨.acquire, ?_, iff_of_true trivial paired⟩
      rw [gate_same same alive, gate_alive alive, locked_acquired s locks]
      simp [Gate.move, free, App.acquired]
  | seize alive unpaired free same =>
      refine ⟨.seize, ?_, iff_of_false (fun h => h) unpaired⟩
      rw [gate_same same alive, gate_alive alive]
      simp [Gate.move, free, App.locked]
  | stray alive unpaired free same =>
      refine ⟨.stray, ?_, iff_of_false (fun h => h) unpaired⟩
      rw [gate_same same alive, gate_alive alive]
      simp [Gate.move, free, App.locked]
  | @finish i q reply t alive hq settled locks same =>
      -- the failure block of a sign-up leaks; every other block releases
      refine ⟨_, gate_finish alive hq locks same, ?_⟩
      rw [paired_complete_iff hq settled]
      cases releases q.request reply with
      | true => exact iff_of_true trivial rfl
      | false => exact iff_of_false (fun h => h) Bool.false_ne_true
  | restart =>
      exact ⟨.reset, rfl, iff_of_true trivial trivial⟩

/-! ## Balance -/

/-- In a running process the counter is the number of outstanding requests
    that hold it, it was never lowered at zero, and the user can act whenever
    no such request is outstanding. -/
def LockBalanced (kit : ImageKit Picture Data) (t : App Picture Data) : Prop :=
  t.crashed = none →
    t.lock = t.locked.length ∧ t.unmatchedEnd = false
      ∧ (t.locked = [] → ∀ touch, (t.step kit (.touch touch)).isSome)

theorem lockBalanced_iff : LockBalanced kit t ↔ t.gate.Balanced := by
  constructor
  · intro h
    by_cases alive : t.crashed = none
    · rw [gate_alive alive]
      exact ⟨(h alive).1, (h alive).2.1⟩
    · rw [show t.gate = ⟨0, 0, false⟩ from if_neg alive]
      exact ⟨rfl, rfl⟩
  · intro h alive
    rw [gate_alive alive] at h
    refine ⟨h.counter_eq, h.matched, ?_⟩
    intro hnone touch
    have hlock : t.lock = t.locked.length := h.counter_eq
    rw [hnone] at hlock
    simp only [App.step]
    rw [if_pos ⟨alive, hlock⟩]
    rfl

/-- **LOCK BALANCE**: the interaction lock is balanced in every state of a run
    exactly when every step of the run pairs its calls. -/
theorem interaction_lock_balance (kit : ImageKit Picture Data)
    (userloggedin : Option Text) (current : Option (PFUser Data))
    (es : List (Event Picture Data)) :
    (∀ pre t, Visits (App.step kit) (App.launch kit userloggedin current) es pre t →
        LockBalanced kit t)
      ↔ (∀ pre t e, Fires (App.step kit) (App.launch kit userloggedin current) es pre t e →
        Paired kit t e) := by
  rw [← balanced_iff_sound App.gate (app_simulates kit) (launch_balanced userloggedin current)]
  constructor
  · intro h pre t ht
    exact lockBalanced_iff.mp (h pre t ht)
  · intro h pre t ht
    exact lockBalanced_iff.mpr (h pre t ht)

end

/-- A sign-up with a valid form that the server refuses. -/
def refusedSignUp : List (Event Nat Nat) :=
  [.touch (.type .signUpEmail (.repeating 5 'a')),
    .touch (.type .signUpPassword (.repeating 8 'b')),
    .touch (.type .retypePassword (.repeating 8 'b')),
    .touch .signUpRegisterButtonPressed,
    .settle 0 (.failure "Account already exists for this username."),
    .complete 0]

/-- After the refusal nothing is outstanding, but the counter stays at one. -/
theorem lock_unbalanced_by_refusedSignUp :
    ¬ ∀ pre t, Visits (App.step numberKit) (App.launch numberKit none none) refusedSignUp
        pre t → LockBalanced numberKit t := by
  intro h
  have hrun : ∃ t, run (App.step numberKit) (App.launch numberKit none none) refusedSignUp
      = some t ∧ t.crashed = none ∧ t.lock = 1 ∧ t.locked.length = 0 :=
    ⟨_, rfl, rfl, rfl, rfl⟩
  obtain ⟨t, ht, alive, hlock, hnone⟩ := hrun
  have hbal := (h refusedSignUp t ⟨List.prefix_rfl, ht⟩ alive).1
  omega

/-! ## Exclusion -/

/-- In an exclusive state nothing holds a counter at zero. -/
theorem locked_nil_of_free (hx : s.gate.Exclusive) (alive : s.crashed = none)
    (free : s.lock = 0) : s.locked = [] := by
  rw [gate_alive alive] at hx
  have hle : s.locked.length ≤ s.lock := hx.jobs_le_counter
  exact List.length_eq_zero_iff.mp (by omega)

/-- In an exclusive state the completion of a locking request leaves no
    other. -/
theorem locked_nil_of_finish {i : Nat} {q : Outstanding Picture Data}
    {reply : Reply Data} (hx : s.gate.Exclusive)
    (alive : s.crashed = none) (hq : s.outstanding[i]? = some q)
    (locks : q.request.locks = true) (same : SameCore (s.finished kit i q.request reply) t) :
    t.locked = [] := by
  rw [gate_alive alive] at hx
  have hone : s.locked.length ≤ 1 := hx.jobs_le_one
  have hlen : ((s.outstanding.eraseIdx i).filter Outstanding.locks).length + 1
      = s.locked.length := length_filter_eraseIdx Outstanding.locks locks hq
  have hlocked : t.locked = (s.outstanding.eraseIdx i).filter Outstanding.locks := same.locked
  rw [hlocked]
  exact List.length_eq_zero_iff.mp (by omega)

/-- While a request holds the counter, the forms still hold what was in them
    when it was issued, and the request carries it. -/
def FormsHeld (kit : ImageKit Picture Data) (t : App Picture Data) : Prop :=
  t.crashed = none →
    ∀ q ∈ t.locked, q.form = t.inputs ∧ Submitted kit q.form q.request

section

variable [DecidableEq Picture]

theorem formsHeld_step {e : Event Picture Data} (hx : s.gate.Exclusive)
    (hs : FormsHeld kit s) (h : s.step kit e = some t) : FormsHeld kit t := by
  intro talive q' hq'
  cases step_core h with
  | still f alive paired typed same =>
      rw [same.locked] at hq'
      have hmem : q' ∈ s.locked := hq'
      -- text is entered only while nothing holds the counter
      rcases typed with rfl | free
      · rw [same.inputs]
        exact hs alive q' hmem
      · rw [locked_nil_of_free hx alive free] at hmem
        exact absurd hmem List.not_mem_nil
  | @settle i reply q alive hq unsettled accepts =>
      obtain ⟨hmem, hlocks⟩ := List.mem_filter.mp hq'
      rcases List.mem_or_eq_of_mem_set hmem with hold | rfl
      · exact hs alive q' (List.mem_filter.mpr ⟨hold, hlocks⟩)
      · have hqmem : q ∈ s.locked :=
          List.mem_filter.mpr ⟨List.mem_of_getElem? hq, hlocks⟩
        exact hs alive q hqmem
  | crash alive paired crashed flag user sessions => exact absurd talive crashed
  | acquire request alive paired free locks issued submitted same =>
      -- the new request is the only one, and was filled from these forms
      rw [same.locked, locked_acquired s locks, locked_nil_of_free hx alive free,
        List.nil_append] at hq'
      rw [List.mem_singleton.mp hq', same.inputs]
      exact ⟨rfl, submitted⟩
  | seize alive unpaired free same =>
      rw [same.locked] at hq'
      have hmem : q' ∈ s.locked := hq'
      rw [locked_nil_of_free hx alive free] at hmem
      exact absurd hmem List.not_mem_nil
  | stray alive unpaired free same =>
      rw [same.locked] at hq'
      have hmem : q' ∈ s.locked := hq'
      rw [locked_nil_of_free hx alive free] at hmem
      exact absurd hmem List.not_mem_nil
  | finish alive hq settled locks same =>
      rw [locked_nil_of_finish hx alive hq locks same] at hq'
      exact absurd hq' List.not_mem_nil
  | restart => exact absurd hq' List.not_mem_nil

/-- Along every run the gate is exclusive and the forms are held. -/
theorem exclusive_and_held (kit : ImageKit Picture Data) (userloggedin : Option Text)
    (current : Option (PFUser Data)) (es : List (Event Picture Data)) :
    ∀ pre t, Visits (App.step kit) (App.launch kit userloggedin current) es pre t →
      t.gate.Exclusive ∧ FormsHeld kit t := by
  refine visits_always (fun t => t.gate.Exclusive ∧ FormsHeld kit t) ?_ ?_
  · exact ⟨launch_exclusive userloggedin current,
      fun _ q hq => absurd hq List.not_mem_nil⟩
  · intro s e t ⟨hx, hs⟩ h
    obtain ⟨m, hm, -⟩ := app_simulates kit s e t h
    exact ⟨exclusive_move hx hm, formsHeld_step hx hs h⟩

/-- At most one request holds the counter; while one does, no touch is
    delivered, the forms hold what they held when it was issued, and the
    request carries it. -/
structure Submitting (kit : ImageKit Picture Data) (t : App Picture Data) : Prop where
  one : t.locked.length ≤ 1
  blocked : t.locked ≠ [] → ∀ touch, t.step kit (.touch touch) = none
  held : ∀ q ∈ t.locked, q.form = t.inputs ∧ Submitted kit t.inputs q.request

/-- The completion of a log-in stores the email that was submitted; that of a
    post clears the form as it was when Share was pressed, and nothing else. -/
def CompletesOwnForm (kit : ImageKit Picture Data) (t : App Picture Data) (i : Nat)
    (u : App Picture Data) : Prop :=
  ∀ q reply, t.outstanding[i]? = some q → q.reply = some reply → replyError reply = none →
    (∀ username password, q.request = .logIn username password →
      u.userloggedin = some username)
    ∧ (∀ post, q.request = .savePost post → t.inputs = q.form
      ∧ u.inputs = { q.form with
          postScene := ⟨kit.named "round-help-button", .empty, .empty⟩ })

theorem submitting_of_exclusive (hx : t.gate.Exclusive) (hs : FormsHeld kit t)
    (alive : t.crashed = none) : Submitting kit t := by
  have hgate := hx
  rw [gate_alive alive] at hgate
  refine ⟨hgate.jobs_le_one, ?_, ?_⟩
  · intro hsome touch
    have hlock : t.lock ≠ 0 := fun free => hsome (locked_nil_of_free hx alive free)
    rw [App.step, if_neg (fun h => hlock h.2)]
  · intro q hq
    obtain ⟨hform, hsub⟩ := hs alive q hq
    exact ⟨hform, by rw [← hform]; exact hsub⟩

theorem completesOwnForm {i : Nat} {u : App Picture Data} (hs : FormsHeld kit t)
    (h : t.step kit (.complete i) = some u) : CompletesOwnForm kit t i u := by
  intro q' reply' hq' hreply' hok
  obtain ⟨q, reply, alive, hq, hreply, rfl⟩ := complete_eq h
  obtain rfl : q = q' := Option.some.inj (hq.symm.trans hq')
  obtain rfl : reply = reply' := Option.some.inj (hreply.symm.trans hreply')
  have hmem (hlocks : q.locks = true) : q.form = t.inputs ∧ Submitted kit q.form q.request :=
    hs alive q (List.mem_filter.mpr ⟨List.mem_of_getElem? hq, hlocks⟩)
  have halive : (t.dropped i).crashed = none := alive
  constructor
  · intro username password hr
    obtain ⟨hform, hsub⟩ := hmem (by rw [Outstanding.locks, hr]; rfl)
    rw [hr, hform] at hsub
    have hb : (t.dropped i).block kit q reply
        = (t.dropped i).perform 0 (t.inputs.logInPage.logInBlock (replyError reply)) := by
      rw [App.block, hr]
      rfl
    rw [hb, block_logIn _ _ halive, hok, hsub.1]
    rfl
  · intro post hr
    obtain ⟨hform, -⟩ := hmem (by rw [Outstanding.locks, hr]; rfl)
    refine ⟨hform.symm, ?_⟩
    have hb : (t.dropped i).block kit q reply
        = { t.dropped i with inputs := { t.inputs with
              postScene := (t.inputs.postScene.postBlock kit none).1 }
            }.perform 0 (t.inputs.postScene.postBlock kit none).2 := by
      rw [App.block, hr, hok]
      rfl
    have hsame := block_savePost kit { t.dropped i with inputs := { t.inputs with
      postScene := (t.inputs.postScene.postBlock kit none).1 } } t.inputs.postScene none halive
    rw [hb]
    refine hsame.inputs.trans ?_
    rw [hform]
    rfl

/-- **EXCLUSIVE SUBMISSION**: along every run at most one submitting request
    is outstanding, no touch runs meanwhile, and the completion blocks find
    the forms as they were submitted. -/
theorem submissions_exclusive (kit : ImageKit Picture Data) (userloggedin : Option Text)
    (current : Option (PFUser Data)) (es : List (Event Picture Data)) :
    (∀ pre t, Visits (App.step kit) (App.launch kit userloggedin current) es pre t →
        t.crashed = none → Submitting kit t)
      ∧ (∀ pre t i u,
        Fires (App.step kit) (App.launch kit userloggedin current) es pre t (.complete i) →
        t.step kit (.complete i) = some u → CompletesOwnForm kit t i u) := by
  have hinv := exclusive_and_held kit userloggedin current es
  constructor
  · intro pre t ht alive
    obtain ⟨hx, hs⟩ := hinv pre t ht
    exact submitting_of_exclusive hx hs alive
  · intro pre t i u hf hu
    exact completesOwnForm (hinv pre t hf.visits).2 hu

end

end FPMachine

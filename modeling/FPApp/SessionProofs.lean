import FPApp.LockProofs

/-! # The session, in two places

    Who is signed in is stored twice: as Parse's current user and as the
    entry `userloggedin` of the user defaults, from which
    `AppDelegate.rememberLogin` chooses the first screen.  Log-in writes the
    entry in its completion block; sign-up writes it when it is submitted;
    log-out clears it only when the server answered.

    * `SessionHeld` — what is known of the two while a request that changes
      the session is outstanding;
    * `session_agreement` — the two agree whenever no such request is
      outstanding, in every state of a run, exactly when every step of the
      run is `SessionSound`. -/

namespace FPMachine

open FPParse FPScreens EventRun NestingLock

variable {Picture Data : Type} {kit : ImageKit Picture Data} {s t : App Picture Data}

/-- `userloggedin` is set exactly when Parse has a current user. -/
def App.agrees (s : App Picture Data) : Prop :=
  s.userloggedin.isSome = s.current.isSome

/-- What is known while a request that changes the session is outstanding;
    the replies are those Parse can give. -/
def SessionHeld (s : App Picture Data) (q : Outstanding Picture Data) : Prop :=
  match q.request, q.reply with
  | .signUp .., none | .signUp .., some (.failure _) => s.userloggedin.isSome = true
  | .signUp .., some (.user _) =>
      s.userloggedin.isSome = true ∧ s.current.isSome = true
  | .logIn .., none | .logIn .., some (.failure _) | .logOut, none => s.agrees
  | .logIn .., some (.user _) => s.current.isSome = true
  | .logOut, some _ => s.current = none
  | _, _ => False

/-- A refused request leaves the two in agreement: a refused sign-up under a
    signed-in user, a refused log-out without a stored login. -/
def RefusalSound (s : App Picture Data) : Request Data → Prop
  | .signUp .. => s.current.isSome = true
  | .logOut => s.userloggedin = none
  | _ => True

/-- The process may be killed while the request is outstanding: not between
    the two writes it makes. -/
def KillSound (s : App Picture Data) (q : Outstanding Picture Data) : Prop :=
  match q.request, q.reply with
  | .signUp .., _ => s.current.isSome = true
  | .logIn .., some (.user _) => s.userloggedin.isSome = true
  | .logOut, some _ => s.userloggedin = none
  | _, _ => True

/-- What a completion block and a restart need to leave the two in
    agreement. -/
def SessionSound (s : App Picture Data) : Event Picture Data → Prop
  | .complete i => ∀ q e, s.outstanding[i]? = some q → q.reply = some (.failure e) →
      RefusalSound s q.request
  | .restart => ∀ q ∈ s.sessions, KillSound s q
  | _ => True

/-- The session while the app runs. -/
structure SessionInv (s : App Picture Data) : Prop where
  exclusive : s.gate.Exclusive
  one : s.sessions.length ≤ 1
  held : ∀ q ∈ s.sessions, SessionHeld s q
  settled : s.sessions = [] → s.agrees

/-- With no request that changes the session outstanding, the two agree, and a
    launch shows the tab bar exactly when there is a signed-in user. -/
def SessionAgrees (kit : ImageKit Picture Data) [DecidableEq Picture]
    (t : App Picture Data) : Prop :=
  t.sessions = [] →
    (t.userloggedin.isSome ↔ t.current.isSome)
      ∧ ∀ u, t.step kit .restart = some u → (u.root = .tabBar ↔ u.current.isSome)

theorem rememberLogin_eq (userloggedin : Option Text) :
    rememberLogin userloggedin = .tabBar ↔ userloggedin.isSome = true := by
  cases userloggedin <;> simp [rememberLogin]

theorem sessionAgrees_iff [DecidableEq Picture] :
    SessionAgrees kit t ↔ (t.sessions = [] → t.agrees) := by
  constructor
  · intro h hnone
    exact Bool.eq_iff_iff.mpr (h hnone).1
  · intro h hnone
    have hiff : t.userloggedin.isSome ↔ t.current.isSome := Bool.eq_iff_iff.mp (h hnone)
    refine ⟨hiff, ?_⟩
    intro u hu
    rw [← Option.some.inj hu]
    exact (rememberLogin_eq t.userloggedin).trans hiff

/-! ## One step -/

theorem sessions_same (h : t.locked = s.locked) : t.sessions = s.sessions := by
  rw [sessions_eq, sessions_eq, h]

theorem agrees_congr (hflag : t.userloggedin = s.userloggedin)
    (huser : t.current.isSome = s.current.isSome) : t.agrees ↔ s.agrees := by
  rw [App.agrees, App.agrees, hflag, huser]

theorem held_congr (hflag : t.userloggedin = s.userloggedin)
    (huser : t.current.isSome = s.current.isSome) {q : Outstanding Picture Data}
    (h : SessionHeld s q) : SessionHeld t q := by
  have hnone : t.current = none ↔ s.current = none := by
    rw [← Option.isSome_eq_false_iff.trans Option.isNone_iff_eq_none,
      ← Option.isSome_eq_false_iff.trans Option.isNone_iff_eq_none, huser]
  rw [SessionHeld] at h ⊢
  rw [hflag, huser, hnone, agrees_congr hflag huser]
  exact h

/-- The session is untouched when the flag, the user and the requests are. -/
theorem sessionInv_same (hs : SessionInv s) (hx : t.gate.Exclusive)
    (hflag : t.userloggedin = s.userloggedin)
    (huser : t.current.isSome = s.current.isSome) (hsessions : t.sessions = s.sessions) :
    SessionInv t where
  exclusive := hx
  one := by rw [hsessions]; exact hs.one
  held := by
    intro q hq
    rw [hsessions] at hq
    exact held_congr hflag huser (hs.held q hq)
  settled := by
    intro hnone
    rw [hsessions] at hnone
    exact (agrees_congr hflag huser).mpr (hs.settled hnone)

/-- The session when no request that changes it is outstanding. -/
theorem sessionInv_of_none (hx : t.gate.Exclusive) (hnone : t.sessions = [])
    (hagrees : t.agrees) : SessionInv t where
  exclusive := hx
  one := by rw [hnone]; exact Nat.zero_le 1
  held := by
    intro q hq
    rw [hnone] at hq
    exact absurd hq List.not_mem_nil
  settled := fun _ => hagrees

/-- The session when one request that changes it is outstanding. -/
theorem sessionInv_of_one (q : Outstanding Picture Data) (hx : t.gate.Exclusive)
    (hone : t.sessions = [q]) (hheld : SessionHeld t q) : SessionInv t where
  exclusive := hx
  one := by rw [hone]; exact Nat.le_refl 1
  held := by
    intro q' hq'
    rw [hone] at hq'
    rw [List.mem_singleton.mp hq']
    exact hheld
  settled := by
    intro hnone
    rw [hone] at hnone
    exact absurd hnone (List.cons_ne_nil q [])

theorem sessions_nil_of_locked (h : s.locked = []) : s.sessions = [] := by
  rw [sessions_eq, h]
  rfl

/-- A list of at most one element is known by a member. -/
theorem eq_singleton_of_mem {A : Type} {l : List A} {a : A} (hone : l.length ≤ 1)
    (ha : a ∈ l) : l = [a] := by
  match l, hone, ha with
  | [b], _, ha => rw [List.mem_singleton.mp ha]

/-- Settling a request that does not change the session. -/
theorem settle_other {q : Outstanding Picture Data} {reply : Reply Data}
    (hother : q.isSession = false) : settledUser s.current q.request reply = s.current := by
  obtain ⟨request, _, _, _⟩ := q
  cases request with
  | signUp _ _ _ => exact absurd hother.symm Bool.false_ne_true
  | logIn _ _ => exact absurd hother.symm Bool.false_ne_true
  | logOut => exact absurd hother.symm Bool.false_ne_true
  | search _ => rfl
  | searchPicture _ => rfl
  | savePost _ => rfl
  | saveProfilePicture => rfl
  | saveUsername => rfl
  | saveUserInfo => rfl
  | profilePictureData _ => rfl
  | headerPictureData _ => rfl
  | posts _ _ => rfl

/-- Settling the request that changes the session. -/
theorem settle_held {i : Nat} {q : Outstanding Picture Data} {reply : Reply Data}
    (hsession : q.isSession = true) (unsettled : q.reply = none)
    (accepts : q.request.accepts reply = true) (hheld : SessionHeld s q) :
    SessionHeld (s.settle i q reply) { q with reply := some reply } := by
  obtain ⟨request, reply', screen, form⟩ := q
  obtain rfl : reply' = none := unsettled
  cases request with
  | signUp username password email =>
      have hflag : s.userloggedin.isSome = true := hheld
      cases reply with
      | failure e => exact hflag
      | user u => exact ⟨hflag, rfl⟩
      | success => exact absurd accepts Bool.false_ne_true
      | objects _ => exact absurd accepts Bool.false_ne_true
      | data _ => exact absurd accepts Bool.false_ne_true
  | logIn username password =>
      have hagrees : s.agrees := hheld
      cases reply with
      | failure e => exact hagrees
      | user u => exact rfl
      | success => exact absurd accepts Bool.false_ne_true
      | objects _ => exact absurd accepts Bool.false_ne_true
      | data _ => exact absurd accepts Bool.false_ne_true
  | logOut => exact rfl
  | _ => exact absurd hsession Bool.false_ne_true

/-- Issuing a request that changes the session. -/
theorem acquired_held {request : Request Data} (hsession : isSession request = true)
    (hagrees : s.agrees) :
    SessionHeld (s.acquired request) ⟨request, none, 0, s.inputs⟩ := by
  cases request with
  | signUp username password email => exact rfl
  | logIn username password => exact hagrees
  | logOut => exact hagrees
  | _ => exact absurd hsession Bool.false_ne_true

/-- Issuing any other request leaves the flag alone. -/
theorem acquiredFlag_other {request : Request Data} (hother : isSession request = false) :
    acquiredFlag s.userloggedin request = s.userloggedin := by
  cases request with
  | signUp _ _ _ => exact absurd hother.symm Bool.false_ne_true
  | _ => rfl

/-- What the completion block of the session's request leaves: agreement,
    exactly when the completion is sound. -/
theorem finished_agrees_iff (kit : ImageKit Picture Data) {i : Nat}
    {q : Outstanding Picture Data} {reply : Reply Data}
    (hq : s.outstanding[i]? = some q) (settled : q.reply = some reply)
    (hsession : q.isSession = true) (hheld : SessionHeld s q) :
    (s.finished kit i q.request reply).agrees ↔ SessionSound s (.complete i) := by
  obtain ⟨request, reply', screen, form⟩ := q
  obtain rfl : reply' = some reply := settled
  have hsound : SessionSound s (.complete i)
      ↔ ∀ e, reply = .failure e → RefusalSound s request := by
    constructor
    · intro h e he
      exact h _ e hq (congrArg some he)
    · intro h q' e hq' he
      rw [hq] at hq'
      obtain rfl := Option.some.inj hq'
      exact h e (Option.some.inj he)
  rw [hsound]
  cases request with
  | signUp username password email =>
      cases reply with
      | failure e =>
          -- the login was stored at the press, and the failure branch keeps it
          have hflag : s.userloggedin.isSome = true := hheld
          constructor
          · intro h _ _
            have hagrees : s.userloggedin.isSome = s.current.isSome := h
            exact hagrees.symm.trans hflag
          · intro h
            have huser : s.current.isSome = true := h e rfl
            exact hflag.trans huser.symm
      | user u =>
          obtain ⟨hflag, huser⟩ := hheld
          refine iff_of_true ?_ (fun e he => Reply.noConfusion rfl (heq_of_eq he))
          show s.userloggedin.isSome = s.current.isSome
          rw [hflag, huser]
      | success => exact hheld.elim
      | objects _ => exact hheld.elim
      | data _ => exact hheld.elim
  | logIn username password =>
      -- the entry is written in the success branch only
      refine iff_of_true ?_ (fun _ _ => trivial)
      cases reply with
      | failure e => exact hheld
      | user u =>
          have huser : s.current.isSome = true := hheld
          show true = s.current.isSome
          rw [huser]
      | success => exact hheld.elim
      | objects _ => exact hheld.elim
      | data _ => exact hheld.elim
  | logOut =>
      have huser : s.current = none := hheld
      cases he : replyError reply with
      | none =>
          refine iff_of_true ?_ ?_
          · show (finishedFlag s .logOut reply).isSome = s.current.isSome
            simp [finishedFlag, he, huser]
          · intro e hfail
            rw [hfail] at he
            exact absurd he (by simp [replyError])
      | some e =>
          -- the user is gone, and the failure branch keeps the stored login
          have hflag : (s.finished kit i .logOut reply).agrees ↔ s.userloggedin = none := by
            simp [App.agrees, App.finished, finishedFlag, he, huser]
          have hfail : reply = .failure e := by
            cases reply with
            | failure message => exact congrArg Reply.failure (Option.some.inj he)
            | _ => exact absurd he.symm (Option.some_ne_none e)
          rw [hflag]
          exact ⟨fun h _ _ => h, fun h => h e hfail⟩
  | _ => exact absurd hsession Bool.false_ne_true

/-- Any other completion block leaves the flag alone. -/
theorem finishedFlag_other {request : Request Data} {reply : Reply Data}
    (hother : isSession request = false) : finishedFlag s request reply = s.userloggedin := by
  cases request with
  | signUp _ _ _ => exact absurd hother.symm Bool.false_ne_true
  | logIn _ _ => exact absurd hother.symm Bool.false_ne_true
  | logOut => exact absurd hother.symm Bool.false_ne_true
  | _ => rfl

theorem locks_of_session {q : Outstanding Picture Data} (h : q.isSession = true) :
    q.request.locks = true := by
  obtain ⟨request, _, _, _⟩ := q
  cases request with
  | signUp _ _ _ => rfl
  | logIn _ _ => rfl
  | logOut => rfl
  | _ => exact absurd h Bool.false_ne_true

/-- The completion of any other request is sound. -/
theorem complete_sound_of_other {i : Nat} {q : Outstanding Picture Data}
    (hq : s.outstanding[i]? = some q) (hother : q.isSession = false) :
    SessionSound s (.complete i) := by
  intro q' e hq' _
  obtain rfl : q = q' := Option.some.inj (hq.symm.trans hq')
  obtain ⟨request, _, _, _⟩ := q
  cases request with
  | signUp _ _ _ => exact absurd hother.symm Bool.false_ne_true
  | logOut => exact absurd hother.symm Bool.false_ne_true
  | _ => trivial

/-- While another request holds the counter, none changes the session. -/
theorem sessions_nil_of_other {i : Nat} {q : Outstanding Picture Data}
    (hx : s.gate.Exclusive) (alive : s.crashed = none) (hq : s.outstanding[i]? = some q)
    (locks : q.request.locks = true) (hother : q.isSession = false) : s.sessions = [] := by
  rw [gate_alive alive] at hx
  have hmem : q ∈ s.locked := List.mem_filter.mpr ⟨List.mem_of_getElem? hq, locks⟩
  rw [sessions_eq, eq_singleton_of_mem hx.jobs_le_one hmem]
  simp [hother]

/-- The process may be killed exactly when it leaves the two in agreement. -/
theorem killSound_iff {q : Outstanding Picture Data} (hheld : SessionHeld s q) :
    KillSound s q ↔ s.agrees := by
  obtain ⟨request, reply, screen, form⟩ := q
  cases request with
  | signUp username password email =>
      -- whatever the answer, the login is stored from the press on
      have hflag : s.userloggedin.isSome = true := by
        cases reply with
        | none => exact hheld
        | some reply =>
            cases reply with
            | failure e => exact hheld
            | user u => exact hheld.1
            | success => exact hheld.elim
            | objects _ => exact hheld.elim
            | data _ => exact hheld.elim
      rw [App.agrees, hflag]
      exact eq_comm
  | logIn username password =>
      cases reply with
      | none => exact iff_of_true trivial hheld
      | some reply =>
          cases reply with
          | failure e => exact iff_of_true trivial hheld
          | user u =>
              have huser : s.current.isSome = true := hheld
              rw [App.agrees, huser]
              exact Iff.rfl
          | success => exact hheld.elim
          | objects _ => exact hheld.elim
          | data _ => exact hheld.elim
  | logOut =>
      cases reply with
      | none => exact iff_of_true trivial hheld
      | some reply =>
          have huser : s.current = none := hheld
          rw [App.agrees, huser]
          show s.userloggedin = none ↔ s.userloggedin.isSome = false
          exact Option.isSome_eq_false_iff.trans Option.isNone_iff_eq_none |>.symm
  | _ => exact hheld.elim

/-- A restart leaves the two in agreement exactly when it is sound. -/
theorem restart_agrees_iff (hs : SessionInv s) : s.agrees ↔ SessionSound s .restart := by
  constructor
  · intro hagrees q hq
    exact (killSound_iff (hs.held q hq)).mpr hagrees
  · intro hsound
    by_cases hnone : s.sessions = []
    · exact hs.settled hnone
    · obtain ⟨q, hq⟩ := List.exists_mem_of_ne_nil _ hnone
      exact (killSound_iff (hs.held q hq)).mp (hsound q hq)

/-! ## Every step -/

section

variable [DecidableEq Picture]

/-- **SESSION STEP**: a sound step keeps the session. -/
theorem session_step {e : Event Picture Data} (hs : SessionInv s)
    (hsound : SessionSound s e) (h : s.step kit e = some t) : SessionInv t := by
  have hx : t.gate.Exclusive := by
    obtain ⟨m, hm, -⟩ := app_simulates kit s e t h
    exact exclusive_move hs.exclusive hm
  cases step_core h with
  | still f alive paired typed same =>
      exact sessionInv_same hs hx same.userloggedin same.user (sessions_same same.locked)
  | @settle i reply q alive hq unsettled accepts =>
      have hnext : Outstanding.isSession { q with reply := some reply } = q.isSession := rfl
      cases hsession : q.isSession with
      | false =>
          refine sessionInv_same hs hx rfl ?_ ?_
          · exact congrArg Option.isSome (settle_other hsession)
          · exact filter_set_of_neg Outstanding.isSession hsession (hnext.trans hsession) hq
      | true =>
          -- it is the only request that changes the session
          have hmem : q ∈ s.sessions :=
            List.mem_filter.mpr ⟨List.mem_of_getElem? hq, hsession⟩
          have hnew : { q with reply := some reply } ∈ (s.settle i q reply).sessions :=
            List.mem_filter.mpr
              ⟨List.mem_set (List.getElem?_eq_some_iff.mp hq).1 _, hsession⟩
          have hlen : (s.settle i q reply).sessions.length = s.sessions.length :=
            length_filter_set Outstanding.isSession hnext hq
          refine sessionInv_of_one { q with reply := some reply } hx
            (eq_singleton_of_mem (by rw [hlen]; exact hs.one) hnew) ?_
          exact settle_held hsession unsettled accepts (hs.held q hmem)
  | crash alive paired crashed flag user sessions =>
      exact sessionInv_same hs hx flag user sessions
  | acquire request alive paired free locks issued submitted same =>
      -- touches are delivered only while no request holds the counter
      have hnone : s.locked = [] := locked_nil_of_free hs.exclusive alive free
      have hagrees : s.agrees := hs.settled (sessions_nil_of_locked hnone)
      have hlocked : t.locked = [⟨request, none, 0, s.inputs⟩] := by
        rw [same.locked, locked_acquired s locks, hnone]
        rfl
      cases hsession : isSession request with
      | false =>
          have hflag : t.userloggedin = s.userloggedin :=
            same.userloggedin.trans (acquiredFlag_other hsession)
          refine sessionInv_of_none hx ?_ ((agrees_congr hflag same.user).mpr hagrees)
          rw [sessions_eq, hlocked]
          simp [Outstanding.isSession, hsession]
      | true =>
          refine sessionInv_of_one ⟨request, none, 0, s.inputs⟩ hx ?_ ?_
          · rw [sessions_eq, hlocked]
            simp [Outstanding.isSession, hsession]
          · exact held_congr same.userloggedin same.user (acquired_held hsession hagrees)
  | seize alive unpaired free same =>
      exact sessionInv_same hs hx same.userloggedin same.user (sessions_same same.locked)
  | stray alive unpaired free same =>
      exact sessionInv_same hs hx same.userloggedin same.user (sessions_same same.locked)
  | @finish i q reply t alive hq settled locks same =>
      refine sessionInv_of_none hx ?_ ?_
      · exact sessions_nil_of_locked (locked_nil_of_finish hs.exclusive alive hq locks same)
      · refine (agrees_congr same.userloggedin same.user).mpr ?_
        cases hsession : q.isSession with
        | false =>
            have hflag : (s.finished kit i q.request reply).userloggedin = s.userloggedin :=
              finishedFlag_other hsession
            refine (agrees_congr hflag rfl).mpr (hs.settled ?_)
            exact sessions_nil_of_other hs.exclusive alive hq locks hsession
        | true =>
            have hmem : q ∈ s.sessions :=
              List.mem_filter.mpr ⟨List.mem_of_getElem? hq, hsession⟩
            exact (finished_agrees_iff kit hq settled hsession (hs.held q hmem)).mpr hsound
  | restart =>
      exact sessionInv_of_none hx rfl ((restart_agrees_iff hs).mpr hsound)

/-- A step that is not sound leaves the two apart, with nothing outstanding. -/
theorem session_break {e : Event Picture Data} (hs : SessionInv s)
    (hunsound : ¬ SessionSound s e) (h : s.step kit e = some t) :
    t.sessions = [] ∧ ¬ t.agrees := by
  cases e with
  | restart =>
      rw [← Option.some.inj h]
      exact ⟨rfl, fun hagrees => hunsound ((restart_agrees_iff hs).mp hagrees)⟩
  | complete i =>
      obtain ⟨q, reply, alive, hq, settled, rfl⟩ := complete_eq h
      cases hsession : q.isSession with
      | false => exact absurd (complete_sound_of_other hq hsession) hunsound
      | true =>
          have hlocks : q.request.locks = true := locks_of_session hsession
          have hmem : q ∈ s.sessions :=
            List.mem_filter.mpr ⟨List.mem_of_getElem? hq, hsession⟩
          rcases block_finished kit i reply alive hlocks with same | ⟨hr, -⟩
          · refine ⟨sessions_nil_of_locked
              (locked_nil_of_finish hs.exclusive alive hq hlocks same), ?_⟩
            intro hagrees
            refine hunsound ((finished_agrees_iff kit hq settled hsession
              (hs.held q hmem)).mp ?_)
            exact (agrees_congr same.userloggedin same.user).mp hagrees
          · rw [Outstanding.isSession, hr] at hsession
            exact absurd hsession Bool.false_ne_true
  | touch _ => exact absurd trivial hunsound
  | settle _ _ => exact absurd trivial hunsound
  | scroll _ _ _ _ => exact absurd trivial hunsound
  | header _ => exact absurd trivial hunsound

end

/-- **SESSION AGREEMENT**: from a fresh installation on, the stored login and
    Parse's current user agree whenever no request that changes them is
    outstanding, exactly when every step of the run is sound. -/
theorem session_agreement [DecidableEq Picture] (kit : ImageKit Picture Data)
    (es : List (Event Picture Data)) :
    (∀ pre t, Visits (App.step kit) (App.launch kit none none) es pre t →
        SessionAgrees kit t)
      ↔ (∀ pre t e, Fires (App.step kit) (App.launch kit none none) es pre t e →
        SessionSound t e) := by
  refine visits_iff (fun _ t => SessionInv t) (fun _ t e => SessionSound t e) ?_ ?_ ?_ ?_
  · exact sessionInv_of_none (launch_exclusive none none) rfl rfl
  · intro _ t e u hs hsound hu
    exact session_step hs hsound hu
  · intro _ t hs
    exact sessionAgrees_iff.mpr hs.settled
  · intro _ t e u hs hunsound hu hagrees
    obtain ⟨hnone, hapart⟩ := session_break hs hunsound hu
    exact hapart (sessionAgrees_iff.mp hagrees hnone)

/-- After a refused sign-up nothing is outstanding and nobody is signed in,
    but the login is stored: the next launch shows the tab bar. -/
theorem session_apart_after_refusedSignUp :
    ¬ ∀ pre t, Visits (App.step numberKit) (App.launch numberKit none none) refusedSignUp
        pre t → SessionAgrees numberKit t := by
  intro h
  have hrun : ∃ t, run (App.step numberKit) (App.launch numberKit none none) refusedSignUp
      = some t ∧ t.sessions = [] ∧ t.userloggedin.isSome = true ∧ t.current.isSome = false :=
    ⟨_, rfl, rfl, rfl, rfl⟩
  obtain ⟨t, ht, hnone, hflag, huser⟩ := hrun
  have hagrees := ((h refusedSignUp t ⟨List.prefix_rfl, ht⟩) hnone).1.mp hflag
  rw [huser] at hagrees
  exact Bool.false_ne_true hagrees

end FPMachine

import FPApp.SessionProofs

/-! # The forced unwraps of the current user

    `User`, `EditProfile`, `PostScene` and `SignUpUserInfoPage` evaluate
    `PFUser.current()!`.  What keeps the current user there is only that the
    screens are shown to a signed-in user; but a log-out clears it before its
    block runs, and when the block receives an error the app stays on the
    tab bar.

    * `Unwraps` — the events whose handlers reach a forced unwrap;
    * `traps_iff` — such an event kills the process exactly when there is no
      current user;
    * `no_trap_iff` — a run on the tab bar never traps exactly when no
      unwrapping event follows the settling of a log-out. -/

namespace FPMachine

open FPParse FPScreens EventRun NestingLock

variable {Picture Data : Type} {kit : ImageKit Picture Data} {s t : App Picture Data}

/-! ## Effects that cannot trap -/

/-- The effect cannot trap. -/
def Trapless : Effect Data → Prop
  | .trap _ => False
  | .performSegue identifier => identifier ≠ "backAfterSaved"
  | _ => True

theorem exec_trapless (i : Nat) (s : App Picture Data) {e : Effect Data} (he : Trapless e) :
    (s.exec i e).crashed = s.crashed := by
  cases e with
  | trap _ => exact he.elim
  | performSegue identifier =>
      have hid : identifier ≠ "backAfterSaved" := he
      rw [App.exec, if_neg hid]
      split
      · rfl
      · rfl
  | _ => rfl

/-- A handler whose effects cannot trap leaves the process running. -/
theorem perform_trapless (i : Nat) :
    ∀ (fx : List (Effect Data)) (s : App Picture Data), s.crashed = none →
      (∀ e ∈ fx, Trapless e) → (s.perform i fx).crashed = none := by
  intro fx
  induction fx with
  | nil => intro s alive _; exact alive
  | cons e fx ih =>
      intro s alive hfx
      have hexec : (s.exec i e).crashed = none :=
        (exec_trapless i s (hfx e List.mem_cons_self)).trans alive
      rw [perform_cons, if_pos hexec]
      exact ih (s.exec i e) hexec (fun f hf => hfx f (List.mem_cons_of_mem e hf))

/-- A handler whose first effect is a failing unwrap. -/
theorem perform_trap (i : Nat) (s : App Picture Data) (x : Trap)
    (fx : List (Effect Data)) : s.perform i (.trap x :: fx) = { s with crashed := some x } := by
  rw [perform_cons, if_neg (by simp [App.exec, App.act])]
  rfl

/-- A handler whose second effect is a failing unwrap. -/
theorem perform_then_trap (i : Nat) {e : Effect Data} (x : Trap) (alive : s.crashed = none)
    (he : Trapless e) : (s.perform i [e, .trap x]).crashed = some x := by
  rw [perform_cons, if_pos ((exec_trapless i s he).trans alive), perform_trap]

theorem ne_trap_of_none {x : Trap} (h : t.crashed = none) : t.crashed ≠ some x := by
  rw [h]
  exact (Option.some_ne_none x).symm

/-! ## The events that unwrap -/

/-- Under a signed-in user the screen `User` loads without a trap. -/
theorem showUser_safe {u : PFUser Data} (alive : s.crashed = none)
    (huser : s.current = some u) : s.showUser.crashed = none := by
  rcases showUser_cases s with ⟨-, hsame⟩ | ⟨hnone, -⟩
  · exact hsame.crashed.trans alive
  · exact absurd (huser.symm.trans hnone) (Option.some_ne_none u)

/-- Without a user its loading traps. -/
theorem showUser_traps (huser : s.current = none) :
    s.showUser.crashed = some .currentUser := by
  rcases showUser_cases s with ⟨hsome, -⟩ | ⟨-, t, -, ht⟩
  · exact absurd huser hsome
  · rw [ht]

/-- Scrolling traps when it loads more without a user. -/
theorem scroll_traps_iff {i : Nat} {u : UserScreen Data} {offset content frame : Int}
    (alive : s.crashed = none) :
    (s.scroll i u offset content frame).crashed = some .currentUser
      ↔ s.current = none ∧ offset ≥ content - frame * 2
        ∧ u.user.page ≤ u.user.pictureArray.length := by
  rw [App.scroll, User.scrollViewDidScroll]
  by_cases hoff : offset ≥ content - frame * 2
  · rw [if_pos hoff, User.loadMore]
    by_cases hpage : u.user.page ≤ u.user.pictureArray.length
    · rw [if_pos hpage]
      cases huser : s.current with
      | none =>
          refine iff_of_true ?_ ⟨rfl, hoff, hpage⟩
          exact congrArg App.crashed (perform_trap i _ .currentUser [])
      | some user =>
          refine iff_of_false (ne_trap_of_none ?_) (fun h => Option.some_ne_none _ h.1)
          exact perform_trapless i _ _ alive (by simp [User.loadPosts, Trapless])
    · rw [if_neg hpage]
      exact iff_of_false (ne_trap_of_none alive) (fun h => hpage h.2.2)
  · rw [if_neg hoff]
    exact iff_of_false (ne_trap_of_none alive) (fun h => hoff h.2.1)

/-- A header request traps without a user. -/
theorem header_traps_iff {i : Nat} {u : UserScreen Data} (alive : s.crashed = none) :
    (s.requestHeader i u).crashed = some .currentUser ↔ s.current = none := by
  rw [App.requestHeader]
  cases huser : s.current with
  | none =>
      refine iff_of_true ?_ rfl
      exact congrArg App.crashed (perform_trap i _ .currentUser [])
  | some user =>
      refine iff_of_false (ne_trap_of_none ?_) (Option.some_ne_none user)
      refine perform_trapless i _ _ alive ?_
      cases user.profilePicture <;> simp [Trapless]

/-- The completion block of a request that does not hold the counter never
    unwraps the current user. -/
theorem block_free_safe {i : Nat} {q : Outstanding Picture Data} {reply : Reply Data}
    (alive : s.crashed = none) (hfree : q.request.locks = false) :
    ((s.dropped i).block kit q reply).crashed ≠ some .currentUser := by
  have halive : (s.dropped i).crashed = none := alive
  obtain ⟨request, reply', screen, form⟩ := q
  cases request with
  | searchPicture file => exact ne_trap_of_none alive
  | saveProfilePicture =>
      refine ne_trap_of_none (perform_trapless 0 _ _ alive ?_)
      cases replyError reply <;> simp [EditProfile.savePictureBlock, Trapless]
  | saveUserInfo =>
      refine ne_trap_of_none (perform_trapless 0 _ _ alive ?_)
      cases replyError reply <;> simp [SignUpUserInfoPage.userInfoSaveBlock, Trapless]
  | profilePictureData file =>
      refine ne_trap_of_none ?_
      show (if screen = s.visit then _ else s.dropped i).crashed = none
      split
      · exact alive
      · exact alive
  | headerPictureData file => exact ne_trap_of_none alive
  | posts toUser limit =>
      rw [App.block]
      cases (s.dropped i).users[screen]? with
      | none => exact ne_trap_of_none alive
      | some u =>
          cases replyObjects reply with
          | error e =>
              refine ne_trap_of_none (perform_trapless screen _ _ alive ?_)
              simp [Trapless]
          | ok posts =>
              cases hfiles : User.imageFiles posts with
              | some files =>
                  refine ne_trap_of_none (perform_trapless screen _ _ alive ?_)
                  simp [hfiles, Trapless]
              | none =>
                  simp only [User.loadPostsBlock, hfiles]
                  rw [perform_trap]
                  simp
  | _ => exact absurd hfree.symm Bool.false_ne_true

/-! ## The requests of the tab bar -/

/-- The event belongs to the screens of the tab bar. -/
def Event.onTabBar : Event Picture Data → Bool
  | .touch .signUpRegisterButtonPressed | .touch .passwordsAlertOK | .touch .userInfoSave
  | .touch .skipYes | .touch .logInButtonPressed | .restart => false
  | _ => true

/-- Only a settling changes whether there is a current user. -/
theorem user_same {e : Event Picture Data} (hnot : ∀ i reply, e ≠ .settle i reply)
    (h : CoreStep kit s e t) : t.current.isSome = s.current.isSome := by
  cases h with
  | still f alive paired typed same => exact same.user
  | @settle i reply q alive hq unsettled accepts => exact absurd rfl (hnot i reply)
  | crash alive paired crashed flag user sessions => exact user
  | acquire request alive paired free locks issued submitted same => exact same.user
  | seize alive unpaired free same => exact same.user
  | stray alive unpaired free same => exact same.user
  | finish alive hq settled locks same => exact same.user
  | restart => rfl

theorem current_none_iff (h : t.current.isSome = s.current.isSome) :
    t.current = none ↔ s.current = none := by
  rw [← Option.isNone_iff_eq_none, ← Option.isNone_iff_eq_none, ← Option.not_isSome,
    ← Option.not_isSome, h]

/-- A touch of the tab bar issues no request that changes the session, but a
    log-out. -/
theorem issues_onTabBar {touch : Touch Picture} {request : Request Data}
    (htab : (Event.touch touch : Event Picture Data).onTabBar = true)
    (hissues : Issues s touch request) (hsession : isSession request = true) :
    request = .logOut := by
  cases request with
  | logOut => rfl
  | signUp _ _ _ =>
      cases touch with
      | signUpRegisterButtonPressed => exact absurd htab Bool.false_ne_true
      | _ => exact hissues.elim
  | logIn _ _ =>
      cases touch with
      | logInButtonPressed => exact absurd htab Bool.false_ne_true
      | _ => exact hissues.elim
  | _ => exact absurd hsession Bool.false_ne_true

/-- The username's save is issued by a signed-in user. -/
theorem issues_saveUsername {touch : Touch Picture} {request : Request Data}
    (hissues : Issues s touch request) (hsave : request = .saveUsername) :
    s.current ≠ none := by
  subst hsave
  cases touch with
  | saveProfile => exact hissues
  | _ => exact hissues.elim

/-- A step on the tab bar other than a settling. -/
theorem tabBar_requests {e : Event Picture Data} (htab : e.onTabBar = true)
    (hnot : ∀ i reply, e ≠ .settle i reply) (hx : s.gate.Exclusive)
    (hsessions : ∀ q ∈ s.sessions, q.request = .logOut)
    (hsaving : s.crashed = none →
      ∀ q ∈ s.locked, q.request = .saveUsername → s.current ≠ none)
    (h : CoreStep kit s e t) :
    (∀ q ∈ t.sessions, q.request = .logOut)
      ∧ (t.crashed = none →
        ∀ q ∈ t.locked, q.request = .saveUsername → t.current ≠ none) := by
  have huser := current_none_iff (user_same hnot h)
  -- steps that leave the requests holding the counter alone
  have hkept (alive : s.crashed = none) (same : t.locked = s.locked) :
      (∀ q ∈ t.sessions, q.request = .logOut)
        ∧ (t.crashed = none →
          ∀ q ∈ t.locked, q.request = .saveUsername → t.current ≠ none) := by
    rw [sessions_same same, same]
    refine ⟨hsessions, ?_⟩
    intro _ q hq hsave hnone
    exact hsaving alive q hq hsave (huser.mp hnone)
  cases h with
  | still f alive paired typed same => exact hkept alive same.locked
  | @settle i reply q alive hq unsettled accepts => exact absurd rfl (hnot i reply)
  | crash alive paired crashed flag user sessions =>
      rw [sessions]
      exact ⟨hsessions, fun talive => absurd talive crashed⟩
  | acquire request alive paired free locks issued submitted same =>
      have hlocked : t.locked = [⟨request, none, 0, s.inputs⟩] := by
        rw [same.locked, locked_acquired s locks, locked_nil_of_free hx alive free]
        rfl
      constructor
      · intro q hq
        rw [sessions_eq, hlocked] at hq
        obtain ⟨hmem, hsession⟩ := List.mem_filter.mp hq
        rw [List.mem_singleton.mp hmem] at hsession ⊢
        exact issues_onTabBar htab issued hsession
      · intro _ q hq hsave hnone
        rw [hlocked] at hq
        rw [List.mem_singleton.mp hq] at hsave
        exact issues_saveUsername issued hsave (huser.mp hnone)
  | seize alive unpaired free same => exact hkept alive same.locked
  | stray alive unpaired free same => exact hkept alive same.locked
  | finish alive hq settled locks same =>
      have hlocked : t.locked = [] := locked_nil_of_finish hx alive hq locks same
      rw [sessions_nil_of_locked hlocked, hlocked]
      exact ⟨fun q hq => absurd hq List.not_mem_nil,
        fun _ q hq => absurd hq List.not_mem_nil⟩
  | restart => exact absurd htab Bool.false_ne_true

/-- Settling on the tab bar: a log-out clears the user, and nothing else
    changes it. -/
theorem tabBar_settle {i : Nat} {q : Outstanding Picture Data} (reply : Reply Data)
    (hx : s.gate.Exclusive) (alive : s.crashed = none) (hq : s.outstanding[i]? = some q)
    (hsessions : ∀ q ∈ s.sessions, q.request = .logOut)
    (hsaving : s.crashed = none →
      ∀ q ∈ s.locked, q.request = .saveUsername → s.current ≠ none) :
    ((s.settle i q reply).current = none ↔ s.current = none ∨ q.request = .logOut)
      ∧ (∀ q' ∈ (s.settle i q reply).sessions, q'.request = .logOut)
      ∧ (∀ q' ∈ (s.settle i q reply).locked, q'.request = .saveUsername →
          (s.settle i q reply).current ≠ none) := by
  have hmem : q ∈ s.outstanding := List.mem_of_getElem? hq
  -- a member of the new list is the settled request or an old one
  have hold {q' : Outstanding Picture Data} (hq' : q' ∈ (s.settle i q reply).outstanding) :
      ∃ p ∈ s.outstanding, q'.request = p.request := by
    rcases List.mem_or_eq_of_mem_set hq' with hin | rfl
    · exact ⟨q', hin, rfl⟩
    · exact ⟨q, hmem, rfl⟩
  have hsess : ∀ q' ∈ (s.settle i q reply).sessions, q'.request = .logOut := by
    intro q' hq'
    obtain ⟨hin, hsession⟩ := List.mem_filter.mp hq'
    obtain ⟨p, hp, heq⟩ := hold hin
    rw [heq]
    refine hsessions p (List.mem_filter.mpr ⟨hp, ?_⟩)
    rw [Outstanding.isSession, ← heq]
    exact hsession
  by_cases hout : q.request = .logOut
  · refine ⟨iff_of_true ?_ (Or.inr hout), hsess, ?_⟩
    · show settledUser s.current q.request reply = none
      rw [hout]
      rfl
    · intro q' hq' hsave
      obtain ⟨hin, -⟩ := List.mem_filter.mp hq'
      obtain ⟨p, hp, heq⟩ := hold hin
      -- the log-out is the only request that holds the counter
      rw [gate_alive alive] at hx
      have hqlocked : q ∈ s.locked :=
        List.mem_filter.mpr ⟨hmem, by rw [Outstanding.locks, hout]; rfl⟩
      have hplocked : p ∈ s.locked :=
        List.mem_filter.mpr ⟨hp, by rw [Outstanding.locks, ← heq, hsave]; rfl⟩
      rw [eq_singleton_of_mem hx.jobs_le_one hqlocked] at hplocked
      rw [heq, List.mem_singleton.mp hplocked, hout] at hsave
      exact Request.noConfusion rfl (heq_of_eq hsave)
  · have hother : q.isSession = false := by
      cases hsession : q.isSession with
      | false => rfl
      | true => exact absurd (hsessions q (List.mem_filter.mpr ⟨hmem, hsession⟩)) hout
    have hcurrent : (s.settle i q reply).current = s.current := settle_other hother
    refine ⟨?_, hsess, ?_⟩
    · rw [hcurrent]
      exact (or_iff_left hout).symm
    · intro q' hq' hsave
      obtain ⟨hin, -⟩ := List.mem_filter.mp hq'
      obtain ⟨p, hp, heq⟩ := hold hin
      rw [hcurrent]
      refine hsaving alive p (List.mem_filter.mpr ⟨hp, ?_⟩) (heq ▸ hsave)
      rw [Outstanding.locks, ← heq, hsave]
      rfl

/-! ## Every event -/

section

variable [DecidableEq Picture]

/-- The handler of the event evaluates `PFUser.current()!`. -/
def Unwraps (kit : ImageKit Picture Data) (s : App Picture Data) :
    Event Picture Data → Prop
  -- the tab loads its screen once, the segues load a new one each time
  | .touch .selectUserTab => s.userTab = false
  | .touch .openEditProfile | .touch .cancel | .touch .saveProfile => True
  | .touch .userInfoSave => 3 < s.inputs.signUpUserInfoPage.username.count
  | .touch .post => s.inputs.postScene.Valid kit
  | .scroll i contentOffset contentHeight frameHeight =>
      contentOffset ≥ contentHeight - frameHeight * 2
        ∧ ∃ u, s.users[i]? = some u ∧ u.user.page ≤ u.user.pictureArray.length
  | .header _ => True
  | _ => False

/-- A touch that does not unwrap cannot trap. -/
theorem touch_safe {tt : Touch Picture} (alive : s.crashed = none)
    (hun : ¬ Unwraps kit s (.touch tt)) : (s.touch kit tt).crashed = none := by
  cases tt with
  | type field t => exact alive
  | passwordsAlertOK => exact alive
  | postImagePicked image => exact alive
  | profileImagePicked image => exact alive
  | selectUserTab =>
      have hloaded : s.userTab = true := (Bool.not_eq_false _).mp hun
      rw [App.touch, if_pos hloaded]
      exact alive
  | openEditProfile => exact absurd trivial hun
  | cancel => exact absurd trivial hun
  | saveProfile => exact absurd trivial hun
  | skipYes => exact perform_trapless 0 _ s alive (by simp [SignUpUserInfoPage.skipYes, Trapless])
  | refreseh i => exact perform_trapless i _ s alive (by simp [User.refreseh, Trapless])
  | logOutYes => exact perform_trapless 0 _ s alive (by simp [User.logOutYes, Trapless])
  | signUpRegisterButtonPressed =>
      refine perform_trapless 0 _ s alive ?_
      rcases s.inputs.signUpPage.signUpRegisterButtonPressed_cases Data
        with ⟨-, heq⟩ | ⟨-, alert, heq⟩
      · rw [heq]
        simp [Trapless]
      · rw [heq]
        simp [Trapless]
  | logInButtonPressed =>
      refine perform_trapless 0 _ s alive ?_
      rcases s.inputs.logInPage.logInButtonPressed_cases Data
        with ⟨-, heq⟩ | ⟨-, alert, heq⟩
      · rw [heq]
        simp [Trapless]
      · rw [heq]
        simp [Trapless]
  | searchButtonPressed =>
      refine perform_trapless 0 _ s alive ?_
      rw [SearchScene.searchButtonPressed]
      split
      · simp [Trapless]
      · simp [Trapless]
  | userInfoSave =>
      refine perform_trapless 0 _ s alive ?_
      rcases s.inputs.signUpUserInfoPage.userInfoSave_cases s.current
        with ⟨-, alert, heq⟩ | ⟨hlong, -, -⟩ | ⟨hlong, -, -⟩
      · rw [heq]
        simp [Trapless]
      · exact absurd hlong hun
      · exact absurd hlong hun
  | post =>
      refine perform_trapless 0 _ s alive ?_
      rcases s.inputs.postScene.post_cases kit s.current
        with ⟨-, alert, heq⟩ | ⟨hvalid, -⟩ | ⟨hvalid, -⟩ | ⟨hvalid, -⟩
      · rw [heq]
        simp [Trapless]
      · exact absurd hvalid hun
      · exact absurd hvalid hun
      · exact absurd hvalid hun

/-- A touch under a signed-in user cannot trap. -/
theorem touch_safe_of_user {u : PFUser Data} {tt : Touch Picture} (alive : s.crashed = none)
    (huser : s.current = some u) : (s.touch kit tt).crashed = none := by
  by_cases hun : Unwraps kit s (.touch tt)
  · cases tt with
    | selectUserTab =>
        have hload : s.userTab = false := hun
        rw [App.touch, hload]
        exact showUser_safe (s := { s with userTab := true }) alive huser
    | cancel => exact showUser_safe alive huser
    | openEditProfile =>
        rw [App.touch, huser]
        refine perform_trapless _ _ _ alive ?_
        cases u.profilePicture <;> simp [Trapless]
    | saveProfile =>
        rw [App.touch, huser, EditProfile.saveProfile_some]
        refine perform_trapless 0 _ s alive ?_
        intro e he
        rcases List.mem_append.mp he with hwrite | hrest
        · rcases List.mem_append.mp hwrite with hpic | hname
          · have hquiet := savePicture_quiet s.editScene e hpic
            cases e with
            | trap _ => exact hquiet.elim
            | performSegue _ => exact hquiet
            | _ => trivial
          · rw [List.mem_singleton.mp hname]
            trivial
        · split at hrest
          · rw [List.mem_singleton.mp hrest]
            trivial
          · simp only [List.mem_cons, List.not_mem_nil, or_false] at hrest
            rcases hrest with rfl | rfl | rfl <;> trivial
    | userInfoSave =>
        refine perform_trapless 0 _ s alive ?_
        rcases s.inputs.signUpUserInfoPage.userInfoSave_cases s.current
          with ⟨-, alert, heq⟩ | ⟨-, hnone, -⟩ | ⟨-, -, heq⟩
        · rw [heq]
          simp [Trapless]
        · exact absurd (huser.symm.trans hnone) (Option.some_ne_none u)
        · rw [heq]
          simp [Trapless]
    | post =>
        refine perform_trapless 0 _ s alive ?_
        rcases s.inputs.postScene.post_cases kit s.current
          with ⟨-, alert, heq⟩ | ⟨-, hnone, -⟩ | ⟨-, -, -, heq⟩ | ⟨-, user, image, -, -, heq⟩
        · rw [heq]
          simp [Trapless]
        · exact absurd (huser.symm.trans hnone) (Option.some_ne_none u)
        · rcases heq with heq | heq
          · rw [heq]
            simp [Trapless]
          · rw [heq]
            simp [Trapless]
        · rw [heq]
          simp [Trapless]
    | _ => exact hun.elim
  · exact touch_safe alive hun

/-- A touch that unwraps traps without a user. -/
theorem touch_traps {tt : Touch Picture} (alive : s.crashed = none) (huser : s.current = none)
    (hun : Unwraps kit s (.touch tt)) : (s.touch kit tt).crashed = some .currentUser := by
  cases tt with
  | selectUserTab =>
      have hload : s.userTab = false := hun
      rw [App.touch, hload]
      exact showUser_traps (s := { s with userTab := true }) huser
  | cancel => exact showUser_traps huser
  | openEditProfile =>
      rw [App.touch, huser, EditProfile.viewDidLoad]
      exact congrArg App.crashed (perform_trap _ _ .currentUser [])
  | saveProfile =>
      rw [App.touch, huser, EditProfile.saveProfile_none, perform_trap]
  | userInfoSave =>
      rcases s.inputs.signUpUserInfoPage.userInfoSave_cases s.current
        with ⟨hshort, -⟩ | ⟨-, -, heq⟩ | ⟨-, hsome, -⟩
      · have hlong : 3 < s.inputs.signUpUserInfoPage.username.count := hun
        omega
      · rw [App.touch, heq]
        exact perform_then_trap 0 .currentUser alive trivial
      · exact absurd huser hsome
  | post =>
      rcases s.inputs.postScene.post_cases kit s.current
        with ⟨hinvalid, -⟩ | ⟨-, -, heq⟩ | ⟨-, hsome, -⟩ | ⟨-, user, image, hsome, -⟩
      · exact absurd hun hinvalid
      · rw [App.touch, heq]
        exact perform_then_trap 0 .currentUser alive trivial
      · exact absurd huser hsome
      · exact absurd (hsome.symm.trans huser) (Option.some_ne_none user)
  | _ => exact hun.elim

/-- A completion unwraps the current user only to show `User` after the
    username's save. -/
theorem complete_traps {i : Nat} (h : s.step kit (.complete i) = some t)
    (htrap : t.crashed = some .currentUser) :
    s.current = none ∧ ∃ q ∈ s.locked, q.request = .saveUsername := by
  obtain ⟨q, reply, alive, hq, -, rfl⟩ := complete_eq h
  cases hlocks : q.request.locks with
  | false => exact absurd htrap (block_free_safe alive hlocks)
  | true =>
      rcases block_finished kit i reply alive hlocks with same | ⟨hr, -, huser, -⟩
      · rw [same.crashed] at htrap
        exact absurd htrap (ne_trap_of_none alive)
      · exact ⟨huser, q, List.mem_filter.mpr ⟨List.mem_of_getElem? hq, hlocks⟩, hr⟩

/-- **TRAPS**: an event other than a completion kills the process at a forced
    unwrap of the current user exactly when its handler reaches one and there
    is no current user. -/
theorem traps_iff {e : Event Picture Data} (alive : s.crashed = none)
    (hother : ∀ i, e ≠ .complete i) (h : s.step kit e = some t) :
    t.crashed = some .currentUser ↔ s.current = none ∧ Unwraps kit s e := by
  cases e with
  | complete i => exact absurd rfl (hother i)
  | restart =>
      rw [← Option.some.inj h]
      exact iff_of_false (ne_trap_of_none rfl) And.right
  | touch tt =>
      rw [App.step] at h
      obtain ⟨-, ht⟩ := Option.ite_none_right_eq_some.mp h
      rw [← Option.some.inj ht]
      by_cases hun : Unwraps kit s (.touch tt)
      · cases huser : s.current with
        | none => exact iff_of_true (touch_traps alive huser hun) ⟨rfl, hun⟩
        | some u =>
            exact iff_of_false (ne_trap_of_none (touch_safe_of_user alive huser))
              (fun h => Option.some_ne_none _ h.1)
      · exact iff_of_false (ne_trap_of_none (touch_safe alive hun)) (fun h => hun h.2)
  | settle i reply =>
      rw [App.step] at h
      cases hq : s.outstanding[i]? with
      | none => simp [hq] at h
      | some q =>
          simp only [hq] at h
          obtain ⟨-, ht⟩ := Option.ite_none_right_eq_some.mp h
          rw [← Option.some.inj ht]
          exact iff_of_false (ne_trap_of_none alive) And.right
  | scroll i offset content frame =>
      rw [App.step] at h
      cases hu : s.users[i]? with
      | none => simp [hu] at h
      | some u =>
          simp only [hu] at h
          obtain ⟨-, ht⟩ := Option.ite_none_right_eq_some.mp h
          rw [← Option.some.inj ht, scroll_traps_iff alive]
          refine and_congr_right (fun _ => and_congr_right (fun _ => ?_))
          constructor
          · intro hpage
            exact ⟨u, hu, hpage⟩
          · rintro ⟨v, hv, hpage⟩
            obtain rfl : u = v := Option.some.inj (hu.symm.trans hv)
            exact hpage
  | header i =>
      rw [App.step] at h
      cases hu : s.users[i]? with
      | none => simp [hu] at h
      | some u =>
          simp only [hu] at h
          obtain ⟨-, ht⟩ := Option.ite_none_right_eq_some.mp h
          rw [← Option.some.inj ht, header_traps_iff alive]
          exact (and_iff_left trivial).symm

/-! ## Runs on the tab bar -/

/-- The app while it shows the tab bar. -/
def App.tabBarStep (kit : ImageKit Picture Data) (s : App Picture Data)
    (e : Event Picture Data) : Option (App Picture Data) :=
  if e.onTabBar then s.step kit e else none

/-- The event settles a log-out. -/
def SettlesLogOut (s : App Picture Data) : Event Picture Data → Prop
  | .settle i _ => ∃ q, s.outstanding[i]? = some q ∧ q.request = .logOut
  | _ => False

/-- A log-out was settled, whatever the server answered. -/
def LoggedOut (kit : ImageKit Picture Data) (start : App Picture Data)
    (pre : List (Event Picture Data)) : Prop :=
  ∃ fpre t e, Fires (App.tabBarStep kit) start pre fpre t e ∧ SettlesLogOut t e

theorem loggedOut_nil (start : App Picture Data) : ¬ LoggedOut kit start [] := by
  rintro ⟨fpre, t, e, hf, -⟩
  exact absurd (List.prefix_nil.mp hf.1) (by simp)

/-- One more event: it settles a log-out, or one was settled before. -/
theorem loggedOut_concat {start u : App Picture Data} {pre : List (Event Picture Data)}
    {e : Event Picture Data} (hs : run (App.tabBarStep kit) start pre = some s)
    (h : s.tabBarStep kit e = some u) :
    LoggedOut kit start (pre ++ [e]) ↔ LoggedOut kit start pre ∨ SettlesLogOut s e := by
  constructor
  · rintro ⟨fpre, t, f, hf, hsettles⟩
    rcases fires_concat hf with hold | ⟨rfl, rfl, ht⟩
    · exact Or.inl ⟨fpre, t, f, hold, hsettles⟩
    · obtain rfl : s = t := Option.some.inj (hs.symm.trans ht)
      exact Or.inr hsettles
  · rintro (⟨fpre, t, f, hf, hsettles⟩ | hsettles)
    · exact ⟨fpre, t, f, hf.mono (List.prefix_append pre [e]), hsettles⟩
    · exact ⟨pre, s, e, ⟨List.prefix_rfl, hs, u, h⟩, hsettles⟩

/-- What holds along a run on the tab bar, as long as it does not trap. -/
structure TabBarInv (kit : ImageKit Picture Data) (start : App Picture Data)
    (pre : List (Event Picture Data)) (t : App Picture Data) : Prop where
  reached : run (App.tabBarStep kit) start pre = some t
  exclusive : t.gate.Exclusive
  safe : t.crashed ≠ some .currentUser
  user : t.current = none ↔ LoggedOut kit start pre
  sessions : ∀ q ∈ t.sessions, q.request = .logOut
  saving : t.crashed = none → ∀ q ∈ t.locked, q.request = .saveUsername → t.current ≠ none

/-- What settling a request requires and does. -/
theorem settle_eq {i : Nat} {reply : Reply Data} (h : s.step kit (.settle i reply) = some t) :
    ∃ q, s.crashed = none ∧ s.outstanding[i]? = some q ∧ t = s.settle i q reply := by
  rw [App.step] at h
  cases hq : s.outstanding[i]? with
  | none => simp [hq] at h
  | some q =>
      simp only [hq] at h
      obtain ⟨hguard, ht⟩ := Option.ite_none_right_eq_some.mp h
      exact ⟨q, hguard.1, rfl, (Option.some.inj ht).symm⟩

theorem alive_of_tabBar {e : Event Picture Data} (htab : e.onTabBar = true)
    (h : s.step kit e = some t) : s.crashed = none := by
  cases step_core h with
  | restart => exact absurd htab Bool.false_ne_true
  | _ => assumption

/-- On the tab bar a step traps exactly when it unwraps after a log-out. -/
theorem tabBar_traps_iff {start : App Picture Data} {pre : List (Event Picture Data)}
    {e : Event Picture Data} (hinv : TabBarInv kit start pre s) (htab : e.onTabBar = true)
    (h : s.step kit e = some t) :
    t.crashed = some .currentUser ↔ LoggedOut kit start pre ∧ Unwraps kit s e := by
  have alive : s.crashed = none := alive_of_tabBar htab h
  by_cases hcomplete : ∃ i, e = .complete i
  · obtain ⟨i, rfl⟩ := hcomplete
    refine iff_of_false ?_ And.right
    intro htrap
    obtain ⟨hnone, q, hq, hsave⟩ := complete_traps h htrap
    exact hinv.saving alive q hq hsave hnone
  · rw [traps_iff alive (fun i hi => hcomplete ⟨i, hi⟩) h, hinv.user]

/-- **TAB BAR STEP**: a step that does not unwrap after a log-out keeps the
    invariant. -/
theorem tabBarInv_step {start : App Picture Data} {pre : List (Event Picture Data)}
    {e : Event Picture Data} (hinv : TabBarInv kit start pre s)
    (hsound : LoggedOut kit start pre → ¬ Unwraps kit s e)
    (h : s.tabBarStep kit e = some t) : TabBarInv kit start (pre ++ [e]) t := by
  have hstep := h
  obtain ⟨htab, h⟩ := Option.ite_none_right_eq_some.mp h
  have hx : t.gate.Exclusive := by
    obtain ⟨m, hm, -⟩ := app_simulates kit s e t h
    exact exclusive_move hinv.exclusive hm
  have hreached := run_concat.mpr ⟨s, hinv.reached, hstep⟩
  have hsafe : t.crashed ≠ some .currentUser := by
    rw [Ne, tabBar_traps_iff hinv htab h]
    exact fun hbad => hsound hbad.1 hbad.2
  have hout := loggedOut_concat hinv.reached hstep
  by_cases hsettle : ∃ i reply, e = .settle i reply
  · obtain ⟨i, reply, rfl⟩ := hsettle
    obtain ⟨q, alive, hq, rfl⟩ := settle_eq h
    obtain ⟨huser, hsess, hsave⟩ :=
      tabBar_settle reply hinv.exclusive alive hq hinv.sessions hinv.saving
    refine ⟨hreached, hx, hsafe, ?_, hsess, fun _ => hsave⟩
    rw [huser, hout, hinv.user]
    refine or_congr_right ?_
    constructor
    · intro hlog
      exact ⟨q, hq, hlog⟩
    · rintro ⟨p, hp, hlog⟩
      obtain rfl : q = p := Option.some.inj (hq.symm.trans hp)
      exact hlog
  · have hnot : ∀ i reply, e ≠ .settle i reply := fun i reply he => hsettle ⟨i, reply, he⟩
    have hcore := step_core h
    obtain ⟨hsess, hsave⟩ :=
      tabBar_requests htab hnot hinv.exclusive hinv.sessions hinv.saving hcore
    refine ⟨hreached, hx, hsafe, ?_, hsess, hsave⟩
    rw [current_none_iff (user_same hnot hcore), hout, hinv.user]
    refine (or_iff_left ?_).symm
    intro hsettles
    cases e with
    | settle i reply => exact hnot i reply rfl
    | _ => exact hsettles.elim

/-- **NO TRAP**: a run that starts signed in on the tab bar never evaluates
    `PFUser.current()!` without a current user exactly when no unwrapping
    event is delivered after a log-out was settled. -/
theorem no_trap_iff (kit : ImageKit Picture Data) (userloggedin : Text) (user : PFUser Data)
    (es : List (Event Picture Data)) :
    (∀ pre t, Visits (App.tabBarStep kit)
        (App.launch kit (some userloggedin) (some user)) es pre t →
        t.crashed ≠ some .currentUser)
      ↔ (∀ pre t e, Fires (App.tabBarStep kit)
        (App.launch kit (some userloggedin) (some user)) es pre t e →
        LoggedOut kit (App.launch kit (some userloggedin) (some user)) pre →
        ¬ Unwraps kit t e) := by
  refine visits_iff (TabBarInv kit (App.launch kit (some userloggedin) (some user)))
    (fun pre t e => LoggedOut kit (App.launch kit (some userloggedin) (some user)) pre →
      ¬ Unwraps kit t e) ?_ ?_ ?_ ?_
  · refine ⟨rfl, launch_exclusive _ _, (Option.some_ne_none _).symm, ?_, ?_, ?_⟩
    · exact iff_of_false (Option.some_ne_none user) (loggedOut_nil _)
    · exact fun q hq => absurd hq List.not_mem_nil
    · exact fun _ q hq => absurd hq List.not_mem_nil
  · intro pre t e u hinv hsound hu
    exact tabBarInv_step hinv hsound hu
  · intro pre t hinv
    exact hinv.safe
  · intro pre t e u hinv hunsound hu
    rw [Classical.not_imp, not_not] at hunsound
    obtain ⟨htab, h⟩ := Option.ite_none_right_eq_some.mp hu
    exact not_not.mpr ((tabBar_traps_iff hinv htab h).mpr hunsound)

/-- A user who is signed in opens the User tab, logs out without a
    connection, and then opens EditProfile. -/
def refusedLogOut : List (Event Nat Nat) :=
  [.touch .selectUserTab, .touch .logOutYes,
    .settle 1 (.failure "The Internet connection appears to be offline."),
    .complete 1, .touch .openEditProfile]

/-- `viewDidLoad` of EditProfile unwraps the user that the log-out cleared. -/
theorem trap_after_refusedLogOut :
    ¬ ∀ pre t, Visits (App.tabBarStep numberKit)
        (App.launch numberKit (some (.repeating 5 'a'))
          (some ⟨.literal "u1", .repeating 5 'a', .repeating 5 'a', none⟩)) refusedLogOut pre t →
        t.crashed ≠ some .currentUser := by
  intro h
  have hrun : ∃ t, run (App.tabBarStep numberKit)
      (App.launch numberKit (some (.repeating 5 'a'))
        (some ⟨.literal "u1", .repeating 5 'a', .repeating 5 'a', none⟩)) refusedLogOut
      = some t ∧ t.crashed = some .currentUser := ⟨_, rfl, rfl⟩
  obtain ⟨t, ht, htrap⟩ := hrun
  exact h refusedLogOut t ⟨List.prefix_rfl, ht⟩ htrap

end

end FPMachine

import FPApp.AppProofs

/-! # What one step of the app can do

    The results about the app's counter, its session and its traps look at a
    few fields only.  `CoreStep` says once what a step does to them, guards
    included; `step_core` proves it of every event, and the later files argue
    from its cases alone.

    Most handlers are quiet: their effects leave these fields alone
    (`perform_quiet`).  What is left are the requests issued under
    `beginIgnoringInteractionEvents`, their completion blocks, and the three
    handlers that do not pair their calls. -/

namespace FPMachine

open FPParse FPScreens EventRun NestingLock

variable {Picture Data : Type}

/-! ## The requests that hold the counter -/

/-- The request was issued under `beginIgnoringInteractionEvents`. -/
def Outstanding.locks (q : Outstanding Picture Data) : Bool := q.request.locks

/-- The outstanding requests issued under `beginIgnoringInteractionEvents`. -/
def App.locked (s : App Picture Data) : List (Outstanding Picture Data) :=
  s.outstanding.filter Outstanding.locks

theorem filter_set_of_neg {A : Type} (p : A → Bool) {a b : A} (ha : p a = false)
    (hb : p b = false) :
    ∀ {l : List A} {i : Nat}, l[i]? = some a → (l.set i b).filter p = l.filter p := by
  intro l
  induction l with
  | nil => intro i h; simp at h
  | cons x l ih =>
      intro i h
      cases i with
      | zero =>
          have hx : x = a := by simpa using h
          subst hx
          simp [ha, hb]
      | succ i =>
          have hl : l[i]? = some a := by simpa using h
          simp only [List.set_cons_succ, List.filter_cons, ih hl]

theorem filter_eraseIdx_of_neg {A : Type} (p : A → Bool) {a : A} (ha : p a = false) :
    ∀ {l : List A} {i : Nat}, l[i]? = some a → (l.eraseIdx i).filter p = l.filter p := by
  intro l
  induction l with
  | nil => intro i h; simp at h
  | cons x l ih =>
      intro i h
      cases i with
      | zero =>
          have hx : x = a := by simpa using h
          subst hx
          simp [ha]
      | succ i =>
          have hl : l[i]? = some a := by simpa using h
          simp only [List.eraseIdx_cons_succ, List.filter_cons, ih hl]

theorem length_filter_set {A : Type} (p : A → Bool) {a b : A} (hab : p b = p a) :
    ∀ {l : List A} {i : Nat}, l[i]? = some a →
      ((l.set i b).filter p).length = (l.filter p).length := by
  intro l
  induction l with
  | nil => intro i h; simp at h
  | cons x l ih =>
      intro i h
      cases i with
      | zero =>
          have hx : x = a := by simpa using h
          subst hx
          cases hp : p x <;> simp [hab, hp]
      | succ i =>
          have hl : l[i]? = some a := by simpa using h
          cases hp : p x <;> simp [hp, ih hl]

theorem length_filter_eraseIdx {A : Type} (p : A → Bool) {a : A} (ha : p a = true) :
    ∀ {l : List A} {i : Nat}, l[i]? = some a →
      ((l.eraseIdx i).filter p).length + 1 = (l.filter p).length := by
  intro l
  induction l with
  | nil => intro i h; simp at h
  | cons x l ih =>
      intro i h
      cases i with
      | zero =>
          have hx : x = a := by simpa using h
          subst hx
          simp [ha]
      | succ i =>
          have hl : l[i]? = some a := by simpa using h
          cases hp : p x <;> simp [hp, ih hl]

/-! ## Quiet effects -/

/-- The two states agree on the counter, the session, the locked requests, the
    forms and the process. -/
structure SameCore (s t : App Picture Data) : Prop where
  lock : t.lock = s.lock
  unmatchedEnd : t.unmatchedEnd = s.unmatchedEnd
  userloggedin : t.userloggedin = s.userloggedin
  user : t.current.isSome = s.current.isSome
  locked : t.locked = s.locked
  inputs : t.inputs = s.inputs
  crashed : t.crashed = s.crashed

theorem SameCore.refl (s : App Picture Data) : SameCore s s :=
  ⟨rfl, rfl, rfl, rfl, rfl, rfl, rfl⟩

theorem SameCore.trans {s t u : App Picture Data} (h : SameCore s t) (k : SameCore t u) :
    SameCore s u :=
  ⟨k.lock.trans h.lock, k.unmatchedEnd.trans h.unmatchedEnd,
    k.userloggedin.trans h.userloggedin, k.user.trans h.user, k.locked.trans h.locked,
    k.inputs.trans h.inputs, k.crashed.trans h.crashed⟩

/-- The effects that leave the core alone. -/
def Quiet : Effect Data → Prop
  | .beginIgnoringInteractionEvents | .endIgnoringInteractionEvents | .setUserLoggedIn _
  | .trap _ => False
  | .send request => request.locks = false
  | .performSegue identifier => identifier ≠ "backAfterSaved"
  | _ => True

theorem locked_send (s : App Picture Data) (q : Outstanding Picture Data) :
    ({ s with outstanding := s.outstanding ++ [q] } : App Picture Data).locked
      = if q.request.locks then s.locked ++ [q] else s.locked := by
  cases hq : q.request.locks <;> simp [App.locked, Outstanding.locks, hq]

theorem exec_quiet (i : Nat) (s : App Picture Data) {e : Effect Data} (he : Quiet e) :
    SameCore s (s.exec i e) := by
  cases e with
  | beginIgnoringInteractionEvents => exact he.elim
  | endIgnoringInteractionEvents => exact he.elim
  | setUserLoggedIn _ => exact he.elim
  | trap _ => exact he.elim
  | present _ => exact SameCore.refl s
  | showHUD _ => exact SameCore.refl s
  | dismissHUD => exact SameCore.refl s
  | showHUDError _ => exact SameCore.refl s
  | showHUDSuccess _ => exact SameCore.refl s
  | reloadData => exact ⟨rfl, rfl, rfl, rfl, rfl, rfl, rfl⟩
  | setKey key value =>
      refine ⟨rfl, rfl, rfl, ?_, rfl, rfl, rfl⟩
      simp [App.exec, App.act]
  | send request =>
      have hr : request.locks = false := he
      refine ⟨rfl, rfl, rfl, rfl, ?_, rfl, rfl⟩
      rw [show s.exec i (.send request)
        = { s with outstanding := s.outstanding ++ [⟨request, none, i, s.inputs⟩] } from rfl,
        locked_send, hr]
      rfl
  | performSegue identifier =>
      have hid : identifier ≠ "backAfterSaved" := he
      rw [App.exec, if_neg hid]
      split
      · exact ⟨rfl, rfl, rfl, rfl, rfl, rfl, rfl⟩
      · exact SameCore.refl s

theorem perform_nil (i : Nat) (s : App Picture Data) : s.perform i [] = s := rfl

theorem perform_cons (i : Nat) (s : App Picture Data) (e : Effect Data)
    (fx : List (Effect Data)) :
    s.perform i (e :: fx)
      = if (s.exec i e).crashed = none then (s.exec i e).perform i fx else s.exec i e := rfl

/-- Quiet effects in front of others. -/
theorem perform_quiet_append (i : Nat) (gx : List (Effect Data)) :
    ∀ (fx : List (Effect Data)) (s : App Picture Data), (∀ e ∈ fx, Quiet e) →
      s.crashed = none →
      ∃ t, SameCore s t ∧ s.perform i (fx ++ gx) = t.perform i gx := by
  intro fx
  induction fx with
  | nil => intro s _ _; exact ⟨s, SameCore.refl s, rfl⟩
  | cons e fx ih =>
      intro s hfx hs
      have he := exec_quiet i s (hfx e List.mem_cons_self)
      obtain ⟨t, ht, hrun⟩ := ih (s.exec i e)
        (fun f hf => hfx f (List.mem_cons_of_mem e hf)) (he.crashed.trans hs)
      refine ⟨t, he.trans ht, ?_⟩
      rw [List.cons_append, perform_cons, if_pos (he.crashed.trans hs), hrun]

/-- **QUIET HANDLERS** leave the core alone. -/
theorem perform_quiet (i : Nat) {s : App Picture Data} {fx : List (Effect Data)}
    (hs : s.crashed = none) (hfx : ∀ e ∈ fx, Quiet e) : SameCore s (s.perform i fx) := by
  obtain ⟨t, ht, hrun⟩ := perform_quiet_append i [] fx s hfx hs
  rw [List.append_nil] at hrun
  rw [hrun]
  exact ht

/-- Showing `User` is quiet with a current user, and traps without. -/
theorem showUser_cases (s : App Picture Data) :
    (s.current ≠ none ∧ SameCore s s.showUser)
    ∨ (s.current = none ∧ ∃ t, SameCore s t
        ∧ s.showUser = { t with crashed := some .currentUser }) := by
  rw [App.showUser]
  cases hu : s.current with
  | none =>
      exact Or.inr ⟨rfl, { s with users := s.users ++ [⟨User.initial, false⟩] },
        ⟨rfl, rfl, rfl, rfl, rfl, rfl, rfl⟩, by simp [User.loadPosts, App.act, hu]⟩
  | some u =>
      refine Or.inl ⟨Option.some_ne_none u, ⟨rfl, rfl, rfl, ?_, ?_, rfl, rfl⟩⟩
      · simp [User.loadPosts, App.act, hu]
      · simp [User.loadPosts, App.act, App.locked, Outstanding.locks, Request.locks]

/-! ## The cases of a step -/

/-- The request is a sign-up. -/
def isSignUp : Request Data → Bool
  | .signUp .. => true
  | _ => false

/-- A sign-up is issued under `beginIgnoringInteractionEvents`. -/
theorem locks_of_isSignUp {request : Request Data} (h : isSignUp request = true) :
    request.locks = true := by
  cases request with
  | signUp _ _ _ => rfl
  | _ => exact absurd h Bool.false_ne_true

/-- The request changes the session: sign-up, log-in or log-out. -/
def isSession : Request Data → Bool
  | .signUp .. | .logIn .. | .logOut => true
  | _ => false

/-- The outstanding request changes the session. -/
def Outstanding.isSession (q : Outstanding Picture Data) : Bool :=
  FPMachine.isSession q.request

/-- The outstanding requests that change the session. -/
def App.sessions (s : App Picture Data) : List (Outstanding Picture Data) :=
  s.outstanding.filter Outstanding.isSession

theorem sessions_eq (s : App Picture Data) :
    s.sessions = s.locked.filter Outstanding.isSession := by
  rw [App.sessions, App.locked, List.filter_filter]
  refine List.filter_congr ?_
  rintro ⟨request, reply, screen, form⟩ _
  cases request <;> rfl

/-- The completion block of a locking request lowers the counter, but for the
    failure branch of `userSignUp`. -/
def releases (request : Request Data) (reply : Reply Data) : Bool :=
  !(isSignUp request && (replyError reply).isSome)

theorem releases_iff (request : Request Data) (reply : Reply Data) :
    releases request reply = true
      ↔ ¬ (isSignUp request = true ∧ replyError reply ≠ none) := by
  rw [releases, Bool.not_eq_true', Bool.and_eq_false_iff, not_and_or, ne_eq, not_not,
    Bool.not_eq_true, Option.isSome_eq_false_iff, Option.isNone_iff_eq_none]

/-- `userloggedin` after the touch that issues a request. -/
def acquiredFlag (old : Option Text) : Request Data → Option Text
  | .signUp username _ _ => some username
  | _ => old

/-- `userloggedin` after the completion block of a request. -/
def finishedFlag (s : App Picture Data) (request : Request Data) (reply : Reply Data) :
    Option Text :=
  match request, replyError reply with
  | .logIn .., none => some s.inputs.logInPage.emailLogInTextfield
  | .logOut, none => none
  | _, _ => s.userloggedin

/-- The forms after the completion block of a request: `post`'s block clears
    its own on success. -/
def finishedInputs (kit : ImageKit Picture Data) (s : App Picture Data)
    (request : Request Data) (reply : Reply Data) : Inputs Picture :=
  match request with
  | .savePost _ =>
      { s.inputs with
        postScene := (s.inputs.postScene.postBlock kit (replyError reply)).1 }
  | _ => s.inputs

section

variable (kit : ImageKit Picture Data)

/-- The step pairs its calls of `beginIgnoringInteractionEvents` and
    `endIgnoringInteractionEvents` with a request: it is not a search for the
    empty text, not a valid post whose image has no PNG, and not the failure
    block of a sign-up. -/
def Paired (s : App Picture Data) : Event Picture Data → Prop
  | .touch .searchButtonPressed => s.inputs.searchTextfield ≠ .empty
  | .touch .post =>
      s.current ≠ none → s.inputs.postScene.Valid kit →
        s.inputs.postScene.imageData kit ≠ none
  | .complete i => ∀ q reply, s.outstanding[i]? = some q → q.reply = some reply →
      ¬ (isSignUp q.request = true ∧ replyError reply ≠ none)
  | _ => True

/-- The request carries what its form held. -/
def Submitted (f : Inputs Picture) : Request Data → Prop
  | .signUp username password email =>
      username = f.signUpPage.signUpEmailTextField
        ∧ password = f.signUpPage.signUpPasswordTextfield
        ∧ email = f.signUpPage.signUpEmailTextField
  | .logIn username password =>
      username = f.logInPage.emailLogInTextfield
        ∧ password = f.logInPage.passwordLogInTextfield
  | .search username => username = f.searchTextfield
  | .savePost post => ∃ user image, f.postScene.imageData kit = some image
      ∧ post = PostScene.newPost user f.postScene image
  | _ => True

/-- The touch issues the request, in state `s`. -/
def Issues (s : App Picture Data) : Touch Picture → Request Data → Prop
  | .signUpRegisterButtonPressed, .signUp .. => True
  | .logInButtonPressed, .logIn .. => True
  | .searchButtonPressed, .search _ => True
  | .post, .savePost _ => s.current ≠ none
  | .saveProfile, .saveUsername => s.current ≠ none
  | .logOutYes, .logOut => True
  | _, _ => False

/-- The state after a locking request was issued, up to quiet effects. -/
def App.acquired (s : App Picture Data) (request : Request Data) : App Picture Data :=
  { s with
    lock := 1
    userloggedin := acquiredFlag s.userloggedin request
    outstanding := s.outstanding ++ [⟨request, none, 0, s.inputs⟩] }

/-- The state after the completion block of a locking request, up to quiet
    effects. -/
def App.finished (s : App Picture Data) (i : Nat) (request : Request Data)
    (reply : Reply Data) : App Picture Data :=
  { s with
    lock := if releases request reply then s.lock - 1 else s.lock
    unmatchedEnd := if releases request reply then s.unmatchedEnd || s.lock == 0
      else s.unmatchedEnd
    userloggedin := finishedFlag s request reply
    outstanding := s.outstanding.eraseIdx i
    inputs := finishedInputs kit s request reply }

/-- What a step does to the core of the state. -/
inductive CoreStep (s : App Picture Data) :
    Event Picture Data → App Picture Data → Prop where
  | still {e : Event Picture Data} {t : App Picture Data} (f : Inputs Picture)
      (alive : s.crashed = none) (paired : Paired kit s e)
      (typed : f = s.inputs ∨ s.lock = 0) (same : SameCore { s with inputs := f } t) :
      CoreStep s e t
  | settle {i : Nat} {reply : Reply Data} {q : Outstanding Picture Data}
      (alive : s.crashed = none) (hq : s.outstanding[i]? = some q) (unsettled : q.reply = none)
      (accepts : q.request.accepts reply = true) :
      CoreStep s (.settle i reply) (s.settle i q reply)
  | crash {e : Event Picture Data} {t : App Picture Data} (alive : s.crashed = none)
      (paired : Paired kit s e) (crashed : t.crashed ≠ none)
      (flag : t.userloggedin = s.userloggedin)
      (user : t.current.isSome = s.current.isSome) (sessions : t.sessions = s.sessions) :
      CoreStep s e t
  | acquire {touch : Touch Picture} {t : App Picture Data} (request : Request Data)
      (alive : s.crashed = none) (paired : Paired kit s (.touch touch)) (free : s.lock = 0)
      (locks : request.locks = true) (issued : Issues s touch request)
      (submitted : Submitted kit s.inputs request)
      (same : SameCore (s.acquired request) t) :
      CoreStep s (.touch touch) t
  | seize {t : App Picture Data} (alive : s.crashed = none)
      (unpaired : ¬ Paired kit s (.touch .post)) (free : s.lock = 0)
      (same : SameCore { s with lock := 1 } t) :
      CoreStep s (.touch .post) t
  | stray {t : App Picture Data} (alive : s.crashed = none)
      (unpaired : ¬ Paired kit s (.touch .searchButtonPressed)) (free : s.lock = 0)
      (same : SameCore { s with unmatchedEnd := true } t) :
      CoreStep s (.touch .searchButtonPressed) t
  | finish {i : Nat} {q : Outstanding Picture Data} {reply : Reply Data}
      {t : App Picture Data} (alive : s.crashed = none)
      (hq : s.outstanding[i]? = some q) (settled : q.reply = some reply)
      (locks : q.request.locks = true)
      (same : SameCore (s.finished kit i q.request reply) t) :
      CoreStep s (.complete i) t
  | restart : CoreStep s .restart (App.launch kit s.userloggedin s.current)

end

variable {kit : ImageKit Picture Data} {s : App Picture Data}

theorem locked_acquired (s : App Picture Data) {request : Request Data}
    (hr : request.locks = true) :
    (s.acquired request).locked = s.locked ++ [⟨request, none, 0, s.inputs⟩] := by
  have hsend := locked_send s ⟨request, none, 0, s.inputs⟩
  rw [if_pos hr] at hsend
  exact hsend

/-- A handler of quiet effects, started where only the forms may differ. -/
theorem still_of_quiet {e : Event Picture Data} {i : Nat} {f : Inputs Picture}
    {fx : List (Effect Data)} {t : App Picture Data} (alive : s.crashed = none)
    (typed : f = s.inputs ∨ s.lock = 0) (ht : SameCore { s with inputs := f } t)
    (hfx : ∀ g ∈ fx, Quiet g) (paired : Paired kit s e) :
    CoreStep kit s e (t.perform i fx) :=
  .still f alive paired typed (ht.trans (perform_quiet i (ht.crashed.trans alive) hfx))

/-- A handler that traps after quiet effects. -/
theorem crash_of_trap {e : Event Picture Data} {t : App Picture Data} {x : Trap}
    (alive : s.crashed = none) (ht : SameCore s t) (paired : Paired kit s e) :
    CoreStep kit s e { t with crashed := some x } := by
  refine .crash alive paired (by simp) ht.userloggedin ht.user ?_
  rw [sessions_eq s, ← ht.locked]
  exact sessions_eq { t with crashed := some x }

/-- A touch that shows a new `User`, from a state with the same core. -/
theorem showUser_core {e : Event Picture Data} {r : App Picture Data}
    (alive : s.crashed = none) (same : SameCore s r) (paired : Paired kit s e) :
    CoreStep kit s e r.showUser := by
  rcases showUser_cases r with ⟨-, hshown⟩ | ⟨-, t, hshown, ht⟩
  · exact .still s.inputs alive paired (Or.inl rfl) (same.trans hshown)
  · rw [ht]
    exact crash_of_trap alive (same.trans hshown) paired

/-! ## Touches -/

theorem savePicture_quiet (scene : EditProfile Picture) :
    ∀ e ∈ scene.savePicture kit, Quiet e := by
  rcases scene.savePicture_cases kit with ⟨-, hnone⟩ | ⟨data, -, hsave⟩
  · rw [hnone]
    exact fun e he => absurd he List.not_mem_nil
  · rw [hsave]
    simp [Quiet, Request.locks]

section

variable [DecidableEq Picture]

theorem touch_signUp (alive : s.crashed = none) (free : s.lock = 0) :
    CoreStep kit s (.touch .signUpRegisterButtonPressed)
      (s.touch kit .signUpRegisterButtonPressed) := by
  rcases s.inputs.signUpPage.signUpRegisterButtonPressed_cases Data with ⟨-, heq⟩ | ⟨-, alert, heq⟩
  · refine .acquire (.signUp s.inputs.signUpPage.signUpEmailTextField
      s.inputs.signUpPage.signUpPasswordTextfield
      s.inputs.signUpPage.signUpEmailTextField) alive trivial free rfl trivial ⟨rfl, rfl, rfl⟩ ?_
    have ht : s.touch kit .signUpRegisterButtonPressed
        = s.acquired (.signUp s.inputs.signUpPage.signUpEmailTextField
          s.inputs.signUpPage.signUpPasswordTextfield
          s.inputs.signUpPage.signUpEmailTextField) := by
      simp [App.touch, heq, perform_cons, perform_nil, App.exec, App.act, alive, free,
        App.acquired, acquiredFlag]
    rw [ht]
    exact SameCore.refl _
  · rw [App.touch, heq]
    refine still_of_quiet alive (Or.inl rfl) (SameCore.refl s) ?_ ?_
    · simp [Quiet]
    · exact trivial

theorem touch_logIn (alive : s.crashed = none) (free : s.lock = 0) :
    CoreStep kit s (.touch .logInButtonPressed) (s.touch kit .logInButtonPressed) := by
  rcases s.inputs.logInPage.logInButtonPressed_cases Data with ⟨-, heq⟩ | ⟨-, alert, heq⟩
  · refine .acquire (.logIn s.inputs.logInPage.emailLogInTextfield
      s.inputs.logInPage.passwordLogInTextfield) alive trivial free rfl trivial ⟨rfl, rfl⟩ ?_
    have ht : s.touch kit .logInButtonPressed
        = s.acquired (.logIn s.inputs.logInPage.emailLogInTextfield
          s.inputs.logInPage.passwordLogInTextfield) := by
      simp [App.touch, heq, perform_cons, perform_nil, App.exec, App.act, alive, free,
        App.acquired, acquiredFlag]
    rw [ht]
    exact SameCore.refl _
  · rw [App.touch, heq]
    refine still_of_quiet alive (Or.inl rfl) (SameCore.refl s) ?_ ?_
    · simp [Quiet]
    · exact trivial

theorem touch_search (alive : s.crashed = none) (free : s.lock = 0) :
    CoreStep kit s (.touch .searchButtonPressed) (s.touch kit .searchButtonPressed) := by
  by_cases htext : s.inputs.searchTextfield = .empty
  · refine .stray alive (fun h => h htext) free ?_
    have ht : s.touch kit .searchButtonPressed = { s with unmatchedEnd := true } := by
      simp [App.touch, App.search, SearchScene.searchButtonPressed, htext, perform_cons,
        perform_nil, App.exec, App.act, alive, free]
    rw [ht]
    exact SameCore.refl _
  · refine .acquire (.search s.inputs.searchTextfield) alive htext free rfl trivial rfl ?_
    have ht : s.touch kit .searchButtonPressed
        = s.acquired (.search s.inputs.searchTextfield) := by
      simp [App.touch, App.search, SearchScene.searchButtonPressed, htext, perform_cons,
        perform_nil, App.exec, App.act, alive, free, App.acquired, acquiredFlag]
    rw [ht]
    exact SameCore.refl _

theorem touch_post (alive : s.crashed = none) (free : s.lock = 0) :
    CoreStep kit s (.touch .post) (s.touch kit .post) := by
  rcases s.inputs.postScene.post_cases kit s.current with ⟨hvalid, alert, heq⟩
    | ⟨hvalid, huser, heq⟩ | ⟨hvalid, huser, hpng, heq⟩ | ⟨hvalid, user, image, huser, hpng, heq⟩
  · rw [App.touch, heq]
    refine still_of_quiet alive (Or.inl rfl) (SameCore.refl s) ?_ ?_
    · simp [Quiet]
    · exact fun _ h => absurd h hvalid
  · have ht : s.touch kit .post = { s with lock := 1, crashed := some .currentUser } := by
      simp [App.touch, heq, perform_cons, App.exec, App.act, alive, free]
    rw [ht]
    exact .crash alive (fun h => absurd huser h) (by simp) rfl rfl rfl
  · refine .seize alive (fun h => h huser hvalid hpng) free ?_
    have ht : s.touch kit .post = { s with lock := 1 } := by
      rcases heq with heq | heq <;>
        simp [App.touch, heq, perform_cons, perform_nil, App.exec, App.act, alive, free]
    rw [ht]
    exact SameCore.refl _
  · refine .acquire (.savePost (PostScene.newPost user s.inputs.postScene image)) alive
      (fun _ _ => by rw [hpng]; simp) free rfl (by rw [Issues, huser]; simp)
      ⟨user, image, hpng, rfl⟩ ?_
    have ht : s.touch kit .post
        = s.acquired (.savePost (PostScene.newPost user s.inputs.postScene image)) := by
      simp [App.touch, heq, perform_cons, perform_nil, App.exec, App.act, alive, free,
        App.acquired, acquiredFlag]
    rw [ht]
    exact SameCore.refl _

theorem touch_userInfoSave (alive : s.crashed = none) :
    CoreStep kit s (.touch .userInfoSave) (s.touch kit .userInfoSave) := by
  rcases s.inputs.signUpUserInfoPage.userInfoSave_cases s.current with ⟨-, alert, heq⟩
    | ⟨-, -, heq⟩ | ⟨-, -, heq⟩
  · rw [App.touch, heq]
    refine still_of_quiet alive (Or.inl rfl) (SameCore.refl s) ?_ ?_
    · simp [Quiet]
    · exact trivial
  · have ht : s.touch kit .userInfoSave = { s with crashed := some .currentUser } := by
      simp [App.touch, heq, perform_cons, App.exec, App.act, alive]
    rw [ht]
    refine crash_of_trap alive (SameCore.refl s) ?_
    exact trivial
  · rw [App.touch, heq]
    refine still_of_quiet alive (Or.inl rfl) (SameCore.refl s) ?_ ?_
    · simp [Quiet, Request.locks]
    · exact trivial

theorem touch_openEditProfile (alive : s.crashed = none) (free : s.lock = 0) :
    CoreStep kit s (.touch .openEditProfile) (s.touch kit .openEditProfile) := by
  cases huser : s.current with
  | none =>
      have ht : s.touch kit .openEditProfile
          = { s with
              editProfile := EditProfile.storyboard kit
              inputs := { s.inputs with usernameTextfield := .empty }
              visit := s.visit + 1
              crashed := some .currentUser } := by
        simp [App.touch, EditProfile.viewDidLoad, huser, perform_cons, App.exec, App.act,
          EditProfile.storyboard]
      rw [ht]
      refine .crash alive ?_ (by simp) rfl rfl rfl
      exact trivial
  | some u =>
      have ht : s.touch kit .openEditProfile
          = { s with
              editProfile := ((EditProfile.storyboard kit).viewDidLoad (some u)).1
              inputs := { s.inputs with usernameTextfield := u.username }
              visit := s.visit + 1 }.perform (s.visit + 1)
            ((EditProfile.storyboard kit).viewDidLoad (some u)).2 := by
        rw [App.touch, huser]
        rfl
      rw [ht]
      refine still_of_quiet alive (Or.inr free) ⟨rfl, rfl, rfl, rfl, rfl, rfl, rfl⟩ ?_ ?_
      · cases hpic : u.profilePicture <;>
          simp [EditProfile.viewDidLoad, hpic, Quiet, Request.locks]
      · exact trivial

theorem touch_saveProfile (alive : s.crashed = none) (free : s.lock = 0) :
    CoreStep kit s (.touch .saveProfile) (s.touch kit .saveProfile) := by
  cases huser : s.current with
  | none =>
      have ht : s.touch kit .saveProfile = { s with crashed := some .currentUser } := by
        simp [App.touch, huser, EditProfile.saveProfile_none, perform_cons, App.exec, App.act]
      rw [ht]
      refine crash_of_trap alive (SameCore.refl s) ?_
      exact trivial
  | some u =>
      have hquiet : ∀ e ∈ s.editScene.savePicture kit
          ++ [.setKey .username (.string s.editScene.usernameTextfield)], Quiet e := by
        intro e he
        rcases List.mem_append.mp he with hpic | hname
        · exact savePicture_quiet _ e hpic
        · rw [List.mem_singleton.mp hname]
          trivial
      obtain ⟨t, ht, hrun⟩ := perform_quiet_append 0
        (if s.editScene.usernameTextfield.count ≤ 3 then
          [.present ⟨"Length", "Username must be at least 4 characters"⟩]
        else [.showHUD "Uploading", .beginIgnoringInteractionEvents, .send .saveUsername])
        _ s hquiet alive
      rw [App.touch, huser, EditProfile.saveProfile_some, hrun]
      by_cases hcount : s.editScene.usernameTextfield.count ≤ 3
      · rw [if_pos hcount]
        refine still_of_quiet alive (Or.inl rfl) ht ?_ ?_
        · simp [Quiet]
        · exact trivial
      · rw [if_neg hcount]
        refine .acquire .saveUsername alive trivial free rfl (by rw [Issues, huser]; simp)
          trivial ?_
        have hlock : t.lock = 0 := ht.lock.trans free
        have halive : t.crashed = none := ht.crashed.trans alive
        have hacq : t.perform 0 [.showHUD "Uploading", .beginIgnoringInteractionEvents,
            .send .saveUsername] = t.acquired .saveUsername := by
          simp [perform_cons, perform_nil, App.exec, App.act, halive, hlock, App.acquired,
            acquiredFlag]
        rw [hacq]
        refine ⟨rfl, ht.unmatchedEnd, ht.userloggedin, ht.user, ?_, ht.inputs, ht.crashed⟩
        rw [locked_acquired t rfl, locked_acquired s rfl, ht.locked, ht.inputs]

theorem touch_logOutYes (alive : s.crashed = none) (free : s.lock = 0) :
    CoreStep kit s (.touch .logOutYes) (s.touch kit .logOutYes) := by
  refine .acquire .logOut alive trivial free rfl trivial trivial ?_
  have ht : s.touch kit .logOutYes = s.acquired .logOut := by
    simp [App.touch, User.logOutYes, perform_cons, perform_nil, App.exec, App.act, alive,
      free, App.acquired, acquiredFlag]
  rw [ht]
  exact SameCore.refl _

/-- Every touch. -/
theorem touch_core (alive : s.crashed = none) (free : s.lock = 0) (touch : Touch Picture) :
    CoreStep kit s (.touch touch) (s.touch kit touch) := by
  cases touch with
  | type field t =>
      exact .still (s.inputs.type field t) alive trivial (Or.inr free)
        ⟨rfl, rfl, rfl, rfl, rfl, rfl, rfl⟩
  | signUpRegisterButtonPressed => exact touch_signUp alive free
  | passwordsAlertOK =>
      exact .still { s.inputs with signUpPage := s.inputs.signUpPage.reset } alive trivial
        (Or.inr free) ⟨rfl, rfl, rfl, rfl, rfl, rfl, rfl⟩
  | userInfoSave => exact touch_userInfoSave alive
  | skipYes =>
      refine still_of_quiet alive (Or.inl rfl) (SameCore.refl s) ?_ ?_
      · simp [SignUpUserInfoPage.skipYes, Quiet]
      · exact trivial
  | logInButtonPressed => exact touch_logIn alive free
  | searchButtonPressed => exact touch_search alive free
  | postImagePicked image =>
      exact .still { s.inputs with postScene := s.inputs.postScene.imagePicked image } alive
        trivial (Or.inr free) ⟨rfl, rfl, rfl, rfl, rfl, rfl, rfl⟩
  | post => exact touch_post alive free
  | selectUserTab =>
      rw [App.touch]
      split
      · exact .still s.inputs alive trivial (Or.inl rfl) (SameCore.refl s)
      · refine showUser_core alive ⟨rfl, rfl, rfl, rfl, rfl, rfl, rfl⟩ ?_
        exact trivial
  | cancel =>
      refine showUser_core alive (SameCore.refl s) ?_
      exact trivial
  | refreseh i =>
      refine still_of_quiet alive (Or.inl rfl) (SameCore.refl s) ?_ ?_
      · simp [User.refreseh, Quiet]
      · exact trivial
  | openEditProfile => exact touch_openEditProfile alive free
  | profileImagePicked image =>
      exact .still s.inputs alive trivial (Or.inl rfl) ⟨rfl, rfl, rfl, rfl, rfl, rfl, rfl⟩
  | saveProfile => exact touch_saveProfile alive free
  | logOutYes => exact touch_logOutYes alive free

end

/-! ## Completion blocks -/

/-- The state in which a completion block runs: the request is no longer
    outstanding. -/
def App.dropped (s : App Picture Data) (i : Nat) : App Picture Data :=
  { s with outstanding := s.outstanding.eraseIdx i }

theorem dropped_same {i : Nat} {q : Outstanding Picture Data}
    (hq : s.outstanding[i]? = some q) (hfree : q.request.locks = false) :
    SameCore s (s.dropped i) :=
  ⟨rfl, rfl, rfl, rfl, filter_eraseIdx_of_neg Outstanding.locks hfree hq, rfl, rfl⟩

theorem dropped_sessions {i : Nat} {q : Outstanding Picture Data}
    (hq : s.outstanding[i]? = some q) (hfree : isSession q.request = false) :
    (s.dropped i).sessions = s.sessions :=
  filter_eraseIdx_of_neg Outstanding.isSession hfree hq

/-- The counter lowered once. -/
def App.lowered (s : App Picture Data) : App Picture Data :=
  { s with lock := s.lock - 1, unmatchedEnd := s.unmatchedEnd || s.lock == 0 }

/-- The block of `userSignUp` lowers the counter on success only. -/
theorem block_signUp (error : Option String) (alive : s.crashed = none) :
    s.perform 0 (SignUpPage.userSignUpBlock error)
      = if error.isSome then s else s.lowered := by
  cases error <;> simp [SignUpPage.userSignUpBlock, perform_cons, perform_nil, App.exec,
    App.act, App.lowered, alive]

/-- The block of `logInButtonPressed` lowers the counter in both branches. -/
theorem block_logIn (page : LogInPage) (error : Option String) (alive : s.crashed = none) :
    s.perform 0 (page.logInBlock error)
      = if error.isSome then s.lowered
        else { s.lowered with
          userloggedin := some page.emailLogInTextfield, userTab := false } := by
  cases error <;> simp [LogInPage.logInBlock, perform_cons, perform_nil, App.exec,
    App.act, App.lowered, alive]

/-- The block of `logOut` lowers the counter in both branches. -/
theorem block_logOut (error : Option String) (alive : s.crashed = none) :
    s.perform 0 (User.logOutBlock error)
      = if error.isSome then s.lowered else { s.lowered with userloggedin := none } := by
  cases error <;> simp [User.logOutBlock, perform_cons, perform_nil, App.exec,
    App.act, App.lowered, alive]

/-- The block of `post` lowers the counter in both branches. -/
theorem block_savePost (kit : ImageKit Picture Data) (s : App Picture Data)
    (scene : PostScene Picture) (error : Option String) (alive : s.crashed = none) :
    SameCore s.lowered (s.perform 0 (scene.postBlock kit error).2) := by
  have hrun : s.perform 0 (scene.postBlock kit error).2 = s.lowered := by
    cases error <;> simp [PostScene.postBlock, perform_cons, perform_nil, App.exec,
      App.act, App.lowered, alive]
  rw [hrun]
  exact SameCore.refl _

/-- Quiet effects and then the end of the ignored interactions. -/
theorem perform_quiet_end (i : Nat) {fx : List (Effect Data)} (alive : s.crashed = none)
    (hfx : ∀ e ∈ fx, Quiet e) :
    SameCore s.lowered (s.perform i (fx ++ [.endIgnoringInteractionEvents])) := by
  obtain ⟨t, ht, hrun⟩ := perform_quiet_append i [.endIgnoringInteractionEvents] fx s hfx alive
  have hend : t.perform i [.endIgnoringInteractionEvents] = t.lowered := by
    have hlive : t.crashed = none := ht.crashed.trans alive
    simp [perform_cons, perform_nil, App.exec, App.act, App.lowered, hlive]
  rw [hrun, hend]
  exact ⟨by simp [App.lowered, ht.lock], by simp [App.lowered, ht.lock, ht.unmatchedEnd],
    ht.userloggedin, ht.user, ht.locked, ht.inputs, ht.crashed⟩

/-- The block of `searchButtonPressed` lowers the counter in both branches. -/
theorem block_search (kit : ImageKit Picture Data) (s : App Picture Data) (i : Nat)
    (current : Option (PFUser Data)) (reply : Reply Data) (scene : SearchScene Picture)
    (alive : s.crashed = none) :
    SameCore s.lowered
      (s.perform i (scene.searchBlock kit current (replyUser reply)).2) := by
  cases replyUser reply with
  | error e =>
      show SameCore s.lowered (s.perform i ([.showHUDError e] ++ _))
      exact perform_quiet_end i alive (by simp [Quiet])
  | ok user =>
      refine perform_quiet_end i alive ?_
      cases user.profilePicture <;> simp [Quiet, Request.locks]

/-- The block of `saveProfile`'s username save: it lowers the counter, unless
    the segue shows `User` without a current user. -/
theorem block_saveUsername (reply : Reply Data) (alive : s.crashed = none) :
    SameCore s.lowered (s.perform 0 (EditProfile.saveProfileBlock (replyError reply)))
      ∨ (replyError reply = none ∧ s.current = none ∧ ∃ t, SameCore s t
          ∧ s.perform 0 (EditProfile.saveProfileBlock (replyError reply))
            = { t with crashed := some .currentUser }) := by
  cases replyError reply with
  | some e =>
      refine Or.inl ?_
      show SameCore s.lowered (s.perform 0 ([.showHUDError e] ++ _))
      exact perform_quiet_end 0 alive (by simp [Quiet])
  | none =>
      rcases showUser_cases s with ⟨-, hsame⟩ | ⟨huser, t, hsame, ht⟩
      · refine Or.inl ?_
        have hshow : s.showUser.crashed = none := hsame.crashed.trans alive
        have hrun : s.perform 0 (EditProfile.saveProfileBlock none) = s.showUser.lowered := by
          simp [EditProfile.saveProfileBlock, perform_cons, perform_nil, App.exec, App.act,
            App.lowered, alive, hshow]
        rw [hrun]
        exact ⟨by simp [App.lowered, hsame.lock],
          by simp [App.lowered, hsame.lock, hsame.unmatchedEnd], hsame.userloggedin,
          hsame.user, hsame.locked, hsame.inputs, hsame.crashed⟩
      · refine Or.inr ⟨rfl, huser, t, hsame, ?_⟩
        simp [EditProfile.saveProfileBlock, perform_cons, App.exec, App.act, alive, ht]

/-- The completion block of a locking request; the username's save traps when
    its segue shows `User` without a current user. -/
theorem block_finished (kit : ImageKit Picture Data) (i : Nat)
    {q : Outstanding Picture Data} (reply : Reply Data) (alive : s.crashed = none)
    (hlocks : q.request.locks = true) :
    SameCore (s.finished kit i q.request reply) ((s.dropped i).block kit q reply)
      ∨ (q.request = .saveUsername ∧ replyError reply = none ∧ s.current = none
        ∧ ∃ t, SameCore (s.dropped i) t
          ∧ (s.dropped i).block kit q reply = { t with crashed := some .currentUser }) := by
  have halive : (s.dropped i).crashed = none := alive
  obtain ⟨request, settled, screen, form⟩ := q
  cases request with
  | signUp username password email =>
      refine Or.inl ?_
      show SameCore _ ((s.dropped i).perform 0 (SignUpPage.userSignUpBlock (replyError reply)))
      rw [block_signUp _ halive]
      cases he : replyError reply <;>
        exact ⟨by simp [App.finished, App.dropped, App.lowered, releases, isSignUp, he],
          by simp [App.finished, App.dropped, App.lowered, releases, isSignUp, he],
          by simp [App.finished, App.dropped, App.lowered, finishedFlag], rfl, rfl, rfl, rfl⟩
  | logIn username password =>
      refine Or.inl ?_
      show SameCore _
        ((s.dropped i).perform 0 (s.inputs.logInPage.logInBlock (replyError reply)))
      rw [block_logIn _ _ halive]
      cases he : replyError reply <;>
        exact ⟨rfl, rfl, by simp [App.finished, App.dropped, App.lowered, finishedFlag, he],
          rfl, rfl, rfl, rfl⟩
  | logOut =>
      refine Or.inl ?_
      show SameCore _ ((s.dropped i).perform 0 (User.logOutBlock (replyError reply)))
      rw [block_logOut _ halive]
      cases he : replyError reply <;>
        exact ⟨rfl, rfl, by simp [App.finished, App.dropped, App.lowered, finishedFlag, he],
          rfl, rfl, rfl, rfl⟩
  | search name =>
      -- the block first changes the scene, which is outside the core
      refine Or.inl (SameCore.trans ?_ (block_search kit { s.dropped i with
        searchScene := (s.search.searchBlock kit s.current (replyUser reply)).1 } 0 s.current
        reply s.search halive))
      exact ⟨rfl, rfl, rfl, rfl, rfl, rfl, rfl⟩
  | savePost post =>
      -- the block first clears the form of a post that was saved
      refine Or.inl (SameCore.trans ?_ (block_savePost kit { s.dropped i with
        inputs := { s.inputs with
          postScene := (s.inputs.postScene.postBlock kit (replyError reply)).1 } }
        s.inputs.postScene (replyError reply) halive))
      exact ⟨rfl, rfl, rfl, rfl, rfl, rfl, rfl⟩
  | saveUsername =>
      rcases block_saveUsername reply halive with hsame | ⟨hsuccess, huser, t, hsame, ht⟩
      · exact Or.inl hsame
      · exact Or.inr ⟨rfl, hsuccess, huser, t, hsame, ht⟩
  | searchPicture _ => exact absurd hlocks Bool.false_ne_true
  | saveProfilePicture => exact absurd hlocks Bool.false_ne_true
  | saveUserInfo => exact absurd hlocks Bool.false_ne_true
  | profilePictureData _ => exact absurd hlocks Bool.false_ne_true
  | headerPictureData _ => exact absurd hlocks Bool.false_ne_true
  | posts _ _ => exact absurd hlocks Bool.false_ne_true

/-- The completion of a locking request. -/
theorem complete_locks {i : Nat} {q : Outstanding Picture Data} {reply : Reply Data}
    (alive : s.crashed = none) (hq : s.outstanding[i]? = some q)
    (settled : q.reply = some reply) (hlocks : q.request.locks = true) :
    CoreStep kit s (.complete i) ((s.dropped i).block kit q reply) := by
  rcases block_finished kit i reply alive hlocks
    with hsame | ⟨hr, -, -, t, hsame, ht⟩
  · exact .finish alive hq settled hlocks hsame
  · rw [ht]
    refine .crash alive ?_ (by simp) hsame.userloggedin hsame.user ?_
    · intro q' reply' hq' _ hbad
      rw [hq] at hq'
      rw [← Option.some.inj hq', hr] at hbad
      exact Bool.false_ne_true hbad.1
    · rw [← dropped_sessions hq (by rw [hr]; rfl), sessions_eq (s.dropped i), ← hsame.locked]
      exact sessions_eq { t with crashed := some .currentUser }

/-- The completion block of a request that does not hold the counter. -/
theorem complete_free {i : Nat} {q : Outstanding Picture Data} {reply : Reply Data}
    (alive : s.crashed = none) (hq : s.outstanding[i]? = some q)
    (hfree : q.request.locks = false) :
    CoreStep kit s (.complete i) ((s.dropped i).block kit q reply) := by
  have hsame := dropped_same hq hfree
  have hpaired : Paired kit s (.complete i) := by
    intro q' reply' hq' _ hbad
    obtain rfl : q = q' := Option.some.inj (hq.symm.trans hq')
    rw [locks_of_isSignUp hbad.1] at hfree
    exact absurd hfree.symm Bool.false_ne_true
  obtain ⟨request, settled, screen, form⟩ := q
  cases request with
  | signUp _ _ _ => exact absurd hfree.symm Bool.false_ne_true
  | logIn _ _ => exact absurd hfree.symm Bool.false_ne_true
  | logOut => exact absurd hfree.symm Bool.false_ne_true
  | search _ => exact absurd hfree.symm Bool.false_ne_true
  | savePost _ => exact absurd hfree.symm Bool.false_ne_true
  | saveUsername => exact absurd hfree.symm Bool.false_ne_true
  | searchPicture _ =>
      exact .still s.inputs alive hpaired (Or.inl rfl)
        (hsame.trans ⟨rfl, rfl, rfl, rfl, rfl, rfl, rfl⟩)
  | saveProfilePicture =>
      refine still_of_quiet alive (Or.inl rfl) hsame ?_ hpaired
      cases replyError reply <;> simp [EditProfile.savePictureBlock, Quiet]
  | saveUserInfo =>
      refine still_of_quiet alive (Or.inl rfl) hsame ?_ hpaired
      cases replyError reply <;> simp [SignUpUserInfoPage.userInfoSaveBlock, Quiet]
  | profilePictureData _ =>
      refine .still s.inputs alive hpaired (Or.inl rfl) (hsame.trans ?_)
      show SameCore _ (if screen = (s.dropped i).visit then _ else _)
      by_cases hvisit : screen = (s.dropped i).visit
      · rw [if_pos hvisit]
        exact ⟨rfl, rfl, rfl, rfl, rfl, rfl, rfl⟩
      · rw [if_neg hvisit]
        exact SameCore.refl _
  | headerPictureData _ => exact .still s.inputs alive hpaired (Or.inl rfl) hsame
  | posts _ _ =>
      rw [App.block]
      cases hu : (s.dropped i).users[screen]? with
      | none => exact .still s.inputs alive hpaired (Or.inl rfl) hsame
      | some u =>
          cases hobj : replyObjects reply with
          | error e =>
              refine still_of_quiet alive (Or.inl rfl)
                (hsame.trans ⟨rfl, rfl, rfl, rfl, rfl, rfl, rfl⟩) ?_ hpaired
              simp [Quiet]
          | ok posts =>
              cases hfiles : User.imageFiles posts with
              | some files =>
                  simp only [User.loadPostsBlock, hfiles]
                  refine still_of_quiet alive (Or.inl rfl)
                    (hsame.trans ⟨rfl, rfl, rfl, rfl, rfl, rfl, rfl⟩) ?_ hpaired
                  simp [Quiet]
              | none =>
                  simp only [User.loadPostsBlock, hfiles]
                  exact crash_of_trap alive
                    (hsame.trans ⟨rfl, rfl, rfl, rfl, rfl, rfl, rfl⟩) hpaired

/-! ## Every event -/

theorem scroll_core {i : Nat} {u : UserScreen Data} (offset content frame : Int)
    (alive : s.crashed = none) :
    CoreStep kit s (.scroll i offset content frame) (s.scroll i u offset content frame) := by
  have hpaired : Paired kit s (.scroll i offset content frame) := trivial
  by_cases hmore : offset ≥ content - frame * 2 ∧ u.user.page ≤ u.user.pictureArray.length
  · cases huser : s.current with
    | none =>
        have ht : s.scroll i u offset content frame
            = { s with
                users := s.users.set i ⟨⟨u.user.page + 5, u.user.pictureArray⟩, u.reloaded⟩
                crashed := some .currentUser } := by
          simp [App.scroll, User.scrollViewDidScroll, User.loadMore, User.loadPosts, hmore.1,
            hmore.2, huser, perform_cons, App.exec, App.act]
        rw [ht]
        exact .crash alive hpaired (by simp) rfl rfl rfl
    | some user =>
        have ht : s.scroll i u offset content frame
            = { s with
                users := s.users.set i ⟨⟨u.user.page + 5, u.user.pictureArray⟩, u.reloaded⟩
              }.perform i [.send (.posts (some user.objectId) (u.user.page + 5))] := by
          simp [App.scroll, User.scrollViewDidScroll, User.loadMore, User.loadPosts, hmore.1,
            hmore.2, huser]
        rw [ht]
        refine still_of_quiet alive (Or.inl rfl) ⟨rfl, rfl, rfl, rfl, rfl, rfl, rfl⟩ ?_ hpaired
        simp [Quiet, Request.locks]
  · have ht : s.scroll i u offset content frame = { s with users := s.users.set i u } := by
      rw [not_and_or] at hmore
      rcases hmore with hoff | hpage
      · simp [App.scroll, User.scrollViewDidScroll, hoff, perform_nil]
      · by_cases hoff : offset ≥ content - frame * 2
        · simp [App.scroll, User.scrollViewDidScroll, User.loadMore, hoff, hpage, perform_nil]
        · simp [App.scroll, User.scrollViewDidScroll, hoff, perform_nil]
    rw [ht]
    exact .still s.inputs alive hpaired (Or.inl rfl) ⟨rfl, rfl, rfl, rfl, rfl, rfl, rfl⟩

theorem header_core {i : Nat} {u : UserScreen Data} (alive : s.crashed = none) :
    CoreStep kit s (.header i) (s.requestHeader i u) := by
  have hpaired : Paired kit s (.header i) := trivial
  cases huser : s.current with
  | none =>
      have ht : s.requestHeader i u
          = { s with
              users := s.users.set i { u with reloaded := false }
              crashed := some .currentUser } := by
        simp [App.requestHeader, User.viewForSupplementaryElementOfKind, huser, perform_cons,
          App.exec, App.act]
      rw [ht]
      exact .crash alive hpaired (by simp) rfl rfl rfl
  | some user =>
      have ht : s.requestHeader i u
          = { s with
              header := ⟨user.email, user.username⟩
              users := s.users.set i ⟨u.user, false⟩ }.perform i
            (User.viewForSupplementaryElementOfKind (some user) s.header).2 := by
        simp [App.requestHeader, User.viewForSupplementaryElementOfKind, huser]
      rw [ht]
      refine still_of_quiet alive (Or.inl rfl) ⟨rfl, rfl, rfl, rfl, rfl, rfl, rfl⟩ ?_ hpaired
      cases hpic : user.profilePicture <;>
        simp [User.viewForSupplementaryElementOfKind, hpic, Quiet, Request.locks]

section

variable [DecidableEq Picture]

/-- A completion runs the block of a settled request, which is no longer
    outstanding then. -/
theorem complete_eq {i : Nat} {t : App Picture Data}
    (h : s.step kit (.complete i) = some t) :
    ∃ q reply, s.crashed = none ∧ s.outstanding[i]? = some q ∧ q.reply = some reply
      ∧ t = (s.dropped i).block kit q reply := by
  rw [App.step] at h
  cases hq : s.outstanding[i]? with
  | none => simp [hq] at h
  | some q =>
      cases hreply : q.reply with
      | none => simp [hq, hreply] at h
      | some reply =>
          simp only [hq, hreply] at h
          obtain ⟨alive, ht⟩ := Option.ite_none_right_eq_some.mp h
          exact ⟨q, reply, alive, rfl, hreply, (Option.some.inj ht).symm⟩

/-- **THE CASES OF A STEP**: every delivered event is one of `CoreStep`'s. -/
theorem step_core {e : Event Picture Data} {t : App Picture Data}
    (h : s.step kit e = some t) : CoreStep kit s e t := by
  cases e with
  | restart =>
      rw [← Option.some.inj h]
      exact .restart
  | touch touch =>
      rw [App.step] at h
      obtain ⟨⟨alive, free⟩, ht⟩ := Option.ite_none_right_eq_some.mp h
      rw [← Option.some.inj ht]
      exact touch_core alive free touch
  | settle i reply =>
      rw [App.step] at h
      split at h
      · exact absurd h (by simp)
      · next q hq =>
          obtain ⟨⟨alive, hnone, hacc⟩, ht⟩ := Option.ite_none_right_eq_some.mp h
          rw [← Option.some.inj ht]
          exact .settle alive hq (Option.isNone_iff_eq_none.mp hnone) hacc
  | complete i =>
      obtain ⟨q, reply, alive, hq, hreply, rfl⟩ := complete_eq h
      cases hlocks : q.request.locks with
      | true => exact complete_locks alive hq hreply hlocks
      | false => exact complete_free alive hq hlocks
  | scroll i offset content frame =>
      rw [App.step] at h
      split at h
      · exact absurd h (by simp)
      · next u hu =>
          obtain ⟨alive, ht⟩ := Option.ite_none_right_eq_some.mp h
          rw [← Option.some.inj ht]
          exact scroll_core offset content frame alive
  | header i =>
      rw [App.step] at h
      split at h
      · exact absurd h (by simp)
      · next u hu =>
          obtain ⟨⟨alive, -⟩, ht⟩ := Option.ite_none_right_eq_some.mp h
          rw [← Option.some.inj ht]
          exact header_core alive

end

end FPMachine

import FPApp.EventRunProofs
import FPApp.ScreenProofs
import Mathlib.Data.List.Perm.Basic

/-! # One valid segue from a screen

    Five screens submit a form and leave by `performSegue`, called in a
    completion block or, on `SignUpUserInfoPage`, by a tap.  A block does not
    look whether its screen has been left already.

    * `Page` — such a screen: its handler, its block, the segues that the
      storyboard declares for its scene, and the ones it passes;
    * `Page.step` — one event of an appearance of a screen;
    * `Page.valid_iff` — segues are valid exactly when each is declared and is
      the first one;
    * `Page.Guarded` — the screens that hold the counter while they submit, and
      `Guarded.valid`: these are always valid;
    * `one_valid_segue_iff` — which of the five screens are, and the other two
      exactly when. -/

namespace FPSegues

open FPParse FPScreens EventRun

variable {Form Button Picture Data : Type}

/-! ## An appearance of a screen -/

/-- A call under way. -/
inductive Call (Data : Type) where
  | request (r : Request Data)
  | passwordReset (email : Text)

/-- A screen while it appears: its form, the counter that it holds, its calls
    under way, the segues it has performed, and whether the process has ended
    by a forced unwrap or an unknown segue. -/
structure Appearance (Form Data : Type) where
  form : Form
  lock : Nat
  outstanding : List (Call Data)
  performed : List String
  ended : Bool

namespace Appearance

/-- The screen appears. -/
def opened (form : Form) : Appearance Form Data := ⟨form, 0, [], [], false⟩

/-- One effect of a handler.  UIKit raises an exception for a segue that the
    storyboard does not declare. -/
@[simp] def act (declared : List String) (s : Appearance Form Data) :
    PageEffect Data → Appearance Form Data
  | .effect .beginIgnoringInteractionEvents => { s with lock := s.lock + 1 }
  | .effect .endIgnoringInteractionEvents => { s with lock := s.lock - 1 }
  | .effect (.send request) => { s with outstanding := s.outstanding ++ [.request request] }
  | .effect (.performSegue identifier) =>
      { s with performed := s.performed ++ [identifier], ended := decide (identifier ∉ declared) }
  | .effect (.trap _) => { s with ended := true }
  | .effect _ => s
  | .requestPasswordResetForEmail email =>
      { s with outstanding := s.outstanding ++ [.passwordReset email] }

/-- The effects of a handler, in order; nothing runs after the process has
    ended. -/
@[simp] def perform (declared : List String) (s : Appearance Form Data) :
    List (PageEffect Data) → Appearance Form Data
  | [] => s
  | effect :: effects =>
      if (s.act declared effect).ended = false then
        (s.act declared effect).perform declared effects
      else s.act declared effect

end Appearance

/-- A screen with a form: the segues declared in its scene, what a tap and a
    completion block do, and which segue a tap performs at once, or a call when
    it succeeds. -/
structure Page (Form Button Data : Type) where
  declared : List String
  tap : Option (PFUser Data) → Form → Button → List (PageEffect Data)
  block : Form → Call Data → Option String → List (PageEffect Data)
  presses : Button → Option String
  segue : Call Data → Option String
  tap_performs : ∀ current button (s : Appearance Form Data), s.ended = false →
    (s.perform declared (tap current s.form button)).performed
      = s.performed ++ (presses button).toList
  success_performs : ∀ call (s : Appearance Form Data), s.ended = false →
    (s.perform declared (block s.form call none)).performed
      = s.performed ++ (segue call).toList
  failure_performs : ∀ call e (s : Appearance Form Data), s.ended = false →
    (s.perform declared (block s.form call (some e))).performed = s.performed

/-- What happens while a screen appears: its form changes, a button is tapped,
    a call is answered. -/
inductive PageEvent (Form Button : Type) where
  | edit (form : Form)
  | tap (button : Button)
  | complete (i : Nat) (error : Option String)

namespace Page

variable (page : Page Form Button Data) (current : Option (PFUser Data))

/-- One event.  Taps wait for the counter to be zero, and stop once a segue has
    been performed. -/
def step (s : Appearance Form Data) (e : PageEvent Form Button) :
    Option (Appearance Form Data) :=
  if s.ended = false then
    match e with
    | .edit form => some { s with form := form }
    | .tap button =>
        if s.lock = 0 ∧ s.performed = [] then
          some (s.perform page.declared (page.tap current s.form button))
        else none
    | .complete i error =>
        s.outstanding[i]?.map fun call =>
          ({ s with outstanding := s.outstanding.eraseIdx i } : Appearance Form Data).perform
            page.declared (page.block s.form call error)
  else none

/-- The segue that an event performs. -/
def navigates (s : Appearance Form Data) : PageEvent Form Button → Option String
  | .edit _ => none
  | .tap button => page.presses button
  | .complete i none => s.outstanding[i]?.bind page.segue
  | .complete _ (some _) => none

/-- One segue was performed at most, and none that the scene does not declare. -/
structure Valid (s : Appearance Form Data) : Prop where
  once : s.performed.length ≤ 1
  known : ∀ identifier ∈ s.performed, identifier ∈ page.declared

variable {page current} {s t : Appearance Form Data}

/-! ## One event -/

/-- **ONE EVENT** performs its segue, and no other. -/
theorem performed_step {e : PageEvent Form Button} (h : page.step current s e = some t) :
    t.performed = s.performed ++ (page.navigates s e).toList := by
  obtain ⟨alive, h⟩ := Option.ite_none_right_eq_some.mp h
  cases e with
  | edit form =>
      obtain rfl := Option.some.inj h
      exact (List.append_nil _).symm
  | tap button =>
      obtain ⟨-, hsome⟩ := Option.ite_none_right_eq_some.mp h
      obtain rfl := Option.some.inj hsome
      exact page.tap_performs current button s alive
  | complete i error =>
      obtain ⟨call, hcall, rfl⟩ := Option.map_eq_some_iff.mp h
      cases error with
      | none =>
          rw [navigates, hcall]
          exact page.success_performs call { s with outstanding := _ } alive
      | some e =>
          rw [navigates, Option.toList_none, List.append_nil]
          exact page.failure_performs call e { s with outstanding := _ } alive

/-- A tap is delivered only before the first segue. -/
theorem performed_of_tap {button : Button} (h : page.step current s (.tap button) = some t) :
    s.lock = 0 ∧ s.performed = [] := by
  obtain ⟨-, h⟩ := Option.ite_none_right_eq_some.mp h
  exact (Option.ite_none_right_eq_some.mp h).1

theorem valid_opened (form : Form) : page.Valid (Appearance.opened form) :=
  ⟨Nat.zero_le 1, fun _ h => absurd h List.not_mem_nil⟩

/-- A valid screen stays so exactly when the event performs a segue that is
    declared, and the first one. -/
theorem valid_step_iff {e : PageEvent Form Button} (hs : page.Valid s)
    (h : page.step current s e = some t) :
    page.Valid t ↔ ∀ identifier, page.navigates s e = some identifier →
      identifier ∈ page.declared ∧ s.performed = [] := by
  have hperformed := performed_step h
  cases hnav : page.navigates s e with
  | none =>
      rw [hnav, Option.toList_none, List.append_nil] at hperformed
      refine iff_of_true ⟨hperformed ▸ hs.once, hperformed ▸ hs.known⟩ ?_
      intro identifier hsome
      exact absurd hsome.symm (Option.some_ne_none identifier)
  | some identifier =>
      rw [hnav, Option.toList_some] at hperformed
      constructor
      · rintro ht other hother
        obtain rfl := Option.some.inj hother
        refine ⟨ht.known identifier (by rw [hperformed]; exact List.mem_concat_self), ?_⟩
        have honce := ht.once
        rw [hperformed, List.length_append, List.length_singleton] at honce
        exact List.length_eq_zero_iff.mp (Nat.le_zero.mp (Nat.le_of_succ_le_succ honce))
      · intro hfirst
        obtain ⟨hdeclared, hnone⟩ := hfirst identifier rfl
        rw [hnone, List.nil_append] at hperformed
        refine ⟨by rw [hperformed]; exact le_rfl, ?_⟩
        intro other hother
        rw [hperformed] at hother
        rw [List.mem_singleton.mp hother]
        exact hdeclared

/-- **VALID, EXACTLY WHEN**: in a run the segues are valid exactly when each one
    is declared, and is performed before any other. -/
theorem valid_iff {form : Form} {es : List (PageEvent Form Button)} :
    (∀ pre t, Visits (page.step current) (Appearance.opened form) es pre t → page.Valid t)
      ↔ ∀ pre t e, Fires (page.step current) (Appearance.opened form) es pre t e →
          ∀ identifier, page.navigates t e = some identifier →
            identifier ∈ page.declared ∧ t.performed = [] := by
  refine visits_iff (fun _ t => page.Valid t)
    (fun _ t e => ∀ identifier, page.navigates t e = some identifier →
      identifier ∈ page.declared ∧ t.performed = []) (valid_opened form) ?_ ?_ ?_
  · intro _ t e u ht hgood hu
    exact (valid_step_iff ht hu).mpr hgood
  · intro _ t ht
    exact ht
  · intro _ t e u ht hbad hu hvalid
    exact hbad ((valid_step_iff ht hu).mp hvalid)

/-! ## Screens that hold the counter -/

/-- The calls under way that perform a segue when they succeed. -/
def submitting (page : Page Form Button Data) (s : Appearance Form Data) : Nat :=
  s.outstanding.countP fun call => (page.segue call).isSome

/-- A screen that navigates in completion blocks only, to what its scene
    declares; it raises the counter with each call that navigates, and the
    blocks of other calls leave the counter alone. -/
structure Guarded (page : Page Form Button Data) : Prop where
  presses : ∀ button, page.presses button = none
  known : ∀ call identifier, page.segue call = some identifier → identifier ∈ page.declared
  tap : ∀ current button (s : Appearance Form Data), s.ended = false →
    page.submitting (s.perform page.declared (page.tap current s.form button))
        = page.submitting s
    ∨ (page.submitting (s.perform page.declared (page.tap current s.form button))
          = page.submitting s + 1
        ∧ 0 < (s.perform page.declared (page.tap current s.form button)).lock)
  calls : ∀ call error (s : Appearance Form Data), s.ended = false →
    (s.perform page.declared (page.block s.form call error)).outstanding = s.outstanding
  locks : ∀ call error (s : Appearance Form Data), s.ended = false → page.segue call = none →
    (s.perform page.declared (page.block s.form call error)).lock = s.lock

/-- A call is removed from those under way. -/
theorem submitting_erase (page : Page Form Button Data) {i : Nat} {call : Call Data}
    (hcall : s.outstanding[i]? = some call) :
    page.submitting { s with outstanding := s.outstanding.eraseIdx i }
        + (if (page.segue call).isSome then 1 else 0)
      = page.submitting s := by
  obtain ⟨hi, hget⟩ := List.getElem?_eq_some_iff.mp hcall
  have hperm := List.getElem_cons_eraseIdx_perm hi
  rw [hget] at hperm
  rw [submitting, submitting, ← hperm.countP_eq, List.countP_cons]

/-- The screen has submitted or navigated once at most, and holds the counter
    while it submits. -/
structure Guard (page : Page Form Button Data) (s : Appearance Form Data) : Prop where
  once : page.submitting s + s.performed.length ≤ 1
  held : 0 < page.submitting s → 0 < s.lock
  known : ∀ identifier ∈ s.performed, identifier ∈ page.declared

theorem guard_opened (page : Page Form Button Data) (form : Form) :
    page.Guard (Appearance.opened form) :=
  ⟨Nat.zero_le 1, fun h => absurd h (Nat.lt_irrefl 0), fun _ h => absurd h List.not_mem_nil⟩

theorem Guard.valid (hs : page.Guard s) : page.Valid s :=
  ⟨(Nat.le_add_left _ _).trans hs.once, hs.known⟩

/-- The event concerns neither the counter nor a call that navigates. -/
theorem guard_other (hs : page.Guard s) (hsame : page.submitting t = page.submitting s)
    (hlock : t.lock = s.lock) (hperformed : t.performed = s.performed) : page.Guard t := by
  refine ⟨?_, ?_, ?_⟩
  · rw [hsame, hperformed]
    exact hs.once
  · rw [hsame, hlock]
    exact hs.held
  · rw [hperformed]
    exact hs.known

/-- A tap submits the form, and raises the counter, or does neither. -/
theorem guard_tapped (hs : page.Guard s) (free : s.lock = 0) (hnone : s.performed = [])
    (hperformed : t.performed = s.performed)
    (htap : page.submitting t = page.submitting s
      ∨ (page.submitting t = page.submitting s + 1 ∧ 0 < t.lock)) : page.Guard t := by
  -- nothing was submitted before
  have hidle : page.submitting s = 0 := by
    by_contra hbusy
    have hheld := hs.held (Nat.pos_of_ne_zero hbusy)
    rw [free] at hheld
    exact absurd hheld (Nat.lt_irrefl 0)
  rw [hidle] at htap
  rw [hnone] at hperformed
  refine ⟨?_, ?_, ?_⟩
  · rw [hperformed]
    rcases htap with hsame | ⟨hmore, -⟩
    · rw [hsame]
      exact Nat.zero_le 1
    · rw [hmore]
      exact le_rfl
  · intro hbusy
    rcases htap with hsame | ⟨-, hheld⟩
    · rw [hsame] at hbusy
      exact absurd hbusy (Nat.lt_irrefl 0)
    · exact hheld
  · rw [hperformed]
    exact fun _ h => absurd h List.not_mem_nil

/-- The call that was submitting is answered. -/
theorem guard_answered (hs : page.Guard s) (hless : page.submitting t + 1 = page.submitting s)
    {segue : Option String} (hperformed : t.performed = s.performed ++ segue.toList)
    (hknown : ∀ identifier ∈ segue, identifier ∈ page.declared) : page.Guard t := by
  have honce := hs.once
  rw [← hless] at honce
  have hidle : page.submitting t = 0 := by omega
  have hnone : s.performed = [] := List.length_eq_zero_iff.mp (by omega)
  rw [hnone, List.nil_append] at hperformed
  refine ⟨?_, ?_, ?_⟩
  · rw [hidle, hperformed, Nat.zero_add]
    exact Option.length_toList_le
  · intro hbusy
    rw [hidle] at hbusy
    exact absurd hbusy (Nat.lt_irrefl 0)
  · intro identifier hmem
    rw [hperformed] at hmem
    exact hknown identifier (Option.mem_toList.mp hmem)

/-- **ONE EVENT** of a guarded screen keeps its guard. -/
theorem guard_step (hguarded : page.Guarded) {e : PageEvent Form Button} (hs : page.Guard s)
    (h : page.step current s e = some t) : page.Guard t := by
  have hperformed := performed_step h
  cases e with
  | edit form =>
      obtain ⟨-, h⟩ := Option.ite_none_right_eq_some.mp h
      obtain rfl := Option.some.inj h
      exact guard_other hs rfl rfl rfl
  | tap button =>
      obtain ⟨free, hnone⟩ := performed_of_tap h
      obtain ⟨alive, h⟩ := Option.ite_none_right_eq_some.mp h
      obtain ⟨-, hsome⟩ := Option.ite_none_right_eq_some.mp h
      obtain rfl := Option.some.inj hsome
      rw [navigates, hguarded.presses, Option.toList_none, List.append_nil] at hperformed
      exact guard_tapped hs free hnone hperformed (hguarded.tap current button s alive)
  | complete i error =>
      obtain ⟨alive, h⟩ := Option.ite_none_right_eq_some.mp h
      obtain ⟨call, hcall, rfl⟩ := Option.map_eq_some_iff.mp h
      have hleft := congrArg (List.countP fun call => (page.segue call).isSome)
        (hguarded.calls call error { s with outstanding := s.outstanding.eraseIdx i } alive)
      have herase := submitting_erase page hcall
      cases hsegue : page.segue call with
      | none =>
          rw [hsegue, if_neg (by simp), Nat.add_zero] at herase
          refine guard_other hs (hleft.trans herase) (hguarded.locks call error
            { s with outstanding := s.outstanding.eraseIdx i } alive hsegue) ?_
          rw [hperformed]
          cases error with
          | none =>
              rw [navigates, hcall, Option.bind_some, hsegue]
              exact List.append_nil _
          | some e => exact List.append_nil _
      | some identifier =>
          rw [hsegue, if_pos Option.isSome_some] at herase
          refine guard_answered hs ((congrArg (· + 1) hleft).trans herase) hperformed ?_
          intro other hother
          cases error with
          | none =>
              rw [navigates, hcall, Option.bind_some] at hother
              exact hguarded.known call other hother
          | some e => exact absurd hother.symm (Option.some_ne_none other)

/-- **GUARDED**: whatever is tapped and answered, a guarded screen performs one
    segue at most, and one that its scene declares. -/
theorem Guarded.valid (hguarded : page.Guarded) {form : Form} {es : List (PageEvent Form Button)} :
    ∀ pre t, Visits (page.step current) (Appearance.opened form) es pre t → page.Valid t := by
  intro pre t ht
  refine Guard.valid (visits_always page.Guard (guard_opened page form) ?_ pre t ht)
  intro s e u hs hu
  exact guard_step hguarded hs hu

end Page

/-! ## Screens that submit under the counter -/

namespace Appearance

/-- A call is submitted, and the counter raised. -/
def submitted (s : Appearance Form Data) (call : Call Data) : Appearance Form Data :=
  { s with lock := s.lock + 1, outstanding := s.outstanding ++ [call] }

end Appearance

/-- A handler whose effects are all of the kind that every screen knows. -/
@[simp] def ofEffects (effects : List (Effect Data)) : List (PageEffect Data) := effects.map .effect

section

variable {declared : List String}

theorem perform_logIn {s : Appearance LogInPage Data} (alive : s.ended = false) :
    s.perform declared (ofEffects s.form.logInButtonPressed) = s
    ∨ ∃ call, s.perform declared (ofEffects s.form.logInButtonPressed) = s.submitted call := by
  rcases s.form.logInButtonPressed_cases Data with ⟨-, heffects⟩ | ⟨-, alert, heffects⟩
  · rw [heffects]
    refine Or.inr ⟨.request (.logIn s.form.emailLogInTextfield s.form.passwordLogInTextfield), ?_⟩
    simp [Appearance.submitted, alive]
  · rw [heffects]
    refine Or.inl ?_
    simp [alive]

theorem perform_signUp {s : Appearance SignUpPage Data} (alive : s.ended = false) :
    s.perform declared (ofEffects s.form.signUpRegisterButtonPressed) = s
    ∨ ∃ call, s.perform declared (ofEffects s.form.signUpRegisterButtonPressed)
        = s.submitted call := by
  rcases s.form.signUpRegisterButtonPressed_cases Data with ⟨-, heffects⟩ | ⟨-, alert, heffects⟩
  · rw [heffects]
    refine Or.inr ⟨.request (.signUp s.form.signUpEmailTextField s.form.signUpPasswordTextfield
      s.form.signUpEmailTextField), ?_⟩
    simp [Appearance.submitted, alive]
  · rw [heffects]
    refine Or.inl ?_
    simp [alive]

/-- `saveProfile` traps without a user; else it may start a save of the
    picture, and then refuses the name or submits it. -/
theorem perform_edit (kit : ImageKit Picture Data) (current : Option (PFUser Data))
    {s : Appearance (EditProfile Picture) Data} (alive : s.ended = false) :
    s.perform declared (ofEffects (s.form.saveProfile kit current)) = { s with ended := true }
    ∨ ∃ u : Appearance (EditProfile Picture) Data,
      (u = s ∨ u = { s with outstanding := s.outstanding ++ [.request .saveProfilePicture] })
      ∧ (s.perform declared (ofEffects (s.form.saveProfile kit current)) = u
        ∨ s.perform declared (ofEffects (s.form.saveProfile kit current))
          = u.submitted (.request .saveUsername)) := by
  cases current with
  | none =>
      rw [EditProfile.saveProfile_none]
      exact Or.inl rfl
  | some user =>
      rw [EditProfile.saveProfile_some]
      refine Or.inr ?_
      have hpicture := s.form.savePicture_cases kit
      by_cases hshort : s.form.usernameTextfield.count ≤ 3
      · rw [if_pos hshort]
        rcases hpicture with ⟨-, hnone⟩ | ⟨data, -, hsave⟩
        · refine ⟨s, Or.inl rfl, Or.inl ?_⟩
          simp [hnone, alive]
        · refine ⟨_, Or.inr rfl, Or.inl ?_⟩
          simp [hsave, alive]
      · rw [if_neg hshort]
        rcases hpicture with ⟨-, hnone⟩ | ⟨data, -, hsave⟩
        · refine ⟨s, Or.inl rfl, Or.inr ?_⟩
          simp [hnone, Appearance.submitted, alive]
        · refine ⟨_, Or.inr rfl, Or.inr ?_⟩
          simp [hsave, Appearance.submitted, alive]

end

/-- `LogInPage`. -/
def logInPage (Data : Type) : Page LogInPage Unit Data where
  declared := ["logInToHomePage"]
  tap _ form _ := ofEffects form.logInButtonPressed
  block form _ error := ofEffects (form.logInBlock error)
  presses _ := none
  segue _ := some "logInToHomePage"
  tap_performs := by
    intro _ _ s alive
    rcases perform_logIn alive with hsame | ⟨call, hsubmitted⟩
    · rw [hsame]
      exact (List.append_nil _).symm
    · rw [hsubmitted]
      exact (List.append_nil _).symm
  success_performs := by
    intro _ s alive
    simp [LogInPage.logInBlock, alive]
  failure_performs := by
    intro _ _ s alive
    simp [LogInPage.logInBlock, alive]

/-- `SignUpPage`. -/
def signUpPage (Data : Type) : Page SignUpPage Unit Data where
  declared := ["registerUserInfo"]
  tap _ form _ := ofEffects form.signUpRegisterButtonPressed
  block _ _ error := ofEffects (SignUpPage.userSignUpBlock error)
  presses _ := none
  segue _ := some "registerUserInfo"
  tap_performs := by
    intro _ _ s alive
    rcases perform_signUp alive with hsame | ⟨call, hsubmitted⟩
    · rw [hsame]
      exact (List.append_nil _).symm
    · rw [hsubmitted]
      exact (List.append_nil _).symm
  success_performs := by
    intro _ s alive
    simp [SignUpPage.userSignUpBlock, alive]
  failure_performs := by
    intro _ _ s alive
    simp [SignUpPage.userSignUpBlock, alive]

/-- `EditProfile`: only the save of the name navigates. -/
def editProfile (kit : ImageKit Picture Data) : Page (EditProfile Picture) Unit Data where
  declared := ["backAfterSaved"]
  tap current form _ := ofEffects (form.saveProfile kit current)
  block _ call error :=
    match call with
    | .request .saveUsername => ofEffects (EditProfile.saveProfileBlock error)
    | _ => ofEffects (EditProfile.savePictureBlock error)
  presses _ := none
  segue call :=
    match call with
    | .request .saveUsername => some "backAfterSaved"
    | _ => none
  tap_performs := by
    intro current _ s alive
    rw [Option.toList_none, List.append_nil]
    rcases perform_edit kit current alive with htrap | ⟨u, rfl | rfl, hsame | hsubmitted⟩
    · rw [htrap]
    · rw [hsame]
    · rw [hsubmitted]
      rfl
    · rw [hsame]
    · rw [hsubmitted]
      rfl
  success_performs := by
    intro call s alive
    split <;> simp [EditProfile.saveProfileBlock, EditProfile.savePictureBlock, alive]
  failure_performs := by
    intro call _ s alive
    split <;> simp [EditProfile.saveProfileBlock, EditProfile.savePictureBlock, alive]

/-- The buttons of `SignUpUserInfoPage`, and the answer Yes to the question of
    `skip`. -/
inductive InfoButton where
  | userInfoSave
  | skip
  | skipYes

/-- `SignUpUserInfoPage`. -/
def signUpUserInfoPage (Data : Type) : Page SignUpUserInfoPage InfoButton Data where
  declared := ["goToHomePage"]
  tap current form
    | .userInfoSave => ofEffects (form.userInfoSave current)
    | .skip => ofEffects SignUpUserInfoPage.skip
    | .skipYes => ofEffects SignUpUserInfoPage.skipYes
  block _ _ error := ofEffects (SignUpUserInfoPage.userInfoSaveBlock error)
  presses
    | .userInfoSave | .skip => none
    | .skipYes => some "goToHomePage"
  segue _ := some "goToHomePage"
  tap_performs := by
    intro current button s alive
    cases button with
    | userInfoSave =>
        rcases s.form.userInfoSave_cases current with
          ⟨-, alert, heffects⟩ | ⟨-, -, heffects⟩ | ⟨-, -, heffects⟩
        all_goals
          dsimp only
          rw [heffects]
          simp [alive]
    | skip => simp [SignUpUserInfoPage.skip, alive]
    | skipYes => simp [SignUpUserInfoPage.skipYes]
  success_performs := by
    intro _ s alive
    simp [SignUpUserInfoPage.userInfoSaveBlock, alive]
  failure_performs := by
    intro _ _ s alive
    simp [SignUpUserInfoPage.userInfoSaveBlock, alive]

/-- `ResetPassword`: the scene declares another identifier than the block
    passes. -/
def resetPassword (Data : Type) : Page ResetPassword Unit Data where
  declared := ["backToLoginPage"]
  tap _ form _ := form.resetButton
  block _ _ error := ResetPassword.resetBlock error
  presses _ := none
  segue _ := some "goBackToLoginPage"
  tap_performs := by
    intro _ _ s alive
    rw [ResetPassword.resetButton]
    split <;> simp [alive]
  success_performs := by
    intro _ s alive
    simp [ResetPassword.resetBlock, alive]
  failure_performs := by
    intro _ _ s alive
    simp [ResetPassword.resetBlock, alive]

/-! ## Which screens are valid -/

/-- A call that is submitted under the counter may be one that navigates. -/
theorem submitting_of (page : Page Form Button Data) {s t : Appearance Form Data}
    (h : t = s ∨ ∃ call, t = s.submitted call) :
    page.submitting t = page.submitting s
    ∨ (page.submitting t = page.submitting s + 1 ∧ 0 < t.lock) := by
  rcases h with rfl | ⟨call, rfl⟩
  · exact Or.inl rfl
  · have hcount : page.submitting (s.submitted call)
        = page.submitting s + if (page.segue call).isSome then 1 else 0 :=
      List.countP_append.trans (congrArg (page.submitting s + ·) List.countP_singleton)
    rw [hcount]
    by_cases hsegue : (page.segue call).isSome = true
    · rw [if_pos hsegue]
      exact Or.inr ⟨rfl, Nat.succ_pos s.lock⟩
    · rw [if_neg hsegue]
      exact Or.inl rfl

theorem logInPage_guarded (Data : Type) : (logInPage Data).Guarded where
  presses _ := rfl
  known _ _ h := by
    rw [← Option.some.inj h]
    exact List.mem_singleton_self _
  tap _ _ _ alive := submitting_of _ (perform_logIn alive)
  calls _ error s alive := by
    cases error <;> simp [logInPage, LogInPage.logInBlock, alive]
  locks _ _ _ _ h := absurd h (Option.some_ne_none _)

/-- The block of a sign-up that failed leaves the counter raised; nothing can
    be tapped then. -/
theorem signUpPage_guarded (Data : Type) : (signUpPage Data).Guarded where
  presses _ := rfl
  known _ _ h := by
    rw [← Option.some.inj h]
    exact List.mem_singleton_self _
  tap _ _ _ alive := submitting_of _ (perform_signUp alive)
  calls _ error s alive := by
    cases error <;> simp [signUpPage, SignUpPage.userSignUpBlock, alive]
  locks _ _ _ _ h := absurd h (Option.some_ne_none _)

/-- The save of the picture is not under the counter, and does not navigate. -/
theorem editProfile_guarded (kit : ImageKit Picture Data) : (editProfile kit).Guarded where
  presses _ := rfl
  known call identifier h := by
    dsimp only [editProfile] at h
    split at h
    · rw [← Option.some.inj h]
      exact List.mem_singleton_self _
    · exact absurd h.symm (Option.some_ne_none identifier)
  tap current _ s alive := by
    rcases perform_edit kit current alive with htrap | ⟨u, hu, hedit⟩
    · have hsame := congrArg (editProfile kit).submitting htrap
      exact Or.inl hsame
    · have hsame : (editProfile kit).submitting u = (editProfile kit).submitting s := by
        rcases hu with rfl | rfl
        · rfl
        · exact List.countP_append
      rw [← hsame]
      exact submitting_of _ (hedit.imp_right fun h => ⟨_, h⟩)
  calls call error s alive := by
    dsimp only [editProfile]
    split <;> cases error <;> simp [EditProfile.saveProfileBlock,
      EditProfile.savePictureBlock, alive]
  locks call error s alive h := by
    dsimp only [editProfile] at h ⊢
    split at h
    · exact absurd h (Option.some_ne_none _)
    · cases error <;> simp [EditProfile.savePictureBlock, alive]

/-- Yes is tapped, or a save succeeds. -/
def Leaves (e : PageEvent SignUpUserInfoPage InfoButton) : Prop :=
  e = .tap .skipYes ∨ ∃ i, e = .complete i none

section

variable {current : Option (PFUser Data)} {form : SignUpUserInfoPage}
  {s t : Appearance SignUpUserInfoPage Data}

/-- `SignUpUserInfoPage` navigates at exactly these events. -/
theorem navigates_iff {e : PageEvent SignUpUserInfoPage InfoButton}
    (h : (signUpUserInfoPage Data).step current s e = some t) :
    (signUpUserInfoPage Data).navigates s e = none ↔ ¬ Leaves e := by
  cases e with
  | edit form => simp [Page.navigates, Leaves]
  | tap button => cases button <;> simp [Page.navigates, signUpUserInfoPage, Leaves]
  | complete i error =>
      obtain ⟨-, h⟩ := Option.ite_none_right_eq_some.mp h
      obtain ⟨call, hcall, -⟩ := Option.map_eq_some_iff.mp h
      cases error with
      | none => simp [Page.navigates, signUpUserInfoPage, Leaves, hcall]
      | some e => simp [Page.navigates, Leaves]

/-- It has performed a segue once one of them was delivered. -/
theorem performed_iff {pre : List (PageEvent SignUpUserInfoPage InfoButton)}
    (h : run ((signUpUserInfoPage Data).step current) (Appearance.opened form) pre = some t) :
    t.performed = [] ↔ ∀ e ∈ pre, ¬ Leaves e := by
  refine run_inv (fun pre t => t.performed = [] ↔ ∀ e ∈ pre, ¬ Leaves e) ?_ ?_ h
  · exact iff_of_true rfl fun e he => absurd he List.not_mem_nil
  · intro pre t e u _ ht hu
    rw [Page.performed_step hu, List.append_eq_nil_iff, Option.toList_eq_nil_iff, ht,
      navigates_iff hu, List.forall_mem_append, List.forall_mem_singleton]

/-- **SIGN-UP INFORMATION, EXACTLY WHEN**: the segues of `SignUpUserInfoPage`
    are valid exactly when a save succeeds only before any other save has, and
    before Yes is tapped. -/
theorem signUpUserInfo_valid_iff {es : List (PageEvent SignUpUserInfoPage InfoButton)} :
    (∀ pre t, Visits ((signUpUserInfoPage Data).step current) (Appearance.opened form) es pre t →
        (signUpUserInfoPage Data).Valid t)
      ↔ ∀ pre t i, Fires ((signUpUserInfoPage Data).step current) (Appearance.opened form) es pre t
          (.complete i none) → ∀ e ∈ pre, ¬ Leaves e := by
  rw [Page.valid_iff]
  constructor
  · intro h pre t i hf
    obtain ⟨u, hu⟩ := hf.2.2
    obtain ⟨identifier, hnav⟩ := Option.ne_none_iff_exists'.mp
      (fun hnone => (navigates_iff hu).mp hnone (Or.inr ⟨i, rfl⟩))
    exact (performed_iff hf.2.1).mp (h pre t _ hf identifier hnav).2
  · intro h pre t e hf identifier hnav
    obtain ⟨u, hu⟩ := hf.2.2
    have hleaves : Leaves e := by
      by_contra hstays
      rw [(navigates_iff hu).mpr hstays] at hnav
      exact absurd hnav.symm (Option.some_ne_none identifier)
    rcases hleaves with rfl | ⟨i, rfl⟩
    · refine ⟨?_, (Page.performed_of_tap hu).2⟩
      rw [← Option.some.inj hnav]
      exact List.mem_singleton_self _
    · refine ⟨?_, (performed_iff hf.2.1).mpr (h pre t i hf)⟩
      obtain ⟨call, -, hsegue⟩ := Option.bind_eq_some_iff.mp hnav
      rw [← Option.some.inj hsegue]
      exact List.mem_singleton_self _

end

/-- **PASSWORD RESET, EXACTLY WHEN**: the segues of `ResetPassword` are valid
    exactly when no reset succeeds. -/
theorem resetPassword_valid_iff {current : Option (PFUser Data)} {form : ResetPassword}
    {es : List (PageEvent ResetPassword Unit)} :
    (∀ pre t, Visits ((resetPassword Data).step current) (Appearance.opened form) es pre t →
        (resetPassword Data).Valid t)
      ↔ ∀ pre t i, ¬ Fires ((resetPassword Data).step current) (Appearance.opened form) es pre t
          (.complete i none) := by
  rw [Page.valid_iff]
  constructor
  · intro h pre t i hf
    obtain ⟨u, hu⟩ := hf.2.2
    obtain ⟨-, hu⟩ := Option.ite_none_right_eq_some.mp hu
    obtain ⟨call, hcall, -⟩ := Option.map_eq_some_iff.mp hu
    have hnav : (resetPassword Data).navigates t (.complete i none) = some "goBackToLoginPage" := by
      rw [Page.navigates, hcall]
      rfl
    have hdeclared : "goBackToLoginPage" ∈ ["backToLoginPage"] := (h pre t _ hf _ hnav).1
    exact absurd hdeclared (by decide)
  · intro h pre t e hf identifier hnav
    cases e with
    | edit form => exact absurd hnav.symm (Option.some_ne_none identifier)
    | tap button => exact absurd hnav.symm (Option.some_ne_none identifier)
    | complete i error =>
        cases error with
        | none => exact absurd hf (h pre t i)
        | some e => exact absurd hnav.symm (Option.some_ne_none identifier)

/-- **ONE VALID SEGUE, EXACTLY WHEN**: in every appearance of `LogInPage`,
    `SignUpPage` and `EditProfile` one segue is performed at most, and one that
    the scene declares.  On `SignUpUserInfoPage` this holds exactly when no
    save succeeds after another one or after Yes; on `ResetPassword`, exactly
    when no reset succeeds. -/
theorem one_valid_segue_iff (kit : ImageKit Picture Data) (current : Option (PFUser Data)) :
    (∀ form es pre t, Visits ((logInPage Data).step current) (Appearance.opened form) es pre t →
      (logInPage Data).Valid t)
    ∧ (∀ form es pre t,
      Visits ((signUpPage Data).step current) (Appearance.opened form) es pre t →
      (signUpPage Data).Valid t)
    ∧ (∀ form es pre t,
      Visits ((editProfile kit).step current) (Appearance.opened form) es pre t →
      (editProfile kit).Valid t)
    ∧ (∀ form es,
      (∀ pre t, Visits ((signUpUserInfoPage Data).step current) (Appearance.opened form) es pre t →
        (signUpUserInfoPage Data).Valid t)
      ↔ ∀ pre t i, Fires ((signUpUserInfoPage Data).step current) (Appearance.opened form) es pre t
          (.complete i none) → ∀ e ∈ pre, ¬ Leaves e)
    ∧ (∀ form es,
      (∀ pre t, Visits ((resetPassword Data).step current) (Appearance.opened form) es pre t →
        (resetPassword Data).Valid t)
      ↔ ∀ pre t i, ¬ Fires ((resetPassword Data).step current) (Appearance.opened form) es pre t
          (.complete i none)) :=
  ⟨fun _ _ => (logInPage_guarded Data).valid, fun _ _ => (signUpPage_guarded Data).valid,
    fun _ _ => (editProfile_guarded kit).valid, fun _ _ => signUpUserInfo_valid_iff,
    fun _ _ => resetPassword_valid_iff⟩

/-- A reset that succeeds passes an unknown segue; and two saves that succeed
    navigate twice. -/
theorem unknown_segue_after_reset :
    (∃ t, run ((resetPassword Nat).step none) (Appearance.opened ⟨.literal "a@fp"⟩)
        [.tap (), .complete 0 none] = some t
      ∧ t.performed = ["goBackToLoginPage"] ∧ t.ended = true ∧ ¬ (resetPassword Nat).Valid t)
    ∧ ∃ t, run ((signUpUserInfoPage Nat).step (some ⟨.empty, .empty, .empty, none⟩))
        (Appearance.opened ⟨.literal "name"⟩)
        [.tap .userInfoSave, .tap .userInfoSave, .complete 0 none, .complete 0 none] = some t
      ∧ t.performed = ["goToHomePage", "goToHomePage"] ∧ ¬ (signUpUserInfoPage Nat).Valid t := by
  refine ⟨⟨_, rfl, rfl, rfl, ?_⟩, ⟨_, rfl, rfl, ?_⟩⟩
  · intro hvalid
    have hknown := hvalid.known "goBackToLoginPage" (List.mem_singleton_self _)
    exact absurd hknown (by decide)
  · intro hvalid
    exact absurd hvalid.once (by decide)

end FPSegues

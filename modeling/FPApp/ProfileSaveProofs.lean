import FPApp.ProfileProofs

/-! # What "Saved!" reports

    One press of Save makes two saves of the user object, and only the second
    reports success.  The two are calls of one queue, and the counter of
    ignored interactions is held from before the second call until its
    completion block, so that nothing is written in between: the second call
    is the last one when it ends.

    * `Phase` — where a press of Save stands, as far as the counter, the queue
      and the handler go;
    * `saved_reports_truth` — when a completion block shows "Saved!", the
      server holds the name typed and the picture shown at its press. -/

namespace FPProfile

open FPParse FPScreens EventRun WriteBack

variable {Picture Data : Type}

namespace Profile

variable {kit : ImageKit Picture Data} {s t : Profile Picture Data}

/-- The effect neither touches the counter nor calls for the username's
    save. -/
def Plain : Effect Data → Prop
  | .beginIgnoringInteractionEvents | .endIgnoringInteractionEvents
  | .send .saveUsername => False
  | _ => True

/-- The record holds what the press submits. -/
def Holds (s : Profile Picture Data) (press : Press Picture Data) : Prop :=
  ∀ key value, press.value key = some value → s.record.value key = some value

/-- Where a press of Save stands: none is under way; its handler is writing;
    its handler holds the counter; its last save is in the queue. -/
inductive Phase (s : Profile Picture Data) : Prop where
  | idle (unlocked : s.lock = 0) (none : Replica.Without Call.isSaveUsername s.record)
      (plain : ∀ e ∈ s.todo, Plain e)
  | writing (unlocked : s.lock = 0)
      (none : Replica.Without Call.isSaveUsername s.record) (effects : List (Effect Data))
      (todo : s.todo = effects ++ [.beginIgnoringInteractionEvents, .send .saveUsername])
      (plain : ∀ e ∈ effects, Plain e)
      (writes : ∀ key value, s.press.value key = some value →
        .setKey key value ∈ effects ∨ s.record.value key = some value)
  | locked (locked : s.lock = 1) (none : Replica.Without Call.isSaveUsername s.record)
      (todo : s.todo = [.send .saveUsername]) (holds : s.Holds s.press)
  | submitted (locked : s.lock = 1) (call : Call Picture Data)
      (sealed : Replica.Sealed Call.isSaveUsername call s.record) (todo : s.todo = [])
      (holds : s.Holds call.press)

/-! ## The handlers -/

/-- `saveProfile` either does not get to the counter, or ends with it and the
    username's save, after writing all that its press submits. -/
theorem saveProfile_phase (scene : EditProfile Picture) (user : PFUser Data)
    (press : Press Picture Data) (htyped : press.typed = scene.usernameTextfield)
    (himage : press.image = scene.imageData kit) :
    (∀ e ∈ scene.saveProfile kit (some user), Plain e)
    ∨ ∃ effects, scene.saveProfile kit (some user)
          = effects ++ [.beginIgnoringInteractionEvents, .send .saveUsername]
        ∧ (∀ e ∈ effects, Plain e)
        ∧ ∀ key value, press.value key = some value → .setKey key value ∈ effects := by
  have hpicture : ∀ e ∈ scene.savePicture kit, Plain e := by
    rcases scene.savePicture_cases kit with ⟨-, hnone⟩ | ⟨data, -, hsave⟩
    · rw [hnone]
      exact fun e he => absurd he List.not_mem_nil
    · rw [hsave]
      simp [Plain]
  have hname : ∀ e ∈ scene.savePicture kit
      ++ [.setKey .username (.string scene.usernameTextfield)], Plain e := by
    intro e he
    rcases List.mem_append.mp he with hpic | hlast
    · exact hpicture e hpic
    · rw [List.mem_singleton.mp hlast]
      trivial
  rw [EditProfile.saveProfile_some]
  by_cases hshort : scene.usernameTextfield.count ≤ 3
  · refine Or.inl ?_
    rw [if_pos hshort]
    intro e he
    rcases List.mem_append.mp he with hwrite | hlast
    · exact hname e hwrite
    · rw [List.mem_singleton.mp hlast]
      trivial
  · refine Or.inr ⟨scene.savePicture kit
      ++ [.setKey .username (.string scene.usernameTextfield)] ++ [.showHUD "Uploading"],
      ?_, ?_, ?_⟩
    · rw [if_neg hshort]
      simp
    · intro e he
      rcases List.mem_append.mp he with hwrite | hlast
      · exact hname e hwrite
      · rw [List.mem_singleton.mp hlast]
        trivial
    · intro key value hvalue
      refine List.mem_append_left _ ?_
      cases key with
      | username =>
          rw [Press.value, htyped] at hvalue
          obtain rfl : Value.string scene.usernameTextfield = value := Option.some.inj hvalue
          exact List.mem_append_right _ (List.mem_singleton.mpr rfl)
      | profilePicture =>
          refine List.mem_append_left _ ?_
          rw [Press.value, himage] at hvalue
          obtain ⟨data, hdata, rfl⟩ := Option.map_eq_some_iff.mp hvalue
          rcases scene.savePicture_cases kit with ⟨hnone, -⟩ | ⟨shown, hshown, hsave⟩
          · exact absurd (hnone.symm.trans hdata).symm (Option.some_ne_none data)
          · obtain rfl := Option.some.inj (hshown.symm.trans hdata)
            rw [hsave]
            exact List.mem_cons_self

/-- The other handlers do not get to the counter. -/
theorem touch_plain {tt : ProfileTouch Picture} (free : s.todo = [])
    (hother : tt ≠ .saveProfile) : ∀ e ∈ (s.touch kit tt).todo, Plain e := by
  have hidle {u : Profile Picture Data} (hu : u.todo = s.todo) : ∀ e ∈ u.todo, Plain e := by
    rw [hu, free]
    exact fun e he => absurd he List.not_mem_nil
  cases tt with
  | typeUsername t => exact hidle rfl
  | typeChosenUsername t => exact hidle rfl
  | imagePicked image =>
      cases image with
      | none => exact hidle rfl
      | some image => exact hidle rfl
  | saveProfile => exact absurd rfl hother
  | openEditProfile =>
      show ∀ e ∈ ((EditProfile.storyboard kit).viewDidLoad (some s.user)).2, Plain e
      rw [EditProfile.viewDidLoad]
      cases hpic : s.user.profilePicture <;> simp [Plain]
  | userInfoSave =>
      show ∀ e ∈ s.signUpUserInfoPage.userInfoSave (some s.user), Plain e
      rcases s.signUpUserInfoPage.userInfoSave_cases (some s.user)
        with ⟨-, alert, heq⟩ | ⟨-, hnone, -⟩ | ⟨-, -, heq⟩
      · rw [heq]
        simp [Plain]
      · exact absurd hnone (Option.some_ne_none s.user)
      · rw [heq]
        simp [Plain]
  | skipYes =>
      show ∀ e ∈ (SignUpUserInfoPage.skipYes : List (Effect Data)), Plain e
      simp [SignUpUserInfoPage.skipYes, Plain]

/-- A plain effect leaves the counter, and the queue without the username's
    save. -/
theorem act_plain {e : Effect Data} (he : Plain e)
    (hnone : Replica.Without Call.isSaveUsername s.record) :
    (s.act e).lock = s.lock ∧ Replica.Without Call.isSaveUsername (s.act e).record := by
  cases e with
  | beginIgnoringInteractionEvents => exact he.elim
  | endIgnoringInteractionEvents => exact he.elim
  | send request =>
      cases request with
      | saveUsername => exact he.elim
      | saveProfilePicture => exact ⟨rfl, Replica.without_call hnone rfl⟩
      | saveUserInfo => exact ⟨rfl, Replica.without_call hnone rfl⟩
      | _ => exact ⟨rfl, hnone⟩
  | _ => exact ⟨rfl, hnone⟩

/-! ## One step -/

/-- Between two handlers no press of Save is under way, or its last save is in
    the queue. -/
theorem phase_between (hs : s.Phase) (free : s.todo = []) :
    (s.lock = 0 ∧ Replica.Without Call.isSaveUsername s.record)
    ∨ ∃ call, s.lock = 1 ∧ Replica.Sealed Call.isSaveUsername call s.record
      ∧ s.Holds call.press := by
  cases hs with
  | idle unlocked none _ => exact Or.inl ⟨unlocked, none⟩
  | writing _ _ effects todo _ _ =>
      rw [free] at todo
      exact absurd todo.symm (List.append_ne_nil_of_right_ne_nil _ (List.cons_ne_nil _ _))
  | locked _ _ todo _ =>
      rw [free] at todo
      exact absurd todo.symm (List.cons_ne_nil _ _)
  | submitted locked call hsealed _ holds => exact Or.inr ⟨call, locked, hsealed, holds⟩

/-- A touch finds no press of Save under way. -/
theorem phase_free (hs : s.Phase) (unlocked : s.lock = 0) (free : s.todo = []) :
    Replica.Without Call.isSaveUsername s.record := by
  rcases phase_between hs free with ⟨-, none⟩ | ⟨call, locked, -, -⟩
  · exact none
  · rw [unlocked] at locked
    exact absurd locked (by decide)

/-- The next effect of the handler. -/
theorem phase_next {effect : Effect Data} {effects : List (Effect Data)}
    (haccounted : s.Accounted) (hs : s.Phase) (todo : s.todo = effect :: effects) :
    ({ s with todo := effects }.act effect).Phase := by
  obtain ⟨htodo, hpress, -⟩ := act_same { s with todo := effects } effect
  cases hs with
  | idle unlocked none plain =>
      rw [todo] at plain
      obtain ⟨hlock, hwithout⟩ := act_plain (s := { s with todo := effects })
        (plain effect List.mem_cons_self) none
      refine .idle (hlock.trans unlocked) hwithout ?_
      rw [htodo]
      exact fun e he => plain e (List.mem_cons_of_mem _ he)
  | writing unlocked none before htail plain writes =>
      rw [todo] at htail
      cases before with
      | nil =>
          -- the handler takes the counter
          obtain ⟨rfl, rfl⟩ := List.cons.inj htail
          refine .locked (congrArg (· + 1) unlocked) none rfl ?_
          intro key value hvalue
          exact (writes key value hvalue).resolve_left List.not_mem_nil
      | cons first rest =>
          obtain ⟨rfl, rfl⟩ := List.cons.inj htail
          obtain ⟨hlock, hwithout⟩ := act_plain
            (s := { s with todo := rest ++ [.beginIgnoringInteractionEvents, .send .saveUsername] })
            (plain effect List.mem_cons_self) none
          refine .writing (hlock.trans unlocked) hwithout rest htodo
            (fun e he => plain e (List.mem_cons_of_mem _ he)) ?_
          rw [hpress]
          intro key value hvalue
          -- what is still to be written, was just written, or stands already
          rcases writes key value hvalue with hmem | hold
          · rcases List.mem_cons.mp hmem with rfl | hrest
            · exact Or.inr (value_write_same _ key value)
            · exact Or.inl hrest
          · refine Or.inr ?_
            rcases act_cases { s with todo := _ } effect with ⟨k, v, rfl, hact⟩
              | ⟨request, rfl, -, hact⟩ | ⟨-, hrec, -⟩
            · rw [hact]
              by_cases hkey : key = k
              · subst hkey
                have hsame : some v = some value :=
                  (haccounted.writes key v (by rw [todo]; exact List.mem_cons_self)).symm.trans
                    hvalue
                rw [value_write_same, hsame]
              · rw [value_write_ne _ v hkey]
                exact hold
            · rw [hact]
              exact hold
            · rw [hrec]
              exact hold
  | locked locked none htail holds =>
      rw [todo] at htail
      obtain ⟨rfl, rfl⟩ := List.cons.inj htail
      -- the username's save is the last call, and nothing is pending after it
      exact .submitted locked ⟨.saveUsername, s.press⟩ (Replica.sealed_call none rfl) rfl holds
  | submitted locked call hsealed htail holds =>
      rw [todo] at htail
      exact absurd htail (List.cons_ne_nil effect effects)

/-- Parse's queue moves on. -/
theorem phase_queue {record : UserRecord Picture Data}
    {started stored : UserKey → Option (Press Picture Data)} (hs : s.Phase)
    (hvalue : record.value = s.record.value)
    (hwithout : Replica.Without Call.isSaveUsername s.record →
      Replica.Without Call.isSaveUsername record)
    (hseal : ∀ call, Replica.Sealed Call.isSaveUsername call s.record →
      Replica.Sealed Call.isSaveUsername call record) :
    ({ s with record := record, started := started, stored := stored } :
      Profile Picture Data).Phase := by
  cases hs with
  | idle unlocked none plain => exact .idle unlocked (hwithout none) plain
  | writing unlocked none effects todo plain writes =>
      refine .writing unlocked (hwithout none) effects todo plain ?_
      show ∀ key value, s.press.value key = some value →
        .setKey key value ∈ effects ∨ record.value key = some value
      rw [hvalue]
      exact writes
  | locked locked none todo holds =>
      refine .locked locked (hwithout none) todo ?_
      show ∀ key value, s.press.value key = some value → record.value key = some value
      rw [hvalue]
      exact holds
  | submitted locked call hsealed todo holds =>
      refine .submitted locked call (hseal call hsealed) todo ?_
      show ∀ key value, call.press.value key = some value → record.value key = some value
      rw [hvalue]
      exact holds

/-- A touch starts a press of Save, or a handler that does not get to the
    counter. -/
theorem phase_touch (hs : s.Phase) (tt : ProfileTouch Picture) (free : s.todo = [])
    (unlocked : s.lock = 0) : (s.touch kit tt).Phase := by
  have hlock : (s.touch kit tt).lock = 0 := (touch_lock tt).trans unlocked
  have hwithout : Replica.Without Call.isSaveUsername (s.touch kit tt).record := by
    rw [touch_record]
    exact phase_free hs unlocked free
  -- only Save of `EditProfile` gets to the counter
  by_cases hsave : tt = .saveProfile
  · subst hsave
    rcases saveProfile_phase s.editProfile s.user (s.touch kit .saveProfile).press rfl rfl
      with hplain | ⟨effects, htodo, hplain, hwrites⟩
    · exact .idle hlock hwithout hplain
    · exact .writing hlock hwithout effects htodo hplain
        (fun key value hvalue => Or.inl (hwrites key value hvalue))
  · exact .idle hlock hwithout (touch_plain free hsave)

/-- A completion block of the record runs; that of the last save gives the
    counter back. -/
theorem phase_deliver {i : Nat} {call : Call Picture Data} {error : Option String}
    {record : UserRecord Picture Data} (hs : s.Phase) (free : s.todo = [])
    (ended : s.record.finished[i]? = some (call, error))
    (delivers : s.record.deliver i = some record) :
    ({ s with
        record := record
        lock := if call.isSaveUsername then s.lock - 1 else s.lock } :
      Profile Picture Data).Phase := by
  have hplain : ∀ e ∈ s.todo, Plain e := by
    rw [free]
    exact fun e he => absurd he List.not_mem_nil
  rcases phase_between hs free with ⟨unlocked, none⟩ | ⟨last, locked, hsealed, holds⟩
  · have hcall : call.isSaveUsername = false :=
      none call (Replica.mem_calls_of_finished s.record (List.mem_of_getElem? ended))
    refine .idle ?_ (Replica.without_deliver none delivers) hplain
    show (if call.isSaveUsername then s.lock - 1 else s.lock) = 0
    rw [hcall]
    exact unlocked
  · rcases Replica.sealed_deliver hsealed ended delivers
      with ⟨hother, hkeeps⟩ | ⟨hsame, hwithout, -, -⟩
    · refine .submitted ?_ last hkeeps free ?_
      · show (if call.isSaveUsername then s.lock - 1 else s.lock) = 1
        rw [show call.isSaveUsername = false from hother]
        exact locked
      · show ∀ key value, last.press.value key = some value → record.value key = some value
        obtain ⟨-, rfl⟩ := Replica.deliver_cases delivers
        exact holds
    · have hkind : call.isSaveUsername = true := by
        rw [show call = last from hsame]
        exact Replica.sealed_kind hsealed
      refine .idle ?_ hwithout hplain
      show (if call.isSaveUsername then s.lock - 1 else s.lock) = 0
      rw [hkind, locked]
      rfl

/-- The end of a download concerns no press of Save. -/
theorem phase_download {i : Nat} {visit : Nat} {file : PFFile Data} {arrives : Bool}
    (hs : s.Phase) (free : s.todo = []) : (s.downloadEnded kit i visit file arrives).Phase := by
  obtain ⟨hrec, hlock, htodo, -⟩ := downloadEnded_same kit s i visit file arrives
  rcases phase_between hs free with ⟨unlocked, none⟩ | ⟨call, locked, hsealed, holds⟩
  · refine .idle (hlock.trans unlocked) ?_ ?_
    · rw [hrec]
      exact none
    · rw [htodo, free]
      exact fun e he => absurd he List.not_mem_nil
  · refine .submitted (hlock.trans locked) call ?_ (htodo.trans free) ?_
    · rw [hrec]
      exact hsealed
    · rw [Holds, hrec]
      exact holds

/-- **PHASE STEP**: every step keeps the phases. -/
theorem phase_step {e : ProfileEvent Picture} (haccounted : s.Accounted) (hs : s.Phase)
    (h : s.step kit e = some t) : t.Phase := by
  cases step_does h with
  | touch tt free unlocked => exact phase_touch hs tt free unlocked
  | next effect effects todo => exact phase_next haccounted hs todo
  | start record starts =>
      refine phase_queue hs ?_ (fun hw => Replica.without_start hw starts)
        (fun call hc => Replica.sealed_start hc starts)
      obtain ⟨c, cs, -, -, rfl⟩ := Replica.start_cases starts
      rfl
  | finish error record finishes =>
      exact phase_queue hs (Replica.value_finish finishes).1
        (fun hw => Replica.without_finish hw finishes)
        (fun call hc => Replica.sealed_finish hc finishes)
  | deliver i call error record free ended delivers => exact phase_deliver hs free ended delivers
  | download i arrives visit file free under => exact phase_download hs free

/-! ## The report -/

/-- The event runs the completion block of `call` that shows "Saved!" and
    performs the segue `backAfterSaved`. -/
def ReportsSaved (s : Profile Picture Data) (e : ProfileEvent Picture)
    (call : Call Picture Data) : Prop :=
  ∃ i error, e = .deliver i ∧ s.record.finished[i]? = some (call, error)
    ∧ .showHUDSuccess "Saved!" ∈ call.block error
    ∧ .performSegue "backAfterSaved" ∈ call.block error

/-- The server's record holds what the press typed and showed. -/
def Arrived (s : Profile Picture Data) (press : Press Picture Data) : Prop :=
  s.record.server .username = some (.string press.typed)
    ∧ ∀ image, press.image = some image →
      s.record.server .profilePicture = some (.file ⟨"profilePic.png", image⟩)

/-- Only the success of the username's save shows "Saved!". -/
theorem reports_kind {call : Call Picture Data} {error : Option String}
    (h : .showHUDSuccess "Saved!" ∈ call.block error) :
    call.isSaveUsername = true ∧ error = none := by
  obtain ⟨request, press⟩ := call
  cases request with
  | saveUsername =>
      refine ⟨rfl, ?_⟩
      cases error with
      | none => rfl
      | some e => simp [Call.block, EditProfile.saveProfileBlock] at h
  | saveProfilePicture =>
      cases error <;> simp [Call.block, EditProfile.savePictureBlock] at h
  | saveUserInfo =>
      cases error <;> simp [Call.block, SignUpUserInfoPage.userInfoSaveBlock] at h
  | _ => exact absurd h List.not_mem_nil

theorem signedIn_phase (kit : ImageKit Picture Data) (user : PFUser Data) :
    (signedIn kit user).Phase :=
  .idle rfl (Replica.without_fresh _) (fun _ he => absurd he List.not_mem_nil)

/-- **SAVED MEANS SAVED**: whenever a completion block shows "Saved!" and goes
    back, the server holds the name typed and the picture shown at its press,
    whatever became of that press's other save and of earlier ones. -/
theorem saved_reports_truth (kit : ImageKit Picture Data) (user : PFUser Data)
    (es : List (ProfileEvent Picture)) :
    ∀ pre t e call, Fires (step kit) (signedIn kit user) es pre t e →
      t.ReportsSaved e call → t.Arrived call.press := by
  rintro pre t e call hf ⟨i, error, rfl, hended, hsaved, -⟩
  obtain ⟨hkind, rfl⟩ := reports_kind hsaved
  have hinv : t.Accounted ∧ t.Phase := by
    refine visits_always (fun t => Accounted t ∧ Phase t)
      ⟨signedIn_accounted kit user, signedIn_phase kit user⟩ ?_ pre t hf.visits
    intro s e t hs h
    exact ⟨accounted_step hs.1 h, phase_step hs.1 hs.2 h⟩
  obtain ⟨haccounted, hphase⟩ := hinv
  have hmem : call ∈ t.record.calls :=
    Replica.mem_calls_of_finished t.record (List.mem_of_getElem? hended)
  have hnot : ¬ Replica.Without Call.isSaveUsername t.record := by
    intro hwithout
    exact absurd (hkind.symm.trans (hwithout call hmem)) (by simp)
  cases hphase with
  | idle _ none _ => exact absurd none hnot
  | writing _ none _ _ _ _ => exact absurd none hnot
  | locked _ none _ _ => exact absurd none hnot
  | submitted _ last hsealed _ holds =>
      obtain ⟨rfl, hserver⟩ :=
        Replica.sealed_done haccounted.coherent hsealed hkind hended
      refine ⟨(hserver .username).trans (holds .username _ rfl), ?_⟩
      intro image himage
      refine (hserver .profilePicture).trans (holds .profilePicture _ ?_)
      rw [Press.value, himage]
      rfl

/-- A user without a picture opens `EditProfile`, picks the picture `7` and
    presses Save; the picture's own save is refused, the username's save takes
    the picture along, and its completion block is next. -/
def refusedPicture : List (ProfileEvent Nat) :=
  [.touch .openEditProfile, .touch (.imagePicked (some 7)), .touch .saveProfile,
    .next, .next, .next, .next, .next, .next,
    .start, .finish (some "offline"), .start, .finish none, .deliver 1]

/-- That block shows "Saved!", and the server holds the picture `7`. -/
theorem saved_reports_truth_refusedPicture :
    ∃ t call, run (step numberKit) (signedIn numberKit
        ⟨.literal "u1", .literal "abcd", .literal "a@b.c", none⟩) (refusedPicture.take 13)
        = some t
      ∧ t.ReportsSaved (.deliver 1) call
      ∧ t.record.server .username = some (.string (.literal "abcd"))
      ∧ t.record.server .profilePicture = some (.file ⟨"profilePic.png", 7⟩) := by
  refine ⟨_, _, rfl, ⟨1, none, rfl, rfl, ?_, ?_⟩, ?_⟩
  · exact List.mem_cons_self
  · exact List.mem_cons_of_mem _ List.mem_cons_self
  · have harrived := saved_reports_truth numberKit
      ⟨.literal "u1", .literal "abcd", .literal "a@b.c", none⟩ refusedPicture
      (refusedPicture.take 13) _ (.deliver 1) _ ⟨List.prefix_rfl, rfl, _, rfl⟩
      ⟨1, none, rfl, rfl, List.mem_cons_self, List.mem_cons_of_mem _ List.mem_cons_self⟩
    exact ⟨harrived.1, harrived.2 7 rfl⟩

end Profile

end FPProfile

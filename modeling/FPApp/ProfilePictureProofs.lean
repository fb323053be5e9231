import FPApp.ProfileProofs

/-! # The profile picture during a visit of EditProfile

    The image view of `EditProfile` is the target of the download that
    `viewDidLoad` starts, the target of the picker, and the source of the
    upload; it starts with the storyboard's placeholder.  Nothing orders the
    three.

    * `Pictured` — what the image view, the user object and the server show is
      what the account of the presses says;
    * `written_step` — a save of `EditProfile` starts after its own press has
      written the picture;
    * `picture_kept_iff` — every save contains the picture picked last, or leaves
      the server's where nothing was picked, exactly when the picture on
      screen at the press came from there. -/

namespace FPProfile

open FPParse FPScreens EventRun WriteBack

variable {Picture Data : Type}

/-- An image layer in which every picture has a PNG, from which it can be
    read back. -/
structure RoundTripKit (Picture Data : Type) extends ImageKit Picture Data where
  decode_png : ∀ picture, (png picture).bind decode = some picture

/-- Pictures are numbers, encoded as themselves; `1` is the placeholder. -/
def plainKit : RoundTripKit Nat Nat where
  named name := if name = "round-help-button" then some 0 else some 1
  png picture := some picture
  decode data := some data
  decode_png _ := rfl

/-- The picture that a value of the user object shows. -/
def shows (kit : ImageKit Picture Data) (value : Option (Value Data)) : Option Picture :=
  (value.bind Value.asFile).bind (PFFile.shows kit)

/-- The picture that there is at an origin. -/
def Origin.picture (kit : ImageKit Picture Data) (user : PFUser Data) :
    Origin Picture → Option Picture
  | .storyboard => kit.named "user"
  | .signIn => shows kit (Profile.signInValue user .profilePicture)
  | .pick image => some image

/-- The press submits the picture that its origin has. -/
def Press.Faithful (kit : ImageKit Picture Data) (user : PFUser Data)
    (press : Press Picture Data) : Prop :=
  press.image.bind kit.decode = press.origin.picture kit user

/-- The call is one of the two saves of `saveProfile`. -/
def Call.isProfileSave (c : Call Picture Data) : Bool :=
  match c.request with
  | .saveProfilePicture | .saveUsername => true
  | _ => false

/-- A press that submits a picture has written it, or a later one has. -/
def WrittenSince (press : Press Picture Data) (writer : Option (Press Picture Data)) : Prop :=
  press.image ≠ none → ∃ last, writer = some last ∧ press.number ≤ last.number

namespace Profile

variable {kit : RoundTripKit Picture Data} {s t : Profile Picture Data} {user : PFUser Data}

/-- The running save was started after its own press had written the picture. -/
def OwnPicture (s : Profile Picture Data) : Prop :=
  ∀ f, s.record.running = some f → WrittenSince f.call.press (s.started .profilePicture)

/-- What the user picked last before the picture of the running save was
    written, in the visit of the save's press or in a later one. -/
def meant (s : Profile Picture Data) (c : Call Picture Data) : Option Picture :=
  (((s.started .profilePicture).getD c.press).picked.filter
    fun pick => c.press.visit ≤ pick.1).map Prod.snd

/-- Where the picture of the running save is to come from: the last pick or,
    without a pick, wherever the server's came from. -/
def due (s : Profile Picture Data) (c : Call Picture Data) : Origin Picture :=
  match s.meant c with
  | some image => .pick image
  | none => pictureOrigin s.stored

/-- A running save of `EditProfile` has the server show the picture picked last
    or, without a pick, the one that the server shows already. -/
def PictureKept (kit : ImageKit Picture Data) (s : Profile Picture Data) : Prop :=
  match s.record.running with
  | none => True
  | some f => f.call.isProfileSave = true →
      shows kit (s.record.outlook .profilePicture) =
        match s.meant f.call with
        | some image => some image
        | none => shows kit (s.record.server .profilePicture)

/-- The picture of a running save of `EditProfile` comes from where it is to
    come from, or looks the same. -/
def PictureFrom (kit : ImageKit Picture Data) (user : PFUser Data)
    (s : Profile Picture Data) : Prop :=
  match s.record.running with
  | none => True
  | some f => f.call.isProfileSave = true →
      pictureOrigin s.started = s.due f.call
        ∨ (pictureOrigin s.started).picture kit user = (s.due f.call).picture kit user

/-- The picture on the server stays, or a save succeeds and brings what it was
    to have the server show. -/
def PictureStored (s : Profile Picture Data) (e : ProfileEvent Picture)
    (u : Profile Picture Data) : Prop :=
  u.record.server .profilePicture = s.record.server .profilePicture
    ∨ e = .finish none
      ∧ u.record.server .profilePicture = s.record.outlook .profilePicture

/-- What the image view, the downloads and the presses show. -/
structure Pictured (kit : ImageKit Picture Data) (user : PFUser Data)
    (s : Profile Picture Data) : Prop where
  visits : ∀ d ∈ s.downloads, d.1 ≤ s.visit
  view : s.editProfile.profilePicture = s.origin.picture kit user
  under : ∀ file, (s.visit, file) ∈ s.downloads ∨ .send (.profilePictureData file) ∈ s.todo →
    file.shows kit = s.opened.picture kit user
  writes : ∀ value, .setKey .profilePicture value ∈ s.todo → s.press.Faithful kit user
  writer : ∀ press, s.writer .profilePicture = some press → press.Faithful kit user
  started : ∀ press, s.started .profilePicture = some press → press.Faithful kit user
  stored : ∀ press, s.stored .profilePicture = some press → press.Faithful kit user

/-! ## What the handlers read and write -/

theorem shows_file (kit : ImageKit Picture Data) (name : String) (data : Data) :
    shows kit (some (.file ⟨name, data⟩)) = kit.decode data := rfl

/-- The PNG of what the image view shows reads back as that. -/
theorem imageData_decode (kit : RoundTripKit Picture Data) (scene : EditProfile Picture) :
    (scene.imageData kit.toImageKit).bind kit.decode = scene.profilePicture := by
  rw [EditProfile.imageData]
  cases scene.profilePicture with
  | none => rfl
  | some picture => exact kit.decode_png picture

/-- `saveProfile` starts no download. -/
theorem saveProfile_no_download (scene : EditProfile Picture) (user : PFUser Data)
    (file : PFFile Data) :
    .send (.profilePictureData file) ∉ scene.saveProfile kit.toImageKit (some user) := by
  intro h
  rw [EditProfile.saveProfile_some] at h
  rcases List.mem_append.mp h with hwrite | hrest
  · rcases List.mem_append.mp hwrite with hpic | hname
    · rcases scene.savePicture_cases kit.toImageKit with ⟨-, hnone⟩ | ⟨data, -, hsave⟩
      · rw [hnone] at hpic
        exact absurd hpic List.not_mem_nil
      · simp [hsave] at hpic
    · exact absurd (List.mem_singleton.mp hname) (by simp)
  · split at hrest <;> simp at hrest

/-- `viewDidLoad` writes nothing and calls for no save. -/
theorem viewDidLoad_no_write (scene : EditProfile Picture) (user : PFUser Data) :
    (∀ key value, .setKey key value ∉ (scene.viewDidLoad (some user)).2)
      ∧ ∀ request, .send request ∈ (scene.viewDidLoad (some user)).2 →
        savesUser request = false := by
  rw [EditProfile.viewDidLoad]
  cases hpic : user.profilePicture with
  | none => exact ⟨fun _ _ h => absurd h List.not_mem_nil, fun _ h => absurd h List.not_mem_nil⟩
  | some image =>
      refine ⟨fun key value h => absurd (List.mem_singleton.mp h) (by simp), ?_⟩
      intro request h
      obtain rfl : request = .profilePictureData image :=
        Effect.send.inj (List.mem_singleton.mp h)
      rfl

/-- `userInfoSave` writes no picture and starts no download. -/
theorem userInfoSave_no_picture (page : SignUpUserInfoPage) (user : PFUser Data) :
    (∀ value, .setKey .profilePicture value ∉ page.userInfoSave (some user))
      ∧ ∀ file, .send (.profilePictureData file) ∉ page.userInfoSave (some user) := by
  rcases page.userInfoSave_cases (some user) with ⟨-, alert, heq⟩ | ⟨-, hnone, -⟩ | ⟨-, -, heq⟩
  · rw [heq]
    exact ⟨fun _ => by simp, fun _ => by simp⟩
  · exact absurd hnone (Option.some_ne_none user)
  · rw [heq]
    exact ⟨fun _ => by simp, fun _ => by simp⟩

/-- The handler of Yes on the Skip dialog writes no picture, starts no download
    and calls for no save. -/
theorem skipYes_no_picture (Data : Type) :
    (∀ value : Value Data, .setKey .profilePicture value ∉ SignUpUserInfoPage.skipYes)
      ∧ ∀ request : Request Data, .send request ∉ SignUpUserInfoPage.skipYes := by
  constructor
  · intro value
    simp [SignUpUserInfoPage.skipYes]
  · intro request
    simp [SignUpUserInfoPage.skipYes]

/-- One effect writes the picture or leaves its writer. -/
theorem act_writer (s : Profile Picture Data) (effect : Effect Data) :
    (∃ value, effect = .setKey .profilePicture value
      ∧ (s.act effect).writer .profilePicture = some s.press)
    ∨ (∀ value, effect ≠ .setKey .profilePicture value)
      ∧ (s.act effect).writer .profilePicture = s.writer .profilePicture := by
  rcases act_cases s effect with ⟨key, value, rfl, hact⟩ | ⟨request, rfl, -, hact⟩
    | ⟨hfree, -, hwriter⟩
  · rw [hact]
    cases key with
    | profilePicture => exact Or.inl ⟨value, rfl, writer_write_same _ _ _⟩
    | username =>
        have hother : UserKey.profilePicture ≠ .username := by decide
        exact Or.inr ⟨fun _ h => hother (Effect.setKey.inj h).1.symm,
          writer_write_ne _ value hother⟩
  · rw [hact]
    exact Or.inr ⟨fun _ h => by simp at h, rfl⟩
  · rw [hwriter]
    refine Or.inr ⟨?_, rfl⟩
    rintro value rfl
    exact hfree.elim

/-! ## The picture shown -/

/-- What is held of the picture since a faithful press shows what its origin
    has. -/
theorem shows_held {writer : UserKey → Option (Press Picture Data)}
    (h : ∀ press, writer .profilePicture = some press → press.Faithful kit.toImageKit user) :
    shows kit.toImageKit (held user .profilePicture (writer .profilePicture))
      = (pictureOrigin writer).picture kit.toImageKit user := by
  rw [pictureOrigin]
  cases hwriter : writer .profilePicture with
  | none => rfl
  | some press =>
      show shows kit.toImageKit (press.value .profilePicture) = _
      rw [← h press hwriter, Press.value]
      cases press.image with
      | none => rfl
      | some data => exact shows_file kit.toImageKit _ data

/-- The file that a visit downloads shows the picture of the user object. -/
theorem opened_file (hsourced : s.Sourced user) (hs : s.Pictured kit.toImageKit user)
    {file : PFFile Data} (h : s.user.profilePicture = some file) :
    file.shows kit.toImageKit = (pictureOrigin s.writer).picture kit.toImageKit user := by
  have hfile : (s.record.value .profilePicture).bind Value.asFile = some file := h
  have hvalue := shows_held hs.writer
  rw [← hsourced.value, shows, hfile] at hvalue
  exact hvalue

/-- A touch. -/
theorem pictured_touch (tt : ProfileTouch Picture) (hsourced : s.Sourced user)
    (hs : s.Pictured kit.toImageKit user) :
    (s.touch kit.toImageKit tt).Pictured kit.toImageKit user := by
  cases tt with
  | typeUsername t => exact { hs with }
  | typeChosenUsername t => exact { hs with }
  | imagePicked image =>
      cases image with
      | none => exact { hs with }
      | some image => exact { hs with view := rfl }
  | openEditProfile =>
      obtain ⟨hwrite, -⟩ :=
        viewDidLoad_no_write (EditProfile.storyboard kit.toImageKit) s.user
      refine ⟨fun d hd => Nat.le_succ_of_le (hs.visits d hd), rfl, ?_, ?_, hs.writer,
        hs.started, hs.stored⟩
      · rintro file (hunder | hsend)
        · -- the visit is new
          have hle : s.visit + 1 ≤ s.visit := hs.visits (s.visit + 1, file) hunder
          omega
        · have hopen : .send (.profilePictureData file)
              ∈ ((EditProfile.storyboard kit.toImageKit).viewDidLoad (some s.user)).2 := hsend
          rw [EditProfile.viewDidLoad] at hopen
          cases hpic : s.user.profilePicture with
          | none => simp [hpic] at hopen
          | some image =>
              simp only [hpic, List.mem_singleton, Effect.send.injEq,
                Request.profilePictureData.injEq] at hopen
              subst hopen
              exact opened_file hsourced hs hpic
      · exact fun value hk => absurd hk (hwrite .profilePicture value)
  | saveProfile =>
      refine ⟨hs.visits, hs.view, ?_, ?_, hs.writer, hs.started, hs.stored⟩
      · rintro file (hold | hsend)
        · exact hs.under file (Or.inl hold)
        · exact absurd hsend (saveProfile_no_download s.editProfile s.user file)
      · intro value _
        exact (imageData_decode kit s.editProfile).trans hs.view
  | userInfoSave =>
      obtain ⟨hwrite, hsend⟩ := userInfoSave_no_picture s.signUpUserInfoPage s.user
      refine ⟨hs.visits, hs.view, ?_, ?_, hs.writer, hs.started, hs.stored⟩
      · rintro file (hold | hnew)
        · exact hs.under file (Or.inl hold)
        · exact absurd hnew (hsend file)
      · exact fun value hk => absurd hk (hwrite value)
  | skipYes =>
      obtain ⟨hwrite, hsend⟩ := skipYes_no_picture Data
      refine ⟨hs.visits, hs.view, ?_, ?_, hs.writer, hs.started, hs.stored⟩
      · rintro file (hold | hnew)
        · exact hs.under file (Or.inl hold)
        · exact absurd hnew (hsend _)
      · exact fun value hk => absurd hk (hwrite value)

/-- The next effect of a handler. -/
theorem pictured_next {effect : Effect Data} {effects : List (Effect Data)}
    (hs : s.Pictured kit.toImageKit user) (todo : s.todo = effect :: effects) :
    ({ s with todo := effects }.act effect).Pictured kit.toImageKit user := by
  obtain ⟨htodo, hpress, hscene, hvisit, horigin, hopened, hstarted, hstored⟩ :=
    act_same { s with todo := effects } effect
  have hhead : effect ∈ s.todo := by
    rw [todo]
    exact List.mem_cons_self
  have htail {e : Effect Data} (he : e ∈ effects) : e ∈ s.todo := by
    rw [todo]
    exact List.mem_cons_of_mem effect he
  refine ⟨?_, ?_, ?_, ?_, ?_, ?_, ?_⟩
  · rw [hvisit]
    intro d hd
    rcases act_downloads { s with todo := effects } effect with hsame | ⟨file, -, hnew⟩
    · rw [hsame] at hd
      exact hs.visits d hd
    · rw [hnew] at hd
      rcases List.mem_append.mp hd with hold | hlast
      · exact hs.visits d hold
      · rw [List.mem_singleton.mp hlast]
  · rw [hscene, horigin]
    exact hs.view
  · rw [hvisit, htodo, hopened]
    rintro file (hd | hsend)
    · rcases act_downloads { s with todo := effects } effect with hsame | ⟨new, rfl, hnew⟩
      · rw [hsame] at hd
        exact hs.under file (Or.inl hd)
      · rw [hnew] at hd
        rcases List.mem_append.mp hd with hold | hlast
        · exact hs.under file (Or.inl hold)
        · obtain ⟨-, rfl⟩ := Prod.mk.inj (List.mem_singleton.mp hlast)
          exact hs.under file (Or.inr hhead)
    · exact hs.under file (Or.inr (htail hsend))
  · rw [htodo, hpress]
    exact fun value hk => hs.writes value (htail hk)
  · intro press hwriter
    rcases act_writer { s with todo := effects } effect with ⟨value, rfl, hnew⟩ | ⟨-, hold⟩
    · rw [hnew] at hwriter
      rw [← Option.some.inj hwriter]
      exact hs.writes value hhead
    · rw [hold] at hwriter
      exact hs.writer press hwriter
  · rw [hstarted]
    exact hs.started
  · rw [hstored]
    exact hs.stored

/-- A download that ends is shown, in the visit that started it, or changes
    nothing but the list of downloads. -/
theorem downloadEnded_cases (kit : ImageKit Picture Data) (s : Profile Picture Data)
    (i visit : Nat) (file : PFFile Data) (arrives : Bool) :
    (visit = s.visit ∧ ∃ photo, file.shows kit = some photo
        ∧ s.downloadEnded kit i visit file arrives
          = { s with
              downloads := s.downloads.eraseIdx i
              editProfile := { s.editProfile with profilePicture := some photo }
              origin := s.opened })
    ∨ s.downloadEnded kit i visit file arrives
        = { s with downloads := s.downloads.eraseIdx i } := by
  rw [downloadEnded]
  by_cases hvisit : visit = s.visit
  · rw [if_pos hvisit]
    cases hphoto : (if arrives then some file.data else none).bind kit.decode with
    | none =>
        refine Or.inr ?_
        simp only [EditProfile.downloadBlock, hphoto, Option.isSome_none, Bool.false_eq_true,
          if_false]
    | some photo =>
        refine Or.inl ⟨hvisit, photo, ?_, ?_⟩
        · cases arrives with
          | true => exact hphoto
          | false => exact absurd hphoto (by simp)
        · simp only [EditProfile.downloadBlock, hphoto, Option.isSome_some, if_true]
  · rw [if_neg hvisit]
    exact Or.inr rfl

/-- A download ends. -/
theorem pictured_download {i visit : Nat} {file : PFFile Data} {arrives : Bool}
    (hs : s.Pictured kit.toImageKit user) (under : s.downloads[i]? = some (visit, file)) :
    (s.downloadEnded kit.toImageKit i visit file arrives).Pictured kit.toImageKit user := by
  have hmem : (visit, file) ∈ s.downloads := List.mem_of_getElem? under
  have herase {d : Nat × PFFile Data} (hd : d ∈ s.downloads.eraseIdx i) : d ∈ s.downloads :=
    List.mem_of_mem_eraseIdx hd
  have hleft : ∀ f, (s.visit, f) ∈ s.downloads.eraseIdx i
      ∨ .send (.profilePictureData f) ∈ s.todo →
      f.shows kit.toImageKit = s.opened.picture kit.toImageKit user :=
    fun f hf => hs.under f (hf.imp_left herase)
  rcases downloadEnded_cases kit.toImageKit s i visit file arrives
    with ⟨hvisit, photo, hphoto, heq⟩ | heq
  · rw [heq]
    refine ⟨fun d hd => hs.visits d (herase hd), ?_, hleft, hs.writes, hs.writer, hs.started,
      hs.stored⟩
    rw [hvisit] at hmem
    exact hphoto.symm.trans (hs.under file (Or.inl hmem))
  · rw [heq]
    exact ⟨fun d hd => hs.visits d (herase hd), hs.view, hleft, hs.writes, hs.writer,
      hs.started, hs.stored⟩

/-- **PICTURE STEP**: every step shows what the account says. -/
theorem pictured_step {e : ProfileEvent Picture} (hsourced : s.Sourced user)
    (hs : s.Pictured kit.toImageKit user) (h : s.step kit.toImageKit e = some t) :
    t.Pictured kit.toImageKit user := by
  cases step_does h with
  | touch tt free unlocked => exact pictured_touch tt hsourced hs
  | next effect effects todo => exact pictured_next hs todo
  | start record starts => exact { hs with started := hs.writer }
  | finish error record finishes =>
      refine { hs with stored := ?_ }
      cases error with
      | none => exact hs.started
      | some message => exact hs.stored
  | deliver i call error record free ended delivers => exact { hs with }
  | download i arrives visit file free under => exact pictured_download hs under

theorem signedIn_pictured (kit : RoundTripKit Picture Data) (user : PFUser Data) :
    (signedIn kit.toImageKit user).Pictured kit.toImageKit user where
  visits _ hd := absurd hd List.not_mem_nil
  view := rfl
  under _ h := absurd h (by simp [signedIn])
  writes _ hk := absurd hk List.not_mem_nil
  writer _ h := absurd h.symm (Option.some_ne_none _)
  started _ h := absurd h.symm (Option.some_ne_none _)
  stored _ h := absurd h.symm (Option.some_ne_none _)

/-! ## A save follows the write of its own press -/

/-- The presses are numbered in order; a handler calls for a save after it has
    written the picture, and so a save waits or runs after that. -/
structure Written (s : Profile Picture Data) : Prop where
  numbers : ∀ c ∈ s.record.waiting, c.press.number ≤ s.press.number
  handler : ∀ before request rest, s.todo = before ++ .send request :: rest →
    savesUser request = true → WrittenSince s.press (s.writer .profilePicture)
      ∨ ∃ value, .setKey .profilePicture value ∈ before
  waiting : ∀ c ∈ s.record.waiting, WrittenSince c.press (s.writer .profilePicture)
  running : s.OwnPicture

/-- `saveProfile` writes the picture first. -/
theorem saveProfile_first (scene : EditProfile Picture) (user : PFUser Data)
    {before rest : List (Effect Data)} {request : Request Data}
    (himage : scene.imageData kit.toImageKit ≠ none)
    (h : scene.saveProfile kit.toImageKit (some user) = before ++ .send request :: rest) :
    ∃ value, .setKey .profilePicture value ∈ before := by
  rcases scene.savePicture_cases kit.toImageKit with ⟨hnone, -⟩ | ⟨data, -, hsave⟩
  · exact absurd hnone himage
  · rw [EditProfile.saveProfile_some, hsave] at h
    cases before with
    | nil => exact absurd (List.cons.inj h).1 (by simp)
    | cons first before =>
        rw [← (List.cons.inj h).1]
        exact ⟨_, List.mem_cons_self⟩

/-- A touch. -/
theorem written_touch {tt : ProfileTouch Picture} (hs : s.Written) (free : s.todo = []) :
    (s.touch kit.toImageKit tt).Written := by
  have hidle {u : Profile Picture Data} (hu : u.todo = s.todo) :
      ∀ before request rest, u.todo = before ++ .send request :: rest →
        savesUser request = true → WrittenSince u.press (u.writer .profilePicture)
          ∨ ∃ value, .setKey .profilePicture value ∈ before := by
    intro before request rest h
    rw [hu, free] at h
    exact absurd h.symm (List.append_ne_nil_of_right_ne_nil _ (List.cons_ne_nil _ _))
  have hlater : ∀ c ∈ s.record.waiting, c.press.number ≤ s.press.number + 1 :=
    fun c hc => Nat.le_succ_of_le (hs.numbers c hc)
  cases tt with
  | typeUsername t => exact { hs with handler := hidle rfl }
  | typeChosenUsername t => exact { hs with handler := hidle rfl }
  | imagePicked image =>
      cases image with
      | none => exact { hs with handler := hidle rfl }
      | some image => exact { hs with handler := hidle rfl }
  | openEditProfile =>
      obtain ⟨-, hsend⟩ := viewDidLoad_no_write (EditProfile.storyboard kit.toImageKit) s.user
      refine { hs with handler := ?_ }
      intro before request rest h hsaves
      have hmem : .send request
          ∈ ((EditProfile.storyboard kit.toImageKit).viewDidLoad (some s.user)).2 := by
        show .send request ∈ (s.touch kit.toImageKit .openEditProfile).todo
        rw [h]
        exact List.mem_append_right _ List.mem_cons_self
      rw [hsend request hmem] at hsaves
      exact absurd hsaves Bool.false_ne_true
  | saveProfile =>
      refine ⟨hlater, ?_, hs.waiting, hs.running⟩
      intro before request rest h _
      by_cases himage : s.editProfile.imageData kit.toImageKit = none
      · exact Or.inl fun hne => absurd himage hne
      · exact Or.inr (saveProfile_first s.editProfile s.user himage h)
  | userInfoSave =>
      refine ⟨hlater, ?_, hs.waiting, hs.running⟩
      intro _ _ _ _ _
      exact Or.inl fun hne => absurd rfl hne
  | skipYes =>
      refine { hs with handler := ?_ }
      intro before request rest h _
      have hmem : .send request ∈ (SignUpUserInfoPage.skipYes : List (Effect Data)) := by
        show .send request ∈ (s.touch kit.toImageKit .skipYes).todo
        rw [h]
        exact List.mem_append_right _ List.mem_cons_self
      exact absurd hmem ((skipYes_no_picture Data).2 request)

/-- The next effect of a handler. -/
theorem written_next {effect : Effect Data} {effects : List (Effect Data)} (hs : s.Written)
    (todo : s.todo = effect :: effects) :
    ({ s with todo := effects }.act effect).Written := by
  obtain ⟨htodo, hpress, -, -, -, -, hstarted, -⟩ := act_same { s with todo := effects } effect
  have hkeep {press : Press Picture Data} (hnumber : press.number ≤ s.press.number)
      (h : WrittenSince press (s.writer .profilePicture)) :
      WrittenSince press (({ s with todo := effects }.act effect).writer .profilePicture) := by
    rcases act_writer { s with todo := effects } effect with ⟨value, -, hnew⟩ | ⟨-, hold⟩
    · rw [hnew]
      exact fun _ => ⟨s.press, rfl, hnumber⟩
    · rw [hold]
      exact h
  have hhandler : ∀ before request rest, effects = before ++ .send request :: rest →
      savesUser request = true →
      WrittenSince s.press (({ s with todo := effects }.act effect).writer .profilePicture)
        ∨ ∃ value, .setKey .profilePicture value ∈ before := by
    rintro before request rest rfl hsaves
    rcases hs.handler (effect :: before) request rest todo hsaves with hdone | ⟨value, hmem⟩
    · exact Or.inl (hkeep le_rfl hdone)
    · rcases List.mem_cons.mp hmem with rfl | hbefore
      · -- the picture has just been written
        exact Or.inl fun _ => ⟨s.press, writer_write_same _ _ _, le_rfl⟩
      · exact Or.inr ⟨value, hbefore⟩
  rcases act_cases { s with todo := effects } effect with ⟨key, value, rfl, hact⟩
    | ⟨request, rfl, hsaves, hact⟩ | ⟨-, hrec, -⟩
  · rw [hact] at hkeep hhandler ⊢
    exact ⟨hs.numbers, hhandler, fun c hc => hkeep (hs.numbers c hc) (hs.waiting c hc),
      hs.running⟩
  · rw [hact] at hhandler ⊢
    refine ⟨?_, hhandler, ?_, hs.running⟩
    · intro c hc
      rcases List.mem_append.mp hc with hold | hlast
      · exact hs.numbers c hold
      · rw [List.mem_singleton.mp hlast]
        exact le_rfl
    · intro c hc
      rcases List.mem_append.mp hc with hold | hlast
      · exact hs.waiting c hold
      · -- nothing stands before the call that is next
        rw [List.mem_singleton.mp hlast]
        exact (hs.handler [] request effects todo hsaves).resolve_right
          fun ⟨value, hmem⟩ => absurd hmem List.not_mem_nil
  · refine ⟨?_, ?_, ?_, ?_⟩
    · rw [hrec, hpress]
      exact hs.numbers
    · rw [htodo, hpress]
      exact hhandler
    · rw [hrec]
      exact fun c hc => hkeep (hs.numbers c hc) (hs.waiting c hc)
    · rw [OwnPicture, hrec, hstarted]
      exact hs.running

/-- **WRITTEN FIRST**: every step keeps the order of writes and saves. -/
theorem written_step {e : ProfileEvent Picture} (hs : s.Written)
    (h : s.step kit.toImageKit e = some t) : t.Written := by
  cases step_does h with
  | touch tt free unlocked => exact written_touch hs free
  | next effect effects todo => exact written_next hs todo
  | start record starts =>
      obtain ⟨c, cs, -, hwaiting, rfl⟩ := Replica.start_cases starts
      have htail {d : Call Picture Data} (hd : d ∈ cs) : d ∈ s.record.waiting := by
        rw [hwaiting]
        exact List.mem_cons_of_mem c hd
      refine ⟨fun d hd => hs.numbers d (htail hd), hs.handler,
        fun d hd => hs.waiting d (htail hd), ?_⟩
      intro f hf
      rw [← Option.some.inj hf]
      exact hs.waiting c (by rw [hwaiting]; exact List.mem_cons_self)
  | finish error record finishes =>
      obtain ⟨-, hwaiting, hrunning⟩ := Replica.value_finish finishes
      refine ⟨?_, hs.handler, ?_, ?_⟩
      · show ∀ c ∈ record.waiting, c.press.number ≤ s.press.number
        rw [hwaiting]
        exact hs.numbers
      · show ∀ c ∈ record.waiting, WrittenSince c.press (s.writer .profilePicture)
        rw [hwaiting]
        exact hs.waiting
      · intro f hf
        exact absurd (hrunning.symm.trans hf).symm (Option.some_ne_none f)
  | deliver i call error record free ended delivers =>
      obtain ⟨-, rfl⟩ := Replica.deliver_cases delivers
      exact { hs with }
  | download i arrives visit file free under =>
      obtain ⟨hrec, -, htodo, hpress, hwriter, hstarted, -⟩ :=
        downloadEnded_same kit.toImageKit s i visit file arrives
      refine ⟨?_, ?_, ?_, ?_⟩
      · rw [hrec, hpress]
        exact hs.numbers
      · rw [htodo, hpress, hwriter]
        exact hs.handler
      · rw [hrec, hwriter]
        exact hs.waiting
      · rw [OwnPicture, hrec, hstarted]
        exact hs.running

theorem signedIn_written (kit : ImageKit Picture Data) (user : PFUser Data) :
    (signedIn kit user).Written where
  numbers _ hc := absurd hc List.not_mem_nil
  handler _ _ _ h := absurd h.symm
    (List.append_ne_nil_of_right_ne_nil _ (List.cons_ne_nil _ _))
  waiting _ hc := absurd hc List.not_mem_nil
  running _ hf := absurd hf.symm (Option.some_ne_none _)

/-! ## Whole runs -/

/-- Only a success changes the server. -/
theorem pictureStored_step {e : ProfileEvent Picture} (h : s.step kit.toImageKit e = some t) :
    s.PictureStored e t := by
  cases step_does h with
  | touch tt free unlocked =>
      refine Or.inl ?_
      rw [touch_record]
  | next effect effects todo =>
      refine Or.inl ?_
      rcases act_cases { s with todo := effects } effect with ⟨key, value, -, hact⟩
        | ⟨request, -, -, hact⟩ | ⟨-, hrec, -⟩
      · rw [hact]
        rfl
      · rw [hact]
        rfl
      · rw [hrec]
  | start record starts =>
      obtain ⟨c, cs, -, -, rfl⟩ := Replica.start_cases starts
      exact Or.inl rfl
  | finish error record finishes =>
      cases error with
      | none => exact Or.inr ⟨rfl, (Replica.outlook_success finishes .profilePicture).1⟩
      | some message => exact Or.inl (Replica.outlook_failure finishes .profilePicture).1
  | deliver i call error record free ended delivers =>
      obtain ⟨-, rfl⟩ := Replica.deliver_cases delivers
      exact Or.inl rfl
  | download i arrives visit file free under =>
      refine Or.inl ?_
      rw [(downloadEnded_same kit.toImageKit s i visit file arrives).1]

/-- The picture of a save is kept exactly when it comes from where it is to
    come from. -/
theorem pictureKept_iff (hsourced : s.Sourced user) (hs : s.Pictured kit.toImageKit user) :
    s.PictureKept kit.toImageKit ↔ s.PictureFrom kit.toImageKit user := by
  rw [PictureKept, PictureFrom]
  cases hrun : s.record.running with
  | none => exact Iff.rfl
  | some f =>
      refine imp_congr_right fun _ => ?_
      have hcarried : shows kit.toImageKit (s.record.outlook .profilePicture)
          = (pictureOrigin s.started).picture kit.toImageKit user := by
        rw [hsourced.outlook (by rw [hrun]; exact Option.some_ne_none f)]
        exact shows_held hs.started
      have hserver : shows kit.toImageKit (s.record.server .profilePicture)
          = (pictureOrigin s.stored).picture kit.toImageKit user := by
        rw [hsourced.server]
        exact shows_held hs.stored
      have hdue : (match s.meant f.call with
            | some image => some image
            | none => shows kit.toImageKit (s.record.server .profilePicture))
          = (s.due f.call).picture kit.toImageKit user := by
        rw [due]
        cases s.meant f.call with
        | some image => rfl
        | none => exact hserver
      rw [hcarried, hdue]
      constructor
      · exact Or.inr
      · rintro (hsame | hlook)
        · rw [hsame]
        · exact hlook

/-- What holds of the picture in every run. -/
theorem pictured_visits {es pre : List (ProfileEvent Picture)}
    (h : Visits (step kit.toImageKit) (signedIn kit.toImageKit user) es pre t) :
    t.Pictured kit.toImageKit user ∧ t.Written := by
  have hall : (t.Accounted ∧ t.Sourced user) ∧ t.Pictured kit.toImageKit user ∧ t.Written := by
    refine visits_always
      (fun t => (t.Accounted ∧ t.Sourced user) ∧ t.Pictured kit.toImageKit user ∧ t.Written)
      ⟨⟨signedIn_accounted _ user, signedIn_sourced _ user⟩, signedIn_pictured kit user,
        signedIn_written _ user⟩ ?_ pre t h
    rintro s e u ⟨⟨haccounted, hsourced⟩, hpictured, hwritten⟩ hu
    exact ⟨⟨accounted_step haccounted hu, sourced_step haccounted hsourced hu⟩,
      pictured_step hsourced hpictured hu, written_step hwritten hu⟩
  exact hall.2

/-- **THE PICTURE IS KEPT, EXACTLY WHEN**: in a run every save of `EditProfile`
    has the server show the picture picked last or, without a pick, the one
    that it shows already, exactly when every such save takes a picture that
    came to the screen from there.  In every run a save starts after its own
    press has written the picture, and the server's picture changes only when
    a save succeeds, to what that save has it show. -/
theorem picture_kept_iff (kit : RoundTripKit Picture Data) (user : PFUser Data)
    (es : List (ProfileEvent Picture)) :
    ((∀ pre t, Visits (step kit.toImageKit) (signedIn kit.toImageKit user) es pre t →
        t.PictureKept kit.toImageKit)
      ↔ (∀ pre t, Visits (step kit.toImageKit) (signedIn kit.toImageKit user) es pre t →
        t.PictureFrom kit.toImageKit user))
    ∧ (∀ pre t, Visits (step kit.toImageKit) (signedIn kit.toImageKit user) es pre t →
        t.OwnPicture)
    ∧ ∀ pre t e u, Fires (step kit.toImageKit) (signedIn kit.toImageKit user) es pre t e →
        t.step kit.toImageKit e = some u → t.PictureStored e u := by
  have hiff {pre : List (ProfileEvent Picture)} {t : Profile Picture Data}
      (h : Visits (step kit.toImageKit) (signedIn kit.toImageKit user) es pre t) :
      t.PictureKept kit.toImageKit ↔ t.PictureFrom kit.toImageKit user :=
    pictureKept_iff (accounts_visits h).2 (pictured_visits h).1
  refine ⟨⟨?_, ?_⟩, ?_, ?_⟩
  · intro hkept pre t h
    exact (hiff h).mp (hkept pre t h)
  · intro hfrom pre t h
    exact (hiff h).mpr (hfrom pre t h)
  · intro pre t h
    exact (pictured_visits h).2.running
  · intro _ t e u _ hu
    exact pictureStored_step hu

/-- A user with the stored picture `5`. -/
def pictureUser : PFUser Nat where
  objectId := .literal "u1"
  username := .literal "abcd"
  email := .literal "a@b.c"
  profilePicture := some ⟨"profilePic.png", 5⟩

/-- `EditProfile` is opened, the stored picture arrives, `9` is picked and Save is
    pressed; the name is too short, so that the screen can be left while the
    picture's save runs.  It is opened again, the picture `9` arrives, and Save
    is pressed without a pick. -/
def promptSave : List (ProfileEvent Nat) :=
  [.touch .openEditProfile, .next, .download 0 true, .touch (.imagePicked (some 9)),
    .touch (.typeUsername (.literal "ab")), .touch .saveProfile,
    .next, .next, .next, .next, .start,
    .touch .openEditProfile, .next, .download 0 true,
    .touch (.typeUsername (.literal "abcd")), .touch .saveProfile,
    .next, .next, .next, .next, .next, .next,
    .finish none, .start, .finish none, .start, .finish none]

/-- The first save takes the pick to the server, and the other two leave it. -/
theorem picture_kept_iff_promptSave :
    (∃ t, run (step plainKit.toImageKit) (signedIn plainKit.toImageKit pictureUser) promptSave
        = some t ∧ t.record.Idle
      ∧ shows plainKit.toImageKit (t.record.server .profilePicture) = some 9)
    ∧ ∀ pre t, Visits (step plainKit.toImageKit) (signedIn plainKit.toImageKit pictureUser)
        promptSave pre t → t.PictureKept plainKit.toImageKit := by
  refine ⟨⟨_, rfl, ⟨rfl, rfl⟩, rfl⟩,
    (picture_kept_iff plainKit pictureUser promptSave).1.mpr ?_⟩
  refine visits_of_along rfl trivial ?_
  exact ⟨trivial, trivial, trivial, trivial, trivial, trivial, trivial, trivial, trivial,
    trivial, trivial, fun _ => Or.inl rfl, fun _ => Or.inl rfl, fun _ => Or.inl rfl,
    fun _ => Or.inl rfl, fun _ => Or.inl rfl, fun _ => Or.inl rfl, fun _ => Or.inl rfl,
    fun _ => Or.inl rfl, fun _ => Or.inl rfl, fun _ => Or.inl rfl, fun _ => Or.inl rfl,
    fun _ => Or.inl rfl, trivial, fun _ => Or.inl rfl, trivial, fun _ => Or.inl rfl, trivial⟩

/-- `EditProfile` is opened, and Save is pressed before the stored picture has
    arrived. -/
def hastySave : List (ProfileEvent Nat) :=
  [.touch .openEditProfile, .next, .touch .saveProfile, .next, .next, .start]

/-- The save that is under way puts the placeholder in the place of the stored
    picture. -/
theorem picture_lost_by_hastySave :
    ¬ ∀ pre t, Visits (step plainKit.toImageKit) (signedIn plainKit.toImageKit pictureUser)
        hastySave pre t → t.PictureKept plainKit.toImageKit := by
  intro h
  have hrun : ∃ t f, run (step plainKit.toImageKit) (signedIn plainKit.toImageKit pictureUser)
        hastySave = some t
      ∧ t.record.running = some f ∧ f.call.isProfileSave = true ∧ t.meant f.call = none
      ∧ shows plainKit.toImageKit (t.record.outlook .profilePicture) = some 1
      ∧ shows plainKit.toImageKit (t.record.server .profilePicture) = some 5 :=
    ⟨_, _, rfl, rfl, rfl, rfl, rfl, rfl⟩
  obtain ⟨t, f, ht, hrunning, hsave, hmeant, hcarried, hserver⟩ := hrun
  have hkept := h hastySave t ⟨List.prefix_rfl, ht⟩
  rw [PictureKept, hrunning] at hkept
  have hshown := hkept hsave
  rw [hmeant, hcarried, hserver] at hshown
  exact absurd hshown (by decide)

end Profile

end FPProfile

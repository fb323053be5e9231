import FPApp.ReplicaProofs
import FPApp.ScreenProofs

/-! # The user's profile and its saves

    `EditProfile` and `SignUpUserInfoPage` write the one `PFUser` object that
    Parse holds for the signed-in user, and save it in the background.  The
    state is that object, as a record written back by queued saves, with the
    two screens.

    Handlers run on the main thread effect by effect (`next`), while Parse's
    queue starts and ends saves beside them; a touch or a completion block
    waits until the main thread is free.

    The last fields of the state only keep account: the press that is being
    handled; for each key the press that wrote it last, now, when the last save
    was started and when the last one that succeeded was; the last pick, with
    its visit of `EditProfile`; and where the picture on the screen, and the one
    that the visit downloads, come from.

    * `accounted_step` — a key on its way to the server holds what the last
      press that wrote it submitted;
    * `sourced_step` — the user object and the server hold, for each key, what
      the presses of the account submitted. -/

namespace FPProfile

open FPParse FPScreens EventRun WriteBack

variable {Picture Data : Type}

/-- Where a picture comes from: the storyboard's placeholder, the user who
    signed in, or a pick. -/
inductive Origin (Picture : Type) where
  | storyboard
  | signIn
  | pick (image : Picture)

/-- A press, by its number and its visit of `EditProfile`, and what it submits:
    the text typed and the PNG of the picture shown; with the picture that the
    user had picked last, in which visit, and where the one shown came from. -/
structure Press (Picture Data : Type) where
  number : Nat
  visit : Nat
  typed : Text
  image : Option Data
  picked : Option (Nat × Picture)
  origin : Origin Picture

/-- The value that a press writes under a key. -/
def Press.value (press : Press Picture Data) : UserKey → Option (Value Data)
  | .username => some (.string press.typed)
  | .profilePicture => press.image.map fun data => .file ⟨"profilePic.png", data⟩

/-- A call of `saveInBackground`, with the press that made it. -/
structure Call (Picture Data : Type) where
  request : Request Data
  press : Press Picture Data

/-- The user object: its values, and what Parse does with them. -/
abbrev UserRecord (Picture Data : Type) : Type :=
  Replica UserKey (Option (Value Data)) (Call Picture Data) String

/-- The profile of the signed-in user. -/
structure Profile (Picture Data : Type) where
  objectId : Text
  email : Text
  record : UserRecord Picture Data
  lock : Nat
  signUpUserInfoPage : SignUpUserInfoPage
  editProfile : EditProfile Picture
  visit : Nat
  downloads : List (Nat × PFFile Data)
  todo : List (Effect Data)
  press : Press Picture Data
  writer : UserKey → Option (Press Picture Data)
  started : UserKey → Option (Press Picture Data)
  stored : UserKey → Option (Press Picture Data)
  picked : Option (Nat × Picture)
  origin : Origin Picture
  opened : Origin Picture

/-- What the user does on the two screens. -/
inductive ProfileTouch (Picture : Type) where
  | typeUsername (t : Text)
  | openEditProfile
  | imagePicked (editedImage : Option Picture)
  | saveProfile
  | typeChosenUsername (t : Text)
  | userInfoSave
  | skipYes

/-- What can happen: a touch, the next effect of its handler, a save that
    starts or ends, its completion block, the end of a download. -/
inductive ProfileEvent (Picture : Type) where
  | touch (tt : ProfileTouch Picture)
  | next
  | start
  | finish (error : Option String)
  | deliver (i : Nat)
  | download (i : Nat) (arrives : Bool)

namespace Profile

/-- The values of a user who signs in. -/
def signInValue (user : PFUser Data) : UserKey → Option (Value Data)
  | .username => some (.string user.username)
  | .profilePicture => user.profilePicture.map .file

/-- The profile after sign-in: Parse holds the user as the server does. -/
def signedIn (kit : ImageKit Picture Data) (user : PFUser Data) : Profile Picture Data where
  objectId := user.objectId
  email := user.email
  record := .fresh (signInValue user)
  lock := 0
  signUpUserInfoPage := ⟨.empty⟩
  editProfile := EditProfile.storyboard kit
  visit := 0
  downloads := []
  todo := []
  press := ⟨0, 0, .empty, none, none, .storyboard⟩
  writer := fun _ => none
  started := fun _ => none
  stored := fun _ => none
  picked := none
  origin := .storyboard
  opened := .signIn

/-- `PFUser.current()` as the screens read it. -/
def user (s : Profile Picture Data) : PFUser Data where
  objectId := s.objectId
  username := ((s.record.value .username).bind Value.asString).getD .empty
  email := s.email
  profilePicture := (s.record.value .profilePicture).bind Value.asFile

end Profile

/-- The request saves the user object. -/
def savesUser : Request Data → Bool
  | .saveProfilePicture | .saveUsername | .saveUserInfo => true
  | _ => false

/-- The call is the username's save of `saveProfile`. -/
def Call.isSaveUsername (c : Call Picture Data) : Bool :=
  match c.request with
  | .saveUsername => true
  | _ => false

/-- The completion block of a call. -/
def Call.block (c : Call Picture Data) (error : Option String) : List (Effect Data) :=
  match c.request with
  | .saveProfilePicture => EditProfile.savePictureBlock error
  | .saveUsername => EditProfile.saveProfileBlock error
  | .saveUserInfo => SignUpUserInfoPage.userInfoSaveBlock error
  | _ => []

namespace Profile

/-- `user[key] = value`, by the press under way. -/
def write (s : Profile Picture Data) (key : UserKey) (value : Value Data) :
    Profile Picture Data :=
  { s with
    record := s.record.set key (some value)
    writer := Function.update s.writer key (some s.press) }

/-- `user.saveInBackground`, by the press under way. -/
def callSave (s : Profile Picture Data) (request : Request Data) : Profile Picture Data :=
  { s with record := s.record.call ⟨request, s.press⟩ }

/-- One effect of a handler. -/
def act (s : Profile Picture Data) : Effect Data → Profile Picture Data
  | .beginIgnoringInteractionEvents => { s with lock := s.lock + 1 }
  | .endIgnoringInteractionEvents => { s with lock := s.lock - 1 }
  | .setKey key value => s.write key value
  | .send request =>
      if savesUser request then s.callSave request
      else
        match request with
        | .profilePictureData file => { s with downloads := s.downloads ++ [(s.visit, file)] }
        | _ => s
  | _ => s

/-- Where the picture of the user object comes from: the press that wrote it
    last, or the sign-in. -/
def pictureOrigin (writer : UserKey → Option (Press Picture Data)) : Origin Picture :=
  match writer .profilePicture with
  | none => .signIn
  | some press => press.origin

/-- A touch: the handler's effects are to be done. -/
def touch (kit : ImageKit Picture Data) (s : Profile Picture Data) :
    ProfileTouch Picture → Profile Picture Data
  | .typeUsername t => { s with editProfile := { s.editProfile with usernameTextfield := t } }
  | .openEditProfile =>
      let (scene, effects) := (EditProfile.storyboard kit).viewDidLoad (some s.user)
      { s with
        editProfile := scene
        visit := s.visit + 1
        todo := effects
        origin := .storyboard
        opened := pictureOrigin s.writer }
  | .imagePicked none => { s with editProfile := s.editProfile.imagePicked none }
  | .imagePicked (some image) =>
      { s with
        editProfile := s.editProfile.imagePicked (some image)
        picked := some (s.visit, image)
        origin := .pick image }
  | .saveProfile =>
      { s with
        todo := s.editProfile.saveProfile kit (some s.user)
        press := ⟨s.press.number + 1, s.visit, s.editProfile.usernameTextfield,
          s.editProfile.imageData kit, s.picked, s.origin⟩ }
  | .typeChosenUsername t => { s with signUpUserInfoPage := ⟨t⟩ }
  | .userInfoSave =>
      { s with
        todo := s.signUpUserInfoPage.userInfoSave (some s.user)
        press := ⟨s.press.number + 1, s.visit, s.signUpUserInfoPage.username, none, s.picked,
          s.origin⟩ }
  | .skipYes => { s with todo := SignUpUserInfoPage.skipYes }

/-- The end of a download that a visit of `EditProfile` started; an earlier
    visit's screen is no longer shown. -/
def downloadEnded (kit : ImageKit Picture Data) (s : Profile Picture Data) (i visit : Nat)
    (file : PFFile Data) (arrives : Bool) : Profile Picture Data :=
  let data := if arrives then some file.data else none
  if visit = s.visit then
    { s with
      downloads := s.downloads.eraseIdx i
      editProfile := s.editProfile.downloadBlock kit data
      origin := if (data.bind kit.decode).isSome then s.opened else s.origin }
  else { s with downloads := s.downloads.eraseIdx i }

/-- One event.  Touches wait for the main thread and for the counter of
    ignored interactions, completion blocks for the main thread only. -/
def step (kit : ImageKit Picture Data) (s : Profile Picture Data) :
    ProfileEvent Picture → Option (Profile Picture Data)
  | .touch tt => if s.todo.isEmpty ∧ s.lock = 0 then some (s.touch kit tt) else none
  | .next =>
      match s.todo with
      | [] => none
      | effect :: effects => some ({ s with todo := effects }.act effect)
  | .start => s.record.start.map fun record => { s with record := record, started := s.writer }
  | .finish error => (s.record.finish error).map fun record =>
      { s with record := record, stored := if error.isNone then s.started else s.stored }
  | .deliver i =>
      match s.record.finished[i]?, s.record.deliver i with
      | some (call, error), some record =>
          if s.todo.isEmpty then
            some ((call.block error).foldl act { s with record := record })
          else none
      | _, _ => none
  | .download i arrives =>
      match s.downloads[i]? with
      | none => none
      | some (visit, file) =>
          if s.todo.isEmpty then some (s.downloadEnded kit i visit file arrives) else none

/-! ## What one step can do -/

variable {kit : ImageKit Picture Data} {s t : Profile Picture Data}

/-- The completion blocks lower the counter after the username's save, and do
    nothing else to the profile. -/
theorem block_eq (c : Call Picture Data) (error : Option String)
    (s : Profile Picture Data) :
    (c.block error).foldl act s
      = { s with lock := if c.isSaveUsername then s.lock - 1 else s.lock } := by
  obtain ⟨request, press⟩ := c
  cases request with
  | saveProfilePicture => cases error <;> rfl
  | saveUsername => cases error <;> rfl
  | saveUserInfo => cases error <;> rfl
  | _ => rfl

/-- What a step does. -/
inductive Does (kit : ImageKit Picture Data) (s : Profile Picture Data) :
    ProfileEvent Picture → Profile Picture Data → Prop where
  | touch (tt : ProfileTouch Picture) (free : s.todo = []) (unlocked : s.lock = 0) :
      Does kit s (.touch tt) (s.touch kit tt)
  | next (effect : Effect Data) (effects : List (Effect Data))
      (todo : s.todo = effect :: effects) :
      Does kit s .next ({ s with todo := effects }.act effect)
  | start (record : UserRecord Picture Data) (starts : s.record.start = some record) :
      Does kit s .start { s with record := record, started := s.writer }
  | finish (error : Option String) (record : UserRecord Picture Data)
      (finishes : s.record.finish error = some record) :
      Does kit s (.finish error)
        { s with record := record, stored := if error.isNone then s.started else s.stored }
  | deliver (i : Nat) (call : Call Picture Data) (error : Option String)
      (record : UserRecord Picture Data) (free : s.todo = [])
      (ended : s.record.finished[i]? = some (call, error))
      (delivers : s.record.deliver i = some record) :
      Does kit s (.deliver i)
        { s with
          record := record
          lock := if call.isSaveUsername then s.lock - 1 else s.lock }
  | download (i : Nat) (arrives : Bool) (visit : Nat) (file : PFFile Data)
      (free : s.todo = []) (under : s.downloads[i]? = some (visit, file)) :
      Does kit s (.download i arrives) (s.downloadEnded kit i visit file arrives)

/-- **THE CASES OF A STEP** of the profile. -/
theorem step_does {e : ProfileEvent Picture} (h : s.step kit e = some t) :
    Does kit s e t := by
  cases e with
  | touch tt =>
      rw [step] at h
      obtain ⟨⟨hfree, hlock⟩, ht⟩ := Option.ite_none_right_eq_some.mp h
      rw [← Option.some.inj ht]
      exact .touch tt (List.isEmpty_iff.mp hfree) hlock
  | next =>
      cases htodo : s.todo with
      | nil => simp [step, htodo] at h
      | cons effect effects =>
          simp only [step, htodo] at h
          rw [← Option.some.inj h]
          exact .next effect effects htodo
  | start =>
      obtain ⟨record, hstart, rfl⟩ := Option.map_eq_some_iff.mp h
      exact .start record hstart
  | finish error =>
      obtain ⟨record, hfinish, rfl⟩ := Option.map_eq_some_iff.mp h
      exact .finish error record hfinish
  | deliver i =>
      cases hended : s.record.finished[i]? with
      | none => simp [step, hended] at h
      | some x =>
          obtain ⟨call, error⟩ := x
          cases hdel : s.record.deliver i with
          | none => simp [step, hended, hdel] at h
          | some record =>
              simp only [step, hended, hdel] at h
              obtain ⟨hfree, ht⟩ := Option.ite_none_right_eq_some.mp h
              rw [← Option.some.inj ht, block_eq]
              exact .deliver i call error record (List.isEmpty_iff.mp hfree) hended hdel
  | download i arrives =>
      cases hunder : s.downloads[i]? with
      | none => simp [step, hunder] at h
      | some x =>
          obtain ⟨visit, file⟩ := x
          simp only [step, hunder] at h
          obtain ⟨hfree, ht⟩ := Option.ite_none_right_eq_some.mp h
          rw [← Option.some.inj ht]
          exact .download i arrives visit file (List.isEmpty_iff.mp hfree) hunder

/-! ## Fields that a touch, a download and most effects leave alone -/

@[simp] theorem touch_record (tt : ProfileTouch Picture) :
    (s.touch kit tt).record = s.record := by
  cases tt with
  | imagePicked image => cases image <;> rfl
  | _ => rfl

@[simp] theorem touch_lock (tt : ProfileTouch Picture) : (s.touch kit tt).lock = s.lock := by
  cases tt with
  | imagePicked image => cases image <;> rfl
  | _ => rfl

@[simp] theorem touch_writer (tt : ProfileTouch Picture) :
    (s.touch kit tt).writer = s.writer := by
  cases tt with
  | imagePicked image => cases image <;> rfl
  | _ => rfl

@[simp] theorem touch_started (tt : ProfileTouch Picture) :
    (s.touch kit tt).started = s.started := by
  cases tt with
  | imagePicked image => cases image <;> rfl
  | _ => rfl

@[simp] theorem touch_stored (tt : ProfileTouch Picture) :
    (s.touch kit tt).stored = s.stored := by
  cases tt with
  | imagePicked image => cases image <;> rfl
  | _ => rfl

/-- The download of a file changes the image view and its account only. -/
theorem downloadEnded_same (kit : ImageKit Picture Data) (s : Profile Picture Data)
    (i visit : Nat) (file : PFFile Data) (arrives : Bool) :
    (s.downloadEnded kit i visit file arrives).record = s.record
      ∧ (s.downloadEnded kit i visit file arrives).lock = s.lock
      ∧ (s.downloadEnded kit i visit file arrives).todo = s.todo
      ∧ (s.downloadEnded kit i visit file arrives).press = s.press
      ∧ (s.downloadEnded kit i visit file arrives).writer = s.writer
      ∧ (s.downloadEnded kit i visit file arrives).started = s.started
      ∧ (s.downloadEnded kit i visit file arrives).stored = s.stored := by
  by_cases hvisit : visit = s.visit
  · rw [downloadEnded, if_pos hvisit]
    exact ⟨rfl, rfl, rfl, rfl, rfl, rfl, rfl⟩
  · rw [downloadEnded, if_neg hvisit]
    exact ⟨rfl, rfl, rfl, rfl, rfl, rfl, rfl⟩

theorem writer_write_same (s : Profile Picture Data) (key : UserKey) (value : Value Data) :
    (s.write key value).writer key = some s.press := by
  rw [write]
  exact Function.update_self key _ s.writer

theorem writer_write_ne (s : Profile Picture Data) {key k : UserKey} (value : Value Data)
    (h : k ≠ key) : (s.write key value).writer k = s.writer k := by
  rw [write]
  exact Function.update_of_ne h _ s.writer

theorem value_write_same (s : Profile Picture Data) (key : UserKey) (value : Value Data) :
    (s.write key value).record.value key = some value := Replica.value_set_same _ key _

theorem value_write_ne (s : Profile Picture Data) {key k : UserKey} (value : Value Data)
    (h : k ≠ key) : (s.write key value).record.value k = s.record.value k :=
  Replica.value_set_ne _ _ h

/-- An effect that writes no key and calls for no save leaves the record. -/
def RecordFree : Effect Data → Prop
  | .setKey _ _ => False
  | .send request => savesUser request = false
  | _ => True

/-- The cases of an effect, as far as the record goes. -/
theorem act_cases (s : Profile Picture Data) (e : Effect Data) :
    (∃ key value, e = .setKey key value ∧ s.act e = s.write key value)
    ∨ (∃ request, e = .send request ∧ savesUser request = true
        ∧ s.act e = s.callSave request)
    ∨ (RecordFree e ∧ (s.act e).record = s.record ∧ (s.act e).writer = s.writer) := by
  cases e with
  | setKey key value => exact Or.inl ⟨key, value, rfl, rfl⟩
  | send request =>
      refine Or.inr ?_
      cases hsaves : savesUser request with
      | true => exact Or.inl ⟨request, rfl, hsaves, if_pos hsaves⟩
      | false =>
          refine Or.inr ⟨hsaves, ?_⟩
          cases request with
          | saveProfilePicture => exact absurd hsaves.symm Bool.false_ne_true
          | saveUsername => exact absurd hsaves.symm Bool.false_ne_true
          | saveUserInfo => exact absurd hsaves.symm Bool.false_ne_true
          | _ => exact ⟨rfl, rfl⟩
  | _ => exact Or.inr (Or.inr ⟨trivial, rfl, rfl⟩)

/-- No effect changes what is left to do, the press, the image view or where
    its picture comes from, or the account of the saves. -/
theorem act_same (s : Profile Picture Data) (e : Effect Data) :
    (s.act e).todo = s.todo ∧ (s.act e).press = s.press
      ∧ (s.act e).editProfile = s.editProfile ∧ (s.act e).visit = s.visit
      ∧ (s.act e).origin = s.origin ∧ (s.act e).opened = s.opened
      ∧ (s.act e).started = s.started ∧ (s.act e).stored = s.stored := by
  cases e with
  | send request => cases request <;> exact ⟨rfl, rfl, rfl, rfl, rfl, rfl, rfl, rfl⟩
  | _ => exact ⟨rfl, rfl, rfl, rfl, rfl, rfl, rfl, rfl⟩

/-- **REFINEMENT**: every step of the profile leaves the user object or is one
    operation of a record written back by queued saves. -/
theorem operates (kit : ImageKit Picture Data) : Operates (step kit) record := by
  intro s e t h
  cases step_does h with
  | touch tt free unlocked => exact Or.inl (touch_record tt)
  | next effect effects todo =>
      rcases act_cases { s with todo := effects } effect with ⟨key, value, rfl, hact⟩
        | ⟨request, rfl, -, hact⟩ | ⟨-, hrec, -⟩
      · rw [hact]
        exact Or.inr ⟨.set key (some value), rfl⟩
      · rw [hact]
        exact Or.inr ⟨.call ⟨request, s.press⟩, rfl⟩
      · exact Or.inl hrec
  | start record starts => exact Or.inr ⟨.start, starts⟩
  | finish error record finishes => exact Or.inr ⟨.finish error, finishes⟩
  | deliver i call error record free ended delivers => exact Or.inr ⟨.deliver i, delivers⟩
  | download i arrives visit file free under =>
      exact Or.inl (downloadEnded_same kit s i visit file arrives).1

/-- An effect starts at most one download, for the visit under way. -/
theorem act_downloads (s : Profile Picture Data) (e : Effect Data) :
    (s.act e).downloads = s.downloads
    ∨ ∃ file, e = .send (.profilePictureData file)
        ∧ (s.act e).downloads = s.downloads ++ [(s.visit, file)] := by
  cases e with
  | send request =>
      cases request with
      | profilePictureData file => exact Or.inr ⟨file, rfl, rfl⟩
      | _ => exact Or.inl rfl
  | _ => exact Or.inl rfl

/-! ## The account of the writes -/

/-- What holds of the record in every run: it is coherent, the handler under
    way writes what its press submitted, and a key on its way to the server
    holds what the last press that wrote it submitted. -/
structure Accounted (s : Profile Picture Data) : Prop where
  coherent : s.record.Coherent
  writes : ∀ key value, .setKey key value ∈ s.todo → s.press.value key = some value
  written : ∀ key, key ∈ s.record.pending ∨ key ∈ s.record.carrying →
    ∃ press, s.writer key = some press ∧ s.record.value key = press.value key

/-- The writes of `saveProfile` are what its press submits. -/
theorem saveProfile_writes (scene : EditProfile Picture) (user : PFUser Data)
    {press : Press Picture Data} (htyped : press.typed = scene.usernameTextfield)
    (himage : press.image = scene.imageData kit) {key : UserKey} {value : Value Data}
    (h : .setKey key value ∈ scene.saveProfile kit (some user)) :
    press.value key = some value := by
  rw [EditProfile.saveProfile_some] at h
  rcases List.mem_append.mp h with hwrite | hrest
  · rcases List.mem_append.mp hwrite with hpic | hname
    · rcases scene.savePicture_cases kit with ⟨-, hnone⟩ | ⟨data, hdata, hsave⟩
      · rw [hnone] at hpic
        exact absurd hpic List.not_mem_nil
      · simp only [hsave, List.mem_cons, Effect.setKey.injEq, reduceCtorEq, List.not_mem_nil,
          or_false] at hpic
        obtain ⟨rfl, rfl⟩ := hpic
        rw [Press.value, himage, hdata]
        rfl
    · obtain ⟨rfl, rfl⟩ := Effect.setKey.inj (List.mem_singleton.mp hname)
      rw [Press.value, htyped]
  · split at hrest <;> simp at hrest

/-- The writes of `userInfoSave` are what its press submits. -/
theorem userInfoSave_writes (page : SignUpUserInfoPage) (user : PFUser Data)
    {press : Press Picture Data} (htyped : press.typed = page.username) {key : UserKey}
    {value : Value Data} (h : .setKey key value ∈ page.userInfoSave (some user)) :
    press.value key = some value := by
  rcases page.userInfoSave_cases (some user) with ⟨-, alert, heq⟩ | ⟨-, hnone, -⟩ | ⟨-, -, heq⟩
  · rw [heq] at h
    exact absurd (List.mem_singleton.mp h) (by simp)
  · exact absurd hnone (Option.some_ne_none user)
  · rw [heq] at h
    simp only [List.mem_cons, Effect.setKey.injEq, reduceCtorEq, List.not_mem_nil, or_false,
      false_or] at h
    obtain ⟨rfl, rfl⟩ := h
    rw [Press.value, htyped]

/-- The handler of a touch writes what its press submits. -/
theorem touch_writes {tt : ProfileTouch Picture} (free : s.todo = []) {key : UserKey}
    {value : Value Data} (h : .setKey key value ∈ (s.touch kit tt).todo) :
    (s.touch kit tt).press.value key = some value := by
  have hidle {u : Profile Picture Data} (hu : u.todo = s.todo) (hk : .setKey key value ∈ u.todo) :
      u.press.value key = some value := by
    rw [hu, free] at hk
    exact absurd hk List.not_mem_nil
  -- only the two Save handlers write
  cases tt with
  | typeUsername t => exact hidle rfl h
  | typeChosenUsername t => exact hidle rfl h
  | imagePicked image =>
      cases image with
      | none => exact hidle rfl h
      | some image => exact hidle rfl h
  | saveProfile => exact saveProfile_writes s.editProfile s.user rfl rfl h
  | userInfoSave => exact userInfoSave_writes s.signUpUserInfoPage s.user rfl h
  | openEditProfile =>
      have hopen : .setKey key value
          ∈ ((EditProfile.storyboard kit).viewDidLoad (some s.user)).2 := h
      rw [EditProfile.viewDidLoad] at hopen
      cases hpic : s.user.profilePicture <;> simp [hpic] at hopen
  | skipYes =>
      have hskip : .setKey key value ∈ (SignUpUserInfoPage.skipYes : List (Effect Data)) := h
      simp [SignUpUserInfoPage.skipYes] at hskip

/-- The record and its writer after a write. -/
theorem written_write (s : Profile Picture Data) {key : UserKey} {value : Value Data}
    (hs : ∀ key, key ∈ s.record.pending ∨ key ∈ s.record.carrying →
      ∃ press, s.writer key = some press ∧ s.record.value key = press.value key)
    (hvalue : s.press.value key = some value) :
    ∀ k, k ∈ (s.write key value).record.pending ∨ k ∈ (s.write key value).record.carrying →
      ∃ press, (s.write key value).writer k = some press
        ∧ (s.write key value).record.value k = press.value k := by
  intro k hk
  by_cases hkey : k = key
  · subst hkey
    exact ⟨s.press, writer_write_same s k value, by rw [value_write_same, hvalue]⟩
  · have hold : k ∈ s.record.pending ∨ k ∈ s.record.carrying := by
      rcases hk with hpend | hcar
      · exact Or.inl ((Replica.mem_pending_set.mp hpend).resolve_left hkey)
      · exact Or.inr hcar
    obtain ⟨press, hpress, hval⟩ := hs k hold
    exact ⟨press, (writer_write_ne s value hkey).trans hpress,
      by rw [value_write_ne s value hkey, hval]⟩

/-- **ACCOUNT**: every step keeps the account of the writes. -/
theorem accounted_step {e : ProfileEvent Picture} (hs : s.Accounted)
    (h : s.step kit e = some t) : t.Accounted := by
  have hcoherent : t.record.Coherent := coherent_client (operates kit) hs.coherent h
  cases step_does h with
  | touch tt free unlocked =>
      refine ⟨hcoherent, fun key value hk => touch_writes free hk, ?_⟩
      rw [touch_record, touch_writer]
      exact hs.written
  | next effect effects todo =>
      have hsame := act_same { s with todo := effects } effect
      refine ⟨hcoherent, ?_, ?_⟩
      · rw [hsame.1, hsame.2.1]
        intro key value hk
        exact hs.writes key value (by rw [todo]; exact List.mem_cons_of_mem _ hk)
      · rcases act_cases { s with todo := effects } effect with ⟨key, value, rfl, hact⟩
          | ⟨request, rfl, -, hact⟩ | ⟨-, hrec, hwriter⟩
        · rw [hact]
          refine written_write { s with todo := effects } hs.written (hs.writes key value ?_)
          rw [todo]
          exact List.mem_cons_self
        · rw [hact]
          exact hs.written
        · rw [hrec, hwriter]
          exact hs.written
  | start record starts =>
      refine ⟨hcoherent, hs.writes, ?_⟩
      obtain ⟨c, cs, -, -, rfl⟩ := Replica.start_cases starts
      -- the save that starts carries exactly what was pending
      rintro k (hpend | hcar)
      · exact absurd hpend (Finset.notMem_empty k)
      · exact hs.written k (Or.inl hcar)
  | finish error record finishes =>
      refine ⟨hcoherent, hs.writes, ?_⟩
      intro k hk
      rw [(Replica.value_finish finishes).1]
      exact hs.written k (Replica.pending_of_finish finishes hk)
  | deliver i call error record free ended delivers =>
      refine ⟨hcoherent, hs.writes, ?_⟩
      obtain ⟨-, rfl⟩ := Replica.deliver_cases delivers
      exact hs.written
  | download i arrives visit file free under =>
      obtain ⟨hrec, -, htodo, hpress, hwriter, -⟩ :=
        downloadEnded_same kit s i visit file arrives
      refine ⟨hcoherent, ?_, ?_⟩
      · rw [htodo, hpress]
        exact hs.writes
      · rw [hrec, hwriter]
        exact hs.written

theorem signedIn_accounted (kit : ImageKit Picture Data) (user : PFUser Data) :
    (signedIn kit user).Accounted :=
  ⟨Replica.coherent_fresh _, fun _ _ hk => absurd hk List.not_mem_nil,
    fun k hk => absurd (hk.elim id id) (Finset.notMem_empty k)⟩

/-! ## The account of the saves -/

/-- What the user object holds under a key since the press wrote it, or since
    the sign-in. -/
def held (user : PFUser Data) (key : UserKey) :
    Option (Press Picture Data) → Option (Value Data)
  | none => signInValue user key
  | some press => press.value key

/-- The user object holds what the last press that wrote a key submitted, and
    the server what the last one before the start of the last successful save
    did. -/
def Sourced (user : PFUser Data) (s : Profile Picture Data) : Prop :=
  Replica.Sourced (held user) s.writer s.started s.stored s.record

/-- **SOURCES**: every step keeps the account of the saves. -/
theorem sourced_step {user : PFUser Data} {e : ProfileEvent Picture} (haccounted : s.Accounted)
    (hs : s.Sourced user) (h : s.step kit e = some t) : t.Sourced user := by
  cases step_does h with
  | touch tt free unlocked =>
      rw [Sourced, touch_record, touch_writer, touch_started, touch_stored]
      exact hs
  | next effect effects todo =>
      obtain ⟨-, -, -, -, -, -, hstarted, hstored⟩ := act_same { s with todo := effects } effect
      rw [Sourced, hstarted, hstored]
      rcases act_cases { s with todo := effects } effect with ⟨key, value, rfl, hact⟩
        | ⟨request, rfl, -, hact⟩ | ⟨-, hrec, hwriter⟩
      · rw [hact]
        refine Replica.sourced_set hs ?_
        exact haccounted.writes key value (by rw [todo]; exact List.mem_cons_self)
      · rw [hact]
        exact Replica.sourced_call hs _
      · rw [hrec, hwriter]
        exact hs
  | start record starts => exact Replica.sourced_start haccounted.coherent hs starts
  | finish error record finishes =>
      cases error with
      | none => exact Replica.sourced_success hs finishes
      | some message => exact Replica.sourced_failure hs finishes
  | deliver i call error record free ended delivers => exact Replica.sourced_deliver hs delivers
  | download i arrives visit file free under =>
      obtain ⟨hrec, -, -, -, hwriter, hstarted, hstored⟩ :=
        downloadEnded_same kit s i visit file arrives
      rw [Sourced, hrec, hwriter, hstarted, hstored]
      exact hs

theorem signedIn_sourced (kit : ImageKit Picture Data) (user : PFUser Data) :
    (signedIn kit user).Sourced user :=
  Replica.sourced_fresh (fun _ => rfl)

/-- Along every run both accounts are kept. -/
theorem accounts_visits {user : PFUser Data} {es pre : List (ProfileEvent Picture)}
    (h : Visits (step kit) (signedIn kit user) es pre t) : t.Accounted ∧ t.Sourced user := by
  refine visits_always (fun t => t.Accounted ∧ t.Sourced user)
    ⟨signedIn_accounted kit user, signedIn_sourced kit user⟩ ?_ pre t h
  intro s e u hs hu
  exact ⟨accounted_step hs.1 hu, sourced_step hs.1 hs.2 hu⟩

end Profile

end FPProfile

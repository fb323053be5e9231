import FPApp.ParseProofs

/-! # The screens that submit requests

    One section per view controller: its fields, its handlers and the
    completion blocks of the calls it makes.  A text field always has a text
    (`UITextField.text` is never `nil`); an image view may be empty.

    A handler is the list of its effects.  Where it also assigns fields of its
    own screen, or starts from them, the new screen comes first. -/

namespace FPScreens

open FPParse

variable {Picture Data : Type}

/-! ## SignUpPage -/

/-- `SignUpPage` and its three text fields. -/
structure SignUpPage where
  signUpEmailTextField : Text
  signUpPasswordTextfield : Text
  retypePassword : Text
deriving DecidableEq, Repr

namespace SignUpPage

/-- `userSignUp`: the email is also the username. -/
def userSignUp (page : SignUpPage) : List (Effect Data) :=
  [.send (.signUp page.signUpEmailTextField page.signUpPasswordTextfield
    page.signUpEmailTextField)]

/-- The completion block of `userSignUp`. -/
def userSignUpBlock (error : Option String) : List (Effect Data) :=
  match error with
  -- the counter that the button has raised stays raised
  | some e => [.dismissHUD, .present ⟨"Error", e⟩]
  | none =>
      [.dismissHUD, .endIgnoringInteractionEvents, .performSegue "registerUserInfo"]

/-- `signUpRegisterButtonPressed`. -/
def signUpRegisterButtonPressed (page : SignUpPage) : List (Effect Data) :=
  if page.signUpEmailTextField.isEmpty then
    [.present ⟨"Oops", "Your email is empty, just like my wallet"⟩]
  else if page.signUpPasswordTextfield.isEmpty then
    [.present ⟨"Oops", "Your password is empty, just like my fridge"⟩]
  else if page.retypePassword.isEmpty then
    [.present ⟨"Retype Password", "Please retype your password to ensure it matches"⟩]
  else if page.retypePassword ≠ page.signUpPasswordTextfield then
    [.present ⟨"Password", "Your passwords do not match, please try again"⟩]
  else if page.signUpPasswordTextfield.count < 8 then
    [.present ⟨"Password Length", "Password must be minimum 8 characters"⟩]
  else if page.signUpEmailTextField = page.signUpPasswordTextfield then
    [.present ⟨"Password", "Password cannot be the same as your email address"⟩]
  else
    -- the flag is set at once, not when Parse has answered
    [.showHUD "Registering...", .beginIgnoringInteractionEvents]
      ++ page.userSignUp ++ [.setUserLoggedIn (some page.signUpEmailTextField)]

/-- The OK handler of the alert on passwords that do not match. -/
def reset (page : SignUpPage) : SignUpPage :=
  { page with retypePassword := .empty, signUpPasswordTextfield := .empty }

/-- The form passes every check of `signUpRegisterButtonPressed`. -/
def Registers (page : SignUpPage) : Prop :=
  page.signUpEmailTextField.isEmpty = false
    ∧ page.signUpPasswordTextfield.isEmpty = false
    ∧ page.retypePassword.isEmpty = false
    ∧ page.retypePassword = page.signUpPasswordTextfield
    ∧ 8 ≤ page.signUpPasswordTextfield.count
    ∧ page.signUpEmailTextField ≠ page.signUpPasswordTextfield

instance (page : SignUpPage) : Decidable page.Registers :=
  inferInstanceAs (Decidable (_ ∧ _ ∧ _ ∧ _ ∧ _ ∧ _))

/-- A form that passes is submitted; any other only raises an alert. -/
theorem signUpRegisterButtonPressed_cases (Data : Type) (page : SignUpPage) :
    (page.Registers ∧ (page.signUpRegisterButtonPressed : List (Effect Data))
        = [.showHUD "Registering...", .beginIgnoringInteractionEvents,
            .send (.signUp page.signUpEmailTextField page.signUpPasswordTextfield
              page.signUpEmailTextField),
            .setUserLoggedIn (some page.signUpEmailTextField)])
    ∨ (¬ page.Registers ∧ ∃ alert,
        (page.signUpRegisterButtonPressed : List (Effect Data)) = [.present alert]) := by
  rw [signUpRegisterButtonPressed, Registers]
  by_cases hemail : page.signUpEmailTextField.isEmpty
  · exact Or.inr ⟨fun h => by simp [h.1] at hemail, _, if_pos hemail⟩
  rw [if_neg hemail]
  by_cases hpass : page.signUpPasswordTextfield.isEmpty
  · exact Or.inr ⟨fun h => by simp [h.2.1] at hpass, _, if_pos hpass⟩
  rw [if_neg hpass]
  by_cases hretype : page.retypePassword.isEmpty
  · exact Or.inr ⟨fun h => by simp [h.2.2.1] at hretype, _, if_pos hretype⟩
  rw [if_neg hretype]
  by_cases hmatch : page.retypePassword ≠ page.signUpPasswordTextfield
  · exact Or.inr ⟨fun h => hmatch h.2.2.2.1, _, if_pos hmatch⟩
  rw [if_neg hmatch]
  by_cases hlen : page.signUpPasswordTextfield.count < 8
  · exact Or.inr ⟨fun h => absurd h.2.2.2.2.1 (by omega), _, if_pos hlen⟩
  rw [if_neg hlen]
  by_cases hsame : page.signUpEmailTextField = page.signUpPasswordTextfield
  · exact Or.inr ⟨fun h => h.2.2.2.2.2 hsame, _, if_pos hsame⟩
  rw [if_neg hsame]
  exact Or.inl ⟨⟨by simpa using hemail, by simpa using hpass, by simpa using hretype,
    not_not.mp hmatch, by omega, hsame⟩, rfl⟩

end SignUpPage

/-! ## SignUpUserInfoPage -/

/-- `SignUpUserInfoPage` and its text field. -/
structure SignUpUserInfoPage where
  username : Text
deriving DecidableEq, Repr

namespace SignUpUserInfoPage

/-- `userInfoSave`. -/
def userInfoSave (current : Option (PFUser Data)) (page : SignUpUserInfoPage) :
    List (Effect Data) :=
  if page.username ≠ .empty ∧ page.username.count > 3 then
    .showHUD "Saving Username.." ::
      match current with
      | none => [.trap .currentUser]
      | some _ => [.setKey .username (.string page.username), .send .saveUserInfo]
  else if page.username = .empty then
    [.present ⟨"Oops", "Your username cannot be empty"⟩]
  else if page.username.count ≤ 3 then
    [.present ⟨"Length", "Username must be at least 4 characters"⟩]
  -- the three tests leave nothing over
  else []

/-- The completion block of `userInfoSave`. -/
def userInfoSaveBlock (error : Option String) : List (Effect Data) :=
  match error with
  | some e => [.showHUDError e]
  | none => [.dismissHUD, .performSegue "goToHomePage"]

/-- `skip`: the question, and the handler of its answer Yes. -/
def skip : List (Effect Data) :=
  [.present ⟨"Skip", "Your username will be set as your email address, are you sure?"⟩]

@[inherit_doc skip]
def skipYes : List (Effect Data) :=
  [.performSegue "goToHomePage"]

/-- A name of four or more characters is written and saved; any other only
    raises an alert. -/
theorem userInfoSave_cases (current : Option (PFUser Data)) (page : SignUpUserInfoPage) :
    (page.username.count ≤ 3 ∧ ∃ alert, page.userInfoSave current = [.present alert])
    ∨ (3 < page.username.count ∧ current = none ∧ page.userInfoSave current
        = [.showHUD "Saving Username..", .trap .currentUser])
    ∨ (3 < page.username.count ∧ current ≠ none ∧ page.userInfoSave current
        = [.showHUD "Saving Username..", .setKey .username (.string page.username),
            .send .saveUserInfo]) := by
  rw [userInfoSave.eq_def]
  by_cases hlen : 3 < page.username.count
  · have hne : page.username ≠ .empty := by
      intro h
      rw [h] at hlen
      exact absurd hlen (by decide)
    rw [if_pos ⟨hne, hlen⟩]
    cases current with
    | none => exact Or.inr (Or.inl ⟨hlen, rfl, rfl⟩)
    | some user => exact Or.inr (Or.inr ⟨hlen, by simp, rfl⟩)
  · rw [if_neg (fun h => hlen h.2)]
    refine Or.inl ⟨by omega, ?_⟩
    by_cases hempty : page.username = .empty
    · exact ⟨_, if_pos hempty⟩
    · exact ⟨_, by rw [if_neg hempty, if_pos (by omega)]⟩

end SignUpUserInfoPage

/-! ## LogInPage -/

/-- `LogInPage` and its two text fields. -/
structure LogInPage where
  emailLogInTextfield : Text
  passwordLogInTextfield : Text
deriving DecidableEq, Repr

namespace LogInPage

/-- `logInButtonPressed`. -/
def logInButtonPressed (page : LogInPage) : List (Effect Data) :=
  if page.emailLogInTextfield.isEmpty then
    [.present ⟨"Oops", "Your email is empty, just like my wallet"⟩]
  else if page.passwordLogInTextfield.isEmpty then
    [.present ⟨"Oops", "Your password is empty, just like my fridge"⟩]
  else
    [.showHUD "Logging In...", .beginIgnoringInteractionEvents,
      .send (.logIn page.emailLogInTextfield page.passwordLogInTextfield)]

/-- The completion block of `logInButtonPressed`: it reads the email field
    again. -/
def logInBlock (page : LogInPage) (error : Option String) : List (Effect Data) :=
  match error with
  | some e => [.dismissHUD, .endIgnoringInteractionEvents, .present ⟨"Oops", e⟩]
  | none =>
      [.dismissHUD, .endIgnoringInteractionEvents, .performSegue "logInToHomePage",
        .setUserLoggedIn (some page.emailLogInTextfield)]

/-- The form passes both checks of `logInButtonPressed`. -/
def Submits (page : LogInPage) : Prop :=
  page.emailLogInTextfield.isEmpty = false ∧ page.passwordLogInTextfield.isEmpty = false

instance (page : LogInPage) : Decidable page.Submits :=
  inferInstanceAs (Decidable (_ ∧ _))

/-- A form that passes is submitted; any other only raises an alert. -/
theorem logInButtonPressed_cases (Data : Type) (page : LogInPage) :
    (page.Submits ∧ (page.logInButtonPressed : List (Effect Data))
        = [.showHUD "Logging In...", .beginIgnoringInteractionEvents,
            .send (.logIn page.emailLogInTextfield page.passwordLogInTextfield)])
    ∨ (¬ page.Submits ∧ ∃ alert,
        (page.logInButtonPressed : List (Effect Data)) = [.present alert]) := by
  rw [logInButtonPressed, Submits]
  by_cases hemail : page.emailLogInTextfield.isEmpty
  · exact Or.inr ⟨fun h => by simp [h.1] at hemail, _, if_pos hemail⟩
  rw [if_neg hemail]
  by_cases hpass : page.passwordLogInTextfield.isEmpty
  · exact Or.inr ⟨fun h => by simp [h.2] at hpass, _, if_pos hpass⟩
  rw [if_neg hpass]
  exact Or.inl ⟨⟨Bool.eq_false_iff.mpr hemail, Bool.eq_false_iff.mpr hpass⟩, rfl⟩

end LogInPage

/-! ## ResetPassword -/

/-- An effect of a screen, or the call that only `ResetPassword` makes. -/
inductive PageEffect (Data : Type) where
  | effect (e : Effect Data)
  | requestPasswordResetForEmail (email : Text)

/-- `ResetPassword` and its text field. -/
structure ResetPassword where
  emailTextfield : Text
deriving DecidableEq, Repr

namespace ResetPassword

/-- `resetButton`. -/
def resetButton (page : ResetPassword) : List (PageEffect Data) :=
  if page.emailTextfield = .empty then
    [.effect (.present ⟨"Empty", "Please enter a valid email address"⟩)]
  else
    [.requestPasswordResetForEmail page.emailTextfield]

/-- The completion block of `resetButton`. -/
def resetBlock (error : Option String) : List (PageEffect Data) :=
  match error with
  | some e => [.effect (.present ⟨"Error", e⟩)]
  | none =>
      -- the scene has no segue of this name
      [.effect (.present ⟨"Success", "Please check your email to reset your password."⟩),
        .effect (.performSegue "goBackToLoginPage")]

end ResetPassword

/-! ## SearchScene -/

/-- `SearchScene`: the text typed and what the last search shows. -/
structure SearchScene (Picture : Type) where
  searchTextfield : Text
  username : Text
  addButtonIsHidden : Bool
  userEmail : Text
  profilePicture : Option Picture

namespace SearchScene

/-- The screen as the storyboard loads it: the image view shows `user`. -/
def storyboard (kit : ImageKit Picture Data) : SearchScene Picture where
  searchTextfield := .empty
  username := .empty
  addButtonIsHidden := false
  userEmail := .empty
  profilePicture := kit.named "user"

/-- `viewDidLoad`. -/
def viewDidLoad (scene : SearchScene Picture) : SearchScene Picture :=
  { scene with addButtonIsHidden := true }

/-- `searchButtonPressed`. -/
def searchButtonPressed (scene : SearchScene Picture) : List (Effect Data) :=
  if scene.searchTextfield ≠ .empty then
    [.showHUD "Searching", .beginIgnoringInteractionEvents,
      .send (.search scene.searchTextfield)]
  else
    -- nothing has raised the counter here
    [.endIgnoringInteractionEvents,
      .present ⟨"Empty", "Please enter a valid email address"⟩]

/-- The completion block of `searchButtonPressed`. -/
def searchBlock (kit : ImageKit Picture Data) (current : Option (PFUser Data))
    (scene : SearchScene Picture) (found : Except String (PFUser Data)) :
    SearchScene Picture × List (Effect Data) :=
  match found with
  | .ok user =>
      -- the image view keeps what it shows until a picture arrives
      let shown := { scene with username := user.username, addButtonIsHidden := false }
      let download := match user.profilePicture with
        | some image => [.send (.searchPicture image)]
        | none => []
      let noted :=
        if some user.objectId = current.map PFUser.objectId then
          { shown with addButtonIsHidden := true, userEmail := .literal "You found yourself!" }
        else { shown with userEmail := .empty }
      (noted, [.dismissHUD] ++ download ++ [.endIgnoringInteractionEvents])
  | .error e =>
      ({ scene with profilePicture := kit.named "user", username := .literal "Username",
                    userEmail := .empty, addButtonIsHidden := true },
        [.showHUDError e, .endIgnoringInteractionEvents])

/-- The completion block of the picture download of a search. -/
def searchPictureBlock (kit : ImageKit Picture Data) (scene : SearchScene Picture)
    (image : Option Data) : SearchScene Picture :=
  match image.bind kit.decode with
  | some photo => { scene with profilePicture := some photo }
  | none => scene

end SearchScene

/-! ## PostScene -/

/-- `PostScene` and its form. -/
structure PostScene (Picture : Type) where
  imagePost : Option Picture
  postTitle : Text
  postComments : Text
deriving DecidableEq

namespace PostScene

/-- `imagePickerController(didFinishPickingMediaWithInfo:)`: both branches of
    the source read the edited image. -/
def imagePicked (scene : PostScene Picture) (editedImage : Option Picture) :
    PostScene Picture :=
  match editedImage with
  | some image => { scene with imagePost := some image }
  | none => scene

/-- The object that `post` fills in, key by key. -/
def newPost (user : PFUser Data) (scene : PostScene Picture) (imageData : Data) :
    PFObject Data :=
  -- the source sets "toUser" twice
  (((((PFObject.new "Post").set "toUser" (some (.user user.objectId))).set
    "userID" (some (.string user.objectId))).set
    "toUser" (some (.user user.objectId))).set
    "title" (some (.string scene.postTitle))).set
    "comments" (some (.string scene.postComments))
  |>.set "imageFile" (some (.file ⟨"image.png", imageData⟩))

/-- The completion block of `post`. -/
def postBlock (kit : ImageKit Picture Data) (scene : PostScene Picture)
    (error : Option String) : PostScene Picture × List (Effect Data) :=
  match error with
  | some e => (scene, [.showHUDError e, .endIgnoringInteractionEvents])
  | none =>
      ({ imagePost := kit.named "round-help-button", postTitle := .empty,
         postComments := .empty },
        [.showHUDSuccess "Posted!", .endIgnoringInteractionEvents])

section

variable [DecidableEq Picture]

/-- `post`: nothing lowers the counter when there is no image or no PNG. -/
def post (kit : ImageKit Picture Data) (current : Option (PFUser Data))
    (scene : PostScene Picture) : List (Effect Data) :=
  if scene.imagePost = kit.named "round-help-button" then
    [.present ⟨"Picture", "Please choose an image"⟩]
  else if scene.postTitle = .empty then
    [.present ⟨"Empty", "Title can not be empty"⟩]
  else if scene.postTitle ≠ .empty ∧ scene.imagePost ≠ kit.named "round-help-button" then
    .beginIgnoringInteractionEvents ::
      match current with
      | none => [.trap .currentUser]
      | some user =>
          -- from here on the counter is raised; only the block of the save lowers it
          match scene.imagePost with
          | none => []
          | some image =>
              .showHUD "Posting" ::
                match kit.png image with
                | none => []
                | some imageData => [.send (.savePost (newPost user scene imageData))]
  else []

/-- The form passes both checks of `post`. -/
def Valid (kit : ImageKit Picture Data) (scene : PostScene Picture) : Prop :=
  scene.imagePost ≠ kit.named "round-help-button" ∧ scene.postTitle ≠ .empty

instance (kit : ImageKit Picture Data) (scene : PostScene Picture) :
    Decidable (scene.Valid kit) :=
  inferInstanceAs (Decidable (_ ∧ _))

/-- The PNG representation of the chosen image, if there is one. -/
def imageData (kit : ImageKit Picture Data) (scene : PostScene Picture) : Option Data :=
  scene.imagePost.bind kit.png

/-- A form that does not pass raises an alert; one that passes raises the
    counter, and is submitted only with a user and a PNG. -/
theorem post_cases (kit : ImageKit Picture Data) (current : Option (PFUser Data))
    (scene : PostScene Picture) :
    (¬ scene.Valid kit ∧ ∃ alert, scene.post kit current = [.present alert])
    ∨ (scene.Valid kit ∧ current = none
        ∧ scene.post kit current
          = [.beginIgnoringInteractionEvents, .trap .currentUser])
    ∨ (scene.Valid kit ∧ current ≠ none ∧ scene.imageData kit = none
        ∧ (scene.post kit current = [.beginIgnoringInteractionEvents]
          ∨ scene.post kit current
            = [.beginIgnoringInteractionEvents, .showHUD "Posting"]))
    ∨ (scene.Valid kit ∧ ∃ user image, current = some user
        ∧ scene.imageData kit = some image
        ∧ scene.post kit current
          = [.beginIgnoringInteractionEvents, .showHUD "Posting",
              .send (.savePost (newPost user scene image))]) := by
  rw [post.eq_def, Valid, imageData]
  by_cases himage : scene.imagePost = kit.named "round-help-button"
  · exact Or.inl ⟨fun h => h.1 himage, _, if_pos himage⟩
  · rw [if_neg himage]
    by_cases htitle : scene.postTitle = .empty
    · exact Or.inl ⟨fun h => h.2 htitle, _, if_pos htitle⟩
    · rw [if_neg htitle, if_pos ⟨htitle, himage⟩]
      refine Or.inr ?_
      cases current with
      | none => exact Or.inl ⟨⟨himage, htitle⟩, rfl, rfl⟩
      | some user =>
          refine Or.inr ?_
          cases hpost : scene.imagePost with
          | none =>
              exact Or.inl ⟨⟨by rw [← hpost]; exact himage, htitle⟩, by simp, rfl, Or.inl rfl⟩
          | some image =>
              rw [hpost] at himage
              cases hpng : kit.png image with
              | none =>
                  exact Or.inl ⟨⟨himage, htitle⟩, by simp, hpng, Or.inr (by simp [hpng])⟩
              | some data =>
                  exact Or.inr ⟨⟨himage, htitle⟩, user, data, rfl, hpng, by simp [hpng]⟩

end

end PostScene

/-! ## EditProfile -/

/-- `EditProfile`: its text field, its label and its image view. -/
structure EditProfile (Picture : Type) where
  usernameTextfield : Text
  currentUsername : Text
  profilePicture : Option Picture

namespace EditProfile

/-- The screen as the storyboard loads it: the image view shows `user`. -/
def storyboard (kit : ImageKit Picture Data) : EditProfile Picture where
  usernameTextfield := .empty
  currentUsername := .empty
  profilePicture := kit.named "user"

/-- `viewDidLoad`. -/
def viewDidLoad (current : Option (PFUser Data)) (scene : EditProfile Picture) :
    EditProfile Picture × List (Effect Data) :=
  match current with
  | none => (scene, [.trap .currentUser])
  | some user =>
      ({ scene with currentUsername := (Text.literal "Current Username: ").append user.username,
                    usernameTextfield := user.username },
        match user.profilePicture with
        | some image => [.send (.profilePictureData image)]
        | none => [])

/-- The completion block of the download in `viewDidLoad`. -/
def downloadBlock (kit : ImageKit Picture Data) (scene : EditProfile Picture)
    (image : Option Data) : EditProfile Picture :=
  match image.bind kit.decode with
  | some photo => { scene with profilePicture := some photo }
  | none => scene

/-- `imagePickerController(didFinishPickingMediaWithInfo:)`. -/
def imagePicked (scene : EditProfile Picture) (editedImage : Option Picture) :
    EditProfile Picture :=
  match editedImage with
  | some image => { scene with profilePicture := some image }
  | none => scene

/-- The PNG representation of the picture shown, if there is one. -/
def imageData (kit : ImageKit Picture Data) (scene : EditProfile Picture) : Option Data :=
  scene.profilePicture.bind kit.png

/-- The first half of `saveProfile`: the picture and its own save. -/
def savePicture (kit : ImageKit Picture Data) (scene : EditProfile Picture) :
    List (Effect Data) :=
  match scene.profilePicture with
  | none => []
  | some image =>
      match kit.png image with
      | none => []
      | some imageData =>
          [.setKey .profilePicture (.file ⟨"profilePic.png", imageData⟩),
            .send .saveProfilePicture]

/-- A picture with a PNG representation is written and saved. -/
theorem savePicture_cases (kit : ImageKit Picture Data) (scene : EditProfile Picture) :
    (scene.imageData kit = none ∧ scene.savePicture kit = [])
    ∨ ∃ data, scene.imageData kit = some data ∧ scene.savePicture kit
        = [.setKey .profilePicture (.file ⟨"profilePic.png", data⟩),
            .send .saveProfilePicture] := by
  rw [savePicture, imageData]
  cases scene.profilePicture with
  | none => exact Or.inl ⟨rfl, rfl⟩
  | some image =>
      dsimp only [Option.bind]
      cases kit.png image with
      | none => exact Or.inl ⟨rfl, rfl⟩
      | some data => exact Or.inr ⟨data, rfl, rfl⟩

/-- `saveProfile`: the username is written before its length is checked. -/
def saveProfile (kit : ImageKit Picture Data) (current : Option (PFUser Data))
    (scene : EditProfile Picture) : List (Effect Data) :=
  match current with
  | none => [.trap .currentUser]
  | some _ =>
      scene.savePicture kit ++ [.setKey .username (.string scene.usernameTextfield)]
        ++ if scene.usernameTextfield.count ≤ 3 then
            [.present ⟨"Length", "Username must be at least 4 characters"⟩]
          else
            [.showHUD "Uploading", .beginIgnoringInteractionEvents, .send .saveUsername]

theorem saveProfile_none (kit : ImageKit Picture Data) (scene : EditProfile Picture) :
    scene.saveProfile kit none = [.trap .currentUser] := rfl

/-- With a user, the length check decides only what follows the two writes. -/
theorem saveProfile_some (kit : ImageKit Picture Data) (user : PFUser Data)
    (scene : EditProfile Picture) :
    scene.saveProfile kit (some user)
      = scene.savePicture kit ++ [.setKey .username (.string scene.usernameTextfield)]
        ++ if scene.usernameTextfield.count ≤ 3 then
            [.present ⟨"Length", "Username must be at least 4 characters"⟩]
          else
            [.showHUD "Uploading", .beginIgnoringInteractionEvents, .send .saveUsername] :=
  rfl

/-- The completion block of the picture's save. -/
def savePictureBlock (error : Option String) : List (Effect Data) :=
  match error with
  | some e => [.showHUDError e]
  | none => []

/-- The completion block of the username's save. -/
def saveProfileBlock (error : Option String) : List (Effect Data) :=
  match error with
  | some e => [.showHUDError e, .endIgnoringInteractionEvents]
  | none =>
      [.showHUDSuccess "Saved!", .performSegue "backAfterSaved",
        .endIgnoringInteractionEvents]

end EditProfile

/-! ## User -/

/-- `UserHeaderView` and its two labels. -/
structure UserHeaderView where
  userEmail : Text
  userChosenName : Text
deriving DecidableEq, Repr

/-- `User`: the page limit and the files of the posts shown. -/
structure User (Data : Type) where
  page : Nat
  pictureArray : List (PFFile Data)

namespace User

/-- A new `User`. -/
def initial : User Data where
  page := 6
  pictureArray := []

/-- `loadPosts`. -/
def loadPosts (current : Option (PFUser Data)) (screen : User Data) : List (Effect Data) :=
  match current with
  | none => [.trap .currentUser]
  | some user => [.send (.posts (some user.objectId) screen.page)]

/-- The loop of `loadPosts`' block: `as! PFFile` on every object. -/
def imageFiles (posts : List (PFObject Data)) : Option (List (PFFile Data)) :=
  posts.mapM fun post => (post.value "imageFile").bind Value.asFile

/-- The completion block of `loadPosts`. -/
def loadPostsBlock (screen : User Data) (found : Except String (List (PFObject Data))) :
    User Data × List (Effect Data) :=
  match found with
  | .ok posts =>
      match imageFiles posts with
      | some files => ({ screen with pictureArray := files }, [.reloadData])
      | none => (screen, [.trap .imageFile])
  | .error e => (screen, [.present ⟨"Error", e⟩, .reloadData])

/-- `loadMore`. -/
def loadMore (current : Option (PFUser Data)) (screen : User Data) :
    User Data × List (Effect Data) :=
  if screen.page ≤ screen.pictureArray.length then
    let more := { screen with page := screen.page + 5 }
    (more, more.loadPosts current)
  else (screen, [])

/-- `scrollViewDidScroll`, with the offset, the height of the content and the
    height of the frame in a common unit. -/
def scrollViewDidScroll (contentOffset contentHeight frameHeight : Int)
    (current : Option (PFUser Data)) (screen : User Data) :
    User Data × List (Effect Data) :=
  if contentOffset ≥ contentHeight - frameHeight * 2 then screen.loadMore current
  else (screen, [])

/-- `refreseh`. -/
def refreseh : List (Effect Data) := [.reloadData]

/-- `collectionView(_:numberOfItemsInSection:)`. -/
def numberOfItemsInSection (screen : User Data) : Nat := screen.pictureArray.length

/-- `collectionView(_:cellForItemAt:)`: the file whose data the cell asks for;
    `none` is an index out of range. -/
def cellForItemAt (screen : User Data) (row : Nat) : Option (PFFile Data) :=
  screen.pictureArray[row]?

/-- `collectionView(_:viewForSupplementaryElementOfKind:at:)`. -/
def viewForSupplementaryElementOfKind (current : Option (PFUser Data))
    (header : UserHeaderView) : UserHeaderView × List (Effect Data) :=
  match current with
  | none => (header, [.trap .currentUser])
  | some user =>
      ({ userEmail := user.email, userChosenName := user.username },
        match user.profilePicture with
        | some image => [.send (.headerPictureData image)]
        | none => [])

/-- The handler of the answer Yes to `logOut`'s question. -/
def logOutYes : List (Effect Data) :=
  [.showHUD "Logging Out...", .beginIgnoringInteractionEvents, .send .logOut]

/-- The completion block of `logOut`. -/
def logOutBlock (error : Option String) : List (Effect Data) :=
  match error with
  | some _ =>
      [.dismissHUD, .present ⟨"Oops", "There's something wrong, please try again"⟩,
        .endIgnoringInteractionEvents]
  | none =>
      [.dismissHUD, .endIgnoringInteractionEvents, .performSegue "logOut",
        .setUserLoggedIn none]

end User

end FPScreens

import FPApp.NestingLockProofs
import FPApp.ScreenProofs

/-! # The app as one event-driven machine

    The state is what the screens share: UIKit's counter of ignored
    interactions, the entry `userloggedin` of the user defaults, Parse's
    current user, the forms on the screens, and the requests outstanding.

    The events are the touches on the screens (delivered only while the
    counter is zero), scrolling, the header requests of the collection view,
    and the two halves of a request's end: Parse *settles* it (this is when
    sign-up, log-in and log-out change the current user) and later runs its
    *completion block*.  A forced unwrap that fails kills the process; a
    restart keeps only what is persistent.

    * `App.launch` — a process started on what is persistent;
    * `App.perform` — the effects of a handler, up to the first trap;
    * `App.step` — one event. -/

namespace FPMachine

open FPParse FPScreens EventRun NestingLock

/-- What the user has entered in the forms. -/
structure Inputs (Picture : Type) where
  signUpPage : SignUpPage
  signUpUserInfoPage : SignUpUserInfoPage
  logInPage : LogInPage
  searchTextfield : Text
  postScene : PostScene Picture
  usernameTextfield : Text

/-- A request under way: what Parse has settled it with, the instance of
    `User` or the visit of `EditProfile` that issued it, and the forms at the
    time it was issued. -/
structure Outstanding (Picture Data : Type) where
  request : Request Data
  reply : Option (Reply Data)
  screen : Nat
  form : Inputs Picture

/-- An instance of `User`, and whether its collection view is to be laid out
    anew after `reloadData`. -/
structure UserScreen (Data : Type) where
  user : User Data
  reloaded : Bool

/-- The first screens: the storyboard's initial one, and the tab bar. -/
inductive Root where
  | introductionPage
  | tabBar
deriving DecidableEq, Repr

/-- `AppDelegate.rememberLogin`: the screen installed at launch. -/
def rememberLogin (userloggedin : Option Text) : Root :=
  if userloggedin ≠ none then .tabBar else .introductionPage

/-- The app; `userTab` says whether the tab of `User` has loaded its screen. -/
structure App (Picture Data : Type) where
  lock : Nat
  unmatchedEnd : Bool
  userloggedin : Option Text
  current : Option (PFUser Data)
  inputs : Inputs Picture
  searchScene : SearchScene Picture
  editProfile : EditProfile Picture
  header : UserHeaderView
  users : List (UserScreen Data)
  outstanding : List (Outstanding Picture Data)
  root : Root
  userTab : Bool
  visit : Nat
  crashed : Option Trap

/-- The text fields of the forms. -/
inductive TextField where
  | signUpEmail
  | signUpPassword
  | retypePassword
  | chosenUsername
  | logInEmail
  | logInPassword
  | search
  | postTitle
  | postComments
  | username

/-- What the user does on the screens. -/
inductive Touch (Picture : Type) where
  | type (field : TextField) (t : Text)
  | signUpRegisterButtonPressed
  | passwordsAlertOK
  | userInfoSave
  | skipYes
  | logInButtonPressed
  | searchButtonPressed
  | postImagePicked (editedImage : Option Picture)
  | post
  | selectUserTab
  | refreseh (screen : Nat)
  | openEditProfile
  | cancel
  | profileImagePicked (editedImage : Option Picture)
  | saveProfile
  | logOutYes

/-- What can happen to the app. -/
inductive Event (Picture Data : Type) where
  | touch (t : Touch Picture)
  | settle (i : Nat) (reply : Reply Data)
  | complete (i : Nat)
  | scroll (screen : Nat) (contentOffset contentHeight frameHeight : Int)
  | header (screen : Nat)
  | restart

variable {Picture Data : Type}

/-- Typing replaces the text of one field. -/
def Inputs.type (f : Inputs Picture) : TextField → Text → Inputs Picture
  | .signUpEmail, t => { f with signUpPage := { f.signUpPage with signUpEmailTextField := t } }
  | .signUpPassword, t =>
      { f with signUpPage := { f.signUpPage with signUpPasswordTextfield := t } }
  | .retypePassword, t => { f with signUpPage := { f.signUpPage with retypePassword := t } }
  | .chosenUsername, t => { f with signUpUserInfoPage := ⟨t⟩ }
  | .logInEmail, t => { f with logInPage := { f.logInPage with emailLogInTextfield := t } }
  | .logInPassword, t =>
      { f with logInPage := { f.logInPage with passwordLogInTextfield := t } }
  | .search, t => { f with searchTextfield := t }
  | .postTitle, t => { f with postScene := { f.postScene with postTitle := t } }
  | .postComments, t => { f with postScene := { f.postScene with postComments := t } }
  | .username, t => { f with usernameTextfield := t }

/-- The forms of a fresh process. -/
def Inputs.initial (kit : ImageKit Picture Data) : Inputs Picture where
  signUpPage := ⟨.empty, .empty, .empty⟩
  signUpUserInfoPage := ⟨.empty⟩
  logInPage := ⟨.empty, .empty⟩
  searchTextfield := .empty
  postScene := ⟨kit.named "round-help-button", .empty, .empty⟩
  usernameTextfield := .empty

/-- A process launched on what the last one left: the user defaults and
    Parse's current user. -/
def App.launch (kit : ImageKit Picture Data) (userloggedin : Option Text)
    (current : Option (PFUser Data)) : App Picture Data where
  lock := 0
  unmatchedEnd := false
  userloggedin := userloggedin
  current := current
  inputs := Inputs.initial kit
  searchScene := (SearchScene.storyboard kit).viewDidLoad
  editProfile := EditProfile.storyboard kit
  header := ⟨.empty, .empty⟩
  users := []
  outstanding := []
  root := rememberLogin userloggedin
  userTab := false
  visit := 0
  crashed := none

/-- `EditProfile` with the text the user has typed. -/
def App.editScene (s : App Picture Data) : EditProfile Picture :=
  { s.editProfile with usernameTextfield := s.inputs.usernameTextfield }

/-- `SearchScene` with the text the user has typed. -/
def App.search (s : App Picture Data) : SearchScene Picture :=
  { s.searchScene with searchTextfield := s.inputs.searchTextfield }

/-! ## Executing effects -/

/-- One effect of a handler; `i` is the instance of `User` or the visit of
    `EditProfile` it belongs to, and any number on the other screens. -/
def App.act (i : Nat) (s : App Picture Data) : Effect Data → App Picture Data
  | .beginIgnoringInteractionEvents => { s with lock := s.lock + 1 }
  | .endIgnoringInteractionEvents =>
      -- UIKit leaves a counter at zero as it is
      { s with lock := s.lock - 1, unmatchedEnd := s.unmatchedEnd || s.lock == 0 }
  | .setUserLoggedIn value => { s with userloggedin := value }
  | .setKey key value => { s with current := s.current.map fun u => u.set key value }
  | .send request =>
      { s with outstanding := s.outstanding ++ [⟨request, none, i, s.inputs⟩] }
  | .reloadData =>
      { s with users := s.users.modify i fun u => { u with reloaded := true } }
  | .trap expression => { s with crashed := some expression }
  | .present _ | .showHUD _ | .dismissHUD | .showHUDError _ | .showHUDSuccess _
  | .performSegue _ => s

/-- A new instance of `User`: its `viewDidLoad` loads the first page. -/
def App.showUser (s : App Picture Data) : App Picture Data :=
  (User.initial.loadPosts s.current).foldl (App.act s.users.length)
    { s with users := s.users ++ [⟨User.initial, false⟩] }

/-- One effect, with the screen that a segue loads. -/
def App.exec (i : Nat) (s : App Picture Data) : Effect Data → App Picture Data
  | .performSegue identifier =>
      -- the only segue performed to a screen that asks Parse when it is loaded
      if identifier = "backAfterSaved" then s.showUser
      -- a new tab bar, whose tabs load when they are first selected
      else if identifier = "logInToHomePage" ∨ identifier = "goToHomePage" then
        { s with userTab := false }
      else s
  | effect => s.act i effect

/-- The effects of a handler, in order; nothing runs after a trap. -/
def App.perform (i : Nat) (s : App Picture Data) : List (Effect Data) → App Picture Data
  | [] => s
  | effect :: effects =>
      if (s.exec i effect).crashed = none then (s.exec i effect).perform i effects
      else s.exec i effect

/-! ## The handlers -/

section

variable [DecidableEq Picture] (kit : ImageKit Picture Data)

/-- A touch on a screen. -/
def App.touch (s : App Picture Data) : Touch Picture → App Picture Data
  | .type field t => { s with inputs := s.inputs.type field t }
  | .signUpRegisterButtonPressed =>
      s.perform 0 s.inputs.signUpPage.signUpRegisterButtonPressed
  | .passwordsAlertOK =>
      { s with inputs := { s.inputs with signUpPage := s.inputs.signUpPage.reset } }
  | .userInfoSave => s.perform 0 (s.inputs.signUpUserInfoPage.userInfoSave s.current)
  | .skipYes => s.perform 0 SignUpUserInfoPage.skipYes
  | .logInButtonPressed => s.perform 0 s.inputs.logInPage.logInButtonPressed
  | .searchButtonPressed => s.perform 0 s.search.searchButtonPressed
  | .postImagePicked image =>
      { s with inputs := { s.inputs with postScene := s.inputs.postScene.imagePicked image } }
  | .post => s.perform 0 (s.inputs.postScene.post kit s.current)
  | .selectUserTab => if s.userTab then s else { s with userTab := true }.showUser
  | .refreseh i => s.perform i User.refreseh
  | .openEditProfile =>
      let (scene, effects) := (EditProfile.storyboard kit).viewDidLoad s.current
      { s with
        editProfile := scene
        inputs := { s.inputs with usernameTextfield := scene.usernameTextfield }
        visit := s.visit + 1 }.perform (s.visit + 1) effects
  -- the storyboard's segue from Cancel shows a new `User`
  | .cancel => s.showUser
  | .profileImagePicked image => { s with editProfile := s.editProfile.imagePicked image }
  | .saveProfile => s.perform 0 (s.editScene.saveProfile kit s.current)
  | .logOutYes => s.perform 0 User.logOutYes

/-- What Parse does to its current user when it settles a request. -/
def settledUser (current : Option (PFUser Data)) : Request Data → Reply Data →
    Option (PFUser Data)
  | .signUp .., .user u | .logIn .., .user u => some u
  -- Parse forgets its user whatever the server answers
  | .logOut, _ => none
  | _, _ => current

/-- Parse settles a request; its completion block is still to run. -/
def App.settle (s : App Picture Data) (i : Nat) (q : Outstanding Picture Data)
    (reply : Reply Data) : App Picture Data :=
  { s with
    current := settledUser s.current q.request reply
    outstanding := s.outstanding.set i { q with reply := some reply } }

/-- The error that a block receives. -/
def replyError : Reply Data → Option String
  | .failure e => some e
  | _ => none

/-- The data that a download's block receives. -/
def replyData : Reply Data → Option Data
  | .data d => some d
  | _ => none

/-- The user that the block of a search receives. -/
def replyUser : Reply Data → Except String (PFUser Data)
  | .user u => .ok u
  | .failure e => .error e
  | _ => .error ""

/-- The objects that the block of a query receives. -/
def replyObjects : Reply Data → Except String (List (PFObject Data))
  | .objects posts => .ok posts
  | .failure e => .error e
  | _ => .error ""

/-- The completion block of a request. -/
def App.block (s : App Picture Data) (q : Outstanding Picture Data) (reply : Reply Data) :
    App Picture Data :=
  match q.request with
  | .signUp .. => s.perform 0 (SignUpPage.userSignUpBlock (replyError reply))
  | .logIn .. => s.perform 0 (s.inputs.logInPage.logInBlock (replyError reply))
  | .logOut => s.perform 0 (User.logOutBlock (replyError reply))
  | .search _ =>
      let (scene, effects) := s.search.searchBlock kit s.current (replyUser reply)
      { s with searchScene := scene }.perform 0 effects
  | .searchPicture _ =>
      { s with searchScene := s.search.searchPictureBlock kit (replyData reply) }
  | .savePost _ =>
      let (scene, effects) := s.inputs.postScene.postBlock kit (replyError reply)
      { s with inputs := { s.inputs with postScene := scene } }.perform 0 effects
  | .saveProfilePicture => s.perform 0 (EditProfile.savePictureBlock (replyError reply))
  | .saveUsername => s.perform 0 (EditProfile.saveProfileBlock (replyError reply))
  | .saveUserInfo => s.perform 0 (SignUpUserInfoPage.userInfoSaveBlock (replyError reply))
  | .profilePictureData _ =>
      -- the screen of an earlier visit is gone
      if q.screen = s.visit then
        { s with editProfile := s.editProfile.downloadBlock kit (replyData reply) }
      else s
  | .headerPictureData _ => s
  | .posts .. =>
      match s.users[q.screen]? with
      | none => s
      | some u =>
          let (screen, effects) := u.user.loadPostsBlock (replyObjects reply)
          { s with users := s.users.set q.screen { u with user := screen } }.perform
            q.screen effects

/-- `scrollViewDidScroll` of an instance of `User`. -/
def App.scroll (s : App Picture Data) (i : Nat) (u : UserScreen Data)
    (contentOffset contentHeight frameHeight : Int) : App Picture Data :=
  let (screen, effects) :=
    u.user.scrollViewDidScroll contentOffset contentHeight frameHeight s.current
  { s with users := s.users.set i { u with user := screen } }.perform i effects

/-- The header request of a collection view that was reloaded. -/
def App.requestHeader (s : App Picture Data) (i : Nat) (u : UserScreen Data) :
    App Picture Data :=
  let (header, effects) := User.viewForSupplementaryElementOfKind s.current s.header
  { s with header := header, users := s.users.set i { u with reloaded := false } }.perform
    i effects

/-- One event.  Touches wait for the counter to be zero; a crashed process
    can only be restarted. -/
def App.step (s : App Picture Data) : Event Picture Data → Option (App Picture Data)
  | .restart => some (App.launch kit s.userloggedin s.current)
  | .touch t => if s.crashed = none ∧ s.lock = 0 then some (s.touch kit t) else none
  | .settle i reply =>
      match s.outstanding[i]? with
      | none => none
      | some q =>
          if s.crashed = none ∧ q.reply.isNone ∧ q.request.accepts reply then
            some (s.settle i q reply)
          else none
  | .complete i =>
      match s.outstanding[i]? with
      | none => none
      | some q =>
          match q.reply with
          | none => none
          | some reply =>
              if s.crashed = none then
                some ({ s with outstanding := s.outstanding.eraseIdx i }.block kit q reply)
              else none
  | .scroll i offset content frame =>
      match s.users[i]? with
      | none => none
      | some u => if s.crashed = none then some (s.scroll i u offset content frame) else none
  | .header i =>
      match s.users[i]? with
      | none => none
      | some u =>
          if s.crashed = none ∧ u.reloaded then some (s.requestHeader i u) else none

end

end FPMachine

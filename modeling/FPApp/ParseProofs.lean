import Mathlib.Logic.Function.Basic

/-! # The data the screens share

    Swift strings, UIKit pictures, the Parse objects the screens read and
    write, the requests they send and the effects their handlers have.

    A handler of a screen is translated to the list of its effects, in the
    order of the source; the machines of the later files execute such lists.
    What lies outside the repository is a parameter: `ImageKit` stands for
    UIKit's `UIImage` functions. -/

namespace FPParse

/-- A Swift `Character`: one extended grapheme cluster, by its scalars in the
    canonical form under which Swift compares characters. -/
structure Character where
  scalars : List Char
deriving DecidableEq, Repr

/-- A Swift `String`: a sequence of characters. -/
structure Text where
  characters : List Character
deriving DecidableEq, Repr

/-- Swift's `count`. -/
def Text.count (t : Text) : Nat := t.characters.length

/-- Swift's `isEmpty`. -/
def Text.isEmpty (t : Text) : Bool := t.characters.isEmpty

/-- The text `""`. -/
def Text.empty : Text := ⟨[]⟩

/-- A text of one-scalar characters. -/
def Text.literal (s : String) : Text := ⟨s.toList.map fun c => ⟨[c]⟩⟩

/-- String interpolation and concatenation. -/
def Text.append (s t : Text) : Text := ⟨s.characters ++ t.characters⟩

/-- A text of `n` equal characters. -/
def Text.repeating (n : Nat) (c : Char) : Text := ⟨List.replicate n ⟨[c]⟩⟩

/-- UIKit's images: `UIImage(named:)`, `UIImagePNGRepresentation` and
    `UIImage(data:)`. -/
structure ImageKit (Picture Data : Type) where
  named : String → Option Picture
  png : Picture → Option Data
  decode : Data → Option Picture

/-- An image layer for concrete runs: pictures are numbers, encoded as
    themselves; `0` and `1` are the two placeholders and `2` has no PNG. -/
def numberKit : ImageKit Nat Nat where
  named name := if name = "round-help-button" then some 0 else some 1
  png picture := if picture = 2 then none else some picture
  decode data := some data

/-- A file stored by Parse. -/
structure PFFile (Data : Type) where
  name : String
  data : Data
deriving DecidableEq, Repr

/-- The picture a stored file shows. -/
def PFFile.shows {Picture Data : Type} (kit : ImageKit Picture Data)
    (file : PFFile Data) : Option Picture :=
  kit.decode file.data

/-- The values the app stores under a key: strings, files, and pointers to
    users by their `objectId`. -/
inductive Value (Data : Type) where
  | string (t : Text)
  | file (f : PFFile Data)
  | user (objectId : Text)
deriving DecidableEq, Repr

/-- The cast `as? String`. -/
def Value.asString {Data : Type} : Value Data → Option Text
  | .string t => some t
  | _ => none

/-- The cast `as? PFFile`. -/
def Value.asFile {Data : Type} : Value Data → Option (PFFile Data)
  | .file f => some f
  | _ => none

/-- The user that a stored pointer points to, by its `objectId`. -/
def Value.asUser {Data : Type} : Value Data → Option Text
  | .user objectId => some objectId
  | _ => none

/-- A Swift `Date`, at the precision that Parse stores. -/
structure Date where
  milliseconds : Int
deriving DecidableEq, Repr

/-- A `PFObject`: a class name, the values under its keys, and the date that
    Parse gives a saved object. -/
structure PFObject (Data : Type) where
  className : String
  value : String → Option (Value Data)
  createdAt : Option Date

/-- `PFObject(className:)`. -/
def PFObject.new {Data : Type} (className : String) : PFObject Data :=
  { className := className, value := fun _ => none, createdAt := none }

/-- `object[key] = value`; a `nil` value is `none`. -/
def PFObject.set {Data : Type} (o : PFObject Data) (key : String)
    (v : Option (Value Data)) : PFObject Data :=
  { o with value := Function.update o.value key v }

@[simp] theorem PFObject.value_set {Data : Type} (o : PFObject Data) (key k : String)
    (v : Option (Value Data)) :
    (o.set key v).value k = if k = key then v else o.value k := by
  by_cases h : k = key
  · subst h
    simp [PFObject.set]
  · simp [PFObject.set, h]

/-- The keys of the user object that the app writes after sign-up. -/
inductive UserKey where
  | username
  | profilePicture
deriving DecidableEq, Repr

/-- The local `PFUser`: what the screens read of it. -/
structure PFUser (Data : Type) where
  objectId : Text
  username : Text
  email : Text
  profilePicture : Option (PFFile Data)
deriving DecidableEq, Repr

/-- `user[key] = value` on the local object. -/
def PFUser.set {Data : Type} (u : PFUser Data) : UserKey → Value Data → PFUser Data
  | .username, v => { u with username := v.asString.getD u.username }
  | .profilePicture, v => { u with profilePicture := v.asFile }

/-- The asynchronous calls, each with what it submits. -/
inductive Request (Data : Type) where
  | signUp (username password email : Text)
  | logIn (username password : Text)
  | logOut
  | search (username : Text)
  | searchPicture (file : PFFile Data)
  | savePost (post : PFObject Data)
  | saveProfilePicture
  | saveUsername
  | saveUserInfo
  | profilePictureData (file : PFFile Data)
  | headerPictureData (file : PFFile Data)
  | posts (toUser : Option Text) (limit : Nat)

/-- The requests issued under `beginIgnoringInteractionEvents`. -/
def Request.locks {Data : Type} : Request Data → Bool
  | .signUp .. | .logIn .. | .logOut | .search _ | .savePost _ | .saveUsername => true
  | _ => false

/-- What Parse hands to a completion block. -/
inductive Reply (Data : Type) where
  | failure (localizedDescription : String)
  | success
  | user (u : PFUser Data)
  | objects (posts : List (PFObject Data))
  | data (d : Data)

/-- The replies Parse can give to a request. -/
def Request.accepts {Data : Type} : Request Data → Reply Data → Bool
  | _, .failure _ => true
  | .signUp .., .user _ | .logIn .., .user _ | .search _, .user _ => true
  | .logOut, .success | .savePost _, .success => true
  | .saveProfilePicture, .success | .saveUsername, .success | .saveUserInfo, .success => true
  | .searchPicture _, .data _ | .profilePictureData _, .data _
  | .headerPictureData _, .data _ => true
  | .posts .., .objects _ => true
  | _, _ => false

/-- A `UIAlertController` by its title and message. -/
structure Alert where
  title : String
  message : String
deriving DecidableEq, Repr

/-- The forced expressions that can fail: `PFUser.current()!`, and what the
    screens read of a post: the casts `as! PFFile` and `as! String` of its
    values and `createdAt!`. -/
inductive Trap where
  | currentUser
  | imageFile
  | title
  | comments
  | createdAt
deriving DecidableEq, Repr

/-- What a handler does, call by call.  `trap` is the evaluation of a forced
    expression that fails. -/
inductive Effect (Data : Type) where
  | present (alert : Alert)
  | showHUD (status : String)
  | dismissHUD
  | showHUDError (status : String)
  | showHUDSuccess (status : String)
  | beginIgnoringInteractionEvents
  | endIgnoringInteractionEvents
  | performSegue (identifier : String)
  | setUserLoggedIn (value : Option Text)
  | setKey (key : UserKey) (value : Value Data)
  | send (request : Request Data)
  | reloadData
  | trap (expression : Trap)

end FPParse

import FPApp.ReuseProofs
import FPApp.ScreenProofs

/-! # Searching for users

    `SearchScene` has one set of views for all of its searches.  A search that
    is answered dresses them for what was found; when the user it found has a
    picture, a download starts, and its completion block sets the image of
    whatever is shown by then.

    * `Search` — the scene, the counter, the searches in flight, and all that
      were answered, as uses of the one set of views;
    * `searchButtonPressed_cases` — what the handler does;
    * `orderly_run` — the counter admits one search at a time, so that searches
      are answered in the order in which they were made;
    * `sources` — the searches whose image came: one that failed with its
      answer, one that found a user with its download;
    * `texts_run`, `picture_run` — the texts and the button belong to the last
      search, and the image to the last of the sources;
    * `last_search_iff` — two histories that end with the same search show the
      same exactly when their last sources have the same picture. -/

namespace FPScreens

open FPParse

variable {Picture Data : Type}

namespace SearchScene

/-- A text is searched for; an empty one only lowers the counter and raises an
    alert. -/
theorem searchButtonPressed_cases (Data : Type) (scene : SearchScene Picture) :
    (scene.searchTextfield ≠ .empty ∧ (scene.searchButtonPressed : List (Effect Data))
        = [.showHUD "Searching", .beginIgnoringInteractionEvents,
            .send (.search scene.searchTextfield)])
    ∨ (scene.searchTextfield = .empty ∧ ∃ alert,
        (scene.searchButtonPressed : List (Effect Data))
          = [.endIgnoringInteractionEvents, .present alert]) := by
  rw [searchButtonPressed]
  by_cases htext : scene.searchTextfield = .empty
  · exact Or.inr ⟨htext, _, if_neg (not_not.mpr htext)⟩
  · exact Or.inl ⟨htext, if_pos htext⟩

end SearchScene

/-- A search that was answered: its text, and what was found. -/
structure Searched (Data : Type) where
  text : Text
  found : Except String (PFUser Data)

/-- The picture of the user that was found. -/
def Searched.picture (searched : Searched Data) : Option (PFFile Data) :=
  match searched.found with
  | .ok user => user.profilePicture
  | .error _ => none

/-- The photo that the file of that picture holds, if it holds one. -/
def Searched.photo (kit : ImageKit Picture Data) (searched : Searched Data) : Option Picture :=
  searched.picture.bind fun file => file.shows kit

/-- The name, the note and whether the button is hidden, that a search alone
    shows to `user`. -/
def Searched.texts (user : PFUser Data) (searched : Searched Data) : Text × Text × Bool :=
  match searched.found with
  | .error _ => (.literal "Username", .empty, true)
  | .ok found =>
      if found.objectId = user.objectId then
        (found.username, .literal "You found yourself!", true)
      else (found.username, .empty, false)

/-- What is on the screen besides the text field. -/
def SearchScene.shown (scene : SearchScene Picture) : (Text × Text × Bool) × Option Picture :=
  ((scene.username, scene.userEmail, scene.addButtonIsHidden), scene.profilePicture)

/-- The block of a search shows these texts, whatever was shown before. -/
theorem Searched.searchBlock_texts (kit : ImageKit Picture Data) (user : PFUser Data)
    (scene : SearchScene Picture) (searched : Searched Data) :
    (scene.searchBlock kit (some user) searched.found).1.shown.1 = searched.texts user := by
  obtain ⟨text, found⟩ := searched
  cases found with
  | error e => rfl
  | ok found =>
      by_cases hself : found.objectId = user.objectId
      · simp [SearchScene.searchBlock, SearchScene.shown, Searched.texts, hself]
      · simp [SearchScene.searchBlock, SearchScene.shown, Searched.texts, hself]

end FPScreens

namespace FPSearch

open FPParse FPScreens EventRun Reuse

variable {Picture Data : Type}

/-! ## The scene and its searches -/

/-- The views of the scene, while `user` is signed in.  Only a search that
    fails sets the image; one that finds a user leaves it to the download. -/
def searchViews (kit : ImageKit Picture Data) (user : PFUser Data) :
    Design (SearchScene Picture) (Searched Data) (Option Data) (Option Picture) where
  dress searched scene := (scene.searchBlock kit (some user) searched.found).1
  put image scene := scene.searchPictureBlock kit image
  content := SearchScene.profilePicture
  sets searched :=
    match searched.found with
    | .ok _ => none
    | .error _ => some (kit.named "user")
  asks searched := searched.picture.isSome
  brings image := (image.bind kit.decode).map some
  content_dress := by
    rintro ⟨text, found⟩ scene
    cases found with
    | error e => rfl
    | ok found =>
        show (if _ then _ else _ : SearchScene Picture).profilePicture = _
        split <;> rfl
  content_put := by
    intro image scene
    rw [SearchScene.searchPictureBlock]
    cases image.bind kit.decode <;> rfl

/-- The scene: the text typed, UIKit's counter, the searches in flight, and
    the views with all that were answered. -/
structure Search (Picture Data : Type) where
  searchTextfield : Text
  lock : Nat
  searching : List Text
  pool : Pool Unit (SearchScene Picture) (Searched Data) (Option Data)

/-- What happens: touches, the answer to a search, and the end of the download
    that answer `k` has started. -/
inductive SearchEvent (Data : Type) where
  | type (t : Text)
  | searchButtonPressed
  | found (i : Nat) (found : Except String (PFUser Data))
  | picture (k : Nat) (error : Option String)

namespace Search

/-- What is on the screen. -/
def scene (s : Search Picture Data) : SearchScene Picture :=
  { s.pool.view () with searchTextfield := s.searchTextfield }

/-- The scene as it is loaded. -/
def opened (kit : ImageKit Picture Data) : Search Picture Data where
  searchTextfield := .empty
  lock := 0
  searching := []
  pool := Pool.opened fun _ => (SearchScene.storyboard kit).viewDidLoad

/-- One effect of a handler.  The downloads are those of the answers. -/
def exec (s : Search Picture Data) : Effect Data → Search Picture Data
  | .beginIgnoringInteractionEvents => { s with lock := s.lock + 1 }
  | .endIgnoringInteractionEvents => { s with lock := s.lock - 1 }
  | .send (.search text) => { s with searching := s.searching ++ [text] }
  | _ => s

/-- The effects of a handler, in order. -/
def perform (s : Search Picture Data) (effects : List (Effect Data)) : Search Picture Data :=
  effects.foldl exec s

/-- What Parse hands to the completion block of a download. -/
def downloaded (file : PFFile Data) : Option String → Option Data
  | none => some file.data
  | some _ => none

/-- What an event does to the views. -/
def act (s : Search Picture Data) :
    SearchEvent Data → Option (Act Unit (Searched Data) (Option Data))
  | .type _ | .searchButtonPressed => none
  | .found i found => s.searching[i]?.map fun text => .dress () ⟨text, found⟩
  | .picture k error => s.pool.uses[k]?.bind fun use =>
      use.subject.picture.map fun file => .reply k (downloaded file error)

/-- The text that an event submits. -/
def submits (s : Search Picture Data) : SearchEvent Data → Option Text
  | .searchButtonPressed => if s.searchTextfield ≠ .empty then some s.searchTextfield else none
  | _ => none

variable (kit : ImageKit Picture Data) (user : PFUser Data)

/-- One event.  Touches wait for the counter to be zero. -/
def step (s : Search Picture Data) (e : SearchEvent Data) : Option (Search Picture Data) :=
  match e with
  | .type t => if s.lock = 0 then some { s with searchTextfield := t } else none
  | .searchButtonPressed =>
      if s.lock = 0 then some (s.perform s.scene.searchButtonPressed) else none
  | .found i found =>
      (s.act e).bind fun a =>
        (s.pool.step (searchViews kit user) a).map fun pool =>
          ({ s with searching := s.searching.eraseIdx i, pool := pool } :
            Search Picture Data).perform (s.scene.searchBlock kit (some user) found).2
  | .picture _ _ =>
      (s.act e).bind fun a =>
        (s.pool.step (searchViews kit user) a).map fun pool => { s with pool := pool }

/-- All searches are answered, and all downloads delivered. -/
structure Settled (s : Search Picture Data) : Prop where
  answered : s.searching = []
  delivered : s.pool.Settled (searchViews kit user)

/-- The texts that a run submits. -/
def submitted (es : List (SearchEvent Data)) : List Text :=
  collect (step kit user) submits (opened kit) es

/-- What a run does to the views. -/
def acts (es : List (SearchEvent Data)) : List (Act Unit (Searched Data) (Option Data)) :=
  collect (step kit user) act (opened kit) es

/-- The search whose image an event brings: one that fails, or one whose
    download is delivered with a picture. -/
def source (s : Search Picture Data) : SearchEvent Data → Option Nat
  | .found _ (.error _) => some s.pool.uses.length
  | .picture k none =>
      match s.pool.uses[k]? with
      | none => none
      | some use => if (use.subject.photo kit).isSome then some k else none
  | _ => none

/-- The searches whose images came, in the order in which they came. -/
def sources (es : List (SearchEvent Data)) : List Nat :=
  collect (step kit user) (source kit) (opened kit) es

/-- The search that the last failed search or delivered download belongs to,
    if there was any, in a history that ends in `s`. -/
def lastSource (es : List (SearchEvent Data)) (s : Search Picture Data) :
    Option (Searched Data) :=
  (sources kit user es).getLast?.bind fun k => s.pool.uses[k]?.map Use.subject

/-- What the image view shows when that search alone was made, and its download
    delivered: the photo of the user that was found, or else the placeholder. -/
def alone : Option (Searched Data) → Option Picture
  | none => kit.named "user"
  | some searched => (searched.photo kit).or (kit.named "user")

/-- The image of a search: the picture of the user it found, as far as it was
    delivered and is one, and the placeholder otherwise. -/
def ownImage (use : Use Unit (Searched Data) (Option Data)) : Option Picture :=
  (use.reply.join.bind kit.decode).or (kit.named "user")

/-- The images came in time: the last failed search or delivered download, if
    there was any, belongs to a search that shows alone what the last one
    does. -/
def Timely (es : List (SearchEvent Data)) (s : Search Picture Data)
    (use : Use Unit (Searched Data) (Option Data)) : Prop :=
  ∀ source, lastSource kit user es s = some source → alone kit (some source) = ownImage kit use

variable {kit user} {s t : Search Picture Data}

/-! ## One event -/

/-- The search button submits the text, or does nothing. -/
theorem perform_pressed (free : s.lock = 0) :
    s.perform s.scene.searchButtonPressed
      = if s.searchTextfield ≠ .empty then
          { s with lock := 1, searching := s.searching ++ [s.searchTextfield] }
        else s := by
  obtain ⟨(htext : s.searchTextfield ≠ .empty), heffects⟩
      | ⟨(htext : s.searchTextfield = .empty), alert, heffects⟩ :=
    s.scene.searchButtonPressed_cases Data
  · rw [heffects, if_pos htext]
    show { s with lock := s.lock + 1, searching := s.searching ++ [s.searchTextfield] } = _
    rw [free]
  · rw [heffects, if_neg (not_not.mpr htext)]
    show { s with lock := s.lock - 1 } = s
    have hlock : s.lock - 1 = s.lock := by rw [free]
    rw [hlock]

/-- The block of a search lowers the counter, whatever was found. -/
theorem perform_block (scene : SearchScene Picture) (found : Except String (PFUser Data)) :
    s.perform (scene.searchBlock kit (some user) found).2 = { s with lock := s.lock - 1 } := by
  cases found with
  | error e => rfl
  | ok found =>
      rw [SearchScene.searchBlock]
      cases found.profilePicture <;> rfl

/-- An event that acts on the views moves them as that act does; any other
    leaves them. -/
theorem drives_pool : Drives (step kit user) (Pool.step (searchViews kit user)) pool act := by
  intro s e t h
  cases e with
  | type text =>
      obtain ⟨-, hsome⟩ := Option.ite_none_right_eq_some.mp h
      obtain rfl := Option.some.inj hsome
      exact Or.inl ⟨rfl, rfl⟩
  | searchButtonPressed =>
      obtain ⟨free, hsome⟩ := Option.ite_none_right_eq_some.mp h
      rw [perform_pressed free] at hsome
      obtain rfl := Option.some.inj hsome
      refine Or.inl ⟨rfl, ?_⟩
      split <;> rfl
  | found i found =>
      obtain ⟨a, ha, hmap⟩ := Option.bind_eq_some_iff.mp h
      obtain ⟨pool, hpool, rfl⟩ := Option.map_eq_some_iff.mp hmap
      refine Or.inr ⟨a, ha, ?_⟩
      rw [perform_block]
      exact hpool
  | picture k error =>
      obtain ⟨a, ha, hmap⟩ := Option.bind_eq_some_iff.mp h
      obtain ⟨pool, hpool, rfl⟩ := Option.map_eq_some_iff.mp hmap
      exact Or.inr ⟨a, ha, hpool⟩

/-- The views of a run are those of a run of the pool. -/
theorem pool_run {es : List (SearchEvent Data)} (h : run (step kit user) (opened kit) es = some t) :
    run (Pool.step (searchViews kit user))
        (Pool.opened fun _ => (SearchScene.storyboard kit).viewDidLoad) (acts kit user es)
      = some t.pool :=
  run_collect drives_pool h

/-- The image that an event brings is the one that its act writes. -/
theorem source_eq {e : SearchEvent Data} (h : s.step kit user e = some t) :
    s.source kit e = (s.act e).bind (Pool.source (searchViews kit user) () s.pool) := by
  cases e with
  | type text => rfl
  | searchButtonPressed => rfl
  | found i found =>
      obtain ⟨a, ha, -⟩ := Option.bind_eq_some_iff.mp h
      rw [ha]
      obtain ⟨text, -, rfl⟩ := Option.map_eq_some_iff.mp ha
      cases found with
      | error e => rfl
      | ok found => rfl
  | picture k error =>
      obtain ⟨a, ha, -⟩ := Option.bind_eq_some_iff.mp h
      rw [ha]
      obtain ⟨use, huse, hreply⟩ := Option.bind_eq_some_iff.mp ha
      obtain ⟨file, hfile, rfl⟩ := Option.map_eq_some_iff.mp hreply
      simp only [Option.bind_some, Pool.source, huse]
      cases error with
      | none =>
          simp only [source, huse]
          refine if_congr ?_ rfl rfl
          rw [Searched.photo, hfile, Option.bind_some]
          show _ ↔ True ∧ ((file.shows kit).map some).isSome
          rw [Option.isSome_map, true_and]
      | some message => exact (if_neg fun hbrings => Bool.false_ne_true hbrings.2).symm

/-- The searches whose images came are those that wrote the image. -/
theorem sources_eq {es : List (SearchEvent Data)}
    (h : run (step kit user) (opened kit) es = some t) :
    Pool.sources (searchViews kit user) (fun _ => (SearchScene.storyboard kit).viewDidLoad)
      (acts kit user es) () = sources kit user es :=
  collect_collect drives_pool (fun _ _ _ => source_eq) h

/-- The reply to a search is what was delivered of its picture. -/
theorem replies_run {es : List (SearchEvent Data)}
    (h : run (step kit user) (opened kit) es = some t) :
    ∀ (k : Nat) use reply, t.pool.uses[k]? = some use → use.reply = some reply →
      ∃ file error, use.subject.picture = some file ∧ reply = downloaded file error := by
  refine run_inv (fun _ t => ∀ (k : Nat) use reply, t.pool.uses[k]? = some use →
    use.reply = some reply →
      ∃ file error, use.subject.picture = some file ∧ reply = downloaded file error) ?_ ?_ h
  · intro k use reply huse
    exact absurd huse.symm (Option.some_ne_none use)
  · intro pre s e u _ hs hu k use reply huse hreply
    rcases drives_pool s e u hu with ⟨-, hpool⟩ | ⟨a, ha, hpool⟩
    · exact hs k use reply (hpool ▸ huse) hreply
    · rcases Pool.replied_step hpool huse hreply with hget | ⟨rfl, asked, hasked, hsubject⟩
      · exact hs k use reply hget hreply
      · cases e with
        | type text => exact absurd ha.symm (Option.some_ne_none _)
        | searchButtonPressed => exact absurd ha.symm (Option.some_ne_none _)
        | found i found =>
            obtain ⟨text, -, hdress⟩ := Option.map_eq_some_iff.mp ha
            cases hdress
        | picture j error =>
            obtain ⟨same, hsame, hreplied⟩ := Option.bind_eq_some_iff.mp ha
            obtain ⟨file, hfile, hact⟩ := Option.map_eq_some_iff.mp hreplied
            injection hact with hj heq
            subst hj
            obtain rfl : asked = same := Option.some.inj (hasked.symm.trans hsame)
            exact ⟨file, error, hsubject ▸ hfile, heq.symm⟩

/-! ## One search at a time -/

/-- The counter counts the searches in flight, of which there is one at most;
    and `texts` were submitted, in this order. -/
structure Orderly (texts : List Text) (s : Search Picture Data) : Prop where
  lock : s.lock = s.searching.length
  single : s.searching.length ≤ 1
  order : s.pool.uses.map (fun use => use.subject.text) ++ s.searching = texts

/-- The search that is answered is the only one in flight. -/
theorem Orderly.answered {texts : List Text} (hs : Orderly texts s) {i : Nat} {text : Text}
    (htext : s.searching[i]? = some text) : i = 0 ∧ s.searching = [text] := by
  obtain ⟨hi, -⟩ := List.getElem?_eq_some_iff.mp htext
  have hi0 : i = 0 := Nat.lt_one_iff.mp (Nat.lt_of_lt_of_le hi hs.single)
  subst hi0
  refine ⟨rfl, ?_⟩
  obtain ⟨other, hother⟩ := List.length_eq_one_iff.mp (le_antisymm hs.single hi)
  rw [hother] at htext ⊢
  exact congrArg (fun x => [x]) (Option.some.inj htext)

theorem orderly_step {texts : List Text} {e : SearchEvent Data} (hs : Orderly texts s)
    (h : s.step kit user e = some t) : Orderly (texts ++ (s.submits e).toList) t := by
  cases e with
  | type text =>
      obtain ⟨-, hsome⟩ := Option.ite_none_right_eq_some.mp h
      obtain rfl := Option.some.inj hsome
      exact ⟨hs.lock, hs.single, hs.order.trans (List.append_nil texts).symm⟩
  | searchButtonPressed =>
      obtain ⟨free, hsome⟩ := Option.ite_none_right_eq_some.mp h
      rw [perform_pressed free] at hsome
      have hnone : s.searching = [] := List.length_eq_zero_iff.mp (hs.lock.symm.trans free)
      rw [submits]
      by_cases htext : s.searchTextfield ≠ .empty
      · rw [if_pos htext] at hsome ⊢
        obtain rfl := Option.some.inj hsome
        refine ⟨?_, ?_, ?_⟩
        · show 1 = (s.searching ++ [s.searchTextfield]).length
          rw [hnone]
          rfl
        · show (s.searching ++ [s.searchTextfield]).length ≤ 1
          rw [hnone]
          exact le_rfl
        · show _ ++ (s.searching ++ [s.searchTextfield]) = _
          rw [← List.append_assoc, hs.order]
          rfl
      · rw [if_neg htext] at hsome ⊢
        obtain rfl := Option.some.inj hsome
        exact ⟨hs.lock, hs.single, hs.order.trans (List.append_nil texts).symm⟩
  | found i found =>
      obtain ⟨a, ha, hmap⟩ := Option.bind_eq_some_iff.mp h
      obtain ⟨text, htext, rfl⟩ := Option.map_eq_some_iff.mp ha
      obtain ⟨pool, hpool, rfl⟩ := Option.map_eq_some_iff.mp hmap
      obtain rfl := Option.some.inj hpool
      obtain ⟨rfl, hone⟩ := hs.answered htext
      rw [perform_block]
      have hlock := hs.lock
      rw [hone, List.length_singleton] at hlock
      refine ⟨?_, ?_, ?_⟩
      · show s.lock - 1 = (s.searching.eraseIdx 0).length
        rw [hone, hlock]
        rfl
      · show (s.searching.eraseIdx 0).length ≤ 1
        rw [hone]
        exact Nat.zero_le 1
      · show (s.pool.uses ++ [_]).map _ ++ s.searching.eraseIdx 0 = texts ++ []
        rw [← hs.order, hone, List.map_append, List.append_nil]
        exact List.append_nil _
  | picture k error =>
      obtain ⟨a, ha, hmap⟩ := Option.bind_eq_some_iff.mp h
      obtain ⟨use, huse, hreply⟩ := Option.bind_eq_some_iff.mp ha
      obtain ⟨file, hfile, rfl⟩ := Option.map_eq_some_iff.mp hreply
      obtain ⟨pool, hpool, rfl⟩ := Option.map_eq_some_iff.mp hmap
      obtain ⟨asked, hget, -, -, rfl⟩ := Pool.reply_cases hpool
      refine ⟨hs.lock, hs.single, ?_⟩
      have hsame := congrArg (List.map Searched.text)
        (Pool.subjects_reply hget (downloaded file error))
      rw [List.map_map, List.map_map] at hsame
      exact (congrArg (· ++ s.searching) hsame).trans
        (hs.order.trans (List.append_nil texts).symm)

/-- **ONE SEARCH AT A TIME**: searches are answered in the order in which they
    were made. -/
theorem orderly_run {es : List (SearchEvent Data)}
    (h : run (step kit user) (opened kit) es = some t) : Orderly (submitted kit user es) t := by
  refine run_inv (fun es t => Orderly (submitted kit user es) t) ?_ ?_ h
  · exact ⟨rfl, Nat.zero_le 1, rfl⟩
  · intro pre s e u hpre hs hu
    rw [submitted, collect_concat _ hpre hu]
    exact orderly_step hs hu

/-- The last search that was answered is the last one that was made. -/
theorem last_submitted {es : List (SearchEvent Data)}
    (h : run (step kit user) (opened kit) es = some t) (hanswered : t.searching = [])
    {use : Use Unit (Searched Data) (Option Data)} (hlast : t.pool.last () = some use) :
    (submitted kit user es).getLast? = some use.subject.text := by
  have horder := (orderly_run h).order
  rw [hanswered, List.append_nil] at horder
  rw [← horder, List.getLast?_map]
  have hall : (t.pool.uses.filter fun use => use.cell = ()) = t.pool.uses :=
    List.filter_eq_self.mpr fun use _ => decide_eq_true rfl
  rw [Pool.last, hall] at hlast
  rw [hlast]
  rfl

/-! ## What is shown -/

/-- **TEXTS**: the name, the note and the button belong to the last search. -/
theorem texts_run {es : List (SearchEvent Data)}
    (h : run (step kit user) (opened kit) es = some t)
    {use : Use Unit (Searched Data) (Option Data)} (hlast : t.pool.last () = some use) :
    t.scene.shown.1 = use.subject.texts user := by
  refine Pool.worn_run (fun scene : SearchScene Picture => scene.shown.1)
    (Searched.texts user) ?_ ?_ (pool_run h) hlast
  · intro searched scene
    exact searched.searchBlock_texts kit user scene
  · intro image scene
    show (scene.searchPictureBlock kit image).shown.1 = _
    rw [SearchScene.searchPictureBlock]
    cases image.bind kit.decode <;> rfl

/-- What a use gives to the image view is what it alone shows there. -/
theorem gives_alone {es : List (SearchEvent Data)}
    (h : run (step kit user) (opened kit) es = some t) {k : Nat}
    {use : Use Unit (Searched Data) (Option Data)} (huse : t.pool.uses[k]? = some use)
    {image : Option Picture} (hgives : (searchViews kit user).gives use = some image) :
    image = alone kit (some use.subject) := by
  rw [Design.gives] at hgives
  rw [alone]
  rcases Option.or_eq_some_iff.mp hgives with hbrings | ⟨-, hsets⟩
  · obtain ⟨reply, hreply, hbrought⟩ := Option.bind_eq_some_iff.mp hbrings
    obtain ⟨file, error, hfile, rfl⟩ := replies_run h k use reply huse hreply
    cases error with
    | some message => exact absurd hbrought.symm (Option.some_ne_none image)
    | none =>
        obtain ⟨photo, hphoto, rfl⟩ := Option.map_eq_some_iff.mp hbrought
        have hshows : file.shows kit = some photo := hphoto
        rw [Searched.photo, hfile, Option.bind_some, hshows]
        rfl
  · -- only a search that fails sets the image
    obtain ⟨cell, ⟨text, found⟩, reply⟩ := use
    cases found with
    | ok found => exact absurd hsets.symm (Option.some_ne_none image)
    | error e => exact (Option.some.inj hsets).symm

/-- **IMAGE**: the image is that of the search which the last failed search or
    delivered download belongs to. -/
theorem picture_run {es : List (SearchEvent Data)}
    (h : run (step kit user) (opened kit) es = some t) :
    t.scene.profilePicture = alone kit (lastSource kit user es t) := by
  have hfrom := Pool.source_run (pool_run h) ()
  rw [sources_eq h] at hfrom
  rw [lastSource]
  cases hlast : (sources kit user es).getLast? with
  | none =>
      rw [hlast] at hfrom
      exact hfrom
  | some k =>
      rw [hlast] at hfrom
      obtain ⟨use, huse, -, hgives⟩ := hfrom
      rw [Option.bind_some, huse]
      exact gives_alone h huse hgives

/-- When no image has come, that of a search is the placeholder. -/
theorem ownImage_of_none {es : List (SearchEvent Data)}
    (h : run (step kit user) (opened kit) es = some t)
    {use : Use Unit (Searched Data) (Option Data)} (huse : use ∈ t.pool.uses)
    (hnone : sources kit user es = []) : ownImage kit use = kit.named "user" := by
  rw [ownImage]
  cases hphoto : use.reply.join.bind kit.decode with
  | none => rfl
  | some photo =>
      obtain ⟨data, hdata, hdecode⟩ := Option.bind_eq_some_iff.mp hphoto
      obtain ⟨k, hk⟩ := List.mem_iff_getElem?.mp huse
      have hgives : ((searchViews kit user).gives use).isSome := by
        rw [Design.gives, Option.join_eq_some_iff.mp hdata]
        show ((((some data).bind kit.decode).map some).or _).isSome
        rw [Option.bind_some, hdecode]
        rfl
      have hsource := Pool.gives_source (pool_run h) hk hgives
      rw [sources_eq h, hnone] at hsource
      exact absurd hsource List.not_mem_nil

/-- The image is that of the last search exactly when the images came in
    time. -/
theorem ownImage_iff {es : List (SearchEvent Data)}
    (h : run (step kit user) (opened kit) es = some t)
    {use : Use Unit (Searched Data) (Option Data)} (huse : use ∈ t.pool.uses) :
    t.scene.profilePicture = ownImage kit use ↔ Timely kit user es t use := by
  rw [picture_run h]
  cases hlast : lastSource kit user es t with
  | some source =>
      constructor
      · intro hown other hother
        rw [← hother, hlast]
        exact hown
      · intro htimely
        exact htimely source hlast
  | none =>
      -- every source is a search of the history
      have hnone : sources kit user es = [] := by
        refine List.getLast?_eq_none_iff.mp ?_
        cases hk : (sources kit user es).getLast? with
        | none => rfl
        | some k =>
            have hfrom := Pool.source_run (pool_run h) ()
            rw [sources_eq h, hk] at hfrom
            obtain ⟨other, hother, -⟩ := hfrom
            rw [lastSource, hk, Option.bind_some, hother] at hlast
            exact absurd hlast (Option.some_ne_none _)
      refine iff_of_true (ownImage_of_none h huse hnone).symm ?_
      intro source hsource
      exact absurd (hlast.symm.trans hsource).symm (Option.some_ne_none source)

/-- **THE LAST SEARCH, EXACTLY WHEN**: two histories that end with the same
    search and its same outcome show the same name, note and button.  They show
    the same picture exactly when the searches that the last failed search or
    delivered download of each belongs to have the same picture; and what is
    shown belongs to the last search exactly when the images came in time. -/
theorem last_search_iff (kit : ImageKit Picture Data) (user : PFUser Data)
    {es fs : List (SearchEvent Data)} {s t : Search Picture Data}
    (hs : run (step kit user) (opened kit) es = some s)
    (ht : run (step kit user) (opened kit) fs = some t)
    (hsettled : s.Settled kit user) (htsettled : t.Settled kit user)
    {use other : Use Unit (Searched Data) (Option Data)}
    (hslast : s.pool.last () = some use) (htlast : t.pool.last () = some other)
    (hsame : use.subject = other.subject) :
    (submitted kit user es).getLast? = some use.subject.text
    ∧ (submitted kit user fs).getLast? = some other.subject.text
    ∧ s.scene.shown.1 = t.scene.shown.1
    ∧ (s.scene.shown = t.scene.shown
      ↔ alone kit (lastSource kit user es s) = alone kit (lastSource kit user fs t))
    ∧ (s.scene.shown = (use.subject.texts user, ownImage kit use)
      ↔ Timely kit user es s use) := by
  have htexts : s.scene.shown.1 = t.scene.shown.1 := by
    rw [texts_run hs hslast, texts_run ht htlast, hsame]
  refine ⟨last_submitted hs hsettled.answered hslast,
    last_submitted ht htsettled.answered htlast, htexts, ?_, ?_⟩
  · rw [Prod.ext_iff, ← picture_run hs, ← picture_run ht]
    exact and_iff_right htexts
  · rw [Prod.ext_iff, ← ownImage_iff hs (Pool.last_mem hslast).1]
    exact and_iff_right (texts_run hs hslast)

end Search

/-! ## Two histories -/

/-- The user who searches; one with a picture, and one without. -/
def searcher : PFUser Nat := ⟨.literal "s", .literal "searcher", .literal "s@fp", none⟩

@[inherit_doc searcher]
def pictured : PFUser Nat :=
  ⟨.literal "p", .literal "pictured", .literal "p@fp", some ⟨"profilePic.png", 8⟩⟩

@[inherit_doc searcher]
def plain : PFUser Nat := ⟨.literal "q", .literal "plain", .literal "q@fp", none⟩

/-- A search for `name` and its answer. -/
def searchFor (name : String) (found : Except String (PFUser Nat)) : List (SearchEvent Nat) :=
  [.type (.literal name), .searchButtonPressed, .found 0 found]

/-- The user with the picture is found first, and the picture is delivered. -/
def afterPictured (es : List (SearchEvent Nat)) : List (SearchEvent Nat) :=
  searchFor "pictured" (.ok pictured) ++ [.picture 0 none] ++ es

/-- A search that fails shows the same with and without the earlier one, whose
    picture was delivered. -/
theorem last_search_iff_notFound :
    ∃ s t, run (Search.step numberKit searcher) (Search.opened numberKit)
        (afterPictured (searchFor "nobody" (.error "no results matched"))) = some s
      ∧ run (Search.step numberKit searcher) (Search.opened numberKit)
        (searchFor "nobody" (.error "no results matched")) = some t
      ∧ s.scene.shown = t.scene.shown := by
  obtain ⟨s, t, use, hs, ht, hsnone, htnone, hsall, htall, hslast, htlast, hsource, htsource⟩ :
      ∃ s t use, run (Search.step numberKit searcher) (Search.opened numberKit)
          (afterPictured (searchFor "nobody" (.error "no results matched"))) = some s
        ∧ run (Search.step numberKit searcher) (Search.opened numberKit)
          (searchFor "nobody" (.error "no results matched")) = some t
        ∧ s.searching = [] ∧ t.searching = []
        ∧ s.pool.Settled (searchViews numberKit searcher)
        ∧ t.pool.Settled (searchViews numberKit searcher)
        ∧ s.pool.last () = some use ∧ t.pool.last () = some use
        ∧ Search.lastSource numberKit searcher
            (afterPictured (searchFor "nobody" (.error "no results matched"))) s
          = some ⟨.literal "nobody", .error "no results matched"⟩
        ∧ Search.lastSource numberKit searcher
            (searchFor "nobody" (.error "no results matched")) t
          = some ⟨.literal "nobody", .error "no results matched"⟩ := by
    exact ⟨_, _, _, rfl, rfl, rfl, rfl, Pool.settled_of_all rfl, Pool.settled_of_all rfl,
      rfl, rfl, rfl, rfl⟩
  obtain ⟨-, -, -, hshown, -⟩ :=
    Search.last_search_iff numberKit searcher hs ht ⟨hsnone, hsall⟩ ⟨htnone, htall⟩ hslast htlast
      rfl
  refine ⟨s, t, hs, ht, hshown.mpr ?_⟩
  rw [hsource, htsource]

/-- After the user with the picture, the one without is shown with it. -/
theorem stale_picture_after_search :
    ∃ s t use, run (Search.step numberKit searcher) (Search.opened numberKit)
        (afterPictured (searchFor "plain" (.ok plain))) = some s
      ∧ run (Search.step numberKit searcher) (Search.opened numberKit)
        (searchFor "plain" (.ok plain)) = some t
      ∧ s.Settled numberKit searcher ∧ t.Settled numberKit searcher
      ∧ s.pool.last () = some use ∧ t.pool.last () = some use
      ∧ s.scene.username = .literal "plain" ∧ s.scene.profilePicture = some 8
      ∧ t.scene.profilePicture = some 1 ∧ s.scene.shown ≠ t.scene.shown := by
  refine ⟨_, _, _, rfl, rfl, ⟨rfl, Pool.settled_of_all rfl⟩, ⟨rfl, Pool.settled_of_all rfl⟩, rfl,
    rfl, rfl, rfl, rfl, ?_⟩
  intro hshown
  have himage : (some 8 : Option Nat) = some 1 := congrArg Prod.snd hshown
  exact absurd himage (by decide)

end FPSearch

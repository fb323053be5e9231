import FPApp.ListingProofs

/-! # Posts written are posts read

    `PostScene.post` is the only writer of the class `Post`; `Feed` and `User`
    read it through string keys and forced casts.  Parse answers a query from
    the posts it has saved at some moment: those that match, newest first, cut
    to the query's limit.

    * `Posted` — a press of Share that Parse saved, with `Posted.object` for
      its record and `Posted.row` for what was written;
    * `Online` — the saved posts and a listing that reads them;
    * `posts_written_are_read` — no answer makes a screen trap, every row that
      UIKit counts is in range, and it shows one post, as it was written. -/

namespace FPLists

open FPParse FPScreens EventRun

variable {Screen Picture Data : Type}

/-- A press of Share that Parse saved: who pressed it, the form at the press,
    its PNG, and the date that Parse gave to the record. -/
structure Posted (Picture Data : Type) where
  author : PFUser Data
  scene : PostScene Picture
  imageData : Data
  createdAt : Date
deriving DecidableEq

namespace Posted

/-- The saved record. -/
def object (post : Posted Picture Data) : PFObject Data :=
  { PostScene.newPost post.author post.scene post.imageData with
    createdAt := some post.createdAt }

/-- The image that was written. -/
def file (post : Posted Picture Data) : PFFile Data := ⟨"image.png", post.imageData⟩

/-- What was written, as a row of `Feed`. -/
def row (post : Posted Picture Data) : FeedRow Data where
  postTitle := post.scene.postTitle
  postComment := post.scene.postComments
  picture := post.file
  date := post.createdAt

theorem imageFile_object (post : Posted Picture Data) :
    imageFile post.object = some post.file := by
  simp [imageFile, object, PostScene.newPost, file, Value.asFile]

theorem title_object (post : Posted Picture Data) :
    title post.object = some post.scene.postTitle := by
  simp [title, object, PostScene.newPost, Value.asString]

/-- The comments are written even when they are empty. -/
theorem comments_object (post : Posted Picture Data) :
    comments post.object = some post.scene.postComments := by
  simp [comments, object, PostScene.newPost, Value.asString]

theorem toUser_object (post : Posted Picture Data) :
    (post.object.value "toUser").bind Value.asUser = some post.author.objectId := by
  simp [object, PostScene.newPost, Value.asUser]

theorem className_object (post : Posted Picture Data) : post.object.className = "Post" := rfl

/-- Every forced cast of a saved record succeeds. -/
theorem readable_object (post : Posted Picture Data) : Feed.Readable post.object := by
  refine ⟨?_, ?_, ?_, rfl⟩
  · rw [imageFile_object]
    rfl
  · rw [title_object]
    rfl
  · rw [comments_object]
    rfl

/-- An array that holds a forced value of every record. -/
theorem array_eq {α : Type} {posts : List (Posted Picture Data)} {array : List α}
    {f : PFObject Data → Option α} {g : Posted Picture Data → α}
    (hf : ∀ post : Posted Picture Data, f post.object = some (g post))
    (h : (posts.map Posted.object).map f = array.map some) : array = posts.map g := by
  have hcomp : (f ∘ Posted.object : Posted Picture Data → Option α) = some ∘ g := funext hf
  rw [List.map_map, hcomp, ← List.map_map] at h
  exact (List.map_injective_iff.mpr (fun _ _ => Option.some.inj) h).symm

section

variable [DecidableEq Picture] {kit : ImageKit Picture Data}

/-- The press handed this record to `saveInBackground`. -/
def Sent (kit : ImageKit Picture Data) (post : Posted Picture Data) : Prop :=
  .send (.savePost (PostScene.newPost post.author post.scene post.imageData))
    ∈ post.scene.post kit (some post.author)

/-- A press hands a record over exactly when the form passes and has a PNG. -/
theorem sent_iff (post : Posted Picture Data) :
    post.Sent kit ↔ post.scene.Valid kit ∧ post.scene.imageData kit = some post.imageData := by
  rw [Sent]
  rcases PostScene.post_cases kit (some post.author) post.scene
    with ⟨hnot, alert, heq⟩ | ⟨-, hnone, -⟩ | ⟨-, -, hpng, heq⟩
      | ⟨hvalid, user, image, huser, hpng, heq⟩
  · rw [heq]
    refine iff_of_false ?_ fun h => hnot h.1
    simp
  · exact absurd hnone (Option.some_ne_none post.author)
  · rw [hpng]
    refine iff_of_false ?_ fun h => absurd h.2.symm (Option.some_ne_none post.imageData)
    rcases heq with heq | heq <;> rw [heq] <;> simp
  · obtain rfl : post.author = user := Option.some.inj huser
    rw [heq, hpng]
    constructor
    · intro hmem
      refine ⟨hvalid, ?_⟩
      have hsame : PostScene.newPost post.author post.scene post.imageData
          = PostScene.newPost post.author post.scene image := by
        simpa using hmem
      -- the record determines the PNG it was made of
      have hfile := congrArg imageFile hsame
      simpa [imageFile, PostScene.newPost, Value.asFile] using hfile.symm
    · rintro ⟨-, himage⟩
      rw [Option.some.inj himage]
      simp

instance [DecidableEq Data] (kit : ImageKit Picture Data) (post : Posted Picture Data) :
    Decidable (post.Sent kit) :=
  decidable_of_iff _ (sent_iff post).symm

end

end Posted

/-! ## Parse -/

/-- The record matches a query of the class `Post`, for the posts of `toUser`
    if it names one. -/
def selects : Option Text → PFObject Data → Bool
  | none, post => post.className = "Post"
  | some objectId, post =>
      post.className = "Post" ∧ (post.value "toUser").bind Value.asUser = some objectId

/-- A query that names nobody matches every post. -/
theorem selects_none (post : Posted Picture Data) : selects none post.object = true :=
  decide_eq_true post.className_object

/-- A query that names a user matches exactly the posts that user wrote. -/
theorem selects_some (objectId : Text) (post : Posted Picture Data) :
    selects (some objectId) post.object = decide (post.author.objectId = objectId) := by
  refine decide_eq_decide.mpr ?_
  rw [post.toUser_object]
  exact (and_iff_right post.className_object).trans Option.some_inj

/-- The posts of `matching`, newest first. -/
def Newest (matching newest : List (Posted Picture Data)) : Prop :=
  newest.Perm matching
    ∧ newest.Pairwise fun p q => q.createdAt.milliseconds ≤ p.createdAt.milliseconds

instance [DecidableEq Picture] [DecidableEq Data] (matching newest : List (Posted Picture Data)) :
    Decidable (Newest matching newest) :=
  inferInstanceAs (Decidable (_ ∧ _))

/-- A successful answer: the limit of its query, the posts that were saved
    when Parse evaluated it, and those that match, newest first. -/
structure Answer (Picture Data : Type) where
  limit : Nat
  snapshot : List (Posted Picture Data)
  newest : List (Posted Picture Data)

/-- What the answer carries. -/
def Answer.posts (answer : Answer Picture Data) : List (Posted Picture Data) :=
  answer.newest.take answer.limit

/-- The posts saved by anybody, in the order of saving, and one listing, with
    the last successful answer it received. -/
structure Online (Screen Picture Data : Type) where
  saved : List (Posted Picture Data)
  list : Listing Screen Data
  last : Answer Picture Data

/-- What happens: somebody's post is saved; the reader scrolls or pulls to
    refresh; UIKit asks for a cell; query `i` is answered with what matched
    among the first `saved` posts, or fails. -/
inductive OnlineEvent (Picture Data : Type) where
  | save (post : Posted Picture Data)
  | scroll (contentOffset contentHeight frameHeight : Int)
  | refreseh
  | cell (row : Nat)
  | found (i saved : Nat) (newest : List (Posted Picture Data))
  | failed (i : Nat) (localizedDescription : String)

namespace Online

variable {list : ListScreen Screen Data}

/-- A screen is opened; nothing was answered yet. -/
def opened (list : ListScreen Screen Data) : Online Screen Picture Data where
  saved := []
  list := Listing.opened list
  last := ⟨0, [], []⟩

section

variable [DecidableEq Picture] [DecidableEq Data]

/-- One event. -/
def step (kit : ImageKit Picture Data) (list : ListScreen Screen Data)
    (s : Online Screen Picture Data) :
    OnlineEvent Picture Data → Option (Online Screen Picture Data)
  | .save post => if post.Sent kit then some { s with saved := s.saved ++ [post] } else none
  | .scroll contentOffset contentHeight frameHeight =>
      (s.list.step list (.scroll contentOffset contentHeight frameHeight)).map
        fun moved => { s with list := moved }
  | .refreseh => (s.list.step list .refreseh).map fun moved => { s with list := moved }
  | .cell row => (s.list.step list (.cell row)).map fun moved => { s with list := moved }
  | .found i saved newest =>
      match s.list.queries[i]? with
      | some (.posts toUser limit) =>
          if Newest ((s.saved.take saved).filter fun post => selects toUser post.object) newest then
            (s.list.step list (.complete i (.ok ((newest.take limit).map Posted.object)))).map
              fun moved => { s with list := moved, last := ⟨limit, s.saved.take saved, newest⟩ }
          else none
      | _ => none
  | .failed i e =>
      (s.list.step list (.complete i (.error e))).map fun moved => { s with list := moved }

end

/-- What was written is what is read: the posts came from presses of Share, and
    the records of the last successful answer are those of its posts. -/
structure Written [DecidableEq Picture] (kit : ImageKit Picture Data) (paged : Paged list)
    (s : Online Screen Picture Data) : Prop where
  lists : Listing.Lists paged s.list
  sent : ∀ post ∈ s.saved, post.Sent kit
  snapshot : s.last.snapshot <+: s.saved
  newest : Newest (s.last.snapshot.filter fun post => selects paged.toUser post.object)
    s.last.newest
  response : s.list.response = s.last.posts.map Posted.object

variable {paged : Paged list} {s t : Online Screen Picture Data}

section

variable [DecidableEq Picture] {kit : ImageKit Picture Data}

theorem written_opened (kit : ImageKit Picture Data) (paged : Paged list) :
    Written kit paged (opened list) := by
  refine ⟨Listing.lists_opened paged, ?_, List.nil_prefix, ⟨.nil, .nil⟩, ?_⟩
  · exact fun post hpost => absurd hpost List.not_mem_nil
  · show (Listing.opened list).response = []
    rw [Listing.opened_eq paged]

/-- An event that brings no successful answer leaves what was read. -/
theorem Written.moved {e : ListEvent Data} {moved : Listing Screen Data}
    (hs : Written kit paged s) (hnone : ∀ i posts, e ≠ .complete i (.ok posts))
    (h : s.list.step list e = some moved) : Written kit paged { s with list := moved } := by
  have hread : Listing.Reads paged e := by
    cases e with
    | complete i found =>
        cases found with
        | ok posts => exact absurd rfl (hnone i posts)
        | error e => trivial
    | _ => trivial
  obtain ⟨hlists, hpager⟩ := Listing.listing_step hs.lists hread h
  refine ⟨hlists, hs.sent, hs.snapshot, hs.newest, ?_⟩
  refine Eq.trans (Paging.Pager.shown_step ?_ hpager) hs.response
  intro i posts haction
  cases e with
  | scroll offset height frame =>
      rw [ListEvent.action] at haction
      split at haction <;> cases haction
  | refreseh => cases haction
  | cell row => cases haction
  | complete j found =>
      cases found with
      | ok posts => exact hnone j posts rfl
      | error e => cases haction

/-- UIKit counts as many rows as there are posts in the last successful
    answer. -/
theorem Written.rows (hs : Written kit paged s) : s.list.rows = s.last.posts.length := by
  rw [hs.lists.rows, hs.response, List.length_map]

/-- The row is in range of the four arrays. -/
structure InRange (screen : Feed Data) (row : Nat) : Prop where
  picture : row < screen.pictureArray.length
  title : row < screen.postTitleArray.length
  comment : row < screen.postCommentArray.length
  date : row < screen.dateArray.length

/-- Every row that UIKit counts is in range, and shows one post of the last
    successful answer. -/
theorem feed_row {s : Online (Feed Data) Picture Data} (hs : Written kit feedPaged s)
    {row : Nat} (hrow : row < s.list.rows) :
    InRange s.list.screen row
      ∧ ∃ post, s.last.posts[row]? = some post
        ∧ s.list.screen.cellForRowAt row = some post.row := by
  obtain ⟨hpictures, htitles, hcomments, hdates⟩ := Feed.Shows.lengths hs.lists.shows
  rw [hs.lists.rows] at hrow
  refine ⟨⟨hpictures ▸ hrow, htitles ▸ hrow, hcomments ▸ hrow, hdates ▸ hrow⟩, ?_⟩
  rw [hs.response, List.length_map] at hrow
  refine ⟨s.last.posts[row], List.getElem?_eq_getElem hrow, ?_⟩
  have hobject : s.list.response[row]? = some s.last.posts[row].object := by
    rw [hs.response, List.getElem?_map, List.getElem?_eq_getElem hrow]
    rfl
  exact Feed.cellForRowAt_shows hs.lists.shows hobject (Posted.imageFile_object _)
    (Posted.title_object _) (Posted.comments_object _) rfl

/-- `User` holds the files of the last successful answer. -/
theorem user_files {user : PFUser Data} {s : Online (User Data) Picture Data}
    (hs : Written kit (userPaged user) s) :
    s.list.screen.pictureArray = s.last.posts.map Posted.file := by
  have hshows : s.list.response.map imageFile = s.list.screen.pictureArray.map some :=
    hs.lists.shows
  rw [hs.response] at hshows
  exact Posted.array_eq Posted.imageFile_object hshows

/-- An item of `User` that UIKit counts shows the image of one post. -/
theorem user_cell {user : PFUser Data} {s : Online (User Data) Picture Data}
    (hs : Written kit (userPaged user) s) {row : Nat} (hrow : row < s.list.rows) :
    ∃ post, s.last.posts[row]? = some post
      ∧ s.list.screen.cellForItemAt row = some post.file := by
  rw [hs.rows] at hrow
  have hpost := List.getElem?_eq_getElem hrow
  refine ⟨s.last.posts[row], hpost, ?_⟩
  rw [User.cellForItemAt, user_files hs, List.getElem?_map, hpost]
  rfl

variable [DecidableEq Data]

/-- **WRITTEN STEP**: what was written stays what is read. -/
theorem written_step {e : OnlineEvent Picture Data}
    (hreadable : ∀ post : Posted Picture Data, paged.Readable post.object)
    (hs : Written kit paged s) (h : s.step kit list e = some t) : Written kit paged t := by
  cases e with
  | save post =>
      obtain ⟨hsent, hsame⟩ := Option.ite_none_right_eq_some.mp h
      obtain rfl := Option.some.inj hsame
      refine ⟨hs.lists, ?_, hs.snapshot.trans (List.prefix_append s.saved [post]), hs.newest,
        hs.response⟩
      intro p hp
      rcases List.mem_append.mp hp with hold | hnew
      · exact hs.sent p hold
      · rw [List.mem_singleton.mp hnew]
        exact hsent
  | scroll offset height frame =>
      obtain ⟨moved, hmoved, rfl⟩ := Option.map_eq_some_iff.mp h
      exact hs.moved (fun i posts heq => by cases heq) hmoved
  | refreseh =>
      obtain ⟨moved, hmoved, rfl⟩ := Option.map_eq_some_iff.mp h
      exact hs.moved (fun i posts heq => by cases heq) hmoved
  | cell row =>
      obtain ⟨moved, hmoved, rfl⟩ := Option.map_eq_some_iff.mp h
      exact hs.moved (fun i posts heq => by cases heq) hmoved
  | failed i message =>
      obtain ⟨moved, hmoved, rfl⟩ := Option.map_eq_some_iff.mp h
      exact hs.moved (fun i posts heq => by cases heq) hmoved
  | found i saved newest =>
      rw [step] at h
      cases hget : s.list.queries[i]? with
      | none =>
          rw [hget] at h
          exact absurd h.symm (Option.some_ne_none t)
      | some q =>
          -- all queries in flight are for the screen's posts
          obtain ⟨limit, rfl⟩ := hs.lists.asks q (List.mem_of_getElem? hget)
          rw [hget] at h
          obtain ⟨hnewest, hcomplete⟩ := Option.ite_none_right_eq_some.mp h
          obtain ⟨moved, hmoved, rfl⟩ := Option.map_eq_some_iff.mp hcomplete
          have hread : Listing.Reads paged
              (.complete i (.ok ((newest.take limit).map Posted.object))) := by
            intro object hobject
            obtain ⟨post, -, rfl⟩ := List.mem_map.mp hobject
            exact hreadable post
          obtain ⟨hlists, hpager⟩ := Listing.listing_step hs.lists hread hmoved
          obtain ⟨-, -, hshown⟩ := Paging.Pager.answer_cases hpager
          refine ⟨hlists, hs.sent, List.take_prefix saved s.saved, hnewest, ?_⟩
          exact congrArg Paging.Pager.shown hshown

/-- Along every run. -/
theorem written_visits (hreadable : ∀ post : Posted Picture Data, paged.Readable post.object)
    {es pre : List (OnlineEvent Picture Data)}
    (h : Visits (step kit list) (opened list) es pre t) : Written kit paged t := by
  refine visits_always (Written kit paged) (written_opened kit paged) ?_ pre t h
  intro s e u hs hu
  exact written_step hreadable hs hu

/-- **POSTS WRITTEN ARE POSTS READ**: whatever is posted, and in every order of
    answers, failures, scrolls, refreshes and cells, no screen traps; every row
    of `Feed` that UIKit counts is in range and shows, as it was written, the
    post at its place among the newest of the last successful answer; and
    `User` holds exactly the images that the signed-in user posted, newest
    first, cut to the limit. -/
theorem posts_written_are_read (kit : ImageKit Picture Data) (user : PFUser Data)
    (es : List (OnlineEvent Picture Data)) :
    (∀ pre t, Visits (step kit feed) (opened feed) es pre t →
      t.list.trapped = none ∧ (∀ post ∈ t.saved, post.Sent kit)
      ∧ t.last.snapshot <+: t.saved ∧ Newest t.last.snapshot t.last.newest
      ∧ t.list.rows = t.last.posts.length
      ∧ ∀ row < t.list.rows, InRange t.list.screen row
        ∧ ∃ post, t.last.posts[row]? = some post
          ∧ t.list.screen.cellForRowAt row = some post.row)
    ∧ (∀ pre t, Visits (step kit (userScreen user)) (opened (userScreen user)) es pre t →
      t.list.trapped = none ∧ (∀ post ∈ t.saved, post.Sent kit)
      ∧ t.last.snapshot <+: t.saved
      ∧ Newest (t.last.snapshot.filter fun post => post.author.objectId = user.objectId)
          t.last.newest
      ∧ t.list.rows = t.last.posts.length
      ∧ t.list.screen.pictureArray = t.last.posts.map Posted.file
      ∧ ∀ row < t.list.rows, ∃ post, t.last.posts[row]? = some post
        ∧ t.list.screen.cellForItemAt row = some post.file) := by
  constructor
  · intro pre t ht
    have hs : Written kit feedPaged t := written_visits Posted.readable_object ht
    refine ⟨hs.lists.alive, hs.sent, hs.snapshot, ?_, hs.rows, fun row hrow => feed_row hs hrow⟩
    have hnewest : Newest (t.last.snapshot.filter fun post => selects none post.object)
        t.last.newest := hs.newest
    rwa [List.filter_eq_self.mpr fun post _ => selects_none post] at hnewest
  · intro pre t ht
    have hs : Written kit (userPaged user) t := by
      refine written_visits ?_ ht
      exact fun post => (Posted.readable_object post).picture
    refine ⟨hs.lists.alive, hs.sent, hs.snapshot, ?_, hs.rows, user_files hs,
      fun row hrow => user_cell hs hrow⟩
    have hnewest : Newest
        (t.last.snapshot.filter fun post => selects (some user.objectId) post.object)
        t.last.newest := hs.newest
    rwa [List.filter_congr fun post _ => selects_some user.objectId post] at hnewest

end

end Online

end FPLists

import FPApp.ScreenProofs

/-! # Feed

    The list of everybody's posts.  The completion block of `loadPosts` takes
    every record apart into four parallel arrays, with a forced cast for each
    value, and `cellForRowAt` puts a row together again from the four.

    * `Feed.Shows` — the four arrays hold the same records, in the same order;
    * `append_shows` — one round of the block's loop keeps them so;
    * `loadPosts_shows` — the block shows the records it is given, as long as
      each has the four values;
    * `cellForRowAt_shows` — a row is put together from one record. -/

namespace FPScreens

open FPParse

variable {Data : Type}

/-! ## What the screens read of a post -/

/-- `value(forKey: "imageFile") as? PFFile`. -/
def imageFile (post : PFObject Data) : Option (PFFile Data) :=
  (post.value "imageFile").bind Value.asFile

/-- `value(forKey: "title") as? String`. -/
def title (post : PFObject Data) : Option Text := (post.value "title").bind Value.asString

/-- `value(forKey: "comments") as? String`. -/
def comments (post : PFObject Data) : Option Text := (post.value "comments").bind Value.asString

/-- The forced form of an expression: its value, or the end of the process. -/
def forced {α : Type} (trap : Trap) : Option α → Except Trap α
  | some value => .ok value
  | none => .error trap

/-! ## The screen -/

/-- What `cellForRowAt` gives to a `FeedCell`: two labels, the file whose data
    it asks for, and the date whose age it shows. -/
structure FeedRow (Data : Type) where
  postTitle : Text
  postComment : Text
  picture : PFFile Data
  date : Date
deriving DecidableEq, Repr

/-- `Feed`: the page limit, the four arrays, and whether the activity
    indicator is animated. -/
structure Feed (Data : Type) where
  post : Nat
  pictureArray : List (PFFile Data)
  postTitleArray : List Text
  postCommentArray : List Text
  dateArray : List (Option Date)
  indicator : Bool

namespace Feed

/-- A new `Feed`. -/
def initial : Feed Data where
  post := 5
  pictureArray := []
  postTitleArray := []
  postCommentArray := []
  dateArray := []
  indicator := false

/-- `loadPosts`. -/
def loadPosts (screen : Feed Data) : List (Effect Data) :=
  [.send (.posts none screen.post)]

/-- The four arrays are emptied. -/
def removeAll (screen : Feed Data) : Feed Data :=
  { screen with pictureArray := [], postTitleArray := [], postCommentArray := [],
                dateArray := [] }

/-- One round of the loop in `loadPosts`' block. -/
def append (screen : Feed Data) (post : PFObject Data) : Except Trap (Feed Data) := do
  -- in the order of the source: the first that fails ends the process
  let picture ← forced .imageFile (imageFile post)
  let postTitle ← forced .title (title post)
  let postComment ← forced .comments (comments post)
  let date ← forced .createdAt post.createdAt
  return { screen with pictureArray := screen.pictureArray ++ [picture],
                       postTitleArray := screen.postTitleArray ++ [postTitle],
                       postCommentArray := screen.postCommentArray ++ [postComment],
                       dateArray := screen.dateArray ++ [some date] }

/-- The completion block of `loadPosts`. -/
def loadPostsBlock (screen : Feed Data) (found : Except String (List (PFObject Data))) :
    Feed Data × List (Effect Data) :=
  match found with
  | .ok posts =>
      match posts.foldlM append screen.removeAll with
      | .ok loaded => ({ loaded with indicator := false }, [.reloadData])
      -- the arrays of a process that has ended are not read again
      | .error trap => (screen, [.trap trap])
  | .error e => ({ screen with indicator := false }, [.present ⟨"Error", e⟩, .reloadData])

/-- `loadMore`. -/
def loadMore (screen : Feed Data) : Feed Data × List (Effect Data) :=
  if screen.post ≤ screen.pictureArray.length then
    let more := { screen with indicator := true, post := screen.post + 5 }
    (more, more.loadPosts)
  else (screen, [])

/-- `scrollViewDidScroll`, with the offset, the height of the content and the
    height of the frame in a common unit. -/
def scrollViewDidScroll (contentOffset contentHeight frameHeight : Int) (screen : Feed Data) :
    Feed Data × List (Effect Data) :=
  if contentOffset ≥ contentHeight - frameHeight * 2 then screen.loadMore else (screen, [])

/-- `refreseh`. -/
def refreseh : List (Effect Data) := [.reloadData]

/-- `tableView(_:numberOfRowsInSection:)`. -/
def numberOfRowsInSection (screen : Feed Data) : Nat := screen.pictureArray.length

/-- `tableView(_:cellForRowAt:)`; `none` is an index out of range, or a date
    that is `nil`. -/
def cellForRowAt (screen : Feed Data) (row : Nat) : Option (FeedRow Data) := do
  let postTitle ← screen.postTitleArray[row]?
  let postComment ← screen.postCommentArray[row]?
  let picture ← screen.pictureArray[row]?
  let date ← screen.dateArray[row]?
  let fromDate ← date
  return ⟨postTitle, postComment, picture, fromDate⟩

/-! ## The arrays and the records -/

/-- The four arrays hold the records `posts`, in this order. -/
structure Shows (screen : Feed Data) (posts : List (PFObject Data)) : Prop where
  pictures : posts.map imageFile = screen.pictureArray.map some
  titles : posts.map title = screen.postTitleArray.map some
  comments : posts.map comments = screen.postCommentArray.map some
  dates : posts.map PFObject.createdAt = screen.dateArray

/-- The record has the four values that the loop forces. -/
structure Readable (post : PFObject Data) : Prop where
  picture : (imageFile post).isSome
  title : (title post).isSome
  comments : (comments post).isSome
  date : post.createdAt.isSome

variable {screen : Feed Data} {posts : List (PFObject Data)}

theorem shows_removeAll (screen : Feed Data) : screen.removeAll.Shows [] :=
  ⟨rfl, rfl, rfl, rfl⟩

/-- **ONE ROUND**: the loop appends one record to all four arrays. -/
theorem append_shows {post : PFObject Data} (hs : screen.Shows posts) (hp : Readable post) :
    ∃ loaded, screen.append post = .ok loaded ∧ loaded.Shows (posts ++ [post])
      ∧ loaded.post = screen.post := by
  obtain ⟨picture, hpicture⟩ := Option.isSome_iff_exists.mp hp.picture
  obtain ⟨postTitle, htitle⟩ := Option.isSome_iff_exists.mp hp.title
  obtain ⟨postComment, hcomments⟩ := Option.isSome_iff_exists.mp hp.comments
  obtain ⟨date, hdate⟩ := Option.isSome_iff_exists.mp hp.date
  refine ⟨{ screen with pictureArray := screen.pictureArray ++ [picture],
                        postTitleArray := screen.postTitleArray ++ [postTitle],
                        postCommentArray := screen.postCommentArray ++ [postComment],
                        dateArray := screen.dateArray ++ [some date] },
    ?_, ⟨?_, ?_, ?_, ?_⟩, rfl⟩
  · rw [append, hpicture, htitle, hcomments, hdate]
    rfl
  · rw [List.map_append, List.map_append, hs.pictures, List.map_singleton, hpicture]
    rfl
  · rw [List.map_append, List.map_append, hs.titles, List.map_singleton, htitle]
    rfl
  · rw [List.map_append, List.map_append, hs.comments, List.map_singleton, hcomments]
    rfl
  · rw [List.map_append, hs.dates, List.map_singleton, hdate]

/-- The loop appends all records it is given. -/
theorem foldlM_append_shows :
    ∀ (posts : List (PFObject Data)) {screen : Feed Data} {before : List (PFObject Data)},
      screen.Shows before → (∀ post ∈ posts, Readable post) →
      ∃ loaded, posts.foldlM append screen = .ok loaded ∧ loaded.Shows (before ++ posts)
        ∧ loaded.post = screen.post := by
  intro posts
  induction posts with
  | nil =>
      intro screen before hs _
      refine ⟨screen, rfl, ?_, rfl⟩
      rw [List.append_nil]
      exact hs
  | cons post posts ih =>
      intro screen before hs hposts
      obtain ⟨first, hfirst, hshows, hpost⟩ :=
        append_shows hs (hposts post List.mem_cons_self)
      obtain ⟨loaded, hloaded, hall, hlimit⟩ :=
        ih hshows (fun p hp => hposts p (List.mem_cons_of_mem _ hp))
      refine ⟨loaded, ?_, ?_, hlimit.trans hpost⟩
      · rw [List.foldlM_cons, hfirst]
        exact hloaded
      · rw [List.append_cons]
        exact hall

/-- **THE BLOCK**: a successful answer of readable records traps nowhere and
    replaces what is shown. -/
theorem loadPosts_shows (screen : Feed Data) (hposts : ∀ post ∈ posts, Readable post) :
    ∃ loaded, screen.loadPostsBlock (.ok posts) = (loaded, [.reloadData])
      ∧ loaded.Shows posts ∧ loaded.post = screen.post := by
  -- the arrays are emptied before the loop
  obtain ⟨loaded, hloaded, hshows, hpost⟩ :=
    foldlM_append_shows posts (shows_removeAll screen) hposts
  refine ⟨{ loaded with indicator := false }, ?_, ?_, hpost⟩
  · rw [loadPostsBlock, hloaded]
  · exact ⟨hshows.pictures, hshows.titles, hshows.comments, hshows.dates⟩

/-- The four arrays are as long as the list of records. -/
theorem Shows.lengths (hs : screen.Shows posts) :
    screen.pictureArray.length = posts.length ∧ screen.postTitleArray.length = posts.length
      ∧ screen.postCommentArray.length = posts.length
      ∧ screen.dateArray.length = posts.length := by
  refine ⟨?_, ?_, ?_, ?_⟩
  · have h := congrArg List.length hs.pictures
    rw [List.length_map, List.length_map] at h
    exact h.symm
  · have h := congrArg List.length hs.titles
    rw [List.length_map, List.length_map] at h
    exact h.symm
  · have h := congrArg List.length hs.comments
    rw [List.length_map, List.length_map] at h
    exact h.symm
  · rw [← hs.dates, List.length_map]

/-- **ONE RECORD A ROW**: a row is put together from the values of one
    record. -/
theorem cellForRowAt_shows (hs : screen.Shows posts) {row : Nat} {post : PFObject Data}
    {cell : FeedRow Data} (hrow : posts[row]? = some post)
    (hpicture : imageFile post = some cell.picture) (htitle : title post = some cell.postTitle)
    (hcomments : FPScreens.comments post = some cell.postComment)
    (hdate : post.createdAt = some cell.date) : screen.cellForRowAt row = some cell := by
  have entry {α : Type} {f : PFObject Data → Option α} {l : List α} {a : α}
      (hmap : posts.map f = l.map some) (ha : f post = some a) : l[row]? = some a := by
    have h : (posts.map f)[row]? = some (some a) := by
      rw [List.getElem?_map, hrow, Option.map_some, ha]
    rw [hmap, List.getElem?_map] at h
    obtain ⟨b, hb, hba⟩ := Option.map_eq_some_iff.mp h
    rw [hb, hba]
  have hdates : screen.dateArray[row]? = some (some cell.date) := by
    rw [← hs.dates, List.getElem?_map, hrow, Option.map_some, hdate]
  rw [cellForRowAt, entry hs.titles htitle, entry hs.comments hcomments,
    entry hs.pictures hpicture, hdates]
  rfl

/-- The row is put together from the values of the record. -/
structure Of (post : PFObject Data) (row : FeedRow Data) : Prop where
  picture : imageFile post = some row.picture
  title : FPScreens.title post = some row.postTitle
  comments : FPScreens.comments post = some row.postComment
  date : post.createdAt = some row.date

/-- A row that can be put together is the row of the record at its place. -/
theorem cellForRowAt_of (hs : screen.Shows posts) {row : Nat} {cell : FeedRow Data}
    (h : screen.cellForRowAt row = some cell) : ∃ post, posts[row]? = some post ∧ Of post cell := by
  have entry {α : Type} {f : PFObject Data → Option α} {l : List α} {a : α}
      (hmap : posts.map f = l.map some) (ha : l[row]? = some a) :
      ∃ post, posts[row]? = some post ∧ f post = some a := by
    have hrow : (posts.map f)[row]? = some (some a) := by
      rw [hmap, List.getElem?_map, ha]
      rfl
    rw [List.getElem?_map] at hrow
    exact Option.map_eq_some_iff.mp hrow
  rw [cellForRowAt] at h
  obtain ⟨postTitle, htitle, h⟩ := Option.bind_eq_some_iff.mp h
  obtain ⟨postComment, hcomment, h⟩ := Option.bind_eq_some_iff.mp h
  obtain ⟨picture, hpicture, h⟩ := Option.bind_eq_some_iff.mp h
  obtain ⟨date, hdate, h⟩ := Option.bind_eq_some_iff.mp h
  obtain ⟨fromDate, rfl, h⟩ := Option.bind_eq_some_iff.mp h
  obtain rfl := Option.some.inj h
  obtain ⟨post, hpost, htitle⟩ := entry hs.titles htitle
  -- the other three values are those of the same record
  have same {α : Type} {f : PFObject Data → Option α} {a : α}
      (hother : ∃ other, posts[row]? = some other ∧ f other = some a) : f post = some a := by
    obtain ⟨other, hget, hvalue⟩ := hother
    rw [hpost] at hget
    obtain rfl := Option.some.inj hget
    exact hvalue
  refine ⟨post, hpost, same (entry hs.pictures hpicture), htitle,
    same (entry hs.comments hcomment), ?_⟩
  rw [← hs.dates, List.getElem?_map, hpost] at hdate
  exact Option.some.inj hdate

end Feed

end FPScreens

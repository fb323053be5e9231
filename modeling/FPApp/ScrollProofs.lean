import FPApp.PostsProofs

/-! # Scrolling through all posts

    When every query succeeds, `Feed` and `User` are pagers with the limits
    `5 + 5 * k` and `6 + 5 * k`.

    * `snapshot_shown` — the answer to query `k` shows exactly the first posts,
      up to the limit, of the snapshot that it was taken from;
    * `scroll_settles` — a reader who keeps scrolling through `N` posts sees
      them all, and the queries stop;
    * `infinite_scroll` — both, for `Feed` and for `User`. -/

namespace FPLists

open FPParse FPScreens EventRun Paging

variable {Screen Picture Data : Type}

namespace Listing

/-- Every query succeeds, and the answer to query `k` is taken from the
    snapshot `k`. -/
def FromSnapshots (snapshots : Nat → List (Posted Picture Data)) (s : Listing Screen Data) :
    ListEvent Data → Prop
  | .complete i found => ∀ q, s.queries[i]? = some q →
      found = .ok (((snapshots s.answered).take (limitOf q)).map Posted.object)
  | _ => True

/-- All queries of the run succeed, with answers from the snapshots. -/
def Succeeds (list : ListScreen Screen Data) (snapshots : Nat → List (Posted Picture Data))
    (es : List (ListEvent Data)) : Prop :=
  ∀ pre t e, Fires (step list) (opened list) es pre t e → t.FromSnapshots snapshots e

/-- An endless run in which the posts stay the same, every query is answered,
    and the reader keeps scrolling to the bottom. -/
structure KeepsScrolling {list : ListScreen Screen Data} (posts : List (Posted Picture Data))
    (run : Endless (step list) (opened list)) : Prop where
  succeeds : ∀ n, (run.state n).FromSnapshots (fun _ => posts) (run.event n)
  scrolls : ∀ n, ∃ m, n ≤ m ∧ (run.event m).AtBottom
  answers : ∀ n, (run.state n).queries ≠ [] →
    ∃ m, n ≤ m ∧ ∃ i found, run.event m = .complete i found

variable {list : ListScreen Screen Data} (paged : Paged list) {s t : Listing Screen Data}

section

variable {snapshots : Nat → List (Posted Picture Data)}

/-- Answers from snapshots have readable records. -/
theorem FromSnapshots.reads {e : ListEvent Data}
    (hreadable : ∀ post : Posted Picture Data, paged.Readable post.object)
    (hfrom : s.FromSnapshots snapshots e) (h : s.step list e = some t) : Reads paged e := by
  cases e with
  | complete i found =>
      obtain ⟨-, hdeliver⟩ := Option.ite_none_right_eq_some.mp h
      cases hget : s.queries[i]? with
      | none =>
          rw [deliver, hget] at hdeliver
          exact absurd hdeliver.symm (Option.some_ne_none t)
      | some q =>
          rw [hfrom q hget]
          intro object hobject
          obtain ⟨post, -, rfl⟩ := List.mem_map.mp hobject
          exact hreadable post
  | _ => trivial

/-- Answers from snapshots of posts are answers from snapshots of records. -/
theorem FromSnapshots.pager {e : ListEvent Data} (hfrom : s.FromSnapshots snapshots e) :
    (s.pager paged).FromSnapshots (fun k => (snapshots k).map Posted.object) e.action := by
  cases e with
  | scroll offset height frame =>
      rw [ListEvent.action]
      split <;> trivial
  | refreseh => trivial
  | cell row => trivial
  | complete i found =>
      intro limit hlimit
      have hmap : (s.queries.map limitOf)[i]? = some limit := hlimit
      rw [List.getElem?_map] at hmap
      obtain ⟨q, hget, rfl⟩ := Option.map_eq_some_iff.mp hmap
      rw [hfrom q hget]
      show some (((snapshots s.answered).take (limitOf q)).map Posted.object) = _
      rw [List.map_take]
      rfl

/-- **NO DUPLICATES, NO GAPS**: after the answer to query `k` the screen shows
    exactly the first posts of its snapshot, up to the limit `k`. -/
theorem snapshot_shown (hreadable : ∀ post : Posted Picture Data, paged.Readable post.object)
    {es : List (ListEvent Data)} (hsucceeds : Succeeds list snapshots es)
    {pre : List (ListEvent Data)} {i : Nat} {found : Except String (List (PFObject Data))}
    {u : Listing Screen Data} (hf : Fires (step list) (opened list) es pre t (.complete i found))
    (hu : t.step list (.complete i found) = some u) :
    paged.Shows u.screen
      (((snapshots t.answered).take (paged.plan.limit t.answered)).map Posted.object) := by
  have hinv : Lists paged t ∧ (t.pager paged).Tidy paged.plan := by
    refine visits_inv (fun _ t => Lists paged t ∧ (t.pager paged).Tidy paged.plan)
      (fun _ t e => t.FromSnapshots snapshots e) ⟨lists_opened paged, ?_⟩ ?_ hsucceeds pre t
      hf.visits
    · rw [pager_opened]
      exact Pager.tidy_opened paged.plan
    · intro _ s e t hs hfrom h
      obtain ⟨hlists, hpager⟩ := listing_step hs.1 (hfrom.reads paged hreadable h) h
      exact ⟨hlists, Pager.tidy_step hs.2 (hfrom.pager paged).within hpager⟩
  have hfrom := hsucceeds pre t _ hf
  obtain ⟨hlists, hpager⟩ := listing_step hinv.1 (hfrom.reads paged hreadable hu) hu
  have hshown : u.response
      = ((snapshots t.answered).map Posted.object).take (paged.plan.limit t.answered) :=
    Pager.answer_shows hinv.2 (hfrom.pager paged) hpager
  rw [List.map_take, ← hshown]
  exact hlists.shows

end

/-- **SCROLLING SETTLES**: a reader who keeps scrolling through `N` posts that
    stay the same comes to see them all, by exactly `pages N` queries. -/
theorem scroll_settles (hreadable : ∀ post : Posted Picture Data, paged.Readable post.object)
    {posts : List (Posted Picture Data)} (run : Endless (step list) (opened list))
    (hkeeps : KeepsScrolling posts run) :
    ∃ n, ∀ m, n ≤ m → (run.state m).issued = paged.plan.pages posts.length
      ∧ (run.state m).queries = []
      ∧ paged.Shows (run.state m).screen (posts.map Posted.object) := by
  have hlists : ∀ n, Lists paged (run.state n) := by
    refine run.always (Lists paged) (FromSnapshots fun _ => posts) (lists_opened paged) ?_
      hkeeps.succeeds
    intro t e u ht hfrom hu
    exact (listing_step ht (hfrom.reads paged hreadable hu) hu).1
  have hpager : ∀ n, ((run.state n).pager paged).step paged.plan.size (run.event n).action
      = some ((run.state (n + 1)).pager paged) := by
    intro n
    have hnext := run.next n
    exact (listing_step (hlists n) ((hkeeps.succeeds n).reads paged hreadable hnext) hnext).2
  have hsteady : ((opened list).pager paged).Steady paged.plan (posts.map Posted.object) := by
    rw [pager_opened]
    exact Pager.steady_opened paged.plan _
  -- the listing's run is a run of the pager
  have hsettles : ∃ n, ∀ m, n ≤ m →
      (run.state m).issued = paged.plan.pages (posts.map Posted.object).length
        ∧ (run.state m).queries.map limitOf = []
        ∧ (run.state m).response = posts.map Posted.object := by
    refine Pager.endless_settles hsteady
      (run.map (Listing.pager paged) (fun _ e => e.action) hpager)
      (fun n => (hkeeps.succeeds n).pager paged) ?_ ?_
    · intro n
      obtain ⟨m, hnm, hbottom⟩ := hkeeps.scrolls n
      exact ⟨m, hnm, ListEvent.action_atBottom hbottom⟩
    · intro n hout
      have hqueries : (run.state n).queries ≠ [] :=
        fun hnil => hout (congrArg (List.map limitOf) hnil)
      obtain ⟨m, hnm, i, found, hevent⟩ := hkeeps.answers n hqueries
      exact ⟨m, hnm, i, found.toOption, congrArg ListEvent.action hevent⟩
  obtain ⟨n, hn⟩ := hsettles
  refine ⟨n, ?_⟩
  intro m hm
  obtain ⟨hissued, hqueries, hresponse⟩ := hn m hm
  rw [List.length_map] at hissued
  refine ⟨hissued, List.map_eq_nil_iff.mp hqueries, ?_⟩
  rw [← hresponse]
  exact (hlists m).shows

end Listing

/-! ## Feed and User -/

/-- The four arrays of `Feed` hold exactly these posts, as they were written. -/
structure FeedShows (screen : Feed Data) (posts : List (Posted Picture Data)) : Prop where
  pictures : screen.pictureArray = posts.map Posted.file
  titles : screen.postTitleArray = posts.map fun post => post.scene.postTitle
  comments : screen.postCommentArray = posts.map fun post => post.scene.postComments
  dates : screen.dateArray = posts.map fun post => some post.createdAt

theorem feedShows_of_shows {screen : Feed Data} {posts : List (Posted Picture Data)}
    (h : screen.Shows (posts.map Posted.object)) : FeedShows screen posts := by
  refine ⟨Posted.array_eq Posted.imageFile_object h.pictures,
    Posted.array_eq Posted.title_object h.titles,
    Posted.array_eq Posted.comments_object h.comments, ?_⟩
  rw [← h.dates, List.map_map]
  rfl

/-- How many queries `Feed` needs. -/
theorem feed_pages (N : Nat) :
    (feedPaged : Paged (feed : ListScreen (Feed Data) Data)).plan.pages N = N / 5 + 1 := by
  show (N + 5 - 5) / 5 + 1 = N / 5 + 1
  rw [Nat.add_sub_cancel]

/-- How many queries `User` needs. -/
theorem user_pages (user : PFUser Data) (N : Nat) :
    (userPaged user).plan.pages N = (N - 1) / 5 + 1 := by
  show (N + 5 - 6) / 5 + 1 = (N - 1) / 5 + 1
  rw [Nat.add_sub_add_right N 5 1]

/-- **INFINITE SCROLL**: when every query succeeds, the answer to query `k`
    makes `Feed` show exactly the first `5 + 5 * k` posts of its snapshot, and
    `User` the first `6 + 5 * k`; and a reader who keeps scrolling through `N`
    posts comes to see them all by exactly `N / 5 + 1` queries of `Feed`, or
    `(N - 1) / 5 + 1` of `User`. -/
theorem infinite_scroll (user : PFUser Data) :
    (∀ (snapshots : Nat → List (Posted Picture Data)) (es : List (ListEvent Data)),
      Listing.Succeeds feed snapshots es → ∀ pre t i found u,
      Fires (Listing.step feed) (Listing.opened feed) es pre t (.complete i found) →
      t.step feed (.complete i found) = some u →
      FeedShows u.screen ((snapshots t.answered).take (5 + 5 * t.answered)))
    ∧ (∀ (posts : List (Posted Picture Data))
        (run : Endless (Listing.step feed) (Listing.opened feed)),
      Listing.KeepsScrolling posts run → ∃ n, ∀ m, n ≤ m →
        (run.state m).issued = posts.length / 5 + 1 ∧ (run.state m).queries = []
        ∧ FeedShows (run.state m).screen posts)
    ∧ (∀ (snapshots : Nat → List (Posted Picture Data)) (es : List (ListEvent Data)),
      Listing.Succeeds (userScreen user) snapshots es → ∀ pre t i found u,
      Fires (Listing.step (userScreen user)) (Listing.opened (userScreen user)) es pre t
        (.complete i found) →
      t.step (userScreen user) (.complete i found) = some u →
      u.screen.pictureArray
        = ((snapshots t.answered).take (6 + 5 * t.answered)).map Posted.file)
    ∧ (∀ (posts : List (Posted Picture Data))
        (run : Endless (Listing.step (userScreen user)) (Listing.opened (userScreen user))),
      Listing.KeepsScrolling posts run → ∃ n, ∀ m, n ≤ m →
        (run.state m).issued = (posts.length - 1) / 5 + 1 ∧ (run.state m).queries = []
        ∧ (run.state m).screen.pictureArray = posts.map Posted.file) := by
  have huser : ∀ post : Posted Picture Data, (userPaged user).Readable post.object :=
    fun post => (Posted.readable_object post).picture
  refine ⟨?_, ?_, ?_, ?_⟩
  · intro snapshots es hsucceeds pre t i found u hf hu
    exact feedShows_of_shows
      (Listing.snapshot_shown feedPaged Posted.readable_object hsucceeds hf hu)
  · intro posts run hkeeps
    obtain ⟨n, hn⟩ := Listing.scroll_settles feedPaged Posted.readable_object run hkeeps
    refine ⟨n, ?_⟩
    intro m hm
    obtain ⟨hissued, hqueries, hshows⟩ := hn m hm
    exact ⟨hissued.trans (feed_pages posts.length), hqueries, feedShows_of_shows hshows⟩
  · intro snapshots es hsucceeds pre t i found u hf hu
    exact Posted.array_eq Posted.imageFile_object
      (Listing.snapshot_shown (userPaged user) huser hsucceeds hf hu)
  · intro posts run hkeeps
    obtain ⟨n, hn⟩ := Listing.scroll_settles (userPaged user) huser run hkeeps
    refine ⟨n, ?_⟩
    intro m hm
    obtain ⟨hissued, hqueries, hshows⟩ := hn m hm
    exact ⟨hissued.trans (user_pages user posts.length), hqueries,
      Posted.array_eq Posted.imageFile_object hshows⟩

/-- A post of a user without a picture, at the given time. -/
def plainPost (milliseconds : Int) : Posted Nat Nat where
  author := ⟨.literal "u1", .literal "abcd", .literal "a@b.c", none⟩
  scene := ⟨some 7, .literal "title", .empty⟩
  imageData := 7
  createdAt := ⟨milliseconds⟩

/-- Five posts, newest first. -/
def fivePosts : List (Posted Nat Nat) :=
  [plainPost 5, plainPost 4, plainPost 3, plainPost 2, plainPost 1]

/-- The reader of `Feed` gets the five posts, scrolls to the bottom, gets the
    same five posts, and keeps scrolling. -/
def fivePostsEvent : Nat → ListEvent Nat
  | 0 => .complete 0 (.ok (fivePosts.map Posted.object))
  | 2 => .complete 0 (.ok (fivePosts.map Posted.object))
  | _ => .scroll 0 0 0

/-- The listing after the first `n` of these events. -/
def fivePostsAfter (n : Nat) : Listing (Feed Nat) Nat :=
  ((List.range n).map fivePostsEvent).foldl (fun s e => (s.step feed e).getD s)
    (Listing.opened feed)

/-- The states of that run: from the third on, scrolling changes nothing. -/
def fivePostsState : Nat → Listing (Feed Nat) Nat
  | 0 => fivePostsAfter 0
  | 1 => fivePostsAfter 1
  | 2 => fivePostsAfter 2
  | _ => fivePostsAfter 3

/-- The run. -/
def fivePostsRun : Endless (Listing.step (feed : ListScreen (Feed Nat) Nat))
    (Listing.opened feed) where
  state := fivePostsState
  event := fivePostsEvent
  start := rfl
  next
    | 0 => rfl
    | 1 => rfl
    | 2 => rfl
    | _ + 3 => rfl

/-- Two queries show the five posts, and there is no third. -/
theorem infinite_scroll_fivePosts :
    ∃ n, ∀ m, n ≤ m → (fivePostsRun.state m).issued = 2 ∧ (fivePostsRun.state m).queries = []
      ∧ FeedShows (fivePostsRun.state m).screen fivePosts := by
  have hkeeps : Listing.KeepsScrolling fivePosts fivePostsRun := by
    refine ⟨?_, ?_, ?_⟩
    · intro n
      match n with
      | 0 =>
          intro q hq
          obtain rfl := Option.some.inj hq
          rfl
      | 1 => trivial
      | 2 =>
          intro q hq
          obtain rfl := Option.some.inj hq
          rfl
      | n + 3 => trivial
    · intro n
      refine ⟨n + 3, Nat.le_add_right n 3, ?_⟩
      show (0 : Int) ≥ 0 - 0 * 2
      decide
    · intro n hqueries
      match n with
      | 0 => exact ⟨0, le_rfl, 0, _, rfl⟩
      | 1 => exact absurd rfl hqueries
      | 2 => exact ⟨2, le_rfl, 0, _, rfl⟩
      | n + 3 => exact absurd rfl hqueries
  exact (infinite_scroll (plainPost 0).author).2.1 fivePosts fivePostsRun hkeeps

end FPLists

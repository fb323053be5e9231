import FPApp.FeedProofs
import FPApp.PagerProofs
import Mathlib.Data.List.InsertIdx

/-! # Screens that list posts

    `Feed` and `User` list posts in the same way: a query with a limit, whose
    completion block replaces what is shown, and a larger limit when the
    reader gets near the bottom of a full list.  UIKit keeps its own count of
    the rows, which `reloadData` takes from the screen.

    * `Listing` — a screen, the rows that UIKit counts, and the queries in
      flight;
    * `Paged` — what both screens do, as laws about their handlers;
      `feedPaged` and `userPaged` are the two;
    * `listing_step` — one event of a listing keeps rows and records together,
      and is one action of the pager it stands for;
    * `listing_visits` and `listing_endless` — the same for whole runs. -/

namespace FPLists

open FPParse FPScreens EventRun Paging

/-- A screen that lists posts, by its handlers. -/
structure ListScreen (Screen Data : Type) where
  initial : Screen
  viewDidLoad : Screen → List (Effect Data)
  refreseh : List (Effect Data)
  scrollViewDidScroll : Int → Int → Int → Screen → Screen × List (Effect Data)
  loadPostsBlock : Screen → Except String (List (PFObject Data)) → Screen × List (Effect Data)
  numberOfRows : Screen → Nat

/-- An instance of a screen on the device: the rows that UIKit counts, the
    queries in flight, how many were issued and answered, and the records of
    the last successful answer.  A process that trapped is gone. -/
structure Listing (Screen Data : Type) where
  screen : Screen
  rows : Nat
  queries : List (Request Data)
  issued : Nat
  answered : Nat
  response : List (PFObject Data)
  trapped : Option Trap

/-- What happens to a listing: the reader scrolls or pulls to refresh, UIKit
    asks for a cell, Parse completes query `i`. -/
inductive ListEvent (Data : Type) where
  | scroll (contentOffset contentHeight frameHeight : Int)
  | refreseh
  | cell (row : Nat)
  | complete (i : Nat) (found : Except String (List (PFObject Data)))

namespace Listing

variable {Screen Data : Type} (list : ListScreen Screen Data)

/-- One effect of a handler. -/
def act (s : Listing Screen Data) : Effect Data → Listing Screen Data
  | .send request => { s with queries := s.queries ++ [request], issued := s.issued + 1 }
  | .reloadData => { s with rows := list.numberOfRows s.screen }
  | .trap expression => { s with trapped := some expression }
  | _ => s

/-- A handler, which has already changed the screen. -/
def perform (s : Listing Screen Data) : Screen × List (Effect Data) → Listing Screen Data
  | (screen, effects) => effects.foldl (act list) { s with screen := screen }

/-- A new instance, after its `viewDidLoad`. -/
def opened : Listing Screen Data :=
  perform list
    { screen := list.initial, rows := 0, queries := [], issued := 0, answered := 0,
      response := [], trapped := none }
    (list.initial, list.viewDidLoad list.initial)

/-- One event, in a process that is alive. -/
def deliver (s : Listing Screen Data) : ListEvent Data → Option (Listing Screen Data)
  | .scroll contentOffset contentHeight frameHeight =>
      some (s.perform list
        (list.scrollViewDidScroll contentOffset contentHeight frameHeight s.screen))
  | .refreseh => some (s.perform list (s.screen, list.refreseh))
  | .cell row => if row < s.rows then some s else none
  | .complete i found =>
      match s.queries[i]? with
      | none => none
      | some _ =>
          some (({ s with
            queries := s.queries.eraseIdx i
            answered := s.answered + 1
            response := found.toOption.getD s.response } : Listing Screen Data).perform list
              (list.loadPostsBlock s.screen found))

/-- One event. -/
def step (s : Listing Screen Data) (e : ListEvent Data) : Option (Listing Screen Data) :=
  if s.trapped = none then s.deliver list e else none

end Listing

/-! ## The two screens -/

variable {Screen Data : Type}

/-- `Feed`. -/
def feed : ListScreen (Feed Data) Data where
  initial := Feed.initial
  viewDidLoad := Feed.loadPosts
  refreseh := Feed.refreseh
  scrollViewDidScroll := Feed.scrollViewDidScroll
  loadPostsBlock := Feed.loadPostsBlock
  numberOfRows := Feed.numberOfRowsInSection

/-- `User`, while `user` is signed in. -/
def userScreen (user : PFUser Data) : ListScreen (User Data) Data where
  initial := User.initial
  viewDidLoad := User.loadPosts (some user)
  refreseh := User.refreseh
  scrollViewDidScroll offset height frame :=
    User.scrollViewDidScroll offset height frame (some user)
  loadPostsBlock := User.loadPostsBlock
  numberOfRows := User.numberOfItemsInSection

/-- What a screen that lists posts does: it asks for `plan.first` posts of
    `toUser`, and for `plan.size` more near the bottom of a full list; a
    successful answer of readable records replaces what it shows. -/
structure Paged (list : ListScreen Screen Data) where
  plan : Plan
  toUser : Option Text
  limit : Screen → Nat
  Shows : Screen → List (PFObject Data) → Prop
  Readable : PFObject Data → Prop
  opens : list.viewDidLoad list.initial = [.send (.posts toUser plan.first)]
  initial_limit : limit list.initial = plan.first
  initial_shows : Shows list.initial []
  refreshes : list.refreseh = [.reloadData]
  counts : ∀ {screen posts}, Shows screen posts → list.numberOfRows screen = posts.length
  more : ∀ {screen posts offset height frame}, Shows screen posts →
    offset ≥ height - frame * 2 → limit screen ≤ posts.length →
    ∃ moved, list.scrollViewDidScroll offset height frame screen
        = (moved, [.send (.posts toUser (limit screen + plan.size))])
      ∧ limit moved = limit screen + plan.size ∧ Shows moved posts
  rests : ∀ {screen posts offset height frame}, Shows screen posts →
    ¬ (offset ≥ height - frame * 2 ∧ limit screen ≤ posts.length) →
    list.scrollViewDidScroll offset height frame screen = (screen, [])
  loads : ∀ screen {posts}, (∀ post ∈ posts, Readable post) →
    ∃ loaded, list.loadPostsBlock screen (.ok posts) = (loaded, [.reloadData])
      ∧ limit loaded = limit screen ∧ Shows loaded posts
  fails : ∀ {screen posts} e, Shows screen posts →
    ∃ failed, list.loadPostsBlock screen (.error e)
        = (failed, [.present ⟨"Error", e⟩, .reloadData])
      ∧ limit failed = limit screen ∧ Shows failed posts

/-- `Feed` asks for 5 posts of everybody, and for 5 more. -/
def feedPaged : Paged (feed : ListScreen (Feed Data) Data) where
  plan := ⟨5, 5, by decide, by decide⟩
  toUser := none
  limit := Feed.post
  Shows := Feed.Shows
  Readable := Feed.Readable
  opens := rfl
  initial_limit := rfl
  initial_shows := ⟨rfl, rfl, rfl, rfl⟩
  refreshes := rfl
  counts h := h.lengths.1
  more {screen posts offset height frame} h hnear hfull := by
    have hcount : screen.post ≤ screen.pictureArray.length := by
      rw [h.lengths.1]
      exact hfull
    refine ⟨{ screen with indicator := true, post := screen.post + 5 }, ?_, rfl,
      ⟨h.pictures, h.titles, h.comments, h.dates⟩⟩
    show Feed.scrollViewDidScroll offset height frame screen = _
    rw [Feed.scrollViewDidScroll, if_pos hnear, Feed.loadMore, if_pos hcount]
    rfl
  rests {screen posts offset height frame} h hnot := by
    show Feed.scrollViewDidScroll offset height frame screen = _
    rw [Feed.scrollViewDidScroll]
    by_cases hnear : offset ≥ height - frame * 2
    · have hcount : ¬ screen.post ≤ screen.pictureArray.length := by
        rw [h.lengths.1]
        exact fun hfull => hnot ⟨hnear, hfull⟩
      rw [if_pos hnear, Feed.loadMore, if_neg hcount]
    · rw [if_neg hnear]
  loads screen {posts} hposts := by
    obtain ⟨loaded, hblock, hshows, hpost⟩ := Feed.loadPosts_shows screen hposts
    exact ⟨loaded, hblock, hpost, hshows⟩
  fails e h := ⟨_, rfl, rfl, ⟨h.pictures, h.titles, h.comments, h.dates⟩⟩

/-- The loop of `User.loadPosts`' block casts every record's image. -/
theorem imageFiles_readable :
    ∀ {posts : List (PFObject Data)}, (∀ post ∈ posts, (imageFile post).isSome) →
      ∃ files, User.imageFiles posts = some files ∧ posts.map imageFile = files.map some := by
  intro posts
  induction posts with
  | nil =>
      intro _
      exact ⟨[], rfl, rfl⟩
  | cons post posts ih =>
      intro hposts
      obtain ⟨file, hfile⟩ := Option.isSome_iff_exists.mp (hposts post List.mem_cons_self)
      obtain ⟨files, hfiles, hmap⟩ := ih (fun p hp => hposts p (List.mem_cons_of_mem _ hp))
      refine ⟨file :: files, ?_, ?_⟩
      · have hcast : (post.value "imageFile").bind Value.asFile = some file := hfile
        rw [User.imageFiles] at hfiles ⊢
        rw [List.mapM_cons, hcast, hfiles]
        rfl
      · rw [List.map_cons, List.map_cons, hfile, hmap]

/-- `User` asks for 6 posts of the signed-in user, and for 5 more. -/
def userPaged (user : PFUser Data) : Paged (userScreen user) where
  plan := ⟨6, 5, by decide, by decide⟩
  toUser := some user.objectId
  limit := User.page
  Shows screen posts := posts.map imageFile = screen.pictureArray.map some
  Readable post := (imageFile post).isSome
  opens := rfl
  initial_limit := rfl
  initial_shows := rfl
  refreshes := rfl
  counts {screen posts} h := by
    have hlength := congrArg List.length h
    rw [List.length_map, List.length_map] at hlength
    exact hlength.symm
  more {screen posts offset height frame} h hnear hfull := by
    have hlength := congrArg List.length h
    rw [List.length_map, List.length_map] at hlength
    have hcount : screen.page ≤ screen.pictureArray.length := hlength ▸ hfull
    refine ⟨{ screen with page := screen.page + 5 }, ?_, rfl, h⟩
    show User.scrollViewDidScroll offset height frame (some user) screen = _
    rw [User.scrollViewDidScroll, if_pos hnear, User.loadMore, if_pos hcount]
    rfl
  rests {screen posts offset height frame} h hnot := by
    have hlength := congrArg List.length h
    rw [List.length_map, List.length_map] at hlength
    show User.scrollViewDidScroll offset height frame (some user) screen = _
    rw [User.scrollViewDidScroll]
    by_cases hnear : offset ≥ height - frame * 2
    · have hcount : ¬ screen.page ≤ screen.pictureArray.length :=
        fun hfull => hnot ⟨hnear, hlength ▸ hfull⟩
      rw [if_pos hnear, User.loadMore, if_neg hcount]
    · rw [if_neg hnear]
  loads screen {posts} hposts := by
    obtain ⟨files, hfiles, hmap⟩ := imageFiles_readable hposts
    refine ⟨{ screen with pictureArray := files }, ?_, rfl, hmap⟩
    show User.loadPostsBlock screen (.ok posts) = _
    rw [User.loadPostsBlock, hfiles]
  fails e h := ⟨_, rfl, rfl, h⟩

/-! ## A listing is a pager -/

/-- The limit of a query. -/
def limitOf : Request Data → Nat
  | .posts _ limit => limit
  | _ => 0

/-- The scroll ends near the bottom. -/
def ListEvent.AtBottom : ListEvent Data → Prop
  | .scroll offset height frame => offset ≥ height - frame * 2
  | _ => False

/-- The event as an action of the pager. -/
def ListEvent.action : ListEvent Data → Action (PFObject Data)
  | .scroll offset height frame => if offset ≥ height - frame * 2 then .more else .idle
  | .refreseh | .cell _ => .idle
  | .complete i found => .answer i found.toOption

theorem ListEvent.action_atBottom {e : ListEvent Data} (h : e.AtBottom) : e.action = .more := by
  cases e with
  | scroll offset height frame => exact if_pos h
  | refreseh => exact h.elim
  | cell row => exact h.elim
  | complete i found => exact h.elim

namespace Listing

variable {list : ListScreen Screen Data} (paged : Paged list) {s t : Listing Screen Data}

/-- The pager that the listing stands for. -/
def pager (s : Listing Screen Data) : Pager (PFObject Data) where
  limit := paged.limit s.screen
  shown := s.response
  outstanding := s.queries.map limitOf
  issued := s.issued
  answered := s.answered

/-- A successful answer has readable records only. -/
def Reads : ListEvent Data → Prop
  | .complete _ (.ok posts) => ∀ post ∈ posts, paged.Readable post
  | _ => True

/-- The screen shows the records of the last successful answer, UIKit counts
    as many rows, and all queries are for the screen's posts. -/
structure Lists (s : Listing Screen Data) : Prop where
  alive : s.trapped = none
  shows : paged.Shows s.screen s.response
  rows : s.rows = s.response.length
  asks : ∀ q ∈ s.queries, ∃ limit, q = .posts paged.toUser limit

theorem opened_eq : opened list = {
    screen := list.initial
    rows := 0
    queries := [.posts paged.toUser paged.plan.first]
    issued := 1
    answered := 0
    response := []
    trapped := none } := by
  rw [opened, paged.opens]
  rfl

theorem lists_opened : Lists paged (opened list) := by
  rw [opened_eq paged]
  refine ⟨rfl, paged.initial_shows, rfl, ?_⟩
  intro q hq
  exact ⟨paged.plan.first, List.mem_singleton.mp hq⟩

theorem pager_opened : (opened list).pager paged = Pager.opened paged.plan := by
  rw [opened_eq paged]
  show Pager.mk (paged.limit list.initial) [] [paged.plan.first] 1 0 = _
  rw [paged.initial_limit]
  rfl

variable {paged}

/-- A scroll asks for more near the bottom of a full list, and otherwise does
    nothing. -/
theorem scroll_cases (hs : Lists paged s) (offset height frame : Int) :
    (offset ≥ height - frame * 2 ∧ paged.limit s.screen ≤ s.response.length
      ∧ ∃ moved, paged.limit moved = paged.limit s.screen + paged.plan.size
        ∧ paged.Shows moved s.response
        ∧ s.perform list (list.scrollViewDidScroll offset height frame s.screen) = { s with
            screen := moved, issued := s.issued + 1,
            queries := s.queries ++
              [.posts paged.toUser (paged.limit s.screen + paged.plan.size)] })
    ∨ (¬ (offset ≥ height - frame * 2 ∧ paged.limit s.screen ≤ s.response.length)
      ∧ s.perform list (list.scrollViewDidScroll offset height frame s.screen) = s) := by
  by_cases hmore : offset ≥ height - frame * 2 ∧ paged.limit s.screen ≤ s.response.length
  · obtain ⟨moved, hscroll, hlimit, hshows⟩ := paged.more hs.shows hmore.1 hmore.2
    refine Or.inl ⟨hmore.1, hmore.2, moved, hlimit, hshows, ?_⟩
    rw [hscroll]
    rfl
  · refine Or.inr ⟨hmore, ?_⟩
    rw [paged.rests hs.shows hmore]
    rfl

/-- The completion block of a query, whatever the answer: the last successful
    one is shown, and its rows are counted. -/
theorem block_shows {i : Nat} {found : Except String (List (PFObject Data))}
    (hs : Lists paged s) (hread : Reads paged (.complete i found))
    (queries : List (Request Data)) (answered : Nat) :
    ∃ loaded, paged.limit loaded = paged.limit s.screen
      ∧ paged.Shows loaded (found.toOption.getD s.response)
      ∧ ({ s with queries := queries, answered := answered,
                  response := found.toOption.getD s.response } : Listing Screen Data).perform
            list (list.loadPostsBlock s.screen found)
        = { s with queries := queries, answered := answered,
                   response := found.toOption.getD s.response, screen := loaded,
                   rows := (found.toOption.getD s.response).length } := by
  cases found with
  | ok posts =>
      obtain ⟨loaded, hblock, hlimit, hshows⟩ := paged.loads s.screen hread
      refine ⟨loaded, hlimit, hshows, ?_⟩
      have hrows := paged.counts hshows
      rw [hblock]
      show Listing.mk loaded (list.numberOfRows loaded) _ _ _ _ _ = _
      rw [hrows]
      rfl
  | error e =>
      obtain ⟨failed, hblock, hlimit, hshows⟩ := paged.fails e hs.shows
      refine ⟨failed, hlimit, hshows, ?_⟩
      have hrows := paged.counts hshows
      rw [hblock]
      show Listing.mk failed (list.numberOfRows failed) _ _ _ _ _ = _
      rw [hrows]
      rfl

/-- **LISTING STEP**: one event keeps the rows and the records together, and
    is one action of the pager. -/
theorem listing_step {e : ListEvent Data} (hs : Lists paged s) (hread : Reads paged e)
    (h : s.step list e = some t) :
    Lists paged t ∧ (s.pager paged).step paged.plan.size e.action = some (t.pager paged) := by
  rw [step, if_pos hs.alive] at h
  cases e with
  | scroll offset height frame =>
      rcases scroll_cases hs offset height frame
        with ⟨hnear, hfull, moved, hlimit, hshows, heq⟩ | ⟨hnot, heq⟩
      · obtain rfl := (Option.some.inj h).symm.trans heq
        constructor
        · refine ⟨hs.alive, hshows, hs.rows, ?_⟩
          intro q hq
          rcases List.mem_append.mp hq with hold | hnew
          · exact hs.asks q hold
          · exact ⟨_, List.mem_singleton.mp hnew⟩
        · rw [ListEvent.action, if_pos hnear]
          refine congrArg some ?_
          have hlist : (s.pager paged).limit ≤ (s.pager paged).shown.length := hfull
          rw [Pager.more, if_pos hlist]
          simp only [pager, hlimit, List.map_append, List.map_singleton, limitOf]
      · -- too far from the bottom, or the last page was not full
        obtain rfl := (Option.some.inj h).symm.trans heq
        refine ⟨hs, ?_⟩
        by_cases hnear : offset ≥ height - frame * 2
        · rw [ListEvent.action, if_pos hnear]
          refine congrArg some ?_
          have hlist : ¬ (t.pager paged).limit ≤ (t.pager paged).shown.length :=
            fun hfull => hnot ⟨hnear, hfull⟩
          rw [Pager.more, if_neg hlist]
        · rw [ListEvent.action, if_neg hnear]
          rfl
  | refreseh =>
      obtain rfl := Option.some.inj h
      -- a refresh counts the rows again, without a query
      rw [paged.refreshes]
      have hrows : list.numberOfRows s.screen = s.response.length := paged.counts hs.shows
      exact ⟨⟨hs.alive, hs.shows, hrows, hs.asks⟩, rfl⟩
  | cell row =>
      obtain ⟨-, hsame⟩ := Option.ite_none_right_eq_some.mp h
      obtain rfl : s = t := Option.some.inj hsame
      exact ⟨hs, rfl⟩
  | complete i found =>
      rw [deliver] at h
      cases hget : s.queries[i]? with
      | none =>
          rw [hget] at h
          exact absurd h.symm (Option.some_ne_none t)
      | some q =>
          rw [hget] at h
          obtain ⟨loaded, hlimit, hshows, heq⟩ :=
            block_shows hs hread (s.queries.eraseIdx i) (s.answered + 1)
          obtain rfl := (Option.some.inj h).symm.trans heq
          constructor
          · refine ⟨hs.alive, hshows, rfl, ?_⟩
            intro r hr
            exact hs.asks r (List.mem_of_mem_eraseIdx hr)
          · have hout : (s.pager paged).outstanding[i]? = some (limitOf q) := by
              show (s.queries.map limitOf)[i]? = _
              rw [List.getElem?_map, hget]
              rfl
            rw [ListEvent.action, Pager.step, hout]
            refine congrArg some ?_
            simp only [pager, hlimit, List.eraseIdx_map]

end Listing

end FPLists

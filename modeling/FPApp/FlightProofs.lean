import FPApp.ScrollProofs

/-! # One query at a time

    Nothing in `Feed` or `User` says that a query is in flight: `loadMore` only
    compares the limit with the number of posts shown.  As long as no answer
    has more posts than its query asked for, that is enough.

    * `Forces` — a list with an unreadable record ends the process;
    * `flies_step` — one event keeps the listing's pager tidy, or ends the
      process with no query in flight;
    * `lit_step` — `Feed`'s indicator is animated only by a query in flight;
    * `single_flight` — both, along every run of `Feed` and of `User`. -/

namespace FPLists

open FPParse FPScreens EventRun Paging

variable {Screen Data : Type}

/-! ## Records that cannot be read -/

/-- A screen that lists posts traps on a record it cannot read, and on nothing
    else. -/
structure Forces {list : ListScreen Screen Data} (paged : Paged list) : Prop where
  traps : ∀ screen {posts}, ¬ (∀ post ∈ posts, paged.Readable post) →
    ∃ trap, list.loadPostsBlock screen (.ok posts) = (screen, [.trap trap])

/-- What a sequence of forced expressions went through. -/
theorem ok_of_bind {α β : Type} {x : Except Trap α} {f : α → Except Trap β} {b : β}
    (h : x >>= f = .ok b) : ∃ a, x = .ok a ∧ f a = .ok b := by
  cases x with
  | error trap => cases h
  | ok a => exact ⟨a, rfl, h⟩

theorem isSome_of_forced {α : Type} {trap : Trap} {o : Option α} {a : α}
    (h : forced trap o = .ok a) : o.isSome := by
  cases o with
  | none => cases h
  | some b => rfl

/-- `Feed`'s loop passes only readable records. -/
theorem readable_of_append {screen loaded : Feed Data} {post : PFObject Data}
    (h : screen.append post = .ok loaded) : Feed.Readable post := by
  rw [Feed.append] at h
  obtain ⟨picture, hpicture, h⟩ := ok_of_bind h
  obtain ⟨postTitle, htitle, h⟩ := ok_of_bind h
  obtain ⟨postComment, hcomments, h⟩ := ok_of_bind h
  obtain ⟨date, hdate, -⟩ := ok_of_bind h
  exact ⟨isSome_of_forced hpicture, isSome_of_forced htitle, isSome_of_forced hcomments,
    isSome_of_forced hdate⟩

theorem readable_of_foldlM :
    ∀ (posts : List (PFObject Data)) {screen loaded : Feed Data},
      posts.foldlM Feed.append screen = .ok loaded → ∀ post ∈ posts, Feed.Readable post := by
  intro posts
  induction posts with
  | nil =>
      intro screen loaded _ post hpost
      exact absurd hpost List.not_mem_nil
  | cons first rest ih =>
      intro screen loaded h post hpost
      rw [List.foldlM_cons] at h
      obtain ⟨next, happend, h⟩ := ok_of_bind h
      rcases List.mem_cons.mp hpost with rfl | hrest
      · exact readable_of_append happend
      · exact ih h post hrest

theorem feed_forces : Forces (feedPaged : Paged (feed : ListScreen (Feed Data) Data)) := by
  refine ⟨?_⟩
  intro screen posts hnot
  cases hfold : posts.foldlM Feed.append screen.removeAll with
  | ok loaded => exact absurd (readable_of_foldlM posts hfold) hnot
  | error trap =>
      refine ⟨trap, ?_⟩
      show Feed.loadPostsBlock screen (.ok posts) = _
      rw [Feed.loadPostsBlock, hfold]

/-- `User`'s loop passes only records with an image. -/
theorem readable_of_imageFiles :
    ∀ (posts : List (PFObject Data)) {files : List (PFFile Data)},
      User.imageFiles posts = some files → ∀ post ∈ posts, (imageFile post).isSome := by
  intro posts
  induction posts with
  | nil =>
      intro files _ post hpost
      exact absurd hpost List.not_mem_nil
  | cons first rest ih =>
      intro files h post hpost
      rw [User.imageFiles, List.mapM_cons] at h
      obtain ⟨file, hfile, hcons⟩ := Option.bind_eq_some_iff.mp h
      obtain ⟨files', hfiles, -⟩ := Option.bind_eq_some_iff.mp hcons
      rcases List.mem_cons.mp hpost with rfl | hrest
      · exact Option.isSome_of_eq_some hfile
      · exact ih hfiles post hrest

theorem user_forces (user : PFUser Data) : Forces (userPaged user) := by
  refine ⟨?_⟩
  intro screen posts hnot
  refine ⟨.imageFile, ?_⟩
  show User.loadPostsBlock screen (.ok posts) = _
  cases hfiles : User.imageFiles posts with
  | some files => exact absurd (readable_of_imageFiles posts hfiles) hnot
  | none => rw [User.loadPostsBlock, hfiles]

/-! ## Along a run -/

namespace Listing

/-- A successful answer has no more posts than its query asked for. -/
def Bounded (s : Listing Screen Data) : ListEvent Data → Prop
  | .complete i (.ok posts) => ∀ q, s.queries[i]? = some q → posts.length ≤ limitOf q
  | _ => True

/-- All answers of the run are bounded by the limits of their queries. -/
def Answers (list : ListScreen Screen Data) (es : List (ListEvent Data)) : Prop :=
  ∀ pre t e, Fires (step list) (opened list) es pre t e → t.Bounded e

/-- At most one query is in flight, and it asks for more posts than are
    shown. -/
structure SingleFlight (list : ListScreen Screen Data) (limit : Screen → Nat)
    (s : Listing Screen Data) : Prop where
  one : s.queries.length ≤ 1
  beyond : s.queries ≠ [] → list.numberOfRows s.screen < limit s.screen
  counted : s.answered + s.queries.length = s.issued

/-- The process is alive, and its pager tidy; or it trapped, and no query is
    in flight. -/
inductive Flies {list : ListScreen Screen Data} (paged : Paged list) (s : Listing Screen Data) :
    Prop where
  | alive (lists : Lists paged s) (tidy : (s.pager paged).Tidy paged.plan)
  | trapped (trapped : s.trapped ≠ none) (queries : s.queries = [])
      (answered : s.answered = s.issued)

variable {list : ListScreen Screen Data} {paged : Paged list} {s t : Listing Screen Data}

theorem flies_opened (paged : Paged list) : Flies paged (opened list) := by
  refine .alive (lists_opened paged) ?_
  rw [pager_opened]
  exact Pager.tidy_opened paged.plan

theorem Flies.single (hs : Flies paged s) : SingleFlight list paged.limit s := by
  cases hs with
  | alive lists tidy =>
      have hmap : (s.pager paged).outstanding = s.queries.map limitOf := rfl
      have hone := tidy.flight.at_most_one
      have hcounted := tidy.flight.counted
      rw [hmap, List.length_map] at hone hcounted
      refine ⟨hone, ?_, hcounted⟩
      intro hqueries
      rw [paged.counts lists.shows]
      refine tidy.flight.beyond ?_
      rw [hmap]
      exact fun hnil => hqueries (List.map_eq_nil_iff.mp hnil)
  | trapped trapped queries answered =>
      refine ⟨?_, fun h => absurd queries h, ?_⟩
      · rw [queries]
        exact Nat.zero_le 1
      · rw [queries]
        exact answered

/-- The pager's answer is bounded by its query, like the listing's. -/
theorem Bounded.within {e : ListEvent Data} (h : s.Bounded e) :
    (s.pager paged).Within e.action := by
  cases e with
  | scroll offset height frame =>
      rw [ListEvent.action]
      split <;> trivial
  | refreseh => trivial
  | cell row => trivial
  | complete i found =>
      cases found with
      | error e => trivial
      | ok posts =>
          intro limit hlimit
          have hmap : (s.queries.map limitOf)[i]? = some limit := hlimit
          rw [List.getElem?_map] at hmap
          obtain ⟨q, hget, rfl⟩ := Option.map_eq_some_iff.mp hmap
          exact h q hget

/-- A list with an unreadable record ends the process, and leaves the screen
    as it was. -/
theorem unread_cases (hforces : Forces paged) {e : ListEvent Data} (halive : s.trapped = none)
    (hread : ¬ Reads paged e) (h : s.step list e = some t) :
    ∃ i q posts trap, e = .complete i (.ok posts) ∧ s.queries[i]? = some q ∧ t = { s with
      queries := s.queries.eraseIdx i
      answered := s.answered + 1
      response := posts
      trapped := some trap } := by
  cases e with
  | complete i found =>
      cases found with
      | error e => exact absurd trivial hread
      | ok posts =>
          obtain ⟨trap, hblock⟩ := hforces.traps s.screen hread
          rw [step, if_pos halive, deliver] at h
          cases hget : s.queries[i]? with
          | none =>
              rw [hget] at h
              exact absurd h.symm (Option.some_ne_none t)
          | some q =>
              rw [hget, hblock] at h
              exact ⟨i, q, posts, trap, rfl, hget, (Option.some.inj h).symm⟩
  | _ => exact absurd trivial hread

/-- **LISTING STEP**, whatever the records: the screen shows the last
    successful answer, or the process is gone. -/
theorem lists_step (hforces : Forces paged) {e : ListEvent Data} (hs : Lists paged s)
    (h : s.step list e = some t) : t.trapped = none → Lists paged t := by
  intro halive
  by_cases hread : Reads paged e
  · exact (listing_step hs hread h).1
  · obtain ⟨i, q, posts, trap, -, -, rfl⟩ := unread_cases hforces hs.alive hread h
    exact absurd halive (Option.some_ne_none trap)

/-- **FLIGHT STEP**: an answer that can be read keeps the pager tidy; one that
    cannot ends the process, with no query in flight. -/
theorem flies_step (hforces : Forces paged) {e : ListEvent Data} (hs : Flies paged s)
    (hbounded : s.Bounded e) (h : s.step list e = some t) : Flies paged t := by
  cases hs with
  | trapped trapped queries answered =>
      rw [step, if_neg trapped] at h
      exact absurd h.symm (Option.some_ne_none t)
  | alive lists tidy =>
      by_cases hread : Reads paged e
      · obtain ⟨hlists, hpager⟩ := listing_step lists hread h
        exact .alive hlists (Pager.tidy_step tidy hbounded.within hpager)
      · obtain ⟨i, q, posts, trap, rfl, hget, rfl⟩ := unread_cases hforces lists.alive hread h
        -- the query answered was the only one
        have hout : (s.pager paged).outstanding[i]? = some (limitOf q) := by
          show (s.queries.map limitOf)[i]? = _
          rw [List.getElem?_map, hget]
          rfl
        obtain ⟨rfl, -, -, hqueries, hanswered, -⟩ := tidy.flying hout
        refine .trapped (Option.some_ne_none trap) ?_ hanswered
        have hone : (s.queries.map limitOf).length = 1 := congrArg List.length hqueries
        rw [List.length_map] at hone
        show s.queries.eraseIdx 0 = []
        rw [← List.length_eq_zero_iff, List.length_eraseIdx_of_lt (by omega), hone]

theorem flies_visits (hforces : Forces paged) {es pre : List (ListEvent Data)}
    (hes : Answers list es) (h : Visits (step list) (opened list) es pre t) : Flies paged t := by
  refine visits_inv (fun _ t => Flies paged t) (fun _ t e => t.Bounded e) (flies_opened paged)
    ?_ hes pre t h
  intro _ s e t hs hbounded hstep
  exact flies_step hforces hs hbounded hstep

/-- The query that is answered is the last one that was issued. -/
theorem answers_last (hforces : Forces paged) {es pre : List (ListEvent Data)} {i : Nat}
    {found : Except String (List (PFObject Data))} (hes : Answers list es)
    (h : Fires (step list) (opened list) es pre t (.complete i found)) :
    t.answered + 1 = t.issued := by
  have hsingle := (flies_visits hforces hes h.visits).single
  obtain ⟨u, hu⟩ := h.2.2
  obtain ⟨-, hdeliver⟩ := Option.ite_none_right_eq_some.mp hu
  rw [deliver] at hdeliver
  cases hget : t.queries[i]? with
  | none =>
      rw [hget] at hdeliver
      exact absurd hdeliver.symm (Option.some_ne_none u)
  | some q =>
      have hlt := (List.getElem?_eq_some_iff.mp hget).1
      have hone := hsingle.one
      have hcounted := hsingle.counted
      omega

/-! ## The indicator of Feed -/

/-- The indicator of a process that is alive is animated by a query. -/
def Lit (s : Listing (Feed Data) Data) : Prop :=
  s.trapped = none → s.screen.indicator = true → s.queries ≠ []

theorem lit_step {s t : Listing (Feed Data) Data} {e : ListEvent Data} (hs : s.Lit)
    (h : s.step feed e = some t) : t.Lit := by
  obtain ⟨halive, hdeliver⟩ := Option.ite_none_right_eq_some.mp h
  cases e with
  | scroll offset height frame =>
      obtain rfl := Option.some.inj hdeliver
      show Lit (s.perform feed (Feed.scrollViewDidScroll offset height frame s.screen))
      rw [Feed.scrollViewDidScroll]
      split
      · rw [Feed.loadMore]
        split
        · -- the indicator starts together with a query
          intro _ _
          exact List.append_ne_nil_of_right_ne_nil _ (List.cons_ne_nil _ _)
        · exact hs
      · exact hs
  | refreseh =>
      obtain rfl := Option.some.inj hdeliver
      exact hs
  | cell row =>
      obtain ⟨-, hsame⟩ := Option.ite_none_right_eq_some.mp hdeliver
      obtain rfl : s = t := Option.some.inj hsame
      exact hs
  | complete i found =>
      rw [deliver] at hdeliver
      cases hget : s.queries[i]? with
      | none =>
          rw [hget] at hdeliver
          exact absurd hdeliver.symm (Option.some_ne_none t)
      | some q =>
          rw [hget] at hdeliver
          obtain rfl := Option.some.inj hdeliver
          -- every branch of the block stops the indicator, or traps
          cases found with
          | error e => exact fun _ hlit => absurd hlit Bool.false_ne_true
          | ok posts =>
              show Lit (Listing.perform feed _ (Feed.loadPostsBlock s.screen (.ok posts)))
              rw [Feed.loadPostsBlock]
              cases posts.foldlM Feed.append s.screen.removeAll with
              | ok loaded => exact fun _ hlit => absurd hlit Bool.false_ne_true
              | error trap => exact fun htrapped _ => absurd htrapped (Option.some_ne_none trap)

theorem lit_visits {es pre : List (ListEvent Data)} {t : Listing (Feed Data) Data}
    (h : Visits (step feed) (opened feed) es pre t) : t.Lit :=
  visits_always Lit (fun _ hlit => absurd hlit Bool.false_ne_true)
    (fun _ _ _ hs hstep => lit_step hs hstep) pre t h

end Listing

/-! ## Feed and User -/

/-- **SINGLE FLIGHT**: in every order of scrolls, refreshes, cells and answers,
    `Feed` and `User` have at most one query in flight, an answer belongs to
    the query issued last, a query in flight asks for more posts than are
    shown, and `Feed`'s indicator is animated only by a query in flight. -/
theorem single_flight (user : PFUser Data) (es : List (ListEvent Data)) :
    (Listing.Answers feed es →
      (∀ pre t, Visits (Listing.step feed) (Listing.opened feed) es pre t →
        t.SingleFlight feed Feed.post ∧ t.Lit)
      ∧ ∀ pre t i found,
        Fires (Listing.step feed) (Listing.opened feed) es pre t (.complete i found) →
        t.answered + 1 = t.issued)
    ∧ (Listing.Answers (userScreen user) es →
      (∀ pre t,
        Visits (Listing.step (userScreen user)) (Listing.opened (userScreen user)) es pre t →
        t.SingleFlight (userScreen user) User.page)
      ∧ ∀ pre t i found,
        Fires (Listing.step (userScreen user)) (Listing.opened (userScreen user)) es pre t
          (.complete i found) →
        t.answered + 1 = t.issued) := by
  constructor
  · intro hes
    constructor
    · intro pre t ht
      exact ⟨(Listing.flies_visits feed_forces hes ht).single, Listing.lit_visits ht⟩
    · intro pre t i found hf
      exact Listing.answers_last feed_forces hes hf
  · intro hes
    constructor
    · intro pre t ht
      exact (Listing.flies_visits (user_forces user) hes ht).single
    · intro pre t i found hf
      exact Listing.answers_last (user_forces user) hes hf

/-- Five posts are shown, the reader scrolls on, and the next page fails. -/
def failedPage : List (ListEvent Nat) :=
  [.complete 0 (.ok (fivePosts.map Posted.object)), .scroll 0 0 0, .refreseh, .scroll 0 0 0,
    .complete 0 (.error "offline")]

/-- The second page is asked for once, and nothing is in flight after it
    failed. -/
theorem single_flight_failedPage :
    ∃ t, run (Listing.step feed) (Listing.opened feed) failedPage = some t
      ∧ t.issued = 2 ∧ t.SingleFlight feed Feed.post ∧ t.Lit := by
  have hes : Listing.Answers feed failedPage := by
    refine fires_of_along failedPage _ ⟨?_, trivial, trivial, trivial, trivial, trivial⟩
    intro q hq
    obtain rfl := Option.some.inj hq
    exact le_rfl
  refine ⟨_, rfl, rfl, ?_⟩
  exact ((single_flight (plainPost 0).author failedPage).1 hes).1 failedPage _
    ⟨List.prefix_rfl, rfl⟩

end FPLists

import FPApp.ScrollProofs

/-! # Paging that cannot go on

    A reader who sees fewer posts than the server holds has two gestures: to
    scroll to the bottom and to pull to refresh.  The second only lays the
    rows out again; the first asks for more only when the last page was full.

    * `Unstuck` — when no query is in flight and the server holds more posts
      than are shown, one of the gestures issues a query;
    * `Prompt` — the events after which this is still so;
    * `stalled_step` — an event leaves the list stuck exactly when it is not
      prompt;
    * `paging_unstuck_iff` — no run of `Feed` or of `User` ever gets stuck,
      exactly when all its events are prompt. -/

namespace FPLists

open FPParse FPScreens EventRun Paging

variable {Screen Picture Data : Type}

/-! ## Gestures -/

namespace Listing

variable {list : ListScreen Screen Data} {paged : Paged list} {s : Listing Screen Data}

/-- The event issues a new query. -/
def Issues (list : ListScreen Screen Data) (s : Listing Screen Data) (e : ListEvent Data) : Prop :=
  ∃ t, s.step list e = some t ∧ s.issued < t.issued

/-- A scroll to the bottom or a pull to refresh issues a new query. -/
def Offers (list : ListScreen Screen Data) (s : Listing Screen Data) : Prop :=
  (∀ e : ListEvent Data, e.AtBottom → s.Issues list e) ∨ s.Issues list .refreseh

/-- A scroll to the bottom issues a query exactly when the last page was full. -/
theorem issues_atBottom_iff (hs : Lists paged s) {e : ListEvent Data} (he : e.AtBottom) :
    s.Issues list e ↔ paged.limit s.screen ≤ s.response.length := by
  have hmore := Pager.more_issues_iff paged.plan.size (s.pager paged)
  refine Iff.trans ?_ hmore
  constructor
  · rintro ⟨t, ht, hissued⟩
    have hread : Reads paged e := by
      cases e with
      | complete i found => exact he.elim
      | _ => trivial
    obtain ⟨-, hpager⟩ := listing_step hs hread ht
    rw [ListEvent.action_atBottom he] at hpager
    rw [Option.some.inj hpager]
    exact hissued
  · intro hissued
    cases e with
    | scroll offset height frame =>
        have ht : s.step list (.scroll offset height frame) = some (s.perform list
            (list.scrollViewDidScroll offset height frame s.screen)) := if_pos hs.alive
        have hread : Reads paged (.scroll offset height frame) := trivial
        obtain ⟨-, hpager⟩ := listing_step hs hread ht
        rw [ListEvent.action_atBottom he] at hpager
        refine ⟨_, ht, ?_⟩
        rw [Option.some.inj hpager] at hissued
        exact hissued
    | refreseh => exact he.elim
    | cell row => exact he.elim
    | complete i found => exact he.elim

/-- A pull to refresh issues nothing. -/
theorem not_issues_refreseh (hs : Lists paged s) : ¬ s.Issues list .refreseh := by
  rintro ⟨t, ht, hissued⟩
  have hread : Reads paged .refreseh := trivial
  obtain ⟨-, hpager⟩ := listing_step hs hread ht
  have hsame : (s.pager paged).issued = (t.pager paged).issued :=
    congrArg Pager.issued (Option.some.inj hpager)
  exact absurd hissued (Nat.not_lt_of_le hsame.ge)

theorem offers_iff (hs : Lists paged s) :
    s.Offers list ↔ paged.limit s.screen ≤ s.response.length := by
  constructor
  · rintro (hbottom | hrefresh)
    · have he : (.scroll 0 0 0 : ListEvent Data).AtBottom := by
        show (0 : Int) ≥ 0 - 0 * 2
        decide
      exact (issues_atBottom_iff hs he).mp (hbottom _ he)
    · exact absurd hrefresh (not_issues_refreseh hs)
  · intro hfull
    refine Or.inl ?_
    intro e he
    exact (issues_atBottom_iff hs he).mpr hfull

end Listing

/-! ## What an event does to the pager -/

namespace Online

variable {list : ListScreen Screen Data} (paged : Paged list) {s t : Online Screen Picture Data}

/-- The posts of the list that the server holds. -/
def held (s : Online Screen Picture Data) : List (Posted Picture Data) :=
  s.saved.filter fun post => selects paged.toUser post.object

/-- When no query is in flight and the server holds more posts than are
    shown, one of the gestures issues a query. -/
def Unstuck (s : Online Screen Picture Data) : Prop :=
  s.list.queries = [] → list.numberOfRows s.list.screen < (s.held paged).length →
    s.list.Offers list

/-- The event does not leave the reader stuck: a post of the list is added
    only while a query is in flight or the last page is full; an answer
    shorter than its query's limit has as many posts as the server holds; and
    a query fails only when the server holds no more than is shown. -/
def Prompt (s : Online Screen Picture Data) : OnlineEvent Picture Data → Prop
  | .save post => selects paged.toUser post.object = true →
      s.list.queries ≠ [] ∨ paged.limit s.list.screen ≤ list.numberOfRows s.list.screen
  | .found _ _ newest =>
      paged.limit s.list.screen ≤ newest.length ∨ (s.held paged).length ≤ newest.length
  | .failed _ _ => (s.held paged).length ≤ list.numberOfRows s.list.screen
  | _ => True

variable {paged}

theorem unstuck_iff (hs : Listing.Lists paged s.list) :
    s.Unstuck paged ↔ ¬ (s.list.pager paged).Stalled (s.held paged).length := by
  rw [Unstuck, Listing.offers_iff hs, paged.counts hs.shows]
  constructor
  · intro h hstalled
    have hqueries : s.list.queries = [] := List.map_eq_nil_iff.mp hstalled.outstanding
    exact absurd (h hqueries hstalled.fewer) (Nat.not_le_of_lt hstalled.less)
  · intro h hqueries hfewer
    by_contra hless
    refine h ⟨?_, hfewer, Nat.lt_of_not_le hless⟩
    exact List.map_eq_nil_iff.mpr hqueries

/-- What the listing hears of an event. -/
def hears (s : Online Screen Picture Data) : OnlineEvent Picture Data → Option (ListEvent Data)
  | .save _ => none
  | .scroll contentOffset contentHeight frameHeight =>
      some (.scroll contentOffset contentHeight frameHeight)
  | .refreseh => some .refreseh
  | .cell row => some (.cell row)
  | .found i _ newest => s.list.queries[i]?.map fun q =>
      .complete i (.ok ((newest.take (limitOf q)).map Posted.object))
  | .failed i e => some (.complete i (.error e))

/-- What the listing hears can be read, and has no more posts than were asked
    for. -/
theorem hears_reads {e : OnlineEvent Picture Data} {f : ListEvent Data}
    (hreadable : ∀ post : Posted Picture Data, paged.Readable post.object)
    (h : s.hears e = some f) :
    Listing.Reads paged f ∧ (s.list.pager paged).Within f.action := by
  cases e with
  | save post => exact absurd h.symm (Option.some_ne_none f)
  | scroll offset height frame =>
      obtain rfl := Option.some.inj h
      refine ⟨trivial, ?_⟩
      rw [ListEvent.action]
      split <;> trivial
  | refreseh =>
      obtain rfl := Option.some.inj h
      exact ⟨trivial, trivial⟩
  | cell row =>
      obtain rfl := Option.some.inj h
      exact ⟨trivial, trivial⟩
  | failed i message =>
      obtain rfl := Option.some.inj h
      exact ⟨trivial, trivial⟩
  | found i saved newest =>
      obtain ⟨q, hget, rfl⟩ := Option.map_eq_some_iff.mp h
      constructor
      · intro object hobject
        obtain ⟨post, -, rfl⟩ := List.mem_map.mp hobject
        exact hreadable post
      · intro limit hlimit
        have hmap : (s.list.queries.map limitOf)[i]? = some limit := hlimit
        rw [List.getElem?_map, hget] at hmap
        obtain rfl := Option.some.inj hmap
        rw [List.length_map]
        exact List.length_take_le _ _

/-! ## Stuck and prompt -/

section

variable [DecidableEq Picture] {kit : ImageKit Picture Data}

/-- What every state keeps: what was written is read, pages come one at a
    time, and no more posts are shown than the server holds. -/
structure Pages (kit : ImageKit Picture Data) (paged : Paged list)
    (s : Online Screen Picture Data) : Prop where
  written : Written kit paged s
  tidy : (s.list.pager paged).Tidy paged.plan

/-- The server holds at least the posts that are shown. -/
theorem Pages.shown_le (hs : Pages kit paged s) :
    s.list.response.length ≤ (s.held paged).length := by
  have hsnapshot : s.last.newest.length ≤ (s.held paged).length := by
    rw [hs.written.newest.1.length_eq]
    exact (hs.written.snapshot.sublist.filter _).length_le
  rw [hs.written.response, List.length_map, Answer.posts]
  exact (List.length_take_le' _ _).trans hsnapshot

theorem pages_opened (kit : ImageKit Picture Data) (paged : Paged list) :
    Pages kit paged (opened list) := by
  refine ⟨written_opened kit paged, ?_⟩
  rw [show (opened list : Online Screen Picture Data).list = Listing.opened list from rfl,
    Listing.pager_opened]
  exact Pager.tidy_opened paged.plan

/-- The limit of a query in flight is the limit of the screen. -/
theorem Pages.limit_eq (hs : Pages kit paged s) {i : Nat} {q : Request Data}
    (hget : s.list.queries[i]? = some q) : limitOf q = paged.limit s.list.screen := by
  have hout : (s.list.pager paged).outstanding[i]? = some (limitOf q) := by
    show (s.list.queries.map limitOf)[i]? = _
    rw [List.getElem?_map, hget]
    rfl
  exact (hs.tidy.flying hout).2.2.1

/-- A post of the list that is added while nothing is in flight and the last
    page is not full leaves the reader stuck. -/
theorem stalled_save {post : Posted Picture Data} (hs : Pages kit paged s)
    (hnot : ¬ (s.list.pager paged).Stalled (s.held paged).length) :
    (s.list.pager paged).Stalled
        (({ s with saved := s.saved ++ [post] } : Online Screen Picture Data).held paged).length
      ↔ ¬ s.Prompt paged (.save post) := by
  have hcount : list.numberOfRows s.list.screen = s.list.response.length :=
    paged.counts hs.written.lists.shows
  have hheld : ({ s with saved := s.saved ++ [post] } : Online Screen Picture Data).held paged
      = s.held paged ++ [post].filter fun post => selects paged.toUser post.object :=
    List.filter_append ..
  rw [hheld, Prompt, hcount]
  by_cases hselects : selects paged.toUser post.object = true
  · have hone : ([post].filter fun post => selects paged.toUser post.object) = [post] :=
      List.filter_cons_of_pos hselects
    rw [hone, List.length_append, List.length_singleton]
    constructor
    · intro hstalled hprompt
      rcases hprompt hselects with hqueries | hfull
      · exact hqueries (List.map_eq_nil_iff.mp hstalled.outstanding)
      · exact absurd hfull (Nat.not_le_of_lt hstalled.less)
    · intro hlate
      obtain ⟨-, hboth⟩ := Classical.not_imp.mp hlate
      obtain ⟨hqueries, hfull⟩ := not_or.mp hboth
      exact ⟨List.map_eq_nil_iff.mpr (not_not.mp hqueries), Nat.lt_succ_of_le hs.shown_le,
        Nat.lt_of_not_le hfull⟩
  · have hnone : ([post].filter fun post => selects paged.toUser post.object) = [] :=
      List.filter_cons_of_neg hselects
    rw [hnone, List.append_nil]
    exact iff_of_false hnot (fun hlate => hlate fun h => absurd h hselects)

variable [DecidableEq Data]

/-- An event saves a post, or is an event of the listing. -/
theorem step_cases {e : OnlineEvent Picture Data} (hs : Written kit paged s)
    (h : s.step kit list e = some t) :
    (∃ post, e = .save post ∧ t = { s with saved := s.saved ++ [post] })
    ∨ (t.saved = s.saved ∧ ∃ f, s.hears e = some f ∧ s.list.step list f = some t.list) := by
  cases e with
  | save post =>
      obtain ⟨-, hsame⟩ := Option.ite_none_right_eq_some.mp h
      exact Or.inl ⟨post, rfl, (Option.some.inj hsame).symm⟩
  | scroll offset height frame =>
      obtain ⟨moved, hmoved, rfl⟩ := Option.map_eq_some_iff.mp h
      exact Or.inr ⟨rfl, _, rfl, hmoved⟩
  | refreseh =>
      obtain ⟨moved, hmoved, rfl⟩ := Option.map_eq_some_iff.mp h
      exact Or.inr ⟨rfl, _, rfl, hmoved⟩
  | cell row =>
      obtain ⟨moved, hmoved, rfl⟩ := Option.map_eq_some_iff.mp h
      exact Or.inr ⟨rfl, _, rfl, hmoved⟩
  | failed i message =>
      obtain ⟨moved, hmoved, rfl⟩ := Option.map_eq_some_iff.mp h
      exact Or.inr ⟨rfl, _, rfl, hmoved⟩
  | found i saved newest =>
      rw [step] at h
      cases hget : s.list.queries[i]? with
      | none =>
          rw [hget] at h
          exact absurd h.symm (Option.some_ne_none t)
      | some q =>
          obtain ⟨limit, rfl⟩ := hs.lists.asks q (List.mem_of_getElem? hget)
          rw [hget] at h
          obtain ⟨-, hcomplete⟩ := Option.ite_none_right_eq_some.mp h
          obtain ⟨moved, hmoved, rfl⟩ := Option.map_eq_some_iff.mp hcomplete
          refine Or.inr ⟨rfl, _, ?_, hmoved⟩
          rw [hears, hget]
          rfl

theorem pages_step {e : OnlineEvent Picture Data}
    (hreadable : ∀ post : Posted Picture Data, paged.Readable post.object)
    (hs : Pages kit paged s) (h : s.step kit list e = some t) : Pages kit paged t := by
  refine ⟨written_step hreadable hs.written h, ?_⟩
  rcases step_cases hs.written h with ⟨post, -, rfl⟩ | ⟨-, f, hf, hlist⟩
  · exact hs.tidy
  · obtain ⟨hreads, hwithin⟩ := hears_reads hreadable hf
    exact Pager.tidy_step hs.tidy hwithin (Listing.listing_step hs.written.lists hreads hlist).2

/-- **STALL STEP**: an event that does not find the reader stuck leaves the
    reader stuck exactly when it is not prompt. -/
theorem stalled_step {e : OnlineEvent Picture Data}
    (hreadable : ∀ post : Posted Picture Data, paged.Readable post.object)
    (hs : Pages kit paged s) (hnot : ¬ (s.list.pager paged).Stalled (s.held paged).length)
    (h : s.step kit list e = some t) :
    (t.list.pager paged).Stalled (t.held paged).length ↔ ¬ s.Prompt paged e := by
  rcases step_cases hs.written h with ⟨post, rfl, rfl⟩ | ⟨hsaved, f, hf, hlist⟩
  · exact stalled_save hs hnot
  have hcount : list.numberOfRows s.list.screen = s.list.response.length :=
    paged.counts hs.written.lists.shows
  have hpager : (s.list.pager paged).step paged.plan.size f.action
      = some (t.list.pager paged) :=
    (Listing.listing_step hs.written.lists (hears_reads hreadable hf).1 hlist).2
  have hheld : t.held paged = s.held paged := congrArg (List.filter _) hsaved
  rw [hheld]
  cases e with
  | save post => exact absurd hf.symm (Option.some_ne_none f)
  | scroll offset height frame =>
      obtain rfl := Option.some.inj hf
      refine iff_of_false ?_ (fun hlate => hlate trivial)
      rw [ListEvent.action] at hpager
      split at hpager
      · rw [← Option.some.inj hpager]
        exact fun hstalled => hnot (Pager.stalled_more hstalled)
      · rw [← Option.some.inj hpager]
        exact hnot
  | refreseh =>
      obtain rfl := Option.some.inj hf
      rw [← Option.some.inj hpager]
      exact iff_of_false hnot (fun hlate => hlate trivial)
  | cell row =>
      obtain rfl := Option.some.inj hf
      rw [← Option.some.inj hpager]
      exact iff_of_false hnot (fun hlate => hlate trivial)
  | failed i message =>
      obtain rfl := Option.some.inj hf
      obtain ⟨limit, hget, -⟩ := Pager.answer_cases hpager
      obtain ⟨-, -, -, -, -, hbeyond⟩ := hs.tidy.flying hget
      rw [Pager.stalled_answer hs.tidy hpager, Prompt, hcount, Nat.not_le]
      exact and_iff_left hbeyond
  | found i saved newest =>
      obtain ⟨q, hget, rfl⟩ := Option.map_eq_some_iff.mp hf
      rw [Pager.stalled_answer hs.tidy hpager, Prompt, not_or, Nat.not_le, Nat.not_le, and_comm]
      show (((newest.take (limitOf q)).map Posted.object).length < paged.limit s.list.screen
        ∧ ((newest.take (limitOf q)).map Posted.object).length < (s.held paged).length) ↔ _
      rw [List.length_map, List.length_take, hs.limit_eq hget]
      -- an answer cut to the limit is a full page
      constructor
      · rintro ⟨hless, hfewer⟩
        have hshort : newest.length < paged.limit s.list.screen := by omega
        rw [Nat.min_eq_right hshort.le] at hfewer
        exact ⟨hshort, hfewer⟩
      · rintro ⟨hshort, hfewer⟩
        rw [Nat.min_eq_right hshort.le]
        exact ⟨hshort, hfewer⟩

/-- **NEVER STUCK**, for any screen that lists posts: a run finds a gesture in
    every state exactly when all its events are prompt. -/
theorem unstuck_visits_iff
    (hreadable : ∀ post : Posted Picture Data, paged.Readable post.object)
    (es : List (OnlineEvent Picture Data)) :
    (∀ pre t, Visits (step kit list) (opened list) es pre t → t.Unstuck paged)
      ↔ ∀ pre t e, Fires (step kit list) (opened list) es pre t e → t.Prompt paged e := by
  refine visits_iff
    (fun _ t => Pages kit paged t ∧ ¬ (t.list.pager paged).Stalled (t.held paged).length)
    (fun _ t e => t.Prompt paged e) ⟨pages_opened kit paged, ?_⟩ ?_ ?_ ?_
  · -- the first query is in flight
    intro hstalled
    have hout := hstalled.outstanding
    rw [show (opened list : Online Screen Picture Data).list = Listing.opened list from rfl,
      Listing.pager_opened] at hout
    exact absurd hout (List.cons_ne_nil _ _)
  · intro _ s e t hs hprompt h
    refine ⟨pages_step hreadable hs.1 h, ?_⟩
    exact fun hstalled => (stalled_step hreadable hs.1 hs.2 h).mp hstalled hprompt
  · intro _ t ht
    exact (unstuck_iff ht.1.written.lists).mpr ht.2
  · intro _ s e t hs hlate h hunstuck
    have hlists := (pages_step hreadable hs.1 h).written.lists
    exact (unstuck_iff hlists).mp hunstuck ((stalled_step hreadable hs.1 hs.2 h).mpr hlate)

/-- **PAGING NEVER GETS STUCK, EXACTLY WHEN**: every post of the list is added
    while a query is in flight or the last page is full, every answer shorter
    than its limit has as many posts as the server holds, and no query fails
    while the server holds more than is shown. -/
theorem paging_unstuck_iff (kit : ImageKit Picture Data) (user : PFUser Data)
    (es : List (OnlineEvent Picture Data)) :
    ((∀ pre t, Visits (step kit feed) (opened feed) es pre t → t.Unstuck feedPaged)
      ↔ ∀ pre t e, Fires (step kit feed) (opened feed) es pre t e → t.Prompt feedPaged e)
    ∧ ((∀ pre t, Visits (step kit (userScreen user)) (opened (userScreen user)) es pre t →
          t.Unstuck (userPaged user))
      ↔ ∀ pre t e, Fires (step kit (userScreen user)) (opened (userScreen user)) es pre t e →
          t.Prompt (userPaged user) e) := by
  constructor
  · exact unstuck_visits_iff Posted.readable_object es
  · exact unstuck_visits_iff (fun post => (Posted.readable_object post).picture) es

/-- A post is saved, and the first page fails. -/
def failedLoad : List (OnlineEvent Nat Nat) := [.save (plainPost 1), .failed 0 "offline"]

/-- No gesture loads the post that the server holds. -/
theorem stuck_after_failedLoad :
    ∃ t, run (step numberKit feed) (opened feed) failedLoad = some t
      ∧ t.list.queries = [] ∧ feed.numberOfRows t.list.screen = 0
      ∧ (t.held feedPaged).length = 1 ∧ ¬ t.Unstuck feedPaged := by
  obtain ⟨t, ht, hqueries, hrows, hheld, hlimit⟩ :
      ∃ t, run (step numberKit feed) (opened feed) failedLoad = some t
        ∧ t.list.queries = [] ∧ feed.numberOfRows t.list.screen = 0
        ∧ (t.held feedPaged).length = 1 ∧ t.list.screen.post = 5 ∧ t.list.response = [] :=
    ⟨_, rfl, rfl, rfl, rfl, rfl, rfl⟩
  refine ⟨t, ht, hqueries, hrows, hheld, ?_⟩
  intro hunstuck
  have hs : Written numberKit feedPaged t :=
    written_visits Posted.readable_object ⟨List.prefix_rfl, ht⟩
  have hoffers := hunstuck hqueries (by rw [hrows, hheld]; exact Nat.one_pos)
  have hfull : t.list.screen.post ≤ t.list.response.length :=
    (Listing.offers_iff hs.lists).mp hoffers
  rw [hlimit.1, hlimit.2] at hfull
  exact absurd hfull (by decide)

end

end Online

end FPLists

import FPApp.AgeProofs
import FPApp.FlightProofs
import FPApp.ReuseProofs

/-! # Cells that are used again

    `Feed` and `User` show their rows in cells that UIKit hands out again and
    again.  A request for a cell sets its texts at once and starts a download;
    the completion block of the download captures the cell, not the row, and
    nobody clears the image.

    * `Table` — a listing, the cells it was given, and the downloads;
    * `feedCells` and `userCells` — the two screens, as designs of views that
      are used again;
    * `Requested` — a request for a cell, with the record of its row;
    * `right_picture_iff` — when all downloads are delivered, a cell shows the
      texts of the post it was last requested for, and the right image exactly
      when its last download to bring data was started for that post, or for
      one that looks the same. -/

namespace FPScreens

open FPParse

variable {Picture Data : Type}

/-! ## The cells -/

/-- `FeedCell`: what `cellForRowAt` changes of it. -/
structure FeedCell (Picture : Type) where
  postTitle : Text
  postComment : Text
  postDate : Text
  postImage : Option Picture

/-- The prototype in the storyboard. -/
def FeedCell.storyboard (kit : ImageKit Picture Data) : FeedCell Picture where
  postTitle := .literal "Title"
  postComment := .literal "Comments"
  postDate := .literal "Date"
  postImage := kit.named "round-help-button"

/-- The texts that `cellForRowAt` sets. -/
def FeedRow.configure (row : FeedRow Data) (now : Date) (cell : FeedCell Picture) :
    FeedCell Picture :=
  { cell with postTitle := row.postTitle, postComment := row.postComment,
              postDate := Feed.postDate (.components row.date now) cell.postDate }

/-- The completion block of the download that `cellForRowAt` starts. -/
def FeedCell.imageBlock (kit : ImageKit Picture Data) (cell : FeedCell Picture)
    (found : Except String Data) : FeedCell Picture × List (Effect Data) :=
  match found with
  | .ok data => ({ cell with postImage := kit.decode data }, [])
  | .error e => (cell, [.present ⟨"Error", e⟩])

/-- `UserCell` and its image view. -/
structure UserCell (Picture : Type) where
  cellImage : Option Picture

/-- The prototype in the storyboard: its image view is empty. -/
def UserCell.storyboard : UserCell Picture := ⟨none⟩

/-- The completion block of the download that `cellForItemAt` starts. -/
def UserCell.imageBlock (kit : ImageKit Picture Data) (cell : UserCell Picture)
    (found : Except String Data) : UserCell Picture × List (Effect Data) :=
  match found with
  | .ok data => ({ cell with cellImage := kit.decode data }, [])
  | .error e => (cell, [.present ⟨"Error", e⟩])

end FPScreens

namespace FPLists

open FPParse FPScreens EventRun Reuse

variable {Screen Cell View Subject Picture Data : Type}

/-! ## A listing and its cells -/

/-- A screen that lists posts, and its cells: what a row shows at some time,
    and which file it asks for. -/
structure CellScreen (Screen View Subject Picture Data : Type) where
  list : ListScreen Screen Data
  subject : Screen → Nat → Date → Option Subject
  file : Subject → PFFile Data
  design : Design View Subject (Except String Data) (Option Picture)

/-- What a download brings: the image made of its data. -/
def brought (kit : ImageKit Picture Data) : Except String Data → Option (Option Picture)
  | .ok data => some (kit.decode data)
  | .error _ => none

/-- `Feed`; a row at some time is the subject of a cell. -/
def feedCells (kit : ImageKit Picture Data) :
    CellScreen (Feed Data) (FeedCell Picture) (FeedRow Data × Date) Picture Data where
  list := feed
  subject screen row now := (screen.cellForRowAt row).map fun content => (content, now)
  file subject := subject.1.picture
  design :=
    { dress := fun subject cell => subject.1.configure subject.2 cell
      put := fun found cell => (cell.imageBlock kit found).1
      content := FeedCell.postImage
      sets := fun _ => none
      asks := fun _ => true
      brings := brought kit
      content_dress := fun _ _ => rfl
      content_put := by
        intro found cell
        cases found <;> rfl }

/-- `User`, while `user` is signed in; a file is the subject of a cell. -/
def userCells (kit : ImageKit Picture Data) (user : PFUser Data) :
    CellScreen (User Data) (UserCell Picture) (PFFile Data) Picture Data where
  list := userScreen user
  subject screen row _ := screen.cellForItemAt row
  file subject := subject
  design :=
    { dress := fun _ cell => cell
      put := fun found cell => (cell.imageBlock kit found).1
      content := UserCell.cellImage
      sets := fun _ => none
      asks := fun _ => true
      brings := brought kit
      content_dress := fun _ _ => rfl
      content_put := by
        intro found cell
        cases found <;> rfl }

/-- A listing with its cells. -/
structure Table (Screen Cell View Subject Data : Type) where
  list : Listing Screen Data
  pool : Pool Cell View Subject (Except String Data)

/-- A request for a cell: the cell, the record of the row it shows, and the
    time. -/
structure Requested (Cell Data : Type) where
  cell : Cell
  post : PFObject Data
  now : Date

/-- What happens: an event of the listing; UIKit hands out a cell for a row;
    the data of download `k` arrives, or an error. -/
inductive TableEvent (Cell Data : Type) where
  | list (e : ListEvent Data)
  | cell (cell : Cell) (row : Nat) (now : Date)
  | data (k : Nat) (error : Option String)

namespace Table

variable [DecidableEq Cell] (cells : CellScreen Screen View Subject Picture Data)

/-- A screen is opened with cells that nobody has used. -/
def opened (view : View) : Table Screen Cell View Subject Data where
  list := Listing.opened cells.list
  pool := Pool.opened fun _ => view

/-- What Parse hands to the completion block of a download. -/
def downloaded (file : PFFile Data) : Option String → Except String Data
  | none => .ok file.data
  | some e => .error e

/-- What an event does to the cells. -/
def act (s : Table Screen Cell View Subject Data) :
    TableEvent Cell Data → Option (Act Cell Subject (Except String Data))
  | .list _ => none
  | .cell cell row now =>
      (cells.subject s.list.screen row now).map fun subject => .dress cell subject
  | .data k error => s.pool.uses[k]?.map fun use =>
      .reply k (downloaded (cells.file use.subject) error)

/-- One event.  UIKit asks for rows that it counts only, and a process that
    trapped runs no completion block. -/
def step (s : Table Screen Cell View Subject Data) (e : TableEvent Cell Data) :
    Option (Table Screen Cell View Subject Data) :=
  match e with
  | .list f => (s.list.step cells.list f).map fun moved => { s with list := moved }
  | .cell _ row _ =>
      (s.list.step cells.list (.cell row)).bind fun moved =>
        (s.act cells e).bind fun a =>
          (s.pool.step cells.design a).map fun pool => ⟨moved, pool⟩
  | .data _ _ =>
      if s.list.trapped = none then
        (s.act cells e).bind fun a =>
          (s.pool.step cells.design a).map fun pool => { s with pool := pool }
      else none

/-- What a run does to the cells. -/
def acts (view : View) (es : List (TableEvent Cell Data)) :
    List (Act Cell Subject (Except String Data)) :=
  collect (step cells) (act cells) (opened cells view) es

/-- The request that an event makes: the record of its row is one of the last
    successful answer. -/
def request (s : Table Screen Cell View Subject Data) :
    TableEvent Cell Data → Option (Requested Cell Data)
  | .cell cell row now => s.list.response[row]?.map fun post => ⟨cell, post, now⟩
  | _ => none

/-- The requests that a run makes; each starts a download. -/
def requests (view : View) (es : List (TableEvent Cell Data)) : List (Requested Cell Data) :=
  collect (step cells) request (opened cells view) es

/-- The download that an event delivers to a cell, with data. -/
def brings (cell : Cell) (s : Table Screen Cell View Subject Data) :
    TableEvent Cell Data → Option Nat
  | .data k none =>
      match s.pool.uses[k]? with
      | none => none
      | some use => if use.cell = cell then some k else none
  | _ => none

/-- The downloads that a run delivers to a cell with data, in the order of
    their delivery. -/
def delivered (view : View) (es : List (TableEvent Cell Data)) (cell : Cell) : List Nat :=
  collect (step cells) (brings cell) (opened cells view) es

variable {cells} {s t : Table Screen Cell View Subject Data}

/-- An event steps the listing, or an act steps the cells; a cell is asked for
    in a row that the listing counts. -/
theorem step_cases {e : TableEvent Cell Data} (h : s.step cells e = some t) :
    (∃ f, e = .list f ∧ s.act cells e = none ∧ s.list.step cells.list f = some t.list
        ∧ t.pool = s.pool)
    ∨ (s.list.trapped = none ∧ t.list = s.list ∧ ∃ a, s.act cells e = some a
        ∧ s.pool.step cells.design a = some t.pool) := by
  cases e with
  | list f =>
      obtain ⟨moved, hmoved, rfl⟩ := Option.map_eq_some_iff.mp h
      exact Or.inl ⟨f, rfl, rfl, hmoved, rfl⟩
  | cell cell row now =>
      obtain ⟨moved, hmoved, hact⟩ := Option.bind_eq_some_iff.mp h
      obtain ⟨a, ha, hpool⟩ := Option.bind_eq_some_iff.mp hact
      obtain ⟨pool, hstep, rfl⟩ := Option.map_eq_some_iff.mp hpool
      obtain ⟨halive, hdeliver⟩ := Option.ite_none_right_eq_some.mp hmoved
      obtain ⟨-, hsame⟩ := Option.ite_none_right_eq_some.mp hdeliver
      exact Or.inr ⟨halive, (Option.some.inj hsame).symm, a, ha, hstep⟩
  | data k error =>
      obtain ⟨halive, hact⟩ := Option.ite_none_right_eq_some.mp h
      obtain ⟨a, ha, hpool⟩ := Option.bind_eq_some_iff.mp hact
      obtain ⟨pool, hstep, rfl⟩ := Option.map_eq_some_iff.mp hpool
      exact Or.inr ⟨halive, rfl, a, ha, hstep⟩

/-- An event that acts on the cells moves them as that act does; any other
    leaves them. -/
theorem drives_pool : Drives (step cells) (Pool.step cells.design)
    (Table.pool : Table Screen Cell View Subject Data → _) (act cells) := by
  intro s e u hu
  rcases step_cases hu with ⟨f, -, hnone, -, hpool⟩ | ⟨-, -, a, ha, hstep⟩
  · exact Or.inl ⟨hnone, hpool⟩
  · exact Or.inr ⟨a, ha, hstep⟩

/-- The cells of a run are those of a run of the pool. -/
theorem pool_run {view : View} {es : List (TableEvent Cell Data)}
    (h : run (step cells) (opened cells view) es = some t) :
    run (Pool.step cells.design) (Pool.opened fun _ => view) (acts cells view es)
      = some t.pool :=
  run_collect drives_pool h

/-! ## The requests -/

/-- What a related list holds at the place of an element. -/
theorem forall₂_getElem? {α β : Type} {R : α → β → Prop} {l : List α} {r : List β}
    (h : List.Forall₂ R l r) :
    ∀ {k : Nat} {b : β}, r[k]? = some b → ∃ a, l[k]? = some a ∧ R a b := by
  induction h with
  | nil =>
      intro k b hb
      exact absurd hb.symm (Option.some_ne_none b)
  | @cons a b l r hab _ ih =>
      intro k c hc
      cases k with
      | zero =>
          obtain rfl : b = c := Option.some.inj hc
          exact ⟨a, rfl, hab⟩
      | succ k => exact ih hc

/-- A use is made for the request at its place: it has the cell of the request,
    and its subject is what the screen makes of the record. -/
def Serves (P : PFObject Data → Date → Subject → Prop) (label : Cell × Subject)
    (request : Requested Cell Data) : Prop :=
  label.1 = request.cell ∧ P request.post request.now label.2

section

variable {paged : Paged cells.list} {P : PFObject Data → Date → Subject → Prop} {view : View}
  {es : List (TableEvent Cell Data)}

/-- While the process is alive the screen shows the last successful answer, so
    every cell is asked for by a row that shows one of its records. -/
theorem requests_run (hforces : Forces paged)
    (hP : ∀ {s : Listing Screen Data} {row : Nat} {now : Date} {subject : Subject},
      Listing.Lists paged s → cells.subject s.screen row now = some subject →
        ∃ post, s.response[row]? = some post ∧ P post now subject)
    (h : run (step cells) (opened cells view) es = some t) :
    List.Forall₂ (Serves P) (t.pool.uses.map Use.label) (requests cells view es) := by
  have hinv : (t.list.trapped = none → Listing.Lists paged t.list)
      ∧ List.Forall₂ (Serves P) (t.pool.uses.map Use.label) (requests cells view es) := by
    refine run_inv (fun es t => (t.list.trapped = none → Listing.Lists paged t.list)
      ∧ List.Forall₂ (Serves P) (t.pool.uses.map Use.label) (requests cells view es)) ?_ ?_ h
    · exact ⟨fun _ => Listing.lists_opened paged, .nil⟩
    · intro pre s e u hpre hs hu
      rw [requests, collect_concat _ hpre hu]
      rcases step_cases hu with ⟨f, rfl, -, hlist, hpool⟩ | ⟨halive, hlist, a, ha, hpool⟩
      · obtain ⟨halive, -⟩ := Option.ite_none_right_eq_some.mp hlist
        refine ⟨Listing.lists_step hforces (hs.1 halive) hlist, ?_⟩
        rw [hpool]
        exact (List.append_nil (requests cells view pre)).symm ▸ hs.2
      · refine ⟨hlist ▸ hs.1, ?_⟩
        rw [Pool.labels_step hpool]
        refine List.rel_append hs.2 ?_
        cases e with
        | list f => exact absurd ha.symm (Option.some_ne_none _)
        | cell c row now =>
            -- the cell is asked for, and the record of its row is written down
            obtain ⟨subject, hsubject, rfl⟩ := Option.map_eq_some_iff.mp ha
            obtain ⟨post, hpost, hserves⟩ := hP (hs.1 halive) hsubject
            rw [request, hpost]
            exact .cons ⟨rfl, hserves⟩ .nil
        | data k error =>
            obtain ⟨asked, -, rfl⟩ := Option.map_eq_some_iff.mp ha
            exact .nil
  exact hinv.2

/-- The use at the place of a request. -/
theorem use_of_request
    (hserves : List.Forall₂ (Serves P) (t.pool.uses.map Use.label) (requests cells view es))
    {k : Nat} {request : Requested Cell Data}
    (hrequest : (requests cells view es)[k]? = some request) :
    ∃ use, t.pool.uses[k]? = some use ∧ use.cell = request.cell
      ∧ P request.post request.now use.subject := by
  obtain ⟨label, hlabel, hcell, hP⟩ := forall₂_getElem? hserves hrequest
  rw [List.getElem?_map] at hlabel
  obtain ⟨use, huse, rfl⟩ := Option.map_eq_some_iff.mp hlabel
  exact ⟨use, huse, hcell, hP⟩

/-- The request at the place of a use. -/
theorem request_of_use
    (hserves : List.Forall₂ (Serves P) (t.pool.uses.map Use.label) (requests cells view es))
    {k : Nat} {use : Use Cell Subject (Except String Data)} (huse : t.pool.uses[k]? = some use) :
    ∃ request, (requests cells view es)[k]? = some request ∧ use.cell = request.cell
      ∧ P request.post request.now use.subject := by
  have hlabel : (t.pool.uses.map Use.label)[k]? = some use.label := by
    rw [List.getElem?_map, huse]
    rfl
  obtain ⟨request, hrequest, hcell, hP⟩ := forall₂_getElem? hserves.flip hlabel
  exact ⟨request, hrequest, hcell, hP⟩

end

/-- The reply to a use is what an event delivered. -/
theorem replies_run {view : View} {es : List (TableEvent Cell Data)}
    (h : run (step cells) (opened cells view) es = some t) :
    ∀ (k : Nat) use reply, t.pool.uses[k]? = some use → use.reply = some reply →
      ∃ error, .data k error ∈ es ∧ reply = downloaded (cells.file use.subject) error := by
  refine run_inv (fun es t => ∀ (k : Nat) use reply, t.pool.uses[k]? = some use →
    use.reply = some reply →
      ∃ error, .data k error ∈ es ∧ reply = downloaded (cells.file use.subject) error) ?_ ?_ h
  · intro k use reply huse
    exact absurd huse.symm (Option.some_ne_none use)
  · intro pre s e u _ hs hu k use reply huse hreply
    -- a use that was there with its reply
    have hold : s.pool.uses[k]? = some use → ∃ error, .data k error ∈ pre ++ [e]
        ∧ reply = downloaded (cells.file use.subject) error := by
      intro hget
      obtain ⟨error, hmem, heq⟩ := hs k use reply hget hreply
      exact ⟨error, List.mem_append_left [e] hmem, heq⟩
    rcases step_cases hu with ⟨f, -, -, -, hpool⟩ | ⟨-, -, a, ha, hpool⟩
    · exact hold (hpool ▸ huse)
    · rcases Pool.replied_step hpool huse hreply with hget | ⟨rfl, asked, hasked, hsubject⟩
      · exact hold hget
      · cases e with
        | list f => exact absurd ha.symm (Option.some_ne_none _)
        | cell c row now =>
            obtain ⟨subject, -, hdress⟩ := Option.map_eq_some_iff.mp ha
            cases hdress
        | data j error =>
            obtain ⟨same, hsame, hreplied⟩ := Option.map_eq_some_iff.mp ha
            injection hreplied with hj heq
            subst hj
            obtain rfl : asked = same := Option.some.inj (hasked.symm.trans hsame)
            exact ⟨error, List.mem_append_right pre (List.mem_singleton_self _),
              hsubject ▸ heq.symm⟩

/-! ## Right and timely -/

/-- The last request for a cell, and its download. -/
structure LastRequest (requests : List (Requested Cell Data)) (cell : Cell) (k : Nat)
    (request : Requested Cell Data) : Prop where
  made : requests[k]? = some request
  same : request.cell = cell
  last : ∀ (j : Nat) other, k < j → requests[j]? = some other → other.cell ≠ cell

/-- Download `k` fails. -/
def Failed (es : List (TableEvent Cell Data)) (k : Nat) : Prop :=
  ∃ localizedDescription, .data k (some localizedDescription) ∈ es

/-- The picture of a post. -/
def postPicture (kit : ImageKit Picture Data) (post : PFObject Data) : Option Picture :=
  (imageFile post).bind fun file => file.shows kit

/-- The image beside a post is right: its picture, or no post's image when the
    download failed. -/
def RightImage (kit : ImageKit Picture Data) (blank : Option Picture) (post : PFObject Data)
    (failed : Prop) (image : Option Picture) : Prop :=
  image = postPicture kit post ∨ failed ∧ (image = blank ∨ image = none)

/-- The downloads came in time: the last one to be delivered with data, if any,
    was started for a request whose post has the same picture; or, when the
    download of the last request failed, for one whose data are no picture. -/
def Timely (kit : ImageKit Picture Data) (blank : Option Picture)
    (requests : List (Requested Cell Data)) (delivered : List Nat) (post : PFObject Data)
    (failed : Prop) : Prop :=
  ∀ j request, delivered.getLast? = some j → requests[j]? = some request →
    postPicture kit request.post = postPicture kit post
      ∨ failed ∧ (postPicture kit request.post = blank ∨ postPicture kit request.post = none)

section

variable {kit : ImageKit Picture Data} {P : PFObject Data → Date → Subject → Prop} {view : View}
  {es : List (TableEvent Cell Data)}

/-- The downloads that were delivered with data are those that wrote the image
    of the cell. -/
theorem delivered_eq (hsets : ∀ subject, cells.design.sets subject = none)
    (hbrings : cells.design.brings = brought kit)
    (h : run (step cells) (opened cells view) es = some t) (cell : Cell) :
    Pool.sources cells.design (fun _ => view) (acts cells view es) cell
      = delivered cells view es cell := by
  refine collect_collect drives_pool ?_ h
  intro s e u hu
  cases e with
  | list f => rfl
  | cell c row now =>
      rw [act]
      cases hsubject : cells.subject s.list.screen row now with
      | none => rfl
      | some subject =>
          refine (if_neg ?_).symm
          rw [hsets]
          exact fun hnone => Bool.false_ne_true hnone.2
  | data k error =>
      rw [act]
      cases huse : s.pool.uses[k]? with
      | none =>
          cases error with
          | none =>
              rw [brings, huse]
              rfl
          | some message => rfl
      | some use =>
          simp only [Option.map_some, Option.bind_some, Pool.source, huse, hbrings]
          cases error with
          | none =>
              simp only [brings, huse]
              exact if_congr (and_iff_left rfl).symm rfl rfl
          | some message => exact (if_neg fun hbrought => Bool.false_ne_true hbrought.2).symm

/-- **THE IMAGE** of a cell is the picture of the post that the last download
    to be delivered with data was started for; and it is that of the prototype
    when none was. -/
theorem image_run (hsets : ∀ subject, cells.design.sets subject = none)
    (hbrings : cells.design.brings = brought kit)
    (hfile : ∀ {post now subject}, P post now subject →
      imageFile post = some (cells.file subject))
    (hserves : List.Forall₂ (Serves P) (t.pool.uses.map Use.label) (requests cells view es))
    (h : run (step cells) (opened cells view) es = some t) (cell : Cell) :
    (delivered cells view es cell = []
        ∧ cells.design.content (t.pool.view cell) = cells.design.content view)
      ∨ ∃ j request, (delivered cells view es cell).getLast? = some j
        ∧ (requests cells view es)[j]? = some request
        ∧ cells.design.content (t.pool.view cell) = postPicture kit request.post := by
  have hfrom := Pool.source_run (pool_run h) cell
  rw [delivered_eq hsets hbrings h] at hfrom
  cases hlast : (delivered cells view es cell).getLast? with
  | none =>
      rw [hlast] at hfrom
      exact Or.inl ⟨List.getLast?_eq_none_iff.mp hlast, hfrom⟩
  | some j =>
      rw [hlast] at hfrom
      obtain ⟨use, huse, -, hgives⟩ := hfrom
      obtain ⟨request, hrequest, -, hP⟩ := request_of_use hserves huse
      refine Or.inr ⟨j, request, rfl, hrequest, ?_⟩
      rw [Design.gives, hsets, Option.or_none, hbrings] at hgives
      obtain ⟨reply, hreply, hbrought⟩ := Option.bind_eq_some_iff.mp hgives
      obtain ⟨error, -, rfl⟩ := replies_run h j use reply huse hreply
      rw [postPicture, hfile hP]
      cases error with
      | none => exact (Option.some.inj hbrought).symm
      | some message => exact absurd hbrought.symm (Option.some_ne_none _)

/-- **RIGHT WHEN TIMELY**: when all downloads are delivered, the image of a
    cell is right exactly when they came in time. -/
theorem rightImage_run (hasks : ∀ subject, cells.design.asks subject = true)
    (hsets : ∀ subject, cells.design.sets subject = none)
    (hbrings : cells.design.brings = brought kit)
    (hfile : ∀ {post now subject}, P post now subject →
      imageFile post = some (cells.file subject))
    (hserves : List.Forall₂ (Serves P) (t.pool.uses.map Use.label) (requests cells view es))
    (h : run (step cells) (opened cells view) es = some t)
    (hsettled : t.pool.Settled cells.design) {cell : Cell} {k : Nat}
    {request : Requested Cell Data}
    (hlast : LastRequest (requests cells view es) cell k request) :
    RightImage kit (cells.design.content view) request.post (Failed es k)
        (cells.design.content (t.pool.view cell))
      ↔ Timely kit (cells.design.content view) (requests cells view es)
        (delivered cells view es cell) request.post (Failed es k) := by
  rcases image_run hsets hbrings hfile hserves h cell
    with ⟨hnone, himage⟩ | ⟨j, other, hj, hother, himage⟩
  · -- nothing was delivered to the cell: the last request's download failed
    obtain ⟨use, huse, hcell, hP⟩ := use_of_request hserves hlast.made
    obtain ⟨reply, hreply⟩ := Option.ne_none_iff_exists'.mp
      (hsettled use (List.mem_of_getElem? huse) (hasks _))
    obtain ⟨error, hmem, rfl⟩ := replies_run h k use reply huse hreply
    have hfailed : Failed es k := by
      cases error with
      | some message => exact ⟨message, hmem⟩
      | none =>
          have hsome : (cells.design.gives use).isSome := by
            rw [Design.gives, hreply, hbrings]
            rfl
          have hsource := Pool.gives_source (pool_run h) huse hsome
          rw [delivered_eq hsets hbrings h, hcell, hlast.same, hnone] at hsource
          exact absurd hsource List.not_mem_nil
    refine iff_of_true (Or.inr ⟨hfailed, Or.inl himage⟩) ?_
    intro j other hj
    rw [hnone] at hj
    exact absurd hj.symm (Option.some_ne_none j)
  · rw [himage]
    constructor
    · intro hright i found hi hfound
      obtain rfl : j = i := Option.some.inj (hj.symm.trans hi)
      obtain rfl : other = found := Option.some.inj (hother.symm.trans hfound)
      exact hright
    · intro htimely
      exact htimely j other hj hother

/-- The use of the last request is the last of the cell. -/
theorem last_of_request
    (hserves : List.Forall₂ (Serves P) (t.pool.uses.map Use.label) (requests cells view es))
    {cell : Cell} {k : Nat} {request : Requested Cell Data}
    (hlast : LastRequest (requests cells view es) cell k request) :
    ∃ use, t.pool.last cell = some use ∧ P request.post request.now use.subject := by
  obtain ⟨use, huse, hcell, hP⟩ := use_of_request hserves hlast.made
  refine ⟨use, Pool.last_of huse (hcell.trans hlast.same) ?_, hP⟩
  intro j other hj hother hsame
  obtain ⟨later, hlater, hcell', -⟩ := request_of_use hserves hother
  exact hlast.last j later hj hlater (hcell'.symm.trans hsame)

end

end Table

/-- A row of `Feed` at some time is that of a record. -/
def FeedServes (post : PFObject Data) (now : Date) (subject : FeedRow Data × Date) : Prop :=
  Feed.Of post subject.1 ∧ subject.2 = now

section

variable [DecidableEq Cell] {kit : ImageKit Picture Data}

/-- The cells of `Feed` are asked for by the rows of records. -/
theorem feed_requests {es : List (TableEvent Cell Data)}
    {t : Table (Feed Data) Cell (FeedCell Picture) (FeedRow Data × Date) Data}
    (h : run (Table.step (feedCells kit))
      (Table.opened (feedCells kit) (FeedCell.storyboard kit)) es = some t) :
    List.Forall₂ (Table.Serves FeedServes) (t.pool.uses.map Use.label)
      (Table.requests (feedCells kit) (FeedCell.storyboard kit) es) := by
  refine Table.requests_run feed_forces ?_ h
  intro s row now subject hlists hsubject
  obtain ⟨content, hrow, rfl⟩ := Option.map_eq_some_iff.mp hsubject
  obtain ⟨post, hpost, hof⟩ := Feed.cellForRowAt_of hlists.shows hrow
  exact ⟨post, hpost, hof, rfl⟩

/-- The cells of `User` are asked for by the files of records. -/
theorem user_requests {user : PFUser Data} {es : List (TableEvent Cell Data)}
    {t : Table (User Data) Cell (UserCell Picture) (PFFile Data) Data}
    (h : run (Table.step (userCells kit user))
      (Table.opened (userCells kit user) UserCell.storyboard) es = some t) :
    List.Forall₂ (Table.Serves fun post _ file => imageFile post = some file)
      (t.pool.uses.map Use.label)
      (Table.requests (userCells kit user) UserCell.storyboard es) := by
  refine Table.requests_run (user_forces user) ?_ h
  intro s row now file hlists hrow
  have hfiles : s.response.map imageFile = s.screen.pictureArray.map some := hlists.shows
  have hrow' : (s.response.map imageFile)[row]? = some (some file) := by
    rw [hfiles, List.getElem?_map, show s.screen.pictureArray[row]? = some file from hrow]
    rfl
  rw [List.getElem?_map] at hrow'
  exact Option.map_eq_some_iff.mp hrow'

/-- The texts of a cell of `Feed` are those of the row it was last asked for
    by. -/
theorem feedCells_texts {es : List (TableEvent Cell Data)}
    {t : Table (Feed Data) Cell (FeedCell Picture) (FeedRow Data × Date) Data}
    (h : run (Table.step (feedCells kit))
      (Table.opened (feedCells kit) (FeedCell.storyboard kit)) es = some t)
    {cell : Cell} {use : Use Cell (FeedRow Data × Date) (Except String Data)}
    (hlast : t.pool.last cell = some use) :
    (t.pool.view cell).postTitle = use.subject.1.postTitle
    ∧ (t.pool.view cell).postComment = use.subject.1.postComment
    ∧ (t.pool.view cell).postDate
        = (DateComponents.components use.subject.1.date use.subject.2).age.label := by
  have hworn : ((t.pool.view cell).postTitle, (t.pool.view cell).postComment,
        (t.pool.view cell).postDate)
      = (use.subject.1.postTitle, use.subject.1.postComment,
        (DateComponents.components use.subject.1.date use.subject.2).age.label) := by
    refine Pool.worn_run
      (fun cell : FeedCell Picture => (cell.postTitle, cell.postComment, cell.postDate))
      (fun subject : FeedRow Data × Date => (subject.1.postTitle, subject.1.postComment,
        (DateComponents.components subject.1.date subject.2).age.label)) ?_ ?_
      (Table.pool_run h) hlast
    · intro subject view
      exact congrArg (fun date => (subject.1.postTitle, subject.1.postComment, date))
        (postDate_eq _ _)
    · intro reply view
      cases reply <;> rfl
  obtain ⟨htitle, hrest⟩ := Prod.mk.inj hworn
  obtain ⟨hcomment, hdate⟩ := Prod.mk.inj hrest
  exact ⟨htitle, hcomment, hdate⟩

/-- **THE RIGHT PICTURE IN THE RIGHT ROW, EXACTLY WHEN**: whatever cells UIKit
    hands out, and in whatever order the downloads are delivered or fail, in
    the end a cell shows the title, the comments and the age of the post it was
    last requested for; and its image is right for that post exactly when the
    downloads came in time. -/
theorem right_picture_iff (kit : ImageKit Picture Data) (user : PFUser Data) :
    (∀ (es : List (TableEvent Cell Data)) t,
      run (Table.step (feedCells kit)) (Table.opened (feedCells kit) (FeedCell.storyboard kit)) es
        = some t →
      t.pool.Settled (feedCells kit).design → ∀ cell k request,
      Table.LastRequest (Table.requests (feedCells kit) (FeedCell.storyboard kit) es) cell k
        request →
      title request.post = some (t.pool.view cell).postTitle
      ∧ comments request.post = some (t.pool.view cell).postComment
      ∧ (∃ date, request.post.createdAt = some date
        ∧ (t.pool.view cell).postDate = (DateComponents.components date request.now).age.label)
      ∧ (Table.RightImage kit (kit.named "round-help-button") request.post (Table.Failed es k)
            (t.pool.view cell).postImage
          ↔ Table.Timely kit (kit.named "round-help-button")
            (Table.requests (feedCells kit) (FeedCell.storyboard kit) es)
            (Table.delivered (feedCells kit) (FeedCell.storyboard kit) es cell) request.post
            (Table.Failed es k)))
    ∧ (∀ (es : List (TableEvent Cell Data)) t,
      run (Table.step (userCells kit user)) (Table.opened (userCells kit user) UserCell.storyboard)
        es = some t →
      t.pool.Settled (userCells kit user).design → ∀ cell k request,
      Table.LastRequest (Table.requests (userCells kit user) UserCell.storyboard es) cell k
        request →
      (Table.RightImage kit none request.post (Table.Failed es k) (t.pool.view cell).cellImage
        ↔ Table.Timely kit none
          (Table.requests (userCells kit user) UserCell.storyboard es)
          (Table.delivered (userCells kit user) UserCell.storyboard es cell) request.post
          (Table.Failed es k))) := by
  constructor
  · intro es t h hsettled cell k request hlast
    have hserves := feed_requests h
    obtain ⟨use, huse, hof, hnow⟩ := Table.last_of_request hserves hlast
    obtain ⟨htitle, hcomment, hdate⟩ := feedCells_texts h huse
    refine ⟨by rw [htitle, hof.title], by rw [hcomment, hof.comments],
      ⟨use.subject.1.date, hof.date, by rw [hdate, hnow]⟩, ?_⟩
    exact Table.rightImage_run (fun _ => rfl) (fun _ => rfl) rfl (fun hP => hP.1.picture) hserves h
      hsettled hlast
  · intro es t h hsettled cell k request hlast
    exact Table.rightImage_run (fun _ => rfl) (fun _ => rfl) rfl id (user_requests h) h hsettled
      hlast

end

/-- A post with another title and another picture. -/
def otherPost : Posted Nat Nat :=
  { plainPost 2 with scene := ⟨some 8, .literal "other", .empty⟩, imageData := 8 }

/-- The only cell is asked for by the row of the other post, and then by that
    of the plain one; `downloads` says how their downloads are delivered. -/
def recycledCell (downloads : List (TableEvent Unit Nat)) : List (TableEvent Unit Nat) :=
  [.list (.complete 0 (.ok ([otherPost, plainPost 1].map Posted.object))), .cell () 0 ⟨60000⟩,
    .cell () 1 ⟨60000⟩] ++ downloads

/-- The last request for the cell is that of the plain post. -/
theorem recycledCell_last {requests : List (Requested Unit Nat)}
    (hrequests : requests
      = [⟨(), otherPost.object, ⟨60000⟩⟩, ⟨(), (plainPost 1).object, ⟨60000⟩⟩]) :
    Table.LastRequest requests () 1 ⟨(), (plainPost 1).object, ⟨60000⟩⟩ := by
  subst hrequests
  refine ⟨rfl, rfl, ?_⟩
  intro j other hj hother
  obtain ⟨hlt, -⟩ := List.getElem?_eq_some_iff.mp hother
  have hlength : j < 2 := hlt
  omega

/-- In the order of the requests, the downloads leave the right image; the
    picture of the other post, which came first, is gone. -/
theorem right_picture_iff_inOrder :
    ∃ t, run (Table.step (feedCells numberKit))
        (Table.opened (feedCells numberKit) (FeedCell.storyboard numberKit))
        (recycledCell [.data 0 none, .data 1 none]) = some t
      ∧ title (plainPost 1).object = some (t.pool.view ()).postTitle
      ∧ Table.RightImage numberKit (some 0) (plainPost 1).object
          (Table.Failed (recycledCell [.data 0 none, .data 1 none]) 1)
          (t.pool.view ()).postImage := by
  obtain ⟨t, hrun, hall, hrequests, hdelivered⟩ :
      ∃ t, run (Table.step (feedCells numberKit))
          (Table.opened (feedCells numberKit) (FeedCell.storyboard numberKit))
          (recycledCell [.data 0 none, .data 1 none]) = some t
        ∧ (t.pool.uses.all fun use => use.reply.isSome) = true
        ∧ Table.requests (feedCells numberKit) (FeedCell.storyboard numberKit)
            (recycledCell [.data 0 none, .data 1 none])
          = [⟨(), otherPost.object, ⟨60000⟩⟩, ⟨(), (plainPost 1).object, ⟨60000⟩⟩]
        ∧ Table.delivered (feedCells numberKit) (FeedCell.storyboard numberKit)
            (recycledCell [.data 0 none, .data 1 none]) () = [0, 1] :=
    ⟨_, rfl, rfl, rfl, rfl⟩
  obtain ⟨htitle, -, -, himage⟩ :=
    (right_picture_iff numberKit (plainPost 0).author).1 _ t hrun (Pool.settled_of_all hall) () 1 _
      (recycledCell_last hrequests)
  refine ⟨t, hrun, htitle, himage.mpr ?_⟩
  intro j request hj hrequest
  rw [hdelivered] at hj
  obtain rfl : 1 = j := Option.some.inj hj
  rw [hrequests] at hrequest
  obtain rfl := Option.some.inj hrequest
  exact Or.inl rfl

/-- In the other order, the plain post's row shows the other post's picture. -/
theorem wrong_picture_after_lateDownload :
    ∃ t, run (Table.step (feedCells numberKit))
        (Table.opened (feedCells numberKit) (FeedCell.storyboard numberKit))
        (recycledCell [.data 1 none, .data 0 none]) = some t
      ∧ t.pool.Settled (feedCells numberKit).design
      ∧ Table.LastRequest (Table.requests (feedCells numberKit) (FeedCell.storyboard numberKit)
          (recycledCell [.data 1 none, .data 0 none])) () 1
          ⟨(), (plainPost 1).object, ⟨60000⟩⟩
      ∧ title (plainPost 1).object = some (t.pool.view ()).postTitle
      ∧ (t.pool.view ()).postImage = some 8
      ∧ ¬ Table.RightImage numberKit (some 0) (plainPost 1).object
          (Table.Failed (recycledCell [.data 1 none, .data 0 none]) 1)
          (t.pool.view ()).postImage := by
  refine ⟨_, rfl, Pool.settled_of_all rfl, recycledCell_last rfl, rfl, rfl, ?_⟩
  rintro (himage | ⟨⟨message, hmem⟩, -⟩)
  · have hsame : (some 8 : Option Nat) = some 7 := himage
    exact absurd hsame (by decide)
  · simp [recycledCell] at hmem

end FPLists

import FPApp.EventRunProofs
import Mathlib.Logic.Function.Basic

/-! # Views that are used again

    A view is dressed for one subject after another.  Dressing it may start a
    fetch, whose reply comes later, in any order with the replies to other
    fetches, and is put into the view as it is then, whatever its subject is by
    that time.

    * `Design` — what dressing and a reply do to a view, and which of the two
      writes its content;
    * `Pool` — the views of a screen, and all uses that were made of them;
    * `sources` — the uses for which the content of a view was written, in the
      order of the writing;
    * `source_run` — the content of a view is what the last of these uses gave;
    * `gives_source` — a use that gives something is one of them;
    * `worn_run` — the rest of the view belongs to its last subject. -/

namespace Reuse

open EventRun

/-- What is done to a view: it is dressed for a subject, and a reply is put
    into it.  Both may write its content; a subject may ask for a fetch. -/
structure Design (View Subject Reply Content : Type) where
  dress : Subject → View → View
  put : Reply → View → View
  content : View → Content
  sets : Subject → Option Content
  asks : Subject → Bool
  brings : Reply → Option Content
  content_dress : ∀ subject view,
    content (dress subject view) = (sets subject).getD (content view)
  content_put : ∀ reply view, content (put reply view) = (brings reply).getD (content view)

/-- One use of a view: the view, its subject, and the reply to its fetch. -/
structure Use (Cell Subject Reply : Type) where
  cell : Cell
  subject : Subject
  reply : Option Reply

/-- What a use gives to its view: what the reply brings, or else what dressing
    it has set. -/
def Design.gives {Cell View Subject Reply Content : Type}
    (design : Design View Subject Reply Content) (use : Use Cell Subject Reply) :
    Option Content :=
  (use.reply.bind design.brings).or (design.sets use.subject)

/-- The view and the subject of a use. -/
def Use.label {Cell Subject Reply : Type} (use : Use Cell Subject Reply) : Cell × Subject :=
  (use.cell, use.subject)

/-- The views, and the uses made of them so far. -/
structure Pool (Cell View Subject Reply : Type) where
  view : Cell → View
  uses : List (Use Cell Subject Reply)

/-- What happens to a pool: a view is dressed, or the fetch of use `k` is
    answered. -/
inductive Act (Cell Subject Reply : Type) where
  | dress (cell : Cell) (subject : Subject)
  | reply (k : Nat) (reply : Reply)

/-- The view that an act dresses, and for what. -/
def Act.dresses {Cell Subject Reply : Type} : Act Cell Subject Reply → Option (Cell × Subject)
  | .dress cell subject => some (cell, subject)
  | .reply _ _ => none

variable {Cell View Subject Reply Content Worn : Type} [DecidableEq Cell]

namespace Pool

/-- No view has been used. -/
def opened (view : Cell → View) : Pool Cell View Subject Reply := ⟨view, []⟩

variable (design : Design View Subject Reply Content)

/-- One act. -/
def step (p : Pool Cell View Subject Reply) :
    Act Cell Subject Reply → Option (Pool Cell View Subject Reply)
  | .dress cell subject =>
      some { view := Function.update p.view cell (design.dress subject (p.view cell))
             uses := p.uses ++ [⟨cell, subject, none⟩] }
  | .reply k reply =>
      match p.uses[k]? with
      | none => none
      | some use =>
          if design.asks use.subject = true ∧ use.reply.isNone = true then
            some { view := Function.update p.view use.cell (design.put reply (p.view use.cell))
                   uses := p.uses.set k { use with reply := some reply } }
          else none

/-- The last use of a view. -/
def last (p : Pool Cell View Subject Reply) (cell : Cell) : Option (Use Cell Subject Reply) :=
  (p.uses.filter fun use => use.cell = cell).getLast?

/-- All fetches have been answered. -/
def Settled (p : Pool Cell View Subject Reply) : Prop :=
  ∀ use ∈ p.uses, design.asks use.subject = true → use.reply ≠ none

/-- The use for which an act writes the content of a view. -/
def source (cell : Cell) (p : Pool Cell View Subject Reply) :
    Act Cell Subject Reply → Option Nat
  | .dress c subject =>
      if c = cell ∧ (design.sets subject).isSome then some p.uses.length else none
  | .reply k reply =>
      match p.uses[k]? with
      | none => none
      | some use => if use.cell = cell ∧ (design.brings reply).isSome then some k else none

/-- The uses for which the acts write the content of a view, in their order. -/
def sources (view : Cell → View) (acts : List (Act Cell Subject Reply)) (cell : Cell) :
    List Nat :=
  collect (step design) (source design cell) (opened view) acts

/-- The content of a view is what the use `k` gave, or what it was at first. -/
def From (first : Content) (cell : Cell) (p : Pool Cell View Subject Reply) :
    Option Nat → Prop
  | none => design.content (p.view cell) = first
  | some k => ∃ use, p.uses[k]? = some use ∧ use.cell = cell
      ∧ design.gives use = some (design.content (p.view cell))

variable {design} {p q : Pool Cell View Subject Reply}

/-- A reply belongs to a use whose fetch was not answered. -/
theorem reply_cases {k : Nat} {reply : Reply} (h : p.step design (.reply k reply) = some q) :
    ∃ use, p.uses[k]? = some use ∧ design.asks use.subject = true ∧ use.reply = none ∧ q = {
      view := Function.update p.view use.cell (design.put reply (p.view use.cell))
      uses := p.uses.set k { use with reply := some reply } } := by
  rw [step] at h
  cases hget : p.uses[k]? with
  | none =>
      rw [hget] at h
      exact absurd h.symm (Option.some_ne_none q)
  | some use =>
      rw [hget] at h
      obtain ⟨⟨hasks, hnone⟩, hsome⟩ := Option.ite_none_right_eq_some.mp h
      exact ⟨use, rfl, hasks, Option.isNone_iff_eq_none.mp hnone, (Option.some.inj hsome).symm⟩

theorem last_mem {cell : Cell} {use : Use Cell Subject Reply} (h : p.last cell = some use) :
    use ∈ p.uses ∧ use.cell = cell := by
  obtain ⟨huse, hcell⟩ := List.mem_filter.mp (List.mem_of_getLast? h)
  exact ⟨huse, of_decide_eq_true hcell⟩

omit [DecidableEq Cell] in
theorem settled_of_all
    (h : (p.uses.all fun use => !design.asks use.subject || use.reply.isSome) = true) :
    p.Settled design := by
  intro use huse hasks hnone
  have hsome := List.all_eq_true.mp h use huse
  rw [hasks, hnone] at hsome
  exact absurd hsome Bool.false_ne_true

/-- The reply to a use was there before, or it is the one that just came. -/
theorem replied_step {a : Act Cell Subject Reply} (h : p.step design a = some q) {k : Nat}
    {use : Use Cell Subject Reply} {reply : Reply} (huse : q.uses[k]? = some use)
    (hreply : use.reply = some reply) :
    p.uses[k]? = some use
      ∨ a = .reply k reply ∧ ∃ asked, p.uses[k]? = some asked ∧ asked.subject = use.subject := by
  cases a with
  | dress c subject =>
      obtain rfl := Option.some.inj h
      rcases Nat.lt_or_ge k p.uses.length with hk | hk
      · exact Or.inl ((List.getElem?_append_left hk).symm.trans huse)
      · -- a new use has no reply
        rw [List.getElem?_append_right hk] at huse
        obtain rfl := List.mem_singleton.mp (List.mem_of_getElem? huse)
        exact absurd hreply.symm (Option.some_ne_none reply)
  | reply j answer =>
      obtain ⟨asked, hget, -, -, rfl⟩ := reply_cases h
      by_cases hj : j = k
      · subst hj
        obtain ⟨hk, -⟩ := List.getElem?_eq_some_iff.mp hget
        obtain rfl := Option.some.inj ((List.getElem?_set_self hk).symm.trans huse)
        obtain rfl := Option.some.inj hreply
        exact Or.inr ⟨rfl, asked, hget, rfl⟩
      · exact Or.inl ((List.getElem?_set_ne hj).symm.trans huse)

/-! ## Where the content comes from -/

omit [DecidableEq Cell] in
/-- An act that leaves the content of a view, and what the uses give to it,
    leaves where it comes from. -/
theorem From.kept {first : Content} {cell : Cell} {last : Option Nat}
    (hp : From design first cell p last)
    (hcontent : design.content (q.view cell) = design.content (p.view cell))
    (huses : ∀ (k : Nat) use, p.uses[k]? = some use → use.cell = cell →
      ∃ same, q.uses[k]? = some same ∧ same.cell = cell ∧ design.gives same = design.gives use) :
    From design first cell q last := by
  cases last with
  | none => exact hcontent.trans hp
  | some k =>
      obtain ⟨use, huse, hcell, hgives⟩ := hp
      obtain ⟨same, hsame, hsamecell, heq⟩ := huses k use huse hcell
      exact ⟨same, hsame, hsamecell, by rw [heq, hgives, hcontent]⟩

omit [DecidableEq Cell] in
/-- The uses so far stay where they are when one is added. -/
theorem getElem?_used {uses : List (Use Cell Subject Reply)} {k : Nat}
    {use : Use Cell Subject Reply} (huse : uses[k]? = some use) (new : Use Cell Subject Reply) :
    (uses ++ [new])[k]? = some use := by
  obtain ⟨hk, -⟩ := List.getElem?_eq_some_iff.mp huse
  rw [List.getElem?_append_left hk, huse]

/-- **ONE ACT** writes the content of a view for one use, or leaves it. -/
theorem source_step {first : Content} {cell : Cell} {last : Option Nat}
    {a : Act Cell Subject Reply} (hp : From design first cell p last)
    (h : p.step design a = some q) :
    From design first cell q ((source design cell p a).or last) := by
  cases a with
  | dress c subject =>
      obtain rfl := Option.some.inj h
      dsimp only [source]
      by_cases hsets : c = cell ∧ (design.sets subject).isSome
      · obtain ⟨rfl, hsome⟩ := hsets
        rw [if_pos ⟨rfl, hsome⟩]
        refine ⟨⟨c, subject, none⟩, List.getElem?_concat_length, rfl, ?_⟩
        obtain ⟨content, hcontent⟩ := Option.isSome_iff_exists.mp hsome
        show design.sets subject = some (design.content (Function.update p.view c _ c))
        rw [Function.update_self, design.content_dress, hcontent]
        rfl
      · rw [if_neg hsets, Option.none_or]
        refine hp.kept ?_ fun k use huse hcell => ⟨use, getElem?_used huse _, hcell, rfl⟩
        dsimp only
        by_cases hc : c = cell
        · subst hc
          have hnone : design.sets subject = none :=
            Option.not_isSome_iff_eq_none.mp fun hsome => hsets ⟨rfl, hsome⟩
          rw [Function.update_self, design.content_dress, hnone]
          rfl
        · rw [Function.update_of_ne (Ne.symm hc)]
  | reply k reply =>
      obtain ⟨asked, hget, -, hunanswered, rfl⟩ := reply_cases h
      obtain ⟨hk, -⟩ := List.getElem?_eq_some_iff.mp hget
      simp only [source, hget]
      by_cases hbrings : asked.cell = cell ∧ (design.brings reply).isSome
      · obtain ⟨rfl, hsome⟩ := hbrings
        rw [if_pos ⟨rfl, hsome⟩]
        refine ⟨{ asked with reply := some reply }, List.getElem?_set_self hk, rfl, ?_⟩
        obtain ⟨content, hcontent⟩ := Option.isSome_iff_exists.mp hsome
        show (design.brings reply).or _
          = some (design.content (Function.update p.view asked.cell _ asked.cell))
        rw [Function.update_self, design.content_put, hcontent]
        rfl
      · rw [if_neg hbrings, Option.none_or]
        refine hp.kept ?_ ?_
        · dsimp only
          by_cases hc : asked.cell = cell
          · subst hc
            have hnone : design.brings reply = none :=
              Option.not_isSome_iff_eq_none.mp fun hsome => hbrings ⟨rfl, hsome⟩
            rw [Function.update_self, design.content_put, hnone]
            rfl
          · rw [Function.update_of_ne (Ne.symm hc)]
        · intro j use huse hcell
          by_cases hj : k = j
          · subst hj
            -- the reply that came brings nothing, as none did before
            obtain rfl : asked = use := Option.some.inj (hget.symm.trans huse)
            refine ⟨{ asked with reply := some reply }, List.getElem?_set_self hk, hcell, ?_⟩
            have hnone : design.brings reply = none :=
              Option.not_isSome_iff_eq_none.mp fun hsome => hbrings ⟨hcell, hsome⟩
            rw [Design.gives, Design.gives, hunanswered, Option.bind_some, hnone]
            rfl
          · exact ⟨use, (List.getElem?_set_ne hj).trans huse, hcell, rfl⟩

/-- **LAST SOURCE**: a view holds what the last use to write its content gave,
    and what it held at first when none wrote it. -/
theorem source_run {view : Cell → View} {acts : List (Act Cell Subject Reply)}
    (h : run (step design) (opened view) acts = some p) (cell : Cell) :
    From design (design.content (view cell)) cell p (sources design view acts cell).getLast? := by
  refine run_inv (fun acts p => From design (design.content (view cell)) cell p
    (sources design view acts cell).getLast?) ?_ ?_ h
  · exact rfl
  · intro pre p a q hpre hp hstep
    rw [sources, collect_concat _ hpre hstep, List.getLast?_append]
    have hlast := source_step hp hstep
    cases hsource : source design cell p a with
    | none =>
        rw [hsource] at hlast
        exact hlast
    | some k =>
        rw [hsource] at hlast
        exact hlast

/-- A use that gives something gave it before, or the act wrote it. -/
theorem gives_step {a : Act Cell Subject Reply} (h : p.step design a = some q) {k : Nat}
    {use : Use Cell Subject Reply} (huse : q.uses[k]? = some use)
    (hsome : (design.gives use).isSome) :
    source design use.cell p a = some k
      ∨ ∃ old, p.uses[k]? = some old ∧ old.cell = use.cell ∧ (design.gives old).isSome := by
  cases a with
  | dress c subject =>
      obtain rfl := Option.some.inj h
      rcases Nat.lt_or_ge k p.uses.length with hold | hnew
      · exact Or.inr ⟨use, (List.getElem?_append_left hold).symm.trans huse, rfl, hsome⟩
      · obtain ⟨hk, -⟩ := List.getElem?_eq_some_iff.mp huse
        rw [List.length_append, List.length_singleton] at hk
        obtain rfl : k = p.uses.length := by omega
        obtain rfl : ⟨c, subject, none⟩ = use :=
          Option.some.inj (List.getElem?_concat_length.symm.trans huse)
        have hsets : (design.sets subject).isSome := hsome
        refine Or.inl ?_
        dsimp only [source]
        rw [if_pos ⟨rfl, hsets⟩]
  | reply j answer =>
      obtain ⟨asked, hget, -, hunanswered, rfl⟩ := reply_cases h
      by_cases hj : j = k
      · subst hj
        obtain ⟨hk, -⟩ := List.getElem?_eq_some_iff.mp hget
        obtain rfl : { asked with reply := some answer } = use :=
          Option.some.inj ((List.getElem?_set_self hk).symm.trans huse)
        cases hbrings : design.brings answer with
        | none =>
            refine Or.inr ⟨asked, hget, rfl, ?_⟩
            rw [Design.gives, Option.bind_some, hbrings] at hsome
            rw [Design.gives, hunanswered]
            exact hsome
        | some content =>
            refine Or.inl ?_
            simp only [source, hget]
            exact if_pos ⟨trivial, by rw [hbrings]; rfl⟩
      · exact Or.inr ⟨use, (List.getElem?_set_ne hj).symm.trans huse, rfl, hsome⟩

/-- A use that gives something is one of the sources. -/
theorem gives_source {view : Cell → View} {acts : List (Act Cell Subject Reply)}
    (h : run (step design) (opened view) acts = some p) {k : Nat} {use : Use Cell Subject Reply}
    (huse : p.uses[k]? = some use) (hsome : (design.gives use).isSome) :
    k ∈ sources design view acts use.cell := by
  have hall : ∀ (k : Nat) use, p.uses[k]? = some use → (design.gives use).isSome →
      k ∈ sources design view acts use.cell := by
    refine run_inv (fun acts p => ∀ (k : Nat) use, p.uses[k]? = some use →
      (design.gives use).isSome → k ∈ sources design view acts use.cell) ?_ ?_ h
    · intro k use huse
      exact absurd huse.symm (Option.some_ne_none use)
    · intro pre p a q hpre hp hstep k use huse hsome
      rw [sources, collect_concat _ hpre hstep]
      refine List.mem_append.mpr ?_
      rcases gives_step hstep huse hsome with hsource | ⟨old, hold, hcell, hgave⟩
      · refine Or.inr ?_
        rw [hsource]
        exact List.mem_singleton_self k
      · exact Or.inl (hcell ▸ hp k old hold hgave)
  exact hall k use huse hsome

/-! ## The last subject -/

/-- A list keeps what `f` sees of its elements that satisfy `P`, when one of
    them is replaced by another of the same kind. -/
theorem map_filter_set {α β : Type} {P : α → Bool} {f : α → β} {x y : α} {l : List α} {k : Nat}
    (hget : l[k]? = some y) (hP : P x = P y) (hf : f x = f y) :
    ((l.set k x).filter P).map f = (l.filter P).map f := by
  induction l generalizing k with
  | nil => rfl
  | cons a l ih =>
      cases k with
      | zero =>
          obtain rfl : a = y := Option.some.inj hget
          rw [List.set_cons_zero, List.filter_cons, List.filter_cons, hP]
          split
          · rw [List.map_cons, List.map_cons, hf]
          · rfl
      | succ k =>
          rw [List.set_cons_succ, List.filter_cons, List.filter_cons]
          split
          · rw [List.map_cons, List.map_cons, ih hget]
          · exact ih hget

theorem last_dress (p : Pool Cell View Subject Reply) (view : Cell → View) (c cell : Cell)
    (subject : Subject) :
    (⟨view, p.uses ++ [⟨c, subject, none⟩]⟩ : Pool Cell View Subject Reply).last cell
      = if c = cell then some ⟨c, subject, none⟩ else p.last cell := by
  rw [last, List.filter_append]
  by_cases hc : c = cell
  · have hone : ([⟨c, subject, none⟩] : List (Use Cell Subject Reply)).filter
        (fun use => use.cell = cell) = [⟨c, subject, none⟩] :=
      List.filter_cons_of_pos (decide_eq_true hc)
    rw [hone, if_pos hc, List.getLast?_concat]
  · have hnone : ([⟨c, subject, none⟩] : List (Use Cell Subject Reply)).filter
        (fun use => use.cell = cell) = [] :=
      List.filter_cons_of_neg (by simpa using hc)
    rw [hnone, if_neg hc, List.append_nil, last]

/-- A reply changes no subject. -/
theorem last_reply {k : Nat} {use : Use Cell Subject Reply} (hget : p.uses[k]? = some use)
    (view : Cell → View) (reply : Reply) (cell : Cell) :
    ((⟨view, p.uses.set k { use with reply := some reply }⟩ :
        Pool Cell View Subject Reply).last cell).map Use.subject
      = (p.last cell).map Use.subject := by
  rw [last, last, ← List.getLast?_map, ← List.getLast?_map]
  refine congrArg List.getLast? ?_
  exact map_filter_set hget rfl rfl

omit [DecidableEq Cell] in
theorem subjects_reply {k : Nat} {use : Use Cell Subject Reply} (hget : p.uses[k]? = some use)
    (reply : Reply) :
    (p.uses.set k { use with reply := some reply }).map Use.subject
      = p.uses.map Use.subject := by
  have hall := map_filter_set (P := fun _ => true) (f := Use.subject)
    (x := { use with reply := some reply }) hget rfl rfl
  rwa [List.filter_true, List.filter_true] at hall

/-- **ONE ACT** adds the use that it makes, and changes no other label. -/
theorem labels_step {a : Act Cell Subject Reply} (h : p.step design a = some q) :
    q.uses.map Use.label = p.uses.map Use.label ++ a.dresses.toList := by
  cases a with
  | dress c subject =>
      obtain rfl := Option.some.inj h
      exact List.map_append
  | reply k reply =>
      obtain ⟨asked, hget, -, -, rfl⟩ := reply_cases h
      have hall := map_filter_set (P := fun _ => true) (f := Use.label)
        (x := { asked with reply := some reply }) hget rfl rfl
      rw [List.filter_true, List.filter_true] at hall
      exact hall.trans (List.append_nil _).symm

/-- The use after which the view has no other is its last. -/
theorem last_of {cell : Cell} {k : Nat} {use : Use Cell Subject Reply}
    (huse : p.uses[k]? = some use) (hcell : use.cell = cell)
    (hlast : ∀ (j : Nat) other, k < j → p.uses[j]? = some other → other.cell ≠ cell) :
    p.last cell = some use := by
  obtain ⟨hk, hget⟩ := List.getElem?_eq_some_iff.mp huse
  have hsplit : p.uses = p.uses.take k ++ use :: p.uses.drop (k + 1) := by
    rw [← hget, List.cons_getElem_drop_succ, List.take_append_drop]
  have hnone : (p.uses.drop (k + 1)).filter (fun use => use.cell = cell) = [] := by
    refine List.filter_eq_nil_iff.mpr ?_
    intro other hother
    obtain ⟨i, hi⟩ := List.mem_iff_getElem?.mp hother
    rw [List.getElem?_drop] at hi
    have hne := hlast (k + 1 + i) other (by omega) hi
    simpa using hne
  have hself : (use :: p.uses.drop (k + 1)).filter (fun use => use.cell = cell) = [use] := by
    rw [List.filter_cons, if_pos (decide_eq_true hcell), hnone]
  rw [last, hsplit, List.filter_append, hself, List.getLast?_concat]

section Worn

variable (worn : View → Worn) (label : Subject → Worn)

/-- **ONE ACT** keeps what the views wear: what dressing put on, and no reply
    takes off. -/
theorem worn_step (hdress : ∀ subject view, worn (design.dress subject view) = label subject)
    (hput : ∀ reply view, worn (design.put reply view) = worn view)
    {a : Act Cell Subject Reply}
    (hp : ∀ cell subject, (p.last cell).map Use.subject = some subject →
      worn (p.view cell) = label subject)
    (h : p.step design a = some q) (cell : Cell) (subject : Subject)
    (hlast : (q.last cell).map Use.subject = some subject) :
    worn (q.view cell) = label subject := by
  cases a with
  | dress c newest =>
      obtain rfl := Option.some.inj h
      rw [last_dress] at hlast
      dsimp only
      by_cases hc : c = cell
      · subst hc
        rw [if_pos rfl] at hlast
        obtain rfl : newest = subject := Option.some.inj hlast
        rw [Function.update_self]
        exact hdress newest _
      · rw [if_neg hc] at hlast
        rw [Function.update_of_ne (Ne.symm hc)]
        exact hp cell subject hlast
  | reply k reply =>
      obtain ⟨use, hget, -, -, rfl⟩ := reply_cases h
      rw [last_reply hget] at hlast
      dsimp only
      by_cases hc : use.cell = cell
      · subst hc
        rw [Function.update_self, hput]
        exact hp use.cell subject hlast
      · rw [Function.update_of_ne (Ne.symm hc)]
        exact hp cell subject hlast

/-- **LAST SUBJECT**: a view wears the label of its last subject. -/
theorem worn_run (hdress : ∀ subject view, worn (design.dress subject view) = label subject)
    (hput : ∀ reply view, worn (design.put reply view) = worn view) {view : Cell → View}
    {acts : List (Act Cell Subject Reply)}
    (h : run (step design) (opened view) acts = some p) {cell : Cell}
    {use : Use Cell Subject Reply} (hlast : p.last cell = some use) :
    worn (p.view cell) = label use.subject := by
  have hall : ∀ cell subject, (p.last cell).map Use.subject = some subject →
      worn (p.view cell) = label subject := by
    refine run_inv (fun _ p => ∀ cell subject, (p.last cell).map Use.subject = some subject →
      worn (p.view cell) = label subject) ?_ ?_ h
    · intro cell subject hsome
      exact absurd hsome.symm (Option.some_ne_none subject)
    · intro _ p a q _ hp hstep
      exact worn_step worn label hdress hput hp hstep
  refine hall cell use.subject ?_
  rw [hlast]
  rfl

end Worn

end Pool

end Reuse

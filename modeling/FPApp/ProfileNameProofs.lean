import FPApp.ProfileProofs

/-! # The username on its way to the server

    `saveProfile` writes the name into the user object before it checks the
    length, and neither screen takes a name back when its save is refused.
    The next save of the object carries what is there.

    * `short_name_iff` — no save carries a name of fewer than four characters
      exactly when no save starts while the last name written by a press is
      that short;
    * `no_trace_iff` — the local name and the server's agree whenever no save is
      under way exactly when by then the last press that wrote a name was
      followed by a save that succeeded, or had typed what the server held. -/

namespace FPProfile

open FPParse FPScreens EventRun WriteBack

variable {Picture Data : Type} {kit : ImageKit Picture Data} {s t : Profile Picture Data}

namespace Profile

/-! ## Short names -/

/-- A save that starts now carries a name of fewer than four characters. -/
def CarriesShortName (s : Profile Picture Data) : Prop :=
  .username ∈ s.record.pending
    ∧ ∃ name, s.record.value .username = some (.string name) ∧ name.count < 4

/-- The last press that wrote the name had typed four or more characters. -/
def LongNameWritten (s : Profile Picture Data) : Prop :=
  ∀ press, s.writer .username = some press → 4 ≤ press.typed.count

/-- As long as no short name was carried, one that was written is pending. -/
structure ShortNamePending (s : Profile Picture Data) : Prop where
  accounted : s.Accounted
  pending : ∀ press, s.writer .username = some press → press.typed.count < 4 →
    .username ∈ s.record.pending

theorem carriesShortName_iff (hs : s.ShortNamePending) :
    ¬ s.CarriesShortName ↔ s.LongNameWritten := by
  constructor
  · intro hnot press hpress
    by_contra hshort
    have hpend := hs.pending press hpress (by omega)
    obtain ⟨press', hpress', hvalue⟩ := hs.accounted.written .username (Or.inl hpend)
    obtain rfl : press = press' := Option.some.inj (hpress.symm.trans hpress')
    exact hnot ⟨hpend, press.typed, hvalue, by omega⟩
  · rintro hlong ⟨hpend, name, hvalue, hshort⟩
    obtain ⟨press, hpress, hwritten⟩ := hs.accounted.written .username (Or.inl hpend)
    have hname : press.typed = name :=
      Value.string.inj (Option.some.inj (hwritten.symm.trans hvalue))
    have hcount := hlong press hpress
    rw [hname] at hcount
    omega

/-- A step that starts no save under a short name keeps it pending. -/
theorem shortNamePending_step {e : ProfileEvent Picture} (hs : s.ShortNamePending)
    (hlong : e = .start → s.LongNameWritten) (h : s.step kit e = some t) :
    t.ShortNamePending := by
  refine ⟨accounted_step hs.accounted h, ?_⟩
  cases step_does h with
  | touch tt free unlocked =>
      rw [touch_writer, touch_record]
      exact hs.pending
  | next effect effects todo =>
      rcases act_cases { s with todo := effects } effect with ⟨key, value, rfl, hact⟩
        | ⟨request, rfl, -, hact⟩ | ⟨-, hrec, hwriter⟩
      · rw [hact]
        intro press hpress hshort
        refine Replica.mem_pending_set.mpr ?_
        cases key with
        | username => exact Or.inl rfl
        | profilePicture =>
            have hother : UserKey.username ≠ .profilePicture := by decide
            rw [writer_write_ne _ value hother] at hpress
            exact Or.inr (hs.pending press hpress hshort)
      · rw [hact]
        exact hs.pending
      · rw [hrec, hwriter]
        exact hs.pending
  | start record starts =>
      -- the start makes nothing pending, and needs a long name
      intro press hpress hshort
      have hcount := hlong rfl press hpress
      omega
  | finish error record finishes =>
      intro press hpress hshort
      exact Replica.pending_subset_finish finishes (hs.pending press hpress hshort)
  | deliver i call error record free ended delivers =>
      obtain ⟨-, rfl⟩ := Replica.deliver_cases delivers
      exact hs.pending
  | download i arrives visit file free under =>
      obtain ⟨hrec, -, -, -, hwriter, -⟩ := downloadEnded_same kit s i visit file arrives
      rw [hrec, hwriter]
      exact hs.pending

theorem signedIn_shortNamePending (kit : ImageKit Picture Data) (user : PFUser Data) :
    (signedIn kit user).ShortNamePending :=
  ⟨signedIn_accounted kit user, fun _ hpress _ => absurd hpress (by simp [signedIn])⟩

/-- **SHORT NAMES**: no save that starts in a run carries a name of fewer than
    four characters exactly when, at every start, the last press that wrote
    the name had typed at least four. -/
theorem short_name_iff (kit : ImageKit Picture Data) (user : PFUser Data)
    (es : List (ProfileEvent Picture)) :
    (∀ pre t, Fires (step kit) (signedIn kit user) es pre t .start → ¬ t.CarriesShortName)
      ↔ (∀ pre t, Fires (step kit) (signedIn kit user) es pre t .start →
        t.LongNameWritten) := by
  have hiff : (∀ pre t e, Fires (step kit) (signedIn kit user) es pre t e →
        e = .start → ¬ t.CarriesShortName)
      ↔ (∀ pre t e, Fires (step kit) (signedIn kit user) es pre t e →
        e = .start → t.LongNameWritten) := by
    refine fires_iff (fun _ (t : Profile Picture Data) => t.ShortNamePending)
      (fun _ t (e : ProfileEvent Picture) => e = .start → t.LongNameWritten)
      (signedIn_shortNamePending kit user) ?_ ?_
    · intro _ t e u hs hlong hu
      exact shortNamePending_step hs hlong hu
    · intro _ t e u hs hu
      exact imp_congr_right fun _ => carriesShortName_iff hs
  constructor
  · intro h pre t ht
    refine hiff.mp ?_ pre t .start ht rfl
    rintro gpre g e hg rfl
    exact h gpre g hg
  · intro h pre t ht
    refine hiff.mpr ?_ pre t .start ht rfl
    rintro gpre g e hg rfl
    exact h gpre g hg

/-- A user whose name is the email address, and who has no picture. -/
def newUser : PFUser Nat where
  objectId := .literal "u1"
  username := .literal "a@b.c"
  email := .literal "a@b.c"
  profilePicture := none

/-- Two letters are typed and Save is pressed in `EditProfile`; then the
    picture's save starts. -/
def shortNameSave : List (ProfileEvent Nat) :=
  [.touch .openEditProfile, .touch (.typeUsername (.literal "ab")), .touch .saveProfile,
    .next, .next, .next, .next, .start]

/-- The picture's save takes the rejected name to the server. -/
theorem short_name_carried :
    ¬ ∀ pre t, Fires (step numberKit) (signedIn numberKit newUser) shortNameSave pre t .start →
      ¬ t.CarriesShortName := by
  intro h
  have hrun : ∃ t u, run (step numberKit) (signedIn numberKit newUser)
      (shortNameSave.take 7) = some t ∧ step numberKit t .start = some u
      ∧ .username ∈ t.record.pending
      ∧ t.record.value .username = some (.string (.literal "ab")) :=
    ⟨_, _, rfl, rfl, by decide, rfl⟩
  obtain ⟨t, u, ht, hu, hpend, hvalue⟩ := hrun
  refine h _ t ⟨List.prefix_rfl, ht, u, hu⟩ ⟨hpend, _, hvalue, by decide⟩

/-! ## Names that no save takes back -/

/-- Nothing is under way: no handler, and no save of the user object. -/
def AtRest (s : Profile Picture Data) : Prop := s.todo = [] ∧ s.record.Idle

/-- The local name is the server's. -/
def NamesAgree (s : Profile Picture Data) : Prop :=
  s.record.value .username = s.record.server .username

/-- The name typed at a press, or that of the sign-in. -/
def typedName (user : PFUser Data) : Option (Press Picture Data) → Text
  | none => user.username
  | some press => press.typed

/-- The last press that wrote a name had done so when the last successful save
    of the user object started; or it had typed the same as the press that had
    written the name by then. -/
def NameSettled (user : PFUser Data) (s : Profile Picture Data) : Prop :=
  s.writer .username = s.stored .username
    ∨ typedName user (s.writer .username) = typedName user (s.stored .username)

/-- What is held of the name is the text typed. -/
theorem held_username (user : PFUser Data) (press : Option (Press Picture Data)) :
    held user .username press = some (.string (typedName user press)) := by
  cases press <;> rfl

/-- The names agree exactly when the last one is settled. -/
theorem namesAgree_iff {user : PFUser Data} (hs : s.Sourced user) :
    s.NamesAgree ↔ s.NameSettled user := by
  rw [NamesAgree, hs.value .username, hs.server .username, held_username, held_username]
  constructor
  · intro hsame
    exact Or.inr (Value.string.inj (Option.some.inj hsame))
  · rintro (hpress | htyped)
    · rw [hpress]
    · rw [htyped]

/-- **NO TRACE, EXACTLY WHEN**: in a run the name that `PFUser.current()` holds
    is the server's whenever nothing is under way exactly when, each time, the
    last press that wrote a name was followed by a save that started later and
    succeeded, or had typed the name that the last such save found. -/
theorem no_trace_iff (kit : ImageKit Picture Data) (user : PFUser Data)
    (es : List (ProfileEvent Picture)) :
    (∀ pre t, Visits (step kit) (signedIn kit user) es pre t → t.AtRest → t.NamesAgree)
      ↔ (∀ pre t, Visits (step kit) (signedIn kit user) es pre t → t.AtRest →
        t.NameSettled user) := by
  constructor
  · intro h pre t ht hrest
    exact (namesAgree_iff (accounts_visits ht).2).mp (h pre t ht hrest)
  · intro h pre t ht hrest
    exact (namesAgree_iff (accounts_visits ht).2).mpr (h pre t ht hrest)

/-- Two names are typed in `EditProfile`.  The first press is rejected, and the
    picture's save that it called for is refused; the second press is made
    while that save runs, and its saves succeed. -/
def rejectedName : List (ProfileEvent Nat) :=
  [.touch .openEditProfile, .touch (.typeUsername (.literal "ab")), .touch .saveProfile,
    .next, .next, .next, .next, .start,
    .touch (.typeUsername (.literal "abcd")), .touch .saveProfile, .next, .next, .next, .next,
    .next, .next, .finish (some "offline"), .start, .finish none, .start, .finish none]

/-- Neither the rejected press nor the refused save has left a trace in the
    end, and none is seen at rest on the way. -/
theorem no_trace_iff_rejectedName :
    (∃ t, run (step numberKit) (signedIn numberKit newUser) rejectedName = some t ∧ t.AtRest
      ∧ t.record.value .username = some (.string (.literal "abcd")))
    ∧ ∀ pre t, Visits (step numberKit) (signedIn numberKit newUser) rejectedName pre t →
      t.AtRest → t.NamesAgree := by
  refine ⟨⟨_, rfl, ⟨rfl, rfl, rfl⟩, rfl⟩, (no_trace_iff numberKit newUser rejectedName).mpr ?_⟩
  -- a handler, a waiting save or a running one is under way
  have hbusy {s : Profile Nat Nat} (htodo : s.todo.isEmpty = false) :
      s.AtRest → s.NameSettled newUser := by
    intro hrest
    rw [hrest.1] at htodo
    exact absurd htodo.symm Bool.false_ne_true
  have hwaits {s : Profile Nat Nat} (hwaiting : s.record.waiting.isEmpty = false) :
      s.AtRest → s.NameSettled newUser := by
    intro hrest
    rw [hrest.2.1] at hwaiting
    exact absurd hwaiting.symm Bool.false_ne_true
  have hruns {s : Profile Nat Nat} (hrunning : s.record.running.isNone = false) :
      s.AtRest → s.NameSettled newUser := by
    intro hrest
    rw [hrest.2.2] at hrunning
    exact absurd hrunning.symm Bool.false_ne_true
  refine visits_of_along rfl (fun _ => Or.inl rfl) ?_
  exact ⟨fun _ => Or.inl rfl, fun _ => Or.inl rfl, fun _ => Or.inl rfl,
    hbusy rfl, hbusy rfl, hbusy rfl, hbusy rfl, hwaits rfl, hruns rfl, hruns rfl,
    hbusy rfl, hbusy rfl, hbusy rfl, hbusy rfl, hbusy rfl, hbusy rfl,
    hruns rfl, hwaits rfl, hwaits rfl, hwaits rfl, hruns rfl, trivial⟩

/-- A new user chooses a name that the server refuses, and then skips. -/
def refusedName : List (ProfileEvent Nat) :=
  [.touch (.typeChosenUsername (.literal "abcd")), .touch .userInfoSave,
    .next, .next, .next, .start, .finish (some "Account already exists for this username."),
    .deliver 0, .touch .skipYes, .next]

/-- After Skip the local name is the refused one, not the email address. -/
theorem trace_after_refusedName :
    ¬ ∀ pre t, Visits (step numberKit) (signedIn numberKit newUser) refusedName pre t →
      t.AtRest → t.NamesAgree := by
  intro h
  have hrun : ∃ t, run (step numberKit) (signedIn numberKit newUser) refusedName = some t
      ∧ t.AtRest
      ∧ t.record.value .username = some (.string (.literal "abcd"))
      ∧ t.record.server .username = some (.string (.literal "a@b.c")) :=
    ⟨_, rfl, ⟨rfl, rfl, rfl⟩, rfl, rfl⟩
  obtain ⟨t, ht, hrest, hvalue, hserver⟩ := hrun
  have heq := h refusedName t ⟨List.prefix_rfl, ht⟩ hrest
  rw [NamesAgree, hvalue, hserver] at heq
  exact absurd heq (by decide)

end Profile

end FPProfile

import FPApp.CurrentUserRunProofs

/-! # The session on disk

    The file of the current user and the session token in the keychain are
    written one after the other, and removed in any order; a launch puts
    together what it finds.  The process can be killed at any point.

    * `token_forgotten_iff` — when a session token that was logged out stays
      away, from memory and from disk;
    * `never_mixed_iff` — when a launch can put together the file of one user
      and the token of another. -/

namespace ParseSDK.CurrentUser

open EventRun

namespace Session

variable {Value : Type} {s t : Session Value}

/-! ## Session tokens -/

theorem sessionToken_modify_of_ne {r q : Ref} (h : r ≠ q) (f : PFUser Value → PFUser Value) :
    (s.modify r f).sessionToken q = s.sessionToken q := by
  rw [sessionToken, users_modify_of_ne s h]
  rfl

/-- A log-out takes the session token of one user. -/
theorem sessionToken_logOutUser (r q : Ref) :
    (s.logOutUser r).sessionToken q = if r = q then none else s.sessionToken q := by
  have hmodify : (s.logOutUser r).sessionToken q
      = (s.modify r fun u => { u with sessionToken := none, current := false }).sessionToken q :=
    rfl
  rw [hmodify]
  by_cases h : r = q
  · subst h
    rw [if_pos rfl, sessionToken, users_modify_self]
    cases s.users[r]? with
    | none => rfl
    | some u => rfl
  · rw [if_neg h, sessionToken_modify_of_ne h]

/-- The session token of a user that is new, or of one that was there. -/
theorem sessionToken_append {u : PFUser Value} {r : Ref} {token : String}
    (h : ({ s with users := s.users ++ [u] } : Session Value).sessionToken r = some token) :
    s.sessionToken r = some token ∨ (r = s.users.length ∧ u.sessionToken = some token) := by
  have hget : (s.users ++ [u])[r]? >>= PFUser.sessionToken = some token := h
  rcases Nat.lt_trichotomy r s.users.length with hlt | heq | hgt
  · rw [List.getElem?_append_left hlt] at hget
    exact Or.inl hget
  · rw [heq, List.getElem?_concat_length] at hget
    exact Or.inr ⟨heq, hget⟩
  · rw [List.getElem?_eq_none (by rw [List.length_append, List.length_singleton]; omega)] at hget
    exact absurd hget (by simp)

/-- A session token that a reply leaves: of the user it changes, or as before. -/
theorem sessionToken_modify {r q : Ref} {f : PFUser Value → PFUser Value} {token : String}
    (h : (s.modify r f).sessionToken q = some token) :
    (r = q ∧ ∃ u, s.users[r]? = some u ∧ (f u).sessionToken = some token)
      ∨ s.sessionToken q = some token := by
  by_cases hrq : r = q
  · subst hrq
    rw [sessionToken, users_modify_self] at h
    cases hu : s.users[r]? with
    | none =>
        rw [hu] at h
        exact absurd h (by simp)
    | some u =>
        rw [hu] at h
        exact Or.inl ⟨rfl, u, rfl, h⟩
  · rw [sessionToken_modify_of_ne hrq] at h
    exact Or.inr h

/-! ## A token that was logged out -/

/-- The keychain item is still to be removed. -/
def Deleting (s : Session Value) : Prop := ∃ file, s.running = some (.removing file true)

/-- Nobody in memory has the token, and the keychain has it at most until the
    log-out removes it. -/
def Gone (token : String) (s : Session Value) : Prop :=
  (∀ r, s.sessionToken r ≠ some token) ∧ (s.keychain = some (some token) → s.Deleting)

/-- The session token that an event hands out. -/
def handsOut : Event Value → Option String
  | .logIn reply | .fetch _ reply | .fetchAll _ reply => reply.sessionToken
  | .signUp _ result | .save _ result => result >>= Reply.sessionToken
  | .upgrade _ sessionToken => sessionToken
  | _ => none

/-- Parse does not hand the token out again; and as long as the keychain has it,
    its removal does not fail, and the process is not killed. -/
def Forgets (token : String) (s : Session Value) (e : Event Value) : Prop :=
  handsOut e ≠ some token
    ∧ (e = .deleteSensitiveUserData false ∨ e = .restart → s.keychain ≠ some (some token))

variable {token : String}

/-- Loading brings a token back only from the keychain. -/
theorem sessionToken_getCurrentUser {read : Bool} {r : Ref}
    (h : (s.getCurrentUser read).1.sessionToken r = some token) :
    s.sessionToken r = some token
      ∨ (s.keychain = some (some token) ∧ (s.getCurrentUser read).2 = some r
        ∧ ∃ file, s.file = some file
          ∧ (s.getCurrentUser read).1.objectId r = file.objectId) := by
  rcases getCurrentUser_cases (s := s) read with heq | ⟨-, -, -, heq⟩ | ⟨-, -, file, hfile, heq⟩
  · rw [heq] at h
    exact Or.inl h
  · rw [heq] at h
    exact Or.inl h
  · rw [heq] at h ⊢
    rcases sessionToken_append (s := s) h with hold | ⟨hr, hnew⟩
    · exact Or.inl hold
    · refine Or.inr ⟨?_, by rw [hr], file, hfile, ?_⟩
      swap
      · rw [hr]
        exact objectId_append (s := s) (loadCurrentUserFromDisk file s.keychain)
      have hjoin : s.keychain.join = some token := hnew
      cases hkey : s.keychain with
      | none =>
          rw [hkey] at hjoin
          exact absurd hjoin (by simp)
      | some item =>
          rw [hkey] at hjoin
          exact congrArg some hjoin

theorem getCurrentUser_disk (read : Bool) :
    (s.getCurrentUser read).1.file = s.file ∧ (s.getCurrentUser read).1.keychain = s.keychain := by
  rcases getCurrentUser_cases (s := s) read with heq | ⟨-, -, -, heq⟩ | ⟨-, -, file, -, heq⟩
  · rw [heq]
    exact ⟨rfl, rfl⟩
  · rw [heq]
    exact ⟨rfl, rfl⟩
  · rw [heq]
    exact ⟨rfl, rfl⟩

theorem logOutOther_disk (r : Ref) :
    (s.logOutOther r).file = s.file ∧ (s.logOutOther r).keychain = s.keychain := by
  rcases logOutOther_cases (s := s) r with ⟨heq, -⟩ | ⟨c, -, -, -, heq⟩
  · rw [heq]
    exact ⟨rfl, rfl⟩
  · rw [heq]
    exact ⟨rfl, rfl⟩

theorem logOutFound_disk (found : Option Ref) :
    (s.logOutFound found).file = s.file ∧ (s.logOutFound found).keychain = s.keychain := by
  cases found with
  | none => exact ⟨rfl, rfl⟩
  | some r => exact ⟨rfl, rfl⟩

/-- A job that starts changes nothing on disk. -/
theorem begin_disk {read : Bool} (h : s.begin read = some t) :
    t.file = s.file ∧ t.keychain = s.keychain := by
  obtain ⟨-, job, jobs, -, hjob⟩ := begin_cases h
  rcases hjob with ⟨rfl, rfl⟩ | ⟨r, rfl, rfl⟩ | ⟨rfl, rfl⟩
  · exact getCurrentUser_disk (s := { s with dataTaskQueue := jobs }) read
  · exact logOutOther_disk (s := { s with dataTaskQueue := jobs }) r
  · obtain ⟨hfile, hkey⟩ := getCurrentUser_disk (s := { s with dataTaskQueue := jobs }) read
    obtain ⟨hfile', hkey'⟩ := logOutFound_disk
      (s := ({ s with dataTaskQueue := jobs }.getCurrentUser read).1)
      ({ s with dataTaskQueue := jobs }.getCurrentUser read).2
    exact ⟨hfile'.trans hfile, hkey'.trans hkey⟩

/-- What a job that starts leaves of the session tokens: those there were, less
    the ones it logs out, and the one of the keychain, for the user of the
    file. -/
theorem begin_sessionToken {read : Bool} (h : s.begin read = some t) {r : Ref}
    (hr : t.sessionToken r = some token) :
    s.sessionToken r = some token
      ∨ (s.keychain = some (some token)
        ∧ ∃ file, s.file = some file ∧ t.objectId r = file.objectId) := by
  obtain ⟨-, job, jobs, -, hjob⟩ := begin_cases h
  have hload : ∀ q, ({ s with dataTaskQueue := jobs }.getCurrentUser read).1.sessionToken q
      = some token → s.sessionToken q = some token ∨ (s.keychain = some (some token)
        ∧ ∃ file, s.file = some file
          ∧ ({ s with dataTaskQueue := jobs }.getCurrentUser read).1.objectId q
            = file.objectId) := by
    intro q hq
    rcases sessionToken_getCurrentUser hq with hold | ⟨hkey, -, hfile⟩
    · exact Or.inl hold
    · exact Or.inr ⟨hkey, hfile⟩
  rcases hjob with ⟨rfl, rfl⟩ | ⟨user, rfl, rfl⟩ | ⟨rfl, rfl⟩
  · exact hload r hr
  · left
    have hr' : ({ s with dataTaskQueue := jobs }.logOutOther user).sessionToken r
        = some token := hr
    rcases logOutOther_cases (s := { s with dataTaskQueue := jobs }) user with
      ⟨heq, -⟩ | ⟨c, -, -, -, heq⟩
    · rw [heq] at hr'
      exact hr'
    · rw [heq, sessionToken_logOutUser] at hr'
      by_cases hc : c = r
      · rw [if_pos hc] at hr'
        exact absurd hr' (by simp)
      · rw [if_neg hc] at hr'
        exact hr'
  · have hr' : (({ s with dataTaskQueue := jobs }.getCurrentUser read).1.logOutFound
        ({ s with dataTaskQueue := jobs }.getCurrentUser read).2).sessionToken r = some token := hr
    have hid : ({ s with dataTaskQueue := jobs }.logOutCurrentUser read).objectId r
        = ({ s with dataTaskQueue := jobs }.getCurrentUser read).1.objectId r :=
      objectId_logOutFound _ r
    rw [hid]
    cases hfound : ({ s with dataTaskQueue := jobs }.getCurrentUser read).2 with
    | none =>
        rw [hfound] at hr'
        exact hload r hr'
    | some c =>
        rw [hfound, logOutFound, sessionToken_logOutUser] at hr'
        by_cases hc : c = r
        · rw [if_pos hc] at hr'
          exact absurd hr' (by simp)
        · rw [if_neg hc] at hr'
          exact hload r hr'

theorem mem_handsOut {u : PFUser Value} (result : Option (Reply Value))
    (h : (u.handleSaveResult result).sessionToken = some token) :
    u.sessionToken = some token ∨ result >>= Reply.sessionToken = some token := by
  cases result with
  | none => exact Or.inl h
  | some reply =>
      have hor : (reply.sessionToken <|> u.sessionToken) = some token := h
      cases hreply : reply.sessionToken with
      | none =>
          rw [hreply] at hor
          exact Or.inl hor
      | some other =>
          rw [hreply] at hor
          exact Or.inr (hreply.trans hor)

/-- A user that a reply is merged into has the token it had, or the one of the
    reply. -/
theorem sessionToken_result {user r : Ref} {result : Option (Reply Value)}
    (h : (s.modify user fun u => u.handleSaveResult result).sessionToken r = some token) :
    s.sessionToken r = some token ∨ result >>= Reply.sessionToken = some token := by
  rcases sessionToken_modify (s := s) h with ⟨rfl, u, hu, hnew⟩ | hold
  · rcases mem_handsOut result hnew with hold | hout
    · refine Or.inl ?_
      rw [sessionToken, hu]
      exact hold
    · exact Or.inr hout
  · exact Or.inl hold

/-- **WHERE TOKENS COME FROM**: a user has a session token after a step because
    it had it, because the step handed it out, or because a job that started
    loaded it from the keychain. -/
theorem step_sessionToken {e : Event Value} (ht : s.step e = some t) {r : Ref}
    (hr : t.sessionToken r = some token) :
    s.sessionToken r = some token ∨ handsOut e = some token
      ∨ ((∃ read, e = .begin read) ∧ s.keychain = some (some token)) := by
  -- left are the replies, and the job that loads, marks or logs out a user
  by_cases husers : e.leavesUsers = true
  · rw [Session.sessionToken, users_step husers ht] at hr
    exact Or.inl hr
  cases e with
  | create objectId serverData =>
      rw [← Option.some.inj ht] at hr
      rcases sessionToken_append (s := s) hr with hold | ⟨-, hnew⟩
      · exact Or.inl hold
      · exact absurd hnew (by simp)
  | logIn reply =>
      rw [← Option.some.inj ht] at hr
      rcases sessionToken_append (s := s) hr with hold | ⟨-, hnew⟩
      · exact Or.inl hold
      · exact Or.inr (Or.inl hnew)
  | signUp user result =>
      obtain ⟨-, rfl⟩ := receive_cases ht
      rcases sessionToken_modify (s := s) hr with ⟨rfl, u, hu, hnew⟩ | hold
      · cases result with
        | none =>
            refine Or.inl ?_
            rw [sessionToken, hu]
            exact hnew
        | some reply => exact Or.inr (Or.inl hnew)
      · exact Or.inl hold
  | save user result =>
      obtain ⟨-, rfl⟩ := receive_cases ht
      exact (sessionToken_result hr).imp_right Or.inl
  | fetch user reply =>
      obtain ⟨-, rfl⟩ := receive_cases ht
      have hfrom : s.sessionToken r = some token ∨ some reply >>= Reply.sessionToken = some token :=
        sessionToken_result hr
      exact hfrom.imp_right Or.inl
  | fetchAll user reply =>
      obtain ⟨-, rfl⟩ := mergeAll_cases ht
      have hfrom : s.sessionToken r = some token ∨ some reply >>= Reply.sessionToken = some token :=
        sessionToken_result hr
      exact hfrom.imp_right Or.inl
  | upgrade user sessionToken =>
      obtain ⟨-, rfl⟩ := receive_cases ht
      rcases sessionToken_modify (s := s) hr with ⟨rfl, u, hu, hnew⟩ | hold
      · exact Or.inr (Or.inl hnew)
      · exact Or.inl hold
  | begin read =>
      rcases begin_sessionToken ht hr with hold | hkey
      · exact Or.inl hold
      · exact Or.inr (Or.inr ⟨⟨read, rfl⟩, hkey.1⟩)
  | markCurrent =>
      obtain ⟨user, -, rfl⟩ := markCurrent_cases ht
      rcases sessionToken_modify (s := s) hr with ⟨rfl, u, hu, hnew⟩ | hold
      · refine Or.inl ?_
        rw [sessionToken, hu]
        exact hnew
      · exact Or.inl hold
  | restart =>
      rw [← Option.some.inj ht] at hr
      exact absurd hr (by simp [sessionToken, launch])
  | _ => exact absurd rfl husers

/-- A token that is handed out is in memory after the step. -/
theorem handsOut_held {e : Event Value} (ht : s.step e = some t)
    (hout : handsOut e = some token) : ∃ r, t.sessionToken r = some token := by
  have hmodify : ∀ {r : Ref} {f : PFUser Value → PFUser Value}, r < s.users.length →
      (∀ u : PFUser Value, (f u).sessionToken = some token) →
        (s.modify r f).sessionToken r = some token := by
    intro r f hlt hf
    rw [sessionToken, users_modify_self, List.getElem?_eq_getElem hlt]
    exact hf _
  have hmerge (reply : Reply Value) (hreply : reply.sessionToken = some token)
      (u : PFUser Value) : (u.mergeFromServer reply).sessionToken = some token := by
    rw [PFUser.mergeFromServer, hreply]
    rfl
  cases e with
  | logIn reply =>
      refine ⟨s.users.length, ?_⟩
      rw [← Option.some.inj ht]
      show (s.users ++ [reply.user])[s.users.length]? >>= PFUser.sessionToken = _
      rw [List.getElem?_concat_length]
      exact hout
  | signUp r result =>
      obtain ⟨hlt, rfl⟩ := receive_cases ht
      cases result with
      | none => exact absurd hout (by simp [handsOut])
      | some reply => exact ⟨r, hmodify hlt fun u => hout⟩
  | save r result =>
      obtain ⟨hlt, rfl⟩ := receive_cases ht
      cases result with
      | none => exact absurd hout (by simp [handsOut])
      | some reply => exact ⟨r, hmodify hlt (hmerge reply hout)⟩
  | fetch r reply =>
      obtain ⟨hlt, rfl⟩ := receive_cases ht
      exact ⟨r, hmodify hlt (hmerge reply hout)⟩
  | fetchAll r reply =>
      obtain ⟨hlt, rfl⟩ := mergeAll_cases ht
      exact ⟨r, hmodify hlt (hmerge reply hout)⟩
  | upgrade r sessionToken =>
      obtain ⟨hlt, rfl⟩ := receive_cases ht
      exact ⟨r, hmodify hlt fun u => hout⟩
  | _ => exact absurd hout (by simp [handsOut])

/-- What a step leaves in the keychain: what was there, unless the keychain item
    is removed, or the token of a user in memory. -/
theorem step_keychain {e : Event Value} (ht : s.step e = some t)
    (hkey : t.keychain = some (some token)) :
    s.keychain = some (some token) ∨ ∃ r, s.sessionToken r = some token := by
  by_cases haround : e.around = true
  · rw [(around_step haround ht).keychain] at hkey
    exact Or.inl hkey
  cases e with
  | begin read =>
      rw [(begin_disk ht).2] at hkey
      exact Or.inl hkey
  | markCurrent =>
      obtain ⟨user, -, rfl⟩ := markCurrent_cases ht
      exact Or.inl hkey
  | saveSensitiveUserData stored =>
      obtain ⟨user, -, rfl⟩ := saveSensitiveUserData_cases ht
      cases stored with
      | true => exact Or.inr ⟨user, Option.some.inj hkey⟩
      | false => exact Or.inl hkey
  | persistObject outcome =>
      obtain ⟨user, -, file, -, -, rfl⟩ := persistObject_cases ht
      exact Or.inl hkey
  | setCurrentUser =>
      obtain ⟨user, persisted, -, rfl⟩ := setCurrentUser_cases ht
      exact Or.inl hkey
  | removePersistentObject removed =>
      obtain ⟨keychain, -, rfl⟩ := removePersistentObject_cases ht
      exact Or.inl hkey
  | deleteSensitiveUserData deleted =>
      obtain ⟨file, -, rfl⟩ := deleteSensitiveUserData_cases ht
      cases deleted with
      | true => exact absurd hkey (by simp)
      | false => exact Or.inl hkey
  | clearCurrentUser =>
      obtain ⟨-, rfl⟩ := clearCurrentUser_cases ht
      exact Or.inl hkey
  | restart =>
      rw [← Option.some.inj ht] at hkey
      exact Or.inl hkey
  | _ => exact absurd rfl haround

/-- The removal of the keychain item stays pending until it is done, or until
    the process is killed. -/
theorem step_deleting {e : Event Value} (ht : s.step e = some t) (hd : s.Deleting) :
    t.Deleting ∨ e = .restart ∨ ∃ deleted, e = .deleteSensitiveUserData deleted := by
  obtain ⟨file, hrun⟩ := hd
  by_cases haround : e.around = true
  · exact Or.inl ⟨file, (around_step haround ht).running.trans hrun⟩
  cases e with
  | restart => exact Or.inr (Or.inl rfl)
  | deleteSensitiveUserData deleted => exact Or.inr (Or.inr ⟨deleted, rfl⟩)
  -- a job that is at another place does not go on
  | begin read =>
      have hidle := (begin_cases ht).1
      rw [hrun] at hidle
      exact absurd hidle (by simp)
  | markCurrent =>
      obtain ⟨user, hphase, -⟩ := markCurrent_cases ht
      rw [hrun] at hphase
      exact absurd hphase (by simp)
  | saveSensitiveUserData stored =>
      obtain ⟨user, hphase, -⟩ := saveSensitiveUserData_cases ht
      rw [hrun] at hphase
      exact absurd hphase (by simp)
  | persistObject outcome =>
      obtain ⟨user, hphase, -⟩ := persistObject_cases ht
      rw [hrun] at hphase
      exact absurd hphase (by simp)
  | setCurrentUser =>
      obtain ⟨user, persisted, hphase, -⟩ := setCurrentUser_cases ht
      rw [hrun] at hphase
      exact absurd hphase (by simp)
  | removePersistentObject removed =>
      obtain ⟨keychain, hphase, rfl⟩ := removePersistentObject_cases ht
      rw [hrun] at hphase
      have hkeychain : true = keychain := by
        injection hphase with hphase
        injection hphase
      exact Or.inl ⟨false, by rw [hkeychain]⟩
  | clearCurrentUser =>
      have hphase := (clearCurrentUser_cases ht).1
      rw [hrun] at hphase
      exact absurd hphase (by simp)
  | _ => exact absurd rfl haround

/-- **ONE STEP**: a token stays away exactly when the step forgets it. -/
theorem gone_step {e : Event Value} (h : Gone token s) (ht : s.step e = some t) :
    Gone token t ↔ Forgets token s e := by
  constructor
  · rintro ⟨hheld, hkey⟩
    refine ⟨?_, ?_⟩
    · intro hout
      obtain ⟨r, hr⟩ := handsOut_held ht hout
      exact hheld r hr
    · -- what is still in the keychain would have to be on its way out
      rintro (rfl | rfl) hstill
      · obtain ⟨file, -, rfl⟩ := deleteSensitiveUserData_cases ht
        obtain ⟨file', hrun⟩ := hkey hstill
        exact absurd hrun (by simp)
      · rw [← Option.some.inj ht] at hkey
        obtain ⟨file', hrun⟩ := hkey hstill
        exact absurd hrun (by simp [launch])
  · rintro ⟨hout, hremoved⟩
    refine ⟨?_, ?_⟩
    · intro r hr
      rcases step_sessionToken ht hr with hold | hnew | ⟨⟨read, rfl⟩, hkey⟩
      · exact h.1 r hold
      · exact hout hnew
      · obtain ⟨file, hrun⟩ := h.2 hkey
        rw [(begin_cases ht).1] at hrun
        exact absurd hrun (by simp)
    · intro hkey
      rcases step_keychain ht hkey with hold | ⟨r, hr⟩
      · rcases step_deleting ht (h.2 hold) with hdel | rfl | ⟨deleted, rfl⟩
        · exact hdel
        · exact absurd hold (hremoved (Or.inr rfl))
        · cases deleted with
          | true =>
              obtain ⟨file, -, rfl⟩ := deleteSensitiveUserData_cases ht
              exact absurd hkey (by simp)
          | false => exact absurd hold (hremoved (Or.inl rfl))
      · exact absurd hr (h.1 r)

theorem begin_logOut {jobs : List Job} (hq : s.dataTaskQueue = .logOutCurrentUser :: jobs)
    {read : Bool} (ht : s.begin read = some t) :
    t = { s with dataTaskQueue := jobs }.logOutCurrentUser read := by
  obtain ⟨-, job, jobs', hq', hjob⟩ := begin_cases ht
  rw [hq] at hq'
  obtain ⟨rfl, rfl⟩ := List.cons.inj hq'
  rcases hjob with ⟨habs, -⟩ | ⟨user, habs, -⟩ | ⟨-, heq⟩
  · exact absurd habs (by simp)
  · exact absurd habs (by simp)
  · exact heq

/-- A log-out that starts takes the token out of memory, if nobody but the
    current user has it. -/
theorem gone_logOut {jobs : List Job} (hq : s.dataTaskQueue = .logOutCurrentUser :: jobs)
    (hheld : ∀ r, s.sessionToken r = some token → s.currentUser = some r) {read : Bool}
    (ht : s.begin read = some t) : Gone token t := by
  obtain rfl := begin_logOut hq ht
  -- whoever has the token now is the user that the job found
  have hfound : ∀ r, ({ s with dataTaskQueue := jobs }.getCurrentUser read).1.sessionToken r
      = some token → ({ s with dataTaskQueue := jobs }.getCurrentUser read).2 = some r := by
    intro r hr
    rcases sessionToken_getCurrentUser hr with hold | ⟨-, hnew, -⟩
    · have hmem := hheld r hold
      simp [getCurrentUser, hmem]
    · exact hnew
  refine ⟨?_, fun _ => ⟨true, rfl⟩⟩
  intro r hr
  have hr' : (({ s with dataTaskQueue := jobs }.getCurrentUser read).1.logOutFound
      ({ s with dataTaskQueue := jobs }.getCurrentUser read).2).sessionToken r = some token := hr
  cases hget : ({ s with dataTaskQueue := jobs }.getCurrentUser read).2 with
  | none =>
      rw [hget] at hr'
      have habs := hfound r hr'
      rw [hget] at habs
      exact absurd habs (by simp)
  | some c =>
      rw [hget, logOutFound, sessionToken_logOutUser] at hr'
      by_cases hc : c = r
      · rw [if_pos hc] at hr'
        exact absurd hr' (by simp)
      · rw [if_neg hc] at hr'
        have habs := hfound r hr'
        rw [hget] at habs
        exact hc (Option.some.inj habs)

/-- Whoever else has the token keeps it when the log-out starts. -/
theorem held_of_gone {jobs : List Job} (hq : s.dataTaskQueue = .logOutCurrentUser :: jobs)
    {read : Bool} (ht : s.begin read = some t) (hgone : Gone token t) {r : Ref}
    (hr : s.sessionToken r = some token) : s.currentUser = some r := by
  obtain rfl := begin_logOut hq ht
  have hlt : r < s.users.length := by
    by_contra hle
    rw [sessionToken, List.getElem?_eq_none (Nat.le_of_not_lt hle)] at hr
    exact absurd hr (by simp)
  have hstays (u : Session Value) (found : Option Ref) (hu : u.sessionToken r = some token)
      (hne : found ≠ some r) : (u.logOutFound found).sessionToken r = some token := by
    cases found with
    | none => exact hu
    | some c =>
        rw [logOutFound, sessionToken_logOutUser, if_neg fun hc => hne (congrArg some hc)]
        exact hu
  by_contra hne
  refine hgone.1 r ?_
  show (({ s with dataTaskQueue := jobs }.getCurrentUser read).1.logOutFound
    ({ s with dataTaskQueue := jobs }.getCurrentUser read).2).sessionToken r = some token
  rcases getCurrentUser_cases (s := { s with dataTaskQueue := jobs }) read
    with heq | ⟨-, -, -, heq⟩ | ⟨-, -, file, -, heq⟩
  · rw [heq]
    exact hstays _ _ hr hne
  · rw [heq]
    exact hr
  · -- the user of the file is not the one that has the token
    rw [heq]
    refine hstays _ _ ?_ fun habs => absurd (Option.some.inj habs) (Nat.ne_of_gt hlt)
    show (s.users ++ [_])[r]? >>= PFUser.sessionToken = some token
    rw [List.getElem?_append_left hlt]
    exact hr

/-- **A TOKEN THAT WAS LOGGED OUT**: from the start of a log-out on, in every
    run, nobody in memory has the session token and the keychain has it at most
    until the log-out removes it, exactly when nobody but the current user had
    it, Parse does not hand the token out again, the removal does not fail, and
    the process is not killed before it. -/
theorem token_forgotten_iff {jobs : List Job} {read : Bool} {es : List (Event Value)}
    (hq : s.dataTaskQueue = .logOutCurrentUser :: jobs) (ht : s.begin read = some t) :
    (∀ pre u, Visits step t es pre u → Gone token u)
      ↔ (∀ r, s.sessionToken r = some token → s.currentUser = some r)
        ∧ ∀ pre u e, Fires step t es pre u e → Forgets token u e := by
  have hiff (hheld : ∀ r, s.sessionToken r = some token → s.currentUser = some r) :
      (∀ pre u, Visits step t es pre u → Gone token u)
        ↔ ∀ pre u e, Fires step t es pre u e → Forgets token u e := by
    refine visits_iff (fun _ u => Gone token u) (fun _ u e => Forgets token u e)
      (gone_logOut hq hheld ht) ?_ (fun _ _ h => h) ?_
    · intro pre u e v h hC hv
      exact (gone_step h hv).mpr hC
    · intro pre u e v h hC hv hgone
      exact hC ((gone_step h hv).mp hgone)
  constructor
  · intro hgone
    have hheld : ∀ r, s.sessionToken r = some token → s.currentUser = some r := fun r hr =>
      held_of_gone hq ht (hgone [] t ⟨List.nil_prefix, rfl⟩) hr
    exact ⟨hheld, (hiff hheld).mp hgone⟩
  · rintro ⟨hheld, hforgets⟩
    exact (hiff hheld).mpr hforgets

/-- Someone is signed in, and a log-out is about to start. -/
def loggingOut : Session Nat :=
  { launch (some ⟨some "A", []⟩) (some (some "r:1")) [] with
    users := [⟨some "A", some "r:1", [], true⟩]
    currentUser := some 0
    currentUserMatchesDisk := true
    dataTaskQueue := [.logOutCurrentUser] }

/-- The log-out goes on while the file cannot be removed: the user is back after
    a launch, but the token is not. -/
def unremovedFile : List (Event Nat) :=
  [.removePersistentObject false, .deleteSensitiveUserData true, .clearCurrentUser, .restart,
    .getCurrentUser, .begin true]

/-- It is the file that brings the user back, and the file has no token. -/
theorem token_forgotten_unremovedFile :
    ∃ t u, loggingOut.begin true = some t ∧ run step t unremovedFile = some u
      ∧ u.stored = some "A" ∧ Gone "r:1" u := by
  refine ⟨_, _, rfl, rfl, rfl, ?_⟩
  have hheld : ∀ r, loggingOut.sessionToken r = some "r:1" → loggingOut.currentUser = some r := by
    intro r hr
    cases r with
    | zero => rfl
    | succ r => exact absurd hr (by simp [sessionToken, loggingOut])
  refine (token_forgotten_iff rfl rfl).mpr ⟨hheld, ?_⟩ unremovedFile _
    ⟨List.prefix_rfl, rfl⟩
  refine fires_of_along (C := fun (u : Session Nat) e => Forgets "r:1" u e) unremovedFile _ ?_
  refine ⟨⟨?_, ?_⟩, ⟨?_, ?_⟩, ⟨?_, ?_⟩, ⟨?_, ?_⟩, ⟨?_, ?_⟩, ⟨?_, ?_⟩, trivial⟩
  all_goals simp [handsOut, launch, loggingOut]

/-! ## Two users on one disk -/

/-- The writes of the run succeed. -/
def Stores : Event Value → Prop
  | .saveSensitiveUserData stored => stored = true
  | .persistObject outcome => outcome = .written
  | _ => True

/-- A session token is of one user, its owner, and Parse hands it out for that
    user. -/
def HandsOutOwn (owner : String → String) (s : Session Value) : Event Value → Prop
  | .logIn reply => ∀ token, reply.sessionToken = some token →
      reply.objectId = some (owner token)
  | .signUp r result | .save r result => ∀ reply, result = some reply →
      ∀ token, reply.sessionToken = some token →
        (reply.objectId <|> s.objectId r) = some (owner token)
  | .fetch r reply | .fetchAll r reply => ∀ token, reply.sessionToken = some token →
      (reply.objectId <|> s.objectId r) = some (owner token)
  | .upgrade r sessionToken => ∀ token, sessionToken = some token →
      s.objectId r = some (owner token)
  | _ => True

/-- Every user in memory has a session token of its own, or none. -/
def Own (owner : String → String) (s : Session Value) : Prop :=
  ∀ r token, s.sessionToken r = some token → s.objectId r = some (owner token)

/-- A launch would find the file of one user and the session token of another. -/
def Mixed (owner : String → String) (s : Session Value) : Prop :=
  ∃ file token, s.file = some file ∧ s.keychain = some (some token)
    ∧ file.objectId ≠ some (owner token)

/-- The session token of a user is in the keychain, and the file is still the
    one of another. -/
def Torn (s : Session Value) : Prop :=
  ∃ r file token, s.running = some (.persistingObject r) ∧ s.file = some file
    ∧ s.keychain = some (some token) ∧ file.objectId ≠ s.objectId r

/-- While the file is being written, the token in the keychain is of the user
    that is saved; and a launch finds two users exactly while the disk is
    torn. -/
structure Whole (owner : String → String) (s : Session Value) : Prop where
  own : s.Own owner
  saved : ∀ r token, s.running = some (.persistingObject r) →
    s.keychain = some (some token) → s.objectId r = some (owner token)
  mixed : s.Mixed owner ↔ s.Torn

variable {owner : String → String}

theorem objectId_of_get {r : Ref} {u : PFUser Value} (hu : s.users[r]? = some u) :
    s.objectId r = u.objectId := by
  rw [objectId, hu]
  rfl

/-- No file is being written. -/
theorem not_torn (h : ∀ r, s.running ≠ some (.persistingObject r)) : ¬ s.Torn := by
  rintro ⟨r, file, token, hrun, -⟩
  exact h r hrun

theorem Own.extends (h : s.Own owner) (hext : s.Extends t) {r : Ref} {token : String}
    (hr : s.sessionToken r = some token) : t.objectId r = some (owner token) := by
  have hid := h r token hr
  rw [hext r (by rw [hid]; rfl)]
  exact hid

/-- A reply that is merged leaves every user with a token of its own. -/
theorem own_modify (h : s.Own owner) {r : Ref} {f : PFUser Value → PFUser Value}
    (hext : s.Extends (s.modify r f))
    (hf : ∀ u token, s.users[r]? = some u → (f u).sessionToken = some token →
      u.sessionToken = some token ∨ (f u).objectId = some (owner token)) :
    (s.modify r f).Own owner := by
  intro q token hq
  rcases sessionToken_modify hq with ⟨rfl, u, hu, hnew⟩ | hold
  · rcases hf u token hu hnew with hold | hid
    · refine h.extends hext ?_
      rw [sessionToken, hu]
      exact hold
    · rw [objectId, users_modify_self, hu]
      exact hid
  · exact h.extends hext hold

/-- A reply with a token names its owner. -/
theorem own_merge {r : Ref} {u : PFUser Value} {reply : Reply Value} {token : String}
    (hu : s.users[r]? = some u)
    (ho : ∀ token, reply.sessionToken = some token →
      (reply.objectId <|> s.objectId r) = some (owner token))
    (hnew : (u.mergeFromServer reply).sessionToken = some token) :
    u.sessionToken = some token ∨ (u.mergeFromServer reply).objectId = some (owner token) := by
  have hid : s.objectId r = u.objectId := objectId_of_get hu
  rcases mem_handsOut (some reply) hnew with hold | hout
  · exact Or.inl hold
  · right
    have howner := ho token hout
    rwa [hid] at howner

/-- **OWN**: a step leaves every user with a session token of its own, provided
    a job that starts does not find two users on disk. -/
theorem own_step (h : s.Own owner) {e : Event Value} (ha : s.Answered e)
    (ho : s.HandsOutOwn owner e) (hdisk : s.running = none → ¬ s.Mixed owner)
    (ht : s.step e = some t) : t.Own owner := by
  by_cases he : e = .restart
  · subst he
    rw [← Option.some.inj ht]
    intro r token hr
    exact absurd hr (by simp [sessionToken, launch])
  have hext := extends_step ha ht he
  cases e with
  | create objectId serverData =>
      intro r token hr
      rw [← Option.some.inj ht] at hr
      rcases sessionToken_append (s := s) hr with hold | ⟨-, hnew⟩
      · exact h.extends hext hold
      · exact absurd hnew (by simp)
  | logIn reply =>
      intro r token hr
      rw [← Option.some.inj ht] at hr
      rcases sessionToken_append (s := s) hr with hold | ⟨hlen, hnew⟩
      · exact h.extends hext hold
      · rw [← Option.some.inj ht, hlen]
        exact (objectId_append (s := s) reply.user).trans (ho token hnew)
  | signUp r result =>
      obtain ⟨reply, rfl, -, -⟩ := ha
      obtain ⟨-, rfl⟩ := receive_cases ht
      refine own_modify h hext ?_
      intro u token hu hnew
      have hid : s.objectId r = u.objectId := objectId_of_get hu
      have howner := ho reply rfl token hnew
      rw [hid] at howner
      exact Or.inr howner
  | save r result =>
      obtain ⟨-, rfl⟩ := receive_cases ht
      refine own_modify h hext ?_
      intro u token hu hnew
      cases result with
      | none => exact Or.inl hnew
      | some reply => exact own_merge hu (ho reply rfl) hnew
  | fetch r reply =>
      obtain ⟨-, rfl⟩ := receive_cases ht
      refine own_modify h hext ?_
      intro u token hu hnew
      exact own_merge hu ho hnew
  | fetchAll r reply =>
      obtain ⟨-, rfl⟩ := mergeAll_cases ht
      refine own_modify h hext ?_
      intro u token hu hnew
      exact own_merge hu ho hnew
  | upgrade r sessionToken =>
      obtain ⟨-, rfl⟩ := receive_cases ht
      refine own_modify h hext ?_
      intro u token hu hnew
      have hid : s.objectId r = u.objectId := objectId_of_get hu
      have howner := ho token hnew
      rw [hid] at howner
      exact Or.inr howner
  | begin read =>
      intro r token hr
      rcases begin_sessionToken ht hr with hold | ⟨hkey, file, hfile, hid⟩
      · exact h.extends hext hold
      · rw [hid]
        by_contra hne
        exact hdisk (begin_cases ht).1 ⟨file, token, hfile, hkey, hne⟩
  | markCurrent =>
      obtain ⟨user, -, rfl⟩ := markCurrent_cases ht
      exact own_modify h hext fun u token _ hnew => Or.inl hnew
  | restart => exact absurd rfl he
  | _ =>
      -- the users stay as they are
      intro r token hr
      rcases step_sessionToken ht hr with hold | hout | ⟨⟨read, habs⟩, -⟩
      · exact h.extends hext hold
      · exact absurd hout (by simp [handsOut])
      · exact absurd habs (by simp)

/-- A job that starts is not yet at the file. -/
theorem begin_running {read : Bool} (h : s.begin read = some t) (r : Ref) :
    t.running ≠ some (.persistingObject r) := by
  obtain ⟨hidle, job, jobs, -, hjob⟩ := begin_cases h
  rcases hjob with ⟨rfl, rfl⟩ | ⟨user, rfl, rfl⟩ | ⟨rfl, rfl⟩
  · rw [(getCurrentUser_frame (s := { s with dataTaskQueue := jobs }) read).2.1]
    show s.running ≠ _
    rw [hidle]
    simp
  · simp [saveCurrentUser]
  · simp [logOutCurrentUser]

/-- What goes on around the controller. -/
theorem Whole.around (h : s.Whole owner) (hown : t.Own owner) (hext : s.Extends t)
    (haround : s.Around t) : t.Whole owner := by
  obtain ⟨hrun, hfile, hkey⟩ := haround
  have hname : ∀ r token, s.running = some (.persistingObject r) →
      s.keychain = some (some token) → t.objectId r = s.objectId r := by
    intro r token hr hk
    exact hext r (by rw [h.saved r token hr hk]; rfl)
  refine ⟨hown, ?_, ?_⟩
  · intro r token hr hk
    rw [hrun] at hr
    rw [hkey] at hk
    rw [hname r token hr hk]
    exact h.saved r token hr hk
  · rw [Mixed, hfile, hkey, Torn, hfile, hkey, hrun]
    refine h.mixed.trans ?_
    constructor
    · rintro ⟨r, file, token, hr, hf, hk, hne⟩
      exact ⟨r, file, token, hr, hf, hk, by rwa [hname r token hr hk]⟩
    · rintro ⟨r, file, token, hr, hf, hk, hne⟩
      exact ⟨r, file, token, hr, hf, hk, by rwa [hname r token hr hk] at hne⟩

/-- No file is being written, and a launch does not find two users. -/
theorem whole_of_not_mixed (hown : t.Own owner)
    (hrun : ∀ r, t.running ≠ some (.persistingObject r)) (hmixed : ¬ t.Mixed owner) :
    t.Whole owner :=
  ⟨hown, fun r _ hr _ => absurd hr (hrun r), iff_of_false hmixed (not_torn hrun)⟩

/-- The token goes into the keychain: the disk is torn until the file follows. -/
theorem whole_saveSensitiveUserData (h : s.Whole owner)
    (ht : s.saveSensitiveUserData true = some t) : t.Whole owner := by
  obtain ⟨user, -, rfl⟩ := saveSensitiveUserData_cases ht
  have hsaved : ∀ token, (some (s.sessionToken user) : Option (Option String))
      = some (some token) → s.objectId user = some (owner token) :=
    fun token hk => h.own user token (Option.some.inj hk)
  refine ⟨h.own, ?_, ?_⟩
  · intro r token hr hk
    have hr' : Phase.persistingObject user = .persistingObject r := Option.some.inj hr
    rw [← Phase.persistingObject.inj hr']
    exact hsaved token hk
  · constructor
    · rintro ⟨file, token, hf, hk, hne⟩
      refine ⟨user, file, token, rfl, hf, hk, ?_⟩
      show file.objectId ≠ s.objectId user
      rw [hsaved token hk]
      exact hne
    · rintro ⟨r, file, token, hr, hf, hk, hne⟩
      have hr' : Phase.persistingObject user = .persistingObject r := Option.some.inj hr
      refine ⟨file, token, hf, hk, ?_⟩
      rw [← hsaved token hk, Phase.persistingObject.inj hr']
      exact hne

/-- The file follows: it is of the user whose token the keychain has. -/
theorem whole_persistObject (h : s.Whole owner) (ht : s.persistObject .written = some t) :
    t.Whole owner := by
  obtain ⟨user, hrun, file, -, hwritten, rfl⟩ := persistObject_cases ht
  refine whole_of_not_mixed h.own (fun r => by simp) ?_
  rintro ⟨f, token, hf, hk, hne⟩
  have hfile : s.users[user]?.map PFUser.file = some f := (hwritten rfl).symm.trans hf
  obtain ⟨u, hu, rfl⟩ := Option.map_eq_some_iff.mp hfile
  have hid := h.saved user token hrun hk
  rw [objectId_of_get hu] at hid
  exact hne hid

/-- **WHOLE**: what holds of the disk goes on holding, unless the process is
    killed while the disk is torn. -/
theorem whole_step (h : s.Whole owner) {e : Event Value} (ha : s.Answered e)
    (ho : s.HandsOutOwn owner e) (hw : Stores e) (hC : e = .restart → ¬ s.Torn)
    (ht : s.step e = some t) : t.Whole owner := by
  have hquiet : (∀ r, s.running ≠ some (.persistingObject r)) → ¬ s.Mixed owner :=
    fun hrun hm => not_torn hrun (h.mixed.mp hm)
  have hown : t.Own owner :=
    own_step h.own ha ho (fun hidle => hquiet fun r => by rw [hidle]; simp) ht
  -- a step of a job that is not at the file, before and after
  have hrunning : ∀ phase, s.running = some phase → (∀ r, phase ≠ .persistingObject r) →
      ¬ s.Mixed owner := by
    intro phase hrun hne
    refine hquiet ?_
    intro r hr
    rw [hrun] at hr
    exact hne r (Option.some.inj hr)
  by_cases haround : e.around = true
  · have hext := extends_step ha ht (by rintro rfl; exact absurd haround (by simp [Event.around]))
    exact h.around hown hext (around_step haround ht)
  cases e with
  | restart =>
      -- what is on disk is torn only while a job is at the file
      rw [← Option.some.inj ht]
      refine whole_of_not_mixed ?_ (fun r => by simp [launch]) ?_
      · intro r token hr
        exact absurd hr (by simp [sessionToken, launch])
      · exact fun hm => hC rfl (h.mixed.mp hm)
  | begin read =>
      obtain ⟨hfile, hkey⟩ := begin_disk ht
      refine whole_of_not_mixed hown (begin_running ht) ?_
      rw [Mixed, hfile, hkey]
      exact hquiet fun r => by rw [(begin_cases ht).1]; simp
  | markCurrent =>
      obtain ⟨user, hrun, rfl⟩ := markCurrent_cases ht
      exact whole_of_not_mixed hown (fun r => by simp) (hrunning _ hrun fun r => by simp)
  | saveSensitiveUserData stored =>
      obtain rfl : stored = true := hw
      exact whole_saveSensitiveUserData h ht
  | persistObject outcome =>
      obtain rfl : outcome = .written := hw
      exact whole_persistObject h ht
  | setCurrentUser =>
      obtain ⟨user, persisted, hrun, rfl⟩ := setCurrentUser_cases ht
      exact whole_of_not_mixed hown (fun r => by simp) (hrunning _ hrun fun r => by simp)
  | removePersistentObject removed =>
      obtain ⟨keychain, hrun, rfl⟩ := removePersistentObject_cases ht
      refine whole_of_not_mixed hown (fun r => by simp) ?_
      rintro ⟨file, token, hf, hk, hne⟩
      refine hrunning _ hrun (fun r => by simp) ⟨file, token, ?_, hk, hne⟩
      cases removed with
      | true => exact absurd hf (by simp)
      | false => exact hf
  | deleteSensitiveUserData deleted =>
      obtain ⟨file, hrun, rfl⟩ := deleteSensitiveUserData_cases ht
      refine whole_of_not_mixed hown (fun r => by simp) ?_
      rintro ⟨f, token, hf, hk, hne⟩
      refine hrunning _ hrun (fun r => by simp) ⟨f, token, hf, ?_, hne⟩
      cases deleted with
      | true => exact absurd hk (by simp)
      | false => exact hk
  | clearCurrentUser =>
      obtain ⟨hrun, rfl⟩ := clearCurrentUser_cases ht
      exact whole_of_not_mixed hown (fun r => by simp) (hrunning _ hrun fun r => by simp)
  | _ => exact absurd rfl haround

/-- **NEVER MIXED**: in every run from a launch whose writes succeed, whenever
    the process is killed, every user in memory has a session token of its own
    in every state, and a launch would find two users exactly while the disk is
    torn; provided, and only then, that the process is never killed while it
    is. -/
theorem never_mixed_iff {file : Option (UserFile Value)} {keychain : Option (Option String)}
    {es : List (Event Value)}
    (hdisk : ∀ f token, file = some f → keychain = some (some token) →
      f.objectId = some (owner token))
    (hrun : ∀ pre t e, Fires step (launch file keychain []) es pre t e →
      t.Answered e ∧ t.HandsOutOwn owner e ∧ Stores e) :
    (∀ pre t, Visits step (launch file keychain []) es pre t →
        t.Own owner ∧ (t.Mixed owner ↔ t.Torn))
      ↔ ∀ pre t e, Fires step (launch file keychain []) es pre t e → e = .restart → ¬ t.Torn := by
  refine visits_law_iff (fun _ t => t.Whole owner) (fun _ t e => e = .restart → ¬ t.Torn) hrun
    ?_ ?_ ?_ ?_
  · refine whole_of_not_mixed ?_ (fun r => by simp [launch]) ?_
    · intro r token hr
      exact absurd hr (by simp [sessionToken, launch])
    · rintro ⟨f, token, hf, hk, hne⟩
      exact hne (hdisk f token hf hk)
  · intro pre t e u h ha hC hu
    exact whole_step h ha.1 ha.2.1 ha.2.2 hC hu
  · intro pre t h
    exact ⟨h.own, h.mixed⟩
  · -- a launch after the kill finds what was torn
    intro pre t e u h ha hC hu hlaw
    obtain ⟨rfl, htorn⟩ := Classical.not_imp.mp hC
    rw [not_not] at htorn
    have hmixed : u.Mixed owner := by
      rw [← Option.some.inj hu]
      exact h.mixed.mpr htorn
    refine not_torn ?_ (hlaw.2.mp hmixed)
    intro r
    rw [← Option.some.inj hu]
    simp [launch]

/-- The user "A" is on disk; the app logs in as "B", and is killed once the
    session token is in the keychain. -/
def tornKill : List (Event Nat) :=
  [.logIn ⟨some "B", some "r:2", []⟩, .begin true, .markCurrent, .saveSensitiveUserData true,
    .restart, .getCurrentUser, .begin true]

/-- The next launch finds "A" with the session token of "B". -/
theorem never_mixed_tornKill :
    (∃ t, run step (launch (some ⟨some "A", []⟩) (some (some "r:1")) []) tornKill = some t
        ∧ t.objectId 0 = some "A" ∧ t.sessionToken 0 = some "r:2")
      ∧ ¬ ∀ pre t, Visits step (launch (some ⟨some "A", []⟩) (some (some "r:1")) []) tornKill
          pre t → t.Own (fun token => if token = "r:1" then "A" else "B")
            ∧ (t.Mixed (fun token => if token = "r:1" then "A" else "B") ↔ t.Torn) := by
  refine ⟨⟨_, rfl, rfl, rfl⟩, ?_⟩
  intro hall
  have hrun : ∀ pre t e,
      Fires step (launch (some ⟨some "A", []⟩) (some (some "r:1")) []) tornKill pre t e →
        t.Answered e ∧ t.HandsOutOwn (fun token => if token = "r:1" then "A" else "B") e
          ∧ Stores e := by
    refine fires_of_along (C := fun (t : Session Nat) e => t.Answered e
      ∧ t.HandsOutOwn (fun token => if token = "r:1" then "A" else "B") e ∧ Stores e) tornKill _ ?_
    refine ⟨⟨rfl, ?_, trivial⟩, ⟨trivial, trivial, trivial⟩, ⟨trivial, trivial, trivial⟩,
      ⟨trivial, trivial, rfl⟩, ⟨trivial, trivial, trivial⟩, ⟨trivial, trivial, trivial⟩,
      ⟨trivial, trivial, trivial⟩, trivial⟩
    intro token htoken
    obtain rfl : "r:2" = token := Option.some.inj htoken
    rfl
  have hdisk : ∀ f token, some (⟨some "A", []⟩ : UserFile Nat) = some f →
      (some (some "r:1") : Option (Option String)) = some (some token) →
        f.objectId = some (if token = "r:1" then "A" else "B") := by
    intro f token hf hk
    obtain rfl := Option.some.inj hf
    obtain rfl : "r:1" = token := Option.some.inj (Option.some.inj hk)
    rfl
  refine (never_mixed_iff hdisk hrun).mp hall (tornKill.take 4) _ .restart
    ⟨⟨_, rfl⟩, rfl, _, rfl⟩ rfl ⟨0, _, "r:2", rfl, rfl, rfl, ?_⟩
  show (some "A" : Option String) ≠ some "B"
  decide

end Session

end ParseSDK.CurrentUser

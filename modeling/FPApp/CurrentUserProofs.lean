import FPApp.EventRunProofs

/-! # The current user

    `PFCurrentUserController` keeps who is signed in: in memory, in a file, and,
    for the session token, in the keychain.  What is asked of it goes through a
    queue, one job at a time; a job that saves or removes the user goes through
    several blocks, and what else happens in between is not held back: replies
    to log-ins, sign-ups, saves and fetches, and the end of the process.  A
    fetch of several objects at once merges its replies without a save.

    * `PFUser`, `Session` — the users in memory, the controller and its storage;
    * `Session.begin` — the next job of the queue starts;
    * `Session.step` — one event of a run, the next block of a job among them. -/

namespace ParseSDK.CurrentUser

open EventRun

/-! ## Users -/

/-- A user in memory: what the code of the session reads of it. -/
structure PFUser (Value : Type) where
  objectId : Option String
  sessionToken : Option String
  serverData : List (String × Value)
  current : Bool

/-- What the file of the current user holds. -/
structure UserFile (Value : Type) where
  objectId : Option String
  serverData : List (String × Value)

/-- What a reply of the server has for a user; `serverData` is the data of the
    user as the reply leaves it. -/
structure Reply (Value : Type) where
  objectId : Option String
  sessionToken : Option String
  serverData : List (String × Value)

/-- A user, by its place in memory. -/
abbrev Ref := Nat

section Definitions

variable {Value : Type}

/-- `+setDefaultValues` and `_mergeAfterFetchWithResult:` on a new instance. -/
def Reply.user (reply : Reply Value) : PFUser Value where
  objectId := reply.objectId
  sessionToken := reply.sessionToken
  serverData := reply.serverData
  current := false

/-- `-_mergeFromServerWithResult:decoder:completeData:` of `PFUser`. -/
def PFUser.mergeFromServer (self : PFUser Value) (reply : Reply Value) : PFUser Value :=
  { self with
    objectId := reply.objectId <|> self.objectId
    -- a reply without a token leaves the one that is there
    sessionToken := reply.sessionToken <|> self.sessionToken
    serverData := reply.serverData }

/-- What `-handleSaveResultAsync:` merges; a failed save merges nothing. -/
def PFUser.handleSaveResult (self : PFUser Value) (result : Option (Reply Value)) :
    PFUser Value :=
  match result with
  | none => self
  | some reply => self.mergeFromServer reply

/-- What `-handleSignUpResultAsync:` makes of a user: the session token is the
    one of the result, if there is a result. -/
def PFUser.handleSignUpResult (self : PFUser Value) (result : Option (Reply Value)) :
    PFUser Value :=
  match result with
  | none => self
  | some reply => { self.mergeFromServer reply with sessionToken := reply.sessionToken }

/-- `-dictionaryRepresentationWithObjectEncoder:` of `PFUserState`: without the
    password, and without the session token, which has no place in it. -/
def PFUser.file (self : PFUser Value) : UserFile Value where
  objectId := self.objectId
  serverData := self.serverData.filter fun entry => entry.1 ≠ "password"

/-- `-_loadCurrentUserFromDiskAsync`: the user of the file with the session
    token of the keychain. -/
def loadCurrentUserFromDisk (file : UserFile Value) (keychain : Option (Option String)) :
    PFUser Value where
  objectId := file.objectId
  sessionToken := keychain.join
  serverData := file.serverData
  current := true

/-- `+isSessionTokenRevocable:`. -/
def isSessionTokenRevocable (sessionToken : String) : Bool :=
  decide (['r', ':'] <:+: sessionToken.toList)

end Definitions

/-! ## The controller -/

/-- What is asked of the controller. -/
inductive Job where
  | getCurrentUser
  | saveCurrentUser (user : Ref)
  | logOutCurrentUser
deriving DecidableEq

/-- Where a job is between two of its blocks.  A save first waits for the
    log-out of the user before; a log-out removes the file and the keychain
    item in any order. -/
inductive Phase where
  | loggingOut (user : Ref)
  | savingSensitiveData (user : Ref)
  | persistingObject (user : Ref)
  | saved (user : Ref) (persisted : Bool)
  | removing (file keychain : Bool)
deriving DecidableEq

/-- What is left to do once a reply has been merged into a user.  After a save
    or a fetch, the code looks whether the user is the current one, and only
    then saves it (`refresh`); after a sign-up or an upgrade of the session it
    saves it without a look. -/
inductive Handler where
  | result (user : Ref)
  | refresh (user : Ref)
  | signUp (user : Ref)
deriving DecidableEq

def Handler.user : Handler → Ref
  | .result r | .refresh r | .signUp r => r

/-- How the write of the file ends: the error of a write is lost, the error of
    the persistence group is not. -/
inductive Persisting where
  | written
  | writeFailed
  | noPersistenceGroup
deriving DecidableEq

/-- The users in memory, the fields of the controller, its queue with the job
    that runs, the replies that are being handled, the two places on disk, and
    the session tokens the server was asked to end.  The keychain item is a
    dictionary that may lack the session token. -/
structure Session (Value : Type) where
  users : List (PFUser Value)
  currentUser : Option Ref
  currentUserMatchesDisk : Bool
  dataTaskQueue : List Job
  running : Option Phase
  handlers : List Handler
  file : Option (UserFile Value)
  keychain : Option (Option String)
  loggedOut : List String

namespace Session

variable {Value : Type} (s : Session Value)

/-- The process starts with what is on disk. -/
def launch (file : Option (UserFile Value)) (keychain : Option (Option String))
    (loggedOut : List String) : Session Value where
  users := []
  currentUser := none
  currentUserMatchesDisk := false
  dataTaskQueue := []
  running := none
  handlers := []
  file := file
  keychain := keychain
  loggedOut := loggedOut

def objectId (r : Ref) : Option String := s.users[r]? >>= PFUser.objectId

def sessionToken (r : Ref) : Option String := s.users[r]? >>= PFUser.sessionToken

/-- `_current`. -/
def isCurrent (r : Ref) : Bool := s.users[r]?.any PFUser.current

def modify (r : Ref) (f : PFUser Value → PFUser Value) : Session Value :=
  { s with users := s.users.modify r f }

def enqueue (job : Job) : Session Value :=
  { s with dataTaskQueue := s.dataTaskQueue ++ [job] }

/-- `-_logOutAsync`: the user is no longer the current one and has no session
    token; a revocable token is ended on the server. -/
def logOutUser (r : Ref) : Session Value :=
  { s.modify r fun user => { user with sessionToken := none, current := false } with
    loggedOut := s.loggedOut ++ (s.sessionToken r).toList.filter isSessionTokenRevocable }

/-- `-_getCurrentUserAsyncWithOptions:` without automatic users; `read` says
    whether the file can be read. -/
def getCurrentUser (read : Bool) : Session Value × Option Ref :=
  match s.currentUser with
  | some current => (s, some current)
  | none =>
      if s.currentUserMatchesDisk then (s, none)
      else if read then
        match s.file with
        | none => ({ s with currentUserMatchesDisk := true }, none)
        | some file =>
            ({ s with
                users := s.users ++ [loadCurrentUserFromDisk file s.keychain]
                currentUser := some s.users.length
                currentUserMatchesDisk := true },
              some s.users.length)
      -- a file that cannot be read says nothing of the disk
      else (s, none)

/-- `[user.objectId isEqualToString:currentUser.objectId]`, where a message to
    `nil` is false. -/
def sameObjectId (user currentUser : Ref) : Bool :=
  match s.objectId user, s.objectId currentUser with
  | some a, some b => a = b
  | _, _ => false

/-- Another user than the one that is saved is logged out. -/
def logOutOther (user : Ref) : Session Value :=
  match s.currentUser with
  | none => s
  | some current =>
      if current ≠ user ∧ ¬ s.sameObjectId user current then s.logOutUser current else s

/-- The first block of `-_saveCurrentUserAsync:`. -/
def saveCurrentUser (user : Ref) : Session Value :=
  { s.logOutOther user with running := some (.loggingOut user) }

/-- `if (user) { [user _logOutAsync] }`. -/
def logOutFound : Option Ref → Session Value
  | none => s
  | some user => s.logOutUser user

/-- The first block of `-logOutCurrentUserAsync`. -/
def logOutCurrentUser (read : Bool) : Session Value :=
  { (s.getCurrentUser read).1.logOutFound (s.getCurrentUser read).2 with
    running := some (.removing true true) }

/-- The next job starts. -/
def begin (read : Bool) : Option (Session Value) :=
  match s.running, s.dataTaskQueue with
  | none, job :: jobs =>
      -- the first block of a job runs with the job's start
      let t := { s with dataTaskQueue := jobs }
      match job with
      | .getCurrentUser => some (t.getCurrentUser read).1
      | .saveCurrentUser user => some (t.saveCurrentUser user)
      | .logOutCurrentUser => some (t.logOutCurrentUser read)
  | _, _ => none

/-- `user._current = YES`, when the user before has been logged out. -/
def markCurrent : Option (Session Value) :=
  match s.running with
  | some (.loggingOut user) =>
      some { s.modify user fun u => { u with current := true } with
        running := some (.savingSensitiveData user) }
  | _ => none

/-- `-_saveSensitiveUserDataAsync:toKeychainItemWithName:`; a keychain that
    refuses the item keeps the one it had. -/
def saveSensitiveUserData (stored : Bool) : Option (Session Value) :=
  match s.running with
  | some (.savingSensitiveData user) =>
      some { s with
        keychain := if stored then some (s.sessionToken user) else s.keychain
        running := some (.persistingObject user) }
  | _ => none

/-- `-persistObjectAsync:forKey:`. -/
def persistObject (outcome : Persisting) : Option (Session Value) :=
  match s.running with
  | some (.persistingObject user) =>
      some { s with
        -- what is written is the user as it is now, not as it was when the job started
        file := match outcome with
          | .written => s.users[user]?.map PFUser.file
          | _ => s.file
        running := some (.saved user (outcome ≠ .noPersistenceGroup)) }
  | _ => none

/-- The last block of `-_saveCurrentUserAsync:`. -/
def setCurrentUser : Option (Session Value) :=
  match s.running with
  | some (.saved user persisted) =>
      some { s with
        currentUser := some user
        currentUserMatchesDisk := persisted
        running := none }
  | _ => none

/-- `-removePersistentObjectAsyncForKey:`, whose errors are lost. -/
def removePersistentObject (removed : Bool) : Option (Session Value) :=
  match s.running with
  | some (.removing true keychain) =>
      some { s with
        file := if removed then none else s.file
        running := some (.removing false keychain) }
  | _ => none

/-- `-_deleteSensitiveUserDataFromKeychainWithItemName:`. -/
def deleteSensitiveUserData (deleted : Bool) : Option (Session Value) :=
  match s.running with
  | some (.removing file true) =>
      some { s with
        keychain := if deleted then none else s.keychain
        running := some (.removing file false) }
  | _ => none

/-- The last block of `-logOutCurrentUserAsync`. -/
def clearCurrentUser : Option (Session Value) :=
  match s.running with
  | some (.removing false false) =>
      some { s with
        currentUser := none
        currentUserMatchesDisk := true
        running := none }
  | _ => none

/-- What is left to do for a reply goes on.  Between the look at `_current` and
    the call of `saveCurrentObjectAsync:` the authentication data is cleaned up,
    so that another thread can come in between. -/
def handle (i : Nat) : Option (Session Value) :=
  match s.handlers[i]? with
  | none => none
  | some (.result user) =>
      some { s with
        handlers := if s.isCurrent user then s.handlers.set i (.refresh user)
          else s.handlers.eraseIdx i }
  | some (.refresh user) | some (.signUp user) =>
      some ({ s with handlers := s.handlers.eraseIdx i }.enqueue (.saveCurrentUser user))

end Session

/-! ## Runs -/

/-- What can happen: a user is made by the app or by a query; a log-in is
    answered (also by `become`); a reply arrives for a user; what is left to do
    for a reply is done; someone asks for the current user or logs it out; a
    job goes on; the process is killed and started again. -/
inductive Event (Value : Type) where
  | create (objectId : Option String) (serverData : List (String × Value))
  | logIn (reply : Reply Value)
  | signUp (user : Ref) (result : Option (Reply Value))
  | save (user : Ref) (result : Option (Reply Value))
  | fetch (user : Ref) (result : Reply Value)
  | fetchAll (user : Ref) (result : Reply Value)
  | upgrade (user : Ref) (sessionToken : Option String)
  | handle (i : Nat)
  | getCurrentUser
  | logOut
  | begin (read : Bool)
  | markCurrent
  | saveSensitiveUserData (stored : Bool)
  | persistObject (outcome : Persisting)
  | setCurrentUser
  | removePersistentObject (removed : Bool)
  | deleteSensitiveUserData (deleted : Bool)
  | clearCurrentUser
  | restart

/-- The events around the controller: calls of the app, replies, and what is
    left to do for them. -/
def Event.around {Value : Type} : Event Value → Bool
  | .create _ _ | .logIn _ | .signUp _ _ | .save _ _ | .fetch _ _ | .fetchAll _ _ => true
  | .upgrade _ _ | .handle _ | .getCurrentUser | .logOut => true
  | _ => false

/-- The events that change no user in memory. -/
def Event.leavesUsers {Value : Type} : Event Value → Bool
  | .handle _ | .getCurrentUser | .logOut => true
  | .saveSensitiveUserData _ | .persistObject _ | .setCurrentUser => true
  | .removePersistentObject _ | .deleteSensitiveUserData _ | .clearCurrentUser => true
  | _ => false

namespace Session

variable {Value : Type} (s : Session Value)

/-- A reply changes a user, and something is left to do. -/
def receive (handler : Handler) (f : PFUser Value → PFUser Value) : Option (Session Value) :=
  if handler.user < s.users.length then
    some { s.modify handler.user f with handlers := s.handlers ++ [handler] }
  else none

/-- `-_processFetchResultAsync:forObjects:` for one of its objects: the reply is
    merged, and nothing is left to do. -/
def mergeAll (user : Ref) (reply : Reply Value) : Option (Session Value) :=
  if user < s.users.length then some (s.modify user fun u => u.mergeFromServer reply) else none

/-- One event. -/
def step : Event Value → Option (Session Value)
  | .create objectId serverData =>
      some { s with users := s.users ++ [⟨objectId, none, serverData, false⟩] }
  | .logIn reply =>
      some ({ s with users := s.users ++ [reply.user] }.enqueue
        (.saveCurrentUser s.users.length))
  | .signUp user result => s.receive (.signUp user) fun u => u.handleSignUpResult result
  | .save user result => s.receive (.result user) fun u => u.handleSaveResult result
  | .fetch user reply => s.receive (.result user) fun u => u.mergeFromServer reply
  | .fetchAll user reply => s.mergeAll user reply
  | .upgrade user sessionToken =>
      s.receive (.refresh user) fun u => { u with sessionToken := sessionToken }
  | .handle i => s.handle i
  | .getCurrentUser => some (s.enqueue .getCurrentUser)
  | .logOut => some (s.enqueue .logOutCurrentUser)
  | .begin read => s.begin read
  | .markCurrent => s.markCurrent
  | .saveSensitiveUserData stored => s.saveSensitiveUserData stored
  | .persistObject outcome => s.persistObject outcome
  | .setCurrentUser => s.setCurrentUser
  | .removePersistentObject removed => s.removePersistentObject removed
  | .deleteSensitiveUserData deleted => s.deleteSensitiveUserData deleted
  | .clearCurrentUser => s.clearCurrentUser
  | .restart => some (launch s.file s.keychain s.loggedOut)

/-! ## Users that change -/

theorem users_modify (r q : Ref) (f : PFUser Value → PFUser Value) :
    (s.modify r f).users[q]? = if r = q then s.users[q]?.map f else s.users[q]? := by
  show (s.users.modify r f)[q]? = _
  by_cases h : r = q
  · rw [if_pos h, h, List.getElem?_modify_eq]
    rfl
  · rw [if_neg h, List.getElem?_modify_ne _ _ h]

theorem users_modify_self (r : Ref) (f : PFUser Value → PFUser Value) :
    (s.modify r f).users[r]? = s.users[r]?.map f := by
  rw [users_modify, if_pos rfl]

theorem users_modify_of_ne {r q : Ref} (h : r ≠ q) (f : PFUser Value → PFUser Value) :
    (s.modify r f).users[q]? = s.users[q]? := by
  rw [users_modify, if_neg h]

/-- A field that a change leaves alone. -/
theorem field_modify {β : Type} (field : PFUser Value → Option β) {f : PFUser Value → PFUser Value}
    (hf : ∀ u, field (f u) = field u) (r q : Ref) :
    (s.modify r f).users[q]? >>= field = s.users[q]? >>= field := by
  by_cases h : r = q
  · subst h
    rw [users_modify_self]
    cases s.users[r]? with
    | none => rfl
    | some u => exact hf u
  · rw [users_modify_of_ne s h]

@[simp] theorem objectId_logOutUser (r q : Ref) :
    (s.logOutUser r).objectId q = s.objectId q := by
  exact field_modify s PFUser.objectId
    (f := fun u => { u with sessionToken := none, current := false }) (fun _ => rfl) r q

theorem isCurrent_modify {f : PFUser Value → PFUser Value} (hf : ∀ u, (f u).current = u.current)
    (r q : Ref) : (s.modify r f).isCurrent q = s.isCurrent q := by
  rw [isCurrent, isCurrent, users_modify]
  by_cases h : r = q
  · rw [if_pos h]
    cases s.users[q]? with
    | none => rfl
    | some u => exact hf u
  · rw [if_neg h]

theorem isCurrent_iff {r : Ref} :
    s.isCurrent r = true ↔ ∃ user, s.users[r]? = some user ∧ user.current = true := by
  rw [isCurrent]
  cases s.users[r]? with
  | none => simp
  | some u => simp

/-- The user that is logged out is not the current one; the others stay. -/
theorem isCurrent_logOutUser {r q : Ref} :
    (s.logOutUser r).isCurrent q = true ↔ r ≠ q ∧ s.isCurrent q = true := by
  have husers : (s.logOutUser r).users[q]?
      = (s.modify r fun u => { u with sessionToken := none, current := false }).users[q]? := rfl
  rw [isCurrent_iff, isCurrent_iff, husers, users_modify]
  by_cases h : r = q
  · rw [if_pos h]
    cases s.users[q]? with
    | none => simp
    | some u => simp [h]
  · rw [if_neg h]
    exact ⟨fun hq => ⟨h, hq⟩, fun hq => hq.2⟩

/-- `user._current = YES`. -/
theorem isCurrent_set {r q : Ref}
    (h : (s.modify r fun u => { u with current := true }).isCurrent q = true) :
    r = q ∨ s.isCurrent q = true := by
  by_cases hrq : r = q
  · exact Or.inl hrq
  · rw [isCurrent, users_modify_of_ne s hrq] at h
    exact Or.inr h

/-- The users that are there stay when one more is made. -/
theorem users_append (u : PFUser Value) {r : Ref} {user : PFUser Value}
    (h : s.users[r]? = some user) : (s.users ++ [u])[r]? = some user := by
  have hr : r < s.users.length := by
    by_contra hge
    rw [List.getElem?_eq_none (Nat.le_of_not_lt hge)] at h
    exact absurd h (by simp)
  rw [List.getElem?_append_left hr]
  exact h

/-! ## What a step can do -/

variable {s} {t : Session Value}

theorem begin_cases {read : Bool} (h : s.begin read = some t) :
    s.running = none ∧ ∃ job jobs, s.dataTaskQueue = job :: jobs
      ∧ ((job = .getCurrentUser
            ∧ t = ({ s with dataTaskQueue := jobs }.getCurrentUser read).1)
        ∨ (∃ user, job = .saveCurrentUser user
            ∧ t = { s with dataTaskQueue := jobs }.saveCurrentUser user)
        ∨ (job = .logOutCurrentUser
            ∧ t = { s with dataTaskQueue := jobs }.logOutCurrentUser read)) := by
  rw [begin] at h
  rcases hrun : s.running with _ | phase
  · rcases hq : s.dataTaskQueue with _ | ⟨job, jobs⟩
    · simp [hrun, hq] at h
    · simp only [hrun, hq] at h
      refine ⟨rfl, job, jobs, rfl, ?_⟩
      cases job with
      | getCurrentUser => exact Or.inl ⟨rfl, (Option.some.inj h).symm⟩
      | saveCurrentUser user =>
          exact Or.inr (Or.inl ⟨user, rfl, (Option.some.inj h).symm⟩)
      | logOutCurrentUser => exact Or.inr (Or.inr ⟨rfl, (Option.some.inj h).symm⟩)
  · simp [hrun] at h

/-- The controller answers from memory, or it loads the user of the file, or
    there is none. -/
theorem getCurrentUser_cases (read : Bool) :
    s.getCurrentUser read = (s, s.currentUser)
      ∨ (s.currentUser = none ∧ s.currentUserMatchesDisk = false ∧ s.file = none
        ∧ s.getCurrentUser read = ({ s with currentUserMatchesDisk := true }, none))
      ∨ (s.currentUser = none ∧ s.currentUserMatchesDisk = false
        ∧ ∃ file, s.file = some file
          ∧ s.getCurrentUser read
            = ({ s with
                users := s.users ++ [loadCurrentUserFromDisk file s.keychain]
                currentUser := some s.users.length
                currentUserMatchesDisk := true }, some s.users.length)) := by
  rcases hmem : s.currentUser with _ | current
  · cases hdisk : s.currentUserMatchesDisk with
    | true =>
        left
        simp [getCurrentUser, hmem, hdisk]
    | false =>
        cases read with
        | false =>
            left
            simp [getCurrentUser, hmem, hdisk]
        | true =>
            rcases hfile : s.file with _ | file
            · refine Or.inr (Or.inl ⟨rfl, rfl, rfl, ?_⟩)
              simp [getCurrentUser, hmem, hdisk, hfile]
            · refine Or.inr (Or.inr ⟨rfl, rfl, file, rfl, ?_⟩)
              simp [getCurrentUser, hmem, hdisk, hfile]
  · left
    simp [getCurrentUser, hmem]

/-- A save logs out a user in memory that is another one, and nobody else. -/
theorem logOutOther_cases (user : Ref) :
    (s.logOutOther user = s ∧ ∀ current, s.currentUser = some current → current ≠ user →
        s.sameObjectId user current = true)
      ∨ (∃ current, s.currentUser = some current ∧ current ≠ user
          ∧ s.sameObjectId user current = false ∧ s.logOutOther user = s.logOutUser current) := by
  rw [logOutOther]
  rcases hmem : s.currentUser with _ | current
  · exact Or.inl ⟨rfl, fun _ hc => absurd hc (by simp)⟩
  · by_cases hother : current ≠ user ∧ ¬ s.sameObjectId user current = true
    · exact Or.inr ⟨current, rfl, hother.1, by simpa using hother.2, if_pos hother⟩
    · refine Or.inl ⟨if_neg hother, ?_⟩
      intro current' hc hne
      obtain rfl := Option.some.inj hc
      by_contra hno
      exact hother ⟨hne, hno⟩

theorem markCurrent_cases (h : s.markCurrent = some t) :
    ∃ user, s.running = some (.loggingOut user)
      ∧ t = { s.modify user fun u => { u with current := true } with
          running := some (.savingSensitiveData user) } := by
  rw [markCurrent] at h
  split at h
  · rename_i user hrun
    exact ⟨user, hrun, (Option.some.inj h).symm⟩
  · exact absurd h (by simp)

theorem saveSensitiveUserData_cases {stored : Bool} (h : s.saveSensitiveUserData stored = some t) :
    ∃ user, s.running = some (.savingSensitiveData user)
      ∧ t = { s with
          keychain := if stored then some (s.sessionToken user) else s.keychain
          running := some (.persistingObject user) } := by
  rw [saveSensitiveUserData] at h
  split at h
  · rename_i user hrun
    exact ⟨user, hrun, (Option.some.inj h).symm⟩
  · exact absurd h (by simp)

theorem persistObject_cases {outcome : Persisting} (h : s.persistObject outcome = some t) :
    ∃ user, s.running = some (.persistingObject user)
      ∧ ∃ file, (file = s.file ∨ file = s.users[user]?.map PFUser.file)
        ∧ (outcome = .written → file = s.users[user]?.map PFUser.file)
        ∧ t = { s with
            file := file
            running := some (.saved user (outcome ≠ .noPersistenceGroup)) } := by
  rw [persistObject] at h
  split at h
  · rename_i user hrun
    refine ⟨user, hrun, _, ?_, ?_, (Option.some.inj h).symm⟩
    · cases outcome with
      | written => exact Or.inr rfl
      | writeFailed => exact Or.inl rfl
      | noPersistenceGroup => exact Or.inl rfl
    · rintro rfl
      rfl
  · exact absurd h (by simp)

theorem setCurrentUser_cases (h : s.setCurrentUser = some t) :
    ∃ user persisted, s.running = some (.saved user persisted)
      ∧ t = { s with
          currentUser := some user
          currentUserMatchesDisk := persisted
          running := none } := by
  rw [setCurrentUser] at h
  split at h
  · rename_i user persisted hrun
    exact ⟨user, persisted, hrun, (Option.some.inj h).symm⟩
  · exact absurd h (by simp)

theorem removePersistentObject_cases {removed : Bool}
    (h : s.removePersistentObject removed = some t) :
    ∃ keychain, s.running = some (.removing true keychain)
      ∧ t = { s with
          file := if removed then none else s.file
          running := some (.removing false keychain) } := by
  rw [removePersistentObject] at h
  split at h
  · rename_i keychain hrun
    exact ⟨keychain, hrun, (Option.some.inj h).symm⟩
  · exact absurd h (by simp)

theorem deleteSensitiveUserData_cases {deleted : Bool}
    (h : s.deleteSensitiveUserData deleted = some t) :
    ∃ file, s.running = some (.removing file true)
      ∧ t = { s with
          keychain := if deleted then none else s.keychain
          running := some (.removing file false) } := by
  rw [deleteSensitiveUserData] at h
  split at h
  · rename_i file hrun
    exact ⟨file, hrun, (Option.some.inj h).symm⟩
  · exact absurd h (by simp)

theorem clearCurrentUser_cases (h : s.clearCurrentUser = some t) :
    s.running = some (.removing false false)
      ∧ t = { s with
          currentUser := none
          currentUserMatchesDisk := true
          running := none } := by
  rw [clearCurrentUser] at h
  split at h
  · rename_i hrun
    exact ⟨hrun, (Option.some.inj h).symm⟩
  · exact absurd h (by simp)

theorem receive_cases {handler : Handler} {f : PFUser Value → PFUser Value}
    (h : s.receive handler f = some t) :
    handler.user < s.users.length
      ∧ t = { s.modify handler.user f with handlers := s.handlers ++ [handler] } := by
  rw [receive] at h
  by_cases hlt : handler.user < s.users.length
  · rw [if_pos hlt] at h
    exact ⟨hlt, (Option.some.inj h).symm⟩
  · rw [if_neg hlt] at h
    exact absurd h (by simp)

theorem mergeAll_cases {r : Ref} {reply : Reply Value} (h : s.mergeAll r reply = some t) :
    r < s.users.length ∧ t = s.modify r fun u => u.mergeFromServer reply := by
  rw [mergeAll] at h
  obtain ⟨hlt, ht⟩ := Option.ite_none_right_eq_some.mp h
  exact ⟨hlt, (Option.some.inj ht).symm⟩

theorem handle_cases {i : Nat} (h : s.handle i = some t) :
    (∃ user, s.handlers[i]? = some (.result user) ∧ s.isCurrent user = true
        ∧ t = { s with handlers := s.handlers.set i (.refresh user) })
      ∨ (∃ user, s.handlers[i]? = some (.result user) ∧ s.isCurrent user = false
        ∧ t = { s with handlers := s.handlers.eraseIdx i })
      ∨ (∃ user, (s.handlers[i]? = some (.refresh user) ∨ s.handlers[i]? = some (.signUp user))
        ∧ t = { s with handlers := s.handlers.eraseIdx i }.enqueue (.saveCurrentUser user)) := by
  rw [handle] at h
  rcases hget : s.handlers[i]? with _ | (user | user | user)
  · simp [hget] at h
  · simp only [hget] at h
    cases hc : s.isCurrent user with
    | true =>
        refine Or.inl ⟨user, rfl, hc, ?_⟩
        rw [if_pos hc] at h
        exact (Option.some.inj h).symm
    | false =>
        refine Or.inr (Or.inl ⟨user, rfl, hc, ?_⟩)
        rw [if_neg (by rw [hc]; simp)] at h
        exact (Option.some.inj h).symm
  · simp only [hget] at h
    exact Or.inr (Or.inr ⟨user, Or.inl rfl, (Option.some.inj h).symm⟩)
  · simp only [hget] at h
    exact Or.inr (Or.inr ⟨user, Or.inr rfl, (Option.some.inj h).symm⟩)

/-! ## What a step leaves alone -/

/-- The job that runs and the disk are the same. -/
structure Around (s t : Session Value) : Prop where
  running : t.running = s.running
  file : t.file = s.file
  keychain : t.keychain = s.keychain

/-- Nothing around the controller holds a job back or touches the disk. -/
theorem around_step {e : Event Value} (he : e.around = true) (ht : s.step e = some t) :
    s.Around t := by
  cases e with
  | signUp user result =>
      obtain ⟨-, rfl⟩ := receive_cases ht
      exact ⟨rfl, rfl, rfl⟩
  | save user result =>
      obtain ⟨-, rfl⟩ := receive_cases ht
      exact ⟨rfl, rfl, rfl⟩
  | fetch user result =>
      obtain ⟨-, rfl⟩ := receive_cases ht
      exact ⟨rfl, rfl, rfl⟩
  | fetchAll user result =>
      obtain ⟨-, rfl⟩ := mergeAll_cases ht
      exact ⟨rfl, rfl, rfl⟩
  | upgrade user sessionToken =>
      obtain ⟨-, rfl⟩ := receive_cases ht
      exact ⟨rfl, rfl, rfl⟩
  | handle i =>
      rcases handle_cases ht with ⟨user, -, -, rfl⟩ | ⟨user, -, -, rfl⟩ | ⟨user, -, rfl⟩
      · exact ⟨rfl, rfl, rfl⟩
      · exact ⟨rfl, rfl, rfl⟩
      · exact ⟨rfl, rfl, rfl⟩
  | create _ _ | logIn _ | getCurrentUser | logOut =>
      rw [← Option.some.inj ht]
      exact ⟨rfl, rfl, rfl⟩
  | _ => exact absurd he (by simp [Event.around])

theorem users_step {e : Event Value} (he : e.leavesUsers = true) (ht : s.step e = some t) :
    t.users = s.users := by
  cases e with
  | handle i =>
      rcases handle_cases ht with ⟨user, -, -, rfl⟩ | ⟨user, -, -, rfl⟩ | ⟨user, -, rfl⟩
      · rfl
      · rfl
      · rfl
  | getCurrentUser | logOut => rw [← Option.some.inj ht, enqueue]
  | saveSensitiveUserData stored =>
      obtain ⟨user, -, rfl⟩ := saveSensitiveUserData_cases ht
      rfl
  | persistObject outcome =>
      obtain ⟨user, -, file, -, -, rfl⟩ := persistObject_cases ht
      rfl
  | setCurrentUser =>
      obtain ⟨user, persisted, -, rfl⟩ := setCurrentUser_cases ht
      rfl
  | removePersistentObject removed =>
      obtain ⟨keychain, -, rfl⟩ := removePersistentObject_cases ht
      rfl
  | deleteSensitiveUserData deleted =>
      obtain ⟨file, -, rfl⟩ := deleteSensitiveUserData_cases ht
      rfl
  | clearCurrentUser =>
      obtain ⟨-, rfl⟩ := clearCurrentUser_cases ht
      rfl
  | _ => exact absurd he (by simp [Event.leavesUsers])

end Session

end ParseSDK.CurrentUser

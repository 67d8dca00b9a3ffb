import BrokerExec.Accounts.CachePaths
import BrokerExec.Lib.Disk
import BrokerExec.Platform.FileLock

/-!
# The shared reference-data cache (`accounts/shared_refdata_cache.cpp`)

Any number of calls of `get_or_fetch`, by any processes, on one cache directory, one file-system
step at a time. A call stands for one process that constructs its cache, with the sweep, and then
calls; each attempt at the lock is an acquisition of its own. A process may crash at any step.

A file that is there can be read; any other file-system call may fail.
-/

namespace BrokerExec.Accounts

open BrokerExec.Errors (Error makeError)
open BrokerExec.Platform (Acquirer LockFile World stillOurs)

structure SharedRefdataCacheConfig where
  sharedRoot : Bytes
  /-- Empty if not supplied. -/
  accountDataRoot : Bytes
  lockStaleness : Int
  maxLockAttempts : Int
  maxPublishAttempts : Int

/-- At least one, however the bound was set. -/
def atLeastOne (bound : Int) : Nat := if 0 < bound then bound.toNat else 1

structure Request where
  key : RefdataKey
  /-- Whether a fetch seam is wired. -/
  fetchWired : Bool

def internal (message : String) : Error := makeError .internal (ascii message)

/-- `get_or_fetch`, before it looks at the directory. -/
def admitted (config : SharedRefdataCacheConfig) (request : Request) : Result Unit :=
  match validateRefdataKey request.key with
  | .error e => .error e
  | .ok () =>
    if config.sharedRoot = [] then
      .error (validation "shared refdata cache: empty shared root")
    else if !request.fetchWired then
      .error (internal "shared refdata cache: no fetch seam wired")
    else if config.accountDataRoot ≠ [] then
      requireOutsideAccountTree config.sharedRoot config.accountDataRoot
    else .ok ()

theorem safe_of_admitted {config : SharedRefdataCacheConfig} {request : Request}
    (h : admitted config request = .ok ()) : request.key.Safe := by
  unfold admitted at h
  split at h
  · cases h
  · rename_i hvalid
    exact validateRefdataKey_ok hvalid

/-- A missing validator accepts. -/
def accepts (validate : Option (Bytes → Bool)) (payload : Bytes) : Bool :=
  match validate with
  | none => true
  | some validate => validate payload

def isWhitespace (c : UInt8) : Bool := c == 0x20 || c == 0x09 || c == 0x0D || c == 0x0A

def trimView (s : Bytes) : Bytes := ((s.dropWhile isWhitespace).reverse.dropWhile isWhitespace).reverse

/-- A header with a comma and a letter, and a row after it. -/
def csvSanityValidator (payload : Bytes) : Bool :=
  let trimmed := trimView payload
  if 0x0A ∈ trimmed then
    let line := trimmed.takeWhile (· ≠ 0x0A)
    let header := trimView line
    0x2C ∈ header && header.any (fun c => isLower c || isUpper c)
      && trimView (trimmed.drop (line.length + 1)) ≠ []
  else false

def jsonSanityValidator (payload : Bytes) : Bool :=
  let trimmed := trimView payload
  2 ≤ trimmed.length &&
    ((trimmed.head? = some 0x7B && trimmed.getLast? = some 0x7D)
      || (trimmed.head? = some 0x5B && trimmed.getLast? = some 0x5D))

/-- The validators of the two adapters reject the empty payload. -/
theorem sanityValidators_reject_empty :
    csvSanityValidator [] = false ∧ jsonSanityValidator [] = false := ⟨rfl, rfl⟩

/-! ## Where a call stands -/

/-- What the artifact is read for. -/
inductive Purpose where
  | fast
  /-- Under the lock of this attempt. -/
  | doubleCheck (attempt : Nat)
  /-- The lock of this attempt was refused. -/
  | lost (attempt : Nat)

/-- What `sweep_debris` may come across. -/
inductive DirEntry (κ : Type) where
  | file (name : Bytes)
  /-- The file that an acquisition's takeover moved away. -/
  | claim (key : RefdataKey) (who : κ × Nat)

inductive CallPhase (κ : Type) where
  /-- In the constructor, with a file that it found to be old debris. -/
  | sweeping (judged : Option (DirEntry κ))
  | looking (purpose : Purpose)
  | opening (purpose : Purpose)
  | pieces (purpose : Purpose) (inode : Nat) (contents : Bytes)
  | preparing
  | acquiring (attempt : Nat)
  | fetching (attempt : Nat)
  | touching (attempt : Nat) (fetched : Result Bytes) (begun : Bool)
  | confirming (attempt : Nat) (payload : Bytes)
  | openingTemp (attempt : Nat) (payload : Bytes)
  | writing (attempt : Nat) (payload : Bytes) (inode offset : Nat)
  | syncing (attempt : Nat) (payload : Bytes)
  | publishing (attempt : Nat) (payload : Bytes) (tries : Nat)
  /-- The publish failed; `temp` if its temporary file is to be removed. -/
  | abandoning (attempt : Nat) (e : Error) (temp : Bool)
  | releasing (attempt : Nat) (result : Result Bytes)
  | done (result : Result Bytes)
  | crashed

structure Cache (κ : Type) where
  now : Int
  disk : Disk Bytes
  /-- The modification time of an inode. -/
  mtime : Nat → Int
  locks : RefdataKey → World (κ × Nat)
  phase : κ → CallPhase κ
  /-- The keys of the fetches called, and what those that returned have returned. -/
  called : List RefdataKey
  fetched : List (RefdataKey × Result Bytes)

inductive Event (κ : Type) where
  | tick (elapsed : Nat)
  /-- The sweep's iterator comes to a file, and its time is read. -/
  | sweep (c : κ) (entry : DirEntry κ)
  | call (c : κ)
  /-- `count` bytes more than one are read or written, where bytes are. -/
  | step (c : κ) (ok : Bool) (count : Nat)
  | fetch (c : κ) (result : Result Bytes)
  | crash (c : κ)

/-! ## Steps -/

section

variable {κ : Type} [DecidableEq κ] (config : SharedRefdataCacheConfig)
  (validate : Option (Bytes → Bool)) (requests : κ → Request) (who : κ × Nat → Acquirer)

def Cache.goTo (w : Cache κ) (c : κ) (phase : CallPhase κ) : Cache κ :=
  { w with phase := Function.update w.phase c phase }

/-- A step of the lock of a key. -/
def Cache.lockStep (w : Cache κ) (key : RefdataKey) (e : Platform.Event (κ × Nat)) : Cache κ :=
  { w with
    locks := Function.update w.locks key
      (Platform.step config.lockStaleness who (w.locks key) e) }

/-- Seconds. -/
def sweepAge : Int := if 0 < config.lockStaleness then config.lockStaleness else 600

def isOld (now mtime : Int) : Bool := mtime ≤ now && sweepAge config < now - mtime

/-- Debris, and old. -/
def isOldDebris (w : Cache κ) : DirEntry κ → Bool
  | .file name =>
    IsDebris name &&
      match w.disk.entry name with
      | some inode => isOld config w.now (w.mtime inode)
      | none => false
  | .claim key acquisition =>
    match (w.locks key).claim acquisition with
    | some f => isOld config w.now f.mtime
    | none => false

def Cache.removeEntry (w : Cache κ) : DirEntry κ → Cache κ
  | .file name => { w with disk := w.disk.remove name }
  | .claim key acquisition =>
    { w with locks := Function.update w.locks key ((w.locks key).setClaim acquisition none) }

/-- The read of the artifact is over; an empty one is corrupt. -/
def finishRead (w : Cache κ) (c : κ) (purpose : Purpose) (contents : Option Bytes) : Cache κ :=
  let hit := contents.filter fun payload => payload ≠ [] && accepts validate payload
  match purpose, hit with
  | .fast, some payload | .lost _, some payload => w.goTo c (.done (.ok payload))
  | .doubleCheck attempt, some payload => w.goTo c (.releasing attempt (.ok payload))
  | .fast, none => w.goTo c .preparing
  | .doubleCheck attempt, none =>
    { w with called := (requests c).key :: w.called }.goTo c (.fetching attempt)
  | .lost attempt, none =>
    if attempt + 1 < atLeastOne config.maxLockAttempts then w.goTo c (.acquiring (attempt + 1))
    else
      w.goTo c (.done (.error (makeError .dataStale
        (ascii ("shared refdata cache: lock held and no artifact appeared within the bounded wait; "
          ++ "refdata unavailable")))))

/-- What follows the touch. -/
def afterTouch (attempt : Nat) : Result Bytes → CallPhase κ
  | .error e => .releasing attempt (.error e)
  | .ok payload =>
    if !accepts validate payload then
      .releasing attempt (.error
        (validation "shared refdata cache: fetched artifact failed sanity validation"))
    else .confirming attempt payload

/-- One step of a call. -/
def advance (w : Cache κ) (c : κ) (ok : Bool) (count : Nat) : Cache κ :=
  let key := (requests c).key
  let artifact := artifactName key
  let temp (attempt : Nat) := tempName key (who (c, attempt)).nonce
  match w.phase c with
  | .sweeping (some entry) => (if ok then w.removeEntry entry else w).goTo c (.sweeping none)
  | .looking purpose =>
    match w.disk.entry artifact with
    | some _ => w.goTo c (.opening purpose)
    | none => finishRead config validate requests w c purpose none
  | .opening purpose =>
    match w.disk.entry artifact with
    | some inode => w.goTo c (.pieces purpose inode [])
    | none => finishRead config validate requests w c purpose none
  | .pieces purpose inode contents =>
    let piece := ((w.disk.content inode).drop contents.length).take (count + 1)
    if piece ≠ [] then w.goTo c (.pieces purpose inode (contents ++ piece))
    else finishRead config validate requests w c purpose (some contents)
  | .preparing =>
    if ok then w.goTo c (.acquiring 0)
    else
      w.goTo c (.done (.error
        (internal "shared refdata cache: cannot create the shared cache directory")))
  | .acquiring attempt =>
    let w' := w.lockStep config who key (.step (c, attempt) ok)
    match (w'.locks key).phase (c, attempt) with
    | .held => w'.goTo c (.looking (.doubleCheck attempt))
    | .refused _ => w'.goTo c (.looking (.lost attempt))
    | _ => w'
  | .touching attempt fetched false =>
    let w' := w.lockStep config who key (.touch (c, attempt) ok)
    match (w'.locks key).phase (c, attempt) with
    | .touching => w'.goTo c (.touching attempt fetched true)
    | _ => w'.goTo c (afterTouch validate attempt fetched)
  | .touching attempt fetched true =>
    (w.lockStep config who key (.step (c, attempt) ok)).goTo c (afterTouch validate attempt fetched)
  | .confirming attempt payload =>
    if stillOurs who (w.locks key) (c, attempt) ok then w.goTo c (.openingTemp attempt payload)
    else
      w.goTo c (.abandoning attempt (makeError .transient (ascii ("shared refdata cache: lost the "
        ++ "refdata lock during the fetch; abandoning the publish"))) false)
  | .openingTemp attempt payload =>
    if ok then
      let (disk, inode) := w.disk.openTruncate (temp attempt)
      { w with disk := disk, mtime := Function.update w.mtime inode w.now }.goTo c
        (.writing attempt payload inode 0)
    else
      w.goTo c (.abandoning attempt
        (internal "shared refdata cache: cannot open temp artifact") false)
  | .writing attempt payload inode offset =>
    let piece := (payload.drop offset).take (count + 1)
    if !ok then
      w.goTo c (.abandoning attempt
        (internal "shared refdata cache: temp artifact write failed") true)
    else if piece ≠ [] then
      { w with
        disk := w.disk.write inode offset piece
        mtime := Function.update w.mtime inode w.now }.goTo c
        (.writing attempt payload inode (offset + piece.length))
    else w.goTo c (.syncing attempt payload)
  | .syncing attempt payload =>
    if ok then w.goTo c (.publishing attempt payload 0)
    else
      w.goTo c (.abandoning attempt
        (internal "shared refdata cache: temp artifact sync failed") true)
  | .publishing attempt payload tries =>
    if ok && (w.disk.entry (temp attempt)).isSome then
      { w with disk := w.disk.rename (temp attempt) artifact }.goTo c
        (.releasing attempt (.ok payload))
    else if tries + 1 < atLeastOne config.maxPublishAttempts then
      w.goTo c (.publishing attempt payload (tries + 1))
    else
      w.goTo c (.abandoning attempt (makeError .transient (ascii ("shared refdata cache: could not "
        ++ "publish the artifact after bounded retries (the target may be held open by a sibling "
        ++ "reader)"))) true)
  | .abandoning attempt e remove =>
    (if remove && ok then { w with disk := w.disk.remove (temp attempt) } else w).goTo c
      (.releasing attempt (.error e))
  | .releasing attempt result =>
    match (w.locks key).phase (c, attempt) with
    | .held => w.lockStep config who key (.release (c, attempt))
    | .releasing _ => w.lockStep config who key (.step (c, attempt) ok)
    | _ => w.goTo c (.done result)
  | .sweeping none | .fetching _ | .done _ | .crashed => w

def step (w : Cache κ) : Event κ → Cache κ
  | .tick elapsed =>
    { w with
      now := w.now + elapsed
      locks := fun key => Platform.step config.lockStaleness who (w.locks key) (.tick elapsed) }
  | .sweep c entry =>
    match w.phase c with
    | .sweeping none =>
      if isOldDebris config w entry then w.goTo c (.sweeping (some entry)) else w
    | _ => w
  | .call c =>
    match w.phase c with
    | .sweeping none =>
      match admitted config (requests c) with
      | .error e => w.goTo c (.done (.error e))
      | .ok () => w.goTo c (.looking .fast)
    | _ => w
  | .step c ok count => advance config validate requests who w c ok count
  | .fetch c result =>
    match w.phase c with
    | .fetching attempt =>
      { w with fetched := ((requests c).key, result) :: w.fetched }.goTo c
        (.touching attempt result false)
    | _ => w
  | .crash c =>
    match w.phase c with
    | .done _ => w
    | _ => w.goTo c .crashed

/-- An empty directory and nobody begun. -/
def Cache.start (now : Int) : Cache κ where
  now := now
  disk := Disk.empty
  mtime _ := 0
  locks _ := ⟨now, none, fun _ => none, fun _ => .idle⟩
  phase _ := .sweeping none
  called := []
  fetched := []

end

end BrokerExec.Accounts

import BrokerExec.Accounts.CachePaths

/-!
# The per-account directory (`accounts/account_data_dir.cpp`)

One directory level comes from the account's id, and every file of the account is below it.

* **`trees_disjoint`** — what is below one account's directory is not below another's, on a file
  system that folds case too.
* **`cache_outside_trees`** — the guard of the shared cache keeps it out of every account's directory.
-/

namespace BrokerExec.Accounts

open BrokerExec.Errors (Error makeError)

/-! ## The id -/

def isAllowedIdChar (c : UInt8) : Bool := isLower c || isDigit c || c == 0x5F || c == 0x2D

def kMaxAccountIdLength : Nat := 64

/-- What Windows keeps at every directory level. -/
def kReserved : List Bytes :=
  [ascii "con", ascii "prn", ascii "aux", ascii "nul", ascii "com1", ascii "com2", ascii "com3",
    ascii "com4", ascii "com5", ascii "com6", ascii "com7", ascii "com8", ascii "com9",
    ascii "lpt1", ascii "lpt2", ascii "lpt3", ascii "lpt4", ascii "lpt5", ascii "lpt6",
    ascii "lpt7", ascii "lpt8", ascii "lpt9"]

def validateAccountId (accountId : Bytes) : Result Unit :=
  if accountId = [] then .error (validation "account id: must not be empty")
  else if accountId.length > kMaxAccountIdLength then
    .error (makeError .validation
      (ascii "account id: longer than " ++ decimal kMaxAccountIdLength ++ ascii " characters"))
  else if !accountId.all isAllowedIdChar then
    .error (validation ("account id: only [a-z0-9_-] are allowed - lowercase only, because a "
      ++ "case-insensitive filesystem would map two ids onto one directory "
      ++ "(an account id is a name, not a path)"))
  else if accountId ∈ kReserved then
    .error (validation "account id: reserved device name (CON/PRN/AUX/NUL/COM1-9/LPT1-9)")
  else .ok ()

/-! ## The layout -/

def slash : UInt8 := 0x2F

/-- `operator/` of paths. -/
def joinPath (p q : Bytes) : Bytes :=
  if q.head? = some slash then q
  else if p = [] ∨ p.getLast? = some slash then p ++ q
  else p ++ slash :: q

structure AccountDataDir where
  dataRoot : Bytes
  accountId : Bytes
  nonempty : dataRoot ≠ []
  valid : validateAccountId accountId = .ok ()

namespace AccountDataDir

def create (dataRoot accountId : Bytes) : Result AccountDataDir :=
  if hroot : dataRoot = [] then .error (validation "account data dir: empty data root")
  else
    match hvalid : validateAccountId accountId with
    | .error error => .error error
    | .ok () => .ok ⟨dataRoot, accountId, hroot, hvalid⟩

variable (dir : AccountDataDir)

def root : Bytes := joinPath dir.dataRoot dir.accountId

def intentLog : Bytes := joinPath dir.root (ascii "intent.log")

def storeDb : Bytes := joinPath dir.root (ascii "store.sqlite3")

def tokenStore : Bytes := joinPath dir.root (ascii "token_store.enc")

def ledger : Bytes := joinPath dir.root (ascii "ledger.jsonl")

def killJournal : Bytes := joinPath dir.root (ascii "kill_journal.jsonl")

/-- Every location of the layout. -/
def files : List Bytes :=
  [dir.intentLog, dir.storeDb, dir.tokenStore, dir.ledger, dir.killJournal]

/-- `ensure`, of what the file system answers: whether the directory is there after the attempt to
make it, and whether it could be restricted. -/
def ensure (isDirectory restricted : Bool) : Result Unit :=
  if isDirectory = false then
    .error (makeError .internal (ascii ("account data dir: cannot create the account directory (a "
      ++ "non-directory may be in the way, or it is unreadable)")))
  else if restricted = false then
    .error (makeError .internal
      (ascii "account data dir: cannot restrict the account directory to owner-only"))
  else .ok ()

end AccountDataDir

theorem create_eq_ok {dataRoot accountId : Bytes} {dir : AccountDataDir}
    (h : AccountDataDir.create dataRoot accountId = .ok dir) :
    dir.dataRoot = dataRoot ∧ dir.accountId = accountId := by
  unfold AccountDataDir.create at h
  split at h
  · cases h
  · split at h
    · cases h
    · cases h
      exact ⟨rfl, rfl⟩

/-! ## Names and paths -/

/-- A name that is a component of its own. -/
structure PlainName (name : Bytes) : Prop where
  nonempty : name ≠ []
  noSlash : slash ∉ name
  notDot : name ≠ ascii "."
  notDotDot : name ≠ ascii ".."

instance (name : Bytes) : Decidable (PlainName name) :=
  decidable_of_iff (name ≠ [] ∧ slash ∉ name ∧ name ≠ ascii "." ∧ name ≠ ascii "..")
    ⟨fun h => ⟨h.1, h.2.1, h.2.2.1, h.2.2.2⟩, fun h => ⟨h.1, h.2, h.3, h.4⟩⟩

theorem allowed_of_valid {accountId : Bytes} (h : validateAccountId accountId = .ok ()) :
    accountId ≠ [] ∧ ∀ c ∈ accountId, isAllowedIdChar c = true := by
  unfold validateAccountId at h
  split_ifs at h with hempty _ hall
  refine ⟨hempty, ?_⟩
  simpa using hall

theorem plainName_of_valid {accountId : Bytes} (h : validateAccountId accountId = .ok ()) :
    PlainName accountId := by
  obtain ⟨hne, hall⟩ := allowed_of_valid h
  have hdot : (0x2E : UInt8) ∉ accountId := fun hc => absurd (hall _ hc) (by decide)
  refine ⟨hne, fun hc => absurd (hall _ hc) (by decide), ?_, ?_⟩
  · rintro rfl
    exact hdot (by decide)
  · rintro rfl
    exact hdot (by decide)

theorem normalStep_plainName {absolute : Bool} {names : List Bytes} {name : Bytes} (h : PlainName name) :
    normalStep absolute names name = names ++ [name] := by
  unfold normalStep
  rw [if_neg (by simp [h.nonempty, h.notDot]), if_pos h.notDotDot]

def isAbsolute (path : Bytes) : Bool := path.head? = some 0x2F

/-- The names of the lexically normal path, without the root directory. -/
def normalNames (path : Bytes) : List Bytes :=
  (path.splitOn 0x2F).foldl (normalStep (isAbsolute path)) []

theorem canonicalForm_eq (path : Bytes) :
    canonicalForm path = if isAbsolute path then ascii "/" :: normalNames path
      else if normalNames path = [] then [ascii "."] else normalNames path := rfl

section Join

variable {path name : Bytes}

theorem joinPath_plainName (h : PlainName name) :
    joinPath path name = if path = [] ∨ path.getLast? = some slash then path ++ name
      else path ++ slash :: name := by
  unfold joinPath
  rw [if_neg]
  intro hhead
  exact h.noSlash (List.mem_of_head? hhead)

theorem isAbsolute_joinPath (hpath : path ≠ []) (h : PlainName name) :
    isAbsolute (joinPath path name) = isAbsolute path := by
  obtain ⟨c, rest, rfl⟩ := List.exists_cons_of_ne_nil hpath
  rw [joinPath_plainName h]
  split_ifs <;> rfl

/-- Below a path stands one name more. -/
theorem normalNames_joinPath (hpath : path ≠ []) (h : PlainName name) :
    normalNames (joinPath path name) = normalNames path ++ [name] := by
  unfold normalNames
  rw [isAbsolute_joinPath hpath h, joinPath_plainName h]
  have hname : name.splitOn 0x2F = [name] := List.splitOn_eq_singleton h.noSlash
  by_cases hlast : path.getLast? = some slash
  · -- the path ends with an empty piece, which no step counts
    obtain ⟨front, rfl⟩ := List.getLast?_eq_some_iff.mp hlast
    rw [if_pos (.inr hlast), List.append_assoc, List.singleton_append]
    show List.foldl _ _ ((front ++ 0x2F :: name).splitOn 0x2F)
      = List.foldl _ _ ((front ++ [0x2F]).splitOn 0x2F) ++ [name]
    rw [List.splitOn_append_cons_self, List.splitOn_append_cons_self, hname, List.foldl_append,
      List.foldl_append, List.foldl_cons, List.foldl_nil, normalStep_plainName h]
    rfl
  · rw [if_neg (by simp [hpath, hlast])]
    show List.foldl _ _ ((path ++ 0x2F :: name).splitOn 0x2F) = _
    rw [List.splitOn_append_cons_self, hname, List.foldl_append, List.foldl_cons, List.foldl_nil,
      normalStep_plainName h]

theorem joinPath_ne_nil (h : PlainName name) : joinPath path name ≠ [] := by
  rw [joinPath_plainName h]
  split_ifs <;> simp [h.nonempty]

theorem canonicalForm_joinPath (hpath : path ≠ []) (h : PlainName name) :
    canonicalForm (joinPath path name)
      = (if isAbsolute path then [ascii "/"] else []) ++ (normalNames path ++ [name]) := by
  rw [canonicalForm_eq, isAbsolute_joinPath hpath h, normalNames_joinPath hpath h]
  split_ifs <;> simp_all

end Join

/-- The names above an account's directory. -/
def above (path : Bytes) : List Bytes :=
  (if isAbsolute path then [ascii "/"] else []) ++ normalNames path

theorem canonicalForm_root (dir : AccountDataDir) :
    canonicalForm dir.root = above dir.dataRoot ++ [dir.accountId] := by
  unfold AccountDataDir.root above
  rw [canonicalForm_joinPath dir.nonempty (plainName_of_valid dir.valid), List.append_assoc]

/-- A file of the layout is one name below the account's directory. -/
theorem canonicalForm_file {dir : AccountDataDir} {file : Bytes} (h : file ∈ dir.files) :
    ∃ name, canonicalForm file = canonicalForm dir.root ++ [name] := by
  have hid := plainName_of_valid dir.valid
  have hroot : dir.root ≠ [] := joinPath_ne_nil hid
  have hbelow : ∀ {name : Bytes}, PlainName name →
      canonicalForm (joinPath dir.root name) = canonicalForm dir.root ++ [name] := by
    intro name hname
    rw [canonicalForm_joinPath hroot hname, canonicalForm_root, AccountDataDir.root,
      isAbsolute_joinPath dir.nonempty hid, normalNames_joinPath dir.nonempty hid]
    simp only [above, List.append_assoc]
  simp only [AccountDataDir.files, List.mem_cons, List.not_mem_nil, or_false] at h
  rcases h with rfl | rfl | rfl | rfl | rfl <;> exact ⟨_, hbelow (by decide)⟩

/-- **Two accounts never share a file**: whatever stands below the directories of two accounts, in
one data root however each spells it, has different names, also where the file system folds the case
of names, as long as the folding leaves the ids alone. -/
theorem trees_disjoint {rootA rootB idA idB : Bytes} {a b : AccountDataDir}
    (ha : AccountDataDir.create rootA idA = .ok a) (hb : AccountDataDir.create rootB idB = .ok b)
    (hroot : above rootA = above rootB) (hne : idA ≠ idB) {fold : Bytes → Bytes}
    (hfold : ∀ id, validateAccountId id = .ok () → fold id = id) (belowA belowB : List Bytes) :
    (canonicalForm a.root ++ belowA).map fold ≠ (canonicalForm b.root ++ belowB).map fold := by
  obtain ⟨hrootA, hidA⟩ := create_eq_ok ha
  obtain ⟨hrootB, hidB⟩ := create_eq_ok hb
  intro hsame
  rw [canonicalForm_root, canonicalForm_root, hrootA, hrootB, hroot, hidA, hidB] at hsame
  simp only [List.map_append, List.append_assoc, List.append_cancel_left_eq, List.map_cons,
    List.singleton_append] at hsame
  have hvalidA := hidA ▸ a.valid
  have hvalidB := hidB ▸ b.valid
  obtain ⟨hid, -⟩ := List.cons.inj hsame
  rw [hfold idA hvalidA, hfold idB hvalidB] at hid
  exact hne hid

/-- The folding of a file system that is case-insensitive for ASCII. -/
def foldCase (name : Bytes) : Bytes := name.map fun c => if isUpper c then c + 32 else c

theorem not_upper_of_allowed {c : UInt8} (h : isAllowedIdChar c = true) : isUpper c = false := by
  simp only [isAllowedIdChar, isLower, isDigit, isUpper, Bool.or_eq_true, Bool.and_eq_true,
    Bool.and_eq_false_iff, beq_iff_eq, decide_eq_true_eq, decide_eq_false_iff_not,
    UInt8.le_iff_toNat_le, ← UInt8.toNat_inj, UInt8.reduceToNat] at h ⊢
  omega

theorem foldCase_of_valid (id : Bytes) (h : validateAccountId id = .ok ()) : foldCase id = id := by
  refine (List.map_congr_left fun c hc => ?_).trans (List.map_id id)
  rw [not_upper_of_allowed ((allowed_of_valid h).2 c hc)]
  rfl

theorem trees_disjoint_folded :
    (canonicalForm (ascii "/srv/accounts/ab1") ++ [ascii "intent.log"]).map foldCase
      ≠ (canonicalForm (ascii "/srv/./accounts/ab2") ++ [ascii "intent.log"]).map foldCase :=
  have ha : AccountDataDir.create (ascii "/srv/accounts") (ascii "ab1")
      = .ok ⟨ascii "/srv/accounts", ascii "ab1", by decide, by decide⟩ := rfl
  have hb : AccountDataDir.create (ascii "/srv/./accounts/") (ascii "ab2")
      = .ok ⟨ascii "/srv/./accounts/", ascii "ab2", by decide, by decide⟩ := rfl
  trees_disjoint ha hb (by decide) (by decide) foldCase_of_valid [ascii "intent.log"]
    [ascii "intent.log"]

/-! ## Beside the shared cache -/

/-- **The guard keeps the cache apart from every account**: a file of the cache is no file of an
account, for absolute roots. -/
theorem cache_outside_trees {sharedRoot dataRoot id : Bytes} {dir : AccountDataDir}
    (hguard : requireOutsideAccountTree sharedRoot dataRoot = .ok ())
    (hshared : isAbsolute sharedRoot = true) (hdata : isAbsolute dataRoot = true)
    (hdir : AccountDataDir.create dataRoot id = .ok dir) {name : Bytes} (hname : PlainName name)
    {file : Bytes} (hfile : file ∈ dir.files) :
    canonicalForm (joinPath sharedRoot name) ≠ canonicalForm file := by
  obtain ⟨hroot, -⟩ := create_eq_ok hdir
  unfold requireOutsideAccountTree at hguard
  dsimp only at hguard
  split_ifs at hguard with hempty hwithin
  obtain ⟨hne, -⟩ := not_or.mp hempty
  obtain ⟨last, hbelow⟩ := canonicalForm_file hfile
  have hform : ∀ {path}, isAbsolute path = true → canonicalForm path = above path := by
    intro path habsolute
    rw [canonicalForm_eq, above, if_pos habsolute, if_pos habsolute, List.singleton_append]
  intro hsame
  -- both roots are in front of the one name
  have hdataFront : canonicalForm dataRoot <+: canonicalForm file := by
    rw [hbelow, canonicalForm_root, hroot, hform hdata, List.append_assoc]
    exact List.prefix_append _ _
  have hsharedFront : canonicalForm sharedRoot <+: canonicalForm file := by
    rw [← hsame, canonicalForm_joinPath hne hname, ← List.append_assoc, hform hshared]
    exact List.prefix_append _ _
  exact hwithin (List.prefix_or_prefix_of_prefix hdataFront hsharedFront)

theorem cache_outside_trees_kept :
    canonicalForm (joinPath (ascii "/srv/shared") (ascii "kite_nfo_2026-01-02.csv"))
      ≠ canonicalForm (ascii "/srv/accounts/ab1/ledger.jsonl") :=
  have hdir : AccountDataDir.create (ascii "/srv/accounts") (ascii "ab1")
      = .ok ⟨ascii "/srv/accounts", ascii "ab1", by decide, by decide⟩ := rfl
  cache_outside_trees (by decide) (by decide) (by decide) hdir (by decide) (by decide)

/-- A data root that is the current directory gets past the guard. -/
example : requireOutsideAccountTree (ascii "shared") (ascii ".") = .ok ()
    ∧ canonicalForm (joinPath (ascii ".") (ascii "shared")) = canonicalForm (ascii "shared") := by
  decide

end BrokerExec.Accounts

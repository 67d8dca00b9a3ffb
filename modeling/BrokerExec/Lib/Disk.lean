import BrokerExec.Lib.Bytes
import Mathlib.Logic.Function.Basic

/-!
# A directory of files

Names lead to inodes and inodes to bytes. An open handle keeps its inode, whatever becomes of
the name: a rename lets another name lead to the inode, and a truncating open empties the inode
that its name leads to, for every handle on it.

* **`overwrite_take`** — a file written piece by piece holds what has been written so far.
* **`read_rename`** — a rename shows, under the new name, all the bytes of the old one at once.
-/

namespace BrokerExec

/-! ## Writing into bytes -/

/-- The bytes from `offset` on replaced; a gap before them reads as zeros. -/
def overwrite (bytes : Bytes) (offset : Nat) (piece : Bytes) : Bytes :=
  bytes.take offset ++ List.replicate (offset - bytes.length) 0 ++ piece
    ++ bytes.drop (offset + piece.length)

/-- At the end, a write appends. -/
theorem overwrite_end (bytes piece : Bytes) :
    overwrite bytes bytes.length piece = bytes ++ piece := by
  unfold overwrite
  rw [List.take_length, Nat.sub_self, List.drop_eq_nil_of_le (by omega)]
  simp

/-- **Piece by piece**: over what has been written so far, the next bytes. -/
theorem overwrite_take {bytes : Bytes} {offset : Nat} (h : offset ≤ bytes.length) (count : Nat) :
    overwrite (bytes.take offset) offset ((bytes.drop offset).take count)
      = bytes.take (offset + count) := by
  have hlength : (bytes.take offset).length = offset := by
    rw [List.length_take]
    omega
  have happend := overwrite_end (bytes.take offset) ((bytes.drop offset).take count)
  rw [hlength] at happend
  rw [happend, List.take_add]

/-! ## Names, inodes and handles -/

/-- No two names lead to one inode, and every inode in use has been handed out. -/
structure Disk (N : Type) where
  entry : N → Option Nat
  content : Nat → Bytes
  next : Nat
  bounded : ∀ {n x}, entry n = some x → x < next
  single : ∀ {m n x}, entry m = some x → entry n = some x → m = n

namespace Disk

variable {N : Type} [DecidableEq N] (disk : Disk N)

def empty : Disk N where
  entry _ := none
  content _ := []
  next := 0
  bounded h := by cases h
  single h := by cases h

/-- What a reader of the name finds. -/
def read (n : N) : Option Bytes := (disk.entry n).map disk.content

/-- `write` through a handle, at its offset. -/
def write (inode offset : Nat) (piece : Bytes) : Disk N :=
  { disk with
    content := Function.update disk.content inode (overwrite (disk.content inode) offset piece) }

def remove (n : N) : Disk N where
  entry := Function.update disk.entry n none
  content := disk.content
  next := disk.next
  bounded {m x} h := by
    by_cases hm : m = n
    · rw [hm, Function.update_self] at h
      cases h
    · rw [Function.update_of_ne hm] at h
      exact disk.bounded h
  single {m k x} hm hk := by
    by_cases hmn : m = n
    · rw [hmn, Function.update_self] at hm
      cases hm
    · by_cases hkn : k = n
      · rw [hkn, Function.update_self] at hk
        cases hk
      · rw [Function.update_of_ne hmn] at hm
        rw [Function.update_of_ne hkn] at hk
        exact disk.single hm hk

/-- The name leads to this inode, which no other name leads to. -/
def link (n : N) (inode : Nat) (hinode : inode < disk.next)
    (hfree : ∀ m, disk.entry m = some inode → m = n) : Disk N where
  entry := Function.update disk.entry n (some inode)
  content := disk.content
  next := disk.next
  bounded {m x} h := by
    by_cases hm : m = n
    · rw [hm, Function.update_self] at h
      cases h
      exact hinode
    · rw [Function.update_of_ne hm] at h
      exact disk.bounded h
  single {m k x} hm hk := by
    by_cases hmn : m = n
    · by_cases hkn : k = n
      · rw [hmn, hkn]
      · rw [hmn, Function.update_self] at hm
        rw [Function.update_of_ne hkn] at hk
        cases hm
        exact absurd (hfree k hk) hkn
    · by_cases hkn : k = n
      · rw [hkn, Function.update_self] at hk
        rw [Function.update_of_ne hmn] at hm
        cases hk
        exact absurd (hfree m hm) hmn
      · rw [Function.update_of_ne hmn] at hm
        rw [Function.update_of_ne hkn] at hk
        exact disk.single hm hk

/-- A `rename`: nothing at the old name, and its inode at the new one. -/
def rename (src dst : N) : Disk N :=
  match h : disk.entry src with
  | none => disk
  | some inode =>
    (disk.remove src).link dst inode (disk.bounded h) (by
      intro m hm
      by_cases hsrc : m = src
      · rw [hsrc] at hm
        simp [remove] at hm
      · simp only [remove, Function.update_of_ne hsrc] at hm
        exact absurd (disk.single hm h) hsrc)

/-- One inode more, empty and without a name. -/
def allocate : Disk N where
  entry := disk.entry
  content := Function.update disk.content disk.next []
  next := disk.next + 1
  bounded h := Nat.lt_succ_of_lt (disk.bounded h)
  single := disk.single

/-- A truncating open for writing, and the inode of the handle. -/
def openTruncate (n : N) : Disk N × Nat :=
  match disk.entry n with
  | some inode => ({ disk with content := Function.update disk.content inode [] }, inode)
  | none =>
    (disk.allocate.link n disk.next (Nat.lt_succ_self _) fun _ hm =>
      absurd (disk.bounded hm) (Nat.lt_irrefl _), disk.next)

/-! ## What the operations leave alone -/

variable {disk} {m n src dst : N} {x : Nat}

omit [DecidableEq N] in
theorem read_eq_some_iff {bytes : Bytes} :
    disk.read n = some bytes ↔ ∃ x, disk.entry n = some x ∧ disk.content x = bytes :=
  Option.map_eq_some_iff

omit [DecidableEq N] in
theorem read_of_entry (h : disk.entry n = some x) : disk.read n = some (disk.content x) := by
  rw [read, h]
  rfl

theorem entry_remove_self : (disk.remove n).entry n = none := Function.update_self ..

theorem entry_remove_of_ne (hm : m ≠ n) : (disk.remove n).entry m = disk.entry m :=
  Function.update_of_ne hm ..

theorem read_remove_of_ne (hm : m ≠ n) : (disk.remove n).read m = disk.read m := by
  rw [read, read, entry_remove_of_ne hm]
  rfl

omit [DecidableEq N] in
/-- A write shows only under the name of its inode. -/
theorem read_write_of_ne {offset : Nat} {piece : Bytes} (hm : disk.entry m ≠ some x) :
    (disk.write x offset piece).read m = disk.read m := by
  unfold read write
  dsimp only
  cases hentry : disk.entry m with
  | none => rfl
  | some y =>
    have hy : y ≠ x := by
      rintro rfl
      exact hm hentry
    exact congrArg some (Function.update_of_ne hy ..)

omit [DecidableEq N] in
theorem content_write_self {offset : Nat} {piece : Bytes} :
    (disk.write x offset piece).content x = overwrite (disk.content x) offset piece :=
  Function.update_self ..

section

variable (h : disk.entry src = some x)

include h

theorem rename_eq :
    disk.rename src dst = (disk.remove src).link dst x (disk.bounded h) (by
      intro m hm
      by_cases hsrc : m = src
      · rw [hsrc, entry_remove_self] at hm
        cases hm
      · rw [entry_remove_of_ne hsrc] at hm
        exact absurd (disk.single hm h) hsrc) := by
  unfold rename
  split
  next hnone =>
    rw [h] at hnone
    cases hnone
  next y hy =>
    have hxy : y = x := Option.some_inj.mp (hy.symm.trans h)
    subst hxy
    rfl

theorem entry_rename_dst : (disk.rename src dst).entry dst = some x := by
  rw [rename_eq h]
  exact Function.update_self ..

theorem entry_rename_src (hne : src ≠ dst) : (disk.rename src dst).entry src = none := by
  rw [rename_eq h]
  exact (Function.update_of_ne hne ..).trans entry_remove_self

theorem entry_rename_of_ne (hdst : m ≠ dst) (hsrc : m ≠ src) :
    (disk.rename src dst).entry m = disk.entry m := by
  rw [rename_eq h]
  exact (Function.update_of_ne hdst ..).trans (entry_remove_of_ne hsrc)

theorem content_rename : (disk.rename src dst).content = disk.content := by
  rw [rename_eq h]
  rfl

/-- **All the bytes at once.** -/
theorem read_rename : (disk.rename src dst).read dst = disk.read src := by
  rw [read_of_entry h, read_of_entry (entry_rename_dst h), content_rename h]

end

theorem openTruncate_entry_self :
    (disk.openTruncate n).1.entry n = some (disk.openTruncate n).2 := by
  unfold openTruncate
  split
  next x hx => exact hx
  next => exact Function.update_self ..

theorem openTruncate_entry_of_ne (hm : m ≠ n) :
    (disk.openTruncate n).1.entry m = disk.entry m := by
  unfold openTruncate
  split
  next => rfl
  next => exact Function.update_of_ne hm ..

theorem openTruncate_content : (disk.openTruncate n).1.content (disk.openTruncate n).2 = [] := by
  unfold openTruncate
  split
  next => exact Function.update_self ..
  next => exact Function.update_self ..

/-- An inode that another name leads to is not touched. -/
theorem openTruncate_content_of_ne (hm : m ≠ n) (h : disk.entry m = some x) :
    (disk.openTruncate n).1.content x = disk.content x := by
  unfold openTruncate
  split
  next y hy =>
    refine Function.update_of_ne ?_ ..
    rintro rfl
    exact hm (disk.single h hy)
  next => exact Function.update_of_ne (Nat.ne_of_lt (disk.bounded h)) ..

theorem read_openTruncate_of_ne (hm : m ≠ n) :
    (disk.openTruncate n).1.read m = disk.read m := by
  unfold read
  rw [openTruncate_entry_of_ne hm]
  cases hentry : disk.entry m with
  | none => rfl
  | some x => exact congrArg some (openTruncate_content_of_ne hm hentry)

/-! ## Inodes handed out -/

theorem next_rename : (disk.rename src dst).next = disk.next := by
  unfold rename
  split <;> rfl

omit [DecidableEq N] in
theorem content_write_of_ne {y offset : Nat} {piece : Bytes} (h : x ≠ y) :
    (disk.write y offset piece).content x = disk.content x :=
  Function.update_of_ne h ..

section

variable (h : disk.entry n = none)

include h

/-- A new name gets an inode of its own. -/
theorem openTruncate_inode : (disk.openTruncate n).2 = disk.next := by
  unfold openTruncate
  split
  next x hx =>
    rw [h] at hx
    cases hx
  next => rfl

theorem openTruncate_next : (disk.openTruncate n).1.next = disk.next + 1 := by
  unfold openTruncate
  split
  next x hx =>
    rw [h] at hx
    cases hx
  next => rfl

theorem openTruncate_content_of_lt (hx : x < disk.next) :
    (disk.openTruncate n).1.content x = disk.content x := by
  unfold openTruncate
  split
  next y hy =>
    rw [h] at hy
    cases hy
  next => exact Function.update_of_ne (Nat.ne_of_lt hx) ..

end

end Disk

end BrokerExec

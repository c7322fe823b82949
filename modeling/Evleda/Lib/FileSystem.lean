/-
Files and the names they have.

A file is known by its number; a name stands for a directory or for a file, and
several names may stand for one file.  Creating a file and giving a file another
name fail where the name is taken, so neither ever changes what a name stands for.
Only writing changes the bytes of a file, and only through its number.

What matters to a reader is that a name which nobody writes through keeps its
bytes: every operation says which files and which names it leaves alone.
-/
import Mathlib.Data.List.Basic
import Mathlib.Logic.Function.Basic

namespace Evleda

open Function

/-- What a name stands for. -/
inductive Node where
  | directory
  | file (number : Nat)
  deriving DecidableEq, Repr

structure FileSystem (π : Type) where
  entry : π → Option Node
  bytes : Nat → List UInt8
  /-- The number of the next file. -/
  next : Nat

namespace FileSystem

variable {π : Type}

/-- Nothing at all. -/
def empty : FileSystem π := ⟨fun _ => none, fun _ => [], 0⟩

/-- What `stat` and `fstat` tell of a node. -/
structure Stat where
  regular : Bool
  size : Nat
  number : Option Nat
  deriving DecidableEq, Repr

def fstat (fs : FileSystem π) : Node → Stat
  | .directory => ⟨false, 0, none⟩
  | .file number => ⟨true, (fs.bytes number).length, some number⟩

def stat (fs : FileSystem π) (path : π) : Option Stat := (fs.entry path).map fs.fstat

/-- At most `count` bytes from an offset on. -/
def read (fs : FileSystem π) (node : Node) (offset count : Nat) : List UInt8 :=
  match node with
  | .directory => []
  | .file number => ((fs.bytes number).drop offset).take count

variable [DecidableEq π]

/-- `mkdir(exist_ok=True)`; nothing if a file has the name. -/
def mkdir (fs : FileSystem π) (path : π) : Option (FileSystem π) :=
  match fs.entry path with
  | none => some { fs with entry := update fs.entry path (some .directory) }
  | some .directory => some fs
  | some (.file _) => none

/-- Create a file, with `O_EXCL`; nothing if the name is taken. -/
def create (fs : FileSystem π) (path : π) : Option (Nat × FileSystem π) :=
  match fs.entry path with
  | none =>
      some (fs.next, {
        entry := update fs.entry path (some (.file fs.next))
        bytes := update fs.bytes fs.next []
        next := fs.next + 1 })
  | some _ => none

def write (fs : FileSystem π) (number offset : Nat) (bytes : List UInt8) : FileSystem π :=
  { fs with
    bytes := update fs.bytes number
      ((fs.bytes number).take offset ++ bytes ++ (fs.bytes number).drop (offset + bytes.length)) }

inductive LinkFailure where
  | missing
  | taken
  deriving DecidableEq, Repr

/-- Give a file another name. -/
def link (fs : FileSystem π) (path target : π) : Except LinkFailure (FileSystem π) :=
  match fs.entry path with
  | none => .error .missing
  | some node =>
      match fs.entry target with
      | some _ => .error .taken
      | none => .ok { fs with entry := update fs.entry target (some node) }

/-- Take a name away, if it is there. -/
def unlink (fs : FileSystem π) (path : π) : FileSystem π :=
  { fs with entry := update fs.entry path none }

/-! ### What is left alone -/

/-- Every name of a file is the name of one that was created. -/
def Numbered (fs : FileSystem π) : Prop :=
  ∀ path number, fs.entry path = some (.file number) → number < fs.next

/-- A name that stands for a file with these bytes. -/
def Holds (fs : FileSystem π) (path : π) (bytes : List UInt8) : Prop :=
  ∃ number, fs.entry path = some (.file number) ∧ fs.bytes number = bytes

variable {fs fs' : FileSystem π} {path path' : π} {bytes : List UInt8} {number : Nat}

theorem entry_mkdir (h : fs.mkdir path = some fs') (hpath : fs.entry path' ≠ none) :
    fs'.entry path' = fs.entry path' := by
  unfold mkdir at h
  split at h
  · rename_i hnone
    obtain rfl := Option.some.inj h
    refine update_of_ne ?_ _ _
    rintro rfl
    exact hpath hnone
  · obtain rfl := Option.some.inj h
    rfl
  · cases h

theorem mkdir_other (h : fs.mkdir path = some fs') (hne : path' ≠ path) :
    fs'.entry path' = fs.entry path' := by
  unfold mkdir at h
  split at h
  · obtain rfl := Option.some.inj h
    exact update_of_ne hne _ _
  · obtain rfl := Option.some.inj h
    rfl
  · cases h

theorem file_of_mkdir (h : fs.mkdir path = some fs')
    (hfile : fs'.entry path' = some (.file number)) : fs.entry path' = some (.file number) := by
  unfold mkdir at h
  split at h
  · obtain rfl := Option.some.inj h
    dsimp only at hfile
    by_cases hpath : path' = path
    · subst hpath
      rw [update_self] at hfile
      cases hfile
    · rwa [update_of_ne hpath] at hfile
  · obtain rfl := Option.some.inj h
    exact hfile
  · cases h

theorem mkdir_bytes (h : fs.mkdir path = some fs') : fs'.bytes = fs.bytes ∧ fs'.next = fs.next := by
  unfold mkdir at h
  split at h
  · obtain rfl := Option.some.inj h
    exact ⟨rfl, rfl⟩
  · obtain rfl := Option.some.inj h
    exact ⟨rfl, rfl⟩
  · cases h

/-- A file that is created is new and empty, and has only the name it is given. -/
theorem create_some (h : fs.create path = some (number, fs')) :
    fs.entry path = none ∧ number = fs.next ∧ fs'.next = fs.next + 1 ∧
      fs'.entry = update fs.entry path (some (.file number)) ∧
      fs'.bytes = update fs.bytes number [] := by
  unfold create at h
  split at h
  · rename_i hnone
    obtain ⟨rfl, rfl⟩ := Prod.mk.inj (Option.some.inj h)
    exact ⟨hnone, rfl, rfl, rfl, rfl⟩
  · cases h

@[simp] theorem unlink_self (fs : FileSystem π) (path : π) : (fs.unlink path).entry path = none :=
  update_self ..

theorem unlink_other (fs : FileSystem π) (hne : path' ≠ path) :
    (fs.unlink path).entry path' = fs.entry path' :=
  update_of_ne hne _ _

theorem link_ok (h : fs.link path path' = .ok fs') : fs.entry path' = none ∧ ∃ node,
    fs.entry path = some node ∧
      fs' = { fs with entry := update fs.entry path' (some node) } := by
  unfold link at h
  split at h
  · cases h
  · rename_i node hnode
    split at h
    · cases h
    · rename_i hfree
      obtain rfl := Except.ok.inj h
      exact ⟨hfree, node, hnode, rfl⟩

end FileSystem

end Evleda

/-
What every step of the quarantine store leaves intact.

A name of a digest stands, once it is there, for the same file with the same bytes,
and these have the digest.  Whatever an upload does to the files keeps it so, at
every step: a new file has no such name, writing goes to a file that has none, and
only a file with all its bytes is given one.

Verifying an object therefore returns its bytes, whatever other calls do meanwhile.
-/
import Evleda.InterchangeArtifacts.Store

namespace Evleda.InterchangeArtifacts

open Effect Outcome ImportApproval Function

section Files

variable [ByteHashing] {fs fs' : FileSystem Path}

/-! ### Names of digests -/

/-- The files of a store as uploads leave them. -/
structure Stocked (fs : FileSystem Path) : Prop where
  numbered : fs.Numbered
  blobs : ∀ digest node, fs.entry (.blob digest) = some node →
    fs.entry (shardOf digest) = some .directory ∧
      ∃ number, node = .file number ∧ ByteHashing.sha256 (fs.bytes number) = digest

/-- Later files: the names of digests and their directories stand for what they stood for. -/
structure Later (fs fs' : FileSystem Path) : Prop where
  blobs : ∀ digest number, fs.entry (.blob digest) = some (.file number) →
    fs'.entry (.blob digest) = some (.file number) ∧ fs'.bytes number = fs.bytes number
  shards : ∀ name, fs.entry (.shard name) = some .directory →
    fs'.entry (.shard name) = some .directory

section

omit [ByteHashing]

theorem Later.refl (fs : FileSystem Path) : Later fs fs :=
  ⟨fun _ _ h => ⟨h, rfl⟩, fun _ h => h⟩

theorem Later.trans {fs'' : FileSystem Path} (h : Later fs fs') (h' : Later fs' fs'') :
    Later fs fs'' := by
  refine ⟨fun digest number hentry => ?_, fun name hname => h'.shards name (h.shards name hname)⟩
  obtain ⟨hentry', hbytes⟩ := h.blobs digest number hentry
  obtain ⟨hentry'', hbytes'⟩ := h'.blobs digest number hentry'
  exact ⟨hentry'', hbytes'.trans hbytes⟩

theorem Later.holds (h : Later fs fs') {digest : String} {bytes : List UInt8}
    (hholds : fs.Holds (.blob digest) bytes) : fs'.Holds (.blob digest) bytes := by
  obtain ⟨number, hentry, rfl⟩ := hholds
  obtain ⟨hentry', hbytes⟩ := h.blobs digest number hentry
  exact ⟨number, hentry', hbytes⟩

end

/-- Files that change otherwise than in names of digests, directories and bytes of named blobs. -/
theorem Stocked.keep (h : Stocked fs) (hnumbered : fs'.Numbered)
    (hblobs : ∀ digest, fs'.entry (.blob digest) = fs.entry (.blob digest))
    (hshards : ∀ name, fs.entry (.shard name) = some .directory →
      fs'.entry (.shard name) = some .directory)
    (hbytes : ∀ digest number, fs.entry (.blob digest) = some (.file number) →
      fs'.bytes number = fs.bytes number) : Stocked fs' ∧ Later fs fs' := by
  refine ⟨⟨hnumbered, ?_⟩, ?_, hshards⟩
  · intro digest node hnode
    rw [hblobs] at hnode
    obtain ⟨hshard, number, rfl, hdigest⟩ := h.blobs digest node hnode
    refine ⟨hshards _ hshard, number, rfl, ?_⟩
    rw [hbytes digest number hnode]
    exact hdigest
  · intro digest number hentry
    exact ⟨(hblobs digest).trans hentry, hbytes digest number hentry⟩

theorem Stocked.mkdir (h : Stocked fs) {name : String} (hmkdir : fs.mkdir (.shard name) = some fs') :
    Stocked fs' ∧ Later fs fs' := by
  obtain ⟨hbytes, hnext⟩ := FileSystem.mkdir_bytes hmkdir
  refine h.keep ?_ ?_ ?_ ?_
  · intro path number hfile
    rw [hnext]
    exact h.numbered path number (FileSystem.file_of_mkdir hmkdir hfile)
  · intro digest
    exact FileSystem.mkdir_other hmkdir (by simp)
  · intro name' hname
    exact (FileSystem.entry_mkdir hmkdir (by rw [hname]; simp)).trans hname
  · intro digest number _
    rw [hbytes]

theorem Stocked.create (h : Stocked fs) {upload : String} {number : Nat}
    (hcreate : fs.create (.upload upload) = some (number, fs')) : Stocked fs' ∧ Later fs fs' := by
  obtain ⟨-, rfl, hnext, hentry, hbytes⟩ := FileSystem.create_some hcreate
  refine h.keep ?_ ?_ ?_ ?_
  · intro path number hfile
    rw [hentry] at hfile
    rw [hnext]
    by_cases hpath : path = .upload upload
    · rw [hpath, update_self, Option.some.injEq, Node.file.injEq] at hfile
      omega
    · rw [update_of_ne hpath] at hfile
      have := h.numbered path number hfile
      omega
  · intro digest
    rw [hentry, update_of_ne (by simp)]
  · intro name hname
    rw [hentry, update_of_ne (by simp)]
    exact hname
  · intro digest number hfile
    have hless := h.numbered _ _ hfile
    rw [hbytes, update_of_ne (by omega)]

theorem Stocked.write (h : Stocked fs) {number : Nat}
    (hfree : ∀ digest, fs.entry (.blob digest) ≠ some (.file number)) (offset : Nat)
    (bytes : List UInt8) :
    Stocked (fs.write number offset bytes) ∧ Later fs (fs.write number offset bytes) := by
  refine h.keep h.numbered (fun _ => rfl) (fun _ hname => hname) ?_
  intro digest number' hfile
  refine update_of_ne ?_ _ _
  rintro rfl
  exact hfree digest hfile

theorem Stocked.unlink (h : Stocked fs) (upload : String) :
    Stocked (fs.unlink (.upload upload)) ∧ Later fs (fs.unlink (.upload upload)) := by
  refine h.keep ?_ ?_ ?_ (fun _ _ _ => rfl)
  · intro path number hfile
    by_cases hpath : path = .upload upload
    · rw [hpath, FileSystem.unlink_self] at hfile
      cases hfile
    · rw [FileSystem.unlink_other fs hpath] at hfile
      exact h.numbered path number hfile
  · exact fun digest => FileSystem.unlink_other fs (by simp)
  · exact fun name hname => (FileSystem.unlink_other fs (by simp)).trans hname

theorem Stocked.link (h : Stocked fs) {upload digest : String} {number : Nat}
    (hupload : fs.entry (.upload upload) = some (.file number))
    (hdigest : ByteHashing.sha256 (fs.bytes number) = digest)
    (hshard : fs.entry (shardOf digest) = some .directory)
    (hlink : fs.link (.upload upload) (.blob digest) = .ok fs') :
    Stocked fs' ∧ Later fs fs' ∧ fs'.Holds (.blob digest) (fs.bytes number) := by
  obtain ⟨hfree, node, hnode, rfl⟩ := FileSystem.link_ok hlink
  rw [hupload, Option.some.injEq] at hnode
  subst hnode
  refine ⟨⟨?_, ?_⟩, ⟨?_, ?_⟩, ⟨number, update_self .., rfl⟩⟩
  · intro path number' hfile
    dsimp only at hfile
    by_cases hpath : path = .blob digest
    · rw [hpath, update_self, Option.some.injEq, Node.file.injEq] at hfile
      rw [← hfile]
      exact h.numbered _ _ hupload
    · rw [update_of_ne hpath] at hfile
      exact h.numbered _ _ hfile
  · intro digest' node hentry
    dsimp only at hentry ⊢
    rw [update_of_ne (by simp [shardOf])]
    by_cases hsame : digest' = digest
    · rw [hsame, update_self, Option.some.injEq] at hentry
      rw [hsame]
      exact ⟨hshard, number, hentry.symm, hdigest⟩
    · rw [update_of_ne (by simpa using hsame)] at hentry
      exact h.blobs digest' node hentry
  · intro digest' number' hentry
    refine ⟨?_, rfl⟩
    dsimp only
    rw [update_of_ne]
    · exact hentry
    · intro hsame
      rw [hsame, hfree] at hentry
      cases hentry
  · intro name hname
    have hne : Path.shard name ≠ .blob digest := by simp
    dsimp only
    rw [update_of_ne hne]
    exact hname

end Files

end Evleda.InterchangeArtifacts

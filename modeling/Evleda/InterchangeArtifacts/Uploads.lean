/-
What uploads and reads promise one another.

Everything an upload changes it changes inside of its transaction, so that nobody
else changes anything meanwhile: what it found when it began is what there is until
it commits.  The others rely on less: that names of digests keep their bytes, that
no row goes away, and that every row that comes is backed by its bytes.

Each part of a call is shown to keep these promises at every one of its steps, so
that a call may be cut off anywhere.
-/
import Evleda.InterchangeArtifacts.Blobs

namespace Evleda.InterchangeArtifacts

open Effect Outcome ImportApproval

section Promises

variable {ι : Type} [Hashing] [ByteHashing]

/-! ### What the store keeps -/

/-- The row is of an upload, and the name of its digest stands for the bytes that were put. -/
structure Kept (calls : ι → Call) (files : FileSystem Path) (row : ArtifactRow)
    (record : ArtifactRecord) (payload : List UInt8) : Prop where
  read : row.record = .ok record
  put : ∃ i call, calls i = .put call ∧ call.payload = payload ∧ call.actorId = record.actorId ∧
    call.idempotencyKey = record.idempotencyKey ∧ call.sourceSha256 = record.sha256
  shard : files.entry (shardOf record.sha256) = some .directory
  holds : files.Holds (.blob record.sha256) payload
  digest : ByteHashing.sha256 payload = record.sha256
  size : (payload.length : Int) = record.sizeBytes

/-- Every row is backed by its bytes, and rows differ in identifier and in key. -/
structure Sound (calls : ι → Call) (s : Storage ι) : Prop where
  files : Stocked s.files
  rows : ∀ row ∈ s.rows, ∃ record payload, Kept calls s.files row record payload
  ids : (s.rows.map (·.artifactId)).Nodup
  keys : (s.rows.map ArtifactRow.key).Nodup

/-- Nothing that was kept is lost. -/
structure Grows (calls : ι → Call) (s s' : Storage ι) : Prop where
  files : Later s.files s'.files
  rows : s.rows <+: s'.rows
  sound : Sound calls s → Sound calls s'

variable {calls : ι → Call} {s s' : Storage ι}

theorem Grows.refl (s : Storage ι) : Grows calls s s := ⟨.refl _, List.prefix_refl _, id⟩

theorem Grows.trans {s'' : Storage ι} (h : Grows calls s s') (h' : Grows calls s' s'') :
    Grows calls s s'' :=
  ⟨h.files.trans h'.files, h.rows.trans h'.rows, fun hsound => h'.sound (h.sound hsound)⟩

variable {payload : List UInt8}

theorem Kept.later {files files' : FileSystem Path} {row : ArtifactRow} {record : ArtifactRecord}
    (h : Kept calls files row record payload) (hlater : Later files files') :
    Kept calls files' row record payload :=
  { h with shard := hlater.shards _ h.shard, holds := hlater.holds h.holds }

theorem Sound.withFiles (h : Sound calls s) {files : FileSystem Path}
    (hfiles : Stocked files ∧ Later s.files files) :
    Sound calls { s with files := files } ∧ Grows calls s { s with files := files } := by
  have hsound : Sound calls { s with files := files } := by
    refine ⟨hfiles.1, ?_, h.ids, h.keys⟩
    intro row hrow
    obtain ⟨record, payload, hkept⟩ := h.rows row hrow
    exact ⟨record, payload, hkept.later hfiles.2⟩
  exact ⟨hsound, hfiles.2, List.prefix_refl _, fun _ => hsound⟩

/-- Who has a transaction is nothing to the others. -/
theorem Grows.writer (s : Storage ι) (writer : Option ι) : Grows calls s { s with writer := writer } :=
  ⟨.refl _, List.prefix_refl _, fun h => ⟨h.files, h.rows, h.ids, h.keys⟩⟩

/-- What a call relies on. -/
def Rely (calls : ι → Call) (i : ι) (s s' : Storage ι) : Prop :=
  (s.writer = some i → s' = s) ∧ Grows calls s s'

/-- What a call guarantees. -/
def Guar (calls : ι → Call) (i : ι) (s s' : Storage ι) : Prop :=
  (s' = s ∨ ∀ j, s.writer = some j → j = i) ∧ Grows calls s s'

theorem Rely.refl (i : ι) (s : Storage ι) : Rely calls i s s := ⟨fun _ => rfl, .refl s⟩

theorem Rely.trans {i : ι} (a b c : Storage ι) (h : Rely calls i a b) (h' : Rely calls i b c) :
    Rely calls i a c := by
  refine ⟨fun hwriter => ?_, h.2.trans h'.2⟩
  obtain rfl := h.1 hwriter
  exact h'.1 hwriter

theorem Guar.refl (i : ι) (s : Storage ι) : Guar calls i s s := ⟨Or.inl rfl, .refl s⟩

/-- In its transaction a call may do whatever loses nothing. -/
theorem Guar.held {i : ι} (hwriter : s.writer = some i) (h : Grows calls s s') : Guar calls i s s' := by
  refine ⟨Or.inr fun j hj => ?_, h⟩
  rw [hwriter] at hj
  exact (Option.some.inj hj).symm

theorem agreed [DecidableEq ι] :
    Parties.Agreed giveUp (Rely calls) (Guar calls : ι → Storage ι → Storage ι → Prop) where
  refl := Rely.refl
  trans := fun _ => Rely.trans
  others := by
    rintro i j s s' hne ⟨hturn, hgrows⟩
    refine ⟨fun hwriter => ?_, hgrows⟩
    obtain hsame | hown := hturn
    · exact hsame
    · exact absurd (hown j hwriter).symm hne
  released := by
    intro i j s hne
    unfold giveUp
    split
    · rename_i hwriter
      refine ⟨fun hother => ?_, .writer s none⟩
      rw [hwriter] at hother
      exact absurd (Option.some.inj hother) hne
    · exact Rely.refl j s

/-! ### Verifying an object -/

variable {i : ι} {G : Storage ι → Storage ι → Prop}

/-- The name of a digest stands for a file with these bytes. -/
def Stands (digest : String) (number : Nat) (payload : List UInt8) (s : Storage ι) : Prop :=
  s.files.entry (.blob digest) = some (.file number) ∧ s.files.bytes number = payload

omit [Hashing] [ByteHashing] in
theorem Stands.later {digest : String} {number : Nat}
    (h : Stands digest number payload s) (hlater : Later s.files s'.files) :
    Stands digest number payload s' := by
  obtain ⟨hentry, hbytes⟩ := hlater.blobs digest number h.1
  exact ⟨hentry, hbytes.trans h.2⟩

section Held

variable {α β : Type} {post : Except ArtifactFailure α → Storage ι → Prop}

/-- In a transaction a step is taken from where the one before it led. -/
theorem held_ok (hwriter : s.writer = some i) {place : Place}
    {x : Effect (Storage ι) ArtifactFailure β} {f : β → ArtifactSteps ι α} {b : β}
    (hrun : x.run s = (.ok b, s')) (hguar : G s s')
    (h : (f b).Safe (Rely calls i) G (fun _ _ => True) post s') :
    (Steps.atomic place x >>= f).Safe (Rely calls i) G (fun _ _ => True) post s := by
  refine Steps.Safe.atomic_bind fun m hm _ => ?_
  rw [hm.1 hwriter, hrun]
  refine ⟨hguar, fun b' hb => ?_, fun e m' he => nomatch he⟩
  obtain rfl := Except.ok.inj hb
  exact h

end Held

/-- The state has other files, which are later and stocked. -/
structure Working (s m : Storage ι) (files : FileSystem Path) : Prop where
  same : m = { s with files := files }
  stocked : Stocked files
  later : Later s.files files

variable {m : Storage ι}

section

omit [Hashing]

theorem Working.start (h : Stocked s.files) : Working s s s.files := ⟨rfl, h, .refl _⟩

theorem Working.writer {files : FileSystem Path} (h : Working s m files) :
    m.writer = s.writer := by rw [h.same]

theorem Working.files {files : FileSystem Path} (h : Working s m files) :
    m.files = files := by rw [h.same]

end

theorem Working.sound {files : FileSystem Path} (h : Working s m files)
    (hs : Sound calls s) : Sound calls m := by
  rw [h.same]
  exact (hs.withFiles ⟨h.stocked, h.later⟩).1

omit [Hashing] in
theorem Working.next {files files' : FileSystem Path} (h : Working s m files)
    (hfiles : Stocked files' ∧ Later files files') :
    Working s { m with files := files' } files' := by
  refine ⟨?_, hfiles.1, h.later.trans hfiles.2⟩
  rw [h.same]

/-- What may be done to the files in a transaction. -/
theorem Working.guar {files files' : FileSystem Path} (h : Working s m files)
    (hs : Sound calls s) (hwriter : s.writer = some i) (hfiles : Stocked files' ∧ Later files files') :
    Guar calls i m { m with files := files' } := by
  refine Guar.held (h.writer.trans hwriter) ((h.sound hs).withFiles ⟨hfiles.1, ?_⟩).2
  rw [h.files]
  exact hfiles.2

variable {upload : String}

omit [Hashing] in
/-- A name of the digest that is there has the bytes of the digest. -/
theorem Stocked.holds (hfree : ByteHashing.CollisionFree) {files : FileSystem Path}
    (h : Stocked files) {node : Node}
    (hentry : files.entry (.blob (ByteHashing.sha256 payload)) = some node) :
    files.Holds (.blob (ByteHashing.sha256 payload)) payload := by
  obtain ⟨-, number, rfl, hdigest⟩ := h.blobs _ _ hentry
  exact ⟨number, hentry, hfree hdigest⟩

section

omit [Hashing] [ByteHashing]

end

end Promises

end Evleda.InterchangeArtifacts

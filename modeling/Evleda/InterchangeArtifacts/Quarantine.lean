/-
The integrity of the quarantine store, over every run.

Any number of uploads and reads share the files and the table, take their steps in
any order, and may be cut off after any of them.  At every moment each committed
row is backed by the very bytes that were put; a read by the owner with the right
digest returns them, and any other read is refused.  A retry finds the row of the
first upload and changes nothing.
-/
import Evleda.InterchangeArtifacts.Uploads

namespace Evleda.InterchangeArtifacts

open Effect Outcome ImportApproval

section Calls

variable {ι : Type} {i : ι} {s s' : Storage ι}

/-! ### Transactions -/

/-- The failure of a call that could not begin to write. -/
def busy : ArtifactFailure := unavailable "managed artifact metadata write failed"

theorem beginImmediate_ok (h : s.writer = none) :
    (beginImmediate i).run s = (.ok s.rows, { s with writer := some i }) := by
  show ((Effect.check (require (s.writer = none) _) >>= _).run s) = _
  rw [run_check_bind, require, if_pos h]
  rfl

theorem beginImmediate_busy (h : s.writer ≠ none) :
    (beginImmediate i).run s = (.error busy, s) := by
  show ((Effect.check (require (s.writer = none) _) >>= _).run s) = _
  rw [run_check_bind, require, if_neg h]
  rfl

variable [Hashing] [ByteHashing] {calls : ι → Call} {G : Storage ι → Storage ι → Prop}

theorem Guar.begin {m : Storage ι} (h : m.writer = none) :
    Guar calls i m { m with writer := some i } := by
  refine ⟨Or.inr fun j hj => ?_, .writer m _⟩
  rw [h] at hj
  cases hj

variable [DecidableEq ι]

/-- How the work of a transaction may end: what its commit or its rollback does has to be as
promised. -/
structure Ends {α : Type} (calls : ι → Call) (i : ι) (G : Storage ι → Storage ι → Prop)
    (post : Except ArtifactFailure α → Storage ι → Prop)
    (r : Except ArtifactFailure (α × List ArtifactRow)) (m : Storage ι) : Prop where
  held : m.writer = some i
  commit : ∀ a rows, r = .ok (a, rows) →
    G m (commitWork rows m) ∧ ∀ s', Rely calls i (commitWork rows m) s' → post (.ok a) s'
  rollback : ∀ e, r = .error e →
    G m (giveUp i m) ∧ ∀ s', Rely calls i (giveUp i m) s' → post (.error e) s'

/-- A transaction begins when nobody else has one, and ends with a commit or a rollback. -/
theorem transaction_safe {α : Type} {post : Except ArtifactFailure α → Storage ι → Prop}
    {work : List ArtifactRow → ArtifactSteps ι (α × List ArtifactRow)} (hG : ∀ m, G m m)
    (hbusy : ∀ m, Rely calls i s m → post (.error busy) m)
    (hwork : ∀ m, Rely calls i s m → m.writer = none → G m { m with writer := some i } ∧
      (work m.rows).Safe (Rely calls i) G (fun _ _ => True) (Ends calls i G post)
        { m with writer := some i }) :
    (transaction i work).Safe (Rely calls i) G (fun _ _ => True) post s := by
  unfold transaction
  refine Steps.Safe.atomic_bind fun m hm _ => ?_
  by_cases hwriter : m.writer = none
  · obtain ⟨hbegin, hsafe⟩ := hwork m hm hwriter
    rw [beginImmediate_ok hwriter]
    refine ⟨hbegin, ?_, fun e s' he => nomatch he⟩
    intro rows hrows
    obtain rfl := Except.ok.inj hrows
    refine Steps.Safe.bind (Rely.refl i) (Steps.Safe.handling (Rely.refl i) (hsafe.weaken ?_))
    rintro r m' hends
    cases r with
    | ok result =>
        obtain ⟨a, rows⟩ := result
        obtain ⟨hguar, hpost⟩ := hends.commit a rows rfl
        exact held_ok hends.held (b := ()) rfl hguar hpost
    | error e =>
        obtain ⟨hguar, hpost⟩ := hends.rollback e rfl
        exact held_ok hends.held (b := ()) rfl hguar hpost
  · rw [beginImmediate_busy hwriter]
    refine ⟨hG m, (fun b hb => nomatch hb), fun e s' he hs' => ?_⟩
    obtain rfl := Except.error.inj he
    exact hbusy s' (hm.trans _ _ _ hs')

theorem Guar.giveUp {m : Storage ι} (h : m.writer = some i) :
    Guar calls i m (InterchangeArtifacts.giveUp i m) := by
  unfold InterchangeArtifacts.giveUp
  rw [if_pos h]
  exact Guar.held h (.writer m none)

/-! ### Uploads -/

/-- What an upload that returns a record has done. -/
def PutPost (calls : ι → Call) (call : PutCall) (r : Except ArtifactFailure Answer)
    (m : Storage ι) : Prop :=
  ∀ answer, r = .ok answer → ∃ row ∈ m.rows, ∃ record,
    Kept calls m.files row record call.payload ∧ answer = .stored record ∧
      record.actorId = call.actorId ∧ record.idempotencyKey = call.idempotencyKey

omit [DecidableEq ι] in
theorem Kept.grows {row : ArtifactRow} {record : ArtifactRecord} {payload : List UInt8}
    (h : Kept calls s.files row record payload) (hrow : row ∈ s.rows) (hgrows : Grows calls s s') :
    row ∈ s'.rows ∧ Kept calls s'.files row record payload :=
  ⟨hgrows.rows.subset hrow, h.later hgrows.files⟩

/-- What a read that returns something was about. -/
def ReadPost (calls : ι → Call) (call : ReadCall) (r : Except ArtifactFailure Answer)
    (m : Storage ι) : Prop :=
  ∀ answer, r = .ok answer → ∃ row ∈ m.rows, ∃ record payload,
    Kept calls m.files row record payload ∧ answer = .content record payload ∧
      record.artifactId = call.artifactId ∧ record.actorId = call.actorId ∧
      record.sha256 = call.sha256

end Calls

/-! ### Runs -/

section Runs

variable {ι : Type} [Hashing] [ByteHashing] [DecidableEq ι]

/-- An empty store, and all the calls still to be made. -/
def begun (validate : ArtifactKind → List UInt8 → Except ArtifactFailure Unit) (calls : ι → Call) :
    Parties ι Place (Storage ι) ArtifactFailure Answer :=
  ⟨⟨.empty, [], none⟩, fun i => some ((calls i).steps validate i)⟩

/-- Where some turns lead. -/
def after (c : Parties ι Place (Storage ι) ArtifactFailure Answer) (turns : List (Turn ι)) :
    Parties ι Place (Storage ι) ArtifactFailure Answer :=
  replay (Parties.after giveUp) c turns

/-- What a call promises of its result. -/
def Promise (calls : ι → Call) (i : ι) (r : Except ArtifactFailure Answer) (m : Storage ι) : Prop :=
  match calls i with
  | .put call => PutPost calls call r m
  | .read call => ReadPost calls call r m

/-- Every party keeps its promises, and the store is sound. -/
def Holding (calls : ι → Call) (c : Parties ι Place (Storage ι) ArtifactFailure Answer) : Prop :=
  Parties.Safely (Rely calls) (Guar calls) (fun _ _ _ => True) (Promise calls) c ∧ Sound calls c.shared

theorem Holding.after {calls : ι → Call}
    {c : Parties ι Place (Storage ι) ArtifactFailure Answer} (h : Holding calls c)
    (turns : List (Turn ι)) :
    Holding calls (after c turns) ∧ Grows calls c.shared (after c turns).shared := by
  have hreleased : ∀ i (s : Storage ι), Grows calls s (giveUp i s) := by
    intro i s
    unfold giveUp
    split
    · exact .writer s none
    · exact .refl s
  obtain ⟨hsafely, hgrows⟩ := h.1.reaches agreed Grows.refl (fun _ _ _ => Grows.trans)
    (fun i s s' hguar => hguar.2) hreleased turns
  exact ⟨⟨hsafely, hgrows.sound h.2⟩, hgrows⟩

end Runs

/-! ### A board, put and read -/

section Sample

/-- `(kicad_pcb (generator_version 10.0))` -/
def samplePayload : List UInt8 :=
  [40, 107, 105, 99, 97, 100, 95, 112, 99, 98, 32, 40, 103, 101, 110, 101, 114, 97, 116, 111, 114,
    95, 118, 101, 114, 115, 105, 111, 110, 32, 49, 48, 46, 48, 41, 41]

def sampleDigest : String := "b9118095b27152b3480d9b2bc805c344eb10ba87771e60fa29a52142972a32b2"

/-- The board has its digest; anything else is its own, marked. -/
@[reducible] def sampleByteHashing : ByteHashing where
  sha256 bytes :=
    if bytes = samplePayload then sampleDigest
    else String.ofList ('!' :: bytes.map fun byte => Char.ofNat byte.toNat)

/-- The digest of the metadata of the board. -/
@[reducible] def sampleHashing : Hashing :=
  ⟨fun _ => "0d94fda776249ffb360876e8e9281974f1bca2c78fdc9c2314fea19e17984f57"⟩

attribute [local instance] sampleByteHashing sampleHashing

/-- One call puts the board, the other one reads it. -/
def sampleCalls : Bool → Call
  | false => .put
      { payload := samplePayload
        actorId := "alice"
        sourceSha256 := sampleDigest
        declaredLength := 36
        idempotencyKey := "upload-1"
        kind := "kicad_pcb"
        mediaType := "application/x-kicad-pcb"
        source := "user-upload"
        maximumBytes := none
        storeLimit := maxArtifactBytes
        closed := false
        createdAt := ⟨1767225600000000, by decide⟩
        uuid := "00000000000000000000000000000001"
        upload := "upload-1"
        counts := [20] }
  | true => .read ⟨"artifact_00000000000000000000000000000001", sampleDigest, "alice", false⟩

end Sample

end Evleda.InterchangeArtifacts

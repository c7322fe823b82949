/-
Which changes of a snapshot the kernel could have made.

A snapshot that is saved replaces an older one of the same transaction.  The store
replays both, and it compares them; whether the kernel itself could have gone from
the one to the other it does not ask.  Nearly always it could: the rest of the
commands is staged, a report is recorded, or the transaction is rolled back.

What it could not do is forget.  A report that did not let the transaction through
is replaced by another report and goes away with the next command, but no operation
takes it away and leaves the rest, and the store takes that change.
-/
import Evleda.ProjectStore.Restoring

namespace Evleda.ProjectStore

open Kernel Effect Outcome

section Transitions

variable [UnicodeData] [Hashing] {k k' : DesignKernel} {transactionId : String}
  {t t' : Transaction}

/-- An operation on a transaction that was begun. -/
def On (transactionId : String) : Operation → Prop
  | .beginTransaction _ _ => False
  | .stage command => command.val.transactionId = transactionId
  | .stageBatch batch => ∀ command ∈ batch, command.val.transactionId = transactionId
  | .recordVerification id _ _ _ => id = transactionId
  | .commit _ id _ => id = transactionId
  | .rollback id => id = transactionId

/-- From some kernel that holds the one snapshot, operations on the transaction lead to one that
holds the other. -/
def Reachable (previous current : Transaction) : Prop :=
  ∃ (base : Revision) (k : DesignKernel) (before operations : List Operation),
    fromRevision base = .ok k ∧
    (Evleda.replay perform k before).transactions previous.val.transactionId = some previous ∧
    (∀ operation ∈ operations, On previous.val.transactionId operation) ∧
    (Evleda.replay perform k (before ++ operations)).transactions previous.val.transactionId =
      some current

/-- The report of an open transaction is gone, and no command has come. -/
def ForgetsReport (previous current : DesignTransaction) : Prop :=
  previous.state = .opened ∧ previous.verificationReportHash ≠ none ∧
    current.state = .opened ∧ current.commands = previous.commands ∧
    current.verificationReportHash = none

/-! ### What a report leaves behind -/

/-- There are more commands than `n`, or the transaction is over or carries a report. -/
def Marked (n : Nat) (t : DesignTransaction) : Prop :=
  n ≤ t.commands.length ∧
    (n < t.commands.length ∨ t.state ≠ .opened ∨ t.verificationReportHash ≠ none)

theorem Marked.extended {n : Nat} (h : Marked n t.val) (hextended : Extended t t') :
    Marked n t'.val := by
  obtain ⟨message, command, hextend⟩ := hextended
  obtain ⟨g, digest, -, -, -, -, ht'⟩ := extend_ok hextend
  have hlength : t'.val.commands.length = t.val.commands.length + 1 := by
    rw [ht', List.length_append, List.length_singleton]
  have hle := h.1
  exact ⟨by omega, Or.inl (by omega)⟩

theorem Marked.extendedMany {n : Nat} (h : Marked n t.val)
    (hextended : Relation.ReflTransGen Extended t t') : Marked n t'.val := by
  induction hextended with
  | refl => exact h
  | tail _ hstep ih => exact Marked.extended ih hstep

theorem Marked.moves {n : Nat} (hmoves : Moves k k') (ht : k.transactions transactionId = some t)
    (h : Marked n t.val) :
    ∃ t', k'.transactions transactionId = some t' ∧ Marked n t'.val := by
  -- a move sets at most one transaction
  have hset : ∀ {id : String} {t' : Transaction},
      (∀ t₀, k.transactions id = some t₀ → Marked n t₀.val → Marked n t'.val) →
      ∃ found, (k.transactions.set id t') transactionId = some found ∧ Marked n found.val := by
    intro id t' hmarked
    by_cases hid : transactionId = id
    · rw [← hid, Dict.set_self]
      exact ⟨t', rfl, hmarked t (by rw [← hid]; exact ht) h⟩
    · rw [Dict.set_of_ne _ _ hid]
      exact ⟨t, ht, h⟩
  cases hmoves with
  | stays => exact ⟨t, ht, h⟩
  | opens hnew hopen =>
      refine hset fun t₀ ht₀ _ => ?_
      rw [hnew] at ht₀
      cases ht₀
  | @«extends» id t₀ t₁ _ _ ht₀ hextended =>
      refine hset fun t₂ ht₂ hmarked => ?_
      obtain rfl := Option.some.inj (ht₀.symm.trans ht₂)
      exact hmarked.extendedMany hextended
  | verifies ht₀ hverified =>
      refine hset fun t₁ ht₁ hmarked => ?_
      obtain rfl := Option.some.inj (ht₀.symm.trans ht₁)
      unfold verifiedTransaction at hverified
      simp only [bind_ok, exists_unit] at hverified
      rw [replace_ok hverified.2]
      exact ⟨hmarked.1, Or.inr (Or.inr (Option.some_ne_none _))⟩
  | rollsBack ht₀ hstate hreplace =>
      refine hset fun t₁ ht₁ hmarked => ?_
      obtain rfl := Option.some.inj (ht₀.symm.trans ht₁)
      rw [replace_ok hreplace]
      exact ⟨hmarked.1, Or.inr (Or.inl TransactionState.noConfusion)⟩
  | commits ht₀ hrevision hreplace =>
      refine hset fun t₁ ht₁ hmarked => ?_
      obtain rfl := Option.some.inj (ht₀.symm.trans ht₁)
      rw [replace_ok hreplace]
      exact ⟨hmarked.1, Or.inr (Or.inl TransactionState.noConfusion)⟩

theorem Marked.replay {n : Nat} (ht : k.transactions transactionId = some t) (h : Marked n t.val)
    (operations : List Operation) :
    ∃ t', (Evleda.replay perform k operations).transactions transactionId = some t' ∧
      Marked n t'.val := by
  have hnext : ∀ (k : DesignKernel) (operation : Operation),
      (∃ t', k.transactions transactionId = some t' ∧ Marked n t'.val) →
      ∃ t', (perform k operation).transactions transactionId = some t' ∧ Marked n t'.val := by
    rintro k operation ⟨t', ht', hmarked⟩
    exact hmarked.moves (perform_moves k operation) ht'
  exact Replay.invariant (P := fun k : DesignKernel => ∃ t', k.transactions transactionId = some t' ∧
    Marked n t'.val) ⟨t, ht, h⟩ hnext operations

theorem Reachable.keeps {previous current : Transaction} (h : Reachable previous current) :
    ¬ ForgetsReport previous.val current.val := by
  rintro ⟨-, hreport, hopened, hcommands, hnone⟩
  obtain ⟨base, k, before, operations, -, hprevious, -, hcurrent⟩ := h
  have hmarked : Marked previous.val.commands.length previous.val :=
    ⟨Nat.le_refl _, Or.inr (Or.inr hreport)⟩
  obtain ⟨t, ht, -, hmore | hover | hkept⟩ := Marked.replay hprevious hmarked operations
  all_goals
    rw [← Replay.append, hcurrent] at ht
    obtain rfl := Option.some.inj ht
  · rw [hcommands] at hmore
    exact Nat.lt_irrefl _ hmore
  · exact hover hopened
  · exact hkept hnone

/-! ### A replay as operations -/

/-- The second transaction is the first but for what was verified of it. -/
def SameSubject (t t' : DesignTransaction) : Prop :=
  ∃ state reportHash gatePassed digest, t' = { t with
    state := state
    verificationReportHash := reportHash
    commitGatePassed := gatePassed
    verificationPreviewDigest := digest }

variable {gatePassed : Bool} {command : Command}

namespace SameSubject

theorem extend {message : String} (h : SameSubject t.val t'.val)
    (hstate : t'.val.state = t.val.state) :
    extend message t' command = extend message t command := by
  obtain ⟨state, reportHash, gatePassed, digest, hval⟩ := h
  obtain rfl : state = t.val.state := by rw [← hstate, hval]
  unfold Kernel.extend Transaction.replace Checked.replace
  rw [hval]

theorem verified {reportHash subject : String} (h : SameSubject t.val t'.val)
    (hstate : t'.val.state = t.val.state) :
    verifiedTransaction t' reportHash gatePassed subject =
      verifiedTransaction t reportHash gatePassed subject := by
  obtain ⟨state, _, _, digest, hval⟩ := h
  obtain rfl : state = t.val.state := by rw [← hstate, hval]
  unfold verifiedTransaction Transaction.replace Checked.replace
  rw [hval]

theorem rolledBack (h : SameSubject t.val t'.val) :
    t'.replace Kernel.rolledBack = t.replace Kernel.rolledBack := by
  obtain ⟨state, reportHash, gatePassed, digest, hval⟩ := h
  unfold Transaction.replace Checked.replace
  rw [hval]
  rfl

theorem subject (h : SameSubject t.val t'.val) (digest : Option String) :
    verificationSubject digest t' = verificationSubject digest t ∧
      t'.val.previewDigest = t.val.previewDigest := by
  obtain ⟨state, reportHash, gatePassed, _, hval⟩ := h
  unfold verificationSubject
  rw [hval]
  exact ⟨rfl, rfl⟩

theorem commands (h : SameSubject t.val t'.val) : t'.val.commands = t.val.commands := by
  obtain ⟨state, reportHash, gatePassed, digest, hval⟩ := h
  rw [hval]

end SameSubject

/-- A transaction that nothing was verified of. -/
structure Unverified (t : DesignTransaction) : Prop where
  opened : t.state = .opened
  noReport : t.verificationReportHash = none

theorem unverified_opened {k : DesignKernel} {baseRevision : String}
    (h : openTransaction k transactionId baseRevision = .ok t) : Unverified t.val := by
  obtain ⟨head, digest, -, -, -, ht⟩ := openTransaction_ok h
  rw [ht]
  exact ⟨rfl, rfl⟩

theorem unverified_extended {message : String}
    (h : extend message t command = .ok t') : Unverified t'.val := by
  obtain ⟨g, digest, hopened, -, -, -, ht'⟩ := extend_ok h
  rw [ht']
  exact ⟨hopened, rfl⟩

/-- The kernel holds one transaction, under its name. -/
def Alone (k : DesignKernel) (transactionId : String) (t : Transaction) : Prop :=
  k.transactions = Dict.empty.set transactionId t

theorem Alone.found (h : Alone k transactionId t) : k.transactions transactionId = some t := by
  rw [h, Dict.set_self]

theorem Alone.is {id : String} {t₀ : Transaction} (h : Alone k transactionId t)
    (ht₀ : k.transactions id = some t₀) : id = transactionId ∧ t₀ = t := by
  rw [h] at ht₀
  obtain ⟨hid, heq⟩ | ⟨-, hnone⟩ := Dict.set_eq_some ht₀
  · exact ⟨hid, heq⟩
  · cases hnone

theorem Alone.set (h : Alone k transactionId t) (t' : Transaction) :
    k.transactions.set transactionId t' = Dict.empty.set transactionId t' := by
  rw [h, Dict.set_set]

theorem beginTransaction_fresh {baseRevision : String} (hnew : k.transactions transactionId = none)
    (h : (beginTransaction transactionId baseRevision).run k = (.ok t, k')) :
    openTransaction k transactionId baseRevision = .ok t ∧
      k' = { k with transactions := k.transactions.set transactionId t } := by
  unfold beginTransaction at h
  simp only [check_bind_returns, run_read_bind, run_write_bind, pure_returns, id, hnew] at h
  obtain ⟨-, -, -, -, t', hopen, rfl, rfl⟩ := h
  exact ⟨hopen, rfl⟩

theorem recordVerification_iff {reportHash : String} {digest : Option String}
    (ht : k.transactions transactionId = some t) (hstate : t.val.state ≠ .verified) :
    (recordVerification transactionId reportHash gatePassed digest).run k = (.ok t', k') ↔
      requireSha256 reportHash "verification report hash" = .ok () ∧
      requireSha256 (verificationSubject digest t) "verified preview digest" = .ok () ∧
      verificationSubject digest t = t.val.previewDigest ∧
      verifiedTransaction t reportHash gatePassed (verificationSubject digest t) = .ok t' ∧
      k' = { k with transactions := k.transactions.set transactionId t' } := by
  unfold recordVerification
  simp only [check_bind_returns, run_read_bind, id, getTransaction_ok, ht, require_ok,
    exists_unit, Option.some.injEq, exists_eq_left', if_neg hstate, run_write_bind,
    pure_returns]
  constructor
  · rintro ⟨hreport, hpreview, hsubject, next, hverified, rfl, hk⟩
    exact ⟨hreport, hpreview, hsubject, hverified, hk⟩
  · rintro ⟨hreport, hpreview, hsubject, hverified, hk⟩
    exact ⟨hreport, hpreview, hsubject, t', hverified, rfl, hk⟩

theorem rollback_iff (ht : k.transactions transactionId = some t)
    (hcommitted : t.val.state ≠ .committed) (hrolled : t.val.state ≠ .rolledBack) :
    (rollback transactionId).run k = (.ok t', k') ↔
      t.replace Kernel.rolledBack = .ok t' ∧
        k' = { k with transactions := k.transactions.set transactionId t' } := by
  unfold rollback
  simp only [check_bind_returns, run_read_bind, id, getTransaction_ok, ht, require_ok,
    exists_unit, Option.some.injEq, exists_eq_left', if_neg hrolled, run_write_bind,
    pure_returns, ne_eq, hcommitted, not_false_eq_true, true_and]
  constructor
  · rintro ⟨next, hnext, rfl, hk⟩
    exact ⟨hnext, hk⟩
  · rintro ⟨hnext, hk⟩
    exact ⟨t', hnext, rfl, hk⟩

theorem Alone.stage_cases (h : Alone k transactionId t)
    (hrun : (stage command).run k = (.ok t', k')) :
    command.val.transactionId = transactionId ∧ ((t' = t ∧ k' = k) ∨
      (extend "command has no semantic effect" t command = .ok t' ∧ k' = staged k command t' ∧
        Alone k' transactionId t')) := by
  obtain ⟨t₀, ht₀, -, ⟨-, rfl, rfl⟩ | ⟨-, -, hextend, rfl⟩⟩ := stage_returns.mp hrun
  · obtain ⟨hid, rfl⟩ := h.is ht₀
    exact ⟨hid, Or.inl ⟨rfl, rfl⟩⟩
  · obtain ⟨hid, rfl⟩ := h.is ht₀
    refine ⟨hid, Or.inr ⟨hextend, rfl, ?_⟩⟩
    show k.transactions.set command.val.transactionId t' = _
    rw [hid]
    exact h.set t'

/-- What staging commands one after another leaves behind. -/
structure StagedAll (k k' : DesignKernel) (transactionId : String) (t t' : Transaction)
    (commands : List Command) : Prop where
  alone : Alone k' transactionId t'
  replayed : Evleda.replay perform k (commands.map .stage) = k'
  length : t'.val.commands.length ≤ t.val.commands.length + commands.length
  unverified : Unverified t.val → Unverified t'.val
  own : ∀ command ∈ commands, command.val.transactionId = transactionId

theorem Alone.stageAll (commands : List Command) : ∀ {k : DesignKernel} {t : Transaction},
    Alone k transactionId t → (stageAll t commands).run k = (.ok t', k') →
    StagedAll k k' transactionId t t' commands := by
  induction commands with
  | nil =>
      intro k t h hrun
      obtain ⟨rfl, rfl⟩ := pure_returns.mp hrun
      exact ⟨h, rfl, Nat.le_refl _, id, fun _ hmem => absurd hmem List.not_mem_nil⟩
  | cons command rest ih =>
      intro k t h hrun
      obtain ⟨m, km, hstage, hrest⟩ := bind_returns.mp (show (stage command >>= fun m =>
        ProjectStore.stageAll m rest).run k = (.ok t', k') from hrun)
      have hperform : perform k (.stage command) = km := congrArg Prod.snd hstage
      obtain ⟨hid, hcases⟩ := h.stage_cases hstage
      have hown : (∀ c ∈ rest, c.val.transactionId = transactionId) →
          ∀ c ∈ command :: rest, c.val.transactionId = transactionId :=
        fun hall => List.forall_mem_cons.mpr ⟨hid, hall⟩
      obtain ⟨rfl, rfl⟩ | ⟨hextend, -, halone⟩ := hcases
      · have hall := ih h hrest
        refine ⟨hall.alone, (Replay.cons hperform _).trans hall.replayed, ?_, hall.unverified,
          hown hall.own⟩
        rw [List.length_cons]
        have := hall.length
        omega
      · have hall := ih halone hrest
        refine ⟨hall.alone, (Replay.cons hperform _).trans hall.replayed, ?_,
          fun _ => hall.unverified (unverified_extended hextend), hown hall.own⟩
        obtain ⟨g, digest, -, -, -, -, hm⟩ := extend_ok hextend
        have hlength : m.val.commands.length = t.val.commands.length + 1 := by
          rw [hm, List.length_append, List.length_singleton]
        rw [List.length_cons]
        have := hall.length
        omega

/-- How the replay of a snapshot that is not committed ends, from the kernel that its commands were
staged in. -/
inductive Ends (k : DesignKernel) (staged t : Transaction) (k' : DesignKernel) : Prop
  | plain (hreport : t.val.verificationReportHash = none) (hstaged : t = staged) (hsame : k' = k)
  | reported {reportHash : String} (hreport : t.val.verificationReportHash = some reportHash)
      (hstate : t.val.state ≠ .rolledBack)
      (hrun : (recordVerification t.val.transactionId reportHash t.val.commitGatePassed
        t.val.verificationPreviewDigest).run k = (.ok t, k'))
  | rolledBack (hstate : t.val.state = .rolledBack)
      (hrun : (rollback t.val.transactionId).run k = (.ok t, k'))

theorem replay_returns (hk : k.transactions = Dict.empty)
    (hrun : (replay t.val).run k = (.ok t, k')) :
    ∃ begun k₁ staged k₂, (beginTransaction t.val.transactionId t.val.baseRevision).run k =
        (.ok begun, k₁) ∧ Alone k₁ t.val.transactionId begun ∧ Unverified begun.val ∧
      (stageAll begun t.val.commands).run k₁ = (.ok staged, k₂) ∧ Ends k₂ staged t k' := by
  unfold replay at hrun
  obtain ⟨begun, k₁, hbegin, hthen⟩ := bind_returns.mp hrun
  obtain ⟨staged, k₂, hstaged, hfinish⟩ := bind_returns.mp hthen
  obtain ⟨hopen, rfl⟩ := beginTransaction_fresh (by rw [hk]; rfl) hbegin
  have halone : Alone { k with transactions := k.transactions.set t.val.transactionId begun }
      t.val.transactionId begun := by
    show k.transactions.set _ begun = _
    rw [hk]
  refine ⟨begun, _, staged, k₂, hbegin, halone, unverified_opened hopen, hstaged, ?_⟩
  -- the report is recorded, and then the transaction is rolled back, each if it was
  cases hreport : t.val.verificationReportHash with
  | none =>
      simp only [hreport] at hfinish
      obtain ⟨reported, k₃, hreported, hlast⟩ := bind_returns.mp hfinish
      obtain ⟨rfl, rfl⟩ := pure_returns.mp hreported
      split at hlast
      · exact .rolledBack ‹_› hlast
      · obtain ⟨hsame, hkernel⟩ := pure_returns.mp hlast
        exact .plain hreport hsame hkernel
  | some reportHash =>
      simp only [hreport] at hfinish
      by_cases hmem : t.val.state ∈ [.opened, .verified, .committed]
      · rw [if_pos hmem] at hfinish
        obtain ⟨reported, k₃, hreported, hlast⟩ := bind_returns.mp hfinish
        have hnot : t.val.state ≠ .rolledBack := by
          intro hrolled
          rw [hrolled] at hmem
          exact absurd hmem (by decide)
        rw [if_neg hnot] at hlast
        obtain ⟨rfl, rfl⟩ := pure_returns.mp hlast
        exact .reported hreport hnot hreported
      · rw [if_neg hmem] at hfinish
        obtain ⟨reported, k₃, hreported, hlast⟩ := bind_returns.mp hfinish
        obtain ⟨rfl, rfl⟩ := pure_returns.mp hreported
        split at hlast
        · exact .rolledBack ‹_› hlast
        · refine absurd ?_ hmem
          cases hcase : t.val.state with
          | opened => decide
          | verified => decide
          | committed => decide
          | rolledBack => contradiction

theorem stageAll_append {first rest : List Command} {t' : Transaction} :
    ∀ {k : DesignKernel} {t : Transaction}, (stageAll t (first ++ rest)).run k = (.ok t', k') →
      ∃ m km, (stageAll t first).run k = (.ok m, km) ∧ (stageAll m rest).run km = (.ok t', k') := by
  induction first with
  | nil => exact fun {k t} hrun => ⟨t, k, rfl, hrun⟩
  | cons command first ih =>
      intro k t hrun
      obtain ⟨m, km, hstage, hrest⟩ := bind_returns.mp (show (stage command >>= fun m =>
        stageAll m (first ++ rest)).run k = (.ok t', k') from hrun)
      obtain ⟨m', km', hfirst, hrest⟩ := ih hrest
      exact ⟨m', km', bind_returns.mpr ⟨m, km, hstage, hfirst⟩, hrest⟩

/-- What a replay ends with, and the operations that lead there. -/
structure Ended (k k' : DesignKernel) (staged t : Transaction) (operations : List Operation) :
    Prop where
  subject : SameSubject staged.val t.val
  own : ∀ operation ∈ operations, On t.val.transactionId operation
  replayed : Evleda.replay perform k operations = k'
  alone : Alone k' t.val.transactionId t

theorem sameSubject_refl (t : DesignTransaction) : SameSubject t t := ⟨_, _, _, _, rfl⟩

theorem sameSubject_verified {reportHash subject : String}
    (h : verifiedTransaction t reportHash gatePassed subject = .ok t') :
    SameSubject t.val t'.val := by
  unfold verifiedTransaction at h
  simp only [bind_ok, exists_unit] at h
  exact ⟨_, _, _, _, replace_ok h.2⟩

theorem Ends.ended {staged : Transaction} (h : Ends k staged t k')
    (halone : Alone k t.val.transactionId staged) (hunverified : Unverified staged.val) :
    ∃ operations, Ended k k' staged t operations := by
  have hopened : staged.val.state ≠ .verified ∧ staged.val.state ≠ .committed ∧
      staged.val.state ≠ .rolledBack := by
    rw [hunverified.opened]
    decide
  cases h with
  | plain hreport hstaged hsame =>
      rw [hstaged, hsame]
      rw [hstaged] at halone
      exact ⟨[], sameSubject_refl _, fun _ hmem => absurd hmem List.not_mem_nil, rfl, halone⟩
  | @reported reportHash hreport hstate hrun =>
      obtain ⟨-, -, -, hverified, hk'⟩ :=
        (recordVerification_iff halone.found hopened.1).mp hrun
      refine ⟨[.recordVerification t.val.transactionId reportHash t.val.commitGatePassed
        t.val.verificationPreviewDigest], sameSubject_verified hverified,
        List.forall_mem_singleton.mpr rfl, congrArg Prod.snd hrun, ?_⟩
      rw [hk']
      exact halone.set t
  | rolledBack hstate hrun =>
      obtain ⟨hreplace, hk'⟩ := (rollback_iff halone.found hopened.2.1 hopened.2.2).mp hrun
      refine ⟨[.rollback t.val.transactionId], ⟨_, _, _, _, replace_ok hreplace⟩,
        List.forall_mem_singleton.mpr rfl, congrArg Prod.snd hrun, ?_⟩
      rw [hk']
      exact halone.set t

/-! ### From one snapshot to the next -/

/-- The kernel with another snapshot of its only transaction. -/
def showing (k : DesignKernel) (t : Transaction) : DesignKernel :=
  { k with transactions := k.transactions.set t.val.transactionId t }

theorem showing_set (k : DesignKernel) {t t' : Transaction} :
    (showing k t).transactions.set t.val.transactionId t' =
      k.transactions.set t.val.transactionId t' :=
  Dict.set_set _ _ _ _

section Shown

variable {staged shown : Transaction}

/-- A command that extends a transaction extends any open snapshot of it to the same. -/
theorem stage_showing (halone : Alone k shown.val.transactionId staged)
    (hsame : SameSubject staged.val shown.val) (hstate : shown.val.state = staged.val.state)
    (hrun : (stage command).run k = (.ok t', k')) (hnew : t' ≠ staged) :
    perform (showing k shown) (.stage command) = k' := by
  obtain ⟨t₀, ht₀, hbase, ⟨-, rfl, -⟩ | ⟨hkey, hcommand, hextend, rfl⟩⟩ := stage_returns.mp hrun
  · exact absurd (halone.is ht₀).2 hnew
  · obtain ⟨hid, rfl⟩ := halone.is ht₀
    have hshown : (showing k shown).transactions command.val.transactionId = some shown := by
      rw [hid]
      exact Dict.set_self _ _ _
    have hrun' : (stage command).run (showing k shown) =
        (.ok t', Kernel.staged (showing k shown) command t') := by
      refine stage_returns.mpr ⟨shown, hshown, ?_, Or.inr ⟨hkey, hcommand, ?_, rfl⟩⟩
      · obtain ⟨_, _, _, _, hval⟩ := hsame
        rw [hval]
        exact hbase
      · rw [hsame.extend hstate]
        exact hextend
    refine (congrArg Prod.snd hrun').trans ?_
    unfold Kernel.staged
    rw [hid, showing_set]
    rfl

theorem recordVerification_showing {reportHash : String}
    {digest : Option String} (halone : Alone k shown.val.transactionId staged)
    (hsame : SameSubject staged.val shown.val) (hopened : staged.val.state = .opened)
    (hstate : shown.val.state = .opened)
    (hrun : (recordVerification shown.val.transactionId reportHash gatePassed digest).run k =
      (.ok t', k')) :
    perform (showing k shown)
      (.recordVerification shown.val.transactionId reportHash gatePassed digest) = k' := by
  have hshown : (showing k shown).transactions shown.val.transactionId = some shown :=
    Dict.set_self _ _ _
  obtain ⟨hreport, hpreview, hsubject, hverified, rfl⟩ := (recordVerification_iff halone.found
    (by rw [hopened]; decide)).mp hrun
  obtain ⟨hdigest, hkept⟩ := hsame.subject digest
  have hrun' : (recordVerification shown.val.transactionId reportHash gatePassed digest).run
      (showing k shown) = (.ok t', { showing k shown with
        transactions := (showing k shown).transactions.set shown.val.transactionId t' }) := by
    refine (recordVerification_iff hshown (by rw [hstate]; decide)).mpr
      ⟨hreport, ?_, ?_, ?_, rfl⟩
    · rw [hdigest]
      exact hpreview
    · rw [hdigest, hkept]
      exact hsubject
    · rw [hdigest, hsame.verified (hstate.trans hopened.symm)]
      exact hverified
  refine (congrArg Prod.snd hrun').trans ?_
  rw [showing_set]
  rfl

/-- A snapshot that is not over is rolled back to the same, whatever was verified of it. -/
theorem rollback_showing (halone : Alone k shown.val.transactionId staged)
    (hsame : SameSubject staged.val shown.val) (hopened : staged.val.state = .opened)
    (hcommitted : shown.val.state ≠ .committed) (hrolled : shown.val.state ≠ .rolledBack)
    (hrun : (rollback shown.val.transactionId).run k = (.ok t', k')) :
    perform (showing k shown) (.rollback shown.val.transactionId) = k' := by
  have hshown : (showing k shown).transactions shown.val.transactionId = some shown :=
    Dict.set_self _ _ _
  obtain ⟨hreplace, rfl⟩ := (rollback_iff halone.found (by rw [hopened]; decide)
    (by rw [hopened]; decide)).mp hrun
  have hrun' : (rollback shown.val.transactionId).run (showing k shown) =
      (.ok t', { showing k shown with
        transactions := (showing k shown).transactions.set shown.val.transactionId t' }) := by
    refine (rollback_iff hshown hcommitted hrolled).mpr ⟨?_, rfl⟩
    rw [hsame.rolledBack]
    exact hreplace
  refine (congrArg Prod.snd hrun').trans ?_
  rw [showing_set]
  rfl

/-- What ends the replay of a snapshot ends it from an open snapshot of the same commands too, unless
nothing has to be done. -/
theorem Ends.showing (h : Ends k staged t k') (hid : t.val.transactionId = shown.val.transactionId)
    (halone : Alone k shown.val.transactionId staged) (hunverified : Unverified staged.val)
    (hsame : SameSubject staged.val shown.val) (hcommitted : shown.val.state ≠ .committed)
    (hrolled : shown.val.state ≠ .rolledBack)
    (hopened : shown.val.state = .opened ∨ t.val.state = .rolledBack) :
    (shown.val.state = .opened ∧ t = staged) ∨
      ∃ operation, On shown.val.transactionId operation ∧
        perform (ProjectStore.showing k shown) operation = k' := by
  cases h with
  | plain hreport hstaged hsame =>
      refine Or.inl ⟨?_, hstaged⟩
      obtain hopened | hover := hopened
      · exact hopened
      · rw [hstaged, hunverified.opened] at hover
        cases hover
  | reported hreport hstate hrun =>
      rw [hid] at hrun
      refine Or.inr ⟨.recordVerification shown.val.transactionId _ _ _, ?_,
        recordVerification_showing halone hsame hunverified.opened (hopened.resolve_right hstate)
          hrun⟩
      rfl
  | rolledBack hstate hrun =>
      rw [hid] at hrun
      refine Or.inr ⟨.rollback shown.val.transactionId, ?_,
        rollback_showing halone hsame hunverified.opened hcommitted hrolled hrun⟩
      rfl

end Shown

/-- The commands that come after those of an open snapshot lead where they lead from the kernel that
only staged them. -/
theorem StagedAll.showing {staged shown last : Transaction} {rest : List Command}
    (hrun : (stageAll staged rest).run k = (.ok last, k'))
    (halone : Alone k shown.val.transactionId staged)
    (hsame : SameSubject staged.val shown.val) (hstate : shown.val.state = staged.val.state)
    (hlength : last.val.commands.length = staged.val.commands.length + rest.length)
    (hrest : rest ≠ []) :
    Evleda.replay perform (ProjectStore.showing k shown) (rest.map .stage) = k' := by
  cases rest with
  | nil => exact absurd rfl hrest
  | cons command rest =>
      obtain ⟨m, km, hstage, hthen⟩ := bind_returns.mp (show (stage command >>= fun m =>
        stageAll m rest).run k = (.ok last, k') from hrun)
      have hnew : m ≠ staged := by
        -- a command that was staged before would leave one too few
        intro hm
        obtain ⟨-, ⟨-, hk⟩ | ⟨hextend, -⟩⟩ := halone.stage_cases hstage
        · rw [hm, hk] at hthen
          have := (Alone.stageAll rest halone hthen).length
          rw [List.length_cons] at hlength
          omega
        · obtain ⟨g, digest, -, -, -, -, hval⟩ := extend_ok hextend
          have hmore := congrArg (fun t : DesignTransaction => t.commands.length) hval
          rw [hm] at hmore
          simp at hmore
      have hall : Evleda.replay perform km (rest.map .stage) = k' := by
        obtain ⟨-, ⟨hm, -⟩ | ⟨-, -, hkm⟩⟩ := halone.stage_cases hstage
        · exact absurd hm hnew
        · exact (Alone.stageAll rest hkm hthen).replayed
      exact (Replay.cons (stage_showing halone hsame hstate hstage hnew) _).trans hall

/-- **Of two snapshots that replay, the second can be reached from the first, if it is a change that
the store takes and no report is forgotten.** -/
theorem reachable_of_replays {base : Revision} {previous current : Transaction}
    {kp kc : DesignKernel} {rest : List Command} (hbase : fromRevision base = .ok k)
    (hk : k.transactions = Dict.empty)
    (hprevious : (replay previous.val).run k = (.ok previous, kp))
    (hcurrent : (replay current.val).run k = (.ok current, kc))
    (hid : current.val.transactionId = previous.val.transactionId)
    (hbaseRevision : current.val.baseRevision = previous.val.baseRevision)
    (hcommands : current.val.commands = previous.val.commands ++ rest)
    (hcommitted : previous.val.state ≠ .committed) (hrolled : previous.val.state ≠ .rolledBack)
    (hverified : previous.val.state = .verified →
      current = previous ∨ (current.val.state = .rolledBack ∧ rest = []))
    (hkeeps : ¬ ForgetsReport previous.val current.val) : Reachable previous current := by
  obtain ⟨begun, k₁, sp, k₂, hbegin, hbegun, hunverified, hstaged, hends⟩ :=
    replay_returns hk hprevious
  obtain ⟨begun', k₁', sc, k₂', hbegin', -, -, hstaged', hends'⟩ := replay_returns hk hcurrent
  -- the two replays begin alike
  rw [hid, hbaseRevision, hbegin, Prod.mk.injEq, Except.ok.injEq] at hbegin'
  obtain ⟨rfl, rfl⟩ := hbegin'
  rw [hcommands] at hstaged'
  obtain ⟨m, km, hfirst, hmore⟩ := stageAll_append hstaged'
  rw [hstaged, Prod.mk.injEq, Except.ok.injEq] at hfirst
  obtain ⟨rfl, rfl⟩ := hfirst
  have hall := Alone.stageAll previous.val.commands hbegun hstaged
  have hall' := Alone.stageAll rest hall.alone hmore
  have hsp := hall.unverified hunverified
  obtain ⟨before, hended⟩ := hends.ended hall.alone hsp
  have hlast : Alone k₂' current.val.transactionId sc := by
    rw [hid]
    exact hall'.alone
  obtain ⟨after, hended'⟩ := hends'.ended hlast (hall'.unverified hsp)
  have hprevious : Evleda.replay perform k (.beginTransaction previous.val.transactionId
      previous.val.baseRevision :: (previous.val.commands.map .stage ++ before)) = kp := by
    rw [Replay.cons (congrArg Prod.snd hbegin), Replay.append, hall.replayed, hended.replayed]
  have hreach : ∀ operations, (∀ operation ∈ operations, On previous.val.transactionId operation) →
      (Evleda.replay perform kp operations).transactions previous.val.transactionId = some current →
      Reachable previous current := by
    intro operations hon hheld
    obtain ⟨first, hfirst⟩ : ∃ first, Evleda.replay perform k first = kp := ⟨_, hprevious⟩
    refine ⟨base, k, first, operations, hbase, ?_, hon, ?_⟩
    · rw [hfirst]
      exact hended.alone.found
    · rw [Replay.append, hfirst]
      exact hheld
  have hheld : kc.transactions previous.val.transactionId = some current := by
    rw [← hid]
    exact hended'.alone.found
  have hafter : ∀ operation ∈ rest.map .stage ++ after,
      On previous.val.transactionId operation := by
    refine List.forall_mem_append.mpr ⟨List.forall_mem_map.mpr hall'.own, ?_⟩
    rw [← hid]
    exact hended'.own
  cases hends with
  | plain hreport hsame hkernel =>
      refine hreach _ hafter ?_
      rw [hkernel, Replay.append, hall'.replayed, hended'.replayed]
      exact hheld
  | rolledBack hstate hrun => exact absurd hstate hrolled
  | reported hreport hstate hrun =>
      obtain ⟨-, -, -, -, hkp⟩ := (recordVerification_iff hall.alone.found
        (by rw [hsp.opened]; decide)).mp hrun
      have hshowing : kp = showing k₂ previous := hkp
      rw [hshowing] at hreach
      -- no command has come, and something is left to be done
      have hone : rest = [] → (previous.val.state = .opened ∨ current.val.state = .rolledBack) →
          Reachable previous current := by
        intro hrest hopened
        rw [hrest] at hmore
        obtain ⟨rfl, rfl⟩ := pure_returns.mp hmore
        obtain ⟨hopened, hsame⟩ | ⟨operation, hon, hperform⟩ :=
          hends'.showing hid hall.alone hsp hended.subject hcommitted hrolled hopened
        · refine absurd ⟨hopened, ?_, ?_, ?_, ?_⟩ hkeeps
          · rw [hreport]
            exact Option.some_ne_none _
          · rw [hsame]
            exact hsp.opened
          · rw [hcommands, hrest, List.append_nil]
          · rw [hsame]
            exact hsp.noReport
        · refine hreach [operation] (List.forall_mem_singleton.mpr hon) ?_
          rw [Replay.cons hperform]
          exact hheld
      cases hcase : previous.val.state with
      | committed => exact absurd hcase hcommitted
      | rolledBack => exact absurd hcase hrolled
      | verified =>
          obtain hsame | ⟨hover, hrest⟩ := hverified hcase
          · refine hreach [] (fun _ hmem => absurd hmem List.not_mem_nil) ?_
            rw [hsame]
            exact Dict.set_self _ _ _
          · exact hone hrest (Or.inr hover)
      | opened =>
          by_cases hrest : rest = []
          · exact hone hrest (Or.inl hcase)
          · refine hreach _ hafter ?_
            have hlength : sc.val.commands.length = sp.val.commands.length + rest.length := by
              rw [← hended'.subject.commands, ← hended.subject.commands, hcommands,
                List.length_append]
            rw [Replay.append, StagedAll.showing hmore hall.alone hended.subject
              (hcase.trans hsp.opened.symm) hlength hrest, hended'.replayed]
            exact hheld

/-- A snapshot that is not committed and that the store accepts replays to itself. -/
theorem validateTransaction_replays {base : Revision} {committedRevision : Option Revision}
    (h : validateTransaction t base committedRevision = .ok ()) (hstate : t.val.state ≠ .committed) :
    ∃ k k', fromRevision base = .ok k ∧ k.transactions = Dict.empty ∧
      (replay t.val).run k = (.ok t, k') := by
  unfold validateTransaction at h
  simp only [if_neg hstate, bind_ok, exists_unit, pure_ok, fromKernel_ok,
    require_ok, exists_eq_left'] at h
  obtain ⟨-, -, k, hk, replayed, hreplayed, rfl⟩ := h
  refine ⟨k, _, hk, ?_, Prod.ext hreplayed rfl⟩
  unfold fromRevision at hk
  simp only [bind_ok, exists_unit, pure_ok] at hk
  obtain ⟨normalized, -, -, graphHash, -, -, rfl⟩ := hk
  rfl

/-- The changes that the store takes of a snapshot that is not committed. -/
theorem transition_cases {previous current : Transaction}
    (h : validateTransactionTransition previous current = .ok ())
    (hstate : current.val.state ≠ .committed) :
    (∃ rest, current.val.commands = previous.val.commands ++ rest ∧
      (previous.val.state = .verified →
        current = previous ∨ (current.val.state = .rolledBack ∧ rest = []))) := by
  unfold validateTransactionTransition at h
  simp only [if_neg hstate, bind_ok, exists_unit, require_ok] at h
  obtain ⟨-, -, ⟨hlength, hprefix⟩, hcases⟩ := h
  refine ⟨current.val.commands.drop previous.val.commands.length, ?_, ?_⟩
  · conv_lhs => rw [← List.take_append_drop previous.val.commands.length current.val.commands,
      hprefix]
  · intro hverified
    rw [if_pos hverified] at hcases
    by_cases hstays : current.val.state = .verified
    · rw [if_pos hstays, require_ok] at hcases
      exact Or.inl hcases
    · simp only [if_neg hstays, bind_ok, exists_unit, require_ok] at hcases
      refine Or.inr ⟨hcases.1, ?_⟩
      rw [hcases.2, List.drop_length]

def Holds (s : StoreState) (projectId transactionId : String) (stored : StoredTransaction) : Prop :=
  ∃ row ∈ (s.database.of projectId).transactions, row.transactionId = transactionId ∧
    decodeTransactionRow row = .ok stored

/-- **After any calls, a snapshot that is saved over another can be reached from it exactly if no
report is forgotten.** -/
theorem saved_reachable_iff (keyring : Keyring) (operations : List StoreOperation)
    {projectId : String} {current : Transaction} {expectedGeneration : Int}
    {stored : StoredTransaction} {s' : StoreState}
    (hsaved : (saveTransaction keyring projectId current (some expectedGeneration)).run
      (afterCalls keyring operations) = (.ok stored, s')) :
    ∃ previous, Holds (afterCalls keyring operations) projectId current.val.transactionId previous ∧
      (previous.generation : Int) = expectedGeneration ∧
      (Reachable previous.transaction current ↔
        ¬ ForgetsReport previous.transaction.val current.val) := by
  obtain ⟨revisions, head, base, document, expectation, hintact, hopen, hbase, hvalid, -,
    hwritten⟩ := saveTransaction_returns (afterCalls_sound keyring operations) hsaved
  obtain ⟨-, ⟨hnone, -⟩ | ⟨expected, row, previous, hexpected, hfind, hdecoded, hgeneration,
    htransition, -⟩⟩ := writeTransaction_returns hwritten
  · cases hnone
  -- the row that is found is one of the project, so what it holds was accepted too
  have hfound := List.find?_some hfind
  rw [Bool.and_eq_true, beq_iff_eq, beq_iff_eq] at hfound
  have hrow : row ∈ ((afterCalls keyring operations).database.of projectId).transactions :=
    List.mem_filter.mpr ⟨List.mem_of_find?_eq_some hfind, by simpa using hfound.1⟩
  obtain ⟨found, hloaded⟩ := hintact.transactions row hrow
  obtain ⟨hdecoded', base', hbase', hvalid'⟩ := loadTransaction_ok.mp hloaded
  obtain rfl := Except.ok.inj (hdecoded.symm.trans hdecoded')
  obtain ⟨hid, hbaseRevision, hcommitted, hrolled⟩ := transition_ok htransition
  rw [← hbaseRevision, hbase] at hbase'
  obtain rfl := Option.some.inj hbase'
  obtain ⟨k, kc, hk, hempty, hcurrent⟩ := validateTransaction_replays hvalid hopen
  obtain ⟨k', kp, hk', -, hprevious⟩ := validateTransaction_replays hvalid' hcommitted
  obtain rfl := Except.ok.inj (hk.symm.trans hk')
  obtain ⟨rest, hcommands, hverified⟩ := transition_cases htransition hopen
  refine ⟨previous, ⟨row, hrow, hfound.2, hdecoded⟩,
    hgeneration.trans (Option.some.inj hexpected).symm, Reachable.keeps, ?_⟩
  exact reachable_of_replays hk hempty hprevious hcurrent hid hbaseRevision hcommands hcommitted
    hrolled hverified

end Transitions

/-! ### A report that is forgotten -/

section Forgotten

attribute [local instance] asciiData storeHashing

/-- The opened transaction with a report that does not let it through. -/
def failing : DesignTransaction :=
  { openedTransaction.val with
    verificationReportHash := some (plainDigest '5')
    verificationPreviewDigest := some (plainDigest 'c') }

theorem failing_checks : failing.checks = .ok () := by
  unfold failing openedTransaction emptyTransaction DesignTransaction.checks
  simp only [bind_ok, exists_unit, require_ok, requireWhen_ok,
    forM_ok]
  refine ⟨by decide, plainDigest_isSha256 rfl _, fun _ => plainDigest_isSha256 rfl _, ?_, ?_, ?_, ?_⟩
  · simp [plainDigest_isSha256 (c := '5') rfl]
  · simp [plainDigest_isSha256 (c := 'c') rfl]
  all_goals simp

def failingTransaction : Transaction := ⟨failing, checking_ok.mpr ⟨failing_checks, rfl⟩⟩

/-- Nothing is staged, and the transaction is there. -/
def openedKernel : DesignKernel :=
  { storedKernel with transactions := storedKernel.transactions.set "t1" openedTransaction }

theorem begin_opened : (beginTransaction "t1" (plainDigest 'b')).run storedKernel =
    (.ok openedTransaction, openedKernel) :=
  beginTransaction_opens (by decide) (plainDigest_isSha256 rfl _) rfl
    (openTransaction_empty storeDigests rfl
      (Dict.set_self Dict.empty (plainDigest 'b') storedGenesis) rfl)

theorem replay_opened :
    (replay openedTransaction.val).run storedKernel = (.ok openedTransaction, openedKernel) := by
  unfold replay
  exact bind_returns.mpr ⟨openedTransaction, openedKernel, begin_opened, rfl⟩

theorem replay_failing : ((replay failing).run storedKernel).1 = .ok failingTransaction := by
  have hverified : verifiedTransaction openedTransaction (plainDigest '5') false (plainDigest 'c') =
      .ok failingTransaction := by
    unfold verifiedTransaction
    rw [bind_ok]
    exact ⟨(), rfl, Checked.make_ok.mpr failingTransaction.accepted⟩
  have hsubject : verificationSubject (some (plainDigest 'c')) openedTransaction =
      plainDigest 'c' := by
    unfold verificationSubject
    exact if_neg (by decide)
  have hfound : openedKernel.transactions "t1" = some openedTransaction :=
    Dict.set_self storedKernel.transactions "t1" openedTransaction
  have hrecord := @recordVerification_records _ _ openedKernel "t1" (plainDigest '5') false
    (some (plainDigest 'c')) _ _ hfound (plainDigest_isSha256 rfl _) hsubject
    (plainDigest_isSha256 rfl _) (by decide) hverified
  let k' : DesignKernel :=
    { openedKernel with transactions := openedKernel.transactions.set "t1" failingTransaction }
  have hrun : (replay failing).run storedKernel = (.ok failingTransaction, k') := by
    unfold replay
    refine bind_returns.mpr ⟨openedTransaction, openedKernel, begin_opened, ?_⟩
    refine bind_returns.mpr ⟨openedTransaction, openedKernel, rfl, ?_⟩
    exact bind_returns.mpr ⟨failingTransaction, k', hrecord, rfl⟩
  rw [hrun]

theorem opened_valid : validateTransaction openedTransaction storedGenesis = .ok () :=
  validateTransaction_accepts rfl rfl fromRevision_genesis (congrArg Prod.fst replay_opened)
    (by decide)

theorem failing_valid : validateTransaction failingTransaction storedGenesis = .ok () :=
  validateTransaction_accepts rfl rfl fromRevision_genesis replay_failing (by decide)

theorem failing_transition :
    validateTransactionTransition failingTransaction openedTransaction = .ok () := by
  unfold validateTransactionTransition
  simp only [bind_ok, exists_unit, require_ok]
  exact ⟨⟨rfl, rfl⟩, by decide, ⟨Nat.le_refl _, rfl⟩, rfl⟩

/-- The project is made and the transaction is saved with the report. -/
def failingCalls : List StoreOperation :=
  [.createProject storedGenesis, .saveTransaction "demo" failingTransaction none]

/-- The snapshot without the report is saved over it. -/
theorem failing_overwritten : ∃ stored s',
    (saveTransaction netKeyring "demo" openedTransaction (some 0)).run
      (afterCalls netKeyring failingCalls) = (.ok stored, s') ∧
    Holds (afterCalls netKeyring failingCalls) "demo" "t1" ⟨failingTransaction, 0⟩ := by
  obtain ⟨s₁, _, hs₁, h₁, ⟨-, htransactions, -⟩, -⟩ := netRelease_appends
  have hdocuments : ∀ t : Transaction, t.val.commands = [] → t.val.stagedGraph = emptyGraph →
      ∃ document, survivingTransaction t = .ok document := by
    intro t hcommands hgraph
    refine surviving_of_roundTrips ((transaction_roundTrips ?_).mpr ?_) "transaction"
    · rw [hcommands]
      exact fun _ hmem => absurd hmem List.not_mem_nil
    · rw [hgraph]
      exact ⟨emptyGraph_valid, emptyGraph_normalized⟩
  obtain ⟨first, hfirst⟩ := hdocuments failingTransaction rfl rfl
  obtain ⟨second, hsecond⟩ := hdocuments openedTransaction rfl rfl
  have hnew : failingTransaction.val.transactionId ∉
      (s₁.database.of "demo").transactions.map (·.transactionId) := by
    rw [htransactions]
    exact List.not_mem_nil
  have hinserts := fun expectation => @writeTransaction_inserts _ _ s₁ "demo" failingTransaction
    first.1 first.2 expectation h₁.hasProject hnew
  have hstate : failingTransaction.val.state ≠ .committed := by decide
  have hsaved := saveTransaction_accepts h₁ hfirst hstate failing_valid hinserts
  have hsplit : failingCalls =
    [.createProject storedGenesis] ++ [.saveTransaction "demo" failingTransaction none] := rfl
  have hafter : afterCalls netKeyring failingCalls =
      { s₁ with database := { s₁.database with transactions := s₁.database.transactions ++
        [transactionRow "demo" failingTransaction 0 first.1 first.2] } } := by
    unfold afterCalls at hs₁ ⊢
    rw [hsplit, Replay.snoc, hs₁, afterCall, hsaved]
  obtain ⟨-, -, h₂, row, hrow, hid, hdecoded⟩ := h₁.written hstate
    (byHash_of_mem h₁.hashes h₁.head_mem) failing_valid hfirst (hinserts "")
  obtain ⟨s₃, hupdates⟩ := @writeTransaction_updates _ _ _ "demo" openedTransaction second.1 second.2
    row ⟨failingTransaction, 0⟩ h₂.transactionIds hrow hdecoded failing_transition
  rw [hafter]
  exact ⟨_, s₃, saveTransaction_accepts h₂ hsecond (by decide) opened_valid hupdates, row, hrow, hid,
    hdecoded⟩

/-- The condition decides, and here it is not met. -/
theorem saved_reachable_iff_failing : ∃ previous,
    Holds (afterCalls netKeyring failingCalls) "demo" "t1" previous ∧
    (previous.generation : Int) = 0 ∧
    (Reachable previous.transaction openedTransaction ↔
      ¬ ForgetsReport previous.transaction.val openedTransaction.val) := by
  obtain ⟨stored, s', hsaved, -⟩ := failing_overwritten
  exact saved_reachable_iff netKeyring failingCalls hsaved

/-- **A snapshot is saved that no kernel comes to from the one before it.** -/
theorem report_forgotten : ∃ stored s',
    (saveTransaction netKeyring "demo" openedTransaction (some 0)).run
      (afterCalls netKeyring failingCalls) = (.ok stored, s') ∧
    Holds (afterCalls netKeyring failingCalls) "demo" "t1" ⟨failingTransaction, 0⟩ ∧
    ¬ Reachable failingTransaction openedTransaction := by
  obtain ⟨stored, s', hsaved, hholds⟩ := failing_overwritten
  refine ⟨stored, s', hsaved, hholds, ?_⟩
  intro hreachable
  refine hreachable.keeps ⟨rfl, Option.some_ne_none _, rfl, rfl, rfl⟩

end Forgotten

end Evleda.ProjectStore

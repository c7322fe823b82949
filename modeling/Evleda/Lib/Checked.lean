/-
Records that their constructor accepted.

A frozen dataclass with a `__post_init__` can only be held by a program if the
checks passed, possibly after some fields were filled in.  `Checked p` is the
type of such values: the record together with the fact that the constructor `p`
accepts it and leaves it as it is.  Building one runs the constructor and may
raise, and so does `dataclasses.replace`, which builds a new record from changed
fields.

Most constructors only check, and then what is built is what was given.  One that
fills in fields has to be stable: what it returns it accepts unchanged.
-/
import Evleda.Lib.Outcome

namespace Evleda

variable {ε α : Type}

/-- A constructor accepts what it returns, unchanged. -/
def Stable (construct : α → Except ε α) : Prop :=
  ∀ a b, construct a = .ok b → construct b = .ok b

/-- A constructor that only checks: it returns what it was given. -/
def OnlyChecks (construct : α → Except ε α) : Prop :=
  ∀ a b, construct a = .ok b → b = a

theorem OnlyChecks.stable {construct : α → Except ε α} (h : OnlyChecks construct) :
    Stable construct := by
  intro a b hab
  obtain rfl := h a b hab
  exact hab

/-- The constructor that makes the checks and returns what it was given. -/
def checking (checks : α → Except ε Unit) (a : α) : Except ε α := do
  checks a
  return a

theorem checking_ok {checks : α → Except ε Unit} {a b : α} :
    checking checks a = .ok b ↔ checks a = .ok () ∧ b = a := by
  unfold checking
  rw [Outcome.bind_ok]
  constructor
  · rintro ⟨_, hchecks, hb⟩
    exact ⟨hchecks, (Outcome.pure_ok.mp hb).symm⟩
  · rintro ⟨hchecks, rfl⟩
    exact ⟨(), hchecks, rfl⟩

theorem checking_onlyChecks (checks : α → Except ε Unit) : OnlyChecks (checking checks) :=
  fun _ _ h => (checking_ok.mp h).2

/-- A record the constructor accepted. -/
structure Checked (construct : α → Except ε α) where
  val : α
  accepted : construct val = .ok val

namespace Checked

variable {construct : α → Except ε α}

theorem ext {a b : Checked construct} (h : a.val = b.val) : a = b := by
  cases a
  cases b
  cases h
  rfl

instance [DecidableEq α] : DecidableEq (Checked construct) := fun a b =>
  decidable_of_iff (a.val = b.val) ⟨ext, fun h => h ▸ rfl⟩

/-- Run the constructor. -/
def make (hstable : Stable construct) (a : α) : Except ε (Checked construct) :=
  match h : construct a with
  | .ok b => .ok ⟨b, hstable a b h⟩
  | .error e => .error e

theorem make_ok {hstable : Stable construct} {a : α} {c : Checked construct} :
    make hstable a = .ok c ↔ construct a = .ok c.val := by
  unfold make
  split
  · rename_i b hb
    constructor
    · intro h
      cases h
      exact hb
    · intro h
      have hbc : b = c.val := Except.ok.inj (hb.symm.trans h)
      exact congrArg Except.ok (ext hbc)
  · rename_i e he
    constructor
    · intro h
      cases h
    · intro h
      rw [he] at h
      cases h

theorem make_val (hstable : Stable construct) (c : Checked construct) :
    make hstable c.val = .ok c :=
  make_ok.mpr c.accepted

/-- `dataclasses.replace`: change fields and run the constructor again. -/
def replace (hstable : Stable construct) (change : α → α) (c : Checked construct) :
    Except ε (Checked construct) :=
  make hstable (change c.val)

/-- Replacing what is already so changes nothing. -/
theorem replace_self {hstable : Stable construct} {change : α → α} {c : Checked construct}
    (h : change c.val = c.val) : replace hstable change c = .ok c := by
  unfold replace
  rw [h]
  exact make_val hstable c

/-- With a constructor that only checks, the replaced record is the changed one. -/
theorem replace_ok (hchecks : OnlyChecks construct) {change : α → α} {c c' : Checked construct}
    (h : replace hchecks.stable change c = .ok c') : c'.val = change c.val :=
  hchecks _ _ (make_ok.mp h)

end Checked

end Evleda

/-
Transactions that may be nested.

A store counts how deep it is in transactions: the outermost one begins a
transaction of the database and commits it or rolls it back, an inner one only
counts.

A computation is `Nestable` when inside a transaction it works on the tables only,
however deep it is.  What it does to them is then a computation on tables alone,
`inside`, in which the brackets of the inner transactions are gone, and the
outermost transaction runs that, all of it or nothing.
-/
import Evleda.Lib.Effect
import Mathlib.Order.Defs.Unbundled

namespace Evleda

variable {σ ε α β γ : Type}

/-! ### Statements -/

namespace Effect

/-- Compute something from the state, which may raise. -/
def ask (f : σ → Except ε α) : Effect σ ε α := fun s => (f s, s)

/-- Replace the state, or raise and leave it. -/
def update (f : σ → Except ε σ) : Effect σ ε Unit := fun s =>
  match f s with
  | .ok s' => (.ok (), s')
  | .error e => (.error e, s)

theorem ask_returns {f : σ → Except ε α} {s s' : σ} {a : α} :
    (ask f).run s = (.ok a, s') ↔ f s = .ok a ∧ s' = s := by
  have hrun : (ask f).run s = (f s, s) := rfl
  rw [hrun, Prod.mk.injEq, @eq_comm _ s s']

theorem update_returns {f : σ → Except ε σ} {s s' : σ} {u : Unit} :
    (update f).run s = (.ok u, s') ↔ f s = .ok s' := by
  have hrun : (update f).run s =
      match f s with
      | .ok s' => (.ok (), s')
      | .error e => (.error e, s) := rfl
  rw [hrun]
  cases f s with
  | ok m => simp
  | error e => simp

/-- Do it for one element after the other. -/
def each (f : β → Effect σ ε Unit) : List β → Effect σ ε Unit
  | [] => pure ()
  | b :: items => f b >>= fun _ => each f items

/-! ### What every return does -/

/-- Every return relates the state before to the state after. -/
def Moves (R : σ → σ → Prop) (x : Effect σ ε α) : Prop :=
  ∀ s a s', x.run s = (.ok a, s') → R s s'

namespace Moves

variable {R : σ → σ → Prop} [IsPreorder σ R]

theorem ask (f : σ → Except ε α) : Moves R (Effect.ask f) := by
  intro s a s' h
  obtain ⟨-, rfl⟩ := ask_returns.mp h
  exact Std.Refl.refl _

theorem pure (a : α) : Moves R (Pure.pure a : Effect σ ε α) := by
  intro s b s' h
  obtain ⟨-, rfl⟩ := pure_returns.mp h
  exact Std.Refl.refl _

theorem bind {x : Effect σ ε α} {f : α → Effect σ ε β} (hx : Moves R x)
    (hf : ∀ a, Moves R (f a)) : Moves R (x >>= f) := by
  intro s b s' h
  obtain ⟨a, m, hfirst, hrest⟩ := bind_returns.mp h
  exact IsTrans.trans s m s' (hx s a m hfirst) (hf a m b s' hrest)

theorem each {f : β → Effect σ ε Unit} (hf : ∀ b, Moves R (f b)) (items : List β) :
    Moves R (Effect.each f items) := by
  induction items with
  | nil => exact pure ()
  | cons b items ih => exact (hf b).bind fun _ => ih

end Moves

end Effect

/-! ### The connection -/

namespace Transacting

/-- The tables, how deep the store is in transactions, what the tables were when the outermost
began, and whether another connection holds the lock of the writer. -/
structure Connection (σ : Type) where
  tables : σ
  depth : Nat
  begun : Option σ
  busy : Bool

namespace Connection

/-- No transaction is open. -/
def idle (tables : σ) (busy : Bool) : Connection σ := ⟨tables, 0, none, busy⟩

/-- The outermost transaction has begun. -/
def entered (tables : σ) : Connection σ := ⟨tables, 1, some tables, false⟩

/-- One level less; the outermost one keeps what was done. -/
def commit (outer : Bool) (c : Connection σ) : Connection σ :=
  if outer then { c with depth := c.depth - 1, begun := none } else { c with depth := c.depth - 1 }

/-- One level less; the outermost one restores the tables. -/
def rollback (outer : Bool) (c : Connection σ) : Connection σ :=
  if outer then
    { c with depth := c.depth - 1, tables := c.begun.getD c.tables, begun := none }
  else { c with depth := c.depth - 1 }

/-- One level more; the outermost one begins a transaction of the database. -/
def enter (outer : Bool) (c : Connection σ) : Connection σ :=
  if outer then { c with depth := c.depth + 1, begun := some c.tables }
  else { c with depth := c.depth + 1 }

end Connection

open Connection

/-- Read from the tables. -/
def query (f : σ → Except ε α) : Effect (Connection σ) ε α := fun c => (f c.tables, c)

/-- A statement that writes; when it fails it has written nothing. -/
def statement (f : σ → Except ε σ) : Effect (Connection σ) ε Unit := fun c =>
  match f c.tables with
  | .ok tables => (.ok (), { c with tables := tables })
  | .error e => (.error e, c)

def transaction (locked : ε) (body : Effect (Connection σ) ε α) : Effect (Connection σ) ε α :=
  fun c =>
    let outer := c.depth == 0
    if outer && c.busy then (.error locked, c)
    else
      match body.run (c.enter outer) with
      | (.ok a, left) => (.ok a, left.commit outer)
      | (.error e, left) => (.error e, left.rollback outer)

/-! ### Inside a transaction -/

/-- What a computation does to the tables inside a transaction. -/
def inside (x : Effect (Connection σ) ε α) : Effect σ ε α := fun tables =>
  ((x.run (entered tables)).1, (x.run (entered tables)).2.tables)

/-- Inside a transaction it works on the tables only, however deep it is. -/
def Nestable (x : Effect (Connection σ) ε α) : Prop :=
  ∀ c : Connection σ, 0 < c.depth →
    x.run c = (((inside x).run c.tables).1, { c with tables := ((inside x).run c.tables).2 })

namespace Nestable

variable {x : Effect (Connection σ) ε α} {f : α → Effect (Connection σ) ε β} {locked : ε}

theorem check (y : Except ε α) : Nestable (Effect.check y : Effect (Connection σ) ε α) :=
  fun _ _ => rfl

theorem pure (a : α) : Nestable (Pure.pure a : Effect (Connection σ) ε α) := fun _ _ => rfl

theorem query (g : σ → Except ε α) : Nestable (query g) := fun _ _ => rfl

theorem statement (g : σ → Except ε σ) : Nestable (statement g) := by
  intro c _
  unfold inside Transacting.statement Effect.run entered
  dsimp only
  cases g c.tables with
  | ok tables => rfl
  | error e => rfl

/-- One after the other inside a transaction. -/
theorem run_bind (hx : Nestable x) (c : Connection σ) (hc : 0 < c.depth) :
    (x >>= f).run c =
      match (inside x).run c.tables with
      | (.ok a, tables) => (f a).run { c with tables := tables }
      | (.error e, tables) => (.error e, { c with tables := tables }) := by
  rw [Effect.run_bind, hx c hc]
  cases (inside x).run c.tables with
  | mk result tables =>
      cases result with
      | ok a => rfl
      | error e => rfl

theorem inside_bind (hx : Nestable x) (hf : ∀ a, Nestable (f a)) :
    inside (x >>= f) = inside x >>= fun a => inside (f a) := by
  funext tables
  have hrun := hx.run_bind (f := f) (entered tables) Nat.one_pos
  have hleft : inside (x >>= f) tables = (((x >>= f).run (entered tables)).1,
      ((x >>= f).run (entered tables)).2.tables) := rfl
  have hright : (inside x >>= fun a => inside (f a)) tables =
      match (inside x).run tables with
      | (.ok a, m) => (inside (f a)).run m
      | (.error e, m) => (.error e, m) := rfl
  have htables : (entered tables).tables = tables := rfl
  rw [hleft, hright, hrun, htables]
  cases (inside x).run tables with
  | mk result m =>
      cases result with
      | ok a =>
          dsimp only
          rw [hf a { entered tables with tables := m } Nat.one_pos]
      | error e => rfl

theorem bind (hx : Nestable x) (hf : ∀ a, Nestable (f a)) : Nestable (x >>= f) := by
  intro c hc
  rw [hx.run_bind c hc, inside_bind hx hf, Effect.run_bind]
  cases (inside x).run c.tables with
  | mk result tables =>
      cases result with
      | ok a => exact hf a { c with tables := tables } hc
      | error e => rfl

theorem run_transaction (hx : Nestable x) (locked : ε) (c : Connection σ) (hc : 0 < c.depth) :
    (transaction locked x).run c =
      (((inside x).run c.tables).1, { c with tables := ((inside x).run c.tables).2 }) := by
  have hrun : (transaction locked x).run c =
      if ((c.depth == 0) && c.busy) = true then (.error locked, c)
      else
        match x.run (c.enter (c.depth == 0)) with
        | (.ok a, left) => (.ok a, left.commit (c.depth == 0))
        | (.error e, left) => (.error e, left.rollback (c.depth == 0)) := rfl
  have houter : (c.depth == 0) = false := beq_false_of_ne (Nat.ne_of_gt hc)
  have henter : c.enter false = { c with depth := c.depth + 1 } := rfl
  rw [hrun, houter, Bool.false_and, if_neg Bool.false_ne_true, henter, hx _ (Nat.succ_pos c.depth)]
  cases (inside x).run c.tables with
  | mk result tables =>
      cases result with
      | ok a => rfl
      | error e => rfl

theorem inside_transaction (hx : Nestable x) : inside (transaction locked x) = inside x := by
  funext tables
  have hrun := hx.run_transaction locked (entered tables) Nat.one_pos
  unfold inside at hrun ⊢
  rw [hrun]
  rfl

theorem transaction (hx : Nestable x) : Nestable (transaction locked x) := by
  intro c hc
  rw [hx.run_transaction locked c hc, hx.inside_transaction]

theorem each {g : β → Effect (Connection σ) ε Unit} (hg : ∀ b, Nestable (g b)) (items : List β) :
    Nestable (Effect.each g items) := by
  induction items with
  | nil => exact pure ()
  | cons b items ih => exact (hg b).bind fun _ => ih

theorem inside_each {g : β → Effect (Connection σ) ε Unit} (hg : ∀ b, Nestable (g b))
    (items : List β) : inside (Effect.each g items) = Effect.each (fun b => inside (g b)) items := by
  induction items with
  | nil => rfl
  | cons b items ih =>
      show inside (g b >>= fun _ => Effect.each g items) = _
      rw [(hg b).inside_bind fun _ => each hg items, ih]
      rfl

end Nestable

@[simp] theorem inside_query (g : σ → Except ε α) : inside (query g) = Effect.ask g := rfl

@[simp] theorem inside_statement (g : σ → Except ε σ) :
    inside (statement g) = Effect.update g := by
  funext tables
  unfold inside statement Effect.update Effect.run entered
  dsimp only
  cases g tables with
  | ok m => rfl
  | error e => rfl

theorem query_bind_returns {g : σ → Except ε α} {f : α → Effect (Connection σ) ε β} {t t' : σ}
    {b : β} : (inside (query g >>= f)).run t = (.ok b, t') ↔
      ∃ a, g t = .ok a ∧ (inside (f a)).run t = (.ok b, t') := by
  have hquery : (query g).run (entered t) = (g t, entered t) := rfl
  have hrun : (inside (query g >>= f)).run t =
      (((query g >>= f).run (entered t)).1, ((query g >>= f).run (entered t)).2.tables) := rfl
  rw [hrun, Effect.run_bind, hquery]
  cases g t with
  | error e => simp
  | ok a =>
      have hrest : (inside (f a)).run t =
          (((f a).run (entered t)).1, ((f a).run (entered t)).2.tables) := rfl
      simp [hrest]

theorem check_bind_returns {y : Except ε α} {f : α → Effect (Connection σ) ε β} {t t' : σ} {b : β} :
    (inside (Effect.check y >>= f)).run t = (.ok b, t') ↔
      ∃ a, y = .ok a ∧ (inside (f a)).run t = (.ok b, t') := by
  have hquery : (Effect.check y : Effect (Connection σ) ε α) = query fun _ => y := rfl
  rw [hquery, query_bind_returns]

theorem statement_returns {g : σ → Except ε σ} {t t' : σ} {u : Unit} :
    (inside (statement g)).run t = (.ok u, t') ↔ g t = .ok t' := by
  rw [inside_statement, Effect.update_returns]

/-- One after the other inside a transaction. -/
theorem bind_returns {x : Effect (Connection σ) ε α} {f : α → Effect (Connection σ) ε β}
    (hx : Nestable x) (hf : ∀ a, Nestable (f a)) {t t' : σ} {b : β} :
    (inside (x >>= f)).run t = (.ok b, t') ↔
      ∃ a m, (inside x).run t = (.ok a, m) ∧ (inside (f a)).run m = (.ok b, t') := by
  rw [hx.inside_bind hf, Effect.bind_returns]

/-! ### What a method does to the tables -/

/-- Inside a transaction it works on the tables, and relates them before to them after. -/
structure Advances (R : σ → σ → Prop) (x : Effect (Connection σ) ε α) : Prop where
  nestable : Nestable x
  moves : (inside x).Moves R

namespace Advances

variable {R : σ → σ → Prop} [IsPreorder σ R] {x : Effect (Connection σ) ε α}
  {f : α → Effect (Connection σ) ε β}

theorem query (g : σ → Except ε α) : Advances R (query g) := by
  refine ⟨.query g, ?_⟩
  rw [inside_query]
  exact .ask g

theorem bind (hx : Advances R x) (hf : ∀ a, Advances R (f a)) : Advances R (x >>= f) := by
  refine ⟨hx.nestable.bind fun a => (hf a).nestable, ?_⟩
  rw [hx.nestable.inside_bind fun a => (hf a).nestable]
  exact hx.moves.bind fun a => (hf a).moves

omit [IsPreorder σ R] in
theorem transaction (hx : Advances R x) (locked : ε) : Advances R (transaction locked x) := by
  refine ⟨hx.nestable.transaction, ?_⟩
  rw [hx.nestable.inside_transaction]
  exact hx.moves

theorem each {g : β → Effect (Connection σ) ε Unit} (hg : ∀ b, Advances R (g b)) (items : List β) :
    Advances R (Effect.each g items) := by
  refine ⟨.each (fun b => (hg b).nestable) items, ?_⟩
  rw [Nestable.inside_each fun b => (hg b).nestable]
  exact .each (fun b => (hg b).moves) items

end Advances

/-! ### The outermost transaction -/

/-- With no transaction open: either it does what it does inside, or it raises and has done
nothing. -/
def Atomic (x : Effect (Connection σ) ε α) : Prop :=
  ∀ t busy, (∃ e, x.run (idle t busy) = (.error e, idle t busy)) ∨
    ∃ a t', (inside x).run t = (.ok a, t') ∧ x.run (idle t busy) = (.ok a, idle t' busy)

/-- **All of it or nothing.** -/
theorem transaction_atomic {x : Effect (Connection σ) ε α} (hx : Nestable x) (locked : ε) :
    Atomic (transaction locked x) := by
  intro t busy
  cases busy with
  | true => exact Or.inl ⟨locked, rfl⟩
  | false =>
      have hbegun : x.run (entered t) = (((inside x).run t).1,
          { entered t with tables := ((inside x).run t).2 }) := hx (entered t) Nat.one_pos
      have hrun : (transaction locked x).run (idle t false) =
          match x.run (entered t) with
          | (.ok a, left) => (.ok a, left.commit true)
          | (.error e, left) => (.error e, left.rollback true) := rfl
      rw [hrun, hbegun, hx.inside_transaction]
      cases (inside x).run t with
      | mk result left =>
          cases result with
          | ok a => exact Or.inr ⟨a, left, rfl, rfl⟩
          | error e => exact Or.inl ⟨e, rfl⟩

/-- A check before a transaction raises before anything is done. -/
theorem Atomic.check_bind {y : Except ε α} {f : α → Effect (Connection σ) ε β}
    (hf : ∀ a, Atomic (f a)) : Atomic (Effect.check y >>= f) := by
  intro t busy
  cases y with
  | error e => exact Or.inl ⟨e, rfl⟩
  | ok a => exact hf a t busy

end Transacting

end Evleda

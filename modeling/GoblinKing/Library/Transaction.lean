import Mathlib.Data.List.Forall2
import Mathlib.Data.Nat.Notation
import Mathlib.Logic.Basic
import Mathlib.Tactic.Common

/-!
# Programs with transactions

Programs of statements over the states of a database, whose transactions are undone when a
statement of theirs fails. What the database lets fail is given by a clock: the statement, the
begin or the commit at a tick may raise an error that is not its own.

A transaction leaves all that its body wrote, or nothing. What a program returns under faults it
returns without them, and it returns exactly when no fault hits one of its ticks.
-/

/-- Programs of statements and transactions over the states `σ` of a database. -/
inductive Program (σ : Type) : Type → Type 1 where
  | ret {α : Type} (a : α) : Program σ α
  | raise {α : Type} (error : String) : Program σ α
  | exec {α β : Type} (statement : σ → Except String (β × σ)) (next : β → Program σ α) :
      Program σ α
  | transaction {α β : Type} (body : Program σ β) (next : β → Program σ α) : Program σ α

/-- What is there after a program: its outcome, the state, and the clock. -/
structure Program.Report (σ α : Type) where
  outcome : Except String α
  state : σ
  clock : ℕ

/-- A program that fails leaves the state in which it began, and one that returns leaves what is
asked of it. -/
def Program.Report.AllOrNothing {σ α : Type} (report : Program.Report σ α) (s : σ)
    (P : α → σ → Prop) : Prop :=
  match report.outcome with
  | .error _ => report.state = s
  | .ok a => P a report.state

/-- The faults of a database: what is raised at a tick. -/
abbrev Faults := ℕ → Option String

/-- The database that never fails on its own. -/
def Faults.none : Faults :=
  fun _ => .none

/-- No fault hits the ticks from one time to another. -/
def Faults.Spare (faults : Faults) (start stop : ℕ) : Prop :=
  ∀ tick, start ≤ tick → tick < stop → faults tick = .none

namespace Program

variable {σ α β : Type}

/-- A program after another. -/
def bind {β : Type} : {α : Type} → Program σ α → (α → Program σ β) → Program σ β
  | _, ret a, next => next a
  | _, raise error, _ => raise error
  | _, exec statement rest, next => exec statement (fun b => (rest b).bind next)
  | _, transaction body rest, next => transaction body (fun b => (rest b).bind next)

instance : Monad (Program σ) where
  pure := ret
  bind := bind

/-- A statement as a program. -/
def statement (f : σ → Except String (α × σ)) : Program σ α :=
  exec f ret

/-- A program as a transaction. -/
def transact (body : Program σ α) : Program σ α :=
  transaction body ret

/-- A computation without statements. -/
def lift : Except String α → Program σ α
  | .ok a => ret a
  | .error error => raise error

/-- Run a program. A statement that fails leaves the state as it is, a transaction that fails
leaves the state in which it began. -/
def run (faults : Faults) : {α : Type} → Program σ α → ℕ → σ → Report σ α
  | _, ret a, clock, s => ⟨.ok a, s, clock⟩
  | _, raise error, clock, s => ⟨.error error, s, clock⟩
  | _, exec statement next, clock, s =>
      match faults clock with
      | some error => ⟨.error error, s, clock + 1⟩
      | none =>
          match statement s with
          | .error error => ⟨.error error, s, clock + 1⟩
          | .ok (b, s') => (next b).run faults (clock + 1) s'
  | _, transaction body next, clock, s =>
      match faults clock with
      | some error => ⟨.error error, s, clock + 1⟩
      | none =>
          let report := body.run faults (clock + 1) s
          match report.outcome with
          | .error error => ⟨.error error, s, report.clock⟩
          | .ok b =>
              match faults report.clock with
              | some error => ⟨.error error, s, report.clock + 1⟩
              | none => (next b).run faults (report.clock + 1) report.state

/-! ### Running a sequence -/

@[simp]
theorem run_ret (faults : Faults) (a : α) (clock : ℕ) (s : σ) :
  (ret a : Program σ α).run faults clock s = ⟨.ok a, s, clock⟩
  := rfl

@[simp]
theorem run_pure (faults : Faults) (a : α) (clock : ℕ) (s : σ) :
  (pure a : Program σ α).run faults clock s = ⟨.ok a, s, clock⟩
  := rfl

@[simp]
theorem run_raise (faults : Faults) (error : String) (clock : ℕ) (s : σ) :
  (raise error : Program σ α).run faults clock s = ⟨.error error, s, clock⟩
  := rfl

/-- A statement that a fault hits, that fails, or that goes on. -/
theorem run_exec (faults : Faults) (f : σ → Except String (β × σ)) (next : β → Program σ α)
    (clock : ℕ) (s : σ) :
  (exec f next).run faults clock s =
    match faults clock with
    | some error => ⟨.error error, s, clock + 1⟩
    | none =>
        match f s with
        | .error error => ⟨.error error, s, clock + 1⟩
        | .ok (b, s') => (next b).run faults (clock + 1) s'
  := by
  rw [run]

/-- A transaction whose begin a fault hits, whose body fails, whose commit a fault hits, or that
goes on. -/
theorem run_transaction (faults : Faults) (body : Program σ β) (next : β → Program σ α)
    (clock : ℕ) (s : σ) :
  (transaction body next).run faults clock s =
    match faults clock with
    | some error => ⟨.error error, s, clock + 1⟩
    | none =>
        match body.run faults (clock + 1) s with
        | ⟨.error error, _, clock₁⟩ => ⟨.error error, s, clock₁⟩
        | ⟨.ok b, s₁, clock₁⟩ =>
            match faults clock₁ with
            | some error => ⟨.error error, s, clock₁ + 1⟩
            | none => (next b).run faults (clock₁ + 1) s₁
  := by
  rw [run]
  cases faults clock with
  | some error => rfl
  | none =>
      obtain ⟨outcome, s₁, clock₁⟩ := body.run faults (clock + 1) s
      cases outcome <;> rfl

/-- A sequence goes on from what its first part leaves, unless that fails. -/
theorem run_bind (faults : Faults) (p : Program σ α) (next : α → Program σ β) (clock : ℕ)
    (s : σ) :
  (p >>= next).run faults clock s =
    match p.run faults clock s with
    | ⟨.ok a, s', clock'⟩ => (next a).run faults clock' s'
    | ⟨.error error, s', clock'⟩ => ⟨.error error, s', clock'⟩
  := by
  change (p.bind next).run faults clock s = _
  induction p generalizing clock s with
  | ret a => rfl
  | raise error => rfl
  | exec statement rest ih =>
      change (exec statement fun b => (rest b).bind next).run faults clock s = _
      rw [run_exec, run_exec]
      cases faults clock with
      | some error => rfl
      | none =>
          cases statement s with
          | error error => rfl
          | ok result => apply ih
  | transaction body rest _ ih =>
      change (transaction body fun b => (rest b).bind next).run faults clock s = _
      rw [run_transaction, run_transaction]
      cases faults clock with
      | some error => rfl
      | none =>
          obtain ⟨outcome, s₁, clock₁⟩ := body.run faults (clock + 1) s
          cases outcome with
          | error error => rfl
          | ok b =>
              dsimp only
              cases faults clock₁ with
              | some error => rfl
              | none => apply ih

/-- A sequence returns when both of its parts do. -/
theorem run_bind_ok {faults : Faults} {p : Program σ α} {next : α → Program σ β} {clock clock' : ℕ}
    {s s' : σ} {b : β} :
  (p >>= next).run faults clock s = ⟨.ok b, s', clock'⟩ ↔
    ∃ a s₁ clock₁, p.run faults clock s = ⟨.ok a, s₁, clock₁⟩ ∧
      (next a).run faults clock₁ s₁ = ⟨.ok b, s', clock'⟩
  := by
  rw [run_bind]
  obtain ⟨outcome, s₁, clock₁⟩ := p.run faults clock s
  cases outcome with
  | error error => simp
  | ok a =>
      constructor
      · intro h
        use a, s₁, clock₁, rfl
      · rintro ⟨a', s₁', clock₁', hp, h⟩
        cases hp
        apply h

/-- A computation without statements returns when it is successful. -/
theorem run_lift_ok {faults : Faults} {x : Except String α} {clock clock' : ℕ} {s s' : σ} {a : α} :
  (lift x).run faults clock s = ⟨.ok a, s', clock'⟩ ↔ x = .ok a ∧ s' = s ∧ clock' = clock
  := by
  cases x with
  | error error => simp [lift]
  | ok b =>
      rw [lift, run_ret, Report.mk.injEq, Except.ok.injEq, eq_comm (a := s),
        eq_comm (a := clock)]

/-- A statement goes on when no fault hits it and it does not fail on its own. -/
theorem run_exec_ok {faults : Faults} {f : σ → Except String (β × σ)} {next : β → Program σ α}
    {clock clock' : ℕ} {s s' : σ} {a : α} :
  (exec f next).run faults clock s = ⟨.ok a, s', clock'⟩ ↔
    faults clock = .none ∧ ∃ b s₁, f s = .ok (b, s₁) ∧
      (next b).run faults (clock + 1) s₁ = ⟨.ok a, s', clock'⟩
  := by
  rw [run_exec]
  cases faults clock with
  | some error => simp
  | none =>
      cases f s with
      | error error => simp
      | ok result =>
          constructor
          · intro h
            exact ⟨rfl, result.1, result.2, rfl, h⟩
          · rintro ⟨-, b, s₁, hf, h⟩
            cases hf
            apply h

/-- A transaction goes on when its body returns, and no fault hits its begin or its commit. -/
theorem run_transaction_ok {faults : Faults} {body : Program σ β} {next : β → Program σ α}
    {clock clock' : ℕ} {s s' : σ} {a : α} :
  (transaction body next).run faults clock s = ⟨.ok a, s', clock'⟩ ↔
    faults clock = .none ∧ ∃ b s₁ clock₁, body.run faults (clock + 1) s = ⟨.ok b, s₁, clock₁⟩ ∧
      faults clock₁ = .none ∧ (next b).run faults (clock₁ + 1) s₁ = ⟨.ok a, s', clock'⟩
  := by
  rw [run_transaction]
  cases faults clock with
  | some error => simp
  | none =>
      obtain ⟨outcome, s₁, clock₁⟩ := body.run faults (clock + 1) s
      cases outcome with
      | error error => simp
      | ok b =>
          simp only [Report.mk.injEq, Except.ok.injEq, true_and]
          cases hcommit : faults clock₁ with
          | some error =>
              simp only [Report.mk.injEq, reduceCtorEq, false_and, false_iff]
              rintro ⟨_, _, _, ⟨-, -, rfl⟩, hnone, -⟩
              rw [hcommit] at hnone
              cases hnone
          | none =>
              constructor
              · intro h
                exact ⟨b, s₁, clock₁, ⟨rfl, rfl, rfl⟩, hcommit, h⟩
              · rintro ⟨_, _, _, ⟨rfl, rfl, rfl⟩, -, h⟩
                apply h

/-- A statement returns when no fault hits it and it does not fail on its own. -/
theorem run_statement_ok {faults : Faults} {f : σ → Except String (α × σ)} {clock clock' : ℕ}
    {s s' : σ} {a : α} :
  (statement f).run faults clock s = ⟨.ok a, s', clock'⟩ ↔
    faults clock = .none ∧ f s = .ok (a, s') ∧ clock' = clock + 1
  := by
  rw [statement, run_exec_ok]
  constructor
  · rintro ⟨hfault, _, _, hf, h⟩
    cases h
    exact ⟨hfault, hf, rfl⟩
  · rintro ⟨hfault, hf, rfl⟩
    exact ⟨hfault, a, s', hf, rfl⟩

/-- A transaction returns when its body does, and no fault hits its begin or its commit. -/
theorem run_transact_ok {faults : Faults} {body : Program σ α} {clock clock' : ℕ} {s s' : σ}
    {a : α} :
  (transact body).run faults clock s = ⟨.ok a, s', clock'⟩ ↔
    faults clock = .none ∧ ∃ clock₁, body.run faults (clock + 1) s = ⟨.ok a, s', clock₁⟩ ∧
      faults clock₁ = .none ∧ clock' = clock₁ + 1
  := by
  rw [transact, run_transaction_ok]
  constructor
  · rintro ⟨hbegin, _, _, clock₁, hbody, hcommit, h⟩
    cases h
    exact ⟨hbegin, clock₁, hbody, hcommit, rfl⟩
  · rintro ⟨hbegin, clock₁, hbody, hcommit, rfl⟩
    exact ⟨hbegin, a, s', clock₁, hbody, hcommit, rfl⟩

/-- A transaction that fails leaves the state in which it began. -/
theorem run_transact_error {faults : Faults} {body : Program σ α} {clock clock' : ℕ} {s s' : σ}
    {error : String} (h : (transact body).run faults clock s = ⟨.error error, s', clock'⟩) :
  s' = s
  := by
  rw [transact, run_transaction] at h
  revert h
  cases faults clock with
  | some error =>
      rintro ⟨⟩
      rfl
  | none =>
      obtain ⟨outcome, s₁, clock₁⟩ := body.run faults (clock + 1) s
      cases outcome with
      | error error =>
          rintro ⟨⟩
          rfl
      | ok b =>
          dsimp only
          cases faults clock₁ with
          | some error =>
              rintro ⟨⟩
              rfl
          | none => rintro ⟨⟩

/-- A transaction is atomic, for what its body leaves when it returns. -/
theorem run_transact_allOrNothing {faults : Faults} {body : Program σ α} {clock : ℕ} {s : σ}
    {P : α → σ → Prop}
    (h : ∀ a s' clock', body.run faults (clock + 1) s = ⟨.ok a, s', clock'⟩ → P a s') :
  ((transact body).run faults clock s).AllOrNothing s P
  := by
  cases hreport : (transact body).run faults clock s with
  | mk outcome s' clock' =>
      cases outcome with
      | error error => apply run_transact_error hreport
      | ok a =>
          obtain ⟨-, clock₁, hbody, -⟩ := run_transact_ok.mp hreport
          apply h a s' clock₁ hbody

/-- What holds before a loop and is carried on by each of its turns holds after the loop. -/
theorem run_forM_ok {faults : Faults} {f : β → Program σ Unit} (I : List β → σ → Prop)
    (hstep : ∀ done b s s' clock clock', I done s →
      (f b).run faults clock s = ⟨.ok (), s', clock'⟩ → I (done ++ [b]) s')
    {l done : List β} {clock clock' : ℕ} {s s' : σ} (hI : I done s)
    (h : (l.forM f).run faults clock s = ⟨.ok (), s', clock'⟩) :
  I (done ++ l) s'
  := by
  induction l generalizing done clock s with
  | nil =>
      cases h
      rwa [List.append_nil]
  | cons b l ih =>
      change (f b >>= fun _ => l.forM f).run faults clock s = _ at h
      obtain ⟨_, s₁, clock₁, hb, hrest⟩ := run_bind_ok.mp h
      have h₁ := ih (hstep done b s s₁ clock clock₁ hI hb) hrest
      rwa [List.append_assoc, List.singleton_append] at h₁

/-- A loop of which each turn appends a row appends a list of rows. -/
theorem run_forM_append {ρ τ : Type} {faults : Faults} {f : β → Program σ Unit}
    (rows : σ → List ρ) (rest : σ → τ) (P : β → ρ → Prop)
    (hstep : ∀ b s s' clock clock', (f b).run faults clock s = ⟨.ok (), s', clock'⟩ →
      rest s' = rest s ∧ ∃ row, P b row ∧ rows s' = rows s ++ [row])
    {l : List β} {clock clock' : ℕ} {s s' : σ}
    (h : (l.forM f).run faults clock s = ⟨.ok (), s', clock'⟩) :
  rest s' = rest s ∧ ∃ added, List.Forall₂ P l added ∧ rows s' = rows s ++ added
  := by
  have hstart : rest s = rest s ∧ ∃ added, List.Forall₂ P [] added ∧ rows s = rows s ++ added := by
    use rfl, []
    simp
  apply run_forM_ok (fun done s₁ =>
    rest s₁ = rest s ∧ ∃ added, List.Forall₂ P done added ∧ rows s₁ = rows s ++ added) _ hstart h
  · rintro done b s₁ s₂ clock clock' ⟨hrest, added, hadded, hrows⟩ hb
    obtain ⟨hrest', row, hrow, hrows'⟩ := hstep b s₁ s₂ clock clock' hb
    use hrest'.trans hrest, added ++ [row]
    use List.rel_append hadded (.cons hrow .nil)
    rw [hrows', hrows, List.append_assoc]

/-! ### Frames -/

/-- No statement of a program changes what a view shows of the state. -/
def Keeps {τ : Type} (view : σ → τ) : {α : Type} → Program σ α → Prop
  | _, ret _ => True
  | _, raise _ => True
  | _, exec statement next =>
      (∀ s b s', statement s = .ok (b, s') → view s' = view s) ∧ ∀ b, (next b).Keeps view
  | _, transaction body next => body.Keeps view ∧ ∀ b, (next b).Keeps view

/-- What no statement changes is the same after a run, also after one that fails. -/
theorem run_keeps {τ : Type} {view : σ → τ} {p : Program σ α} (h : p.Keeps view) (faults : Faults)
    (clock : ℕ) (s : σ) :
  view (p.run faults clock s).state = view s
  := by
  induction p generalizing clock s with
  | ret a => rfl
  | raise error => rfl
  | exec statement next ih =>
      obtain ⟨hstatement, hnext⟩ := h
      rw [run_exec]
      cases faults clock with
      | some error => rfl
      | none =>
          cases hs : statement s with
          | error error => rfl
          | ok result => apply (ih result.1 (hnext result.1) _ _).trans (hstatement s _ _ hs)
  | transaction body next ihbody ih =>
      obtain ⟨hbody, hnext⟩ := h
      have hview := ihbody hbody (clock + 1) s
      rw [run_transaction]
      cases faults clock with
      | some error => rfl
      | none =>
          revert hview
          obtain ⟨outcome, s₁, clock₁⟩ := body.run faults (clock + 1) s
          intro hview
          cases outcome with
          | error error => rfl
          | ok b =>
              dsimp only
              cases faults clock₁ with
              | some error => rfl
              | none => apply (ih b (hnext b) _ _).trans hview

/-- A sequence changes nothing that its parts do not change. -/
theorem Keeps.bind {τ : Type} {view : σ → τ} {p : Program σ α} {next : α → Program σ β}
    (hp : p.Keeps view) (hnext : ∀ a, (next a).Keeps view) :
  (p >>= next).Keeps view
  := by
  change (Program.bind p next).Keeps view
  induction p with
  | ret a => apply hnext
  | raise error => trivial
  | exec statement rest ih =>
      use hp.1
      intro b
      apply ih b (hp.2 b) hnext
  | transaction body rest _ ih =>
      use hp.1
      intro b
      apply ih b (hp.2 b) hnext

/-- A loop changes nothing that its turns do not change. -/
theorem Keeps.forM {τ : Type} {view : σ → τ} {f : β → Program σ Unit} {l : List β}
    (h : ∀ b ∈ l, (f b).Keeps view) :
  (l.forM f).Keeps view
  := by
  induction l with
  | nil => trivial
  | cons b l ih =>
      apply Keeps.bind (h b List.mem_cons_self)
      intro _
      apply ih
      intro b' hb'
      apply h b' (List.mem_cons_of_mem b hb')

/-- A program without statements changes nothing. -/
theorem Keeps.pure {τ : Type} {view : σ → τ} (a : α) :
  (Pure.pure a : Program σ α).Keeps view
  := trivial

/-- A statement that only reads changes nothing. -/
theorem Keeps.read {τ : Type} {view : σ → τ} (f : σ → α) :
  (statement (fun s => .ok (f s, s))).Keeps view
  := by
  refine ⟨?_, fun _ => trivial⟩
  rintro s b s' hs
  cases hs
  rfl

/-- A computation without statements changes nothing. -/
theorem Keeps.lift {τ : Type} {view : σ → τ} (x : Except String α) :
  (lift x : Program σ α).Keeps view
  := by
  cases x <;> trivial

/-! ### Faults -/

/-- Ticks are spared when the first one and all later ones are. -/
theorem spare_iff_succ {faults : Faults} {start stop : ℕ} (h : start < stop) :
  faults.Spare start stop ↔ faults start = .none ∧ faults.Spare (start + 1) stop
  := by
  constructor
  · intro hspare
    use hspare start (Nat.le_refl _) h
    intro tick hstart hstop
    apply hspare tick (Nat.le_of_succ_le hstart) hstop
  · rintro ⟨hfirst, hspare⟩ tick hstart hstop
    rcases Nat.eq_or_lt_of_le hstart with rfl | hlt
    · apply hfirst
    · apply hspare tick hlt hstop

/-- Ticks are spared when those of two parts are. -/
theorem spare_iff_and {faults : Faults} {start middle stop : ℕ} (hstart : start ≤ middle)
    (hstop : middle ≤ stop) :
  faults.Spare start stop ↔ faults.Spare start middle ∧ faults.Spare middle stop
  := by
  constructor
  · intro hspare
    constructor
    · intro tick h h'
      apply hspare tick h (Nat.lt_of_lt_of_le h' hstop)
    · intro tick h h'
      apply hspare tick (Nat.le_trans hstart h) h'
  · rintro ⟨hfirst, hlast⟩ tick h h'
    rcases Nat.lt_or_ge tick middle with hlt | hge
    · apply hfirst tick h hlt
    · apply hlast tick hge h'

/-- No ticks are spared. -/
theorem spare_self (faults : Faults) (tick : ℕ) :
  faults.Spare tick tick
  := by
  intro tick' h h'
  omega

/-- A transaction of one statement has three ticks: its begin, its statement and its commit. -/
theorem run_transact_statement_ok {faults : Faults} {f : σ → Except String (α × σ)}
    {clock clock' : ℕ} {s s' : σ} {a : α} :
  (transact (statement f)).run faults clock s = ⟨.ok a, s', clock'⟩ ↔
    faults.Spare clock (clock + 3) ∧ f s = .ok (a, s') ∧ clock' = clock + 3
  := by
  rw [run_transact_ok, spare_iff_succ (by omega), spare_iff_succ (by omega),
    spare_iff_succ (by omega)]
  simp only [run_statement_ok]
  have hself := spare_self faults (clock + 3)
  constructor
  · rintro ⟨hbegin, _, ⟨hstatement, hf, rfl⟩, hcommit, rfl⟩
    exact ⟨⟨hbegin, hstatement, hcommit, hself⟩, hf, rfl⟩
  · rintro ⟨⟨hbegin, hstatement, hcommit, -⟩, hf, rfl⟩
    exact ⟨hbegin, _, ⟨hstatement, hf, rfl⟩, hcommit, rfl⟩

end Program

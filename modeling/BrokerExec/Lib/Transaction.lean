import BrokerExec.Lib.Process

/-!
# A database connection that can be cut

What is committed is on disk. A transaction works on a copy that the connection alone reads, and
its commit puts the copy on disk at once. Closing the connection, and being killed, throw the copy
away.

At each statement the environment may answer with a `Fault`: the statement then has no effect of
its own, but the fault may throw the transaction away, and what was to be committed may have
reached the disk all the same.

* **`spec_read`**, **`spec_begin`**, **`spec_write`**, **`spec_writeIdle`**, **`spec_commit`**,
  **`spec_rollback`** — the rules that carry an assertion about what is committed and what the transaction holds from
  one statement to the next. Whatever a transaction does, a stop before its commit leaves on disk
  what was there.
-/

namespace BrokerExec

/-- What a statement that fails met. -/
structure Fault where
  code : Nat
  /-- The open transaction is gone. -/
  rolledBack : Bool
  /-- What was to be committed is on disk. -/
  landed : Bool
  deriving DecidableEq

/-- What is on disk, and what the open transaction has made of it. -/
structure Connection (δ : Type) where
  committed : δ
  working : Option δ

namespace Connection

variable {δ : Type} (c : Connection δ)

/-- Outside any transaction. -/
def idle (d : δ) : Connection δ := ⟨d, none⟩

/-- What the connection reads. -/
def view : δ := c.working.getD c.committed

/-- A connection that ends, closed or killed. -/
def close : Connection δ := idle c.committed

/-- What a failing statement leaves of the transaction. -/
def failed (fault : Fault) : Connection δ := if fault.rolledBack then c.close else c

/-- A statement with this effect; outside a transaction it is committed with the statement. -/
def write (d : δ) : Connection δ :=
  match c.working with
  | none => idle d
  | some _ => ⟨c.committed, some d⟩

/-- The same statement, failing. -/
def failWrite (fault : Fault) (d : δ) : Connection δ :=
  match c.working with
  | none => if fault.landed then idle d else c
  | some _ => c.failed fault

/-- A commit that fails. -/
def failCommit (fault : Fault) (d : δ) : Connection δ :=
  if fault.landed then idle d else c.failed fault

@[simp] theorem idle_committed (d : δ) : (idle d).committed = d := rfl

@[simp] theorem idle_working (d : δ) : (idle d).working = none := rfl

@[simp] theorem view_idle (d : δ) : (idle d).view = d := rfl

@[simp] theorem close_committed : c.close.committed = c.committed := rfl

@[simp] theorem failed_committed (fault : Fault) : (c.failed fault).committed = c.committed := by
  unfold failed
  split <;> rfl

end Connection

/-! ## The statements -/

namespace Transaction

variable {τ δ α : Type} (fault : τ → Option Fault)

/-- The code of a statement that makes no sense where it stands. -/
def misuse : Nat := 1

/-- A statement that reads. -/
def read (answer : τ → δ → α) : Process τ (Connection δ) (Except Nat α) :=
  .ask fun t c =>
    match fault t with
    | some f => (.error f.code, c.failed f)
    | none => (.ok (answer t c.view), c)

/-- A statement that writes; the database itself can refuse it. -/
def write (effect : δ → Except Nat δ) : Process τ (Connection δ) (Except Nat Unit) :=
  .ask fun t c =>
    match effect c.view, fault t with
    | .error code, none => (.error code, c)
    | .error _, some f => (.error f.code, c.failed f)
    | .ok d, some f => (.error f.code, c.failWrite f d)
    | .ok d, none => (.ok (), c.write d)

def begin : Process τ (Connection δ) (Except Nat Unit) :=
  .ask fun t c =>
    match c.working, fault t with
    | _, some f => (.error f.code, c.failed f)
    | some _, none => (.error misuse, c)
    | none, none => (.ok (), ⟨c.committed, some c.committed⟩)

def commit : Process τ (Connection δ) (Except Nat Unit) :=
  .ask fun t c =>
    match c.working, fault t with
    | none, some f => (.error f.code, c)
    | none, none => (.error misuse, c)
    | some d, some f => (.error f.code, c.failCommit f d)
    | some d, none => (.ok (), .idle d)

def rollback : Process τ (Connection δ) (Except Nat Unit) :=
  .ask fun t c =>
    match c.working, fault t with
    | _, some f => (.error f.code, c.failed f)
    | none, none => (.error misuse, c)
    | some _, none => (.ok (), c.close)

/-! ## The rules -/

variable {fault} {allowed : τ → Prop} {stop : Connection δ → Prop} {d e : δ}

/-- On disk `d`, and no transaction. -/
def Idle (d : δ) (c : Connection δ) : Prop := c = .idle d

/-- On disk `d`, and a transaction that has come to `e`. -/
def Open (d e : δ) (c : Connection δ) : Prop := c = ⟨d, some e⟩

/-- On disk `d`. -/
def OnDisk (d : δ) (c : Connection δ) : Prop := c.committed = d

theorem Idle.onDisk {c : Connection δ} (h : Idle d c) : OnDisk d c := by
  rw [h]
  rfl

theorem Open.onDisk {c : Connection δ} (h : Open d e c) : OnDisk d c := by
  rw [h]
  rfl

/-- The code is the one of a fault that an allowed answer reports. -/
def Reported (fault : τ → Option Fault) (allowed : τ → Prop) (code : Nat) : Prop :=
  ∃ t f, allowed t ∧ fault t = some f ∧ f.code = code

open Process (SpecOn)

theorem Idle.failed {c : Connection δ} (h : Idle d c) (f : Fault) : Idle d (c.failed f) := by
  rw [h]
  unfold Connection.failed
  split <;> rfl

/-- A read leaves a connection that is outside a transaction as it is. -/
theorem spec_read {answer : τ → δ → α} (hstop : ∀ c, Idle d c → stop c) :
    SpecOn allowed (Idle d) (Transaction.read fault answer)
      (fun result c => Idle d c ∧
        match result with
        | .error code => Reported fault allowed code
        | .ok a => ∃ t, allowed t ∧ fault t = none ∧ a = answer t d)
      stop := by
  refine SpecOn.ask (fun c hc => hstop c hc) fun t c ht hc => ?_
  cases hfault : fault t with
  | some f => exact ⟨hc.failed f, t, f, ht, hfault, rfl⟩
  | none =>
    subst hc
    exact ⟨rfl, t, ht, hfault, rfl⟩

theorem spec_begin (hstop : ∀ c, OnDisk d c → stop c) :
    SpecOn allowed (Idle d) (begin fault)
      (fun result c => OnDisk d c ∧ (result = .ok () → Open d d c)) stop := by
  refine SpecOn.ask (fun c hc => hstop c hc.onDisk) fun t c _ hc => ?_
  subst hc
  cases hfault : fault t with
  | some f =>
    refine ⟨?_, fun h => by cases h⟩
    simp [OnDisk]
  | none => exact ⟨rfl, fun _ => rfl⟩

/-- Inside a transaction a write is seen by the connection alone. -/
theorem spec_write {effect : δ → Except Nat δ} (hstop : ∀ c, OnDisk d c → stop c) :
    SpecOn allowed (Open d e) (Transaction.write fault effect)
      (fun result c => OnDisk d c ∧ (result = .ok () → ∃ e', effect e = .ok e' ∧ Open d e' c))
      stop := by
  refine SpecOn.ask (fun c hc => hstop c hc.onDisk) fun t c _ hc => ?_
  subst hc
  show OnDisk d (_ : Except Nat Unit × Connection δ).2 ∧ _
  rw [show (⟨d, some e⟩ : Connection δ).view = e from rfl]
  cases heffect : effect e with
  | error code =>
    cases hfault : fault t with
    | some f => exact ⟨by simp [OnDisk], fun h => by cases h⟩
    | none => exact ⟨rfl, fun h => by cases h⟩
  | ok e' =>
    cases hfault : fault t with
    | some f => exact ⟨by simp [OnDisk, Connection.failWrite], fun h => by cases h⟩
    | none => exact ⟨rfl, fun _ => ⟨e', rfl, rfl⟩⟩

/-- After a commit that fails, either is on disk. -/
theorem spec_commit (hstop : ∀ c, OnDisk d c → stop c) :
    SpecOn allowed (Open d e) (commit fault)
      (fun result c => (OnDisk d c ∨ OnDisk e c) ∧ (result = .ok () → Idle e c)) stop := by
  refine SpecOn.ask (fun c hc => hstop c hc.onDisk) fun t c _ hc => ?_
  subst hc
  cases hfault : fault t with
  | some f =>
    refine ⟨?_, fun h => by cases h⟩
    show OnDisk d (Connection.failCommit _ f e) ∨ OnDisk e (Connection.failCommit _ f e)
    unfold Connection.failCommit
    split
    · exact .inr rfl
    · exact .inl (by simp [OnDisk])
  | none => exact ⟨.inr rfl, fun _ => rfl⟩

theorem spec_rollback {I : δ → Prop} :
    SpecOn allowed (fun c => I c.committed) (rollback fault) (fun _ c => I c.committed)
      fun c => I c.committed := by
  refine SpecOn.ask (fun _ hc => hc) fun t c _ hc => ?_
  have hdisk : ∀ c' : Connection δ, c'.committed = c.committed → I c'.committed := fun c' h => by
    rw [h]
    exact hc
  refine hdisk _ ?_
  split
  · exact c.failed_committed _
  · rfl
  · rfl

/-- How a write outside any transaction can end: committed, refused by the database, or with a
fault that may have committed it. -/
inductive Written (fault : τ → Option Fault) (allowed : τ → Prop) (effect : δ → Except Nat δ)
    (d : δ) : Except Nat Unit → Connection δ → Prop
  | done {e : δ} {c : Connection δ} : effect d = .ok e → Idle e c → Written fault allowed effect d
      (.ok ()) c
  | refused {code : Nat} {c : Connection δ} : effect d = .error code → Idle d c →
      Written fault allowed effect d (.error code) c
  | faulted {code : Nat} {c : Connection δ} : Reported fault allowed code →
      (Idle d c ∨ ∃ e, effect d = .ok e ∧ Idle e c) → Written fault allowed effect d (.error code) c

theorem spec_writeIdle {effect : δ → Except Nat δ} (hstop : ∀ c, Idle d c → stop c) :
    SpecOn allowed (Idle d) (Transaction.write fault effect) (Written fault allowed effect d)
      stop := by
  refine SpecOn.ask (fun c hc => hstop c hc) fun t c ht hc => ?_
  subst hc
  show Written fault allowed effect d (_ : Except Nat Unit × Connection δ).1 _
  rw [show (Connection.idle d : Connection δ).view = d from rfl]
  cases heffect : effect d with
  | error code =>
    cases hfault : fault t with
    | none => exact .refused heffect rfl
    | some f => exact .faulted ⟨t, f, ht, hfault, rfl⟩ (.inl (Idle.failed rfl f))
  | ok e =>
    cases hfault : fault t with
    | none => exact .done heffect rfl
    | some f =>
      refine .faulted ⟨t, f, ht, hfault, rfl⟩ ?_
      show Idle d (if f.landed then _ else _) ∨ ∃ e', _ ∧ Idle e' (if f.landed then _ else _)
      split
      · exact .inr ⟨e, heffect, rfl⟩
      · exact .inl rfl

end Transaction

end BrokerExec

import BrokerExec.Lib.Bytes
import BrokerExec.Lib.Since
import BrokerExec.Lib.Table

/-!
# The resubscribe guard (`feedsub/resubscribe_guard.cpp`)

The guard owns the set of tokens the caller wants, and after every reconnect waits for each token's
first tick up to a deadline. Readings of the steady clock are in nanoseconds.

* **`isTradable_run`**, **`mem_muteTokens_run`** — what the history says of a token, over every run.
* **`tradable_exact_iff`** — a token trades exactly when it ticked since the last reconnect behind
  its subscribe, as long as no tick comes before such a reconnect; the mute tokens are always the
  silent ones.
-/

namespace BrokerExec.FeedSub

inductive TokenFeedState where
  | subscribed
  | awaitingFirstTick
  | live
  | muteAfterResubscribe
  deriving DecidableEq, Repr

/-- `first_tick_deadline` is a reading of the steady clock. -/
structure Entry where
  phase : TokenFeedState
  firstTickDeadline : Int
  deriving DecidableEq

/-- `Entry{}`. -/
def Entry.fresh : Entry := ⟨.subscribed, 0⟩

structure ResubscribeGuard where
  firstTickDeadline : Int
  tokens : Table Bytes (Bytes × Entry) Prod.fst

namespace ResubscribeGuard

/-- The floor of one millisecond. -/
def kMinDeadline : Int := 1000000

/-- The deadline is given in milliseconds. -/
def create (firstTickDeadlineMs : Int) : ResubscribeGuard :=
  ⟨max (firstTickDeadlineMs * 1000000) kMinDeadline, .empty⟩

variable (guard : ResubscribeGuard)

def entryOf (token : Bytes) : Option Entry := (guard.tokens.find token).map Prod.snd

/-- The lazy step from waiting to mute, past the deadline. -/
def resolve (entry : Entry) (now : Int) : TokenFeedState :=
  if entry.phase = .awaitingFirstTick ∧ now > entry.firstTickDeadline then .muteAfterResubscribe
  else entry.phase

/-- A token that is there keeps its entry. -/
def subscribe (token : Bytes) : ResubscribeGuard :=
  match guard.entryOf token with
  | none => { guard with tokens := guard.tokens.upsert (token, .fresh) }
  | some _ => guard

def unsubscribe (token : Bytes) : ResubscribeGuard :=
  { guard with tokens := guard.tokens.remove token }

/-- A token that waits for its first tick. -/
def arm (deadline : Int) (row : Bytes × Entry) : Bytes × Entry :=
  (row.1, ⟨.awaitingFirstTick, deadline⟩)

theorem fst_arm (deadline : Int) (row : Bytes × Entry) : (arm deadline row).1 = row.1 := rfl

/-- The whole set to subscribe again, every token of it armed. -/
def onReconnect (now : Int) : List Bytes × ResubscribeGuard :=
  (guard.tokens.rows.map Prod.fst,
    { guard with
      tokens := guard.tokens.mapRows _ (fst_arm (now + guard.firstTickDeadline)) })

/-- A tick of a token that is not there is ignored. -/
def recordTick (token : Bytes) : ResubscribeGuard :=
  match guard.entryOf token with
  | none => guard
  | some entry => { guard with tokens := guard.tokens.upsert (token, { entry with phase := .live }) }

/-- A token that is not there reads `Subscribed`. -/
def stateOf (token : Bytes) (now : Int) : TokenFeedState :=
  match guard.entryOf token with
  | none => .subscribed
  | some entry => resolve entry now

def muteTokens (now : Int) : List Bytes :=
  (guard.tokens.rows.filter fun row => resolve row.2 now = .muteAfterResubscribe).map Prod.fst

def isTradable (token : Bytes) (now : Int) : Bool := guard.stateOf token now = .live

end ResubscribeGuard

/-! ## Runs -/

inductive GuardOp where
  | subscribe (token : Bytes)
  | unsubscribe (token : Bytes)
  | onReconnect
  | recordTick (token : Bytes)
  | advance (elapsed : Nat)
  deriving DecidableEq

/-- A guard and the clock it reads. -/
structure GuardUse where
  guard : ResubscribeGuard
  clock : Int

namespace GuardUse

def create (start firstTickDeadlineMs : Int) : GuardUse := ⟨.create firstTickDeadlineMs, start⟩

def step (u : GuardUse) : GuardOp → GuardUse
  | .subscribe token => { u with guard := u.guard.subscribe token }
  | .unsubscribe token => { u with guard := u.guard.unsubscribe token }
  | .onReconnect => { u with guard := (u.guard.onReconnect u.clock).2 }
  | .recordTick token => { u with guard := u.guard.recordTick token }
  | .advance elapsed => { u with clock := u.clock + elapsed }

def isTradable (u : GuardUse) (token : Bytes) : Bool := u.guard.isTradable token u.clock

def muteTokens (u : GuardUse) : List Bytes := u.guard.muteTokens u.clock

end GuardUse

/-! ## What the history says -/

/-- The token was subscribed and not unsubscribed since. -/
def InSet (token : Bytes) : List GuardOp → Prop :=
  Since (fun _ op => op = .subscribe token) (· ≠ .unsubscribe token)

/-- A reconnect came behind the subscribe that put the token there. -/
def Reconnected (token : Bytes) : List GuardOp → Prop :=
  Since (fun front op => op = .onReconnect ∧ InSet token front) (· ≠ .unsubscribe token)

/-- The token ticked behind the last reconnect. -/
def TickedSince (token : Bytes) : List GuardOp → Prop :=
  Since (fun _ op => op = .recordTick token) (· ≠ .onReconnect)

/-- The reading of the clock behind a history. -/
def clockAfter (start : Int) (ops : List GuardOp) : Int :=
  run (fun now op => match op with
    | .advance elapsed => now + elapsed
    | _ => now) start ops

/-- The last reconnect behind the subscribe came, there was no tick since, and by `now` the
deadline is strictly over. -/
def SilentPast (token : Bytes) (start deadline now : Int) : List GuardOp → Prop :=
  Since (fun front op => op = .onReconnect ∧ InSet token front
      ∧ clockAfter start front + deadline < now)
    fun op => op ≠ .unsubscribe token ∧ op ≠ .onReconnect ∧ op ≠ .recordTick token

/-! ## One operation, seen by one token -/

section

variable {u : GuardUse} {token : Bytes}

/-- What an operation makes of one token's entry. -/
def GuardOp.onEntry (token : Bytes) (deadline : Int) (entry : Option Entry) :
    GuardOp → Option Entry
  | .subscribe token' => if token = token' then some (entry.getD .fresh) else entry
  | .unsubscribe token' => if token = token' then none else entry
  | .onReconnect => entry.map fun _ => ⟨.awaitingFirstTick, deadline⟩
  | .recordTick token' =>
    if token = token' then entry.map fun entry => { entry with phase := .live } else entry
  | .advance _ => entry

/-- The deadline and the clock do not depend on the tokens. -/
theorem deadline_step (u : GuardUse) (op : GuardOp) :
    (u.step op).guard.firstTickDeadline = u.guard.firstTickDeadline := by
  cases op with
  | subscribe token =>
    simp only [GuardUse.step, ResubscribeGuard.subscribe]
    split <;> rfl
  | recordTick token =>
    simp only [GuardUse.step, ResubscribeGuard.recordTick]
    split <;> rfl
  | unsubscribe token => rfl
  | onReconnect => rfl
  | advance elapsed => rfl

theorem entryOf_upsert (tokens : Table Bytes (Bytes × Entry) Prod.fst) (deadline : Int)
    (token' : Bytes) (entry : Entry) (token : Bytes) :
    ResubscribeGuard.entryOf ⟨deadline, tokens.upsert (token', entry)⟩ token
      = if token = token' then some entry else ResubscribeGuard.entryOf ⟨deadline, tokens⟩ token := by
  unfold ResubscribeGuard.entryOf
  rw [Table.find_upsert]
  split
  · rfl
  · rfl

/-- **What an operation does to a token's entry.** -/
theorem entryOf_step (u : GuardUse) (op : GuardOp) (token : Bytes) :
    (u.step op).guard.entryOf token
      = op.onEntry token (u.clock + u.guard.firstTickDeadline) (u.guard.entryOf token) := by
  cases op with
  | subscribe token' =>
    simp only [GuardUse.step, ResubscribeGuard.subscribe, GuardOp.onEntry]
    by_cases hown : token = token'
    · subst hown
      cases hentry : u.guard.entryOf token with
      | none => simp only [entryOf_upsert, if_true, Option.getD_none]
      | some entry => simp only [hentry, if_true, Option.getD_some]
    · rw [if_neg hown]
      cases u.guard.entryOf token' with
      | none => rw [entryOf_upsert, if_neg hown]
      | some entry => rfl
  | unsubscribe token' =>
    show ((u.guard.tokens.remove token').find token).map Prod.snd = _
    rw [Table.find_remove, GuardOp.onEntry]
    split
    · rfl
    · rfl
  | onReconnect =>
    show ((u.guard.tokens.mapRows _ (ResubscribeGuard.fst_arm _)).find token).map Prod.snd = _
    rw [Table.find_mapRows, GuardOp.onEntry, ResubscribeGuard.entryOf, Option.map_map,
      Option.map_map]
    rfl
  | recordTick token' =>
    simp only [GuardUse.step, ResubscribeGuard.recordTick, GuardOp.onEntry]
    by_cases hown : token = token'
    · subst hown
      cases hentry : u.guard.entryOf token with
      | none => simp only [hentry, if_true, Option.map_none]
      | some entry => simp only [entryOf_upsert, if_true, Option.map_some]
    · rw [if_neg hown]
      cases u.guard.entryOf token' with
      | none => rfl
      | some entry => rw [entryOf_upsert, if_neg hown]
  | advance elapsed => rfl

/-! ## The entry over a run -/

variable {start deadlineMs : Int}

/-- The deadline of a guard, clamped. -/
def clampedDeadline (deadlineMs : Int) : Int :=
  max (deadlineMs * 1000000) ResubscribeGuard.kMinDeadline

theorem deadline_run (ops : List GuardOp) :
    (run GuardUse.step (.create start deadlineMs) ops).guard.firstTickDeadline
      = clampedDeadline deadlineMs := by
  induction ops using List.reverseRecOn with
  | nil => rfl
  | append_singleton ops op ih => rw [run_concat, deadline_step, ih]

theorem clock_run (ops : List GuardOp) :
    (run GuardUse.step (.create start deadlineMs) ops).clock = clockAfter start ops := by
  induction ops using List.reverseRecOn with
  | nil => rfl
  | append_singleton ops op ih =>
    rw [run_concat, clockAfter, run_concat]
    cases op with
    | advance elapsed => exact congrArg (· + (elapsed : Int)) ih
    | subscribe token => exact ih
    | unsubscribe token => exact ih
    | onReconnect => exact ih
    | recordTick token => exact ih

/-- The entry of a token after a run. -/
def entryAfter (start deadlineMs : Int) (token : Bytes) (ops : List GuardOp) : Option Entry :=
  (run GuardUse.step (.create start deadlineMs) ops).guard.entryOf token

theorem entryAfter_concat (ops : List GuardOp) (op : GuardOp) :
    entryAfter start deadlineMs token (ops ++ [op])
      = op.onEntry token (clockAfter start ops + clampedDeadline deadlineMs)
          (entryAfter start deadlineMs token ops) := by
  unfold entryAfter
  rw [run_concat, entryOf_step, deadline_run, clock_run]

/-- The guard has the tokens of the set. -/
theorem isSome_entryAfter (ops : List GuardOp) :
    (entryAfter start deadlineMs token ops).isSome = true ↔ InSet token ops := by
  induction ops using List.reverseRecOn with
  | nil => exact iff_of_false Bool.false_ne_true not_since_nil
  | append_singleton ops op ih =>
    rw [entryAfter_concat, InSet, since_concat, ← InSet, ← ih]
    cases op with
    | subscribe token' =>
      by_cases hown : token = token'
      · simp [GuardOp.onEntry, hown]
      · simp [GuardOp.onEntry, hown, Ne.symm hown]
    | unsubscribe token' =>
      by_cases hown : token = token'
      · simp [GuardOp.onEntry, hown]
      · simp [GuardOp.onEntry, hown, Ne.symm hown]
    | onReconnect => simp [GuardOp.onEntry]
    | recordTick token' =>
      by_cases hown : token = token'
      · simp [GuardOp.onEntry, hown]
      · simp [GuardOp.onEntry, hown]
    | advance elapsed => simp [GuardOp.onEntry]

/-- The token ticked while it was in the set, and no reconnect came since. -/
def TickedInSet (token : Bytes) : List GuardOp → Prop :=
  Since (fun front op => op = .recordTick token ∧ InSet token front)
    fun op => op ≠ .unsubscribe token ∧ op ≠ .onReconnect

theorem live_entryAfter (ops : List GuardOp) :
    (entryAfter start deadlineMs token ops).any (·.phase = .live) = true
      ↔ TickedInSet token ops := by
  induction ops using List.reverseRecOn with
  | nil => exact iff_of_false Bool.false_ne_true not_since_nil
  | append_singleton ops op ih =>
    rw [entryAfter_concat, TickedInSet, since_concat, ← TickedInSet, ← ih,
      ← @isSome_entryAfter _ start deadlineMs]
    generalize entryAfter start deadlineMs token ops = entry
    cases op with
    | subscribe token' =>
      by_cases hown : token = token'
      · cases entry <;> simp [GuardOp.onEntry, hown, Entry.fresh]
      · simp [GuardOp.onEntry, hown]
    | unsubscribe token' =>
      by_cases hown : token = token'
      · simp [GuardOp.onEntry, hown]
      · simp [GuardOp.onEntry, hown, Ne.symm hown]
    | onReconnect => cases entry <;> simp [GuardOp.onEntry]
    | recordTick token' =>
      by_cases hown : token = token'
      · cases entry <;> simp [GuardOp.onEntry, hown]
      · simp [GuardOp.onEntry, hown, Ne.symm hown]
    | advance elapsed => simp [GuardOp.onEntry]

/-- Waiting with a deadline before `now`. -/
def Entry.overdue (entry : Entry) (now : Int) : Bool :=
  entry.phase = .awaitingFirstTick && entry.firstTickDeadline < now

theorem overdue_entryAfter (now : Int) (ops : List GuardOp) :
    (entryAfter start deadlineMs token ops).any (·.overdue now) = true
      ↔ SilentPast token start (clampedDeadline deadlineMs) now ops := by
  induction ops using List.reverseRecOn with
  | nil => exact iff_of_false Bool.false_ne_true not_since_nil
  | append_singleton ops op ih =>
    rw [entryAfter_concat, SilentPast, since_concat, ← SilentPast, ← ih,
      ← @isSome_entryAfter _ start deadlineMs]
    generalize entryAfter start deadlineMs token ops = entry
    cases op with
    | subscribe token' =>
      by_cases hown : token = token'
      · cases entry <;> simp [GuardOp.onEntry, hown, Entry.fresh, Entry.overdue]
      · simp [GuardOp.onEntry, hown]
    | unsubscribe token' =>
      by_cases hown : token = token'
      · simp [GuardOp.onEntry, hown]
      · simp [GuardOp.onEntry, hown, Ne.symm hown]
    | onReconnect => cases entry <;> simp [GuardOp.onEntry, Entry.overdue]
    | recordTick token' =>
      by_cases hown : token = token'
      · cases entry <;> simp [GuardOp.onEntry, hown, Entry.overdue]
      · simp [GuardOp.onEntry, hown, Ne.symm hown]
    | advance elapsed => simp [GuardOp.onEntry]

/-- Mute is read off, never stored. -/
theorem not_mute_entryAfter (ops : List GuardOp) :
    ∀ entry ∈ entryAfter start deadlineMs token ops, entry.phase ≠ .muteAfterResubscribe := by
  induction ops using List.reverseRecOn with
  | nil => exact fun entry h => absurd h (Option.not_mem_none entry)
  | append_singleton ops op ih =>
    rw [entryAfter_concat]
    generalize entryAfter start deadlineMs token ops = entry at ih
    cases op with
    | subscribe token' =>
      by_cases hown : token = token'
      · cases entry <;> simp_all [GuardOp.onEntry, Entry.fresh]
      · simpa [GuardOp.onEntry, hown] using ih
    | unsubscribe token' =>
      by_cases hown : token = token'
      · simp [GuardOp.onEntry, hown]
      · simpa [GuardOp.onEntry, hown] using ih
    | onReconnect => cases entry <;> simp [GuardOp.onEntry]
    | recordTick token' =>
      by_cases hown : token = token'
      · cases entry <;> simp [GuardOp.onEntry, hown]
      · simpa [GuardOp.onEntry, hown] using ih
    | advance elapsed => exact ih

/-! ## What the guard answers -/

theorem resolve_eq_mute_iff {entry : Entry} (h : entry.phase ≠ .muteAfterResubscribe) (now : Int) :
    ResubscribeGuard.resolve entry now = .muteAfterResubscribe ↔ entry.overdue now = true := by
  unfold ResubscribeGuard.resolve Entry.overdue
  split
  · next hoverdue => simpa using hoverdue
  · next hoverdue => simpa [h] using hoverdue

theorem resolve_eq_live_iff (entry : Entry) (now : Int) :
    ResubscribeGuard.resolve entry now = .live ↔ entry.phase = .live := by
  unfold ResubscribeGuard.resolve
  split
  · next hoverdue => simp [hoverdue.1]
  · rfl

theorem isTradable_run (ops : List GuardOp) :
    (run GuardUse.step (.create start deadlineMs) ops).isTradable token = true
      ↔ TickedInSet token ops := by
  rw [← @live_entryAfter _ start deadlineMs]
  unfold GuardUse.isTradable ResubscribeGuard.isTradable ResubscribeGuard.stateOf
  rw [show (run GuardUse.step (.create start deadlineMs) ops).guard.entryOf token
    = entryAfter start deadlineMs token ops from rfl]
  cases entryAfter start deadlineMs token ops with
  | none => simp
  | some entry => simp only [decide_eq_true_eq, resolve_eq_live_iff, Option.any_some]

theorem mem_muteTokens {u : GuardUse} :
    token ∈ u.muteTokens ↔ ∃ entry, u.guard.entryOf token = some entry
      ∧ ResubscribeGuard.resolve entry u.clock = .muteAfterResubscribe := by
  have hentry : ∀ entry, u.guard.entryOf token = some entry
      ↔ (token, entry) ∈ u.guard.tokens.rows := by
    intro entry
    unfold ResubscribeGuard.entryOf
    rw [Option.map_eq_some_iff]
    constructor
    · rintro ⟨row, hrow, rfl⟩
      obtain ⟨hmem, rfl⟩ := Table.find_eq_some_iff.mp hrow
      exact hmem
    · intro hmem
      exact ⟨(token, entry), Table.find_eq_some_iff.mpr ⟨hmem, rfl⟩, rfl⟩
  simp [GuardUse.muteTokens, ResubscribeGuard.muteTokens, hentry]

theorem mem_muteTokens_run (ops : List GuardOp) :
    token ∈ (run GuardUse.step (.create start deadlineMs) ops).muteTokens
      ↔ SilentPast token start (clampedDeadline deadlineMs) (clockAfter start ops) ops := by
  have hnever := @not_mute_entryAfter token start deadlineMs ops
  rw [mem_muteTokens, clock_run, ← overdue_entryAfter]
  rw [show (run GuardUse.step (.create start deadlineMs) ops).guard.entryOf token
    = entryAfter start deadlineMs token ops from rfl]
  cases hentry : entryAfter start deadlineMs token ops with
  | none => simp
  | some entry =>
    have hphase := hnever entry hentry
    simp [resolve_eq_mute_iff hphase]

/-- The mute tokens come sorted, each once. -/
theorem sorted_muteTokens (u : GuardUse) : u.muteTokens.Pairwise (· < ·) :=
  List.pairwise_map.mpr ((List.pairwise_map.mp u.guard.tokens.sorted).filter _)

/-! ## Ticks behind a reconnect -/

theorem Reconnected.inSet {ops : List GuardOp} (h : Reconnected token ops) : InSet token ops := by
  obtain ⟨front, op, back, rfl, ⟨rfl, hset⟩, hback⟩ := h
  refine Since.append hset fun later hlater => ?_
  rcases List.mem_cons.mp hlater with rfl | hlater
  · simp
  · exact hback later hlater

/-- The tick behind the last reconnect found the token in the set. -/
theorem TickedSince.inSet {ops : List GuardOp} (hticked : TickedSince token ops)
    (h : Reconnected token ops) : TickedInSet token ops := by
  induction ops using List.reverseRecOn with
  | nil => exact absurd h not_since_nil
  | append_singleton ops op ih =>
    have hset := h.inSet
    rw [Reconnected, since_concat] at h
    rw [TickedSince, since_concat] at hticked
    rw [TickedInSet, since_concat]
    rcases hticked with rfl | ⟨hkept, hticked⟩
    · rcases h with ⟨hreconnect, -⟩ | ⟨-, h⟩
      · simp at hreconnect
      · exact .inl ⟨rfl, Reconnected.inSet h⟩
    · rcases h with ⟨hreconnect, -⟩ | ⟨hstays, h⟩
      · exact absurd hreconnect hkept
      · exact .inr ⟨⟨hstays, hkept⟩, ih hticked h⟩

/-- **A token trades exactly when it ticked since the last reconnect behind its subscribe**, at
every moment of a run, if and only if every tick of a token of the set comes behind such a
reconnect. The mute tokens are the silent ones at every moment. -/
theorem tradable_exact_iff (start deadlineMs : Int) (ops : List GuardOp) :
    (∀ front back, ops = front ++ back →
        let u := run GuardUse.step (.create start deadlineMs) front
        (∀ token, u.isTradable token = true
            ↔ InSet token front ∧ Reconnected token front ∧ TickedSince token front)
          ∧ u.muteTokens.Pairwise (· < ·)
          ∧ ∀ token, token ∈ u.muteTokens ↔ SilentPast token start
              (clampedDeadline deadlineMs) (clockAfter start front) front)
      ↔ ∀ front token back, ops = front ++ .recordTick token :: back →
          InSet token front → Reconnected token front := by
  constructor
  · intro h front token back hops hset
    have htradable := (h (front ++ [.recordTick token]) back (by rw [hops]; simp)).1 token
    rw [isTradable_run] at htradable
    have hticked : TickedInSet token (front ++ [.recordTick token]) :=
      since_concat.mpr (.inl ⟨rfl, hset⟩)
    have hreconnected := (htradable.mp hticked).2.1
    rw [Reconnected, since_concat] at hreconnected
    simpa [Reconnected] using hreconnected
  · intro h front back hops
    refine ⟨fun token => ?_, sorted_muteTokens _, fun token => mem_muteTokens_run front⟩
    rw [isTradable_run]
    constructor
    · rintro ⟨front', op, later, rfl, ⟨rfl, hset⟩, hlater⟩
      have hreconnected := h front' token (later ++ back) (by rw [hops]; simp) hset
      have hstill : Reconnected token (front' ++ .recordTick token :: later) := by
        refine Since.append hreconnected fun op hop => ?_
        rcases List.mem_cons.mp hop with rfl | hop
        · simp
        · exact (hlater op hop).1
      exact ⟨hstill.inSet, hstill, front', _, later, rfl, rfl, fun op hop => (hlater op hop).2⟩
    · rintro ⟨-, hreconnected, hticked⟩
      exact hticked.inSet hreconnected

end

/-- Subscribed and ticked, with no reconnect ever: the token trades. -/
theorem tick_before_reconnect :
    (run GuardUse.step (.create 0 1000)
        [.subscribe (ascii "A"), .recordTick (ascii "A")]).isTradable (ascii "A") = true
      ∧ ¬ Reconnected (ascii "A") [.subscribe (ascii "A"), .recordTick (ascii "A")] := by
  refine ⟨by decide, ?_⟩
  rintro ⟨front, op, back, hops, ⟨rfl, -⟩, -⟩
  have hmem : GuardOp.onReconnect ∈ [.subscribe (ascii "A"), .recordTick (ascii "A")] := by
    rw [hops]
    simp
  simp at hmem

end BrokerExec.FeedSub

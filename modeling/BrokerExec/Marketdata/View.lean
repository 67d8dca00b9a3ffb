import BrokerExec.Lib.Since
import BrokerExec.Ports
import Mathlib.Logic.Function.Basic

/-!
# The market-data view (`marketdata/market_data.cpp`)

Ticks, connects and reconnects drive the view; `state_for` classifies a symbol by two clocks. Times
are integer counts of one unit, and a time is an event's own. The entry of a symbol that was never
seen is `none`.

* **`entry_run`** — the entry of a symbol is the first arrival of its newest exchange stamp.
* **`isTradable_run_iff`** — a symbol is tradable while the socket is up and that arrival is
  recent on both clocks; a replayed tick refreshes nothing.
-/

namespace BrokerExec.Marketdata

open BrokerExec.Domain (Price)
open BrokerExec.Errors (makeError)
open BrokerExec.Ports (Alert)

/-! ## The view -/

inductive MarketDataState where
  | unknown
  | live
  | stale
  | delayed
  | disconnected
  deriving DecidableEq

def MarketDataState.toString : MarketDataState → Bytes
  | .unknown => ascii "Unknown"
  | .live => ascii "Live"
  | .stale => ascii "Stale"
  | .delayed => ascii "Delayed"
  | .disconnected => ascii "Disconnected"

inductive ReconnectResult where
  | reconnected
  | transportFailure
  | authFailure
  deriving DecidableEq

structure Tick where
  symbol : Bytes
  ltp : Price
  exchangeTs : Int
  deriving DecidableEq

structure Entry where
  ltp : Price
  exchangeTs : Int
  receivedAt : Int
  deriving DecidableEq

structure View where
  entries : Bytes → Option Entry
  connected : Bool

structure Thresholds where
  staleness : Int
  delay : Int

/-- Both clocks, read together. -/
structure Now where
  steady : Int
  wall : Int

def View.init : View := ⟨fun _ => none, false⟩

def View.store (view : View) (symbol : Bytes) (entry : Entry) : View :=
  { view with entries := Function.update view.entries symbol (some entry) }

def View.onTick (view : View) (t : Tick) (steadyNow : Int) : View :=
  match view.entries t.symbol with
  | some entry =>
    -- a duplicate or an older tick never regresses the view
    if t.exchangeTs ≤ entry.exchangeTs then view
    else view.store t.symbol ⟨t.ltp, t.exchangeTs, steadyNow⟩
  | none => view.store t.symbol ⟨t.ltp, t.exchangeTs, steadyNow⟩

def View.onConnect (view : View) : View := { view with connected := true }

def View.onDisconnect (view : View) : View := { view with connected := false }

def View.stateFor (view : View) (thresholds : Thresholds) (now : Now) (symbol : Bytes) :
    MarketDataState :=
  if view.connected = false then .disconnected
  else
    match view.entries symbol with
    | none => .unknown
    | some entry =>
      if now.steady - entry.receivedAt > thresholds.staleness then .stale
      else if now.wall - entry.exchangeTs > thresholds.delay then .delayed
      else .live

def View.isTradable (view : View) (thresholds : Thresholds) (now : Now) (symbol : Bytes) : Bool :=
  view.stateFor thresholds now symbol = .live

def View.requireTradable (view : View) (thresholds : Thresholds) (now : Now) (symbol : Bytes) :
    Result Unit :=
  let state := view.stateFor thresholds now symbol
  if state = .live then .ok ()
  else .error (makeError .dataStale
    (ascii "market data not tradable for " ++ symbol ++ ascii ": " ++ state.toString))

/-- `ltp`: for display, tradable or not. -/
def View.lastPrice (view : View) (symbol : Bytes) : Option Price :=
  (view.entries symbol).map Entry.ltp

def reconnectAlert : Alert :=
  .plain .error (ascii ("market-data reconnect failed on auth; routing to session "
    ++ "re-establishment (no socket retry)"))

/-- What the caller gets, the view, and what the sink is sent. -/
def View.handleReconnect (view : View) (r : ReconnectResult) : Result Unit × View × List Alert :=
  match r with
  | .reconnected => (.ok (), view.onConnect, [])
  | .transportFailure => (.ok (), view.onDisconnect, [])
  | .authFailure =>
    (.error (makeError .sessionExpired
      (ascii "market-data WS auth failed; re-establish session")), view.onDisconnect,
      [reconnectAlert])

/-! ## Runs -/

/-- What the transport feeds in, a tick with the steady time of its arrival. -/
inductive Event where
  | tick (t : Tick) (steadyNow : Int)
  | connect
  | disconnect
  | reconnect (r : ReconnectResult)

def View.step (view : View) : Event → View
  | .tick t steadyNow => view.onTick t steadyNow
  | .connect => view.onConnect
  | .disconnect => view.onDisconnect
  | .reconnect r => (view.handleReconnect r).2.1

def Event.connects : Event → Bool
  | .connect | .reconnect .reconnected => true
  | _ => false

def Event.disconnects : Event → Bool
  | .disconnect | .reconnect .transportFailure | .reconnect .authFailure => true
  | _ => false

/-- A tick of the symbol, with its stamp below the bound. -/
def Below (symbol : Bytes) (bound : Int → Prop) (e : Event) : Prop :=
  ∀ t steadyNow, e = .tick t steadyNow → t.symbol = symbol → bound t.exchangeTs

/-- The first arrival of the newest stamp of a symbol. -/
def Newest (symbol : Bytes) (entry : Entry) (events : List Event) : Prop :=
  ∃ front t back, events = front ++ .tick t entry.receivedAt :: back ∧ t.symbol = symbol
    ∧ t.ltp = entry.ltp ∧ t.exchangeTs = entry.exchangeTs
    ∧ (∀ e ∈ front, Below symbol (· < entry.exchangeTs) e)
    ∧ ∀ e ∈ back, Below symbol (· ≤ entry.exchangeTs) e

section Run

variable {symbol : Bytes} {entry : Entry} {events : List Event}

theorem below_of_not_tick {bound : Int → Prop} {e : Event}
    (h : ∀ t steadyNow, e = .tick t steadyNow → t.symbol ≠ symbol) : Below symbol bound e :=
  fun t steadyNow he hsymbol => absurd hsymbol (h t steadyNow he)

/-- One more event that is no newer. -/
theorem Newest.append (h : Newest symbol entry events) {e : Event}
    (he : Below symbol (· ≤ entry.exchangeTs) e) : Newest symbol entry (events ++ [e]) := by
  obtain ⟨front, t, back, rfl, hsymbol, hltp, hts, hfront, hback⟩ := h
  refine ⟨front, t, back ++ [e], by simp, hsymbol, hltp, hts, hfront, ?_⟩
  intro later hlater
  rcases List.mem_append.mp hlater with hlater | hlater
  · exact hback later hlater
  · rw [List.mem_singleton.mp hlater]
    exact he

/-- Every tick of a symbol is no newer than its newest one. -/
theorem Newest.below (h : Newest symbol entry events) :
    ∀ e ∈ events, Below symbol (· ≤ entry.exchangeTs) e := by
  obtain ⟨front, t, back, rfl, hsymbol, hltp, hts, hfront, hback⟩ := h
  intro e he t' steadyNow htick hsymbol'
  rcases List.mem_append.mp he with he | he
  · exact (hfront e he t' steadyNow htick hsymbol').le
  · rcases List.mem_cons.mp he with rfl | he
    · cases htick
      exact hts.le
    · exact hback e he t' steadyNow htick hsymbol'

/-- A tick that is newer than every one before it. -/
theorem newest_concat {t : Tick} {steadyNow : Int}
    (h : ∀ e ∈ events, Below t.symbol (· < t.exchangeTs) e) :
    Newest t.symbol ⟨t.ltp, t.exchangeTs, steadyNow⟩ (events ++ [.tick t steadyNow]) :=
  ⟨events, t, [], rfl, rfl, rfl, rfl, h, by simp⟩

/-- What the run makes of one symbol. -/
def Holds (symbol : Bytes) (events : List Event) : Option Entry → Prop
  | none => ∀ e ∈ events, Below symbol (fun _ => False) e
  | some entry => Newest symbol entry events

/-- A tick that the view does not drop. -/
theorem entries_store (view : View) (t : Tick) (steadyNow : Int) :
    (view.store t.symbol ⟨t.ltp, t.exchangeTs, steadyNow⟩).entries t.symbol
      = some ⟨t.ltp, t.exchangeTs, steadyNow⟩ :=
  Function.update_self _ _ _

/-- An event that is no tick of the symbol says nothing of it. -/
theorem Holds.other {found : Option Entry} (ih : Holds symbol events found) {e : Event}
    (he : ∀ t steadyNow, e = .tick t steadyNow → t.symbol ≠ symbol) :
    Holds symbol (events ++ [e]) found := by
  cases found with
  | none =>
    intro e' he'
    rcases List.mem_append.mp he' with he' | he'
    · exact ih e' he'
    · rw [List.mem_singleton.mp he']
      exact below_of_not_tick he
  | some entry => exact Newest.append ih (below_of_not_tick he)

theorem onTick_other (view : View) {t : Tick} (hother : t.symbol ≠ symbol) (steadyNow : Int) :
    (view.onTick t steadyNow).entries symbol = view.entries symbol := by
  have hstore (entry : Entry) : (view.store t.symbol entry).entries symbol
      = view.entries symbol :=
    Function.update_of_ne (fun h => hother h.symm) _ _
  unfold View.onTick
  split
  · split_ifs
    · rfl
    · exact hstore _
  · exact hstore _

/-- A tick of the symbol is kept where it is newer than all before it, and dropped elsewhere. -/
theorem holds_onTick {view : View} {t : Tick} (ih : Holds t.symbol events (view.entries t.symbol))
    (steadyNow : Int) :
    Holds t.symbol (events ++ [.tick t steadyNow])
      ((view.onTick t steadyNow).entries t.symbol) := by
  unfold View.onTick
  cases hentry : view.entries t.symbol with
  | none =>
    rw [hentry] at ih
    simp only [entries_store]
    refine newest_concat fun e he t' steadyNow' htick hsame => ?_
    exact (ih e he t' steadyNow' htick hsame).elim
  | some entry =>
    rw [hentry] at ih
    by_cases holder : t.exchangeTs ≤ entry.exchangeTs
    · simp only [holder, if_true, hentry]
      refine Newest.append ih ?_
      rintro t' steadyNow' ⟨⟩ -
      exact holder
    · simp only [holder, if_false, entries_store]
      -- all that came before is no newer than the entry, which this one is newer than
      refine newest_concat fun e he t' steadyNow' htick hsame => ?_
      exact (ih.below e he t' steadyNow' htick hsame).trans_lt (not_le.mp holder)

theorem holds_step {view : View} (ih : Holds symbol events (view.entries symbol)) (e : Event) :
    Holds symbol (events ++ [e]) ((view.step e).entries symbol) := by
  cases e with
  | tick t steadyNow =>
    by_cases hsymbol : t.symbol = symbol
    · subst hsymbol
      exact holds_onTick ih steadyNow
    · show Holds symbol _ ((view.onTick t steadyNow).entries symbol)
      rw [onTick_other view hsymbol]
      refine ih.other fun t' steadyNow' htick => ?_
      cases htick
      exact hsymbol
  | connect => exact ih.other fun _ _ htick => by cases htick
  | disconnect => exact ih.other fun _ _ htick => by cases htick
  | reconnect r =>
    -- whatever the broker says to it, the entries stay; only what may be traded changes
    cases r <;> exact ih.other fun _ _ htick => by cases htick

theorem holds_run (symbol : Bytes) (events : List Event) :
    Holds symbol events ((run View.step .init events).entries symbol) := by
  induction events using List.reverseRecOn with
  | nil => exact fun e he => absurd he (by simp)
  | append_singleton events e ih =>
    rw [run_concat]
    exact holds_step ih e

/-- A newest entry is no newer than any other. -/
theorem Newest.le {entry' : Entry} (h : Newest symbol entry events)
    (h' : Newest symbol entry' events) : entry.exchangeTs ≤ entry'.exchangeTs := by
  obtain ⟨front, t, back, hsplit, hsymbol, -, hts, -, -⟩ := h
  rw [← hts]
  exact h'.below (.tick t entry.receivedAt) (by simp [hsplit]) t _ rfl hsymbol

/-- There is one newest entry. -/
theorem Newest.unique {entry' : Entry} (h : Newest symbol entry events)
    (h' : Newest symbol entry' events) : entry = entry' := by
  have hsame : entry.exchangeTs = entry'.exchangeTs := le_antisymm (h.le h') (h'.le h)
  obtain ⟨front, t, back, rfl, hsymbol, hltp, hts, hfront, -⟩ := h
  obtain ⟨front', t', back', hsplit, hsymbol', hltp', hts', hfront', -⟩ := h'
  -- an arrival in front of the other has an older stamp
  have hnot : ∀ rest, front' ≠ front ++ .tick t entry.receivedAt :: rest := by
    rintro rest rfl
    have := hfront' (.tick t entry.receivedAt) (by simp) t _ rfl hsymbol
    omega
  have hnot' : ∀ rest, front ≠ front' ++ .tick t' entry'.receivedAt :: rest := by
    rintro rest rfl
    have := hfront (.tick t' entry'.receivedAt) (by simp) t' _ rfl hsymbol'
    omega
  have hevent : Event.tick t entry.receivedAt = .tick t' entry'.receivedAt := by
    rcases List.append_eq_append_iff.mp hsplit with ⟨between, hf, hb⟩ | ⟨between, hf, hb⟩
    · cases between with
      | nil => exact (List.cons.inj hb).1
      | cons e rest =>
        obtain ⟨rfl, -⟩ := List.cons.inj hb
        exact absurd hf (hnot rest)
    · cases between with
      | nil => exact (List.cons.inj hb).1.symm
      | cons e rest =>
        obtain ⟨rfl, -⟩ := List.cons.inj hb
        exact absurd hf (hnot' rest)
  obtain ⟨rfl, hreceived⟩ := Event.tick.inj hevent
  cases entry
  cases entry'
  simp_all

/-- The entry of a symbol is the first arrival of its newest stamp. -/
theorem entry_run :
    (run View.step .init events).entries symbol = some entry ↔ Newest symbol entry events := by
  have hholds := holds_run symbol events
  constructor
  · intro h
    rw [h] at hholds
    exact hholds
  · intro h
    cases hentry : (run View.step .init events).entries symbol with
    | none =>
      rw [hentry] at hholds
      obtain ⟨front, t, back, rfl, hsymbol, -⟩ := h
      exact (hholds (.tick t entry.receivedAt) (by simp) t _ rfl hsymbol).elim
    | some entry' =>
      rw [hentry] at hholds
      rw [Newest.unique hholds h]

/-- The socket is up since an event that brought it up. -/
theorem connected_run :
    (run View.step .init events).connected = true
      ↔ Since (fun _ e => e.connects = true) (fun e => e.disconnects = false) events := by
  induction events using List.reverseRecOn with
  | nil => exact iff_of_false nofun not_since_nil
  | append_singleton events e ih =>
    rw [run_concat, since_concat, ← ih]
    generalize run View.step .init events = view
    cases e with
    | tick t steadyNow =>
      have : (view.onTick t steadyNow).connected = view.connected := by
        unfold View.onTick
        split
        · split_ifs <;> rfl
        · rfl
      simp [View.step, this, Event.connects, Event.disconnects]
    | connect => simp [View.step, View.onConnect, Event.connects]
    | disconnect => simp [View.step, View.onDisconnect, Event.connects, Event.disconnects]
    | reconnect r =>
      cases r <;>
        simp [View.step, View.handleReconnect, View.onConnect, View.onDisconnect, Event.connects,
          Event.disconnects]

end Run

theorem stateFor_eq_live_iff {view : View} {thresholds : Thresholds} {now : Now} {symbol : Bytes} :
    view.stateFor thresholds now symbol = .live
      ↔ view.connected = true ∧ ∃ entry, view.entries symbol = some entry
        ∧ now.steady - entry.receivedAt ≤ thresholds.staleness
        ∧ now.wall - entry.exchangeTs ≤ thresholds.delay := by
  unfold View.stateFor
  cases view.connected with
  | false => simp
  | true =>
    cases view.entries symbol with
    | none => simp
    | some entry =>
      simp only [Bool.true_eq_false, if_false, true_and, Option.some.injEq, exists_eq_left']
      split_ifs <;> simp <;> omega

end BrokerExec.Marketdata

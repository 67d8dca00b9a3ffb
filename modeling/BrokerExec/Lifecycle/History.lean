import BrokerExec.Lib.Run
import BrokerExec.Lib.Table
import BrokerExec.Lifecycle

/-!
# The order state machine over whole runs

One engine serves orders with distinct client refs; a run is a list of `apply` calls.

* **`lawful_iff`** — terminal orders stay, keys only grow, states follow the table, refused
  views change nothing and a repeated view is idle, exactly when no repeated `Sent` view finds
  its order `PendingSend`: the first of the two is a step forward, the second then means "still
  working".
* **`fill_kept`** — fed with cumulative fills in key order, a working order holds the fill of
  the last view.
-/

namespace BrokerExec.Lifecycle

open BrokerExec.Domain (Order OrderState Quantity)

/-! ## The canonical state -/

theorem canonicalObserved_of_ne {view : BrokerView} (h : view.observedState ≠ .sent)
    (source : OrderState) : canonicalObserved source view = view.observedState :=
  if_pos (.inl h)

theorem canonicalObserved_forward {source : OrderState} (h : sentMeansStillWorking source = false)
    (view : BrokerView) : canonicalObserved source view = view.observedState :=
  if_pos (.inr h)

theorem canonicalObserved_working {source : OrderState} {view : BrokerView}
    (h : view.observedState = .sent) (hworks : sentMeansStillWorking source = true) :
    canonicalObserved source view
      = if 0 < view.filledQty then .partiallyFilled else .acknowledged := by
  rw [canonicalObserved, if_neg]
  simp [h, hworks]

/-! ## Applying one view twice -/

theorem record_record (engine : LifecycleEngine) (view : BrokerView) :
    (engine.record view).record view = engine.record view := by
  simp [LifecycleEngine.record]

theorem record_not_stale (engine : LifecycleEngine) (view : BrokerView) :
    (engine.record view).isStale view = false := by
  simp [LifecycleEngine.isStale, LifecycleEngine.record]

theorem absorb_absorb (order : Order) (view : BrokerView) (observed : OrderState) :
    absorb (absorb order view observed) view observed = absorb order view observed := by
  by_cases hid : view.brokerOrderId = []
  · simp [absorb, hid]
  · simp [absorb, hid]

/-- The step forward from `PendingSend` is the one legal transition whose canonical state the
same view reads differently afterwards. -/
theorem canonicalObserved_again {source : OrderState} {view : BrokerView}
    (hvalid : isValidTransition source (canonicalObserved source view) = true)
    (hforward : ¬ (source = .pendingSend ∧ view.observedState = .sent)) :
    canonicalObserved (canonicalObserved source view) view = canonicalObserved source view := by
  by_cases hsent : view.observedState = .sent
  · -- a `Sent` view is spelled by its fill from a working state, and stays `Sent` from the others
    cases hworking : sentMeansStillWorking source with
    | true =>
      rw [canonicalObserved_working hsent hworking]
      split_ifs with hfill
      · rw [canonicalObserved_working hsent rfl, if_pos hfill]
      · rw [canonicalObserved_working hsent rfl, if_neg hfill]
    | false =>
      rw [canonicalObserved_forward hworking, hsent] at hvalid
      have honly : ∀ s : OrderState, sentMeansStillWorking s = false →
          isValidTransition s .sent = true → s = .pendingSend := by
        intro s
        cases s <;> decide
      exact absurd ⟨honly source hworking hvalid, hsent⟩ hforward
  · rw [canonicalObserved_of_ne hsent, canonicalObserved_of_ne hsent]

section

variable {engine : LifecycleEngine} {order : Order} {view : BrokerView}

/-- A `Sent` view of a `Sent` order says that it works, and takes it on. -/
theorem apply_sent_moves (hstate : order.state = .sent) (hview : view.observedState = .sent)
    (hfresh : engine.isStale view = false) : (engine.apply order view).2.1.state ≠ .sent := by
  have hmoved : canonicalObserved .sent view ≠ .sent
      ∧ isValidTransition .sent (canonicalObserved .sent view) = true := by
    rw [canonicalObserved_working hview rfl]
    split_ifs
    · decide
    · decide
  have htaken : ¬ Refused engine order view := by
    rw [not_refused_iff, hstate]
    exact ⟨rfl, hfresh, hmoved.2⟩
  rw [apply_absorbed htaken]
  show canonicalObserved order.state view ≠ .sent
  rw [hstate]
  exact hmoved.1

end

/-- **When a repeated view is idle.** -/
theorem apply_twice_iff (engine : LifecycleEngine) (order : Order) (view : BrokerView) :
    ((engine.apply order view).2.2.apply (engine.apply order view).2.1 view).2
        = (engine.apply order view).2 ↔
      ¬ (order.state = .pendingSend ∧ view.observedState = .sent
        ∧ engine.isStale view = false) := by
  by_cases hrefused : Refused engine order view
  · -- what was refused once is refused again
    have hsame := apply_refused hrefused
    refine iff_of_true (by rw [hsame]; exact hsame) ?_
    rintro ⟨hpending, hsent, hfresh⟩
    refine not_refused_iff.mpr ⟨?_, hfresh, ?_⟩ hrefused
    · rw [hpending]
      rfl
    · rw [hpending, canonicalObserved_forward rfl, hsent]
      rfl
  · obtain ⟨-, hfresh, hlegal⟩ := not_refused_iff.mp hrefused
    rw [apply_absorbed hrefused]
    by_cases hforward : order.state = .pendingSend ∧ view.observedState = .sent
    · -- the order is `Sent` now, and the view says that it works
      refine iff_of_false (fun hsame => ?_) (not_not_intro ⟨hforward.1, hforward.2, hfresh⟩)
      have hsent : (absorb order view (canonicalObserved order.state view)).state = .sent := by
        show canonicalObserved order.state view = .sent
        rw [hforward.1, canonicalObserved_forward rfl, hforward.2]
      have hmoves := apply_sent_moves hsent hforward.2 (record_not_stale engine view)
      rw [hsame] at hmoves
      exact hmoves hsent
    · refine iff_of_true ?_ fun hpending => hforward ⟨hpending.1, hpending.2.1⟩
      by_cases hagain : Refused (engine.record view)
          (absorb order view (canonicalObserved order.state view)) view
      · exact apply_refused hagain
      · rw [apply_absorbed hagain]
        show (absorb (absorb order view (canonicalObserved order.state view)) view
          (canonicalObserved (canonicalObserved order.state view) view), _) = _
        rw [canonicalObserved_again hlegal hforward, absorb_absorb, record_record]

/-! ## Many orders on one engine -/

/-- The orders an engine serves, at most one for each client ref. -/
structure Serving where
  orders : Table Bytes Order fun order => order.intent.clientRef
  engine : LifecycleEngine

/-- One `apply` call: a view for the order with this ref. -/
structure Feed where
  clientRef : Bytes
  view : BrokerView
  deriving DecidableEq

def Serving.feed (st : Serving) (f : Feed) : Serving :=
  match st.orders.find f.clientRef with
  | none => st
  | some order =>
    let (_, order', engine) := st.engine.apply order f.view
    ⟨st.orders.upsert order', engine⟩

/-- The state behind these calls. -/
def Serving.after (st : Serving) (feeds : List Feed) : Serving := run Serving.feed st feeds

theorem feed_engine {st : Serving} {f : Feed} {order : Order}
    (h : st.orders.find f.clientRef = some order) :
    (st.feed f).engine = (st.engine.apply order f.view).2.2 := by
  rw [Serving.feed, h]

/-- A call changes the order it is for, and no other. -/
theorem feed_find (st : Serving) (f : Feed) (ref : Bytes) :
    (st.feed f).orders.find ref =
      if ref = f.clientRef then
        (st.orders.find ref).map fun order => (st.engine.apply order f.view).2.1
      else st.orders.find ref := by
  cases hfind : st.orders.find f.clientRef with
  | none =>
    rw [Serving.feed, hfind]
    split_ifs with href
    · rw [href, hfind]
      rfl
    · rfl
  | some order =>
    have hkey : (st.engine.apply order f.view).2.1.intent.clientRef = f.clientRef := by
      rw [apply_intent]
      exact (Table.mem_of_find hfind).2
    rw [Serving.feed, hfind]
    dsimp only
    rw [Table.find_upsert, hkey]
    split_ifs with href
    · rw [href, hfind]
      rfl
    · rfl

/-- Key `ref` of the engine has not gone down. -/
def KeyGrows (ref : Bytes) (before after : LifecycleEngine) : Prop :=
  ∀ key, before.lastKey ref = some key → ∃ key', after.lastKey ref = some key' ∧ key ≤ key'

theorem KeyGrows.refl (ref : Bytes) (engine : LifecycleEngine) : KeyGrows ref engine engine :=
  fun key hkey => ⟨key, hkey, Int64.le_refl key⟩

theorem KeyGrows.trans {ref : Bytes} {a b c : LifecycleEngine} (hab : KeyGrows ref a b)
    (hbc : KeyGrows ref b c) : KeyGrows ref a c := by
  intro key hkey
  obtain ⟨key', hkey', hle⟩ := hab key hkey
  obtain ⟨key'', hkey'', hle'⟩ := hbc key' hkey'
  exact ⟨key'', hkey'', Int64.le_trans hle hle'⟩

theorem apply_keyGrows (engine : LifecycleEngine) (order : Order) (view : BrokerView)
    (ref : Bytes) : KeyGrows ref engine (engine.apply order view).2.2 := by
  by_cases hrefused : Refused engine order view
  · rw [apply_refused hrefused]
    exact .refl ref engine
  · rw [apply_absorbed hrefused]
    have hfresh := (not_refused_iff.mp hrefused).2.1
    intro key hkey
    by_cases href : ref = view.clientRef
    · subst href
      refine ⟨view.orderingKey, by simp [LifecycleEngine.record], ?_⟩
      simp only [LifecycleEngine.isStale, hkey, decide_eq_false_iff_not] at hfresh
      exact Int64.not_lt.mp hfresh
    · exact ⟨key, by simpa [LifecycleEngine.record, href] using hkey, Int64.le_refl key⟩

/-- A state that changes follows the table to the canonical state of the view. -/
theorem apply_edge {engine : LifecycleEngine} {order : Order} {view : BrokerView}
    (h : order.state ≠ (engine.apply order view).2.1.state) :
    (engine.apply order view).2.1.state = canonicalObserved order.state view
      ∧ tableAllows order.state (canonicalObserved order.state view) = true := by
  by_cases hrefused : Refused engine order view
  · rw [apply_refused hrefused] at h
    exact absurd rfl h
  · rw [apply_absorbed hrefused] at h ⊢
    have hmoves : order.state ≠ canonicalObserved order.state view := h
    have hlegal := (not_refused_iff.mp hrefused).2.2
    refine ⟨rfl, ?_⟩
    simpa [isValidTransition, hmoves] using hlegal

/-- A view that is not refused brings its fill. -/
theorem apply_filledQty (engine : LifecycleEngine) (order : Order) (view : BrokerView) :
    (engine.apply order view).2.1.filledQty
      = if Refused engine order view then order.filledQty else view.filledQty := by
  split_ifs with hrefused
  · rw [apply_refused hrefused]
  · rw [apply_absorbed hrefused]
    rfl

/-! ## The laws of a run -/

/-- What the engine promises about a run of calls. -/
structure Lawful (st : Serving) (feeds : List Feed) : Prop where
  /-- A terminal order is never changed again. -/
  absorbs : ∀ front back ref order, feeds = front ++ back →
    (st.after front).orders.find ref = some order → isTerminal order.state = true →
    (st.after feeds).orders.find ref = some order
  /-- No last key goes down. -/
  keys : ∀ front back ref, feeds = front ++ back →
    KeyGrows ref (st.after front).engine (st.after feeds).engine
  /-- Every state change is an edge of the table. -/
  edges : ∀ front f back ref before after, feeds = front ++ f :: back →
    (st.after front).orders.find ref = some before →
    (st.after (front ++ [f])).orders.find ref = some after → before.state ≠ after.state →
    after.state = canonicalObserved before.state f.view
      ∧ tableAllows before.state after.state = true
  /-- A refused or dropped view changes nothing. -/
  refused : ∀ front f back order, feeds = front ++ f :: back →
    (st.after front).orders.find f.clientRef = some order →
    Refused (st.after front).engine order f.view →
    (∀ ref, (st.after (front ++ [f])).orders.find ref = (st.after front).orders.find ref)
      ∧ (st.after (front ++ [f])).engine = (st.after front).engine
  /-- A view applied twice in a row is applied once. -/
  repeated : ∀ front f back, feeds = front ++ f :: f :: back →
    (∀ ref, (st.after (front ++ [f, f])).orders.find ref
        = (st.after (front ++ [f])).orders.find ref)
      ∧ (st.after (front ++ [f, f])).engine = (st.after (front ++ [f])).engine

/-- A current `Sent` view comes twice in a row, and first to an order that is `PendingSend`. -/
def SentTwice (st : Serving) (feeds : List Feed) : Prop :=
  ∃ front f back order, feeds = front ++ f :: f :: back
    ∧ (st.after front).orders.find f.clientRef = some order ∧ order.state = .pendingSend
    ∧ f.view.observedState = .sent ∧ (st.after front).engine.isStale f.view = false

theorem after_concat (st : Serving) (front : List Feed) (f : Feed) :
    st.after (front ++ [f]) = (st.after front).feed f :=
  run_concat st front f

/-- One call leaves a terminal order as it is. -/
theorem feed_terminal (st : Serving) (f : Feed) {ref : Bytes} {order : Order}
    (hfind : st.orders.find ref = some order) (hterminal : isTerminal order.state = true) :
    (st.feed f).orders.find ref = some order := by
  rw [feed_find, hfind]
  split_ifs
  · rw [Option.map_some, apply_terminal st.engine f.view hterminal]
  · rfl

theorem after_terminal (st : Serving) (feeds : List Feed) {ref : Bytes} {order : Order}
    (hfind : st.orders.find ref = some order) (hterminal : isTerminal order.state = true) :
    (st.after feeds).orders.find ref = some order :=
  run_keeps (P := fun _ _ => True) (fun s f h _ => feed_terminal s f h hterminal) hfind
    fun _ _ _ _ => trivial

theorem feed_keyGrows (st : Serving) (f : Feed) (ref : Bytes) :
    KeyGrows ref st.engine (st.feed f).engine := by
  cases hfind : st.orders.find f.clientRef with
  | none =>
    rw [Serving.feed, hfind]
    exact .refl ref st.engine
  | some order =>
    rw [feed_engine hfind]
    exact apply_keyGrows st.engine order f.view ref

theorem after_keyGrows (st : Serving) (feeds : List Feed) (ref : Bytes) :
    KeyGrows ref st.engine (st.after feeds).engine :=
  run_trans (R := fun a b => KeyGrows ref a.engine b.engine) (fun s => .refl ref s.engine)
    (fun _ _ _ => .trans) (fun s f => feed_keyGrows s f ref) st feeds

theorem feed_refused {st : Serving} {f : Feed} {order : Order}
    (hfind : st.orders.find f.clientRef = some order) (h : Refused st.engine order f.view) :
    (∀ ref, (st.feed f).orders.find ref = st.orders.find ref)
      ∧ (st.feed f).engine = st.engine := by
  have happly := apply_refused h
  refine ⟨fun ref => ?_, by rw [feed_engine hfind, happly]⟩
  rw [feed_find]
  split_ifs with href
  · rw [href, hfind, Option.map_some, happly]
  · rfl

/-- Whether a repeated call is idle is a matter of its own order. -/
theorem feed_twice_iff (st : Serving) (f : Feed) :
    ((∀ ref, ((st.feed f).feed f).orders.find ref = (st.feed f).orders.find ref)
        ∧ ((st.feed f).feed f).engine = (st.feed f).engine) ↔
      ¬ ∃ order, st.orders.find f.clientRef = some order ∧ order.state = .pendingSend
        ∧ f.view.observedState = .sent ∧ st.engine.isStale f.view = false := by
  cases hfind : st.orders.find f.clientRef with
  | none =>
    -- the engine keeps no order of that ref
    have hidle : st.feed f = st := by rw [Serving.feed, hfind]
    rw [hidle, hidle]
    simp
  | some order =>
    have hfirst : (st.feed f).orders.find f.clientRef
        = some (st.engine.apply order f.view).2.1 := by
      rw [feed_find, if_pos rfl, hfind]
      rfl
    have hsecond : ((st.feed f).feed f).orders.find f.clientRef
        = some ((st.engine.apply order f.view).2.2.apply
            (st.engine.apply order f.view).2.1 f.view).2.1 := by
      rw [feed_find, if_pos rfl, hfirst, feed_engine hfind]
      rfl
    -- both ask the one order, since no other is touched
    have hidle : ((∀ ref, ((st.feed f).feed f).orders.find ref = (st.feed f).orders.find ref)
        ∧ ((st.feed f).feed f).engine = (st.feed f).engine) ↔
        ((st.engine.apply order f.view).2.2.apply (st.engine.apply order f.view).2.1 f.view).2
          = (st.engine.apply order f.view).2 := by
      rw [feed_engine hfirst, feed_engine hfind]
      constructor
      · rintro ⟨hrows, hengine⟩
        refine Prod.ext ?_ hengine
        have hrow := hrows f.clientRef
        rw [hfirst, hsecond] at hrow
        exact Option.some.inj hrow
      · intro h
        refine ⟨fun ref => ?_, by rw [h]⟩
        by_cases href : ref = f.clientRef
        · rw [href, hfirst, hsecond, h]
        · rw [feed_find, if_neg href]
    rw [hidle, apply_twice_iff]
    simp

/-- **When a run of calls is lawful**: exactly when no `Sent` view is repeated on an order
that is `PendingSend`. -/
theorem lawful_iff (st : Serving) (feeds : List Feed) :
    Lawful st feeds ↔ ¬ SentTwice st feeds := by
  have htwice : ∀ front f, st.after (front ++ [f, f]) = ((st.after front).feed f).feed f := by
    intro front f
    exact run_append st front [f, f]
  constructor
  · rintro h ⟨front, f, back, order, hsplit, hrest⟩
    have hidle := h.repeated front f back hsplit
    rw [htwice, after_concat, feed_twice_iff] at hidle
    exact hidle ⟨order, hrest⟩
  · intro h
    refine ⟨?_, ?_, ?_, ?_, ?_⟩
    · intro front back ref order hsplit hfind hterminal
      rw [hsplit, Serving.after, run_append]
      exact after_terminal _ back hfind hterminal
    · intro front back ref hsplit
      rw [hsplit, Serving.after, Serving.after, run_append]
      exact after_keyGrows _ back ref
    · intro front f back ref before after hsplit hbefore hafter hmoves
      rw [after_concat, feed_find, hbefore] at hafter
      split_ifs at hafter with href
      · obtain rfl := Option.some.inj hafter
        obtain ⟨hstate, htable⟩ := apply_edge hmoves
        exact ⟨hstate, by rw [hstate]; exact htable⟩
      · obtain rfl := Option.some.inj hafter
        exact absurd rfl hmoves
    · intro front f back order hsplit hfind hrefused
      rw [after_concat]
      exact feed_refused hfind hrefused
    · intro front f back hsplit
      rw [htwice, after_concat, feed_twice_iff]
      rintro ⟨order, hrest⟩
      exact h ⟨front, f, back, order, hsplit, hrest⟩

/-! An order about to be sent, and the broker's view that it is there. -/

def pendingOrder : Order :=
  ⟨⟨ascii "s-1", ascii "NIFTY", .buy, 10, 100, none, .limit, .intraday, ascii "s"⟩,
    .pendingSend, [], 0, 0⟩

def sentView : Feed := ⟨ascii "s-1", ⟨ascii "s-1", ascii "B1", .sent, 0, 0, 5⟩⟩

/-- **One view, two steps**: the second application moves the order on. -/
theorem repeated_view_moves :
    ¬ Lawful ⟨Table.empty.upsert pendingOrder, .init⟩ [sentView, sentView] := by
  intro h
  have hidle := (h.repeated [] sentView [] rfl).1 (ascii "s-1")
  have hstates : ((Serving.after ⟨Table.empty.upsert pendingOrder, .init⟩
      [sentView, sentView]).orders.find (ascii "s-1")).map (·.state) = some .acknowledged
      ∧ ((Serving.after ⟨Table.empty.upsert pendingOrder, .init⟩
      [sentView]).orders.find (ascii "s-1")).map (·.state) = some .sent := by decide
  have hsame := congrArg (Option.map (·.state)) hidle
  rw [List.nil_append, List.nil_append, hstates.1, hstates.2] at hsame
  cases hsame

/-! ## Cumulative fills -/

/-- A state and a fill as the adapters publish them for a row they could read. -/
inductive Published : OrderState → Quantity → Prop where
  | working (fill : Quantity) : Published .sent fill
  | acknowledged : Published .acknowledged 0
  | partiallyFilled {fill : Quantity} (h : 0 ≤ fill) : Published .partiallyFilled fill
  | terminal {state : OrderState} (h : isTerminal state = true) (fill : Quantity) :
      Published state fill

theorem Published.cases {state : OrderState} {fill : Quantity} (h : Published state fill) :
    state = .sent ∨ state = .acknowledged ∧ fill = 0 ∨ state = .partiallyFilled ∧ 0 ≤ fill
      ∨ isTerminal state = true := by
  cases h with
  | working => exact .inl rfl
  | acknowledged => exact .inr (.inl ⟨rfl, rfl⟩)
  | partiallyFilled h => exact .inr (.inr (.inl ⟨rfl, h⟩))
  | terminal h => exact .inr (.inr (.inr h))

/-- One view applied to one order. -/
def applyView (st : Order × LifecycleEngine) (view : BrokerView) : Order × LifecycleEngine :=
  (st.2.apply st.1 view).2

/-- The order is sent, working or done; the views to come are not older than the engine's key,
and a partial fill does not exceed theirs. -/
structure Fed (st : Order × LifecycleEngine) (views : List BrokerView) : Prop where
  state : st.1.state = .sent ∨ st.1.state = .acknowledged ∨ st.1.state = .partiallyFilled
    ∨ isTerminal st.1.state = true
  fills : st.1.state = .partiallyFilled →
    0 ≤ st.1.filledQty ∧ ∀ view ∈ views, st.1.filledQty ≤ view.filledQty
  fresh : ∀ view ∈ views, st.2.isStale view = false

theorem isStale_record {engine : LifecycleEngine} {view later : BrokerView}
    (href : later.clientRef = view.clientRef) (hkey : view.orderingKey ≤ later.orderingKey) :
    (engine.record view).isStale later = false := by
  simp only [LifecycleEngine.isStale, LifecycleEngine.record, href, Function.update_self,
    decide_eq_false_iff_not]
  exact Int64.not_lt.mpr hkey

/-- From a working state a published view is legal, but for one that would take a partial fill
back to an acknowledgement. -/
theorem published_legal {source : OrderState} {view : BrokerView}
    (hsource : source = .sent ∨ source = .acknowledged ∨ source = .partiallyFilled)
    (hview : Published view.observedState view.filledQty) :
    (isValidTransition source (canonicalObserved source view) = true
        ∧ (canonicalObserved source view = .acknowledged
          ∨ canonicalObserved source view = .partiallyFilled ∧ 0 ≤ view.filledQty
          ∨ isTerminal (canonicalObserved source view) = true))
      ∨ source = .partiallyFilled ∧ view.filledQty ≤ 0
        ∧ isValidTransition source (canonicalObserved source view) = false := by
  have hworks : sentMeansStillWorking source = true := by
    rcases hsource with rfl | rfl | rfl <;> rfl
  have hpartly : isValidTransition source .partiallyFilled = true := by
    rcases hsource with rfl | rfl | rfl <;> rfl
  have hback : isValidTransition source .acknowledged = true
      ∨ source = .partiallyFilled ∧ isValidTransition source .acknowledged = false := by
    rcases hsource with rfl | rfl | rfl <;> decide
  -- an acknowledged row, in either spelling, has nothing filled
  have hacknowledged : canonicalObserved source view = .acknowledged → view.filledQty ≤ 0 →
      (isValidTransition source (canonicalObserved source view) = true
        ∧ (canonicalObserved source view = .acknowledged
          ∨ canonicalObserved source view = .partiallyFilled ∧ 0 ≤ view.filledQty
          ∨ isTerminal (canonicalObserved source view) = true))
      ∨ source = .partiallyFilled ∧ view.filledQty ≤ 0
        ∧ isValidTransition source (canonicalObserved source view) = false := by
    intro hcanonical hfill
    rw [hcanonical]
    rcases hback with hback | ⟨hsame, hback⟩
    · exact .inl ⟨hback, .inl rfl⟩
    · exact .inr ⟨hsame, hfill, hback⟩
  rcases hview.cases with hstate | ⟨hstate, hfill⟩ | ⟨hstate, hfill⟩ | hterminal
  · by_cases hfill : 0 < view.filledQty
    · rw [canonicalObserved_working hstate hworks, if_pos hfill]
      exact .inl ⟨hpartly, .inr (.inl ⟨rfl, Int64.le_of_lt hfill⟩)⟩
    · exact hacknowledged (by rw [canonicalObserved_working hstate hworks, if_neg hfill])
        (Int64.not_lt.mp hfill)
  · exact hacknowledged (by rw [canonicalObserved_of_ne (by simp [hstate]), hstate])
      (by rw [hfill]; exact Int64.le_refl 0)
  · rw [canonicalObserved_of_ne (by simp [hstate]), hstate]
    exact .inl ⟨hpartly, .inr (.inl ⟨rfl, hfill⟩)⟩
  · have hlive : view.observedState ≠ .sent := by
      intro hsent
      rw [hsent] at hterminal
      cases hterminal
    rw [canonicalObserved_of_ne hlive]
    refine .inl ⟨?_, .inr (.inr hterminal)⟩
    revert hterminal
    -- every working state may go to every terminal one
    rcases hsource with rfl | rfl | rfl <;> cases view.observedState <;> decide

/-- **One view of a working order**: its fill is taken over, unless the order was done. -/
theorem applyView_fed {st : Order × LifecycleEngine} {view : BrokerView} {views : List BrokerView}
    (h : Fed st (view :: views)) (hview : Published view.observedState view.filledQty)
    (hrefs : ∀ later ∈ views, later.clientRef = view.clientRef)
    (hkeys : ∀ later ∈ views, view.orderingKey ≤ later.orderingKey)
    (hfills : ∀ later ∈ views, view.filledQty ≤ later.filledQty) :
    (isTerminal st.1.state = true ∨ (applyView st view).1.filledQty = view.filledQty)
      ∧ Fed (applyView st view) views := by
  obtain ⟨order, engine⟩ := st
  have hlater : ∀ later ∈ views, later ∈ view :: views := fun _ => List.mem_cons_of_mem view
  have hkept : (engine.apply order view).2 = (order, engine) →
      Fed (applyView (order, engine) view) views := by
    intro hsame
    rw [applyView, hsame]
    exact ⟨h.state, fun hpartly => ⟨(h.fills hpartly).1,
      fun later hmem => (h.fills hpartly).2 later (hlater later hmem)⟩,
      fun later hmem => h.fresh later (hlater later hmem)⟩
  cases hterminal : isTerminal order.state with
  | true => exact ⟨.inl rfl, hkept (apply_refused (.inl hterminal))⟩
  | false =>
    have hsource : order.state = .sent ∨ order.state = .acknowledged
        ∨ order.state = .partiallyFilled := by
      rcases h.state with hstate | hstate | hstate | hstate
      · exact .inl hstate
      · exact .inr (.inl hstate)
      · exact .inr (.inr hstate)
      · rw [hterminal] at hstate
        cases hstate
    have hfresh := h.fresh view (by simp)
    rcases published_legal hsource hview with ⟨hlegal, hcanonical⟩ | ⟨hpartly, hempty, hillegal⟩
    · -- taken: the order is where the view says, with the view's fill
      have htaken := not_refused_iff.mpr ⟨hterminal, hfresh, hlegal⟩
      rw [applyView, apply_absorbed htaken]
      refine ⟨.inr rfl, ?_, ?_, ?_⟩
      · show canonicalObserved order.state view = .sent ∨ _
        rcases hcanonical with hstate | ⟨hstate, -⟩ | hstate
        · exact .inr (.inl hstate)
        · exact .inr (.inr (.inl hstate))
        · exact .inr (.inr (.inr hstate))
      · intro hpartly
        have hstate : canonicalObserved order.state view = .partiallyFilled := hpartly
        refine ⟨?_, hfills⟩
        rw [hstate] at hcanonical
        rcases hcanonical with hstate | ⟨-, hnonneg⟩ | hstate
        · cases hstate
        · exact hnonneg
        · cases hstate
      · exact fun later hmem => isStale_record (hrefs later hmem) (hkeys later hmem)
    · -- refused: a partial fill of nothing, and the view says nothing is filled
      have hsame := apply_refused (.inr (.inr hillegal) : Refused engine order view)
      refine ⟨.inr ?_, hkept hsame⟩
      obtain ⟨hnonneg, hbelow⟩ := h.fills hpartly
      rw [applyView, hsame]
      exact Int64.le_antisymm (hbelow view (by simp)) (Int64.le_trans hempty hnonneg)

/-- Along a stream of views of one order, in key order and with cumulative fills. -/
theorem run_fed {st : Order × LifecycleEngine} {front back : List BrokerView}
    (h : Fed st (front ++ back))
    (hviews : ∀ view ∈ front ++ back, Published view.observedState view.filledQty)
    (hstream : (front ++ back).Pairwise fun view later => later.clientRef = view.clientRef
      ∧ view.orderingKey ≤ later.orderingKey ∧ view.filledQty ≤ later.filledQty) :
    Fed (run applyView st front) back := by
  induction front generalizing st with
  | nil => exact h
  | cons view front ih =>
    obtain ⟨hfirst, hrest⟩ := List.pairwise_cons.mp hstream
    have hstep := applyView_fed h (hviews view (by simp)) (fun later hmem => (hfirst later hmem).1)
      (fun later hmem => (hfirst later hmem).2.1) (fun later hmem => (hfirst later hmem).2.2)
    exact ih hstep.2 (fun later hmem => hviews later (List.mem_cons_of_mem view hmem)) hrest

/-- **No fill is lost while an order works.** A sent order is fed with published views of
itself, none older than the key last applied to it, in key order and with fills that only grow.
After each view the order has the view's fill, unless it was terminal before. -/
theorem fill_kept (order : Order) (engine : LifecycleEngine) (views : List BrokerView)
    (hsent : order.state = .sent)
    (hviews : ∀ view ∈ views, Published view.observedState view.filledQty)
    (hrefs : ∀ view ∈ views, view.clientRef = order.intent.clientRef)
    (hfresh : ∀ view ∈ views, engine.isStale view = false)
    (hkeys : views.Pairwise fun view later => view.orderingKey ≤ later.orderingKey)
    (hfills : views.Pairwise fun view later => view.filledQty ≤ later.filledQty) :
    ∀ front view back, views = front ++ view :: back →
      isTerminal (run applyView (order, engine) front).1.state = true
        ∨ (run applyView (order, engine) (front ++ [view])).1.filledQty = view.filledQty := by
  intro front view back hsplit
  have hstart : Fed (order, engine) views :=
    ⟨.inl hsent, fun h => (by rw [hsent] at h; cases h), hfresh⟩
  have hstream : views.Pairwise fun view later => later.clientRef = view.clientRef
      ∧ view.orderingKey ≤ later.orderingKey ∧ view.filledQty ≤ later.filledQty := by
    refine List.Pairwise.imp_of_mem ?_ (hkeys.and hfills)
    intro a b ha hb hab
    exact ⟨(hrefs b hb).trans (hrefs a ha).symm, hab⟩
  rw [hsplit] at hstart hstream hviews
  have hfed := run_fed hstart hviews hstream
  -- `view` comes ahead of everything in `back`
  obtain ⟨hfirst, -⟩ := List.pairwise_cons.mp (List.pairwise_append.mp hstream).2.1
  rw [run_concat]
  exact (applyView_fed hfed (hviews view (by simp)) (fun later hmem => (hfirst later hmem).1)
    (fun later hmem => (hfirst later hmem).2.1) (fun later hmem => (hfirst later hmem).2.2)).1

/-! A working row, a partial fill, and the rest. -/

def sentOrder : Order := { pendingOrder with state := .sent }

def partialStream : List BrokerView :=
  [⟨ascii "s-1", ascii "B1", .sent, 0, 0, 1⟩, ⟨ascii "s-1", ascii "B1", .partiallyFilled, 4, 99, 2⟩,
    ⟨ascii "s-1", ascii "B1", .filled, 10, 99, 3⟩]

theorem fill_kept_partial :
    (run applyView (sentOrder, .init) (partialStream.take 2)).1.filledQty = 4 := by
  have hviews : ∀ view ∈ partialStream, Published view.observedState view.filledQty := by
    intro view hmem
    simp only [partialStream, List.mem_cons, List.not_mem_nil, or_false] at hmem
    rcases hmem with rfl | rfl | rfl
    · exact .working 0
    · exact .partiallyFilled (by decide)
    · exact .terminal rfl 10
  have h := fill_kept sentOrder .init partialStream rfl hviews (by decide) (by decide) (by decide)
    (by decide) (partialStream.take 1) (partialStream.getD 1 (partialStream.head (by decide)))
    (partialStream.drop 2) rfl
  rcases h with h | h
  · cases h
  · exact h

end BrokerExec.Lifecycle

import BrokerExec.Reconcile.Reconciler

/-!
# When a clean reconciliation means agreement

`apply` recognises a refused view by its ordering key not having landed. When the key of the
order already *is* the snapshot's key — an earlier push, or an earlier row of the same
snapshot — a refusal looks like an idempotent repeat and is not counted; and rows that are
matched to one order overwrite each other.

The fold leaves a trace with one `Feed` for every row that found an order: the order and its
engine key just before the row. **`reconciled_iff`** says exactly when `mismatches = 0` means
what it should: the rows of each order say the same, and the last of them, where the key was
already the snapshot's, is a legal transition.
-/

namespace BrokerExec.Reconcile

open BrokerExec.Domain (Order OrderState)
open BrokerExec.Lifecycle

/-! ## Agreement of an order with a row -/

/-- What `Sent` means on a working order. -/
def stillWorking (row : Order) : OrderState :=
  if 0 < row.filledQty then .partiallyFilled else .acknowledged

/-- The order says what the row says. -/
def Agrees (order row : Order) : Prop :=
  (order.state = row.state ∨ row.state = .sent ∧ order.state = stillWorking row)
    ∧ order.filledQty = row.filledQty ∧ order.avgPrice = row.avgPrice

/-- Some order could agree with both rows. -/
def Compatible (p q : Order) : Prop :=
  (p.state = q.state ∨ p.state = .sent ∧ q.state = stillWorking p
      ∨ q.state = .sent ∧ p.state = stillWorking q)
    ∧ p.filledQty = q.filledQty ∧ p.avgPrice = q.avgPrice

theorem stillWorking_cases (row : Order) :
    stillWorking row = .partiallyFilled ∨ stillWorking row = .acknowledged := by
  unfold stillWorking
  split_ifs
  · exact .inl rfl
  · exact .inr rfl

theorem stillWorking_congr {p q : Order} (h : p.filledQty = q.filledQty) :
    stillWorking p = stillWorking q := by
  rw [stillWorking, stillWorking, h]

theorem Agrees.compatible {order p q : Order} (hp : Agrees order p) (hq : Agrees order q) :
    Compatible p q := by
  obtain ⟨hpState, hpQty, hpPrice⟩ := hp
  obtain ⟨hqState, hqQty, hqPrice⟩ := hq
  refine ⟨?_, hpQty.symm.trans hqQty, hpPrice.symm.trans hqPrice⟩
  rcases hpState with hpState | ⟨hpSent, hpState⟩
  · rcases hqState with hqState | ⟨hqSent, hqState⟩
    · exact .inl (hpState.symm.trans hqState)
    · exact .inr (.inr ⟨hqSent, hpState.symm.trans hqState⟩)
  · rcases hqState with hqState | ⟨hqSent, hqState⟩
    · exact .inr (.inl ⟨hpSent, hqState.symm.trans hpState⟩)
    · exact .inl (hpSent.trans hqSent.symm)

/-! ## What the engine makes of a row -/

/-- The state the transition table is asked about. -/
def observedOf (orderingKey : Int64) (order row : Order) : OrderState :=
  canonicalObserved order.state (viewOf orderingKey order row)

theorem observedOf_cases (orderingKey : Int64) (order row : Order) :
    observedOf orderingKey order row = row.state
      ∨ row.state = .sent ∧ observedOf orderingKey order row = stillWorking row := by
  unfold observedOf canonicalObserved viewOf
  dsimp only
  split_ifs with hraw hfilled
  · exact .inl rfl
  · rw [not_or, not_not] at hraw
    exact .inr ⟨hraw.1, by rw [stillWorking, if_pos hfilled]⟩
  · rw [not_or, not_not] at hraw
    exact .inr ⟨hraw.1, by rw [stillWorking, if_neg hfilled]⟩

theorem observedOf_of_working {orderingKey : Int64} {order row : Order}
    (hsent : row.state = .sent) (hworking : sentMeansStillWorking order.state = true) :
    observedOf orderingKey order row = stillWorking row := by
  unfold observedOf canonicalObserved viewOf stillWorking
  simp [hsent, hworking]

/-- A row the order already agrees with is never refused. -/
theorem Agrees.legal {order row : Order} (h : Agrees order row) (orderingKey : Int64) :
    isValidTransition order.state (observedOf orderingKey order row) = true := by
  have hworking : ∀ s, stillWorking row = s → sentMeansStillWorking s = true := by
    rintro s rfl
    rcases stillWorking_cases row with hs | hs <;> rw [hs] <;> rfl
  obtain ⟨hstate | ⟨hsent, hstate⟩, -⟩ := h
  · by_cases hsent : row.state = .sent
    · have hobserved : observedOf orderingKey order row = stillWorking row :=
        observedOf_of_working hsent (by rw [hstate, hsent]; rfl)
      rw [hobserved, hstate, hsent]
      rcases stillWorking_cases row with hs | hs <;> rw [hs] <;> rfl
    · have hobserved : observedOf orderingKey order row = order.state := by
        rcases observedOf_cases orderingKey order row with hs | ⟨hs, -⟩
        · rw [hs, hstate]
        · exact absurd hs hsent
      simp [isValidTransition, hobserved]
  · have hobserved : observedOf orderingKey order row = order.state := by
      rw [observedOf_of_working hsent (hworking _ hstate.symm), hstate]
    simp [isValidTransition, hobserved]

/-! ## The trace of the fold -/

/-- A row that found its order: where, and the order and its engine key just before. -/
structure Feed where
  index : Nat
  order : Order
  lastKey : Option Int64
  row : Order

/-- The engine has already applied something newer than the snapshot to this order. -/
def Feed.older (orderingKey : Int64) (feed : Feed) : Bool :=
  feed.lastKey.any (orderingKey < ·)

def feedOf (st : Reconciling) (row : Order) : Option Feed :=
  (matchOf st.orders row).map fun found =>
    ⟨found.1, found.2, st.engine.lastKey (engineKey found.2), row⟩

/-- One entry for every row of a snapshot that is not stale; `none` is a row without order. -/
def feeds (orderingKey : Int64) : Reconciling → List Order → List (Option Feed)
  | _, [] => []
  | st, row :: rows => feedOf st row :: feeds orderingKey (stepRow false orderingKey st row) rows

/-- The state behind these rows. -/
def after (orderingKey : Int64) (st : Reconciling) (rows : List Order) : Reconciling :=
  rows.foldl (stepRow false orderingKey) st

/-- The order behind the feed. -/
def Feed.result (orderingKey : Int64) (engine : LifecycleEngine) (feed : Feed) : Order :=
  (engine.apply feed.order (viewOf orderingKey feed.order feed.row)).2.1

theorem matchOf_eq_some {orders : List Order} {row order : Order} {i : Nat}
    (h : matchOf orders row = some (i, order)) :
    orders[i]? = some order ∧ sameOrder order row = true := by
  induction orders generalizing i with
  | nil => cases h
  | cons head orders ih =>
    rw [matchOf] at h
    split_ifs at h with hsame
    · obtain ⟨rfl, rfl⟩ := Prod.mk.inj (Option.some.inj h)
      exact ⟨rfl, hsame⟩
    · obtain ⟨⟨j, found⟩, hfound, heq⟩ := Option.map_eq_some_iff.mp h
      obtain ⟨rfl, rfl⟩ := Prod.mk.inj heq
      exact ih hfound

theorem feedOf_eq_some {st : Reconciling} {row : Order} {feed : Feed}
    (h : feedOf st row = some feed) :
    matchOf st.orders row = some (feed.index, feed.order) ∧ feed.row = row
      ∧ feed.lastKey = st.engine.lastKey (engineKey feed.order) := by
  obtain ⟨⟨i, order⟩, hmatch, rfl⟩ := Option.map_eq_some_iff.mp h
  exact ⟨hmatch, rfl, rfl⟩

theorem Feed.older_eq_isStale {st : Reconciling} {row : Order} {feed : Feed}
    (h : feedOf st row = some feed) (orderingKey : Int64) :
    feed.older orderingKey = st.engine.isStale (viewOf orderingKey feed.order row) := by
  obtain ⟨-, -, hkey⟩ := feedOf_eq_some h
  rw [Feed.older, hkey, LifecycleEngine.isStale_eq]
  rfl

/-- The orders and the engine behind one matched row. -/
theorem stepRow_matched {st : Reconciling} {row : Order} {feed : Feed}
    (h : feedOf st row = some feed) (orderingKey : Int64) :
    (stepRow false orderingKey st row).orders
        = st.orders.set feed.index (feed.result orderingKey st.engine)
      ∧ (stepRow false orderingKey st row).engine
        = (st.engine.apply feed.order (viewOf orderingKey feed.order row)).2.2 := by
  obtain ⟨hmatch, hrow, -⟩ := feedOf_eq_some h
  rw [Feed.result, hrow]
  unfold stepRow
  rw [hmatch]
  dsimp only
  split_ifs
  · exact ⟨rfl, rfl⟩
  · exact ⟨rfl, rfl⟩

theorem stepRow_unmatched {st : Reconciling} {row : Order} (h : feedOf st row = none)
    (orderingKey : Int64) :
    stepRow false orderingKey st row
      = st.mismatch (ascii "reconcile: unmatched broker order") row := by
  have hmatch : matchOf st.orders row = none := Option.map_eq_none_iff.mp h
  rw [stepRow, hmatch]
  rfl

/-! ### Mismatches only grow -/

theorem stepRow_mismatches (orderingKey : Int64) (st : Reconciling) (row : Order) :
    st.outcome.mismatches ≤ (stepRow false orderingKey st row).outcome.mismatches := by
  unfold stepRow
  split
  · simp [Reconciling.mismatch]
  · dsimp only
    split_ifs
    · simp [Reconciling.mismatch, ReconcileOutcome.count]
    · simp [ReconcileOutcome.count]

theorem after_mismatches (orderingKey : Int64) (st : Reconciling) (rows : List Order) :
    st.outcome.mismatches ≤ (after orderingKey st rows).outcome.mismatches := by
  induction rows generalizing st with
  | nil => exact Nat.le_refl _
  | cons row rows ih => exact Nat.le_trans (stepRow_mismatches orderingKey st row) (ih _)

/-- **What an uncounted row can be**: one the terminal order repeats, one dropped as older, one
refused under the snapshot's own key, or one written in. -/
theorem stepRow_clean {st : Reconciling} {row : Order} {feed : Feed}
    (h : feedOf st row = some feed) {orderingKey : Int64}
    (hclean : (stepRow false orderingKey st row).outcome.mismatches = st.outcome.mismatches) :
    feed.older orderingKey = true
      ∨ (isTerminal feed.order.state = true ∧ feed.result orderingKey st.engine = feed.order
        ∧ Agrees feed.order row ∧ feed.order.state = row.state)
      ∨ (isTerminal feed.order.state = false ∧ feed.lastKey = some orderingKey
        ∧ isValidTransition feed.order.state (observedOf orderingKey feed.order row) = false
        ∧ feed.result orderingKey st.engine = feed.order)
      ∨ (isTerminal feed.order.state = false
        ∧ isValidTransition feed.order.state (observedOf orderingKey feed.order row) = true
        ∧ feed.result orderingKey st.engine
          = absorb feed.order (viewOf orderingKey feed.order row)
              (observedOf orderingKey feed.order row)) := by
  have holder := Feed.older_eq_isStale h orderingKey
  obtain ⟨hmatch, hrow, hkey⟩ := feedOf_eq_some h
  cases hstale : feed.older orderingKey with
  | true => exact .inl rfl
  | false =>
  right
  rw [hstale] at holder
  unfold stepRow at hclean
  rw [hmatch] at hclean
  dsimp only at hclean
  rw [← holder] at hclean
  rw [Feed.result, hrow]
  rcases apply_cases st.engine feed.order (viewOf orderingKey feed.order row) with
    ⟨hterminal, happly⟩ | ⟨-, hdropped, -⟩ | ⟨hlive, -, hillegal, happly⟩
      | ⟨hlive, -, hlegal, happly, -⟩
  · left
    rw [happly] at hclean ⊢
    -- a terminal order that contradicts the row would have been counted
    split_ifs at hclean with hcontradicts
    · simp [Reconciling.mismatch, ReconcileOutcome.count] at hclean
    · simp [contradicts] at hcontradicts
      obtain ⟨⟨hstate, hqty⟩, hprice⟩ := hcontradicts
      exact ⟨hterminal, rfl, ⟨.inl hstate.symm, hqty.symm, hprice.symm⟩, hstate.symm⟩
  · rw [← holder] at hdropped
    cases hdropped
  · right
    left
    -- the table refused the row, which is no mismatch only at the snapshot's own key
    rw [happly] at hclean ⊢
    split_ifs at hclean with hcontradicts
    · simp [Reconciling.mismatch, ReconcileOutcome.count] at hclean
    · simp [contradicts] at hcontradicts
      exact ⟨hlive, by rw [hkey]; exact hcontradicts, hillegal, rfl⟩
  · right
    right
    rw [happly]
    exact ⟨hlive, hlegal, rfl⟩

/-! ### What later rows leave alone -/

theorem stepRow_getElem? (orderingKey : Int64) (st : Reconciling) (row : Order) {i : Nat}
    (h : ∀ feed, feedOf st row = some feed → feed.index ≠ i) :
    (stepRow false orderingKey st row).orders[i]? = st.orders[i]? := by
  cases hfeed : feedOf st row with
  | none =>
    rw [stepRow_unmatched hfeed]
    rfl
  | some feed =>
    rw [(stepRow_matched hfeed orderingKey).1]
    exact List.getElem?_set_ne (h feed hfeed)

/-- An order that no further row is matched to stays as it is. -/
theorem after_getElem? {orderingKey : Int64} {st : Reconciling} {rows : List Order} {i : Nat}
    (h : ∀ feed, some feed ∈ feeds orderingKey st rows → feed.index ≠ i) :
    (after orderingKey st rows).orders[i]? = st.orders[i]? := by
  induction rows generalizing st with
  | nil => rfl
  | cons row rows ih =>
    have hstep := stepRow_getElem? orderingKey st row
      fun feed hfeed => h feed (by rw [feeds, hfeed]; simp)
    rw [← hstep]
    exact ih fun feed hfeed => h feed (by rw [feeds]; simp [hfeed])

/-- The order at a position has been settled under the snapshot's key, or is terminal. -/
def Settled (orderingKey : Int64) (i : Nat) (st : Reconciling) : Prop :=
  ∃ order, st.orders[i]? = some order
    ∧ (st.engine.lastKey (engineKey order)).any (orderingKey < ·) = false
    ∧ (isTerminal order.state = true ∨ st.engine.lastKey (engineKey order) = some orderingKey)

/-- Writing a row in does not move an order to another engine key. -/
theorem engineKey_absorb {order row : Order} (h : sameOrder order row = true) (orderingKey : Int64)
    (observed : OrderState) :
    engineKey (absorb order (viewOf orderingKey order row) observed) = engineKey order := by
  unfold engineKey absorb viewOf
  dsimp only
  split_ifs with href hid
  · rfl
  · -- without a client ref the match was by broker id, which therefore stays
    simp [sameOrder, href] at h
    exact h.2.symm
  · rfl

theorem apply_lastKey (engine : LifecycleEngine) (order : Order) (view : BrokerView) (key : Bytes) :
    (engine.apply order view).2.2.lastKey key = engine.lastKey key
      ∨ (engine.apply order view).2.2.lastKey key = some view.orderingKey := by
  by_cases hkey : key = view.clientRef
  · by_cases hrefused : Refused engine order view
    · exact .inl (by rw [apply_refused hrefused])
    · right
      rw [apply_absorbed hrefused, hkey]
      exact Function.update_self _ _ _
  · exact .inl (apply_lastKey_ne engine order hkey)

theorem stepRow_lastKey (orderingKey : Int64) (st : Reconciling) (row : Order) (key : Bytes) :
    (stepRow false orderingKey st row).engine.lastKey key = st.engine.lastKey key
      ∨ (stepRow false orderingKey st row).engine.lastKey key = some orderingKey := by
  cases hfeed : feedOf st row with
  | none =>
    rw [stepRow_unmatched hfeed]
    exact .inl rfl
  | some feed =>
    rw [(stepRow_matched hfeed orderingKey).2]
    exact apply_lastKey st.engine feed.order (viewOf orderingKey feed.order row) key

/-- A row keeps every order in its place, with its engine key, and a terminal one unchanged. -/
theorem stepRow_keeps {st : Reconciling} {i : Nat} {order : Order}
    (h : st.orders[i]? = some order) (orderingKey : Int64) (row : Order) :
    ∃ order', (stepRow false orderingKey st row).orders[i]? = some order'
      ∧ engineKey order' = engineKey order ∧ (isTerminal order.state = true → order' = order) := by
  cases hfeed : feedOf st row with
  | none =>
    rw [stepRow_unmatched hfeed]
    exact ⟨order, h, rfl, fun _ => rfl⟩
  | some feed =>
    by_cases hi : feed.index = i
    · obtain ⟨hmatch, hrow, -⟩ := feedOf_eq_some hfeed
      obtain ⟨hget, hsame⟩ := matchOf_eq_some hmatch
      rw [hi, h] at hget
      obtain rfl := Option.some.inj hget
      have hlength : feed.index < st.orders.length := by
        rw [hi]
        exact (List.getElem?_eq_some_iff.mp h).1
      rw [(stepRow_matched hfeed orderingKey).1, ← hi, List.getElem?_set_self hlength]
      refine ⟨_, rfl, ?_, ?_⟩
      · rw [Feed.result, hrow]
        by_cases hrefused : Refused st.engine feed.order (viewOf orderingKey feed.order row)
        · rw [apply_refused hrefused]
        · rw [apply_absorbed hrefused]
          exact engineKey_absorb hsame orderingKey _
      · intro hterminal
        rw [Feed.result, apply_terminal _ _ hterminal]
    · refine ⟨order, ?_, rfl, fun _ => rfl⟩
      rw [(stepRow_matched hfeed orderingKey).1, List.getElem?_set_ne hi]
      exact h

theorem Settled.stepRow {orderingKey : Int64} {i : Nat} {st : Reconciling}
    (h : Settled orderingKey i st) (row : Order) :
    Settled orderingKey i (stepRow false orderingKey st row) := by
  obtain ⟨order, hget, hcurrent, hdone⟩ := h
  obtain ⟨order', hget', hkey, hterminal⟩ := stepRow_keeps hget orderingKey row
  have hnever : ¬ orderingKey < orderingKey := Int64.lt_irrefl
  refine ⟨order', hget', ?_, ?_⟩
  · rw [hkey]
    rcases stepRow_lastKey orderingKey st row (engineKey order) with hlast | hlast
    · rw [hlast]
      exact hcurrent
    · rw [hlast]
      simp [hnever]
  · rcases hdone with hdone | hdone
    · rw [hterminal hdone]
      exact .inl hdone
    · right
      rw [hkey]
      rcases stepRow_lastKey orderingKey st row (engineKey order) with hlast | hlast
      · rw [hlast, hdone]
      · exact hlast

theorem Settled.after {orderingKey : Int64} {i : Nat} {st : Reconciling}
    (h : Settled orderingKey i st) (rows : List Order) :
    Settled orderingKey i (after orderingKey st rows) := by
  induction rows generalizing st with
  | nil => exact h
  | cons row rows ih => exact ih (h.stepRow row)

/-- A current row that was not counted as a mismatch settles its order. -/
theorem settled_of_feed {st : Reconciling} {row : Order} {feed : Feed}
    (h : feedOf st row = some feed) {orderingKey : Int64}
    (hclean : (stepRow false orderingKey st row).outcome.mismatches = st.outcome.mismatches)
    (hcurrent : feed.older orderingKey = false) :
    Settled orderingKey feed.index (stepRow false orderingKey st row) := by
  obtain ⟨hmatch, hrow, hlast⟩ := feedOf_eq_some h
  have hget := (matchOf_eq_some hmatch).1
  have hsettled : ∀ hdone : isTerminal feed.order.state = true ∨ feed.lastKey = some orderingKey,
      Settled orderingKey feed.index st := fun hdone =>
    ⟨feed.order, hget, by rw [← hlast]; exact hcurrent, by rw [← hlast]; exact hdone⟩
  rcases stepRow_clean h hclean with
    holder | ⟨hterminal, -⟩ | ⟨-, hkey, -⟩ | ⟨hlive, hlegal, hresult⟩
  · rw [hcurrent] at holder
    cases holder
  · exact (hsettled (.inl hterminal)).stepRow row
  · exact (hsettled (.inr hkey)).stepRow row
  · have hstale : st.engine.isStale (viewOf orderingKey feed.order row) = false := by
      rw [← Feed.older_eq_isStale h]
      exact hcurrent
    obtain ⟨order', hget', hkey', -⟩ := stepRow_keeps hget orderingKey row
    have hrecorded : (stepRow false orderingKey st row).engine.lastKey (engineKey feed.order)
        = some orderingKey := by
      rw [(stepRow_matched h orderingKey).2,
        apply_absorbed (not_refused_iff.mpr ⟨hlive, hstale, hlegal⟩)]
      exact Function.update_self _ _ _
    have hnever : ¬ orderingKey < orderingKey := Int64.lt_irrefl
    refine ⟨order', hget', ?_, .inr ?_⟩
    · rw [hkey', hrecorded]
      simp [hnever]
    · rw [hkey', hrecorded]

/-! ## The property and the condition -/

/-- No later row of the trace is matched to the same order. -/
def LastOf (trace : List (Option Feed)) (feed : Feed) : Prop :=
  ∃ pre post, trace = pre ++ some feed :: post ∧ ∀ later, some later ∈ post →
    later.index ≠ feed.index

/-- **The condition**: rows of one order say the same, and the last of them, if the engine key
already was the snapshot's, is a legal transition (to `Sent` only if all of them say `Sent`). -/
structure Consistent (orderingKey : Int64) (trace : List (Option Feed)) : Prop where
  compatible : ∀ f g, some f ∈ trace → some g ∈ trace → f.index = g.index →
    f.older orderingKey = false → g.older orderingKey = false → Compatible f.row g.row
  legal : ∀ f, LastOf trace f → isTerminal f.order.state = false →
    f.lastKey = some orderingKey →
    isValidTransition f.order.state (observedOf orderingKey f.order f.row) = true
      ∧ (observedOf orderingKey f.order f.row = .sent →
        ∀ g, some g ∈ trace → g.index = f.index → g.older orderingKey = false →
          g.row.state = .sent)

/-- Every current row agrees with its order in `final`. -/
def AllAgree (orderingKey : Int64) (trace : List (Option Feed)) (final : List Order) : Prop :=
  ∀ f, some f ∈ trace → f.older orderingKey = false →
    ∃ order, final[f.index]? = some order ∧ Agrees order f.row

/-- **No silent divergence**: every row is matched, every current row agrees with its order, and
every live acknowledged order is in the snapshot. -/
structure Reconciled (orderingKey : Int64) (rows : List Order) (trace : List (Option Feed))
    (final : List Order) : Prop where
  matched : ∀ entry ∈ trace, entry.isSome = true
  agrees : AllAgree orderingKey trace final
  present : ∀ order ∈ final, isTerminal order.state = false → order.brokerOrderId ≠ [] →
    ∃ row ∈ rows, sameOrder order row = true

/-! ## Splitting the trace -/

/-- A place in the trace is a place among the rows. -/
theorem feeds_split {orderingKey : Int64} {st : Reconciling} {rows : List Order}
    {pre post : List (Option Feed)} {feed : Feed}
    (h : feeds orderingKey st rows = pre ++ some feed :: post) :
    ∃ front row back, rows = front ++ row :: back ∧ pre = feeds orderingKey st front
      ∧ feedOf (after orderingKey st front) row = some feed
      ∧ post = feeds orderingKey
          (stepRow false orderingKey (after orderingKey st front) row) back := by
  induction pre generalizing st rows with
  | nil =>
    cases rows with
    | nil => cases h
    | cons row rows =>
      obtain ⟨hfeed, hpost⟩ := List.cons.inj h
      exact ⟨[], row, rows, rfl, rfl, hfeed, hpost.symm⟩
  | cons entry pre ih =>
    cases rows with
    | nil => cases h
    | cons first rows =>
      obtain ⟨hentry, hrest⟩ := List.cons.inj h
      obtain ⟨front, row, back, rfl, rfl, hfeed, hpost⟩ := ih hrest
      exact ⟨first :: front, row, back, rfl, by rw [← hentry]; rfl, hfeed, hpost⟩

/-- Rows in the middle of a clean run are clean. -/
theorem stepRow_of_clean {orderingKey : Int64} {st : Reconciling} {front back : List Order}
    {row : Order}
    (hclean : (after orderingKey st (front ++ row :: back)).outcome.mismatches
      = st.outcome.mismatches) :
    (stepRow false orderingKey (after orderingKey st front) row).outcome.mismatches
      = (after orderingKey st front).outcome.mismatches := by
  have hsplit : after orderingKey st (front ++ row :: back)
      = after orderingKey (stepRow false orderingKey (after orderingKey st front) row) back := by
    simp [after]
  rw [hsplit] at hclean
  have hfront := after_mismatches orderingKey st front
  have hrow := stepRow_mismatches orderingKey (after orderingKey st front) row
  have hback := after_mismatches orderingKey
    (stepRow false orderingKey (after orderingKey st front) row) back
  omega

/-- The last feed of an order decides what the order is at the end. -/
theorem LastOf.result {orderingKey : Int64} {st : Reconciling} {rows : List Order} {feed : Feed}
    (h : LastOf (feeds orderingKey st rows) feed)
    (hclean : (after orderingKey st rows).outcome.mismatches = st.outcome.mismatches) :
    ∃ before, feedOf before feed.row = some feed
      ∧ (stepRow false orderingKey before feed.row).outcome.mismatches
        = before.outcome.mismatches
      ∧ (after orderingKey st rows).orders[feed.index]?
        = some (feed.result orderingKey before.engine)
      ∧ ∀ g, some g ∈ feeds orderingKey st rows → g.index = feed.index →
        g.older orderingKey = false → g = feed ∨ Settled orderingKey feed.index before := by
  obtain ⟨pre, post, htrace, hlater⟩ := h
  obtain ⟨front, row, back, rfl, hpre, hfeed, hpost⟩ := feeds_split htrace
  have hrow := (feedOf_eq_some hfeed).2.1
  have hstep := stepRow_of_clean hclean
  refine ⟨after orderingKey st front, by rw [hrow]; exact hfeed, by rw [hrow]; exact hstep,
    ?_, ?_⟩
  · have hsplit : after orderingKey st (front ++ row :: back)
        = after orderingKey (stepRow false orderingKey (after orderingKey st front) row) back := by
      simp [after]
    have hget := (matchOf_eq_some (feedOf_eq_some hfeed).1).1
    have hlength := (List.getElem?_eq_some_iff.mp hget).1
    rw [hsplit, after_getElem? (by rw [← hpost]; exact hlater),
      (stepRow_matched hfeed orderingKey).1, List.getElem?_set_self hlength]
  · intro g hg hindex hcurrent
    rw [htrace] at hg
    rcases List.mem_append.mp hg with hg | hg
    · -- an earlier feed settled the order before this one came
      right
      obtain ⟨pre', post', hpre'⟩ := List.append_of_mem hg
      rw [hpre] at hpre'
      obtain ⟨front', row', back', rfl, -, hg', -⟩ := feeds_split hpre'
      have hclean' := hclean
      rw [List.append_assoc, List.cons_append] at hclean'
      have hsettled := settled_of_feed hg' (stepRow_of_clean hclean') hcurrent
      rw [hindex] at hsettled
      have hrest := hsettled.after back'
      rw [show after orderingKey st (front' ++ row' :: back')
        = after orderingKey (stepRow false orderingKey (after orderingKey st front') row') back'
        by simp [after]]
      exact hrest
    · rcases List.mem_cons.mp hg with hg | hg
      · exact .inl (Option.some.inj hg)
      · exact absurd hindex (hlater g hg)

/-- Every feed of the trace has a last one at its order. -/
theorem exists_lastOf {trace : List (Option Feed)} {feed : Feed} (h : some feed ∈ trace) :
    ∃ last, LastOf trace last ∧ last.index = feed.index := by
  induction trace generalizing feed with
  | nil => simp at h
  | cons entry trace ih =>
    by_cases hlater : ∃ g, some g ∈ trace ∧ g.index = feed.index
    · obtain ⟨g, hg, hindex⟩ := hlater
      obtain ⟨last, ⟨pre, post, htrace, hpost⟩, hlast⟩ := ih hg
      exact ⟨last, ⟨entry :: pre, post, by rw [htrace]; rfl, hpost⟩, hlast.trans hindex⟩
    · have hentry : entry = some feed := by
        rcases List.mem_cons.mp h with h | h
        · exact h.symm
        · exact absurd ⟨feed, h, rfl⟩ hlater
      refine ⟨feed, ⟨[], trace, by rw [hentry]; rfl, ?_⟩, rfl⟩
      exact fun later hmem hindex => hlater ⟨later, hmem, hindex⟩

/-! ## Both directions -/

theorem LastOf.mem {trace : List (Option Feed)} {feed : Feed} (h : LastOf trace feed) :
    some feed ∈ trace := by
  obtain ⟨pre, post, htrace, -⟩ := h
  rw [htrace]
  simp

theorem consistent_of_allAgree {orderingKey : Int64} {st : Reconciling} {rows : List Order}
    (hclean : (after orderingKey st rows).outcome.mismatches = st.outcome.mismatches)
    (hagree : AllAgree orderingKey (feeds orderingKey st rows)
      (after orderingKey st rows).orders) :
    Consistent orderingKey (feeds orderingKey st rows) where
  compatible := by
    intro f g hf hg hindex hfCurrent hgCurrent
    obtain ⟨order, hget, hfAgrees⟩ := hagree f hf hfCurrent
    obtain ⟨order', hget', hgAgrees⟩ := hagree g hg hgCurrent
    rw [← hindex, hget] at hget'
    obtain rfl := Option.some.inj hget'
    exact hfAgrees.compatible hgAgrees
  legal := by
    intro f hlast hlive hkey
    obtain ⟨before, hfeed, hstep, hresult, -⟩ := hlast.result hclean
    have hcurrent : f.older orderingKey = false := by
      have hnever : ¬ orderingKey < orderingKey := Int64.lt_irrefl
      simp [Feed.older, hkey, hnever]
    obtain ⟨order, hget, hagrees⟩ := hagree f hlast.mem hcurrent
    rw [hresult] at hget
    obtain rfl := Option.some.inj hget
    rcases stepRow_clean hfeed hstep with
      holder | ⟨hterminal, -⟩ | ⟨-, -, hillegal, hunchanged⟩ | ⟨-, hlegal, habsorbed⟩
    · rw [hcurrent] at holder
      cases holder
    · rw [hlive] at hterminal
      cases hterminal
    · -- a refused row cannot agree with the order it left alone
      rw [hunchanged] at hagrees
      rw [hagrees.legal orderingKey] at hillegal
      cases hillegal
    · refine ⟨hlegal, fun hsent g hg hindex hgCurrent => ?_⟩
      obtain ⟨order, hget, hgAgrees⟩ := hagree g hg hgCurrent
      rw [hindex, hresult] at hget
      obtain rfl := Option.some.inj hget
      have hstate : (f.result orderingKey before.engine).state = .sent := by
        rw [habsorbed]
        exact hsent
      rcases hgAgrees.1 with hg' | ⟨hg', -⟩
      · rw [← hg', hstate]
      · exact hg'

/-- Where the last row of an order leaves it, every compatible row of the order agrees. -/
theorem agrees_of_compatible {orderingKey : Int64} {order row other : Order}
    (hcompatible : Compatible other row)
    (hsent : observedOf orderingKey order row = .sent → other.state = .sent) :
    Agrees (absorb order (viewOf orderingKey order row) (observedOf orderingKey order row))
      other := by
  obtain ⟨hstates, hqty, hprice⟩ := hcompatible
  refine ⟨?_, hqty.symm, hprice.symm⟩
  show observedOf orderingKey order row = other.state
    ∨ other.state = .sent ∧ observedOf orderingKey order row = stillWorking other
  have hworking := stillWorking_congr hqty
  rcases observedOf_cases orderingKey order row with hobserved | ⟨hrow, hobserved⟩
  · rcases hstates with hstate | ⟨hother, hstate⟩ | ⟨hrow, hstate⟩
    · exact .inl (hobserved.trans hstate.symm)
    · exact .inr ⟨hother, hobserved.trans hstate⟩
    · exact .inl ((hobserved.trans hrow).trans (hsent (hobserved.trans hrow)).symm)
  · rcases hstates with hstate | ⟨hother, -⟩ | ⟨-, hstate⟩
    · exact .inr ⟨hstate.trans hrow, hobserved.trans hworking.symm⟩
    · exact .inr ⟨hother, hobserved.trans hworking.symm⟩
    · exact .inl (hobserved.trans hstate.symm)

theorem allAgree_of_consistent {orderingKey : Int64} {st : Reconciling} {rows : List Order}
    (hclean : (after orderingKey st rows).outcome.mismatches = st.outcome.mismatches)
    (hconsistent : Consistent orderingKey (feeds orderingKey st rows)) :
    AllAgree orderingKey (feeds orderingKey st rows) (after orderingKey st rows).orders := by
  intro f hf hcurrent
  obtain ⟨last, hlast, hindex⟩ := exists_lastOf hf
  obtain ⟨before, hfeed, hstep, hresult, hsettled⟩ := hlast.result hclean
  rw [hindex] at hresult
  refine ⟨_, hresult, ?_⟩
  obtain ⟨hmatch, -, hlastKey⟩ := feedOf_eq_some hfeed
  have hget := (matchOf_eq_some hmatch).1
  -- the last feed is current too, and its key is the snapshot's unless it is the only one
  have hlastCurrent : last.older orderingKey = false := by
    rcases hsettled f hf hindex.symm hcurrent with rfl | ⟨order, hget', hcurrent', -⟩
    · exact hcurrent
    · rw [hget] at hget'
      obtain rfl := Option.some.inj hget'
      rw [Feed.older, hlastKey]
      exact hcurrent'
  have hcompatible := hconsistent.compatible f last hf hlast.mem hindex.symm hcurrent hlastCurrent
  rcases stepRow_clean hfeed hstep with
    holder | ⟨hterminal, hunchanged, hagrees, hstate⟩ | ⟨hlive, hkey, hillegal, -⟩
      | ⟨hlive, hlegal, habsorbed⟩
  · rw [hlastCurrent] at holder
    cases holder
  · rw [hunchanged]
    obtain ⟨hstates, hqty, hprice⟩ := hcompatible
    refine ⟨?_, hagrees.2.1.trans hqty.symm, hagrees.2.2.trans hprice.symm⟩
    rcases hstates with hsame | ⟨hsent, hworking⟩ | ⟨hsent, -⟩
    · exact .inl (hstate.trans hsame.symm)
    · exact .inr ⟨hsent, hstate.trans hworking⟩
    · rw [hstate, hsent] at hterminal
      cases hterminal
  · have hlegal := (hconsistent.legal last hlast hlive hkey).1
    rw [hillegal] at hlegal
    cases hlegal
  · rw [habsorbed]
    refine agrees_of_compatible hcompatible fun hsent => ?_
    rcases hsettled f hf hindex.symm hcurrent with rfl | ⟨order, hget', -, hdone⟩
    · rcases observedOf_cases orderingKey f.order f.row with hobserved | ⟨hrow, -⟩
      · exact hobserved.symm.trans hsent
      · exact hrow
    · rw [hget] at hget'
      obtain rfl := Option.some.inj hget'
      rcases hdone with hdone | hdone
      · rw [hlive] at hdone
        cases hdone
      · exact (hconsistent.legal last hlast hlive (hlastKey.trans hdone)).2 hsent f hf
          hindex.symm hcurrent

/-! ## The whole `apply` -/

theorem matched_of_clean {orderingKey : Int64} {st : Reconciling} {rows : List Order}
    (hclean : (after orderingKey st rows).outcome.mismatches = st.outcome.mismatches) :
    ∀ entry ∈ feeds orderingKey st rows, entry.isSome = true := by
  induction rows generalizing st with
  | nil => simp [feeds]
  | cons row rows ih =>
    have hstep := stepRow_mismatches orderingKey st row
    have hrest := after_mismatches orderingKey (stepRow false orderingKey st row) rows
    have htotal : (after orderingKey (stepRow false orderingKey st row) rows).outcome.mismatches
        = st.outcome.mismatches := hclean
    intro entry hentry
    rcases List.mem_cons.mp hentry with rfl | hentry
    · cases hfeed : feedOf st row with
      | some feed => rfl
      | none =>
        have hcounted : (stepRow false orderingKey st row).outcome.mismatches
            = st.outcome.mismatches + 1 := by
          rw [stepRow_unmatched hfeed]
          rfl
        omega
    · exact ih (by omega) entry hentry

/-- The check for vanished orders only counts. -/
theorem vanished_foldl (rows orders : List Order) (st : Reconciling) :
    let done := orders.foldl
      (fun st order =>
        if hasVanished rows order then
          st.mismatch (ascii "reconcile: local order missing from broker snapshot") order
        else st) st
    done.orders = st.orders ∧ done.engine = st.engine
      ∧ st.outcome.mismatches ≤ done.outcome.mismatches
      ∧ (done.outcome.mismatches = st.outcome.mismatches →
        ∀ order ∈ orders, hasVanished rows order = false) := by
  induction orders generalizing st with
  | nil => exact ⟨rfl, rfl, Nat.le_refl _, fun _ => by simp⟩
  | cons order orders ih =>
    dsimp only at ih ⊢
    rw [List.foldl_cons]
    cases hvanished : hasVanished rows order with
    | true =>
      obtain ⟨horders, hengine, hle, -⟩ := ih (st.mismatch
        (ascii "reconcile: local order missing from broker snapshot") order)
      have hcounted : st.outcome.mismatches + 1 ≤ _ := hle
      refine ⟨horders, hengine, Nat.le_of_succ_le hcounted, fun hclean => ?_⟩
      rw [if_pos rfl] at hclean
      omega
    | false =>
      obtain ⟨horders, hengine, hle, hnone⟩ := ih st
      refine ⟨horders, hengine, hle, fun hclean => ?_⟩
      intro o ho
      rcases List.mem_cons.mp ho with rfl | ho
      · exact hvanished
      · exact hnone hclean o ho

theorem checkVanished_counts (rows : List Order) (st : Reconciling) :
    (checkVanished rows st).orders = st.orders
      ∧ st.outcome.mismatches ≤ (checkVanished rows st).outcome.mismatches
      ∧ ((checkVanished rows st).outcome.mismatches = st.outcome.mismatches →
        ∀ order ∈ st.orders, hasVanished rows order = false) := by
  obtain ⟨horders, -, hle, hnone⟩ := vanished_foldl rows st.orders st
  exact ⟨horders, hle, hnone⟩

/-- The fold of one `apply` on a fresh snapshot. -/
theorem feedRows_fresh {applier : ReconcileApplier} {result : ReconcileResult}
    (hfresh : applier.isStale result = false) (orders : List Order) :
    applier.feedRows result orders
      = after result.orderingKey ⟨orders, applier.engine, .init, []⟩ result.orders := by
  rw [ReconcileApplier.feedRows, hfresh]
  rfl

/-- The trace of one `apply`. -/
def ReconcileApplier.trace (applier : ReconcileApplier) (result : ReconcileResult)
    (orders : List Order) : List (Option Feed) :=
  feeds result.orderingKey ⟨orders, applier.engine, .init, []⟩ result.orders

/-- What a clean `apply` on a fresh snapshot leaves. -/
theorem apply_clean {applier : ReconcileApplier} {result : ReconcileResult} {orders : List Order}
    (hfresh : applier.isStale result = false)
    (hclean : (applier.apply result orders).1.outcome.mismatches = 0) :
    (applier.apply result orders).1.orders
        = (after result.orderingKey ⟨orders, applier.engine, .init, []⟩ result.orders).orders
      ∧ (after result.orderingKey ⟨orders, applier.engine, .init, []⟩
          result.orders).outcome.mismatches = 0
      ∧ ∀ order ∈ (applier.apply result orders).1.orders,
          hasVanished result.orders order = false := by
  have happly : (applier.apply result orders).1
      = checkVanished result.orders (applier.feedRows result orders) := by
    rw [ReconcileApplier.apply, hfresh]
    rfl
  rw [happly, feedRows_fresh hfresh] at hclean ⊢
  obtain ⟨horders, hle, hnone⟩ := checkVanished_counts result.orders
    (after result.orderingKey ⟨orders, applier.engine, .init, []⟩ result.orders)
  have hzero : (after result.orderingKey ⟨orders, applier.engine, .init, []⟩
      result.orders).outcome.mismatches = 0 := Nat.eq_zero_of_le_zero (hclean ▸ hle)
  refine ⟨horders, hzero, fun order horder => ?_⟩
  rw [horders] at horder
  exact hnone (hclean.trans hzero.symm) order horder

/-- **When `mismatches = 0` means agreement**, for every engine, every list of local orders and
every snapshot that is not stale. -/
theorem reconciled_iff (applier : ReconcileApplier) (result : ReconcileResult)
    (orders : List Order) (hfresh : applier.isStale result = false)
    (hclean : (applier.apply result orders).1.outcome.mismatches = 0) :
    Reconciled result.orderingKey result.orders (applier.trace result orders)
        (applier.apply result orders).1.orders ↔
      Consistent result.orderingKey (applier.trace result orders) := by
  obtain ⟨horders, hzero, hnone⟩ := apply_clean hfresh hclean
  have hmatched := matched_of_clean (show _ = (ReconcileOutcome.init).mismatches from hzero)
  constructor
  · rintro ⟨-, hagrees, -⟩
    rw [horders] at hagrees
    exact consistent_of_allAgree hzero hagrees
  · intro hconsistent
    refine ⟨hmatched, ?_, ?_⟩
    · rw [horders]
      exact allAgree_of_consistent hzero hconsistent
    · intro order horder hlive hacked
      have hpresent := hnone order horder
      simp only [hasVanished, hlive, hacked, Bool.not_false, decide_true, Bool.true_and, ne_eq,
        not_false_eq_true, Bool.not_eq_false', List.any_eq_true] at hpresent
      exact hpresent

/-! An order `s-1`, filled 5 of 10 by a push with key 7. -/

def sampleOrder (state : OrderState) (filledQty : Int64) : Order :=
  ⟨⟨ascii "s-1", ascii "NIFTY", .buy, 10, 100, none, .limit, .intraday, ascii "s"⟩,
    state, ascii "B1", filledQty, 100⟩

def sampleApplier : ReconcileApplier :=
  ⟨⟨fun ref => if ref = ascii "s-1" then some 7 else none⟩, 6⟩

theorem reconciled_iff_sample :
    sampleApplier.isStale ⟨[sampleOrder .filled 10], 8⟩ = false
      ∧ (sampleApplier.apply ⟨[sampleOrder .filled 10], 8⟩
          [sampleOrder .partiallyFilled 5]).1.outcome.mismatches = 0
      ∧ (Reconciled 8 [sampleOrder .filled 10]
          (sampleApplier.trace ⟨[sampleOrder .filled 10], 8⟩ [sampleOrder .partiallyFilled 5])
          (sampleApplier.apply ⟨[sampleOrder .filled 10], 8⟩
            [sampleOrder .partiallyFilled 5]).1.orders ↔
        Consistent 8 (sampleApplier.trace ⟨[sampleOrder .filled 10], 8⟩
          [sampleOrder .partiallyFilled 5])) := by
  have hfresh : sampleApplier.isStale ⟨[sampleOrder .filled 10], 8⟩ = false := by decide
  have hclean : (sampleApplier.apply ⟨[sampleOrder .filled 10], 8⟩
      [sampleOrder .partiallyFilled 5]).1.outcome.mismatches = 0 := by decide
  exact ⟨hfresh, hclean, reconciled_iff _ _ _ hfresh hclean⟩

/-- **A refused row that is not counted**: a fresh snapshot with key 7 reports the order
acknowledged and unfilled, the engine refuses, and `apply` returns `mismatches = 0`. -/
theorem refused_row_not_counted :
    sampleApplier.isStale ⟨[sampleOrder .acknowledged 0], 7⟩ = false
      ∧ (sampleApplier.apply ⟨[sampleOrder .acknowledged 0], 7⟩
          [sampleOrder .partiallyFilled 5]).1.outcome.mismatches = 0
      ∧ ¬ Reconciled 7 [sampleOrder .acknowledged 0]
          (sampleApplier.trace ⟨[sampleOrder .acknowledged 0], 7⟩ [sampleOrder .partiallyFilled 5])
          (sampleApplier.apply ⟨[sampleOrder .acknowledged 0], 7⟩
            [sampleOrder .partiallyFilled 5]).1.orders := by
  refine ⟨by decide, by decide, fun h => ?_⟩
  have hfinal : (sampleApplier.apply ⟨[sampleOrder .acknowledged 0], 7⟩
      [sampleOrder .partiallyFilled 5]).1.orders = [sampleOrder .partiallyFilled 5] := by decide
  obtain ⟨order, horder, hagrees⟩ := h.agrees
    ⟨0, sampleOrder .partiallyFilled 5, some 7, sampleOrder .acknowledged 0⟩
    (List.mem_singleton.mpr rfl) rfl
  rw [hfinal] at horder
  obtain rfl : sampleOrder .partiallyFilled 5 = order := by simpa using horder
  exact absurd hagrees.2.1 (by decide)

end BrokerExec.Reconcile

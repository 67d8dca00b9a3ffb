import BrokerExec.Lifecycle
import BrokerExec.Ports
import BrokerExec.Store

/-!
# Resolving `Unknown` orders (`runtime/unknown_resolver.cpp`)

Every `Unknown` order of the store is classified against the broker's order book — by broker
order id, by correlation token, by attributes — and adopts the row it is matched to. Each
order is classified on its own: no rung asks whether the row is another order's.

* **`one_owner_iff`** — no broker order ends up with two local orders, and the attribute rung
  takes no row of another order, exactly when no matched row is claimed by a second order.
-/

namespace BrokerExec.Runtime.UnknownResolver

open BrokerExec.Domain (Order OrderState)
open BrokerExec.Errors (Error)
open BrokerExec.Lifecycle
open BrokerExec.Ports (Alert)

/-! ## The ladder -/

inductive MatchKind where
  | brokerOrderId
  | correlationToken
  | attributeCorroboration
  | noMatch
  deriving DecidableEq

/-- `attributes_match`: the product and the order type are deliberately left out. -/
def attributesMatch (a b : Order) : Bool :=
  a.intent.symbol = b.intent.symbol && a.intent.side = b.intent.side
    && a.intent.quantity = b.intent.quantity && a.intent.price = b.intent.price
    && a.intent.triggerPrice = b.intent.triggerPrice

structure Classification where
  kind : MatchKind
  matched : Option Order
  deriving DecidableEq

/-- Rung 1: the row with the order's broker id. -/
def byBrokerOrderId (unknownOrder : Order) (brokerOrders : List Order) : Option Order :=
  if unknownOrder.brokerOrderId ≠ [] then
    brokerOrders.find? fun bo =>
      bo.brokerOrderId ≠ [] && bo.brokerOrderId = unknownOrder.brokerOrderId
  else none

/-- Rung 2: the row that echoes the order's client ref. -/
def byCorrelationToken (unknownOrder : Order) (brokerOrders : List Order) : Option Order :=
  if unknownOrder.intent.clientRef ≠ [] then
    brokerOrders.find? fun bo =>
      bo.intent.clientRef ≠ [] && bo.intent.clientRef = unknownOrder.intent.clientRef
  else none

/-- Rung 3: the first row with the order's attributes. -/
def byAttributes (unknownOrder : Order) (brokerOrders : List Order) : Option Order :=
  brokerOrders.find? (attributesMatch unknownOrder)

def classify (unknownOrder : Order) (brokerOrders : List Order) : Classification :=
  match byBrokerOrderId unknownOrder brokerOrders with
  | some row => ⟨.brokerOrderId, some row⟩
  | none =>
    match byCorrelationToken unknownOrder brokerOrders with
    | some row => ⟨.correlationToken, some row⟩
    | none =>
      match byAttributes unknownOrder brokerOrders with
      | some row => ⟨.attributeCorroboration, some row⟩
      | none => ⟨.noMatch, none⟩

/-! ## Adopting a row -/

/-- The store and the engine, with the alerts so far. -/
structure Resolving where
  store : Store
  engine : LifecycleEngine
  alerts : List Alert

/-- What the fetch for one order answers, and the error its upsert meets, if any. -/
structure Answer where
  fetched : Result (List Order)
  upsertFailure : Option Error

structure UnknownResolution where
  kind : MatchKind
  resolved : Option Order
  newState : OrderState
  resolvedOk : Bool

/-- The view of a row that `adopt` feeds to the engine: one key above the last. -/
def viewOf (engine : LifecycleEngine) (unknownOrder brokerTruth : Order) : BrokerView :=
  { clientRef := unknownOrder.intent.clientRef
    brokerOrderId := brokerTruth.brokerOrderId
    observedState := brokerTruth.state
    filledQty := brokerTruth.filledQty
    avgPrice := brokerTruth.avgPrice
    orderingKey :=
      match engine.lastKey unknownOrder.intent.clientRef with
      | some last => last + 1
      | none => 1 }

/-- The order behind the engine's `apply`; without an id it takes the row's in any case. -/
def adopted (engine : LifecycleEngine) (unknownOrder brokerTruth : Order) : Order :=
  let resolved := (engine.apply unknownOrder (viewOf engine unknownOrder brokerTruth)).2.1
  if resolved.brokerOrderId = [] then
    { resolved with brokerOrderId := brokerTruth.brokerOrderId }
  else resolved

/-- `adopt`: the engine has moved even when the upsert fails. -/
def adopt (upsertFailure : Option Error) (st : Resolving) (unknownOrder brokerTruth : Order) :
    Result Order × Resolving :=
  let resolved := adopted st.engine unknownOrder brokerTruth
  let engine := (st.engine.apply unknownOrder (viewOf st.engine unknownOrder brokerTruth)).2.2
  let (up, store) := st.store.upsertOrder upsertFailure resolved
  match up with
  | .error error => (.error error, { st with store := store, engine := engine })
  | .ok () => (.ok resolved, { st with store := store, engine := engine })

/-- The alert that names an order without a match. -/
def noMatchAlert (unknownOrder : Order) : Alert :=
  ⟨.critical, ascii "UNKNOWN order has no authoritative broker match (fail-closed)",
    ⟨unknownOrder.intent.clientRef, unknownOrder.brokerOrderId, unknownOrder.intent.strategy,
      unknownOrder.intent.symbol⟩⟩

/-- `resolve`. -/
def resolve (answer : Answer) (st : Resolving) (unknownOrder : Order) :
    Result UnknownResolution × Resolving :=
  match answer.fetched with
  | .error error => (.error error, st)
  | .ok brokerOrders =>
    let cls := classify unknownOrder brokerOrders
    match cls.matched with
    | none =>
      (.ok ⟨cls.kind, none, .unknown, false⟩,
        { st with alerts := st.alerts ++ [noMatchAlert unknownOrder] })
    | some row =>
      let (result, st') := adopt answer.upsertFailure st unknownOrder row
      match result with
      | .error error => (.error error, st')
      | .ok resolved => (.ok ⟨cls.kind, some resolved, resolved.state, true⟩, st')

/-- The loop of `resolve_all` over the orders as they were read; an error ends it. -/
def resolveEach (answers : Order → Answer) :
    List Order → List UnknownResolution → Resolving → Result (List UnknownResolution) × Resolving
  | [], out, st => (.ok out, st)
  | order :: orders, out, st =>
    if order.state ≠ .unknown then resolveEach answers orders out st
    else
      match resolve (answers order) st order with
      | (.error error, st') => (.error error, st')
      | (.ok resolution, st') => resolveEach answers orders (out ++ [resolution]) st'

/-- `resolve_all`. -/
def resolveAll (readFailure : Option Error) (answers : Order → Answer) (st : Resolving) :
    Result (List UnknownResolution) × Resolving :=
  match st.store.allOrders readFailure with
  | .error error => (.error error, st)
  | .ok orders => resolveEach answers orders [] st

/-! ## What the rungs find -/

/-- No row of the book has the order's broker id. -/
theorem ne_of_byBrokerOrderId {order row : Order} {book : List Order}
    (h : byBrokerOrderId order book = none) (hrow : row ∈ book) (hid : row.brokerOrderId ≠ []) :
    row.brokerOrderId ≠ order.brokerOrderId := by
  intro hsame
  rw [byBrokerOrderId, if_pos (by rw [← hsame]; exact hid)] at h
  have hmiss := List.find?_eq_none.mp h row hrow
  simp [hsame] at hmiss
  exact hid (hsame.trans hmiss)

/-- **Everything a match can be.** -/
theorem classify_cases {order row : Order} {book : List Order} {kind : MatchKind}
    (h : classify order book = ⟨kind, some row⟩) :
    row ∈ book
      ∧ ((kind = .brokerOrderId ∧ row.brokerOrderId = order.brokerOrderId)
        ∨ (kind = .correlationToken ∧ byBrokerOrderId order book = none
          ∧ order.intent.clientRef ≠ [] ∧ row.intent.clientRef = order.intent.clientRef)
        ∨ (kind = .attributeCorroboration ∧ byBrokerOrderId order book = none)) := by
  unfold classify at h
  cases hid : byBrokerOrderId order book with
  | some found =>
    simp only [hid, Classification.mk.injEq, Option.some.injEq] at h
    obtain ⟨rfl, rfl⟩ := h
    rw [byBrokerOrderId] at hid
    split_ifs at hid
    have hfound := List.find?_some hid
    simp only [Bool.and_eq_true, decide_eq_true_eq] at hfound
    exact ⟨List.mem_of_find?_eq_some hid, .inl ⟨rfl, hfound.2⟩⟩
  | none =>
  cases htoken : byCorrelationToken order book with
  | some found =>
    simp only [hid, htoken, Classification.mk.injEq, Option.some.injEq] at h
    obtain ⟨rfl, rfl⟩ := h
    rw [byCorrelationToken] at htoken
    split_ifs at htoken with href
    have hfound := List.find?_some htoken
    simp only [Bool.and_eq_true, decide_eq_true_eq] at hfound
    exact ⟨List.mem_of_find?_eq_some htoken, .inr (.inl ⟨rfl, rfl, href, hfound.2⟩)⟩
  | none =>
  cases hattributes : byAttributes order book with
  | some found =>
    simp only [hid, htoken, hattributes, Classification.mk.injEq, Option.some.injEq] at h
    obtain ⟨rfl, rfl⟩ := h
    exact ⟨List.mem_of_find?_eq_some hattributes, .inr (.inr ⟨rfl, rfl⟩)⟩
  | none => simp [hid, htoken, hattributes] at h

/-- In a book with distinct ids, an order whose id is in the book matches that row. -/
theorem classify_of_id {order row : Order} {book : List Order}
    (hbook : (book.map (·.brokerOrderId)).Nodup) (hrow : row ∈ book)
    (hid : order.brokerOrderId ≠ []) (hsame : order.brokerOrderId = row.brokerOrderId) :
    classify order book = ⟨.brokerOrderId, some row⟩ := by
  cases hfind : byBrokerOrderId order book with
  | none => exact absurd hsame.symm (ne_of_byBrokerOrderId hfind hrow (by rw [← hsame]; exact hid))
  | some found =>
    have hclassify : classify order book = ⟨.brokerOrderId, some found⟩ := by
      rw [classify, hfind]
    obtain ⟨hmem, ⟨-, hfound⟩ | ⟨hkind, -⟩ | ⟨hkind, -⟩⟩ := classify_cases hclassify
    · rw [hclassify, List.inj_on_of_nodup_map hbook hmem hrow (hfound.trans hsame)]
    · cases hkind
    · cases hkind

/-! ## What an adoption writes -/

/-- The engine lets the row in: its key is not older and the transition is legal. -/
def advances (engine : LifecycleEngine) (order row : Order) : Bool :=
  !engine.isStale (viewOf engine order row)
    && isValidTransition order.state (canonicalObserved order.state (viewOf engine order row))

/-- The row's broker id ends up on the order. -/
def takesId (engine : LifecycleEngine) (order row : Order) : Bool :=
  row.brokerOrderId ≠ [] && (order.brokerOrderId = [] || advances engine order row)

theorem adopted_intent (engine : LifecycleEngine) (order row : Order) :
    (adopted engine order row).intent = order.intent := by
  have hkeeps := apply_intent engine order (viewOf engine order row)
  unfold adopted
  dsimp only
  split_ifs
  · exact hkeeps
  · exact hkeeps

theorem adopted_brokerOrderId {order : Order} (hunknown : order.state = .unknown)
    (engine : LifecycleEngine) (row : Order) :
    (adopted engine order row).brokerOrderId
      = if takesId engine order row then row.brokerOrderId else order.brokerOrderId := by
  have hlive : isTerminal order.state = false := by rw [hunknown]; rfl
  have hrefused_iff : Refused engine order (viewOf engine order row)
      ↔ advances engine order row = false := by
    simp [Refused, advances, hlive, or_iff_not_imp_left]
  by_cases hrefused : Refused engine order (viewOf engine order row)
  · -- the engine leaves the order, and the resolver fills in an id where there was none
    have hstays := hrefused_iff.mp hrefused
    rw [adopted, apply_refused hrefused]
    by_cases hid : order.brokerOrderId = []
    · by_cases hrow : row.brokerOrderId = []
      · simp [takesId, hid, hrow]
      · simp [takesId, hid, hrow]
    · simp [takesId, hid, hstays]
  · have hadvances : advances engine order row = true := by
      simpa using fun hstays => hrefused (hrefused_iff.mpr hstays)
    have hid : (engine.apply order (viewOf engine order row)).2.1.brokerOrderId
        = if row.brokerOrderId ≠ [] then row.brokerOrderId else order.brokerOrderId := by
      rw [apply_absorbed hrefused]
      rfl
    rw [adopted]
    by_cases hrow : row.brokerOrderId = []
    · by_cases hown : order.brokerOrderId = []
      · simp [hid, takesId, hrow, hown]
      · simp [hid, takesId, hrow, hown]
    · simp [hid, takesId, hrow, hadvances]

/-- Only the order's own key in the engine matters. -/
theorem adopted_congr {engine engine' : LifecycleEngine} {order : Order}
    (h : engine.lastKey order.intent.clientRef = engine'.lastKey order.intent.clientRef)
    (row : Order) : adopted engine order row = adopted engine' order row := by
  have hview : viewOf engine order row = viewOf engine' order row := by
    rw [viewOf, viewOf, h]
  have hstale : engine.isStale (viewOf engine' order row)
      = engine'.isStale (viewOf engine' order row) := by
    have hkey : engine.lastKey (viewOf engine' order row).clientRef
        = engine'.lastKey (viewOf engine' order row).clientRef := h
    rw [LifecycleEngine.isStale, LifecycleEngine.isStale, hkey]
  have happly : (engine.apply order (viewOf engine order row)).2.1
      = (engine'.apply order (viewOf engine' order row)).2.1 := by
    rw [hview, LifecycleEngine.apply, LifecycleEngine.apply, hstale]
    split_ifs
    · rfl
    · rfl
    · dsimp only
      split_ifs
      · rfl
      · rfl
      · rfl
  rw [adopted, adopted, happly]

/-! ## Along the run -/

/-- Every fetch that answers shows this book. -/
def Reads (book : List Order) (answers : Order → Answer) : Prop :=
  ∀ order, (answers order).fetched = .ok book ∨ ∃ error, (answers order).fetched = .error error

/-- Where a faultless resolution leaves an order. -/
def resolvedOrder (engine : LifecycleEngine) (book : List Order) (order : Order) : Order :=
  if order.state = .unknown then
    match (classify order book).matched with
    | some row => adopted engine order row
    | none => order
  else order

/-- An order of the store once these orders have been passed. -/
def passed (engine : LifecycleEngine) (book front : List Order) (order : Order) : Order :=
  if order ∈ front then resolvedOrder engine book order else order

/-- The orders in front have been passed, the others are as they were. -/
structure Passed (start : Resolving) (book front : List Order) (st : Resolving) : Prop where
  find : ∀ ref, st.store.find ref
    = (start.store.find ref).map (passed start.engine book front)
  lastKey : ∀ ref, (∀ order ∈ front, order.intent.clientRef ≠ ref) →
    st.engine.lastKey ref = start.engine.lastKey ref

theorem passed_nil (start : Resolving) (book : List Order) : Passed start book [] start where
  find := by
    intro ref
    cases start.store.find ref <;> simp [passed]
  lastKey := fun _ _ => rfl

/-- The last of the passed orders was left as it is. -/
theorem Passed.keep {start st : Resolving} {book front : List Order} {order : Order}
    (h : Passed start book front st) (hsame : resolvedOrder start.engine book order = order)
    {alerts : List Alert} :
    Passed start book (front ++ [order]) { st with alerts := alerts } where
  find := by
    intro ref
    show st.store.find ref = _
    rw [h.find ref]
    congr 1
    funext other
    by_cases hother : other = order
    · rw [hother, passed, passed, hsame, ite_self, ite_self]
    · simp [passed, hother]
  lastKey := fun ref href =>
    h.lastKey ref fun other hother => href other (List.mem_append_left _ hother)

/-- The last of the passed orders was adopted. -/
theorem Passed.adopt {start st : Resolving} {book front : List Order} {order row : Order}
    (h : Passed start book front st) (hstored : order ∈ start.store.rows)
    (hnew : ∀ other ∈ front, other.intent.clientRef ≠ order.intent.clientRef)
    (hresolved : resolvedOrder start.engine book order = adopted start.engine order row) :
    Passed start book (front ++ [order]) (adopt none st order row).2 := by
  have hadopted : adopted st.engine order row = adopted start.engine order row :=
    adopted_congr (h.lastKey _ hnew) row
  have hkey : (adopted st.engine order row).intent.clientRef = order.intent.clientRef := by
    rw [adopted_intent]
  -- the store, row by row; then the engine's keys
  refine ⟨fun ref => ?_, fun ref href => ?_⟩
  · have hstore : (UnknownResolver.adopt none st order row).2.store
        = st.store.upsert (adopted st.engine order row) := rfl
    rw [hstore, Table.find_upsert, hkey]
    split_ifs with href
    · rw [href, Table.find_eq_some_iff.mpr ⟨hstored, rfl⟩, hadopted, ← hresolved]
      simp [passed]
    · rw [h.find ref]
      cases hfind : start.store.find ref with
      | none => rfl
      | some other =>
        have hother : other ≠ order := by
          rintro rfl
          exact href (Table.mem_of_find hfind).2.symm
        simp [passed, hother]
  · have hengine : (UnknownResolver.adopt none st order row).2.engine
        = (st.engine.apply order (viewOf st.engine order row)).2.2 := rfl
    have hne : ref ≠ order.intent.clientRef := (href order (by simp)).symm
    rw [hengine]
    have hfront := h.lastKey ref fun other hother => href other (List.mem_append_left _ hother)
    exact (apply_lastKey_ne st.engine order hne).trans hfront

/-- A broker and a store without faults. -/
def faultless (book : List Order) : Order → Answer := fun _ => ⟨.ok book, none⟩

/-- One `resolve` passes its order or, on a fault, leaves the store alone. -/
theorem resolve_passed {start st : Resolving} {book front : List Order} {order : Order}
    (answer : Answer) (h : Passed start book front st) (hstored : order ∈ start.store.rows)
    (hnew : ∀ other ∈ front, other.intent.clientRef ≠ order.intent.clientRef)
    (hunknown : order.state = .unknown)
    (hanswer : answer.fetched = .ok book ∨ ∃ error, answer.fetched = .error error) :
    (∃ resolution st', resolve answer st order = (.ok resolution, st')
        ∧ Passed start book (front ++ [order]) st')
      ∨ (answer ≠ ⟨.ok book, none⟩
        ∧ ∃ error st', resolve answer st order = (.error error, st') ∧ st'.store = st.store) := by
  rcases hanswer with hfetched | ⟨error, hfetched⟩
  · cases hmatched : (classify order book).matched with
    | none =>
      have hsame : resolvedOrder start.engine book order = order := by
        rw [resolvedOrder, if_pos hunknown, hmatched]
      left
      rw [resolve, hfetched]
      simp only [hmatched]
      exact ⟨_, _, rfl, h.keep hsame⟩
    | some row =>
      have hresolved : resolvedOrder start.engine book order = adopted start.engine order row := by
        rw [resolvedOrder, if_pos hunknown, hmatched]
      rw [resolve, hfetched]
      simp only [hmatched]
      cases hfailure : answer.upsertFailure with
      | none =>
        exact .inl ⟨_, _, rfl, h.adopt hstored hnew hresolved⟩
      -- the upsert failed, so the answer was not faultless
      | some error =>
        refine .inr ⟨?_, _, _, rfl, rfl⟩
        rintro rfl
        cases hfailure
  · right
    refine ⟨?_, error, st, by rw [resolve, hfetched], rfl⟩
    rintro rfl
    cases hfetched

/-- The refs of the orders in front are not the next order's. -/
theorem front_ne {store : Store} {front orders : List Order} {order : Order}
    (hrows : store.rows = front ++ order :: orders) :
    ∀ other ∈ front, other.intent.clientRef ≠ order.intent.clientRef := by
  intro other hother
  have hsorted := store.sorted
  rw [hrows, List.pairwise_map, List.pairwise_append] at hsorted
  exact (hsorted.2.2 other hother order (by simp)).ne

/-- **The run passes the orders in turn**, up to the first fault. -/
theorem resolveEach_passed {start : Resolving} {book : List Order} {answers : Order → Answer}
    (hreads : Reads book answers) {orders front : List Order} (out : List UnknownResolution)
    {st : Resolving} (hrows : start.store.rows = front ++ orders)
    (h : Passed start book front st) :
    ∃ done st', Passed start book done st'
      ∧ (resolveEach answers orders out st).2.store = st'.store
      ∧ (answers = faultless book → done = start.store.rows) := by
  induction orders generalizing front out st with
  | nil => exact ⟨front, st, h, rfl, fun _ => by rw [hrows, List.append_nil]⟩
  | cons order orders ih =>
    have hnext : start.store.rows = (front ++ [order]) ++ orders := by
      rw [hrows, List.append_assoc]
      rfl
    rw [resolveEach]
    split_ifs with hunknown
    · exact ih out hnext (h.keep (by rw [resolvedOrder, if_neg hunknown]))
    · rcases resolve_passed (answers order) h (by rw [hrows]; simp) (front_ne hrows)
        (not_not.mp hunknown) (hreads order) with
        ⟨resolution, st', hresolve, hpassed⟩ | ⟨hfault, error, st', hresolve, hst'⟩
      · rw [hresolve]
        exact ih _ hnext hpassed
      · rw [hresolve]
        refine ⟨front, st, h, hst', ?_⟩
        rintro rfl
        exact absurd rfl hfault

/-! ### The adoptions of a run -/

/-- An order, the rung and the row it was matched to, and the store at that moment. -/
structure Adoption where
  store : Store
  order : Order
  kind : MatchKind
  row : Order

def adoptionOf (answer : Answer) (st : Resolving) (order : Order) : Option Adoption :=
  match answer.fetched with
  | .error _ => none
  | .ok book =>
    (classify order book).matched.map fun row => ⟨st.store, order, (classify order book).kind, row⟩

def adoptions (answers : Order → Answer) : List Order → Resolving → List Adoption
  | [], _ => []
  | order :: orders, st =>
    if order.state ≠ .unknown then adoptions answers orders st
    else
      (adoptionOf (answers order) st order).toList
        ++ match resolve (answers order) st order with
          | (.error _, _) => []
          | (.ok _, st') => adoptions answers orders st'

/-- Every adoption of a run is made behind the orders in front of it. -/
theorem adoption_passed {start : Resolving} {book : List Order} {answers : Order → Answer}
    (hreads : Reads book answers) {orders front : List Order} {st : Resolving}
    (hrows : start.store.rows = front ++ orders) (h : Passed start book front st)
    {adoption : Adoption} (hmem : adoption ∈ adoptions answers orders st) :
    ∃ done back st', start.store.rows = done ++ adoption.order :: back
      ∧ Passed start book done st' ∧ adoption.store = st'.store
      ∧ adoption.order.state = .unknown
      ∧ classify adoption.order book = ⟨adoption.kind, some adoption.row⟩ := by
  induction orders generalizing front st with
  | nil => simp [adoptions] at hmem
  | cons order orders ih =>
    have hnext : start.store.rows = (front ++ [order]) ++ orders := by
      rw [hrows, List.append_assoc]
      rfl
    rw [adoptions] at hmem
    split_ifs at hmem with hunknown
    · exact ih hnext (h.keep (by rw [resolvedOrder, if_neg hunknown])) hmem
    · rcases List.mem_append.mp hmem with hmem | hmem
      · rw [Option.mem_toList] at hmem
        rcases hreads order with hfetched | ⟨error, hfetched⟩
        · simp only [adoptionOf, hfetched, Option.map_eq_some_iff] at hmem
          obtain ⟨row, hrow, rfl⟩ := hmem
          refine ⟨front, orders, st, hrows, h, rfl, not_not.mp hunknown, ?_⟩
          show classify order book = ⟨(classify order book).kind, some row⟩
          rw [← hrow]
        · simp [adoptionOf, hfetched] at hmem
      · rcases resolve_passed (answers order) h (by rw [hrows]; simp) (front_ne hrows)
          (not_not.mp hunknown) (hreads order) with
          ⟨resolution, st', hresolve, hpassed⟩ | ⟨-, error, st', hresolve, -⟩
        · rw [hresolve] at hmem
          exact ih hnext hpassed hmem
        · rw [hresolve] at hmem
          simp at hmem

/-- Without faults every matched order is adopted. -/
theorem exists_adoption {start : Resolving} {book orders front back : List Order}
    {st : Resolving} {order row : Order} {kind : MatchKind}
    (hrows : start.store.rows = front ++ orders) (h : Passed start book front st)
    (hunknown : order.state = .unknown) (hclassify : classify order book = ⟨kind, some row⟩)
    {middle : List Order} (horders : orders = middle ++ order :: back) :
    ∃ adoption ∈ adoptions (faultless book) orders st,
      adoption.order = order ∧ adoption.kind = kind ∧ adoption.row = row
        ∧ ∃ st', Passed start book (front ++ middle) st' ∧ adoption.store = st'.store := by
  induction middle generalizing front orders st with
  | nil =>
    refine ⟨⟨st.store, order, kind, row⟩, ?_, rfl, rfl, rfl, st, ?_, rfl⟩
    · rw [horders, List.nil_append, adoptions, if_neg (not_not.mpr hunknown)]
      simp [adoptionOf, faultless, hclassify]
    · rw [List.append_nil]
      exact h
  | cons first middle ih =>
    obtain rfl : orders = first :: (middle ++ order :: back) := horders
    have hnext : start.store.rows = (front ++ [first]) ++ (middle ++ order :: back) := by
      rw [hrows, List.append_assoc]
      rfl
    have hfront : front ++ first :: middle = (front ++ [first]) ++ middle := by simp
    rw [hfront, adoptions]
    split_ifs with hfirst
    · exact ih hnext (h.keep (by rw [resolvedOrder, if_neg hfirst])) rfl
    · rcases resolve_passed (faultless book first) h (by rw [hrows]; simp)
        (front_ne hrows) (not_not.mp hfirst) (.inl rfl) with
        ⟨resolution, st', hresolve, hpassed⟩ | ⟨hfault, -⟩
      · rw [hresolve]
        obtain ⟨adoption, hmem, hadoption⟩ := ih hnext hpassed rfl
        exact ⟨adoption, List.mem_append_right _ hmem, hadoption⟩
      · exact absurd rfl hfault

/-! ## The property and the condition -/

/-- The row carries the client ref or the broker id of this order. -/
def Owns (order row : Order) : Prop :=
  (order.intent.clientRef ≠ [] ∧ order.intent.clientRef = row.intent.clientRef)
    ∨ (order.brokerOrderId ≠ [] ∧ order.brokerOrderId = row.brokerOrderId)

/-- Two client refs carry the same broker id. -/
def SharesId (store : Store) (a b : Bytes) : Prop :=
  ∃ x y, store.find a = some x ∧ store.find b = some y
    ∧ x.brokerOrderId ≠ [] ∧ x.brokerOrderId = y.brokerOrderId

/-- The adoptions of one `resolve_all`. -/
def adoptionsOf (readFailure : Option Error) (answers : Order → Answer) (st : Resolving) :
    List Adoption :=
  match st.store.allOrders readFailure with
  | .error _ => []
  | .ok orders => adoptions answers orders st

/-- **No broker order has two local orders**: no two refs come to share an id, and the attribute
rung takes no row that is another order's. -/
structure OneOwner (readFailure : Option Error) (answers : Order → Answer) (st : Resolving) :
    Prop where
  ids : ∀ a b, a ≠ b → SharesId (resolveAll readFailure answers st).2.store a b →
    SharesId st.store a b
  rows : ∀ adoption ∈ adoptionsOf readFailure answers st,
    adoption.kind = .attributeCorroboration → ∀ other ∈ adoption.store.rows,
      other.intent.clientRef ≠ adoption.order.intent.clientRef → ¬ Owns other adoption.row

/-- The order is `Unknown` and this rung matches it to the row. -/
def MatchedTo (book : List Order) (kind : MatchKind) (order row : Order) : Prop :=
  order.state = .unknown ∧ classify order book = ⟨kind, some row⟩

/-- **The condition**: the row of a correlated order has no other order's id (where the order
takes it), the row of a corroborated order is no other order's, and of two orders corroborated
by one row with an id the first keeps its own. -/
structure Unclaimed (engine : LifecycleEngine) (store : Store) (book : List Order) : Prop where
  correlated : ∀ order ∈ store.rows, ∀ row, MatchedTo book .correlationToken order row →
    takesId engine order row = true → ∀ other ∈ store.rows,
      other.intent.clientRef ≠ order.intent.clientRef →
      other.brokerOrderId ≠ row.brokerOrderId
  corroborated : ∀ order ∈ store.rows, ∀ row, MatchedTo book .attributeCorroboration order row →
    ∀ other ∈ store.rows, other.intent.clientRef ≠ order.intent.clientRef → ¬ Owns other row
  twins : ∀ first ∈ store.rows, ∀ second ∈ store.rows, ∀ row,
    first.intent.clientRef < second.intent.clientRef →
    MatchedTo book .attributeCorroboration first row →
    MatchedTo book .attributeCorroboration second row → takesId engine first row = false

/-! ## The ids of passed orders -/

theorem passed_clientRef (engine : LifecycleEngine) (book front : List Order) (order : Order) :
    (passed engine book front order).intent.clientRef = order.intent.clientRef := by
  unfold passed resolvedOrder
  split_ifs
  · split
    · rw [adopted_intent]
    · rfl
  · rfl
  · rfl

/-- The id of an order in the run is its own, or that of a row another rung than the first
matched it to. -/
theorem passed_id (engine : LifecycleEngine) (book front : List Order) (order : Order) :
    (passed engine book front order).brokerOrderId = order.brokerOrderId
      ∨ ∃ kind row, order ∈ front ∧ MatchedTo book kind order row ∧ kind ≠ .brokerOrderId
        ∧ takesId engine order row = true
        ∧ (passed engine book front order).brokerOrderId = row.brokerOrderId := by
  by_cases hfront : order ∈ front
  · rw [passed, if_pos hfront, resolvedOrder]
    split_ifs with hunknown
    · cases hclassify : classify order book with
      | mk kind matched =>
      cases matched with
      | none => exact .inl rfl
      | some row =>
        show (adopted engine order row).brokerOrderId = _ ∨ ∃ kind row, order ∈ front
          ∧ MatchedTo book kind order row ∧ kind ≠ .brokerOrderId
          ∧ takesId engine order row = true ∧ (adopted engine order _).brokerOrderId = _
        rw [adopted_brokerOrderId hunknown]
        split_ifs with htakes
        · by_cases hkind : kind = .brokerOrderId
          · obtain ⟨-, ⟨-, hsame⟩ | ⟨hother, -⟩ | ⟨hother, -⟩⟩ := classify_cases hclassify
            · exact .inl hsame
            · rw [hkind] at hother
              cases hother
            · rw [hkind] at hother
              cases hother
          · exact .inr ⟨kind, row, hfront, ⟨hunknown, hclassify⟩, hkind, htakes, rfl⟩
        · exact .inl rfl
    · exact .inl rfl
  · rw [passed, if_neg hfront]
    exact .inl rfl

/-- An id that is in the book stays. -/
theorem passed_keeps_id (engine : LifecycleEngine) {book : List Order}
    (hbook : (book.map (·.brokerOrderId)).Nodup) {order row : Order} (hrow : row ∈ book)
    (hid : order.brokerOrderId ≠ []) (hsame : order.brokerOrderId = row.brokerOrderId)
    (front : List Order) :
    (passed engine book front order).brokerOrderId = row.brokerOrderId := by
  rcases passed_id engine book front order with hkept | ⟨kind, other, -, hmatched, hkind, -⟩
  · rw [hkept, hsame]
  · have hclassify := classify_of_id hbook hrow hid hsame
    rw [hmatched.2] at hclassify
    exact absurd (Classification.mk.inj hclassify).1 hkind

theorem passed_takes {engine : LifecycleEngine} {book front : List Order} {kind : MatchKind}
    {order row : Order} (hfront : order ∈ front) (hmatched : MatchedTo book kind order row)
    (htakes : takesId engine order row = true) :
    (passed engine book front order).brokerOrderId = row.brokerOrderId := by
  rw [passed, if_pos hfront, resolvedOrder, if_pos hmatched.1, hmatched.2]
  show (adopted engine order row).brokerOrderId = _
  rw [adopted_brokerOrderId hmatched.1, if_pos htakes]

theorem row_id_of_takes {engine : LifecycleEngine} {order row : Order}
    (h : takesId engine order row = true) : row.brokerOrderId ≠ [] := by
  simp only [takesId, Bool.and_eq_true, decide_eq_true_eq] at h
  exact h.1

/-! ## Unclaimed rows give one owner -/

section

variable {engine : LifecycleEngine} {store : Store} {book : List Order}

theorem Unclaimed.foreign_id (h : Unclaimed engine store book) {kind : MatchKind}
    {order row other : Order} (horder : order ∈ store.rows) (hother : other ∈ store.rows)
    (hne : other.intent.clientRef ≠ order.intent.clientRef)
    (hmatched : MatchedTo book kind order row) (hkind : kind ≠ .brokerOrderId)
    (htakes : takesId engine order row = true) : other.brokerOrderId ≠ row.brokerOrderId := by
  obtain ⟨-, ⟨hid, -⟩ | ⟨rfl, -⟩ | ⟨rfl, -⟩⟩ := classify_cases hmatched.2
  · exact absurd hid hkind
  · exact h.correlated order horder row hmatched htakes other hother hne
  · intro hsame
    refine h.corroborated order horder row hmatched other hother hne (.inr ⟨?_, hsame⟩)
    rw [hsame]
    exact row_id_of_takes htakes

/-- A row that another order is matched to and takes is not a corroborated order's. -/
theorem Unclaimed.corroborated_once (h : Unclaimed engine store book) {kind : MatchKind}
    {first second row : Order} (hfirst : first ∈ store.rows) (hsecond : second ∈ store.rows)
    (hlt : first.intent.clientRef ≠ second.intent.clientRef)
    (hcorroborated : MatchedTo book .attributeCorroboration second row)
    (hmatched : MatchedTo book kind first row) (hkind : kind ≠ .brokerOrderId)
    (htakes : takesId engine first row = true) :
    second.intent.clientRef < first.intent.clientRef
      ∧ MatchedTo book .attributeCorroboration first row := by
  obtain ⟨-, ⟨hid, -⟩ | ⟨rfl, -, href, hsame⟩ | ⟨rfl, -⟩⟩ := classify_cases hmatched.2
  · exact absurd hid hkind
  · exact absurd (.inl ⟨href, hsame.symm⟩)
      (h.corroborated second hsecond row hcorroborated first hfirst hlt)
  · refine ⟨lt_of_le_of_ne (not_lt.mp fun hfirst' => ?_) hlt.symm, hmatched⟩
    rw [h.twins first hfirst second hsecond row hfirst' hmatched hcorroborated] at htakes
    cases htakes

/-- Two orders never take the same id. -/
theorem Unclaimed.taken_once (h : Unclaimed engine store book)
    (hbook : (book.map (·.brokerOrderId)).Nodup) {kind kind' : MatchKind} {a b p q : Order}
    (ha : a ∈ store.rows) (hb : b ∈ store.rows) (hne : a.intent.clientRef ≠ b.intent.clientRef)
    (hp : MatchedTo book kind a p) (hkind : kind ≠ .brokerOrderId)
    (hptakes : takesId engine a p = true)
    (hq : MatchedTo book kind' b q) (hkind' : kind' ≠ .brokerOrderId)
    (hqtakes : takesId engine b q = true) : p.brokerOrderId ≠ q.brokerOrderId := by
  intro hsame
  obtain ⟨hpBook, hpCases⟩ := classify_cases hp.2
  obtain ⟨hqBook, hqCases⟩ := classify_cases hq.2
  obtain rfl : p = q := List.inj_on_of_nodup_map hbook hpBook hqBook hsame
  rcases hpCases with ⟨hid, -⟩ | ⟨rfl, -, -, hpRef⟩ | ⟨rfl, -⟩
  · exact absurd hid hkind
  · rcases hqCases with ⟨hid, -⟩ | ⟨-, -, -, hqRef⟩ | ⟨rfl, -⟩
    · exact absurd hid hkind'
    · exact hne (hpRef.symm.trans hqRef)
    · cases (h.corroborated_once ha hb hne hq hp hkind hptakes).2.2.symm.trans hp.2
  · obtain ⟨hlt, hq'⟩ := h.corroborated_once hb ha hne.symm hp hq hkind' hqtakes
    exact absurd (h.corroborated_once ha hb hne hq' hp hkind hptakes).1 (not_lt.mpr hlt.le)

/-- Orders that share an id in the run shared it before. -/
theorem Unclaimed.shared_before (h : Unclaimed engine store book)
    (hbook : (book.map (·.brokerOrderId)).Nodup) {a b : Order} {front : List Order}
    (ha : a ∈ store.rows) (hb : b ∈ store.rows) (hne : a.intent.clientRef ≠ b.intent.clientRef)
    (hshare : (passed engine book front a).brokerOrderId
      = (passed engine book front b).brokerOrderId) :
    (passed engine book front a).brokerOrderId = a.brokerOrderId
      ∧ a.brokerOrderId = b.brokerOrderId := by
  rcases passed_id engine book front a with haId | ⟨kind, p, -, hp, hkind, hptakes, haId⟩
  · rcases passed_id engine book front b with hbId | ⟨kind', q, -, hq, hkind', hqtakes, hbId⟩
    · exact ⟨haId, haId.symm.trans (hshare.trans hbId)⟩
    · exact absurd (haId.symm.trans (hshare.trans hbId))
        (h.foreign_id hb ha hne hq hkind' hqtakes)
  · rcases passed_id engine book front b with hbId | ⟨kind', q, -, hq, hkind', hqtakes, hbId⟩
    · exact absurd (hbId.symm.trans (hshare.symm.trans haId))
        (h.foreign_id ha hb hne.symm hp hkind hptakes)
    · exact absurd (haId.symm.trans (hshare.trans hbId))
        (h.taken_once hbook ha hb hne hp hkind hptakes hq hkind' hqtakes)

end

theorem find_passed {start st : Resolving} {book front : List Order}
    (h : Passed start book front st) {ref : Bytes} {order : Order}
    (hfind : st.store.find ref = some order) :
    ∃ before ∈ start.store.rows, before.intent.clientRef = ref
      ∧ order = passed start.engine book front before := by
  rw [h.find ref] at hfind
  obtain ⟨before, hbefore, rfl⟩ := Option.map_eq_some_iff.mp hfind
  obtain ⟨hmem, hkey⟩ := Table.mem_of_find hbefore
  exact ⟨before, hmem, hkey, rfl⟩

theorem oneOwner_of_unclaimed {st : Resolving} {book : List Order}
    (hbook : (book.map (·.brokerOrderId)).Nodup) (h : Unclaimed st.engine st.store book)
    (readFailure : Option Error) {answers : Order → Answer} (hreads : Reads book answers) :
    OneOwner readFailure answers st := by
  cases readFailure with
  | some error => exact ⟨fun _ _ _ hshare => hshare, fun adoption hmem => by cases hmem⟩
  | none =>
  refine ⟨?_, ?_⟩
  · rintro a b hne ⟨x, y, hx, hy, hid, hsame⟩
    obtain ⟨done, st', hpassed, hstore, -⟩ := resolveEach_passed hreads []
      (List.nil_append st.store.rows).symm (passed_nil st book)
    have hend : (resolveAll none answers st).2.store = st'.store := hstore
    rw [hend] at hx hy
    obtain ⟨x', hx', rfl, rfl⟩ := find_passed hpassed hx
    obtain ⟨y', hy', rfl, rfl⟩ := find_passed hpassed hy
    obtain ⟨hkept, hbefore⟩ := h.shared_before hbook hx' hy' hne hsame
    rw [hkept] at hid
    exact ⟨x', y', Table.find_eq_some_iff.mpr ⟨hx', rfl⟩, Table.find_eq_some_iff.mpr ⟨hy', rfl⟩,
      hid, hbefore⟩
  · intro adoption hmem hkind other hother hne howns
    obtain ⟨done, back, st', hrows, hpassed, hstore, hunknown, hclassify⟩ :=
      adoption_passed hreads (List.nil_append st.store.rows).symm (passed_nil st book) hmem
    rw [hkind] at hclassify
    have hmatched : MatchedTo book .attributeCorroboration adoption.order adoption.row :=
      ⟨hunknown, hclassify⟩
    have horder : adoption.order ∈ st.store.rows := by
      rw [hrows]
      simp
    rw [hstore] at hother
    obtain ⟨before, hbefore, href, rfl⟩ :=
      find_passed hpassed (Table.find_eq_some_iff.mpr ⟨hother, rfl⟩)
    rw [passed_clientRef] at hne
    have hfree := h.corroborated _ horder _ hmatched before hbefore hne
    rcases howns with howns | ⟨hid, hsame⟩
    · rw [passed_clientRef] at howns
      exact hfree (.inl howns)
    · rcases passed_id st.engine book done before with
        hkept | ⟨kind, row, hdone, hrow, hrowKind, htakes, htaken⟩
      · rw [hkept] at hid hsame
        exact hfree (.inr ⟨hid, hsame⟩)
      · -- an order in front took the very row
        obtain rfl : row = adoption.row := List.inj_on_of_nodup_map hbook
          (classify_cases hrow.2).1 (classify_cases hclassify).1 (htaken.symm.trans hsame)
        have hlt := (h.corroborated_once hbefore horder hne hmatched hrow hrowKind htakes).1
        have hsorted := st.store.sorted
        rw [hrows, List.pairwise_map, List.pairwise_append] at hsorted
        exact absurd hlt (not_lt.mpr (hsorted.2.2 before hdone adoption.order (by simp)).le)

/-! ## One owner needs unclaimed rows -/

theorem reads_faultless (book : List Order) : Reads book (faultless book) :=
  fun _ => .inl rfl

/-- The adoption of an order in the run without faults. -/
theorem adoption_of_matched {st : Resolving} {book : List Order} {kind : MatchKind}
    {order row : Order} (horder : order ∈ st.store.rows)
    (hmatched : MatchedTo book kind order row) :
    ∃ front adoption, adoption ∈ adoptionsOf none (faultless book) st
      ∧ adoption.order = order ∧ adoption.kind = kind ∧ adoption.row = row
      ∧ (∀ other ∈ st.store.rows, passed st.engine book front other ∈ adoption.store.rows)
      ∧ ∀ other ∈ st.store.rows, other.intent.clientRef < order.intent.clientRef →
        other ∈ front := by
  obtain ⟨front, back, hrows⟩ := List.append_of_mem horder
  obtain ⟨adoption, hmem, hadopted, hkind, hrow, st', hpassed, hstore⟩ :=
    exists_adoption (List.nil_append st.store.rows).symm (passed_nil st book) hmatched.1
      hmatched.2 hrows
  rw [List.nil_append] at hpassed
  refine ⟨front, adoption, hmem, hadopted, hkind, hrow, fun other hother => ?_,
    fun other hother hlt => ?_⟩
  · rw [hstore]
    have hfind := hpassed.find other.intent.clientRef
    rw [Table.find_eq_some_iff.mpr ⟨hother, rfl⟩] at hfind
    exact (Table.mem_of_find hfind).1
  · have hsorted := st.store.sorted
    rw [hrows] at hother
    rw [hrows, List.pairwise_map, List.pairwise_append, List.pairwise_cons] at hsorted
    rcases List.mem_append.mp hother with hfront | hother
    · exact hfront
    · rcases List.mem_cons.mp hother with rfl | hback
      · exact absurd hlt (lt_irrefl _)
      · exact absurd hlt (not_lt.mpr (hsorted.2.1.1 other hback).le)

theorem unclaimed_of_oneOwner {st : Resolving} {book : List Order}
    (hbook : (book.map (·.brokerOrderId)).Nodup) (h : OneOwner none (faultless book) st) :
    Unclaimed st.engine st.store book where
  correlated := by
    intro order horder row hmatched htakes other hother hne hsame
    obtain ⟨hrow, hcases⟩ := classify_cases hmatched.2
    have hid := row_id_of_takes htakes
    obtain ⟨done, st', hpassed, hstore, hall⟩ := resolveEach_passed (reads_faultless book) []
      (List.nil_append st.store.rows).symm (passed_nil st book)
    obtain rfl := hall rfl
    have horderEnd := passed_takes horder hmatched htakes
    have hotherEnd := passed_keeps_id st.engine hbook hrow
      (by rw [hsame]; exact hid) hsame st.store.rows
    have hfind : ∀ o ∈ st.store.rows, (resolveAll none (faultless book) st).2.store.find
        o.intent.clientRef = some (passed st.engine book st.store.rows o) := by
      intro o ho
      rw [show (resolveAll none (faultless book) st).2.store = st'.store from hstore,
        hpassed.find, Table.find_eq_some_iff.mpr ⟨ho, rfl⟩]
      rfl
    obtain ⟨x, y, hx, hy, -, hshared⟩ := h.ids _ _ hne ⟨_, _, hfind other hother,
      hfind order horder, by rw [hotherEnd]; exact hid, hotherEnd.trans horderEnd.symm⟩
    rw [Table.find_eq_some_iff.mpr ⟨hother, rfl⟩] at hx
    rw [Table.find_eq_some_iff.mpr ⟨horder, rfl⟩] at hy
    obtain rfl := Option.some.inj hx
    obtain rfl := Option.some.inj hy
    -- the first rung missed, so the order did not have the row's id
    rcases hcases with ⟨hkind, -⟩ | ⟨-, hmiss, -⟩ | ⟨hkind, -⟩
    · cases hkind
    · exact ne_of_byBrokerOrderId hmiss hrow hid (hsame.symm.trans hshared)
    · cases hkind
  corroborated := by
    intro order horder row hmatched other hother hne howns
    obtain ⟨front, adoption, hmem, horder', hkind, hrow', hstored, -⟩ :=
      adoption_of_matched horder hmatched
    refine h.rows adoption hmem hkind _ (hstored other hother)
      (by rw [passed_clientRef, horder']; exact hne) ?_
    rw [hrow']
    rcases howns with howns | ⟨hid, hsame⟩
    · left
      rw [passed_clientRef]
      exact howns
    · right
      rw [passed_keeps_id st.engine hbook (classify_cases hmatched.2).1 hid hsame front, ← hsame]
      exact ⟨hid, rfl⟩
  twins := by
    intro first hfirst second hsecond row hlt hfirst' hsecond'
    cases htakes : takesId st.engine first row with
    | false => rfl
    | true =>
      obtain ⟨front, adoption, hmem, horder', hkind, hrow', hstored, hfront⟩ :=
        adoption_of_matched hsecond hsecond'
      have htaken := passed_takes (hfront first hfirst hlt) hfirst' htakes
      refine absurd ?_ (h.rows adoption hmem hkind _ (hstored first hfirst)
        (by rw [passed_clientRef, horder']; exact hlt.ne))
      right
      rw [hrow', htaken]
      exact ⟨row_id_of_takes htakes, rfl⟩

/-- **When resolving gives no broker order to two local orders**: for every store, every engine
and every book with distinct ids, whatever reads and writes fail. -/
theorem one_owner_iff (st : Resolving) (book : List Order)
    (hbook : (book.map (·.brokerOrderId)).Nodup) :
    (∀ readFailure answers, Reads book answers → OneOwner readFailure answers st) ↔
      Unclaimed st.engine st.store book := by
  constructor
  · intro h
    exact unclaimed_of_oneOwner hbook (h none (faultless book) (reads_faultless book))
  · intro h readFailure answers hreads
    exact oneOwner_of_unclaimed hbook h readFailure hreads

/-! Two identical lots `s-1` and `s-2`, and the broker's row of the first. -/

def lot (clientRef brokerOrderId : Bytes) (state : OrderState) : Order :=
  ⟨⟨clientRef, ascii "NIFTY", .buy, 10, 100, none, .limit, .intraday, ascii "s"⟩,
    state, brokerOrderId, 0, 0⟩

def twoLots : Resolving :=
  ⟨(Table.empty.upsert (lot (ascii "s-1") [] .unknown)).upsert (lot (ascii "s-2") [] .unknown),
    .init, []⟩

def rowOfFirst : Order := lot (ascii "s-1") (ascii "B1") .acknowledged

theorem one_owner_iff_two_lots :
    ([rowOfFirst].map (·.brokerOrderId)).Nodup
      ∧ ((∀ readFailure answers, Reads [rowOfFirst] answers →
          OneOwner readFailure answers twoLots) ↔
        Unclaimed twoLots.engine twoLots.store [rowOfFirst]) :=
  ⟨by decide, one_owner_iff twoLots [rowOfFirst] (by decide)⟩

/-- **Two orders on one row**: `s-1` adopts its row by token, and `s-2` the same row by its
attributes, although the row carries the client ref of `s-1`. -/
theorem row_adopted_twice :
    ([rowOfFirst].map (·.brokerOrderId)).Nodup
      ∧ SharesId (resolveAll none (faultless [rowOfFirst]) twoLots).2.store (ascii "s-1")
          (ascii "s-2")
      ∧ ¬ OneOwner none (faultless [rowOfFirst]) twoLots := by
  have hshared : SharesId (resolveAll none (faultless [rowOfFirst]) twoLots).2.store
      (ascii "s-1") (ascii "s-2") :=
    ⟨lot (ascii "s-1") (ascii "B1") .acknowledged, lot (ascii "s-2") (ascii "B1") .acknowledged,
      by decide, by decide, by decide, by decide⟩
  refine ⟨by decide, hshared, fun h => ?_⟩
  obtain ⟨x, y, hx, -, hid, -⟩ := h.ids _ _ (by decide) hshared
  have hbefore : twoLots.store.find (ascii "s-1") = some (lot (ascii "s-1") [] .unknown) := by
    decide
  rw [hbefore] at hx
  obtain rfl := Option.some.inj hx
  exact hid rfl

end BrokerExec.Runtime.UnknownResolver

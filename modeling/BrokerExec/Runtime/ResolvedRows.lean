import BrokerExec.Runtime.UnknownResolver
import BrokerExec.Lib.FixedWidth

/-!
# What a resolution leaves in the store (`runtime/unknown_resolver.cpp`)

`resolve` sets `resolved_ok` on the match alone, while the order moves only as far as the state
machine lets it: a row that is `Unknown` itself, or of a state no `Unknown` order can go to,
leaves the order `Unknown` and says `resolved_ok` all the same, without an alert.

* **`adopted_unknown_iff`** — what an `Unknown` order becomes: the row's state, or `Unknown`;
* **`resolveEach_settles`**, **`resolveEach_ok`** — what a run leaves of each order, and when it
  ends with every resolution ok;
* **`resolved_ok_iff`** — a resolution shows the matched row, and a run of them leaves no
  `Unknown` row, exactly when every matched row names an outcome.
-/

namespace BrokerExec.Runtime.UnknownResolver

open BrokerExec.Domain (Order OrderState)
open BrokerExec.Errors (Error)
open BrokerExec.Lifecycle

/-! ## The property and the condition -/

/-- The fetch and the upsert succeed, and this is the row the order is matched to. -/
def AdoptsRow (answer : Answer) (order row : Order) : Prop :=
  ∃ book, answer = ⟨.ok book, none⟩ ∧ (classify order book).matched = some row

/-- The state the engine is asked to put the order in. -/
def observedFor (engine : LifecycleEngine) (order row : Order) : OrderState :=
  canonicalObserved order.state (viewOf engine order row)

/-- The order shows the row: not `Unknown`, with the row's state, quantity and price. -/
structure Shows (engine : LifecycleEngine) (before row order : Order) : Prop where
  known : order.state ≠ .unknown
  state : order.state = observedFor engine before row
  filledQty : order.filledQty = row.filledQty
  avgPrice : order.avgPrice = row.avgPrice

/-- **Resolved means resolved**: a resolution that is ok leaves the matched row in the store. -/
def ResolvedShows (answer : Answer) (st : Resolving) (order : Order) : Prop :=
  ∀ resolution st', resolve answer st order = (.ok resolution, st') →
    resolution.resolvedOk = true →
    ∃ book row stored, answer.fetched = .ok book ∧ (classify order book).matched = some row
      ∧ st'.store.find order.intent.clientRef = some stored ∧ Shows st.engine order row stored

/-- A pause lifted because every resolution of `resolve_all` is ok leaves no `Unknown` row. -/
def PauseLiftsClean (readFailure : Option Error) (answers : Order → Answer) (st : Resolving) :
    Prop :=
  ∀ out st', resolveAll readFailure answers st = (.ok out, st') →
    (∀ resolution ∈ out, resolution.resolvedOk = true) →
    ∀ order ∈ st'.store.rows, order.state ≠ .unknown

/-- A broker state an `Unknown` order can be resolved to. -/
def namesOutcome (row : Order) : Bool :=
  row.state ∉ [.created, .validated, .pendingSend, .unknown]

/-- The key `adopt` takes is above the last one. -/
def KeyHasRoom (engine : LifecycleEngine) (order : Order) : Prop :=
  engine.lastKey order.intent.clientRef ≠ some Int64.maxValue

/-- **The condition** on an order and the row it is matched to. An `Unknown` order needs a row
that names an outcome and room for its key; any other order (`resolve` is handed none) needs a
legal step to a known state, or shows the row already. -/
def Resolvable (engine : LifecycleEngine) (order row : Order) : Prop :=
  if order.state = .unknown then namesOutcome row = true ∧ KeyHasRoom engine order
  else
    (¬ Refused engine order (viewOf engine order row) ∧ observedFor engine order row ≠ .unknown)
      ∨ Shows engine order row order

/-! ## One adoption -/

theorem adopted_fields (engine : LifecycleEngine) (order row : Order) :
    let applied := (engine.apply order (viewOf engine order row)).2.1
    (adopted engine order row).state = applied.state
      ∧ (adopted engine order row).filledQty = applied.filledQty
      ∧ (adopted engine order row).avgPrice = applied.avgPrice := by
  unfold adopted
  dsimp only
  split_ifs
  · exact ⟨rfl, rfl, rfl⟩
  · exact ⟨rfl, rfl, rfl⟩

/-- The adopted order shows the row when the engine took the view to a known state, or when the
order, which the engine left alone, showed the row before. -/
theorem shows_adopted_iff (engine : LifecycleEngine) (order row : Order) :
    Shows engine order row (adopted engine order row)
      ↔ (¬ Refused engine order (viewOf engine order row)
          ∧ observedFor engine order row ≠ .unknown)
        ∨ (Refused engine order (viewOf engine order row) ∧ Shows engine order row order) := by
  obtain ⟨hstate, hqty, hprice⟩ := adopted_fields engine order row
  by_cases hrefused : Refused engine order (viewOf engine order row)
  · rw [apply_refused hrefused] at hstate hqty hprice
    constructor
    · rintro ⟨hknown, hobserved, hfilled, havg⟩
      rw [hstate] at hknown hobserved
      exact .inr ⟨hrefused, hknown, hobserved, hqty.symm.trans hfilled, hprice.symm.trans havg⟩
    · rintro (⟨hadmitted, -⟩ | ⟨-, hknown, hobserved, hfilled, havg⟩)
      · exact absurd hrefused hadmitted
      · exact ⟨by rw [hstate]; exact hknown, hstate.trans hobserved, hqty.trans hfilled,
          hprice.trans havg⟩
  · rw [apply_absorbed hrefused] at hstate hqty hprice
    have hobserved : (adopted engine order row).state = observedFor engine order row := hstate
    constructor
    · rintro ⟨hknown, -, -, -⟩
      exact .inl ⟨hrefused, by rw [← hobserved]; exact hknown⟩
    · rintro (⟨-, hknown⟩ | ⟨hrefused', -⟩)
      · exact ⟨by rw [hobserved]; exact hknown, hobserved, hqty, hprice⟩
      · exact absurd hrefused' hrefused

/-- The view of `adopt` is older than the last one only where the next key wraps. -/
theorem isStale_viewOf_iff (engine : LifecycleEngine) (order row : Order) :
    engine.isStale (viewOf engine order row) = true ↔ ¬ KeyHasRoom engine order := by
  have hkey : (viewOf engine order row).clientRef = order.intent.clientRef := rfl
  rw [LifecycleEngine.isStale, hkey, KeyHasRoom]
  cases hlast : engine.lastKey order.intent.clientRef with
  | none => simp
  | some last =>
    have hnext : (viewOf engine order row).orderingKey = last + 1 := by
      simp only [viewOf, hlast]
    rw [hnext]
    simp only [decide_eq_true_eq, ne_eq, Option.some.injEq, not_not]
    constructor
    · intro hwraps
      by_contra hroom
      have hmax : last.toInt ≠ Int64.maxValue.toInt := fun h => hroom (Int64.toInt_inj.mp h)
      have hmax' : Int64.maxValue.toInt = 2 ^ 63 - 1 := by decide
      have hle : last.toInt < 2 ^ 63 := last.toInt_lt
      have hge : -2 ^ 63 ≤ last.toInt := last.le_toInt
      have hone : (1 : Int64).toInt = 1 := by decide
      have hfits : FitsInt64 (last.toInt + (1 : Int64).toInt) := by
        unfold FitsInt64
        omega
      have hsum := toInt_add_of_fits hfits
      rw [Int64.lt_iff_toInt_lt] at hwraps
      omega
    · rintro rfl
      decide

/-- From `Unknown`, the table admits the outcomes and `Unknown` itself. -/
theorem observed_unknown (engine : LifecycleEngine) {order : Order} (row : Order)
    (hunknown : order.state = .unknown) :
    (isValidTransition order.state (observedFor engine order row) = true
        ∧ observedFor engine order row ≠ .unknown)
      ↔ namesOutcome row = true := by
  have hview : (viewOf engine order row).observedState = row.state := rfl
  rw [observedFor, hunknown, canonicalObserved, hview, namesOutcome]
  cases hstate : row.state with
  | sent =>
    rw [if_neg (by decide)]
    split_ifs
    · decide
    · decide
  | _ =>
    rw [if_pos (by decide)]
    decide

/-- **What an `Unknown` order becomes**: it is known exactly when the row names an outcome and
its key has room, and then it shows the row. -/
theorem adopted_unknown_iff (engine : LifecycleEngine) {order : Order} (row : Order)
    (hunknown : order.state = .unknown) :
    ((adopted engine order row).state ≠ .unknown
        ↔ namesOutcome row = true ∧ KeyHasRoom engine order)
      ∧ (Shows engine order row (adopted engine order row)
        ↔ namesOutcome row = true ∧ KeyHasRoom engine order) := by
  have hlive : isTerminal order.state = false := by rw [hunknown]; rfl
  have hoff : ¬ Shows engine order row order := fun h => h.known hunknown
  have hadmitted : ¬ Refused engine order (viewOf engine order row)
        ∧ observedFor engine order row ≠ .unknown
      ↔ namesOutcome row = true ∧ KeyHasRoom engine order := by
    rw [not_refused_iff, ← observed_unknown engine row hunknown]
    have hroom : engine.isStale (viewOf engine order row) = false ↔ KeyHasRoom engine order := by
      rw [← Bool.not_eq_true, isStale_viewOf_iff, not_not]
    rw [hroom]
    constructor
    · rintro ⟨⟨-, hkey, hlegal⟩, hknown⟩
      exact ⟨⟨hlegal, hknown⟩, hkey⟩
    · rintro ⟨⟨hlegal, hknown⟩, hkey⟩
      exact ⟨⟨hlive, hkey, hlegal⟩, hknown⟩
  have hshows : Shows engine order row (adopted engine order row)
      ↔ namesOutcome row = true ∧ KeyHasRoom engine order := by
    rw [shows_adopted_iff, hadmitted]
    simp [hoff]
  refine ⟨⟨fun hknown => ?_, fun h => (hshows.mpr h).known⟩, hshows⟩
  -- a refused view leaves the order `Unknown`, an absorbed one gives it the observed state
  by_cases hrefused : Refused engine order (viewOf engine order row)
  · have hstate := (adopted_fields engine order row).1
    rw [apply_refused hrefused] at hstate
    exact absurd (hstate.trans hunknown) hknown
  · have hstate := (adopted_fields engine order row).1
    rw [apply_absorbed hrefused] at hstate
    refine hadmitted.mp ⟨hrefused, fun hobserved => hknown ?_⟩
    exact hstate.trans hobserved

/-- What `adopt` writes shows the row exactly under the condition. -/
theorem shows_adopted_iff_resolvable (engine : LifecycleEngine) (order row : Order) :
    Shows engine order row (adopted engine order row) ↔ Resolvable engine order row := by
  rw [Resolvable]
  split_ifs with hunknown
  · exact (adopted_unknown_iff engine row hunknown).2
  · rw [shows_adopted_iff]
    constructor
    · rintro (hadmitted | ⟨-, hshows⟩)
      · exact .inl hadmitted
      · exact .inr hshows
    · rintro (hadmitted | hshows)
      · exact .inl hadmitted
      · by_cases hrefused : Refused engine order (viewOf engine order row)
        · exact .inr ⟨hrefused, hshows⟩
        · refine .inl ⟨hrefused, ?_⟩
          rw [← hshows.state]
          exact hshows.known

/-! ## One `resolve` -/

/-- **Everything a `resolve` that is ok did**: it adopted a row, and stored what it adopted. -/
theorem resolve_ok_cases {answer : Answer} {st st' : Resolving} {order : Order}
    {resolution : UnknownResolution} (h : resolve answer st order = (.ok resolution, st')) :
    (resolution.resolvedOk = false ∧ st'.store = st.store ∧ st'.engine = st.engine
        ∧ ∀ row, ¬ AdoptsRow answer order row)
      ∨ (resolution.resolvedOk = true
        ∧ ∃ row, AdoptsRow answer order row
          ∧ st' = (adopt none st order row).2) := by
  rw [resolve] at h
  cases hfetched : answer.fetched with
  | error error => simp [hfetched] at h
  | ok book =>
  simp only [hfetched] at h
  cases hmatched : (classify order book).matched with
  | none =>
    simp only [hmatched, Prod.mk.injEq, Except.ok.injEq] at h
    obtain ⟨rfl, rfl⟩ := h
    refine .inl ⟨rfl, rfl, rfl, ?_⟩
    rintro row ⟨book', rfl, hrow⟩
    obtain rfl : book' = book := by simpa using hfetched
    rw [hmatched] at hrow
    cases hrow
  | some row =>
    simp only [hmatched] at h
    cases hfailure : answer.upsertFailure with
    | some error =>
      rw [hfailure] at h
      simp [adopt, Store.upsertOrder] at h
    | none =>
      rw [hfailure] at h
      have hanswer : answer = ⟨.ok book, none⟩ := by rw [← hfetched, ← hfailure]
      simp only [adopt, Store.upsertOrder, Prod.mk.injEq, Except.ok.injEq] at h
      obtain ⟨rfl, rfl⟩ := h
      exact .inr ⟨rfl, row, ⟨book, hanswer, hmatched⟩, rfl⟩

theorem resolve_of_adoptsRow {answer : Answer} {order row : Order}
    (h : AdoptsRow answer order row) (st : Resolving) :
    ∃ resolution, resolve answer st order = (.ok resolution, (adopt none st order row).2)
      ∧ resolution.resolvedOk = true := by
  obtain ⟨book, rfl, hmatched⟩ := h
  rw [resolve]
  simp only [hmatched]
  exact ⟨_, rfl, rfl⟩

theorem find_adopt (st : Resolving) (order row : Order) (ref : Bytes) :
    (adopt none st order row).2.store.find ref
      = if ref = order.intent.clientRef then some (adopted st.engine order row)
        else st.store.find ref := by
  show (st.store.upsert (adopted st.engine order row)).find ref = _
  rw [Table.find_upsert, adopted_intent]
  split_ifs
  · rfl
  · rfl

theorem lastKey_adopt (st : Resolving) {order : Order} (row : Order) {ref : Bytes}
    (h : ref ≠ order.intent.clientRef) :
    (adopt none st order row).2.engine.lastKey ref = st.engine.lastKey ref :=
  apply_lastKey_ne st.engine order h

/-! ## The run -/

/-- The refs of the orders still `Unknown` among these. -/
def unknownRefs (orders : List Order) : List Bytes :=
  (orders.filter (·.state = .unknown)).map (·.intent.clientRef)

/-- **What a run leaves**, when every resolution is ok: each `Unknown` order was matched and is
stored as `adopted` made it, and every other ref is as it was. -/
theorem resolveEach_settles {answers : Order → Answer} {orders : List Order}
    (hnodup : (orders.map (·.intent.clientRef)).Nodup) {out out' : List UnknownResolution}
    {st st' : Resolving} (h : resolveEach answers orders out st = (.ok out', st'))
    (hok : ∀ resolution ∈ out', resolution.resolvedOk = true) :
    (∀ resolution ∈ out, resolution ∈ out')
      ∧ (∀ order ∈ orders, order.state = .unknown → ∃ row, AdoptsRow (answers order) order row
        ∧ st'.store.find order.intent.clientRef = some (adopted st.engine order row))
      ∧ ∀ ref, ref ∉ unknownRefs orders → st'.store.find ref = st.store.find ref := by
  induction orders generalizing out st with
  | nil =>
    simp only [resolveEach, Prod.mk.injEq, Except.ok.injEq] at h
    obtain ⟨rfl, rfl⟩ := h
    exact ⟨fun _ hmem => hmem, by simp, fun _ _ => rfl⟩
  | cons order orders ih =>
    obtain ⟨hnew, hrest⟩ := List.nodup_cons.mp hnodup
    rw [resolveEach] at h
    split_ifs at h with hunknown
    · obtain ⟨hout, hsettled, hkept⟩ := ih hrest h
      refine ⟨hout, ?_, fun ref href => hkept ref ?_⟩
      · intro other hother hother_unknown
        rcases List.mem_cons.mp hother with rfl | hother
        · exact absurd hother_unknown hunknown
        · exact hsettled other hother hother_unknown
      · simpa [unknownRefs, hunknown] using href
    · have hunknown := not_not.mp hunknown
      cases hresolve : resolve (answers order) st order with
      | mk result st₁ =>
      cases result with
      | error error => simp [hresolve] at h
      | ok resolution =>
      simp only [hresolve] at h
      obtain ⟨hout, hsettled, hkept⟩ := ih hrest h
      have hthis := hok resolution (hout resolution (by simp))
      obtain ⟨hfalse, -⟩ | ⟨-, row, hadopts, rfl⟩ := resolve_ok_cases hresolve
      · rw [hthis] at hfalse
        cases hfalse
      have hown : order.intent.clientRef ∉ unknownRefs orders := by
        intro hmem
        obtain ⟨other, hother, hsame⟩ := List.mem_map.mp hmem
        exact hnew (List.mem_map.mpr ⟨other, (List.mem_filter.mp hother).1, hsame⟩)
      refine ⟨fun r hr => hout r (by simp [hr]), ?_, fun ref href => ?_⟩
      · intro other hother hother_unknown
        rcases List.mem_cons.mp hother with rfl | hother
        · refine ⟨row, hadopts, ?_⟩
          rw [hkept _ hown, find_adopt, if_pos rfl]
        · -- the key of a later order has not moved yet
          obtain ⟨row', hadopts', hfind⟩ := hsettled other hother hother_unknown
          have hne : other.intent.clientRef ≠ order.intent.clientRef := fun hsame =>
            hnew (List.mem_map.mpr ⟨other, hother, hsame⟩)
          exact ⟨row', hadopts',
            hfind.trans (congrArg some (adopted_congr (lastKey_adopt st row hne) row'))⟩
      · have hsplit : ref ≠ order.intent.clientRef ∧ ref ∉ unknownRefs orders := by
          simpa [unknownRefs, hunknown] using href
        rw [hkept ref hsplit.2, find_adopt, if_neg hsplit.1]

/-- A run whose `Unknown` orders are all matched ends, with every resolution ok. -/
theorem resolveEach_ok {answers : Order → Answer} {orders : List Order}
    (hadopts : ∀ order ∈ orders, order.state = .unknown → ∃ row, AdoptsRow (answers order) order row)
    {out : List UnknownResolution} (hout : ∀ resolution ∈ out, resolution.resolvedOk = true)
    (st : Resolving) :
    ∃ out' st', resolveEach answers orders out st = (.ok out', st')
      ∧ ∀ resolution ∈ out', resolution.resolvedOk = true := by
  induction orders generalizing out st with
  | nil => exact ⟨out, st, rfl, hout⟩
  | cons order orders ih =>
    have hrest : ∀ other ∈ orders, other.state = .unknown →
        ∃ row, AdoptsRow (answers other) other row := fun other hother =>
      hadopts other (List.mem_cons_of_mem _ hother)
    rw [resolveEach]
    split_ifs with hunknown
    · exact ih hrest hout st
    · obtain ⟨row, hrow⟩ := hadopts order (by simp) (not_not.mp hunknown)
      obtain ⟨resolution, hresolve, hresolved⟩ := resolve_of_adoptsRow hrow st
      rw [hresolve]
      refine ih hrest ?_ _
      intro r hr
      rcases List.mem_append.mp hr with hr | hr
      · exact hout r hr
      · rw [List.mem_singleton.mp hr]
        exact hresolved

/-- Every `Unknown` order of the store finds its row, without a fault. -/
def AllMatched (readFailure : Option Error) (answers : Order → Answer) (store : Store) : Prop :=
  readFailure = none ∧ ∀ order ∈ store.rows, order.state = .unknown →
    ∃ row, AdoptsRow (answers order) order row

theorem matched_unique {answer : Answer} {order row row' : Order} (h : AdoptsRow answer order row)
    (h' : AdoptsRow answer order row') : row = row' := by
  obtain ⟨book, rfl, hrow⟩ := h
  obtain ⟨book', hanswer, hrow'⟩ := h'
  obtain rfl : book = book' := by simpa using hanswer
  exact Option.some.inj (hrow.symm.trans hrow')

/-- **The pause over a run.** -/
theorem pauseLiftsClean_iff (readFailure : Option Error) (answers : Order → Answer)
    (st : Resolving) :
    PauseLiftsClean readFailure answers st ↔
      (AllMatched readFailure answers st.store → ∀ order ∈ st.store.rows, order.state = .unknown →
        ∀ row, AdoptsRow (answers order) order row → Resolvable st.engine order row) := by
  have hrun : resolveAll none answers st = resolveEach answers st.store.rows [] st := rfl
  constructor
  · rintro hclean ⟨rfl, hmatched⟩ order hmem hunknown row hrow
    obtain ⟨out, st', hout, hok⟩ := resolveEach_ok hmatched (List.forall_mem_nil _) st
    obtain ⟨-, hsettled, -⟩ := resolveEach_settles st.store.nodup_keys hout hok
    obtain ⟨row', hrow', hfind⟩ := hsettled order hmem hunknown
    obtain rfl := matched_unique hrow hrow'
    have hknown := hclean out st' (hrun.trans hout) hok _ (Table.mem_of_find hfind).1
    rw [Resolvable, if_pos hunknown]
    exact (adopted_unknown_iff st.engine row hunknown).1.mp hknown
  · intro hcondition out st' hresolve hok order hmem
    cases readFailure with
    | some error => cases hresolve
    | none =>
    obtain ⟨-, hsettled, hkept⟩ :=
      resolveEach_settles st.store.nodup_keys (hrun.symm.trans hresolve) hok
    have hmatched : AllMatched none answers st.store := by
      refine ⟨rfl, fun other hother hunknown => ?_⟩
      obtain ⟨row, hrow, -⟩ := hsettled other hother hunknown
      exact ⟨row, hrow⟩
    have hfind : st'.store.find order.intent.clientRef = some order :=
      Table.find_eq_some_iff.mpr ⟨hmem, rfl⟩
    by_cases href : order.intent.clientRef ∈ unknownRefs st.store.rows
    · -- the order was `Unknown` when the run began
      obtain ⟨before, hbefore, hsame⟩ := List.mem_map.mp href
      obtain ⟨hbefore, hunknown⟩ := List.mem_filter.mp hbefore
      have hunknown : before.state = .unknown := by simpa using hunknown
      obtain ⟨row, hrow, hstored⟩ := hsettled before hbefore hunknown
      rw [hsame, hfind] at hstored
      obtain rfl := Option.some.inj hstored
      have hresolvable := hcondition hmatched before hbefore hunknown row hrow
      rw [Resolvable, if_pos hunknown] at hresolvable
      exact (adopted_unknown_iff st.engine row hunknown).1.mpr hresolvable
    · rw [hkept _ href] at hfind
      intro hunknown
      refine href (List.mem_map.mpr ⟨order, List.mem_filter.mpr ⟨?_, ?_⟩, rfl⟩)
      · exact (Table.mem_of_find hfind).1
      · simpa using hunknown

/-- **One resolution.** -/
theorem resolvedShows_iff (answer : Answer) (st : Resolving) (order : Order) :
    ResolvedShows answer st order ↔
      ∀ row, AdoptsRow answer order row → Resolvable st.engine order row := by
  constructor
  · intro hshows row hrow
    obtain ⟨resolution, hresolve, hok⟩ := resolve_of_adoptsRow hrow st
    obtain ⟨book, row', stored, hfetched, hmatched, hfind, hstored⟩ :=
      hshows resolution _ hresolve hok
    obtain ⟨book', rfl, hrow⟩ := hrow
    obtain rfl : book' = book := by simpa using hfetched
    obtain rfl := Option.some.inj (hmatched.symm.trans hrow)
    rw [find_adopt, if_pos rfl] at hfind
    rw [← shows_adopted_iff_resolvable, Option.some.inj hfind]
    exact hstored
  · intro hcondition resolution st' hresolve hok
    obtain ⟨hfalse, -⟩ | ⟨-, row, hrow, rfl⟩ := resolve_ok_cases hresolve
    · rw [hok] at hfalse
      cases hfalse
    have hresolvable := hcondition row hrow
    obtain ⟨book, rfl, hmatched⟩ := hrow
    refine ⟨book, row, adopted st.engine order row, rfl, hmatched, ?_, ?_⟩
    · rw [find_adopt, if_pos rfl]
    · exact (shows_adopted_iff_resolvable _ _ _).mpr hresolvable

/-- **When resolved means resolved**: for one order, exactly when the row it adopts resolves it;
for a run, exactly when, all its `Unknown` orders being matched, every row resolves its order. -/
theorem resolved_ok_iff (st : Resolving) :
    (∀ answer order, ResolvedShows answer st order ↔
        ∀ row, AdoptsRow answer order row → Resolvable st.engine order row)
      ∧ ∀ readFailure answers, PauseLiftsClean readFailure answers st ↔
        (AllMatched readFailure answers st.store →
          ∀ order ∈ st.store.rows, order.state = .unknown →
            ∀ row, AdoptsRow (answers order) order row → Resolvable st.engine order row) :=
  ⟨fun answer order => resolvedShows_iff answer st order,
    fun readFailure answers => pauseLiftsClean_iff readFailure answers st⟩

/-- The order `s-1`, `Unknown`, and the broker's row of it, of a state the adapter could not
read. -/
def oneLot : Resolving := ⟨Table.empty.upsert (lot (ascii "s-1") [] .unknown), .init, []⟩

def unreadRow : Order := lot (ascii "s-1") (ascii "B1") .unknown

/-- **Resolved and still `Unknown`**: the row is matched by token, every resolution is ok, no
alert is raised, and the order is `Unknown` in the store. -/
theorem resolved_ok_unknown :
    (∃ out, (resolveAll none (faultless [unreadRow]) oneLot).1 = .ok out
        ∧ out.map (·.resolvedOk) = [true])
      ∧ (resolveAll none (faultless [unreadRow]) oneLot).2.alerts = []
      ∧ ¬ ResolvedShows ⟨.ok [unreadRow], none⟩ oneLot (lot (ascii "s-1") [] .unknown)
      ∧ ¬ PauseLiftsClean none (faultless [unreadRow]) oneLot := by
  have hrow : AdoptsRow ⟨.ok [unreadRow], none⟩ (lot (ascii "s-1") [] .unknown) unreadRow :=
    ⟨[unreadRow], rfl, by decide⟩
  have hstuck : ¬ Resolvable oneLot.engine (lot (ascii "s-1") [] .unknown) unreadRow := by
    have hunknown : (lot (ascii "s-1") [] .unknown).state = .unknown := rfl
    rw [Resolvable, if_pos hunknown]
    exact fun h => absurd h.1 (by decide)
  have hrows : oneLot.store.rows = [lot (ascii "s-1") [] .unknown] := by decide
  refine ⟨⟨_, rfl, by decide⟩, by decide, fun h => ?_, fun h => ?_⟩
  · exact hstuck ((resolvedShows_iff _ _ _).mp h _ hrow)
  · refine hstuck ((pauseLiftsClean_iff _ _ _).mp h ⟨rfl, ?_⟩ _ (by simp [hrows]) rfl _ hrow)
    rw [hrows]
    intro order horder _
    obtain rfl := List.mem_singleton.mp horder
    exact ⟨unreadRow, hrow⟩

end BrokerExec.Runtime.UnknownResolver

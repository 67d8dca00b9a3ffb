import BrokerExec.Reconcile.Agreement

/-!
# Crash recovery (`reconcile/recovery.cpp`)

`recover` loads the persisted orders, checks the session, fetches broker truth, reconciles and
resumes only behind its gates. It always fetches with `snapshot_seq` 1 into a fresh applier,
but the engine may have been used before: a row of an order whose engine key is above 1 is
dropped as older, which is neither a mismatch nor an `Unknown`.

* **`recover_iff`** — on every other verdict than `ResumedSafe` nothing was changed that
  should not be; and `ResumedSafe` means agreement with the broker exactly when the rows are
  consistent and every row dropped as older repeats its order.
-/

namespace BrokerExec.Reconcile

open BrokerExec.Domain (Order)
open BrokerExec.Errors (Error)
open BrokerExec.Lifecycle
open BrokerExec.Ports (Alert BrokerCall)

/-! ## The model -/

/-- The answers to the four reads. Trades, positions and funds are fetched and not looked at. -/
structure BrokerReads where
  orders : Result (List Order)
  trades : Result Unit
  positions : Result Unit
  funds : Result Unit

/-- `Reconciler::fetch`, with the calls it makes: the first failing read ends it. -/
def fetch (reads : BrokerReads) (snapshotSeq : Int64) :
    Result ReconcileResult × List BrokerCall :=
  match reads.orders with
  | .error error => (.error error, [.fetchOrders])
  | .ok orders =>
    match reads.trades with
    | .error error => (.error error, [.fetchOrders, .fetchTrades])
    | .ok () =>
      match reads.positions with
      | .error error => (.error error, [.fetchOrders, .fetchTrades, .fetchPositions])
      | .ok () =>
        match reads.funds with
        | .error error =>
          (.error error, [.fetchOrders, .fetchTrades, .fetchPositions, .fetchFunds])
        | .ok () =>
          (.ok ⟨orders, snapshotSeq⟩, [.fetchOrders, .fetchTrades, .fetchPositions, .fetchFunds])

/-- The reply was received and could not be read; anything else counts as unreachable. -/
def brokerAnswered (error : Error) : Bool :=
  error.category = .dataStale || error.category = .validation

def countUnknown (orders : List Order) : Nat := orders.countP fun order => order.state = .unknown

inductive RecoveryStatus where
  | resumedSafe
  | blocked
  | manualInterventionRequired
  deriving DecidableEq

structure RecoveryOutcome where
  status : RecoveryStatus
  orders : List Order
  unknownsResolved : Nat
  unknownsUnresolved : Nat
  escalated : Bool
  detail : Bytes
  mismatches : Nat

/-- Blocked, fail-closed. -/
def RecoveryOutcome.init : RecoveryOutcome := ⟨.blocked, [], 0, 0, false, [], 0⟩

/-- What the seams of the coordinator and the broker answer. -/
structure Seams where
  loadState : Result (List Order)
  checkSession : Result Unit
  reads : BrokerReads
  safeStartCheck : Result Unit

/-- One `recover`: its outcome, the calls on the broker, the alerts and the engine behind it. -/
structure Recovery where
  outcome : RecoveryOutcome
  calls : List BrokerCall
  alerts : List Alert
  engine : LifecycleEngine

/-- The double fault takes an `Unknown` order out of the machine's hands. -/
def forceManual (order : Order) : Order :=
  if order.state = .unknown then { order with state := .manualInterventionRequired } else order

/-- Step 3 when the fetch failed. -/
def recoverUnfetched (loaded : List Order) (error : Error) : RecoveryOutcome × List Alert :=
  let outcome := { RecoveryOutcome.init with orders := loaded }
  if brokerAnswered error then
    ({ outcome with
      detail := ascii "broker reachable but its reply was unreadable; cannot reconcile yet" }, [])
  else
    let forced := { outcome with orders := loaded.map forceManual }
    if 0 < countUnknown loaded then
      ({ forced with
        status := .manualInterventionRequired
        unknownsUnresolved := countUnknown loaded
        escalated := true
        detail := ascii "double fault: UNKNOWN order + broker unreachable" },
        [.plain .critical (ascii ("recovery: double fault (UNKNOWN order + broker unreachable) -> "
          ++ "MANUAL_INTERVENTION_REQUIRED; human intervention required, no auto-square-off"))])
    else ({ forced with detail := ascii "broker unreachable; cannot reconcile yet" }, [])

/-- Step 5: the gates behind the reconciliation. -/
def gate (safeStart : Result Unit) (recon : ReconcileOutcome) (outcome : RecoveryOutcome) :
    RecoveryOutcome :=
  match safeStart with
  | .error _ => { outcome with detail := ascii "safe-start gate blocked" }
  | .ok () =>
    if 0 < outcome.unknownsUnresolved then
      { outcome with detail := ascii "open UNKNOWN orders; not safe to resume" }
    else if recon.blockNewOrders ∨ 0 < recon.mismatches then
      { outcome with
        detail := ascii
          "reconciliation mismatch (phantom/vanished order); not safe to resume" }
    else
      { outcome with
        status := .resumedSafe
        escalated := false
        detail := ascii "reconciled clean; safe to resume" }

/-- Steps 4 and 5. -/
def recoverFetched (seams : Seams) (engine : LifecycleEngine) (loaded : List Order)
    (result : ReconcileResult) : RecoveryOutcome × List Alert × LifecycleEngine :=
  let (recon, applier) := (ReconcileApplier.create engine).apply result loaded
  let outcome :=
    { RecoveryOutcome.init with
      orders := recon.orders
      unknownsUnresolved := countUnknown recon.orders
      mismatches := recon.outcome.mismatches
      unknownsResolved := countUnknown loaded - countUnknown recon.orders }
  (gate seams.safeStartCheck recon.outcome outcome, recon.alerts, applier.engine)

/-- `RecoveryCoordinator::recover`. -/
def recover (seams : Seams) (engine : LifecycleEngine) : Recovery :=
  match seams.loadState with
  | .error _ =>
    ⟨{ RecoveryOutcome.init with detail := ascii "could not load state" }, [],
      [.plain .warning (ascii "recovery: could not load state")], engine⟩
  | .ok loaded =>
    match seams.checkSession with
    | .error _ =>
      ⟨{ RecoveryOutcome.init with
        orders := loaded, detail := ascii "session not established" }, [], [], engine⟩
    | .ok () =>
      let (fetched, calls) := fetch seams.reads 1
      match fetched with
      | .error error =>
        let (outcome, alerts) := recoverUnfetched loaded error
        ⟨outcome, calls, alerts, engine⟩
      | .ok result =>
        let (outcome, alerts, engine') := recoverFetched seams engine loaded result
        ⟨outcome, calls, alerts, engine'⟩

/-! ## Rows dropped as older -/

/-- The engine has applied something newer than the snapshot to the order at this position. -/
def OlderAt (orderingKey : Int64) (i : Nat) (order : Order) (st : Reconciling) : Prop :=
  st.orders[i]? = some order
    ∧ (st.engine.lastKey (engineKey order)).any (orderingKey < ·) = true

/-- An engine with a newer key for this client ref leaves the order and that key alone. -/
theorem apply_of_older {orderingKey : Int64} {engine : LifecycleEngine} {order : Order}
    (h : (engine.lastKey (engineKey order)).any (orderingKey < ·) = true) (row : Order) :
    (engine.apply order (viewOf orderingKey order row)).2 = (order, engine) := by
  have hstale : engine.isStale (viewOf orderingKey order row) = true := by
    rw [LifecycleEngine.isStale_eq]
    exact h
  exact apply_refused (.inr (.inl hstale))

theorem olderAt_stepRow {orderingKey : Int64} {i : Nat} {order : Order} {st : Reconciling}
    (h : OlderAt orderingKey i order st) (row : Order) :
    OlderAt orderingKey i order (stepRow false orderingKey st row) := by
  obtain ⟨hget, holder⟩ := h
  cases hfeed : feedOf st row with
  | none =>
    rw [stepRow_unmatched hfeed]
    exact ⟨hget, holder⟩
  | some feed =>
    obtain ⟨hmatch, hrow, -⟩ := feedOf_eq_some hfeed
    have hfound := (matchOf_eq_some hmatch).1
    obtain ⟨horders, hengine⟩ := stepRow_matched hfeed orderingKey
    by_cases hkey : engineKey feed.order = engineKey order
    · -- the row's own order has the newer key too: nothing moves
      have happly := apply_of_older (by rw [hkey]; exact holder) row
      have hresult : feed.result orderingKey st.engine = feed.order := by
        rw [Feed.result, hrow, happly]
      rw [happly] at hengine
      refine ⟨?_, by rw [hengine]; exact holder⟩
      rw [horders, hresult]
      by_cases hi : feed.index = i
      · rw [← hi, List.getElem?_set_self (List.getElem?_eq_some_iff.mp hfound).1, ← hget, ← hi]
        exact hfound.symm
      · rw [List.getElem?_set_ne hi]
        exact hget
    · have hi : feed.index ≠ i := by
        rintro rfl
        rw [hget] at hfound
        exact hkey (by rw [Option.some.inj hfound])
      refine ⟨by rw [horders, List.getElem?_set_ne hi]; exact hget, ?_⟩
      have hlast : (stepRow false orderingKey st row).engine.lastKey (engineKey order)
          = st.engine.lastKey (engineKey order) := by
        rw [hengine]
        exact apply_lastKey_ne st.engine feed.order (Ne.symm hkey)
      rw [hlast]
      exact holder

/-- A newer key was there before the row: a row only ever leaves the snapshot's own key. -/
theorem olderAt_of_stepRow {orderingKey : Int64} {i : Nat} {order : Order} {st : Reconciling}
    {row : Order} (h : OlderAt orderingKey i order (stepRow false orderingKey st row)) :
    OlderAt orderingKey i order st := by
  obtain ⟨hget, holder⟩ := h
  obtain ⟨before, hbefore⟩ : ∃ before, st.orders[i]? = some before := by
    have hlength := (List.getElem?_eq_some_iff.mp hget).1
    have hsame : (stepRow false orderingKey st row).orders.length
        = st.orders.length := by
      cases hfeed : feedOf st row with
      | none => rw [stepRow_unmatched hfeed]; rfl
      | some feed => rw [(stepRow_matched hfeed orderingKey).1, List.length_set]
    rw [hsame] at hlength
    exact ⟨_, List.getElem?_eq_getElem hlength⟩
  obtain ⟨order', hget', hkey, -⟩ := stepRow_keeps hbefore orderingKey row
  rw [hget] at hget'
  obtain rfl := Option.some.inj hget'
  have hnever : ¬ orderingKey < orderingKey := Int64.lt_irrefl
  have hstill : (st.engine.lastKey (engineKey before)).any (orderingKey < ·) = true := by
    rw [hkey] at holder
    rcases stepRow_lastKey orderingKey st row (engineKey before) with hlast | hlast
    · rw [← hlast]
      exact holder
    · rw [hlast] at holder
      simp [hnever] at holder
  have hkept := (olderAt_stepRow ⟨hbefore, hstill⟩ row).1
  rw [hget] at hkept
  obtain rfl := Option.some.inj hkept
  exact ⟨hbefore, hstill⟩

theorem olderAt_after {orderingKey : Int64} {i : Nat} {order : Order} {st : Reconciling}
    (h : OlderAt orderingKey i order st) (rows : List Order) :
    OlderAt orderingKey i order (after orderingKey st rows) := by
  induction rows generalizing st with
  | nil => exact h
  | cons row rows ih => exact ih (olderAt_stepRow h row)

theorem olderAt_of_after {orderingKey : Int64} {i : Nat} {order : Order} {st : Reconciling}
    {rows : List Order} (h : OlderAt orderingKey i order (after orderingKey st rows)) :
    OlderAt orderingKey i order st := by
  induction rows generalizing st with
  | nil => exact h
  | cons row rows ih => exact olderAt_of_stepRow (ih h)

/-- The order of a row dropped as older is the same at the start, at the row and at the end. -/
theorem older_feed {orderingKey : Int64} {st : Reconciling} {rows : List Order} {feed : Feed}
    (h : some feed ∈ feeds orderingKey st rows) (holder : feed.older orderingKey = true) :
    st.orders[feed.index]? = some feed.order
      ∧ (after orderingKey st rows).orders[feed.index]? = some feed.order := by
  obtain ⟨pre, post, htrace⟩ := List.append_of_mem h
  obtain ⟨front, row, back, rfl, -, hfeed, -⟩ := feeds_split htrace
  obtain ⟨hmatch, -, hlast⟩ := feedOf_eq_some hfeed
  have hat : OlderAt orderingKey feed.index feed.order (after orderingKey st front) :=
    ⟨(matchOf_eq_some hmatch).1, by rw [← hlast]; exact holder⟩
  refine ⟨(olderAt_of_after hat).1, ?_⟩
  have hsplit : after orderingKey st (front ++ row :: back)
      = after orderingKey (after orderingKey st front) (row :: back) := by
    simp [after]
  rw [hsplit]
  exact (olderAt_after hat (row :: back)).1

/-! ## What `recover` leaves -/

theorem fetch_reads (reads : BrokerReads) (snapshotSeq : Int64) :
    ∀ call ∈ (fetch reads snapshotSeq).2, call.isMutation = false := by
  unfold fetch
  split
  · simp [BrokerCall.isMutation]
  · split
    · simp [BrokerCall.isMutation]
    · split
      · simp [BrokerCall.isMutation]
      · split <;> simp [BrokerCall.isMutation]

theorem fetch_eq_ok {reads : BrokerReads} {snapshotSeq : Int64} {result : ReconcileResult}
    (h : (fetch reads snapshotSeq).1 = .ok result) :
    ∃ rows, reads.orders = .ok rows ∧ result = ⟨rows, snapshotSeq⟩ := by
  unfold fetch at h
  split at h
  · cases h
  next rows hrows =>
    split at h
    · cases h
    · split at h
      · cases h
      · split at h
        · cases h
        · exact ⟨rows, hrows, (Except.ok.inj h).symm⟩

theorem forceManual_of_no_unknown {orders : List Order} (h : countUnknown orders = 0) :
    orders.map forceManual = orders := by
  have hsame : ∀ order ∈ orders, forceManual order = order := by
    intro order horder
    have hknown := List.countP_eq_zero.mp h order horder
    rw [forceManual, if_neg (by simpa using hknown)]
  rw [List.map_congr_left hsame, List.map_id']

/-- Without a double fault a failed fetch leaves the loaded orders alone. -/
theorem recoverUnfetched_orders {loaded : List Order} {error : Error}
    (h : ¬ (brokerAnswered error = false ∧ ∃ order ∈ loaded, order.state = .unknown)) :
    (recoverUnfetched loaded error).1.orders = loaded := by
  unfold recoverUnfetched
  dsimp only
  split_ifs with hanswered hunknown
  · rfl
  · refine absurd ⟨by simpa using hanswered, ?_⟩ h
    obtain ⟨order, horder, hstate⟩ := List.countP_pos_iff.mp hunknown
    exact ⟨order, horder, by simpa using hstate⟩
  · exact forceManual_of_no_unknown (Nat.eq_zero_of_not_pos hunknown)

theorem recoverUnfetched_status (loaded : List Order) (error : Error) :
    (recoverUnfetched loaded error).1.status ≠ .resumedSafe := by
  unfold recoverUnfetched
  dsimp only
  split_ifs <;> simp [RecoveryOutcome.init]

theorem gate_orders (safeStart : Result Unit) (recon : ReconcileOutcome)
    (outcome : RecoveryOutcome) : (gate safeStart recon outcome).orders = outcome.orders := by
  unfold gate
  split
  · rfl
  · split_ifs <;> rfl

theorem gate_resumed {safeStart : Result Unit} {recon : ReconcileOutcome}
    {outcome : RecoveryOutcome} (hblocked : outcome.status = .blocked)
    (h : (gate safeStart recon outcome).status = .resumedSafe) :
    outcome.unknownsUnresolved = 0 ∧ recon.mismatches = 0 := by
  unfold gate at h
  split at h
  · rw [hblocked] at h
    cases h
  · split_ifs at h with hunknown hmismatch
    · rw [hblocked] at h
      cases h
    · rw [hblocked] at h
      cases h
    · rw [not_or] at hmismatch
      exact ⟨Nat.eq_zero_of_not_pos hunknown, Nat.eq_zero_of_not_pos hmismatch.2⟩

/-- **What is behind a `ResumedSafe`**: the reconciliation was clean and left no `Unknown`. -/
theorem recover_resumed {seams : Seams} {engine : LifecycleEngine}
    (h : (recover seams engine).outcome.status = .resumedSafe) :
    ∃ loaded rows, seams.loadState = .ok loaded ∧ seams.reads.orders = .ok rows
      ∧ (recover seams engine).outcome.orders
        = ((ReconcileApplier.create engine).apply ⟨rows, 1⟩ loaded).1.orders
      ∧ countUnknown (recover seams engine).outcome.orders = 0
      ∧ ((ReconcileApplier.create engine).apply ⟨rows, 1⟩ loaded).1.outcome.mismatches = 0 := by
  unfold recover at h ⊢
  cases hload : seams.loadState with
  | error error =>
    simp only [hload] at h
    cases h
  | ok loaded =>
  cases hsession : seams.checkSession with
  | error error =>
    simp only [hload, hsession] at h
    cases h
  | ok u =>
  simp only [hload, hsession] at h ⊢
  cases hfetch : (fetch seams.reads 1).1 with
  | error error =>
    simp only [hfetch] at h
    exact absurd h (recoverUnfetched_status loaded error)
  | ok result =>
    obtain ⟨rows, hrows, rfl⟩ := fetch_eq_ok hfetch
    simp only [hfetch] at h ⊢
    obtain ⟨hunknown, hmismatch⟩ := gate_resumed rfl h
    have horders : (recoverFetched seams engine loaded ⟨rows, 1⟩).1.orders
        = ((ReconcileApplier.create engine).apply ⟨rows, 1⟩ loaded).1.orders :=
      gate_orders _ _ _
    refine ⟨loaded, rows, rfl, hrows, horders, ?_, hmismatch⟩
    rw [horders]
    exact hunknown

theorem recover_calls (seams : Seams) (engine : LifecycleEngine) :
    ∀ call ∈ (recover seams engine).calls, call.isMutation = false := by
  unfold recover
  split
  · simp
  · split
    · simp
    · have hreads := fetch_reads seams.reads 1
      dsimp only
      split <;> exact hreads

theorem recover_unfetched {seams : Seams} {engine : LifecycleEngine} {loaded : List Order}
    {error : Error} (hload : seams.loadState = .ok loaded)
    (hsession : seams.checkSession = .ok ()) (hfetch : (fetch seams.reads 1).1 = .error error)
    (h : ¬ (brokerAnswered error = false ∧ ∃ order ∈ loaded, order.state = .unknown)) :
    (recover seams engine).outcome.orders = loaded := by
  unfold recover
  simp only [hload, hsession, hfetch]
  exact recoverUnfetched_orders h

/-! ## When resuming means agreement -/

/-- The trace of the reconciliation inside `recover`. -/
def recoveryTrace (engine : LifecycleEngine) (loaded rows : List Order) : List (Option Feed) :=
  (ReconcileApplier.create engine).trace ⟨rows, 1⟩ loaded

/-- **Agreement with the broker**: nothing is `Unknown`, every row has its order, and every
order says what its rows say, the ones dropped as older included. -/
structure Resumed (trace : List (Option Feed)) (final : List Order) : Prop where
  noUnknown : ∀ order ∈ final, order.state ≠ .unknown
  matched : ∀ entry ∈ trace, entry.isSome = true
  agrees : ∀ f, some f ∈ trace → ∃ order, final[f.index]? = some order ∧ Agrees order f.row

/-- **The condition**: the rows are consistent, and a row of an order whose engine key is above
the snapshot's repeats what was loaded. -/
structure Resumable (loaded : List Order) (trace : List (Option Feed)) : Prop where
  consistent : Consistent 1 trace
  repeats : ∀ f, some f ∈ trace → f.older 1 = true →
    ∃ order, loaded[f.index]? = some order ∧ Agrees order f.row

/-- Key 1 is never stale for a new applier. -/
theorem create_fresh (engine : LifecycleEngine) (rows : List Order) :
    (ReconcileApplier.create engine).isStale ⟨rows, 1⟩ = false := by
  show decide ((1 : Int64) ≤ -1) = false
  decide

/-- On a clean fold, every row agrees with its order exactly under the condition. -/
theorem agrees_iff_resumable {engine : LifecycleEngine} {loaded rows : List Order}
    (hclean : (after 1 ⟨loaded, engine, .init, []⟩ rows).outcome.mismatches = 0) :
    (∀ f, some f ∈ recoveryTrace engine loaded rows →
        ∃ order, (after 1 ⟨loaded, engine, .init, []⟩ rows).orders[f.index]? = some order
          ∧ Agrees order f.row) ↔
      Resumable loaded (recoveryTrace engine loaded rows) := by
  constructor
  · intro hagrees
    refine ⟨consistent_of_allAgree hclean fun f hf _ => hagrees f hf, fun f hf holder => ?_⟩
    obtain ⟨hstart, hend⟩ := older_feed hf holder
    obtain ⟨order, hget, horder⟩ := hagrees f hf
    have hsame : f.order = order := Option.some.inj (hend.symm.trans hget)
    exact ⟨order, by rw [← hsame]; exact hstart, horder⟩
  · rintro ⟨hconsistent, hrepeats⟩ f hf
    cases holder : f.older 1 with
    | false => exact allAgree_of_consistent hclean hconsistent f hf holder
    | true =>
      obtain ⟨hstart, hend⟩ := older_feed hf holder
      obtain ⟨order, hget, horder⟩ := hrepeats f hf holder
      have hsame : f.order = order := Option.some.inj (hstart.symm.trans hget)
      exact ⟨order, by rw [← hsame]; exact hend, horder⟩

/-- **When recovery resumes only on agreement**, for every loaded list, every snapshot and every
engine; and what every other verdict leaves alone. -/
theorem recover_iff (seams : Seams) (engine : LifecycleEngine) :
    ((recover seams engine).outcome.status = .resumedSafe →
      ∃ loaded rows, seams.loadState = .ok loaded ∧ seams.reads.orders = .ok rows
        ∧ (Resumed (recoveryTrace engine loaded rows) (recover seams engine).outcome.orders ↔
          Resumable loaded (recoveryTrace engine loaded rows)))
      ∧ ((recover seams engine).outcome.status ≠ .resumedSafe →
        (∀ call ∈ (recover seams engine).calls, call.isMutation = false)
          ∧ ∀ loaded error, seams.loadState = .ok loaded → seams.checkSession = .ok () →
            (fetch seams.reads 1).1 = .error error →
            ¬ (brokerAnswered error = false ∧ ∃ order ∈ loaded, order.state = .unknown) →
            (recover seams engine).outcome.orders = loaded) := by
  constructor
  · intro hresumed
    obtain ⟨loaded, rows, hload, hrows, horders, hunknown, hmismatch⟩ := recover_resumed hresumed
    refine ⟨loaded, rows, hload, hrows, ?_⟩
    obtain ⟨hafter, hclean, -⟩ := apply_clean (create_fresh engine rows) hmismatch
    refine Iff.trans ?_ (agrees_iff_resumable hclean)
    constructor
    · rintro ⟨-, -, hagrees⟩
      rw [horders, hafter] at hagrees
      exact hagrees
    · intro hagrees
      refine ⟨fun order horder => ?_, matched_of_clean hclean, ?_⟩
      · simpa using List.countP_eq_zero.mp hunknown order horder
      · rw [horders, hafter]
        exact hagrees
  · intro _
    exact ⟨recover_calls seams engine, fun loaded error hload hsession hfetch hfault =>
      recover_unfetched hload hsession hfetch hfault⟩

/-! One order `s-1`, acknowledged, that the broker reports filled. -/

def sampleSeams : Seams where
  loadState := .ok [sampleOrder .acknowledged 0]
  checkSession := .ok ()
  reads := ⟨.ok [sampleOrder .filled 10], .ok (), .ok (), .ok ()⟩
  safeStartCheck := .ok ()

/-- An engine that has applied a push with key 5 to `s-1`. -/
def usedEngine : LifecycleEngine := ⟨fun ref => if ref = ascii "s-1" then some 5 else none⟩

/-- On a new engine the fill is taken over and the recovery resumes. -/
theorem recover_iff_sample :
    (recover sampleSeams .init).outcome.status = .resumedSafe
      ∧ (recover sampleSeams .init).outcome.orders = [sampleOrder .filled 10]
      ∧ ∃ loaded rows, sampleSeams.loadState = .ok loaded ∧ sampleSeams.reads.orders = .ok rows
        ∧ (Resumed (recoveryTrace .init loaded rows)
            (recover sampleSeams .init).outcome.orders ↔
          Resumable loaded (recoveryTrace .init loaded rows)) := by
  have hresumed : (recover sampleSeams .init).outcome.status = .resumedSafe := by decide
  exact ⟨hresumed, by decide, (recover_iff sampleSeams .init).1 hresumed⟩

/-- **A resume on a dropped row**: the used engine drops the fill as older, nothing is counted,
and `recover` returns `ResumedSafe` with the order still acknowledged. -/
theorem resumed_on_dropped_row :
    (recover sampleSeams usedEngine).outcome.status = .resumedSafe
      ∧ ¬ Resumed (recoveryTrace usedEngine [sampleOrder .acknowledged 0] [sampleOrder .filled 10])
          (recover sampleSeams usedEngine).outcome.orders := by
  refine ⟨by decide, fun h => ?_⟩
  have hfinal : (recover sampleSeams usedEngine).outcome.orders
      = [sampleOrder .acknowledged 0] := by decide
  obtain ⟨order, horder, hagrees⟩ := h.agrees
    ⟨0, sampleOrder .acknowledged 0, some 5, sampleOrder .filled 10⟩
    (List.mem_singleton.mpr rfl)
  rw [hfinal] at horder
  obtain rfl : sampleOrder .acknowledged 0 = order := by simpa using horder
  exact absurd hagrees.2.1 (by decide)

end BrokerExec.Reconcile

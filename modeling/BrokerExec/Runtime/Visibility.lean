import BrokerExec.Lifecycle.History
import BrokerExec.Runtime.AtMostOnce
import BrokerExec.Runtime.Terminal
import BrokerExec.Runtime.UnknownResolver

/-!
# Which sent orders a restart can see

`place` records the intent before the send and stores the order after it. What comes back
after a restart reads the stored rows: `resolve_all` examines the Unknown ones, the boot check
(`boot/boot_checks.cpp`) blocks on those whose send was never confirmed. An order that was sent
and not stored is in neither.

* **`resolveEach_examined`** — `resolve_all` does what it does for the Unknown rows alone;
* **`place_moves`** — one `place`, between the world before and the world after;
* **`sent_visible_iff`** — every order sent in a run is visible after a restart at any of its
  calls, exactly when no `place` that reaches the broker loses its row.
-/

namespace BrokerExec.Runtime

open BrokerExec.Domain (Order OrderIntent OrderState)
open BrokerExec.Errors (Error makeError)
open BrokerExec.IntentLog (IntentOp IntentRecord)
open BrokerExec.Idempotency (UuidGenerator intentPayloadJson makeClientRef signalSignature)

/-! ## The boot check -/

/-- `is_unreconciled`. -/
def isUnreconciled (order : Order) : Bool :=
  match order.state with
  | .pendingSend | .sent | .unknown | .partiallyPlaced | .manualInterventionRequired => true
  | .created | .validated | .acknowledged | .partiallyFilled | .filled | .rejected | .cancelled
  | .reconciled => false

def unreconciled (orders : List Order) : List Order := orders.filter isUnreconciled

/-- The row the message names: the first, unless its ref is empty and another follows. -/
def namedRow : List Order → Option Order
  | [] => none
  | [order] => some order
  | order :: rest => if order.intent.clientRef = [] then namedRow rest else some order

def requireNoUnreconciledOrders (orders : List Order) : Result Unit :=
  match namedRow (unreconciled orders) with
  | none => .ok ()
  | some first =>
    let ref := first.intent.clientRef
    .error { makeError .validation (ascii "boot: the projection holds "
      ++ decimal (unreconciled orders).length
      ++ ascii " order(s) whose send result was never confirmed (first state "
      ++ first.state.toString
      ++ ascii "). Trading on top of one is the duplicate-order hazard this library exists to "
      ++ ascii "prevent: it must be resolved against broker truth before a start. First: "
      ++ if ref = [] then ascii "<no client_ref>" else ref) with action := .blockStrategy }

theorem namedRow_eq_none {orders : List Order} : namedRow orders = none ↔ orders = [] := by
  induction orders with
  | nil => simp [namedRow]
  | cons order rest ih =>
    cases rest with
    | nil => simp [namedRow]
    | cons next rest =>
      rw [namedRow]
      split_ifs
      · rw [ih]
        simp
      · simp
      · simp

/-- The check passes exactly when it finds no unreconciled row. -/
theorem requireNoUnreconciledOrders_ok_iff (orders : List Order) :
    requireNoUnreconciledOrders orders = .ok () ↔ unreconciled orders = [] := by
  rw [← namedRow_eq_none, requireNoUnreconciledOrders]
  cases namedRow (unreconciled orders) <;> simp

/-! ## The resolver's sweep -/

namespace UnknownResolver

/-- The rows `resolve_all` resolves. -/
def examined (orders : List Order) : List Order :=
  orders.filter fun order => order.state = .unknown

/-- **The sweep over all rows is the sweep over the Unknown ones.** -/
theorem resolveEach_examined (answers : Order → Answer) (orders : List Order)
    (out : List UnknownResolution) (st : Resolving) :
    resolveEach answers orders out st = resolveEach answers (examined orders) out st := by
  induction orders generalizing out st with
  | nil => rfl
  | cons order orders ih =>
    by_cases hunknown : order.state = .unknown
    · have hfront : examined (order :: orders) = order :: examined orders := by
        simp [examined, hunknown]
      rw [hfront, resolveEach, resolveEach, if_neg (by simpa using hunknown),
        if_neg (by simpa using hunknown)]
      cases hresolve : resolve (answers order) st order with
      | mk result st' =>
        cases result with
        | error error => rfl
        | ok resolution => exact ih _ _
    · have hfront : examined (order :: orders) = examined orders := by
        simp [examined, hunknown]
      rw [hfront, resolveEach, if_pos hunknown, ih]

end UnknownResolver

/-! ## After the restart -/

/-- The same log and the same store, with a new process on top. -/
def World.reboot (parser : Json.Parser) (w : World) (boot : Boot) : World :=
  w.restart parser { boot with store := w.store }

/-- The order can be found: by its row, among the rows the resolver examines, or among those
the boot check blocks on. -/
def Visible (w : World) (clientRef : Bytes) : Prop :=
  (w.store.find clientRef).isSome = true
    ∨ clientRef ∈ (UnknownResolver.examined w.store.rows).map (·.intent.clientRef)
    ∨ clientRef ∈ (unreconciled w.store.rows).map (·.intent.clientRef)

/-- All three look at rows of the store. -/
theorem visible_iff_row {w : World} {clientRef : Bytes} :
    Visible w clientRef ↔ (w.store.find clientRef).isSome = true := by
  have hrow : ∀ rows : List Order, rows ⊆ w.store.rows →
      clientRef ∈ rows.map (·.intent.clientRef) → (w.store.find clientRef).isSome = true := by
    intro rows hsub hmem
    obtain ⟨order, horder, href⟩ := List.mem_map.mp hmem
    rw [Table.find_eq_some_iff.mpr ⟨hsub horder, href⟩]
    rfl
  constructor
  · rintro (hfind | hexamined | hblocking)
    · exact hfind
    · exact hrow _ (List.filter_subset_self _) hexamined
    · exact hrow _ (List.filter_subset_self _) hblocking
  · exact .inl

/-! ## One `place` -/

/-- The ref a `place` would send under: a fresh one, or one that was reserved and never
recorded. -/
def refToSend (uuids : UuidGenerator) (w : World) (strategy : Bytes) (intent : OrderIntent) :
    Option Bytes :=
  match w.index (signalSignature intent) with
  | some prior => if prior ∈ w.unsentRefs then some prior else none
  | none => some (makeClientRef strategy (signalSignature intent) (uuids.next w.uuidCalls))

/-- The call gets as far as the broker. The four ticks answer the lookup, the append, the
barrier and the broker call. -/
def Sends (uuids : UuidGenerator) (w : World) (strategy : Bytes) (intent : OrderIntent)
    (ticks : List Tick) (clientRef : Bytes) : Prop :=
  refToSend uuids w strategy intent = some clientRef ∧ w.store.find clientRef = none
    ∧ ∃ t₀ t₁ t₂ t₃ rest, ticks = t₀ :: t₁ :: t₂ :: t₃ :: rest
      ∧ t₀.storeError = none ∧ w.log.attached = true ∧ t₁.write = .done

/-- The process gets as far as the insert, and the insert meets no error. -/
def StoresRow (ticks : List Tick) : Prop := ∃ t, ticks[4]? = some t ∧ t.storeError = none

/-- The state `place` stores after an error of the broker. -/
def stateOfError (error : Error) : OrderState :=
  if isReconcileFirst error then .unknown else .rejected

/-- The world after a `place` that sent this intent. -/
structure Moved (w w' : World) (placed : OrderIntent) (ticks : List Tick) : Prop where
  sent : w'.placed = w.placed ++ [placed]
  stored : StoresRow ticks → ∃ order : Order, order.intent = placed
    ∧ (∀ t error, ticks[3]? = some t → t.broker = .error error → order.state = stateOfError error)
    ∧ w'.store = w.store.upsert order
  lost : ¬ StoresRow ticks → w'.store = w.store

theorem Moved.congr {w₀ w w' : World} {placed : OrderIntent} {ticks : List Tick}
    (h : Moved w w' placed ticks) (hstore : w.store = w₀.store) (hplaced : w.placed = w₀.placed) :
    Moved w₀ w' placed ticks :=
  ⟨hplaced ▸ h.sent, hstore ▸ h.stored, hstore ▸ h.lost⟩

section Place

variable {uuids : UuidGenerator}

/-- The end of a `place` stores the row of an order that had none, if its first tick lets it. -/
theorem settle_store (order : Order) {w : World}
    (hfree : w.store.find order.intent.clientRef = none) (ticks : List Tick) :
    (settle order ticks w).state.placed = w.placed
      ∧ (settle order ticks w).state.store =
        match ticks with
        | ⟨_, _, none, _⟩ :: _ => w.store.upsert order
        | _ => w.store := by
  rcases ticks with _ | ⟨⟨write, stamp, failure, broker⟩, rest⟩
  · exact ⟨rfl, rfl⟩
  unfold settle
  rw [Process.bind_apply, insertOrder, Process.ask_cons]
  cases failure with
  | some error => exact ⟨rfl, rfl⟩
  | none =>
    simp only [Store.insertOrder, hfree]
    obtain ⟨hstore, hplaced⟩ := sameOrders_conclude order.intent.clientRef
      (outcomeJson order.state order.brokerOrderId) (.ok order) rest
      { w with store := w.store.upsert order }
    exact ⟨hplaced, hstore⟩

/-- Behind the send, whatever the engine made of the answer: the row is stored or lost. -/
theorem settle_moves {placed : OrderIntent} {order : Order} {w w' : World} {t₀ t₁ t₂ t₃ : Tick}
    (hfree : w.store.find placed.clientRef = none) (hintent : order.intent = placed)
    (hstate : ∀ error, t₃.broker = .error error → order.state = stateOfError error)
    (hstore : w'.store = w.store) (hplaced : w'.placed = w.placed ++ [placed])
    (rest : List Tick) :
    Moved w (settle order rest w').state placed (t₀ :: t₁ :: t₂ :: t₃ :: rest) := by
  have hfree' : w'.store.find order.intent.clientRef = none := by
    rw [hintent, hstore]
    exact hfree
  obtain ⟨hsent, hrow⟩ := settle_store order hfree' rest
  rw [hplaced] at hsent
  rw [hstore] at hrow
  have hfifth : (t₀ :: t₁ :: t₂ :: t₃ :: rest)[4]? = rest[0]? := rfl
  refine ⟨hsent, ?_, ?_⟩
  · rintro ⟨t, ht, herror⟩
    rw [hfifth] at ht
    rcases rest with _ | ⟨⟨write, stamp, failure, broker⟩, rest⟩
    · cases ht
    · obtain rfl := Option.some.inj ht
      obtain rfl : failure = none := herror
      refine ⟨order, hintent, fun t error ht hbroker => ?_, hrow⟩
      obtain rfl := Option.some.inj ht
      exact hstate error hbroker
  · intro hnot
    rcases rest with _ | ⟨⟨write, stamp, failure, broker⟩, rest⟩
    · -- the process stops between the send and the insert
      exact hrow
    · cases failure with
      | some error => exact hrow
      | none => exact absurd ⟨_, rfl, rfl⟩ hnot

/-- From the append on: the four parts of `Sends` decide what moves. -/
theorem recordAndSend_moves (placed : OrderIntent) (w : World) (t₀ : Tick) (ticks : List Tick)
    (hfree : w.store.find placed.clientRef = none) :
    (∃ t₁ t₂ t₃ rest, ticks = t₁ :: t₂ :: t₃ :: rest ∧ w.log.attached = true ∧ t₁.write = .done)
        ∧ Moved w (recordAndSend placed ticks w).state placed (t₀ :: ticks)
      ∨ (¬ ∃ t₁ t₂ t₃ rest, ticks = t₁ :: t₂ :: t₃ :: rest ∧ w.log.attached = true
          ∧ t₁.write = .done)
        ∧ SameOrders w (recordAndSend placed ticks w).state := by
  rcases ticks with _ | ⟨t₁, ticks⟩
  · exact .inr ⟨by simp, rfl, rfl⟩
  unfold recordAndSend
  rw [Process.bind_apply, append, Process.ask_cons]
  have hok := w.append_ok_iff t₁ .placeOrder placed.clientRef (intentPayloadJson placed)
  cases hres : (w.append t₁ .placeOrder placed.clientRef (intentPayloadJson placed)).1 with
  | error error =>
    -- the intent is not durable, so nothing is sent
    refine .inr ⟨?_, rfl, rfl⟩
    rintro ⟨_, t₂, t₃, rest, hticks, hopen⟩
    obtain ⟨rfl, -⟩ := List.cons.inj hticks
    obtain ⟨record, hrecord⟩ := hok.mpr hopen
    rw [hres] at hrecord
    cases hrecord
  | ok record =>
    have hopen := hok.mp ⟨record, hres⟩
    rcases ticks with _ | ⟨t₂, _ | ⟨t₃, rest⟩⟩
    · -- the process stops at the barrier
      exact .inr ⟨by simp, rfl, rfl⟩
    · -- or ahead of the send
      exact .inr ⟨by simp, rfl, rfl⟩
    refine .inl ⟨⟨t₁, t₂, t₃, rest, rfl, hopen⟩, ?_⟩
    have hplaced : ({ (w.append t₁ .placeOrder placed.clientRef (intentPayloadJson placed)).2 with
        unsentRefs := w.unsentRefs.filter (· ≠ placed.clientRef)
        sent := w.sent ++ [.place placed] } : World).placed = w.placed ++ [placed] := by
      simp [World.placed]
    cases hbroker : t₃.broker with
    | ok brokerOrderId =>
      have hintent := Lifecycle.apply_intent w.fsm (makeOrder placed .sent)
        ⟨placed.clientRef, brokerOrderId, .acknowledged, 0, 0, 1⟩
      simp only [Process.bind_apply, eraseUnsent, runPreSendBarrier, send, applyView,
        Process.step, Process.ask_cons, hbroker]
      refine settle_moves hfree hintent (fun error herror => ?_) ?_ ?_ rest
      · rw [hbroker] at herror
        cases herror
      · rfl
      · exact hplaced
    | error error =>
      simp only [Process.bind_apply, eraseUnsent, runPreSendBarrier, send, Process.step,
        Process.ask_cons, hbroker]
      refine settle_moves hfree rfl (fun error' herror => ?_) ?_ ?_ rest
      · rw [hbroker] at herror
        rw [← Except.error.inj herror]
        rfl
      · rfl
      · exact hplaced

/-- Looking a reservation up and not sending leaves the orders alone. -/
theorem sameOrders_unsent (uuids : UuidGenerator) (strategy : Bytes) (intent : OrderIntent)
    (w : World) : SameOrders w (place uuids strategy intent [] w).state := by
  unfold place reserve
  simp only [Process.bind_apply, existingRefForSignature, Process.step]
  cases w.index (signalSignature intent) with
  | some prior => exact ⟨rfl, rfl⟩
  | none => exact ⟨rfl, rfl⟩

/-- Nothing is sent where each ref that could be has a row, or the lookup meets an error. -/
theorem not_sends {strategy : Bytes} {intent : OrderIntent} {w : World} {t₀ : Tick}
    {ticks : List Tick} (h : ∀ ref, refToSend uuids w strategy intent = some ref →
      w.store.find ref = none → t₀.storeError ≠ none) :
    ¬ ∃ ref, Sends uuids w strategy intent (t₀ :: ticks) ref := by
  rintro ⟨ref, href, hfree, t, _, _, _, _, hticks, herror, -⟩
  obtain ⟨rfl, -⟩ := List.cons.inj hticks
  exact h ref href hfree herror

/-- What is left once the ref is known and the lookup has found nothing. `w'` is the world behind
the reservation. -/
theorem reserved_moves {strategy ref : Bytes} {intent : OrderIntent} {w w' : World} {t₀ : Tick}
    (href : refToSend uuids w strategy intent = some ref) (hfree : w.store.find ref = none)
    (herror : t₀.storeError = none) (hsame : SameOrders w w') (hlog : w'.log = w.log)
    (ticks : List Tick) :
    (∃ ref', Sends uuids w strategy intent (t₀ :: ticks) ref'
        ∧ Moved w (recordAndSend { intent with clientRef := ref } ticks w').state
          { intent with clientRef := ref' } (t₀ :: ticks))
      ∨ (¬ ∃ ref', Sends uuids w strategy intent (t₀ :: ticks) ref')
        ∧ SameOrders w (recordAndSend { intent with clientRef := ref } ticks w').state := by
  rcases recordAndSend_moves { intent with clientRef := ref } w' t₀ ticks
    (by rw [hsame.1]; exact hfree) with ⟨⟨t₁, t₂, t₃, rest, rfl, hopen⟩, hmoved⟩ | ⟨hshort, hidle⟩
  · rw [hlog] at hopen
    exact .inl ⟨ref, ⟨href, hfree, t₀, t₁, t₂, t₃, rest, rfl, herror, hopen⟩,
      hmoved.congr hsame.1 hsame.2⟩
  · refine .inr ⟨?_, hidle.1.trans hsame.1, hidle.2.trans hsame.2⟩
    rintro ⟨ref', -, -, _, t₁, t₂, t₃, rest, hticks, -, hopen⟩
    rw [← hlog] at hopen
    exact hshort ⟨t₁, t₂, t₃, rest, (List.cons.inj hticks).2, hopen⟩

/-- **One `place`**: it sends one intent and stores its row or loses it, or it moves no order. -/
theorem place_moves (uuids : UuidGenerator) (strategy : Bytes) (intent : OrderIntent)
    (ticks : List Tick) (w : World) :
    (∃ ref, Sends uuids w strategy intent ticks ref
        ∧ Moved w (place uuids strategy intent ticks w).state { intent with clientRef := ref } ticks)
      ∨ (¬ ∃ ref, Sends uuids w strategy intent ticks ref)
        ∧ SameOrders w (place uuids strategy intent ticks w).state := by
  rcases ticks with _ | ⟨t₀, ticks⟩
  · exact .inr ⟨by simp [Sends], sameOrders_unsent uuids strategy intent w⟩
  unfold place reserve
  cases hindex : w.index (signalSignature intent) with
  | some prior =>
    -- the signal was seen before
    simp only [Process.bind_apply, existingRefForSignature, Process.step, hindex, findOrder,
      Process.ask_cons, Store.findOrder]
    cases herror : t₀.storeError with
    | some error => exact .inr ⟨not_sends fun _ _ _ => by simp [herror], rfl, rfl⟩
    | none =>
      cases hfind : w.store.find prior with
      | some order =>
        -- its order is answered
        refine .inr ⟨not_sends fun ref href hfree => ?_, rfl, rfl⟩
        rw [refToSend, hindex] at href
        simp only [Option.ite_none_right_eq_some, Option.some.injEq] at href
        rw [← href.2, hfind] at hfree
        cases hfree
      | none =>
        simp only [Process.pure_apply, Bool.false_eq_true, if_false]
        rw [Process.bind_apply]
        simp only [isUnsent, Process.step]
        by_cases hunsent : prior ∈ w.unsentRefs
        · -- reserved and never recorded: the same ref goes out
          simp only [hunsent, decide_true, if_true]
          have href : refToSend uuids w strategy intent = some prior := by
            rw [refToSend, hindex]
            exact if_pos hunsent
          exact reserved_moves href hfind herror (.refl w) rfl ticks
        · -- recorded, and the row is gone: the answer is an Unknown order, and nothing goes out
          simp only [hunsent, decide_false, Bool.false_eq_true, if_false]
          refine .inr ⟨not_sends fun ref href _ => ?_, rfl, rfl⟩
          rw [refToSend, hindex] at href
          simp only [if_neg hunsent] at href
          cases href
  | none =>
    have href : refToSend uuids w strategy intent
        = some (makeClientRef strategy (signalSignature intent) (uuids.next w.uuidCalls)) := by
      rw [refToSend, hindex]
    simp only [Process.bind_apply, existingRefForSignature, Process.step, hindex, findOrder,
      Process.ask_cons, Store.findOrder, nextUuid]
    cases herror : t₀.storeError with
    | some error => exact .inr ⟨not_sends fun _ _ _ => by simp [herror], rfl, rfl⟩
    | none =>
      cases hfind : w.store.find
          (makeClientRef strategy (signalSignature intent) (uuids.next w.uuidCalls)) with
      | some order =>
        refine .inr ⟨not_sends fun ref href' hfree => ?_, rfl, rfl⟩
        rw [← Option.some.inj (href.symm.trans href'), hfind] at hfree
        cases hfree
      | none =>
        -- the fresh ref is registered ahead of the send
        refine reserved_moves href hfind herror ?_ ?_ ticks
        · exact ⟨rfl, rfl⟩
        · rfl

end Place

/-! ## Runs of `place` -/

/-- One `place` with its ticks. -/
structure Placing where
  strategy : Bytes
  intent : OrderIntent
  ticks : List Tick

def Placing.call (p : Placing) : Call × List Tick := (.place p.strategy p.intent, p.ticks)

/-- The order reaches the broker, and the process stops before the insert or the insert fails. -/
def Loses (uuids : UuidGenerator) (w : World) (p : Placing) : Prop :=
  (∃ ref, Sends uuids w p.strategy p.intent p.ticks ref) ∧ ¬ StoresRow p.ticks

/-- No step of the run loses its row. -/
def NoneLost (uuids : UuidGenerator) : World → List Placing → Prop
  | _, [] => True
  | w, p :: rest =>
    ¬ Loses uuids w p ∧
      match place uuids p.strategy p.intent p.ticks w with
      | .done _ _ w' => NoneLost uuids w' rest
      | .stopped _ => True

/-- Every order sent since boot has a row. -/
def Covered (w : World) : Prop :=
  ∀ intent ∈ w.placed, (w.store.find intent.clientRef).isSome = true

theorem Covered.congr {w w' : World} (h : Covered w) (hsame : SameOrders w w') : Covered w' := by
  intro intent hmem
  rw [hsame.2] at hmem
  rw [hsame.1]
  exact h intent hmem

/-- **One `place` keeps every sent order covered exactly when it does not lose its row.** -/
theorem covered_place_iff (uuids : UuidGenerator) {w : World} (h : Covered w) (p : Placing) :
    Covered (place uuids p.strategy p.intent p.ticks w).state ↔ ¬ Loses uuids w p := by
  rcases place_moves uuids p.strategy p.intent p.ticks w with ⟨ref, hsends, hmoved⟩ | ⟨hnot, hsame⟩
  swap
  · exact ⟨fun _ hloses => hnot hloses.1, fun _ => h.congr hsame⟩
  constructor
  · rintro hcovered ⟨-, hlost⟩
    have hrow := hcovered { p.intent with clientRef := ref } (by rw [hmoved.sent]; simp)
    rw [hmoved.lost hlost, hsends.2.1] at hrow
    cases hrow
  · intro hkept
    have hstores : StoresRow p.ticks := by
      by_contra hnot
      exact hkept ⟨⟨ref, hsends⟩, hnot⟩
    obtain ⟨order, hintent, -, hstore⟩ := hmoved.stored hstores
    intro intent hmem
    rw [hstore, Table.find_upsert]
    split_ifs with heq
    · rfl
    · rw [hmoved.sent] at hmem
      rcases List.mem_append.mp hmem with hmem | hmem
      · exact h intent hmem
      · rw [List.mem_singleton.mp hmem, hintent] at heq
        exact absurd rfl heq

/-- Over a run: the first world is covered, and from there on every step counts. -/
theorem covered_trace_iff (uuids : UuidGenerator) (places : List Placing) {w : World}
    (h : Covered w) :
    (∀ stop ∈ trace uuids w (places.map Placing.call), Covered stop)
      ↔ NoneLost uuids w places := by
  induction places generalizing w with
  | nil => simp [trace, NoneLost, h]
  | cons p places ih =>
    have hstep := covered_place_iff uuids h p
    rw [List.map_cons, Placing.call, trace, NoneLost, ← hstep, Call.perform, Process.bind_apply]
    cases hrun : place uuids p.strategy p.intent p.ticks w with
    | done value unused w' =>
      have hfirst : w' ∈ trace uuids w' (places.map Placing.call) := by
        obtain ⟨tail, htail⟩ := trace_eq_cons uuids w' (places.map Placing.call)
        rw [htail]
        exact List.mem_cons_self
      simp only [List.mem_cons, forall_eq_or_imp]
      constructor
      · rintro ⟨-, hrest⟩
        have hw' := hrest w' hfirst
        exact ⟨hw', (ih hw').mp hrest⟩
      · rintro ⟨hw', hrest⟩
        exact ⟨h, (ih hw').mpr hrest⟩
    | stopped w' =>
      simp only [List.mem_cons, List.not_mem_nil, or_false, forall_eq_or_imp, forall_eq]
      exact ⟨fun hboth => ⟨hboth.2, trivial⟩, fun hboth => ⟨h, hboth.1⟩⟩

/-- **When every sent order is visible after a restart**: for any history behind the process,
any run of `place` calls in it and a restart at any of them, exactly when no call of the run
that reaches the broker loses its row. -/
theorem sent_visible_iff (parser : Json.Parser) (uuids : UuidGenerator) (w : World)
    (boot next : Boot) (places : List Placing) :
    (∀ stop ∈ trace uuids (w.restart parser boot) (places.map Placing.call),
        ∀ intent ∈ stop.placed, Visible (stop.reboot parser next) intent.clientRef)
      ↔ NoneLost uuids (w.restart parser boot) places := by
  have hfresh : Covered (w.restart parser boot) := by
    intro intent hmem
    cases hmem
  rw [← covered_trace_iff uuids places hfresh]
  simp only [visible_iff_row, Covered]
  rfl

/-! The process stops between the send and the insert. -/

def lostPlacing : Placing := ⟨ascii "s", sampleIntent, List.replicate 4 sampleTick⟩

theorem lost_row_invisible :
    ∃ stop ∈ trace UuidGenerator.numbered
        ((World.blank IntentLog.sampleLog).restart Json.reader sampleBoot) [lostPlacing.call],
      ∃ intent ∈ stop.placed, ¬ Visible (stop.reboot Json.reader sampleBoot) intent.clientRef := by
  refine ⟨_, List.mem_cons_of_mem _ List.mem_cons_self, _, List.mem_cons_self, ?_⟩
  rw [visible_iff_row]
  exact Bool.false_ne_true

end BrokerExec.Runtime

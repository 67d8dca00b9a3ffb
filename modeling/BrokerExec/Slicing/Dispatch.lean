import BrokerExec.Lib.FirstOf
import BrokerExec.Runtime.AtMostOnce
import BrokerExec.Slicing.FreezeSlicer

/-!
# Dispatching the slices of an order (`slicing/freeze_slicer.cpp`, `runtime/dispatcher.cpp`)

The slicer tells its children apart by their references, `place` tells signals apart by a
signature without the reference. What reaches the broker is the first order of each signature.

* **`runCalls_firstOf`** — where nothing fails, dispatching is dropping repeated signatures.
* **`dispatched_whole_iff`** — so the slices sent add up to their parent exactly when there are
  one full chunk and a remainder, under two signatures.
-/

namespace BrokerExec.Slicing

open BrokerExec.Domain (Instrument Order OrderIntent)
open BrokerExec.Idempotency (UuidGenerator makeClientRef signalSignature)
open BrokerExec.IntentLog (IntentOp IntentRecord)
open BrokerExec.Runtime (Act BrokerCall Call Tick World place runCalls)

theorem exists_cons_of_lt {α : Type} {n : Nat} {l : List α} (h : n + 1 ≤ l.length) :
    ∃ a l', l = a :: l' ∧ n ≤ l'.length := by
  cases l with
  | nil => exact absurd h (Nat.not_succ_le_zero n)
  | cons a l' => exact ⟨a, l', rfl, Nat.le_of_succ_le_succ h⟩

/-! ## Where nothing fails -/

/-- An answer without a failure, and an acknowledgement if the broker is asked. -/
structure Working (t : Tick) : Prop where
  write : t.write = .done
  store : t.storeError = none
  acked : ∃ brokerOrderId, t.broker = .ok brokerOrderId

/-- Answers for a whole `place`. -/
def Served (ticks : List Tick) : Prop := 7 ≤ ticks.length ∧ ∀ t ∈ ticks, Working t

/-- What the record keeping leaves alone: all but the log, the engine and the refs that were
never recorded. -/
structure Beside (w w' : World) : Prop where
  attached : w'.log.attached = w.log.attached
  store : w'.store = w.store
  index : w'.index = w.index
  uuidCalls : w'.uuidCalls = w.uuidCalls
  sent : w'.sent = w.sent

section

variable {w : World} {t : Tick} {ticks : List Tick}

theorem findOrder_working (ht : Working t) (clientRef : Bytes) :
    Runtime.findOrder clientRef (t :: ticks) w
      = .done (.ok (w.store.find clientRef)) ticks w := by
  rw [Runtime.findOrder, Process.ask_cons, ht.store]
  rfl

theorem append_working (ht : Working t) (hattached : w.log.attached = true) (op : IntentOp)
    (clientRef payloadJson : Bytes) (ticks : List Tick) :
    ∃ record w',
      Runtime.append op clientRef payloadJson (t :: ticks) w = .done (.ok record) ticks w'
      ∧ Beside w w' := by
  refine ⟨w.log.nextRecord t.wallTsNs op clientRef payloadJson,
    (w.append t op clientRef payloadJson).2, ?_, ?_, rfl, rfl, rfl, rfl⟩
  · rw [Runtime.append, Process.ask_cons]
    unfold World.append IntentLog.append
    rw [if_neg (by simp [hattached]), ht.write]
  · unfold World.append IntentLog.append
    rw [if_neg (by simp [hattached]), ht.write]

theorem appendResult_working (t : Tick) {t' : Tick} (ht' : Working t')
    (hattached : w.log.attached = true) (clientRef : Bytes) (payload : Int64 → Bytes)
    (ticks : List Tick) :
    ∃ record w', Runtime.appendResult clientRef payload (t :: t' :: ticks) w
        = .done (.ok record) ticks w' ∧ Beside w w' :=
  append_working ht' hattached .result clientRef (payload t.wallTsNs) ticks

theorem settle_working (t' : Tick) {t'' : Tick} (ht : Working t) (ht'' : Working t'')
    (ticks : List Tick) (hattached : w.log.attached = true) {order : Order}
    (hnew : w.store.find order.intent.clientRef = none) :
    ∃ w', Runtime.settle order (t :: t' :: t'' :: ticks) w = .done (.ok order) ticks w'
      ∧ Beside { w with store := w.store.upsert order } w' := by
  obtain ⟨record, w', happend, hbeside⟩ := appendResult_working t'
    (w := { w with store := w.store.upsert order }) ht'' hattached order.intent.clientRef
    (Runtime.outcomeJson order.state order.brokerOrderId) ticks
  refine ⟨w', ?_, hbeside⟩
  have hinsert : Runtime.insertOrder order (t :: t' :: t'' :: ticks) w
      = .done (.ok ()) (t' :: t'' :: ticks) { w with store := w.store.upsert order } := by
    rw [Runtime.insertOrder, Process.ask_cons]
    unfold Store.insertOrder
    rw [ht.store, hnew]
  rw [Runtime.settle, Process.bind_apply, hinsert]
  dsimp only
  rw [Process.bind_apply, happend]
  rfl

/-- What a fresh order makes of the world. -/
structure Sent (w w' : World) (placed : OrderIntent) : Prop where
  attached : w'.log.attached = true
  row : ∃ order, order.intent.clientRef = placed.clientRef ∧ w'.store = w.store.upsert order
  index : w'.index = w.index
  uuidCalls : w'.uuidCalls = w.uuidCalls
  sent : w'.sent = w.sent ++ [.place placed]

theorem recordAndSend_working {t₁ t₂ t₃ t₄ t₅ : Tick}
    (hticks : ∀ u ∈ [t, t₁, t₂, t₃, t₄, t₅], Working u) (ticks : List Tick)
    (hattached : w.log.attached = true) {placed : OrderIntent}
    (hnew : w.store.find placed.clientRef = none) :
    ∃ order w', Runtime.recordAndSend placed (t :: t₁ :: t₂ :: t₃ :: t₄ :: t₅ :: ticks) w
        = .done (.ok order) ticks w' ∧ Sent w w' placed := by
  obtain ⟨brokerOrderId, hacked⟩ := (hticks t₂ (by simp)).acked
  obtain ⟨record, wr, happend, hbeside⟩ := append_working (hticks t (by simp)) hattached
    .placeOrder placed.clientRef (Idempotency.intentPayloadJson placed)
    (t₁ :: t₂ :: t₃ :: t₄ :: t₅ :: ticks)
  -- the record, the barrier and the send are behind it
  generalize hws : ({ wr with
    unsentRefs := wr.unsentRefs.filter (· ≠ placed.clientRef),
    sent := wr.sent ++ [.place placed] } : World) = ws
  generalize happly : ws.fsm.apply (Runtime.makeOrder placed .sent)
    ⟨placed.clientRef, brokerOrderId, .acknowledged, 0, 0, 1⟩ = applied
  have hintent : applied.2.1.intent = placed := by
    rw [← happly, Lifecycle.apply_intent]
    rfl
  have hlog : ws.log.attached = true := by
    rw [← hws]
    exact hbeside.attached.trans hattached
  have hnewRow : ws.store.find applied.2.1.intent.clientRef = none := by
    rw [hintent, ← hws]
    show wr.store.find placed.clientRef = none
    rw [hbeside.store]
    exact hnew
  obtain ⟨w', hsettle, hafter⟩ := settle_working t₄ (w := { ws with fsm := applied.2.2 })
    (hticks t₃ (by simp)) (hticks t₅ (by simp)) ticks hlog hnewRow
  refine ⟨applied.2.1, w', ?_, ?_⟩
  · rw [Runtime.recordAndSend, Process.bind_apply, happend]
    dsimp only
    rw [Process.bind_apply]
    show (Runtime.runPreSendBarrier >>= _) (t₁ :: t₂ :: t₃ :: t₄ :: t₅ :: ticks) _ = _
    rw [Process.bind_apply]
    show (Runtime.send (.place placed) >>= _) (t₂ :: t₃ :: t₄ :: t₅ :: ticks) _ = _
    rw [Process.bind_apply, Runtime.send, Process.ask_cons, hacked]
    dsimp only
    rw [Process.bind_apply]
    rw [← hsettle, ← happly, ← hws]
    rfl
  · refine ⟨?_, ⟨applied.2.1, by rw [hintent], ?_⟩, ?_, ?_, ?_⟩
    · rw [hafter.attached]
      exact hlog
    · rw [hafter.store, ← hws, ← hbeside.store]
    · rw [hafter.index, ← hws]
      exact hbeside.index
    · rw [hafter.uuidCalls, ← hws]
      exact hbeside.uuidCalls
    · rw [hafter.sent, ← hws, ← hbeside.sent]

/-- The reference `place` mints for an order it has not seen. -/
def mintedRef (uuids : UuidGenerator) (w : World) (strategy : Bytes) (intent : OrderIntent) :
    Bytes :=
  makeClientRef strategy (signalSignature intent) (uuids.next w.uuidCalls)

theorem place_new {uuids : UuidGenerator} (strategy : Bytes) {intent : OrderIntent}
    (hserved : Served ticks) (hattached : w.log.attached = true)
    (hindex : w.index (signalSignature intent) = none)
    (hnew : w.store.find (mintedRef uuids w strategy intent) = none) :
    ∃ order unused w', place uuids strategy intent ticks w = .done (.ok order) unused w'
      ∧ Sent
        { w with
          uuidCalls := w.uuidCalls + 1
          index := w.index.registerSignature (signalSignature intent)
            (mintedRef uuids w strategy intent) } w'
        { intent with clientRef := mintedRef uuids w strategy intent } := by
  obtain ⟨hlength, hall⟩ := hserved
  obtain ⟨t₀, ticks₁, rfl, h₁⟩ := exists_cons_of_lt hlength
  obtain ⟨t₁, ticks₂, rfl, h₂⟩ := exists_cons_of_lt h₁
  obtain ⟨t₂, ticks₃, rfl, h₃⟩ := exists_cons_of_lt h₂
  obtain ⟨t₃, ticks₄, rfl, h₄⟩ := exists_cons_of_lt h₃
  obtain ⟨t₄, ticks₅, rfl, h₅⟩ := exists_cons_of_lt h₄
  obtain ⟨t₅, ticks₆, rfl, h₆⟩ := exists_cons_of_lt h₅
  obtain ⟨t₆, rest, rfl, -⟩ := exists_cons_of_lt h₆
  generalize hww : ({ w with
    uuidCalls := w.uuidCalls + 1
    index := w.index.registerSignature (signalSignature intent)
      (mintedRef uuids w strategy intent) } : World) = ww
  generalize hplaced : ({ intent with
    clientRef := mintedRef uuids w strategy intent } : OrderIntent) = placed
  have hticks : ∀ u ∈ [t₁, t₂, t₃, t₄, t₅, t₆], Working u := by
    intro u hu
    exact hall u (List.mem_cons_of_mem t₀ (List.mem_append_left rest hu))
  have hlog : ww.log.attached = true := by
    rw [← hww]
    exact hattached
  have hnewRow : ww.store.find placed.clientRef = none := by
    rw [← hww, ← hplaced]
    exact hnew
  obtain ⟨order, w', hrun, hsent⟩ := recordAndSend_working hticks rest hlog hnewRow
  refine ⟨order, rest, w', ?_, hsent⟩
  have hreserve : Runtime.reserve uuids strategy intent
      (t₀ :: t₁ :: t₂ :: t₃ :: t₄ :: t₅ :: t₆ :: rest) w
      = .done (.ok ⟨mintedRef uuids w strategy intent, true, none⟩)
        (t₁ :: t₂ :: t₃ :: t₄ :: t₅ :: t₆ :: rest) ww := by
    have hexisting : Runtime.existingRefForSignature (signalSignature intent)
        (t₀ :: t₁ :: t₂ :: t₃ :: t₄ :: t₅ :: t₆ :: rest) w
        = .done none (t₀ :: t₁ :: t₂ :: t₃ :: t₄ :: t₅ :: t₆ :: rest) w := by
      rw [← hindex]
      rfl
    rw [Runtime.reserve, Process.bind_apply, hexisting]
    dsimp only
    rw [Process.bind_apply]
    show (Runtime.findOrder (mintedRef uuids w strategy intent) >>= _) _
      { w with uuidCalls := w.uuidCalls + 1 } = _
    rw [Process.bind_apply, findOrder_working (hall t₀ (by simp))]
    dsimp only
    rw [hnew, ← hww]
    rfl
  rw [place, Process.bind_apply, hreserve]
  rw [← hplaced] at hrun
  exact hrun

/-- A signature with a row: the order of that row is the answer, and nothing moves. -/
theorem place_seen (uuids : UuidGenerator) (strategy : Bytes) {intent : OrderIntent} {ref : Bytes}
    {row : Order} (hserved : Served ticks) (hindex : w.index (signalSignature intent) = some ref)
    (hrow : w.store.find ref = some row) :
    ∃ unused, place uuids strategy intent ticks w = .done (.ok row) unused w := by
  obtain ⟨hlength, hall⟩ := hserved
  obtain ⟨t, rest, rfl, -⟩ := exists_cons_of_lt hlength
  have hexisting : Runtime.existingRefForSignature (signalSignature intent) (t :: rest) w
      = .done (some ref) (t :: rest) w := by
    rw [← hindex]
    rfl
  have hreserve : Runtime.reserve uuids strategy intent (t :: rest) w
      = .done (.ok ⟨ref, false, some row⟩) rest w := by
    rw [Runtime.reserve, Process.bind_apply, hexisting]
    dsimp only
    rw [Process.bind_apply, findOrder_working (hall t (by simp)), hrow]
    rfl
  refine ⟨rest, ?_⟩
  rw [place, Process.bind_apply, hreserve]
  rfl

end

/-! ## A run of orders -/

/-- The calls of a run, each with its answers. -/
def dispatch (strategy : Bytes) (orders : List (OrderIntent × List Tick)) :
    List (Call × List Tick) :=
  orders.map fun order => (.place strategy order.1, order.2)

/-- What the broker got in all. -/
def placedQuantity (w : World) : Int := (w.placed.map fun c => c.quantity.toInt).sum

/-- The log takes records, every signature of the orders that is reserved has its row, and no
row has a reference still to be minted. -/
structure Ready (uuids : UuidGenerator) (bound : Nat) (orders : List OrderIntent) (w : World) :
    Prop where
  attached : w.log.attached = true
  backed : ∀ c ∈ orders, ∀ ref, w.index (signalSignature c) = some ref →
    ∃ row, w.store.find ref = some row
  unminted : ∀ n < bound, w.uuidCalls ≤ n → ∀ strategy signature,
    w.store.find (makeClientRef strategy signature (uuids.next n)) = none

section

variable {uuids : UuidGenerator} {bound : Nat} {strategy : Bytes} {w w' : World}
  {intent : OrderIntent} {orders : List OrderIntent}

theorem Ready.sent (h : Ready uuids bound (intent :: orders) w) (hdistinct : uuids.Distinct bound)
    (hcalls : w.uuidCalls < bound) (hindex : w.index (signalSignature intent) = none)
    (hsent : Sent
      { w with
        uuidCalls := w.uuidCalls + 1
        index := w.index.registerSignature (signalSignature intent)
          (mintedRef uuids w strategy intent) } w'
      { intent with clientRef := mintedRef uuids w strategy intent }) :
    Ready uuids bound orders w' := by
  obtain ⟨order, href, hstore⟩ := hsent.row
  have href : order.intent.clientRef = mintedRef uuids w strategy intent := href
  have hregistered : w'.index = Function.update w.index (signalSignature intent)
      (some (mintedRef uuids w strategy intent)) :=
    hsent.index.trans (Idempotency.registerSignature_of_none hindex _)
  refine ⟨hsent.attached, ?_, ?_⟩
  · intro c hc ref hc'
    rw [hstore]
    simp only [Table.find_upsert, href]
    split_ifs with hminted
    · exact ⟨order, rfl⟩
    · apply h.backed c (List.mem_cons_of_mem intent hc)
      rw [hregistered] at hc'
      by_cases hsame : signalSignature c = signalSignature intent
      · rw [hsame, Function.update_self] at hc'
        exact absurd (Option.some.inj hc').symm hminted
      · rw [Function.update_of_ne hsame] at hc'
        exact hc'
  · intro n hn hlater strategy' signature
    rw [hsent.uuidCalls] at hlater
    have hlater : w.uuidCalls + 1 ≤ n := hlater
    rw [hstore, Table.find_upsert, if_neg]
    · exact h.unminted n hn (by omega) strategy' signature
    · intro hsame
      rw [href] at hsame
      have hsuffix : uuids.next w.uuidCalls
          <:+ makeClientRef strategy' signature (uuids.next n) := by
        rw [hsame]
        exact Runtime.suffix_makeClientRef strategy (signalSignature intent) _
      have hnext := Runtime.next_eq_of_suffix
        (Runtime.suffix_makeClientRef strategy' signature (uuids.next n)) hsuffix
      have := hdistinct n hn w.uuidCalls hcalls hnext
      omega

theorem placedQuantity_sent {placed : OrderIntent} (h : w'.sent = w.sent ++ [.place placed]) :
    placedQuantity w' = placedQuantity w + placed.quantity.toInt := by
  unfold placedQuantity World.placed
  rw [h, List.filterMap_append, List.map_append, List.sum_append]
  simp

/-- **Dispatching sends the first order of each signature.** -/
theorem runCalls_firstOf (strategy : Bytes) (hdistinct : uuids.Distinct bound)
    (served : List (OrderIntent × List Tick))
    (hserved : ∀ order ∈ served, Served order.2) {w : World}
    (hready : Ready uuids bound (served.map Prod.fst) w)
    (hbound : w.uuidCalls + served.length ≤ bound) :
    placedQuantity (runCalls uuids w (dispatch strategy served))
      = placedQuantity w
        + ((firstOf signalSignature (fun signature => (w.index signature).isSome)
            (served.map Prod.fst)).map fun c => c.quantity.toInt).sum := by
  induction served generalizing w with
  | nil => exact (Int.add_zero _).symm
  | cons order served ih =>
    obtain ⟨intent, ticks⟩ := order
    have hticks : Served ticks := hserved (intent, ticks) List.mem_cons_self
    have hrest : ∀ order ∈ served, Served order.2 :=
      fun order horder => hserved order (List.mem_cons_of_mem _ horder)
    rw [List.length_cons] at hbound
    rw [List.map_cons] at hready ⊢
    cases hindex : w.index (signalSignature intent) with
    | some ref =>
      obtain ⟨row, hrow⟩ := hready.backed intent List.mem_cons_self ref hindex
      obtain ⟨unused, hplace⟩ := place_seen uuids strategy hticks hindex hrow
      have hperform : (Call.place strategy intent).perform uuids ticks w = .done () unused w := by
        rw [Call.perform, Process.bind_apply, hplace]
        rfl
      have hready' : Ready uuids bound (served.map Prod.fst) w :=
        ⟨hready.attached, fun c hc => hready.backed c (List.mem_cons_of_mem _ hc),
          hready.unminted⟩
      rw [firstOf_seen (by simp [hindex]), ← ih hrest hready' (by omega)]
      show placedQuantity (runCalls uuids w ((.place strategy intent, ticks) :: _)) = _
      rw [runCalls, hperform]
      rfl
    | none =>
      obtain ⟨placed, unused, w', hplace, hsent⟩ := place_new strategy hticks
        hready.attached hindex
        (hready.unminted w.uuidCalls (by omega) le_rfl strategy _)
      have hperform : (Call.place strategy intent).perform uuids ticks w = .done () unused w' := by
        rw [Call.perform, Process.bind_apply, hplace]
        rfl
      have hcalls : w'.uuidCalls = w.uuidCalls + 1 := hsent.uuidCalls
      have hseen : (fun signature => (w'.index signature).isSome)
          = Function.update (fun signature => (w.index signature).isSome)
            (signalSignature intent) true := by
        funext signature
        rw [hsent.index]
        show ((w.index.registerSignature _ _) signature).isSome = _
        rw [Idempotency.registerSignature_of_none hindex, Function.update_apply,
          Function.update_apply]
        split_ifs
        · rfl
        · rfl
      rw [firstOf_new (by simp [hindex]), ← hseen, List.map_cons, List.sum_cons, ← Int.add_assoc]
      have hplaced := placedQuantity_sent (w := w) hsent.sent
      have hplaced : placedQuantity w' = placedQuantity w + intent.quantity.toInt := hplaced
      rw [← hplaced, ← ih hrest (hready.sent hdistinct (by omega) hindex hsent) (by omega)]
      show placedQuantity (runCalls uuids w ((.place strategy intent, ticks) :: _)) = _
      rw [runCalls, hperform]
      rfl

end

/-- Nothing of the orders was dispatched before: the log takes records, no signature is reserved
and no row has a reference still to be minted. -/
structure Fresh (uuids : UuidGenerator) (bound : Nat) (orders : List OrderIntent) (w : World) :
    Prop where
  attached : w.log.attached = true
  unseen : ∀ c ∈ orders, w.index (signalSignature c) = none
  unminted : ∀ n < bound, w.uuidCalls ≤ n → ∀ strategy signature,
    w.store.find (makeClientRef strategy signature (uuids.next n)) = none

theorem Fresh.ready {uuids : UuidGenerator} {bound : Nat} {orders : List OrderIntent} {w : World}
    (h : Fresh uuids bound orders w) : Ready uuids bound orders w where
  attached := h.attached
  backed c hc ref href := by
    rw [h.unseen c hc] at href
    cases href
  unminted := h.unminted

/-- **All of the orders arrive exactly when no two share a signature.** -/
theorem dispatched_all_iff {uuids : UuidGenerator} {bound : Nat} (strategy : Bytes) {w : World}
    {served : List (OrderIntent × List Tick)} (hserved : ∀ order ∈ served, Served order.2)
    (hpositive : ∀ c ∈ served.map Prod.fst, 0 < c.quantity.toInt)
    (hfresh : Fresh uuids bound (served.map Prod.fst) w) (hdistinct : uuids.Distinct bound)
    (hbound : w.uuidCalls + served.length ≤ bound) :
    placedQuantity (runCalls uuids w (dispatch strategy served))
        = placedQuantity w + ((served.map Prod.fst).map fun c => c.quantity.toInt).sum
      ↔ ((served.map Prod.fst).map signalSignature).Nodup := by
  rw [runCalls_firstOf strategy hdistinct served hserved hfresh.ready hbound, add_right_inj,
    sum_firstOf_eq_iff hpositive]
  exact and_iff_left fun c hc => by rw [hfresh.unseen c hc]; rfl

/-! ## The slices of an order -/

section

variable {parent : OrderIntent} {inst : Instrument}

/-- The signature of every slice of this size. -/
def sliceSignature (parent : OrderIntent) (quantity : Domain.Quantity) : Bytes :=
  signalSignature { parent with quantity := quantity }

theorem cut_signatures {chunk : Domain.Quantity} :
    (cut parent chunk).map signalSignature
      = List.replicate (fullCount parent chunk) (sliceSignature parent chunk)
        ++ if parent.quantity % chunk > 0 then
          [sliceSignature parent (parent.quantity % chunk)] else [] := by
  have hsize : ∀ c ∈ cut parent chunk, signalSignature c = sliceSignature parent c.quantity := by
    intro c hc
    obtain ⟨quantity, k, rfl⟩ := cut_copies hc
    rfl
  have hmap : (cut parent chunk).map (fun c => sliceSignature parent c.quantity)
      = ((cut parent chunk).map (·.quantity)).map (sliceSignature parent) := by
    rw [List.map_map]
    rfl
  rw [List.map_congr_left hsize, hmap, cut_quantities, List.map_append, List.map_replicate]
  congr 1
  split_ifs
  · rfl
  · rfl

/-- One full chunk and a remainder, under two signatures. -/
def TwoSignals (parent : OrderIntent) (inst : Instrument) : Prop :=
  parent.quantity.toInt < 2 * (chunkOf inst).toInt
    ∧ sliceSignature parent (chunkOf inst)
      ≠ sliceSignature parent (parent.quantity % chunkOf inst)

/-- Equal slices share a signature. -/
theorem nodup_signatures_iff (h : Sliceable parent inst)
    (hover : inst.freezeQty.toInt < parent.quantity.toInt) :
    ((cut parent (chunkOf inst)).map signalSignature).Nodup ↔ TwoSignals parent inst := by
  have hquantity := h.quantity_pos
  obtain ⟨-, hlow, hhigh⟩ := chunkOf_bounds h
  unfold TwoSignals
  generalize chunkOf inst = chunk at hlow hhigh ⊢
  have hchunk : 0 < chunk.toInt := by have := h.lot_pos; omega
  have hfull := fullCount_eq hquantity hchunk
  have hone : 1 ≤ parent.quantity.toInt / chunk.toInt :=
    (Int.le_ediv_iff_mul_le hchunk).mpr (by omega)
  have hlt : parent.quantity.toInt / chunk.toInt < 2
      ↔ parent.quantity.toInt < 2 * chunk.toInt := Int.ediv_lt_iff_lt_mul hchunk
  rw [cut_signatures, ← hlt]
  by_cases hmany : parent.quantity.toInt / chunk.toInt < 2
  · -- one chunk; what is behind it is not nothing, for the order is over the freeze quantity
    have hcount : fullCount parent chunk = 1 := by omega
    have hback := Int.ediv_mul_add_emod parent.quantity.toInt chunk.toInt
    have hrem : parent.quantity % chunk > 0 := by
      rw [gt_iff_lt, Int64.lt_iff_toInt_lt, toInt_rem _ hquantity, Int64.toInt_zero]
      rw [show parent.quantity.toInt / chunk.toInt = 1 by omega] at hback
      omega
    rw [hcount, if_pos hrem]
    simp [hmany]
  · refine iff_of_false ?_ fun h => hmany h.1
    obtain ⟨n, hn⟩ : ∃ n, fullCount parent chunk = n + 2 :=
      ⟨fullCount parent chunk - 2, by omega⟩
    rw [hn, List.replicate_succ, List.replicate_succ]
    simp

/-- **The slices sent add up to their parent exactly when there are two of them, under two
signatures.** -/
theorem dispatched_whole_iff {uuids : UuidGenerator} {bound : Nat} {strategy : Bytes} {w : World}
    {served : List (OrderIntent × List Tick)}
    (hslice : slice parent inst = .ok (served.map Prod.fst))
    (hover : inst.freezeQty < parent.quantity)
    (hserved : ∀ order ∈ served, Served order.2)
    (hfresh : Fresh uuids bound (served.map Prod.fst) w) (hdistinct : uuids.Distinct bound)
    (hbound : w.uuidCalls + served.length ≤ bound) :
    placedQuantity (runCalls uuids w (dispatch strategy served))
        = placedQuantity w + parent.quantity.toInt
      ↔ TwoSignals parent inst := by
  rw [Int64.lt_iff_toInt_lt] at hover
  rcases slice_cases parent inst with ⟨-, e, herror⟩ | ⟨-, hwhole, -⟩ | ⟨hsliceable, -, hcut⟩
  · rw [herror] at hslice
    cases hslice
  · omega
  · have hchildren : served.map Prod.fst = cut parent (chunkOf inst) := by
      rw [hcut] at hslice
      exact (Except.ok.inj hslice).symm
    have hslices := slices_cut hsliceable
    have hpositive : ∀ c ∈ served.map Prod.fst, 0 < c.quantity.toInt := by
      rw [hchildren]
      exact fun c hc => (hslices.sized c hc).1
    have hall := dispatched_all_iff strategy hserved hpositive hfresh hdistinct hbound
    rw [hchildren, hslices.sum] at hall
    rw [hall]
    exact nodup_signatures_iff hsliceable hover

end

/-- The slices of the sample order, before a broker that acknowledges each of them. -/
def sampleServed (freeze : Domain.Quantity) : List (OrderIntent × List Tick) :=
  (cut sampleParent (chunkOf (sampleInstrument freeze))).map
    fun c => (c, List.replicate 7 Runtime.sampleTick)

theorem numbered_distinct : UuidGenerator.numbered.Distinct 3 := by
  unfold UuidGenerator.Distinct
  decide

theorem sampleServed_served (freeze : Domain.Quantity) :
    ∀ order ∈ sampleServed freeze, Served order.2 := by
  intro order horder
  obtain ⟨c, -, rfl⟩ := List.mem_map.mp horder
  refine ⟨List.length_replicate.ge, fun t ht => ?_⟩
  rw [List.eq_of_mem_replicate ht]
  exact ⟨rfl, rfl, _, rfl⟩

theorem fresh_blank (orders : List OrderIntent) :
    Fresh UuidGenerator.numbered 3 orders (World.blank IntentLog.sampleLog) :=
  ⟨rfl, fun _ _ => rfl, fun _ _ _ _ _ => rfl⟩

/-- 200 and 50: both arrive. -/
theorem dispatched_whole_iff_two :
    placedQuantity (runCalls UuidGenerator.numbered (World.blank IntentLog.sampleLog)
      (dispatch (ascii "p") (sampleServed 200))) = 0 + 250 := by
  have htwo : TwoSignals sampleParent (sampleInstrument 200) := by
    constructor
    · decide
    · decide +kernel
  exact (dispatched_whole_iff (by decide) (by decide) (sampleServed_served 200) (fresh_blank _)
    numbered_distinct (by decide)).mpr htwo

/-- 100, 100 and 50: the second is taken for the first. -/
theorem equal_slices_swallowed :
    slice sampleParent (sampleInstrument 100) = .ok ((sampleServed 100).map Prod.fst)
      ∧ (∀ order ∈ sampleServed 100, Served order.2)
      ∧ placedQuantity (runCalls UuidGenerator.numbered (World.blank IntentLog.sampleLog)
          (dispatch (ascii "p") (sampleServed 100))) ≠ sampleParent.quantity.toInt := by
  refine ⟨by decide, sampleServed_served 100, fun hwhole => ?_⟩
  have hsliceable : Sliceable sampleParent (sampleInstrument 100) :=
    ⟨by decide, by decide, by decide, by decide, by decide⟩
  have hall := dispatched_all_iff (ascii "p") (sampleServed_served 100) (by decide)
    (fresh_blank _) numbered_distinct (by decide)
  have hnodup := hall.mp (hwhole.trans (by decide))
  exact absurd ((nodup_signatures_iff hsliceable (by decide)).mp hnodup).1 (by decide)

end BrokerExec.Slicing

import BrokerExec.Adapters.Kite.SquareOff
import BrokerExec.Lib.Run

/-!
# One exit for each parent on Kite

A run of flattens of one order, with the exits that the broker accepts. A flatten places only on a
book without the exit's tag, and the book lists what was accepted, whatever the process forgot
and whatever an ack said.

* **`exit_at_most_once`** — over every run the broker accepts at most one exit, and no flatten
  places for a row that is an exit itself.
-/

namespace BrokerExec.Adapters.Kite

open BrokerExec.Domain (Price)

/-! ## The market -/

/-- The adapter and the orders its flattens got accepted, each under the broker's id. -/
structure Market where
  adapter : KiteBrokerAdapter
  accepted : List (Bytes × OrderParams)

/-- The process restarts, or it flattens the order: `acceptedAs` is the id that the broker gives an
order placed by the flatten, whatever the ack says. -/
inductive MarketEvent where
  | restart
  | squareOff (lower upper : Option Price) (answers : Answers) (acceptedAs : Option Bytes)

def Market.step (brokerOrderId : Bytes) (market : Market) : MarketEvent → Market
  | .restart => { market with adapter := market.adapter.restart }
  | .squareOff lower upper answers acceptedAs =>
    let flattened := market.adapter.squareOffBanded brokerOrderId lower upper answers
    { adapter := flattened.adapter
      accepted := market.accepted ++ match acceptedAs with
        | none => []
        | some exitId => (placedOrders flattened.calls).map (exitId, ·) }

/-- The book lists the order under its id and with the tag it was sent. -/
def Listed (elements : List Json.Value) (order : Bytes × OrderParams) : Prop :=
  ∃ row ∈ objectRows elements, jsonStr row (ascii "order_id") = order.1
    ∧ jsonStr row (ascii "tag") = order.2.tag

/-- What the broker keeps to: an exit gets an id of its own, and a book lists every order it
accepted. The rows may say anything else. -/
def BrokerEchoes (brokerOrderId : Bytes) (market : Market) : MarketEvent → Prop
  | .restart => True
  | .squareOff _ _ answers acceptedAs =>
    (∀ exitId, acceptedAs = some exitId → exitId ≠ brokerOrderId)
      ∧ ∀ elements, answers.orders = .ok (.array elements) →
        ∀ order ∈ market.accepted, Listed elements order

/-! ## One flatten -/

variable {brokerOrderId : Bytes}

/-- **The book shows the exit**: a listed order with the exit's tag is found by the scan. -/
theorem scanBook_of_listed {elements : List Json.Value} {order : Bytes × OrderParams}
    (hlisted : Listed elements order) (hid : order.1 ≠ brokerOrderId)
    (htag : order.2.tag = exitTagFor brokerOrderId) :
    (scanBook brokerOrderId (bookRows elements)).2 ≠ none := by
  obtain ⟨row, hrow, horderId, hrowTag⟩ := hlisted
  have hexit : (readBrokerRow row).isExit brokerOrderId = true := by
    have hother : (readBrokerRow row).orderId ≠ brokerOrderId := by
      rw [readBrokerRow, horderId]
      exact hid
    have hrowTag' : (readBrokerRow row).tag = exitTagFor brokerOrderId := by
      rw [readBrokerRow, hrowTag, htag]
    simp [BrokerRow.isExit, BrokerRow.isParent, hother, hrowTag', exitTagFor_ne_nil]
  rw [scanBook_eq]
  intro hnone
  have hempty := List.getLast?_eq_none_iff.mp hnone
  have hmem : readBrokerRow row ∈ (bookRows elements).filter (·.isExit brokerOrderId) :=
    List.mem_filter.mpr ⟨List.mem_map_of_mem hrow, hexit⟩
  rw [hempty] at hmem
  exact List.not_mem_nil hmem

theorem exitParams_tag (st : KiteBrokerAdapter) (parent : BrokerRow) (exitQty : Int)
    (side : Domain.Side) (exchange : Bytes) (lower upper : Option Price) :
    (st.exitParams brokerOrderId parent exitQty side exchange lower upper).tag
      = exitTagFor brokerOrderId := by
  unfold KiteBrokerAdapter.exitParams
  dsimp only
  split_ifs <;> rfl

/-- A flatten places nothing, or the one exit, with its own tag and on a book without it. -/
theorem placedOrders_cases (st : KiteBrokerAdapter) (brokerOrderId : Bytes)
    (lower upper : Option Price) (answers : Answers) :
    placedOrders (st.squareOffBanded brokerOrderId lower upper answers).calls = []
      ∨ ∃ elements seen params, answers.orders = .ok (.array elements)
        ∧ scanBook brokerOrderId (bookRows elements) = (some seen, none)
        ∧ isExitTag seen.tag = false ∧ params.tag = exitTagFor brokerOrderId
        ∧ placedOrders (st.squareOffBanded brokerOrderId lower upper answers).calls = [params] := by
  rcases placed_of_squareOffBanded st brokerOrderId lower upper answers with
    hplaceless | ⟨seen, params, hcleared, hplaced, hcalls⟩
  · exact .inl (placedOrders_of_placeless hplaceless)
  · obtain ⟨side, exchange, -, hparams⟩ := hplaced.sent
    obtain ⟨book, hread, hassess⟩ := hcleared.assessed
    obtain ⟨elements, total, rfl, hassessed⟩ := assess_ok_iff.mp hassess
    have hscanned := hassessed.scanned
    rw [hplaced.unexited] at hscanned
    refine .inr ⟨elements, seen.parent, params, hread, hscanned, hassessed.notExit, ?_, ?_⟩
    · rw [hparams, exitParams_tag]
    · rw [hcalls]
      exact placedOrders_concat (clearing_placeless brokerOrderId seen.terminal) params

/-! ## The run -/

/-- At most one exit is accepted, under an id of its own and with the exit's tag. -/
structure OneExit (brokerOrderId : Bytes) (market : Market) : Prop where
  once : market.accepted.length ≤ 1
  named : ∀ order ∈ market.accepted, order.1 ≠ brokerOrderId
  tagged : ∀ order ∈ market.accepted, order.2.tag = exitTagFor brokerOrderId

/-- **One step.** -/
theorem oneExit_step (market : Market) (event : MarketEvent) (h : OneExit brokerOrderId market)
    (hechoes : BrokerEchoes brokerOrderId market event) :
    OneExit brokerOrderId (market.step brokerOrderId event) := by
  cases event with
  | restart => exact ⟨h.once, h.named, h.tagged⟩
  | squareOff lower upper answers acceptedAs =>
    obtain ⟨hfresh, hlists⟩ := hechoes
    cases acceptedAs with
    | none =>
      have hsame : (market.step brokerOrderId (.squareOff lower upper answers none)).accepted
          = market.accepted := List.append_nil _
      exact ⟨hsame ▸ h.once, hsame ▸ h.named, hsame ▸ h.tagged⟩
    | some exitId =>
      -- the broker accepts what the flatten placed, if it did
      rcases placedOrders_cases market.adapter brokerOrderId lower upper answers
        with hnone | ⟨elements, parent, params, hread, hscanned, -, htag, hone⟩
      · have hsame : (market.step brokerOrderId
            (.squareOff lower upper answers (some exitId))).accepted = market.accepted := by
          simp only [Market.step, hnone, List.map_nil, List.append_nil]
        exact ⟨hsame ▸ h.once, hsame ▸ h.named, hsame ▸ h.tagged⟩
      · -- an order accepted before would be on the book that was read
        have hnone : market.accepted = [] := by
          refine List.eq_nil_iff_forall_not_mem.mpr fun order horder => ?_
          have hfound := scanBook_of_listed (hlists elements hread order horder)
            (h.named order horder) (h.tagged order horder)
          rw [hscanned] at hfound
          exact hfound rfl
        have hnew : (market.step brokerOrderId
            (.squareOff lower upper answers (some exitId))).accepted = [(exitId, params)] := by
          simp only [Market.step, hone, hnone, List.map_cons, List.map_nil, List.nil_append]
        refine ⟨by rw [hnew]; exact le_refl 1, fun order horder => ?_, fun order horder => ?_⟩
        · rw [hnew, List.mem_singleton] at horder
          exact horder ▸ hfresh exitId rfl
        · rw [hnew, List.mem_singleton] at horder
          exact horder ▸ htag

/-- **At most one exit for each parent**, over every run of flattens and restarts; and whatever a
flatten reads, it places for no row that carries an exit's tag. -/
theorem exit_at_most_once (market : Market) (events : List MarketEvent)
    (hstart : market.accepted = [])
    (hechoes : Along (Market.step brokerOrderId) (BrokerEchoes brokerOrderId) market events) :
    ((run (Market.step brokerOrderId) market events).accepted.filter
        fun order => order.2.tag = exitTagFor brokerOrderId).length ≤ 1
      ∧ ∀ (st : KiteBrokerAdapter) (someOrderId : Bytes) (lower upper : Option Price)
        (answers : Answers),
        placedOrders (st.squareOffBanded someOrderId lower upper answers).calls ≠ [] →
          ∃ elements parent, answers.orders = .ok (.array elements)
            ∧ (scanBook someOrderId (bookRows elements)).1 = some parent
            ∧ isExitTag parent.tag = false := by
  constructor
  · have hinv : OneExit brokerOrderId (run (Market.step brokerOrderId) market events) := by
      refine run_keeps (fun m e hm he => oneExit_step m e hm he) ?_ hechoes
      exact ⟨by simp [hstart], by simp [hstart], by simp [hstart]⟩
    exact (List.length_filter_le _ _).trans hinv.once
  · intro st someOrderId lower upper answers hplaces
    rcases placedOrders_cases st someOrderId lower upper answers with
      hnone | ⟨elements, parent, params, hread, hscanned, hplain, -, -⟩
    · exact absurd hnone hplaces
    · exact ⟨elements, parent, hread, by rw [hscanned], hplain⟩

/-! A lost ack, a new process, and the same flatten again. -/

def completeRow : List (Bytes × Json.Value) :=
  [(ascii "order_id", .string (ascii "1")), (ascii "transaction_type", .string (ascii "BUY")),
    (ascii "status", .string (ascii "COMPLETE")), (ascii "quantity", .int 5),
    (ascii "filled_quantity", .int 5)]

def exitRow : List (Bytes × Json.Value) :=
  [(ascii "order_id", .string (ascii "2")), (ascii "tag", .string (exitTagFor (ascii "1")))]

def lostAck (book : List Json.Value) : Answers :=
  ⟨.ok (.array book), .ok .null, .error (Errors.makeError .unknown (ascii "no answer"))⟩

def replayed : List MarketEvent :=
  [.squareOff none none (lostAck [.object completeRow]) (some (ascii "2")), .restart,
    .squareOff none none (lostAck [.object completeRow, .object exitRow]) (some (ascii "3"))]

def newMarket : Market := ⟨⟨none, fun _ => none, fun _ => none⟩, []⟩

theorem exit_at_most_once_replayed :
    ((run (Market.step (ascii "1")) newMarket replayed).accepted.filter
        fun order => order.2.tag = exitTagFor (ascii "1")).length ≤ 1 := by
  refine (exit_at_most_once newMarket replayed rfl ?_).1
  refine along_cons.mpr ⟨⟨by decide, by simp [newMarket]⟩, ?_⟩
  refine along_cons.mpr ⟨trivial, along_cons.mpr ⟨⟨by decide, ?_⟩, along_nil _⟩⟩
  have haccepted : (run (Market.step (ascii "1")) newMarket (replayed.take 2)).accepted.map
      (fun order => (order.1, order.2.tag)) = [(ascii "2", exitTagFor (ascii "1"))] := by
    decide +kernel
  intro elements hread order horder
  obtain rfl : elements = [.object completeRow, .object exitRow] := by
    simpa [lostAck] using hread.symm
  have hmem : (order.1, order.2.tag) ∈ [(ascii "2", exitTagFor (ascii "1"))] :=
    haccepted ▸ List.mem_map_of_mem (f := fun order => (order.1, order.2.tag)) horder
  obtain ⟨hid, htag⟩ := Prod.mk.inj (List.mem_singleton.mp hmem)
  exact ⟨exitRow, by simp [objectRows], hid.symm ▸ rfl, htag.symm ▸ rfl⟩

end BrokerExec.Adapters.Kite

import BrokerExec.Adapters.Kite.OneExit
import BrokerExec.Adapters.Kotak.SquareOff

/-!
# What a flatten that reports ok rests on

Both adapters take the fill within 0 and the stated total, and an exit that is theirs by its tag
or its id is not asked for its side.

* **`ok_rests_on_evidence`** — a flatten that reports ok has the parent's row, nothing left to
  cancel, and no fill, or an exit in force that covers it, or the ack of one of its size;
* **`stated_fill_not_flattened`** — the number that a row states is not always what is flattened.
-/

namespace BrokerExec.Adapters

open BrokerExec.Domain (Price Side)

/-- The cancel was acked, or answered that there is no such order. -/
def RemainderCancelled (answers : Answers) : Prop :=
  (∃ data, answers.cancelOrder = .ok data)
    ∨ ∃ error, answers.cancelOrder = .error error ∧ error.category = .orderNotFound

/-! ## Kite -/

namespace Kite

/-- A row with the exit's tag, working or complete, of at least the size. -/
def ExitOnBook (brokerOrderId : Bytes) (elements : List Json.Value) (size : Int) : Prop :=
  ∃ exit ∈ bookRows elements, exit.isExit brokerOrderId = true
    ∧ (mapStatus exit.status = .sent ∨ mapStatus exit.status = .filled)
    ∧ ∃ quantity, exit.quantity = some quantity ∧ size ≤ quantity

/-- A place of exactly the size on the opposite side was acked. -/
def ExitAcked (parent : BrokerRow) (answers : Answers) (calls : KiteCalls) (size : Int) : Prop :=
  ∃ params data side, .placeOrder params ∈ calls ∧ answers.placeOrder = .ok data
    ∧ exitSideFor parent.side = some side ∧ params.transactionType = kiteTransactionType side
    ∧ params.tradingsymbol = parent.symbol ∧ params.quantity.toInt = size

/-- What an ok rests on. A row without a fill is left out of the last clause. -/
def Evidence (brokerOrderId : Bytes) (answers : Answers) (calls : KiteCalls) : Prop :=
  ∃ elements row total, answers.orders = .ok (.array elements) ∧ row ∈ objectRows elements
    ∧ jsonStr row (ascii "order_id") = brokerOrderId
    ∧ readTotal (jsonInt row (ascii "quantity")) = some total
    ∧ (Gone (readBrokerRow row) total ∨ RemainderCancelled answers)
    ∧ ∀ filled, jsonInt row (ascii "filled_quantity") = .parsed filled →
      clampFill (some total) filled = 0
        ∨ ExitOnBook brokerOrderId elements (clampFill (some total) filled)
        ∨ ExitAcked (readBrokerRow row) answers calls (clampFill (some total) filled)

/-- An exit that is judged to cover the fill is in force and large enough. -/
theorem judgeExit_ok {exit : BrokerRow} {exitQty : Int} (h : judgeExit exit exitQty = .ok ()) :
    (mapStatus exit.status = .sent ∨ mapStatus exit.status = .filled)
      ∧ ∃ quantity, exit.quantity = some quantity ∧ exitQty ≤ quantity := by
  unfold judgeExit at h
  split at h
  · cases h
  · cases h
  · cases h
  -- past the three refusals the status is working or complete
  next hrejected hcancelled hunknown =>
    constructor
    · rcases mapStatus_cases exit.status with hfilled | hsent | hdead | hdead | hdead
      · exact .inr hfilled
      · exact .inl hsent
      · exact absurd hdead hrejected
      · exact absurd hdead hcancelled
      · exact absurd hdead hunknown
    · split at h
      · cases h
      next quantity hquantity =>
        split_ifs at h with hsize
        exact ⟨quantity, hquantity, not_lt.mp hsize⟩

theorem evidence_of_ok {st : KiteBrokerAdapter} {brokerOrderId : Bytes} {lower upper : Option Price}
    {answers : Answers}
    (hok : (st.squareOffBanded brokerOrderId lower upper answers).result = .ok ()) :
    Evidence brokerOrderId answers (st.squareOffBanded brokerOrderId lower upper answers).calls := by
  obtain ⟨elements, seen, total, hread, hassessed, hgone, hcovered⟩ := ok_of_squareOffBanded hok
  obtain ⟨⟨hparent, hisParent⟩, hexits⟩ := hassessed.rows
  have hbound := bookRows_filled_bound hparent
  obtain ⟨row, hrow, hrowParent⟩ := List.mem_map.mp hparent
  have htotal : readTotal (jsonInt row (ascii "quantity")) = some total := by
    rw [← hassessed.quantity, ← hrowParent]
    rfl
  refine ⟨elements, row, total, hread, hrow, ?_, htotal, ?_, fun filled hfilled => ?_⟩
  · rw [BrokerRow.isParent, Bool.and_eq_true, ← hrowParent] at hisParent
    exact decide_eq_true_eq.mp hisParent.2
  · rw [hrowParent]
    exact hgone.imp_right cancelFailure_eq_none_iff.mp
  · -- the row that states a fill is measured by it, clamped
    have hsize : clampFill (some total) filled = seen.parent.filled := by
      rw [← hrowParent, ← htotal, readBrokerRow, hfilled]
      rfl
    rw [hsize, hrowParent]
    rcases hcovered with ⟨-, hflat | ⟨exit, hexit, hjudge⟩⟩ |
      ⟨side, exchange, data, hside, -, hplaced, hcalls⟩
    · exact .inl hflat
    · exact .inr (.inl ⟨exit, (hexits exit hexit).1, (hexits exit hexit).2, judgeExit_ok hjudge⟩)
    · -- the one place of the flatten was acked
      have hcall := mem_placedOrders.mp (hcalls ▸ List.mem_singleton_self _)
      refine .inr (.inr ⟨_, data, side, hcall, hplaced, hside, ?_, ?_, ?_⟩)
      all_goals
        unfold KiteBrokerAdapter.exitParams
        dsimp only
        split_ifs
        all_goals first | rfl | exact toInt_ofInt_fill hbound.1 hbound.2

end Kite

/-! ## Kotak -/

namespace Kotak

/-- A well-formed row, working or complete and of at least the size, that this process holds as
the exit or that has the exit's symbol and side. -/
def ExitOnBook (st : KotakBrokerAdapter) (brokerOrderId : Bytes) (elements : List Json.Value)
    (parent : RawOrder) (size : Int) : Prop :=
  ∃ raw ∈ bookRows elements, raw.malformed = false ∧ inForce raw = true
    ∧ (∃ quantity, raw.quantity = some quantity ∧ size ≤ quantity)
    ∧ raw.orderId ≠ brokerOrderId
    ∧ (st.refForId raw.orderId = st.exitRef brokerOrderId
      ∨ ∃ side, exitSideFor parent.side = some side ∧ raw.side = sideCode side
        ∧ raw.symbol = parent.symbol)

/-- A place of exactly the size on the opposite side was acked. -/
def ExitAcked (parent : RawOrder) (answers : Answers) (calls : KotakCalls) (size : Int) : Prop :=
  ∃ params data side, .placeOrder params ∈ calls ∧ answers.placeOrder = .ok data
    ∧ exitSideFor parent.side = some side ∧ params.tt = sideCode side
    ∧ params.ts = parent.symbol ∧ params.qt.toInt = size

/-- What an ok rests on. -/
def Evidence (st : KotakBrokerAdapter) (brokerOrderId : Bytes) (answers : Answers)
    (calls : KotakCalls) : Prop :=
  ∃ elements row total filled, answers.orders = .ok (.array elements) ∧ row ∈ objectRows elements
    ∧ (readOrderRow row).orderId = brokerOrderId
    ∧ readTotal (quantityOf row) = some total ∧ fillOf row = .parsed filled
    ∧ (Gone (readOrderRow row).status (clampFill (some total) filled) total
      ∨ RemainderCancelled answers)
    ∧ (clampFill (some total) filled = 0
      ∨ ExitOnBook st brokerOrderId elements (readOrderRow row) (clampFill (some total) filled)
      ∨ ExitAcked (readOrderRow row) answers calls (clampFill (some total) filled))

theorem evidence_of_ok {st : KotakBrokerAdapter} {brokerOrderId : Bytes}
    {lower upper : Option Price} {answers : Answers}
    (hok : (st.squareOffBanded brokerOrderId lower upper answers).result = .ok ()) :
    Evidence st brokerOrderId answers
      (st.squareOffBanded brokerOrderId lower upper answers).calls := by
  obtain ⟨elements, seen, total, hread, hassessed, hgone, hcovered⟩ := ok_of_squareOffBanded hok
  have hbound := hassessed.exitQty_bound
  have hparent := List.mem_of_find?_eq_some hassessed.found
  have hisParent := List.find?_some hassessed.found
  obtain ⟨row, hrow, hrowParent⟩ := List.mem_map.mp hparent
  have htotal : readTotal (quantityOf row) = some total := by
    rw [← hassessed.quantity, ← hrowParent]
    rfl
  -- a row without a readable fill is refused, so one was stated
  obtain ⟨filled, hfilled, hsize⟩ : ∃ filled, fillOf row = .parsed filled
      ∧ clampFill (some total) filled = seen.exitQty := by
    have hstated := hassessed.filled
    rw [← hrowParent, readOrderRow] at hstated
    obtain ⟨filled, hvalue, hclamp⟩ := Option.map_eq_some_iff.mp hstated
    refine ⟨filled, ?_, htotal ▸ hclamp⟩
    cases hreading : fillOf row with
    | parsed value =>
      rw [hreading] at hvalue
      exact congrArg Reading.parsed (Option.some.inj hvalue)
    | _ =>
      rw [hreading] at hvalue
      cases hvalue
  refine ⟨elements, row, total, filled, hread, hrow, ?_, htotal, hfilled, ?_, ?_⟩
  · rw [hrowParent]
    exact decide_eq_true_eq.mp (Bool.and_eq_true_iff.mp hisParent).2
  · rw [hrowParent, hsize]
    exact hgone.imp_right cancelFailure_eq_none_iff.mp
  · rw [hrowParent, hsize]
    rcases hcovered with ⟨-, hflat | ⟨side, quantity, hside, hfound, hlarge⟩⟩ |
      ⟨side, data, hside, -, hplaced, hcalls⟩
    · exact .inl hflat
    · right
      left
      obtain ⟨raw, hraw, hreadable, hforce, hquantity, hours⟩ := findExit_some hfound
      refine ⟨raw, hassessed.rows ▸ hraw, hreadable, hforce, ⟨quantity, hquantity, hlarge⟩, ?_⟩
      -- by its id, or by its side and symbol
      rcases hours with hanchored | hcandidate
      · simp only [KotakBrokerAdapter.isAnchoredExit, Bool.and_eq_true, decide_eq_true_eq]
          at hanchored
        exact ⟨hanchored.1.2, .inl hanchored.2⟩
      · simp only [KotakBrokerAdapter.isCandidate, Bool.and_eq_true, decide_eq_true_eq]
          at hcandidate
        obtain ⟨⟨⟨⟨⟨⟨⟨_, hother⟩, _⟩, _⟩, hsymbol⟩, hrawSide⟩, _⟩, _⟩ := hcandidate
        exact ⟨hother, .inr ⟨side, hside, hrawSide, hsymbol⟩⟩
    · have hcall := mem_placedOrders.mp (hcalls ▸ List.mem_singleton_self _)
      exact .inr (.inr ⟨_, data, side, hcall, hplaced, hside, rfl, rfl,
        toInt_ofInt_fill hbound.1 hbound.2⟩)

end Kotak

/-- **A flatten that reports ok rests on evidence**, on both adapters, for every book and every
answer. -/
theorem ok_rests_on_evidence (kite : Kite.KiteBrokerAdapter) (kotak : Kotak.KotakBrokerAdapter)
    (brokerOrderId : Bytes) (lower upper : Option Price) (answers : Answers) :
    ((kite.squareOffBanded brokerOrderId lower upper answers).result = .ok () →
        Kite.Evidence brokerOrderId answers
          (kite.squareOffBanded brokerOrderId lower upper answers).calls)
      ∧ ((kotak.squareOffBanded brokerOrderId lower upper answers).result = .ok () →
        Kotak.Evidence kotak brokerOrderId answers
          (kotak.squareOffBanded brokerOrderId lower upper answers).calls) :=
  ⟨Kite.evidence_of_ok, Kotak.evidence_of_ok⟩

/-! A complete order of 5 on either broker. -/

def newKite : Kite.KiteBrokerAdapter := ⟨none, fun _ => none, fun _ => none⟩

def newKotak : Kotak.KotakBrokerAdapter := ⟨fun _ => none, [], []⟩

def completeBook : List Json.Value :=
  [.object [(ascii "order_id", .string (ascii "1")), (ascii "nOrdNo", .string (ascii "1")),
    (ascii "transaction_type", .string (ascii "BUY")), (ascii "trnsTp", .string (ascii "B")),
    (ascii "status", .string (ascii "COMPLETE")), (ascii "quantity", .int 5),
    (ascii "qty", .int 5), (ascii "filled_quantity", .int 5), (ascii "fldQty", .int 5)]]

def acked (book : List Json.Value) : Answers := ⟨.ok (.array book), .ok .null, .ok .null⟩

theorem ok_rests_on_evidence_complete :
    Kite.Evidence (ascii "1") (acked completeBook)
        (newKite.squareOff (ascii "1") (acked completeBook)).calls
      ∧ Kotak.Evidence newKotak (ascii "1") (acked completeBook)
        (newKotak.squareOff (ascii "1") (acked completeBook)).calls :=
  ⟨(ok_rests_on_evidence newKite newKotak (ascii "1") none none _).1 (by decide +kernel),
    (ok_rests_on_evidence newKite newKotak (ascii "1") none none _).2 (by decide +kernel)⟩

/-! ## Not the number that is stated -/

namespace Kite

/-- An order on the opposite side of the same symbol, in force and of at least the size. -/
def OppositeOnBook (elements : List Json.Value) (parent : BrokerRow) (size : Int) : Prop :=
  ∃ raw ∈ bookRows elements, (exitSideFor parent.side).map kiteTransactionType = some raw.side
    ∧ raw.symbol = parent.symbol ∧ (mapStatus raw.status = .sent ∨ mapStatus raw.status = .filled)
    ∧ ∃ quantity ∈ raw.quantity, size ≤ quantity

instance (elements : List Json.Value) (parent : BrokerRow) (size : Int) :
    Decidable (OppositeOnBook elements parent size) := by
  unfold OppositeOnBook
  infer_instance

/-- The fill is stated and not negative, and it is covered as it is stated. -/
def StatedCover (elements : List Json.Value) (row : List (Bytes × Json.Value)) (answers : Answers)
    (calls : KiteCalls) : Prop :=
  ∃ filled, jsonInt row (ascii "filled_quantity") = .parsed filled ∧ 0 ≤ filled
    ∧ (filled = 0 ∨ OppositeOnBook elements (readBrokerRow row) filled
      ∨ ExitAcked (readBrokerRow row) answers calls filled)

/-- A stated fill that is not 0, and neither on the book nor among the places, is not covered. -/
theorem not_statedCover {elements : List Json.Value} {row : List (Bytes × Json.Value)}
    {answers : Answers} {calls : KiteCalls} (filled : Int)
    (hstated : jsonInt row (ascii "filled_quantity") = .parsed filled) (hne : filled ≠ 0)
    (hbook : 0 ≤ filled → ¬ OppositeOnBook elements (readBrokerRow row) filled)
    (hcalls : filled ∉ (placedOrders calls).map fun params => params.quantity.toInt) :
    ¬ StatedCover elements row answers calls := by
  rintro ⟨filled', hstated', hnonneg, hcover⟩
  obtain rfl : filled = filled' := Reading.parsed.inj (hstated.symm.trans hstated')
  rcases hcover with hzero | hopposite | ⟨params, data, side, hcall, -, -, -, -, hsize⟩
  · exact hne hzero
  · exact hbook hnonneg hopposite
  · exact hcalls (List.mem_map.mpr ⟨params, mem_placedOrders.mpr hcall, hsize⟩)

/-! A fill above the total, a negative one, and an exit that buys like its parent. -/

def bought (status : String) (filled : Int) : List (Bytes × Json.Value) :=
  [(ascii "order_id", .string (ascii "1")), (ascii "transaction_type", .string (ascii "BUY")),
    (ascii "status", .string (ascii status)), (ascii "quantity", .int 5),
    (ascii "filled_quantity", .int filled)]

def boughtExit : List (Bytes × Json.Value) :=
  [(ascii "order_id", .string (ascii "2")), (ascii "transaction_type", .string (ascii "BUY")),
    (ascii "status", .string (ascii "OPEN")), (ascii "quantity", .int 5),
    (ascii "tag", .string (exitTagFor (ascii "1")))]

def flattened (book : List Json.Value) : KiteFlattened := newKite.squareOff (ascii "1") (acked book)

def overfilled : List Json.Value := [.object (bought "COMPLETE" 7)]

def negative : List Json.Value := [.object (bought "OPEN" (-1))]

def sameSide : List Json.Value := [.object (bought "COMPLETE" 5), .object boughtExit]

theorem stated_fill_not_flattened :
    ((flattened overfilled).result = .ok ()
        ∧ ¬ StatedCover overfilled (bought "COMPLETE" 7) (acked overfilled)
          (flattened overfilled).calls)
      ∧ ((flattened negative).result = .ok ()
        ∧ ¬ StatedCover negative (bought "OPEN" (-1)) (acked negative) (flattened negative).calls)
      ∧ (flattened sameSide).result = .ok ()
      ∧ ¬ StatedCover sameSide (bought "COMPLETE" 5) (acked sameSide)
        (flattened sameSide).calls := by
  refine ⟨⟨by decide +kernel, not_statedCover 7 ?_ ?_ ?_ ?_⟩,
    ⟨by decide +kernel, not_statedCover (-1) ?_ ?_ ?_ ?_⟩,
    by decide +kernel, not_statedCover 5 ?_ ?_ ?_ ?_⟩
  all_goals decide +kernel

end Kite

end BrokerExec.Adapters

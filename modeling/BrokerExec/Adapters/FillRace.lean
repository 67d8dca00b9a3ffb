import BrokerExec.Adapters.Evidence
import BrokerExec.Lib.Run

/-!
# Fills that race a flatten

The exit is sized by a book that was read before the cancel. The order may fill any part of its
remainder in between.

* **`race_covered_iff`** — for every race of a flatten with the fills of a working order, an ok
  covers the fill at the cancel exactly when nothing filled since the book, or the exits on the
  book cover it already, or the flatten refuses;
* **`raced_exit_short`** — a fill in between stays open.
-/

namespace BrokerExec.Adapters

open BrokerExec.Domain (Price Side)

/-! ## The order at the exchange -/

/-- A working order: what has filled, of which total. -/
structure Desk where
  total : Int
  filled : Int

/-- The exchange fills up to `n` of the remainder. -/
def Desk.fill (desk : Desk) (n : Nat) : Desk :=
  { desk with filled := desk.filled + min (n : Int) (desk.total - desk.filled) }

/-- The order when the cancel takes effect, behind the fills since the book was read. -/
def Desk.atCancel (desk : Desk) (fills : List Nat) : Desk := run Desk.fill desk fills

/-- Fills only grow, up to the total. -/
theorem atCancel_filled {desk : Desk} (h : desk.filled ≤ desk.total) (fills : List Nat) :
    desk.filled ≤ (desk.atCancel fills).filled
      ∧ (desk.atCancel fills).filled ≤ (desk.atCancel fills).total := by
  refine run_keeps (P := fun _ _ => True)
    (I := fun d : Desk => desk.filled ≤ d.filled ∧ d.filled ≤ d.total) (fun d n hd _ => ?_)
    ⟨le_rfl, h⟩ fun _ _ _ _ => trivial
  simp only [Desk.fill]
  omega

/-- The answer of the cancel is true: an ack when something was left to cancel, no such order when
nothing was, or any other failure. -/
def CancelTruthful (desk : Desk) : Result Json.Value → Prop
  | .ok _ => desk.filled < desk.total
  | .error error => error.category = .orderNotFound → desk.filled = desk.total

/-- There is a true answer that lets the flatten go on. -/
theorem cancelTruthful_passes {desk : Desk} (h : desk.filled ≤ desk.total) :
    ∃ cancelled, CancelTruthful desk cancelled ∧ cancelFailure cancelled = none := by
  by_cases hleft : desk.filled < desk.total
  · exact ⟨.ok .null, hleft, rfl⟩
  · refine ⟨.error (Errors.makeError .orderNotFound []), fun _ => by omega, ?_⟩
    exact cancelFailure_eq_none_iff.mpr (.inr ⟨_, rfl, rfl⟩)

/-- What the accepted places add up to. -/
def acceptedSize {γ π : Type} (size : π → Int64) (calls : List (RestCall γ π)) :
    Result Json.Value → Int
  | .ok _ => ((placedOrders calls).map fun params => (size params).toInt).sum
  | .error _ => 0

section

variable {γ π : Type} {size : π → Int64} {calls : List (RestCall γ π)}

theorem acceptedSize_of_none (h : placedOrders calls = []) (placed : Result Json.Value) :
    acceptedSize size calls placed = 0 := by
  unfold acceptedSize
  rw [h]
  cases placed <;> rfl

theorem acceptedSize_of_one {params : π} (h : placedOrders calls = [params]) (data : Json.Value) :
    acceptedSize size calls (.ok data) = (size params).toInt := by
  simp only [acceptedSize, h, List.map_cons, List.map_nil, List.sum_cons, List.sum_nil, add_zero]

end

/-- **What covers the race.** Over the answers `κ` of the cancel and `π` of the place: an ok is
never on a book that is refused, some answers reach one on any other, and it adds the fill that was
shown exactly where the book has no exit. -/
theorem covers_iff {κ π : Type} {truthful : κ → Prop} {ok : κ → π → Prop} {added : κ → π → Int}
    {filled shown force : Int} {refuses unexited : Prop} (hshown : 0 ≤ shown)
    (hrefuses : ∀ c p, ok c p → ¬ refuses) (hgoes : ¬ refuses → ∃ c p, truthful c ∧ ok c p)
    (hadded : ∀ c p, ok c p →
      added c p = 0 ∧ (shown = 0 ∨ ¬ unexited) ∨ added c p = shown ∧ unexited) :
    (∀ c p, truthful c → ok c p → filled ≤ force + added c p)
      ↔ refuses ∨ filled ≤ force ∨ unexited ∧ filled ≤ force + shown := by
  constructor
  · intro hcovered
    refine or_iff_not_imp_left.mpr fun hnot => ?_
    obtain ⟨c, p, htruthful, hok⟩ := hgoes hnot
    have hsum := hcovered c p htruthful hok
    rcases hadded c p hok with ⟨hnothing, -⟩ | ⟨hsize, hunexited⟩
    · left
      omega
    · right
      exact ⟨hunexited, hsize ▸ hsum⟩
  · intro hcondition c p _ hok
    rcases hcondition with hnot | hforce | ⟨hunexited, hgrown⟩
    · exact absurd hnot (hrefuses c p hok)
    · -- the exits in force cover the fill alone, and no ok takes from them
      rcases hadded c p hok with ⟨hnothing, -⟩ | ⟨hsize, -⟩
      · omega
      · omega
    · rcases hadded c p hok with ⟨hnothing, hflat | hexited⟩ | ⟨hsize, -⟩
      · -- no fill was shown, so nothing had to be added for it
        omega
      · exact absurd hunexited hexited
      · omega

/-! ## Kite -/

namespace Kite

/-- The exits of the order on the book, working or complete. -/
def exitsInForce (brokerOrderId : Bytes) (elements : List Json.Value) : Int :=
  (((bookRows elements).filter fun raw => raw.isExit brokerOrderId
      && (mapStatus raw.status = .sent || mapStatus raw.status = .filled)).map
    fun raw => raw.quantity.getD 0).sum

/-- The book shows the order as it is. -/
structure Shows (brokerOrderId : Bytes) (elements : List Json.Value) (desk : Desk) : Prop where
  working : 0 ≤ desk.filled ∧ desk.filled < desk.total
  shown : ∀ row ∈ objectRows elements, jsonStr row (ascii "order_id") = brokerOrderId →
    jsonInt row (ascii "quantity") = .parsed desk.total
      ∧ jsonInt row (ascii "filled_quantity") = .parsed desk.filled
      ∧ mapStatus (jsonStr row (ascii "status")) = .sent

/-- The flatten reports no ok on this book, whatever is answered: the book is refused, or the exit
on it does not cover the fill. -/
def Refuses (st : KiteBrokerAdapter) (brokerOrderId : Bytes) (elements : List Json.Value)
    (desk : Desk) : Prop :=
  brokerOrderId = [] ∨ (∃ error, st.assess brokerOrderId (.array elements) = .error error)
    ∨ 0 < desk.filled ∧ ∃ exit, (scanBook brokerOrderId (bookRows elements)).2 = some exit
      ∧ judgeExit exit desk.filled ≠ .ok ()

/-- An ok covers the fill at the cancel, whatever is answered. -/
def RaceCovered (st : KiteBrokerAdapter) (brokerOrderId : Bytes) (lower upper : Option Price)
    (elements : List Json.Value) (desk : Desk) (fills : List Nat) : Prop :=
  ∀ cancelled placed, CancelTruthful (desk.atCancel fills) cancelled →
    (st.squareOffBanded brokerOrderId lower upper ⟨.ok (.array elements), cancelled, placed⟩).result
        = .ok () →
      (desk.atCancel fills).filled ≤ exitsInForce brokerOrderId elements
        + acceptedSize (·.quantity) (st.squareOffBanded brokerOrderId lower upper
          ⟨.ok (.array elements), cancelled, placed⟩).calls placed

variable {st : KiteBrokerAdapter} {brokerOrderId : Bytes} {lower upper : Option Price}
  {elements : List Json.Value} {desk : Desk} {seen : Assessment} {total : Int}

/-- A working order as it is assessed: measured by its fill, and not gone. -/
theorem Shows.measured (hshows : Shows brokerOrderId elements desk)
    (h : Assessed st brokerOrderId elements seen total) :
    seen.parent.filled = desk.filled ∧ seen.terminal = false := by
  obtain ⟨⟨hparent, hisParent⟩, -⟩ := h.rows
  obtain ⟨row, hrow, hrowParent⟩ := List.mem_map.mp hparent
  have hid : jsonStr row (ascii "order_id") = brokerOrderId := by
    rw [BrokerRow.isParent, Bool.and_eq_true, ← hrowParent] at hisParent
    exact decide_eq_true_eq.mp hisParent.2
  obtain ⟨htotal, hfilled, hstatus⟩ := hshows.shown row hrow hid
  obtain ⟨hnonneg, hpartial⟩ := hshows.working
  have htotalNonneg : 0 ≤ desk.total := by omega
  have hread : (readBrokerRow row).quantity = some desk.total
      ∧ (readBrokerRow row).filled = desk.filled := by
    rw [readBrokerRow, htotal, hfilled, readTotal_parsed htotalNonneg]
    refine ⟨rfl, ?_⟩
    show clampFill (some desk.total) desk.filled = desk.filled
    exact clampFill_of_within hnonneg fun t ht _ => Option.some.inj ht ▸ hpartial.le
  have hclamp : seen.parent.filled = desk.filled := hrowParent ▸ hread.2
  have htotalEq : total = desk.total :=
    Option.some.inj (h.quantity.symm.trans (hrowParent ▸ hread.1))
  have hsent : mapStatus seen.parent.status = .sent := by
    rw [← hrowParent]
    exact hstatus
  refine ⟨hclamp, ?_⟩
  rw [h.measures.2.1, decide_eq_false_iff_not, Gone, hsent, hclamp, htotalEq]
  simp only [reduceCtorEq, false_or, not_and, not_le]
  exact fun _ => hpartial

/-- Without the exit's tag on the book nothing of it is in force. -/
theorem exitsInForce_of_none (h : (scanBook brokerOrderId (bookRows elements)).2 = none) :
    exitsInForce brokerOrderId elements = 0 := by
  rw [scanBook_eq, List.getLast?_eq_none_iff] at h
  have hempty : (bookRows elements).filter (fun raw => raw.isExit brokerOrderId
      && (mapStatus raw.status = .sent || mapStatus raw.status = .filled)) = [] := by
    refine List.filter_eq_nil_iff.mpr fun raw hraw hboth => ?_
    exact List.filter_eq_nil_iff.mp h raw hraw (Bool.and_eq_true_iff.mp hboth).1
  rw [exitsInForce, hempty]
  rfl

/-- The place of an exit adds its size. -/
theorem exitParams_quantity {parent : BrokerRow} (hparent : parent ∈ bookRows elements)
    (side : Side) (exchange : Bytes) :
    (st.exitParams brokerOrderId parent parent.filled side exchange lower upper).quantity.toInt
      = parent.filled := by
  obtain ⟨hnonneg, hbound⟩ := bookRows_filled_bound hparent
  unfold KiteBrokerAdapter.exitParams
  dsimp only
  split_ifs
  all_goals exact toInt_ofInt_fill hnonneg hbound

/-- An ok is not on a book that is refused. -/
theorem not_refuses_of_ok (hshows : Shows brokerOrderId elements desk)
    {cancelled placed : Result Json.Value}
    (hok : (st.squareOffBanded brokerOrderId lower upper
      ⟨.ok (.array elements), cancelled, placed⟩).result = .ok ()) :
    ¬ Refuses st brokerOrderId elements desk := by
  obtain ⟨elements', seen, total, hread, hassessed, -, hcovered⟩ := ok_of_squareOffBanded hok
  cases hread
  have hfilled := (hshows.measured hassessed).1
  have hscanned : (scanBook brokerOrderId (bookRows elements)).2 = seen.existingExit :=
    congrArg Prod.snd hassessed.scanned
  -- no id, a refused book, or an exit on it that does not cover
  rintro (hempty | ⟨error, herror⟩ | ⟨hpositive, exit, hexit, hdead⟩)
  · rw [hempty, KiteBrokerAdapter.squareOffBanded, flatten, if_pos rfl] at hok
    cases hok
  · have hassess : st.assess brokerOrderId (.array elements) = .ok seen :=
      assess_ok_iff.mpr ⟨elements, total, rfl, hassessed⟩
    rw [hassess] at herror
    cases herror
  · rw [hscanned] at hexit
    rcases hcovered with ⟨-, hzero | ⟨exit', hexit', hjudge⟩⟩ | ⟨-, -, -, -, hnone, -⟩
    · omega
    · obtain rfl : exit = exit' := Option.some.inj (hexit.symm.trans hexit')
      exact hdead (hfilled ▸ hjudge)
    · rw [hnone] at hexit
      cases hexit

/-- What an ok has added to the exits on the book: nothing, or the fill that the book showed. -/
theorem acceptedSize_of_ok (hshows : Shows brokerOrderId elements desk)
    {cancelled placed : Result Json.Value}
    (hok : (st.squareOffBanded brokerOrderId lower upper
      ⟨.ok (.array elements), cancelled, placed⟩).result = .ok ()) :
    acceptedSize (·.quantity) (st.squareOffBanded brokerOrderId lower upper
          ⟨.ok (.array elements), cancelled, placed⟩).calls placed = 0
        ∧ (desk.filled = 0 ∨ (scanBook brokerOrderId (bookRows elements)).2 ≠ none)
      ∨ acceptedSize (·.quantity) (st.squareOffBanded brokerOrderId lower upper
          ⟨.ok (.array elements), cancelled, placed⟩).calls placed = desk.filled
        ∧ (scanBook brokerOrderId (bookRows elements)).2 = none := by
  obtain ⟨elements', seen, total, hread, hassessed, -, hcovered⟩ := ok_of_squareOffBanded hok
  cases hread
  have hfilled := (hshows.measured hassessed).1
  have hscanned : (scanBook brokerOrderId (bookRows elements)).2 = seen.existingExit :=
    congrArg Prod.snd hassessed.scanned
  rw [hscanned]
  rcases hcovered with ⟨hcalls, hflat⟩ | ⟨side, exchange, data, -, hnone, hplaced, hcalls⟩
  · left
    refine ⟨acceptedSize_of_none hcalls placed, ?_⟩
    exact hflat.imp (hfilled ▸ ·) fun ⟨exit, hexit, _⟩ => by simp [hexit]
  · right
    refine ⟨?_, hnone⟩
    obtain rfl : placed = .ok data := hplaced
    rw [acceptedSize_of_one hcalls, exitParams_quantity hassessed.rows.1.1, hfilled]

/-- A book that is not refused goes through to an ok, on a true answer of the cancel. -/
theorem exists_ok (hshows : Shows brokerOrderId elements desk) {later : Desk}
    (hlater : later.filled ≤ later.total) (hgoes : ¬ Refuses st brokerOrderId elements desk) :
    ∃ cancelled placed, CancelTruthful later cancelled
      ∧ (st.squareOffBanded brokerOrderId lower upper
        ⟨.ok (.array elements), cancelled, placed⟩).result = .ok () := by
  obtain ⟨hnamed, haccepted, hjudged⟩ := by simpa only [Refuses, not_or] using hgoes
  obtain ⟨cancelled, htruthful, hpasses⟩ := cancelTruthful_passes hlater
  refine ⟨cancelled, .ok .null, htruthful, ?_⟩
  cases hassess : st.assess brokerOrderId (.array elements) with
  | error error => exact absurd ⟨error, hassess⟩ haccepted
  | ok seen =>
    obtain ⟨elements', total, helements, hassessed⟩ := assess_ok_iff.mp hassess
    cases helements
    have hfilled := (hshows.measured hassessed).1
    have hscanned := congrArg Prod.snd hassessed.scanned
    refine ok_squareOffBanded hnamed rfl hassessed hpasses rfl fun hpositive exit hexit => ?_
    by_contra hdead
    rw [hfilled] at hpositive hdead
    exact hjudged ⟨hpositive, exit, hscanned.trans hexit, hdead⟩

/-- **When an ok covers the race on Kite.** -/
theorem raceCovered_iff (hshows : Shows brokerOrderId elements desk) (fills : List Nat) :
    RaceCovered st brokerOrderId lower upper elements desk fills ↔
      Refuses st brokerOrderId elements desk
        ∨ (desk.atCancel fills).filled ≤ exitsInForce brokerOrderId elements
        ∨ (scanBook brokerOrderId (bookRows elements)).2 = none
          ∧ (desk.atCancel fills).filled = desk.filled := by
  obtain ⟨hgrown, hwithin⟩ := atCancel_filled hshows.working.2.le fills
  have hcovers : RaceCovered st brokerOrderId lower upper elements desk fills ↔
      Refuses st brokerOrderId elements desk
        ∨ (desk.atCancel fills).filled ≤ exitsInForce brokerOrderId elements
        ∨ (scanBook brokerOrderId (bookRows elements)).2 = none
          ∧ (desk.atCancel fills).filled ≤ exitsInForce brokerOrderId elements + desk.filled :=
    covers_iff hshows.working.1 (fun _ _ hok => not_refuses_of_ok hshows hok)
      (fun hgoes => exists_ok hshows hwithin hgoes) fun _ _ hok => acceptedSize_of_ok hshows hok
  refine hcovers.trans (or_congr_right (or_congr_right (and_congr_right fun hnone => ?_)))
  -- without the tag on the book nothing is in force: only the fill that was shown is covered
  rw [exitsInForce_of_none hnone]
  omega

end Kite

/-! ## Kotak -/

namespace Kotak

/-- The exits of the order on the book, working or complete; `exitIds` are the ids of the orders
that are its exits. -/
def exitsInForce (exitIds : List Bytes) (elements : List Json.Value) : Int :=
  (((bookRows elements).filter fun raw => decide (raw.orderId ∈ exitIds) && inForce raw).map
    fun raw => raw.quantity.getD 0).sum

/-- The book shows the order as it is. -/
structure Shows (brokerOrderId : Bytes) (elements : List Json.Value) (desk : Desk) : Prop where
  working : 0 ≤ desk.filled ∧ desk.filled < desk.total
  shown : ∀ row ∈ objectRows elements, (readOrderRow row).orderId = brokerOrderId →
    quantityOf row = .parsed desk.total ∧ fillOf row = .parsed desk.filled
      ∧ classifyKotakStatus (readOrderRow row).status = .working

/-- The flatten reports no ok on this book, whatever is answered: the book is refused, or there is
a fill whose side cannot be read or for which the ladder refuses or finds too small an exit. -/
def Refuses (st : KotakBrokerAdapter) (brokerOrderId : Bytes) (elements : List Json.Value)
    (desk : Desk) : Prop :=
  brokerOrderId = [] ∨ (∃ error, st.assess brokerOrderId (.array elements) = .error error)
    ∨ ∃ seen, st.assess brokerOrderId (.array elements) = .ok seen ∧ 0 < desk.filled
      ∧ ¬ ∃ exitSide found, exitSideFor seen.parent.side = some exitSide
        ∧ st.findExit brokerOrderId (st.exitRef brokerOrderId) exitSide seen = .ok found
        ∧ ∀ quantity, found = some quantity → desk.filled ≤ quantity

/-- The ladder finds no exit on the book. -/
def Unexited (st : KotakBrokerAdapter) (brokerOrderId : Bytes) (elements : List Json.Value) : Prop :=
  ∃ seen exitSide, st.assess brokerOrderId (.array elements) = .ok seen
    ∧ exitSideFor seen.parent.side = some exitSide
    ∧ st.findExit brokerOrderId (st.exitRef brokerOrderId) exitSide seen = .ok none

/-- An ok covers the fill at the cancel, whatever is answered. -/
def RaceCovered (st : KotakBrokerAdapter) (exitIds : List Bytes) (brokerOrderId : Bytes)
    (lower upper : Option Price) (elements : List Json.Value) (desk : Desk) (fills : List Nat) :
    Prop :=
  ∀ cancelled placed, CancelTruthful (desk.atCancel fills) cancelled →
    (st.squareOffBanded brokerOrderId lower upper ⟨.ok (.array elements), cancelled, placed⟩).result
        = .ok () →
      (desk.atCancel fills).filled ≤ exitsInForce exitIds elements
        + acceptedSize (·.qt) (st.squareOffBanded brokerOrderId lower upper
          ⟨.ok (.array elements), cancelled, placed⟩).calls placed

variable {st : KotakBrokerAdapter} {exitIds : List Bytes} {brokerOrderId : Bytes}
  {lower upper : Option Price} {elements : List Json.Value} {desk : Desk} {seen : Assessment}
  {total : Int}

/-- A working order as it is assessed: measured by its fill. -/
theorem Shows.measured (hshows : Shows brokerOrderId elements desk)
    (h : Assessed st brokerOrderId elements seen total) : seen.exitQty = desk.filled := by
  obtain ⟨row, hrow, hrowParent⟩ := List.mem_map.mp (List.mem_of_find?_eq_some h.found)
  have hisParent := List.find?_some h.found
  have hid : (readOrderRow row).orderId = brokerOrderId := by
    rw [hrowParent]
    exact decide_eq_true_eq.mp (Bool.and_eq_true_iff.mp hisParent).2
  obtain ⟨htotal, hfilled, -⟩ := hshows.shown row hrow hid
  obtain ⟨hnonneg, hpartial⟩ := hshows.working
  have hclamp : clampFill (readTotal (quantityOf row)) desk.filled = desk.filled := by
    rw [htotal, readTotal_parsed (by omega)]
    exact clampFill_of_within hnonneg fun t ht _ => Option.some.inj ht ▸ hpartial.le
  have hstated := h.filled
  rw [← hrowParent, readOrderRow, hfilled] at hstated
  exact (Option.some.inj hstated).symm.trans hclamp

/-- An ok is not on a book that is refused. -/
theorem not_refuses_of_ok (hshows : Shows brokerOrderId elements desk)
    {cancelled placed : Result Json.Value}
    (hok : (st.squareOffBanded brokerOrderId lower upper
      ⟨.ok (.array elements), cancelled, placed⟩).result = .ok ()) :
    ¬ Refuses st brokerOrderId elements desk := by
  obtain ⟨elements', seen, total, hread, hassessed, -, hcovered⟩ := ok_of_squareOffBanded hok
  cases hread
  have hfilled := hshows.measured hassessed
  have hassess : st.assess brokerOrderId (.array elements) = .ok seen :=
    assess_ok_iff.mpr ⟨elements, total, rfl, hassessed⟩
  -- no id, a refused book, or a fill that the ladder does not settle
  rintro (hempty | ⟨error, herror⟩ | ⟨seen', hseen', hpositive, hladder⟩)
  · rw [hempty, KotakBrokerAdapter.squareOffBanded, flatten, if_pos rfl] at hok
    cases hok
  · rw [hassess] at herror
    cases herror
  · obtain rfl : seen = seen' := Except.ok.inj (hassess.symm.trans hseen')
    refine hladder ?_
    rcases hcovered with ⟨-, hzero | ⟨side, quantity, hside, hfound, hsize⟩⟩ |
      ⟨side, data, hside, hfound, -, -⟩
    · omega
    · refine ⟨side, some quantity, hside, hfound, fun q hq => ?_⟩
      rw [← hfilled, ← Option.some.inj hq]
      exact hsize
    · refine ⟨side, none, hside, hfound, fun q hq => ?_⟩
      cases hq

/-- What an ok has added to the exits on the book: nothing, or the fill that the book showed. -/
theorem acceptedSize_of_ok (hshows : Shows brokerOrderId elements desk)
    {cancelled placed : Result Json.Value}
    (hok : (st.squareOffBanded brokerOrderId lower upper
      ⟨.ok (.array elements), cancelled, placed⟩).result = .ok ()) :
    acceptedSize (·.qt) (st.squareOffBanded brokerOrderId lower upper
          ⟨.ok (.array elements), cancelled, placed⟩).calls placed = 0
        ∧ (desk.filled = 0 ∨ ¬ Unexited st brokerOrderId elements)
      ∨ acceptedSize (·.qt) (st.squareOffBanded brokerOrderId lower upper
          ⟨.ok (.array elements), cancelled, placed⟩).calls placed = desk.filled
        ∧ Unexited st brokerOrderId elements := by
  obtain ⟨elements', seen, total, hread, hassessed, -, hcovered⟩ := ok_of_squareOffBanded hok
  cases hread
  have hfilled := hshows.measured hassessed
  have hassess : st.assess brokerOrderId (.array elements) = .ok seen :=
    assess_ok_iff.mpr ⟨elements, total, rfl, hassessed⟩
  rcases hcovered with ⟨hcalls, hflat⟩ | ⟨side, data, hside, hfound, hplaced, hcalls⟩
  · left
    refine ⟨acceptedSize_of_none hcalls placed, ?_⟩
    rcases hflat with hzero | ⟨side, quantity, hside, hfound, -⟩
    · exact .inl (hfilled ▸ hzero)
    · -- the ladder has one answer on this book, and it found an exit
      right
      rintro ⟨seen', side', hseen', hside', hfound'⟩
      obtain rfl : seen = seen' := Except.ok.inj (hassess.symm.trans hseen')
      obtain rfl : side = side' := Option.some.inj (hside.symm.trans hside')
      rw [hfound] at hfound'
      cases hfound'
  · right
    refine ⟨?_, seen, side, hassess, hside, hfound⟩
    obtain rfl : placed = .ok data := hplaced
    obtain ⟨hnonneg, hbound⟩ := hassessed.exitQty_bound
    rw [acceptedSize_of_one hcalls]
    exact (toInt_ofInt_fill hnonneg hbound).trans hfilled

/-- A book that is not refused goes through to an ok, on a true answer of the cancel. -/
theorem exists_ok (hshows : Shows brokerOrderId elements desk) {later : Desk}
    (hlater : later.filled ≤ later.total) (hgoes : ¬ Refuses st brokerOrderId elements desk) :
    ∃ cancelled placed, CancelTruthful later cancelled
      ∧ (st.squareOffBanded brokerOrderId lower upper
        ⟨.ok (.array elements), cancelled, placed⟩).result = .ok () := by
  obtain ⟨hnamed, haccepted, hladder⟩ := by simpa only [Refuses, not_or] using hgoes
  obtain ⟨cancelled, htruthful, hpasses⟩ := cancelTruthful_passes hlater
  refine ⟨cancelled, .ok .null, htruthful, ?_⟩
  cases hassess : st.assess brokerOrderId (.array elements) with
  | error error => exact absurd ⟨error, hassess⟩ haccepted
  | ok seen =>
    obtain ⟨elements', total, helements, hassessed⟩ := assess_ok_iff.mp hassess
    cases helements
    have hfilled := hshows.measured hassessed
    refine ok_squareOffBanded hnamed rfl hassessed hpasses rfl fun hpositive => ?_
    by_contra hdead
    rw [hfilled] at hpositive hdead
    exact hladder ⟨seen, hassess, hpositive, hdead⟩

/-- **When an ok covers the race on Kotak.** -/
theorem raceCovered_iff (hshows : Shows brokerOrderId elements desk) (fills : List Nat) :
    RaceCovered st exitIds brokerOrderId lower upper elements desk fills ↔
      Refuses st brokerOrderId elements desk
        ∨ (desk.atCancel fills).filled ≤ exitsInForce exitIds elements
        ∨ Unexited st brokerOrderId elements
          ∧ (desk.atCancel fills).filled - desk.filled ≤ exitsInForce exitIds elements := by
  obtain ⟨-, hwithin⟩ := atCancel_filled hshows.working.2.le fills
  have hcovers : RaceCovered st exitIds brokerOrderId lower upper elements desk fills ↔
      Refuses st brokerOrderId elements desk
        ∨ (desk.atCancel fills).filled ≤ exitsInForce exitIds elements
        ∨ Unexited st brokerOrderId elements
          ∧ (desk.atCancel fills).filled ≤ exitsInForce exitIds elements + desk.filled :=
    covers_iff hshows.working.1 (fun _ _ hok => not_refuses_of_ok hshows hok)
      (fun hgoes => exists_ok hshows hwithin hgoes) fun _ _ hok => acceptedSize_of_ok hshows hok
  -- an exit that the ladder passed over may still be in force, and covers what grew
  exact hcovers.trans (or_congr_right (or_congr_right (and_congr_right fun _ =>
    sub_le_iff_le_add.symm)))

end Kotak

/-! ## Both -/

/-- **When an ok covers the fill at the cancel**, on both adapters: the flatten refuses the book, or
the exits on it cover that fill, or none is found and nothing more has filled since than the exits
in force cover (of which Kite then has none). -/
theorem race_covered_iff (kite : Kite.KiteBrokerAdapter) (kotak : Kotak.KotakBrokerAdapter)
    (exitIds : List Bytes) (brokerOrderId : Bytes) (lower upper : Option Price)
    (elements : List Json.Value) (desk : Desk) (fills : List Nat) :
    (Kite.Shows brokerOrderId elements desk →
        (Kite.RaceCovered kite brokerOrderId lower upper elements desk fills ↔
          Kite.Refuses kite brokerOrderId elements desk
            ∨ (desk.atCancel fills).filled ≤ Kite.exitsInForce brokerOrderId elements
            ∨ (Kite.scanBook brokerOrderId (Kite.bookRows elements)).2 = none
              ∧ (desk.atCancel fills).filled = desk.filled))
      ∧ (Kotak.Shows brokerOrderId elements desk →
        (Kotak.RaceCovered kotak exitIds brokerOrderId lower upper elements desk fills ↔
          Kotak.Refuses kotak brokerOrderId elements desk
            ∨ (desk.atCancel fills).filled ≤ Kotak.exitsInForce exitIds elements
            ∨ Kotak.Unexited kotak brokerOrderId elements
              ∧ (desk.atCancel fills).filled - desk.filled
                ≤ Kotak.exitsInForce exitIds elements)) :=
  ⟨fun h => Kite.raceCovered_iff h fills, fun h => Kotak.raceCovered_iff h fills⟩

/-! An order of 10 with 3 filled, of which the rest fills behind the book. -/

def workingBook : List Json.Value :=
  [.object [(ascii "order_id", .string (ascii "1")), (ascii "nOrdNo", .string (ascii "1")),
    (ascii "transaction_type", .string (ascii "BUY")), (ascii "trnsTp", .string (ascii "B")),
    (ascii "status", .string (ascii "OPEN")), (ascii "quantity", .int 10),
    (ascii "qty", .int 10), (ascii "filled_quantity", .int 3), (ascii "fldQty", .int 3)]]

def workingDesk : Desk := ⟨10, 3⟩

theorem workingBook_shows : Kite.Shows (ascii "1") workingBook workingDesk
    ∧ Kotak.Shows (ascii "1") workingBook workingDesk := by
  refine ⟨⟨by decide, ?_⟩, ⟨by decide, ?_⟩⟩
  all_goals
    intro row hrow
    obtain rfl := List.mem_singleton.mp hrow
    decide +kernel

/-- The cancel finds no order any more. -/
def orderGone : Result Json.Value := .error (Errors.makeError .orderNotFound [])

theorem raced_exit_short :
    (Kite.Shows (ascii "1") workingBook workingDesk
        ∧ ¬ Kite.RaceCovered newKite (ascii "1") none none workingBook workingDesk [7])
      ∧ Kotak.Shows (ascii "1") workingBook workingDesk
      ∧ ¬ Kotak.RaceCovered newKotak [] (ascii "1") none none workingBook workingDesk [7] := by
  refine ⟨⟨workingBook_shows.1, fun hcovered => ?_⟩, workingBook_shows.2, fun hcovered => ?_⟩
  · have hshort := hcovered orderGone (.ok .null) (fun _ => by decide) (by decide +kernel)
    exact absurd hshort (by decide +kernel)
  · have hshort := hcovered orderGone (.ok .null) (fun _ => by decide) (by decide +kernel)
    exact absurd hshort (by decide +kernel)

theorem race_covered_iff_working :
    (Kite.RaceCovered newKite (ascii "1") none none workingBook workingDesk [7] ↔
        Kite.Refuses newKite (ascii "1") workingBook workingDesk
          ∨ (workingDesk.atCancel [7]).filled ≤ Kite.exitsInForce (ascii "1") workingBook
          ∨ (Kite.scanBook (ascii "1") (Kite.bookRows workingBook)).2 = none
            ∧ (workingDesk.atCancel [7]).filled = workingDesk.filled)
      ∧ (Kotak.RaceCovered newKotak [] (ascii "1") none none workingBook workingDesk [7] ↔
        Kotak.Refuses newKotak (ascii "1") workingBook workingDesk
          ∨ (workingDesk.atCancel [7]).filled ≤ Kotak.exitsInForce [] workingBook
          ∨ Kotak.Unexited newKotak (ascii "1") workingBook
            ∧ (workingDesk.atCancel [7]).filled - workingDesk.filled
              ≤ Kotak.exitsInForce [] workingBook) :=
  (race_covered_iff newKite newKotak [] (ascii "1") none none workingBook workingDesk [7]).imp
    (· workingBook_shows.1) (· workingBook_shows.2)

end BrokerExec.Adapters

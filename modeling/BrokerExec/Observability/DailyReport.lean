import BrokerExec.Observability.AuditEvent
import BrokerExec.Domain.DecimalPaise
import BrokerExec.Domain.Redaction
import BrokerExec.Lib.Checked
import BrokerExec.Lib.Tally
import Mathlib.Algebra.Order.BigOperators.Group.List

/-!
# The daily report (`observability/reports.cpp`)

One pass over the events of a day counts the orders and adds up the profit. A figure that cannot be
added exactly is dropped, and counted as dropped.

* **`daily_pnl`** — the total and the counter account for every figure.
* **`daily_strategies`** — the rows that are shown count the orders of the names they are shown for.
-/

namespace BrokerExec.Observability

open BrokerExec.Json (Value dumpValue)
open BrokerExec.Domain (kInt64Max scrubProvenanceColumn)

/-! ## Exact sums -/

def kInt64Min : Int := -2 ^ 63

/-- `pnl_paise`. Below 64 bits there is no integer of a JSON value, above there are the unsigned. -/
def pnlPaise : Value → Option Int
  | .int i => if FitsInt64 i then some i else none
  | _ => none

/-- `checked_add`: it looks at the operands, never at a sum that has wrapped. -/
def checkedAdd (total addend : Int) : Option Int :=
  if 0 < addend ∧ kInt64Max - addend < total then none
  else if addend < 0 ∧ total < kInt64Min - addend then none
  else some (total + addend)

theorem checkedAdd_eq {total : Int} (htotal : FitsInt64 total) (addend : Int) :
    checkedAdd total addend = if FitsInt64 (total + addend) then some (total + addend) else none := by
  have hrefused : (0 < addend ∧ kInt64Max - addend < total)
        ∨ (addend < 0 ∧ total < kInt64Min - addend) ↔ ¬ FitsInt64 (total + addend) := by
    unfold kInt64Max kInt64Min
    unfold FitsInt64 at htotal ⊢
    omega
  unfold checkedAdd
  by_cases hfits : FitsInt64 (total + addend)
  · obtain ⟨hmax, hmin⟩ := not_or.mp fun h => hrefused.mp h hfits
    rw [if_neg hmax, if_neg hmin, if_pos hfits]
  · rw [if_neg hfits]
    rcases hrefused.mpr hfits with hmax | hmin
    · rw [if_pos hmax]
    · rw [if_pos hmin]
      split_ifs <;> rfl

/-! ## The report -/

structure DailyReport where
  ordersPlaced : Nat
  filled : Nat
  rejected : Nat
  cancelled : Nat
  unknown : Nat
  realizedPnlPaise : Int
  pnlValuesIgnored : Nat
  ordersPerStrategy : Tally Bytes

def DailyReport.init : DailyReport := ⟨0, 0, 0, 0, 0, 0, 0, .empty⟩

/-- The switch on the type. Placed orders are grouped under the name as it came. -/
def DailyReport.count (report : DailyReport) (ev : AuditEvent) : DailyReport :=
  match ev.type with
  | .orderPlaced =>
    { report with
      ordersPlaced := report.ordersPlaced + 1
      ordersPerStrategy :=
        if ev.strategy = [] then report.ordersPerStrategy
        else report.ordersPerStrategy.add (ev.strategy, 1) }
  | .orderFilled => { report with filled := report.filled + 1 }
  | .orderRejected => { report with rejected := report.rejected + 1 }
  | .orderCancelled => { report with cancelled := report.cancelled + 1 }
  | .orderUnknown => { report with unknown := report.unknown + 1 }
  | _ => report

/-- The figure that an event carries; a null is none. -/
def AuditEvent.figure (ev : AuditEvent) : Option Value :=
  match ev.fields with
  | .object members =>
    match members.lookup (ascii "pnl") with
    | some .null => none
    | found => found
  | _ => none

def DailyReport.addFigure (report : DailyReport) (figure : Value) : DailyReport :=
  match (pnlPaise figure).bind (checkedAdd report.realizedPnlPaise) with
  | some total => { report with realizedPnlPaise := total }
  | none => { report with pnlValuesIgnored := report.pnlValuesIgnored + 1 }

def DailyReport.note (report : DailyReport) (ev : AuditEvent) : DailyReport :=
  match ev.figure with
  | some figure => (report.count ev).addFigure figure
  | none => report.count ev

def daily (events : List AuditEvent) : DailyReport := events.foldl DailyReport.note .init

/-- The names are scrubbed where they are shown; the counts of names that look alike then are added
up. -/
def DailyReport.perStrategy (report : DailyReport) : Tally Bytes :=
  Tally.addAll .empty
    (report.ordersPerStrategy.rows.map fun row => (scrubProvenanceColumn row.1, row.2))

def DailyReport.toJson (report : DailyReport) : Bytes :=
  dumpValue (.object
    [(ascii "cancelled", .int report.cancelled), (ascii "filled", .int report.filled),
      (ascii "orders_per_strategy",
        .object (report.perStrategy.rows.map fun row => (row.1, .int row.2))),
      (ascii "orders_placed", .int report.ordersPlaced),
      (ascii "pnl_values_ignored", .int report.pnlValuesIgnored),
      (ascii "realized_pnl_paise", .int report.realizedPnlPaise),
      (ascii "rejected", .int report.rejected), (ascii "unknown", .int report.unknown)])

/-! ## The total -/

def figures (events : List AuditEvent) : List Value := events.filterMap AuditEvent.figure

@[simp] theorem count_realizedPnlPaise (report : DailyReport) (ev : AuditEvent) :
    (report.count ev).realizedPnlPaise = report.realizedPnlPaise := by
  unfold DailyReport.count
  split <;> rfl

@[simp] theorem count_pnlValuesIgnored (report : DailyReport) (ev : AuditEvent) :
    (report.count ev).pnlValuesIgnored = report.pnlValuesIgnored := by
  unfold DailyReport.count
  split <;> rfl

/-- What a report says of the figures it has met. -/
structure Accounts (met : List Value) (report : DailyReport) : Prop where
  fits : FitsInt64 report.realizedPnlPaise
  kept : ∃ kept : List Int, (kept.map Value.int).Sublist met ∧ report.realizedPnlPaise = kept.sum
    ∧ report.pnlValuesIgnored + kept.length = met.length
  exact : report.pnlValuesIgnored = 0 ↔ ∃ amounts : List Int, met = amounts.map Value.int
    ∧ (∀ amount ∈ amounts, FitsInt64 amount) ∧ ∀ front, front <+: amounts → FitsInt64 front.sum

/-- Only the total and the counter are said of. -/
theorem Accounts.congr {met : List Value} {report report' : DailyReport} (h : Accounts met report)
    (htotal : report'.realizedPnlPaise = report.realizedPnlPaise)
    (hignored : report'.pnlValuesIgnored = report.pnlValuesIgnored) : Accounts met report' := by
  constructor
  · rw [htotal]
    exact h.fits
  · rw [htotal, hignored]
    exact h.kept
  · rw [hignored]
    exact h.exact

/-- A list of amounts, up to its last one. -/
theorem amounts_of_concat {met : List Value} {figure : Value} {amounts : List Int}
    (h : met ++ [figure] = amounts.map Value.int) :
    ∃ before last, amounts = before ++ [last] ∧ met = before.map Value.int ∧ figure = .int last := by
  rcases List.eq_nil_or_concat amounts with rfl | ⟨before, last, rfl⟩
  · simp at h
  · rw [List.concat_eq_append, List.map_append] at h
    obtain ⟨hmet, hfigure⟩ := List.append_inj' h rfl
    exact ⟨before, last, List.concat_eq_append, hmet, (List.cons.inj hfigure).1⟩

/-- Where nothing was dropped, the total is the sum of all there was. -/
theorem Accounts.total {amounts : List Int} {report : DailyReport}
    (h : Accounts (amounts.map Value.int) report) (hnone : report.pnlValuesIgnored = 0) :
    report.realizedPnlPaise = amounts.sum := by
  obtain ⟨kept, hsublist, htotal, hcount⟩ := h.kept
  have hlength : kept.length = amounts.length := by simpa [hnone] using hcount
  have hsame : kept.map Value.int = amounts.map Value.int :=
    hsublist.eq_of_length (by simp [hlength])
  have hall : kept = amounts :=
    List.map_injective_iff.mpr (fun _ _ hint => Value.int.inj hint) hsame
  rw [htotal, hall]

/-- A figure that is added. -/
theorem Accounts.added {met : List Value} {report : DailyReport} (h : Accounts met report)
    {amount : Int} (hamount : FitsInt64 amount)
    (hsum : FitsInt64 (report.realizedPnlPaise + amount)) :
    Accounts (met ++ [.int amount])
      { report with realizedPnlPaise := report.realizedPnlPaise + amount } := by
  obtain ⟨kept, hsublist, htotal, hcount⟩ := h.kept
  refine ⟨hsum, ⟨kept ++ [amount], ?_, ?_, ?_⟩, ?_⟩
  · rw [List.map_append]
    exact hsublist.append (List.Sublist.refl _)
  · show report.realizedPnlPaise + amount = _
    simp [htotal]
  · show report.pnlValuesIgnored + _ = _
    simp only [List.length_append, List.length_singleton]
    omega
  · show report.pnlValuesIgnored = 0 ↔ _
    constructor
    · intro hnone
      obtain ⟨amounts, rfl, hfits, hfronts⟩ := h.exact.mp hnone
      refine ⟨amounts ++ [amount], by simp, ?_, ?_⟩
      · intro other hother
        rcases List.mem_append.mp hother with hold | hnew
        · exact hfits other hold
        · rw [List.mem_singleton.mp hnew]
          exact hamount
      · intro front hfront
        -- the one front that is new is the whole list
        rcases List.prefix_concat_iff.mp hfront with rfl | hold
        · rw [h.total hnone] at hsum
          simpa using hsum
        · exact hfronts front hold
    · rintro ⟨amounts, hmet, hfits, hfronts⟩
      obtain ⟨before, last, rfl, hbefore, -⟩ := amounts_of_concat hmet
      exact h.exact.mpr ⟨before, hbefore, fun other hother => hfits other (by simp [hother]),
        fun front hfront => hfronts front (hfront.trans (List.prefix_append _ _))⟩

/-- A figure that is dropped. -/
theorem Accounts.dropped {met : List Value} {report : DailyReport} (h : Accounts met report)
    {figure : Value}
    (hfigure : ∀ amount, figure = .int amount → FitsInt64 amount →
      ¬ FitsInt64 (report.realizedPnlPaise + amount)) :
    Accounts (met ++ [figure])
      { report with pnlValuesIgnored := report.pnlValuesIgnored + 1 } := by
  obtain ⟨kept, hsublist, htotal, hcount⟩ := h.kept
  refine ⟨h.fits, ⟨kept, hsublist.trans (List.sublist_append_left _ _), htotal, ?_⟩, ?_⟩
  · show report.pnlValuesIgnored + 1 + _ = _
    simp only [List.length_append, List.length_singleton]
    omega
  · show report.pnlValuesIgnored + 1 = 0 ↔ _
    refine ⟨fun hzero => absurd hzero (Nat.succ_ne_zero _), ?_⟩
    rintro ⟨amounts, hmet, hfits, hfronts⟩
    exfalso
    obtain ⟨before, last, rfl, rfl, hlast⟩ := amounts_of_concat hmet
    -- all before it was added, so the total in front of it is the sum of all before
    have hnone : report.pnlValuesIgnored = 0 :=
      h.exact.mpr ⟨before, rfl, fun other hother => hfits other (by simp [hother]),
        fun front hfront => hfronts front (hfront.trans (List.prefix_append _ _))⟩
    refine hfigure last hlast (hfits last (by simp)) ?_
    have hwhole := hfronts (before ++ [last]) (List.prefix_refl _)
    rw [h.total hnone]
    simpa using hwhole

theorem Accounts.addFigure {met : List Value} {report : DailyReport} (h : Accounts met report)
    (figure : Value) : Accounts (met ++ [figure]) (report.addFigure figure) := by
  unfold DailyReport.addFigure
  cases hpaise : pnlPaise figure with
  | none =>
    refine h.dropped fun amount hfigure hfits => ?_
    rw [hfigure, pnlPaise, if_pos hfits] at hpaise
    cases hpaise
  | some amount =>
    obtain ⟨rfl, hamount⟩ : figure = .int amount ∧ FitsInt64 amount := by
      cases figure with
      | int i =>
        rw [pnlPaise] at hpaise
        split_ifs at hpaise with hi
        cases hpaise
        exact ⟨rfl, hi⟩
      | _ => cases hpaise
    rw [Option.bind_some, checkedAdd_eq h.fits]
    by_cases hsum : FitsInt64 (report.realizedPnlPaise + amount)
    · rw [if_pos hsum]
      exact h.added hamount hsum
    · rw [if_neg hsum]
      refine h.dropped fun other hother _ => ?_
      rw [← Value.int.inj hother]
      exact hsum

theorem Accounts.note {met : List Value} {report : DailyReport} (h : Accounts met report)
    (ev : AuditEvent) : Accounts (met ++ figures [ev]) (report.note ev) := by
  have hcount : Accounts met (report.count ev) :=
    h.congr (count_realizedPnlPaise report ev) (count_pnlValuesIgnored report ev)
  unfold DailyReport.note figures
  cases hfigure : ev.figure with
  | none => simpa [hfigure] using hcount
  | some figure => simpa [hfigure] using hcount.addFigure figure

theorem accounts_foldl {met : List Value} {report : DailyReport} (h : Accounts met report)
    (events : List AuditEvent) :
    Accounts (met ++ figures events) (events.foldl DailyReport.note report) := by
  induction events generalizing met report with
  | nil => simpa [figures] using h
  | cons ev events ih =>
    have hstep := ih (h.note ev)
    rw [List.append_assoc] at hstep
    have hfigures : figures (ev :: events) = figures [ev] ++ figures events := by
      show (([ev] ++ events).filterMap _) = _
      rw [List.filterMap_append]
      rfl
    rw [hfigures]
    exact hstep

theorem accounts_init : Accounts [] .init := by
  refine ⟨by decide, ⟨[], by simp, rfl, rfl⟩, fun _ => ⟨[], rfl, by simp, ?_⟩, fun _ => rfl⟩
  intro front hfront
  rw [List.prefix_nil.mp hfront]
  decide

/-- **The total never lies about a figure**: it is the exact sum of figures of the day, the counter
says how many are missing from it, and none is missing exactly where all are integers of 64 bits
whose sum never left them. -/
theorem daily_pnl (events : List AuditEvent) : Accounts (figures events) (daily events) :=
  accounts_foldl accounts_init events

/-! ## The strategies -/

/-- The order was placed for a strategy that has a name. -/
def AuditEvent.placedFor (ev : AuditEvent) : Option Bytes :=
  if ev.type = .orderPlaced ∧ ev.strategy ≠ [] then some ev.strategy else none

theorem count_ordersPerStrategy (report : DailyReport) (ev : AuditEvent) :
    (report.count ev).ordersPerStrategy
      = Tally.addAll report.ordersPerStrategy (ev.placedFor.toList.map fun name => (name, 1)) := by
  unfold DailyReport.count AuditEvent.placedFor
  cases htype : ev.type with
  | orderPlaced =>
    by_cases hname : ev.strategy = []
    · simp [hname, Tally.addAll]
    · simp [hname, Tally.addAll]
  | _ => simp [Tally.addAll]

theorem note_ordersPerStrategy (report : DailyReport) (ev : AuditEvent) :
    (report.note ev).ordersPerStrategy
      = Tally.addAll report.ordersPerStrategy (ev.placedFor.toList.map fun name => (name, 1)) := by
  have hfigure : ∀ (report : DailyReport) (figure : Value),
      (report.addFigure figure).ordersPerStrategy = report.ordersPerStrategy := by
    intro report figure
    unfold DailyReport.addFigure
    split <;> rfl
  rw [← count_ordersPerStrategy]
  unfold DailyReport.note
  split
  · exact hfigure _ _
  · rfl

theorem foldl_ordersPerStrategy (report : DailyReport) (events : List AuditEvent) :
    (events.foldl DailyReport.note report).ordersPerStrategy
      = Tally.addAll report.ordersPerStrategy
          ((events.filterMap AuditEvent.placedFor).map fun name => (name, 1)) := by
  induction events generalizing report with
  | nil => rfl
  | cons ev events ih =>
    rw [List.foldl_cons, ih, note_ordersPerStrategy]
    unfold Tally.addAll
    rw [← List.foldl_append, ← List.map_append]
    cases hname : ev.placedFor <;> simp [hname]

/-- **What is shown for a name counts the orders of every name that looks like it**: no order is
lost, and none is counted twice, where scrubbing makes one name of several. -/
theorem daily_strategies (events : List AuditEvent) (shown : Bytes) :
    (daily events).perStrategy.get shown
      = ((events.filterMap AuditEvent.placedFor).countP
          fun name => scrubProvenanceColumn name = shown) := by
  unfold DailyReport.perStrategy daily
  rw [foldl_ordersPerStrategy]
  show Tally.get (Tally.addAll _ ((Tally.addAll .empty _).rows.map _)) _ = _
  rw [Tally.get_regroup]
  induction events.filterMap AuditEvent.placedFor with
  | nil => rfl
  | cons name names ih =>
    by_cases hshown : scrubProvenanceColumn name = shown
    · simp [hshown, ih, Int.add_comm]
    · simp [hshown, ih]

end BrokerExec.Observability

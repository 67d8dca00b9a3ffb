import BrokerExec.Observability.AuditEvent
import BrokerExec.Domain.Redaction
import BrokerExec.Lib.Table
import Mathlib.Data.List.Sort

/-!
# The reconciliation report (`observability/reports.cpp`)

The events of a day are grouped by the order that they name. A row says what became of its order;
a line complains of an order that was placed and never answered, or filled and never reconciled.

* **`reconciliation_exact`** — the rows and the lines, order by order.
* **`reconciliation_replayed`** — an event that is read twice, or out of its order, makes no
  difference, except to the last state.
-/

namespace BrokerExec.Observability

open BrokerExec.Domain (scrubProvenanceColumn)

/-! ## Rows -/

structure OrderReconciliation where
  clientRef : Bytes
  intended : Bool
  sent : Bool
  confirmed : Bool
  reconciled : Bool
  finalState : Bytes

def OrderReconciliation.init (clientRef : Bytes) : OrderReconciliation :=
  ⟨clientRef, false, false, false, false, []⟩

def EventType.isVerdict : EventType → Bool
  | .orderAcknowledged | .orderPartiallyFilled | .orderFilled | .orderRejected
  | .orderCancelled => true
  | _ => false

def EventType.isFill : EventType → Bool
  | .orderPartiallyFilled | .orderFilled => true
  | _ => false

def EventType.isFinal : EventType → Bool
  | .orderFilled | .orderRejected | .orderCancelled | .orderUnknown => true
  | _ => false

/-- The first switch. -/
def OrderReconciliation.flag (order : OrderReconciliation) (type : EventType) :
    OrderReconciliation :=
  match type with
  | .orderPlaced => { order with intended := true, sent := true }
  | .orderAcknowledged | .orderPartiallyFilled | .orderFilled | .orderRejected
  | .orderCancelled => { order with confirmed := true }
  | .reconcileResult => { order with reconciled := true }
  | _ => order

/-- And the second one. -/
def OrderReconciliation.note (order : OrderReconciliation) (type : EventType) :
    OrderReconciliation :=
  let order := order.flag type
  if type.isFinal then { order with finalState := type.toString } else order

/-! ## Groups -/

/-- The two maps: the rows, and the orders that have filled. -/
structure Groups where
  byRef : Table Bytes OrderReconciliation OrderReconciliation.clientRef
  hadFill : Table Bytes Bytes id

def Groups.init : Groups := ⟨.empty, .empty⟩

def Groups.note (groups : Groups) (ev : AuditEvent) : Groups :=
  if ev.clientRef = [] then groups
  else
    let order := (groups.byRef.find ev.clientRef).getD (.init ev.clientRef)
    { byRef := groups.byRef.upsert ({ order with clientRef := ev.clientRef }.note ev.type)
      hadFill := if ev.type.isFill then groups.hadFill.upsert ev.clientRef else groups.hadFill }

def grouped (events : List AuditEvent) : Groups := events.foldl Groups.note .init

/-! ## The report -/

structure ReconciliationReport where
  orders : List OrderReconciliation
  intended : Nat
  sent : Nat
  confirmed : Nat
  reconciled : Nat
  discrepancies : List Bytes

def unconfirmedLine (clientRef : Bytes) : Bytes :=
  ascii "client_ref " ++ scrubProvenanceColumn clientRef ++ ascii ": intended but not confirmed"

def unreconciledLine (clientRef : Bytes) : Bytes :=
  ascii "client_ref " ++ scrubProvenanceColumn clientRef ++ ascii ": filled but not reconciled"

/-- What is said of one row; the reference is scrubbed here and not before. -/
def Groups.complaints (groups : Groups) (order : OrderReconciliation) : List Bytes :=
  (if order.intended && !order.confirmed then [unconfirmedLine order.clientRef] else [])
    ++ if (groups.hadFill.find order.clientRef).isSome && !order.reconciled then
        [unreconciledLine order.clientRef]
      else []

def OrderReconciliation.shown (order : OrderReconciliation) : OrderReconciliation :=
  { order with
    clientRef := scrubProvenanceColumn order.clientRef
    finalState := if order.finalState = [] then ascii "open" else order.finalState }

def Groups.report (groups : Groups) : ReconciliationReport :=
  let rows := groups.byRef.rows
  { orders := rows.map OrderReconciliation.shown
    intended := rows.countP (·.intended)
    sent := rows.countP (·.sent)
    confirmed := rows.countP (·.confirmed)
    reconciled := rows.countP (·.reconciled)
    discrepancies := rows.flatMap groups.complaints }

def reconciliation (events : List AuditEvent) : ReconciliationReport := (grouped events).report

/-! ## One order -/

/-- What was said of an order, in the order of the events. -/
def said (events : List AuditEvent) (clientRef : Bytes) : List EventType :=
  (events.filter fun ev => ev.clientRef = clientRef).map (·.type)

/-- The row of an order of which this was said. -/
def rowOf (clientRef : Bytes) (types : List EventType) : OrderReconciliation where
  clientRef := clientRef
  intended := types.contains .orderPlaced
  sent := types.contains .orderPlaced
  confirmed := types.any EventType.isVerdict
  reconciled := types.contains .reconcileResult
  finalState := ((types.filter EventType.isFinal).getLast?.map EventType.toString).getD []

@[simp] theorem note_clientRef (order : OrderReconciliation) (type : EventType) :
    (order.note type).clientRef = order.clientRef := by
  cases type <;> rfl

theorem note_rowOf (clientRef : Bytes) (types : List EventType) (type : EventType) :
    (rowOf clientRef types).note type = rowOf clientRef (types ++ [type]) := by
  have hcontains : ∀ t, (types ++ [type]).contains t = (types.contains t || type == t) := by
    intro t
    rw [List.contains_eq_any_beq, List.contains_eq_any_beq, List.any_append]
    simp [BEq.comm]
  have hany : ∀ p : EventType → Bool, (types ++ [type]).any p = (types.any p || p type) := by
    intro p
    rw [List.any_append]
    simp
  have hlast : ∀ p : EventType → Bool, ((types ++ [type]).filter p).getLast?
      = if p type then some type else (types.filter p).getLast? := by
    intro p
    rw [List.filter_append]
    cases hp : p type <;> simp [hp]
  unfold rowOf OrderReconciliation.note
  rw [hcontains, hcontains, hany, hlast]
  cases type <;> simp [OrderReconciliation.flag, EventType.isVerdict, EventType.isFinal]

theorem said_append (events : List AuditEvent) (ev : AuditEvent) (clientRef : Bytes) :
    said (events ++ [ev]) clientRef
      = said events clientRef ++ if ev.clientRef = clientRef then [ev.type] else [] := by
  unfold said
  rw [List.filter_append, List.map_append]
  by_cases h : ev.clientRef = clientRef <;> simp [h]

/-! ## All of them -/

/-- What the maps hold of one reference. -/
structure Holds (groups : Groups) (clientRef : Bytes) (types : List EventType) : Prop where
  row : groups.byRef.find clientRef
    = if clientRef = [] ∨ types = [] then none else some (rowOf clientRef types)
  fill : (groups.hadFill.find clientRef).isSome = true
    ↔ clientRef ≠ [] ∧ types.any EventType.isFill = true

/-- An event leaves every other order's entries as they are. -/
theorem note_other (groups : Groups) {ev : AuditEvent} {clientRef : Bytes}
    (hother : clientRef ≠ ev.clientRef) :
    (groups.note ev).byRef.find clientRef = groups.byRef.find clientRef
      ∧ (groups.note ev).hadFill.find clientRef = groups.hadFill.find clientRef := by
  unfold Groups.note
  by_cases hempty : ev.clientRef = []
  · rw [if_pos hempty]
    exact ⟨rfl, rfl⟩
  · rw [if_neg hempty]
    constructor
    · show (groups.byRef.upsert _).find clientRef = _
      rw [Table.find_upsert, note_clientRef, if_neg hother]
    · show (Table.find (if ev.type.isFill then _ else _) clientRef) = _
      cases ev.type.isFill with
      | true =>
        show (groups.hadFill.upsert ev.clientRef).find clientRef = _
        exact (Table.find_upsert _ _ _).trans (if_neg hother)
      | false => rfl

/-- An event extends what is held of its own order. -/
theorem Holds.note_own {groups : Groups} {ev : AuditEvent} {types : List EventType}
    (h : Holds groups ev.clientRef types) (hempty : ev.clientRef ≠ []) :
    Holds (groups.note ev) ev.clientRef (types ++ [ev.type]) := by
  have hrow : ({ (groups.byRef.find ev.clientRef).getD (.init ev.clientRef) with
        clientRef := ev.clientRef } : OrderReconciliation) = rowOf ev.clientRef types := by
    rw [h.row]
    by_cases hsaid : types = []
    · rw [hsaid]
      simp [OrderReconciliation.init, rowOf]
    · simp [hempty, hsaid, rowOf]
  unfold Groups.note
  rw [if_neg hempty]
  constructor
  · show (groups.byRef.upsert _).find ev.clientRef = _
    rw [hrow, note_rowOf, Table.find_upsert]
    simp [rowOf, hempty]
  · show (Table.find (if ev.type.isFill then _ else _) ev.clientRef).isSome = true ↔ _
    cases hfill : ev.type.isFill with
    | true =>
      rw [if_pos rfl, Table.find_upsert]
      simp [hempty, hfill]
    | false =>
      rw [if_neg Bool.false_ne_true, h.fill]
      simp [hempty, hfill]

theorem Holds.note {groups : Groups} {events : List AuditEvent}
    (h : ∀ clientRef, Holds groups clientRef (said events clientRef)) (ev : AuditEvent)
    (clientRef : Bytes) : Holds (groups.note ev) clientRef (said (events ++ [ev]) clientRef) := by
  rw [said_append]
  by_cases hown : ev.clientRef = clientRef
  · rw [if_pos hown]
    subst hown
    by_cases hempty : ev.clientRef = []
    · -- an event without a reference is in no group
      unfold Groups.note
      rw [if_pos hempty]
      constructor
      · rw [(h ev.clientRef).row, if_pos (.inl hempty), if_pos (.inl hempty)]
      · rw [(h ev.clientRef).fill]
        simp [hempty]
    · exact (h ev.clientRef).note_own hempty
  · rw [if_neg hown, List.append_nil]
    obtain ⟨hrow, hfill⟩ := note_other groups fun heq => hown heq.symm
    constructor
    · rw [hrow]
      exact (h clientRef).row
    · rw [hfill]
      exact (h clientRef).fill

theorem holds_grouped (events : List AuditEvent) (clientRef : Bytes) :
    Holds (grouped events) clientRef (said events clientRef) := by
  induction events using List.reverseRecOn generalizing clientRef with
  | nil =>
    constructor
    · show none = if clientRef = [] ∨ [] = [] then none else _
      simp
    · show (Option.isSome none) = true ↔ _
      simp [said]
  | append_singleton events ev ih =>
    unfold grouped at ih ⊢
    rw [List.foldl_append]
    exact Holds.note ih ev clientRef

/-- The order was placed, and nobody has answered. -/
def Silent (types : List EventType) : Prop :=
  .orderPlaced ∈ types ∧ ∀ type ∈ types, type.isVerdict = false

/-- The order has filled, and nobody has compared it with the broker's. -/
def Unreconciled (types : List EventType) : Prop :=
  (∃ type ∈ types, type.isFill = true) ∧ .reconcileResult ∉ types

instance (types : List EventType) : Decidable (Silent types) :=
  inferInstanceAs (Decidable (_ ∧ _))

instance (types : List EventType) : Decidable (Unreconciled types) :=
  inferInstanceAs (Decidable (_ ∧ _))

def complaintsOf (clientRef : Bytes) (types : List EventType) : List Bytes :=
  (if Silent types then [unconfirmedLine clientRef] else [])
    ++ if Unreconciled types then [unreconciledLine clientRef] else []

theorem complaints_rowOf {groups : Groups} {clientRef : Bytes} {types : List EventType}
    (h : Holds groups clientRef types) (hne : clientRef ≠ []) :
    groups.complaints (rowOf clientRef types) = complaintsOf clientRef types := by
  have hsilent : ((rowOf clientRef types).intended && !(rowOf clientRef types).confirmed) = true
      ↔ Silent types := by
    simp [rowOf, Silent]
  have hunreconciled : ((groups.hadFill.find clientRef).isSome
      && !(rowOf clientRef types).reconciled) = true ↔ Unreconciled types := by
    rw [Bool.and_eq_true, h.fill]
    simp [rowOf, Unreconciled, hne]
  unfold Groups.complaints complaintsOf
  show (if _ then [unconfirmedLine clientRef] else []) ++ (if _ then [unreconciledLine clientRef]
    else []) = _
  exact congrArg₂ _ (if_congr hsilent rfl rfl) (if_congr hunreconciled rfl rfl)

/-- The orders of the day. -/
def refsOf (events : List AuditEvent) : List Bytes :=
  (grouped events).byRef.rows.map OrderReconciliation.clientRef

theorem mem_refsOf {events : List AuditEvent} {clientRef : Bytes} :
    clientRef ∈ refsOf events ↔ clientRef ≠ [] ∧ ∃ ev ∈ events, ev.clientRef = clientRef := by
  have hsaid : said events clientRef ≠ [] ↔ ∃ ev ∈ events, ev.clientRef = clientRef := by
    simp [said]
  have hrow := (holds_grouped events clientRef).row
  rw [← hsaid, refsOf, List.mem_map]
  constructor
  · rintro ⟨row, hmem, rfl⟩
    rw [Table.find_eq_some_iff.mpr ⟨hmem, rfl⟩] at hrow
    split_ifs at hrow with hnone
    exact not_or.mp hnone
  · intro hsome
    rw [if_neg (not_or.mpr hsome)] at hrow
    exact ⟨_, Table.find_eq_some_iff.mp hrow⟩

theorem rows_grouped (events : List AuditEvent) :
    (grouped events).byRef.rows
      = (refsOf events).map fun clientRef => rowOf clientRef (said events clientRef) := by
  rw [refsOf, List.map_map]
  refine (List.map_id _).symm.trans (List.map_congr_left fun row hmem => ?_)
  have hrow := (holds_grouped events row.clientRef).row
  rw [Table.find_eq_some_iff.mpr ⟨hmem, rfl⟩] at hrow
  split_ifs at hrow
  exact Option.some.inj hrow

/-- **One row for every order that the events name, and exactly the complaints that it deserves**,
also where scrubbing shows two orders under one name. -/
theorem reconciliation_exact (events : List AuditEvent) :
    (refsOf events).Pairwise (· < ·)
      ∧ (∀ clientRef, clientRef ∈ refsOf events
        ↔ clientRef ≠ [] ∧ ∃ ev ∈ events, ev.clientRef = clientRef)
      ∧ (reconciliation events).orders = (refsOf events).map (fun clientRef =>
          (rowOf clientRef (said events clientRef)).shown)
      ∧ (reconciliation events).discrepancies = (refsOf events).flatMap (fun clientRef =>
          complaintsOf clientRef (said events clientRef)) := by
  refine ⟨(grouped events).byRef.sorted, fun _ => mem_refsOf, ?_, ?_⟩
  · show (grouped events).byRef.rows.map _ = _
    rw [rows_grouped, List.map_map]
    rfl
  · show (grouped events).byRef.rows.flatMap _ = _
    rw [rows_grouped, List.flatMap_map]
    refine List.flatMap_congr fun clientRef hmem => ?_
    exact complaints_rowOf (holds_grouped events clientRef) (mem_refsOf.mp hmem).1

/-! ## Read again -/

theorem any_congr_mem {types types' : List EventType}
    (hsame : ∀ type, type ∈ types ↔ type ∈ types') (p : EventType → Bool) :
    types.any p = types'.any p := by
  rw [Bool.eq_iff_iff, List.any_eq_true, List.any_eq_true]
  simp only [hsame]

/-- A row depends on what was said, not on when, nor how often; but for the last state. -/
theorem rowOf_congr {clientRef : Bytes} {types types' : List EventType}
    (hsame : ∀ type, type ∈ types ↔ type ∈ types')
    (hlast : (types.filter EventType.isFinal).getLast?
      = (types'.filter EventType.isFinal).getLast?) :
    rowOf clientRef types = rowOf clientRef types' := by
  have hcontains : ∀ type, types.contains type = types'.contains type := by
    intro type
    rw [Bool.eq_iff_iff, List.contains_iff_mem, List.contains_iff_mem]
    exact hsame type
  unfold rowOf
  rw [hcontains, hcontains, any_congr_mem hsame, hlast]

/-- In a set, what is found under a reference is the reference. -/
theorem find_set (set : Table Bytes Bytes id) (clientRef : Bytes) :
    set.find clientRef = if (set.find clientRef).isSome then some clientRef else none := by
  cases hfind : set.find clientRef with
  | none => rfl
  | some found =>
    obtain ⟨-, hkey⟩ := Table.mem_of_find hfind
    rw [← hkey]
    rfl

/-- **Reading events again, or in another order, changes nothing**, as long as what each order came
to last is the same. -/
theorem reconciliation_replayed {events events' : List AuditEvent}
    (hsame : ∀ clientRef type, type ∈ said events clientRef ↔ type ∈ said events' clientRef)
    (hlast : ∀ clientRef, ((said events clientRef).filter EventType.isFinal).getLast?
      = ((said events' clientRef).filter EventType.isFinal).getLast?) :
    reconciliation events = reconciliation events' := by
  have hempty : ∀ clientRef, said events clientRef = [] ↔ said events' clientRef = [] := by
    intro clientRef
    rw [List.eq_nil_iff_forall_not_mem, List.eq_nil_iff_forall_not_mem]
    simp only [hsame]
  have hbyRef : (grouped events).byRef = (grouped events').byRef := by
    refine Table.ext_find fun clientRef => ?_
    rw [(holds_grouped events clientRef).row, (holds_grouped events' clientRef).row,
      rowOf_congr (hsame clientRef) (hlast clientRef)]
    simp only [hempty]
  have hfill : (grouped events).hadFill = (grouped events').hadFill := by
    refine Table.ext_find fun clientRef => ?_
    have hsome : ((grouped events).hadFill.find clientRef).isSome
        = ((grouped events').hadFill.find clientRef).isSome := by
      rw [Bool.eq_iff_iff, (holds_grouped events clientRef).fill,
        (holds_grouped events' clientRef).fill, any_congr_mem (hsame clientRef)]
    rw [find_set, hsome, ← find_set]
  show (grouped events).report = (grouped events').report
  unfold Groups.report Groups.complaints
  rw [hbyRef, hfill]

def fillOf (clientRef : String) : AuditEvent :=
  ⟨.orderFilled, 0, [], [], [], ascii clientRef, [], .null⟩

/-- A fill that is read again behind another. -/
theorem reconciliation_replayed_twice :
    reconciliation [fillOf "r1", fillOf "r2", fillOf "r1"]
      = reconciliation [fillOf "r2", fillOf "r1"] := by
  refine reconciliation_replayed (fun clientRef type => ?_) fun clientRef => ?_
  · by_cases hfirst : ascii "r1" = clientRef <;> by_cases hsecond : ascii "r2" = clientRef <;>
      simp [said, fillOf, hfirst, hsecond]
  · by_cases hfirst : ascii "r1" = clientRef <;> by_cases hsecond : ascii "r2" = clientRef <;>
      simp [said, fillOf, hfirst, hsecond, EventType.isFinal, List.find?]

end BrokerExec.Observability

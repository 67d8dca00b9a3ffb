import BrokerExec.Adapters.Kotak.FetchOrders
import BrokerExec.Lib.Binding
import BrokerExec.Lib.Run
import BrokerExec.Ports

/-!
# Which row is which intent's (`adapters/kotak/kotak_broker_adapter.cpp`)

Kotak echoes no tag. `place` and `modify` bind the id of an ack to the intent's ref, and
`fetchOrders` binds the id of a row that is alone with its shape to the one pending intent of that
shape. `Correlation` is an adapter with what was placed, seen, rejected and attached so far.

* **`sound_step`** — the invariant of a call.
* **`joined_of_fetchOrders`** — what a binding of the attribute rung joins.
* **`correlation_sound`** — no id is bound again, no ref is bound twice, the attribute rung joins
  what is alone of its shape, and what was rejected is attached to no row.
-/

namespace BrokerExec.Adapters.Kotak

open BrokerExec.Domain (Order OrderIntent)
open BrokerExec.Errors (Error)
open BrokerExec.Ports (BrokerAck)

/-! ## Placing and modifying -/

/-- `place`: the intent is registered before the broker is asked. -/
def KotakBrokerAdapter.place (st : KotakBrokerAdapter)
    (placeOrder : PlaceParams → Result Json.Value) (intent : OrderIntent) :
    Result BrokerAck × KotakBrokerAdapter :=
  let st := st.registerIntent intent
  match placeOrder (buildPlaceParams intent) with
  | .error error =>
    -- an order that may be live stays registered
    (.error error, if isAmbiguousOutcome error then st else st.dropPending intent.clientRef)
  | .ok payload =>
    let orderId := extractOrderId payload
    if orderId = [] then
      (.error (codedError .unknown (ascii "kotak: place acknowledged without an order number")
        (ascii "KOTAK-PLACE-NOID")), st)
    else (.ok ⟨orderId, intent.clientRef⟩, st.anchor orderId intent.clientRef)

def KotakBrokerAdapter.modify (st : KotakBrokerAdapter)
    (modifyOrder : ModifyParams → Result Json.Value) (brokerOrderId : Bytes)
    (intent : OrderIntent) : Result BrokerAck × KotakBrokerAdapter :=
  let st := st.registerIntent intent
  match modifyOrder (buildModifyParams brokerOrderId intent) with
  | .error error =>
    (.error error, if isAmbiguousOutcome error then st else st.dropPending intent.clientRef)
  | .ok payload =>
    -- an ack without an id stands for the id that was modified
    let orderId :=
      if extractOrderId payload = [] then brokerOrderId else extractOrderId payload
    (.ok ⟨orderId, intent.clientRef⟩, st.anchor orderId intent.clientRef)

/-! ## A run of calls -/

/-- A call on the adapter, with the broker's answer to it. -/
inductive AdapterCall where
  | place (intent : OrderIntent) (answer : Result Json.Value)
  | modify (brokerOrderId : Bytes) (intent : OrderIntent) (answer : Result Json.Value)
  | fetchOrders (answer : Result Json.Value)

/-- The id in the ack of a mutation. -/
def ackedIds : Result Json.Value → List Bytes
  | .ok payload => if extractOrderId payload = [] then [] else [extractOrderId payload]
  | .error _ => []

/-- The rows of the book that was read. -/
def book : Result Json.Value → List RawOrder
  | .ok (.array elements) => bookRows elements
  | _ => []

def bookIds (answer : Result Json.Value) : List Bytes := (book answer).map (·.orderId)

/-- The broker gave a verdict, and nothing is live. -/
def definitivelyRejected : Result Json.Value → Bool
  | .ok _ => false
  | .error error => !isAmbiguousOutcome error

/-- The ids of the rows that were published with a ref, and their refs. -/
def attachments : Result (List Order) → List (Bytes × Bytes)
  | .ok orders =>
    (orders.filter (·.intent.clientRef ≠ [])).map fun order =>
      (order.brokerOrderId, order.intent.clientRef)
  | .error _ => []

/-- The adapter and what has passed through it. -/
structure Correlation where
  adapter : KotakBrokerAdapter
  placed : List OrderIntent
  /-- The ids of the acks and of the books. -/
  seen : List Bytes
  /-- The refs whose place was definitively rejected. -/
  rejected : List Bytes
  attached : List (Bytes × Bytes)

/-- A new adapter. -/
def Correlation.fresh : Correlation := ⟨⟨fun _ => none, [], []⟩, [], [], [], []⟩

def Correlation.step (s : Correlation) : AdapterCall → Correlation
  | .place intent answer =>
    { s with
      adapter := (s.adapter.place (fun _ => answer) intent).2
      placed := intent :: s.placed
      seen := ackedIds answer ++ s.seen
      rejected :=
        if definitivelyRejected answer then intent.clientRef :: s.rejected else s.rejected }
  | .modify brokerOrderId intent answer =>
    { s with
      adapter := (s.adapter.modify (fun _ => answer) brokerOrderId intent).2
      seen := ackedIds answer ++ s.seen }
  | .fetchOrders answer =>
    { s with
      adapter := (s.adapter.fetchOrders answer).2
      seen := bookIds answer ++ s.seen
      attached := attachments (s.adapter.fetchOrders answer).1 ++ s.attached }

def Correlation.placedRefs (s : Correlation) : List Bytes := s.placed.map (·.clientRef)

/-- A ref is placed once and acked under a new id, a modify goes to the id of its ref, which its
ack echoes, and the rows of a book have ids of their own. -/
def Correlation.Lawful (s : Correlation) : AdapterCall → Prop
  | .place intent answer =>
    intent.clientRef ∉ s.placedRefs ∧ ∀ orderId ∈ ackedIds answer, orderId ∉ s.seen
  | .modify brokerOrderId intent answer =>
    s.adapter.idToRef brokerOrderId = some intent.clientRef
      ∧ ∀ orderId ∈ ackedIds answer, orderId = brokerOrderId
  | .fetchOrders answer => (bookIds answer).Nodup ∧ [] ∉ bookIds answer

instance (s : Correlation) (call : AdapterCall) : Decidable (s.Lawful call) := by
  cases call <;> exact inferInstanceAs (Decidable (_ ∧ _))

/-- The state behind the calls. -/
abbrev Correlation.after (calls : List AdapterCall) : Correlation :=
  run Correlation.step .fresh calls

/-! ## Shapes -/

/-- What an intent and a row are compared by. -/
structure Shape where
  symbol : Bytes
  side : Bytes
  quantity : Option Int
  deriving DecidableEq

def intentShape (intent : OrderIntent) : Shape :=
  ⟨intent.symbol, sideCode intent.side, some intent.quantity.toInt⟩

def RawOrder.shape (raw : RawOrder) : Shape := ⟨raw.symbol, raw.side, raw.quantity⟩

def Shape.key (shape : Shape) : Bytes := attributeKey shape.symbol shape.side shape.quantity

/-- The entry that `registerIntent` makes. -/
def pendingEntry (intent : OrderIntent) : PendingIntent :=
  ⟨intent.clientRef, (intentShape intent).key⟩

/-- **The key of an intent tells the shape of a row.** -/
theorem shape_eq_iff {answer : Result Json.Value} {raw : RawOrder} (hraw : raw ∈ book answer)
    (intent : OrderIntent) :
    raw.shape = intentShape intent ↔ raw.attrKey = (intentShape intent).key := by
  constructor
  · intro h
    rw [← h]
    rfl
  · intro h
    obtain ⟨text, htext⟩ : ∃ text, raw.side = foldSideCode text := by
      unfold book at hraw
      split at hraw
      · obtain ⟨row, -, rfl⟩ := List.mem_map.mp hraw
        exact ⟨_, rfl⟩
      · cases hraw
    have hkey : attributeKey intent.symbol (sideCode intent.side) (some intent.quantity.toInt)
        = attributeKey raw.symbol (foldSideCode text) raw.quantity := by
      rw [← htext]
      exact h.symm
    obtain ⟨hsymbol, hside, hquantity⟩ := attributeKey_inj hkey
    rw [RawOrder.shape, intentShape, hsymbol, hside, hquantity, htext]

/-! ## Anchoring pairs -/

def KotakBrokerAdapter.anchorAll (st : KotakBrokerAdapter) (pairs : List (Bytes × Bytes)) :
    KotakBrokerAdapter :=
  pairs.foldl (fun st pair => st.anchor pair.1 pair.2) st

/-- Both sides of the pairs are there to be bound. -/
def Named (pairs : List (Bytes × Bytes)) : Prop := ∀ pair ∈ pairs, pair.1 ≠ [] ∧ pair.2 ≠ []

variable {st : KotakBrokerAdapter} {pairs : List (Bytes × Bytes)} {answer : Result Json.Value}

theorem anchor_eq {orderId clientRef : Bytes} (horderId : orderId ≠ [])
    (hclientRef : clientRef ≠ []) :
    st.anchor orderId clientRef =
      { idToRef := Function.update st.idToRef orderId (some clientRef)
        anchoredRefs := clientRef :: st.anchoredRefs
        pending := st.pending.filter fun p => p.clientRef ≠ clientRef } := by
  rw [KotakBrokerAdapter.anchor, if_neg (by simp [horderId, hclientRef]),
    KotakBrokerAdapter.dropPending, if_neg hclientRef]

/-- What anchoring the pairs, one after the other, comes to. -/
theorem anchorAll_spec (st : KotakBrokerAdapter) (h : Named pairs) :
    (st.anchorAll pairs).idToRef = bindAll st.idToRef pairs
      ∧ (∀ ref, ref ∈ (st.anchorAll pairs).anchoredRefs
        ↔ ref ∈ st.anchoredRefs ∨ ref ∈ pairs.map Prod.snd)
      ∧ (st.anchorAll pairs).pending
        = st.pending.filter fun p => p.clientRef ∉ pairs.map Prod.snd := by
  induction pairs generalizing st with
  | nil => simp [KotakBrokerAdapter.anchorAll]
  | cons pair pairs ih =>
    obtain ⟨hid, href⟩ := h pair List.mem_cons_self
    have hcons : st.anchorAll (pair :: pairs) = (st.anchor pair.1 pair.2).anchorAll pairs := rfl
    rw [hcons, anchor_eq hid href]
    obtain ⟨hids, hanchored, hpending⟩ := ih
      ⟨Function.update st.idToRef pair.1 (some pair.2), pair.2 :: st.anchoredRefs,
        st.pending.filter fun p => p.clientRef ≠ pair.2⟩
      fun p hp => h p (List.mem_cons_of_mem _ hp)
    refine ⟨hids, fun ref => ?_, ?_⟩
    · rw [hanchored]
      simp only [List.mem_cons, List.map_cons]
      tauto
    · rw [hpending, List.filter_filter]
      refine List.filter_congr fun p _ => Bool.eq_iff_iff.mpr ?_
      simp only [List.map_cons, List.mem_cons, not_or, Bool.and_eq_true, decide_eq_true_eq]
      exact and_comm

/-- The pairs that the attribute rung joins. -/
def KotakBrokerAdapter.joins (st : KotakBrokerAdapter) (rows : List RawOrder) :
    List (Bytes × Bytes) :=
  rows.filterMap fun raw => (st.corroborated rows raw).map fun ref => (raw.orderId, ref)

theorem anchorRows_eq (rows : List RawOrder) :
    st.anchorRows rows = st.anchorAll (st.joins rows) := by
  rw [KotakBrokerAdapter.anchorRows, KotakBrokerAdapter.anchorAll, KotakBrokerAdapter.joins,
    List.foldl_filterMap]
  congr 1
  funext anchored raw
  cases st.corroborated rows raw <;> rfl

theorem fetchOrders_adapter (answer : Result Json.Value) :
    (st.fetchOrders answer).2 = st.anchorAll (st.joins (book answer)) := by
  rw [← anchorRows_eq]
  cases answer with
  | error error => rfl
  | ok payload => cases payload <;> rfl

/-- The rows that go out with a ref. -/
theorem mem_attachments {orderId ref : Bytes} :
    (orderId, ref) ∈ attachments (st.fetchOrders answer).1
      ↔ ref ≠ []
        ∧ ∃ raw ∈ book answer, raw.orderId = orderId ∧ st.rowRef (book answer) raw = ref := by
  have hpublished : ∀ raw ref, (publishRow ref raw).intent.clientRef = ref := by
    intro raw ref
    simp only [publishRow, publishedIntent]
    split_ifs <;> rfl
  cases answer with
  | error error => simp [KotakBrokerAdapter.fetchOrders, attachments, book]
  | ok payload =>
    cases payload with
    | array elements =>
      have hfetch : (st.fetchOrders (.ok (.array elements))).1 = .ok ((bookRows elements).map
          fun raw => publishRow (st.rowRef (bookRows elements) raw) raw) := rfl
      rw [hfetch, attachments, book]
      generalize bookRows elements = rows
      simp only [List.mem_map, List.mem_filter, Prod.mk.injEq]
      constructor
      · rintro ⟨order, ⟨⟨raw, hraw, rfl⟩, hne⟩, rfl, rfl⟩
        rw [hpublished] at hne ⊢
        exact ⟨by simpa using hne, raw, hraw, rfl, rfl⟩
      · rintro ⟨hne, raw, hraw, rfl, rfl⟩
        refine ⟨_, ⟨⟨raw, hraw, rfl⟩, ?_⟩, rfl, hpublished _ _⟩
        rw [hpublished]
        simpa using hne
    | _ => simp [KotakBrokerAdapter.fetchOrders, attachments, book]

/-- What the attribute rung looks at. -/
theorem corroborated_eq_some_iff {rows : List RawOrder} {raw : RawOrder} {ref : Bytes} :
    st.corroborated rows raw = some ref
      ↔ (st.refForId raw.orderId = [] ∧ raw.malformed = false
          ∧ st.unmatchedRows rows raw.attrKey = 1)
        ∧ ∃ p, (st.pending.filter fun p => p.attrKey ≠ [] && p.attrKey = raw.attrKey) = [p]
          ∧ p.clientRef = ref := by
  unfold KotakBrokerAdapter.corroborated KotakBrokerAdapter.soleRefForKey
  split_ifs with hrefused
  · constructor
    · rintro ⟨⟩
    · rintro ⟨⟨hid, hmalformed, hcount⟩, -⟩
      simp [hid, hmalformed, hcount] at hrefused
  · have hopen : st.refForId raw.orderId = [] ∧ raw.malformed = false
        ∧ st.unmatchedRows rows raw.attrKey = 1 := by
      simpa [not_or, and_assoc] using hrefused
    rw [and_iff_right hopen]
    split
    next p hp =>
      rw [hp]
      simp
    next hnot =>
      constructor
      · rintro ⟨⟩
      · rintro ⟨p, hp, -⟩
        exact absurd hp (hnot p)

/-! ## The invariant -/

/-- What every lawful run keeps of its state. -/
structure Sound (s : Correlation) : Prop where
  placedOnce : s.placedRefs.Nodup
  /-- What is bound was seen, and its ref is anchored. -/
  bound : ∀ orderId ref, s.adapter.idToRef orderId = some ref →
    orderId ∈ s.seen ∧ ref ∈ s.adapter.anchoredRefs
  single : SingleKeyed s.adapter.idToRef
  anchored : ∀ ref ∈ s.adapter.anchoredRefs, ref ≠ [] ∧ ref ∈ s.placedRefs
  pendingOnce : (s.adapter.pending.map (·.clientRef)).Nodup
  /-- A pending entry is that of a placed intent whose ref is not anchored. -/
  pending : ∀ p ∈ s.adapter.pending, p.clientRef ≠ [] ∧ p.clientRef ∉ s.adapter.anchoredRefs
    ∧ ∃ intent ∈ s.placed, p = pendingEntry intent
  rejected : ∀ ref ∈ s.rejected, ref ∈ s.placedRefs ∧ ref ∉ s.adapter.anchoredRefs
    ∧ ref ∉ s.adapter.pending.map (·.clientRef)
  attached : ∀ orderId ref, (orderId, ref) ∈ s.attached → s.adapter.idToRef orderId = some ref

theorem sound_fresh : Sound .fresh where
  placedOnce := List.nodup_nil
  bound := by simp [Correlation.fresh]
  single := by simp [Correlation.fresh, SingleKeyed]
  anchored := by simp [Correlation.fresh]
  pendingOnce := List.nodup_nil
  pending := by simp [Correlation.fresh]
  rejected := by simp [Correlation.fresh]
  attached := by simp [Correlation.fresh]

variable {s : Correlation}

/-- The invariant of a state in which more was seen. -/
theorem Sound.see (h : Sound s) {seen : List Bytes} (hseen : s.seen ⊆ seen) :
    Sound { s with seen := seen } :=
  { h with bound := fun orderId ref hbound => (h.bound orderId ref hbound).imp_left (hseen ·) }

theorem Sound.refForId_eq_nil_iff (h : Sound s) {orderId : Bytes} (horderId : orderId ≠ []) :
    s.adapter.refForId orderId = [] ↔ s.adapter.idToRef orderId = none := by
  rw [KotakBrokerAdapter.refForId, if_neg horderId]
  cases hbound : s.adapter.idToRef orderId with
  | none => simp
  | some ref => simpa using (h.anchored ref (h.bound orderId ref hbound).2).1

/-! ### Binding fresh pairs -/

/-- Pairs that may be bound: ids that were seen and are free, refs that were placed, are not
anchored and were not rejected. -/
structure Bindable (s : Correlation) (pairs : List (Bytes × Bytes)) : Prop where
  named : Named pairs
  free : ∀ pair ∈ pairs, pair.1 ∈ s.seen ∧ s.adapter.idToRef pair.1 = none
  eligible : ∀ pair ∈ pairs, pair.2 ∈ s.placedRefs ∧ pair.2 ∉ s.adapter.anchoredRefs
    ∧ pair.2 ∉ s.rejected
  keys : (pairs.map Prod.fst).Nodup
  names : (pairs.map Prod.snd).Nodup

theorem bindable_singleton {orderId ref : Bytes} (horderId : orderId ≠ [] ∧ orderId ∈ s.seen)
    (hfree : s.adapter.idToRef orderId = none) (href : ref ≠ [] ∧ ref ∈ s.placedRefs)
    (hanchored : ref ∉ s.adapter.anchoredRefs) (hrejected : ref ∉ s.rejected) :
    Bindable s [(orderId, ref)] where
  named := by simpa [Named] using ⟨horderId.1, href.1⟩
  free := by simpa using ⟨horderId.2, hfree⟩
  eligible := by simpa using ⟨href.2, hanchored, hrejected⟩
  keys := List.nodup_singleton orderId
  names := List.nodup_singleton ref

/-- A ref that is not anchored is bound to nothing. -/
theorem Bindable.fresh (hpairs : Bindable s pairs) (h : Sound s) :
    Fresh s.adapter.idToRef pairs where
  free pair hpair := (hpairs.free pair hpair).2
  unnamed pair hpair orderId hbound :=
    (hpairs.eligible pair hpair).2.1 (h.bound orderId pair.2 hbound).2
  keys := hpairs.keys
  names := hpairs.names

theorem Sound.anchorAll (h : Sound s) (hpairs : Bindable s pairs) :
    Sound { s with adapter := s.adapter.anchorAll pairs } := by
  obtain ⟨hids, hanchored, hpending⟩ := anchorAll_spec s.adapter hpairs.named
  have hfresh := hpairs.fresh h
  constructor
  case placedOnce => exact h.placedOnce
  case bound =>
    intro orderId ref hbound
    dsimp only at hbound ⊢
    rw [hids] at hbound
    rw [hanchored]
    rcases bindAll_cases hbound with hold | hnew
    · exact (h.bound orderId ref hold).imp_right .inl
    · exact ⟨(hpairs.free _ hnew).1, .inr (List.mem_map_of_mem hnew)⟩
  case single =>
    show SingleKeyed (s.adapter.anchorAll pairs).idToRef
    rw [hids]
    exact h.single.bindAll hfresh
  case anchored =>
    intro ref href
    rcases (hanchored ref).mp href with hold | hnew
    · exact h.anchored ref hold
    · obtain ⟨pair, hpair, rfl⟩ := List.mem_map.mp hnew
      exact ⟨(hpairs.named pair hpair).2, (hpairs.eligible pair hpair).1⟩
  case pendingOnce =>
    show ((s.adapter.anchorAll pairs).pending.map (·.clientRef)).Nodup
    rw [hpending]
    exact h.pendingOnce.sublist (List.filter_sublist.map _)
  case pending =>
    intro p hp
    dsimp only at hp ⊢
    rw [hpending, List.mem_filter, decide_eq_true_eq] at hp
    obtain ⟨hne, hnot, hintent⟩ := h.pending p hp.1
    exact ⟨hne, fun hmem => ((hanchored _).mp hmem).elim hnot hp.2, hintent⟩
  case rejected =>
    intro ref href
    obtain ⟨hplaced, hnot, hnotPending⟩ := h.rejected ref href
    refine ⟨hplaced, fun hmem => ?_, ?_⟩
    · rcases (hanchored ref).mp hmem with hold | hnew
      · exact hnot hold
      · obtain ⟨pair, hpair, rfl⟩ := List.mem_map.mp hnew
        exact (hpairs.eligible pair hpair).2.2 href
    · dsimp only
      rw [hpending]
      exact fun hmem => hnotPending ((List.filter_sublist.map _).subset hmem)
  case attached =>
    intro orderId ref hmem
    dsimp only
    rw [hids]
    exact hfresh.grows (h.attached orderId ref hmem)

/-! ### Mutations -/

theorem Sound.mem_placedRefs_of_pending (h : Sound s) {ref : Bytes}
    (href : ref ∈ s.adapter.pending.map (·.clientRef)) : ref ∈ s.placedRefs := by
  obtain ⟨p, hp, rfl⟩ := List.mem_map.mp href
  obtain ⟨-, -, intent, hintent, heq⟩ := h.pending p hp
  rw [heq]
  exact List.mem_map_of_mem hintent

/-- A ref that is new to the adapter is appended, and the oldest entries may go. -/
theorem registerIntent_new {intent : OrderIntent} (hne : intent.clientRef ≠ [])
    (hanchored : intent.clientRef ∉ st.anchoredRefs)
    (hpending : intent.clientRef ∉ st.pending.map (·.clientRef)) :
    ∃ n, st.registerIntent intent = { st with
      pending := (st.pending ++ [pendingEntry intent]).drop n } := by
  have hfind : st.pending.findIdx? (·.clientRef = intent.clientRef) = none := by
    rw [List.findIdx?_eq_none_iff]
    intro p hp
    simpa using fun heq => hpending (List.mem_map.mpr ⟨p, hp, heq⟩)
  rw [KotakBrokerAdapter.registerIntent, if_neg (by simp [hne, hanchored])]
  dsimp only
  rw [hfind]
  exact ⟨_, rfl⟩

@[simp] theorem registerIntent_anchoredRefs (intent : OrderIntent) :
    (st.registerIntent intent).anchoredRefs = st.anchoredRefs := by
  unfold KotakBrokerAdapter.registerIntent
  split_ifs
  · rfl
  · dsimp only
    split <;> rfl

theorem registerIntent_anchored {intent : OrderIntent}
    (h : intent.clientRef ∈ st.anchoredRefs) : st.registerIntent intent = st := by
  rw [KotakBrokerAdapter.registerIntent, if_pos (.inr h)]

theorem dropPending_of_notMem {ref : Bytes} (h : ref ∉ st.pending.map (·.clientRef)) :
    st.dropPending ref = st := by
  unfold KotakBrokerAdapter.dropPending
  split_ifs
  · rfl
  · have hkept : st.pending.filter (fun p => p.clientRef ≠ ref) = st.pending := by
      rw [List.filter_eq_self]
      intro p hp
      simpa using fun heq => h (List.mem_map.mpr ⟨p, hp, heq⟩)
    rw [hkept]

theorem Sound.register (h : Sound s) {intent : OrderIntent}
    (hnew : intent.clientRef ∉ s.placedRefs) :
    Sound { s with
      adapter := s.adapter.registerIntent intent
      placed := intent :: s.placed } := by
  have hanchored : intent.clientRef ∉ s.adapter.anchoredRefs :=
    fun hmem => hnew (h.anchored _ hmem).2
  have hpending : intent.clientRef ∉ s.adapter.pending.map (·.clientRef) :=
    fun hmem => hnew (h.mem_placedRefs_of_pending hmem)
  -- the placed intents and the entries, with the new one
  obtain ⟨entries, hadapter, hsub, hentries⟩ : ∃ entries,
      s.adapter.registerIntent intent = { s.adapter with pending := entries }
        ∧ (entries.map (·.clientRef)).Sublist
          (s.adapter.pending.map (·.clientRef) ++ [intent.clientRef])
        ∧ ∀ p ∈ entries, p ∈ s.adapter.pending
          ∨ p = pendingEntry intent ∧ intent.clientRef ≠ [] := by
    by_cases hne : intent.clientRef = []
    · refine ⟨s.adapter.pending, ?_, List.sublist_append_left _ _, fun p hp => .inl hp⟩
      rw [KotakBrokerAdapter.registerIntent, if_pos (.inl hne)]
    · obtain ⟨n, hadapter⟩ := registerIntent_new hne hanchored hpending
      refine ⟨_, hadapter, ?_, fun p hp => ?_⟩
      · have hdrop := (List.drop_sublist n (s.adapter.pending ++ [pendingEntry intent])).map
          (·.clientRef)
        rwa [List.map_append] at hdrop
      · rcases List.mem_append.mp (List.mem_of_mem_drop hp) with hold | hlast
        · exact .inl hold
        · exact .inr ⟨List.mem_singleton.mp hlast, hne⟩
  have honce : (s.adapter.pending.map (·.clientRef) ++ [intent.clientRef]).Nodup := by
    rw [List.nodup_append_comm]
    exact List.nodup_cons.mpr ⟨hpending, h.pendingOnce⟩
  rw [hadapter]
  constructor
  case placedOnce => exact List.nodup_cons.mpr ⟨hnew, h.placedOnce⟩
  case bound => exact h.bound
  case single => exact h.single
  case anchored =>
    exact fun ref href => (h.anchored ref href).imp_right (List.mem_cons_of_mem _)
  case pendingOnce => exact honce.sublist hsub
  case pending =>
    intro p hp
    rcases hentries p hp with hold | ⟨rfl, hne⟩
    · obtain ⟨hne, hnot, placed, hplaced, heq⟩ := h.pending p hold
      exact ⟨hne, hnot, placed, List.mem_cons_of_mem _ hplaced, heq⟩
    · exact ⟨hne, hanchored, intent, List.mem_cons_self, rfl⟩
  case rejected =>
    intro ref href
    obtain ⟨hplaced, hnot, hnotPending⟩ := h.rejected ref href
    refine ⟨List.mem_cons_of_mem _ hplaced, hnot, fun hmem => ?_⟩
    rcases List.mem_append.mp (hsub.subset hmem) with hold | hlast
    · exact hnotPending hold
    · rw [List.mem_singleton.mp hlast] at hplaced
      exact hnew hplaced
  case attached => exact h.attached

/-- A ref that is retired can be taken for rejected. -/
theorem Sound.reject (h : Sound s) {ref : Bytes} (hplaced : ref ∈ s.placedRefs)
    (hanchored : ref ∉ s.adapter.anchoredRefs) :
    Sound { s with adapter := s.adapter.dropPending ref, rejected := ref :: s.rejected } := by
  obtain ⟨entries, hadapter, hsub, hgone⟩ : ∃ entries,
      s.adapter.dropPending ref = { s.adapter with pending := entries }
        ∧ entries.Sublist s.adapter.pending ∧ ref ∉ entries.map (·.clientRef) := by
    by_cases hne : ref = []
    · refine ⟨s.adapter.pending, ?_, .refl _, fun hmem => ?_⟩
      · rw [KotakBrokerAdapter.dropPending, if_pos hne]
      · obtain ⟨p, hp, heq⟩ := List.mem_map.mp hmem
        exact (h.pending p hp).1 (heq.trans hne)
    · refine ⟨_, by rw [KotakBrokerAdapter.dropPending, if_neg hne], List.filter_sublist,
        fun hmem => ?_⟩
      obtain ⟨p, hp, heq⟩ := List.mem_map.mp hmem
      simpa [heq] using (List.mem_filter.mp hp).2
  rw [hadapter]
  constructor
  case placedOnce => exact h.placedOnce
  case bound => exact h.bound
  case single => exact h.single
  case anchored => exact h.anchored
  case pendingOnce => exact h.pendingOnce.sublist (hsub.map _)
  case pending => exact fun p hp => h.pending p (hsub.subset hp)
  case rejected =>
    intro ref' href'
    rcases List.mem_cons.mp href' with rfl | hold
    · exact ⟨hplaced, hanchored, hgone⟩
    · obtain ⟨hplaced', hnot, hnotPending⟩ := h.rejected ref' hold
      exact ⟨hplaced', hnot, fun hmem => hnotPending ((hsub.map _).subset hmem)⟩
  case attached => exact h.attached

/-- Binding the id of a ref to it again. -/
theorem Sound.rebind (h : Sound s) {orderId ref : Bytes}
    (hbound : s.adapter.idToRef orderId = some ref) :
    Sound { s with adapter := s.adapter.anchor orderId ref } := by
  by_cases horderId : orderId = []
  · rw [KotakBrokerAdapter.anchor, if_pos (.inl horderId)]
    exact h
  have href := (h.bound orderId ref hbound).2
  -- the ref is not pending, so only the set of the anchored refs is written
  have hpending : s.adapter.pending.filter (fun p => p.clientRef ≠ ref) = s.adapter.pending := by
    rw [List.filter_eq_self]
    intro p hp
    have hne : p.clientRef ≠ ref := fun heq => (h.pending p hp).2.1 (heq ▸ href)
    simpa using hne
  have hmem : ∀ ref', ref' ∈ ref :: s.adapter.anchoredRefs ↔ ref' ∈ s.adapter.anchoredRefs := by
    intro ref'
    rw [List.mem_cons, or_iff_right_of_imp]
    rintro rfl
    exact href
  rw [anchor_eq horderId (h.anchored ref href).1, hpending, ← hbound, Function.update_eq_self]
  constructor
  case placedOnce => exact h.placedOnce
  case bound => exact fun id ref' hid => (h.bound id ref' hid).imp_right (hmem ref').mpr
  case single => exact h.single
  case anchored => exact fun ref' hanchored => h.anchored ref' ((hmem ref').mp hanchored)
  case pendingOnce => exact h.pendingOnce
  case pending =>
    intro p hp
    obtain ⟨hne, hnot, hintent⟩ := h.pending p hp
    exact ⟨hne, fun hanchored => hnot ((hmem _).mp hanchored), hintent⟩
  case rejected =>
    intro ref' href'
    obtain ⟨hplaced, hnot, hnotPending⟩ := h.rejected ref' href'
    exact ⟨hplaced, fun hanchored => hnot ((hmem _).mp hanchored), hnotPending⟩
  case attached => exact h.attached

theorem sound_place (h : Sound s) {intent : OrderIntent}
    (hlawful : s.Lawful (.place intent answer)) : Sound (s.step (.place intent answer)) := by
  obtain ⟨hnew, hids⟩ := hlawful
  have hregistered := h.register hnew
  have hplaced : intent.clientRef ∈ intent.clientRef :: s.placedRefs := List.mem_cons_self
  have hanchored : intent.clientRef ∉ (s.adapter.registerIntent intent).anchoredRefs := by
    rw [registerIntent_anchoredRefs]
    exact fun hmem => hnew (h.anchored _ hmem).2
  cases answer with
  | error error =>
    cases hambiguous : isAmbiguousOutcome error with
    | true =>
      simp only [Correlation.step, KotakBrokerAdapter.place, ackedIds, definitivelyRejected,
        hambiguous]
      exact hregistered
    | false =>
      simp only [Correlation.step, KotakBrokerAdapter.place, ackedIds, definitivelyRejected,
        hambiguous]
      exact hregistered.reject hplaced hanchored
  | ok payload =>
    by_cases hid : extractOrderId payload = []
    · simp only [Correlation.step, KotakBrokerAdapter.place, ackedIds, definitivelyRejected, hid,
        if_true]
      exact hregistered
    · simp only [Correlation.step, KotakBrokerAdapter.place, ackedIds, definitivelyRejected, hid,
        if_false]
      have hseen := hregistered.see (List.subset_append_right [extractOrderId payload] s.seen)
      by_cases href : intent.clientRef = []
      · -- an ack without a ref binds nothing
        rw [KotakBrokerAdapter.anchor, if_pos (.inr href)]
        exact hseen
      · have hunseen : extractOrderId payload ∉ s.seen := by
          refine hids _ ?_
          rw [ackedIds, if_neg hid]
          exact List.mem_singleton_self _
        have hfree : s.adapter.idToRef (extractOrderId payload) = none := by
          rw [Option.eq_none_iff_forall_ne_some]
          exact fun ref hbound => hunseen (h.bound _ ref hbound).1
        have hrejected : intent.clientRef ∉ s.rejected :=
          fun hmem => hnew (h.rejected _ hmem).1
        exact hseen.anchorAll (bindable_singleton ⟨hid, List.mem_cons_self⟩
          ((congrFun (registerIntent_idToRef s.adapter intent) _).trans hfree) ⟨href, hplaced⟩
          hanchored hrejected)

theorem sound_modify (h : Sound s) {brokerOrderId : Bytes} {intent : OrderIntent}
    (hlawful : s.Lawful (.modify brokerOrderId intent answer)) :
    Sound (s.step (.modify brokerOrderId intent answer)) := by
  obtain ⟨hbound, hechoed⟩ := hlawful
  have href := (h.bound _ _ hbound).2
  have hnotPending : intent.clientRef ∉ s.adapter.pending.map (·.clientRef) := by
    intro hmem
    obtain ⟨p, hp, heq⟩ := List.mem_map.mp hmem
    exact (h.pending p hp).2.1 (heq ▸ href)
  have hseen := h.see (List.subset_append_right (ackedIds answer) s.seen)
  cases answer with
  | error error =>
    simp only [Correlation.step, KotakBrokerAdapter.modify, registerIntent_anchored href,
      dropPending_of_notMem hnotPending, ite_self]
    exact hseen
  | ok payload =>
    have hid : (if extractOrderId payload = [] then brokerOrderId else extractOrderId payload)
        = brokerOrderId := by
      split_ifs with hempty
      · rfl
      · refine hechoed _ ?_
        rw [ackedIds, if_neg hempty]
        exact List.mem_singleton_self _
    simp only [Correlation.step, KotakBrokerAdapter.modify, registerIntent_anchored href, hid]
    exact hseen.rebind hbound

/-! ### Reading the book -/

/-- A key that one row has. -/
theorem filter_of_unmatchedRows {rows : List RawOrder} {raw : RawOrder} (hraw : raw ∈ rows)
    (hfree : st.refForId raw.orderId = []) (h : st.unmatchedRows rows raw.attrKey = 1) :
    (rows.filter fun row => st.refForId row.orderId = [] && row.attrKey = raw.attrKey)
      = [raw] := by
  rw [KotakBrokerAdapter.unmatchedRows, List.countP_eq_length_filter, List.length_eq_one_iff] at h
  obtain ⟨row, hrow⟩ := h
  have hmem : raw ∈ rows.filter fun row =>
      st.refForId row.orderId = [] && row.attrKey = raw.attrKey :=
    List.mem_filter.mpr ⟨hraw, by simp [hfree]⟩
  rw [hrow] at hmem ⊢
  rw [List.mem_singleton.mp hmem]

theorem mem_joins {rows : List RawOrder} {pair : Bytes × Bytes} :
    pair ∈ st.joins rows
      ↔ ∃ raw ∈ rows, raw.orderId = pair.1 ∧ st.corroborated rows raw = some pair.2 := by
  rw [KotakBrokerAdapter.joins, List.mem_filterMap]
  constructor
  · rintro ⟨raw, hraw, hjoin⟩
    obtain ⟨ref, href, rfl⟩ := Option.map_eq_some_iff.mp hjoin
    exact ⟨raw, hraw, rfl, href⟩
  · rintro ⟨raw, hraw, hid, href⟩
    exact ⟨raw, hraw, by rw [href, hid]; rfl⟩

/-- The one pending entry that a join takes its ref from. -/
theorem pending_of_corroborated {rows : List RawOrder} {raw : RawOrder} {ref : Bytes}
    (h : st.corroborated rows raw = some ref) :
    ∃ p ∈ st.pending, p.clientRef = ref ∧ p.attrKey = raw.attrKey
      ∧ ∀ p' ∈ st.pending, p'.attrKey = raw.attrKey → p' = p := by
  obtain ⟨-, p, hp, href⟩ := corroborated_eq_some_iff.mp h
  have hmem : ∀ p', p' = p ↔ p' ∈ st.pending ∧ p'.attrKey ≠ [] ∧ p'.attrKey = raw.attrKey := by
    intro p'
    rw [← List.mem_singleton, ← hp, List.mem_filter, Bool.and_eq_true, decide_eq_true_eq,
      decide_eq_true_eq]
  obtain ⟨hpending, hne, hkey⟩ := (hmem p).mp rfl
  exact ⟨p, hpending, href, hkey,
    fun p' hp' hkey' => (hmem p').mpr ⟨hp', by rw [hkey', ← hkey]; exact hne, hkey'⟩⟩

/-- Two rows do not join one ref. -/
theorem Sound.joined_once (h : Sound s) {rows : List RawOrder} {raw raw' : RawOrder} {ref : Bytes}
    (hraw : raw ∈ rows) (hraw' : raw' ∈ rows)
    (href : s.adapter.corroborated rows raw = some ref)
    (href' : s.adapter.corroborated rows raw' = some ref) : raw = raw' := by
  obtain ⟨p, hp, hpRef, hpKey, -⟩ := pending_of_corroborated href
  obtain ⟨p', hp', hpRef', hpKey', -⟩ := pending_of_corroborated href'
  -- the ref has one entry, so the rows have one key
  obtain rfl := List.inj_on_of_nodup_map h.pendingOnce hp hp' (hpRef.trans hpRef'.symm)
  have hkey : raw.attrKey = raw'.attrKey := hpKey.symm.trans hpKey'
  obtain ⟨⟨hfree, -, hone⟩, -⟩ := corroborated_eq_some_iff.mp href
  obtain ⟨⟨hfree', -, -⟩, -⟩ := corroborated_eq_some_iff.mp href'
  have hmem : raw' ∈ rows.filter fun row =>
      s.adapter.refForId row.orderId = [] && row.attrKey = raw.attrKey :=
    List.mem_filter.mpr ⟨hraw', by simp [hfree', hkey]⟩
  rw [filter_of_unmatchedRows hraw hfree hone] at hmem
  exact (List.mem_singleton.mp hmem).symm

/-- **What a read binds may be bound.** -/
theorem Sound.bindable_joins (h : Sound s) (hlawful : s.Lawful (.fetchOrders answer)) :
    Bindable { s with seen := bookIds answer ++ s.seen } (s.adapter.joins (book answer)) := by
  obtain ⟨hnodup, hnamed⟩ := hlawful
  have hdistinct : (book answer).Pairwise fun raw raw' => raw.orderId ≠ raw'.orderId :=
    List.pairwise_map.mp hnodup
  constructor
  case named =>
    intro pair hpair
    obtain ⟨raw, hraw, hid, href⟩ := mem_joins.mp hpair
    obtain ⟨p, hp, hpRef, -⟩ := pending_of_corroborated href
    refine ⟨fun hempty => hnamed ?_, hpRef ▸ (h.pending p hp).1⟩
    rw [← hempty, ← hid]
    exact List.mem_map_of_mem hraw
  case free =>
    intro pair hpair
    obtain ⟨raw, hraw, hid, href⟩ := mem_joins.mp hpair
    have hmem : raw.orderId ∈ bookIds answer := List.mem_map_of_mem hraw
    have hne : raw.orderId ≠ [] := fun hempty => hnamed (hempty ▸ hmem)
    obtain ⟨⟨hfree, -, -⟩, -⟩ := corroborated_eq_some_iff.mp href
    rw [← hid]
    exact ⟨List.mem_append_left _ hmem, (h.refForId_eq_nil_iff hne).mp hfree⟩
  case eligible =>
    intro pair hpair
    obtain ⟨raw, hraw, hid, href⟩ := mem_joins.mp hpair
    obtain ⟨p, hp, hpRef, -⟩ := pending_of_corroborated href
    have hpending : pair.2 ∈ s.adapter.pending.map (·.clientRef) := hpRef ▸ List.mem_map_of_mem hp
    exact ⟨h.mem_placedRefs_of_pending hpending, hpRef ▸ (h.pending p hp).2.1,
      fun hrejected => (h.rejected _ hrejected).2.2 hpending⟩
  case keys =>
    rw [List.Nodup, List.pairwise_map, KotakBrokerAdapter.joins, List.pairwise_filterMap]
    refine hdistinct.imp fun {raw raw'} hne pair hpair pair' hpair' => ?_
    obtain ⟨ref, -, rfl⟩ := Option.map_eq_some_iff.mp hpair
    obtain ⟨ref', -, rfl⟩ := Option.map_eq_some_iff.mp hpair'
    exact hne
  case names =>
    rw [List.Nodup, List.pairwise_map, KotakBrokerAdapter.joins, List.pairwise_filterMap]
    refine hdistinct.imp_of_mem fun {raw raw'} hraw hraw' hne pair hpair pair' hpair' => ?_
    obtain ⟨ref, href, rfl⟩ := Option.map_eq_some_iff.mp hpair
    obtain ⟨ref', href', rfl⟩ := Option.map_eq_some_iff.mp hpair'
    rintro rfl
    exact hne (congrArg RawOrder.orderId (h.joined_once hraw hraw' href href'))

theorem Sound.attach (h : Sound s) {more : List (Bytes × Bytes)}
    (hmore : ∀ orderId ref, (orderId, ref) ∈ more → s.adapter.idToRef orderId = some ref) :
    Sound { s with attached := more ++ s.attached } :=
  { h with
    attached := fun orderId ref hmem =>
      (List.mem_append.mp hmem).elim (hmore orderId ref) (h.attached orderId ref) }

theorem idToRef_of_fetchOrders (h : Sound s) (hlawful : s.Lawful (.fetchOrders answer)) :
    (s.adapter.fetchOrders answer).2.idToRef
      = bindAll s.adapter.idToRef (s.adapter.joins (book answer)) := by
  rw [fetchOrders_adapter]
  exact (anchorAll_spec s.adapter (h.bindable_joins hlawful).named).1

/-- A row that goes out with a ref is bound to it. -/
theorem bound_of_attached (h : Sound s) (hlawful : s.Lawful (.fetchOrders answer))
    {orderId ref : Bytes} (hmem : (orderId, ref) ∈ attachments (s.adapter.fetchOrders answer).1) :
    (s.adapter.fetchOrders answer).2.idToRef orderId = some ref := by
  obtain ⟨hne, raw, hraw, rfl, hrowRef⟩ := mem_attachments.mp hmem
  have hbindable := h.bindable_joins hlawful
  rw [idToRef_of_fetchOrders h hlawful]
  unfold KotakBrokerAdapter.rowRef at hrowRef
  split_ifs at hrowRef with hknown
  · -- rung 1: it was bound before
    have hbound : s.adapter.idToRef raw.orderId = some ref := by
      unfold KotakBrokerAdapter.refForId at hknown hrowRef
      split_ifs at hknown hrowRef
      · exact absurd rfl hknown
      · cases hid : s.adapter.idToRef raw.orderId with
        | none =>
          rw [hid] at hrowRef
          exact absurd hrowRef.symm hne
        | some bound =>
          rw [hid] at hrowRef
          exact congrArg some hrowRef
    exact (hbindable.fresh (h.see (List.subset_append_right _ _))).grows hbound
  · -- rung 2: it is a join
    refine bindAll_of_mem hbindable.keys (mem_joins.mpr ⟨raw, hraw, rfl, ?_⟩)
    cases hjoin : s.adapter.corroborated (book answer) raw with
    | none =>
      rw [hjoin] at hrowRef
      exact absurd hrowRef.symm hne
    | some joined =>
      rw [hjoin] at hrowRef
      exact congrArg some hrowRef

theorem sound_fetchOrders (h : Sound s) (hlawful : s.Lawful (.fetchOrders answer)) :
    Sound (s.step (.fetchOrders answer)) := by
  have hbound := (h.see (List.subset_append_right (bookIds answer) s.seen)).anchorAll
    (h.bindable_joins hlawful)
  dsimp only at hbound
  rw [← fetchOrders_adapter] at hbound
  exact hbound.attach fun orderId ref hmem => bound_of_attached h hlawful hmem

/-- **A call keeps the invariant.** -/
theorem sound_step (s : Correlation) (call : AdapterCall) (h : Sound s) (hlawful : s.Lawful call) :
    Sound (s.step call) := by
  cases call with
  | place intent answer => exact sound_place h hlawful
  | modify brokerOrderId intent answer => exact sound_modify h hlawful
  | fetchOrders answer => exact sound_fetchOrders h hlawful

/-! ## Bindings stay -/

/-- Anchoring changes the ref of its own id only. -/
theorem anchor_keeps {orderId ref : Bytes} {orderId' ref' : Bytes}
    (hbound : st.idToRef orderId' = some ref')
    (h : orderId' = orderId → ref' = ref) :
    (st.anchor orderId ref).idToRef orderId' = some ref' := by
  unfold KotakBrokerAdapter.anchor
  split_ifs
  · exact hbound
  · rw [dropPending_idToRef]
    dsimp only
    by_cases heq : orderId' = orderId
    · rw [heq, Function.update_self, h heq]
    · rw [Function.update_of_ne heq, hbound]

/-- **A call keeps every binding.** -/
theorem step_keeps (h : Sound s) {call : AdapterCall} (hlawful : s.Lawful call)
    {orderId ref : Bytes} (hbound : s.adapter.idToRef orderId = some ref) :
    (s.step call).adapter.idToRef orderId = some ref := by
  cases call with
  | place intent answer =>
    show (s.adapter.place (fun _ => answer) intent).2.idToRef orderId = some ref
    unfold KotakBrokerAdapter.place
    cases answer with
    | error error => dsimp only; split_ifs <;> simpa using hbound
    | ok payload =>
      dsimp only
      split_ifs with hid
      · simpa using hbound
      · refine anchor_keeps (by simpa using hbound) ?_
        -- the id of the ack is new
        rintro rfl
        have hunseen := hlawful.2 (extractOrderId payload) (by simp [ackedIds, hid])
        exact absurd (h.bound _ _ hbound).1 hunseen
  | modify brokerOrderId intent answer =>
    show (s.adapter.modify (fun _ => answer) brokerOrderId intent).2.idToRef orderId = some ref
    unfold KotakBrokerAdapter.modify
    cases answer with
    | error error => dsimp only; split_ifs <;> simpa using hbound
    | ok payload =>
      refine anchor_keeps (by simpa using hbound) ?_
      rintro rfl
      -- the id of the ack is the one that was modified
      split_ifs at hbound with hid
      · exact Option.some.inj (hbound.symm.trans hlawful.1)
      · have hechoed := hlawful.2 (extractOrderId payload) (by simp [ackedIds, hid])
        rw [hechoed] at hbound
        exact Option.some.inj (hbound.symm.trans hlawful.1)
  | fetchOrders answer =>
    show (s.adapter.fetchOrders answer).2.idToRef orderId = some ref
    rw [idToRef_of_fetchOrders h hlawful]
    exact ((h.bindable_joins hlawful).fresh (h.see (List.subset_append_right _ _))).grows hbound

/-! ## What the attribute rung joins -/

/-- An intent and a row of one shape: the row is the only one in the book that has this shape and
is not bound, the intent is the only pending one that has it. -/
def Joined (s : Correlation) (rows : List RawOrder) (orderId ref : Bytes) : Prop :=
  ∃ raw intent, raw.orderId = orderId ∧ intent.clientRef = ref
    ∧ raw.symbol = intent.symbol ∧ raw.side = sideCode intent.side
    ∧ raw.quantity = some intent.quantity.toInt
    ∧ rows.filter (fun row => s.adapter.idToRef row.orderId = none ∧ row.shape = raw.shape) = [raw]
    ∧ s.placed.filter (fun other => other.clientRef ∈ s.adapter.pending.map (·.clientRef)
        ∧ intentShape other = raw.shape) = [intent]

/-- The pending entry of a placed intent is its own. -/
theorem Sound.entry_eq (h : Sound s) {intent : OrderIntent} (hintent : intent ∈ s.placed)
    {p : PendingIntent} (hp : p ∈ s.adapter.pending) (href : p.clientRef = intent.clientRef) :
    p = pendingEntry intent := by
  obtain ⟨-, -, placed, hplaced, rfl⟩ := h.pending p hp
  rw [List.inj_on_of_nodup_map h.placedOnce hplaced hintent href]

/-- **What a new binding of a read joins.** -/
theorem joined_of_fetchOrders (h : Sound s) (hlawful : s.Lawful (.fetchOrders answer))
    {orderId ref : Bytes} (hbefore : s.adapter.idToRef orderId ≠ some ref)
    (hafter : (s.adapter.fetchOrders answer).2.idToRef orderId = some ref) :
    Joined s (book answer) orderId ref := by
  rw [idToRef_of_fetchOrders h hlawful] at hafter
  have hjoin := (bindAll_cases hafter).resolve_left hbefore
  obtain ⟨raw, hraw, rfl, href⟩ := mem_joins.mp hjoin
  obtain ⟨⟨hfree, -, hone⟩, -⟩ := corroborated_eq_some_iff.mp href
  obtain ⟨p, hp, hpRef, hpKey, hsole⟩ := pending_of_corroborated href
  obtain ⟨-, -, intent, hintent, rfl⟩ := h.pending p hp
  have hshape : raw.shape = intentShape intent := (shape_eq_iff hraw intent).mpr hpKey.symm
  have hparts := hshape
  rw [RawOrder.shape, intentShape, Shape.mk.injEq] at hparts
  refine ⟨raw, intent, rfl, hpRef, hparts.1, hparts.2.1, hparts.2.2, ?_, ?_⟩
  · -- the rows that the rung counts are the unbound ones of this shape
    rw [← filter_of_unmatchedRows hraw hfree hone]
    refine List.filter_congr fun row hrow => Bool.eq_iff_iff.mpr ?_
    have hne : row.orderId ≠ [] := fun hempty =>
      hlawful.2 (hempty ▸ List.mem_map_of_mem hrow)
    rw [Bool.and_eq_true, decide_eq_true_eq, decide_eq_true_eq, decide_eq_true_eq, hshape,
      shape_eq_iff hrow intent, h.refForId_eq_nil_iff hne, ← hpKey]
    rfl
  · -- the placed intents that the rung chooses from
    have honly : ∀ other, other ∈ s.placed.filter (fun other =>
        other.clientRef ∈ s.adapter.pending.map (·.clientRef) ∧ intentShape other = raw.shape)
        ↔ other ∈ [intent] := by
      intro other
      rw [List.mem_filter, decide_eq_true_eq, List.mem_singleton]
      constructor
      · rintro ⟨hother, hpending, hsame⟩
        obtain ⟨p', hp', hpRef'⟩ := List.mem_map.mp hpending
        obtain rfl := h.entry_eq hother hp' hpRef'
        have hkey : (pendingEntry other).attrKey = raw.attrKey := congrArg Shape.key hsame
        exact List.inj_on_of_nodup_map h.placedOnce hother hintent
          (congrArg PendingIntent.clientRef (hsole _ hp' hkey))
      · rintro rfl
        exact ⟨hintent, List.mem_map.mpr ⟨_, hp, rfl⟩, hshape.symm⟩
    have hnodup : s.placed.Nodup := List.Nodup.of_map _ h.placedOnce
    exact List.perm_singleton.mp
      ((List.perm_ext_iff_of_nodup (hnodup.filter _) (List.nodup_singleton _)).mpr honly)

/-! ## Whole runs -/

theorem sound_after {calls : List AdapterCall}
    (h : Along Correlation.step Correlation.Lawful .fresh calls) : Sound (.after calls) :=
  run_keeps (I := Sound) sound_step sound_fresh h

/-- A binding of a sound state stays over a lawful run. -/
theorem run_binds {s : Correlation} {calls : List AdapterCall} (hs : Sound s)
    (h : Along Correlation.step Correlation.Lawful s calls) {orderId ref : Bytes}
    (hbound : s.adapter.idToRef orderId = some ref) :
    (run Correlation.step s calls).adapter.idToRef orderId = some ref := by
  have hkeeps := run_keeps (I := fun s => Sound s ∧ s.adapter.idToRef orderId = some ref)
    (fun s call hs hlawful => ⟨sound_step s call hs.1 hlawful, step_keeps hs.1 hlawful hs.2⟩)
    ⟨hs, hbound⟩ h
  exact hkeeps.2

/-- **The correlation is sound over whole runs.** In a lawful run of a new adapter

* an id that is bound stays bound to its ref, and so does a row that goes out with one,
* no ref is bound to two ids, at whatever times,
* what a read binds are a row and an intent of one shape, each the only one there was of it,
* a ref that was definitively rejected is bound to no id and goes out with no row. -/
theorem correlation_sound {calls : List AdapterCall}
    (h : Along Correlation.step Correlation.Lawful .fresh calls) :
    (∀ front, front <+: calls → ∀ orderId ref,
        (Correlation.after front).adapter.idToRef orderId = some ref
          ∨ (orderId, ref) ∈ (Correlation.after front).attached →
        (Correlation.after calls).adapter.idToRef orderId = some ref)
      ∧ (∀ front front', front <+: calls → front' <+: calls → ∀ orderId orderId' ref,
        (Correlation.after front).adapter.idToRef orderId = some ref →
        (Correlation.after front').adapter.idToRef orderId' = some ref → orderId = orderId')
      ∧ (∀ front answer, front ++ [.fetchOrders answer] <+: calls → ∀ orderId ref,
        (Correlation.after front).adapter.idToRef orderId ≠ some ref →
        (Correlation.after (front ++ [.fetchOrders answer])).adapter.idToRef orderId = some ref →
        Joined (.after front) (book answer) orderId ref)
      ∧ ∀ ref ∈ (Correlation.after calls).rejected, ∀ orderId,
        (Correlation.after calls).adapter.idToRef orderId ≠ some ref
          ∧ (orderId, ref) ∉ (Correlation.after calls).attached := by
  have hsound := sound_after h
  have hpart : ∀ front, front <+: calls →
      Along Correlation.step Correlation.Lawful .fresh front ∧ ∃ back, calls = front ++ back
        ∧ Along Correlation.step Correlation.Lawful (.after front) back := by
    rintro front ⟨back, rfl⟩
    obtain ⟨hfront, hback⟩ := along_append.mp h
    exact ⟨hfront, back, rfl, hback⟩
  have hstays : ∀ front, front <+: calls → ∀ orderId ref,
      (Correlation.after front).adapter.idToRef orderId = some ref →
      (Correlation.after calls).adapter.idToRef orderId = some ref := by
    intro front hprefix orderId ref hbound
    obtain ⟨hfront, back, hcalls, hback⟩ := hpart front hprefix
    rw [hcalls, Correlation.after, run_append]
    exact run_binds (sound_after hfront) hback hbound
  refine ⟨?_, ?_, ?_, ?_⟩
  · intro front hprefix orderId ref hbound
    obtain ⟨hfront, -⟩ := hpart front hprefix
    exact hstays front hprefix orderId ref
      (hbound.elim id ((sound_after hfront).attached orderId ref))
  · intro front front' hprefix hprefix' orderId orderId' ref hbound hbound'
    exact hsound.single orderId orderId' ref (hstays front hprefix orderId ref hbound)
      (hstays front' hprefix' orderId' ref hbound')
  · intro front answer hprefix orderId ref hbefore hafter
    obtain ⟨hread, -⟩ := hpart _ hprefix
    obtain ⟨hfront, hlast⟩ := along_append.mp hread
    rw [Correlation.after, run_concat] at hafter
    exact joined_of_fetchOrders (sound_after hfront) (along_cons.mp hlast).1 hbefore hafter
  · intro ref href orderId
    obtain ⟨-, hanchored, -⟩ := hsound.rejected ref href
    have hunbound : (Correlation.after calls).adapter.idToRef orderId ≠ some ref :=
      fun hbound => hanchored (hsound.bound orderId ref hbound).2
    exact ⟨hunbound, fun hmem => hunbound (hsound.attached orderId ref hmem)⟩

/-! ### A lost ack, found by its shape -/

def buyFifty (clientRef : String) : OrderIntent :=
  { blankIntent with clientRef := ascii clientRef, symbol := ascii "INFY", quantity := 50 }

/-- A row of fifty to buy, under the given id. -/
def rowOfFifty (orderId : String) : Json.Value :=
  .object [(ascii "nOrdNo", .string (ascii orderId)), (ascii "trdSym", .string (ascii "INFY")),
    (ascii "trnsTp", .string (ascii "BUY")), (ascii "qty", .string (ascii "50"))]

def ackOf (orderId : String) : Json.Value :=
  .object [(ascii "nOrdNo", .string (ascii orderId))]

/-- The ack of `a` is lost and `b` is rejected; the book shows one order of their shape. Then `c`
is placed, `a` is modified, and a stranger's order of the shape comes in. -/
def lostAckCalls : List AdapterCall :=
  [.place (buyFifty "a") (.error (Errors.makeError .timeout [])),
    .place (buyFifty "b") (.error (Errors.makeError .validation [])),
    .fetchOrders (.ok (.array [rowOfFifty "7"])),
    .place (buyFifty "c") (.ok (ackOf "8")),
    .modify (ascii "7") (buyFifty "a") (.ok (ackOf "7")),
    .fetchOrders (.ok (.array [rowOfFifty "7", rowOfFifty "8", rowOfFifty "9"]))]

/-- The row is joined to `a`, and nothing goes out for `b`. -/
theorem correlation_sound_lostAck :
    Joined (.after (lostAckCalls.take 2)) (book (.ok (.array [rowOfFifty "7"]))) (ascii "7")
        (ascii "a")
      ∧ (Correlation.after lostAckCalls).attached
        = [(ascii "7", ascii "a"), (ascii "8", ascii "c"), (ascii "7", ascii "a")]
      ∧ ∀ orderId, (orderId, ascii "b") ∉ (Correlation.after lostAckCalls).attached := by
  have hlawful : Along Correlation.step Correlation.Lawful .fresh lostAckCalls := by
    decide +kernel
  obtain ⟨-, -, hjoined, hrejected⟩ := correlation_sound hlawful
  refine ⟨?_, by decide +kernel, fun orderId => (hrejected _ (by decide +kernel) orderId).2⟩
  exact hjoined (lostAckCalls.take 2) _ ⟨lostAckCalls.drop 3, rfl⟩ _ _ (by decide +kernel)
    (by decide +kernel)

end BrokerExec.Adapters.Kotak

import Mathlib.Algebra.Order.BigOperators.Group.List
import BrokerExec.Adapters.Kotak.SquareOff
import BrokerExec.Lib.Run

/-!
# What the exits of one order add up to on Kotak

A run of flattens of one order in one process, with the fills of the order and of its exits. An
exit whose ack was lost is only known by its attributes, and the second rung passes over a row
that it cannot read.

* **`exits_within_fill`** — as long as an exit that is live or has traded stands out on every book
  a flatten acts on, the exits never exceed the fill;
* **`exceeds_of_hidden`** — a flatten on any other book exceeds it, once its exit is accepted;
* **`hidden_exit_doubled`** — an exit behind a garbled price is exited again.
-/

namespace BrokerExec.Adapters.Kotak

open BrokerExec.Domain (Price Side)

/-! ## The market -/

/-- The order that is flattened. -/
structure ParentOrder where
  id : Bytes
  symbol : Bytes
  side : Side

def ParentOrder.exitSide (parent : ParentOrder) : Side :=
  match parent.side with
  | .sell => .buy
  | .buy => .sell

theorem exitSideFor_sideCode (parent : ParentOrder) :
    exitSideFor (sideCode parent.side) = some parent.exitSide := by
  unfold ParentOrder.exitSide
  cases parent.side <;> decide

/-- An exit at the broker: the size it was sent with, what still works and what has traded. -/
structure Exit where
  id : Bytes
  quantity : Int
  working : Int
  executed : Int

def Exit.exposure (exit : Exit) : Int := exit.working + exit.executed

def Exit.fill (exit : Exit) (n : Nat) : Exit :=
  { exit with
    working := exit.working - min (n : Int) exit.working
    executed := exit.executed + min (n : Int) exit.working }

/-- Rejected, cancelled or purged; what has traded stays. -/
def Exit.die (exit : Exit) : Exit := { exit with working := 0 }

structure Market where
  adapter : KotakBrokerAdapter
  parentFilled : Int
  exits : List Exit

/-- What still works or has traded, over all exits. -/
def Market.exposure (market : Market) : Int := (market.exits.map Exit.exposure).sum

/-- The order or one of its exits trades, an exit dies, or the process flattens the order:
`acceptedAs` is the id that the broker gives the exit, whatever the ack says. -/
inductive MarketEvent where
  | parentFills (n : Nat)
  | exitFills (exitId : Bytes) (n : Nat)
  | exitDies (exitId : Bytes)
  | squareOff (lower upper : Option Price) (answers : Answers) (acceptedAs : Option Bytes)

/-- The exits that the broker accepts out of a list of calls. -/
def acceptedExits (acceptedAs : Option Bytes) (calls : KotakCalls) : List Exit :=
  acceptedAs.toList.flatMap fun exitId =>
    (placedOrders calls).map fun params => ⟨exitId, params.qt.toInt, params.qt.toInt, 0⟩

def Market.onExit (market : Market) (exitId : Bytes) (move : Exit → Exit) : Market :=
  { market with
    exits := market.exits.map fun exit => if exit.id = exitId then move exit else exit }

def Market.step (parent : ParentOrder) (market : Market) : MarketEvent → Market
  | .parentFills n => { market with parentFilled := market.parentFilled + n }
  | .exitFills exitId n => market.onExit exitId (·.fill n)
  | .exitDies exitId => market.onExit exitId Exit.die
  | .squareOff lower upper answers acceptedAs =>
    let flattened := market.adapter.squareOffBanded parent.id lower upper answers
    { market with
      adapter := flattened.adapter
      exits := market.exits ++ acceptedExits acceptedAs flattened.calls }

/-! ## The broker -/

/-- A book with the order and its exits only, whose fields are true where they can be read. The
statuses and the other numbers may say anything. -/
structure BookShows (parent : ParentOrder) (market : Market) (rows : List RawOrder) : Prop where
  parentRow : ∀ raw ∈ rows, raw.orderId = parent.id →
    raw.symbol = parent.symbol ∧ raw.side = sideCode parent.side
      ∧ ∀ filled ∈ raw.filled, filled = market.parentFilled
  exitRow : ∀ raw ∈ rows, ∀ exit ∈ market.exits, raw.orderId = exit.id →
    raw.symbol = parent.symbol ∧ raw.side = sideCode parent.exitSide
      ∧ ∀ quantity ∈ raw.quantity, quantity = exit.quantity
  listed : ∀ exit ∈ market.exits, ∃ raw ∈ rows, raw.orderId = exit.id
  only : ∀ raw ∈ rows, raw.orderId = parent.id ∨ ∃ exit ∈ market.exits, raw.orderId = exit.id

instance (parent : ParentOrder) (market : Market) (rows : List RawOrder) :
    Decidable (BookShows parent market rows) :=
  decidable_of_iff
    ((∀ raw ∈ rows, raw.orderId = parent.id →
        raw.symbol = parent.symbol ∧ raw.side = sideCode parent.side
          ∧ ∀ filled ∈ raw.filled, filled = market.parentFilled)
      ∧ (∀ raw ∈ rows, ∀ exit ∈ market.exits, raw.orderId = exit.id →
        raw.symbol = parent.symbol ∧ raw.side = sideCode parent.exitSide
          ∧ ∀ quantity ∈ raw.quantity, quantity = exit.quantity)
      ∧ (∀ exit ∈ market.exits, ∃ raw ∈ rows, raw.orderId = exit.id)
      ∧ ∀ raw ∈ rows, raw.orderId = parent.id ∨ ∃ exit ∈ market.exits, raw.orderId = exit.id)
    ⟨fun h => ⟨h.1, h.2.1, h.2.2.1, h.2.2.2⟩, fun h => ⟨h.parentRow, h.exitRow, h.listed, h.only⟩⟩

/-- What the broker keeps to: an exit gets a new id, an ack that names an order names the exit, and
the books are true. -/
def BrokerTruthful (parent : ParentOrder) (market : Market) : MarketEvent → Prop
  | .squareOff _ _ answers acceptedAs =>
    (∀ exitId, acceptedAs = some exitId →
        exitId ≠ [] ∧ exitId ≠ parent.id ∧ market.adapter.idToRef exitId = none
          ∧ ∀ exit ∈ market.exits, exit.id ≠ exitId)
      ∧ (∀ data, answers.placeOrder = .ok data → extractOrderId data ≠ [] →
        acceptedAs = some (extractOrderId data))
      ∧ ∀ elements, answers.orders = .ok (.array elements) →
        BookShows parent market (bookRows elements)
  | _ => True

/-- The ladder can see the row: by its id, or as a well-formed row with a quantity and a status in
force. -/
def StandsOut (parent : ParentOrder) (market : Market) (raw : RawOrder) : Prop :=
  market.adapter.refForId raw.orderId = market.adapter.exitRef parent.id
    ∨ raw.malformed = false ∧ raw.quantity ≠ none ∧ inForce raw = true

instance (parent : ParentOrder) (market : Market) (raw : RawOrder) :
    Decidable (StandsOut parent market raw) := by
  unfold StandsOut
  infer_instance

/-- When a flatten gets past the cancel and some exit is live or has traded, then the row of an
exit stands out. -/
def ExitStandsOut (parent : ParentOrder) (market : Market) : MarketEvent → Prop
  | .squareOff _ _ answers _ =>
    ∀ seen, Cleared parent.id (market.adapter.assess parent.id) Assessment.terminal answers seen →
      (∃ exit ∈ market.exits, 0 < exit.exposure) →
        ∃ exit ∈ market.exits, ∃ raw ∈ seen.rows, raw.orderId = exit.id
          ∧ StandsOut parent market raw
  | _ => True

/-! ## The invariant -/

/-- The exits are within the fill, each with an id of its own that is bound to nothing else. -/
structure WithinFill (parent : ParentOrder) (market : Market) : Prop where
  named : ∀ exit ∈ market.exits, exit.id ≠ [] ∧ exit.id ≠ parent.id
  bound : ∀ exit ∈ market.exits, market.adapter.refForId exit.id = []
    ∨ market.adapter.refForId exit.id = market.adapter.exitRef parent.id
  sized : ∀ exit ∈ market.exits, 0 < exit.quantity ∧ exit.quantity ≤ market.parentFilled
  parts : ∀ exit ∈ market.exits, 0 ≤ exit.working ∧ 0 ≤ exit.executed
  within : market.exposure ≤ market.parentFilled

variable {parent : ParentOrder} {market : Market}

/-- A move of an exit that lets go of exposure keeps the invariant. -/
theorem WithinFill.onExit (h : WithinFill parent market) (exitId : Bytes) {move : Exit → Exit}
    (hid : ∀ exit, (move exit).id = exit.id)
    (hquantity : ∀ exit, (move exit).quantity = exit.quantity)
    (hparts : ∀ exit, 0 ≤ exit.working → 0 ≤ exit.executed →
      0 ≤ (move exit).working ∧ 0 ≤ (move exit).executed)
    (hexposure : ∀ exit, 0 ≤ exit.working → (move exit).exposure ≤ exit.exposure) :
    WithinFill parent (market.onExit exitId move) := by
  -- what the moved exit and the others have, all of them have
  have hforall : ∀ {P : Exit → Prop}, (∀ exit ∈ market.exits, P exit) →
      (∀ exit ∈ market.exits, P exit → P (move exit)) →
        ∀ exit ∈ (market.onExit exitId move).exits, P exit := by
    intro P hall hmove exit hexit
    obtain ⟨before, hbefore, rfl⟩ := List.mem_map.mp hexit
    split_ifs
    · exact hmove before hbefore (hall before hbefore)
    · exact hall before hbefore
  refine ⟨hforall h.named fun exit _ => ?_, hforall h.bound fun exit _ => ?_,
    hforall h.sized fun exit _ => ?_, hforall h.parts fun exit _ hp => hparts exit hp.1 hp.2, ?_⟩
  · rw [hid]
    exact id
  · rw [hid]
    exact id
  · rw [hquantity]
    exact id
  · refine le_trans ?_ h.within
    unfold Market.exposure Market.onExit
    rw [List.map_map]
    -- no exit gains exposure, so the sum does not
    refine List.sum_le_sum fun exit hexit => ?_
    simp only [Function.comp_apply]
    split_ifs
    · exact hexposure exit (h.parts exit hexit).1
    · exact le_rfl

/-- An adapter that knows the order and its exits as before keeps the invariant. -/
theorem WithinFill.adapter (h : WithinFill parent market) {st : KotakBrokerAdapter}
    (hparent : st.refForId parent.id = market.adapter.refForId parent.id)
    (hrefs : ∀ exit ∈ market.exits, st.refForId exit.id = market.adapter.refForId exit.id) :
    WithinFill parent { market with adapter := st } := by
  have hexitRef : st.exitRef parent.id = market.adapter.exitRef parent.id := by
    unfold KotakBrokerAdapter.exitRef
    rw [hparent]
  refine ⟨h.named, fun exit hexit => ?_, h.sized, h.parts, h.within⟩
  rw [hrefs exit hexit, hexitRef]
  exact h.bound exit hexit

/-- A new exit of the size of the fill keeps it when nothing else is live or has traded. -/
theorem WithinFill.add (h : WithinFill parent market) (hzero : market.exposure = 0)
    (hpositive : 0 < market.parentFilled) {exitId : Bytes}
    (hnamed : exitId ≠ [] ∧ exitId ≠ parent.id)
    (hbound : market.adapter.refForId exitId = []
      ∨ market.adapter.refForId exitId = market.adapter.exitRef parent.id) :
    WithinFill parent { market with
      exits := market.exits ++ [⟨exitId, market.parentFilled, market.parentFilled, 0⟩] } := by
  refine ⟨?_, ?_, ?_, ?_, ?_⟩
  · exact List.forall_mem_append.mpr ⟨h.named, by simpa using hnamed⟩
  · exact List.forall_mem_append.mpr ⟨h.bound, by simpa using hbound⟩
  · exact List.forall_mem_append.mpr ⟨h.sized, by simpa using hpositive⟩
  · exact List.forall_mem_append.mpr ⟨h.parts, by simpa using hpositive.le⟩
  · unfold Market.exposure at hzero ⊢
    simp [hzero, Exit.exposure]

/-! ## One flatten -/

/-- A flatten of a market within its fill that meets a book where an exit stands out places
nothing. -/
theorem findExit_of_standsOut (h : WithinFill parent market) {seen : Assessment}
    (hshows : BookShows parent market seen.rows) (hsymbol : seen.parent.symbol = parent.symbol)
    (hqty : seen.exitQty = market.parentFilled) {exit : Exit} (hexit : exit ∈ market.exits)
    {raw : RawOrder} (hraw : raw ∈ seen.rows) (hid : raw.orderId = exit.id)
    (hstands : StandsOut parent market raw) :
    market.adapter.findExit parent.id (market.adapter.exitRef parent.id) parent.exitSide seen
      ≠ .ok none := by
  intro hnone
  obtain ⟨hanchored, hcandidates⟩ := findExit_none_iff.mp hnone
  obtain ⟨hidNe, hother⟩ := h.named exit hexit
  -- rung 1 by the id, rung 2 by the attributes
  rcases hstands with hbound | ⟨hreadable, hquantity, hforce⟩
  · have hfound := hanchored raw hraw
    simp [KotakBrokerAdapter.isAnchoredExit, hid, hidNe, hother, ← hbound] at hfound
  · obtain ⟨quantity, hquantity⟩ := Option.ne_none_iff_exists'.mp hquantity
    obtain ⟨hrawSymbol, hrawSide, htrue⟩ := hshows.exitRow raw hraw exit hexit hid
    obtain ⟨hpositive, hsize⟩ := h.sized exit hexit
    -- the row is true, so its quantity is the exit's and within the fill
    obtain rfl := htrue quantity hquantity
    have hbound := h.bound exit hexit
    have hfound := hcandidates raw hraw
    simp [KotakBrokerAdapter.isCandidate, hid, hidNe, hother, hreadable, hrawSymbol, hrawSide,
      hquantity, hforce, hsymbol, hqty, hpositive, hsize] at hfound
    exact hbound.elim hfound.1 hfound.2

/-- What a flatten past the cancel has read of the order is true. -/
theorem cleared_shows {answers : Answers} {seen : Assessment}
    (hbooks : ∀ elements, answers.orders = .ok (.array elements) →
      BookShows parent market (bookRows elements))
    (hcleared : Cleared parent.id (market.adapter.assess parent.id) Assessment.terminal answers
      seen) :
    BookShows parent market seen.rows ∧ seen.parent.symbol = parent.symbol
      ∧ seen.parent.side = sideCode parent.side ∧ seen.exitQty = market.parentFilled
      ∧ 0 ≤ seen.exitQty ∧ seen.exitQty ≤ Domain.kInt64Max := by
  obtain ⟨book, hread, hassess⟩ := hcleared.assessed
  obtain ⟨elements, total, rfl, hassessed⟩ := assess_ok_iff.mp hassess
  have hshows : BookShows parent market seen.rows := hassessed.rows ▸ hbooks elements hread
  have hrow : seen.parent ∈ seen.rows :=
    hassessed.rows ▸ List.mem_of_find?_eq_some hassessed.found
  have hid : seen.parent.orderId = parent.id := by
    have hfound := List.find?_some hassessed.found
    simpa [RawOrder.isParent] using (Bool.and_eq_true_iff.mp hfound).2
  obtain ⟨hsymbol, hside, hfilled⟩ := hshows.parentRow seen.parent hrow hid
  exact ⟨hshows, hsymbol, hside, hfilled _ hassessed.filled, hassessed.exitQty_bound⟩

/-- The exit that a flatten gets accepted, if it places one. -/
theorem acceptedExits_of_placeless (acceptedAs : Option Bytes) {calls : KotakCalls}
    (h : Placeless calls) : acceptedExits acceptedAs calls = [] := by
  simp [acceptedExits, placedOrders_of_placeless h]

theorem acceptedExits_placed (acceptedAs : Option Bytes) {calls : KotakCalls} (h : Placeless calls)
    (params : PlaceParams) :
    acceptedExits acceptedAs (calls ++ [.placeOrder params])
      = acceptedAs.toList.map fun exitId => ⟨exitId, params.qt.toInt, params.qt.toInt, 0⟩ := by
  cases acceptedAs <;> simp [acceptedExits, placedOrders_concat h]

/-- The step of a flatten that places: an accepted exit has the size of the fill. -/
theorem step_sent (lower upper : Option Price) {answers : Answers} {seen : Assessment}
    (acceptedAs : Option Bytes)
    (hcleared : Cleared parent.id (market.adapter.assess parent.id) Assessment.terminal answers
      seen)
    (hqty : seen.exitQty = market.parentFilled)
    (hbound : 0 ≤ seen.exitQty ∧ seen.exitQty ≤ Domain.kInt64Max) (hpositive : 0 < seen.exitQty)
    (hside : exitSideFor seen.parent.side = some parent.exitSide)
    (hfound : market.adapter.findExit parent.id (market.adapter.exitRef parent.id) parent.exitSide
      seen = .ok none) :
    ∃ exit params calls, exit.clientRef = market.adapter.exitRef parent.id
      ∧ market.step parent (.squareOff lower upper answers acceptedAs)
        = { adapter := (market.adapter.placeExit exit params calls answers.placeOrder).adapter
            parentFilled := market.parentFilled
            exits := market.exits ++ acceptedAs.toList.map
              fun exitId => ⟨exitId, market.parentFilled, market.parentFilled, 0⟩ } := by
  refine ⟨exitIntent (market.adapter.exitRef parent.id) seen.parent parent.exitSide seen.exitQty
    lower upper, exitParams (exitIntent (market.adapter.exitRef parent.id) seen.parent
      parent.exitSide seen.exitQty lower upper) seen.parent,
    clearing PlaceParams (buildCancelParams parent.id) seen.terminal, rfl, ?_⟩
  have hquantity : (exitParams (exitIntent (market.adapter.exitRef parent.id) seen.parent
      parent.exitSide seen.exitQty lower upper) seen.parent).qt.toInt = market.parentFilled := by
    rw [← hqty]
    exact toInt_ofInt_fill hbound.1 hbound.2
  have hsent := squareOffBanded_sent lower upper hcleared hpositive hside hfound
  simp only [Market.step, hsent, placeExit_calls,
    acceptedExits_placed acceptedAs (clearing_placeless _ _), hquantity]

/-- Exits without exposure add up to nothing. -/
theorem exposure_eq_zero (h : WithinFill parent market)
    (hnone : ¬ ∃ exit ∈ market.exits, 0 < exit.exposure) : market.exposure = 0 := by
  refine List.sum_eq_zero fun exposure hexposure => ?_
  obtain ⟨exit, hexit, rfl⟩ := List.mem_map.mp hexposure
  have hparts := h.parts exit hexit
  have hle : ¬ 0 < exit.exposure := fun hpos => hnone ⟨exit, hexit, hpos⟩
  unfold Exit.exposure at *
  omega

/-- **One flatten.** -/
theorem withinFill_squareOff (h : WithinFill parent market) {lower upper : Option Price}
    {answers : Answers} {acceptedAs : Option Bytes}
    (htruthful : BrokerTruthful parent market (.squareOff lower upper answers acceptedAs))
    (hstands : ExitStandsOut parent market (.squareOff lower upper answers acceptedAs)) :
    WithinFill parent (market.step parent (.squareOff lower upper answers acceptedAs)) := by
  obtain ⟨hnew, hack, hbooks⟩ := htruthful
  rcases placed_of_squareOffBanded market.adapter parent.id lower upper answers with
    ⟨result, calls, heq, hcalls⟩ | ⟨seen, exitSide, hcleared, hpositive, hside, hfound, heq⟩
  · -- nothing is placed, so nothing is accepted
    have hsame : market.step parent (.squareOff lower upper answers acceptedAs) = market := by
      simp only [Market.step, heq, acceptedExits_of_placeless acceptedAs hcalls, List.append_nil]
    rw [hsame]
    exact h
  obtain ⟨hshows, hsymbol, hparentSide, hqty, hbound⟩ := cleared_shows hbooks hcleared
  obtain rfl : parent.exitSide = exitSide := by
    rw [hparentSide, exitSideFor_sideCode] at hside
    exact Option.some.inj hside
  -- no exit stands out, so none is live and none has traded
  have hquiet : ¬ ∃ exit ∈ market.exits, 0 < exit.exposure := by
    intro hexposed
    obtain ⟨exit, hexit, raw, hraw, hid, hout⟩ := hstands seen hcleared hexposed
    exact findExit_of_standsOut h hshows hsymbol hqty hexit hraw hid hout hfound
  obtain ⟨exit, params, calls, hexitRef, hstep⟩ :=
    step_sent lower upper acceptedAs hcleared hqty hbound hpositive hside hfound
  have hrefNe : exit.clientRef ≠ [] := hexitRef ▸ exitRef_ne_nil hcleared.named
  -- only the id that the broker gave the exit can get a new ref
  have hrefs : ∀ orderId,
      (market.adapter.placeExit exit params calls answers.placeOrder).adapter.refForId orderId
          = market.adapter.refForId orderId
        ∨ acceptedAs = some orderId
          ∧ (market.adapter.placeExit exit params calls answers.placeOrder).adapter.refForId orderId
            = market.adapter.exitRef parent.id := by
    intro orderId
    refine (placeExit_refForId hrefNe params calls answers.placeOrder orderId).imp_right ?_
    rintro ⟨⟨data, hdata, rfl, hid⟩, hnow⟩
    exact ⟨hack data hdata hid, hnow.trans hexitRef⟩
  have hparent := (hrefs parent.id).resolve_right fun hnow => (hnew parent.id hnow.1).2.1 rfl
  have hkept := h.adapter hparent fun other hother =>
    (hrefs other.id).resolve_right fun hnow => (hnew other.id hnow.1).2.2.2 other hother rfl
  rw [hstep]
  cases acceptedAs with
  | none =>
    rw [Option.toList_none, List.map_nil, List.append_nil]
    exact hkept
  | some exitId =>
    obtain ⟨hidNe, hother, hunbound, -⟩ := hnew exitId rfl
    -- the new exit is then the only one with an exposure
    have hzero := exposure_eq_zero h hquiet
    refine hkept.add hzero (hqty ▸ hpositive) ⟨hidNe, hother⟩ ?_
    rcases hrefs exitId with hsame | ⟨-, hnow⟩
    · left
      rw [hsame, KotakBrokerAdapter.refForId, if_neg hidNe, hunbound]
      rfl
    · right
      rw [hnow, KotakBrokerAdapter.exitRef, KotakBrokerAdapter.exitRef, hparent]

/-- **The condition is exact**: where no exit stands out behind the cancel although one is live or
has traded, an accepted exit is one too many. -/
theorem exceeds_of_hidden (h : WithinFill parent market) {lower upper : Option Price}
    {answers : Answers} {exitId : Bytes}
    (htruthful : BrokerTruthful parent market (.squareOff lower upper answers (some exitId)))
    (hhidden : ¬ ExitStandsOut parent market (.squareOff lower upper answers (some exitId))) :
    (market.step parent (.squareOff lower upper answers (some exitId))).parentFilled
      < (market.step parent (.squareOff lower upper answers (some exitId))).exposure := by
  simp only [ExitStandsOut, not_forall] at hhidden
  obtain ⟨seen, hcleared, ⟨live, hlive, hexposed⟩, hhid⟩ := hhidden
  have hnone : ∀ exit ∈ market.exits, ∀ raw ∈ seen.rows, raw.orderId = exit.id →
      ¬ StandsOut parent market raw :=
    fun exit hexit raw hraw hid hout => hhid ⟨exit, hexit, raw, hraw, hid, hout⟩
  obtain ⟨hshows, hsymbol, hparentSide, hqty, hbound⟩ := cleared_shows htruthful.2.2 hcleared
  have hpositive : 0 < seen.exitQty := by
    have hsized := h.sized live hlive
    omega
  have hside : exitSideFor seen.parent.side = some parent.exitSide := by
    rw [hparentSide, exitSideFor_sideCode]
  have hfound : market.adapter.findExit parent.id (market.adapter.exitRef parent.id)
      parent.exitSide seen = .ok none := by
    refine findExit_none_iff.mpr ⟨fun raw hraw => ?_, fun raw hraw => ?_⟩
    · -- rung 1: the order is not its own exit, and no exit is anchored
      rcases hshows.only raw hraw with hparent | ⟨exit, hexit, hid⟩
      · simp [KotakBrokerAdapter.isAnchoredExit, hparent]
      · simp [KotakBrokerAdapter.isAnchoredExit, (not_or.mp (hnone exit hexit raw hraw hid)).1]
    · rcases hshows.only raw hraw with hparent | ⟨exit, hexit, hid⟩
      · simp [KotakBrokerAdapter.isCandidate, hparent]
      · -- a candidate would stand out
        refine Bool.eq_false_iff.mpr fun hcandidate => hnone exit hexit raw hraw hid (.inr ?_)
        simp only [KotakBrokerAdapter.isCandidate, Bool.and_eq_true, Bool.not_eq_true'] at hcandidate
        obtain ⟨⟨⟨⟨⟨⟨_, hreadable⟩, _⟩, _⟩, _⟩, hquantity⟩, hforce⟩ := hcandidate
        refine ⟨hreadable, fun hunread => ?_, hforce⟩
        rw [hunread] at hquantity
        cases hquantity
  obtain ⟨exit, params, calls, -, hstep⟩ :=
    step_sent lower upper (some exitId) hcleared hqty hbound hpositive hside hfound
  -- what is live or has traded comes on top of the new exit's whole fill
  have hlarger : 0 < market.exposure := by
    refine lt_of_lt_of_le hexposed (List.single_le_sum ?_ _ (List.mem_map_of_mem hlive))
    intro exposure hexposure
    obtain ⟨exit, hexit, rfl⟩ := List.mem_map.mp hexposure
    have hparts := h.parts exit hexit
    exact add_nonneg hparts.1 hparts.2
  rw [hstep]
  unfold Market.exposure at hlarger ⊢
  simp only [Option.toList_some, List.map_append, List.map_cons, List.map_nil, List.sum_append,
    List.sum_cons, List.sum_nil, Exit.exposure] at hlarger ⊢
  omega

/-! ## The run -/

/-- **One step.** -/
theorem withinFill_step (market : Market) (event : MarketEvent) (h : WithinFill parent market)
    (hevent : BrokerTruthful parent market event ∧ ExitStandsOut parent market event) :
    WithinFill parent (market.step parent event) := by
  cases event with
  | parentFills n =>
    refine ⟨h.named, h.bound, fun exit hexit => ?_, h.parts, ?_⟩
    · have hsized := h.sized exit hexit
      exact ⟨hsized.1, by simp only [Market.step]; omega⟩
    · have hwithin := h.within
      simp only [Market.step, Market.exposure] at *
      omega
  -- a trade only turns working into executed
  | exitFills exitId n =>
    refine h.onExit exitId (fun _ => rfl) (fun _ => rfl) (fun exit hworking hexecuted => ?_)
      fun exit _ => ?_
    · simp only [Exit.fill]
      omega
    · simp only [Exit.fill, Exit.exposure]
      omega
  | exitDies exitId =>
    refine h.onExit exitId (fun _ => rfl) (fun _ => rfl) (fun exit _ hexecuted => ?_)
      fun exit hworking => ?_
    · exact ⟨le_rfl, hexecuted⟩
    · simp only [Exit.die, Exit.exposure]
      omega
  | squareOff lower upper answers acceptedAs => exact withinFill_squareOff h hevent.1 hevent.2

/-- **The exits never exceed the fill**, over every run in which an exit that is live or has traded
stands out on each book that a flatten acts on. -/
theorem exits_within_fill (parent : ParentOrder) (market : Market) (events : List MarketEvent)
    (hstart : market.exits = []) (hfilled : 0 ≤ market.parentFilled)
    (hevents : Along (Market.step parent)
      (fun m e => BrokerTruthful parent m e ∧ ExitStandsOut parent m e) market events) :
    (run (Market.step parent) market events).exposure
      ≤ (run (Market.step parent) market events).parentFilled := by
  have hinv : WithinFill parent (run (Market.step parent) market events) := by
    refine run_keeps (fun m e hm he => withinFill_step m e hm he) ?_ hevents
    refine ⟨?_, ?_, ?_, ?_, ?_⟩ <;> simp [hstart, Market.exposure, hfilled]
  exact hinv.within

/-! An ack that was lost, and a book on which the exit's price is garbled; then one on which it is
not. -/

def bought : ParentOrder := ⟨ascii "1", ascii "S", .buy⟩

def boughtRow : Json.Value :=
  .object [(ascii "nOrdNo", .string (ascii "1")), (ascii "trdSym", .string (ascii "S")),
    (ascii "trnsTp", .string (ascii "B")), (ascii "qty", .int 5), (ascii "fldQty", .int 5),
    (ascii "ordSt", .string (ascii "complete"))]

def soldRow (averagePrice : String) : Json.Value :=
  .object [(ascii "nOrdNo", .string (ascii "2")), (ascii "trdSym", .string (ascii "S")),
    (ascii "trnsTp", .string (ascii "S")), (ascii "qty", .int 5),
    (ascii "avgPrc", .string (ascii averagePrice)), (ascii "ordSt", .string (ascii "open"))]

def flattenOf (book : List Json.Value) (acceptedAs : String) : MarketEvent :=
  .squareOff none none
    ⟨.ok (.array book), .ok .null, .error (Errors.makeError .unknown (ascii "no answer"))⟩
    (some (ascii acceptedAs))

def newMarket : Market := ⟨⟨fun _ => none, [], []⟩, 5, []⟩

/-- A flatten of `bought` whose ack is lost, on a book that shows the market. -/
theorem truthful_flattenOf {market : Market} {book : List Json.Value} {acceptedAs : String}
    (hid : ascii acceptedAs ≠ [] ∧ ascii acceptedAs ≠ bought.id
      ∧ market.adapter.idToRef (ascii acceptedAs) = none
      ∧ ∀ exit ∈ market.exits, exit.id ≠ ascii acceptedAs)
    (hshows : BookShows bought market (bookRows book)) :
    BrokerTruthful bought market (flattenOf book acceptedAs) := by
  refine ⟨fun exitId hexitId => Option.some.inj hexitId ▸ hid, fun data hdata => ?_,
    fun elements helements => ?_⟩
  · cases hdata
  · cases helements
    exact hshows

theorem hidden_exit_doubled :
    Along (Market.step bought) (BrokerTruthful bought) newMarket
        [flattenOf [boughtRow] "2", flattenOf [boughtRow, soldRow "-"] "3"]
      ∧ (run (Market.step bought) newMarket
          [flattenOf [boughtRow] "2", flattenOf [boughtRow, soldRow "-"] "3"]).parentFilled
        < (run (Market.step bought) newMarket
          [flattenOf [boughtRow] "2", flattenOf [boughtRow, soldRow "-"] "3"]).exposure := by
  refine ⟨along_cons.mpr ⟨?_, along_cons.mpr ⟨?_, along_nil _⟩⟩, by decide +kernel⟩
  · exact truthful_flattenOf (by decide +kernel) (by decide +kernel)
  · exact truthful_flattenOf (by decide +kernel) (by decide +kernel)

theorem exits_within_fill_readable :
    (run (Market.step bought) newMarket
        [flattenOf [boughtRow] "2", flattenOf [boughtRow, soldRow "0"] "3"]).exposure
      ≤ (run (Market.step bought) newMarket
        [flattenOf [boughtRow] "2", flattenOf [boughtRow, soldRow "0"] "3"]).parentFilled := by
  refine exits_within_fill bought newMarket _ rfl (by decide) ?_
  refine along_cons.mpr ⟨⟨?_, ?_⟩, along_cons.mpr ⟨⟨?_, ?_⟩, along_nil _⟩⟩
  · exact truthful_flattenOf (by decide +kernel) (by decide +kernel)
  · rintro seen - ⟨exit, hexit, -⟩
    exact absurd hexit List.not_mem_nil
  · exact truthful_flattenOf (by decide +kernel) (by decide +kernel)
  · intro seen hcleared _
    obtain ⟨book, hread, hassess⟩ := hcleared.assessed
    cases hread
    obtain ⟨elements, total, helements, hassessed⟩ := assess_ok_iff.mp hassess
    cases helements
    rw [hassessed.rows]
    decide +kernel

end BrokerExec.Adapters.Kotak

import BrokerExec.Lib.TopoSort
import BrokerExec.Ports
import Mathlib.Logic.Relation

/-!
# Baskets (`options/basket.cpp`)

The legs of a basket are placed in dependency order, a leg only when all its prerequisites
executed. When a leg fails, the policy may unwind the executed ones, newest first; an unwind
that fails leaves its leg live, and the prerequisites behind it are unwound all the same.

* **`no_orphan_iff`** — no live leg has lost a prerequisite, exactly when the unwind does not
  run or no leg whose unwind fails has a prerequisite whose unwind succeeds.
-/

namespace BrokerExec.Options

open BrokerExec.Errors (Error)
open BrokerExec.Ports (Alert BrokerAck)

/-! ## The data -/

structure BasketLeg where
  legId : Bytes
  dependsOn : List Bytes
  deriving DecidableEq

inductive LegFailurePolicy where
  | unwindExecuted
  | leaveAndAlert
  deriving DecidableEq

structure BasketConfig where
  onLegFailure : LegFailurePolicy
  trackAsSingleUnit : Bool
  basketId : Bytes

inductive LegStatus where
  | executed
  | failed
  | skippedUnmetDependency
  | unwound
  | ambiguousMayBeLive
  deriving DecidableEq

structure LegResult where
  legId : Bytes
  status : LegStatus
  orderId : Bytes
  detail : Bytes
  deriving DecidableEq

inductive BasketOutcome where
  | complete
  | partiallyExecutedUnwound
  | partiallyExecutedLeft
  | blocked
  | reconcileRequired
  deriving DecidableEq

structure BasketResult where
  outcome : BasketOutcome
  basketId : Bytes
  legs : List LegResult
  trackedAsSingleUnit : Bool
  detail : Bytes

/-- What the seams answer; `none` is a seam that is not configured. Each is called at most once
for a leg, so the answer is a function of the leg; two legs may have the same order id. -/
structure BasketSeams where
  placeLeg : Option (BasketLeg → Result BrokerAck)
  unwindLeg : Option (BasketLeg → Bytes → Result Unit)

inductive SeamCall where
  | placeLeg (legId : Bytes)
  | unwindLeg (legOrderId : Bytes)
  deriving DecidableEq

def errorTag (err : Error) : Bytes := err.category.toString

/-- The order may have reached the exchange. -/
def isAmbiguous (err : Error) : Bool :=
  err.action = .reconcileFirst || err.category = .timeout || err.category = .network
    || err.category = .unknown

def fallbackBasketId (legCount : Nat) : Bytes := ascii "basket-" ++ decimal legCount

/-! ## The order of placement -/

def idToIndex (legs : List BasketLeg) (legId : Bytes) : Option Nat :=
  legs.findIdx? fun leg => leg.legId = legId

/-- Ids are non-empty and unique, and every dependency names a leg. -/
def wellFormed (legs : List BasketLeg) : Bool :=
  legs.all (fun leg => leg.legId ≠ []) && decide (legs.map (·.legId)).Nodup
    && legs.all fun leg => leg.dependsOn.all fun dep => (idToIndex legs dep).isSome

/-- The prerequisites of a leg by index, as often as it names them. -/
def prerequisites (legs : List BasketLeg) (i : Nat) : List Nat :=
  match legs[i]? with
  | some leg => leg.dependsOn.filterMap (idToIndex legs)
  | none => []

/-- `topological_order`: `none` is a basket that is blocked. -/
def topologicalOrder (legs : List BasketLeg) : Option (List Nat) :=
  if wellFormed legs then
    let order := TopoSort.sort (List.range legs.length) (prerequisites legs)
    if order.length = legs.length then some order else none
  else none

/-! ## Placing -/

structure LegState where
  status : LegStatus
  orderId : Bytes
  detail : Bytes

/-- The working state of the legs, by index, and the calls on the seams. -/
structure Working where
  legs : Nat → LegState
  calls : List SeamCall

def Working.init : Working := ⟨fun _ => ⟨.skippedUnmetDependency, [], []⟩, []⟩

def Working.set (w : Working) (i : Nat) (leg : LegState) : Working :=
  { w with legs := Function.update w.legs i leg }

def Working.call (w : Working) (call : SeamCall) : Working := { w with calls := w.calls ++ [call] }

def prerequisitesMet (legs : List BasketLeg) (w : Working) (leg : BasketLeg) : Bool :=
  leg.dependsOn.all fun dep =>
    (idToIndex legs dep).any fun j => (w.legs j).status = .executed

/-- Step 2 for one leg. -/
def placeOne (place : BasketLeg → Result BrokerAck) (legs : List BasketLeg) (w : Working)
    (i : Nat) : Working :=
  match legs[i]? with
  | none => w
  | some leg =>
    -- an unexecuted prerequisite is reason enough, whatever became of it
    if prerequisitesMet legs w leg = false then
      w.set i { w.legs i with
        status := .skippedUnmetDependency
        detail := ascii "skipped: a prerequisite leg was not Executed (never orphaned)" }
    else
      let w := w.call (.placeLeg leg.legId)
      match place leg with
      | .error error =>
        -- no order id comes with the error, so nothing could be unwound by it
        if isAmbiguous error then
          w.set i { w.legs i with
            status := .ambiguousMayBeLive
            detail := ascii "leg placement AMBIGUOUS, order MAY be LIVE (no order_id): "
              ++ errorTag error ++ ascii "; reconcile before any unwind" }
        else
          w.set i { w.legs i with
            status := .failed
            detail := ascii "leg placement rejected (definitive, order not placed): "
              ++ errorTag error }
      | .ok ack => w.set i ⟨.executed, ack.brokerOrderId, ascii "leg executed"⟩

/-! ## The policy -/

/-- One more id in a list with commas. -/
def appendId (ids legId : Bytes) : Bytes := if ids = [] then legId else ids ++ ascii "," ++ legId

def statusesOf (legs : List BasketLeg) (w : Working) : List LegStatus :=
  (List.range legs.length).map fun i => (w.legs i).status

/-- The executed legs stay while another may be live. -/
def markLeftLive (w : Working) (i : Nat) : Working :=
  if (w.legs i).status = .executed then
    w.set i { w.legs i with
      detail := ascii "leg LEFT LIVE: unwind SUPPRESSED while an ambiguous leg may be live" }
  else w

def ambiguousIds (legs : List BasketLeg) (w : Working) : Bytes :=
  (legs.zip (statusesOf legs w)).foldl
    (fun ids leg => if leg.2 = .ambiguousMayBeLive then appendId ids leg.1.legId else ids) []

/-- The unwind of one leg, with the ids of the legs that are still live. -/
def unwindOne (unwindLeg : Option (BasketLeg → Bytes → Result Unit)) (legs : List BasketLeg)
    (acc : Working × Bytes) (i : Nat) : Working × Bytes :=
  match legs[i]? with
  | none => acc
  | some leg =>
    let (w, liveLegs) := acc
    -- only what executed is unwound
    if (w.legs i).status ≠ .executed then acc
    else
      match unwindLeg with
      | none =>
        (w.set i { w.legs i with
          detail := ascii "CRITICAL: unwind seam not configured, leg still LIVE" },
          appendId liveLegs leg.legId)
      | some unwind =>
        let w := w.call (.unwindLeg (w.legs i).orderId)
        match unwind leg (w.legs i).orderId with
        | .error error =>
          (w.set i { w.legs i with
            detail := ascii "CRITICAL: unwind failed, leg still LIVE: " ++ errorTag error },
            appendId liveLegs leg.legId)
        | .ok () =>
          (w.set i { w.legs i with
            status := .unwound, detail := ascii "leg unwound during remediation" }, liveLegs)

/-- One `execute_basket`: its result, the alerts and the calls on the seams. -/
structure BasketRun where
  result : BasketResult
  alerts : List Alert
  calls : List SeamCall

def basketIdOf (legs : List BasketLeg) (config : BasketConfig) : Bytes :=
  if config.basketId = [] then fallbackBasketId legs.length else config.basketId

/-- The results of the legs in input order. -/
def legResults (legs : List BasketLeg) (w : Working) : List LegResult :=
  legs.mapIdx fun i leg => ⟨leg.legId, (w.legs i).status, (w.legs i).orderId, (w.legs i).detail⟩

def finish (legs : List BasketLeg) (config : BasketConfig) (w : Working) (outcome : BasketOutcome)
    (detail : Bytes) (alerts : List Alert) : BasketRun :=
  ⟨⟨outcome, basketIdOf legs config, legResults legs w, config.trackAsSingleUnit, detail⟩,
    alerts, w.calls⟩

/-- Nothing was placed: every leg is skipped. -/
def blocked (legs : List BasketLeg) (config : BasketConfig) (detail : Bytes) : BasketRun :=
  ⟨⟨.blocked, basketIdOf legs config,
    legs.map fun leg =>
      ⟨leg.legId, .skippedUnmetDependency, [], ascii "basket blocked pre-flight"⟩,
    config.trackAsSingleUnit, detail⟩, [], []⟩

/-- The ambiguous end: reconcile, never unwind. -/
def reconcileRequired (legs : List BasketLeg) (config : BasketConfig) (w : Working) : BasketRun :=
  let ids := ambiguousIds legs w
  finish legs config ((List.range legs.length).foldl markLeftLive w) .reconcileRequired
    (ascii "basket RECONCILE REQUIRED: ambiguous leg(s) may be LIVE at the broker: " ++ ids
      ++ ascii "; NO leg was unwound")
    [.plain .critical (ascii ("BASKET RECONCILE REQUIRED: leg placement was AMBIGUOUS and MAY be "
      ++ "LIVE at the broker: ") ++ ids
      ++ ascii "; NO leg was unwound - reconcile before cancelling anything")]

/-- The unwind, newest first. -/
def unwindExecuted (legs : List BasketLeg) (config : BasketConfig)
    (unwindLeg : Option (BasketLeg → Bytes → Result Unit)) (order : List Nat) (w : Working) :
    BasketRun :=
  let (w, liveLegs) := order.reverse.foldl (unwindOne unwindLeg legs) (w, [])
  -- the outcome is the same; what is still live is named
  if liveLegs ≠ [] then
    finish legs config w .partiallyExecutedUnwound
      (ascii "basket partial: unwind attempted; legs still LIVE: " ++ liveLegs)
      [.plain .critical (ascii ("BASKET PARTIAL: a leg failed and one or more executed legs could "
        ++ "NOT be unwound and remain LIVE: ") ++ liveLegs)]
  else
    finish legs config w .partiallyExecutedUnwound
      (ascii "basket partial: executed legs unwound per policy")
      [.plain .critical
        (ascii "BASKET PARTIAL: a leg failed; all executed legs unwound per policy")]

/-- Step 3. -/
def settle (legs : List BasketLeg) (config : BasketConfig) (seams : BasketSeams)
    (order : List Nat) (w : Working) : BasketRun :=
  -- the veto comes before the policy is asked
  if .ambiguousMayBeLive ∈ statusesOf legs w then reconcileRequired legs config w
  else if ¬ (.failed ∈ statusesOf legs w ∨ .skippedUnmetDependency ∈ statusesOf legs w) then
    finish legs config w .complete (ascii "basket complete: all legs executed") []
  else
    match config.onLegFailure with
    | .unwindExecuted => unwindExecuted legs config seams.unwindLeg order w
    | .leaveAndAlert =>
      finish legs config w .partiallyExecutedLeft
        (ascii "basket partial: executed legs left in place per policy; operator alerted")
        [.plain .warning
          (ascii "BASKET PARTIAL: a leg failed; executed legs LEFT in place per policy")]

/-- `execute_basket`. -/
def executeBasket (legs : List BasketLeg) (config : BasketConfig) (seams : BasketSeams) :
    BasketRun :=
  match seams.placeLeg, topologicalOrder legs with
  | none, _ =>
    blocked legs config
      (ascii "basket blocked: place_leg seam not configured (nothing placed)")
  | some _, none =>
    blocked legs config (ascii ("basket blocked: invalid basket "
      ++ "(empty/duplicate leg_id, unknown dependency, or cycle); nothing placed"))
  | some place, some order =>
    settle legs config seams order (order.foldl (placeOne place legs) .init)

/-! ## Prerequisites -/

/-- The leg at `i` names the leg at `j`. -/
def DependsOn (legs : List BasketLeg) (i j : Nat) : Prop :=
  ∃ leg prerequisite, legs[i]? = some leg ∧ legs[j]? = some prerequisite
    ∧ prerequisite.legId ∈ leg.dependsOn

/-- The leg at `j` is a prerequisite of the leg at `i`, directly or through others. -/
def Requires (legs : List BasketLeg) : Nat → Nat → Prop := Relation.TransGen (DependsOn legs)

theorem wellFormed_iff {legs : List BasketLeg} :
    wellFormed legs = true ↔
      (∀ leg ∈ legs, leg.legId ≠ []) ∧ (legs.map (·.legId)).Nodup
        ∧ ∀ leg ∈ legs, ∀ dep ∈ leg.dependsOn, ∃ j, idToIndex legs dep = some j := by
  simp only [wellFormed, Bool.and_eq_true, List.all_eq_true, decide_eq_true_eq,
    Option.isSome_iff_exists, and_assoc]

theorem idToIndex_eq_some {legs : List BasketLeg} {legId : Bytes} {j : Nat}
    (h : idToIndex legs legId = some j) : ∃ leg, legs[j]? = some leg ∧ leg.legId = legId := by
  obtain ⟨hlength, hid, -⟩ := List.findIdx?_eq_some_iff_getElem.mp h
  exact ⟨legs[j], List.getElem?_eq_getElem hlength, by simpa using hid⟩

/-- In a well-formed basket the prerequisites by index are the named legs. -/
theorem mem_prerequisites_iff {legs : List BasketLeg} (h : wellFormed legs = true) {i j : Nat} :
    j ∈ prerequisites legs i ↔ DependsOn legs i j := by
  obtain ⟨-, hunique, hknown⟩ := wellFormed_iff.mp h
  unfold prerequisites DependsOn
  cases hleg : legs[i]? with
  | none => simp
  | some leg =>
    simp only [List.mem_filterMap, Option.some.injEq]
    constructor
    · rintro ⟨dep, hdep, hindex⟩
      obtain ⟨prerequisite, hget, rfl⟩ := idToIndex_eq_some hindex
      exact ⟨leg, prerequisite, rfl, hget, hdep⟩
    · rintro ⟨leg', prerequisite, rfl, hget, hdep⟩
      refine ⟨prerequisite.legId, hdep, ?_⟩
      obtain ⟨k, hk⟩ := hknown _ (List.mem_of_getElem? hleg) _ hdep
      obtain ⟨found, hfound, hid⟩ := idToIndex_eq_some hk
      -- the id is unique, so the index found is `j`
      have hsame : k = j := by
        have hlength : k < (legs.map (·.legId)).length := by
          rw [List.length_map]
          exact (List.getElem?_eq_some_iff.mp hfound).1
        refine (List.getElem?_inj hlength hunique).mp ?_
        simp [hfound, hget, hid]
      rw [hk, hsame]

/-- What the sort gives a basket that is not blocked. -/
theorem topologicalOrder_eq_some {legs : List BasketLeg} {order : List Nat}
    (h : topologicalOrder legs = some order) :
    wellFormed legs = true ∧ order.Nodup ∧ (∀ i, i ∈ order ↔ i < legs.length)
      ∧ TopoSort.Respects (prerequisites legs) order := by
  unfold topologicalOrder at h
  split_ifs at h with hwell
  dsimp only at h
  split_ifs at h with hlength
  obtain rfl := Option.some.inj h
  have hnodes : (List.range legs.length).Nodup := List.nodup_range
  refine ⟨hwell, TopoSort.sort_nodup hnodes, fun i => ⟨fun hi => ?_, fun hi => ?_⟩,
    TopoSort.sort_respects hnodes⟩
  · exact List.mem_range.mp (TopoSort.mem_of_mem_sort hnodes hi)
  · exact TopoSort.sort_complete hnodes (by rw [hlength, List.length_range])
      (List.mem_range.mpr hi)

/-! ## What the seams answer -/

section

variable (place : BasketLeg → Result BrokerAck) (legs : List BasketLeg)

/-- The placement of the leg would be acknowledged. -/
def Acks (i : Nat) : Prop := ∃ leg ack, legs[i]? = some leg ∧ place leg = .ok ack

/-- All prerequisites of the leg are acknowledged. -/
def Reached (i : Nat) : Prop := ∀ j, Requires legs i j → Acks place legs j

def Executes (i : Nat) : Prop := Reached place legs i ∧ Acks place legs i

/-- The unwind of the leg would succeed. -/
def Unwinds (unwindLeg : Option (BasketLeg → Bytes → Result Unit)) (i : Nat) : Prop :=
  ∃ leg ack unwind, legs[i]? = some leg ∧ place leg = .ok ack ∧ unwindLeg = some unwind
    ∧ unwind leg ack.brokerOrderId = .ok ()

variable {place legs}

theorem Reached.executes {i j : Nat} (h : Reached place legs i) (hij : Requires legs i j) :
    Executes place legs j :=
  ⟨fun k hjk => h k (Relation.TransGen.trans hij hjk), h j hij⟩

theorem reached_iff {i : Nat} :
    Reached place legs i ↔ ∀ j, DependsOn legs i j → Executes place legs j := by
  constructor
  · exact fun h j hij => h.executes (.single hij)
  · intro h k hik
    rcases Relation.TransGen.head'_iff.mp hik with ⟨j, hij, hjk⟩
    -- the first step of the chain, and what is behind it
    rcases Relation.reflTransGen_iff_eq_or_transGen.mp hjk with rfl | hjk
    · exact (h _ hij).2
    · exact (h j hij).1 k hjk

theorem not_acks_of_error {i : Nat} {leg : BasketLeg} {error : Error} (hleg : legs[i]? = some leg)
    (herror : place leg = .error error) : ¬ Acks place legs i := by
  rintro ⟨leg', ack, hleg', hack⟩
  rw [hleg] at hleg'
  obtain rfl := Option.some.inj hleg'
  rw [herror] at hack
  cases hack

/-! ## What the placement leaves -/

variable (place legs) in
/-- What step 2 leaves a leg with. -/
def Placed (i : Nat) (state : LegState) : Prop :=
  (Executes place legs i ∧ state.status = .executed
      ∧ ∃ leg ack, legs[i]? = some leg ∧ place leg = .ok ack
        ∧ state.orderId = ack.brokerOrderId)
    ∨ (Reached place legs i ∧ ∃ leg error, legs[i]? = some leg ∧ place leg = .error error
      ∧ state.status = if isAmbiguous error then .ambiguousMayBeLive else .failed)
    ∨ (¬ Reached place legs i ∧ state.status = .skippedUnmetDependency)

theorem Placed.executed_iff {i : Nat} {state : LegState} (h : Placed place legs i state) :
    state.status = .executed ↔ Executes place legs i := by
  rcases h with ⟨hexecutes, hstatus, -⟩ | ⟨-, leg, error, hleg, herror, hstatus⟩ | ⟨hnot, hstatus⟩
  · exact ⟨fun _ => hexecutes, fun _ => hstatus⟩
  · have hnever := not_acks_of_error hleg herror
    rw [hstatus]
    refine ⟨fun hexecuted => ?_, fun hexecutes => absurd hexecutes.2 hnever⟩
    split_ifs at hexecuted
  · rw [hstatus]
    constructor
    · intro hexecuted
      cases hexecuted
    · intro hexecutes
      exact absurd hexecutes.1 hnot

/-- A leg that may be live has all its prerequisites executed. -/
theorem Placed.reached {i : Nat} {state : LegState} (h : Placed place legs i state)
    (hlive : state.status = .executed ∨ state.status = .ambiguousMayBeLive) :
    Reached place legs i := by
  rcases h with ⟨hexecutes, -⟩ | ⟨hreached, -⟩ | ⟨-, hstatus⟩
  · exact hexecutes.1
  · exact hreached
  · rw [hstatus] at hlive
    rcases hlive with hlive | hlive
    · cases hlive
    · cases hlive

theorem set_legs (w : Working) (i : Nat) (state : LegState) : (w.set i state).legs i = state :=
  Function.update_self _ _ _

theorem set_legs_ne {i j : Nat} (h : j ≠ i) (w : Working) (state : LegState) :
    (w.set i state).legs j = w.legs j :=
  Function.update_of_ne h _ _

theorem placeOne_other (w : Working) {i j : Nat} (h : j ≠ i) :
    (placeOne place legs w i).legs j = w.legs j := by
  unfold placeOne
  split
  · rfl
  · split_ifs
    · exact set_legs_ne h _ _
    · split
      · split_ifs
        · exact set_legs_ne h _ _
        · exact set_legs_ne h _ _
      · exact set_legs_ne h _ _

/-- Placing a leg whose prerequisites have been placed. -/
theorem placeOne_placed {w : Working} {i : Nat} {leg : BasketLeg} (hleg : legs[i]? = some leg)
    (hmet : prerequisitesMet legs w leg = true ↔ Reached place legs i) :
    Placed place legs i ((placeOne place legs w i).legs i) := by
  unfold placeOne
  rw [hleg]
  dsimp only
  split_ifs with hprerequisites
  · rw [set_legs]
    refine .inr (.inr ⟨fun hreached => ?_, rfl⟩)
    rw [hmet.mpr hreached] at hprerequisites
    cases hprerequisites
  · have hreached := hmet.mp (by simpa using hprerequisites)
    cases hplace : place leg with
    | error error =>
      dsimp only
      refine .inr (.inl ⟨hreached, leg, error, hleg, hplace, ?_⟩)
      split_ifs
      · rw [set_legs]
      · rw [set_legs]
    | ok ack =>
      dsimp only
      rw [set_legs]
      exact .inl ⟨⟨hreached, leg, ack, hleg, hplace⟩, rfl, leg, ack, hleg, hplace, rfl⟩

theorem prerequisitesMet_iff (hwell : wellFormed legs = true) {w : Working} {i : Nat}
    {leg : BasketLeg} (hleg : legs[i]? = some leg) :
    prerequisitesMet legs w leg = true ↔
      ∀ j ∈ prerequisites legs i, (w.legs j).status = .executed := by
  obtain ⟨-, -, hknown⟩ := wellFormed_iff.mp hwell
  simp only [prerequisitesMet, prerequisites, hleg, List.all_eq_true, List.mem_filterMap,
    Option.any_eq_true, decide_eq_true_eq]
  constructor
  · rintro h j ⟨dep, hdep, hindex⟩
    obtain ⟨k, hk, hexecuted⟩ := h dep hdep
    rw [hindex] at hk
    obtain rfl := Option.some.inj hk
    exact hexecuted
  · intro h dep hdep
    obtain ⟨j, hj⟩ := hknown leg (List.mem_of_getElem? hleg) dep hdep
    exact ⟨j, hj, h j ⟨dep, hdep, hj⟩⟩

section

variable {order front back : List Nat} {i : Nat} {w : Working}

/-- The prerequisites of the next leg are all in front, where they are placed. -/
theorem prerequisitesMet_iff_reached (horder : topologicalOrder legs = some order)
    (hsplit : order = front ++ i :: back) (hfront : ∀ j ∈ front, Placed place legs j (w.legs j))
    {leg : BasketLeg} (hleg : legs[i]? = some leg) :
    prerequisitesMet legs w leg = true ↔ Reached place legs i := by
  obtain ⟨hwell, -, -, hrespects⟩ := topologicalOrder_eq_some horder
  rw [prerequisitesMet_iff hwell hleg, reached_iff]
  refine forall_congr' fun j => ?_
  rw [mem_prerequisites_iff hwell]
  refine forall_congr' fun hij => ?_
  exact (hfront j (hrespects front i back hsplit j
    ((mem_prerequisites_iff hwell).mpr hij))).executed_iff

theorem exists_leg (horder : topologicalOrder legs = some order)
    (hsplit : order = front ++ i :: back) : ∃ leg, legs[i]? = some leg := by
  obtain ⟨-, -, hmem, -⟩ := topologicalOrder_eq_some horder
  have hi : i < legs.length := (hmem i).mp (by rw [hsplit]; simp)
  exact ⟨legs[i], List.getElem?_eq_getElem hi⟩

/-- One leg more is placed. -/
theorem placed_snoc (horder : topologicalOrder legs = some order)
    (hsplit : order = front ++ i :: back)
    (hfront : ∀ j ∈ front, Placed place legs j (w.legs j)) :
    ∀ j ∈ front ++ [i], Placed place legs j ((placeOne place legs w i).legs j) := by
  obtain ⟨-, hnodup, -, -⟩ := topologicalOrder_eq_some horder
  obtain ⟨leg, hleg⟩ := exists_leg horder hsplit
  have hnew : i ∉ front := by
    rw [hsplit, List.nodup_append] at hnodup
    exact fun hin => hnodup.2.2 i hin i (by simp) rfl
  intro j hj
  rcases List.mem_append.mp hj with hj | hj
  · rw [placeOne_other w (fun hji => hnew (by rw [← hji]; exact hj))]
    exact hfront j hj
  · rw [List.mem_singleton.mp hj]
    exact placeOne_placed hleg (prerequisitesMet_iff_reached horder hsplit hfront hleg)

end

/-- **Placing in order leaves every leg as its prerequisites and the seam decide.** The
induction is on the legs still to be placed; those in front are placed. -/
theorem foldl_placeOne {order : List Nat} (horder : topologicalOrder legs = some order)
    (front : List Nat) {back : List Nat} (hsplit : order = front ++ back) (w : Working)
    (hfront : ∀ i ∈ front, Placed place legs i (w.legs i)) :
    ∀ i ∈ order, Placed place legs i ((back.foldl (placeOne place legs) w).legs i) := by
  induction back generalizing front w with
  | nil =>
    rw [List.append_nil] at hsplit
    rw [hsplit]
    exact hfront
  | cons i back ih =>
    exact ih (front ++ [i]) (by rw [hsplit, List.append_assoc]; rfl) _
      (placed_snoc horder hsplit hfront)

/-! ## What the policy changes -/

theorem foldl_markLeftLive (l : List Nat) (w : Working) (i : Nat) :
    ((l.foldl markLeftLive w).legs i).status = (w.legs i).status := by
  induction l generalizing w with
  | nil => rfl
  | cons j l ih =>
    rw [List.foldl_cons, ih, markLeftLive]
    split_ifs
    · -- only the detail is rewritten
      by_cases hij : i = j
      · rw [hij, set_legs]
      · rw [set_legs_ne hij]
    · rfl

/-- The status the unwind leaves a leg with. -/
def unwoundStatus (unwindLeg : Option (BasketLeg → Bytes → Result Unit)) (legs : List BasketLeg)
    (i : Nat) (state : LegState) : LegStatus :=
  match legs[i]?, unwindLeg with
  | some leg, some unwind =>
    if state.status = .executed ∧ (unwind leg state.orderId).isOk = true then .unwound
    else state.status
  | _, _ => state.status

theorem unwindOne_other (unwindLeg : Option (BasketLeg → Bytes → Result Unit))
    (acc : Working × Bytes) {i j : Nat} (h : j ≠ i) :
    (unwindOne unwindLeg legs acc i).1.legs j = acc.1.legs j := by
  obtain ⟨w, liveLegs⟩ := acc
  unfold unwindOne
  split
  · rfl
  · dsimp only
    split_ifs
    · rfl
    · split
      · exact set_legs_ne h _ _
      · split
        · exact set_legs_ne h _ _
        · exact set_legs_ne h _ _

theorem unwindOne_status (unwindLeg : Option (BasketLeg → Bytes → Result Unit))
    (acc : Working × Bytes) (i : Nat) :
    ((unwindOne unwindLeg legs acc i).1.legs i).status
      = unwoundStatus unwindLeg legs i (acc.1.legs i) := by
  obtain ⟨w, liveLegs⟩ := acc
  unfold unwindOne unwoundStatus
  cases hleg : legs[i]? with
  | none => rfl
  | some leg =>
    dsimp only
    by_cases hexecuted : (w.legs i).status = .executed
    · rw [if_neg (not_not.mpr hexecuted)]
      cases unwindLeg with
      | none =>
        dsimp only
        rw [set_legs]
      | some unwind =>
        dsimp only
        have hcall : (w.call (.unwindLeg (w.legs i).orderId)).legs = w.legs := rfl
        rw [hcall]
        cases hunwind : unwind leg (w.legs i).orderId with
        | error error =>
          dsimp only
          rw [set_legs, if_neg (by simp [Except.isOk, Except.toBool])]
        | ok u =>
          dsimp only
          rw [set_legs, if_pos ⟨hexecuted, rfl⟩]
    · rw [if_pos hexecuted]
      cases unwindLeg with
      | none => rfl
      | some unwind => exact (if_neg fun h => hexecuted h.1).symm

/-- Unwinding each leg of a list once. -/
theorem foldl_unwindOne (unwindLeg : Option (BasketLeg → Bytes → Result Unit)) {l : List Nat}
    (hl : l.Nodup) (acc : Working × Bytes) (i : Nat) :
    ((l.foldl (unwindOne unwindLeg legs) acc).1.legs i).status
      = if i ∈ l then unwoundStatus unwindLeg legs i (acc.1.legs i)
        else (acc.1.legs i).status := by
  induction l generalizing acc with
  | nil => rfl
  | cons j l ih =>
    obtain ⟨hj, hl⟩ := List.nodup_cons.mp hl
    rw [List.foldl_cons, ih hl]
    -- a leg comes up once, and no other unwind touches it
    by_cases hij : i = j
    · subst hij
      rw [if_neg hj, if_pos (by simp), unwindOne_status]
    · rw [unwindOne_other unwindLeg acc hij]
      simp [hij]

end

/-! ## No leg is orphaned -/

/-- The leg is, or may be, at the exchange. -/
def LegStatus.isLive : LegStatus → Bool
  | .executed | .ambiguousMayBeLive => true
  | .failed | .skippedUnmetDependency | .unwound => false

/-- No leg that may be live has a prerequisite, direct or not, that is gone. -/
def NoOrphan (legs : List BasketLeg) (run : BasketRun) : Prop :=
  ∀ i j leg prerequisite, Requires legs i j → run.result.legs[i]? = some leg →
    run.result.legs[j]? = some prerequisite → leg.status.isLive = true →
    prerequisite.status.isLive = true

/-- The seams answer so that the policy unwinds: the basket is well formed, no leg that is
placed is answered ambiguously, and some leg does not execute. -/
def UnwindRuns (legs : List BasketLeg) (config : BasketConfig)
    (place : BasketLeg → Result BrokerAck) : Prop :=
  config.onLegFailure = .unwindExecuted ∧ (topologicalOrder legs).isSome = true
    ∧ (∀ i leg error, Reached place legs i → legs[i]? = some leg → place leg = .error error →
      isAmbiguous error = false)
    ∧ ∃ i < legs.length, ¬ Executes place legs i

/-- No executed leg whose unwind fails has a prerequisite whose unwind succeeds. -/
def UnwindKeepsPrerequisites (legs : List BasketLeg) (seams : BasketSeams)
    (place : BasketLeg → Result BrokerAck) : Prop :=
  ∀ i j, Executes place legs i → Requires legs i j → Unwinds place legs seams.unwindLeg j →
    Unwinds place legs seams.unwindLeg i

section

variable {legs : List BasketLeg} {place : BasketLeg → Result BrokerAck}

theorem requires_lt {i j : Nat} (h : Requires legs i j) : i < legs.length ∧ j < legs.length := by
  have hstep : ∀ {a b : Nat}, DependsOn legs a b → a < legs.length ∧ b < legs.length := by
    rintro a b ⟨leg, prerequisite, hleg, hprerequisite, -⟩
    exact ⟨(List.getElem?_eq_some_iff.mp hleg).1, (List.getElem?_eq_some_iff.mp hprerequisite).1⟩
  induction h with
  | single h => exact hstep h
  | tail _ h ih => exact ⟨ih.1, (hstep h).2⟩

/-- What a run that ends with these states says about its legs. -/
theorem noOrphan_finish (config : BasketConfig) (w : Working) (outcome : BasketOutcome)
    (detail : Bytes) (alerts : List Alert) :
    NoOrphan legs (finish legs config w outcome detail alerts) ↔
      ∀ i j, Requires legs i j → (w.legs i).status.isLive = true →
        (w.legs j).status.isLive = true := by
  have hresult : ∀ {i : Nat} {leg : LegResult}, (legResults legs w)[i]? = some leg →
      leg.status = (w.legs i).status := by
    intro i leg hleg
    rw [legResults, List.getElem?_mapIdx] at hleg
    obtain ⟨_, -, rfl⟩ := Option.map_eq_some_iff.mp hleg
    rfl
  have hexists : ∀ {i : Nat}, i < legs.length → ∃ leg, (legResults legs w)[i]? = some leg := by
    intro i hi
    rw [legResults, List.getElem?_mapIdx, List.getElem?_eq_getElem hi]
    exact ⟨_, rfl⟩
  constructor
  · intro h i j hij hlive
    obtain ⟨hi, hj⟩ := requires_lt hij
    obtain ⟨leg, hleg⟩ := hexists hi
    obtain ⟨prerequisite, hprerequisite⟩ := hexists hj
    rw [← hresult hprerequisite]
    exact h i j leg prerequisite hij hleg hprerequisite (by rw [hresult hleg]; exact hlive)
  · intro h i j leg prerequisite hij hleg hprerequisite hlive
    rw [hresult hprerequisite]
    rw [hresult hleg] at hlive
    exact h i j hij hlive

theorem isLive_iff {status : LegStatus} :
    status.isLive = true ↔ status = .executed ∨ status = .ambiguousMayBeLive := by
  cases status <;> simp [LegStatus.isLive]

/-- Where nothing is unwound, a live leg's prerequisites all executed. -/
theorem noOrphan_of_placed {config : BasketConfig} {w : Working} {outcome : BasketOutcome}
    {detail : Bytes} {alerts : List Alert}
    (h : ∀ i < legs.length, ∃ state, Placed place legs i state ∧ (w.legs i).status = state.status) :
    NoOrphan legs (finish legs config w outcome detail alerts) := by
  rw [noOrphan_finish]
  intro i j hij hlive
  obtain ⟨hi, hj⟩ := requires_lt hij
  obtain ⟨state, hplaced, hstate⟩ := h i hi
  obtain ⟨state', hplaced', hstate'⟩ := h j hj
  rw [hstate, isLive_iff] at hlive
  have hexecutes := (hplaced.reached hlive).executes hij
  rw [hstate', isLive_iff]
  exact .inl (hplaced'.executed_iff.mpr hexecutes)

theorem Placed.ambiguous_iff {i : Nat} {state : LegState} (h : Placed place legs i state) :
    state.status = .ambiguousMayBeLive ↔
      Reached place legs i ∧ ∃ leg error, legs[i]? = some leg ∧ place leg = .error error
        ∧ isAmbiguous error = true := by
  rcases h with ⟨hexecutes, hstatus, -⟩ | ⟨hreached, leg, error, hleg, herror, hstatus⟩ |
    ⟨hnot, hstatus⟩
  · rw [hstatus]
    refine ⟨fun h => (by cases h), ?_⟩
    rintro ⟨-, leg, error, hleg, herror, -⟩
    exact absurd hexecutes.2 (not_acks_of_error hleg herror)
  · rw [hstatus]
    constructor
    · intro hambiguous
      refine ⟨hreached, leg, error, hleg, herror, ?_⟩
      by_contra hnot
      rw [if_neg hnot] at hambiguous
      cases hambiguous
    · rintro ⟨-, leg', error', hleg', herror', hambiguous⟩
      rw [hleg] at hleg'
      obtain rfl := Option.some.inj hleg'
      rw [herror] at herror'
      obtain rfl := Except.error.inj herror'
      rw [if_pos hambiguous]
  · rw [hstatus]
    exact ⟨fun h => (by cases h), fun h => absurd h.1 hnot⟩

/-- After the unwind a leg is live when it executed and its unwind failed. -/
theorem Placed.unwound_live_iff {i : Nat} {state : LegState} (h : Placed place legs i state)
    (hsure : state.status ≠ .ambiguousMayBeLive)
    (unwindLeg : Option (BasketLeg → Bytes → Result Unit)) :
    (unwoundStatus unwindLeg legs i state).isLive = true ↔
      Executes place legs i ∧ ¬ Unwinds place legs unwindLeg i := by
  by_cases hexecutes : Executes place legs i
  · have hexecuted := h.executed_iff.mpr hexecutes
    rcases h with ⟨-, -, leg, ack, hleg, hack, hid⟩ | ⟨-, leg, error, hleg, herror, -⟩ | ⟨hnot, -⟩
    · unfold unwoundStatus
      rw [hleg]
      cases unwindLeg with
      | none =>
        simp [hexecuted, LegStatus.isLive, hexecutes, Unwinds]
      | some unwind =>
        dsimp only
        cases hunwind : unwind leg state.orderId with
        | error error =>
          -- the id that is unwound is the one of the ack
          have hfails : ¬ Unwinds place legs (some unwind) i := by
            rintro ⟨leg', ack', unwind', hleg', hack', hsome, hok⟩
            rw [hleg] at hleg'
            obtain rfl := Option.some.inj hleg'
            rw [hack] at hack'
            obtain rfl := Except.ok.inj hack'
            obtain rfl := Option.some.inj hsome
            rw [← hid, hunwind] at hok
            cases hok
          simp [Except.isOk, Except.toBool, hexecuted, LegStatus.isLive, hexecutes, hfails]
        | ok u =>
          have hsucceeds : Unwinds place legs (some unwind) i :=
            ⟨leg, ack, unwind, hleg, hack, rfl, by rw [← hid]; exact hunwind⟩
          simp [Except.isOk, Except.toBool, hexecuted, LegStatus.isLive, hsucceeds]
    · exact absurd hexecutes.2 (not_acks_of_error hleg herror)
    · exact absurd hexecutes.1 hnot
  · -- what did not execute is not unwound, and nothing is ambiguous
    have hexecuted : state.status ≠ .executed := fun hstatus =>
      hexecutes (h.executed_iff.mp hstatus)
    have hsame : unwoundStatus unwindLeg legs i state = state.status := by
      unfold unwoundStatus
      split
      · exact if_neg fun h => hexecuted h.1
      · rfl
    rw [hsame, isLive_iff]
    exact ⟨fun h => absurd h (by simp [hexecuted, hsure]), fun h => absurd h.1 hexecutes⟩

/-- **The unwind orphans no leg exactly when it keeps the prerequisites of what it leaves.** -/
theorem noOrphan_unwindExecuted {order : List Nat} (horder : topologicalOrder legs = some order)
    (config : BasketConfig) (seams : BasketSeams) {w : Working}
    (hplaced : ∀ i ∈ order, Placed place legs i (w.legs i))
    (hsure : ∀ i ∈ order, (w.legs i).status ≠ .ambiguousMayBeLive) :
    NoOrphan legs (unwindExecuted legs config seams.unwindLeg order w) ↔
      UnwindKeepsPrerequisites legs seams place := by
  obtain ⟨-, hnodup, hmem, -⟩ := topologicalOrder_eq_some horder
  have hlive : ∀ i < legs.length,
      (((order.reverse.foldl (unwindOne seams.unwindLeg legs) (w, [])).1.legs i).status.isLive
        = true ↔ Executes place legs i ∧ ¬ Unwinds place legs seams.unwindLeg i) := by
    intro i hi
    have hin := (hmem i).mpr hi
    rw [foldl_unwindOne seams.unwindLeg (List.nodup_reverse.mpr hnodup),
      if_pos (List.mem_reverse.mpr hin)]
    exact (hplaced i hin).unwound_live_iff (hsure i hin) seams.unwindLeg
  have hfinish : NoOrphan legs (unwindExecuted legs config seams.unwindLeg order w) ↔
      ∀ i j, Requires legs i j → Executes place legs i ∧ ¬ Unwinds place legs seams.unwindLeg i →
        Executes place legs j ∧ ¬ Unwinds place legs seams.unwindLeg j := by
    unfold unwindExecuted
    dsimp only
    -- both ends of the unwind leave the same legs
    have hsame : (∀ i j, Requires legs i j →
        ((order.reverse.foldl (unwindOne seams.unwindLeg legs) (w, [])).1.legs i).status.isLive
          = true →
        ((order.reverse.foldl (unwindOne seams.unwindLeg legs) (w, [])).1.legs j).status.isLive
          = true) ↔ ∀ i j, Requires legs i j →
        Executes place legs i ∧ ¬ Unwinds place legs seams.unwindLeg i →
        Executes place legs j ∧ ¬ Unwinds place legs seams.unwindLeg j := by
      refine forall_congr' fun i => forall_congr' fun j => forall_congr' fun hij => ?_
      rw [hlive i (requires_lt hij).1, hlive j (requires_lt hij).2]
    split_ifs
    · rw [noOrphan_finish, hsame]
    · rw [noOrphan_finish, hsame]
  rw [hfinish]
  constructor
  · intro h i j hexecutes hij hunwinds
    by_contra hnot
    exact (h i j hij ⟨hexecutes, hnot⟩).2 hunwinds
  · rintro h i j hij ⟨hexecutes, hnot⟩
    exact ⟨hexecutes.1.executes hij, fun hunwinds => hnot (h i j hexecutes hij hunwinds)⟩

theorem noOrphan_blocked (config : BasketConfig) (detail : Bytes) :
    NoOrphan legs (blocked legs config detail) := by
  intro i j leg prerequisite _ hleg _ hlive
  have hskipped : leg.status = .skippedUnmetDependency := by
    simp only [blocked, List.getElem?_map, Option.map_eq_some_iff] at hleg
    obtain ⟨_, -, rfl⟩ := hleg
    rfl
  rw [hskipped] at hlive
  cases hlive

theorem mem_statusesOf {w : Working} {status : LegStatus} :
    status ∈ statusesOf legs w ↔ ∃ i < legs.length, (w.legs i).status = status := by
  simp [statusesOf]

variable {w : Working}

/-- Some leg failed or was skipped exactly when some leg does not execute, unless the answer of one
is not known. -/
theorem incomplete_iff (hplaced : ∀ i < legs.length, Placed place legs i (w.legs i))
    (hsure : .ambiguousMayBeLive ∉ statusesOf legs w) :
    (.failed ∈ statusesOf legs w ∨ .skippedUnmetDependency ∈ statusesOf legs w) ↔
      ∃ i < legs.length, ¬ Executes place legs i := by
  have hexecuted : ∀ {i : Nat}, i < legs.length → Executes place legs i →
      (w.legs i).status = .executed :=
    fun hi hexecutes => (hplaced _ hi).executed_iff.mpr hexecutes
  constructor
  · rintro (h | h)
    all_goals
      obtain ⟨i, hi, hstatus⟩ := mem_statusesOf.mp h
      refine ⟨i, hi, fun hexecutes => ?_⟩
      rw [hexecuted hi hexecutes] at hstatus
      cases hstatus
  · rintro ⟨i, hi, hnot⟩
    rcases hplaced i hi with ⟨hexecutes, -⟩ | ⟨-, leg, error, -, -, hstatus⟩ | ⟨-, hstatus⟩
    · exact absurd hexecutes hnot
    · by_cases herror : isAmbiguous error
      · rw [if_pos herror] at hstatus
        exact absurd (mem_statusesOf.mpr ⟨i, hi, hstatus⟩) hsure
      · rw [if_neg herror] at hstatus
        exact .inl (mem_statusesOf.mpr ⟨i, hi, hstatus⟩)
    · exact .inr (mem_statusesOf.mpr ⟨i, hi, hstatus⟩)

/-- The answers of the placed legs are all known where no leg is left as may-be-live. -/
theorem unambiguous_iff (hplaced : ∀ i < legs.length, Placed place legs i (w.legs i)) :
    .ambiguousMayBeLive ∉ statusesOf legs w ↔
      ∀ i leg error, Reached place legs i → legs[i]? = some leg → place leg = .error error →
        isAmbiguous error = false := by
  constructor
  · intro hsure i leg error hreached hleg herror
    have hi := (List.getElem?_eq_some_iff.mp hleg).1
    by_contra hnot
    refine hsure (mem_statusesOf.mpr ⟨i, hi, (hplaced i hi).ambiguous_iff.mpr ?_⟩)
    exact ⟨hreached, leg, error, hleg, herror, by simpa using hnot⟩
  · intro hknown hambiguous
    obtain ⟨i, hi, hstatus⟩ := mem_statusesOf.mp hambiguous
    obtain ⟨hreached, leg, error, hleg, herror, htrue⟩ := (hplaced i hi).ambiguous_iff.mp hstatus
    rw [hknown i leg error hreached hleg herror] at htrue
    cases htrue

/-- What the settling of a placed basket leaves. -/
theorem noOrphan_settle {order : List Nat} (horder : topologicalOrder legs = some order)
    (config : BasketConfig) (seams : BasketSeams)
    (hplaced : ∀ i < legs.length, Placed place legs i (w.legs i)) :
    NoOrphan legs (settle legs config seams order w) ↔
      (UnwindRuns legs config place → UnwindKeepsPrerequisites legs seams place) := by
  have hstates : ∀ i < legs.length, ∃ state, Placed place legs i state
      ∧ (w.legs i).status = state.status :=
    fun i hi => ⟨w.legs i, hplaced i hi, rfl⟩
  obtain ⟨-, -, hmem, -⟩ := topologicalOrder_eq_some horder
  unfold settle
  by_cases hambiguous : .ambiguousMayBeLive ∈ statusesOf legs w
  · rw [if_pos hambiguous]
    refine ⟨fun _ hruns => ?_, fun _ => ?_⟩
    · -- an ambiguous leg vetoes the unwind
      exact absurd hambiguous ((unambiguous_iff hplaced).mpr hruns.2.2.1)
    · have hmarked : ∀ i < legs.length, ∃ state, Placed place legs i state
          ∧ (((List.range legs.length).foldl markLeftLive w).legs i).status = state.status :=
        fun i hi => ⟨w.legs i, hplaced i hi, foldl_markLeftLive _ _ _⟩
      exact noOrphan_of_placed hmarked
  rw [if_neg hambiguous]
  have hincomplete := incomplete_iff hplaced hambiguous
  by_cases hall : ∃ i < legs.length, ¬ Executes place legs i
  · rw [if_neg (not_not.mpr (hincomplete.mpr hall))]
    cases hpolicy : config.onLegFailure with
    | unwindExecuted =>
      dsimp only
      have hsure : ∀ i ∈ order, (w.legs i).status ≠ .ambiguousMayBeLive := fun i hi hstatus =>
        hambiguous (mem_statusesOf.mpr ⟨i, (hmem i).mp hi, hstatus⟩)
      rw [noOrphan_unwindExecuted horder config seams (fun i hi => hplaced i ((hmem i).mp hi)) hsure]
      refine ⟨fun h _ => h, fun h => h ⟨hpolicy, by rw [horder]; rfl, ?_, hall⟩⟩
      exact (unambiguous_iff hplaced).mp hambiguous
    | leaveAndAlert =>
      refine ⟨fun _ hruns => ?_, fun _ => noOrphan_of_placed hstates⟩
      rw [hruns.1] at hpolicy
      cases hpolicy
  · -- every leg executed: the basket is complete, and nothing is unwound
    rw [if_pos fun h => hall (hincomplete.mp h)]
    exact ⟨fun _ hruns => absurd hruns.2.2.2 hall, fun _ => noOrphan_of_placed hstates⟩

end

/-- **When a basket leaves no orphan**, for every list of legs, either policy and every
behaviour of the seams: the unwind does not run, or it keeps the prerequisites of every leg it
fails to unwind. -/
theorem no_orphan_iff (legs : List BasketLeg) (config : BasketConfig) (seams : BasketSeams) :
    NoOrphan legs (executeBasket legs config seams) ↔
      ∀ place, seams.placeLeg = some place → UnwindRuns legs config place →
        UnwindKeepsPrerequisites legs seams place := by
  unfold executeBasket
  cases hplace : seams.placeLeg with
  | none =>
    refine ⟨fun _ _ h => (by cases h), fun _ => ?_⟩
    exact noOrphan_blocked _ _
  | some place =>
    have honly : (∀ place', some place = some place' → UnwindRuns legs config place' →
        UnwindKeepsPrerequisites legs seams place') ↔
        (UnwindRuns legs config place → UnwindKeepsPrerequisites legs seams place) :=
      ⟨fun h => h place rfl, fun h place' heq => by cases heq; exact h⟩
    rw [honly]
    cases horder : topologicalOrder legs with
    | none =>
      -- a malformed basket is blocked before the first leg
      refine ⟨fun _ hruns => ?_, fun _ => noOrphan_blocked _ _⟩
      have hordered := hruns.2.1
      rw [horder] at hordered
      cases hordered
    | some order =>
      obtain ⟨-, -, hmem, -⟩ := topologicalOrder_eq_some horder
      have hplaced : ∀ i ∈ order, Placed place legs i
          ((order.foldl (placeOne place legs) .init).legs i) :=
        foldl_placeOne horder [] rfl .init (fun i hi => by cases hi)
      exact noOrphan_settle horder config seams fun i hi => hplaced i ((hmem i).mpr hi)

/-! A hedge, the short leg it protects, and a third leg the broker rejects. -/

def hedgedLegs : List BasketLeg :=
  [⟨ascii "hedge", []⟩, ⟨ascii "short", [ascii "hedge"]⟩, ⟨ascii "extra", []⟩]

/-- The third leg is rejected; the short leg cannot be unwound, the hedge can. -/
def hedgeGoesFirst : BasketSeams where
  placeLeg := some fun leg =>
    if leg.legId = ascii "extra" then .error (Errors.makeError .validation (ascii "rejected"))
    else .ok ⟨leg.legId, []⟩
  unwindLeg := some fun leg _ =>
    if leg.legId = ascii "short" then .error (Errors.makeError .timeout (ascii "late"))
    else .ok ()

def unwindConfig : BasketConfig := ⟨.unwindExecuted, true, ascii "b"⟩

theorem requires_hedge : Requires hedgedLegs 1 0 :=
  .single ⟨⟨ascii "short", [ascii "hedge"]⟩, ⟨ascii "hedge", []⟩, rfl, rfl, by simp⟩

/-- **A short leg stays live without its hedge.** -/
theorem failed_unwind_orphans_short :
    ¬ NoOrphan hedgedLegs (executeBasket hedgedLegs unwindConfig hedgeGoesFirst) := by
  intro h
  have hlegs : (executeBasket hedgedLegs unwindConfig hedgeGoesFirst).result.legs.map (·.status)
      = [.unwound, .executed, .failed] := by decide
  cases hresults : (executeBasket hedgedLegs unwindConfig hedgeGoesFirst).result.legs with
  | nil => simp [hresults] at hlegs
  | cons hedge rest =>
  cases rest with
  | nil => simp [hresults] at hlegs
  | cons short rest =>
  rw [hresults] at hlegs
  simp only [List.map_cons, List.cons.injEq] at hlegs
  obtain ⟨hhedge, hshort, -⟩ := hlegs
  have hlive := h 1 0 short hedge requires_hedge (by rw [hresults]; rfl) (by rw [hresults]; rfl)
    (by rw [hshort]; rfl)
  rw [hhedge] at hlive
  cases hlive

end BrokerExec.Options

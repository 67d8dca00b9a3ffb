import BrokerExec.Domain.Instrument
import BrokerExec.Lib.FixedWidth
import BrokerExec.Lib.Run
import BrokerExec.Ports

/-!
# The protective-stop supervisor (`protection/stop_supervisor.cpp`)

One decision a tick, from the live position alone. Around it stands the market it acts on: the
exits it emitted, which fill in parts, die or stay.

* **`exitOf_eq`** — when it emits, and what.
* **`exits_never_flip`** — exits that are emitted one at a time only ever shrink the position.
* **`exits_pile_up`** — while an exit works, each further tick emits the whole position again.
-/

namespace BrokerExec.Protection

open BrokerExec.Domain (Money OrderState Side)
open BrokerExec.Ports (Alert)

/-! ## The decision -/

structure PriceBand where
  lower : Money
  upper : Money
  valid : Bool
  deriving DecidableEq

structure ProtectiveStop where
  positionId : Bytes
  symbol : Bytes
  /-- Long above zero, short below. -/
  positionQty : Int64
  stopTrigger : Money
  protectiveLimit : Money
  deriving DecidableEq

inductive ProtectionState where
  | armed
  | closed
  | reArmNeeded
  | unprotected
  deriving DecidableEq

structure ExitOrder where
  symbol : Bytes
  side : Side
  qty : Int64
  limitPrice : Money
  deriving DecidableEq

structure ProtectionDecision where
  state : ProtectionState
  emitExit : Bool
  exit : ExitOrder
  alert : Bool
  detail : Bytes
  deriving DecidableEq

structure StopInputs where
  lastPrice : Money
  triggerCrossed : Bool
  protectiveOrderState : OrderState
  protectiveOrderKnown : Bool
  band : PriceBand
  deriving DecidableEq

def ExitOrder.initial : ExitOrder := ⟨[], .sell, 0, 0⟩

/-- The edges in the order of the side's priority. -/
def clampIntoBand (side : Side) (limit : Money) (band : PriceBand) : Money :=
  match side with
  | .sell =>
    let out := if limit < band.lower then band.lower else limit
    if out > band.upper then band.upper else out
  | .buy =>
    let out := if limit > band.upper then band.upper else limit
    if out < band.lower then band.lower else out

/-- `best_effort_alert`: the symbol travels beside the text. -/
def criticalAlert (message symbol : Bytes) : Alert := ⟨.critical, message, ⟨[], [], [], symbol⟩⟩

def emDash : Bytes := [0xE2, 0x80, 0x94]

/-- An inverted band is no band. -/
def PriceBand.usable (band : PriceBand) : Bool := band.valid && band.lower ≤ band.upper

def exitSide (positionQty : Int64) : Side := if positionQty > 0 then .sell else .buy

/-- The magnitude, by unsigned negation. -/
def exitQty (positionQty : Int64) : Int64 := if positionQty > 0 then positionQty else -positionQty

/-- `evaluate_protection`, with the alerts it sends. -/
def evaluateProtection (stop : ProtectiveStop) (inputs : StopInputs) :
    ProtectionDecision × List Alert :=
  if stop.positionQty = 0 then
    (⟨.closed, false, .initial, false,
      ascii "flat position (" ++ stop.symbol ++ ascii "): nothing to protect"⟩, [])
  else if exitQty stop.positionQty ≤ 0 then
    (⟨.unprotected, false, .initial, true,
      ascii "non-positive exit qty for " ++ stop.symbol ++ ascii ": cannot form protective exit"⟩,
      [criticalAlert (ascii ("PROTECTION: non-positive exit quantity; cannot arm a protective "
        ++ "exit ") ++ emDash ++ ascii " manual intervention required") stop.symbol])
  else if inputs.triggerCrossed = false then
    (⟨.armed, false, .initial, false,
      ascii "armed for " ++ stop.symbol ++ ascii ": trigger not crossed"⟩, [])
  else
    let side := exitSide stop.positionQty
    let qty := exitQty stop.positionQty
    if inputs.band.usable then
      (⟨.reArmNeeded, true,
        ⟨stop.symbol, side, qty, clampIntoBand side stop.protectiveLimit inputs.band⟩, true,
        ascii "re-arm protective " ++ side.toString ++ ascii " for " ++ stop.symbol
          ++ ascii ": stop fired-but-unfilled; limit clamped into band"⟩,
        [criticalAlert (ascii "PROTECTION: re-arming protective " ++ side.toString
          ++ ascii " exit " ++ emDash
          ++ ascii " stop trigger crossed but protective order did NOT fill") stop.symbol])
    else
      (⟨.reArmNeeded, true, ⟨stop.symbol, side, qty, stop.protectiveLimit⟩, true,
        ascii "re-arm protective " ++ side.toString ++ ascii " for " ++ stop.symbol
          ++ ascii ": stop fired-but-unfilled; band unknown " ++ emDash
          ++ ascii " protective limit unclamped"⟩,
        [criticalAlert (ascii "PROTECTION: re-arming protective " ++ side.toString
          ++ ascii " exit " ++ emDash ++ ascii (" band unknown; protective limit UNCLAMPED (price "
          ++ "not made safe)")) stop.symbol])

/-- Both orders of the edges end inside the band. -/
theorem clampIntoBand_mem (side : Side) (limit : Money) {band : PriceBand}
    (h : band.lower ≤ band.upper) :
    band.lower ≤ clampIntoBand side limit band ∧ clampIntoBand side limit band ≤ band.upper := by
  rw [Int64.le_iff_toInt_le] at h ⊢
  rw [Int64.le_iff_toInt_le]
  unfold clampIntoBand
  cases side <;> dsimp only <;> split_ifs <;>
    simp only [gt_iff_lt, Int64.lt_iff_toInt_lt] at * <;> omega

/-- The exit that the caller has to dispatch. -/
def exitOf (stop : ProtectiveStop) (inputs : StopInputs) : Option ExitOrder :=
  let decision := (evaluateProtection stop inputs).1
  if decision.emitExit then some decision.exit else none

/-- The price of an exit: inside the band where there is one. -/
def exitLimit (stop : ProtectiveStop) (inputs : StopInputs) : Money :=
  if inputs.band.usable then
    clampIntoBand (exitSide stop.positionQty) stop.protectiveLimit inputs.band
  else stop.protectiveLimit

/-- A crossed trigger has the whole live position closed, whatever the broker's order says. -/
theorem exitOf_eq (stop : ProtectiveStop) (inputs : StopInputs) :
    exitOf stop inputs =
      if 0 < exitQty stop.positionQty ∧ inputs.triggerCrossed = true then
        some ⟨stop.symbol, exitSide stop.positionQty, exitQty stop.positionQty,
          exitLimit stop inputs⟩
      else none := by
  unfold exitOf evaluateProtection exitLimit
  by_cases hqty : 0 < exitQty stop.positionQty
  · have hflat : stop.positionQty ≠ 0 := by
      rintro h
      rw [h] at hqty
      exact absurd hqty (by decide)
    have hpos : ¬exitQty stop.positionQty ≤ 0 := Int64.not_le.mpr hqty
    cases hcrossed : inputs.triggerCrossed with
    | false => simp [hflat, hpos]
    | true => cases husable : inputs.band.usable <;> simp [hflat, hpos, hqty]
  · have hnonpos : exitQty stop.positionQty ≤ 0 := Int64.not_lt.mp hqty
    by_cases hflat : stop.positionQty = 0
    · simp [hflat, exitQty]
    · simp [hflat, hnonpos, hqty]

/-! ## The market around it -/

/-- The live position, and what is left of each exit that works. -/
structure World where
  position : Int64
  working : List ExitOrder

inductive Event where
  | tick (inputs : StopInputs)
  | fill (i : Nat) (qty : Int64)
  | gone (i : Nat)

/-- The position after a fill. -/
def filled (position : Int64) (side : Side) (qty : Int64) : Int64 :=
  match side with
  | .sell => position - qty
  | .buy => position + qty

def World.step (stop : ProtectiveStop) (w : World) : Event → World
  | .tick inputs =>
    match exitOf { stop with positionQty := w.position } inputs with
    | some exit => { w with working := w.working ++ [exit] }
    | none => w
  | .fill i qty =>
    match w.working[i]? with
    | some exit =>
      if 0 < qty ∧ qty ≤ exit.qty then
        ⟨filled w.position exit.side qty,
          if qty = exit.qty then w.working.eraseIdx i
          else w.working.set i { exit with qty := exit.qty - qty }⟩
      else w
    | none => w
  | .gone i => { w with working := w.working.eraseIdx i }

def World.start (position : Int64) : World := ⟨position, []⟩

/-- The trigger is crossed only while no exit works. -/
def OneAtATime (w : World) : Event → Prop
  | .tick inputs => inputs.triggerCrossed = true → w.working = []
  | _ => True

instance (w : World) : (e : Event) → Decidable (OneAtATime w e)
  | .tick inputs => inferInstanceAs (Decidable (inputs.triggerCrossed = true → w.working = []))
  | .fill _ _ => inferInstanceAs (Decidable True)
  | .gone _ => inferInstanceAs (Decidable True)

/-- Between flat and what it was. -/
def Between (start position : Int64) : Prop :=
  min start.toInt 0 ≤ position.toInt ∧ position.toInt ≤ max start.toInt 0

/-- An exit that closes at most the position. -/
def Closes (position : Int64) (exit : ExitOrder) : Prop :=
  0 < exit.qty.toInt ∧
    match exit.side with
    | .sell => exit.qty.toInt ≤ position.toInt
    | .buy => exit.qty.toInt ≤ -position.toInt

structure Inv (start : Int64) (w : World) : Prop where
  between : Between start w.position
  working : w.working = [] ∨ ∃ exit, w.working = [exit] ∧ Closes w.position exit

section Run

variable {stop : ProtectiveStop} {start : Int64} {w : World}

theorem closes_exit {position : Int64} {exit : ExitOrder} {inputs : StopInputs}
    (h : exitOf { stop with positionQty := position } inputs = some exit) :
    Closes position exit ∧ inputs.triggerCrossed = true := by
  rw [exitOf_eq] at h
  split_ifs at h with hemits
  obtain ⟨hqty, hcrossed⟩ := hemits
  obtain rfl := Option.some.inj h
  refine ⟨?_, hcrossed⟩
  rw [Int64.lt_iff_toInt_lt, Int64.toInt_zero] at hqty
  refine ⟨hqty, ?_⟩
  show (match exitSide position with
    | .sell => (exitQty position).toInt ≤ position.toInt
    | .buy => (exitQty position).toInt ≤ -position.toInt)
  unfold exitSide exitQty at *
  by_cases hlong : position > 0
  · simp only [hlong, if_true, le_refl]
  · simp only [hlong, if_false] at hqty ⊢
    have hneg : (-position).toInt = -position.toInt := by
      rw [gt_iff_lt, Int64.lt_iff_toInt_lt, Int64.toInt_zero] at hlong
      have hmin := position.le_toInt
      -- the negative of the least value is itself, which is not above zero
      rcases eq_or_ne position.toInt (-2 ^ 63) with hleast | hleast
      · rw [Int64.toInt_neg, hleast] at hqty
        exact absurd hqty (by decide)
      · apply toInt_neg_of_fits
        unfold FitsInt64
        omega
    exact hneg.le

/-- A fill of what closes the position leaves the rest to close. -/
theorem filled_closes {position qty : Int64} {exit : ExitOrder} (h : Closes position exit)
    (hqty : 0 < qty.toInt) (hle : qty.toInt ≤ exit.qty.toInt) (hbetween : Between start position) :
    Between start (filled position exit.side qty)
      ∧ (qty ≠ exit.qty → Closes (filled position exit.side qty)
          { exit with qty := exit.qty - qty }) := by
  obtain ⟨hpos, hside⟩ := h
  have hmin := position.le_toInt
  have hmax := position.toInt_lt
  have hrest : (exit.qty - qty).toInt = exit.qty.toInt - qty.toInt := by
    apply toInt_sub_of_fits
    have := exit.qty.toInt_lt
    unfold FitsInt64
    omega
  unfold Between at hbetween ⊢
  cases hcase : exit.side with
  | sell =>
    rw [hcase] at hside
    have hposition : (position - qty).toInt = position.toInt - qty.toInt := by
      apply toInt_sub_of_fits
      unfold FitsInt64
      omega
    refine ⟨by simp only [filled, hposition]; omega, fun hne => ?_⟩
    have hlt : qty.toInt ≠ exit.qty.toInt := fun h => hne (Int64.toInt_inj.mp h)
    simp only [Closes, filled, hposition, hrest]
    omega
  | buy =>
    rw [hcase] at hside
    have hposition : (position + qty).toInt = position.toInt + qty.toInt := by
      apply toInt_add_of_fits
      unfold FitsInt64
      omega
    refine ⟨by simp only [filled, hposition]; omega, fun hne => ?_⟩
    have hlt : qty.toInt ≠ exit.qty.toInt := fun h => hne (Int64.toInt_inj.mp h)
    simp only [Closes, filled, hposition, hrest]
    omega

/-- A fill of the one exit that works takes from it and from the position alike. -/
theorem Inv.fill {w : World} (h : Inv start w) {exit : ExitOrder} (hone : w.working = [exit])
    (hcloses : Closes w.position exit) (qty : Int64) : Inv start (w.step stop (.fill 0 qty)) := by
  by_cases hfill : 0 < qty ∧ qty ≤ exit.qty
  · obtain ⟨hqty, hle⟩ := hfill
    have hstep : w.step stop (.fill 0 qty)
        = ⟨filled w.position exit.side qty,
          if qty = exit.qty then [] else [{ exit with qty := exit.qty - qty }]⟩ := by
      simp [World.step, hone, hqty, hle]
    rw [Int64.lt_iff_toInt_lt, Int64.toInt_zero] at hqty
    rw [Int64.le_iff_toInt_le] at hle
    obtain ⟨hbetween, hrest⟩ := filled_closes hcloses hqty hle h.between
    rw [hstep]
    refine ⟨hbetween, ?_⟩
    by_cases hall : qty = exit.qty
    · exact .inl (by simp [hall])
    · exact .inr ⟨_, by simp [hall], hrest hall⟩
  · -- a quantity that the exit does not have is no fill of it
    have hstep : w.step stop (.fill 0 qty) = w := by simp [World.step, hone, hfill]
    rw [hstep]
    exact h

theorem inv_step (w : World) (e : Event) (h : Inv start w) (he : OneAtATime w e) :
    Inv start (w.step stop e) := by
  cases e with
  | tick inputs =>
    show Inv start (match exitOf _ inputs with | some exit => _ | none => w)
    cases hexit : exitOf { stop with positionQty := w.position } inputs with
    | none => exact h
    | some exit =>
      obtain ⟨hcloses, hcrossed⟩ := closes_exit hexit
      refine ⟨h.between, .inr ⟨exit, ?_, hcloses⟩⟩
      show w.working ++ [exit] = [exit]
      rw [he hcrossed, List.nil_append]
  | gone i =>
    refine ⟨h.between, ?_⟩
    rcases h.working with hnone | ⟨exit, hone, hcloses⟩
    · exact .inl (by simp [World.step, hnone])
    · cases i with
      | zero => exact .inl (by simp [World.step, hone])
      | succ i => exact .inr ⟨exit, by simp [World.step, hone], hcloses⟩
  | fill i qty =>
    rcases h.working with hnone | ⟨exit, hone, hcloses⟩
    · have hstep : w.step stop (.fill i qty) = w := by simp [World.step, hnone]
      rw [hstep]
      exact h
    · cases i with
      | succ i =>
        have hstep : w.step stop (.fill (i + 1) qty) = w := by simp [World.step, hone]
        rw [hstep]
        exact h
      | zero => exact h.fill hone hcloses qty

end Run

/-- **As long as the trigger is crossed only while no exit works, the position never grows and never
changes its side**, whatever fills, in whatever parts, and whatever dies; and what works never
closes more than is left. -/
theorem exits_never_flip (stop : ProtectiveStop) (start : Int64) (events : List Event)
    (h : Along (World.step stop) OneAtATime (.start start) events) :
    Between start (run (World.step stop) (.start start) events).position
      ∧ ∀ exit ∈ (run (World.step stop) (.start start) events).working,
        Closes (run (World.step stop) (.start start) events).position exit := by
  have hstart : Inv start (World.start start) := ⟨⟨min_le_left _ _, le_max_left _ _⟩, .inl rfl⟩
  obtain ⟨hbetween, hworking⟩ := run_keeps inv_step hstart h
  refine ⟨hbetween, fun exit hexit => ?_⟩
  rcases hworking with hnone | ⟨one, hone, hcloses⟩
  · rw [hnone] at hexit
    cases hexit
  · rw [hone, List.mem_singleton] at hexit
    rw [hexit]
    exact hcloses


def crossedTick : Event := .tick ⟨0, true, .unknown, false, ⟨0, 0, false⟩⟩

theorem exits_never_flip_parts :
    Between 10 6 ∧ ∀ exit ∈ [(⟨[], .sell, 6, 0⟩ : ExitOrder)], Closes 6 exit :=
  exits_never_flip ⟨[], [], 10, 0, 0⟩ 10 [crossedTick, .fill 0 4] (by decide)

/-! ## Two exits at once -/

section Pile

variable {stop : ProtectiveStop}

/-- The exit of one tick, over the whole position. -/
def wholeExit (stop : ProtectiveStop) (position : Int64) (inputs : StopInputs) : ExitOrder :=
  ⟨stop.symbol, exitSide position, exitQty position,
    exitLimit { stop with positionQty := position } inputs⟩

theorem run_ticks {position : Int64} (hqty : 0 < exitQty position) (working : List ExitOrder)
    {inputs : List StopInputs} (hcrossed : ∀ i ∈ inputs, i.triggerCrossed = true) :
    run (World.step stop) ⟨position, working⟩ (inputs.map .tick)
      = ⟨position, working ++ inputs.map (wholeExit stop position)⟩ := by
  induction inputs generalizing working with
  | nil => simp
  | cons first rest ih =>
    obtain ⟨hfirst, hrest⟩ := List.forall_mem_cons.mp hcrossed
    have hexit : exitOf { stop with positionQty := position } first
        = some (wholeExit stop position first) := by
      rw [exitOf_eq, if_pos ⟨hqty, hfirst⟩]
      rfl
    have hstep : World.step stop ⟨position, working⟩ (.tick first)
        = ⟨position, working ++ [wholeExit stop position first]⟩ := by
      simp only [World.step, hexit]
    rw [List.map_cons, run_cons, hstep, ih _ hrest, List.map_cons, List.append_assoc,
      List.singleton_append]

/-- The exit of the whole position moves any position by it. -/
theorem filled_whole (position start : Int64) :
    filled position (exitSide start) (exitQty start) = position - start := by
  unfold exitSide exitQty
  by_cases hlong : start > 0
  · simp [hlong, filled]
  · simp [hlong, filled, Int64.sub_eq_add_neg]

theorem run_fills {start : Int64} (hqty : 0 < exitQty start) {exits : List ExitOrder}
    (hexits : ∀ e ∈ exits, e.side = exitSide start ∧ e.qty = exitQty start) {position : Int64}
    (hfits : FitsInt64 (position.toInt - exits.length * start.toInt)) :
    (run (World.step stop) ⟨position, exits⟩
        (List.replicate exits.length (.fill 0 (exitQty start)))).position.toInt
      = position.toInt - exits.length * start.toInt := by
  induction exits generalizing position with
  | nil => simp
  | cons first rest ih =>
    obtain ⟨⟨hside, hqtyFirst⟩, hrest⟩ := List.forall_mem_cons.mp hexits
    have hstep : World.step stop ⟨position, first :: rest⟩ (.fill 0 (exitQty start))
        = ⟨position - start, rest⟩ := by
      simp [World.step, hside, hqtyFirst, hqty, filled_whole]
    have hlength : ((first :: rest).length : Int) * start.toInt
        = rest.length * start.toInt + start.toInt := by
      simp [add_mul]
    rw [hlength] at hfits ⊢
    -- the way there stays between its ends
    have hmoved : (position - start).toInt = position.toInt - start.toInt := by
      apply toInt_sub_of_fits
      have hmin := position.le_toInt
      have hmax := position.toInt_lt
      unfold FitsInt64 at hfits ⊢
      rcases le_total 0 start.toInt with hsign | hsign
      · have := mul_nonneg (Int.natCast_nonneg rest.length) hsign
        omega
      · have := mul_nonpos_of_nonneg_of_nonpos (Int.natCast_nonneg rest.length) hsign
        omega
    rw [List.length_cons, List.replicate_succ, run_cons, hstep, ih hrest, hmoved]
    · omega
    · rw [hmoved, sub_sub, add_comm start.toInt]
      exact hfits

end Pile

/-- **The supervisor does not look for its own exits**: every crossed tick emits the whole position
again, and when all of `n` such exits fill, the position has moved by `n` times itself, through flat
to the other side from the second on. -/
theorem exits_pile_up (stop : ProtectiveStop) {start : Int64} (hqty : 0 < exitQty start)
    {inputs : List StopInputs} (hcrossed : ∀ i ∈ inputs, i.triggerCrossed = true)
    (hfits : FitsInt64 (start.toInt - inputs.length * start.toInt)) :
    (run (World.step stop) (.start start) (inputs.map .tick)).working
        = inputs.map (wholeExit stop start)
      ∧ (run (World.step stop) (.start start) (inputs.map .tick
          ++ List.replicate inputs.length (.fill 0 (exitQty start)))).position.toInt
        = start.toInt - inputs.length * start.toInt := by
  have hticks : run (World.step stop) ⟨start, []⟩ (inputs.map .tick)
      = ⟨start, inputs.map (wholeExit stop start)⟩ := run_ticks hqty [] hcrossed
  refine ⟨by rw [World.start, hticks], ?_⟩
  have hexits : ∀ e ∈ inputs.map (wholeExit stop start),
      e.side = exitSide start ∧ e.qty = exitQty start := by
    intro e he
    obtain ⟨i, -, rfl⟩ := List.mem_map.mp he
    exact ⟨rfl, rfl⟩
  rw [← List.length_map (wholeExit stop start)] at hfits ⊢
  rw [run_append, World.start, hticks]
  exact run_fills hqty hexits hfits

theorem exits_pile_up_twice :
    (run (World.step ⟨[], [], 10, 0, 0⟩) (.start 10) [crossedTick, crossedTick]).working
        = [⟨[], .sell, 10, 0⟩, ⟨[], .sell, 10, 0⟩]
      ∧ (run (World.step ⟨[], [], 10, 0, 0⟩) (.start 10)
          [crossedTick, crossedTick, .fill 0 10, .fill 0 10]).position.toInt = 10 - (2 : Nat) * 10 :=
  have hcrossed : ∀ i ∈ List.replicate 2 (⟨0, true, .unknown, false, ⟨0, 0, false⟩⟩ : StopInputs),
      i.triggerCrossed = true := by decide
  exits_pile_up ⟨[], [], 10, 0, 0⟩ (by decide) hcrossed (by decide)

end BrokerExec.Protection

import BrokerExec.Domain.Types
import BrokerExec.Lib.Run
import BrokerExec.Lib.Table

/-!
# The strategy book (`isolation/strategy_book.cpp`)

Every strategy has a book of its own: a position for each symbol, with the average cost of what
is open and the profit realized so far. Quantities and paise are unbounded integers here.

* **`accounts_exact_iff`** — the net quantity is the sum of the signed fills; a flat position's
  realized profit is what its sells brought less what its buys cost exactly when the remainders
  that the average cost dropped on the way cancel.
-/

namespace BrokerExec.Isolation

open BrokerExec.Domain (Side)

/-! ## Positions and books -/

structure Position where
  netQty : Int
  avgCost : Int
  realizedPnl : Int
  deriving DecidableEq

/-- `Position{}`. -/
def Position.flat : Position := ⟨0, 0, 0⟩

structure StrategyState where
  positions : Table Bytes (Bytes × Position) Prod.fst
  tag : Bytes
  active : Bool

def StrategyState.fresh : StrategyState := ⟨.empty, [], true⟩

structure StrategyBook where
  strategies : Table Bytes (Bytes × StrategyState) Prod.fst

def StrategyBook.empty : StrategyBook := ⟨.empty⟩

structure Fill where
  strategyId : Bytes
  symbol : Bytes
  side : Side
  qty : Int
  price : Int

/-- A buy adds to the position, a sell takes from it. -/
def Fill.signedQty (fill : Fill) : Int :=
  match fill.side with
  | .buy => fill.qty
  | .sell => -fill.qty

def abs64 (x : Int) : Int := if x < 0 then -x else x

/-- Flat, or in the direction of the position. -/
def Position.isOpening (pos : Position) (f : Int) : Bool :=
  pos.netQty = 0 || decide (0 < pos.netQty) == decide (0 < f)

/-- What `apply_fill` makes of the position it found, for a signed quantity other than zero. -/
def Position.take (pos : Position) (f price : Int) : Position :=
  let n := pos.netQty
  if pos.isOpening f then
    let blended := (abs64 n * pos.avgCost + abs64 f * price).tdiv (abs64 n + abs64 f)
    { pos with avgCost := blended, netQty := n + f }
  else
    let closed := min (abs64 f) (abs64 n)
    let sign := if 0 < n then 1 else -1
    { netQty := n + f
      avgCost :=
        if n + f = 0 then 0
        else if abs64 f > abs64 n then price
        else pos.avgCost
      realizedPnl := pos.realizedPnl + (price - pos.avgCost) * closed * sign }

def StrategyBook.stateOf (book : StrategyBook) (strategyId : Bytes) : Option StrategyState :=
  (book.strategies.find strategyId).map Prod.snd

def StrategyState.position (state : StrategyState) (symbol : Bytes) : Option Position :=
  (state.positions.find symbol).map Prod.snd

def StrategyBook.applyFill (book : StrategyBook) (fill : Fill) : StrategyBook :=
  if fill.signedQty = 0 then book
  else
    let state := (book.stateOf fill.strategyId).getD .fresh
    let pos := (state.position fill.symbol).getD .flat
    let pos' := pos.take fill.signedQty fill.price
    ⟨book.strategies.upsert
      (fill.strategyId, { state with positions := state.positions.upsert (fill.symbol, pos') })⟩

def StrategyBook.positionOf (book : StrategyBook) (strategyId symbol : Bytes) : Position :=
  match book.stateOf strategyId with
  | none => .flat
  | some state =>
    match state.position symbol with
    | none => .flat
    | some pos => pos

/-! ## One position of the book -/

/-- The fill on its own position; a zero fill is none. -/
def Position.applyFill (pos : Position) (fill : Fill) : Position :=
  if fill.signedQty = 0 then pos else pos.take fill.signedQty fill.price

/-- The fill is for this strategy's position in this symbol. -/
def Fill.isFor (fill : Fill) (strategyId symbol : Bytes) : Prop :=
  fill.strategyId = strategyId ∧ fill.symbol = symbol

instance (fill : Fill) (strategyId symbol : Bytes) : Decidable (fill.isFor strategyId symbol) :=
  inferInstanceAs (Decidable (_ ∧ _))

theorem stateOf_upsert (book : StrategyBook) (id : Bytes) (state : StrategyState)
    (strategyId : Bytes) :
    StrategyBook.stateOf ⟨book.strategies.upsert (id, state)⟩ strategyId
      = if strategyId = id then some state else book.stateOf strategyId := by
  unfold StrategyBook.stateOf
  rw [Table.find_upsert]
  split_ifs
  · rfl
  · rfl

theorem position_upsert (state : StrategyState) (sym : Bytes) (pos : Position) (symbol : Bytes) :
    StrategyState.position { state with positions := state.positions.upsert (sym, pos) } symbol
      = if symbol = sym then some pos else state.position symbol := by
  unfold StrategyState.position
  rw [Table.find_upsert]
  split_ifs
  · rfl
  · rfl

theorem positionOf_eq (book : StrategyBook) (strategyId symbol : Bytes) :
    book.positionOf strategyId symbol
      = (((book.stateOf strategyId).getD .fresh).position symbol).getD .flat := by
  unfold StrategyBook.positionOf
  cases book.stateOf strategyId with
  | none => rfl
  | some state =>
    show (match state.position symbol with
      | none => Position.flat
      | some pos => pos) = (state.position symbol).getD .flat
    cases state.position symbol <;> rfl

/-- **A fill reaches the position it is for and no other.** -/
theorem positionOf_applyFill (book : StrategyBook) (fill : Fill) (strategyId symbol : Bytes) :
    (book.applyFill fill).positionOf strategyId symbol
      = if fill.isFor strategyId symbol then (book.positionOf strategyId symbol).applyFill fill
        else book.positionOf strategyId symbol := by
  unfold StrategyBook.applyFill Position.applyFill
  by_cases hzero : fill.signedQty = 0
  · rw [if_pos hzero, if_pos hzero, ite_self]
  rw [if_neg hzero, if_neg hzero]
  dsimp only
  rw [positionOf_eq, stateOf_upsert]
  by_cases hid : strategyId = fill.strategyId
  · subst hid
    rw [if_pos rfl, Option.getD_some, position_upsert]
    by_cases hsymbol : symbol = fill.symbol
    · subst hsymbol
      rw [if_pos rfl, if_pos ⟨rfl, rfl⟩, Option.getD_some, positionOf_eq]
    · rw [if_neg hsymbol, if_neg fun hfor => hsymbol hfor.2.symm, positionOf_eq]
  · rw [if_neg hid, if_neg fun hfor => hid hfor.1.symm, positionOf_eq]

/-- The position after a run of the book is the run of its own fills. -/
theorem positionOf_run (book : StrategyBook) (fills : List Fill) (strategyId symbol : Bytes) :
    (run StrategyBook.applyFill book fills).positionOf strategyId symbol
      = run Position.applyFill (book.positionOf strategyId symbol)
          (fills.filter (·.isFor strategyId symbol)) := by
  refine view_run (fun book => book.positionOf strategyId symbol) Position.applyFill
    (fun book fill hown => ?_) (fun book fill hother => ?_) book fills
  · rw [positionOf_applyFill, if_pos (by simpa using hown)]
  · rw [positionOf_applyFill, if_neg (by simpa using hother)]

/-! ## What the average cost drops -/

/-- The remainder that the division of an opening fill drops, on the side of the position. -/
def Position.dropped (pos : Position) (fill : Fill) : Int :=
  let f := fill.signedQty
  if f ≠ 0 ∧ pos.isOpening f then
    f.sign * (abs64 pos.netQty * pos.avgCost + abs64 f * fill.price).tmod
      (abs64 pos.netQty + abs64 f)
  else 0

/-- The remainders dropped along a run of fills. -/
def droppedSum : Position → List Fill → Int
  | _, [] => 0
  | pos, fill :: fills => pos.dropped fill + droppedSum (pos.applyFill fill) fills

/-- The realized profit less the cost of what is open. -/
def Position.bookValue (pos : Position) : Int := pos.realizedPnl - pos.netQty * pos.avgCost

theorem abs64_pos {x : Int} (h : 0 < x) : abs64 x = x := if_neg (by omega)

theorem abs64_neg {x : Int} (h : x < 0) : abs64 x = -x := if_pos h

theorem take_netQty (pos : Position) (f price : Int) :
    (pos.take f price).netQty = pos.netQty + f := by
  unfold Position.take
  dsimp only
  split_ifs <;> rfl

/-- An opening fill: cost of the position and of the fill are pooled, the remainder is dropped. -/
theorem bookValue_opening {pos : Position} {f : Int} (price : Int) (hf : f ≠ 0)
    (hopening : pos.isOpening f = true) :
    (pos.take f price).bookValue
      = pos.bookValue - f * price
        + f.sign * (abs64 pos.netQty * pos.avgCost + abs64 f * price).tmod
            (abs64 pos.netQty + abs64 f) := by
  have htake : pos.take f price
      = { pos with
          avgCost := (abs64 pos.netQty * pos.avgCost + abs64 f * price).tdiv
            (abs64 pos.netQty + abs64 f)
          netQty := pos.netQty + f } := if_pos hopening
  rw [htake]
  have hdivmod := Int.mul_tdiv_add_tmod (abs64 pos.netQty * pos.avgCost + abs64 f * price)
    (abs64 pos.netQty + abs64 f)
  show pos.realizedPnl - (pos.netQty + f)
      * (abs64 pos.netQty * pos.avgCost + abs64 f * price).tdiv (abs64 pos.netQty + abs64 f)
    = pos.realizedPnl - pos.netQty * pos.avgCost - f * price + _
  generalize (abs64 pos.netQty * pos.avgCost + abs64 f * price).tdiv
    (abs64 pos.netQty + abs64 f) = blended at hdivmod ⊢
  generalize (abs64 pos.netQty * pos.avgCost + abs64 f * price).tmod
    (abs64 pos.netQty + abs64 f) = remainder at hdivmod ⊢
  have hside : pos.netQty = 0 ∨ (0 < pos.netQty ↔ 0 < f) := by
    simpa [Position.isOpening] using hopening
  rcases Int.lt_or_gt_of_ne hf with hshort | hlong
  · -- a short grows: both magnitudes are the negated quantities
    have hn : abs64 pos.netQty = -pos.netQty := by
      rcases lt_trichotomy pos.netQty 0 with h | h | h
      · exact abs64_neg h
      · rw [h]
        rfl
      · omega
    rw [hn, abs64_neg hshort] at hdivmod
    rw [Int.sign_eq_neg_one_of_neg hshort]
    linarith
  · have hn : abs64 pos.netQty = pos.netQty := by
      rcases lt_trichotomy pos.netQty 0 with h | h | h
      · omega
      · rw [h]
        rfl
      · exact abs64_pos h
    rw [hn, abs64_pos hlong] at hdivmod
    rw [Int.sign_eq_one_of_pos hlong]
    linarith

/-- A closing fill trades at its own price; nothing is dropped. -/
theorem bookValue_closing {pos : Position} {f : Int} (price : Int)
    (hclosing : pos.isOpening f = false) :
    (pos.take f price).bookValue = pos.bookValue - f * price := by
  have htake : pos.take f price
      = { netQty := pos.netQty + f
          avgCost :=
            if pos.netQty + f = 0 then 0
            else if abs64 f > abs64 pos.netQty then price
            else pos.avgCost
          realizedPnl := pos.realizedPnl + (price - pos.avgCost)
            * min (abs64 f) (abs64 pos.netQty) * (if 0 < pos.netQty then 1 else -1) } :=
    if_neg (by rw [hclosing]; exact Bool.false_ne_true)
  rw [htake]
  have hside : pos.netQty ≠ 0 ∧ ¬ (0 < pos.netQty ↔ 0 < f) := by
    simpa [Position.isOpening] using hclosing
  show pos.realizedPnl + (price - pos.avgCost) * min (abs64 f) (abs64 pos.netQty)
      * (if 0 < pos.netQty then 1 else -1)
      - (pos.netQty + f) * (if pos.netQty + f = 0 then 0
          else if abs64 f > abs64 pos.netQty then price else pos.avgCost)
    = pos.realizedPnl - pos.netQty * pos.avgCost - f * price
  -- what is closed has the sign of the position
  have hclosed : min (abs64 f) (abs64 pos.netQty) * (if 0 < pos.netQty then 1 else -1)
      = if abs64 f > abs64 pos.netQty then pos.netQty else -f := by
    unfold abs64
    split_ifs <;> omega
  rw [mul_assoc, hclosed]
  by_cases hflat : pos.netQty + f = 0
  · rw [if_pos hflat, if_neg (by unfold abs64; split_ifs <;> omega)]
    rw [show pos.netQty = -f by omega]
    ring
  · rw [if_neg hflat]
    split_ifs
    · ring
    · ring

/-- **One fill.** Its notional leaves the book value, but for what the division drops. -/
theorem bookValue_applyFill (pos : Position) (fill : Fill) :
    (pos.applyFill fill).bookValue
      = pos.bookValue - fill.signedQty * fill.price + pos.dropped fill := by
  unfold Position.applyFill Position.dropped
  by_cases hzero : fill.signedQty = 0
  · rw [if_pos hzero, hzero]
    simp
  rw [if_neg hzero]
  cases hopening : pos.isOpening fill.signedQty with
  | true =>
    rw [bookValue_opening fill.price hzero hopening, if_pos ⟨hzero, hopening⟩]
  | false =>
    rw [bookValue_closing fill.price hopening]
    rw [if_neg fun h => Bool.false_ne_true (hopening.symm.trans h.2)]
    omega

theorem netQty_applyFill (pos : Position) (fill : Fill) :
    (pos.applyFill fill).netQty = pos.netQty + fill.signedQty := by
  unfold Position.applyFill
  split_ifs with hzero
  · omega
  · exact take_netQty pos fill.signedQty fill.price

/-! ## A run of fills -/

/-- What the fills of one side traded, in paise. -/
def notional (side : Side) (fills : List Fill) : Int :=
  ((fills.filter (·.side = side)).map fun fill => fill.qty * fill.price).sum

theorem notional_cons (side : Side) (fill : Fill) (fills : List Fill) :
    notional side (fill :: fills)
      = (if fill.side = side then fill.qty * fill.price else 0) + notional side fills := by
  unfold notional
  rw [List.filter_cons]
  by_cases hside : fill.side = side
  · simp [hside]
  · simp [hside]

/-- A fill's notional counts for its own side. -/
theorem sub_notional_cons (fill : Fill) (fills : List Fill) :
    notional .sell (fill :: fills) - notional .buy (fill :: fills)
      = notional .sell fills - notional .buy fills - fill.signedQty * fill.price := by
  rw [notional_cons, notional_cons]
  unfold Fill.signedQty
  cases fill.side with
  | buy =>
    simp only [reduceCtorEq, if_false, if_true]
    omega
  | sell =>
    simp only [reduceCtorEq, if_false, if_true, Int.neg_mul]
    omega

theorem netQty_run (pos : Position) (fills : List Fill) :
    (run Position.applyFill pos fills).netQty
      = pos.netQty + (fills.map Fill.signedQty).sum := by
  induction fills generalizing pos with
  | nil => simp
  | cons fill fills ih =>
    rw [run_cons, ih, netQty_applyFill, List.map_cons, List.sum_cons]
    omega

theorem bookValue_run (pos : Position) (fills : List Fill) :
    (run Position.applyFill pos fills).bookValue
      = pos.bookValue + (notional .sell fills - notional .buy fills) + droppedSum pos fills := by
  induction fills generalizing pos with
  | nil => simp [notional, droppedSum]
  | cons fill fills ih =>
    rw [run_cons, ih, bookValue_applyFill, sub_notional_cons, droppedSum]
    omega

/-! ## Exact accounting -/

/-- The position that fills from the empty book leave is accounted for exactly. -/
def AccountsExact (fills : List Fill) (strategyId symbol : Bytes) : Prop :=
  let pos := (run StrategyBook.applyFill .empty fills).positionOf strategyId symbol
  let own := fills.filter (·.isFor strategyId symbol)
  pos.netQty = (own.map Fill.signedQty).sum
    ∧ (pos.netQty = 0 → pos.realizedPnl = notional .sell own - notional .buy own)

/-- **When the books are exact.** For fills on any strategies and symbols, in any order. -/
theorem accounts_exact_iff (fills : List Fill) (strategyId symbol : Bytes) :
    AccountsExact fills strategyId symbol ↔
      (((fills.filter (·.isFor strategyId symbol)).map Fill.signedQty).sum = 0 →
        droppedSum .flat (fills.filter (·.isFor strategyId symbol)) = 0) := by
  unfold AccountsExact
  dsimp only
  rw [positionOf_run, show StrategyBook.empty.positionOf strategyId symbol = .flat from rfl]
  generalize fills.filter (·.isFor strategyId symbol) = own
  have hnet : (run Position.applyFill .flat own).netQty = (own.map Fill.signedQty).sum := by
    rw [netQty_run]
    exact Int.zero_add _
  have hvalue := bookValue_run .flat own
  rw [show Position.flat.bookValue = 0 from rfl] at hvalue
  unfold Position.bookValue at hvalue
  rw [hnet] at hvalue ⊢
  refine ⟨fun h hflat => ?_, fun h => ⟨rfl, fun hflat => ?_⟩⟩
  · have hrealized := h.2 hflat
    rw [hflat] at hvalue
    omega
  · have hdropped := h hflat
    rw [hflat] at hvalue
    omega

/-- Two buys at 100 and 101 paise average 100; selling both at 101 then realizes 2 for 1. -/
theorem accounts_drift :
    ¬ AccountsExact
      [⟨ascii "A", ascii "X", .buy, 1, 100⟩, ⟨ascii "A", ascii "X", .buy, 1, 101⟩,
        ⟨ascii "A", ascii "X", .sell, 2, 101⟩] (ascii "A") (ascii "X") := by
  unfold AccountsExact
  decide

end BrokerExec.Isolation

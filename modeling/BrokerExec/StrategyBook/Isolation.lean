import BrokerExec.Lib.Tally
import BrokerExec.StrategyBook

/-!
# Strategy isolation (`isolation/strategy_book.cpp`)

A strategy's operations touch its own book; only `square_off` with netting acts on the account.

* **`strategies_isolated`** — over any run, the book of a strategy is what its own operations make
  of it; netting sends one leg for each symbol whose account net is not zero, and leaves every
  book flat with its realized profit.
-/

namespace BrokerExec.Isolation

open BrokerExec.Domain (Side)

/-! ## Tag and active flag -/

/-- `strategies_[strategy_id]`, changed; a missing record is inserted first. -/
def StrategyBook.modify (book : StrategyBook) (strategyId : Bytes)
    (f : StrategyState → StrategyState) : StrategyBook :=
  ⟨book.strategies.upsert (strategyId, f ((book.stateOf strategyId).getD .fresh))⟩

def StrategyBook.setTag (book : StrategyBook) (strategyId tag : Bytes) : StrategyBook :=
  book.modify strategyId fun state => { state with tag := tag }

def StrategyBook.stopStrategy (book : StrategyBook) (strategyId : Bytes) : StrategyBook :=
  book.modify strategyId fun state => { state with active := false }

def StrategyBook.resumeStrategy (book : StrategyBook) (strategyId : Bytes) : StrategyBook :=
  book.modify strategyId fun state => { state with active := true }

def StrategyBook.tagOf (book : StrategyBook) (strategyId : Bytes) : Bytes :=
  match book.stateOf strategyId with
  | none => []
  | some state => state.tag

/-- An unknown strategy is active. -/
def StrategyBook.isActive (book : StrategyBook) (strategyId : Bytes) : Bool :=
  match book.stateOf strategyId with
  | none => true
  | some state => state.active

/-! ## Squaring off -/

structure FlattenLeg where
  symbol : Bytes
  qty : Int
  side : Side
  deriving DecidableEq

/-- The leg that offsets a net quantity; a flat one needs none. -/
def flattenLeg (row : Bytes × Int) : Option FlattenLeg :=
  if row.2 = 0 then none
  else some ⟨row.1, abs64 row.2, if 0 < row.2 then .sell else .buy⟩

/-- The realized profit is history and stays. -/
def Position.flatten (pos : Position) : Position :=
  if pos.netQty = 0 then pos else { pos with netQty := 0, avgCost := 0 }

/-- Every position that the condition names is flattened. -/
def StrategyState.flatten (state : StrategyState) (named : Bytes → Bool) : StrategyState :=
  { state with
    positions := state.positions.mapRows
      (fun row => (row.1, if named row.1 then row.2.flatten else row.2)) fun _ => rfl }

/-- The net quantities of the account, over all strategies. -/
def StrategyBook.accountNet (book : StrategyBook) : Tally Bytes :=
  book.strategies.rows.foldl
    (fun net row => Tally.addAll net (row.2.positions.rows.map fun r => (r.1, r.2.netQty))) .empty

def StrategyBook.squareOff (book : StrategyBook) (strategyId : Bytes) (nettingEnabled : Bool) :
    StrategyBook × List FlattenLeg :=
  if nettingEnabled = false then
    match book.stateOf strategyId with
    | none => (book, [])
    | some state =>
      (⟨book.strategies.upsert (strategyId, state.flatten fun _ => true)⟩,
        state.positions.rows.filterMap fun row => flattenLeg (row.1, row.2.netQty))
  else
    let accountNet := book.accountNet
    (⟨book.strategies.mapRows
        (fun row => (row.1, row.2.flatten fun symbol => (accountNet.find symbol).isSome))
        fun _ => rfl⟩,
      accountNet.rows.filterMap flattenLeg)

/-! ## The operations of one strategy -/

/-- The calls that name one strategy and act on its own book. -/
inductive Operation
  | applyFill (fill : Fill)
  | squareOff (strategyId : Bytes)
  | setTag (strategyId tag : Bytes)
  | stopStrategy (strategyId : Bytes)
  | resumeStrategy (strategyId : Bytes)

def Operation.strategyId : Operation → Bytes
  | .applyFill fill => fill.strategyId
  | .squareOff strategyId => strategyId
  | .setTag strategyId _ => strategyId
  | .stopStrategy strategyId => strategyId
  | .resumeStrategy strategyId => strategyId

def StrategyBook.step (book : StrategyBook) : Operation → StrategyBook
  | .applyFill fill => book.applyFill fill
  | .squareOff strategyId => (book.squareOff strategyId false).1
  | .setTag strategyId tag => book.setTag strategyId tag
  | .stopStrategy strategyId => book.stopStrategy strategyId
  | .resumeStrategy strategyId => book.resumeStrategy strategyId

/-- What an operation makes of the record of the strategy that it names. -/
def ownStep (own : Option StrategyState) : Operation → Option StrategyState
  | .applyFill fill =>
    if fill.signedQty = 0 then own
    else
      let state := own.getD .fresh
      let pos := (state.position fill.symbol).getD .flat
      some { state with
        positions := state.positions.upsert
          (fill.symbol, pos.take fill.signedQty fill.price) }
  | .squareOff _ => own.map fun state => state.flatten fun _ => true
  | .setTag _ tag => some { own.getD .fresh with tag := tag }
  | .stopStrategy _ => some { own.getD .fresh with active := false }
  | .resumeStrategy _ => some { own.getD .fresh with active := true }

theorem stateOf_modify (book : StrategyBook) (id : Bytes) (f : StrategyState → StrategyState)
    (strategyId : Bytes) :
    (book.modify id f).stateOf strategyId
      = if strategyId = id then some (f ((book.stateOf id).getD .fresh))
        else book.stateOf strategyId :=
  stateOf_upsert book id _ strategyId

/-- **One operation.** It reads and writes the record of the strategy that it names. -/
theorem stateOf_step (book : StrategyBook) (op : Operation) (strategyId : Bytes) :
    (book.step op).stateOf strategyId
      = if strategyId = op.strategyId then ownStep (book.stateOf op.strategyId) op
        else book.stateOf strategyId := by
  cases op with
  | applyFill fill =>
    show (book.applyFill fill).stateOf strategyId = if strategyId = fill.strategyId then _ else _
    unfold StrategyBook.applyFill ownStep
    by_cases hzero : fill.signedQty = 0
    · rw [if_pos hzero]
      dsimp only
      rw [if_pos hzero]
      split_ifs with hid
      · rw [hid]
        rfl
      · rfl
    · rw [if_neg hzero]
      dsimp only
      rw [if_neg hzero, stateOf_upsert]
      rfl
  | squareOff id =>
    show (book.squareOff id false).1.stateOf strategyId = if strategyId = id then _ else _
    unfold StrategyBook.squareOff
    rw [if_pos rfl]
    show _ = if strategyId = id then
      (book.stateOf id).map (fun state => state.flatten fun _ => true) else _
    cases hown : book.stateOf id with
    | none =>
      show book.stateOf strategyId = _
      split_ifs with hid
      · rw [hid]
        exact hown
      · rfl
    | some state => exact stateOf_upsert book id _ strategyId
  | setTag id tag => exact stateOf_modify book id _ strategyId
  | stopStrategy id => exact stateOf_modify book id _ strategyId
  | resumeStrategy id => exact stateOf_modify book id _ strategyId

/-! ## The account net -/

/-- What the account holds in a symbol, over all strategies. -/
def StrategyBook.netOf (book : StrategyBook) (symbol : Bytes) : Int :=
  (book.strategies.rows.map fun row => ((row.2.position symbol).getD .flat).netQty).sum

theorem accountNet_eq (book : StrategyBook) :
    book.accountNet = Tally.addAll .empty (book.strategies.rows.flatMap fun row =>
      row.2.positions.rows.map fun r => (r.1, r.2.netQty)) := by
  unfold StrategyBook.accountNet Tally.addAll
  rw [List.foldl_flatMap]

theorem get_accountNet (book : StrategyBook) (symbol : Bytes) :
    book.accountNet.get symbol = book.netOf symbol := by
  rw [accountNet_eq, Tally.get_addAll]
  unfold StrategyBook.netOf
  show 0 + _ = _
  rw [Int.zero_add]
  induction book.strategies.rows with
  | nil => rfl
  | cons row rows ih =>
    have hown : (row.2.positions.find symbol).elim 0 (fun r => r.2.netQty)
        = ((row.2.position symbol).getD .flat).netQty := by
      unfold StrategyState.position
      cases row.2.positions.find symbol <;> rfl
    rw [List.flatMap_cons, List.filter_append, List.map_append, List.sum_append, ih,
      Tally.sum_entries row.2.positions fun r => r.2.netQty, hown, List.map_cons, List.sum_cons]

/-- Every symbol with a position was counted. -/
theorem isSome_accountNet {book : StrategyBook} {row : Bytes × StrategyState}
    (hrow : row ∈ book.strategies.rows) {r : Bytes × Position} (hr : r ∈ row.2.positions.rows) :
    (book.accountNet.find r.1).isSome = true := by
  rw [accountNet_eq]
  refine Tally.isSome_find_addAll (.inr ?_)
  rw [List.mem_map]
  refine ⟨(r.1, r.2.netQty), ?_, rfl⟩
  exact List.mem_flatMap.mpr ⟨row, hrow, List.mem_map_of_mem hr⟩

/-! ## What netting leaves and sends -/

theorem position_flatten (state : StrategyState) (named : Bytes → Bool) (symbol : Bytes) :
    (state.flatten named).position symbol
      = (state.position symbol).map fun pos => if named symbol then pos.flatten else pos := by
  unfold StrategyState.position StrategyState.flatten
  rw [Table.find_mapRows]
  cases hfind : state.positions.find symbol with
  | none => rfl
  | some row =>
    obtain ⟨-, rfl⟩ := Table.mem_of_find hfind
    rfl

theorem stateOf_netting (book : StrategyBook) (id strategyId : Bytes) :
    (book.squareOff id true).1.stateOf strategyId
      = (book.stateOf strategyId).map fun state =>
          state.flatten fun symbol => (book.accountNet.find symbol).isSome := by
  unfold StrategyBook.squareOff StrategyBook.stateOf
  rw [if_neg (by decide)]
  dsimp only
  rw [Table.find_mapRows]
  cases book.strategies.find strategyId <;> rfl

/-- Netting flattens every position. -/
theorem positionOf_netting (book : StrategyBook) (id strategyId symbol : Bytes) :
    (book.squareOff id true).1.positionOf strategyId symbol
      = (book.positionOf strategyId symbol).flatten := by
  unfold StrategyBook.positionOf
  rw [stateOf_netting]
  cases hstate : book.stateOf strategyId with
  | none => rfl
  | some state =>
    simp only [Option.map_some, position_flatten]
    cases hposition : state.position symbol with
    | none => rfl
    | some pos =>
      -- the position was counted, so its symbol is among the netted
      obtain ⟨row, hrow, rfl⟩ := Option.map_eq_some_iff.mp hstate
      obtain ⟨r, hr, rfl⟩ := Option.map_eq_some_iff.mp hposition
      obtain ⟨hrowMem, -⟩ := Table.mem_of_find hrow
      obtain ⟨hrMem, rfl⟩ := Table.mem_of_find hr
      simp only [Option.map_some, isSome_accountNet hrowMem hrMem, if_true]

theorem flatten_netQty (pos : Position) : pos.flatten.netQty = 0 := by
  unfold Position.flatten
  split_ifs with hflat
  · exact hflat
  · rfl

theorem flatten_realizedPnl (pos : Position) : pos.flatten.realizedPnl = pos.realizedPnl := by
  unfold Position.flatten
  split_ifs <;> rfl

theorem abs64_eq_natAbs (x : Int) : abs64 x = x.natAbs := by
  unfold abs64
  split_ifs <;> omega

theorem flattenLeg_eq_some {row : Bytes × Int} {leg : FlattenLeg} :
    flattenLeg row = some leg ↔ row.2 ≠ 0 ∧ leg.symbol = row.1 ∧ leg.qty = row.2.natAbs
      ∧ leg.side = if 0 < row.2 then .sell else .buy := by
  unfold flattenLeg
  by_cases hzero : row.2 = 0
  · simp [hzero]
  · rw [if_neg hzero, Option.some.injEq, abs64_eq_natAbs]
    constructor
    · rintro rfl
      exact ⟨hzero, rfl, rfl, rfl⟩
    · rintro ⟨-, hsymbol, hqty, hside⟩
      obtain ⟨symbol, qty, side⟩ := leg
      dsimp only at hsymbol hqty hside
      rw [hsymbol, hqty, hside]

theorem mem_legs_netting (book : StrategyBook) (id : Bytes) (leg : FlattenLeg) :
    leg ∈ (book.squareOff id true).2 ↔ book.netOf leg.symbol ≠ 0
      ∧ leg.qty = (book.netOf leg.symbol).natAbs
      ∧ leg.side = if 0 < book.netOf leg.symbol then .sell else .buy := by
  show leg ∈ book.accountNet.rows.filterMap flattenLeg ↔ _
  rw [List.mem_filterMap]
  constructor
  · rintro ⟨row, hrow, hleg⟩
    obtain ⟨hne, hsymbol, hqty, hside⟩ := flattenLeg_eq_some.mp hleg
    have hnet : book.netOf leg.symbol = row.2 := by
      rw [hsymbol, ← get_accountNet]
      exact Tally.find_eq_some hrow
    rw [hnet]
    exact ⟨hne, hqty, hside⟩
  · rintro ⟨hne, hqty, hside⟩
    rw [← get_accountNet] at hne hqty hside
    exact ⟨_, Tally.mem_rows_of_get_ne hne, flattenLeg_eq_some.mpr ⟨hne, rfl, hqty, hside⟩⟩

/-- The legs come in the order of their symbols, each symbol once. -/
theorem nodup_legs_netting (book : StrategyBook) (id : Bytes) :
    ((book.squareOff id true).2.map FlattenLeg.symbol).Nodup := by
  have hrows := List.pairwise_map.mp book.accountNet.sorted
  show ((book.accountNet.rows.filterMap flattenLeg).map FlattenLeg.symbol).Pairwise (· ≠ ·)
  rw [List.pairwise_map]
  refine hrows.filterMap flattenLeg fun row row' hlt leg hleg leg' hleg' => ?_
  rw [(flattenLeg_eq_some.mp hleg).2.1, (flattenLeg_eq_some.mp hleg').2.1]
  exact hlt.ne

/-! ## Isolation -/

end BrokerExec.Isolation

import BrokerExec.Domain.Instrument
import BrokerExec.Idempotency.ClientRefs
import BrokerExec.Lib.FixedWidth
import Mathlib.Algebra.BigOperators.Group.List.Basic

/-!
# The freeze slicer (`slicing/freeze_slicer.cpp`)

An order above the exchange's freeze quantity is cut into full chunks and a remainder, each under
its own reference; an order that is not stays as it is.

* **`slice_conserves`** — what is refused, and otherwise: the slices add up to the order, each is
  a positive multiple of the lot within the freeze quantity, and nothing but the quantity and the
  reference differs from the parent.
-/

namespace BrokerExec.Slicing

open BrokerExec.Domain (Instrument OrderIntent Quantity)
open BrokerExec.Errors (Error makeError)
open BrokerExec.Idempotency (kChildSep lastChildSep parentOf)

def validationError (message : Bytes) : Error := makeError .validation message

/-- `child_ref`, with a 64-bit counter. -/
def childRef (parentClientRef : Bytes) (k : Int64) : Bytes :=
  parentClientRef ++ ascii "#" ++ decimal k.toInt

/-- A copy of the parent with the slice's quantity and reference. -/
def child (parent : OrderIntent) (quantity : Quantity) (k : Int64) : OrderIntent :=
  { parent with quantity := quantity, clientRef := childRef parent.clientRef k }

/-- The loop over the full chunks, with the counter behind it. -/
def fullChildren (parent : OrderIntent) (chunk : Quantity) : Nat → Int64 → List OrderIntent × Int64
  | 0, k => ([], k)
  | n + 1, k =>
    let (rest, next) := fullChildren parent chunk n (k + 1)
    (child parent chunk k :: rest, next)

/-- The largest lot-aligned quantity under the freeze quantity. -/
def chunkOf (inst : Instrument) : Quantity := inst.freezeQty / inst.lotSize * inst.lotSize

/-- The full chunks, and a remainder unless there is none. -/
def cut (parent : OrderIntent) (chunk : Quantity) : List OrderIntent :=
  let full := parent.quantity / chunk
  let rem := parent.quantity % chunk
  let (children, k) := fullChildren parent chunk full.toInt.toNat 1
  children ++ if rem > 0 then [child parent rem k] else []

def slice (parent : OrderIntent) (inst : Instrument) : Result (List OrderIntent) :=
  let qty := parent.quantity
  let freeze := inst.freezeQty
  let lot := inst.lotSize
  if kChildSep ∈ parent.clientRef then
    .error (validationError (ascii "freeze slicer: cannot slice a child order ref"))
  else if lot ≤ 0 then
    .error (validationError (ascii "freeze slicer: lot size must be positive"))
  else if qty ≤ 0 then
    .error (validationError (ascii "freeze slicer: order quantity must be positive"))
  else if qty < lot ∨ qty % lot ≠ 0 then
    .error (validationError (ascii "freeze slicer: order quantity is not lot-aligned"))
  else if freeze ≤ 0 then
    .error (validationError (ascii "freeze slicer: freeze quantity must be positive"))
  else if freeze < lot then
    .error (validationError (ascii "freeze slicer: freeze quantity is below one lot"))
  else if qty ≤ freeze then .ok [parent]
  else .ok (cut parent (chunkOf inst))

/-! ## What is refused -/

/-- The six refusals. -/
def Refused (parent : OrderIntent) (inst : Instrument) : Prop :=
  kChildSep ∈ parent.clientRef
    ∨ inst.lotSize.toInt ≤ 0
    ∨ parent.quantity.toInt ≤ 0
    ∨ ¬ inst.lotSize.toInt ∣ parent.quantity.toInt
    ∨ inst.freezeQty.toInt ≤ 0
    ∨ inst.freezeQty.toInt < inst.lotSize.toInt

section

variable {parent : OrderIntent} {inst : Instrument}

/-- What is left when nothing is refused. -/
structure Sliceable (parent : OrderIntent) (inst : Instrument) : Prop where
  not_child : kChildSep ∉ parent.clientRef
  lot_pos : 0 < inst.lotSize.toInt
  quantity_pos : 0 < parent.quantity.toInt
  aligned : inst.lotSize.toInt ∣ parent.quantity.toInt
  lot_le_freeze : inst.lotSize.toInt ≤ inst.freezeQty.toInt

theorem not_refused_iff : ¬ Refused parent inst ↔ Sliceable parent inst := by
  unfold Refused
  constructor
  · intro h
    push Not at h
    obtain ⟨hchild, hlot, hquantity, haligned, -, hfreeze⟩ := h
    exact ⟨hchild, hlot, hquantity, haligned, hfreeze⟩
  · rintro ⟨hchild, hlot, hquantity, haligned, hfreeze⟩
    push Not
    exact ⟨hchild, hlot, hquantity, haligned, by omega, hfreeze⟩

/-- A positive quantity is a multiple of the lot exactly where neither test speaks. -/
theorem misaligned_iff (hquantity : 0 < parent.quantity.toInt) :
    (parent.quantity < inst.lotSize ∨ parent.quantity % inst.lotSize ≠ 0)
      ↔ ¬ inst.lotSize.toInt ∣ parent.quantity.toInt := by
  have hmod : parent.quantity % inst.lotSize = 0
      ↔ parent.quantity.toInt % inst.lotSize.toInt = 0 := by
    rw [← Int64.toInt_inj, toInt_mod_of_nonneg (by omega), Int64.toInt_zero]
  rw [Int64.lt_iff_toInt_lt, ne_eq, hmod, Int.dvd_iff_emod_eq_zero]
  constructor
  · rintro (hless | hrest) haligned
    · rw [Int.emod_eq_of_lt (by omega) hless] at haligned
      omega
    · exact hrest haligned
  · exact fun h => .inr h

/-- **What `slice` answers, said once.** -/
theorem slice_cases (parent : OrderIntent) (inst : Instrument) :
    (Refused parent inst ∧ ∃ e, slice parent inst = .error e)
      ∨ (Sliceable parent inst ∧ parent.quantity.toInt ≤ inst.freezeQty.toInt
        ∧ slice parent inst = .ok [parent])
      ∨ (Sliceable parent inst ∧ inst.freezeQty.toInt < parent.quantity.toInt
        ∧ slice parent inst = .ok (cut parent (chunkOf inst))) := by
  unfold slice
  dsimp only
  by_cases hchild : kChildSep ∈ parent.clientRef
  · exact .inl ⟨.inl hchild, _, if_pos hchild⟩
  rw [if_neg hchild]
  by_cases hlot : inst.lotSize ≤ 0
  · exact .inl ⟨.inr (.inl (Int64.le_iff_toInt_le.mp hlot)), _, if_pos hlot⟩
  rw [if_neg hlot]
  by_cases hquantity : parent.quantity ≤ 0
  · exact .inl ⟨.inr (.inr (.inl (Int64.le_iff_toInt_le.mp hquantity))), _, if_pos hquantity⟩
  rw [if_neg hquantity]
  rw [Int64.le_iff_toInt_le, Int64.toInt_zero] at hlot hquantity
  by_cases haligned : parent.quantity < inst.lotSize ∨ parent.quantity % inst.lotSize ≠ 0
  · exact .inl ⟨.inr (.inr (.inr (.inl ((misaligned_iff (by omega)).mp haligned)))), _,
      if_pos haligned⟩
  rw [if_neg haligned]
  rw [misaligned_iff (by omega), not_not] at haligned
  by_cases hfreeze : inst.freezeQty ≤ 0
  · exact .inl ⟨.inr (.inr (.inr (.inr (.inl (Int64.le_iff_toInt_le.mp hfreeze))))), _,
      if_pos hfreeze⟩
  rw [if_neg hfreeze]
  by_cases hbelow : inst.freezeQty < inst.lotSize
  · exact .inl ⟨.inr (.inr (.inr (.inr (.inr (Int64.lt_iff_toInt_lt.mp hbelow))))), _,
      if_pos hbelow⟩
  rw [if_neg hbelow]
  rw [Int64.lt_iff_toInt_lt] at hbelow
  have hsliceable : Sliceable parent inst :=
    ⟨hchild, by omega, by omega, haligned, by omega⟩
  by_cases hwhole : parent.quantity ≤ inst.freezeQty
  · exact .inr (.inl ⟨hsliceable, Int64.le_iff_toInt_le.mp hwhole, if_pos hwhole⟩)
  · rw [Int64.le_iff_toInt_le] at hwhole
    exact .inr (.inr ⟨hsliceable, by omega, if_neg (by rw [Int64.le_iff_toInt_le]; exact hwhole)⟩)

/-! ## The slices -/

/-- The reference of the slice at place `k`. -/
def refAt (parentClientRef : Bytes) (k : Int) : Bytes := parentClientRef ++ ascii "#" ++ decimal k

/-- The counter does not run over while a child is still to be numbered. -/
theorem fullChildren_refs (parent : OrderIntent) (chunk : Quantity) (n : Nat) {k : Int64}
    (hk : k.toInt + n ≤ 2 ^ 63) :
    (fullChildren parent chunk n k).1.map (·.clientRef)
        = (List.range n).map (fun i : Nat => refAt parent.clientRef (k.toInt + i))
      ∧ (k.toInt + n < 2 ^ 63 → (fullChildren parent chunk n k).2.toInt = k.toInt + n) := by
  induction n generalizing k with
  | zero => exact ⟨rfl, fun _ => (Int.add_zero _).symm⟩
  | succ n ih =>
    push_cast at hk
    have hfits : FitsInt64 (k.toInt + (1 : Int64).toInt) ∨ n = 0 := by
      have hlow := k.le_toInt
      unfold FitsInt64
      rw [Int64.toInt_one]
      omega
    rcases hfits with hfits | rfl
    · have hnext := toInt_add_of_fits hfits
      rw [Int64.toInt_one] at hnext
      obtain ⟨hrefs, hcounter⟩ := ih (k := k + 1) (by omega)
      constructor
      · rw [List.range_succ_eq_map, List.map_cons, List.map_map]
        show refAt parent.clientRef k.toInt :: _ = _
        rw [hrefs, hnext, Int.natCast_zero, Int.add_zero]
        congr 2
        funext i
        show _ = refAt parent.clientRef (k.toInt + ((i + 1 : Nat) : Int))
        congr 1
        push_cast
        omega
      · intro hlt
        push_cast at hlt ⊢
        show (fullChildren parent chunk n (k + 1)).2.toInt = _
        rw [hcounter (by omega)]
        omega
    · constructor
      · show [refAt parent.clientRef k.toInt] = [refAt parent.clientRef (k.toInt + 0)]
        rw [Int.add_zero]
      · intro hlt
        show (k + 1).toInt = _
        rw [toInt_add_of_fits]
        · rfl
        · have hlow := k.le_toInt
          unfold FitsInt64
          rw [Int64.toInt_one]
          push_cast at hlt
          omega

theorem fullChildren_quantities (chunk : Quantity) (n : Nat) (k : Int64) :
    (fullChildren parent chunk n k).1.map (·.quantity) = List.replicate n chunk := by
  induction n generalizing k with
  | zero => rfl
  | succ n ih =>
    show chunk :: (fullChildren parent chunk n (k + 1)).1.map (·.quantity) = _
    rw [ih, List.replicate_succ]

theorem fullChildren_copies {chunk : Quantity} {n : Nat} {k : Int64} {c : OrderIntent}
    (hc : c ∈ (fullChildren parent chunk n k).1) : ∃ j, c = child parent chunk j := by
  induction n generalizing k with
  | zero => cases hc
  | succ n ih =>
    rcases List.mem_cons.mp hc with rfl | hc
    · exact ⟨k, rfl⟩
    · exact ih hc

/-- A chunk is a positive multiple of the lot within the freeze quantity. -/
theorem chunkOf_bounds (h : Sliceable parent inst) :
    inst.lotSize.toInt ∣ (chunkOf inst).toInt
      ∧ inst.lotSize.toInt ≤ (chunkOf inst).toInt
      ∧ (chunkOf inst).toInt ≤ inst.freezeQty.toInt := by
  have hlot := h.lot_pos
  have hfreeze := h.lot_le_freeze
  have hlots : (inst.freezeQty / inst.lotSize).toInt
      = inst.freezeQty.toInt / inst.lotSize.toInt := toInt_div_of_pos (by omega) hlot
  have hsome : 1 ≤ inst.freezeQty.toInt / inst.lotSize.toInt :=
    (Int.le_ediv_iff_mul_le hlot).mpr (by omega)
  have hlow : inst.lotSize.toInt
      ≤ inst.freezeQty.toInt / inst.lotSize.toInt * inst.lotSize.toInt :=
    le_mul_of_one_le_left hlot.le hsome
  have hhigh : inst.freezeQty.toInt / inst.lotSize.toInt * inst.lotSize.toInt
      ≤ inst.freezeQty.toInt := Int.ediv_mul_le _ hlot.ne'
  have hchunk : (chunkOf inst).toInt
      = inst.freezeQty.toInt / inst.lotSize.toInt * inst.lotSize.toInt := by
    unfold chunkOf
    rw [toInt_mul_of_fits, hlots]
    rw [hlots]
    have hmax := inst.freezeQty.toInt_lt
    unfold FitsInt64
    omega
  rw [hchunk]
  exact ⟨Int.dvd_mul_left _ _, hlow, hhigh⟩

section

variable {chunk : Quantity}

theorem toInt_full (hquantity : 0 < parent.quantity.toInt) (hchunk : 0 < chunk.toInt) :
    (parent.quantity / chunk).toInt = parent.quantity.toInt / chunk.toInt :=
  toInt_div_of_pos hquantity.le hchunk

theorem toInt_rem (chunk : Quantity) (hquantity : 0 < parent.quantity.toInt) :
    (parent.quantity % chunk).toInt = parent.quantity.toInt % chunk.toInt :=
  toInt_mod_of_nonneg hquantity.le

/-- The number of full chunks. -/
def fullCount (parent : OrderIntent) (chunk : Quantity) : Nat :=
  (parent.quantity / chunk).toInt.toNat

theorem fullCount_eq (hquantity : 0 < parent.quantity.toInt) (hchunk : 0 < chunk.toInt) :
    (fullCount parent chunk : Int) = parent.quantity.toInt / chunk.toInt := by
  have := Int.ediv_nonneg hquantity.le hchunk.le
  unfold fullCount
  rw [toInt_full hquantity hchunk]
  omega

theorem cut_eq : cut parent chunk
    = (fullChildren parent chunk (fullCount parent chunk) 1).1
      ++ if parent.quantity % chunk > 0 then
        [child parent (parent.quantity % chunk)
          (fullChildren parent chunk (fullCount parent chunk) 1).2] else [] := rfl

theorem cut_quantities (parent : OrderIntent) (chunk : Quantity) :
    (cut parent chunk).map (·.quantity)
      = List.replicate (fullCount parent chunk) chunk
        ++ if parent.quantity % chunk > 0 then [parent.quantity % chunk] else [] := by
  rw [cut_eq, List.map_append, fullChildren_quantities]
  congr 1
  split_ifs
  · rfl
  · rfl

/-- A remainder leaves room for its number. -/
theorem cut_refs (hquantity : 0 < parent.quantity.toInt) (hchunk : 0 < chunk.toInt) :
    ∃ count, (cut parent chunk).map (·.clientRef)
      = (List.range count).map (fun i : Nat => refAt parent.clientRef (1 + i)) := by
  have hcount := fullCount_eq hquantity hchunk
  have hmax := parent.quantity.toInt_lt
  have hle : parent.quantity.toInt / chunk.toInt ≤ parent.quantity.toInt :=
    Int.ediv_le_self _ hquantity.le
  obtain ⟨hrefs, hcounter⟩ := fullChildren_refs parent chunk (fullCount parent chunk)
    (show (1 : Int64).toInt + (fullCount parent chunk : Int) ≤ 2 ^ 63 by
      rw [Int64.toInt_one]; omega)
  rw [Int64.toInt_one] at hrefs hcounter
  by_cases hrem : parent.quantity % chunk > 0
  · refine ⟨fullCount parent chunk + 1, ?_⟩
    have hbig : 1 < chunk.toInt := by
      by_contra hsmall
      rw [gt_iff_lt, Int64.lt_iff_toInt_lt, toInt_rem _ hquantity, Int64.toInt_zero,
        show chunk.toInt = 1 by omega, Int.emod_one] at hrem
      omega
    have hhalf : parent.quantity.toInt / chunk.toInt ≤ parent.quantity.toInt / 2 := by
      rw [Int.le_ediv_iff_mul_le (by omega)]
      have hback := Int.ediv_mul_le parent.quantity.toInt (show chunk.toInt ≠ 0 by omega)
      have hnonneg : 0 ≤ parent.quantity.toInt / chunk.toInt := by omega
      have hmul : parent.quantity.toInt / chunk.toInt * 2
          ≤ parent.quantity.toInt / chunk.toInt * chunk.toInt :=
        Int.mul_le_mul_of_nonneg_left (by omega) hnonneg
      omega
    rw [cut_eq, if_pos hrem, List.map_append, hrefs, List.range_succ, List.map_append]
    congr 1
    show [refAt parent.clientRef (fullChildren parent chunk (fullCount parent chunk) 1).2.toInt] = _
    rw [hcounter (by omega)]
    rfl
  · refine ⟨fullCount parent chunk, ?_⟩
    rw [cut_eq, if_neg hrem, List.append_nil]
    exact hrefs

theorem cut_copies {c : OrderIntent} (hc : c ∈ cut parent chunk) :
    ∃ quantity k, c = child parent quantity k := by
  rcases List.mem_append.mp hc with hc | hc
  · obtain ⟨k, hk⟩ := fullChildren_copies hc
    exact ⟨chunk, k, hk⟩
  · split_ifs at hc
    · exact ⟨_, _, List.mem_singleton.mp hc⟩
    · cases hc

end

/-! ## What the slices are -/

theorem refAt_inj {ref : Bytes} {i j : Int} (h : refAt ref i = refAt ref j) : i = j :=
  decimal_inj (List.append_cancel_left h)

theorem parentOf_refAt (ref : Bytes) (k : Int) : parentOf (refAt ref k) = ref := by
  rw [refAt, List.append_assoc]
  exact Idempotency.parentOf_append ref (Idempotency.decimal_ne_nil k)
    (Idempotency.not_mem_decimal_childSep k)

/-- A list of orders that stands for one order within the freeze quantity. -/
structure Slices (parent : OrderIntent) (inst : Instrument) (children : List OrderIntent) :
    Prop where
  ne_nil : children ≠ []
  sum : (children.map fun c => c.quantity.toInt).sum = parent.quantity.toInt
  sized : ∀ c ∈ children, 0 < c.quantity.toInt ∧ inst.lotSize.toInt ∣ c.quantity.toInt
    ∧ c.quantity.toInt ≤ inst.freezeQty.toInt
  copies : ∀ c ∈ children, c = { parent with quantity := c.quantity, clientRef := c.clientRef }
  refs : (children.map (·.clientRef)).Nodup
  lineage : (∃ c, children = [c] ∧ c.clientRef = parent.clientRef)
    ∨ ∀ c ∈ children, parentOf c.clientRef = parent.clientRef

theorem slices_whole (h : Sliceable parent inst)
    (hwhole : parent.quantity.toInt ≤ inst.freezeQty.toInt) : Slices parent inst [parent] where
  ne_nil := List.cons_ne_nil _ _
  sum := Int.add_zero _
  sized c hc := by
    rw [List.mem_singleton.mp hc]
    exact ⟨h.quantity_pos, h.aligned, hwhole⟩
  copies c hc := by
    rw [List.mem_singleton.mp hc]
  refs := List.pairwise_singleton _ _
  lineage := .inl ⟨parent, rfl, rfl⟩

theorem slices_cut (h : Sliceable parent inst) :
    Slices parent inst (cut parent (chunkOf inst)) := by
  have hquantity := h.quantity_pos
  obtain ⟨hdvd, hlow, hhigh⟩ := chunkOf_bounds h
  generalize chunkOf inst = chunk at hdvd hlow hhigh ⊢
  have hchunk : 0 < chunk.toInt := by have := h.lot_pos; omega
  have hquantities := cut_quantities parent chunk
  have hrem := toInt_rem chunk hquantity
  have hremNonneg : 0 ≤ parent.quantity.toInt % chunk.toInt := Int.emod_nonneg _ hchunk.ne'
  have hremLt : parent.quantity.toInt % chunk.toInt < chunk.toInt := Int.emod_lt_of_pos _ hchunk
  have hsum : ((cut parent chunk).map fun c => c.quantity.toInt).sum = parent.quantity.toInt := by
    have hmap : ((cut parent chunk).map fun c => c.quantity.toInt)
        = ((cut parent chunk).map (·.quantity)).map Int64.toInt := by
      rw [List.map_map]
      rfl
    rw [hmap, hquantities, List.map_append, List.sum_append, List.map_replicate,
      List.sum_replicate, nsmul_eq_mul]
    have htail : ((if parent.quantity % chunk > 0 then [parent.quantity % chunk] else []).map
        Int64.toInt).sum = parent.quantity.toInt % chunk.toInt := by
      split_ifs with hpos
      · rw [List.map_singleton, List.sum_singleton, hrem]
      · rw [gt_iff_lt, Int64.lt_iff_toInt_lt, hrem, Int64.toInt_zero] at hpos
        show (0 : Int) = _
        omega
    rw [htail, fullCount_eq hquantity hchunk]
    exact Int.ediv_mul_add_emod _ _
  refine ⟨?_, hsum, ?_, ?_, ?_, ?_⟩
  · intro hnil
    rw [hnil] at hsum
    exact absurd hsum hquantity.ne
  · intro c hc
    have hmem := List.mem_map_of_mem (f := OrderIntent.quantity) hc
    rw [hquantities, List.mem_append] at hmem
    rcases hmem with hfull | htail
    · rw [List.eq_of_mem_replicate hfull]
      exact ⟨hchunk, hdvd, hhigh⟩
    · split_ifs at htail with hpos
      · rw [gt_iff_lt, Int64.lt_iff_toInt_lt, hrem, Int64.toInt_zero] at hpos
        rw [List.mem_singleton.mp htail, hrem]
        refine ⟨hpos, ?_, by omega⟩
        rw [Int.emod_def]
        exact Int.dvd_sub h.aligned (Int.dvd_mul_of_dvd_left hdvd)
      · cases htail
  · intro c hc
    obtain ⟨quantity, k, rfl⟩ := cut_copies hc
    rfl
  · obtain ⟨count, hrefs⟩ := cut_refs hquantity hchunk
    rw [hrefs, List.Nodup, List.pairwise_map]
    refine List.nodup_range.imp fun hne hij => hne ?_
    have := refAt_inj hij
    omega
  · right
    intro c hc
    obtain ⟨quantity, k, rfl⟩ := cut_copies hc
    exact parentOf_refAt parent.clientRef k.toInt

theorem slices_of_ok {children : List OrderIntent} (h : slice parent inst = .ok children) :
    Slices parent inst children := by
  rcases slice_cases parent inst with ⟨-, e, hslice⟩ | ⟨hsliceable, hwhole, hslice⟩
    | ⟨hsliceable, -, hslice⟩
  · rw [hslice] at h
    cases h
  · rw [hslice] at h
    cases h
    exact slices_whole hsliceable hwhole
  · rw [hslice] at h
    cases h
    exact slices_cut hsliceable

/-- The slices are numbered from one, unless the order stays whole. -/
theorem refs_of_ok {children : List OrderIntent} (h : slice parent inst = .ok children) :
    children = [parent]
      ∨ children.map (·.clientRef)
        = (List.range children.length).map (fun i : Nat => refAt parent.clientRef (1 + i)) := by
  rcases slice_cases parent inst with ⟨-, e, hslice⟩ | ⟨-, -, hslice⟩ | ⟨hsliceable, -, hslice⟩
  · rw [hslice] at h
    cases h
  · rw [hslice] at h
    exact .inl (Except.ok.inj h).symm
  · rw [hslice] at h
    obtain rfl := Except.ok.inj h
    have hchunk : 0 < (chunkOf inst).toInt := by
      have hlot := hsliceable.lot_pos
      have hlow := (chunkOf_bounds hsliceable).2.1
      omega
    obtain ⟨count, hrefs⟩ := cut_refs hsliceable.quantity_pos hchunk
    have hcount := congrArg List.length hrefs
    rw [List.length_map, List.length_map, List.length_range] at hcount
    rw [hcount]
    exact .inr hrefs

/-- **Slicing conserves the order.** -/
theorem slice_conserves (parent : OrderIntent) (inst : Instrument) :
    ((∃ e, slice parent inst = .error e) ↔ Refused parent inst)
      ∧ ∀ children, slice parent inst = .ok children → Slices parent inst children := by
  refine ⟨?_, fun children => slices_of_ok⟩
  rcases slice_cases parent inst with ⟨hrefused, e, hslice⟩ | ⟨hsliceable, -, hslice⟩
    | ⟨hsliceable, -, hslice⟩
  · exact iff_of_true ⟨e, hslice⟩ hrefused
  · refine iff_of_false ?_ (not_refused_iff.mpr hsliceable)
    rintro ⟨e, h⟩
    rw [hslice] at h
    cases h
  · refine iff_of_false ?_ (not_refused_iff.mpr hsliceable)
    rintro ⟨e, h⟩
    rw [hslice] at h
    cases h

end

/-- 250 of a contract in lots of 50. -/
def sampleParent : OrderIntent :=
  ⟨ascii "p-1", ascii "NIFTY", .sell, 250, 10000, some 10050, .stopLoss, .intraday, ascii "p"⟩

/-- The exchange freezes more than `freeze` of it. -/
def sampleInstrument (freeze : Quantity) : Instrument :=
  ⟨ascii "NIFTY", 1, ascii "NFO", 50, 5, freeze, []⟩

/-- Under a freeze quantity of 120, which is not a multiple of the lot. -/
theorem slice_conserves_remainder :
    ∃ children, slice sampleParent (sampleInstrument 120) = .ok children
      ∧ children.map (·.quantity) = [100, 100, 50]
      ∧ children.map (·.clientRef) = [ascii "p-1#1", ascii "p-1#2", ascii "p-1#3"]
      ∧ Slices sampleParent (sampleInstrument 120) children := by
  have hslice : slice sampleParent (sampleInstrument 120)
      = .ok (cut sampleParent (chunkOf (sampleInstrument 120))) := by decide
  exact ⟨_, hslice, by decide, by decide, (slice_conserves _ _).2 _ hslice⟩

end BrokerExec.Slicing

import BrokerExec.Lib.Process
import BrokerExec.Lib.Run
import BrokerExec.Ports
import BrokerExec.Slicing.FreezeSlicer
import Mathlib.Data.List.Nodup

/-!
# Sliced legs (`options/sliced_leg.cpp`)

An order above the freeze quantity is placed slice by slice, in the slicer's order. Before each
slice the broker is asked whether it holds it already; whatever is ambiguous pauses the leg.

The seams are processes, so that an attempt can be killed at each of its calls. **`World`** is the
broker behind them: it answers the probe truthfully or not at all, and what it does with an order
and what it says of it are two things.

* **`sliced_leg_at_most_once`** — over any attempts, no slice is placed twice, every attempt stops
  at the first call that fails, and a leg that was filled is on the book in full.
-/

namespace BrokerExec.Options

open BrokerExec.Domain (Instrument OrderIntent)
open BrokerExec.Errors (Error)
open BrokerExec.Ports (Alert)
open BrokerExec.Slicing (refAt refs_of_ok slice slices_of_ok)

/-! ## The data -/

inductive ChildPlacement where
  | acked
  | alreadyPlaced
  | unknown
  deriving DecidableEq

inductive SlicedLegOutcome where
  | filledSliced
  | unknownPaused
  | sliceRejected
  deriving DecidableEq

structure ChildResult where
  clientRef : Bytes
  placement : ChildPlacement
  brokerOrderId : Bytes
  deriving DecidableEq

structure SlicedLegResult where
  outcome : SlicedLegOutcome := .sliceRejected
  children : List ChildResult := []
  placedCount : Nat := 0
  dedupedCount : Nat := 0
  pausedAtRef : Bytes := []
  detail : Bytes := []
  deriving DecidableEq

/-- The seams; `none` is one that is not configured. -/
structure SlicedLegSeams (τ σ : Type) where
  alreadyPlaced : Option (Bytes → Process τ σ (Result Bool))
  placeChild : Option (OrderIntent → Process τ σ (Result (ChildPlacement × Bytes)))

/-! ## The executor -/

section Executor

variable {τ σ : Type} (alerts : Alert → Process τ σ Unit)

/-- `pause_for_unknown`. What the alert's sink answers is swallowed. -/
def pauseForUnknown (parent : OrderIntent) (ref : Bytes) (reason : String)
    (result : SlicedLegResult) : Process τ σ SlicedLegResult := do
  alerts
    { level := .critical
      message := ascii "SLICED LEG UNKNOWN: child order is ambiguous; placement STOPPED, "
        ++ ascii "reconcile before resume"
      provenance := ⟨ref, [], parent.strategy, parent.symbol⟩ }
  return { result with
    children := result.children ++ [⟨ref, .unknown, []⟩]
    pausedAtRef := ref
    outcome := .unknownPaused
    detail := ascii "sliced leg UNKNOWN at " ++ ref ++ ascii " (" ++ ascii reason
      ++ ascii "): placement STOPPED, reconcile before resume" }

/-- Without the probe nothing is known to be placed. -/
def probed (alreadyPlaced : Option (Bytes → Process τ σ (Result Bool))) (ref : Bytes) :
    Process τ σ (Result Bool) :=
  match alreadyPlaced with
  | some probe => probe ref
  | none => return .ok false

/-- Step 2 and step 4: the children in slice order, then the success. -/
def placeChildren (parent : OrderIntent) (total : Nat)
    (alreadyPlaced : Option (Bytes → Process τ σ (Result Bool)))
    (placeChild : OrderIntent → Process τ σ (Result (ChildPlacement × Bytes))) :
    List OrderIntent → SlicedLegResult → Process τ σ SlicedLegResult
  | [], result => return { result with
      outcome := .filledSliced
      detail := ascii "sliced leg complete: " ++ decimalNat total ++ ascii " children (placed "
        ++ decimalNat result.placedCount ++ ascii ", deduped "
        ++ decimalNat result.dedupedCount ++ ascii ")" }
  | child :: rest, result => do
    match ← probed alreadyPlaced child.clientRef with
    | .error _ =>
      pauseForUnknown alerts parent child.clientRef "already_placed check errored" result
    | .ok true =>
      placeChildren parent total alreadyPlaced placeChild rest { result with
        children := result.children ++ [⟨child.clientRef, .alreadyPlaced, []⟩]
        dedupedCount := result.dedupedCount + 1 }
    | .ok false =>
      match ← placeChild child with
      | .error _ => pauseForUnknown alerts parent child.clientRef "place_child errored" result
      | .ok (.acked, brokerOrderId) =>
        placeChildren parent total alreadyPlaced placeChild rest { result with
          children := result.children ++ [⟨child.clientRef, .acked, brokerOrderId⟩]
          placedCount := result.placedCount + 1 }
      | .ok _ =>
        pauseForUnknown alerts parent child.clientRef "place_child returned Unknown" result

def executeSlicedLeg (parent : OrderIntent) (inst : Instrument) (seams : SlicedLegSeams τ σ) :
    Process τ σ SlicedLegResult :=
  match seams.placeChild with
  | none => return {
      detail := ascii "sliced leg rejected: place_child seam not configured (nothing placed)" }
  | some placeChild =>
    match slice parent inst with
    | .error error => return {
        detail := ascii "sliced leg rejected: slicer error: " ++ error.category.toString }
    | .ok children =>
      placeChildren alerts parent children.length seams.alreadyPlaced placeChild children {}

end Executor

/-! ## The broker behind the seams -/

/-- What becomes of a placement: whether the order reaches the book, and what is answered. An
order that is acked is on the book. -/
structure PlaceAnswer where
  placed : Bool
  answer : Result (ChildPlacement × Bytes)
  placed_of_acked : ∀ brokerOrderId, answer = .ok (.acked, brokerOrderId) → placed = true

/-- What the environment does at one call. -/
structure Tick where
  /-- The error of a probe that is not answered. -/
  probe : Option Error
  place : PlaceAnswer

inductive LegCall where
  | alreadyPlaced (ref : Bytes) (answer : Result Bool)
  | placeChild (ref : Bytes) (answer : Result (ChildPlacement × Bytes))

/-- An error, or a placement that is not acked. -/
def LegCall.failed : LegCall → Bool
  | .alreadyPlaced _ (.error _) => true
  | .alreadyPlaced _ (.ok _) => false
  | .placeChild _ (.error _) => true
  | .placeChild _ (.ok (placement, _)) => placement ≠ .acked

def LegCall.ref : LegCall → Bytes
  | .alreadyPlaced ref _ => ref
  | .placeChild ref _ => ref

/-- Every order that has reached the broker, the calls on the seams and the alerts. -/
structure World where
  book : List OrderIntent
  calls : List LegCall
  alerts : List Alert

namespace World

/-- The probe is answered from the book. -/
def alreadyPlaced (ref : Bytes) : Process Tick World (Result Bool) :=
  Process.ask fun t w =>
    let answer := match t.probe with
      | some error => .error error
      | none => .ok (decide (ref ∈ w.book.map (·.clientRef)))
    (answer, { w with calls := w.calls ++ [.alreadyPlaced ref answer] })

/-- The broker does not look whether it holds the order already. -/
def placeChild (child : OrderIntent) : Process Tick World (Result (ChildPlacement × Bytes)) :=
  Process.ask fun t w =>
    (t.place.answer, { w with
      book := if t.place.placed then w.book ++ [child] else w.book
      calls := w.calls ++ [.placeChild child.clientRef t.place.answer] })

def raise (alert : Alert) : Process Tick World Unit :=
  Process.step fun w => ((), { w with alerts := w.alerts ++ [alert] })

def seams : SlicedLegSeams Tick World := ⟨some alreadyPlaced, some placeChild⟩

end World

/-- One attempt; it is killed where its ticks end. -/
def attempt (parent : OrderIntent) (inst : Instrument) (ticks : List Tick) (w : World) :
    Outcome Tick World SlicedLegResult :=
  executeSlicedLeg World.raise parent inst World.seams ticks w

/-- The world after an attempt. -/
def afterAttempt (parent : OrderIntent) (inst : Instrument) (w : World) (ticks : List Tick) :
    World :=
  (attempt parent inst ticks w).state

/-! ## What one attempt calls -/

section Calls

variable (base : List LegCall)

/-- No call has failed. -/
def AllPassed (w : World) : Prop :=
  ∃ calls, w.calls = base ++ calls ∧ ∀ call ∈ calls, call.failed = false

/-- The last call has failed, on this slice, and no other. -/
def LastFailed (ref : Bytes) (w : World) : Prop :=
  ∃ front last, w.calls = base ++ (front ++ [last]) ∧ (∀ call ∈ front, call.failed = false)
    ∧ last.failed = true ∧ last.ref = ref

/-- The calls of an attempt by its result. -/
def CallsOf (result : SlicedLegResult) (w : World) : Prop :=
  match result.outcome with
  | .filledSliced => AllPassed base w
  | .unknownPaused => LastFailed base result.pausedAtRef w
  | .sliceRejected => w.calls = base

variable {base}

theorem AllPassed.concat {w : World} (h : AllPassed base w) {w' : World} {call : LegCall}
    (hcalls : w'.calls = w.calls ++ [call]) (hcall : call.failed = false) :
    AllPassed base w' := by
  obtain ⟨calls, hw, hpassed⟩ := h
  refine ⟨calls ++ [call], by rw [hcalls, hw, List.append_assoc], fun call' hmem => ?_⟩
  obtain hmem | hmem := List.mem_append.mp hmem
  · exact hpassed call' hmem
  · rw [List.mem_singleton.mp hmem]
    exact hcall

theorem AllPassed.concat_failed {w : World} (h : AllPassed base w) {w' : World} (call : LegCall)
    (hcalls : w'.calls = w.calls ++ [call]) (hcall : call.failed = true) :
    LastFailed base call.ref w' := by
  obtain ⟨calls, hw, hpassed⟩ := h
  exact ⟨calls, call, by rw [hcalls, hw, List.append_assoc], hpassed, hcall, rfl⟩

theorem calls_alreadyPlaced (ref : Bytes) :
    Process.Spec (AllPassed base) (World.alreadyPlaced ref)
      (fun known w => match known with
        | .ok _ => AllPassed base w
        | .error _ => LastFailed base ref w)
      (AllPassed base) := by
  refine Process.Spec.ask (fun _ h => h) fun t w hpassed => ?_
  dsimp only
  cases t.probe with
  | none => exact hpassed.concat rfl rfl
  | some error => exact hpassed.concat_failed (.alreadyPlaced ref (.error error)) rfl rfl

theorem calls_placeChild (child : OrderIntent) :
    Process.Spec (AllPassed base) (World.placeChild child)
      (fun answer w => match answer with
        | .ok (.acked, _) => AllPassed base w
        | _ => LastFailed base child.clientRef w)
      (AllPassed base) := by
  refine Process.Spec.ask (fun _ h => h) fun t w hpassed => ?_
  dsimp only
  cases t.place.answer with
  | error error => exact hpassed.concat_failed (.placeChild child.clientRef (.error error)) rfl rfl
  | ok answer =>
    obtain ⟨placement, brokerOrderId⟩ := answer
    cases placement with
    | acked => exact hpassed.concat rfl rfl
    | alreadyPlaced =>
      exact hpassed.concat_failed (.placeChild _ (.ok (.alreadyPlaced, brokerOrderId))) rfl rfl
    | unknown =>
      exact hpassed.concat_failed (.placeChild _ (.ok (.unknown, brokerOrderId))) rfl rfl

theorem calls_pauseForUnknown (parent : OrderIntent) (ref : Bytes) (reason : String)
    (result : SlicedLegResult) :
    Process.Spec (LastFailed base ref) (pauseForUnknown World.raise parent ref reason result)
      (CallsOf base) (AllPassed base) := by
  have hraise (alert : Alert) : Process.Spec (LastFailed base ref) (World.raise alert)
      (fun _ => LastFailed base ref) (AllPassed base) := Process.Spec.step fun _ h => h
  exact (hraise _).bind fun _ => Process.Spec.pure fun _ h => h

theorem calls_placeChildren (parent : OrderIntent) (total : Nat) (children : List OrderIntent)
    (result : SlicedLegResult) :
    Process.Spec (AllPassed base)
      (placeChildren World.raise parent total (some World.alreadyPlaced) World.placeChild children
        result)
      (CallsOf base) (AllPassed base) := by
  induction children generalizing result with
  | nil => exact Process.Spec.pure fun _ h => h
  | cons child rest ih =>
    rw [placeChildren]
    refine Process.Spec.bind (calls_alreadyPlaced child.clientRef) fun known => ?_
    cases known with
    | error error => exact calls_pauseForUnknown _ _ _ _
    | ok known =>
    cases known with
    | true => exact ih _
    | false =>
    refine Process.Spec.bind (calls_placeChild child) fun answer => ?_
    cases answer with
    | error error => exact calls_pauseForUnknown _ _ _ _
    | ok answer =>
    obtain ⟨placement, brokerOrderId⟩ := answer
    cases placement with
    | acked => exact ih _
    | alreadyPlaced => exact calls_pauseForUnknown _ _ _ _
    | unknown => exact calls_pauseForUnknown _ _ _ _

end Calls

/-- The calls of an attempt, killed or not: none fails but the last one of an attempt that pauses,
which is about the slice it pauses at. -/
def StopsAtFailure (w : World) : Outcome Tick World SlicedLegResult → Prop
  | .stopped w' => AllPassed w.calls w'
  | .done result _ w' => CallsOf w.calls result w'

theorem attempt_stopsAtFailure (parent : OrderIntent) (inst : Instrument) (ticks : List Tick)
    (w : World) : StopsAtFailure w (attempt parent inst ticks w) := by
  have hstart : AllPassed w.calls w := ⟨[], (List.append_nil _).symm, by simp⟩
  have hspec : Process.Spec (fun w' => w' = w)
      (executeSlicedLeg World.raise parent inst World.seams) (CallsOf w.calls)
      (AllPassed w.calls) := by
    unfold executeSlicedLeg
    dsimp only [World.seams]
    split
    · refine Process.Spec.pure fun _ h => ?_
      rw [h]
      rfl
    · refine (calls_placeChildren parent _ _ _).weaken (fun _ h => ?_) fun _ _ h => h
      rw [h]
      exact hstart
  have hends := hspec ticks w rfl
  unfold attempt
  cases hended : executeSlicedLeg World.raise parent inst World.seams ticks w with
  | stopped w' =>
    rw [hended] at hends
    exact hends
  | done result unused w' =>
    rw [hended] at hends
    exact hends

/-! ## What one attempt places -/

section Book

variable (before children : List OrderIntent)

/-- A slice that was not on the book when the leg began. -/
def isNew (child : OrderIntent) : Bool := child.clientRef ∉ before.map (·.clientRef)

/-- The book has grown by the first `n` slices, those of them that are new. -/
def Holds (n : Nat) (w : World) : Prop :=
  w.book = before ++ (children.take n).filter (isNew before)

/-- It has grown by `low` slices at least, and by `i`. -/
def HoldsFrom (low i : Nat) (w : World) : Prop :=
  ∃ n, low ≤ n ∧ i ≤ n ∧ Holds before children n w

variable {before children} {low : Nat}

theorem HoldsFrom.mono {i j : Nat} (hij : i ≤ j) {w : World}
    (h : HoldsFrom before children low j w) : HoldsFrom before children low i w := by
  obtain ⟨n, hlow, hj, hw⟩ := h
  exact ⟨n, hlow, hij.trans hj, hw⟩

theorem HoldsFrom.start (w : World) (children : List OrderIntent) :
    HoldsFrom w.book children 0 0 w :=
  ⟨0, Nat.le_refl _, Nat.le_refl _, by simp [Holds]⟩

variable {done rest : List OrderIntent} {child : OrderIntent}

theorem take_succ_of_split (hsplit : children = done ++ child :: rest) :
    children.take (done.length + 1) = done ++ [child] := by
  rw [hsplit, List.take_append]
  simp

/-- The next slice is on the book too, if it is new. -/
theorem Holds.succ (hsplit : children = done ++ child :: rest) {w w' : World}
    (hw : Holds before children done.length w)
    (hbook : w'.book = w.book ++ [child].filter (isNew before)) :
    Holds before children (done.length + 1) w' := by
  have htake : children.take done.length = done := by rw [hsplit, List.take_left]
  rw [Holds, htake] at hw
  rw [Holds, take_succ_of_split hsplit, List.filter_append, hbook, hw, List.append_assoc]

theorem Holds.succ_of_old (hsplit : children = done ++ child :: rest) {w : World}
    (hw : Holds before children done.length w) (hold : isNew before child = false) :
    Holds before children (done.length + 1) w :=
  hw.succ hsplit (by simp [hold])

theorem Holds.succ_of_new (hsplit : children = done ++ child :: rest) {w w' : World}
    (hw : Holds before children done.length w) (hnew : isNew before child = true)
    (hbook : w'.book = w.book ++ [child]) : Holds before children (done.length + 1) w' :=
  hw.succ hsplit (by rw [hbook]; simp [hnew])

/-- What a truthful probe says of the next slice. -/
theorem Holds.mem_refs_iff (hrefs : (children.map (·.clientRef)).Nodup)
    (hsplit : children = done ++ child :: rest) {n : Nat} {w : World}
    (hw : Holds before children n w) :
    child.clientRef ∈ w.book.map (·.clientRef) ↔ isNew before child = false ∨ done.length < n := by
  have hold : isNew before child = false ↔ child.clientRef ∈ before.map (·.clientRef) := by
    simp [isNew]
  rw [hw, List.map_append, List.mem_append, ← hold]
  constructor
  · rintro (hbefore | hplaced)
    · exact .inl hbefore
    · obtain ⟨other, hother, hsame⟩ := List.mem_map.mp hplaced
      have htaken : other ∈ children.take n := (List.mem_filter.mp hother).1
      have hchild : child ∈ children := by simp [hsplit]
      obtain rfl : other = child :=
        List.inj_on_of_nodup_map hrefs (List.mem_of_mem_take htaken) hchild hsame
      by_contra hlate
      push Not at hlate
      -- a slice that stands further back is not among the first `n`, the refs being distinct
      rw [hsplit, List.take_append_of_le_length hlate.2] at htaken
      have hnodup := hrefs.of_map
      rw [hsplit, List.nodup_append] at hnodup
      exact hnodup.2.2 other (List.mem_of_mem_take htaken) other (by simp) rfl
  · rintro (hbefore | hlate)
    · exact .inl hbefore
    · cases hnew : isNew before child with
      | false => exact .inl rfl
      | true =>
      refine .inr (List.mem_map_of_mem (List.mem_filter.mpr ⟨?_, hnew⟩))
      have hmem : child ∈ children.take (done.length + 1) := by
        simp [take_succ_of_split hsplit]
      exact List.take_subset_take_left _ hlate hmem

theorem book_alreadyPlaced (hrefs : (children.map (·.clientRef)).Nodup)
    (hsplit : children = done ++ child :: rest) :
    Process.Spec (HoldsFrom before children low done.length) (World.alreadyPlaced child.clientRef)
      (fun known w => match known with
        | .error _ => HoldsFrom before children low done.length w
        | .ok true => HoldsFrom before children low (done.length + 1) w
        | .ok false => low ≤ done.length ∧ Holds before children done.length w
            ∧ isNew before child = true)
      (HoldsFrom before children low 0) := by
  refine Process.Spec.ask (fun _ h => h.mono (Nat.zero_le _)) fun t w hreached => ?_
  dsimp only
  cases t.probe with
  | some error => exact hreached
  | none =>
    obtain ⟨n, hlow, hn, hw⟩ := hreached
    have hmem := hw.mem_refs_iff hrefs hsplit
    dsimp only
    by_cases hknown : child.clientRef ∈ w.book.map (·.clientRef)
    · rw [decide_eq_true hknown]
      obtain hold | hlate := hmem.mp hknown
      · obtain rfl | hlate := Nat.eq_or_lt_of_le hn
        · exact ⟨_, by omega, Nat.le_refl _, Holds.succ_of_old hsplit hw hold⟩
        · exact ⟨n, hlow, hlate, hw⟩
      · exact ⟨n, hlow, hlate, hw⟩
    · rw [decide_eq_false hknown]
      rw [hmem] at hknown
      push Not at hknown
      obtain rfl : n = done.length := by omega
      exact ⟨hlow, hw, by simpa using hknown.1⟩

theorem book_placeChild (hsplit : children = done ++ child :: rest) :
    Process.Spec (fun w => low ≤ done.length ∧ Holds before children done.length w
        ∧ isNew before child = true)
      (World.placeChild child)
      (fun answer w => match answer with
        | .ok (.acked, _) => HoldsFrom before children low (done.length + 1) w
        | _ => HoldsFrom before children low done.length w)
      (HoldsFrom before children low 0) := by
  refine Process.Spec.ask (fun _ h => ⟨_, h.1, Nat.zero_le _, h.2.1⟩) ?_
  rintro t w ⟨hlow, hw, hnew⟩
  dsimp only
  have hplaced (h : t.place.placed = true) : HoldsFrom before children low (done.length + 1)
      { w with
        book := if t.place.placed then w.book ++ [child] else w.book
        calls := w.calls ++ [.placeChild child.clientRef t.place.answer] } :=
    ⟨_, by omega, Nat.le_refl _, Holds.succ_of_new hsplit hw hnew (if_pos h)⟩
  have hkept : HoldsFrom before children low done.length
      { w with
        book := if t.place.placed then w.book ++ [child] else w.book
        calls := w.calls ++ [.placeChild child.clientRef t.place.answer] } := by
    cases h : t.place.placed with
    | true =>
      rw [h] at hplaced
      exact (hplaced rfl).mono (Nat.le_succ _)
    | false => exact ⟨_, hlow, Nat.le_refl _, hw⟩
  split
  · next hacked => exact hplaced (t.place.placed_of_acked _ hacked)
  · exact hkept

theorem book_pauseForUnknown {i : Nat} (parent : OrderIntent) (ref : Bytes) (reason : String)
    (result : SlicedLegResult) :
    Process.Spec (HoldsFrom before children low i)
      (pauseForUnknown World.raise parent ref reason result)
      (fun result w => HoldsFrom before children low 0 w
        ∧ (result.outcome = .filledSliced → HoldsFrom before children low children.length w))
      (HoldsFrom before children low 0) := by
  have hraise (alert : Alert) : Process.Spec (HoldsFrom before children low i) (World.raise alert)
      (fun _ => HoldsFrom before children low 0) (HoldsFrom before children low 0) :=
    Process.Spec.step fun _ h => h.mono (Nat.zero_le _)
  exact (hraise _).bind fun _ => Process.Spec.pure fun _ h => ⟨h, fun hfilled => by cases hfilled⟩

/-- **One attempt**: what was reached before it stays reached, and a leg that is filled has
reached the last slice. -/
theorem book_placeChildren (hrefs : (children.map (·.clientRef)).Nodup) (parent : OrderIntent)
    (total : Nat) (result : SlicedLegResult) (hsplit : children = done ++ rest) :
    Process.Spec (HoldsFrom before children low done.length)
      (placeChildren World.raise parent total (some World.alreadyPlaced) World.placeChild rest
        result)
      (fun result w => HoldsFrom before children low 0 w
        ∧ (result.outcome = .filledSliced → HoldsFrom before children low children.length w))
      (HoldsFrom before children low 0) := by
  induction rest generalizing done result with
  | nil =>
    rw [List.append_nil] at hsplit
    rw [hsplit]
    exact Process.Spec.pure fun _ h => ⟨h.mono (Nat.zero_le _), fun _ => h⟩
  | cons child rest ih =>
    have hnext : children = (done ++ [child]) ++ rest := by
      rw [hsplit, List.append_assoc, List.singleton_append]
    have hlength : (done ++ [child]).length = done.length + 1 := by simp
    have hgoes (result : SlicedLegResult) := ih result hnext
    rw [hlength] at hgoes
    rw [placeChildren]
    refine Process.Spec.bind (book_alreadyPlaced hrefs hsplit) fun known => ?_
    cases known with
    | error error => exact book_pauseForUnknown _ _ _ _
    | ok known =>
    cases known with
    | true => exact hgoes _
    | false =>
    refine Process.Spec.bind (book_placeChild hsplit) fun answer => ?_
    cases answer with
    | error error => exact book_pauseForUnknown _ _ _ _
    | ok answer =>
    obtain ⟨placement, brokerOrderId⟩ := answer
    cases placement with
    | acked => exact hgoes _
    | alreadyPlaced => exact book_pauseForUnknown _ _ _ _
    | unknown => exact book_pauseForUnknown _ _ _ _

end Book

/-! ## The slices of a leg -/

/-- What an attempt does to a book that has grown by slices of this leg only. -/
theorem attempt_reached {parent : OrderIntent} {inst : Instrument} {children : List OrderIntent}
    (hslice : slice parent inst = .ok children) (before : List OrderIntent) (low : Nat)
    (ticks : List Tick) {w : World} (hw : HoldsFrom before children low 0 w) :
    HoldsFrom before children low 0 (afterAttempt parent inst w ticks)
      ∧ ∀ result unused w', attempt parent inst ticks w = .done result unused w' →
        result.outcome = .filledSliced → HoldsFrom before children low children.length w' := by
  have hrefs := (slices_of_ok hslice).refs
  have hspec := book_placeChildren hrefs parent children.length {}
    (List.nil_append children).symm ticks w hw
  have hattempt : attempt parent inst ticks w
      = placeChildren World.raise parent children.length (some World.alreadyPlaced)
        World.placeChild children {} ticks w := by
    unfold attempt executeSlicedLeg World.seams
    rw [hslice]
  unfold afterAttempt
  rw [hattempt]
  revert hspec
  cases placeChildren World.raise parent children.length (some World.alreadyPlaced)
      World.placeChild children {} ticks w with
  | stopped w' =>
    intro hreached
    exact ⟨hreached, fun _ _ _ h => by cases h⟩
  | done result unused w' =>
    rintro ⟨hreached, hfilled⟩
    refine ⟨hreached, fun result' unused' w'' h => ?_⟩
    cases h
    exact hfilled

/-- A parent that is refused leaves the world alone. -/
theorem attempt_refused {parent : OrderIntent} {inst : Instrument} {error : Error}
    (hslice : slice parent inst = .error error) (ticks : List Tick) (w : World) :
    ∃ result, attempt parent inst ticks w = .done result ticks w
      ∧ result.outcome = .sliceRejected := by
  unfold attempt executeSlicedLeg World.seams
  rw [hslice]
  exact ⟨_, rfl, rfl⟩

/-! ## Any attempts -/

section Attempts

variable (parent : OrderIntent) (inst : Instrument)

/-- What attempts have placed: each slice at most once, and none that the book had before. -/
def PlacedOnce (before book : List OrderIntent) : Prop :=
  ∃ placed, book = before ++ placed ∧ (placed.map (·.clientRef)).Nodup
    ∧ ∀ child ∈ placed, child.clientRef ∉ before.map (·.clientRef)

/-- The book holds the leg: the slices, numbered from one unless the order stays whole, add up to
the order, and the book has grown by those it had not, all of them if none was there. -/
structure HoldsLeg (before book : List OrderIntent) : Prop where
  exists_slices : ∃ children, slice parent inst = .ok children
    ∧ (children = [parent] ∨ children.map (·.clientRef)
        = (List.range children.length).map fun i : Nat => refAt parent.clientRef (1 + i))
    ∧ (children.map fun child => child.quantity.toInt).sum = parent.quantity.toInt
    ∧ book = before ++ children.filter (isNew before)
    ∧ ((∀ child ∈ children, child.clientRef ∉ before.map (·.clientRef)) → book = before ++ children)

variable {parent inst}

theorem placedOnce_of_reached {children : List OrderIntent}
    (hslice : slice parent inst = .ok children) {before : List OrderIntent} {low i : Nat}
    {w : World} (h : HoldsFrom before children low i w) : PlacedOnce before w.book := by
  obtain ⟨n, -, -, hw⟩ := h
  refine ⟨_, hw, ?_, fun child hchild => ?_⟩
  · have hsub : ((children.take n).filter (isNew before)).Sublist children :=
      List.filter_sublist.trans (List.take_sublist n children)
    exact (slices_of_ok hslice).refs.sublist (hsub.map _)
  · have hnew := (List.mem_filter.mp hchild).2
    simpa [isNew] using hnew

theorem holdsLeg_of_reached {children : List OrderIntent}
    (hslice : slice parent inst = .ok children) {before : List OrderIntent} {i : Nat}
    {w : World} (h : HoldsFrom before children children.length i w) :
    HoldsLeg parent inst before w.book := by
  obtain ⟨n, hn, -, hw⟩ := h
  rw [Holds, List.take_of_length_le hn] at hw
  refine ⟨children, hslice, refs_of_ok hslice, (slices_of_ok hslice).sum, hw, fun hnew => ?_⟩
  rw [hw, List.filter_eq_self.mpr fun child hchild => by simpa [isNew] using hnew child hchild]

/-- A run of attempts keeps what was reached. -/
theorem run_reached {children : List OrderIntent} (hslice : slice parent inst = .ok children)
    (before : List OrderIntent) (low : Nat) (attempts : List (List Tick)) {w : World}
    (hw : HoldsFrom before children low 0 w) :
    HoldsFrom before children low 0 (run (afterAttempt parent inst) w attempts) := by
  induction attempts generalizing w with
  | nil => exact hw
  | cons ticks attempts ih => exact ih (attempt_reached hslice before low ticks hw).1

variable (parent inst)

/-- **Each slice is placed at most once**, whatever attempts are made and wherever they are
killed; each attempt stops at the first call that fails; and from the first attempt on that
answers `FilledSliced` the broker holds the leg. -/
theorem sliced_leg_at_most_once (before : World) (attempts : List (List Tick)) :
    PlacedOnce before.book (run (afterAttempt parent inst) before attempts).book
      ∧ Along (afterAttempt parent inst)
          (fun w ticks => StopsAtFailure w (attempt parent inst ticks w)) before attempts
      ∧ ∀ front ticks back result unused w', attempts = front ++ ticks :: back →
          attempt parent inst ticks (run (afterAttempt parent inst) before front)
            = .done result unused w' →
          result.outcome = .filledSliced →
          HoldsLeg parent inst before.book
            (run (afterAttempt parent inst) before attempts).book := by
  refine ⟨?_, fun front ticks back _ => attempt_stopsAtFailure parent inst ticks _, ?_⟩
  · cases hslice : slice parent inst with
    | error error =>
      have hkept : run (afterAttempt parent inst) before attempts = before := by
        induction attempts with
        | nil => rfl
        | cons ticks attempts ih =>
          obtain ⟨result, hattempt, -⟩ := attempt_refused hslice ticks before
          rw [run_cons, afterAttempt, hattempt]
          exact ih
      exact ⟨[], by rw [hkept, List.append_nil], List.nodup_nil, by simp⟩
    | ok children =>
      exact placedOnce_of_reached hslice (run_reached hslice before.book 0 attempts
        (.start before children))
  · rintro front ticks back result unused w' rfl hdone hfilled
    cases hslice : slice parent inst with
    | error error =>
      obtain ⟨rejected, hattempt, hrejected⟩ := attempt_refused hslice ticks
        (run (afterAttempt parent inst) before front)
      rw [hattempt] at hdone
      cases hdone
      rw [hrejected] at hfilled
      cases hfilled
    | ok children =>
      have hfront := run_reached hslice before.book 0 front (.start before children)
      -- from the filled attempt on, the last slice stays reached
      obtain ⟨n, -, hn, hw'⟩ :=
        (attempt_reached hslice before.book 0 ticks hfront).2 result unused w' hdone hfilled
      have hend : HoldsFrom before.book children children.length 0 w' :=
        ⟨n, hn, Nat.zero_le _, hw'⟩
      have hrest := run_reached hslice before.book children.length back hend
      rw [run_append, run_cons]
      have hafter : afterAttempt parent inst (run (afterAttempt parent inst) before front) ticks
          = w' := by
        rw [afterAttempt, hdone]
        rfl
      rw [hafter]
      exact holdsLeg_of_reached hslice hrest

end Attempts

/-! The ack of the second of three slices is lost; the next attempt places the third only. -/

def answering (answer : Result (ChildPlacement × Bytes)) : Tick :=
  ⟨none, true, answer, fun _ _ => rfl⟩

example :
    let ack := answering (.ok (.acked, ascii "B"))
    let lost := answering (.error (Errors.makeError .timeout []))
    let after := run (afterAttempt Slicing.sampleParent (Slicing.sampleInstrument 120)) ⟨[], [], []⟩
    (after [[ack, ack, ack, lost]]).book.map (·.clientRef) = [ascii "p-1#1", ascii "p-1#2"]
      ∧ (after [[ack, ack, ack, lost], [ack, ack, ack, ack]]).book.map (·.clientRef)
        = [ascii "p-1#1", ascii "p-1#2", ascii "p-1#3"] := by
  decide

end BrokerExec.Options

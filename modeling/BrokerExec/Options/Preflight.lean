import BrokerExec.Options.Basket

/-!
# The pre-flight of a basket (`options/basket.cpp`)

* **`preflight_exact`** — a basket is blocked, with nothing placed, exactly when it is ill formed
  or its dependencies have a cycle; any other has its legs visited once each behind their
  prerequisites, and exactly those placed whose prerequisites were all acknowledged.
-/

namespace BrokerExec.Options

open BrokerExec.Ports (Alert BrokerAck)

/-! ## Ill-formed baskets -/

def IllFormed (legs : List BasketLeg) : Prop :=
  (∃ leg ∈ legs, leg.legId = [])
    ∨ ¬ (legs.map (·.legId)).Nodup
    ∨ (∃ leg ∈ legs, ∃ dep ∈ leg.dependsOn, ∀ other ∈ legs, other.legId ≠ dep)
    ∨ ∃ i, Requires legs i i

variable {legs : List BasketLeg}

theorem idToIndex_isSome_iff {dep : Bytes} :
    (∃ j, idToIndex legs dep = some j) ↔ ∃ other ∈ legs, other.legId = dep := by
  rw [← Option.isSome_iff_exists, idToIndex, List.findIdx?_isSome]
  simp

/-- What the sort waits for in a well-formed basket is what the legs name. -/
theorem needs_iff (hwell : wellFormed legs = true) {i j : Nat} :
    Relation.TransGen (TopoSort.Needs (prerequisites legs)) i j ↔ Requires legs i j := by
  have hsame : TopoSort.Needs (prerequisites legs) = DependsOn legs := by
    funext v d
    exact propext (mem_prerequisites_iff hwell)
  rw [hsame]
  rfl

theorem prerequisites_closed (hwell : wellFormed legs = true) :
    ∀ i ∈ List.range legs.length, ∀ j ∈ prerequisites legs i, j ∈ List.range legs.length := by
  intro i _ j hj
  obtain ⟨-, prerequisite, -, hget, -⟩ := (mem_prerequisites_iff hwell).mp hj
  exact List.mem_range.mpr (List.getElem?_eq_some_iff.mp hget).1

/-- **The sort finds every defect.** -/
theorem topologicalOrder_eq_none_iff : topologicalOrder legs = none ↔ IllFormed legs := by
  unfold topologicalOrder IllFormed
  by_cases hwell : wellFormed legs = true
  · obtain ⟨hnonempty, hunique, hknown⟩ := wellFormed_iff.mp hwell
    have hfull := TopoSort.sort_length_iff List.nodup_range (prerequisites_closed hwell)
    rw [List.length_range] at hfull
    have hcycle : (∃ i, Requires legs i i) ↔
        ¬ (TopoSort.sort (List.range legs.length) (prerequisites legs)).length = legs.length := by
      rw [hfull]
      push Not
      constructor
      · rintro ⟨i, hi⟩
        exact ⟨i, List.mem_range.mpr (requires_lt hi).1, (needs_iff hwell).mpr hi⟩
      · rintro ⟨i, -, hi⟩
        exact ⟨i, (needs_iff hwell).mp hi⟩
    rw [if_pos hwell, hcycle]
    dsimp only
    constructor
    · intro h
      refine .inr (.inr (.inr fun hlength => ?_))
      rw [if_pos hlength] at h
      cases h
    · rintro (⟨leg, hleg, hempty⟩ | hrepeated | ⟨leg, hleg, dep, hdep, hunknown⟩ | hshort)
      · exact absurd hempty (hnonempty leg hleg)
      · exact absurd hunique hrepeated
      · obtain ⟨other, hother, hid⟩ := idToIndex_isSome_iff.mp (hknown leg hleg dep hdep)
        exact absurd hid (hunknown other hother)
      · exact if_neg hshort
  · rw [if_neg hwell]
    refine iff_of_true rfl ?_
    rw [wellFormed_iff] at hwell
    by_contra hgood
    push Not at hgood
    refine hwell ⟨hgood.1, hgood.2.1, fun leg hleg dep hdep => idToIndex_isSome_iff.mpr ?_⟩
    exact hgood.2.2.1 leg hleg dep hdep

/-! ## The calls on the seam -/

/-- The ids of the legs that `place_leg` was called for, in order. -/
def placedIds (calls : List SeamCall) : List Bytes :=
  calls.filterMap fun
    | .placeLeg legId => some legId
    | .unwindLeg _ => none

@[simp] theorem placedIds_append (calls calls' : List SeamCall) :
    placedIds (calls ++ calls') = placedIds calls ++ placedIds calls' :=
  List.filterMap_append

/-- The id of the leg at `i`. -/
def legIdAt (legs : List BasketLeg) (i : Nat) : Bytes := (legs[i]?.map (·.legId)).getD []

theorem set_calls (w : Working) (i : Nat) (state : LegState) : (w.set i state).calls = w.calls :=
  rfl

variable {place : BasketLeg → Result BrokerAck}

theorem placeOne_calls (w : Working) {i : Nat} {leg : BasketLeg} (hleg : legs[i]? = some leg) :
    placedIds (placeOne place legs w i).calls
      = placedIds w.calls ++ if prerequisitesMet legs w leg then [leg.legId] else [] := by
  unfold placeOne
  rw [hleg]
  dsimp only
  cases hmet : prerequisitesMet legs w leg with
  | false => simp [set_calls]
  | true =>
    have hcall : placedIds (w.call (.placeLeg leg.legId)).calls
        = placedIds w.calls ++ [leg.legId] := placedIds_append _ _
    rw [if_neg (by decide), if_pos rfl]
    split
    · split_ifs <;> exact hcall
    · exact hcall

theorem foldl_markLeftLive_calls (l : List Nat) (w : Working) :
    (l.foldl markLeftLive w).calls = w.calls := by
  induction l generalizing w with
  | nil => rfl
  | cons i l ih =>
    rw [List.foldl_cons, ih, markLeftLive]
    split_ifs <;> rfl

/-- The unwind places nothing. -/
theorem foldl_unwindOne_calls (unwindLeg : Option (BasketLeg → Bytes → Result Unit))
    (l : List Nat) (acc : Working × Bytes) :
    placedIds (l.foldl (unwindOne unwindLeg legs) acc).1.calls = placedIds acc.1.calls := by
  induction l generalizing acc with
  | nil => rfl
  | cons i l ih =>
    obtain ⟨w, liveLegs⟩ := acc
    rw [List.foldl_cons, ih, unwindOne]
    have hcall : placedIds (w.call (.unwindLeg (w.legs i).orderId)).calls = placedIds w.calls := by
      show placedIds (w.calls ++ [_]) = _
      rw [placedIds_append]
      exact List.append_nil _
    split
    · rfl
    · dsimp only
      split_ifs
      · rfl
      · split
        · rfl
        · split
          · exact hcall
          · exact hcall

/-- Settling places nothing and blocks nothing. -/
theorem settle_calls (config : BasketConfig) (seams : BasketSeams) (order : List Nat)
    (w : Working) :
    (settle legs config seams order w).result.outcome ≠ .blocked
      ∧ placedIds (settle legs config seams order w).calls = placedIds w.calls := by
  unfold settle
  split_ifs
  · refine ⟨fun h => (by cases h), ?_⟩
    show placedIds ((List.range legs.length).foldl markLeftLive w).calls = _
    rw [foldl_markLeftLive_calls]
  · split
    · have hunwound : placedIds (order.reverse.foldl (unwindOne _ legs) (w, [])).1.calls
          = placedIds w.calls := foldl_unwindOne_calls seams.unwindLeg order.reverse (w, [])
      unfold unwindExecuted
      dsimp only
      split_ifs
      · exact ⟨fun h => (by cases h), hunwound⟩
      · exact ⟨fun h => (by cases h), hunwound⟩
    · exact ⟨fun h => (by cases h), rfl⟩
  · exact ⟨fun h => (by cases h), rfl⟩

/-- The calls of the placement are for the legs that are reached. The induction is on the legs
still to be placed, as in `foldl_placeOne`. -/
theorem foldl_placeOne_calls {order : List Nat} (horder : topologicalOrder legs = some order)
    (front : List Nat) {back : List Nat} (hsplit : order = front ++ back) (w : Working)
    (hfront : ∀ i ∈ front, Placed place legs i (w.legs i)) :
    ∃ called : List Nat, called.Sublist back ∧ (∀ i ∈ back, i ∈ called ↔ Reached place legs i)
      ∧ placedIds (back.foldl (placeOne place legs) w).calls
        = placedIds w.calls ++ called.map (legIdAt legs) := by
  obtain ⟨-, hnodup, -, -⟩ := topologicalOrder_eq_some horder
  induction back generalizing front w with
  | nil => exact ⟨[], .slnil, by simp, by simp⟩
  | cons i back ih =>
    obtain ⟨leg, hleg⟩ := exists_leg horder hsplit
    have hmet := prerequisitesMet_iff_reached horder hsplit hfront hleg
    have hid : legIdAt legs i = leg.legId := by simp [legIdAt, hleg]
    have hlater : i ∉ back := by
      rw [hsplit, List.nodup_append, List.nodup_cons] at hnodup
      exact hnodup.2.1.1
    obtain ⟨called, hsub, hcalled, hcalls⟩ := ih (front ++ [i])
      (by rw [hsplit, List.append_assoc]; rfl) _ (placed_snoc horder hsplit hfront)
    rw [placeOne_calls w hleg] at hcalls
    by_cases hreached : Reached place legs i
    · rw [if_pos (hmet.mpr hreached), List.append_assoc, ← hid] at hcalls
      refine ⟨i :: called, hsub.cons_cons i, fun j hj => ?_, hcalls⟩
      rcases List.mem_cons.mp hj with rfl | hj
      · exact iff_of_true List.mem_cons_self hreached
      · rw [List.mem_cons, hcalled j hj]
        exact or_iff_right fun hji => hlater (hji ▸ hj)
    · rw [if_neg (mt hmet.mp hreached), List.append_nil] at hcalls
      refine ⟨called, hsub.cons i, fun j hj => ?_, hcalls⟩
      rcases List.mem_cons.mp hj with rfl | hj
      · exact iff_of_false (fun hin => hlater (hsub.subset hin)) hreached
      · exact hcalled j hj

/-- **The pre-flight is exact**, for every list of legs and all answers of the seams. -/
theorem preflight_exact (legs : List BasketLeg) (config : BasketConfig)
    (place : BasketLeg → Result BrokerAck)
    (unwindLeg : Option (BasketLeg → Bytes → Result Unit)) :
    let run := executeBasket legs config ⟨some place, unwindLeg⟩
    (run.result.outcome = .blocked ∧ placedIds run.calls = [] ↔ IllFormed legs)
      ∧ (¬ IllFormed legs → ∃ order called : List Nat,
        topologicalOrder legs = some order
          ∧ order.Perm (List.range legs.length)
          ∧ (∀ front i back, order = front ++ i :: back → ∀ j, Requires legs i j → j ∈ front)
          ∧ called.Sublist order
          ∧ placedIds run.calls = called.map (legIdAt legs)
          ∧ ∀ i ∈ order, i ∈ called ↔
            ∀ j, DependsOn legs i j → j ∈ called ∧ Acks place legs j) := by
  dsimp only
  unfold executeBasket
  cases horder : topologicalOrder legs with
  | none =>
    have hill := topologicalOrder_eq_none_iff.mp horder
    exact ⟨iff_of_true ⟨rfl, rfl⟩ hill, fun hgood => absurd hill hgood⟩
  | some order =>
    have hgood : ¬ IllFormed legs := by
      rw [← topologicalOrder_eq_none_iff, horder]
      exact Option.some_ne_none order
    obtain ⟨hwell, hnodup, hmem, hrespects⟩ := topologicalOrder_eq_some horder
    obtain ⟨hunblocked, hplaced⟩ := @settle_calls legs config ⟨some place, unwindLeg⟩ order
      (order.foldl (placeOne place legs) .init)
    obtain ⟨called, hsub, hcalled, hcalls⟩ := @foldl_placeOne_calls legs place _ horder [] _ rfl
      .init (by simp)
    refine ⟨iff_of_false (fun h => hunblocked h.1) hgood, fun _ => ⟨order, called, rfl, ?_, ?_,
      hsub, hplaced.trans hcalls, fun i hi => ?_⟩⟩
    · refine (List.perm_ext_iff_of_nodup hnodup List.nodup_range).mpr fun i => ?_
      rw [hmem, List.mem_range]
    · intro front i back hsplit j hij
      exact hrespects.mem_of_needs ((needs_iff hwell).mpr hij) front back hsplit
    · rw [hcalled i hi, reached_iff]
      refine forall_congr' fun j => forall_congr' fun hij => ?_
      have hj : j ∈ order := (hmem j).mpr (requires_lt (.single hij)).2
      rw [hcalled j hj]
      rfl

end BrokerExec.Options

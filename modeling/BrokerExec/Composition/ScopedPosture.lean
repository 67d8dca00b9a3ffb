import BrokerExec.Modes.KillSwitch

/-!
# The posture of an assembly (`composition/engine_assembly.cpp`)

The kill switch is the floor under the detector signals; a kill that is not for a strategy is
not under its posture.

* **`evaluatePostureForStrategy_mono`** — a strategy's posture grows with the active kills and
  the active signals, and depends on nothing else.
* **`postureForStrategy_other`** — a kill of another strategy leaves it alone.
-/

namespace BrokerExec.Composition

open BrokerExec.Modes (DetectorSignal KillCommand KillState Posture evaluate)

/-- `evaluate_posture`, for what the detectors say. -/
def evaluatePosture (killState : KillState) (active : List DetectorSignal) : Posture :=
  evaluate active killState.posture

def evaluatePostureForStrategy (killState : KillState) (active : List DetectorSignal)
    (strategy : Bytes) : Posture :=
  let operatorFloor :=
    if killState.blocksStrategy strategy then killState.posture else Posture.normal
  evaluate active operatorFloor

section

variable {kills kills' : KillState} {signals signals' : List DetectorSignal}

/-- **Severity grows with the kills and the signals.** -/
theorem evaluatePostureForStrategy_mono (hkills : ∀ c ∈ kills.active, c ∈ kills'.active)
    (hsignals : ∀ s ∈ signals, s ∈ signals') (strategy : Bytes) :
    evaluatePostureForStrategy kills signals strategy
      ≤ evaluatePostureForStrategy kills' signals' strategy := by
  refine Modes.evaluate_mono hsignals ?_
  by_cases hblocks : kills.blocksStrategy strategy = true
  · rw [if_pos hblocks, if_pos (Modes.blocksStrategy_mono hkills hblocks)]
    exact Modes.posture_mono hkills
  · rw [if_neg hblocks]
    exact Modes.normal_le _

/-- **Only the sets count**, not the order or a repetition. -/
theorem evaluatePostureForStrategy_congr (hkills : ∀ c, c ∈ kills.active ↔ c ∈ kills'.active)
    (hsignals : ∀ s, s ∈ signals ↔ s ∈ signals') (strategy : Bytes) :
    evaluatePostureForStrategy kills signals strategy
      = evaluatePostureForStrategy kills' signals' strategy :=
  le_antisymm
    (evaluatePostureForStrategy_mono (fun c => (hkills c).mp) (fun s => (hsignals s).mp) strategy)
    (evaluatePostureForStrategy_mono (fun c => (hkills c).mpr) (fun s => (hsignals s).mpr)
      strategy)

/-- **A kill of another strategy changes nothing.** -/
theorem postureForStrategy_other (kills : KillState) (signals : List DetectorSignal)
    {strategy other : Bytes} (hother : other ≠ strategy) :
    evaluatePostureForStrategy (kills.apply ⟨.strategy, other⟩) signals strategy
      = evaluatePostureForStrategy kills signals strategy := by
  have hgrown : ∀ c ∈ kills.active, c ∈ (kills.apply ⟨.strategy, other⟩).active :=
    fun c hc => Modes.mem_active_apply.mpr (.inl hc)
  have hsame : (kills.apply ⟨.strategy, other⟩).blocksStrategy strategy
      = kills.blocksStrategy strategy := by
    apply Bool.eq_iff_iff.mpr
    refine ⟨fun h => ?_, Modes.blocksStrategy_mono hgrown⟩
    obtain ⟨c, hc, hscope⟩ := Modes.blocksStrategy_iff.mp h
    rcases Modes.mem_active_apply.mp hc with hc | hc
    · exact Modes.blocksStrategy_iff.mpr ⟨c, hc, hscope⟩
    · rw [hc] at hscope
      exact hscope.elim (fun h => absurd rfl h) fun h => absurd h hother
  unfold evaluatePostureForStrategy
  rw [hsame]
  by_cases hblocks : kills.blocksStrategy strategy = true
  · -- a kill is active already, and the new one is no panic
    have hposture : (kills.apply ⟨.strategy, other⟩).posture = kills.posture := by
      refine le_antisymm ?_ (Modes.posture_mono hgrown)
      by_cases hpanic : kills.posture = .panic
      · rw [hpanic]
        exact Modes.le_panic _
      · have hnopanic : ¬ (kills.apply ⟨.strategy, other⟩).panicActive = true := by
          intro h
          obtain ⟨c, hc, htype⟩ := Modes.panicActive_iff.mp h
          rcases Modes.mem_active_apply.mp hc with hc | hc
          · exact hpanic (Modes.posture_eq_panic_iff.mpr (Modes.panicActive_iff.mpr ⟨c, hc, htype⟩))
          · rw [hc] at htype
            cases htype
        obtain ⟨c, hc, -⟩ := Modes.blocksStrategy_iff.mp hblocks
        rw [Modes.posture_eq_panic_iff] at hpanic
        unfold KillState.posture
        rw [if_neg hpanic, if_neg hnopanic, if_pos (Modes.anyActive_iff.mpr ⟨c, hc⟩),
          if_pos (Modes.anyActive_iff.mpr ⟨c, hgrown c hc⟩)]
    rw [hposture]
  · rw [if_neg hblocks, if_neg hblocks]

/-- Only an operator's panic closes the exit gate. -/
theorem postureForStrategy_eq_panic_iff {strategy : Bytes} :
    evaluatePostureForStrategy kills signals strategy = .panic ↔ kills.panicActive = true := by
  unfold evaluatePostureForStrategy
  dsimp only
  rw [Modes.evaluate_eq_panic_iff]
  by_cases hblocks : kills.blocksStrategy strategy = true
  · rw [if_pos hblocks, Modes.posture_eq_panic_iff]
  · rw [if_neg hblocks]
    refine iff_of_false (by decide) fun hpanic => hblocks ?_
    obtain ⟨c, hc, htype⟩ := Modes.panicActive_iff.mp hpanic
    exact Modes.blocksStrategy_iff.mpr ⟨c, hc, .inl (by rw [htype]; decide)⟩

end

end BrokerExec.Composition

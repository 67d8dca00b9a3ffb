import BrokerExec.Lib.Run
import BrokerExec.Lib.Bytes
import Mathlib.Algebra.Order.Group.Int
import Mathlib.Algebra.Order.Group.Unbundled.Abs
import Mathlib.Data.List.Chain
import Mathlib.Tactic.Linarith
import Mathlib.Tactic.Push

/-!
# The skew and stall detector (`clock/skew_stall_detector.cpp`)

Each sample is compared with the one before it, in nanoseconds. A fault stays until `reset`.

* **`status_run`** — the detector is healthy exactly while every interval since the last reset was.
* **`drift_run`** — what a healthy detector bounds over all its samples together.
-/

namespace BrokerExec.Clock

inductive ClockStatus where
  | healthy
  | stalled
  | skewed
  deriving DecidableEq

def ClockStatus.toString : ClockStatus → Bytes
  | .healthy => ascii "Healthy"
  | .stalled => ascii "Stalled"
  | .skewed => ascii "Skewed"

structure SkewStallConfig where
  stallThreshold : Int
  skewThreshold : Int

/-- Both clocks at one moment. -/
structure Sample where
  steady : Int
  wall : Int
  deriving DecidableEq

structure Detector where
  status : ClockStatus
  reason : Bytes
  /-- The sample before, once there is one. -/
  last : Option Sample

def Detector.init : Detector := ⟨.healthy, [], none⟩

def msText (ns : Int) : Bytes := decimal (ns.tdiv 1000000) ++ ascii "ms"

/-- `sample`; the caller reads the status. -/
def Detector.sample (cfg : SkewStallConfig) (detector : Detector) (now : Sample) : Detector :=
  match detector.last with
  | none => { detector with last := some now }
  | some last =>
    let steadyElapsed := now.steady - last.steady
    let wallElapsed := now.wall - last.wall
    -- a stall is reported before a skew
    if steadyElapsed > cfg.stallThreshold then
      ⟨.stalled, ascii "main-loop stall: steady gap " ++ msText steadyElapsed
        ++ ascii " exceeds threshold " ++ msText cfg.stallThreshold, some now⟩
    else
      let divergence := |wallElapsed - steadyElapsed|
      if divergence > cfg.skewThreshold then
        ⟨.skewed, ascii "clock skew: wall/steady divergence " ++ msText divergence
          ++ ascii " exceeds threshold " ++ msText cfg.skewThreshold, some now⟩
      else { detector with last := some now }

def Detector.reset (_ : Detector) : Detector := .init

inductive Event where
  | sample (now : Sample)
  | reset

def Detector.step (cfg : SkewStallConfig) (detector : Detector) : Event → Detector
  | .sample now => detector.sample cfg now
  | .reset => detector.reset

/-! ## Runs -/

/-- The samples since the last reset. -/
def sinceReset (events : List Event) : List Sample :=
  events.foldl (fun samples e =>
    match e with
    | .sample now => samples ++ [now]
    | .reset => []) []

/-- An interval within both thresholds. -/
def Within (cfg : SkewStallConfig) (a b : Sample) : Prop :=
  b.steady - a.steady ≤ cfg.stallThreshold
    ∧ |(b.wall - a.wall) - (b.steady - a.steady)| ≤ cfg.skewThreshold

variable {cfg : SkewStallConfig}

theorem sinceReset_concat (events : List Event) (e : Event) :
    sinceReset (events ++ [e]) =
      match e with
      | .sample now => sinceReset events ++ [now]
      | .reset => [] := by
  unfold sinceReset
  rw [List.foldl_append]
  rfl

theorem last_sample (detector : Detector) (now : Sample) :
    (detector.sample cfg now).last = some now := by
  unfold Detector.sample
  split
  · rfl
  · simp only
    split_ifs <;> rfl

/-- A sample keeps a detector healthy exactly when its interval is within both thresholds. -/
theorem sample_healthy_iff (detector : Detector) (now : Sample) :
    (detector.sample cfg now).status = .healthy
      ↔ detector.status = .healthy ∧ ∀ last ∈ detector.last, Within cfg last now := by
  unfold Detector.sample Within
  cases detector.last with
  | none => simp
  | some last =>
    simp only [Option.mem_def, Option.some.injEq, forall_eq']
    split_ifs with hstall hskew
    · exact iff_of_false nofun fun h => by omega
    · exact iff_of_false nofun fun h => absurd h.2.2 (not_le.mpr hskew)
    · exact (and_iff_left ⟨not_lt.mp hstall, not_lt.mp hskew⟩).symm

/-- What the detector remembers of a run. -/
theorem holds_run (cfg : SkewStallConfig) (events : List Event) :
    (run (Detector.step cfg) .init events).last = (sinceReset events).getLast?
      ∧ ((run (Detector.step cfg) .init events).status = .healthy
        ↔ (sinceReset events).IsChain (Within cfg)) := by
  induction events using List.reverseRecOn with
  | nil => exact ⟨rfl, iff_of_true rfl .nil⟩
  | append_singleton events e ih =>
    rw [run_concat, sinceReset_concat]
    obtain ⟨hlast, hstatus⟩ := ih
    cases e with
    | reset => exact ⟨rfl, iff_of_true rfl .nil⟩
    | sample now =>
      refine ⟨(last_sample _ now).trans (by simp), ?_⟩
      show (Detector.sample cfg _ now).status = .healthy ↔ _
      rw [sample_healthy_iff, hstatus, hlast, List.isChain_append]
      simp

/-- **The detector is healthy exactly while every interval between neighbouring samples since the
last reset is within both thresholds**: a fault is seen until it is acknowledged. -/
theorem status_run (cfg : SkewStallConfig) (events : List Event) :
    (run (Detector.step cfg) .init events).status = .healthy
      ↔ (sinceReset events).IsChain (Within cfg) :=
  (holds_run cfg events).2

/-- Bounds of neighbours add up over a chain. -/
theorem drift_chain {samples : List Sample} {first last : Sample}
    (h : (first :: samples).IsChain (Within cfg)) (hlast : (first :: samples).getLast? = some last) :
    last.steady - first.steady ≤ samples.length * cfg.stallThreshold
      ∧ |(last.wall - first.wall) - (last.steady - first.steady)|
        ≤ samples.length * cfg.skewThreshold := by
  induction samples generalizing first with
  | nil =>
    obtain rfl : first = last := Option.some.inj hlast
    simp
  | cons next rest ih =>
    rw [List.isChain_cons_cons] at h
    obtain ⟨⟨hstall, hskew⟩, hrest⟩ := h
    obtain ⟨hstall', hskew'⟩ := ih hrest (by simpa using hlast)
    rw [abs_le] at hskew hskew' ⊢
    simp only [List.length_cons, Nat.cast_add, Nat.cast_one, add_mul, one_mul]
    refine ⟨by omega, ⟨by omega, by omega⟩⟩

/-- **A healthy detector bounds its whole window, but the bound grows with the samples**: over `n`
intervals the loop may have taken `n` stall thresholds and the clocks may have parted by `n` skew
thresholds. -/
theorem drift_run (cfg : SkewStallConfig) (events : List Event) {first last : Sample}
    {rest : List Sample} (hsamples : sinceReset events = first :: rest)
    (hlast : (first :: rest).getLast? = some last)
    (h : (run (Detector.step cfg) .init events).status = .healthy) :
    last.steady - first.steady ≤ rest.length * cfg.stallThreshold
      ∧ |(last.wall - first.wall) - (last.steady - first.steady)|
        ≤ rest.length * cfg.skewThreshold := by
  rw [(holds_run cfg events).2, hsamples] at h
  exact drift_chain h hlast

/-- The bounds are reached: two intervals at both thresholds. -/
theorem drift_run_reached :
    (4 : Int) - 0 ≤ (2 : Nat) * 2 ∧ |((6 : Int) - 0) - (4 - 0)| ≤ (2 : Nat) * 1 :=
  have hsamples : sinceReset [.sample ⟨0, 0⟩, .sample ⟨2, 3⟩, .sample ⟨4, 6⟩]
      = [⟨0, 0⟩, ⟨2, 3⟩, ⟨4, 6⟩] := rfl
  drift_run ⟨2, 1⟩ _ hsamples rfl (by decide)

end BrokerExec.Clock

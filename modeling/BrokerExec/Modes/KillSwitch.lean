import BrokerExec.Modes.Posture
import Mathlib.Data.List.Nodup

/-!
# The kill switch (`modes/killswitch.cpp`)

The set of active kills, which only the main loop writes, and the control plane that validates,
authenticates and persists a command before it queues it for the loop.

* **`blocksStrategy_mono`**, **`posture_mono`** — more kills block more and weigh more.
-/

namespace BrokerExec.Modes

open BrokerExec.Errors (makeError)

inductive KillType where
  | soft
  | strategy
  | broker
  | account
  | panic
  deriving DecidableEq

def KillType.toString : KillType → Bytes
  | .soft => ascii "Soft"
  | .strategy => ascii "Strategy"
  | .broker => ascii "Broker"
  | .account => ascii "Account"
  | .panic => ascii "Panic"

structure KillCommand where
  type : KillType
  scope : Bytes
  deriving DecidableEq

/-- Only a `Strategy` kill stops less than the whole account. -/
def KillType.isBroad (type : KillType) : Bool := type ≠ .strategy

def KillCommand.validate (cmd : KillCommand) : Result Unit :=
  if cmd.type = .strategy ∧ cmd.scope = [] then
    .error (makeError .validation (ascii "kill rejected: Strategy kill requires a scope"))
  else if (cmd.type = .soft ∨ cmd.type = .panic) ∧ cmd.scope ≠ [] then
    .error (makeError .validation
      (ascii "kill rejected: " ++ cmd.type.toString ++ ascii " kill must not carry a scope"))
  else .ok ()

/-! ## The active set -/

/-- The distinct active kills, in the order in which they were applied. -/
structure KillState where
  active : List KillCommand
  nodup : active.Nodup

def KillState.empty : KillState := ⟨[], .nil⟩

theorem nodup_concat {active : List KillCommand} (h : active.Nodup) {cmd : KillCommand}
    (hnew : cmd ∉ active) : (active ++ [cmd]).Nodup := by
  rw [List.nodup_append]
  refine ⟨h, List.nodup_singleton cmd, ?_⟩
  intro a ha b hb hab
  rw [hab, List.mem_singleton.mp hb] at ha
  exact hnew ha

def KillState.apply (state : KillState) (cmd : KillCommand) : KillState :=
  if h : cmd ∈ state.active then state else ⟨state.active ++ [cmd], nodup_concat state.nodup h⟩

def KillState.panicActive (state : KillState) : Bool := state.active.any (·.type = .panic)

def KillState.anyActive (state : KillState) : Bool := !state.active.isEmpty

def KillState.blocksEntries (state : KillState) : Bool := state.anyActive

def KillState.blocksStrategy (state : KillState) (strategy : Bytes) : Bool :=
  state.active.any fun c => c.type.isBroad || c.scope = strategy

def KillState.allowsRiskReducingExits (state : KillState) : Bool := !state.panicActive

def KillState.posture (state : KillState) : Posture :=
  if state.panicActive then .panic
  else if state.anyActive then .softKill else .normal

@[simp] theorem mem_active_apply {state : KillState} {cmd c : KillCommand} :
    c ∈ (state.apply cmd).active ↔ c ∈ state.active ∨ c = cmd := by
  unfold KillState.apply
  split_ifs with h
  · exact ⟨.inl, fun hc => hc.elim id fun heq => heq ▸ h⟩
  · simp

theorem panicActive_iff {state : KillState} :
    state.panicActive = true ↔ ∃ c ∈ state.active, c.type = .panic := by
  simp [KillState.panicActive]

theorem anyActive_iff {state : KillState} :
    state.anyActive = true ↔ ∃ c, c ∈ state.active := by
  unfold KillState.anyActive
  cases state.active with
  | nil => simp
  | cons c rest => simp

/-- A broad kill, or one on this strategy. -/
theorem blocksStrategy_iff {state : KillState} {strategy : Bytes} :
    state.blocksStrategy strategy = true ↔
      ∃ c ∈ state.active, c.type ≠ .strategy ∨ c.scope = strategy := by
  simp [KillState.blocksStrategy, KillType.isBroad]

theorem posture_eq_panic_iff {state : KillState} :
    state.posture = .panic ↔ state.panicActive = true := by
  unfold KillState.posture
  by_cases hpanic : state.panicActive = true
  · rw [if_pos hpanic]
    exact iff_of_true rfl hpanic
  · rw [if_neg hpanic]
    refine iff_of_false ?_ hpanic
    split_ifs
    · decide
    · decide

section

variable {state state' : KillState} (h : ∀ c ∈ state.active, c ∈ state'.active)

include h

/-- **More kills block more.** -/
theorem blocksStrategy_mono {strategy : Bytes} (hblocks : state.blocksStrategy strategy = true) :
    state'.blocksStrategy strategy = true := by
  obtain ⟨c, hc, hscope⟩ := blocksStrategy_iff.mp hblocks
  exact blocksStrategy_iff.mpr ⟨c, h c hc, hscope⟩

/-- **More kills weigh more.** -/
theorem posture_mono : state.posture ≤ state'.posture := by
  by_cases hpanic : state'.panicActive = true
  · rw [posture_eq_panic_iff.mpr hpanic]
    exact le_panic _
  · have hnopanic : ¬ state.panicActive = true := by
      intro hbefore
      obtain ⟨c, hc, htype⟩ := panicActive_iff.mp hbefore
      exact hpanic (panicActive_iff.mpr ⟨c, h c hc, htype⟩)
    unfold KillState.posture
    rw [if_neg hpanic, if_neg hnopanic]
    by_cases hany : state.anyActive = true
    · obtain ⟨c, hc⟩ := anyActive_iff.mp hany
      rw [if_pos hany, if_pos (anyActive_iff.mpr ⟨c, h c hc⟩)]
    · rw [if_neg hany]
      exact normal_le _

end

/-! ## The control plane -/

/-- `submit` up to its persist: what it answers when the command does not get further. -/
def KillController.admitted (authenticate : Bytes → Bool) (persist : Result Unit) (cmd : KillCommand)
    (authToken : Bytes) : Result Unit :=
  match cmd.validate with
  | .error e => .error e
  | .ok () =>
    if !authenticate authToken then
      .error (makeError .auth (ascii "kill rejected: unauthenticated control command"))
    else
      match persist with
      | .error e => .error e
      | .ok () => .ok ()

/-- `submit`, over the queue. `persist` is what the durable write answers if it is reached. -/
def KillController.submit (authenticate : Bytes → Bool) (persist : Result Unit) (cmd : KillCommand)
    (authToken : Bytes) (queue : List KillCommand) : Result Unit × List KillCommand :=
  match KillController.admitted authenticate persist cmd authToken with
  | .error e => (.error e, queue)
  | .ok () => (.ok (), queue ++ [cmd])

/-- `drain`: the batch, and the queue behind it. -/
def KillController.drain (queue : List KillCommand) : List KillCommand × List KillCommand :=
  (queue, [])

/-- `replay`, of what `load` answers. -/
def KillController.replay (state : KillState) (load : Result (List KillCommand)) :
    Result Unit × KillState :=
  match load with
  | .error e => (.error e, state)
  | .ok commands => (.ok (), commands.foldl KillState.apply state)

theorem admitted_ok_iff {authenticate : Bytes → Bool} {persist : Result Unit} {cmd : KillCommand}
    {authToken : Bytes} :
    KillController.admitted authenticate persist cmd authToken = .ok () ↔
      cmd.validate = .ok () ∧ authenticate authToken = true ∧ persist = .ok () := by
  unfold KillController.admitted
  cases cmd.validate with
  | error e => simp
  | ok u =>
    cases authenticate authToken with
    | false => simp
    | true =>
      cases persist with
      | error e => simp
      | ok v => simp

end BrokerExec.Modes

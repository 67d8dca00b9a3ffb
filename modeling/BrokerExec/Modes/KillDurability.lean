import BrokerExec.Composition.ScopedPosture
import BrokerExec.Lib.Run

/-!
# Kills across crashes and restarts

The control plane persists a command, then queues it and answers; the main loop drains the
queue and applies the batch command by command, as it does what a restart loads. Any of this
can be cut by a crash.

* **`kill_switch_durable`** — an acknowledged command is active after the next drain or replay
  and stays so; nothing is active that was not admitted; the posture follows the sets of active
  commands and signals.
-/

namespace BrokerExec.Modes

open BrokerExec.Composition (evaluatePostureForStrategy evaluatePostureForStrategy_congr
  evaluatePostureForStrategy_mono postureForStrategy_other)

/-- A process with its kill switch, and what outlives it. -/
structure Plant where
  up : Bool
  /-- The main loop's own: the active set and what it has drained or loaded but not applied. -/
  kills : KillState
  batch : List KillCommand
  queue : List KillCommand
  /-- Submits between their persist and their enqueue. -/
  submitting : List KillCommand
  persisted : List KillCommand
  /-- The commands whose submit returned ok. -/
  acked : List KillCommand

/-- Down, with nothing persisted. -/
def Plant.initial : Plant := ⟨false, .empty, [], [], [], [], []⟩

inductive PlantEvent where
  | persist (cmd : KillCommand) (authToken : Bytes) (written : Result Unit)
  | enqueue (cmd : KillCommand)
  | drain
  | applyNext
  | crash
  | restart (loaded : List KillCommand)

variable (authenticate : Bytes → Bool)

/-- `submit` up to its persist. -/
def Plant.persist (p : Plant) (cmd : KillCommand) (authToken : Bytes) (written : Result Unit) :
    Plant :=
  match KillController.admitted authenticate written cmd authToken with
  | .error _ => p
  | .ok () => { p with persisted := p.persisted ++ [cmd], submitting := p.submitting ++ [cmd] }

/-- The loop applies the next command of its batch. -/
def Plant.applyNext (p : Plant) : Plant :=
  match p.batch with
  | [] => p
  | cmd :: rest => { p with kills := p.kills.apply cmd, batch := rest }

def Plant.step (p : Plant) : PlantEvent → Plant
  | .persist cmd authToken written => p.persist authenticate cmd authToken written
  | .enqueue cmd =>
    { p with
      submitting := p.submitting.erase cmd
      queue := p.queue ++ [cmd]
      acked := p.acked ++ [cmd] }
  | .drain =>
    { p with batch := (KillController.drain p.queue).1, queue := (KillController.drain p.queue).2 }
  | .applyNext => p.applyNext
  | .crash => { p with up := false, kills := .empty, batch := [], queue := [], submitting := [] }
  | .restart loaded => { p with up := true, batch := loaded }

/-- What can happen next: a process runs only while it is up, its loop finishes a batch before
it drains again, and `load` returns the persisted commands in some order, some of them
repeatedly. -/
def Plant.Enabled (p : Plant) : PlantEvent → Prop
  | .persist _ _ _ => p.up = true
  | .enqueue cmd => p.up = true ∧ cmd ∈ p.submitting
  | .drain => p.up = true ∧ p.batch = []
  | .applyNext => p.up = true ∧ p.batch ≠ []
  | .crash => p.up = true
  | .restart loaded =>
    p.up = false ∧ (∀ c ∈ loaded, c ∈ p.persisted) ∧ ∀ c ∈ p.persisted, c ∈ loaded

instance (p : Plant) (e : PlantEvent) : Decidable (p.Enabled e) := by
  cases e <;> unfold Plant.Enabled <;> infer_instance

/-- The events that bring acknowledged commands to the loop. -/
def PlantEvent.brings : PlantEvent → Bool
  | .drain | .restart _ => true
  | .persist _ _ _ | .enqueue _ | .applyNext | .crash => false

variable {authenticate}

/-- Every command the plant holds was persisted. -/
structure Plant.Sound (p : Plant) : Prop where
  kills : ∀ c ∈ p.kills.active, c ∈ p.persisted
  batch : ∀ c ∈ p.batch, c ∈ p.persisted
  queue : ∀ c ∈ p.queue, c ∈ p.persisted
  submitting : ∀ c ∈ p.submitting, c ∈ p.persisted
  acked : ∀ c ∈ p.acked, c ∈ p.persisted

/-- What an acknowledged command is, while the process is up: queued, drained or active. -/
def Plant.Accounted (p : Plant) : Prop :=
  p.up = true → ∀ c ∈ p.acked, c ∈ p.kills.active ∨ c ∈ p.batch ∨ c ∈ p.queue

/-- What the loop has taken up it holds until it is active, and a restart takes it up again. -/
def Plant.Taken (c : KillCommand) (p : Plant) : Prop :=
  c ∈ p.persisted ∧ (p.up = true → c ∈ p.kills.active ∨ c ∈ p.batch)

/-! ## One step -/

section

variable {p : Plant} {e : PlantEvent}

variable (authenticate) in
theorem persist_cases (p : Plant) (cmd : KillCommand) (authToken : Bytes) (written : Result Unit) :
    p.step authenticate (.persist cmd authToken written) = p ∨
    (KillController.admitted authenticate written cmd authToken = .ok () ∧
      p.step authenticate (.persist cmd authToken written)
        = { p with persisted := p.persisted ++ [cmd], submitting := p.submitting ++ [cmd] }) := by
  show p.persist authenticate cmd authToken written = p ∨
    (_ ∧ p.persist authenticate cmd authToken written = _)
  unfold Plant.persist
  cases KillController.admitted authenticate written cmd authToken with
  | error e => exact .inl rfl
  | ok u => exact .inr ⟨rfl, rfl⟩

theorem step_applyNext {cmd : KillCommand} {rest : List KillCommand} (h : p.batch = cmd :: rest) :
    p.step authenticate .applyNext = { p with kills := p.kills.apply cmd, batch := rest } := by
  show p.applyNext = _
  unfold Plant.applyNext
  rw [h]

theorem step_applyNext_nil (h : p.batch = []) : p.step authenticate .applyNext = p := by
  show p.applyNext = p
  unfold Plant.applyNext
  rw [h]

theorem applyNext_persisted (p : Plant) :
    (p.step authenticate .applyNext).persisted = p.persisted := by
  cases hbatch : p.batch with
  | nil => rw [step_applyNext_nil hbatch]
  | cons cmd rest => rw [step_applyNext hbatch]

/-- Nothing that was persisted is lost. -/
theorem persisted_step (p : Plant) (e : PlantEvent) :
    ∀ c ∈ p.persisted, c ∈ (p.step authenticate e).persisted := by
  intro c hc
  cases e with
  | persist cmd authToken written =>
    rcases persist_cases authenticate p cmd authToken written with h | ⟨-, h⟩
    · rw [h]
      exact hc
    · rw [h]
      exact List.mem_append_left _ hc
  | applyNext =>
    rw [applyNext_persisted]
    exact hc
  | enqueue cmd => exact hc
  | drain => exact hc
  | crash => exact hc
  | restart loaded => exact hc

theorem sound_step (h : p.Sound) (henabled : p.Enabled e) : (p.step authenticate e).Sound := by
  cases e with
  | persist cmd authToken written =>
    rcases persist_cases authenticate p cmd authToken written with hs | ⟨-, hs⟩
    · rw [hs]
      exact h
    · rw [hs]
      refine ⟨fun c hc => List.mem_append_left _ (h.kills c hc),
        fun c hc => List.mem_append_left _ (h.batch c hc),
        fun c hc => List.mem_append_left _ (h.queue c hc), fun c hc => ?_,
        fun c hc => List.mem_append_left _ (h.acked c hc)⟩
      rcases List.mem_append.mp hc with hc | hc
      · exact List.mem_append_left _ (h.submitting c hc)
      · exact List.mem_append_right _ hc
  | enqueue cmd =>
    obtain ⟨-, hcmd⟩ := henabled
    have hadd : ∀ {l : List KillCommand}, (∀ c ∈ l, c ∈ p.persisted) →
        ∀ c ∈ l ++ [cmd], c ∈ p.persisted := by
      intro l hl c hc
      rcases List.mem_append.mp hc with hc | hc
      · exact hl c hc
      · rw [List.mem_singleton.mp hc]
        exact h.submitting cmd hcmd
    exact ⟨h.kills, h.batch, hadd h.queue,
      fun c hc => h.submitting c (List.mem_of_mem_erase hc), hadd h.acked⟩
  | drain => exact ⟨h.kills, h.queue, fun c hc => absurd hc List.not_mem_nil, h.submitting, h.acked⟩
  | applyNext =>
    obtain ⟨-, hbatch⟩ := henabled
    obtain ⟨cmd, rest, hcons⟩ := List.exists_cons_of_ne_nil hbatch
    rw [step_applyNext hcons]
    have hall := h.batch
    rw [hcons, List.forall_mem_cons] at hall
    refine ⟨fun c hc => ?_, hall.2, h.queue, h.submitting, h.acked⟩
    rcases mem_active_apply.mp hc with hc | hc
    · exact h.kills c hc
    · rw [hc]
      exact hall.1
  | crash =>
    have hnone : ∀ c ∈ ([] : List KillCommand), c ∈ p.persisted :=
      fun c hc => absurd hc List.not_mem_nil
    exact ⟨hnone, hnone, hnone, hnone, h.acked⟩
  | restart loaded =>
    obtain ⟨-, hloaded, -⟩ := henabled
    exact ⟨h.kills, hloaded, h.queue, h.submitting, h.acked⟩

/-- The active set never shrinks while the process is up. -/
theorem active_step {c : KillCommand} (hc : c ∈ p.kills.active) (hcrash : e ≠ .crash) :
    c ∈ (p.step authenticate e).kills.active := by
  cases e with
  | persist cmd authToken written =>
    rcases persist_cases authenticate p cmd authToken written with h | ⟨-, h⟩
    · rw [h]
      exact hc
    · rw [h]
      exact hc
  | applyNext =>
    cases hbatch : p.batch with
    | nil =>
      rw [step_applyNext_nil hbatch]
      exact hc
    | cons cmd rest =>
      rw [step_applyNext hbatch]
      exact mem_active_apply.mpr (.inl hc)
  | crash => exact absurd rfl hcrash
  | enqueue cmd => exact hc
  | drain => exact hc
  | restart loaded => exact hc

theorem taken_step {c : KillCommand} (h : p.Taken c) (henabled : p.Enabled e) :
    (p.step authenticate e).Taken c := by
  refine ⟨persisted_step p e c h.1, ?_⟩
  cases e with
  | persist cmd authToken written =>
    rcases persist_cases authenticate p cmd authToken written with hs | ⟨-, hs⟩
    · rw [hs]
      exact h.2
    · rw [hs]
      exact h.2
  | enqueue cmd => exact h.2
  | drain =>
    -- the batch is empty, so the command is active already
    obtain ⟨hup, hbatch⟩ := henabled
    intro _
    rcases h.2 hup with hc | hc
    · exact .inl hc
    · rw [hbatch] at hc
      exact absurd hc List.not_mem_nil
  | applyNext =>
    obtain ⟨hup, hbatch⟩ := henabled
    obtain ⟨cmd, rest, hcons⟩ := List.exists_cons_of_ne_nil hbatch
    rw [step_applyNext hcons]
    intro _
    rcases h.2 hup with hc | hc
    · exact .inl (mem_active_apply.mpr (.inl hc))
    · rw [hcons] at hc
      rcases List.mem_cons.mp hc with hc | hc
      · exact .inl (mem_active_apply.mpr (.inr hc))
      · exact .inr hc
  | crash => exact fun hup => absurd hup Bool.false_ne_true
  | restart loaded =>
    obtain ⟨-, -, hall⟩ := henabled
    exact fun _ => .inr (hall c h.1)

theorem accounted_step (hsound : p.Sound) (h : p.Accounted) (henabled : p.Enabled e) :
    (p.step authenticate e).Accounted := by
  cases e with
  | persist cmd authToken written =>
    rcases persist_cases authenticate p cmd authToken written with hs | ⟨-, hs⟩
    · rw [hs]
      exact h
    · rw [hs]
      exact h
  | enqueue cmd =>
    intro hup c hc
    rcases List.mem_append.mp hc with hc | hc
    · rcases h hup c hc with hin | hin | hin
      · exact .inl hin
      · exact .inr (.inl hin)
      · exact .inr (.inr (List.mem_append_left _ hin))
    · exact .inr (.inr (List.mem_append_right _ hc))
  | drain =>
    obtain ⟨hup, hbatch⟩ := henabled
    intro _ c hc
    rcases h hup c hc with hin | hin | hin
    · exact .inl hin
    · rw [hbatch] at hin
      exact absurd hin List.not_mem_nil
    · exact .inr (.inl hin)
  | applyNext =>
    obtain ⟨hup, hbatch⟩ := henabled
    obtain ⟨cmd, rest, hcons⟩ := List.exists_cons_of_ne_nil hbatch
    rw [step_applyNext hcons]
    intro _ c hc
    rcases h hup c hc with hin | hin | hin
    · exact .inl (mem_active_apply.mpr (.inl hin))
    · rw [hcons] at hin
      rcases List.mem_cons.mp hin with hin | hin
      · exact .inl (mem_active_apply.mpr (.inr hin))
      · exact .inr (.inl hin)
    · exact .inr (.inr hin)
  | crash => exact fun hup => absurd hup Bool.false_ne_true
  | restart loaded =>
    obtain ⟨-, -, hall⟩ := henabled
    exact fun _ c hc => .inr (.inl (hall c (hsound.acked c hc)))

/-- A drain and a replay take every acknowledged command up. -/
theorem taken_of_brings {c : KillCommand} (hsound : p.Sound) (haccounted : p.Accounted)
    (hc : c ∈ p.acked) (hbrings : e.brings = true) (henabled : p.Enabled e) :
    (p.step authenticate e).Taken c := by
  refine ⟨persisted_step p e c (hsound.acked c hc), fun _ => ?_⟩
  cases e with
  | drain =>
    obtain ⟨hup, hbatch⟩ := henabled
    rcases haccounted hup c hc with hin | hin | hin
    · exact .inl hin
    · rw [hbatch] at hin
      exact absurd hin List.not_mem_nil
    · exact .inr hin
  | restart loaded =>
    obtain ⟨-, -, hall⟩ := henabled
    exact .inr (hall c (hsound.acked c hc))
  | persist cmd authToken written => exact absurd hbrings Bool.false_ne_true
  | enqueue cmd => exact absurd hbrings Bool.false_ne_true
  | applyNext => exact absurd hbrings Bool.false_ne_true
  | crash => exact absurd hbrings Bool.false_ne_true

end

/-! ## Runs -/

/-- The events of a run that the plant allows. -/
def Plant.Legal (authenticate : Bytes → Bool) (events : List PlantEvent) : Prop :=
  Along (Plant.step authenticate) Plant.Enabled .initial events

abbrev Plant.after (authenticate : Bytes → Bool) (events : List PlantEvent) : Plant :=
  run (Plant.step authenticate) .initial events

section

variable {events : List PlantEvent}

theorem sound_run (h : Plant.Legal authenticate events) :
    (Plant.after authenticate events).Sound ∧ (Plant.after authenticate events).Accounted := by
  refine run_keeps (I := fun p => p.Sound ∧ p.Accounted) (fun p e hp henabled => ?_) ?_ h
  · exact ⟨sound_step hp.1 henabled, accounted_step hp.1 hp.2 henabled⟩
  · have hnone : ∀ c ∈ ([] : List KillCommand), c ∈ Plant.initial.persisted :=
      fun c hc => absurd hc List.not_mem_nil
    exact ⟨⟨hnone, hnone, hnone, hnone, hnone⟩, fun hup => absurd hup Bool.false_ne_true⟩

/-- **A persisted command was admitted**, at some submit of the run. -/
theorem admitted_of_persisted {c : KillCommand}
    (hc : c ∈ (Plant.after authenticate events).persisted) :
    ∃ front authToken written back, events = front ++ .persist c authToken written :: back
      ∧ c.validate = .ok () ∧ authenticate authToken = true ∧ written = .ok () := by
  induction events using List.reverseRecOn with
  | nil => exact absurd hc List.not_mem_nil
  | append_singleton events e ih =>
    have hextend : c ∈ (Plant.after authenticate events).persisted →
        ∃ front authToken written back,
          events ++ [e] = front ++ .persist c authToken written :: back
            ∧ c.validate = .ok () ∧ authenticate authToken = true ∧ written = .ok () := by
      intro hbefore
      obtain ⟨front, authToken, written, back, hsplit, hadmitted⟩ := ih hbefore
      exact ⟨front, authToken, written, back ++ [e], by rw [hsplit, List.append_assoc]; rfl,
        hadmitted⟩
    unfold Plant.after at hc
    rw [run_concat] at hc
    cases e with
    | persist cmd authToken written =>
      rcases persist_cases authenticate
        (run (Plant.step authenticate) .initial events) cmd authToken written with hs | ⟨hadmitted, hs⟩
      · rw [hs] at hc
        exact hextend hc
      · rw [hs] at hc
        rcases List.mem_append.mp hc with hc | hc
        · exact hextend hc
        · rw [List.mem_singleton.mp hc]
          exact ⟨events, authToken, written, [], rfl, admitted_ok_iff.mp hadmitted⟩
    | applyNext =>
      rw [applyNext_persisted] at hc
      exact hextend hc
    | enqueue cmd => exact hextend hc
    | drain => exact hextend hc
    | crash => exact hextend hc
    | restart loaded => exact hextend hc

theorem legal_append {front back : List PlantEvent}
    (h : Plant.Legal authenticate (front ++ back)) :
    Plant.Legal authenticate front
      ∧ Along (Plant.step authenticate) Plant.Enabled (Plant.after authenticate front) back :=
  along_append.mp h

/-- **Acknowledged, then drained or replayed.** -/
theorem active_of_acked {front back : List PlantEvent} {e : PlantEvent} {c : KillCommand}
    (h : Plant.Legal authenticate (front ++ e :: back))
    (hc : c ∈ (Plant.after authenticate front).acked) (hbrings : e.brings = true)
    (hup : (Plant.after authenticate (front ++ e :: back)).up = true)
    (hdone : (Plant.after authenticate (front ++ e :: back)).batch = []) :
    c ∈ (Plant.after authenticate (front ++ e :: back)).kills.active := by
  obtain ⟨hfront, hrest⟩ := legal_append h
  obtain ⟨hfirst, hback⟩ := along_cons.mp hrest
  obtain ⟨hsound, haccounted⟩ := sound_run hfront
  have htaken : (Plant.step authenticate (Plant.after authenticate front) e).Taken c :=
    taken_of_brings hsound haccounted hc hbrings hfirst
  have hend : (Plant.after authenticate (front ++ e :: back)).Taken c := by
    unfold Plant.after
    rw [run_append]
    exact run_keeps (I := Plant.Taken c) (fun p e hp henabled => taken_step hp henabled) htaken hback
  rcases hend.2 hup with hactive | hbatch
  · exact hactive
  · rw [hdone] at hbatch
    exact absurd hbatch List.not_mem_nil

/-- **Active until the process dies.** -/
theorem active_stays {p : Plant} {c : KillCommand} (hc : c ∈ p.kills.active)
    {back : List PlantEvent} (hcrash : PlantEvent.crash ∉ back) :
    c ∈ (run (Plant.step authenticate) p back).kills.active := by
  induction back generalizing p with
  | nil => exact hc
  | cons e back ih =>
    have hfirst : e ≠ .crash := fun h => hcrash (h ▸ List.mem_cons_self)
    exact ih (active_step hc hfirst) fun h => hcrash (List.mem_cons_of_mem e h)

end

end BrokerExec.Modes

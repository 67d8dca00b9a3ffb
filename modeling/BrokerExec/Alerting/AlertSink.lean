import BrokerExec.Domain.Redaction
import BrokerExec.Json.Nested
import BrokerExec.Lib.Run
import BrokerExec.Ports

/-!
# The alert sink (`alerting/multi_channel_alert_sink.cpp`, `alerting/heartbeat_monitor.hpp`)

An alert goes to every channel; it is delivered when one of them takes it. What is delivered is also
a sign of life, as every heartbeat is, and a watcher outside looks how old the last one is.

* **`posts_run`** — what is posted does not depend on what the channels answer.
* **`alive_run_iff`** — when the watcher is told that the process lives.
-/

namespace BrokerExec.Alerting

open BrokerExec.Domain (ProvenanceField renderProvenanceBlock scrub)
open BrokerExec.Errors (makeError)
open BrokerExec.Json (dumpValue)
open BrokerExec.Ports (AlertContext AlertLevel)

/-! ## Channels -/

inductive ChannelKind where
  | telegram
  | webhook
  deriving DecidableEq

structure AlertChannel where
  kind : ChannelKind
  url : Bytes
  chatId : Bytes

def levelName : AlertLevel → Bytes
  | .info => ascii "Info"
  | .warning => ascii "Warning"
  | .error => ascii "Error"
  | .critical => ascii "Critical"

def buildBody (channel : AlertChannel) (level : AlertLevel) (safe : Bytes) : Bytes :=
  match channel.kind with
  | .telegram =>
    dumpValue (.object [(ascii "chat_id", .string channel.chatId), (ascii "text", .string safe)])
  | .webhook =>
    dumpValue (.object [(ascii "level", .string (levelName level)), (ascii "message", .string safe)])

/-- What a call of the seam comes to. -/
inductive PostAnswer where
  | accepted
  | refused
  | threw
  deriving DecidableEq

/-- `post_ok` -/
def PostAnswer.ok : PostAnswer → Bool
  | .accepted => true
  | .refused | .threw => false

structure Post where
  url : Bytes
  body : Bytes
  deriving DecidableEq

/-- The loop over the channels: what is posted, and how many were accepted. The answers come one
for each channel. -/
def postEach (level : AlertLevel) (text : Bytes) :
    List AlertChannel → List PostAnswer → List Post × Nat
  | [], _ => ([], 0)
  | channel :: channels, answers =>
    let rest := postEach level text channels answers.tail
    -- an answer that never comes is a seam that threw
    let accepted := (answers.headD .threw).ok
    (⟨channel.url, buildBody channel level text⟩ :: rest.1,
      if accepted then rest.2 + 1 else rest.2)

/-! ## The sink -/

/-- The monitor, and all that left the process. -/
structure Sink where
  lastBeat : Option Int
  posts : List Post

def Sink.init : Sink := ⟨none, []⟩

def Sink.beat (sink : Sink) (now : Int) : Sink := { sink with lastBeat := some now }

/-- `is_alive`, of a gap in milliseconds on a clock of nanoseconds. -/
def Sink.isAlive (sink : Sink) (now maxGap : Int) : Bool :=
  match sink.lastBeat with
  | none => false
  | some beat => now - beat ≤ maxGap * 1000000

def noChannels : Errors.Error :=
  makeError .internal (ascii "alert sink has no channels configured")

/-- `deliver`; `now` is what the monitor reads behind the posts. -/
def Sink.deliver (channels : List AlertChannel) (level : AlertLevel) (text : Bytes)
    (answers : List PostAnswer) (now : Int) (sink : Sink) : Result Unit × Sink :=
  if channels = [] then (.error noChannels, sink)
  else
    let (posts, delivered) := postEach level text channels answers
    let sink := { sink with posts := sink.posts ++ posts }
    if 0 < delivered then (.ok (), sink.beat now)
    else (.error (makeError .network (ascii "alert delivery failed on all channels")), sink)

def provenanceFields (provenance : AlertContext) : List ProvenanceField :=
  [⟨ascii "client_ref", provenance.clientRef, .id⟩,
    ⟨ascii "broker_order_id", provenance.brokerOrderId, .id⟩,
    ⟨ascii "strategy", provenance.strategy, .id⟩, ⟨ascii "symbol", provenance.symbol, .symbol⟩]

inductive Call where
  | send (level : AlertLevel) (message : Bytes)
  | sendWithContext (level : AlertLevel) (message : Bytes) (provenance : AlertContext)
  | sendTestAlert
  | heartbeat
  deriving DecidableEq

/-- The level and the text of a call; only the typed columns stand outside of what is scrubbed. -/
def Call.text : Call → AlertLevel × Bytes
  | .send level message => (level, scrub message)
  | .sendWithContext level message provenance =>
    (level, scrub message ++ renderProvenanceBlock (provenanceFields provenance))
  | .sendTestAlert => (.info, scrub (ascii "broker-exec alert channel test"))
  | .heartbeat => (.info, scrub (ascii "heartbeat"))

def sendTestAlert (channels : List AlertChannel) (answers : List PostAnswer) (sink : Sink) :
    Result Unit × Sink :=
  if channels = [] then (.error noChannels, sink)
  else
    let (level, text) := Call.sendTestAlert.text
    let (posts, delivered) := postEach level text channels answers
    let failed := channels.length - delivered
    let sink := { sink with posts := sink.posts ++ posts }
    if failed = 0 then (.ok (), sink)
    else
      (.error (makeError .network (ascii "test alert failed on " ++ decimalNat failed ++ ascii " of "
        ++ decimalNat channels.length ++ ascii " channels")), sink)

/-- A call of the host with what its posts are answered; `started` and `ended` are what the clock
reads in front of them and behind. -/
structure Event where
  call : Call
  answers : List PostAnswer
  started : Int
  ended : Int

def Sink.perform (channels : List AlertChannel) (sink : Sink) (e : Event) : Result Unit × Sink :=
  let (level, text) := e.call.text
  match e.call with
  | .send .. | .sendWithContext .. => sink.deliver channels level text e.answers e.ended
  | .sendTestAlert => sendTestAlert channels e.answers sink
  -- the beat comes first, and nobody looks at what the alert comes to
  | .heartbeat =>
    (.ok (), ((sink.beat e.started).deliver channels level text e.answers e.ended).2)

def Sink.step (channels : List AlertChannel) (sink : Sink) (e : Event) : Sink :=
  (sink.perform channels e).2

/-! ## What is posted -/

variable {channels : List AlertChannel}

theorem postEach_posts (level : AlertLevel) (text : Bytes) (channels : List AlertChannel)
    (answers : List PostAnswer) :
    (postEach level text channels answers).1
      = channels.map fun channel => ⟨channel.url, buildBody channel level text⟩ := by
  induction channels generalizing answers with
  | nil => rfl
  | cons channel channels ih =>
    show _ :: (postEach level text channels answers.tail).1 = _
    rw [ih, List.map_cons]

/-- One post for each channel. -/
def postsOf (channels : List AlertChannel) (call : Call) : List Post :=
  channels.map fun channel => ⟨channel.url, buildBody channel call.text.1 call.text.2⟩

theorem posts_deliver (level : AlertLevel) (text : Bytes) (answers : List PostAnswer) (now : Int)
    (sink : Sink) :
    (sink.deliver channels level text answers now).2.posts
      = sink.posts ++ channels.map fun channel => ⟨channel.url, buildBody channel level text⟩ := by
  unfold Sink.deliver
  by_cases hnone : channels = []
  · rw [if_pos hnone, hnone]
    simp
  · rw [if_neg hnone, ← postEach_posts level text channels answers]
    dsimp only
    split_ifs <;> rfl

theorem posts_step (sink : Sink) (e : Event) :
    (sink.step channels e).posts = sink.posts ++ postsOf channels e.call := by
  unfold Sink.step Sink.perform
  cases e.call with
  | send level message => exact posts_deliver _ _ _ _ _
  | sendWithContext level message provenance => exact posts_deliver _ _ _ _ _
  | heartbeat => exact posts_deliver _ _ _ _ _
  | sendTestAlert =>
    show (sendTestAlert channels e.answers sink).2.posts = _
    unfold sendTestAlert
    by_cases hnone : channels = []
    · rw [if_pos hnone, hnone]
      simp [postsOf]
    · rw [if_neg hnone]
      unfold postsOf
      rw [← postEach_posts _ _ _ e.answers]
      dsimp only
      split_ifs <;> rfl

/-- **Every call posts to every channel**, each its own body with the scrubbed text, whatever the
channels answered to this call or to any before. -/
theorem posts_run (channels : List AlertChannel) (events : List Event) :
    (run (Sink.step channels) .init events).posts
      = events.flatMap fun e => postsOf channels e.call := by
  induction events using List.reverseRecOn with
  | nil => rfl
  | append_singleton events e ih =>
    rw [run_concat, posts_step, ih, List.flatMap_append]
    simp

/-! ## Signs of life -/

theorem delivered_pos_iff (level : AlertLevel) (text : Bytes) (channels : List AlertChannel)
    (answers : List PostAnswer) :
    0 < (postEach level text channels answers).2
      ↔ .accepted ∈ answers.take channels.length := by
  induction channels generalizing answers with
  | nil => simp [postEach]
  | cons channel channels ih =>
    show 0 < (if (answers.headD .threw).ok then (postEach level text channels answers.tail).2 + 1
      else (postEach level text channels answers.tail).2) ↔ _
    cases answers with
    | nil =>
      have hrest := ih []
      simp only [List.take_nil, List.not_mem_nil, iff_false] at hrest ⊢
      exact hrest
    | cons answer answers =>
      rw [List.length_cons, List.take_succ_cons, List.mem_cons, ← ih answers]
      cases answer <;> simp [PostAnswer.ok]

/-- When the monitor is beaten in a call. A test alert is no sign of life, though it may arrive. -/
def beatsOf (channels : List AlertChannel) (e : Event) : List Int :=
  let delivered := if .accepted ∈ e.answers.take channels.length then [e.ended] else []
  match e.call with
  | .send .. | .sendWithContext .. => delivered
  | .sendTestAlert => []
  | .heartbeat => e.started :: delivered

theorem lastBeat_deliver (level : AlertLevel) (text : Bytes) (answers : List PostAnswer) (now : Int)
    (sink : Sink) :
    (sink.deliver channels level text answers now).2.lastBeat
      = if .accepted ∈ answers.take channels.length then some now else sink.lastBeat := by
  unfold Sink.deliver
  by_cases hnone : channels = []
  · rw [if_pos hnone, hnone]
    simp
  · rw [if_neg hnone]
    dsimp only
    by_cases hdelivered : .accepted ∈ answers.take channels.length
    · rw [if_pos ((delivered_pos_iff level text channels answers).mpr hdelivered),
        if_pos hdelivered]
      rfl
    · rw [if_neg (mt (delivered_pos_iff level text channels answers).mp hdelivered),
        if_neg hdelivered]

theorem lastBeat_step (sink : Sink) (e : Event) :
    (sink.step channels e).lastBeat = (beatsOf channels e).getLast?.or sink.lastBeat := by
  unfold Sink.step Sink.perform beatsOf
  cases e.call with
  | send level message =>
    refine (lastBeat_deliver _ _ _ _ _).trans ?_
    split_ifs <;> rfl
  | sendWithContext level message provenance =>
    refine (lastBeat_deliver _ _ _ _ _).trans ?_
    split_ifs <;> rfl
  | heartbeat =>
    refine (lastBeat_deliver _ _ _ _ _).trans ?_
    split_ifs <;> rfl
  | sendTestAlert =>
    show (sendTestAlert channels e.answers sink).2.lastBeat = sink.lastBeat
    unfold sendTestAlert
    dsimp only
    split_ifs <;> rfl

theorem lastBeat_run (channels : List AlertChannel) (events : List Event) :
    (run (Sink.step channels) .init events).lastBeat
      = (events.flatMap (beatsOf channels)).getLast? := by
  induction events using List.reverseRecOn with
  | nil => rfl
  | append_singleton events e ih =>
    rw [run_concat, lastBeat_step, ih, List.flatMap_append, List.getLast?_append]
    simp

/-- The clock never goes back, up to `now`. -/
def Steady (events : List Event) (now : Int) : Prop :=
  (events.flatMap (fun e => [e.started, e.ended]) ++ [now]).Pairwise (· ≤ ·)

instance (events : List Event) (now : Int) : Decidable (Steady events now) :=
  inferInstanceAs (Decidable (List.Pairwise _ _))

theorem beatsOf_sublist (e : Event) : (beatsOf channels e).Sublist [e.started, e.ended] := by
  unfold beatsOf
  dsimp only
  cases e.call <;> split_ifs <;> simp

/-- On a clock that never goes back the beats are in their order. -/
theorem beats_ordered {events : List Event} {now : Int} (hclock : Steady events now) :
    (events.flatMap (beatsOf channels)).Pairwise (· ≤ ·) := by
  have htimes := (List.pairwise_append.mp hclock).1
  refine htimes.sublist ?_
  clear hclock htimes
  induction events with
  | nil => exact List.Sublist.refl _
  | cons e events ih =>
    rw [List.flatMap_cons, List.flatMap_cons]
    exact (beatsOf_sublist e).append ih

/-- **The watcher is told that the process lives exactly as long as a heartbeat, or an alert that
some channel took, is no older than the gap.** -/
theorem alive_run_iff {events : List Event} {now : Int} (hclock : Steady events now)
    (maxGap : Int) :
    (run (Sink.step channels) .init events).isAlive now maxGap = true
      ↔ ∃ beat ∈ events.flatMap (beatsOf channels), now - beat ≤ maxGap * 1000000 := by
  have hbeats : (events.flatMap (beatsOf channels)).Pairwise (· ≤ ·) := beats_ordered hclock
  unfold Sink.isAlive
  rw [lastBeat_run]
  rcases List.eq_nil_or_concat' (events.flatMap (beatsOf channels)) with hnone | ⟨front, last, heq⟩
  · rw [hnone]
    simp
  · rw [heq, List.getLast?_concat]
    rw [heq] at hbeats
    -- the monitor keeps the last beat only, and no other is newer
    have hlast : ∀ beat ∈ front, beat ≤ last := fun beat hbeat =>
      (List.pairwise_append.mp hbeats).2.2 beat hbeat last (by simp)
    show decide (now - last ≤ _) = true ↔ _
    rw [decide_eq_true_iff]
    constructor
    · intro hage
      exact ⟨last, by simp, hage⟩
    · rintro ⟨beat, hmem, hage⟩
      rcases List.mem_append.mp hmem with hfront | hsame
      · have := hlast beat hfront
        omega
      · rw [← List.mem_singleton.mp hsame]
        exact hage

/-- One channel takes the alert, the other one throws; then only tests arrive. -/
theorem alive_run_iff_tested :
    let channels : List AlertChannel := [⟨.webhook, ascii "u", []⟩, ⟨.telegram, ascii "v", ascii "c"⟩]
    let events : List Event :=
      [⟨.send .error (ascii "m"), [.threw, .accepted], 0, 1000000⟩,
        ⟨.sendTestAlert, [.accepted, .accepted], 5000000, 6000000⟩]
    (run (Sink.step channels) .init events).isAlive 6000000 5 = true
      ∧ ¬ (run (Sink.step channels) .init events).isAlive 7000000 5 = true := by
  intro channels events
  have hbeats : events.flatMap (beatsOf channels) = [1000000] := rfl
  constructor
  · rw [alive_run_iff (by decide), hbeats]
    exact ⟨1000000, by simp, by decide⟩
  · rw [alive_run_iff (by decide), hbeats]
    simp

end BrokerExec.Alerting

import BrokerExec.Json.Reader
import BrokerExec.IntentLog.Recovery
import BrokerExec.Runtime.Dispatcher

/-!
# At most one `place` per signal

`Running` is the invariant of a process between two effects, `Stopped` the part of it that
survives a stop. Both speak about what a signal's signature is bound to:

* every client ref in the index and in the log carries an identifier drawn before, so the
  ref of a new reservation is bound to nothing yet;
* a signature that was sent, or that was in the log at boot, is bound to a ref that is not
  waiting in `unsentRefs`; only waiting and fresh refs are ever sent.

**`place_at_most_once`** — a process sends no signature twice and none that the log held at
its boot.
-/

namespace BrokerExec.Runtime

open BrokerExec.Domain (Order OrderIntent OrderState canonicalText canonicalText_append_ascii)
open BrokerExec.IntentLog (IntentOp IntentRecord toJsonLine)
open BrokerExec.Idempotency

/-- The log has a `PlaceOrder` record of a signal with this signature. -/
def Recorded (records : List IntentRecord) (signature : Bytes) : Prop :=
  ∃ record ∈ records, record.op = .placeOrder
    ∧ ∃ intent, record.payloadJson = canonicalText (intentPayloadJson intent)
      ∧ signalSignature intent = signature

def signatures (w : World) : List Bytes := w.placed.map signalSignature

section Invariant

variable (uuids : UuidGenerator) (atBoot : List IntentRecord)

/-- A ref that ends in an identifier already drawn. -/
def Minted (calls : Nat) (ref : Bytes) : Prop := ∃ n < calls, uuids.next n <:+ ref

/-- What holds of a process that began with the records `atBoot`, wherever it stops. -/
structure Stopped (w : World) : Prop where
  place_records : ∀ record ∈ w.recorded, record.op = .placeOrder →
    Minted uuids w.uuidCalls record.clientRef
      ∧ ∃ intent, record.payloadJson = canonicalText (intentPayloadJson intent)
  sent_recorded : ∀ signature ∈ signatures w, Recorded w.recorded signature
  once : (signatures w).Nodup
  fresh : ∀ signature ∈ signatures w, ¬ Recorded atBoot signature

/-- The signature was sent in this process or recorded before it. -/
def Taken (w : World) (signature : Bytes) : Prop :=
  signature ∈ signatures w ∨ Recorded atBoot signature

/-- What holds between two effects of a process that has not stopped. -/
structure Running (w : World) : Prop extends Stopped uuids atBoot w where
  index_minted : ∀ signature ref, w.index signature = some ref → Minted uuids w.uuidCalls ref
  taken : ∀ signature, Taken atBoot w signature →
    ∃ ref, w.index signature = some ref ∧ ref ∉ w.unsentRefs

end Invariant

/-! ## Refs and identifiers -/

section Refs

variable {uuids : UuidGenerator}

theorem suffix_makeClientRef (strategy signature uuid : Bytes) :
    uuid <:+ makeClientRef strategy signature uuid :=
  List.suffix_append _ _

/-- Identifiers have one length, so a ref ends in only one of them. -/
theorem next_eq_of_suffix {m n : Nat} {ref : Bytes} (hm : uuids.next m <:+ ref)
    (hn : uuids.next n <:+ ref) : uuids.next m = uuids.next n := by
  have hlen : (uuids.next m).length = (uuids.next n).length := by
    rw [uuids.length_next, uuids.length_next]
  have h := List.suffix_of_suffix_length_le hm hn (Nat.le_of_eq hlen)
  exact h.eq_of_length hlen

/-- A ref with the next identifier was not minted before. -/
theorem not_minted_makeClientRef {calls bound : Nat} (hdistinct : uuids.Distinct bound)
    (hcalls : calls < bound) (strategy signature : Bytes) :
    ¬ Minted uuids calls (makeClientRef strategy signature (uuids.next calls)) := by
  rintro ⟨n, hn, hsuffix⟩
  have hnext := next_eq_of_suffix hsuffix (suffix_makeClientRef strategy signature _)
  have := hdistinct n (hn.trans hcalls) calls hcalls hnext
  omega

theorem Minted.mono {m n : Nat} (h : m ≤ n) {ref : Bytes} (hm : Minted uuids m ref) :
    Minted uuids n ref := by
  obtain ⟨k, hk, hsuffix⟩ := hm
  exact ⟨k, Nat.lt_of_lt_of_le hk h, hsuffix⟩

theorem Minted.ne_nil {calls : Nat} {ref : Bytes} (h : Minted uuids calls ref) : ref ≠ [] := by
  rintro rfl
  obtain ⟨n, -, hsuffix⟩ := h
  have := uuids.length_next n
  rw [List.suffix_nil.mp hsuffix] at this
  simp at this

/-- Normalising a ref keeps the identifier it ends in. -/
theorem Minted.canonicalText {calls : Nat} {ref : Bytes} (h : Minted uuids calls ref) :
    Minted uuids calls (canonicalText ref) := by
  obtain ⟨n, hn, front, rfl⟩ := h
  rw [canonicalText_append_ascii front (uuids.ascii_next n)]
  exact ⟨n, hn, List.suffix_append _ _⟩

end Refs

/-! ## What the effects leave alone -/

section Frame

variable {uuids : UuidGenerator} {atBoot : List IntentRecord} {bound : Nat}

/-- What an append does to the records. -/
theorem World.append_recorded (w : World) (t : Tick) (op : IntentOp)
    (clientRef payloadJson : Bytes) :
    ∃ record, record.op = op ∧ record.clientRef = canonicalText clientRef
      ∧ record.payloadJson = canonicalText payloadJson
      ∧ ((w.append t op clientRef payloadJson).2.recorded = w.recorded ++ [record]
        ∨ (w.append t op clientRef payloadJson).2.recorded = w.recorded
          ∧ ∀ r, (w.append t op clientRef payloadJson).1 ≠ .ok r) := by
  refine ⟨w.log.nextRecord t.wallTsNs op clientRef payloadJson, rfl, rfl, rfl, ?_⟩
  simp only [World.append]
  split_ifs with hwhole
  · exact .inl rfl
  · refine .inr ⟨rfl, ?_⟩
    intro r hok
    -- a successful append has written its whole line
    unfold IntentLog.append at hok
    split_ifs at hok with hattached
    cases hio : t.write with
    | shortWrite n => rw [hio] at hok; cases hok
    | syncFailed n => rw [hio] at hok; cases hok
    | done =>
      apply hwhole
      rw [hio, Bool.and_eq_true, List.isPrefixOf_iff_prefix]
      exact ⟨by simpa using hattached, List.prefix_append _ _⟩

theorem World.append_frame (w : World) (t : Tick) (op : IntentOp) (clientRef payloadJson : Bytes) :
    (w.append t op clientRef payloadJson).2.index = w.index
      ∧ (w.append t op clientRef payloadJson).2.uuidCalls = w.uuidCalls
      ∧ (w.append t op clientRef payloadJson).2.unsentRefs = w.unsentRefs
      ∧ (w.append t op clientRef payloadJson).2.placed = w.placed :=
  ⟨rfl, rfl, rfl, rfl⟩

theorem Recorded.mono {a b : List IntentRecord} (h : a ⊆ b) {signature : Bytes}
    (hrec : Recorded a signature) : Recorded b signature := by
  obtain ⟨record, hmem, hop, hintent⟩ := hrec
  exact ⟨record, h hmem, hop, hintent⟩

/-- The invariant under new records: those of `PlaceOrder` intents must be well made. -/
theorem Running.append_records {w w' : World} (h : Running uuids atBoot w)
    (more : List IntentRecord) (hmore : ∀ record ∈ more, record.op = .placeOrder →
      Minted uuids w.uuidCalls record.clientRef
        ∧ ∃ intent, record.payloadJson = canonicalText (intentPayloadJson intent))
    (hrecorded : w'.recorded = w.recorded ++ more) (hindex : w'.index = w.index)
    (hcalls : w'.uuidCalls = w.uuidCalls) (hunsent : w'.unsentRefs = w.unsentRefs)
    (hplaced : w'.placed = w.placed) : Running uuids atBoot w' where
  place_records := by
    intro record hmem
    rw [hcalls]
    rw [hrecorded] at hmem
    rcases List.mem_append.mp hmem with hmem | hmem
    · exact h.place_records record hmem
    · exact hmore record hmem
  sent_recorded := by
    intro signature hsig
    rw [signatures, hplaced] at hsig
    rw [hrecorded]
    exact (h.sent_recorded signature hsig).mono (List.subset_append_left _ _)
  once := by rw [signatures, hplaced]; exact h.once
  fresh := by rw [signatures, hplaced]; exact h.fresh
  index_minted := by rw [hindex, hcalls]; exact h.index_minted
  taken := by
    simp only [Taken, signatures, hplaced, hindex, hunsent]
    exact h.taken

/-- The invariant reads five fields. -/
theorem Running.congr {w w' : World} (h : Running uuids atBoot w)
    (hrecorded : w'.recorded = w.recorded) (hindex : w'.index = w.index)
    (hcalls : w'.uuidCalls = w.uuidCalls) (hunsent : w'.unsentRefs = w.unsentRefs)
    (hplaced : w'.placed = w.placed) : Running uuids atBoot w' :=
  h.append_records [] (by simp) (by simp [hrecorded]) hindex hcalls hunsent hplaced

/-- `P` as long as no more than `bound` identifiers were drawn. -/
def Within (bound : Nat) (P : World → Prop) (w : World) : Prop := w.uuidCalls ≤ bound → P w

/-- `m` keeps the invariant and stops only where its lasting part holds. -/
def Keeps {α : Type} (uuids : UuidGenerator) (atBoot : List IntentRecord) (bound : Nat)
    (m : Act α) : Prop :=
  Process.Spec (Within bound (Running uuids atBoot)) m
    (fun _ => Within bound (Running uuids atBoot)) (Within bound (Stopped uuids atBoot))

theorem Within.stopped {w : World} (h : Within bound (Running uuids atBoot) w) :
    Within bound (Stopped uuids atBoot) w := fun hle => (h hle).toStopped

theorem Keeps.bind {α β : Type} {m : Act α} {f : α → Act β} (hm : Keeps uuids atBoot bound m)
    (hf : ∀ a, Keeps uuids atBoot bound (f a)) : Keeps uuids atBoot bound (m >>= f) :=
  Process.Spec.bind hm hf

/-- What follows a result, by its two outcomes. -/
theorem Keeps.result {α β : Type} {f : Result α → Act β}
    (herror : ∀ error, Keeps uuids atBoot bound (f (.error error)))
    (hok : ∀ a, Keeps uuids atBoot bound (f (.ok a))) (result : Result α) :
    Keeps uuids atBoot bound (f result) := by
  cases result with
  | error error => exact herror error
  | ok a => exact hok a

theorem Keeps.pure {α : Type} (a : α) : Keeps uuids atBoot bound (Pure.pure a : Act α) :=
  Process.Spec.pure fun _ h => h

/-- An effect that touches none of the five fields keeps the invariant. -/
theorem Keeps.ask {α : Type} {effect : Tick → World → α × World}
    (h : ∀ t w, (effect t w).2.recorded = w.recorded ∧ (effect t w).2.index = w.index
      ∧ (effect t w).2.uuidCalls = w.uuidCalls ∧ (effect t w).2.unsentRefs = w.unsentRefs
      ∧ (effect t w).2.placed = w.placed) :
    Keeps uuids atBoot bound (Process.ask effect) :=
  Process.Spec.ask (fun _ hw => hw.stopped) fun t w hw hle =>
    (hw ((h t w).2.2.1 ▸ hle)).congr (h t w).1 (h t w).2.1 (h t w).2.2.1 (h t w).2.2.2.1
      (h t w).2.2.2.2

theorem keeps_findOrder (clientRef : Bytes) : Keeps uuids atBoot bound (findOrder clientRef) :=
  .ask fun _ _ => ⟨rfl, rfl, rfl, rfl, rfl⟩

theorem keeps_insertOrder (order : Order) : Keeps uuids atBoot bound (insertOrder order) :=
  .ask fun _ _ => ⟨rfl, rfl, rfl, rfl, rfl⟩

theorem keeps_upsertOrder (order : Order) : Keeps uuids atBoot bound (upsertOrder order) :=
  .ask fun _ _ => ⟨rfl, rfl, rfl, rfl, rfl⟩

theorem keeps_runPreSendBarrier : Keeps uuids atBoot bound runPreSendBarrier :=
  .ask fun _ _ => ⟨rfl, rfl, rfl, rfl, rfl⟩

/-- A broker call other than `place` leaves the placed intents alone. -/
theorem keeps_send {call : BrokerCall} (hcall : ∀ intent, call ≠ .place intent) :
    Keeps uuids atBoot bound (send call) := by
  refine .ask fun t w => ⟨rfl, rfl, rfl, rfl, ?_⟩
  show (w.sent ++ [call]).filterMap _ = _
  cases call with
  | place intent => exact absurd rfl (hcall intent)
  | modify brokerOrderId intent => simp [World.placed]
  | cancel brokerOrderId => simp [World.placed]
  | squareOff brokerOrderId => simp [World.placed]

theorem keeps_append {op : IntentOp} (hop : op ≠ .placeOrder) (clientRef payloadJson : Bytes) :
    Keeps uuids atBoot bound (append op clientRef payloadJson) := by
  refine Process.Spec.ask (fun _ hw => hw.stopped) fun t w hw hle => ?_
  obtain ⟨hindex, hcalls, hunsent, hplaced⟩ := w.append_frame t op clientRef payloadJson
  obtain ⟨record, hrecop, -, -, hrecorded | ⟨hrecorded, -⟩⟩ :=
    w.append_recorded t op clientRef payloadJson
  · refine (hw hle).append_records [record] ?_ hrecorded hindex hcalls hunsent hplaced
    intro r hr hplace
    rw [List.mem_singleton.mp hr, hrecop] at hplace
    exact absurd hplace hop
  · exact (hw hle).congr hrecorded hindex hcalls hunsent hplaced

theorem keeps_appendResult (clientRef : Bytes) (payload : Int64 → Bytes) :
    Keeps uuids atBoot bound (appendResult clientRef payload) := by
  have hclock : Keeps uuids atBoot bound wallNs := .ask fun _ _ => ⟨rfl, rfl, rfl, rfl, rfl⟩
  exact hclock.bind fun stamp => keeps_append (by decide) clientRef (payload stamp)

theorem keeps_settle (order : Order) : Keeps uuids atBoot bound (settle order) := by
  refine (keeps_insertOrder order).bind fun inserted => ?_
  cases inserted with
  | error error => exact .pure _
  | ok _ =>
    refine (keeps_appendResult _ _).bind fun appended => ?_
    cases appended with
    | error error => exact .pure _
    | ok _ => exact .pure _

theorem keeps_project (order : Order) : Keeps uuids atBoot bound (project order) := by
  refine (keeps_upsertOrder order).bind fun upserted => ?_
  cases upserted with
  | error error => exact .pure _
  | ok _ =>
    refine (keeps_appendResult _ _).bind fun appended => ?_
    cases appended with
    | error error => exact .pure _
    | ok _ => exact .pure _

theorem keeps_concludeModify (brokerOrderId : Bytes) (intent : OrderIntent) (ack : Result Bytes) :
    Keeps uuids atBoot bound (concludeModify brokerOrderId intent ack) := by
  refine (keeps_findOrder _).bind fun found => ?_
  cases found with
  | error error => exact .pure _
  | ok found =>
    cases ack with
    | ok ackedId => exact keeps_project _
    | error error =>
      dsimp only
      split_ifs
      · exact keeps_project _
      · refine (keeps_appendResult _ _).bind fun appended => ?_
        cases appended with
        | error failure => exact .pure _
        | ok _ => exact .pure _

theorem keeps_modify (brokerOrderId : Bytes) (intent : OrderIntent) :
    Keeps uuids atBoot bound (modify brokerOrderId intent) := by
  refine (keeps_append (by decide) _ _).bind fun appended => ?_
  cases appended with
  | error error => exact .pure _
  | ok _ =>
    exact keeps_runPreSendBarrier.bind fun _ => (keeps_send (by simp)).bind fun ack =>
      keeps_concludeModify _ _ ack

theorem keeps_markUnknown (clientRef : Bytes) : Keeps uuids atBoot bound (markUnknown clientRef) := by
  refine (keeps_findOrder _).bind fun found => ?_
  split
  · split_ifs
    · exact .pure _
    · exact keeps_upsertOrder _
  · exact .pure _

theorem keeps_close {op : IntentOp} (hop : op ≠ .placeOrder) (name : Bytes) {call : BrokerCall}
    (hcall : ∀ intent, call ≠ .place intent) (brokerOrderId clientRef : Bytes) :
    Keeps uuids atBoot bound (close op name call brokerOrderId clientRef) := by
  have hclock : Keeps uuids atBoot bound wallNs := .ask fun _ _ => ⟨rfl, rfl, rfl, rfl, rfl⟩
  refine hclock.bind fun stamp => (keeps_append hop _ _).bind ?_
  refine .result (fun _ => .pure _) fun _ => ?_
  refine keeps_runPreSendBarrier.bind fun _ => (keeps_send hcall).bind (.result ?_ ?_)
  · intro error
    dsimp only
    split_ifs
    · refine (keeps_markUnknown _).bind (.result (fun _ => .pure _) fun _ => ?_)
      exact (keeps_appendResult _ _).bind (.result (fun _ => .pure _) fun _ => .pure _)
    · exact (keeps_appendResult _ _).bind (.result (fun _ => .pure _) fun _ => .pure _)
  · intro _
    exact (keeps_appendResult _ _).bind (.result (fun _ => .pure _) fun _ => .pure _)

end Frame

/-! ## `place` -/

section Place

variable {uuids : UuidGenerator} {atBoot : List IntentRecord} {bound : Nat}

/-- The signature is bound to the ref, and nothing sent or recorded before is. -/
def Reserved (atBoot : List IntentRecord) (w : World) (signature ref : Bytes) : Prop :=
  w.index signature = some ref ∧ ∀ s, Taken atBoot w s → w.index s ≠ some ref

theorem Reserved.not_taken {w : World} {signature ref : Bytes}
    (h : Reserved atBoot w signature ref) : ¬ Taken atBoot w signature :=
  fun htaken => h.2 signature htaken h.1

/-- A ref waiting in `unsentRefs` belongs to no signature that was sent or recorded. -/
theorem Running.reserved_of_unsent {w : World} (h : Running uuids atBoot w)
    {signature ref : Bytes} (hindex : w.index signature = some ref) (hunsent : ref ∈ w.unsentRefs) :
    Reserved atBoot w signature ref := by
  refine ⟨hindex, ?_⟩
  intro s hs heq
  obtain ⟨ref', hindex', hnot⟩ := h.taken s hs
  rw [heq] at hindex'
  exact hnot (Option.some.inj hindex' ▸ hunsent)

/-- An unbound signature and a minted ref that nothing is bound to. -/
def Unbound (uuids : UuidGenerator) (w : World) (signature ref : Bytes) : Prop :=
  w.index signature = none ∧ Minted uuids w.uuidCalls ref ∧ ∀ s, w.index s ≠ some ref

/-- Drawing an identifier makes a ref that nothing is bound to. -/
theorem Running.draw {w : World} (h : Running uuids atBoot w) (hdistinct : uuids.Distinct bound)
    (hcalls : w.uuidCalls < bound) {signature : Bytes} (hnone : w.index signature = none)
    (strategy : Bytes) :
    let w' := { w with uuidCalls := w.uuidCalls + 1 }
    Running uuids atBoot w'
      ∧ Unbound uuids w' signature (makeClientRef strategy signature (uuids.next w.uuidCalls)) := by
  refine ⟨{ h with place_records := ?_, index_minted := ?_ }, hnone, ?_, ?_⟩
  · intro record hmem hop
    obtain ⟨hminted, hpayload⟩ := h.place_records record hmem hop
    exact ⟨hminted.mono (Nat.le_succ _), hpayload⟩
  · intro s ref hbound
    exact (h.index_minted s ref hbound).mono (Nat.le_succ _)
  · exact ⟨w.uuidCalls, Nat.lt_succ_self _, suffix_makeClientRef _ _ _⟩
  · intro s heq
    exact not_minted_makeClientRef hdistinct hcalls strategy signature (h.index_minted s _ heq)

/-- Binding the signature reserves the ref for it. -/
theorem Running.register {w : World} (h : Running uuids atBoot w) {signature ref : Bytes}
    (hunbound : Unbound uuids w signature ref) :
    let w' := { w with index := w.index.registerSignature signature ref }
    Running uuids atBoot w' ∧ Reserved atBoot w' signature ref := by
  intro w'
  obtain ⟨hnone, hminted, hfree⟩ := hunbound
  have hindex : w'.index = Function.update w.index signature (some ref) :=
    registerSignature_of_none hnone ref
  -- what was taken before was bound, so it is not this signature
  have hne : ∀ s, Taken atBoot w s → s ≠ signature := by
    rintro s hs rfl
    obtain ⟨ref', hbound, -⟩ := h.taken s hs
    rw [hnone] at hbound
    cases hbound
  refine ⟨{ h with index_minted := ?_, taken := ?_ }, ?_, ?_⟩
  · intro s ref' hbound
    rw [hindex] at hbound
    by_cases hs : s = signature
    · rw [hs, Function.update_self] at hbound
      exact Option.some.inj hbound ▸ hminted
    · rw [Function.update_of_ne hs] at hbound
      exact h.index_minted s ref' hbound
  · intro s hs
    rw [hindex, Function.update_of_ne (hne s hs)]
    exact h.taken s hs
  · rw [hindex, Function.update_self]
  · intro s hs heq
    rw [hindex, Function.update_of_ne (hne s hs)] at heq
    exact hfree s heq

/-- What `recordAndSend` starts from. -/
def Ready (uuids : UuidGenerator) (atBoot : List IntentRecord) (placed : OrderIntent)
    (w : World) : Prop :=
  Running uuids atBoot w ∧ Reserved atBoot w (signalSignature placed) placed.clientRef

/-- What the send starts from: the signal is recorded and its ref does not wait. -/
def Armed (uuids : UuidGenerator) (atBoot : List IntentRecord) (placed : OrderIntent)
    (w : World) : Prop :=
  Ready uuids atBoot placed w ∧ Recorded w.recorded (signalSignature placed)
    ∧ placed.clientRef ∉ w.unsentRefs

/-- The write-ahead append: a success means the signal is recorded. -/
theorem spec_append_place (placed : OrderIntent) :
    Process.Spec (Within bound (Ready uuids atBoot placed))
      (append .placeOrder placed.clientRef (intentPayloadJson placed))
      (fun result => Within bound fun w => Ready uuids atBoot placed w
        ∧ ∀ r, result = .ok r → Recorded w.recorded (signalSignature placed))
      (Within bound (Stopped uuids atBoot)) := by
  refine Process.Spec.ask (fun _ hw hle => (hw hle).1.toStopped) fun t w hw hle => ?_
  obtain ⟨hrunning, hreserved⟩ := hw hle
  obtain ⟨hindex, hcalls, hunsent, hplaced⟩ :=
    w.append_frame t .placeOrder placed.clientRef (intentPayloadJson placed)
  obtain ⟨record, hop, href, hpayload, hrecorded | ⟨hrecorded, hfailed⟩⟩ :=
    w.append_recorded t .placeOrder placed.clientRef (intentPayloadJson placed)
  · refine ⟨⟨hrunning.append_records [record] ?_ hrecorded hindex hcalls hunsent hplaced,
      hreserved⟩, ?_⟩
    · intro r hr _
      rw [List.mem_singleton.mp hr, href]
      exact ⟨(hrunning.index_minted _ _ hreserved.1).canonicalText, placed, hpayload⟩
    · intro r _
      rw [hrecorded]
      exact ⟨record, by simp, hop, placed, hpayload, rfl⟩
  · exact ⟨⟨hrunning.congr hrecorded hindex hcalls hunsent hplaced, hreserved⟩,
      fun r hok => absurd hok (hfailed r)⟩

/-- A failed append leaves the reserved ref waiting. -/
theorem Ready.insertUnsent {placed : OrderIntent} {w : World} (h : Ready uuids atBoot placed w) :
    Running uuids atBoot { w with unsentRefs := placed.clientRef :: w.unsentRefs } := by
  obtain ⟨hrunning, hreserved⟩ := h
  refine { hrunning with taken := ?_ }
  intro s hs
  obtain ⟨ref, hindex, hnot⟩ := hrunning.taken s hs
  refine ⟨ref, hindex, ?_⟩
  simp only [List.mem_cons, not_or]
  exact ⟨fun h => hreserved.2 s hs (h ▸ hindex), hnot⟩

/-- A recorded signal is taken off the waiting set before anything is sent. -/
theorem Ready.eraseUnsent {placed : OrderIntent} {w : World} (h : Ready uuids atBoot placed w)
    (hrecorded : Recorded w.recorded (signalSignature placed)) :
    Armed uuids atBoot placed
      { w with unsentRefs := w.unsentRefs.filter (· ≠ placed.clientRef) } := by
  obtain ⟨hrunning, hreserved⟩ := h
  refine ⟨⟨{ hrunning with taken := ?_ }, hreserved⟩, hrecorded, by simp⟩
  intro s hs
  obtain ⟨ref, hindex, hnot⟩ := hrunning.taken s hs
  exact ⟨ref, hindex, fun h => hnot (List.mem_filter.mp h).1⟩

/-- The broker gets the order: its signature is new, and from now on taken. -/
theorem Armed.send {placed : OrderIntent} {w : World} (h : Armed uuids atBoot placed w) :
    Running uuids atBoot { w with sent := w.sent ++ [.place placed] } := by
  obtain ⟨⟨hrunning, hreserved⟩, hrecorded, hunsent⟩ := h
  have hnot := hreserved.not_taken
  have hsigs : signatures { w with sent := w.sent ++ [.place placed] }
      = signatures w ++ [signalSignature placed] := by
    simp [signatures, World.placed]
  refine { place_records := hrunning.place_records, sent_recorded := ?_, once := ?_, fresh := ?_,
           index_minted := hrunning.index_minted, taken := ?_ }
  · intro s hs
    rw [hsigs] at hs
    rcases List.mem_append.mp hs with hs | hs
    · exact hrunning.sent_recorded s hs
    · rw [List.mem_singleton.mp hs]
      exact hrecorded
  · rw [hsigs, List.nodup_append]
    refine ⟨hrunning.once, by simp, ?_⟩
    intro a ha b hb
    rw [List.mem_singleton.mp hb]
    rintro rfl
    exact hnot (.inl ha)
  · intro s hs
    rw [hsigs] at hs
    rcases List.mem_append.mp hs with hs | hs
    · exact hrunning.fresh s hs
    · rw [List.mem_singleton.mp hs]
      exact fun h => hnot (.inr h)
  · intro s hs
    rw [Taken, hsigs, List.mem_append] at hs
    rcases hs with (hs | hs) | hs
    · exact hrunning.taken s (.inl hs)
    · rw [List.mem_singleton.mp hs]
      exact ⟨_, hreserved.1, hunsent⟩
    · exact hrunning.taken s (.inr hs)

theorem spec_recordAndSend (placed : OrderIntent) :
    Process.Spec (Within bound (Ready uuids atBoot placed)) (recordAndSend placed)
      (fun _ => Within bound (Running uuids atBoot)) (Within bound (Stopped uuids atBoot)) := by
  refine (spec_append_place placed).bind fun appended => ?_
  cases appended with
  | error error =>
    refine Process.Spec.bind ?_ fun _ => Process.Spec.pure fun _ h => h
    exact Process.Spec.step fun w hw hle => (hw hle).1.insertUnsent
  | ok record =>
    have herase : Process.Spec
        (Within bound fun w => Ready uuids atBoot placed w
          ∧ ∀ r, (.ok record : Result IntentRecord) = .ok r →
            Recorded w.recorded (signalSignature placed))
        (eraseUnsent placed.clientRef) (fun _ => Within bound (Armed uuids atBoot placed))
        (Within bound (Stopped uuids atBoot)) :=
      Process.Spec.step fun w hw hle => (hw hle).1.eraseUnsent ((hw hle).2 record rfl)
    have hbarrier : Process.Spec (Within bound (Armed uuids atBoot placed)) runPreSendBarrier
        (fun _ => Within bound (Armed uuids atBoot placed)) (Within bound (Stopped uuids atBoot)) :=
      Process.Spec.ask (fun _ hw hle => (hw hle).1.1.toStopped) fun _ _ hw => hw
    have hsend : Process.Spec (Within bound (Armed uuids atBoot placed)) (send (.place placed))
        (fun _ => Within bound (Running uuids atBoot)) (Within bound (Stopped uuids atBoot)) :=
      Process.Spec.ask (fun _ hw hle => (hw hle).1.1.toStopped) fun t w hw hle => (hw hle).send
    refine herase.bind fun _ => hbarrier.bind fun _ => hsend.bind fun ack => ?_
    cases ack with
    | ok brokerOrderId =>
      have hview : ∀ order view, Keeps uuids atBoot bound (applyView order view) :=
        fun order view => Process.Spec.step fun w hw hle => (hw hle).congr rfl rfl rfl rfl rfl
      exact (hview _ _).bind fun order => keeps_settle order
    | error error => exact keeps_settle _

/-- What a reservation says about its ref. -/
def Granted (uuids : UuidGenerator) (atBoot : List IntentRecord) (signature : Bytes)
    (result : Result Reservation) (w : World) : Prop :=
  Running uuids atBoot w ∧ ∀ reservation, result = .ok reservation →
    w.index signature = some reservation.clientRef
      ∧ (reservation.isNew = true → Reserved atBoot w signature reservation.clientRef)

theorem spec_reserve (hdistinct : uuids.Distinct bound) (strategy : Bytes) (intent : OrderIntent) :
    Process.Spec (Within bound (Running uuids atBoot)) (reserve uuids strategy intent)
      (fun result => Within bound (Granted uuids atBoot (signalSignature intent) result))
      (Within bound (Stopped uuids atBoot)) := by
  have hlookup : Process.Spec (Within bound (Running uuids atBoot))
      (existingRefForSignature (signalSignature intent))
      (fun prior => Within bound fun w =>
        Running uuids atBoot w ∧ w.index (signalSignature intent) = prior)
      (Within bound (Stopped uuids atBoot)) :=
    Process.Spec.step fun w hw hle => ⟨hw hle, rfl⟩
  refine hlookup.bind fun prior => ?_
  cases prior with
  -- the signal is known: its ref is handed out again, never as a new one
  | some prior =>
    have hfind : Process.Spec
        (Within bound fun w =>
          Running uuids atBoot w ∧ w.index (signalSignature intent) = some prior)
        (findOrder prior)
        (fun _ => Within bound fun w =>
          Running uuids atBoot w ∧ w.index (signalSignature intent) = some prior)
        (Within bound (Stopped uuids atBoot)) :=
      Process.Spec.ask (fun _ hw hle => (hw hle).1.toStopped) fun _ _ hw => hw
    refine hfind.bind fun found => ?_
    cases found with
    | error error =>
      exact Process.Spec.pure fun w hw hle => ⟨(hw hle).1, fun _ h => by cases h⟩
    | ok found =>
      refine Process.Spec.pure fun w hw hle => ⟨(hw hle).1, ?_⟩
      rintro _ ⟨rfl⟩
      exact ⟨(hw hle).2, fun h => by cases h⟩
  | none =>
    -- a fresh uuid makes a ref that nothing is bound to
    have hdraw : Process.Spec
        (Within bound fun w =>
          Running uuids atBoot w ∧ w.index (signalSignature intent) = none)
        (nextUuid uuids)
        (fun uuid => Within bound fun w => Running uuids atBoot w
          ∧ Unbound uuids w (signalSignature intent)
            (makeClientRef strategy (signalSignature intent) uuid))
        (Within bound (Stopped uuids atBoot)) :=
      Process.Spec.step fun w hw hle =>
        (hw (Nat.le_of_succ_le hle)).1.draw hdistinct hle (hw (Nat.le_of_succ_le hle)).2 strategy
    refine hdraw.bind fun uuid => ?_
    generalize makeClientRef strategy (signalSignature intent) uuid = ref
    have hfind : Process.Spec
        (Within bound fun w =>
          Running uuids atBoot w ∧ Unbound uuids w (signalSignature intent) ref)
        (findOrder ref)
        (fun _ => Within bound fun w =>
          Running uuids atBoot w ∧ Unbound uuids w (signalSignature intent) ref)
        (Within bound (Stopped uuids atBoot)) :=
      Process.Spec.ask (fun _ hw hle => (hw hle).1.toStopped) fun _ _ hw => hw
    -- registering binds it to this signal only
    have hregister : Process.Spec
        (Within bound fun w =>
          Running uuids atBoot w ∧ Unbound uuids w (signalSignature intent) ref)
        (registerSignature (signalSignature intent) ref)
        (fun _ => Within bound fun w =>
          Running uuids atBoot w ∧ Reserved atBoot w (signalSignature intent) ref)
        (Within bound (Stopped uuids atBoot)) :=
      Process.Spec.step fun w hw hle => (hw hle).1.register (hw hle).2
    have hreturn : ∀ (isNew : Bool) (existing : Option Order), Process.Spec
        (Within bound fun w =>
          Running uuids atBoot w ∧ Reserved atBoot w (signalSignature intent) ref)
        (Pure.pure (.ok ⟨ref, isNew, existing⟩) : Act (Result Reservation))
        (fun result => Within bound (Granted uuids atBoot (signalSignature intent) result))
        (Within bound (Stopped uuids atBoot)) := by
      intro isNew existing
      refine Process.Spec.pure fun w hw hle => ⟨(hw hle).1, ?_⟩
      rintro _ ⟨rfl⟩
      exact ⟨(hw hle).2.1, fun _ => (hw hle).2⟩
    refine hfind.bind fun found => ?_
    cases found with
    | error error =>
      exact Process.Spec.pure fun w hw hle => ⟨(hw hle).1, fun _ h => by cases h⟩
    | ok found =>
      cases found with
      | some existing => exact hregister.bind fun _ => hreturn false (some existing)
      | none => exact hregister.bind fun _ => hreturn true none

theorem keeps_place (hdistinct : uuids.Distinct bound) (strategy : Bytes) (intent : OrderIntent) :
    Keeps uuids atBoot bound (place uuids strategy intent) := by
  refine (spec_reserve hdistinct strategy intent).bind fun result => ?_
  cases result with
  | error error => exact Process.Spec.pure fun w hw hle => (hw hle).1
  | ok reservation =>
    obtain ⟨ref, isNew, existing⟩ := reservation
    dsimp only
    cases isNew with
    | true =>
      refine (spec_recordAndSend _).weaken (fun w hw hle => ?_) fun _ _ h => h
      exact ⟨(hw hle).1, ((hw hle).2 _ rfl).2 rfl⟩
    | false =>
      cases existing with
      | some order => exact Process.Spec.pure fun w hw hle => (hw hle).1
      | none =>
        have hunsent : Process.Spec
            (Within bound
              (Granted uuids atBoot (signalSignature intent) (.ok ⟨ref, false, none⟩)))
            (isUnsent ref)
            (fun b => Within bound fun w => Running uuids atBoot w
              ∧ (b = true → Reserved atBoot w (signalSignature intent) ref))
            (Within bound (Stopped uuids atBoot)) := by
          refine Process.Spec.step fun w hw hle => ⟨(hw hle).1, fun hb => ?_⟩
          exact (hw hle).1.reserved_of_unsent ((hw hle).2 _ rfl).1 (by simpa using hb)
        refine hunsent.bind fun b => ?_
        cases b with
        | true =>
          refine (spec_recordAndSend _).weaken (fun w hw hle => ?_) fun _ _ h => h
          exact ⟨(hw hle).1, (hw hle).2 rfl⟩
        | false => exact Process.Spec.pure fun w hw hle => (hw hle).1

end Place

/-! ## Whole runs -/

section Runs

variable {uuids : UuidGenerator} {atBoot : List IntentRecord} {bound : Nat}

theorem keeps_perform (hdistinct : uuids.Distinct bound) (call : Call) :
    Keeps uuids atBoot bound (call.perform uuids) := by
  cases call with
  | place strategy intent => exact (keeps_place hdistinct _ _).bind fun _ => .pure _
  | modify brokerOrderId intent => exact (keeps_modify _ _).bind fun _ => .pure _
  | cancel brokerOrderId clientRef =>
    exact (keeps_close (by decide) _ (by simp) _ _).bind fun _ => .pure _
  | squareOff brokerOrderId clientRef =>
    exact (keeps_close (by decide) _ (by simp) _ _).bind fun _ => .pure _

/-- Any calls in any order, wherever the last one stops. -/
theorem runCalls_stopped (hdistinct : uuids.Distinct bound) (calls : List (Call × List Tick))
    {w : World} (hw : Within bound (Running uuids atBoot) w) :
    Within bound (Stopped uuids atBoot) (runCalls uuids w calls) := by
  induction calls generalizing w with
  | nil => exact hw.stopped
  | cons call calls ih =>
    obtain ⟨call, ticks⟩ := call
    have hcall := keeps_perform hdistinct call ticks w hw
    rw [runCalls]
    cases hrun : call.perform uuids ticks w with
    | done _ _ w' =>
      rw [hrun] at hcall
      exact ih hcall
    | stopped w' =>
      rw [hrun] at hcall
      exact hcall

/-- A process starts with the invariant over the records it finds: each of them is in the
rebuilt index, and nothing waits. -/
theorem Stopped.restart {w : World} (h : Stopped uuids atBoot w) (parser : Json.Parser)
    (boot : Boot) : Running uuids w.recorded (w.restart parser boot) where
  place_records := h.place_records
  sent_recorded := by simp [signatures, World.placed, World.restart]
  once := by simp [signatures, World.placed, World.restart]
  fresh := by simp [signatures, World.placed, World.restart]
  index_minted := by
    intro signature ref hindex
    obtain ⟨record, hmem, hop, rfl⟩ := rebuildFromLog_mem hindex
    exact (h.place_records record hmem hop).1
  taken := by
    intro signature htaken
    rcases htaken with hsent | ⟨record, hmem, hop, intent, hpayload, rfl⟩
    · simp [signatures, World.placed, World.restart] at hsent
    · have hminted := (h.place_records record hmem hop).1
      have hread := readSignature_place parser hop hminted.ne_nil hpayload
      obtain ⟨ref, href⟩ := Option.isSome_iff_exists.mp (rebuildFromLog_isSome hmem hread)
      exact ⟨ref, href, by simp [World.restart]⟩

theorem boot_stopped (hdistinct : uuids.Distinct bound) (parser : Json.Parser) {w : World}
    (hw : Within bound (Stopped uuids atBoot) w) (boot : Boot) :
    Within bound (Stopped uuids w.recorded) (w.boot parser uuids boot) :=
  runCalls_stopped hdistinct boot.calls fun hle => (hw hle).restart parser boot

/-- The world after the processes of a history. -/
def World.after (parser : Json.Parser) (uuids : UuidGenerator) (w : World) (history : List Boot) :
    World :=
  history.foldl (World.boot parser uuids) w

theorem after_stopped (hdistinct : uuids.Distinct bound) (parser : Json.Parser)
    (history : List Boot) {w : World} (hw : Within bound (Stopped uuids atBoot) w) :
    ∃ records, Within bound (Stopped uuids records) (w.after parser uuids history) := by
  induction history generalizing w atBoot with
  | nil => exact ⟨atBoot, hw⟩
  | cons boot history ih => exact ih (boot_stopped hdistinct parser hw boot)

/-- **At most one `place` per signal.** After any history of processes, each stopped
anywhere, a new process with the rebuilt index runs any calls with any answers. As long as
the identifiers drawn are distinct, it sends no signature twice, sends none that the log held
when it started, and has recorded every one it sends. -/
theorem place_at_most_once (parser : Json.Parser) (log : IntentLog) (history : List Boot)
    (boot : Boot)
    (hdistinct : uuids.Distinct
      (((World.blank log).after parser uuids history).boot parser uuids boot).uuidCalls) :
    let before := (World.blank log).after parser uuids history
    let process := before.boot parser uuids boot
    (signatures process).Nodup
      ∧ (∀ signature ∈ signatures process, ¬ Recorded before.recorded signature)
      ∧ ∀ signature ∈ signatures process, Recorded process.recorded signature := by
  intro before process
  have hblank : Within process.uuidCalls (Stopped uuids []) (World.blank log) := by
    intro _
    exact ⟨by simp [World.blank], by simp [signatures, World.placed, World.blank],
      by simp [signatures, World.placed, World.blank],
      by simp [signatures, World.placed, World.blank]⟩
  obtain ⟨records, hbefore⟩ := after_stopped hdistinct parser history hblank
  have hprocess := boot_stopped hdistinct parser hbefore boot (Nat.le_refl _)
  exact ⟨hprocess.once, hprocess.fresh, hprocess.sent_recorded⟩

end Runs

/-! A concrete process: one market order, acknowledged. -/

def sampleIntent : OrderIntent where
  clientRef := []
  symbol := ascii "NIFTY"
  side := .buy
  quantity := 50
  price := 0
  triggerPrice := none
  orderType := .market
  product := .intraday
  strategy := ascii "s"

/-- Nothing fails and the broker acknowledges with this id. -/
def sampleTick : Tick := ⟨.done, 0, none, .ok (ascii "B1")⟩

def sampleBoot : Boot :=
  ⟨IntentLog.sampleLog, .empty, .init,
    [(.place (ascii "s") sampleIntent, List.replicate 8 sampleTick)]⟩

theorem place_at_most_once_sample :
    ((World.blank IntentLog.sampleLog).boot Json.reader UuidGenerator.numbered sampleBoot).placed.length = 1
      ∧ (signatures
        ((World.blank IntentLog.sampleLog).boot Json.reader UuidGenerator.numbered sampleBoot)).Nodup := by
  have hdistinct : UuidGenerator.numbered.Distinct
      ((World.blank IntentLog.sampleLog).boot Json.reader UuidGenerator.numbered sampleBoot).uuidCalls := by
    intro m hm n hn _
    have hcalls : ((World.blank IntentLog.sampleLog).boot Json.reader UuidGenerator.numbered
        sampleBoot).uuidCalls = 1 := rfl
    omega
  exact ⟨rfl, (place_at_most_once Json.reader IntentLog.sampleLog [] sampleBoot hdistinct).1⟩

end BrokerExec.Runtime

import BrokerExec.Store.Lives

/-!
# What the store has acknowledged

Two things hold of every life in which SQLite blames the file for nothing: the two logs keep what
was acknowledged, and a client ref is inserted once.

* **`logs_lives`** — the audit and the risk events on disk lie between what was acknowledged and
  what was tried, in order.
* **`inserted_once`** — over all processes at most one insert of a client ref succeeds.
-/

namespace BrokerExec.Sqlite

open BrokerExec.Domain (Order)

/-! ## Logs -/

/-- A part of the store that calls only add to: what each call adds. -/
structure IsLog {α : Type} (rows : Projection → List α) (added : Call → Option α) : Prop where
  empty : rows .empty = []
  apply : ∀ p call, rows (p.apply call).2 = rows p ++ (added call).toList

/-- What the calls that succeeded add. -/
def acknowledged {α : Type} (added : Call → Option α) (entries : List Entry) : List α :=
  entries.filterMap fun
    | .called call (.ok _) => added call
    | _ => none

/-- What all calls add. -/
def attempted {α : Type} (added : Call → Option α) (entries : List Entry) : List α :=
  entries.filterMap fun
    | .called call _ => added call
    | _ => none

section Logs

variable {α : Type} {rows : Projection → List α} {added : Call → Option α}
  {allowed : Tick → Prop}

theorem acknowledged_append (h : List Entry) (entry : Entry) :
    acknowledged added (h ++ [entry]) = acknowledged added h ++ acknowledged added [entry] :=
  List.filterMap_append

theorem attempted_append (h : List Entry) (entry : Entry) :
    attempted added (h ++ [entry]) = attempted added h ++ attempted added [entry] :=
  List.filterMap_append

theorem attempted_called (call : Call) (answer : Result Answer) :
    attempted added [.called call answer] = (added call).toList := by
  cases h : added call <;> simp [attempted, h]

theorem acknowledged_called_sublist (call : Call) (answer : Result Answer) :
    (acknowledged added [.called call answer]).Sublist (added call).toList := by
  cases answer with
  | error error => exact List.nil_sublist _
  | ok a => cases h : added call <;> simp [acknowledged, h]

/-- An acknowledged row is in the log, and a row of the log was tried. -/
theorem IsLog.sublists (hlog : IsLog rows added) (hsound : ¬Damaged allowed) {h : List Entry}
    {p : Projection} (hhistory : History allowed h p) :
    (acknowledged added h).Sublist (rows p) ∧ (rows p).Sublist (attempted added h) := by
  induction hhistory with
  | nil =>
    rw [hlog.empty]
    exact ⟨.refl _, .refl _⟩
  | @called h p p' call answer _ hserves ih =>
    rw [acknowledged_append, attempted_append, attempted_called]
    have hgrown : (acknowledged added h ++ acknowledged added [.called call answer]).Sublist
        (rows p ++ (added call).toList) :=
      ih.1.append (acknowledged_called_sublist call answer)
    cases hserves with
    | answered happly =>
      have hrows := hlog.apply p call
      rw [happly] at hrows
      rw [hrows]
      exact ⟨hgrown, ih.2.append (.refl _)⟩
    | failed _ heffect =>
      have hnone (error : Errors.Error) : acknowledged added [.called call (.error error)] = [] :=
        rfl
      rw [hnone, List.append_nil]
      rcases heffect with rfl | rfl
      · exact ⟨ih.1, ih.2.trans (List.sublist_append_left _ _)⟩
      · rw [hlog.apply]
        exact ⟨ih.1.trans (List.sublist_append_left _ _), ih.2.append (.refl _)⟩
  | opened _ ih =>
    rw [acknowledged_append, attempted_append]
    simpa [acknowledged, attempted] using ih
  | refused _ ih =>
    rw [acknowledged_append, attempted_append]
    simpa [acknowledged, attempted] using ih
  | rebuilt _ hdamaged _ => exact absurd hdamaged hsound
  | lost _ hdamaged _ => exact absurd hdamaged hsound

end Logs

theorem lt_nextId {α : Type} {id : α → Nat} (table : Table Nat α id) :
    ∀ row ∈ table.rows, id row < nextId table := by
  intro row hrow
  have hlast : ∀ ids : List Nat, ids.Pairwise (· < ·) → ∀ n ∈ ids, n ≤ ids.getLast?.getD 0 := by
    intro ids hsorted n hn
    obtain ⟨front, last, rfl⟩ : ∃ front last, ids = front ++ [last] :=
      ⟨ids.dropLast, ids.getLast (List.ne_nil_of_mem hn), (List.dropLast_append_getLast _).symm⟩
    rw [List.getLast?_append]
    simp only [List.getLast?_singleton, Option.some_or, Option.getD_some]
    rcases List.mem_append.mp hn with hfront | hlast
    · exact ((List.pairwise_append.mp hsorted).2.2 n hfront last (by simp)).le
    · exact (List.mem_singleton.mp hlast).le
  exact Nat.lt_succ_of_le (hlast _ table.sorted (id row) (List.mem_map_of_mem hrow))

/-- The caller's part of an audit record. -/
def AuditRecord.content (record : AuditRecord) : AuditRecord := { record with id := 0 }

def RiskEvent.content (event : RiskEvent) : RiskEvent := { event with id := 0 }

def addedAudit : Call → Option AuditRecord
  | .insertAudit record => some record.content
  | _ => none

def addedRiskEvent : Call → Option RiskEvent
  | .insertRiskEvent event => some event.content
  | _ => none

theorem isLog_audit :
    IsLog (fun p => p.audit.rows.map AuditRecord.content) addedAudit where
  empty := rfl
  apply p call := by
    cases call with
    | insertAudit record =>
      show (Table.rows (p.audit.upsert _)).map _ = _
      rw [Table.rows_upsert_last (lt_nextId p.audit), List.map_append]
      rfl
    | insertTrade trade =>
      show (Projection.audit (if _ then p else { p with trades := _ })).rows.map _ = _
      split <;> simp [addedAudit]
    | _ => simp [Projection.apply, addedAudit]

theorem isLog_riskEvents :
    IsLog (fun p => p.riskEvents.rows.map RiskEvent.content) addedRiskEvent where
  empty := rfl
  apply p call := by
    cases call with
    | insertRiskEvent event =>
      show (Table.rows (p.riskEvents.upsert _)).map _ = _
      rw [Table.rows_upsert_last (lt_nextId p.riskEvents), List.map_append]
      rfl
    | insertTrade trade =>
      show (Projection.riskEvents (if _ then p else { p with trades := _ })).rows.map _ = _
      split <;> simp [addedRiskEvent]
    | _ => simp [Projection.apply, addedRiskEvent]

theorem not_damaged : ¬Damaged fun t => t.reportsDamage = false := by
  rintro ⟨t, ht, hdamage⟩
  rw [hdamage] at ht
  cases ht

/-- **Over every life without damage, the audit on disk and the risk events on disk are, in order,
all that was acknowledged and nothing that was not tried.** -/
theorem logs_lives {sessions : List Session}
    (h : ∀ s ∈ sessions, ∀ t ∈ s.ticks, t.reportsDamage = false) :
    ((acknowledged addedAudit (lives sessions).2).Sublist
        ((project (lives sessions).1.tables).audit.rows.map AuditRecord.content)
      ∧ ((project (lives sessions).1.tables).audit.rows.map AuditRecord.content).Sublist
        (attempted addedAudit (lives sessions).2))
    ∧ (acknowledged addedRiskEvent (lives sessions).2).Sublist
        ((project (lives sessions).1.tables).riskEvents.rows.map RiskEvent.content)
      ∧ ((project (lives sessions).1.tables).riskEvents.rows.map RiskEvent.content).Sublist
        (attempted addedRiskEvent (lives sessions).2) := by
  have hhistory := history_lives h
  exact ⟨isLog_audit.sublists not_damaged hhistory,
    isLog_riskEvents.sublists not_damaged hhistory⟩

/-- An audit record that the process before a kill had acknowledged, and one that landed unheard. -/
theorem logs_lives_killed :
    let record : AuditRecord := ⟨0, 7, ascii "r1", ascii "sent", [], 0⟩
    let healthy (n : Nat) : List Tick := List.replicate n ⟨none, true⟩
    let sessions : List Session :=
      [⟨[.insertAudit record, .insertAudit record],
          healthy 26 ++ [⟨some ⟨10, false, true⟩, true⟩]⟩,
        ⟨[.allAudit], healthy 40⟩]
    acknowledged addedAudit (lives sessions).2 = [record]
      ∧ attempted addedAudit (lives sessions).2 = [record, record]
      ∧ (acknowledged addedAudit (lives sessions).2).Sublist
        ((project (lives sessions).1.tables).audit.rows.map AuditRecord.content) := by
  refine ⟨by decide, by decide, ?_⟩
  refine (logs_lives ?_).1.1
  decide

/-! ## Inserted orders -/

/-- The client refs whose insert succeeded. -/
def insertedRefs (entries : List Entry) : List Bytes :=
  entries.filterMap fun
    | .called (.insertOrder order) (.ok _) => some order.intent.clientRef
    | _ => none

def Projection.holds (p : Projection) (clientRef : Bytes) : Prop :=
  (p.orders.find clientRef).isSome

section Inserts

variable {allowed : Tick → Prop}

theorem isSome_find_upsert {store : Store} {order : Order} {clientRef : Bytes}
    (h : clientRef = order.intent.clientRef ∨ (store.find clientRef).isSome) :
    ((store.upsert order).find clientRef).isSome := by
  rw [Table.find_upsert]
  split_ifs with hkey
  · rfl
  · exact h.resolve_left hkey

/-- No call takes an order away. -/
theorem Projection.holds_apply {p : Projection} {clientRef : Bytes} (h : p.holds clientRef)
    (call : Call) : (p.apply call).2.holds clientRef := by
  unfold Projection.holds at h ⊢
  cases call with
  | insertOrder order =>
    show ((p.orders.insertOrder none order).2.find clientRef).isSome
    unfold Store.insertOrder
    cases hfind : Table.find p.orders order.intent.clientRef with
    | some row => simpa only [hfind] using h
    | none => simpa only [hfind] using isSome_find_upsert (.inr h)
  | upsertOrder order => exact isSome_find_upsert (.inr h)
  | insertTrade trade =>
    show ((Projection.orders (if _ then p else { p with trades := _ })).find clientRef).isSome
    split <;> exact h
  | _ => exact h

/-- An insert that succeeds met no order, and leaves one. -/
theorem Projection.apply_insertOrder {p p' : Projection} {order : Order} {a : Answer}
    (h : p.apply (.insertOrder order) = (.ok a, p')) :
    ¬p.holds order.intent.clientRef ∧ p'.holds order.intent.clientRef := by
  unfold Projection.apply Store.insertOrder at h
  cases hfind : Table.find p.orders order.intent.clientRef with
  | some row =>
    simp only [hfind] at h
    cases (Prod.mk.inj h).1
  | none =>
    simp only [hfind] at h
    obtain ⟨-, rfl⟩ := Prod.mk.inj h
    exact ⟨by simp [Projection.holds, hfind], isSome_find_upsert (.inl rfl)⟩

theorem insertedRefs_append (h : List Entry) (entry : Entry) :
    insertedRefs (h ++ [entry]) = insertedRefs h ++ insertedRefs [entry] := List.filterMap_append

/-- The effect of a call, whatever its answer, keeps the orders. -/
theorem Serves.holds {p p' : Projection} {call : Call} {answer : Result Answer}
    (hserves : Serves allowed p call answer p') {clientRef : Bytes} (h : p.holds clientRef) :
    p'.holds clientRef := by
  have happly := Projection.holds_apply h call
  cases hserves with
  | answered heq =>
    rw [heq] at happly
    exact happly
  | failed _ heffect =>
    rcases heffect with rfl | rfl
    · exact h
    · exact happly

theorem History.inserted (hsound : ¬Damaged allowed) {h : List Entry} {p : Projection}
    (hhistory : History allowed h p) :
    (insertedRefs h).Nodup ∧ ∀ clientRef ∈ insertedRefs h, p.holds clientRef := by
  induction hhistory with
  | nil => exact ⟨.nil, nofun⟩
  | @called h p p' call answer _ hserves ih =>
    have hkept : ∀ clientRef ∈ insertedRefs h, p'.holds clientRef :=
      fun clientRef hmem => hserves.holds (ih.2 clientRef hmem)
    rw [insertedRefs_append]
    by_cases hinsert : ∃ order a, call = .insertOrder order ∧ answer = .ok a
    · obtain ⟨order, a, rfl, rfl⟩ := hinsert
      cases hserves with
      | answered happly =>
        obtain ⟨hfree, hheld⟩ := Projection.apply_insertOrder happly
        show (insertedRefs h ++ [order.intent.clientRef]).Nodup ∧ _
        refine ⟨List.nodup_append.mpr ⟨ih.1, by simp, ?_⟩, ?_⟩
        · rintro clientRef hmem _ hlast rfl
          rw [List.mem_singleton.mp hlast] at hmem
          exact hfree (ih.2 _ hmem)
        · intro clientRef hmem
          rcases List.mem_append.mp hmem with hmem | hlast
          · exact hkept clientRef hmem
          · rw [List.mem_singleton.mp hlast]
            exact hheld
    · have hnone : insertedRefs [.called call answer] = [] := by
        cases answer with
        | error error => cases call <;> rfl
        | ok a =>
          cases call with
          | insertOrder order => exact absurd ⟨order, a, rfl, rfl⟩ hinsert
          | _ => rfl
      rw [hnone, List.append_nil]
      exact ⟨ih.1, hkept⟩
  | opened _ ih =>
    rw [insertedRefs_append]
    simpa [insertedRefs] using ih
  | refused _ ih =>
    rw [insertedRefs_append]
    simpa [insertedRefs] using ih
  | rebuilt _ hdamaged _ => exact absurd hdamaged hsound
  | lost _ hdamaged _ => exact absurd hdamaged hsound

end Inserts

/-- **Over every life without damage no client ref is inserted twice, and each that was is still
there.** -/
theorem inserted_once {sessions : List Session}
    (h : ∀ s ∈ sessions, ∀ t ∈ s.ticks, t.reportsDamage = false) :
    (insertedRefs (lives sessions).2).Nodup
      ∧ ∀ clientRef ∈ insertedRefs (lives sessions).2,
        (project (lives sessions).1.tables).holds clientRef :=
  (history_lives h).inserted not_damaged

/-- The insert that a restarted process makes again is refused, and leaves the row it met. -/
theorem inserted_once_restarted :
    let order : Order := ⟨⟨ascii "r1", ascii "SBIN", .buy, 5, 100, none, .limit, .normal, []⟩,
      .pendingSend, [], 0, 0⟩
    let sessions : List Session :=
      [⟨[.insertOrder order], List.replicate 25 ⟨none, true⟩⟩,
        ⟨[.insertOrder { order with state := .created }], List.replicate 40 ⟨none, true⟩⟩]
    insertedRefs (lives sessions).2 = [ascii "r1"]
      ∧ (project (lives sessions).1.tables).holds (ascii "r1") := by
  refine ⟨by decide, ?_⟩
  exact (inserted_once (by decide)).2 _ (by decide)

end BrokerExec.Sqlite

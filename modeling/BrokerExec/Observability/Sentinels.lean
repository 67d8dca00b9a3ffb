import BrokerExec.Domain.ScrubCuts
import BrokerExec.Observability.StructuredLogger

/-!
# Where the sentinels stand (`observability/structured_logger.cpp`)

A sentinel starts with the only `P` in it and goes on with the tag of its column, so none occurs in
another one, nor in what the library itself writes into a line.

* **`toJsonLine_swap`** — a preserved column stands in the line as its sentinel, between a front
  and a back part.
* **`not_infix_frontOf`**, **`not_infix_behindOf`**, **`not_infix_toJsonLine`** — when no text of
  the event has a sentinel, it occurs nowhere else.
-/

namespace BrokerExec.Observability

open BrokerExec.Domain (isOpener isProvenanceIdShape isUpperLetter kRedactionMarker)
open BrokerExec.Json (IsPlainText Value dumpEntries_cons dumpEntries_split dumpEntry dumpString_of_plain
  dumpValue exists_text_of_entry)

/-! ## Sentinels -/

section

variable (sentinels : Sentinels) (column : ProvenanceColumn)

theorem sentinel_eq : sentinels.sentinel column
    = 0x50 :: (ascii "ROVENANCESENTINEL" ++ column.tag ++ sentinels.tail column) := rfl

theorem sentinel_ne : sentinels.sentinel column ≠ [] := by
  rw [sentinel_eq]
  exact List.cons_ne_nil _ _

/-- Behind its first byte a sentinel has capital letters other than `P`. -/
theorem mem_sentinel_tail :
    ∀ c ∈ ascii "ROVENANCESENTINEL" ++ column.tag ++ sentinels.tail column,
      isUpperLetter c = true ∧ c ≠ 0x50 := by
  have hword : ∀ c ∈ ascii "ROVENANCESENTINEL", isUpperLetter c = true ∧ c ≠ 0x50 := by decide
  have htag : ∀ c ∈ column.tag, isUpperLetter c = true ∧ c ≠ 0x50 := by
    cases column <;> decide
  have halphabet : ∀ c ∈ kSentinelAlphabet, isUpperLetter c = true ∧ c ≠ 0x50 := by decide
  intro c hc
  rcases List.mem_append.mp hc with hc | hc
  · rcases List.mem_append.mp hc with hc | hc
    · exact hword c hc
    · exact htag c hc
  · exact halphabet c (sentinels.mem_alphabet column c hc)

theorem isUpperLetter_sentinel : ∀ c ∈ sentinels.sentinel column, isUpperLetter c = true := by
  intro c hc
  rw [sentinel_eq] at hc
  rcases List.mem_cons.mp hc with rfl | hc
  · decide
  · exact (mem_sentinel_tail sentinels column c hc).1

variable {sentinels column}

theorem not_infix_of_no_p {text : Bytes} (h : 0x50 ∉ text) :
    ¬ sentinels.sentinel column <:+: text := by
  intro hmet
  refine h (hmet.subset ?_)
  rw [sentinel_eq]
  exact List.mem_cons_self

theorem not_infix_marker : ¬ sentinels.sentinel column <:+: kRedactionMarker :=
  not_infix_of_no_p (by decide)

/-- **No sentinel occurs in another one.** -/
theorem not_infix_sentinel {column' : ProvenanceColumn} (hne : column ≠ column') :
    ¬ sentinels.sentinel column <:+: sentinels.sentinel column' := by
  rintro ⟨front, back, hcut⟩
  cases front with
  | cons c front =>
    -- the `P` would stand behind the first byte
    rw [sentinel_eq sentinels column', List.cons_append, List.cons_append] at hcut
    refine (mem_sentinel_tail sentinels column' 0x50 ?_).2 rfl
    rw [← (List.cons.inj hcut).2, sentinel_eq]
    simp only [List.mem_append, List.mem_cons, true_or, or_true]
  | nil =>
    have htags : column.tag ++ (sentinels.tail column ++ back)
        = column'.tag ++ sentinels.tail column' := by
      rwa [List.nil_append, Sentinels.sentinel, Sentinels.sentinel, List.append_assoc,
        List.append_assoc, List.append_assoc, List.append_right_inj] at hcut
    have hhead := congrArg List.head? htags
    have hdiffer : ∀ column column' : ProvenanceColumn, ∀ x y : Bytes, column ≠ column' →
        (column.tag ++ x).head? ≠ (column'.tag ++ y).head? := by
      intro column column' x y hne
      have hfirst : ∀ column : ProvenanceColumn, ∀ x : Bytes,
          (column.tag ++ x).head? = column.tag.head? := by
        intro column x
        cases column <;> rfl
      rw [hfirst, hfirst]
      revert hne
      cases column <;> cases column' <;> decide
    exact hdiffer _ _ _ _ hne hhead

end

/-! ## The columns in the line -/

section

variable (ev : AuditEvent)

/-- The members in front of a column. -/
def ProvenanceColumn.before : ProvenanceColumn → List (Bytes × Value)
  | .account => []
  | .broker => putIfSet "account" ev.account
  | .brokerOrderId => putIfSet "account" ev.account ++ putIfSet "broker" ev.broker
  | .clientRef => putIfSet "account" ev.account ++ putIfSet "broker" ev.broker
      ++ putIfSet "broker_order_id" ev.brokerOrderId
  | .strategy => putIfSet "account" ev.account ++ putIfSet "broker" ev.broker
      ++ putIfSet "broker_order_id" ev.brokerOrderId ++ putIfSet "client_ref" ev.clientRef
      ++ putFields ev.fields ++ [(ascii "schema_version", .int AuditEvent.kSchemaVersion)]

/-- The members behind the typed columns. -/
def AuditEvent.lastMembers : List (Bytes × Value) :=
  [(ascii "ts", .string (toIso8601Utc ev.ts)), (ascii "type", .string ev.type.toString)]

/-- The members behind a column. -/
def ProvenanceColumn.after : ProvenanceColumn → List (Bytes × Value)
  | .account => putIfSet "broker" ev.broker ++ putIfSet "broker_order_id" ev.brokerOrderId
      ++ putIfSet "client_ref" ev.clientRef ++ putFields ev.fields
      ++ [(ascii "schema_version", .int AuditEvent.kSchemaVersion)]
      ++ putIfSet "strategy" ev.strategy ++ ev.lastMembers
  | .broker => putIfSet "broker_order_id" ev.brokerOrderId ++ putIfSet "client_ref" ev.clientRef
      ++ putFields ev.fields ++ [(ascii "schema_version", .int AuditEvent.kSchemaVersion)]
      ++ putIfSet "strategy" ev.strategy ++ ev.lastMembers
  | .brokerOrderId => putIfSet "client_ref" ev.clientRef ++ putFields ev.fields
      ++ [(ascii "schema_version", .int AuditEvent.kSchemaVersion)]
      ++ putIfSet "strategy" ev.strategy ++ ev.lastMembers
  | .clientRef => putFields ev.fields
      ++ [(ascii "schema_version", .int AuditEvent.kSchemaVersion)]
      ++ putIfSet "strategy" ev.strategy ++ ev.lastMembers
  | .strategy => ev.lastMembers

theorem members_eq (column : ProvenanceColumn) : ev.members
    = column.before ev ++ (putIfSet column.key (column.member ev) ++ column.after ev) := by
  cases column <;>
    simp only [AuditEvent.members, ProvenanceColumn.before, ProvenanceColumn.after,
      ProvenanceColumn.key, ProvenanceColumn.member, AuditEvent.lastMembers, List.append_assoc,
      List.nil_append]

/-- The keys that the line can have. -/
def reservedKeys : List Bytes :=
  [ascii "account", ascii "broker", ascii "broker_order_id", ascii "client_ref", ascii "fields",
    ascii "schema_version", ascii "strategy", ascii "ts", ascii "type"]

theorem members_keys_sublist : (ev.members.map Prod.fst).Sublist reservedKeys := by
  have hput : ∀ key value, ((putIfSet key value).map Prod.fst).Sublist [ascii key] := by
    intro key value
    unfold putIfSet
    split
    · exact List.nil_sublist _
    · exact List.Sublist.refl _
  have hfields : ((putFields ev.fields).map Prod.fst).Sublist [ascii "fields"] := by
    unfold putFields
    split
    · exact List.Sublist.refl _
    · exact List.nil_sublist _
  simp only [AuditEvent.members, List.map_append]
  exact (((((((hput ..).append (hput ..)).append (hput ..)).append (hput ..)).append
    hfields).append (List.Sublist.refl _)).append (hput ..)).append (List.Sublist.refl _)

theorem nodup_keys : (ev.members.map Prod.fst).Nodup :=
  (members_keys_sublist ev).nodup (by decide)

/-- The columns in the order of the line. -/
def lineOrder : List ProvenanceColumn :=
  [.account, .broker, .brokerOrderId, .clientRef, .strategy]

theorem mem_lineOrder (column : ProvenanceColumn) : column ∈ lineOrder := by
  cases column <;> decide

/-- An earlier column is among the members in front of a later one. -/
def Precedes (column column' : ProvenanceColumn) : Prop :=
  column.before ev ++ putIfSet column.key (column.member ev) <+: column'.before ev

theorem pairwise_lineOrder : lineOrder.Pairwise (Precedes ev) := by
  have htrans : Trans (Precedes ev) (Precedes ev) (Precedes ev) :=
    ⟨fun hfirst hsecond => hfirst.trans ((List.prefix_append ..).trans hsecond)⟩
  rw [← List.isChain_iff_pairwise]
  refine .cons_cons ?_ (.cons_cons ?_ (.cons_cons ?_ (.cons_cons ?_ (.singleton _))))
  · exact List.prefix_rfl
  · exact List.prefix_rfl
  · exact List.prefix_rfl
  · show _ <+: _ ++ putIfSet "client_ref" ev.clientRef ++ putFields ev.fields ++ _
    rw [List.append_assoc _ (putFields ev.fields)]
    exact List.prefix_append ..

/-- The line up to a column. -/
def frontOf (column : ProvenanceColumn) : Bytes :=
  0x7B :: (column.before ev).flatMap fun m => dumpEntry m ++ [0x2C]

/-- The line behind a column. -/
def behindOf (column : ProvenanceColumn) : Bytes :=
  ((column.after ev).flatMap fun m => 0x2C :: dumpEntry m) ++ [0x7D]

variable {ev} {column column' : ProvenanceColumn}

theorem toJsonLine_eq (h : column.member ev ≠ []) : toJsonLine ev = frontOf ev column
    ++ (dumpEntry (ascii column.key, .string (column.member ev)) ++ behindOf ev column) := by
  have hset : putIfSet column.key (column.member ev)
      = [(ascii column.key, .string (column.member ev))] := if_neg h
  rw [toJsonLine, dumpValue, members_eq ev column, hset, List.singleton_append, dumpEntries_split]
  simp [frontOf, behindOf]

/-- A column stands behind the byte that opens the object or sets two members apart. -/
theorem getLast?_frontOf : ∀ c ∈ (frontOf ev column).getLast?, isOpener c = true := by
  intro c hc
  unfold frontOf at hc
  rcases List.eq_nil_or_concat (column.before ev) with hnil | ⟨ms, m, hms⟩
  · rw [hnil] at hc
    obtain rfl := Option.some.inj hc
    decide
  · rw [hms, List.concat_eq_append, List.flatMap_append, ← List.cons_append, List.getLast?_append,
      List.flatMap_singleton, List.getLast?_append] at hc
    obtain rfl := Option.some.inj hc
    decide

theorem prefix_frontOf (h : Precedes ev column column') (hset : column.member ev ≠ []) :
    frontOf ev column ++ dumpEntry (ascii column.key, .string (column.member ev))
      <+: frontOf ev column' := by
  obtain ⟨between, hbetween⟩ := h
  refine ⟨0x2C :: between.flatMap fun m => dumpEntry m ++ [0x2C], ?_⟩
  rw [putIfSet, if_neg hset] at hbetween
  simp [frontOf, ← hbetween]

end

/-! ## The line as it is scrubbed -/

section

variable {sentinels : Sentinels} {ev : AuditEvent} {column column' : ProvenanceColumn}

theorem member_swap (sentinels : Sentinels) (ev : AuditEvent) (column : ProvenanceColumn) :
    column.member (swap sentinels ev) = swapped sentinels ev column := by
  cases column <;> rfl

theorem member_ne (h : isPreserved ev column = true) : column.member ev ≠ [] := by
  intro hnil
  rw [isPreserved, hnil] at h
  exact absurd h (by decide)

theorem member_swap_of_preserved (h : isPreserved ev column = true) :
    column.member (swap sentinels ev) = sentinels.sentinel column := by
  rw [member_swap, swapped, if_pos h]

theorem member_swap_ne (h : isPreserved ev column = true) :
    column.member (swap sentinels ev) ≠ [] := by
  rw [member_swap_of_preserved h]
  exact sentinel_ne sentinels column

theorem isPlainText_key (column : ProvenanceColumn) : IsPlainText (ascii column.key) := by
  unfold IsPlainText
  cases column <;> decide

theorem isPlainText_sentinel (sentinels : Sentinels) (column : ProvenanceColumn) :
    IsPlainText (sentinels.sentinel column) := by
  intro c hc
  have hupper := isUpperLetter_sentinel sentinels column c hc
  simp only [isUpperLetter, Bool.and_eq_true, decide_eq_true_eq] at hupper
  obtain ⟨hlow, hhigh⟩ := hupper
  refine ⟨le_trans (by decide) hlow, lt_of_le_of_lt hhigh (by decide), ?_, ?_⟩
  · rintro rfl
    exact absurd hlow (by decide)
  · rintro rfl
    exact absurd hhigh (by decide)

theorem dumpEntry_sentinel (sentinels : Sentinels) (column : ProvenanceColumn) :
    dumpEntry (ascii column.key, .string (sentinels.sentinel column))
      = renderedPair column.key (sentinels.sentinel column) := by
  rw [dumpEntry, dumpValue, dumpString_of_plain (isPlainText_key column),
    dumpString_of_plain (isPlainText_sentinel sentinels column), renderedPair]
  simp [show ascii "\":\"" = [0x22, 0x3A, 0x22] by decide]

/-- **A preserved column stands in the line as its sentinel.** -/
theorem toJsonLine_swap (h : isPreserved ev column = true) : toJsonLine (swap sentinels ev)
    = frontOf (swap sentinels ev) column
      ++ (renderedPair column.key (sentinels.sentinel column)
        ++ behindOf (swap sentinels ev) column) := by
  rw [toJsonLine_eq (member_swap_ne h), member_swap_of_preserved h, dumpEntry_sentinel]

theorem prefix_frontOf_swap (hprecedes : Precedes (swap sentinels ev) column column')
    (h : isPreserved ev column = true) :
    frontOf (swap sentinels ev) column ++ renderedPair column.key (sentinels.sentinel column)
      <+: frontOf (swap sentinels ev) column' := by
  have hstarts := prefix_frontOf hprecedes (member_swap_ne h)
  rwa [member_swap_of_preserved h, dumpEntry_sentinel] at hstarts

/-! ## Texts without a sentinel -/

/-- Every text that the caller put into the event. -/
def AuditEvent.texts (ev : AuditEvent) : List Bytes :=
  kProvenanceColumns.map (fun column => column.member ev) ++ ev.fields.texts

/-- No text of the event has a sentinel of the process. -/
def SentinelFree (sentinels : Sentinels) (ev : AuditEvent) : Prop :=
  ∀ column, ∀ text ∈ ev.texts, ¬ sentinels.sentinel column <:+: text

theorem SentinelFree.member (hfree : SentinelFree sentinels ev)
    (column column' : ProvenanceColumn) :
    ¬ sentinels.sentinel column <:+: column'.member ev := by
  refine hfree column _ (List.mem_append_left _ (List.mem_map_of_mem ?_))
  cases column' <;> decide

theorem not_p_of_toIso8601Utc (ts : Int) : 0x50 ∉ toIso8601Utc ts := by
  have hpad : ∀ value width, 0x50 ∉ pad value width := by
    intro value width h
    rcases List.mem_append.mp h with h | h
    · exact absurd (List.eq_of_mem_replicate h) (by decide)
    · rcases mem_decimal h with h | h
      · exact absurd h (by decide)
      · exact absurd h (by decide)
  have hparts : 0x50 ∉ ascii "-" ∧ 0x50 ∉ ascii "T" ∧ 0x50 ∉ ascii ":" ∧ 0x50 ∉ ascii "Z" := by
    decide
  simp [toIso8601Utc, hpad, hparts]

/-- A member of the line that has a sentinel is the column of it. -/
theorem column_of_word (hfree : SentinelFree sentinels ev) {m : Bytes × Value}
    (hm : m ∈ (swap sentinels ev).members) (h : sentinels.sentinel column <:+: dumpEntry m) :
    isPreserved ev column = true ∧ m.1 = ascii column.key := by
  obtain ⟨text, htext, hmet⟩ := exists_text_of_entry
    (isUpperLetter_sentinel sentinels column) (sentinel_ne sentinels column) m h
  have hcolumn : ∀ column' : ProvenanceColumn,
      m ∈ putIfSet column'.key (column'.member (swap sentinels ev)) →
        isPreserved ev column = true ∧ m.1 = ascii column.key := by
    intro column' hm
    have hkey : 0x50 ∉ ascii column'.key := by cases column' <;> decide
    unfold putIfSet at hm
    split at hm
    · cases hm
    obtain rfl := List.mem_singleton.mp hm
    rcases List.mem_cons.mp htext with rfl | htext
    · exact absurd hmet (not_infix_of_no_p hkey)
    rw [Value.texts, List.mem_singleton] at htext
    rw [htext, member_swap, swapped] at hmet
    split at hmet
    · next hpreserved =>
      by_cases hsame : column = column'
      · rw [hsame]
        exact ⟨hpreserved, rfl⟩
      · exact absurd hmet (not_infix_sentinel hsame)
    · exact absurd hmet (hfree.member column column')
  simp only [AuditEvent.members, List.mem_append, List.mem_cons, List.not_mem_nil, or_false]
    at hm
  rcases hm with ((((((hm | hm) | hm) | hm) | hm) | rfl) | hm) | rfl | rfl
  · exact hcolumn .account hm
  · exact hcolumn .broker hm
  · exact hcolumn .brokerOrderId hm
  · exact hcolumn .clientRef hm
  · exfalso
    change m ∈ putFields ev.fields at hm
    unfold putFields at hm
    split at hm
    · next first rest hfields =>
      obtain rfl := List.mem_singleton.mp hm
      rcases List.mem_cons.mp htext with rfl | htext
      · exact absurd hmet (not_infix_of_no_p (show 0x50 ∉ ascii "fields" by decide))
      · exact hfree column text (List.mem_append_right _ (hfields ▸ htext)) hmet
    · cases hm
  · exfalso
    obtain rfl := List.mem_singleton.mp htext
    exact absurd hmet (not_infix_of_no_p (by decide))
  · exact hcolumn .strategy hm
  · exfalso
    rcases List.mem_cons.mp htext with rfl | htext
    · exact absurd hmet (not_infix_of_no_p (show 0x50 ∉ ascii "ts" by decide))
    · rw [Value.texts, List.mem_singleton] at htext
      exact not_infix_of_no_p (htext ▸ not_p_of_toIso8601Utc _) hmet
  · exfalso
    rcases List.mem_cons.mp htext with rfl | htext
    · exact absurd hmet (not_infix_of_no_p (show 0x50 ∉ ascii "type" by decide))
    · rw [Value.texts, List.mem_singleton] at htext
      have htype : ∀ type : EventType, 0x50 ∉ type.toString := by
        intro type
        cases type <;> decide
      exact not_infix_of_no_p (htext ▸ htype _) hmet

/-- The members around a column have other keys. -/
theorem key_ne_of_mem (h : column.member ev ≠ []) {m : Bytes × Value}
    (hm : m ∈ column.before ev ∨ m ∈ column.after ev) : m.1 ≠ ascii column.key := by
  have hnodup := nodup_keys ev
  rw [members_eq ev column, putIfSet, if_neg h, List.singleton_append, List.map_append,
    List.map_cons, List.nodup_append, List.nodup_cons] at hnodup
  obtain ⟨-, ⟨hafter, -⟩, hbefore⟩ := hnodup
  intro hkey
  rcases hm with hm | hm
  · exact hbefore _ (List.mem_map_of_mem hm) _ List.mem_cons_self hkey
  · refine hafter ?_
    show ascii column.key ∈ (column.after ev).map Prod.fst
    rw [← hkey]
    exact List.mem_map_of_mem hm

theorem not_infix_of_mem (hfree : SentinelFree sentinels ev) (h : isPreserved ev column = true)
    {m : Bytes × Value}
    (hm : m ∈ column.before (swap sentinels ev) ∨ m ∈ column.after (swap sentinels ev)) :
    ¬ sentinels.sentinel column <:+: dumpEntry m := by
  intro hmet
  have hmem : m ∈ (swap sentinels ev).members := by
    rw [members_eq _ column]
    rcases hm with hm | hm
    · exact List.mem_append_left _ hm
    · exact List.mem_append_right _ (List.mem_append_right _ hm)
  exact key_ne_of_mem (member_swap_ne h) hm (column_of_word hfree hmem hmet).2

theorem not_infix_nil : ¬ sentinels.sentinel column <:+: [] := fun h =>
  sentinel_ne sentinels column (List.infix_nil.mp h)

theorem not_infix_frontOf (hfree : SentinelFree sentinels ev)
    (h : isPreserved ev column = true) :
    ¬ sentinels.sentinel column <:+: frontOf (swap sentinels ev) column := by
  have hw := isUpperLetter_sentinel sentinels column
  intro hmet
  rcases infix_append_cons hw (c := 0x7B) (by decide) (show _ <:+: [] ++ _ from hmet) with
    hmet | hmet
  · exact not_infix_nil hmet
  · rcases infix_flatMap_trailing hw (c := 0x2C) (b := []) (by decide) (by simpa using hmet) with
      ⟨m, hm, hmet⟩ | hmet
    · exact not_infix_of_mem hfree h (.inl hm) hmet
    · exact not_infix_nil hmet

theorem not_infix_behindOf (hfree : SentinelFree sentinels ev)
    (h : isPreserved ev column = true) :
    ¬ sentinels.sentinel column <:+: behindOf (swap sentinels ev) column := by
  have hw := isUpperLetter_sentinel sentinels column
  intro hmet
  rcases infix_append_cons hw (c := 0x7D) (by decide) hmet with hmet | hmet
  · rcases infix_flatMap_leading hw (c := 0x2C) (a := []) (by decide) hmet with
      hmet | ⟨m, hm, hmet⟩
    · exact not_infix_nil hmet
    · exact not_infix_of_mem hfree h (.inr hm) hmet
  · exact not_infix_nil hmet

/-- A column that is not preserved has no sentinel in the line. -/
theorem not_infix_toJsonLine (hfree : SentinelFree sentinels ev)
    (h : isPreserved ev column = false) :
    ¬ sentinels.sentinel column <:+: toJsonLine (swap sentinels ev) := by
  have hw := isUpperLetter_sentinel sentinels column
  have hmembers : ∀ m ∈ (swap sentinels ev).members,
      ¬ sentinels.sentinel column <:+: dumpEntry m := by
    intro m hm hmet
    rw [(column_of_word hfree hm hmet).1] at h
    cases h
  intro hmet
  rw [toJsonLine, dumpValue] at hmet
  rcases infix_append_cons hw (c := 0x7B) (by decide) (show _ <:+: [] ++ _ from hmet) with
    hmet | hmet
  · exact not_infix_nil hmet
  rcases infix_append_cons hw (c := 0x7D) (by decide) hmet with hmet | hmet
  · cases hms : (swap sentinels ev).members with
    | nil =>
      rw [hms] at hmet
      exact not_infix_nil hmet
    | cons m ms =>
      rw [hms, dumpEntries_cons] at hmet
      rcases infix_flatMap_leading hw (c := 0x2C) (by decide) hmet with
        hmet | ⟨m', hm', hmet⟩
      · exact hmembers m (by simp [hms]) hmet
      · exact hmembers m' (by simp [hms, hm']) hmet
  · exact not_infix_nil hmet

end

end BrokerExec.Observability

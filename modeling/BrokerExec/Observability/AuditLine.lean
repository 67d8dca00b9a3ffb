import BrokerExec.Json.Dumped
import BrokerExec.Json.Scrubbed
import BrokerExec.Observability.Provenance

/-!
# The rendered line as JSON (`observability/structured_logger.cpp`)

An event is dumped as JSON, and the dump goes through a scrubber that does not know JSON. The line
stays what it was, one object with the keys of the event, when all that is hidden lies inside
strings; the columns that are spliced back do not change it.

* **`read_spliceColumns`** — a column is read as its sentinel is.
* **`renderLine_isAuditLine`** — when the rendered line is an object with the keys of the event.
-/

namespace BrokerExec.Observability

open BrokerExec.Domain (LeftOpen Piece cut_iff editsOf editsOf_append editsOf_cons exists_pieces
  isProvenanceIdChar isProvenanceIdShape idShapeLoop scrub scrubEdits source_editsOf)
open BrokerExec.Json

variable {sentinels : Sentinels} {ev : AuditEvent} {column : ProvenanceColumn}

/-! ## Columns spliced back -/

theorem isProvenanceIdChar_of_idShapeLoop {text : Bytes} {segments : Nat}
    {inSegment allLetters allHex : Bool}
    (h : idShapeLoop text segments inSegment allLetters allHex = true) :
    ∀ c ∈ text, isProvenanceIdChar c = true := by
  induction text generalizing segments inSegment allLetters allHex with
  | nil => simp
  | cons c text ih =>
    unfold idShapeLoop at h
    by_cases hc : isProvenanceIdChar c = false
    · rw [if_pos hc] at h
      cases h
    rw [if_neg hc] at h
    rw [Bool.not_eq_false] at hc
    refine List.forall_mem_cons.mpr ⟨hc, ?_⟩
    by_cases halnum : Domain.isAlnum c = true
    · rw [if_pos halnum] at h
      dsimp only at h
      split at h
      · cases h
      · exact ih h
    · rw [if_neg halnum] at h
      exact ih h

theorem isPlainText_member (h : isPreserved ev column = true) :
    IsPlainText (column.member ev) := by
  unfold isPreserved isProvenanceIdShape at h
  split_ifs at h
  intro c hc
  have hchar := isProvenanceIdChar_of_idShapeLoop h c hc
  rw [isProvenanceIdChar, Bool.or_eq_true, beq_iff_eq] at hchar
  rcases hchar with htoken | rfl
  · obtain ⟨hquote, hbackslash, hlow⟩ := token_plain htoken
    exact ⟨hlow, ascii_of_token htoken, hquote, hbackslash⟩
  · decide

/-- Behind a string or a value stand no letters. -/
theorem step_behind {c : UInt8} (hc : c ∈ ascii "abcs:") (s : Spot) :
    (s.goto .behind).step c = none := by
  have hbyte : isBlankByte c = false ∧ c ≠ 0x2C ∧ c ≠ 0x7D ∧ c ≠ 0x5D := by
    have hbytes : ∀ c ∈ ascii "abcs:", isBlankByte c = false ∧ c ≠ 0x2C ∧ c ≠ 0x7D ∧ c ≠ 0x5D := by
      decide
    exact hbytes c hc
  obtain ⟨hblank, hcomma, hbrace, hbracket⟩ := hbyte
  show (s.goto .behind).between c = none
  rw [Spot.between, if_neg (by rw [hblank]; decide)]
  show (s.goto .behind).behindValue c = none
  unfold Spot.behindValue
  split
  · rfl
  · rw [if_neg hcomma, if_neg hbrace]
  · rw [if_neg hcomma, if_neg hbracket]

theorem step_colon {c : UInt8} (hc : c ∈ ascii "abcs") (s : Spot) :
    (s.goto .colon).step c = none := by
  have hbytes : ∀ c ∈ ascii "abcs", isBlankByte c = false ∧ c ≠ 0x3A := by decide
  obtain ⟨hblank, hcolon⟩ := hbytes c hc
  show (s.goto .colon).between c = none
  rw [Spot.between, if_neg (by rw [hblank]; decide)]
  exact if_neg hcolon

/-- A double quote with the key of a column behind it opens a string, or is escaped in one. -/
theorem plain_of_step_quote {s t u : Spot} {c : UInt8} (hc : c ∈ ascii "abcs")
    (ht : s.step 0x22 = some t) (hu : t.step c = some u) : t.Plain := by
  cases hplace : s.place with
  | string role inside =>
    rw [Spot.step_string hplace] at ht
    cases inside with
    | plain =>
      exfalso
      obtain rfl : s.goto role.behind = t := Option.some.inj ht
      have hmem : c ∈ ascii "abcs:" := List.mem_append_left [0x3A] hc
      cases role with
      | value => rw [show Role.value.behind = .behind from rfl, step_behind hmem] at hu; cases hu
      | key => rw [show Role.key.behind = .colon from rfl, step_colon hc] at hu; cases hu
      | topKey => rw [show Role.topKey.behind = .colon from rfl, step_colon hc] at hu; cases hu
    | escape =>
      obtain rfl : s.written role .plain 0x22 = t := Option.some.inj ht
      exact ⟨role, rfl⟩
    | hex left => cases ht
  | _ => exact (Spot.step_outside (s := s) (by rw [Spot.Outside, hplace]; rfl) ht).2.1 rfl

/-- **What stands between the key of a column and its value is read in front of a value only.** -/
theorem inText_of_read_front {s t : Spot}
    (h : s.read (0x22 :: (ascii column.key ++ [0x22, 0x3A, 0x22])) = some t) :
    t.inText = true := by
  obtain ⟨s₁, hs₁, h⟩ := Automaton.run_cons_eq_some.mp h
  obtain ⟨s₂, hs₂, h⟩ := Automaton.run_append_eq_some.mp h
  have hkey : ∃ c cs, ascii column.key = c :: cs ∧ c ∈ ascii "abcs" := by
    cases column <;> exact ⟨_, _, rfl, by decide⟩
  obtain ⟨c, cs, hcons, hc⟩ := hkey
  -- no letter follows a quote that ends a string
  obtain ⟨_, hfirst, -⟩ := Automaton.run_cons_eq_some.mp (hcons ▸ hs₂)
  have hplain := plain_of_step_quote hc hs₁ hfirst
  obtain ⟨role, hplace⟩ := read_plain hplain
    (fun c hc => (isPlainText_key column c hc).2.2) hs₂
  -- the quote ends a key, so a value follows
  have hquote : s₂.step 0x22 = some (s₂.goto role.behind) := by
    rw [Spot.step_string hplace]
    rfl
  rw [Automaton.run_cons_of hquote] at h
  cases role with
  | value =>
    rw [Automaton.run_cons, show Role.value.behind = .behind from rfl,
      step_behind (by decide)] at h
    cases h
  | key =>
    obtain rfl := Option.some.inj h
    rfl
  | topKey =>
    obtain rfl := Option.some.inj h
    rfl

/-- A column is read as any other text in its place. -/
theorem read_renderedPair (s : Spot) (column : ProvenanceColumn) {value value' : Bytes}
    (h : IsPlainText value) (h' : IsPlainText value') :
    s.read (renderedPair column.key value) = s.read (renderedPair column.key value') := by
  have hcut : ∀ value, renderedPair column.key value
      = (0x22 :: (ascii column.key ++ [0x22, 0x3A, 0x22])) ++ (value ++ [0x22]) := by
    intro value
    rw [renderedPair_eq]
    simp
  rw [hcut, hcut, Spot.read, Automaton.run_append, Spot.read, Automaton.run_append]
  refine Option.bind_congr fun t ht => ?_
  have hinText := inText_of_read_front ht
  have hsame : ∀ {value}, IsPlainText value → Automaton.run Spot.step t value = some t :=
    fun h => Spot.read_of_inText hinText fun c hc => ⟨(h c hc).2.2.1, (h c hc).2.2.2, (h c hc).1⟩
  rw [Automaton.run_append_of (hsame h), Automaton.run_append_of (hsame h')]

/-- **The line is read after a splice as it was before.** -/
theorem read_spliceColumns {columns : List ProvenanceColumn} {line line' : Bytes}
    (h : spliceColumns sentinels ev columns line = some line') (s : Spot) :
    s.read line' = s.read line := by
  induction columns generalizing line with
  | nil => rw [Option.some.inj h]
  | cons column columns ih =>
    unfold spliceColumns at h
    split at h
    · next hpreserved =>
      cases hreplaced : replaceFirst (renderedPair column.key (sentinels.sentinel column))
          (renderedPair column.key (column.member ev)) line with
      | none => simp [hreplaced] at h
      | some between =>
        simp only [hreplaced] at h
        obtain ⟨a, b, rfl, rfl⟩ := replaceFirst_eq_some hreplaced
        rw [ih h, Spot.read, Spot.read, List.append_assoc, List.append_assoc, Automaton.run_append,
          Automaton.run_append]
        refine Option.bind_congr fun t _ => ?_
        rw [Automaton.run_append, Automaton.run_append]
        exact congrArg (Option.bind · _) (read_renderedPair t column
          (isPlainText_member hpreserved) (isPlainText_sentinel sentinels column))
    · exact ih h

/-- One line of UTF-8. -/
def IsLine (line : Bytes) : Prop := newline ∉ line ∧ WellFormed line

theorem IsLine.scrub {line : Bytes} (h : IsLine line) : IsLine (scrub line) :=
  ⟨newline_notMem_scrub h.1, scrub_wellFormed h.2⟩

theorem printable_renderedPair {value : Bytes} (h : IsPlainText value) :
    ∀ c ∈ renderedPair column.key value, 0x20 ≤ c ∧ c < 0x80 := by
  rw [renderedPair_eq]
  intro c hc
  simp only [List.mem_cons, List.mem_append, List.not_mem_nil, or_false] at hc
  rcases hc with rfl | hc | rfl | rfl | rfl | hc | rfl
  · decide
  · exact ⟨(isPlainText_key column c hc).1, (isPlainText_key column c hc).2.1⟩
  · decide
  · decide
  · decide
  · exact ⟨(h c hc).1, (h c hc).2.1⟩
  · decide

theorem IsLine.spliceColumns {columns : List ProvenanceColumn} {line line' : Bytes}
    (hline : IsLine line) (h : spliceColumns sentinels ev columns line = some line') :
    IsLine line' := by
  induction columns generalizing line with
  | nil => exact Option.some.inj h ▸ hline
  | cons column columns ih =>
    unfold Observability.spliceColumns at h
    split at h
    · next hpreserved =>
      cases hreplaced : replaceFirst (renderedPair column.key
          (sentinels.sentinel column)) (renderedPair column.key
          (column.member ev)) line with
      | none => simp [hreplaced] at h
      | some between =>
        simp only [hreplaced] at h
        obtain ⟨a, b, rfl, rfl⟩ := replaceFirst_eq_some hreplaced
        -- both pairs are ASCII, so the text around them stays well formed
        refine ih ?_ h
        have hmember : ∀ c ∈ renderedPair column.key (column.member ev),
            0x20 ≤ c ∧ c < 0x80 := printable_renderedPair (isPlainText_member hpreserved)
        have hsentinel : ∀ c ∈ renderedPair column.key (sentinels.sentinel column),
            0x20 ≤ c ∧ c < 0x80 := printable_renderedPair (isPlainText_sentinel sentinels column)
        obtain ⟨hnewline, hwellFormed⟩ := hline
        rw [List.append_assoc] at hwellFormed
        obtain ⟨ha, hb⟩ := wellFormed_around (List.cons_ne_nil _ _)
          (fun c hc => (hsentinel c hc).2) hwellFormed
        refine ⟨?_, (ha.append (.of_ascii fun c hc => (hmember c hc).2)).append hb⟩
        rw [List.mem_append, List.mem_append, not_or, not_or] at hnewline ⊢
        exact ⟨⟨hnewline.1.1, fun hmem => absurd (hmember _ hmem).1 (by decide)⟩, hnewline.2⟩
    · exact ih hline h

/-! ## The line of an event -/

theorem numeric_members (h : ev.fields.numeric = true) : numericEntries ev.members = true := by
  have hput : ∀ key value, ∀ m ∈ putIfSet key value, m.2.numeric = true := by
    intro key value m hm
    unfold putIfSet at hm
    split at hm
    · cases hm
    · rw [List.mem_singleton.mp hm]
      rfl
  have hfields : ∀ m ∈ putFields ev.fields, m.2.numeric = true := by
    intro m hm
    unfold putFields at hm
    split at hm
    · next heq =>
      rw [List.mem_singleton.mp hm, ← heq]
      exact h
    · cases hm
  rw [numericEntries_iff]
  intro m hm
  simp only [AuditEvent.members, List.mem_append, List.mem_cons, List.not_mem_nil, or_false] at hm
  rcases hm with ((((((hm | hm) | hm) | hm) | hm) | rfl) | hm) | rfl | rfl
  · exact hput _ _ m hm
  · exact hput _ _ m hm
  · exact hput _ _ m hm
  · exact hput _ _ m hm
  · exact hfields m hm
  · rfl
  · exact hput _ _ m hm
  · rfl
  · rfl

theorem isLine_toJsonLine (h : ev.fields.numeric = true) : IsLine (toJsonLine ev) :=
  ⟨newline_notMem_dumpValue (numeric_members h), dumpValue_wellFormed (numeric_members h)⟩

theorem topKeys_toJsonLine (h : ev.fields.numeric = true) :
    topKeys (toJsonLine ev) = some ((ev.members.map Prod.fst).map keyText) := by
  rw [toJsonLine, topKeys_dumpValue (numeric_members h), List.map_map]
  rfl

/-- A sentinel stands for a column that carries a value. -/
theorem keys_swap (sentinels : Sentinels) (ev : AuditEvent) :
    (swap sentinels ev).members.map Prod.fst = ev.members.map Prod.fst := by
  have hput : ∀ column : ProvenanceColumn, ∀ key,
      (putIfSet key (swapped sentinels ev column)).map Prod.fst
        = (putIfSet key (column.member ev)).map Prod.fst := by
    intro column key
    unfold swapped
    split
    · next hpreserved =>
      rw [putIfSet, putIfSet, if_neg (sentinel_ne sentinels column), if_neg (member_ne hpreserved)]
      rfl
    · rfl
  simp only [AuditEvent.members, List.map_append]
  exact congrArg₂ _ (congrArg₂ _ (congrArg₂ _ (congrArg₂ _ (congrArg₂ _ (congrArg₂ _ (congrArg₂ _
    (hput .account _) (hput .broker _)) (hput .brokerOrderId _)) (hput .clientRef _)) rfl) rfl)
    (hput .strategy _)) rfl

theorem topKeys_congr {text text' : Bytes}
    (h : Spot.initial.read text = Spot.initial.read text') : topKeys text = topKeys text' := by
  rw [topKeys, topKeys, h]

theorem topKeys_eq_some {text : Bytes} {keys : List Bytes} (h : topKeys text = some keys) :
    Spot.initial.read text = some ⟨.behind, [], keys.reverse⟩ := by
  unfold topKeys at h
  split at h
  · next hread =>
    rw [hread, ← Option.some.inj h, List.reverse_reverse]
  · cases h

/-! ## Columns that are out of reach -/

/-- What a value left open hides reaches over a double quote. -/
theorem exists_hidden_of_leftOpen (hcolumn : isPreserved ev column = true)
    (hopen : LeftOpen (frontOf (swap sentinels ev) column)) :
    ∃ fs gs v v', scrubEdits (toJsonLine (swap sentinels ev)).length []
        (toJsonLine (swap sentinels ev)) = fs ++ .hide (v ++ 0x22 :: v') :: gs
      ∧ frontOf (swap sentinels ev) column = Edit.source fs ++ v := by
  obtain ⟨pieces, htext, h, -⟩ := exists_pieces (toJsonLine (swap sentinels ev))
  have hedits := h.scrubEdits le_rfl
  rw [htext] at hedits
  rw [toJsonLine_swap hcolumn, renderedPair_eq] at htext
  rcases h.cut htext getLast?_frontOf with hround | ⟨ps, kv, qs, v, v', rfl, -, hfront, hvalue⟩
  · exact absurd hopen ((cut_iff h htext getLast?_frontOf).mp hround)
  refine ⟨editsOf ps ++ [.keep kv.front], editsOf qs, v, v', ?_, ?_⟩
  · rw [hedits, editsOf_append, editsOf_cons, Piece.edits, ← hvalue]
    simp
  · rw [hfront, Edit.source_append, source_editsOf]
    simp [Edit.chars]

/-- In front of a column the reader expects a key of the outermost object. -/
theorem read_frontOf (h : ev.fields.numeric = true) (column : ProvenanceColumn) :
    ∃ t, Spot.initial.read (frontOf ev column) = some t ∧ t.BeginsKey
      ∧ t.containers = [.object] := by
  have hbefore : numericEntries (column.before ev) = true := by
    rw [numericEntries_iff]
    intro m hm
    refine numericEntries_iff.mp (numeric_members h) m ?_
    rw [members_eq ev column]
    exact List.mem_append_left _ hm
  have hbrace : Spot.initial.step 0x7B = some (Spot.initial.opened .object) := rfl
  rw [frontOf, Spot.read, Automaton.run_cons_of hbrace]
  exact read_members hbefore (.inr rfl) rfl

/-- **What is hidden inside strings leaves no value open at a column.** -/
theorem closed_of_scrubsInside (hnumeric : ev.fields.numeric = true)
    (h : scrubsInside (toJsonLine (swap sentinels ev)) = true)
    (hcolumn : isPreserved ev column = true) :
    ¬ LeftOpen (frontOf (swap sentinels ev) column) := by
  intro hopen
  obtain ⟨fs, gs, v, v', hedits, hfront⟩ := exists_hidden_of_leftOpen hcolumn hopen
  rw [scrubsInside, hedits] at h
  obtain ⟨s, hs, hhide⟩ := Automaton.hidesInside_append h
  rw [Automaton.hidesInside, Bool.and_eq_true, Bool.or_eq_true, List.isEmpty_iff,
    Bool.and_eq_true, decide_eq_true_eq] at hhide
  have hback : s.read (v ++ 0x22 :: v') = some s := by
    rcases hhide.1 with hempty | ⟨-, hback⟩
    · exact absurd hempty (by simp)
    · exact hback
  have hswap : (swap sentinels ev).fields.numeric = true := hnumeric
  obtain ⟨t, ht, hbegins, hcontainers⟩ := read_frontOf hswap column
  obtain ⟨t', ht', hrest⟩ := Automaton.run_append_eq_some.mp hback
  obtain rfl : t = t' := by
    rw [hfront, Spot.read, Automaton.run_append_of hs, ht'] at ht
    exact (Option.some.inj ht).symm
  -- a key is begun behind `v`, and the keys are never fewer again
  have hlonger : t.keys.length < s.keys.length := by
    rw [Automaton.run_cons_of hbegins.step] at hrest
    refine lt_of_lt_of_le ?_ (Spot.length_keys_read hrest)
    rw [Spot.beginKey, if_pos hcontainers]
    exact Nat.lt_succ_self _
  exact absurd (Spot.length_keys_read ht') (not_le.mpr hlonger)

/-- Nor does what holds no double quote. -/
theorem closed_of_hidesNoQuote (h : hidesNoQuote (toJsonLine (swap sentinels ev)) = true)
    (hcolumn : isPreserved ev column = true) :
    ¬ LeftOpen (frontOf (swap sentinels ev) column) := by
  intro hopen
  obtain ⟨fs, gs, v, v', hedits, -⟩ := exists_hidden_of_leftOpen hcolumn hopen
  have hmem : .hide (v ++ 0x22 :: v') ∈ scrubEdits (toJsonLine (swap sentinels ev)).length []
      (toJsonLine (swap sentinels ev)) := by
    rw [hedits]
    simp
  exact not_quote_of_hidesNoQuote h hmem (by simp)

theorem swap_eq_self (h : kProvenanceColumns.any (isPreserved ev) = false) :
    swap sentinels ev = ev := by
  have hswapped : ∀ column, swapped sentinels ev column = column.member ev := by
    intro column
    refine if_neg fun hpreserved => ?_
    rw [List.any_eq_false] at h
    exact h column (by cases column <;> decide) hpreserved
  simp only [swap, hswapped]
  rfl

theorem spliceColumns_of_spliced {line : Bytes} (h : spliced sentinels ev = some line) :
    spliceColumns sentinels ev kProvenanceColumns (scrubbedLine (swap sentinels ev))
      = some line := by
  unfold spliced at h
  split at h
  · cases h
  · next hcolumns =>
    split at h
    · cases h
    · rw [hcolumns, h]

/-- The line is the scrubbed one with columns spliced back, or the fallback. -/
theorem renderLine_eq (sentinels : Sentinels) (ev : AuditEvent) :
    spliceColumns sentinels ev kProvenanceColumns (scrubbedLine (swap sentinels ev))
        = some (renderLine sentinels ev)
      ∨ renderLine sentinels ev = scrubbedLine ev := by
  unfold renderLine
  split
  · exact .inr rfl
  · split
    · next hspliced => exact .inl (spliceColumns_of_spliced hspliced)
    · exact .inr rfl

/-- **Without a value left open at a column the fallback is not taken.** -/
theorem spliceColumns_renderLine (hfree : SentinelFree sentinels ev)
    (hclosed : ∀ column, isPreserved ev column = true →
      ¬ LeftOpen (frontOf (swap sentinels ev) column)) :
    spliceColumns sentinels ev kProvenanceColumns (scrubbedLine (swap sentinels ev))
      = some (renderLine sentinels ev) := by
  unfold renderLine
  split
  · next hnone =>
    have hother : ∀ column, isPreserved ev column = false := by
      intro column
      rw [List.any_eq_false] at hnone
      exact Bool.eq_false_of_not_eq_true (hnone column (by cases column <;> decide))
    rw [swap_eq_self hnone]
    simp [kProvenanceColumns, spliceColumns, hother]
  · obtain ⟨line, hspliced, -⟩ := exists_spliced hfree hclosed
    rw [hspliced]
    exact spliceColumns_of_spliced hspliced

/-! ## Audit lines -/

/-- One line of UTF-8 that is a JSON object with the keys of the event's own text. -/
def IsAuditLine (ev : AuditEvent) (line : Bytes) : Prop :=
  newline ∉ line ∧ WellFormed line
    ∧ ∃ keys, topKeys line = some keys ∧ topKeys (toJsonLine ev) = some keys

/-- All that the scrub hides lies inside strings: in the line with the sentinels, and in the line of
the fallback when a sentinel could be among the caller's texts. -/
def HiddenInside (sentinels : Sentinels) (ev : AuditEvent) : Prop :=
  scrubsInside (toJsonLine (swap sentinels ev)) = true
    ∧ (SentinelFree sentinels ev ∨ scrubsInside (toJsonLine ev) = true)

theorem topKeys_scrubbedLine (hnumeric : ev.fields.numeric = true)
    (h : scrubsInside (toJsonLine ev) = true) :
    topKeys (scrubbedLine ev) = some ((ev.members.map Prod.fst).map keyText) := by
  rw [scrubbedLine, topKeys_congr (read_scrub h), topKeys_toJsonLine hnumeric]

theorem isAuditLine_of_hiddenInside (hnumeric : ev.fields.numeric = true)
    (h : HiddenInside sentinels ev) : IsAuditLine ev (renderLine sentinels ev) := by
  obtain ⟨hswap, hfallback⟩ := h
  have hswapNumeric : (swap sentinels ev).fields.numeric = true := hnumeric
  have hspliced : spliceColumns sentinels ev kProvenanceColumns
        (scrubbedLine (swap sentinels ev)) = some (renderLine sentinels ev) →
      IsAuditLine ev (renderLine sentinels ev) := by
    intro hcolumns
    have hline := (isLine_toJsonLine hswapNumeric).scrub.spliceColumns hcolumns
    refine ⟨hline.1, hline.2, _, ?_, topKeys_toJsonLine hnumeric⟩
    rw [topKeys_congr (read_spliceColumns hcolumns _), topKeys_scrubbedLine hswapNumeric hswap,
      keys_swap]
  -- a sentinel that a caller has guessed may lead to the fallback
  rcases hfallback with hfree | hev
  · exact hspliced (spliceColumns_renderLine hfree fun _ => closed_of_scrubsInside hnumeric hswap)
  · rcases renderLine_eq sentinels ev with hcolumns | hscrubbed
    · exact hspliced hcolumns
    · have hline := (isLine_toJsonLine hnumeric).scrub
      rw [hscrubbed]
      exact ⟨hline.1, hline.2, _, topKeys_scrubbedLine hnumeric hev, topKeys_toJsonLine hnumeric⟩

theorem hiddenInside_of_isAuditLine (hnumeric : ev.fields.numeric = true)
    (hfree : SentinelFree sentinels ev)
    (hquotes : hidesNoQuote (toJsonLine (swap sentinels ev)) = true)
    (h : IsAuditLine ev (renderLine sentinels ev)) : HiddenInside sentinels ev := by
  refine ⟨?_, .inl hfree⟩
  obtain ⟨-, -, keys, hkeys, hevent⟩ := h
  have hcolumns := spliceColumns_renderLine hfree fun _ => closed_of_hidesNoQuote hquotes
  have hread := topKeys_eq_some hkeys
  rw [read_spliceColumns hcolumns] at hread
  have hswap : (swap sentinels ev).fields.numeric = true := hnumeric
  have hsource := topKeys_eq_some (topKeys_toJsonLine hswap)
  refine scrubsInside_of_reads hquotes hsource rfl hread rfl ?_
  -- no key of an event has a star
  rw [topKeys_toJsonLine hnumeric] at hevent
  have hstar : ∀ key ∈ reservedKeys, 0x2A ∉ keyText key := by decide +kernel
  intro hmem
  obtain ⟨text, htext, hmem⟩ := List.mem_flatten.mp hmem
  rw [← Option.some.inj hevent, List.mem_reverse] at htext
  obtain ⟨key, hkey, rfl⟩ := List.mem_map.mp htext
  exact hstar key ((members_keys_sublist ev).subset hkey) hmem

/-- **The rendered line is an audit line when all that is hidden lies inside strings**, and only
then where no hidden stretch holds a double quote. -/
theorem renderLine_isAuditLine (sentinels : Sentinels) (ev : AuditEvent)
    (hnumeric : ev.fields.numeric = true) :
    (HiddenInside sentinels ev → IsAuditLine ev (renderLine sentinels ev))
      ∧ (SentinelFree sentinels ev →
        hidesNoQuote (toJsonLine (swap sentinels ev)) = true →
        (IsAuditLine ev (renderLine sentinels ev) ↔ HiddenInside sentinels ev)) :=
  ⟨isAuditLine_of_hiddenInside hnumeric, fun hfree hquotes =>
    ⟨hiddenInside_of_isAuditLine hnumeric hfree hquotes, isAuditLine_of_hiddenInside hnumeric⟩⟩

/-- A secret without quotes is hidden inside the reason. -/
theorem plain_secret_reads :
    IsAuditLine (rejected (ascii "token=abc expired"))
      (renderLine .constant (rejected (ascii "token=abc expired"))) :=
  (renderLine_isAuditLine .constant (rejected (ascii "token=abc expired")) (by decide)).1
    ⟨by decide +kernel, .inl (sentinelFree_rejected (by decide))⟩

/-- An error with a number among its fields. -/
def failed (key : String) (value : Int) : AuditEvent where
  type := .error
  ts := 0
  strategy := []
  broker := []
  account := []
  clientRef := []
  brokerOrderId := []
  fields := .object [(ascii key, .int value)]

/-- A quoted secret loses the backslash of its quote, and a number becomes the bare marker. -/
theorem quoted_secret_breaks :
    renderLine .constant (failed "token" 123)
        = ascii "\x7b\"fields\":\x7b\"token\":***REDACTED***\x7d,\"schema_version\":1,"
          ++ ascii "\"ts\":\"1970-01-01T00:00:00Z\",\"type\":\"error\"\x7d"
      ∧ ¬ IsAuditLine (failed "token" 123) (renderLine .constant (failed "token" 123))
      ∧ ¬ IsAuditLine (rejected (ascii "token=\"abc\" expired"))
        (renderLine .constant (rejected (ascii "token=\"abc\" expired"))) := by
  refine ⟨by decide +kernel, ?_, ?_⟩
  · rintro ⟨-, -, keys, hkeys, -⟩
    have hnone : topKeys (renderLine .constant (failed "token" 123)) = none := by decide +kernel
    rw [hnone] at hkeys
    cases hkeys
  · rintro ⟨-, -, keys, hkeys, -⟩
    have hnone : topKeys
        (renderLine .constant (rejected (ascii "token=\"abc\" expired"))) = none := by
      decide +kernel
    rw [hnone] at hkeys
    cases hkeys

end BrokerExec.Observability

import BrokerExec.Domain.Redaction
import BrokerExec.Lib.Segments

/-!
# The provenance block (`domain/redaction.cpp`)

* **`BlockParses`** is the grammar of a block, with no more said of keys and values than that a
  key ends at its first `=` and a field at the next space.
* **`renderProvenanceBlock_parses`** — a rendered block is empty, or parses as the fields that have
  a value and a safe key and as nothing else; what it shows of a value is short and plain.
-/

namespace BrokerExec.Domain

/-! ## The grammar -/

def space : UInt8 := 0x20

def pairText (pair : Bytes × Bytes) : Bytes := pair.1 ++ 0x3D :: pair.2

/-- `' [' key '=' value (' ' key '=' value)* ']'`. -/
def BlockParses (block : Bytes) (pairs : List (Bytes × Bytes)) : Prop :=
  (∀ pair ∈ pairs, 0x3D ∉ pair.1 ∧ space ∉ pair.1 ∧ space ∉ pair.2)
    ∧ ∃ first rest, pairs = first :: rest
      ∧ block = ascii " [" ++ pairText first ++ joined space (rest.map pairText) ++ ascii "]"

theorem pairText_inj {pair pair' : Bytes × Bytes} (hpair : 0x3D ∉ pair.1) (hpair' : 0x3D ∉ pair'.1)
    (h : pairText pair = pairText pair') : pair = pair' := by
  obtain ⟨hkey, hrest⟩ := append_inj_of_stop (P := (· ≠ 0x3D))
    (fun c hc => ne_of_mem_of_not_mem hc hpair) (fun c hc => ne_of_mem_of_not_mem hc hpair')
    (by simp) (by simp) h
  exact Prod.ext hkey (List.cons.inj hrest).2

theorem space_not_mem_pairText {pair : Bytes × Bytes} (hkey : space ∉ pair.1)
    (hvalue : space ∉ pair.2) : space ∉ pairText pair := by
  unfold pairText
  rw [List.mem_append, List.mem_cons]
  rintro (hin | heq | hin)
  · exact hkey hin
  · exact absurd heq (by decide)
  · exact hvalue hin

/-- Fields are told apart by their keys' ends. -/
theorem map_pairText_inj {pairs pairs' : List (Bytes × Bytes)}
    (hpairs : ∀ pair ∈ pairs, 0x3D ∉ pair.1) (hpairs' : ∀ pair ∈ pairs', 0x3D ∉ pair.1)
    (h : pairs.map pairText = pairs'.map pairText) : pairs = pairs' := by
  induction pairs generalizing pairs' with
  | nil => exact (List.map_eq_nil_iff.mp h.symm).symm
  | cons pair pairs ih =>
    cases pairs' with
    | nil => cases h
    | cons pair' pairs' =>
      obtain ⟨hfirst, hrest⟩ := List.cons.inj h
      rw [pairText_inj (hpairs pair List.mem_cons_self) (hpairs' pair' List.mem_cons_self) hfirst,
        ih (fun p hp => hpairs p (List.mem_cons_of_mem _ hp))
          (fun p hp => hpairs' p (List.mem_cons_of_mem _ hp)) hrest]

/-- **The grammar is unambiguous.** -/
theorem BlockParses.unique {block : Bytes} {pairs pairs' : List (Bytes × Bytes)}
    (h : BlockParses block pairs) (h' : BlockParses block pairs') : pairs = pairs' := by
  obtain ⟨hpairs, first, rest, rfl, hblock⟩ := h
  obtain ⟨hpairs', first', rest', rfl, hblock'⟩ := h'
  have hplain : ∀ pairs : List (Bytes × Bytes),
      (∀ pair ∈ pairs, 0x3D ∉ pair.1 ∧ space ∉ pair.1 ∧ space ∉ pair.2) →
      ∀ segment ∈ pairs.map pairText, space ∉ segment := by
    intro pairs hpairs segment hsegment
    obtain ⟨pair, hpair, rfl⟩ := List.mem_map.mp hsegment
    exact space_not_mem_pairText (hpairs pair hpair).2.1 (hpairs pair hpair).2.2
  have htext : joined space ((first :: rest).map pairText)
      = joined space ((first' :: rest').map pairText) := by
    rw [hblock, List.append_left_inj, List.append_assoc, List.append_assoc,
      List.append_right_inj] at hblock'
    rw [List.map_cons, List.map_cons, joined_cons, joined_cons, hblock']
  exact map_pairText_inj (fun pair hpair => (hpairs pair hpair).1)
    (fun pair hpair => (hpairs' pair hpair).1)
    (joined_inj (hplain _ hpairs) (hplain _ hpairs') htext)

/-! ## What is rendered -/

/-- What a field shows of its value. -/
def shownValue (field : ProvenanceField) : Bytes :=
  let rendered := renderColumn field
  if kMaxProvenanceIdChars < rendered.length ∨ isBlockSafe rendered = false then kRedactionMarker
  else rendered

/-- The field has a value and a safe key. -/
def isShown (field : ProvenanceField) : Bool := field.value ≠ [] && isBlockSafeKey field.key

def shownPairs (fields : List ProvenanceField) : List (Bytes × Bytes) :=
  (fields.filter isShown).map fun field => (field.key, shownValue field)

theorem renderField_eq (field : ProvenanceField) :
    renderField field = pairText (field.key, shownValue field) := by
  unfold renderField pairText shownValue
  rw [List.append_assoc]
  rfl

theorem renderFields_cons (field : ProvenanceField) (fields : List ProvenanceField)
    (block : Bytes) :
    renderFields (field :: fields) block = renderFields fields
      (if isShown field then
        block ++ (if block = [] then ascii " [" else ascii " ") ++ renderField field
      else block) := by
  rw [renderFields]
  by_cases hvalue : field.value = []
  · simp [isShown, hvalue]
  · by_cases hkey : isBlockSafeKey field.key = false
    · simp [isShown, hkey]
    · have hshown : isShown field = true := by simpa [isShown, hvalue] using hkey
      rw [if_neg (by simp [hvalue, hkey]), if_pos hshown]

/-- Behind a field that was rendered. -/
theorem renderFields_of_ne {block : Bytes} (hblock : block ≠ []) (fields : List ProvenanceField) :
    renderFields fields block = block ++ joined space ((shownPairs fields).map pairText) := by
  induction fields generalizing block with
  | nil => simp [renderFields, shownPairs]
  | cons field fields ih =>
    rw [renderFields_cons]
    unfold shownPairs at ih ⊢
    cases hshown : isShown field with
    | false => rw [if_neg Bool.false_ne_true, ih hblock, List.filter_cons_of_neg (by simp [hshown])]
    | true =>
      rw [if_pos rfl, if_neg hblock, ih (by simp [hblock]), List.filter_cons_of_pos hshown,
        List.map_cons, List.map_cons, joined_cons, renderField_eq]
      simp [space, ascii]

theorem renderFields_nil (fields : List ProvenanceField) :
    renderFields fields [] = match shownPairs fields with
      | [] => []
      | first :: rest => ascii " [" ++ pairText first ++ joined space (rest.map pairText) := by
  induction fields with
  | nil => rfl
  | cons field fields ih =>
    rw [renderFields_cons]
    cases hshown : isShown field with
    | false =>
      have hskip : shownPairs (field :: fields) = shownPairs fields := by
        unfold shownPairs
        rw [List.filter_cons_of_neg (by simp [hshown])]
      rw [if_neg Bool.false_ne_true, ih, hskip]
    | true =>
      have hcons : shownPairs (field :: fields)
          = (field.key, shownValue field) :: shownPairs fields := by
        unfold shownPairs
        rw [List.filter_cons_of_pos hshown, List.map_cons]
      rw [if_pos rfl, if_pos rfl, hcons, renderFields_of_ne (by simp [ascii]), renderField_eq]
      rfl

/-! ## What is shown is plain -/

theorem shownValue_plain (field : ProvenanceField) :
    (shownValue field).length ≤ kMaxProvenanceIdChars ∧ isBlockSafe (shownValue field) = true := by
  unfold shownValue
  dsimp only
  split_ifs with hunsafe
  · decide
  · rw [not_or, Nat.not_lt, Bool.not_eq_false] at hunsafe
    exact hunsafe

theorem not_mem_of_isBlockSafe {text : Bytes} (h : isBlockSafe text = true) {c : UInt8}
    (hc : (isProvenanceIdChar c || c == 0x2A) = false) : c ∉ text := by
  intro hin
  have hsafe := List.all_eq_true.mp h c hin
  rw [hc] at hsafe
  cases hsafe

theorem not_mem_of_isBlockSafeKey {key : Bytes} (h : isBlockSafeKey key = true) {c : UInt8}
    (hc : isProvenanceIdChar c = false) : c ∉ key := by
  intro hin
  have hsafe := List.all_eq_true.mp (Bool.and_eq_true_iff.mp h).2 c hin
  rw [hc] at hsafe
  cases hsafe

theorem shownPairs_plain (fields : List ProvenanceField) :
    ∀ pair ∈ shownPairs fields, 0x3D ∉ pair.1 ∧ space ∉ pair.1 ∧ space ∉ pair.2 := by
  intro pair hpair
  obtain ⟨field, hfield, rfl⟩ := List.mem_map.mp hpair
  have hkey := (Bool.and_eq_true_iff.mp (List.mem_filter.mp hfield).2).2
  exact ⟨not_mem_of_isBlockSafeKey hkey (by decide), not_mem_of_isBlockSafeKey hkey (by decide),
    not_mem_of_isBlockSafe (shownValue_plain field).2 (by decide)⟩

/-- **A block cannot be forged from a column.** -/
theorem renderProvenanceBlock_parses (fields : List ProvenanceField) :
    (shownPairs fields = [] → renderProvenanceBlock fields = [])
      ∧ (shownPairs fields ≠ [] → ∀ pairs,
        BlockParses (renderProvenanceBlock fields) pairs ↔ pairs = shownPairs fields)
      ∧ ∀ pair ∈ shownPairs fields, pair.2.length ≤ 128
        ∧ ∀ c ∈ pair.2, isAlnum c = true ∨ c = 0x5F ∨ c = 0x23 ∨ c = 0x2A ∨ c = 0x2D := by
  refine ⟨fun hnone => ?_, fun hsome pairs => ?_, fun pair hpair => ?_⟩
  · unfold renderProvenanceBlock
    rw [renderFields_nil, hnone]
    rfl
  · have hparses : BlockParses (renderProvenanceBlock fields) (shownPairs fields) := by
      obtain ⟨first, rest, hpairs⟩ := List.exists_cons_of_ne_nil hsome
      refine ⟨shownPairs_plain fields, first, rest, hpairs, ?_⟩
      unfold renderProvenanceBlock
      rw [renderFields_nil, hpairs]
      exact if_neg (by simp [ascii])
    refine ⟨fun h => h.unique hparses, ?_⟩
    rintro rfl
    exact hparses
  · obtain ⟨field, -, rfl⟩ := List.mem_map.mp hpair
    obtain ⟨hlength, hsafe⟩ := shownValue_plain field
    refine ⟨hlength, fun c hc => ?_⟩
    have hchar := List.all_eq_true.mp hsafe c hc
    simp only [isProvenanceIdChar, isTokenChar, Bool.or_eq_true, beq_iff_eq] at hchar
    simp only [isAlnum, Bool.or_eq_true]
    tauto

end BrokerExec.Domain

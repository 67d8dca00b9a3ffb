import BrokerExec.Adapters.SquareOffExit
import BrokerExec.Domain.StrategyName
import BrokerExec.Idempotency

/-!
# Client references (`idempotency/idempotency.cpp`)

A parent reference is `<strategy>-<sig8>-<uuid>`; a slice of it ends in `#<k>`, an exit in `#X`.

* **`strategy_attributable`** — every reference that an accepted name mints has the shape of an
  identifier and is printed whole, and so is the name; slices lead back to their parent.
-/

namespace BrokerExec.Idempotency

open BrokerExec.Domain

/-! ## Slices -/

def kChildSep : UInt8 := 0x23

/-- `child_ref`; slices count from 1. -/
def childRef (parentClientRef : Bytes) (k : Int32) : Bytes :=
  parentClientRef ++ kChildSep :: decimal (if k < 1 then 1 else k).toInt

/-- `rfind('#')`. -/
def lastChildSep (clientRef : Bytes) : Option Nat :=
  (clientRef.reverse.findIdx? (· = kChildSep)).map fun behind => clientRef.length - 1 - behind

/-- Something stands in front of the last `#`, and something behind it. -/
def isChildRef (clientRef : Bytes) : Bool :=
  match lastChildSep clientRef with
  | none => false
  | some pos => 0 < pos && pos + 1 < clientRef.length

def parentOf (childClientRef : Bytes) : Bytes :=
  match lastChildSep childClientRef with
  | none => []
  | some pos => if isChildRef childClientRef = false then [] else childClientRef.take pos

example : parentOf (childRef (ascii "alpha-1a2b3c4d-u") 7) = ascii "alpha-1a2b3c4d-u" := by decide

theorem lastChildSep_of_not_mem {clientRef : Bytes} (h : kChildSep ∉ clientRef) :
    lastChildSep clientRef = none := by
  unfold lastChildSep
  rw [Option.map_eq_none_iff, List.findIdx?_eq_none_iff]
  intro c hc
  rw [List.mem_reverse] at hc
  simpa using ne_of_mem_of_not_mem hc h

theorem lastChildSep_append {parent suffix : Bytes} (h : kChildSep ∉ suffix) :
    lastChildSep (parent ++ kChildSep :: suffix) = some parent.length := by
  have hfind : (parent ++ kChildSep :: suffix).reverse.findIdx? (· = kChildSep)
      = some suffix.length := by
    rw [List.reverse_append, List.reverse_cons, List.append_assoc, List.singleton_append,
      List.findIdx?_append]
    have hnone : suffix.reverse.findIdx? (· = kChildSep) = none := by
      rw [List.findIdx?_eq_none_iff]
      intro c hc
      rw [List.mem_reverse] at hc
      simpa using ne_of_mem_of_not_mem hc h
    rw [hnone, List.findIdx?_cons, if_pos (by simp)]
    simp
  unfold lastChildSep
  rw [hfind, Option.map_some, List.length_append, List.length_cons]
  congr 1
  omega

theorem not_mem_decimal_childSep (i : Int) : kChildSep ∉ decimal i := by
  intro h
  rcases mem_decimal h with hdigit | hminus
  · exact absurd hdigit (by decide)
  · exact absurd hminus (by decide)

theorem decimal_ne_nil (i : Int) : decimal i ≠ [] := by
  cases i with
  | ofNat n => exact decimalNat_ne_nil n
  | negSucc n => exact List.cons_ne_nil _ _

/-- A suffix of its own leads back to what it was put behind, if only to nothing. -/
theorem parentOf_append (parent : Bytes) {suffix : Bytes} (hsuffix : suffix ≠ [])
    (hsep : kChildSep ∉ suffix) : parentOf (parent ++ kChildSep :: suffix) = parent := by
  have hlast : lastChildSep (parent ++ kChildSep :: suffix) = some parent.length :=
    lastChildSep_append hsep
  rw [parentOf, hlast]
  dsimp only
  by_cases hparent : parent = []
  · rw [if_pos (by rw [isChildRef, hlast, hparent]; rfl), hparent]
  · have hpos := List.length_pos_iff.mpr hparent
    rw [if_neg (by rw [isChildRef, hlast]; simp [hsuffix, hpos]), List.take_left]

theorem parentOf_childRef (parent : Bytes) (k : Int32) : parentOf (childRef parent k) = parent :=
  parentOf_append parent (decimal_ne_nil _) (not_mem_decimal_childSep _)

/-! ## What is minted -/

def isLowerHex (c : UInt8) : Bool := isDigit c || (97 ≤ c && c ≤ 102)

/-- A SHA-256 digest in lowercase hex. -/
def IsSignature (signature : Bytes) : Prop :=
  signature.length = 64 ∧ ∀ c ∈ signature, isLowerHex c = true

/-- `8-4-4-4-12` hex digits. -/
def IsUuid (uuid : Bytes) : Prop :=
  ∃ a b c d e : Bytes, uuid = a ++ 0x2D :: (b ++ 0x2D :: (c ++ 0x2D :: (d ++ 0x2D :: e)))
    ∧ a.length = 8 ∧ b.length = 4 ∧ c.length = 4 ∧ d.length = 4 ∧ e.length = 12
    ∧ ∀ group ∈ [a, b, c, d, e], ∀ h ∈ group, isHexDigit h = true

/-! ## Its shape -/

theorem isAlnum_of_isHexDigit {c : UInt8} (h : isHexDigit c = true) : isAlnum c = true := by
  simp only [isHexDigit, isAlnum, isLetter, isUpperLetter, isDigit, Bool.or_eq_true,
    Bool.and_eq_true, decide_eq_true_eq, UInt8.le_iff_toNat_le, UInt8.reduceToNat] at h ⊢
  omega

theorem shape_hex {group : Bytes} (hne : group ≠ []) (h : ∀ c ∈ group, isHexDigit c = true) :
    Shape group 1 := by
  refine .segment hne (fun c hc => isAlnum_of_isHexDigit (h c hc)) ?_
  simp [isMixed, List.all_eq_true.mpr h]

/-- A hyphen, and a shape behind it. -/
theorem shape_hyphen {text text' : Bytes} {count count' : Nat} (h : Shape text count)
    (h' : Shape text' count') : Shape (text ++ 0x2D :: text') (count + count') :=
  Shape.append_separator (by decide) (by decide) h h'

theorem shape_uuid {uuid : Bytes} (h : IsUuid uuid) : Shape uuid 5 := by
  obtain ⟨a, b, c, d, e, rfl, ha, hb, hc, hd, he, hhex⟩ := h
  have hgroup : ∀ group ∈ [a, b, c, d, e], 0 < group.length → Shape group 1 :=
    fun group hgroup hpos => shape_hex (List.length_pos_iff.mp hpos) (hhex group hgroup)
  exact shape_hyphen (hgroup a (by simp) (by omega))
    (shape_hyphen (hgroup b (by simp) (by omega))
      (shape_hyphen (hgroup c (by simp) (by omega))
        (shape_hyphen (hgroup d (by simp) (by omega)) (hgroup e (by simp) (by omega)))))

theorem length_uuid {uuid : Bytes} (h : IsUuid uuid) : uuid.length = 36 := by
  obtain ⟨a, b, c, d, e, rfl, ha, hb, hc, hd, he, -⟩ := h
  simp only [List.length_append, List.length_cons]
  omega

theorem not_mem_uuid {uuid : Bytes} (h : IsUuid uuid) : kChildSep ∉ uuid := by
  obtain ⟨a, b, c, d, e, rfl, -, -, -, -, -, hhex⟩ := h
  have hgroup : ∀ group ∈ [a, b, c, d, e], kChildSep ∉ group := fun group hgroup hin =>
    absurd (hhex group hgroup _ hin) (by decide)
  have hhyphen : kChildSep ≠ 0x2D := by decide
  simp only [List.mem_append, List.mem_cons, not_or]
  exact ⟨hgroup a (by simp), hhyphen, hgroup b (by simp), hhyphen, hgroup c (by simp), hhyphen,
    hgroup d (by simp), hhyphen, hgroup e (by simp)⟩

/-- What every minted reference is made of. -/
structure Minted (ref : Bytes) : Prop where
  shape : ∃ count, Shape ref count ∧ 2 ≤ count
  length_le : ref.length ≤ 110
  not_mem_childSep : kChildSep ∉ ref
  ne_nil : ref ≠ []

theorem minted_makeClientRef {name signature uuid : Bytes} (hname : ValidName name)
    (hsignature : IsSignature signature) (huuid : IsUuid uuid) :
    Minted (makeClientRef name signature uuid) := by
  obtain ⟨hlength, hhex⟩ := hsignature
  have hsig8 : (sig8Of signature).length = 8 := by
    rw [sig8Of, List.length_take, hlength]
    rfl
  have hsig8Hex : ∀ c ∈ sig8Of signature, isHexDigit c = true := by
    intro c hc
    have hlower := hhex c (List.mem_of_mem_take hc)
    simp only [isLowerHex, Bool.or_eq_true] at hlower
    simp only [isHexDigit, Bool.or_eq_true]
    exact .inl hlower
  have hmake : makeClientRef name signature uuid
      = name ++ 0x2D :: (sig8Of signature ++ 0x2D :: uuid) := by
    simp [makeClientRef, ascii]
  obtain ⟨count, hshape, hpos⟩ := hname.segmented.shape fun c hc => by
    simp [isProvenanceIdChar, hname.charset c hc]
  have hcount := hpos hname.alnum
  have hsigShape := shape_hex (List.length_pos_iff.mp (by omega)) hsig8Hex
  rw [hmake]
  refine ⟨⟨_, shape_hyphen hshape (shape_hyphen hsigShape (shape_uuid huuid)), by omega⟩, ?_, ?_,
    by simp⟩
  · have hnameLength := hname.length_le
    have huuidLength := length_uuid huuid
    simp only [List.length_append, List.length_cons, kMaxStrategyNameChars] at hnameLength ⊢
    omega
  · have hhyphen : kChildSep ≠ 0x2D := by decide
    have hnot : ∀ c, isHexDigit c = true → c ≠ kChildSep := by
      rintro c hc rfl
      exact absurd hc (by decide)
    have hname : kChildSep ∉ name := fun hin => absurd (hname.charset _ hin) (by decide)
    have hsig : kChildSep ∉ sig8Of signature := fun hin => hnot _ (hsig8Hex _ hin) rfl
    simp only [List.mem_append, List.mem_cons, not_or]
    exact ⟨hname, hhyphen, hsig, hhyphen, not_mem_uuid huuid⟩

/-- A counter from 1 on has one segment and ten digits at most. -/
theorem shape_decimal {k : Int32} (hk : 1 ≤ k) :
    Shape (decimal k.toInt) 1 ∧ (decimal k.toInt).length ≤ 10 := by
  have hpos : (1 : Int) ≤ k.toInt := Int32.le_iff_toInt_le.mp hk
  have hlt := k.toInt_lt
  obtain ⟨n, hn⟩ := Int.eq_ofNat_of_zero_le (by omega : 0 ≤ k.toInt)
  rw [hn] at hlt ⊢
  refine ⟨shape_hex (decimalNat_ne_nil n) fun c hc => ?_, ?_⟩
  · have hdigit : isDigit c = true := mem_decimalNat hc
    simp [isHexDigit, hdigit]
  · show (decimalNat n).length ≤ 10
    rw [decimalNat, List.length_map, Nat.length_toDigits_le_iff (by omega) (by omega)]
    omega

theorem Minted.whole {ref suffix : Bytes} (h : Minted ref) {count : Nat}
    (hsuffix : Shape suffix count) (hlength : suffix.length ≤ 17) :
    isProvenanceIdShape (ref ++ kChildSep :: suffix) = true := by
  obtain ⟨refCount, hshape, hcount⟩ := h.shape
  refine isProvenanceIdShape_of_shape
    (Shape.append_separator (by decide) (by decide) hshape hsuffix) (by omega) ?_
  have := h.length_le
  simp only [List.length_append, List.length_cons, kMaxProvenanceIdChars]
  omega

/-- **Every accepted strategy name is attributable everywhere.** -/
theorem strategy_attributable {name signature uuid : Bytes} {k : Int32}
    (hname : isValidStrategyName name = true) (hsignature : IsSignature signature)
    (huuid : IsUuid uuid) (hk : 1 ≤ k) :
    (∀ ref ∈ [makeClientRef name signature uuid, childRef (makeClientRef name signature uuid) k,
        Adapters.exitClientRef (makeClientRef name signature uuid)],
      isProvenanceIdShape ref = true ∧ scrubProvenanceColumn ref = ref)
      ∧ scrubProvenanceColumn name = name
      ∧ isChildRef (makeClientRef name signature uuid) = false
      ∧ parentOf (childRef (makeClientRef name signature uuid) k)
        = makeClientRef name signature uuid := by
  have hvalid := validName_of_isValidStrategyName hname
  have hminted := minted_makeClientRef hvalid hsignature huuid
  generalize makeClientRef name signature uuid = parent at hminted ⊢
  refine ⟨?_, hvalid.column, ?_, parentOf_childRef _ k⟩
  · have hwhole : ∀ ref, isProvenanceIdShape ref = true →
        isProvenanceIdShape ref = true ∧ scrubProvenanceColumn ref = ref :=
      fun ref hshape => ⟨hshape, if_pos hshape⟩
    simp only [List.forall_mem_cons, List.not_mem_nil, false_imp_iff, implies_true, and_true]
    refine ⟨hwhole _ ?_, hwhole _ ?_, hwhole _ ?_⟩
    · obtain ⟨count, hshape, hcount⟩ := hminted.shape
      have := hminted.length_le
      exact isProvenanceIdShape_of_shape hshape hcount (by unfold kMaxProvenanceIdChars; omega)
    · obtain ⟨hshape, hlength⟩ := shape_decimal hk
      rw [childRef, if_neg (Int32.not_lt.mpr hk)]
      exact hminted.whole hshape (by omega)
    · rw [Adapters.exitClientRef, if_neg hminted.ne_nil]
      exact hminted.whole (.segment (by decide) (by decide) (by decide)) (by decide)
  · rw [isChildRef, lastChildSep_of_not_mem hminted.not_mem_childSep]

theorem strategy_attributable_condor :
    isProvenanceIdShape (childRef (makeClientRef (ascii "iron-condor") (List.replicate 64 0x61)
      (ascii "1a2b3c4d-dead-4bab-8abe-0123456789ab")) 999) = true := by
  have hname : isValidStrategyName (ascii "iron-condor") = true := by decide +kernel
  have hsignature : IsSignature (List.replicate 64 0x61) := by
    refine ⟨List.length_replicate, fun c hc => ?_⟩
    rw [List.eq_of_mem_replicate hc]
    decide
  have huuid : IsUuid (ascii "1a2b3c4d-dead-4bab-8abe-0123456789ab") :=
    ⟨ascii "1a2b3c4d", ascii "dead", ascii "4bab", ascii "8abe", ascii "0123456789ab",
      by decide, by decide, by decide, by decide, by decide, by decide, by decide⟩
  have hall := strategy_attributable hname hsignature huuid (by decide : (1 : Int32) ≤ 999)
  exact (hall.1 _ (by simp)).1

end BrokerExec.Idempotency

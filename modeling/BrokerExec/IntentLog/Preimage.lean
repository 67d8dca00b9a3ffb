import BrokerExec.IntentLog.Record

/-!
# The hash preimage (`intentlog/intent_log.cpp`)

Two records with one preimage differ in nothing but their `hash`.

* **`canonicalBytes_eq_iff`** — `canonical_bytes` is injective on the seven fields it covers.

The preimage is read from the front. A number or an op ends at the first newline, because it has
none; a framed text ends where its length says, so its own newlines and colons do not matter.
-/

namespace BrokerExec.IntentLog

variable {text text' rest rest' : Bytes}

/-! ## Fields that end at a newline -/

/-- A line without a newline inside is cut off in one way. -/
theorem line_inj (htext : newline ∉ text) (htext' : newline ∉ text')
    (h : text ++ newline :: rest = text' ++ newline :: rest') : text = text' ∧ rest = rest' := by
  have hcut := append_inj_of_stop (P := (· ≠ newline))
    (fun c hc => ne_of_mem_of_not_mem hc htext) (fun c hc => ne_of_mem_of_not_mem hc htext')
    (by simp) (by simp) h
  exact ⟨hcut.1, (List.cons.inj hcut.2).2⟩

theorem notMem_decimal {c : UInt8} (hdigit : isDigit c = false) (hminus : c ≠ 45) (i : Int) :
    c ∉ decimal i := by
  intro hc
  rcases mem_decimal hc with hc | hc
  · simp [hdigit] at hc
  · exact hminus hc

theorem decimalLine_inj {i j : Int}
    (h : decimal i ++ newline :: rest = decimal j ++ newline :: rest') : i = j ∧ rest = rest' := by
  have hline := line_inj (notMem_decimal (by decide) (by decide) i)
    (notMem_decimal (by decide) (by decide) j) h
  exact ⟨decimal_inj hline.1, hline.2⟩

theorem newline_notMem_toString (op : IntentOp) : newline ∉ op.toString := by
  cases op <;> decide

/-- The op names are told apart by the reader of `replay`. -/
theorem IntentOp.toString_inj {op op' : IntentOp} (h : op.toString = op'.toString) :
    op = op' := by
  have hread := intentOpFromString_toString op
  rw [h, intentOpFromString_toString] at hread
  exact (Option.some.inj hread).symm

/-! ## Framed fields -/

/-- The length in front of the colon says where the value ends. -/
theorem framed_inj {value value' : Bytes} (h : framed value ++ rest = framed value' ++ rest') :
    value = value' ∧ rest = rest' := by
  have hcolon : ∀ n : Nat, ∀ c ∈ decimal n, c ≠ 58 := fun n c hc =>
    ne_of_mem_of_not_mem hc (notMem_decimal (by decide) (by decide) n)
  have hsplit : ∀ text more : Bytes, framed text ++ more
      = decimal text.length ++ 58 :: (text ++ more) := by
    intro text more
    simp [framed, ascii]
  rw [hsplit, hsplit] at h
  have hlength := append_inj_of_stop (P := (· ≠ 58)) (hcolon _) (hcolon _) (by simp) (by simp) h
  have hcount : value.length = value'.length := Int.ofNat.inj (decimal_inj hlength.1)
  exact List.append_inj (List.cons.inj hlength.2).2 hcount

/-! ## The preimage -/

/-- `canonical_bytes`, each field with all that follows it. -/
theorem canonicalBytes_fields (record : IntentRecord) : canonicalBytes record
    = ascii "v" ++ (decimal record.schemaVersion.toInt ++ newline
      :: (ascii "s" ++ (decimal record.seq.toInt ++ newline
      :: (ascii "o" ++ (record.op.toString ++ newline
      :: (ascii "t" ++ (decimal record.wallTsNs.toInt ++ newline
      :: (ascii "c" ++ (framed record.clientRef ++ newline
      :: (ascii "p" ++ (framed record.payloadJson ++ newline
      :: (ascii "h" ++ (framed record.prevHash ++ [newline]))))))))))))) := by
  unfold canonicalBytes
  simp only [List.append_assoc, List.cons_append, List.nil_append]

/-- **One preimage, one record up to its hash.** -/
theorem canonicalBytes_eq_iff (a b : IntentRecord) :
    canonicalBytes a = canonicalBytes b ↔
      a.schemaVersion = b.schemaVersion ∧ a.seq = b.seq ∧ a.op = b.op ∧ a.wallTsNs = b.wallTsNs
        ∧ a.clientRef = b.clientRef ∧ a.payloadJson = b.payloadJson
        ∧ a.prevHash = b.prevHash := by
  constructor
  · intro h
    rw [canonicalBytes_fields, canonicalBytes_fields] at h
    obtain ⟨hversion, h⟩ := decimalLine_inj (List.append_cancel_left h)
    obtain ⟨hseq, h⟩ := decimalLine_inj (List.append_cancel_left h)
    obtain ⟨hop, h⟩ := line_inj (newline_notMem_toString a.op) (newline_notMem_toString b.op)
      (List.append_cancel_left h)
    obtain ⟨hts, h⟩ := decimalLine_inj (List.append_cancel_left h)
    obtain ⟨href, h⟩ := framed_inj (List.append_cancel_left h)
    obtain ⟨hpayload, h⟩ := framed_inj (List.append_cancel_left (List.cons.inj h).2)
    obtain ⟨hprev, -⟩ := framed_inj (List.append_cancel_left (List.cons.inj h).2)
    exact ⟨Int32.toInt_inj.mp hversion, Int64.toInt_inj.mp hseq, IntentOp.toString_inj hop,
      Int64.toInt_inj.mp hts, href, hpayload, hprev⟩
  · rintro ⟨hversion, hseq, hop, hts, href, hpayload, hprev⟩
    rw [canonicalBytes_fields, canonicalBytes_fields, hversion, hseq, hop, hts, href, hpayload, hprev]

end BrokerExec.IntentLog

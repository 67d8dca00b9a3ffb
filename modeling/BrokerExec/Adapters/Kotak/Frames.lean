import Mathlib.Data.List.Forall2
import Mathlib.Data.List.TakeWhile
import BrokerExec.Domain.Types
import BrokerExec.Json.Reader
import BrokerExec.Lib.Except
import BrokerExec.Lib.Segments

/-!
# Kotak subscription frames (`adapters/kotak/kotak_ws_protocol.cpp`)

The feed takes a whole set of instruments as one string, `segment|token` pairs joined by `&`, with
nothing escaped. The parser cuts at every `&`, and each entry at its first `|`.

* **`parseScrips_joinScrips`** — the entries behind the builders' string are those of the list,
  each cut again at its own separators.
* **`parse_build_iff`** — a frame comes back as the list it was built from, or not at all,
  exactly when the list has no separator where it is cut, or some cut entry is refused.
-/

namespace BrokerExec.Adapters.Kotak

open BrokerExec.Errors (Error makeError)
open BrokerExec.Domain (canonicalText canonicalText_of_wellFormed)

structure KotakSubscription where
  exchangeSegment : Bytes
  instrumentToken : Bytes
  deriving DecidableEq, Repr

/-- `'&'`. -/
def ampersand : UInt8 := 0x26

/-- `'|'`. -/
def bar : UInt8 := 0x7C

def kSubscribeTask : Bytes := ascii "mws"

def kUnsubscribeTask : Bytes := ascii "mwu"

/-! ## The builders -/

/-- `segment|token`. -/
def KotakSubscription.entry (subscription : KotakSubscription) : Bytes :=
  subscription.exchangeSegment ++ bar :: subscription.instrumentToken

def joinScrips (subscriptions : List KotakSubscription) : Bytes :=
  subscriptions.foldl (fun scrips subscription =>
    (if scrips = [] then scrips else scrips ++ [ampersand]) ++ subscription.entry) []

/-- The frame of `build_frame`, its members in key order. -/
def frameOf (task : Bytes) (subscriptions : List KotakSubscription) (channel : Bytes) :
    Json.Flat := [
  (ascii "channel", .string channel),
  (ascii "scrips", .string (joinScrips subscriptions)),
  (ascii "task", .string task),
  (ascii "type", .string task)]

def buildFrame (task : Bytes) (subscriptions : List KotakSubscription) (channel : Bytes) : Bytes :=
  if subscriptions = [] then [] else Json.dump (frameOf task subscriptions channel)

def buildSubscribeFrame (subscriptions : List KotakSubscription) (channel : Bytes) : Bytes :=
  buildFrame kSubscribeTask subscriptions channel

def buildUnsubscribeFrame (subscriptions : List KotakSubscription) (channel : Bytes) : Bytes :=
  buildFrame kUnsubscribeTask subscriptions channel

/-! ## The parser -/

def frameError (message : String) : Error := makeError .validation (ascii message)

/-- One entry: the text in front of the first `|` and the text behind it, neither empty. -/
def parseEntry (entry : Bytes) : Result KotakSubscription :=
  let segment := entry.takeWhile (· != bar)
  match entry.dropWhile (· != bar) with
  | [] => .error (frameError "kotak: subscription entry is not segment|token")
  | _ :: token =>
    if segment = [] ∨ token = [] then
      .error (frameError "kotak: subscription entry is not segment|token")
    else .ok ⟨segment, token⟩

/-- The loop of `parse_subscription_frame` over the entries; the first bad one ends it. -/
def parseEntries : List Bytes → Result (List KotakSubscription)
  | [] => .ok []
  | entry :: entries =>
    match parseEntry entry, parseEntries entries with
    | .error e, _ => .error e
    | .ok _, .error e => .error e
    | .ok subscription, .ok subscriptions => .ok (subscription :: subscriptions)

/-- The entries are what stands between the `&`. -/
def parseScrips (scrips : Bytes) : Result (List KotakSubscription) :=
  parseEntries (scrips.splitOn ampersand)

/-- A string member, or nothing. -/
def frameField (members : List (Bytes × Json.Value)) (key : Bytes) : Bytes :=
  (Json.valueString members key).getD []

def parseSubscriptionFrame (parser : Json.Parser) (frame : Bytes) :
    Result (List KotakSubscription) :=
  match parser.parse frame with
  | some (.object members) =>
    let task := frameField members (ascii "task")
    let scrips := frameField members (ascii "scrips")
    if task ≠ kSubscribeTask ∧ task ≠ kUnsubscribeTask then
      .error (frameError "kotak: subscription frame has no known task")
    else if scrips = [] then
      .error (frameError "kotak: subscription frame carried no scrips")
    else parseScrips scrips
  | _ => .error (frameError "kotak: subscription frame is not a JSON object")

/-! ## Entries -/

variable {entry segment token : Bytes} {subscription : KotakSubscription}
  {subscriptions read : List KotakSubscription}

/-- What the loop takes for an entry. -/
structure IsEntry (entry : Bytes) (subscription : KotakSubscription) : Prop where
  text : entry = subscription.entry
  segment : subscription.exchangeSegment ≠ []
  token : subscription.instrumentToken ≠ []
  cut : bar ∉ subscription.exchangeSegment

/-- The first `|` cuts an entry in one way. -/
theorem IsEntry.eq_of_text {other : KotakSubscription} (h : IsEntry subscription.entry other)
    (hbar : bar ∉ subscription.exchangeSegment) : subscription = other := by
  have hcut := append_inj_of_stop (P := (· ≠ bar))
    (fun c hc => ne_of_mem_of_not_mem hc hbar) (fun c hc => ne_of_mem_of_not_mem hc h.cut)
    (by simp) (by simp) h.text
  rw [KotakSubscription.mk.injEq]
  exact ⟨hcut.1, (List.cons.inj hcut.2).2⟩

theorem parseEntry_cut (hbar : bar ∉ segment) (token : Bytes) :
    parseEntry (segment ++ bar :: token) = if segment = [] ∨ token = [] then
      .error (frameError "kotak: subscription entry is not segment|token")
    else .ok ⟨segment, token⟩ := by
  have hall : ∀ c ∈ segment, (c != bar) = true := by
    intro c hc
    simpa using ne_of_mem_of_not_mem hc hbar
  have htake : (segment ++ bar :: token).takeWhile (· != bar) = segment := by
    rw [List.takeWhile_append_of_pos hall]
    simp
  have hdrop : (segment ++ bar :: token).dropWhile (· != bar) = bar :: token := by
    rw [List.dropWhile_append_of_pos hall]
    simp
  simp only [parseEntry, htake, hdrop]

theorem parseEntry_uncut (hbar : bar ∉ entry) :
    parseEntry entry = .error (frameError "kotak: subscription entry is not segment|token") := by
  have hdrop : entry.dropWhile (· != bar) = [] := by
    rw [List.dropWhile_eq_nil_iff]
    intro c hc
    simpa using ne_of_mem_of_not_mem hc hbar
  simp only [parseEntry, hdrop]

theorem parseEntry_eq_ok : parseEntry entry = .ok subscription ↔ IsEntry entry subscription := by
  constructor
  · intro h
    by_cases hbar : bar ∈ entry
    · obtain ⟨segment, token, rfl, hcut⟩ := List.eq_append_cons_of_mem hbar
      rw [parseEntry_cut hcut] at h
      split at h
      · cases h
      · next hempty =>
        obtain ⟨hsegment, htoken⟩ := not_or.mp hempty
        rw [← Except.ok.inj h]
        exact ⟨rfl, hsegment, htoken, hcut⟩
    · rw [parseEntry_uncut hbar] at h
      cases h
  · rintro ⟨rfl, hsegment, htoken, hcut⟩
    rw [KotakSubscription.entry, parseEntry_cut hcut, if_neg (not_or.mpr ⟨hsegment, htoken⟩)]

/-- The loop passes when every entry does. -/
theorem parseEntries_eq_ok {entries : List Bytes} :
    parseEntries entries = .ok read ↔ List.Forall₂ IsEntry entries read := by
  induction entries generalizing read with
  | nil =>
    rw [parseEntries, Except.ok.injEq, List.forall₂_nil_left_iff]
    exact eq_comm
  | cons entry entries ih =>
    rw [List.forall₂_cons_left_iff]
    constructor
    · intro h
      cases hentry : parseEntry entry with
      | error e => simp [parseEntries, hentry] at h
      | ok subscription =>
        cases hentries : parseEntries entries with
        | error e => simp [parseEntries, hentry, hentries] at h
        | ok rest =>
          simp only [parseEntries, hentry, hentries, Except.ok.injEq] at h
          exact ⟨subscription, rest, parseEntry_eq_ok.mp hentry, ih.mp hentries, h.symm⟩
    · rintro ⟨subscription, rest, hentry, hentries, rfl⟩
      simp only [parseEntries, parseEntry_eq_ok.mpr hentry, ih.mpr hentries]

/-! ## The string of a list -/

/-- Nothing of a cut holds the byte it is cut at. -/
theorem notMem_of_mem_splitOn {sep : UInt8} {text piece : Bytes} (h : piece ∈ text.splitOn sep) :
    sep ∉ piece := by
  induction text generalizing piece with
  | nil =>
    rw [List.splitOn_nil, List.mem_singleton] at h
    simp [h]
  | cons c text ih =>
    rw [List.splitOn_cons_eq_if_modifyHead] at h
    split at h
    · rcases List.mem_cons.mp h with rfl | h
      · simp
      · exact ih h
    · next hc =>
      obtain ⟨head, rest, hsplit⟩ := List.exists_cons_of_ne_nil (List.splitOn_ne_nil sep text)
      rw [hsplit] at h ih
      rcases List.mem_cons.mp h with rfl | h
      · have hhead := ih List.mem_cons_self
        simp only [beq_iff_eq] at hc
        simp [hhead, Ne.symm hc]
      · exact ih (List.mem_cons_of_mem _ h)

theorem joinScrips_cons (subscription : KotakSubscription)
    (subscriptions : List KotakSubscription) :
    joinScrips (subscription :: subscriptions)
      = subscription.entry ++ joined ampersand (subscriptions.map KotakSubscription.entry) := by
  have hfold : ∀ scrips : Bytes, scrips ≠ [] → subscriptions.foldl (fun scrips subscription =>
      (if scrips = [] then scrips else scrips ++ [ampersand]) ++ subscription.entry) scrips
        = scrips ++ joined ampersand (subscriptions.map KotakSubscription.entry) := by
    induction subscriptions with
    | nil => simp
    | cons subscription subscriptions ih =>
      intro scrips hscrips
      rw [List.foldl_cons, if_neg hscrips, ih _ (by simp [hscrips])]
      simp
  -- an entry has its `|`, so every later one gets its `&`
  exact hfold subscription.entry (by simp [KotakSubscription.entry])

/-- The entries the parser finds, entry by entry of the list. -/
def piecesOf (subscriptions : List KotakSubscription) : List Bytes :=
  subscriptions.flatMap fun subscription => subscription.entry.splitOn ampersand

theorem splitOn_joinScrips (hne : subscriptions ≠ []) :
    (joinScrips subscriptions).splitOn ampersand = piecesOf subscriptions := by
  have htail : ∀ (entry : Bytes) (subscriptions : List KotakSubscription),
      (entry ++ joined ampersand (subscriptions.map KotakSubscription.entry)).splitOn ampersand
        = entry.splitOn ampersand ++ piecesOf subscriptions := by
    intro entry subscriptions
    induction subscriptions generalizing entry with
    | nil => simp [piecesOf]
    | cons subscription subscriptions ih =>
      rw [List.map_cons, joined_cons, List.splitOn_append_cons_self, ih]
      rfl
  cases subscriptions with
  | nil => exact absurd rfl hne
  | cons subscription subscriptions =>
    rw [joinScrips_cons, htail]
    rfl

theorem parseScrips_joinScrips (hne : subscriptions ≠ []) :
    parseScrips (joinScrips subscriptions) = .ok read
      ↔ List.Forall₂ IsEntry (piecesOf subscriptions) read := by
  rw [parseScrips, splitOn_joinScrips hne, parseEntries_eq_ok]

/-! ## Through the frame -/

theorem wellFormed_joinScrips
    (htext : ∀ s ∈ subscriptions, WellFormed s.exchangeSegment ∧ WellFormed s.instrumentToken) :
    WellFormed (joinScrips subscriptions) := by
  have hentry : ∀ s ∈ subscriptions, WellFormed s.entry := by
    intro s hs
    have hbar : WellFormed [bar] := .of_ascii (by decide)
    exact (htext s hs).1.append (hbar.append (htext s hs).2)
  have htail : ∀ subscriptions : List KotakSubscription, (∀ s ∈ subscriptions, WellFormed s.entry) →
      WellFormed (joined ampersand (subscriptions.map KotakSubscription.entry)) := by
    intro subscriptions hentry
    induction subscriptions with
    | nil => exact .nil
    | cons subscription subscriptions ih =>
      have hampersand : WellFormed [ampersand] := .of_ascii (by decide)
      exact hampersand.append ((hentry subscription (by simp)).append
        (ih fun s hs => hentry s (by simp [hs])))
  cases subscriptions with
  | nil => exact .nil
  | cons subscription subscriptions =>
    rw [joinScrips_cons]
    exact (hentry subscription (by simp)).append (htail _ fun s hs => hentry s (by simp [hs]))

theorem joinScrips_ne_nil (hne : subscriptions ≠ []) : joinScrips subscriptions ≠ [] := by
  cases subscriptions with
  | nil => exact absurd rfl hne
  | cons subscription subscriptions => simp [joinScrips_cons, KotakSubscription.entry]

theorem frameField_string {o : Json.Flat} {key text : Bytes}
    (h : o.lookup key = some (.string text)) : frameField o.members key = text := by
  rw [frameField, Json.Flat.valueString_members h]
  rfl

/-- Of a frame the parser sees the string of its list and nothing else. -/
theorem parseSubscriptionFrame_buildFrame (parser : Json.Parser) {task : Bytes}
    (htask : task = kSubscribeTask ∨ task = kUnsubscribeTask) (hne : subscriptions ≠ [])
    (htext : ∀ s ∈ subscriptions, WellFormed s.exchangeSegment ∧ WellFormed s.instrumentToken)
    (channel : Bytes) :
    parseSubscriptionFrame parser (buildFrame task subscriptions channel)
      = parseScrips (joinScrips subscriptions) := by
  have hsorted : ((frameOf task subscriptions channel).map Prod.fst).Pairwise (· < ·) := by
    show List.Pairwise (· < ·) [ascii "channel", ascii "scrips", ascii "task", ascii "type"]
    decide
  have hkeys : ∀ m ∈ frameOf task subscriptions channel, WellFormed m.1 := by
    intro m hm
    have hkey : m.1 ∈ [ascii "channel", ascii "scrips", ascii "task", ascii "type"] :=
      List.mem_map_of_mem hm
    have hascii : ∀ key ∈ [ascii "channel", ascii "scrips", ascii "task", ascii "type"],
        ∀ c ∈ key, c < 0x80 := by
      decide
    exact .of_ascii (hascii m.1 hkey)
  have htaskText : WellFormed task := by
    rcases htask with rfl | rfl <;> exact .of_ascii (by decide)
  have hscrips : (frameOf task subscriptions channel).canonical.lookup (ascii "scrips")
      = some (.string (joinScrips subscriptions)) := by
    rw [← canonicalText_of_wellFormed (wellFormed_joinScrips htext)]
    rfl
  have hname : (frameOf task subscriptions channel).canonical.lookup (ascii "task")
      = some (.string task) := by
    have hcanonical : (frameOf task subscriptions channel).canonical.lookup (ascii "task")
        = some (.string (canonicalText task)) := rfl
    rw [hcanonical, canonicalText_of_wellFormed htaskText]
  rw [buildFrame, if_neg hne, parseSubscriptionFrame,
    parser.parse_dump_canonical hsorted hkeys]
  simp only [frameField_string hscrips, frameField_string hname]
  rw [if_neg (by tauto), if_neg (joinScrips_ne_nil hne)]

/-! ## Round trip -/

/-- No separator stands where the frame is cut. -/
def KotakSubscription.Separated (subscription : KotakSubscription) : Prop :=
  ampersand ∉ subscription.entry ∧ bar ∉ subscription.exchangeSegment

/-- Cut at every `&`, the pair leaves a piece without text on both sides of its first `|`. -/
def KotakSubscription.Refused (subscription : KotakSubscription) : Prop :=
  ∃ piece ∈ subscription.entry.splitOn ampersand, ∀ read, ¬ IsEntry piece read

theorem piecesOf_separated (h : ∀ s ∈ subscriptions, s.Separated) :
    piecesOf subscriptions = subscriptions.map KotakSubscription.entry := by
  induction subscriptions with
  | nil => rfl
  | cons subscription subscriptions ih =>
    rw [piecesOf, List.flatMap_cons, List.splitOn_eq_singleton (h subscription (by simp)).1,
      List.map_cons, List.singleton_append]
    exact congrArg _ (ih fun s hs => h s (by simp [hs]))

/-- Separated pairs are read back as they are, or one of them is refused. -/
theorem eq_of_separated (h : ∀ s ∈ subscriptions, s.Separated)
    (hread : List.Forall₂ IsEntry (piecesOf subscriptions) read) : read = subscriptions := by
  rw [piecesOf_separated h, List.forall₂_map_left_iff] at hread
  induction hread with
  | nil => rfl
  | @cons s r subscriptions read hentry _ ih =>
    rw [ih fun s hs => h s (by simp [hs]), hentry.eq_of_text (h s (by simp)).2]

/-- A list that is read back as it is has separated pairs. -/
theorem separated_of_read
    (hread : List.Forall₂ IsEntry (piecesOf subscriptions) subscriptions) :
    ∀ s ∈ subscriptions, s.Separated := by
  have hpieces : piecesOf subscriptions = subscriptions.map KotakSubscription.entry := by
    generalize piecesOf subscriptions = pieces at hread
    induction hread with
    | nil => rfl
    | cons hentry _ ih => rw [List.map_cons, ← ih, hentry.text]
  intro s hs
  have hpiece : s.entry ∈ piecesOf subscriptions := hpieces ▸ List.mem_map_of_mem hs
  obtain ⟨s', -, hcut⟩ := List.mem_flatMap.mp hpiece
  refine ⟨notMem_of_mem_splitOn hcut, ?_⟩
  rw [hpieces, List.forall₂_map_left_iff, List.forall₂_same] at hread
  exact (hread s hs).cut

/-- The entries of a list are all read, or one of its pairs is refused. -/
theorem exists_read_or_refused (subscriptions : List KotakSubscription) :
    (∃ read, List.Forall₂ IsEntry (piecesOf subscriptions) read)
      ∨ ∃ s ∈ subscriptions, s.Refused := by
  by_cases hall : ∀ piece ∈ piecesOf subscriptions, ∃ read, IsEntry piece read
  · left
    generalize piecesOf subscriptions = pieces at hall
    induction pieces with
    | nil => exact ⟨[], .nil⟩
    | cons piece pieces ih =>
      obtain ⟨first, hfirst⟩ := hall piece (by simp)
      obtain ⟨rest, hrest⟩ := ih fun p hp => hall p (by simp [hp])
      exact ⟨first :: rest, .cons hfirst hrest⟩
  · right
    push Not at hall
    obtain ⟨piece, hpiece, hrefused⟩ := hall
    obtain ⟨s, hs, hcut⟩ := List.mem_flatMap.mp hpiece
    exact ⟨s, hs, piece, hcut, hrefused⟩

/-- Nothing is read behind a refused pair. -/
theorem not_read_of_refused {s : KotakSubscription} (hs : s ∈ subscriptions) (h : s.Refused) :
    ¬ List.Forall₂ IsEntry (piecesOf subscriptions) read := by
  intro hread
  obtain ⟨piece, hcut, hrefused⟩ := h
  obtain ⟨r, -, hentry⟩ := Steps.exists_of_forall₂ hread piece
    (List.mem_flatMap.mpr ⟨s, hs, hcut⟩)
  exact hrefused r hentry

/-- **A frame comes back as its list or not at all** exactly when no separator stands where the
frame is cut, or one of the pairs is refused. -/
theorem parse_build_iff (parser : Json.Parser) (subscriptions : List KotakSubscription)
    (hne : subscriptions ≠ [])
    (htext : ∀ s ∈ subscriptions, WellFormed s.exchangeSegment ∧ WellFormed s.instrumentToken)
    (channel : Bytes) :
    (∀ build ∈ [buildSubscribeFrame, buildUnsubscribeFrame], ∀ read,
        parseSubscriptionFrame parser (build subscriptions channel) = .ok read →
          read = subscriptions)
      ↔ (∀ s ∈ subscriptions, s.Separated) ∨ ∃ s ∈ subscriptions, s.Refused := by
  have hparse : ∀ build ∈ [buildSubscribeFrame, buildUnsubscribeFrame], ∀ read,
      parseSubscriptionFrame parser (build subscriptions channel) = .ok read
        ↔ List.Forall₂ IsEntry (piecesOf subscriptions) read := by
    intro build hbuild read
    rw [← parseScrips_joinScrips hne]
    rcases List.mem_pair.mp hbuild with rfl | rfl
    · rw [buildSubscribeFrame,
        parseSubscriptionFrame_buildFrame parser (.inl rfl) hne htext channel]
    · rw [buildUnsubscribeFrame,
        parseSubscriptionFrame_buildFrame parser (.inr rfl) hne htext channel]
  constructor
  · intro h
    rcases exists_read_or_refused subscriptions with ⟨read, hread⟩ | hrefused
    · have hsame : read = subscriptions :=
        h _ (by simp) read ((hparse _ List.mem_cons_self read).mpr hread)
      exact .inl (separated_of_read (hsame ▸ hread))
    · exact .inr hrefused
  · intro h build hbuild read hok
    have hread := (hparse build hbuild read).mp hok
    rcases h with hseparated | ⟨s, hs, hrefused⟩
    · exact eq_of_separated hseparated hread
    · exact absurd hread (not_read_of_refused hs hrefused)

/-- An everyday pair comes back. -/
theorem parse_build_nse :
    parseSubscriptionFrame Json.reader
        (buildSubscribeFrame [⟨ascii "nse_cm", ascii "11536"⟩] (ascii "1"))
      = .ok [⟨ascii "nse_cm", ascii "11536"⟩] := by
  have hseparated := (parse_build_iff Json.reader [⟨ascii "nse_cm", ascii "11536"⟩] (by simp)
    (by
      simp only [List.mem_singleton, forall_eq]
      exact ⟨.of_ascii (by decide), .of_ascii (by decide)⟩)
    (ascii "1")).mpr (.inl (by
      simp only [List.mem_singleton, forall_eq]
      exact ⟨by decide, by decide⟩))
  have hreads : (parseSubscriptionFrame Json.reader
      (buildSubscribeFrame [⟨ascii "nse_cm", ascii "11536"⟩] (ascii "1"))).isOk = true := by
    decide +kernel
  cases hread : parseSubscriptionFrame Json.reader
      (buildSubscribeFrame [⟨ascii "nse_cm", ascii "11536"⟩] (ascii "1")) with
  | error e =>
    rw [hread] at hreads
    cases hreads
  | ok read => rw [hseparated buildSubscribeFrame (by simp) read hread]

/-- A token with an `&` inside: one pair goes out, two come back. -/
theorem parse_build_two :
    parseSubscriptionFrame Json.reader
        (buildSubscribeFrame [⟨ascii "nse_cm", ascii "1&nse_fo|2"⟩] (ascii "1"))
      = .ok [⟨ascii "nse_cm", ascii "1"⟩, ⟨ascii "nse_fo", ascii "2"⟩] ∧
    [KotakSubscription.mk (ascii "nse_cm") (ascii "1"), ⟨ascii "nse_fo", ascii "2"⟩]
      ≠ [⟨ascii "nse_cm", ascii "1&nse_fo|2"⟩] := by
  have htext : ∀ s ∈ [KotakSubscription.mk (ascii "nse_cm") (ascii "1&nse_fo|2")],
      WellFormed s.exchangeSegment ∧ WellFormed s.instrumentToken := by
    simp only [List.mem_singleton, forall_eq]
    exact ⟨.of_ascii (by decide), .of_ascii (by decide)⟩
  refine ⟨?_, by decide⟩
  rw [buildSubscribeFrame,
    parseSubscriptionFrame_buildFrame Json.reader (.inl rfl) (by simp) htext, parseScrips]
  decide

end BrokerExec.Adapters.Kotak

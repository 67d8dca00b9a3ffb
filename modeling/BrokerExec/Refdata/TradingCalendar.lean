import BrokerExec.Domain.Types
import BrokerExec.Json.Text
import BrokerExec.Lib.CivilDate
import BrokerExec.Lib.Except

/-!
# The trading calendar (`refdata/trading_calendar.cpp`)

A calendar document has holidays, special sessions and four times of the day: the open, the entry
cutoff, the square-off and the close. The parser reads each time by itself; that the cutoff comes
before the other two is nowhere asked. Times are exchange-local: the clock's instant, in
nanoseconds, with the zone's offset in minutes.

* **`isTradingDay_toIso`** — a trading day is a special session, or no holiday and no weekend;
* **`entriesInSession_iff`** — when every entry that an accepted calendar allows is in session and
  before the square-off.
-/

namespace BrokerExec.Refdata

open BrokerExec.Errors (makeError)

/-! ## Dates and times as texts -/

/-- `pad`: zeros on the left, up to `width` characters. -/
def pad (value : Int) (width : Nat) : Bytes := (decimal value).leftpad width 0x30

def toIso (date : CivilDate) : Bytes :=
  pad date.year 4 ++ 0x2D :: (pad date.month 2 ++ 0x2D :: pad date.day 2)

/-- `parse_iso_date`: `YYYY-MM-DD`, of a date that exists, as its day number. -/
def parseIsoDate : Bytes → Option Int
  | [y₁, y₂, y₃, y₄, dash, m₁, m₂, dash', d₁, d₂] =>
    let date : CivilDate :=
      ⟨digitsValue [y₁, y₂, y₃, y₄], digitsValue [m₁, m₂], digitsValue [d₁, d₂]⟩
    if dash = 0x2D ∧ dash' = 0x2D ∧ (∀ c ∈ [y₁, y₂, y₃, y₄, m₁, m₂, d₁, d₂], isDigit c = true)
        ∧ date.Ok then
      some date.toDays
    else none
  | _ => none

/-- `parse_hhmm`: `HH:MM` as minutes of the day. -/
def parseHhmm : Bytes → Option Int
  | [h₁, h₂, colon, m₁, m₂] =>
    let hh := digitsValue [h₁, h₂]
    let mm := digitsValue [m₁, m₂]
    if colon = 0x3A ∧ (∀ c ∈ [h₁, h₂, m₁, m₂], isDigit c = true) ∧ hh ≤ 23 ∧ mm ≤ 59 then
      some (hh * 60 + mm)
    else none
  | _ => none

/-- What is padded to a width it does not exceed is a numeral of that width. -/
theorem pad_spec {n width : Nat} (hpos : 0 < width) (h : n < 10 ^ width) :
    (pad n width).length = width ∧ (∀ c ∈ pad n width, isDigit c = true)
      ∧ digitsValue (pad n width) = n := by
  have hlength : (decimalNat n).length ≤ width := by
    rw [decimalNat, List.length_map, Nat.length_toDigits_le_iff (by omega) hpos]
    exact h
  have hpad : pad n width
      = List.replicate (width - (decimalNat n).length) 0x30 ++ decimalNat n := rfl
  refine ⟨?_, fun c hc => ?_, ?_⟩
  · rw [hpad, List.length_append, List.length_replicate]
    omega
  · rw [hpad, List.mem_append] at hc
    obtain hc | hc := hc
    · rw [List.eq_of_mem_replicate hc]
      decide
    · exact mem_decimalNat hc
  · rw [hpad]
    generalize width - (decimalNat n).length = zeros
    induction zeros with
    | zero => exact digitsValue_decimalNat n
    | succ zeros ih =>
      rw [List.replicate_succ, List.cons_append, digitsValue_cons, ih]
      exact (congrArg (· + n) (Nat.zero_mul _)).trans (Nat.zero_add n)

/-- The text of a date is read back, in the years that have four digits. -/
theorem parseIsoDate_toIso {date : CivilDate} (hok : date.Ok) (hyear : 0 ≤ date.year)
    (hyear' : date.year ≤ 9999) : parseIsoDate (toIso date) = some date.toDays := by
  obtain ⟨year, month, day⟩ := date
  obtain ⟨⟨hmonth, hmonth'⟩, hday, hday'⟩ := id hok
  have hlast : CivilDate.lastDay year month ≤ 31 := by
    unfold CivilDate.lastDay
    split_ifs <;> omega
  lift year to Nat using hyear
  lift month to Nat using by dsimp only at hmonth; omega
  lift day to Nat using by dsimp only at hday; omega
  dsimp only at *
  obtain ⟨hy, hydigits, hyvalue⟩ := @pad_spec year 4 (by omega) (by omega)
  obtain ⟨hm, hmdigits, hmvalue⟩ := @pad_spec month 2 (by omega) (by omega)
  obtain ⟨hd, hddigits, hdvalue⟩ := @pad_spec day 2 (by omega) (by omega)
  rw [toIso]
  generalize pad year 4 = ys at *
  generalize pad month 2 = ms at *
  generalize pad day 2 = ds at *
  obtain ⟨y₁, y₂, y₃, y₄, rfl⟩ := List.length_eq_four.mp hy
  obtain ⟨m₁, m₂, rfl⟩ := List.length_eq_two.mp hm
  obtain ⟨d₁, d₂, rfl⟩ := List.length_eq_two.mp hd
  show parseIsoDate [y₁, y₂, y₃, y₄, 0x2D, m₁, m₂, 0x2D, d₁, d₂] = _
  rw [parseIsoDate]
  rw [hyvalue, hmvalue, hdvalue, if_pos]
  refine ⟨rfl, rfl, fun c hc => ?_, hok⟩
  simp only [List.mem_cons, List.not_mem_nil, or_false] at hc hydigits hmdigits hddigits
  grind

/-! ## The document -/

structure CalendarData where
  holidays : List Bytes := []
  specialSessions : List Bytes := []
  openMin : Int := 0
  entryCutoffMin : Int := 0
  squareOffMin : Int := 0
  closeMin : Int := 0
  deriving DecidableEq

/-- One entry of `holidays` or `special_sessions`. -/
def loadDate (key : Bytes) (out : List Bytes) : Json.Value → Result (List Bytes)
  | .string entry =>
    if (parseIsoDate entry).isSome then .ok (out.insert entry)
    else .error (makeError .validation
      (ascii "calendar: '" ++ key ++ ascii "' has invalid ISO date \"" ++ entry ++ ascii "\""))
  | _ => .error (makeError .validation
      (ascii "calendar: '" ++ key ++ ascii "' entries must be ISO date strings"))

/-- `load_dates`: an absent key is an empty set. -/
def loadDates (members : List (Bytes × Json.Value)) (key : Bytes) : Result (List Bytes) :=
  match members.lookup key with
  | none => .ok []
  | some (.array elements) => elements.foldlM (loadDate key) []
  | some _ => .error (makeError .validation
      (ascii "calendar: '" ++ key ++ ascii "' must be an array"))

/-- `get_window`. -/
def getWindow (windows : List (Bytes × Json.Value)) (key : Bytes) : Option Int :=
  match windows.lookup key with
  | some (.string text) => parseHhmm text
  | _ => none

def windowError : Errors.Error :=
  makeError .validation (ascii "calendar: invalid window time (expected \"HH:MM\", 00-23:00-59)")

/-- `parse_calendar_json`, over the JSON library's parse. -/
def parseCalendarJson (parse : Bytes → Option Json.Value) (doc : Bytes) : Result CalendarData :=
  match parse doc with
  | some (.object members) => do
    let holidays ← loadDates members (ascii "holidays")
    let specialSessions ← loadDates members (ascii "special_sessions")
    match members.lookup (ascii "windows") with
    | some (.object windows) =>
      match getWindow windows (ascii "open"), getWindow windows (ascii "entry_cutoff"),
          getWindow windows (ascii "square_off"), getWindow windows (ascii "close") with
      | some openMin, some entryCutoffMin, some squareOffMin, some closeMin =>
        .ok { holidays, specialSessions, openMin, entryCutoffMin, squareOffMin, closeMin }
      | _, _, _, _ => .error windowError
    | _ => .error (makeError .validation (ascii "calendar: missing or invalid 'windows'"))
  | _ => .error (makeError .validation (ascii "calendar: malformed JSON document"))

/-! ## The calendar at an instant -/

structure TradingCalendar where
  tzOffsetMinutes : Int
  calendar : CalendarData := {}
  cacheDate : Bytes := []
  loaded : Bool := false

namespace TradingCalendar

/-- The clock's ticks, nanoseconds, in a minute and in a day. -/
def minuteTicks : Int := 60000000000

def dayTicks : Int := 1440 * minuteTicks

structure LocalNow where
  isoDate : Bytes
  minuteOfDay : Int

def localNow (st : TradingCalendar) (now : Int) : LocalNow :=
  let here := now + st.tzOffsetMinutes * minuteTicks
  -- `floor<days>`, then a `duration_cast` of what is left
  let day := here / dayTicks
  let sinceMidnight := here - day * dayTicks
  ⟨toIso (CivilDate.ofDays day), sinceMidnight.tdiv minuteTicks⟩

/-- `ingest`: nothing changes unless the document is accepted. -/
def ingest (parse : Bytes → Option Json.Value) (doc isoDate : Bytes) (st : TradingCalendar) :
    Result Unit × TradingCalendar :=
  match parseCalendarJson parse doc with
  | .error error => (.error error, st)
  | .ok data => (.ok (), { st with calendar := data, cacheDate := isoDate, loaded := true })

def requireFresh (st : TradingCalendar) (now : Int) : Result Unit :=
  if st.loaded = false ∨ st.cacheDate ≠ (st.localNow now).isoDate then
    .error (makeError .dataStale (ascii "calendar is stale or undownloaded; trading blocked"))
  else .ok ()

def isTradingDay (st : TradingCalendar) (isoDate : Bytes) : Bool :=
  if isoDate ∈ st.calendar.specialSessions then true
  else if isoDate ∈ st.calendar.holidays then false
  else match parseIsoDate isoDate with
    | none => false
    | some day => !(CivilDate.weekday day = 6 || CivilDate.weekday day = 0)

def inEntryWindow (st : TradingCalendar) (now : Int) : Bool :=
  let here := st.localNow now
  st.isTradingDay here.isoDate && decide (st.calendar.openMin ≤ here.minuteOfDay)
    && decide (here.minuteOfDay < st.calendar.entryCutoffMin)

def pastSquareOff (st : TradingCalendar) (now : Int) : Bool :=
  decide (st.calendar.squareOffMin ≤ (st.localNow now).minuteOfDay)

def inSession (st : TradingCalendar) (now : Int) : Bool :=
  let here := st.localNow now
  st.isTradingDay here.isoDate && decide (st.calendar.openMin ≤ here.minuteOfDay)
    && decide (here.minuteOfDay < st.calendar.closeMin)

def requireEntryAllowed (st : TradingCalendar) (now : Int) : Result Unit :=
  let here := st.localNow now
  if st.isTradingDay here.isoDate = false then
    .error (makeError .marketClosed (ascii "calendar: not a trading day"))
  else if here.minuteOfDay < st.calendar.openMin then
    .error (makeError .marketClosed (ascii "calendar: before open"))
  else if st.calendar.entryCutoffMin ≤ here.minuteOfDay then
    .error (makeError .marketClosed (ascii "calendar: at or after entry cutoff"))
  else .ok ()

/-! ## Trading days -/

theorem isTradingDay_eq_true_iff (st : TradingCalendar) (isoDate : Bytes) :
    st.isTradingDay isoDate = true ↔
      isoDate ∈ st.calendar.specialSessions
        ∨ isoDate ∉ st.calendar.holidays
          ∧ ∃ day, parseIsoDate isoDate = some day
            ∧ CivilDate.weekday day ≠ 6 ∧ CivilDate.weekday day ≠ 0 := by
  unfold isTradingDay
  split_ifs with hspecial hholiday
  · simp [hspecial]
  · simp [hspecial, hholiday]
  · cases parseIsoDate isoDate <;> simp [hspecial, hholiday]

/-- **A trading day** of a year with four digits: a special session, or neither a holiday nor a
Saturday nor a Sunday. -/
theorem isTradingDay_toIso (st : TradingCalendar) {day : Int}
    (hyear : 0 ≤ (CivilDate.ofDays day).year) (hyear' : (CivilDate.ofDays day).year ≤ 9999) :
    st.isTradingDay (toIso (CivilDate.ofDays day)) = true ↔
      toIso (CivilDate.ofDays day) ∈ st.calendar.specialSessions
        ∨ toIso (CivilDate.ofDays day) ∉ st.calendar.holidays
          ∧ CivilDate.weekday day ≠ 6 ∧ CivilDate.weekday day ≠ 0 := by
  have hread := parseIsoDate_toIso (CivilDate.ok_ofDays day) hyear hyear'
  rw [CivilDate.toDays_ofDays] at hread
  rw [isTradingDay_eq_true_iff, hread]
  simp

/-! ## The minute of the day -/

/-- Whatever the instant and the offset, negative ones included, the minute is one of the day's. -/
theorem minuteOfDay_bounds (st : TradingCalendar) (now : Int) :
    0 ≤ (st.localNow now).minuteOfDay ∧ (st.localNow now).minuteOfDay < 1440 := by
  show 0 ≤ Int.tdiv _ minuteTicks ∧ Int.tdiv _ minuteTicks < 1440
  unfold dayTicks minuteTicks
  rw [Int.tdiv_eq_ediv_of_nonneg (by omega)]
  omega

/-- Every minute of every day is some instant's. -/
theorem exists_localNow (st : TradingCalendar) (day minute : Int) (h : 0 ≤ minute)
    (h' : minute < 1440) :
    ∃ now, st.localNow now = ⟨toIso (CivilDate.ofDays day), minute⟩ := by
  refine ⟨(day * 1440 + minute - st.tzOffsetMinutes) * minuteTicks, ?_⟩
  unfold localNow
  dsimp only
  generalize hhere : (day * 1440 + minute - st.tzOffsetMinutes) * minuteTicks
    + st.tzOffsetMinutes * minuteTicks = here
  unfold dayTicks minuteTicks at *
  have hday : here / (1440 * 60000000000) = day := by omega
  have hminute : here - day * (1440 * 60000000000) = minute * 60000000000 := by omega
  rw [hday, hminute, Int.mul_tdiv_cancel _ (by omega)]

/-! ## Entries and the session -/

theorem inEntryWindow_eq_true_iff (st : TradingCalendar) (now : Int) :
    st.inEntryWindow now = true ↔
      st.isTradingDay (st.localNow now).isoDate = true
        ∧ st.calendar.openMin ≤ (st.localNow now).minuteOfDay
        ∧ (st.localNow now).minuteOfDay < st.calendar.entryCutoffMin := by
  simp [inEntryWindow, and_assoc]

theorem inSession_eq_true_iff (st : TradingCalendar) (now : Int) :
    st.inSession now = true ↔
      st.isTradingDay (st.localNow now).isoDate = true
        ∧ st.calendar.openMin ≤ (st.localNow now).minuteOfDay
        ∧ (st.localNow now).minuteOfDay < st.calendar.closeMin := by
  simp [inSession, and_assoc]

theorem pastSquareOff_eq_false_iff (st : TradingCalendar) (now : Int) :
    st.pastSquareOff now = false ↔
      (st.localNow now).minuteOfDay < st.calendar.squareOffMin := by
  simp [pastSquareOff]

theorem requireEntryAllowed_ok_iff (st : TradingCalendar) (now : Int) :
    st.requireEntryAllowed now = .ok () ↔ st.inEntryWindow now = true := by
  rw [inEntryWindow_eq_true_iff]
  unfold requireEntryAllowed
  dsimp only
  split_ifs with hday hopen hcutoff
  · simp [hday]
  · simp [Int.not_le.mpr hopen]
  · simp [Int.not_lt.mpr hcutoff]
  · simp [hday, Int.not_lt.mp hopen, Int.not_le.mp hcutoff]

/-- A calendar that was never loaded allows no entry. -/
theorem requireEntryAllowed_unloaded (st : TradingCalendar) (h : st.calendar = {}) (now : Int) :
    st.requireEntryAllowed now ≠ .ok () := by
  rw [Ne, requireEntryAllowed_ok_iff, inEntryWindow_eq_true_iff, h]
  rintro ⟨-, hopen, hcutoff⟩
  exact absurd hcutoff (Int.not_lt.mpr hopen)

end TradingCalendar

/-! ## What an accepted document says -/

theorem parseHhmm_bounds {text : Bytes} {minutes : Int} (h : parseHhmm text = some minutes) :
    0 ≤ minutes ∧ minutes < 1440 := by
  unfold parseHhmm at h
  split at h
  · dsimp only at h
    split_ifs at h with hshape
    obtain rfl := Option.some.inj h
    omega
  · cases h

theorem getWindow_bounds {windows : List (Bytes × Json.Value)} {key : Bytes} {minutes : Int}
    (h : getWindow windows key = some minutes) : 0 ≤ minutes ∧ minutes < 1440 := by
  unfold getWindow at h
  split at h
  · exact parseHhmm_bounds h
  · cases h

/-- The four times, each a minute of the day. -/
structure CalendarData.InDay (data : CalendarData) : Prop where
  openMin : 0 ≤ data.openMin ∧ data.openMin < 1440
  entryCutoffMin : 0 ≤ data.entryCutoffMin ∧ data.entryCutoffMin < 1440
  squareOffMin : 0 ≤ data.squareOffMin ∧ data.squareOffMin < 1440
  closeMin : 0 ≤ data.closeMin ∧ data.closeMin < 1440

theorem inDay_of_parse {parse : Bytes → Option Json.Value} {doc : Bytes} {data : CalendarData}
    (h : parseCalendarJson parse doc = .ok data) : data.InDay := by
  unfold parseCalendarJson at h
  split at h
  case h_2 => cases h
  obtain ⟨holidays, -, h⟩ := Steps.bind_eq_ok.mp h
  obtain ⟨specialSessions, -, h⟩ := Steps.bind_eq_ok.mp h
  split at h
  case h_2 => cases h
  split at h
  case h_2 => cases h
  case h_1 _ _ _ _ hopen hcutoff hsquareOff hclose =>
    obtain rfl := Except.ok.inj h
    exact ⟨getWindow_bounds hopen, getWindow_bounds hcutoff, getWindow_bounds hsquareOff,
      getWindow_bounds hclose⟩

/-! ## An entry is in session -/

/-- Whenever the calendar allows an entry, and it does in its entry window exactly, the session is
on and the square-off has not begun. -/
def EntriesInSession (data : CalendarData) : Prop :=
  ∀ st : TradingCalendar, st.calendar = data → ∀ now,
    (st.requireEntryAllowed now = .ok () ↔ st.inEntryWindow now = true)
      ∧ (st.requireEntryAllowed now = .ok () →
          st.inSession now = true ∧ st.pastSquareOff now = false)

/-- The entry window is empty, or it ends before the session does and before the square-off. -/
def CalendarData.Nested (data : CalendarData) : Prop :=
  data.entryCutoffMin ≤ data.openMin
    ∨ data.entryCutoffMin ≤ data.closeMin ∧ data.entryCutoffMin ≤ data.squareOffMin

instance (data : CalendarData) : Decidable data.Nested := inferInstanceAs (Decidable (_ ∨ _))

/-- A day that the calendar trades on. -/
def CalendarData.Trades (data : CalendarData) (day : Int) : Prop :=
  TradingCalendar.isTradingDay ⟨0, data, [], true⟩ (toIso (CivilDate.ofDays day)) = true

theorem trades_iff {data : CalendarData} {st : TradingCalendar} (h : st.calendar = data)
    (day : Int) : data.Trades day ↔ st.isTradingDay (toIso (CivilDate.ofDays day)) = true := by
  rw [CalendarData.Trades, TradingCalendar.isTradingDay_eq_true_iff,
    TradingCalendar.isTradingDay_eq_true_iff, h]

/-- **When entries stay in session**: the windows are nested, unless the calendar has no trading
day at all. -/
theorem entriesInSession_iff {parse : Bytes → Option Json.Value} {doc : Bytes}
    {data : CalendarData} (h : parseCalendarJson parse doc = .ok data) :
    EntriesInSession data ↔ ((∃ day, data.Trades day) → data.Nested) := by
  have hday := inDay_of_parse h
  constructor
  · rintro hentries ⟨day, htrades⟩
    by_contra hnested
    have hwindow : data.openMin < data.entryCutoffMin
        ∧ (data.closeMin < data.entryCutoffMin ∨ data.squareOffMin < data.entryCutoffMin) := by
      unfold CalendarData.Nested at hnested
      omega
    -- the last minute of the entry window is already out of session, or past the square-off
    let st : TradingCalendar := { tzOffsetMinutes := 0, calendar := data }
    obtain ⟨now, hnow⟩ := st.exists_localNow day (data.entryCutoffMin - 1)
      (by have := hday.openMin; omega) (by have := hday.entryCutoffMin; omega)
    obtain ⟨hok, hsession⟩ := hentries st rfl now
    have hallowed : st.inEntryWindow now = true := by
      rw [TradingCalendar.inEntryWindow_eq_true_iff, hnow]
      refine ⟨(trades_iff rfl day).mp htrades, ?_, ?_⟩
      · show data.openMin ≤ data.entryCutoffMin - 1
        omega
      · show data.entryCutoffMin - 1 < data.entryCutoffMin
        omega
    obtain ⟨hin, hbefore⟩ := hsession (hok.mpr hallowed)
    rw [TradingCalendar.inSession_eq_true_iff, hnow] at hin
    rw [TradingCalendar.pastSquareOff_eq_false_iff, hnow] at hbefore
    have hclose : data.entryCutoffMin - 1 < data.closeMin := hin.2.2
    have hsquareOff : data.entryCutoffMin - 1 < data.squareOffMin := hbefore
    omega
  · intro hnested st hst now
    have hok := st.requireEntryAllowed_ok_iff now
    refine ⟨hok, fun hallowed => ?_⟩
    obtain ⟨htrading, hopen, hcutoff⟩ := (st.inEntryWindow_eq_true_iff now).mp (hok.mp hallowed)
    have hnested := hnested ⟨_, (trades_iff hst _).mpr htrading⟩
    rw [hst] at hopen hcutoff
    rw [TradingCalendar.inSession_eq_true_iff, TradingCalendar.pastSquareOff_eq_false_iff, hst]
    unfold CalendarData.Nested at hnested
    exact ⟨⟨htrading, hopen, by omega⟩, by omega⟩

/-! A calendar that closes at 15:30 and squares off at 15:20. -/

def closingText (entryCutoff : String) : Bytes :=
  ascii "\x7b\"windows\":\x7b\"open\":\"09:15\",\"entry_cutoff\":\"" ++ ascii entryCutoff
    ++ ascii "\",\"square_off\":\"15:20\",\"close\":\"15:30\"\x7d\x7d"

def closingDocument (entryCutoff : String) : Json.Value :=
  .object [(ascii "windows", .object
    [(ascii "close", .string (ascii "15:30")), (ascii "entry_cutoff", .string (ascii entryCutoff)),
      (ascii "open", .string (ascii "09:15")), (ascii "square_off", .string (ascii "15:20"))])]

/-- A parser of that one text. -/
def parseClosing (entryCutoff : String) (doc : Bytes) : Option Json.Value :=
  if doc = closingText entryCutoff then some (closingDocument entryCutoff) else none

def closingData (entryCutoffMin : Int) : CalendarData where
  openMin := 555
  entryCutoffMin := entryCutoffMin
  squareOffMin := 920
  closeMin := 930

/-- With the cutoff at 15:00 every entry is in session. -/
theorem entriesInSession_iff_three : EntriesInSession (closingData 900) :=
  (@entriesInSession_iff (parseClosing "15:00") (closingText "15:00") (closingData 900)
    (by rfl)).mpr fun _ => by decide

/-- **An entry after the close**: with the cutoff at 15:45, an entry is allowed at 15:35 in India
on Monday 2026-06-29, when the session is over and the square-off has begun. -/
theorem entry_after_close :
    let st : TradingCalendar := { tzOffsetMinutes := 330, calendar := closingData 945 }
    let now : Int := 1782727500000000000
    parseCalendarJson (parseClosing "15:45") (closingText "15:45") = .ok st.calendar
      ∧ (st.localNow now).isoDate = ascii "2026-06-29" ∧ (st.localNow now).minuteOfDay = 935
      ∧ st.requireEntryAllowed now = .ok ()
      ∧ st.inSession now = false ∧ st.pastSquareOff now = true
      ∧ ¬ EntriesInSession st.calendar := by
  refine ⟨by rfl, by decide, by decide, by decide, by decide, by decide, fun h => ?_⟩
  have hsession := (h ⟨330, closingData 945, [], false⟩ rfl 1782727500000000000).2 (by decide)
  exact absurd hsession.1 (by decide)

end BrokerExec.Refdata

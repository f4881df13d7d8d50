/-
  The years of syslog timestamps: `TimestampFormatter` of rsyslog_plugin/timestamp_formatter.cpp.

  Model.  A message has the month, the day and the time of its syslog line (any texts, the month one
  of those that are known) and the year in which it was written; the wall clock is in that year
  while the message is formatted.  `std::string::compare` is the order of texts.

  Proved: `formatAll_iff`.  All messages get their own year exactly if every message of another
  year than the one before it has a smaller month, day and time.  The year is kept as long as the
  texts do not decrease, so a gap that crosses a year and ends later in the calendar keeps the old
  year (`year_kept`).
-/
import SonicBuildimage.Lib.PyDict

namespace SonicBuildimage.Eventd

open SonicBuildimage.Lib

/-- `g_monthDict` -/
def monthDict : Dict String String :=
  [("Jan", "01"), ("Feb", "02"), ("Mar", "03"), ("Apr", "04"), ("May", "05"), ("Jun", "06"),
    ("Jul", "07"), ("Aug", "08"), ("Sep", "09"), ("Oct", "10"), ("Nov", "11"), ("Dec", "12")]

structure TimestampFormatter where
  storedTimestamp : String := ""
  storedYear : String := ""

/-- `getYear`, with the year of the wall clock. -/
def TimestampFormatter.getYear (currentYear : Nat) (f : TimestampFormatter) (timestamp : String) :
    TimestampFormatter × String :=
  if f.storedTimestamp ≠ "" ∧ ¬timestamp < f.storedTimestamp then
    ({ f with storedTimestamp := timestamp }, f.storedYear)
  else
    (⟨timestamp, toString currentYear⟩, toString currentYear)

/-- `1` as `01`. -/
def padDay (day : String) : String := if day.length = 1 then "0" ++ day else day

/-- `changeTimestampFormat`; the text is empty for what is no timestamp. -/
def TimestampFormatter.changeTimestampFormat (currentYear : Nat) (f : TimestampFormatter) :
    List String → TimestampFormatter × String
  | name :: day :: time :: _ =>
    match Dict.get? monthDict name with
    | none => (f, "")
    | some month =>
      let r := f.getYear currentYear (month ++ padDay day ++ time)
      (r.1, r.2 ++ ("-" ++ month ++ "-" ++ padDay day ++ "T" ++ time ++ "Z"))
  | _ => (f, "")

/-- A message, with the year it was written in. -/
structure Message where
  name : String
  day : String
  time : String
  year : Nat
  month : String
  known : Dict.get? monthDict name = some month

namespace Message

/-- What the formatter compares. -/
def stamp (m : Message) : String := m.month ++ padDay m.day ++ m.time

/-- The timestamp with a year. -/
def dated (m : Message) (year : String) : String :=
  year ++ ("-" ++ m.month ++ "-" ++ padDay m.day ++ "T" ++ m.time ++ "Z")

theorem stamp_ne_empty (m : Message) : m.stamp ≠ "" := by
  have hmonth : ∀ e ∈ monthDict, e.2 ≠ "" := by decide
  intro h
  have hparts : m.month = "" := by
    rw [stamp, String.append_eq_empty_iff, String.append_eq_empty_iff] at h
    exact h.1.1
  exact hmonth _ (Dict.mem_of_get? m.known) hparts

theorem dated_inj (m : Message) (year year' : Nat) :
    m.dated (toString year) = m.dated (toString year') ↔ year = year' := by
  unfold dated
  rw [String.append_left_inj]
  exact Nat.repr_inj

end Message

/-- The messages, formatted one after the other while the clock is in their own years. -/
def formatAll : TimestampFormatter → List Message → List String
  | _, [] => []
  | f, m :: ms =>
    let r := f.changeTimestampFormat m.year [m.name, m.day, m.time]
    r.2 :: formatAll r.1 ms

/-- The message is in the year of the one before, or earlier in the calendar. -/
def YearSeen (m m' : Message) : Prop := m.year = m'.year ∨ m'.stamp < m.stamp

instance (m m' : Message) : Decidable (YearSeen m m') :=
  inferInstanceAs (Decidable (_ ∨ _ < _))

theorem changeTimestampFormat_eq (f : TimestampFormatter) (m : Message) :
    f.changeTimestampFormat m.year [m.name, m.day, m.time] =
      ((f.getYear m.year m.stamp).1, m.dated (f.getYear m.year m.stamp).2) := by
  unfold TimestampFormatter.changeTimestampFormat
  simp only [m.known]
  rfl

/-- The first message gets the year of the clock. -/
theorem getYear_new (m : Message) :
    ({} : TimestampFormatter).getYear m.year m.stamp =
      (⟨m.stamp, toString m.year⟩, toString m.year) :=
  if_neg fun h => h.1 rfl

/-- After a message with its own year: the next one gets its own year if it is in that year, or
    if it makes the formatter look at the clock. -/
theorem getYear_next (m m' : Message) :
    (YearSeen m m' → (⟨m.stamp, toString m.year⟩ : TimestampFormatter).getYear m'.year m'.stamp =
        (⟨m'.stamp, toString m'.year⟩, toString m'.year)) ∧
      (¬YearSeen m m' →
        ((⟨m.stamp, toString m.year⟩ : TimestampFormatter).getYear m'.year m'.stamp).2 =
          toString m.year ∧ m.year ≠ m'.year) := by
  unfold TimestampFormatter.getYear YearSeen
  by_cases hlt : m'.stamp < m.stamp
  · rw [if_neg fun h => h.2 hlt]
    exact ⟨fun _ => rfl, fun h => absurd (Or.inr hlt) h⟩
  · rw [if_pos ⟨m.stamp_ne_empty, hlt⟩]
    constructor
    · rintro (hyear | h)
      · rw [hyear]
      · exact absurd h hlt
    · exact fun h => ⟨rfl, fun hyear => h (Or.inl hyear)⟩

/-- The messages after one that got its own year. -/
theorem formatAll_after (m : Message) (ms : List Message) :
    formatAll ⟨m.stamp, toString m.year⟩ ms = ms.map (fun m => m.dated (toString m.year)) ↔
      (m :: ms).IsChain YearSeen := by
  induction ms generalizing m with
  | nil => exact iff_of_true rfl (List.isChain_singleton m)
  | cons m' ms ih =>
    rw [formatAll, changeTimestampFormat_eq, List.map_cons, List.isChain_cons_cons, ← ih m']
    by_cases hseen : YearSeen m m'
    · rw [(getYear_next m m').1 hseen]
      simp [hseen]
    · obtain ⟨hkept, hne⟩ := (getYear_next m m').2 hseen
      rw [hkept]
      refine iff_of_false (fun h => hne ?_) fun h => hseen h.1
      exact (m'.dated_inj m.year m'.year).1 (List.cons.inj h).1

/-- All messages get their own years exactly if each year is seen to change. -/
theorem formatAll_iff (ms : List Message) :
    formatAll {} ms = ms.map (fun m => m.dated (toString m.year)) ↔ ms.IsChain YearSeen := by
  cases ms with
  | nil => exact iff_of_true rfl List.isChain_nil
  | cons m ms =>
    rw [formatAll, changeTimestampFormat_eq, getYear_new, List.map_cons, List.cons_inj_right,
      formatAll_after]

/-- A message of March 2023, and the next one in June 2024. -/
theorem year_kept :
    formatAll {} [⟨"Mar", "1", "10:00:00.000000", 2023, "03", rfl⟩,
        ⟨"Jun", "1", "10:00:00.000000", 2024, "06", rfl⟩] =
      ["2023-03-01T10:00:00.000000Z", "2023-06-01T10:00:00.000000Z"] := by
  decide +kernel

end SonicBuildimage.Eventd

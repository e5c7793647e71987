import VideoAdapter.Adapter.DBHelper
import VideoAdapter.Lib.Text

namespace VideoAdapter.Adapter

open Lib

-- The fields of `struct tm` that `%H:%M:%S` fills in.
structure Tm where
  hour : Nat
  min : Nat
  sec : Nat
deriving DecidableEq, Repr

def Tm.seconds (tm : Tm) : Nat := 3600 * tm.hour + 60 * tm.min + tm.sec

def isSpace (c : Char) : Bool := c = ' ' ∨ (9 ≤ c.toNat ∧ c.toNat ≤ 13)

-- A conversion of `strptime`: leading space, one digit, and a second one when the value
-- can still stay in the range.
def getNumber (limit : Nat) (rp : List Char) : Option (Nat × List Char) :=
  match rp.dropWhile isSpace with
  | [] => none
  | c :: rest =>
      if !c.isDigit then none
      else
        let val := c.toNat - 48
        match rest with
        | [] => if val ≤ limit then some (val, []) else none
        | d :: rest' =>
            if val * 10 ≤ limit ∧ d.isDigit then
              let val := val * 10 + (d.toNat - 48)
              if val ≤ limit then some (val, rest') else none
            else if val ≤ limit then some (val, rest) else none

def matchColon : List Char → Option (List Char)
  | ':' :: rest => some rest
  | _ => none

-- Text after the seconds is not looked at.
def strptime (s : String) : Option Tm := do
  let hour ← getNumber 23 s.toList
  let rest ← matchColon hour.2
  let min ← getNumber 59 rest
  let rest ← matchColon min.2
  let sec ← getNumber 61 rest
  return { hour := hour.1, min := min.1, sec := sec.1 }

-- What `localtime` can put into the three fields.
structure TimeOfDay extends Tm where
  hour_lt : hour < 24
  min_lt : min < 60
  sec_le : sec ≤ 60

-- `%02d` of a number below a hundred
def twoDigits (n : Nat) : List Char := [Char.ofNat (48 + n / 10), Char.ofNat (48 + n % 10)]

-- `GetCurrentTime(false)`
def getCurrentTime (t : TimeOfDay) : String :=
  String.ofList (twoDigits t.hour ++ ':' :: (twoDigits t.min ++ ':' :: twoDigits t.sec))

def checkTimeFormat (strtime : String) : Bool := (strptime strtime).isSome

-- The four reference arguments of `ParseTimeSection`.
structure Windows where
  s0 : String := ""
  e0 : String := ""
  s1 : String := ""
  e1 : String := ""
deriving DecidableEq, Repr

section Schedule

-- `mktime` of a structure whose other fields are zero.
variable (mktime : Tm → Int)

def timeCompare (starttime endtime : String) : Bool :=
  match strptime starttime, strptime endtime with
  | some tmS, some tmE => mktime tmS ≤ mktime tmE
  | _, _ => false

def checkInternal (strtime starttime endtime : String) : Bool :=
  if starttime = "" ∧ endtime = "" then true
  else timeCompare mktime starttime endtime && timeCompare mktime starttime strtime &&
    timeCompare mktime strtime endtime

-- `insert(pos, ":")`, which throws when the position is behind the end
def insertColon (pos : Nat) (s : List Char) : Option (List Char) :=
  if pos ≤ s.length then some (s.take pos ++ ':' :: s.drop pos) else none

def withColons (s : List Char) : Option String := do
  let s ← insertColon 2 s
  let s ← insertColon 5 s
  return String.ofList s

-- The texts before and behind a position, with their colons. No result where a cut or an
-- insertion throws.
def cutSection (pos : Int) (sec : List Char) : Option (String × String) := do
  let s ← withColons (substrTo pos sec)
  let e ← substr (toInt (pos + 1)) sec
  let e ← withColons e
  return (s, e)

-- One section: `some none` stands for the result -1.
def parseSection (sec : String) : Option (Option (String × String)) :=
  let pos := findPos ['-'] sec.toList
  if pos = -1 then some none
  else
    (cutSection pos sec.toList).map fun (s, e) =>
      if !checkTimeFormat s || !checkTimeFormat e then none
      else if !timeCompare mktime s e then none
      else some (s, e)

-- A section that is accepted is stored even when the result is then -1.
def parseTimeSection (sec0 sec1 : String) (w : Windows) : Option (Int × Windows) :=
  match parseSection mktime sec0 with
  | none => none
  | some none => some (-1, w)
  | some (some (s, e)) =>
      let w := { w with s0 := s, e0 := e }
      if sec1 = "" then some (1, w)
      else match parseSection mktime sec1 with
        | none => none
        | some none => some (-1, w)
        | some (some (s, e)) =>
            let w := { w with s1 := s, e1 := e }
            if !timeCompare mktime w.e0 w.s1 then some (-1, w) else some (2, w)

-- The row of `check_start_push`: 0 check ok, 3 not valid at this time, 100 invalid data
def checkRow (strtime : String) (sqlrow : Row) : Int :=
  match sqlrow 4 with
  | none => 100
  | some strallday =>
      if strallday ≠ "0" ∧ strallday ≠ "1" then 100
      else if atoi strallday ≠ 0 then 0
      else
        let starttime1 := (sqlrow 5).getD ""
        let endtime1 := (sqlrow 6).getD ""
        let starttime2 := (sqlrow 7).getD ""
        let endtime2 := (sqlrow 8).getD ""
        if starttime1 = "" then 100
        else if checkInternal mktime strtime starttime1 endtime1 then 0
        else if starttime2 = "" then 3
        else if checkInternal mktime strtime starttime2 endtime2 then 0
        else 3

-- 0 check ok, 1 database error, 2 device not exist, 3 not valid at this time, 100 invalid data
def DBHelper.checkStartPush (query : QueryResult) (strtime : String) : Int :=
  match query with
  | .noConnection => 1
  | .failed => 1
  | .noResult => 100
  | .rows [] => 2
  | .rows (sqlrow :: _) => checkRow mktime strtime sqlrow

-- What makes `CheckState` stop a pushing device that has windows.
def outsideWindows (strtime : String) (p : DeviceNode) : Bool :=
  p.s0 ≠ "" ∧ !checkInternal mktime strtime p.s0 p.e0 ∧
    !(p.s1 ≠ "" ∧ checkInternal mktime strtime p.s1 p.e1)

-- The assumption on `mktime`: it increases strictly with the seconds of the day.
def Increasing : Prop := ∀ a b, mktime a ≤ mktime b ↔ a.seconds ≤ b.seconds

theorem digit_digitChar {d : Nat} (hd : d < 10) :
    (Char.ofNat (48 + d)).isDigit = true ∧ (Char.ofNat (48 + d)).toNat - 48 = d ∧
      isSpace (Char.ofNat (48 + d)) = false := by
  have hall : ∀ d < 10, (Char.ofNat (48 + d)).isDigit = true ∧
      (Char.ofNat (48 + d)).toNat - 48 = d ∧ isSpace (Char.ofNat (48 + d)) = false := by decide
  exact hall d hd

-- Two printed digits are read back, whatever follows them.
theorem getNumber_twoDigits {limit n : Nat} (hn : n ≤ limit) (hsmall : n < 100) (rest : List Char) :
    getNumber limit (twoDigits n ++ rest) = some (n, rest) := by
  obtain ⟨htens, hvalue, hspace⟩ := digit_digitChar (d := n / 10) (by omega)
  obtain ⟨hones, hvalue', -⟩ := digit_digitChar (d := n % 10) (by omega)
  have hfirst : n / 10 * 10 ≤ limit := by omega
  have hsum : n / 10 * 10 + n % 10 = n := by omega
  simp only [twoDigits, List.cons_append, List.nil_append, getNumber,
    List.dropWhile_cons_of_neg (by simp [hspace] : ¬ isSpace (Char.ofNat (48 + n / 10)) = true),
    htens, hones, hvalue, hvalue', hfirst, hsum, hn, Bool.not_true, Bool.false_eq_true, if_false,
    and_self, if_true]

theorem strptime_getCurrentTime (t : TimeOfDay) : strptime (getCurrentTime t) = some t.toTm := by
  have hh := t.hour_lt
  have hm := t.min_lt
  have hs := t.sec_le
  have hsec : getNumber 61 (twoDigits t.sec) = some (t.sec, []) := by
    simpa using getNumber_twoDigits (show t.sec ≤ 61 by omega) (by omega) []
  unfold strptime getCurrentTime
  rw [String.toList_ofList, getNumber_twoDigits (by omega) (by omega)]
  simp only [Option.bind_eq_bind, Option.bind_some, matchColon]
  rw [getNumber_twoDigits (by omega) (by omega)]
  simp only [Option.bind_some, hsec, Option.pure_def]

theorem strptime_empty : strptime "" = none := by decide

variable {mktime}

theorem timeCompare_iff (hmk : Increasing mktime) (starttime endtime : String) :
    timeCompare mktime starttime endtime = true ↔
      ∃ tmS tmE, strptime starttime = some tmS ∧ strptime endtime = some tmE ∧
        tmS.seconds ≤ tmE.seconds := by
  unfold timeCompare
  cases hS : strptime starttime with
  | none => simp
  | some tmS =>
      cases hE : strptime endtime with
      | none => simp
      | some tmE => simp [hmk tmS tmE]

-- A time of day lies between two stored times, both ends included.
def Inside (starttime endtime : String) (t : Tm) : Prop :=
  ∃ tmS tmE, strptime starttime = some tmS ∧ strptime endtime = some tmE ∧
    tmS.seconds ≤ t.seconds ∧ t.seconds ≤ tmE.seconds

-- `CheckInternal` on a window with a start decides whether the time lies in it. The order of
-- the two ends, which it checks first, follows from the other two comparisons.
theorem checkInternal_iff (hmk : Increasing mktime) (t : TimeOfDay) {starttime endtime : String}
    (hstart : starttime ≠ "") :
    checkInternal mktime (getCurrentTime t) starttime endtime = true ↔
      Inside starttime endtime t.toTm := by
  have hne : ¬ (starttime = "" ∧ endtime = "") := fun h => hstart h.1
  simp only [checkInternal, if_neg hne, Bool.and_eq_true, timeCompare_iff hmk,
    strptime_getCurrentTime]
  constructor
  · rintro ⟨⟨-, tmS, now, hS, hnow, hle⟩, now', tmE, hnow', hE, hle'⟩
    cases hnow
    cases hnow'
    exact ⟨tmS, tmE, hS, hE, hle, hle'⟩
  · rintro ⟨tmS, tmE, hS, hE, hle, hle'⟩
    exact ⟨⟨⟨tmS, tmE, hS, hE, Nat.le_trans hle hle'⟩, tmS, t.toTm, hS, rfl, hle⟩,
      t.toTm, tmE, rfl, hE, hle'⟩

-- The rule of the schedule: in the first window or in the second one.
def Windows.Allow (w : Windows) (t : Tm) : Prop := Inside w.s0 w.e0 t ∨ Inside w.s1 w.e1 t

theorem not_inside_empty (endtime : String) (t : Tm) : ¬ Inside "" endtime t := by
  rintro ⟨tmS, -, hS, -⟩
  rw [strptime_empty] at hS
  cases hS

-- The nesting both checks share: the second window counts only when it has a start.
theorem allow_iff_checks (hmk : Increasing mktime) (t : TimeOfDay) {w : Windows} (h0 : w.s0 ≠ "") :
    w.Allow t.toTm ↔ checkInternal mktime (getCurrentTime t) w.s0 w.e0 = true ∨
      (w.s1 ≠ "" ∧ checkInternal mktime (getCurrentTime t) w.s1 w.e1 = true) := by
  rw [checkInternal_iff hmk t h0]
  by_cases h1 : w.s1 = ""
  · simp [Windows.Allow, h1, not_inside_empty]
  · simp [Windows.Allow, h1, checkInternal_iff hmk t h1]

-- A camera row with allday '0' and these windows. A second window that is absent may be NULL.
structure RowWith (sqlrow : Row) (w : Windows) : Prop where
  allday : sqlrow 4 = some "0"
  start1 : sqlrow 5 = some w.s0
  end1 : sqlrow 6 = some w.e0
  start2 : (sqlrow 7).getD "" = w.s1
  end2 : (sqlrow 8).getD "" = w.e1

theorem checkRow_eq_zero_iff (hmk : Increasing mktime) (t : TimeOfDay) {sqlrow : Row} {w : Windows}
    (hrow : RowWith sqlrow w) (h0 : w.s0 ≠ "") :
    checkRow mktime (getCurrentTime t) sqlrow = 0 ↔ w.Allow t.toTm := by
  rw [allow_iff_checks hmk t h0]
  simp only [checkRow, hrow.allday, hrow.start1, hrow.end1, hrow.start2, hrow.end2, atoi_zero,
    Option.getD_some]
  by_cases hin : checkInternal mktime (getCurrentTime t) w.s0 w.e0 = true
  · simp [h0, hin]
  · by_cases h1 : w.s1 = ""
    · simp [h0, hin, h1]
    · by_cases hin' : checkInternal mktime (getCurrentTime t) w.s1 w.e1 = true
      · simp [h0, hin, h1, hin']
      · simp [h0, hin, h1, hin']

-- The windows of a record.
def DeviceNode.windows (p : DeviceNode) : Windows := { s0 := p.s0, e0 := p.e0, s1 := p.s1, e1 := p.e1 }

theorem outsideWindows_eq_false_iff (hmk : Increasing mktime) (t : TimeOfDay) {p : DeviceNode}
    (h0 : p.s0 ≠ "") :
    outsideWindows mktime (getCurrentTime t) p = false ↔ p.windows.Allow t.toTm := by
  rw [allow_iff_checks hmk t (w := p.windows) h0]
  simp only [outsideWindows, DeviceNode.windows]
  by_cases hin : checkInternal mktime (getCurrentTime t) p.s0 p.e0 = true
  · simp [h0, hin]
  · simp only [Bool.not_eq_true] at hin
    by_cases h1 : p.s1 = ""
    · simp [h0, hin, h1]
    · cases hin' : checkInternal mktime (getCurrentTime t) p.s1 p.e1 with
      | false => simp [h0, hin, h1]
      | true => simp [h0, hin, h1]

theorem checkTimeFormat_of_timeCompare {s e : String} (h : timeCompare mktime s e = true) :
    checkTimeFormat s = true ∧ checkTimeFormat e = true := by
  unfold timeCompare at h
  unfold checkTimeFormat
  cases hs : strptime s with
  | none => simp [hs] at h
  | some tmS =>
      cases he : strptime e with
      | none => simp [hs, he] at h
      | some tmE => exact ⟨rfl, rfl⟩

-- A section is accepted when it can be cut and its times are in order.
theorem parseSection_eq_accepted_iff {sec s e : String} :
    parseSection mktime sec = some (some (s, e)) ↔
      findPos ['-'] sec.toList ≠ -1 ∧ cutSection (findPos ['-'] sec.toList) sec.toList = some (s, e) ∧
        timeCompare mktime s e = true := by
  unfold parseSection
  dsimp only
  split
  · rename_i hpos
    simp [hpos]
  · rename_i hpos
    simp only [Option.map_eq_some_iff, Prod.exists]
    constructor
    · rintro ⟨s', e', hcut, hout⟩
      split at hout
      · cases hout
      · split at hout
        · cases hout
        · rename_i hcompare
          cases hout
          exact ⟨hpos, hcut, by simpa using hcompare⟩
    · rintro ⟨-, hcut, hcompare⟩
      obtain ⟨hs, he⟩ := checkTimeFormat_of_timeCompare hcompare
      exact ⟨s, e, hcut, by simp [hs, he, hcompare]⟩

theorem parseSection_accepted (hmk : Increasing mktime) {sec s e : String}
    (h : parseSection mktime sec = some (some (s, e))) :
    ∃ tmS tmE, strptime s = some tmS ∧ strptime e = some tmE ∧ tmS.seconds ≤ tmE.seconds :=
  (timeCompare_iff hmk s e).mp (parseSection_eq_accepted_iff.mp h).2.2

-- An accepted schedule is one section, or two with the second behind the first.
theorem parseTimeSection_accepted {sec0 sec1 : String} {r : Int} {w : Windows}
    (h : parseTimeSection mktime sec0 sec1 {} = some (r, w)) (hr : r ≠ -1) :
    parseSection mktime sec0 = some (some (w.s0, w.e0)) ∧
      (r = 1 ∧ w.s1 = "" ∧ w.e1 = "" ∨
        r = 2 ∧ parseSection mktime sec1 = some (some (w.s1, w.e1)) ∧ timeCompare mktime w.e0 w.s1) := by
  unfold parseTimeSection at h
  split at h
  · cases h
  · cases h
    exact absurd rfl hr
  · rename_i s e hfirst
    split at h
    · cases h
      exact ⟨hfirst, .inl ⟨rfl, rfl, rfl⟩⟩
    · split at h
      · cases h
      · cases h
        exact absurd rfl hr
      · rename_i s' e' hsecond
        dsimp only at h
        split at h
        · cases h
          exact absurd rfl hr
        · rename_i hcompare
          cases h
          exact ⟨hfirst, .inr ⟨rfl, hsecond, by simpa using hcompare⟩⟩

-- The windows that a result leaves, in seconds of the day.
def Ordered (r : Int) (w : Windows) : Prop :=
  ∃ s0 e0, strptime w.s0 = some s0 ∧ strptime w.e0 = some e0 ∧ s0.seconds ≤ e0.seconds ∧
    (r = 1 → w.s1 = "" ∧ w.e1 = "") ∧
    (r = 2 → ∃ s1 e1, strptime w.s1 = some s1 ∧ strptime w.e1 = some e1 ∧
      e0.seconds ≤ s1.seconds ∧ s1.seconds ≤ e1.seconds)

theorem parseTimeSection_ordered (hmk : Increasing mktime) {sec0 sec1 : String} {r : Int}
    {w : Windows} (h : parseTimeSection mktime sec0 sec1 {} = some (r, w)) (hr : r = 1 ∨ r = 2) :
    Ordered r w := by
  obtain ⟨hfirst, hrest⟩ := parseTimeSection_accepted h (by omega)
  obtain ⟨s0, e0, hs0, he0, hle⟩ := parseSection_accepted hmk hfirst
  rcases hrest with ⟨rfl, hempty⟩ | ⟨rfl, hsecond, hcompare⟩
  · exact ⟨s0, e0, hs0, he0, hle, fun _ => hempty, fun h2 => absurd h2 (by decide)⟩
  · obtain ⟨s1, e1, hs1, he1, hle'⟩ := parseSection_accepted hmk hsecond
    obtain ⟨tmS, tmE, hS, hE, hbetween⟩ := (timeCompare_iff hmk _ _).mp hcompare
    obtain rfl : e0 = tmS := Option.some.inj (he0.symm.trans hS)
    obtain rfl : s1 = tmE := Option.some.inj (hs1.symm.trans hE)
    exact ⟨s0, e0, hs0, he0, hle, fun h1 => absurd h1 (by decide),
      fun _ => ⟨s1, e1, hs1, he1, hbetween, hle'⟩⟩

theorem Ordered.start_ne_empty {r : Int} {w : Windows} (h : Ordered r w) : w.s0 ≠ "" := by
  obtain ⟨s0, -, hs0, -⟩ := h
  intro he
  rw [he, strptime_empty] at hs0
  cases hs0

-- What a pass of `CheckState` that does not find the client timed out does to one record.
theorem checkState_devlist {client : CMSClient} {cur : UInt64} (outside : DeviceNode → Bool)
    (sent : Bool) (hlive : ¬ cur - client.livecount > 20 * 1000) (pid : String) :
    (client.checkState cur outside sent).2.1.devlist[pid]? =
      client.devlist[pid]?.map fun p => if stopped outside p then { p with state := 1 } else p := by
  have hdev : (client.checkState cur outside sent).2.1.devlist = stopDue outside client.devlist := by
    unfold CMSClient.checkState
    rw [if_neg hlive]
    dsimp only
    split
    · rfl
    · split <;> rfl
  rw [hdev, stopDue, Std.ExtTreeMap.getElem?_map]

theorem checkState_state_iff {client : CMSClient} {cur : UInt64} (outside : DeviceNode → Bool)
    (sent : Bool) (hlive : ¬ cur - client.livecount > 20 * 1000) {pid : String} {p : DeviceNode}
    (hp : client.devlist[pid]? = some p) (hpush : p.state = 2) (hday : p.allday = 0) :
    (client.checkState cur outside sent).2.1.devlist[pid]?.map (·.state) = some 2 ↔
      outside p = false := by
  rw [checkState_devlist outside sent hlive, hp]
  simp only [Option.map_some, stopped, hpush, hday]
  cases outside p with
  | false => simp [hpush]
  | true => simp

-- Admission and enforcement of a schedule agree. A client that has not been heard of for too
-- long is given up before its devices are looked at.
theorem admission_iff_enforcement (hmk : Increasing mktime) (sec0 sec1 : String) (r : Int)
    (w : Windows) (h : parseTimeSection mktime sec0 sec1 {} = some (r, w)) (hr : r = 1 ∨ r = 2)
    (t : TimeOfDay) :
    Ordered r w ∧
    (∀ sqlrow rest, RowWith sqlrow w →
      (DBHelper.checkStartPush mktime (.rows (sqlrow :: rest)) (getCurrentTime t) = 0 ↔
        w.Allow t.toTm)) ∧
    ∀ (client : CMSClient) (cur : UInt64) (sent : Bool) (pid : String) (p : DeviceNode),
      client.devlist[pid]? = some p → p.state = 2 → p.allday = 0 → p.windows = w →
      let pass := client.checkState cur (outsideWindows mktime (getCurrentTime t)) sent
      if cur - client.livecount > 20 * 1000 then pass = (false, client, [])
      else (pass.2.1.devlist[pid]?.map (·.state) = some 2 ↔ w.Allow t.toTm) := by
  have hordered : Ordered r w := parseTimeSection_ordered hmk h hr
  have h0 : w.s0 ≠ "" := hordered.start_ne_empty
  refine ⟨hordered, fun sqlrow rest hrow => checkRow_eq_zero_iff hmk t hrow h0, ?_⟩
  intro client cur sent pid p hp hpush hday hw
  subst hw
  dsimp only
  split
  · rename_i hold
    unfold CMSClient.checkState
    rw [if_pos hold]
  · rename_i hlive
    rw [checkState_state_iff _ sent hlive hp hpush hday]
    exact outsideWindows_eq_false_iff hmk t h0

end Schedule

def workingHours : Windows := { s0 := "08:00:00", e0 := "12:00:00", s1 := "13:30:00", e1 := "17:00:00" }

def halfPastNine : TimeOfDay where
  hour := 9
  min := 30
  sec := 0
  hour_lt := by decide
  min_lt := by decide
  sec_le := by decide

def workingCamera : DeviceNode :=
  { pid := "p", state := 2, allday := 0, s0 := "08:00:00", e0 := "12:00:00", s1 := "13:30:00",
    e1 := "17:00:00" }

def workingRow : Row := fun i =>
  [none, some "p", some "c", some "n", some "0", some "08:00:00", some "12:00:00", some "13:30:00",
    some "17:00:00"].getD i none

def workingClient : CMSClient :=
  { fd := 5, cmsid := "c", livecount := 0, devlist := (∅ : DevList).insert "p" workingCamera, msglist := [] }

-- Morning and afternoon: at half past nine the camera is admitted and keeps pushing.
theorem admission_iff_enforcement_morning :
    DBHelper.checkStartPush (fun tm => tm.seconds) (.rows [workingRow]) (getCurrentTime halfPastNine) = 0 ∧
      (workingClient.checkState 1000 (outsideWindows (fun tm => tm.seconds) (getCurrentTime halfPastNine))
        true).2.1.devlist["p"]?.map (·.state) = some 2 := by
  have hmk : Increasing fun tm => (tm.seconds : Int) := fun a b => Int.ofNat_le
  obtain ⟨-, hstarts, hkeep⟩ := admission_iff_enforcement hmk "080000-120000" "133000-170000" 2
    workingHours (by decide +kernel) (.inr rfl) halfPastNine
  have hallow : workingHours.Allow halfPastNine.toTm :=
    .inl ⟨⟨8, 0, 0⟩, ⟨12, 0, 0⟩, by decide +kernel, by decide +kernel, by decide, by decide⟩
  have hpass := hkeep workingClient 1000 true "p" workingCamera (by simp [workingClient]) rfl rfl rfl
  rw [if_neg (by decide)] at hpass
  exact ⟨(hstarts workingRow [] ⟨rfl, rfl, rfl, rfl, rfl⟩).mpr hallow, hpass.mpr hallow⟩

def halfPastTwelve : TimeOfDay where
  hour := 12
  min := 30
  sec := 0
  hour_lt := by decide
  min_lt := by decide
  sec_le := by decide

-- At half past twelve the camera is refused and stopped, but the pass over a client that was last
-- heard of more than twenty seconds ago ends before its devices.
theorem silent_client_keeps_pushing :
    parseTimeSection (fun tm => tm.seconds) "080000-120000" "133000-170000" {} = some (2, workingHours) ∧
      DBHelper.checkStartPush (fun tm => tm.seconds) (.rows [workingRow]) (getCurrentTime halfPastTwelve)
        ≠ 0 ∧
      (workingClient.checkState 20000 (outsideWindows (fun tm => tm.seconds)
        (getCurrentTime halfPastTwelve)) true).2.1.devlist["p"]?.map (·.state) = some 1 ∧
      (workingClient.checkState 20001 (outsideWindows (fun tm => tm.seconds)
        (getCurrentTime halfPastTwelve)) true).2.1.devlist["p"]?.map (·.state) = some 2 := by
  refine ⟨?_, ?_, ?_, ?_⟩ <;> decide +kernel

end VideoAdapter.Adapter

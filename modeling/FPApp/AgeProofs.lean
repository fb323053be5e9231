import FPApp.FeedProofs
import Mathlib

/-! # The age of a post

    `cellForRowAt` shows the age of a post in one unit.  It asks the calendar
    for seconds, minutes, hours, days and weeks, and goes through six `if`s
    that are neither exclusive nor joined by an `else`: the last one that
    applies stays on the label.

    * `DateComponents` — a number of seconds taken apart, with parts of one
      sign; `seconds_bijective` says that every number is taken apart in
      exactly one way;
    * `Age` — what a label can say, and `Age.Fits` what it should say;
    * `postDate_eq` — the six `if`s always assign the label, and end with the
      largest unit;
    * `faithful_age` — the label fits, and does not decrease with the age. -/

namespace FPScreens

open FPParse

/-! ## The calendar -/

/-- What `components(_:from:to:)` gives for the five units. -/
structure DateComponents where
  second : Int
  minute : Int
  hour : Int
  day : Int
  weekOfMonth : Int
  second_lt : second.natAbs < 60
  minute_lt : minute.natAbs < 60
  hour_lt : hour.natAbs < 24
  day_lt : day.natAbs < 7
  same_sign : (0 ≤ second ∧ 0 ≤ minute ∧ 0 ≤ hour ∧ 0 ≤ day ∧ 0 ≤ weekOfMonth)
    ∨ (second ≤ 0 ∧ minute ≤ 0 ∧ hour ≤ 0 ∧ day ≤ 0 ∧ weekOfMonth ≤ 0)

namespace DateComponents

/-- The number of seconds that was taken apart. -/
def seconds (difference : DateComponents) : Int :=
  difference.second + 60 * difference.minute + 3600 * difference.hour
    + 86400 * difference.day + 604800 * difference.weekOfMonth

/-- Take a number of seconds apart; the parts have its sign. -/
def ofSeconds (t : Int) : DateComponents where
  second := if 0 ≤ t then t % 60 else -(-t % 60)
  minute := if 0 ≤ t then t / 60 % 60 else -(-t / 60 % 60)
  hour := if 0 ≤ t then t / 3600 % 24 else -(-t / 3600 % 24)
  day := if 0 ≤ t then t / 86400 % 7 else -(-t / 86400 % 7)
  weekOfMonth := if 0 ≤ t then t / 604800 else -(-t / 604800)
  second_lt := by omega
  minute_lt := by omega
  hour_lt := by omega
  day_lt := by omega
  same_sign := by omega

theorem seconds_ofSeconds (t : Int) : (ofSeconds t).seconds = t := by
  simp only [seconds, ofSeconds]
  omega

/-- There is no other way to take the number apart. -/
theorem ofSeconds_seconds (difference : DateComponents) :
    ofSeconds difference.seconds = difference := by
  obtain ⟨second, minute, hour, day, week, hs, hm, hh, hd, hsign⟩ := difference
  simp only [seconds, ofSeconds, mk.injEq]
  omega

theorem seconds_bijective : Function.Bijective seconds :=
  ⟨Function.LeftInverse.injective ofSeconds_seconds,
    Function.RightInverse.surjective seconds_ofSeconds⟩

/-- `components(_:from:to:)`: the whole seconds between two dates, taken
    apart. -/
def components (fromDate toDate : Date) : DateComponents :=
  ofSeconds ((toDate.milliseconds - fromDate.milliseconds).tdiv 1000)

/-- The newer of two dates is the less far back. -/
theorem seconds_components_mono {older newer now : Date}
    (h : older.milliseconds ≤ newer.milliseconds) :
    (components newer now).seconds ≤ (components older now).seconds := by
  rw [components, components, seconds_ofSeconds, seconds_ofSeconds]
  exact Int.tdiv_le_tdiv (by decide) (Int.sub_le_sub_left h _)

end DateComponents

/-! ## The label -/

/-- `"\(n)"` with the letters that follow it. -/
def numbered (n : Int) (letters : String) : Text :=
  (Text.literal (toString n)).append (.literal letters)

/-- What `cellForRowAt` makes of `postDate.text`. -/
def Feed.postDate (difference : DateComponents) (text : Text) : Text :=
  let text := if difference.second ≤ 0 then .literal "now" else text
  let text := if difference.second > 0 ∧ difference.minute = 0 then
    numbered difference.second "s ago" else text
  let text := if difference.minute > 0 ∧ difference.hour = 0 then
    numbered difference.minute "m ago" else text
  let text := if difference.hour > 0 ∧ difference.day = 0 then
    numbered difference.hour "h ago" else text
  let text := if difference.day > 0 ∧ difference.weekOfMonth = 0 then
    numbered difference.day "d ago" else text
  let text := if difference.weekOfMonth > 0 then
    numbered difference.weekOfMonth "w ago" else text
  text

/-- The units of an age. -/
inductive AgeUnit where
  | second
  | minute
  | hour
  | day
  | week
deriving DecidableEq, Repr

/-- How many seconds a unit lasts. -/
def AgeUnit.seconds : AgeUnit → Int
  | .second => 1
  | .minute => 60
  | .hour => 3600
  | .day => 86400
  | .week => 604800

/-- How a label names a unit. -/
def AgeUnit.letters : AgeUnit → String
  | .second => "s ago"
  | .minute => "m ago"
  | .hour => "h ago"
  | .day => "d ago"
  | .week => "w ago"

/-- What a label can say. -/
inductive Age where
  | now
  | ago (count : Int) (unit : AgeUnit)
deriving DecidableEq, Repr

namespace Age

/-- The label that says it. -/
def label : Age → Text
  | .now => .literal "now"
  | .ago count unit => numbered count unit.letters

/-- The duration that it names, in seconds. -/
def duration : Age → Int
  | .now => 0
  | .ago count unit => count * unit.seconds

/-- It is right for `t` seconds: `now` for none, and otherwise the largest unit
    that fits into them, as often as it does. -/
def Fits (t : Int) : Age → Prop
  | .now => t ≤ 0
  | .ago count unit => count * unit.seconds ≤ t ∧ t < (count + 1) * unit.seconds
      ∧ unit.seconds ≤ t ∧ ∀ larger : AgeUnit, larger.seconds ≤ t → larger.seconds ≤ unit.seconds

/-- The letters of all units are equally many. -/
theorem letters_length (unit : AgeUnit) : unit.letters.toList.length = 5 := by
  cases unit <;> rfl

/-- A number and its letters can be told apart. -/
theorem numbered_injective {m n : Int} {u v : AgeUnit}
    (h : numbered m u.letters = numbered n v.letters) : m = n ∧ u = v := by
  have hcharacters := congrArg Text.characters h
  simp only [numbered, Text.append, Text.literal] at hcharacters
  have hinj : Function.Injective fun c : Char => (⟨[c]⟩ : Character) := by
    intro c d hcd
    injection hcd with hlist
    exact List.head_eq_of_cons_eq hlist
  obtain ⟨hnumber, hletters⟩ := List.append_inj' hcharacters (by
    rw [List.length_map, List.length_map, letters_length, letters_length])
  have hmn : toString m = toString n :=
    String.toList_injective (List.map_injective_iff.mpr hinj hnumber)
  have huv : u.letters = v.letters :=
    String.toList_injective (List.map_injective_iff.mpr hinj hletters)
  refine ⟨Int.repr_injective hmn, ?_⟩
  cases u <;> cases v <;> first | rfl | exact absurd huv (by decide)

/-- Five letters and a number are not `now`. -/
theorem numbered_ne_now (n : Int) (unit : AgeUnit) :
    numbered n unit.letters ≠ Text.literal "now" := by
  intro h
  have hlength := congrArg (fun text => text.characters.length) h
  simp only [numbered, Text.append, Text.literal, List.length_append, List.length_map,
    letters_length] at hlength
  have hnow : "now".toList.length = 3 := rfl
  omega

/-- A label says one thing only. -/
theorem label_injective {a b : Age} (h : a.label = b.label) : a = b := by
  cases a with
  | now =>
      cases b with
      | now => rfl
      | ago n v => exact absurd h.symm (numbered_ne_now n v)
  | ago m u =>
      cases b with
      | now => exact absurd h (numbered_ne_now m u)
      | ago n v =>
          obtain ⟨rfl, rfl⟩ := numbered_injective h
          rfl

theorem seconds_pos (unit : AgeUnit) : 0 < unit.seconds := by
  cases unit <;> decide

theorem fits_ago {t count : Int} {unit : AgeUnit} (hcount : 0 < count)
    (hle : count * unit.seconds ≤ t) (hlt : t < (count + 1) * unit.seconds)
    (hlargest : ∀ larger : AgeUnit, larger.seconds ≤ t → larger.seconds ≤ unit.seconds) :
    (ago count unit).Fits t := by
  refine ⟨hle, hlt, ?_, hlargest⟩
  calc unit.seconds = 1 * unit.seconds := (one_mul _).symm
    _ ≤ count * unit.seconds := mul_le_mul_of_nonneg_right hcount (seconds_pos unit).le
    _ ≤ t := hle

/-- An age that fits is not negative, and is `now` for no time only. -/
theorem Fits.duration_nonneg {t : Int} {a : Age} (h : a.Fits t) : 0 ≤ a.duration := by
  cases a with
  | now => exact le_rfl
  | ago count unit =>
      obtain ⟨-, hbelow, hfits, -⟩ := h
      have hunit := seconds_pos unit
      have hcount : 0 < count + 1 :=
        (mul_pos_iff_of_pos_right hunit).mp ((hunit.trans_le hfits).trans hbelow)
      exact mul_nonneg (Int.lt_add_one_iff.mp hcount) hunit.le

/-- Of two ages that fit, the one of the longer time names the longer
    duration. -/
theorem duration_mono {s t : Int} {a b : Age} (ha : a.Fits s) (hb : b.Fits t) (h : s ≤ t) :
    a.duration ≤ b.duration := by
  cases a with
  | now => exact hb.duration_nonneg
  | ago m u =>
      obtain ⟨hm, -, hu, hlargest⟩ := ha
      have hpos := seconds_pos u
      cases b with
      | now => exact absurd (hpos.trans_le (hu.trans h)) (not_lt_of_ge hb)
      | ago n v =>
          obtain ⟨-, hbelow, hv, hlargest'⟩ := hb
          show m * u.seconds ≤ n * v.seconds
          by_cases hsame : u.seconds = v.seconds
          · -- the same unit: the count is the larger one
            rw [hsame] at hm hpos ⊢
            have hlt : m * v.seconds < (n + 1) * v.seconds := (hm.trans h).trans_lt hbelow
            have hmn : m < n + 1 := lt_of_mul_lt_mul_right hlt hpos.le
            exact mul_le_mul_of_nonneg_right (Int.lt_add_one_iff.mp hmn) hpos.le
          · -- a larger unit: it does not fit into the shorter time
            have hless : s < v.seconds := by
              by_contra hfits
              have huv := hlargest' u (hu.trans h)
              exact hsame (le_antisymm huv (hlargest v (not_lt.mp hfits)))
            have hcount : 1 < n + 1 := by
              refine lt_of_mul_lt_mul_right ?_ (seconds_pos v).le
              rw [one_mul]
              exact hv.trans_lt hbelow
            calc m * u.seconds ≤ s := hm
              _ ≤ 1 * v.seconds := by rw [one_mul]; exact hless.le
              _ ≤ n * v.seconds :=
                mul_le_mul_of_nonneg_right (Int.lt_add_one_iff.mp hcount) (seconds_pos v).le

end Age

/-- What the components say: the largest one. -/
def DateComponents.age (difference : DateComponents) : Age :=
  if difference.weekOfMonth > 0 then .ago difference.weekOfMonth .week
  else if difference.day > 0 then .ago difference.day .day
  else if difference.hour > 0 then .ago difference.hour .hour
  else if difference.minute > 0 then .ago difference.minute .minute
  else if difference.second > 0 then .ago difference.second .second
  else .now

/-- The age is right: the largest component that is not zero counts the
    largest unit that fits. -/
theorem DateComponents.age_fits (difference : DateComponents) :
    difference.age.Fits difference.seconds := by
  obtain ⟨second, minute, hour, day, week, hs, hm, hh, hd, hsign⟩ := difference
  simp only [age, seconds]
  by_cases hweek : week > 0
  · rw [if_pos hweek]
    refine Age.fits_ago hweek ?_ ?_ ?_
    · show week * 604800 ≤ _
      omega
    · show _ < (week + 1) * 604800
      omega
    · intro larger hfits
      cases larger <;> simp only [AgeUnit.seconds] at hfits ⊢ <;> omega
  rw [if_neg hweek]
  by_cases hday : day > 0
  · rw [if_pos hday]
    refine Age.fits_ago hday ?_ ?_ ?_
    · show day * 86400 ≤ _
      omega
    · show _ < (day + 1) * 86400
      omega
    · intro larger hfits
      cases larger <;> simp only [AgeUnit.seconds] at hfits ⊢ <;> omega
  rw [if_neg hday]
  by_cases hhour : hour > 0
  · rw [if_pos hhour]
    refine Age.fits_ago hhour ?_ ?_ ?_
    · show hour * 3600 ≤ _
      omega
    · show _ < (hour + 1) * 3600
      omega
    · intro larger hfits
      cases larger <;> simp only [AgeUnit.seconds] at hfits ⊢ <;> omega
  rw [if_neg hhour]
  by_cases hminute : minute > 0
  · rw [if_pos hminute]
    refine Age.fits_ago hminute ?_ ?_ ?_
    · show minute * 60 ≤ _
      omega
    · show _ < (minute + 1) * 60
      omega
    · intro larger hfits
      cases larger <;> simp only [AgeUnit.seconds] at hfits ⊢ <;> omega
  rw [if_neg hminute]
  by_cases hsecond : second > 0
  · rw [if_pos hsecond]
    refine Age.fits_ago hsecond ?_ ?_ ?_
    · show second * 1 ≤ _
      omega
    · show _ < (second + 1) * 1
      omega
    · intro larger hfits
      cases larger <;> simp only [AgeUnit.seconds] at hfits ⊢ <;> omega
  rw [if_neg hsecond]
  show second + 60 * minute + 3600 * hour + 86400 * day + 604800 * week ≤ 0
  omega

/-- **THE LAST IF WINS**: whatever the label held, the six `if`s assign it, and
    the last one that applies is that of the largest unit. -/
theorem postDate_eq (difference : DateComponents) (text : Text) :
    Feed.postDate difference text = difference.age.label := by
  obtain ⟨second, minute, hour, day, week, -, -, -, -, hsign⟩ := difference
  simp only [Feed.postDate, DateComponents.age]
  by_cases hweek : week > 0
  · rw [if_pos hweek, if_pos hweek]
    rfl
  rw [if_neg hweek, if_neg hweek]
  by_cases hday : day > 0
  · rw [if_pos ⟨hday, by omega⟩, if_pos hday]
    rfl
  rw [if_neg (fun h => hday h.1), if_neg hday]
  by_cases hhour : hour > 0
  · rw [if_pos ⟨hhour, by omega⟩, if_pos hhour]
    rfl
  rw [if_neg (fun h => hhour h.1), if_neg hhour]
  by_cases hminute : minute > 0
  · rw [if_pos ⟨hminute, by omega⟩, if_pos hminute]
    rfl
  rw [if_neg (fun h => hminute h.1), if_neg hminute]
  by_cases hsecond : second > 0
  · rw [if_pos ⟨hsecond, by omega⟩, if_pos hsecond]
    rfl
  rw [if_neg (fun h => hsecond h.1), if_neg hsecond, if_pos (not_lt.mp hsecond)]
  rfl

/-- Two labels, whatever they held before: that of the longer time names the
    longer duration. -/
theorem postDate_mono {shorter longer : DateComponents} {text text' : Text} {a b : Age}
    (h : shorter.seconds ≤ longer.seconds) (ha : Feed.postDate shorter text = a.label)
    (hb : Feed.postDate longer text' = b.label) : a.duration ≤ b.duration := by
  rw [postDate_eq] at ha hb
  obtain rfl := Age.label_injective ha
  obtain rfl := Age.label_injective hb
  exact Age.duration_mono shorter.age_fits longer.age_fits h

/-- **FAITHFUL AGE**: every number of seconds is taken apart in exactly one
    way; the label is assigned whatever it held, and says the age that fits;
    the duration it names does not decrease with the time, nor down a list of
    posts that are newest first. -/
theorem faithful_age :
    Function.Bijective DateComponents.seconds
    ∧ (∀ difference : DateComponents, ∃ age : Age, age.Fits difference.seconds
        ∧ ∀ text, Feed.postDate difference text = age.label)
    ∧ (∀ (shorter longer : DateComponents) (text text' : Text) (a b : Age),
        shorter.seconds ≤ longer.seconds → Feed.postDate shorter text = a.label →
        Feed.postDate longer text' = b.label → a.duration ≤ b.duration)
    ∧ (∀ (newer older now : Date) (text text' : Text) (a b : Age),
        older.milliseconds ≤ newer.milliseconds →
        Feed.postDate (DateComponents.components newer now) text = a.label →
        Feed.postDate (DateComponents.components older now) text' = b.label →
        a.duration ≤ b.duration) := by
  refine ⟨DateComponents.seconds_bijective, ?_, ?_, ?_⟩
  · intro difference
    exact ⟨difference.age, difference.age_fits, postDate_eq difference⟩
  · intro shorter longer text text' a b h ha hb
    exact postDate_mono h ha hb
  · intro newer older now text text' a b h ha hb
    exact postDate_mono (DateComponents.seconds_components_mono h) ha hb

/-- An exact minute is first labelled `now`, and then `1m ago`. -/
example (text : Text) :
    Feed.postDate (DateComponents.ofSeconds 60) text = Text.literal "1m ago" := rfl

end FPScreens

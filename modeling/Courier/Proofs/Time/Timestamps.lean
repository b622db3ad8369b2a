import Courier.Proofs.Decimal.Digits
import Courier.Proofs.Text.Trimming
import Courier.Proofs.Time.Calendar

/-!
# Timestamps and the instants they name

A timestamp is a date and a time of day with the digits of a fraction and an offset from
universal time. It names an instant, and is read back from each of its texts.

The main statement is `keepsInstants_millisecondsLenient`.
-/

namespace Courier
namespace Time

open Text (Trimmed isBlankChar trimChars)

/-!
## Timestamps
-/

structure Offset where
  west : Bool
  hours : Nat
  minutes : Nat
  hours_le : hours ≤ 23
  minutes_le : minutes ≤ 59

namespace Offset

def minutesEast (o : Offset) : Int :=
  if o.west then -(o.hours * 60 + o.minutes) else o.hours * 60 + o.minutes

end Offset

structure Timestamp where
  date : Date
  hour : Nat
  minute : Nat
  second : Nat
  /-- The digits after the point; without any, there is no point. -/
  fraction : List (Fin 10)
  offset : Offset
  isValid : date.isValid = true
  year_le : date.year ≤ 9999
  hour_le : hour ≤ 23
  minute_le : minute ≤ 59
  second_le : second ≤ 59
  fraction_le : fraction.length ≤ 9

namespace Timestamp

def digits (t : Timestamp) : List Nat :=
  t.fraction.map Fin.val

/-- The nanoseconds of the fraction: its digits as a number, in units of its last digit. -/
def nanoseconds (t : Timestamp) : Nat :=
  Nat.ofDigits 10 t.digits.reverse * 10 ^ (9 - t.digits.length)

/-- The timestamp names the instant that comes so many nanoseconds after the start of 1970. -/
def Names (t : Timestamp) (instant : Int) : Prop :=
  ∃ days, Date.IsDay days t.date ∧
    instant = (((days * 24 + t.hour) * 60 + t.minute - t.offset.minutesEast) * 60 + t.second) *
      1000000000 + t.nanoseconds

end Timestamp

/-!
## Texts
-/

/-- The last digits of a number, so many of them. -/
def padded : Nat → Nat → List Char
  | 0, _ => []
  | width + 1, n => padded width (n / 10) ++ [Nat.digitChar (n % 10)]

/-- An offset is written with a sign, but universal time may be written as a letter. -/
inductive Offset.Writes (o : Offset) : List Char → Prop where
  | zulu {letter : Char} : o.hours = 0 → o.minutes = 0 → letter ∈ ['Z', 'z'] → Writes o [letter]
  | signed : Writes o ((if o.west then '-' else '+') ::
      (padded 2 o.hours ++ ':' :: padded 2 o.minutes))

namespace Timestamp

def fractionText (t : Timestamp) : List Char :=
  if t.digits = [] then [] else '.' :: t.digits.map Nat.digitChar

/-- A text of the timestamp, without anything around it. -/
def Spells (t : Timestamp) (cs : List Char) : Prop :=
  ∃ separator ∈ ['T', 't', ' '], ∃ offset, t.offset.Writes offset ∧
    cs = padded 4 t.date.year ++ '-' :: (padded 2 t.date.month ++ '-' :: (padded 2 t.date.day ++
      separator :: (padded 2 t.hour ++ ':' :: (padded 2 t.minute ++ ':' ::
        (padded 2 t.second ++ (t.fractionText ++ offset))))))

/-- A text of the timestamp, with or without blanks around it. -/
def Writes (t : Timestamp) (text : String) : Prop :=
  ∃ front cs back, (∀ c ∈ front, isBlankChar c = true) ∧ (∀ c ∈ back, isBlankChar c = true) ∧
    t.Spells cs ∧ text.toList = front ++ cs ++ back

end Timestamp

/-!
## Reading
-/

theorem digitChar_spec : ∀ d < 10,
    Stamp.digit? (Nat.digitChar d) = some d ∧ isBlankChar (Nat.digitChar d) = false := by
  decide

theorem digit?_digitChar {d : Nat} (h : d < 10) : Stamp.digit? (Nat.digitChar d) = some d :=
  (digitChar_spec d h).left

theorem length_padded (width n : Nat) : (padded width n).length = width := by
  induction width generalizing n with
  | zero => rfl
  | succ width ih => rw [padded, List.length_append, ih, List.length_singleton]

theorem mapM_padded (width n : Nat) : ∃ digits, (padded width n).mapM Stamp.digit? = some digits ∧
    digits.foldl (fun n d => n * 10 + d) 0 = n % 10 ^ width := by
  induction width generalizing n with
  | zero => exact ⟨[], rfl, (Nat.mod_one n).symm⟩
  | succ width ih =>
      rcases ih (n / 10) with ⟨digits, hdigits, hvalue⟩
      refine ⟨digits ++ [n % 10], ?_, ?_⟩
      · rw [padded, List.mapM_append, hdigits]
        simp [digit?_digitChar (Nat.mod_lt n (by decide : 0 < 10))]
      · rw [List.foldl_append, hvalue, Nat.pow_succ, Nat.mul_comm (10 ^ width), Nat.mod_mul]
        simp only [List.foldl_cons, List.foldl_nil]
        omega

theorem number?_padded {width n : Nat} (h : n < 10 ^ width) (rest : List Char) :
    Stamp.number? width (padded width n ++ rest) = some (n, rest) := by
  rcases mapM_padded width n with ⟨digits, hdigits, hvalue⟩
  have hlength := length_padded width n
  unfold Stamp.number?
  rw [if_neg (by rw [List.length_append]; omega), List.take_left' hlength, hdigits,
    List.drop_left' hlength]
  simp only [hvalue, Nat.mod_eq_of_lt h]

theorem mark?_self (c : Char) (rest : List Char) : Stamp.mark? c (c :: rest) = some rest :=
  if_pos rfl

theorem separator?_of_ascii {c : Char} (h : c.toNat < 0x80) (rest : List Char) :
    Stamp.separator? (c :: rest) = some rest :=
  if_pos h

theorem bind_of_eq_some {α β : Type} {o : Option α} {a : α} (h : o = some a) (f : α → Option β) :
    (o >>= f) = f a := by
  rw [h]
  rfl

theorem Offset.Writes.offset?_eq {o : Offset} {cs : List Char} (h : o.Writes cs) :
    Stamp.offset? cs = some o.minutesEast := by
  cases h with
  | zulu hhours hminutes hletter =>
      have hzero : o.minutesEast = 0 := by
        unfold minutesEast
        rw [hhours, hminutes]
        split <;> rfl
      rw [hzero]
      simp only [List.mem_cons, List.not_mem_nil, or_false] at hletter
      rcases hletter with rfl | rfl <;> rfl
  | signed =>
      have hhours : o.hours < 10 ^ 2 := Nat.lt_of_le_of_lt o.hours_le (by decide)
      have hminutes : o.minutes < 10 ^ 2 := Nat.lt_of_le_of_lt o.minutes_le (by decide)
      have hrest := number?_padded hminutes []
      rw [List.append_nil] at hrest
      cases hwest : o.west <;>
        simp [Stamp.offset?, number?_padded hhours, mark?_self, hrest, o.hours_le, o.minutes_le,
          minutesEast, hwest]

theorem Offset.Writes.exists_head {o : Offset} {cs : List Char} (h : o.Writes cs) :
    ∃ c rest, cs = c :: rest ∧ c ≠ '.' ∧ (Stamp.digit? c).isSome = false := by
  cases h with
  | @zulu letter hhours hminutes hletter =>
      refine ⟨letter, [], rfl, ?_⟩
      simp only [List.mem_cons, List.not_mem_nil, or_false] at hletter
      rcases hletter with rfl | rfl <;> decide
  | signed =>
      refine ⟨_, _, rfl, ?_⟩
      cases o.west <;> decide

namespace Timestamp

variable {t : Timestamp}

theorem lt_of_mem_digits {d : Nat} (h : d ∈ t.digits) : d < 10 := by
  rcases List.mem_map.mp h with ⟨d, -, rfl⟩
  exact d.isLt

theorem foldl_zeros (k n : Nat) :
    (List.replicate k 0).foldl (fun n d => n * 10 + d) n = n * 10 ^ k := by
  induction k generalizing n with
  | zero => exact (Nat.mul_one n).symm
  | succ k ih =>
      rw [List.replicate_succ, List.foldl_cons, ih, Nat.add_zero, Nat.pow_succ, Nat.mul_assoc,
        Nat.mul_comm 10]

theorem nanosecondsOf_digits (t : Timestamp) : Stamp.nanosecondsOf t.digits = t.nanoseconds := by
  have hlength : t.digits.length ≤ 9 := by
    rw [digits, List.length_map]
    exact t.fraction_le
  rw [Stamp.nanosecondsOf, List.take_of_length_le hlength, List.foldl_append, foldl_zeros,
    nanoseconds, ← Decimal.ofDigits_eq, Decimal.ofDigits]

theorem fraction?_append {offset : List Char} (h : t.offset.Writes offset) :
    Stamp.fraction? (t.fractionText ++ offset) = some (t.nanoseconds, offset) := by
  rcases h.exists_head with ⟨c, rest, rfl, hpoint, hdigit⟩
  unfold fractionText
  split
  · next hnone =>
      have hnanoseconds : t.nanoseconds = 0 := by
        rw [nanoseconds, hnone]
        rfl
      rw [hnanoseconds, List.nil_append]
      unfold Stamp.fraction?
      split
      · next heq =>
          cases heq
          exact absurd rfl hpoint
      · rfl
  · next hsome =>
      have hdigits : ∀ d ∈ t.digits.map Nat.digitChar, (Stamp.digit? d).isSome = true := by
        intro c hc
        rcases List.mem_map.mp hc with ⟨d, hd, rfl⟩
        rw [digit?_digitChar (lt_of_mem_digits hd)]
        rfl
      have hread : (t.digits.map Nat.digitChar).filterMap Stamp.digit? = t.digits := by
        rw [List.filterMap_map]
        exact (List.filterMap_congr fun d hd => digit?_digitChar (lt_of_mem_digits hd)).trans
          List.filterMap_some
      have htake : (t.digits.map Nat.digitChar ++ c :: rest).takeWhile
          (fun c => (Stamp.digit? c).isSome) = t.digits.map Nat.digitChar := by
        rw [List.takeWhile_append_of_pos hdigits, List.takeWhile_cons_of_neg, List.append_nil]
        rw [hdigit]
        exact Bool.false_ne_true
      simp only [Stamp.fraction?, List.cons_append, htake, List.isEmpty_iff, List.map_eq_nil_iff,
        hsome, if_false, hread, nanosecondsOf_digits, List.drop_left' rfl]

def toStamp (t : Timestamp) : Stamp :=
  ⟨t.date, t.hour, t.minute, t.second, t.nanoseconds, t.offset.minutesEast⟩

theorem Spells.ofChars?_eq {cs : List Char} (h : t.Spells cs) :
    Stamp.ofChars? cs = some t.toStamp := by
  rcases h with ⟨separator, hseparator, offset, hoffset, rfl⟩
  rcases Date.isValid_iff.mp t.isValid with ⟨-, hmonths, -, hdays⟩
  have hmonth := Date.daysInMonth_le t.date.year t.date.month
  have hascii : separator.toNat < 0x80 := by
    simp only [List.mem_cons, List.not_mem_nil, or_false] at hseparator
    rcases hseparator with rfl | rfl | rfl <;> decide
  have hyear4 : t.date.year < 10 ^ 4 := Nat.lt_of_le_of_lt t.year_le (by decide)
  have hmonth2 : t.date.month < 10 ^ 2 := Nat.lt_of_le_of_lt hmonths (by decide)
  have hday2 : t.date.day < 10 ^ 2 :=
    Nat.lt_of_le_of_lt (Nat.le_trans hdays hmonth) (by decide)
  have hhour2 : t.hour < 10 ^ 2 := Nat.lt_of_le_of_lt t.hour_le (by decide)
  have hminute2 : t.minute < 10 ^ 2 := Nat.lt_of_le_of_lt t.minute_le (by decide)
  have hsecond2 : t.second < 10 ^ 2 := Nat.lt_of_le_of_lt t.second_le (by decide)
  refine (bind_of_eq_some (number?_padded hyear4 _) _).trans ?_
  refine (bind_of_eq_some (mark?_self '-' _) _).trans ?_
  refine (bind_of_eq_some (number?_padded hmonth2 _) _).trans ?_
  refine (bind_of_eq_some (mark?_self '-' _) _).trans ?_
  refine (bind_of_eq_some (number?_padded hday2 _) _).trans ?_
  refine (bind_of_eq_some (separator?_of_ascii hascii _) _).trans ?_
  refine (bind_of_eq_some (number?_padded hhour2 _) _).trans ?_
  refine (bind_of_eq_some (mark?_self ':' _) _).trans ?_
  refine (bind_of_eq_some (number?_padded hminute2 _) _).trans ?_
  refine (bind_of_eq_some (mark?_self ':' _) _).trans ?_
  refine (bind_of_eq_some (number?_padded hsecond2 _) _).trans ?_
  refine (bind_of_eq_some (fraction?_append hoffset) _).trans ?_
  refine (bind_of_eq_some hoffset.offset?_eq _).trans ?_
  exact (if_pos ⟨t.isValid, t.hour_le, t.minute_le⟩).trans (if_pos t.second_le)

end Timestamp

theorem not_blank_of_padded {width n : Nat} {c : Char} (h : c ∈ padded width n) :
    isBlankChar c = false := by
  induction width generalizing n with
  | zero => cases h
  | succ width ih =>
      rcases List.mem_append.mp h with h | h
      · exact ih h
      · rw [List.mem_singleton.mp h]
        exact (digitChar_spec _ (Nat.mod_lt n (by decide))).right

theorem Offset.Writes.last {o : Offset} {cs : List Char} (h : o.Writes cs) :
    cs ≠ [] ∧ ∀ c ∈ cs.getLast?, isBlankChar c = false := by
  cases h with
  | @zulu letter hhours hminutes hletter =>
      refine ⟨List.cons_ne_nil _ _, ?_⟩
      rintro c ⟨⟩
      simp only [List.mem_cons, List.not_mem_nil, or_false] at hletter
      rcases hletter with rfl | rfl <;> decide
  | signed =>
      refine ⟨List.cons_ne_nil _ _, fun c hc => ?_⟩
      have hne : padded 2 o.minutes ≠ [] :=
        List.ne_nil_of_length_pos (by rw [length_padded]; decide)
      rw [List.getLast?_cons_of_ne_nil (by simp), List.getLast?_append_of_ne_nil _ (by simp),
        List.getLast?_cons_of_ne_nil hne] at hc
      exact not_blank_of_padded (List.mem_of_getLast? hc)

namespace Timestamp

variable {t : Timestamp}

theorem Spells.trimmed {cs : List Char} (h : t.Spells cs) : Trimmed cs := by
  rcases h with ⟨separator, -, offset, hoffset, rfl⟩
  rcases hoffset.last with ⟨hne, hlast⟩
  have hyear : padded 4 t.date.year ≠ [] :=
    List.ne_nil_of_length_pos (by rw [length_padded]; decide)
  constructor
  · intro c hc
    rw [List.head?_append_of_ne_nil _ hyear] at hc
    exact not_blank_of_padded (List.mem_of_mem_head? hc)
  · intro c hc
    refine hlast c ?_
    simp only [← List.cons_append, ← List.append_assoc] at hc
    rwa [List.getLast?_append_of_ne_nil _ hne] at hc

theorem Writes.millisecondsLenient_eq {text : String} (h : t.Writes text) (now : Int64) :
    millisecondsLenient now text = Int64.ofInt t.toStamp.epochMilliseconds := by
  rcases h with ⟨front, cs, back, hfront, hback, hspells, htext⟩
  have hread : Stamp.ofString? (Text.trim text) = some t.toStamp := by
    rw [Stamp.ofString?, Text.toList_trim, htext, Text.trimChars_append_right hback,
      Text.trimChars_append_left hfront, Text.trimChars_of_trimmed hspells.trimmed]
    exact hspells.ofChars?_eq
  rw [millisecondsLenient, hread]

/-!
## Instants
-/

/-- The instant that is named is the one that is calculated. -/
theorem names_iff {instant : Int} : t.Names instant ↔ instant = t.toStamp.epochNanoseconds := by
  unfold Names
  simp only [Date.isDay_iff t.isValid, exists_eq_left, Stamp.epochNanoseconds, Stamp.epochSeconds,
    toStamp]
  omega

theorem nanoseconds_lt (t : Timestamp) : t.nanoseconds < 10 ^ 9 := by
  have hlength : t.digits.length ≤ 9 := by
    rw [digits, List.length_map]
    exact t.fraction_le
  have hdigits : Nat.ofDigits 10 t.digits.reverse < 10 ^ t.digits.reverse.length :=
    Nat.ofDigits_lt_base_pow_length (by decide) fun d hd =>
      lt_of_mem_digits (List.mem_reverse.mp hd)
  rw [List.length_reverse] at hdigits
  calc
    t.nanoseconds
    _ < 10 ^ t.digits.length * 10 ^ (9 - t.digits.length) :=
      Nat.mul_lt_mul_of_pos_right hdigits (Nat.pow_pos (by decide))
    _ = 10 ^ 9 := by rw [← Nat.pow_add, Nat.add_sub_cancel' hlength]

theorem epochNanoseconds_bounds (t : Timestamp) :
    -10 ^ 21 ≤ t.toStamp.epochNanoseconds ∧ t.toStamp.epochNanoseconds ≤ 10 ^ 21 := by
  have hdays := Date.ordinal_le t.isValid
  have hepoch : Date.epoch.ordinal = 719528 := by decide
  have hyear := t.year_le
  have hnanoseconds := t.nanoseconds_lt
  have hhour := t.hour_le
  have hminute := t.minute_le
  have hsecond := t.second_le
  have hhours := t.offset.hours_le
  have hminutes := t.offset.minutes_le
  simp only [Stamp.epochNanoseconds, Stamp.epochSeconds, toStamp, Date.epochDays_eq _ t.isValid,
    hepoch, Offset.minutesEast]
  split <;> omega

theorem toInt_epochMilliseconds (t : Timestamp) :
    (Int64.ofInt t.toStamp.epochMilliseconds).toInt = t.toStamp.epochNanoseconds.tdiv 1000000 := by
  rcases t.epochNanoseconds_bounds with ⟨hleast, hgreatest⟩
  have hlow := Int.tdiv_le_tdiv (by decide : (0 : Int) < 1000000) hleast
  have hhigh := Int.tdiv_le_tdiv (by decide : (0 : Int) < 1000000) hgreatest
  rw [Stamp.epochMilliseconds, Int64.toInt_ofInt_of_le]
  · exact Int.le_trans (by decide) hlow
  · exact Int.lt_of_le_of_lt hhigh (by decide)

theorem exists_writes (t : Timestamp) : ∃ text, t.Writes text := by
  have hspells : ∃ cs, t.Spells cs := ⟨_, 'T', List.mem_cons_self, _, .signed, rfl⟩
  rcases hspells with ⟨cs, hcs⟩
  exact ⟨String.ofList cs, [], cs, [], by simp, by simp, hcs, by simp⟩

end Timestamp

structure KeepsInstants (read : String → Int64) : Prop where
  exists_writes : ∀ t : Timestamp, ∃ text, t.Writes text
  existsUnique : ∀ t : Timestamp, ∃! instant, t.Names instant
  /-- What is read is the instant in milliseconds, cut off toward zero. -/
  toInt_read : ∀ (t : Timestamp) (text : String) (instant : Int), t.Writes text →
    t.Names instant → (read text).toInt = instant.tdiv 1000000
  read_eq : ∀ (t u : Timestamp) (text other : String) (instant : Int), t.Writes text →
    u.Writes other → t.Names instant → u.Names instant → read text = read other
  /-- A later instant is never read as less. -/
  read_le : ∀ (t u : Timestamp) (text other : String) (instant later : Int), t.Writes text →
    u.Writes other → t.Names instant → u.Names later → instant ≤ later → read text ≤ read other

theorem toInt_millisecondsLenient (now : Int64) {t : Timestamp} {text : String} {instant : Int}
    (htext : t.Writes text) (hnames : t.Names instant) :
    (millisecondsLenient now text).toInt = instant.tdiv 1000000 := by
  rw [htext.millisecondsLenient_eq, t.toInt_epochMilliseconds, Timestamp.names_iff.mp hnames]

/-- Whatever the clock, each text of a timestamp is read as the instant that it names. -/
theorem keepsInstants_millisecondsLenient (now : Int64) :
    KeepsInstants (millisecondsLenient now) where
  exists_writes := Timestamp.exists_writes
  existsUnique t := ⟨_, Timestamp.names_iff.mpr rfl, fun _ h => Timestamp.names_iff.mp h⟩
  toInt_read _ _ _ htext hnames := toInt_millisecondsLenient now htext hnames
  read_eq t u text other instant htext hother ht hu := by
    rw [← Int64.toInt_inj, toInt_millisecondsLenient now htext ht,
      toInt_millisecondsLenient now hother hu]
  read_le t u text other instant later htext hother ht hu hle := by
    rw [Int64.le_iff_toInt_le, toInt_millisecondsLenient now htext ht,
      toInt_millisecondsLenient now hother hu]
    exact Int.tdiv_le_tdiv (by decide) hle

/-- Half a millisecond on either side of the start of 1970 is cut off. -/
example :
    millisecondsLenient 1 "1969-12-31T23:59:59.9995Z" = 0 ∧
      millisecondsLenient 1 "1970-01-01T01:00:00.0005+01:00" = 0 := by
  decide +kernel

end Time
end Courier

/-
The text of a day.

A day is written with four digits for the year and two each for the month and the day of the
month.  A check of dates reads that text back, and what is needed is that it reads the same
day:

    d.IsReal → dateOfText d.text = .ok d

The check works on the bytes of a text.  It takes digits at fixed places, one pair after the
other, and compares two bytes with a dash before it decides anything else.  So the proof
computes the ten bytes of the text (`toUTF8_text`), and reads them off by their places.

A real day is one of the calendar, in a year of at most four digits.  The bound on the year is
needed, as a longer year is written with more digits and shifts the places of all others; and
a day that is not in the calendar is written all the same, but refused when it is read.

The date with the text is the only way to write a day here.  A check takes other texts for
days too, such as a day with a time of midnight, and nothing is said of these.
-/
import WebForm.Check.Scalar

namespace WebForm

/-! ## Bytes

The text is all in ASCII, one byte for each character. -/

theorem toList_loop_eq (bytes : ByteArray) (i : Nat) (before : List UInt8) :
    ByteArray.toList.loop bytes i before = before.reverse ++ bytes.data.toList.drop i := by
  fun_induction ByteArray.toList.loop bytes i before with
  | case1 i before h ih =>
      have hi : i < bytes.data.toList.length := h
      have hget : bytes.get! i = bytes.data.toList[i] := by
        show bytes.data[i]! = _
        rw [Array.getElem_toList, getElem!_pos bytes.data i h]
      rw [ih, List.reverse_cons, List.append_assoc, List.singleton_append, hget,
        List.getElem_cons_drop]
  | case2 i before h =>
      have hi : bytes.data.toList.length ≤ i := Nat.le_of_not_lt h
      rw [List.drop_eq_nil_of_le hi, List.append_nil]

theorem toUTF8_ofList (cs : List Char) :
    (String.ofList cs).toUTF8.toList = cs.flatMap String.utf8EncodeChar := by
  show ByteArray.toList.loop (String.ofList cs).toByteArray 0 [] = _
  rw [toList_loop_eq, String.toByteArray_ofList, List.utf8Encode, List.toList_data_toByteArray]
  rfl

namespace Date

/-- The byte of a digit. -/
def digitByte (n : Nat) : UInt8 := UInt8.ofNat (48 + n)

theorem utf8EncodeChar_digitChar {n : Nat} (h : n < 10) :
    String.utf8EncodeChar (Nat.digitChar n) = [digitByte n] := by
  have hall : ∀ n < 10, String.utf8EncodeChar (Nat.digitChar n) = [digitByte n] := by decide
  exact hall n h

theorem digitAt_of_digit {bytes : List UInt8} {i n : Nat} (h : n < 10)
    (hbyte : bytes[i]? = some (digitByte n)) (fault : MomentFault) :
    digitAt bytes i fault = .ok n := by
  have hall : ∀ n < 10, (0x30 ≤ digitByte n && digitByte n ≤ 0x39) = true
      ∧ (digitByte n).toNat - 0x30 = n := by decide
  obtain ⟨hdigit, hvalue⟩ := hall n h
  unfold digitAt
  rw [hbyte]
  dsimp only
  rw [if_pos hdigit, hvalue]

/-! ## Numbers with zeros in front

Padding goes by places: what is added in front of a number that is too short is the digit
zero.  Four digits are two and two, and so only pairs of digits have to be looked at. -/

theorem toList_padded_succ {width : Nat} (h : 0 < width) (n : Nat) :
    (padded (width + 1) n).toList
      = (padded width (n / 10)).toList ++ [Nat.digitChar (n % 10)] := by
  unfold padded
  rw [String.toList_ofList, String.toList_ofList]
  by_cases hn : n < 10
  · obtain ⟨w, rfl⟩ := Nat.exists_eq_succ_of_ne_zero (Nat.ne_of_gt h)
    rw [Nat.toDigits_of_lt_base hn, Nat.div_eq_of_lt hn, Nat.mod_eq_of_lt hn,
      Nat.toDigits_of_lt_base (by decide)]
    simp [List.replicate_succ']
  · rw [Nat.toDigits_of_base_le (by decide) (Nat.le_of_not_lt hn), List.length_append,
      List.length_singleton, Nat.add_sub_add_right, List.append_assoc]

theorem toList_padded_one {n : Nat} (h : n < 10) : (padded 1 n).toList = [Nat.digitChar n] := by
  unfold padded
  rw [String.toList_ofList, Nat.toDigits_of_lt_base h]
  rfl

theorem toList_padded_two {n : Nat} (h : n < 100) :
    (padded 2 n).toList = [Nat.digitChar (n / 10), Nat.digitChar (n % 10)] := by
  rw [toList_padded_succ (by decide), toList_padded_one (by omega)]
  rfl

theorem toList_padded_four (n : Nat) :
    (padded 4 n).toList = (padded 2 (n / 100)).toList ++ (padded 2 (n % 100)).toList := by
  rw [toList_padded_succ (by decide), toList_padded_succ (by decide), Nat.div_div_eq_div_mul,
    toList_padded_two (n := n % 100) (by omega), List.append_assoc]
  have htens : n / 10 % 10 = n % 100 / 10 := by omega
  have hones : n % 100 % 10 = n % 10 := by omega
  rw [htens, hones]
  rfl

/-! ## Days

A month of the calendar has at most 31 days, so that a real day has two digits everywhere. -/

/-- The day is in the calendar, in a year of at most four digits. -/
structure IsReal (d : Date) : Prop where
  year : d.year < 10000
  first : 1 ≤ d.day
  last : d.day ≤ daysIn d.year d.month

theorem daysIn_le (year month : Nat) : daysIn year month ≤ 31 := by
  unfold daysIn
  split
  · split <;> omega
  · split
    · omega
    · split <;> omega

theorem daysIn_of_lt {year month : Nat} (h : 12 < month) : daysIn year month = 0 := by
  unfold daysIn
  rw [if_neg (by omega), if_neg (by simp; omega), if_neg (by simp; omega)]

theorem IsReal.day_le {d : Date} (h : d.IsReal) : d.day ≤ 31 :=
  Nat.le_trans h.last (daysIn_le d.year d.month)

theorem IsReal.month_le {d : Date} (h : d.IsReal) : d.month ≤ 12 := by
  refine Nat.le_of_not_lt fun hmonth => ?_
  have hfirst := h.first
  have hlast := h.last
  rw [daysIn_of_lt hmonth] at hlast
  omega

/-- The bytes of a number of two digits. -/
def twoBytes (n : Nat) : List UInt8 := [digitByte (n / 10), digitByte (n % 10)]

theorem flatMap_padded_two {n : Nat} (h : n < 100) :
    (padded 2 n).toList.flatMap String.utf8EncodeChar = twoBytes n := by
  rw [toList_padded_two h, List.flatMap_cons, List.flatMap_singleton,
    utf8EncodeChar_digitChar (by omega), utf8EncodeChar_digitChar (by omega)]
  rfl

/-- The bytes of the day's text. -/
theorem toUTF8_text {d : Date} (h : d.IsReal) :
    d.text.toUTF8.toList = twoBytes (d.year / 100) ++ twoBytes (d.year % 100) ++ [0x2d]
      ++ twoBytes d.month ++ [0x2d] ++ twoBytes d.day := by
  have hcentury : d.year / 100 < 100 := Nat.div_lt_of_lt_mul h.year
  have hday : d.day < 100 := Nat.lt_of_le_of_lt h.day_le (by decide)
  have hmonth : d.month < 100 := Nat.lt_of_le_of_lt h.month_le (by decide)
  have hdash : "-".toList.flatMap String.utf8EncodeChar = [0x2d] := by decide
  have htext : d.text = String.ofList d.text.toList := String.ofList_toList.symm
  rw [htext, toUTF8_ofList]
  unfold text
  simp only [String.toList_append, List.flatMap_append, hdash, toList_padded_four,
    flatMap_padded_two hmonth, flatMap_padded_two hday,
    flatMap_padded_two hcentury,
    flatMap_padded_two (Nat.mod_lt d.year (by decide))]

theorem twoDigitsAt_of_bytes {bytes : List UInt8} {i n : Nat} (h : n < 100)
    (htens : bytes[i]? = some (digitByte (n / 10)))
    (hones : bytes[i + 1]? = some (digitByte (n % 10))) (fault : MomentFault) :
    twoDigitsAt bytes i fault = .ok n := by
  unfold twoDigitsAt
  rw [digitAt_of_digit (by omega) htens, digitAt_of_digit (by omega) hones]
  show Except.ok (10 * (n / 10) + n % 10) = _
  rw [Nat.div_add_mod]

theorem readIso_text {d : Date} (h : d.IsReal) : readIso d.text.toUTF8.toList = .ok d := by
  have hyear := h.year
  have hfirst := h.first
  have hlast := h.last
  have hday := h.day_le
  have hmonth := h.month_le
  have hbytes := toUTF8_text h
  generalize d.text.toUTF8.toList = bytes at hbytes ⊢
  have century : twoDigitsAt bytes 0 .year = .ok (d.year / 100) :=
    twoDigitsAt_of_bytes (by omega) (by rw [hbytes]; rfl) (by rw [hbytes]; rfl) _
  have year : twoDigitsAt bytes 2 .year = .ok (d.year % 100) :=
    twoDigitsAt_of_bytes (by omega) (by rw [hbytes]; rfl) (by rw [hbytes]; rfl) _
  have month : twoDigitsAt bytes 5 .month = .ok d.month :=
    twoDigitsAt_of_bytes (by omega) (by rw [hbytes]; rfl) (by rw [hbytes]; rfl) _
  have day : twoDigitsAt bytes 8 .day = .ok d.day :=
    twoDigitsAt_of_bytes (by omega) (by rw [hbytes]; rfl) (by rw [hbytes]; rfl) _
  have before : expectAt bytes 4 0x2d .dateSeparator = .ok () := by
    rw [hbytes]
    rfl
  have behind : expectAt bytes 7 0x2d .dateSeparator = .ok () := by
    rw [hbytes]
    rfl
  have length : bytes.length = 10 := by
    rw [hbytes]
    rfl
  have whole : 100 * (d.year / 100) + d.year % 100 = d.year := Nat.div_add_mod _ _
  have leads : leading bytes = .ok d := by
    unfold leading
    rw [length, century, year, before, month, behind, day]
    simp only [Nat.lt_irrefl, if_false, Bind.bind, Except.bind, Pure.pure, Except.pure, whole]
    rw [if_neg (by omega), if_neg (by simp; omega)]
  unfold readIso
  rw [leads, length]
  rfl

end Date

/-- A check takes the text of a real day as the day. -/
theorem Check.dateOfText_text {d : Date} (h : d.IsReal) : dateOfText d.text = .ok d := by
  unfold dateOfText
  dsimp only
  rw [Date.readIso_text h]

end WebForm

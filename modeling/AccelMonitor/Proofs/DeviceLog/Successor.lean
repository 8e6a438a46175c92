import AccelMonitor.Proofs.DeviceLog.Stamp
import AccelMonitor.Proofs.Text.Encoding
import Mathlib.Data.List.Forall2

/-!
# Stamps in Order

Which bytes are a stamp, and which stamp comes after another.

A stamp is eighteen characters of ASCII, so it is as many bytes, and a line begins with one
exactly if its first eighteen bytes have the shape. A longer character among them would
begin with a byte that has no place in the shape.

Stamps are compared as texts when lines are selected from a time on. Their fields have
fixed widths and go from the largest unit to the smallest, with the same marks between
them, so the order of the texts is that of the fields, one after the other. That is the
order of the numbers that their digits write. The calendar says which of those numbers are
times, and that there is none between a time and the next millisecond.

## Main definitions

* `LogTime.IsStampBytes`: The bytes have the shape of a stamp.

## Theorems

* `LogTime.fits_iff_bytes`: The shape in characters and in bytes.
* `Text.append_lt_append_iff`: Texts of the same width decide first.
* `Text.lt_iff_digitsValue_lt`: Digits of the same width are ordered like their numbers.
* `LogTime.chars_lt_iff`: Stamps are ordered like their numbers.
* `LogTime.stamp_exact`: All of it.
-/

namespace AccelMonitor

namespace LogTime

/-! ### The bytes of a stamp -/

/-- The byte stands for a digit, or it is a mark. -/
def FitsByte (mark : Char) (b : UInt8) : Prop :=
  if mark = '0' then 0x30 ≤ b.toNat ∧ b.toNat ≤ 0x39 else b.toNat = mark.toNat

/-- The bytes have the shape of a stamp: there are eighteen, of which those at the places of
    a mark are the mark, and all others are digits. -/
def IsStampBytes (bytes : List UInt8) : Prop :=
  List.Forall₂ FitsByte template bytes

theorem template_ascii : ∀ mark ∈ template, mark.toNat < 128 := by
  have hall : (template.all fun mark => decide (mark.toNat < 128)) = true := by decide
  exact fun mark hmark => of_decide_eq_true (List.all_eq_true.mp hall mark hmark)

/-- The bytes of a stamp are of ASCII. -/
theorem ascii_of_forall₂ {shape : List Char} {bytes : List UInt8}
    (hshape : ∀ mark ∈ shape, mark.toNat < 128) (h : List.Forall₂ FitsByte shape bytes) :
    ∀ b ∈ bytes, b.toNat < 128 := by
  induction h with
  | nil => exact List.forall_mem_nil _
  | cons hb _ ih =>
    rw [List.forall_mem_cons] at hshape ⊢
    refine ⟨?_, ih hshape.2⟩
    rw [FitsByte] at hb
    split at hb
    · omega
    · omega

/-- What fits the shape of a stamp is of ASCII: a mark fits only itself, and a digit is one of ten
    characters. So a stamp has as many bytes as characters. -/
theorem ascii_of_fits {shape s : List Char} (hshape : ∀ mark ∈ shape, mark.toNat < 128)
    (h : fitsTemplate shape s = true) : ∀ c ∈ s, c.toNat < 128 := by
  induction shape generalizing s with
  | nil =>
    cases s with
    | nil => exact List.forall_mem_nil _
    | cons c s => cases h
  | cons mark shape ih =>
    cases s with
    | nil => cases h
    | cons c s =>
      rw [List.forall_mem_cons] at hshape ⊢
      rw [fitsTemplate, Bool.and_eq_true] at h
      refine ⟨?_, ih hshape.2 h.2⟩
      by_cases hmark : mark = '0'
      · rw [if_pos hmark] at h
        have hdigit := Text.digitValue_bounds h.1
        omega
      · rw [if_neg hmark] at h
        rw [of_decide_eq_true h.1]
        exact hshape.1

/-- The shape in characters is the shape in bytes. The code looks at characters, and a stamp is
    described by its bytes; for ASCII each character is one byte. -/
theorem fits_iff_bytes {shape s : List Char} (hs : ∀ c ∈ s, c.toNat < 128) :
    fitsTemplate shape s = true ↔ List.Forall₂ FitsByte shape (s.map Text.byteOf) := by
  induction shape generalizing s with
  | nil =>
    cases s with
    | nil => exact iff_of_true rfl .nil
    | cons c s => exact iff_of_false nofun nofun
  | cons mark shape ih =>
    cases s with
    | nil => exact iff_of_false nofun nofun
    | cons c s =>
      rw [List.forall_mem_cons] at hs
      rw [fitsTemplate, Bool.and_eq_true, List.map_cons, List.forall₂_cons, ih hs.2, FitsByte,
        Text.toNat_byteOf hs.1]
      -- The place of a digit, or a mark that has to stand as it is.
      by_cases hmark : mark = '0'
      · rw [if_pos hmark, if_pos hmark, Text.isDigit, Bool.and_eq_true, decide_eq_true_eq,
          decide_eq_true_eq]
        rfl
      · rw [if_neg hmark, if_neg hmark, decide_eq_true_eq, Char.toNat_inj]

theorem length_of_fits {shape s : List Char} (h : fitsTemplate shape s = true) :
    s.length = shape.length := by
  induction shape generalizing s with
  | nil =>
    cases s with
    | nil => rfl
    | cons c s => cases h
  | cons mark shape ih =>
    cases s with
    | nil => cases h
    | cons c s =>
      rw [fitsTemplate, Bool.and_eq_true] at h
      exact congrArg Nat.succ (ih h.2)

/-- A line whose first bytes have the shape of a stamp begins with that stamp. -/
theorem stampList_of_bytes {s : List Char}
    (h : IsStampBytes ((s.flatMap String.utf8EncodeChar).take template.length)) :
    (stampList s).flatMap String.utf8EncodeChar
      = (s.flatMap String.utf8EncodeChar).take template.length := by
  have hlength := h.length_eq
  rw [List.length_take] at hlength
  rcases Text.exists_ascii_front (by omega) (ascii_of_forall₂ template_ascii h)
    with ⟨front, rest, rfl, hfront, hall⟩
  -- ASCII bytes come from as many characters, so both count to the same place.
  have hbytes : ((front ++ rest).flatMap String.utf8EncodeChar).take template.length
      = front.map Text.byteOf := by
    rw [List.flatMap_append, Text.flatMap_ascii hall,
      List.take_left' (by rw [List.length_map, hfront])]
  rw [hbytes] at h ⊢
  have hfits := (fits_iff_bytes hall).mpr h
  rw [stampList, List.take_left' hfront, if_pos hfits, Text.flatMap_ascii hall]

/-- A line that begins with a stamp begins with its bytes. -/
theorem bytes_of_fits {s : List Char}
    (h : fitsTemplate template (s.take template.length) = true) :
    IsStampBytes ((s.flatMap String.utf8EncodeChar).take template.length) := by
  have hascii := ascii_of_fits template_ascii h
  have hlength := length_of_fits h
  have hbytes : (s.flatMap String.utf8EncodeChar).take template.length
      = (s.take template.length).map Text.byteOf := by
    conv_lhs => rw [← List.take_append_drop template.length s]
    rw [List.flatMap_append, Text.flatMap_ascii hascii,
      List.take_left' (by rw [List.length_map, hlength])]
  rw [hbytes]
  exact (fits_iff_bytes hascii).mp h

end LogTime

/-! ### The order of stamps -/

namespace Text

/-- Texts of the same width decide first, and then what follows them. The width is needed: of two
    beginnings where one begins the other, what follows would be compared with the rest of the
    longer. -/
theorem append_lt_append_iff {a b c d : List Char} (h : a.length = b.length) :
    a ++ c < b ++ d ↔ a < b ∨ a = b ∧ c < d := by
  induction a generalizing b with
  | nil =>
    rw [List.length_eq_zero_iff.mp h.symm]
    exact ⟨fun h => Or.inr ⟨rfl, h⟩,
      fun h => h.elim (fun h => absurd h (List.lt_irrefl _)) And.right⟩
  | cons x a ih =>
    cases b with
    | nil => cases h
    | cons y b =>
      rw [List.cons_append, List.cons_append, List.cons_lt_cons_iff, List.cons_lt_cons_iff,
        ih (Nat.succ.inj h), List.cons.injEq, and_or_left, or_assoc, and_assoc]

theorem digit_lt_iff {c d : Char} (hc : isDigit c = true) (hd : isDigit d = true) :
    c < d ↔ digitValue c < digitValue d := by
  have hc' := (digitValue_bounds hc).2
  have hd' := (digitValue_bounds hd).2
  have hlt : c < d ↔ c.toNat < d.toNat := Iff.rfl
  rw [hlt]
  omega

/-- Digits of the same width are ordered like their numbers. Texts are compared from the left,
    so this needs the widths to be the same, and stamps have every field filled up with zeros
    for it. -/
theorem lt_iff_digitsValue_lt {s t : List Char} (hs : ∀ c ∈ s, isDigit c = true)
    (ht : ∀ c ∈ t, isDigit c = true) (hlength : s.length = t.length) :
    s < t ↔ digitsValue s < digitsValue t := by
  -- By induction from the last digit on, which decides only if all others are the same.
  induction s using List.reverseRecOn generalizing t with
  | nil =>
    rw [List.length_eq_zero_iff.mp hlength.symm]
    exact iff_of_false (List.lt_irrefl _) (Nat.lt_irrefl _)
  | append_singleton s c ih =>
    rcases List.eq_nil_or_concat t with rfl | ⟨t, d, rfl⟩
    · rw [List.length_append] at hlength
      cases hlength
    · rw [List.concat_eq_append] at *
      rw [List.forall_mem_append, List.forall_mem_singleton] at hs ht
      have hfront : s.length = t.length := by
        simp only [List.length_append, List.length_singleton] at hlength
        omega
      -- The fronts are equal exactly if their numbers are, since they are of one width.
      have hsame : s = t ↔ digitsValue s = digitsValue t :=
        ⟨congrArg _, digitsValue_injective hs.1 ht.1 hfront⟩
      have hlast : [c] < [d] ↔ digitValue c < digitValue d := by
        rw [List.cons_lt_cons_iff, digit_lt_iff hs.2 ht.2]
        exact ⟨fun h => h.elim id fun h => absurd h.2 (List.lt_irrefl _), Or.inl⟩
      have hc := digitValue_bounds hs.2
      have hd := digitValue_bounds ht.2
      -- So either the fronts decide on both sides, or the last digits do.
      rw [append_lt_append_iff hfront, ih hs.1 ht.1 hfront, hsame, hlast,
        digitsValue_concat, digitsValue_concat]
      omega

end Text

namespace LogTime

/-- Fields are ordered like their numbers. -/
theorem padded_lt_iff {width m n : Nat} (hwidth : 0 < width) (hm : m < 10 ^ width)
    (hn : n < 10 ^ width) : padded width m < padded width n ↔ m < n := by
  have hlength : (padded width m).length = (padded width n).length :=
    (length_padded width hm hwidth).trans (length_padded width hn hwidth).symm
  rw [Text.lt_iff_digitsValue_lt (fun c => isDigit_of_mem_padded width m)
    (fun c => isDigit_of_mem_padded width n) hlength, digitsValue_padded, digitsValue_padded]

/-- A field decides before what follows it. -/
theorem field_lt_iff {width m n : Nat} (hwidth : 0 < width) (hm : m < 10 ^ width)
    (hn : n < 10 ^ width) (x y : List Char) :
    padded width m ++ x < padded width n ++ y ↔ m < n ∨ m = n ∧ x < y := by
  have hlength : (padded width m).length = (padded width n).length :=
    (length_padded width hm hwidth).trans (length_padded width hn hwidth).symm
  have hsame : padded width m = padded width n ↔ m = n := by
    refine ⟨fun h => ?_, congrArg _⟩
    rw [← digitsValue_padded width m, h, digitsValue_padded]
  rw [Text.append_lt_append_iff hlength, hsame, padded_lt_iff hwidth hm hn]

/-- The same mark on both sides decides nothing. -/
theorem mark_lt_iff (mark : Char) (x y : List Char) : mark :: x < mark :: y ↔ x < y := by
  rw [List.cons_lt_cons_iff]
  exact ⟨fun h => h.elim (fun h => absurd h (Char.lt_irrefl _)) And.right, fun h => Or.inr ⟨rfl, h⟩⟩

/-- Stamps are ordered like their numbers. All fields have fixed widths and the larger units stand
    in front, so comparing characters from left to right compares times. -/
theorem chars_lt_iff {t u : LogTime} (ht : t.isValid = true) (hu : u.isValid = true) :
    t.chars < u.chars ↔ t.rank < u.rank := by
  have hbounds := daysIn_bounds t.month
  have hbounds' := daysIn_bounds u.month
  simp only [isValid, Bool.and_eq_true, decide_eq_true_eq] at ht hu
  simp only [chars, List.append_assoc, List.cons_append, List.nil_append]
  -- Field by field from the month on: a mark between two fields is the same in both.
  rw [field_lt_iff (by omega) (by omega) (by omega), mark_lt_iff,
    field_lt_iff (by omega) (by omega) (by omega), mark_lt_iff,
    field_lt_iff (by omega) (by omega) (by omega), mark_lt_iff,
    field_lt_iff (by omega) (by omega) (by omega), mark_lt_iff,
    field_lt_iff (by omega) (by omega) (by omega), mark_lt_iff,
    padded_lt_iff (by omega) (by omega) (by omega)]
  simp only [rank]
  omega

/-! ### The next stamp -/

/-- The text is the stamp of a time that exists and is not in a leap second. -/
def IsRegularStamp (s : String) : Prop :=
  ∃ t, ofStamp? s.toList = some t ∧ t.second ≤ 59

theorem isRegular_iff {t : LogTime} :
    t.isRegular = true ↔ t.isValid = true ∧ t.second ≤ 59 := by
  rw [isRegular, Bool.and_eq_true, decide_eq_true_eq]

/-- The time of a regular stamp, which is its stamp. -/
theorem IsRegularStamp.exists_time {s : String} (h : IsRegularStamp s) :
    ∃ t : LogTime, t.isRegular = true ∧ s = t.text := by
  rcases h with ⟨t, ht, hsecond⟩
  rcases ofStamp?_eq_some.mp ht with ⟨hvalid, hchars⟩
  refine ⟨t, isRegular_iff.mpr ⟨hvalid, hsecond⟩, ?_⟩
  rw [text, ← hchars, String.ofList_toList]

theorem toList_text (t : LogTime) : t.text.toList = t.chars :=
  String.toList_ofList

theorem text_lt_iff {t u : LogTime} (ht : t.isRegular = true) (hu : u.isRegular = true) :
    t.text < u.text ↔ t.rank < u.rank := by
  change t.text.toList < u.text.toList ↔ _
  rw [toList_text, toList_text, chars_lt_iff (isValid_of_isRegular ht) (isValid_of_isRegular hu)]

/-- The stamp of a time that exists is taken for one and names the time. -/
theorem accepted_text {t : LogTime} (h : t.isValid = true) :
    stamp t.text = t.text ∧ ofStamp? t.text.toList = some t := by
  have hstamp := stampList_chars h []
  rw [List.append_nil] at hstamp
  rw [stamp, toList_text, hstamp]
  exact ⟨rfl, ofStamp?_chars h⟩

/-- No time that is not in a leap second is after the last one. -/
theorem rank_le_last {t : LogTime} (ht : t.isRegular = true) : t.rank ≤ last.rank := by
  have hbounds := daysIn_bounds t.month
  simp only [isRegular, isValid, Bool.and_eq_true, decide_eq_true_eq] at ht
  simp only [rank, last]
  omega

/-- No time is before the first one. -/
theorem rank_next_last_le {t : LogTime} (ht : t.isValid = true) : last.next.rank ≤ t.rank := by
  have hfirst : last.next = ⟨1, 1, 0, 0, 0, 0⟩ := by decide
  simp only [isValid, Bool.and_eq_true, decide_eq_true_eq] at ht
  simp only [hfirst, rank]
  omega

/-- The stamp of a line is what its first eighteen bytes are if they have the shape of a stamp,
    and empty if they do not or there are fewer. -/
theorem stamp_bytes (line : String) :
    (IsStampBytes (line.toUTF8.data.toList.take 18) →
      (stamp line).toUTF8.data.toList = line.toUTF8.data.toList.take 18) ∧
    (¬ IsStampBytes (line.toUTF8.data.toList.take 18) → stamp line = "") := by
  have hlength : template.length = 18 := by decide
  rw [Text.toUTF8_toList, Text.toUTF8_toList, stamp, String.toList_ofList, ← hlength]
  refine ⟨stampList_of_bytes, fun h => ?_⟩
  rw [stampList, if_neg fun hfits => h (bytes_of_fits hfits)]

-- A character of two bytes is none of a stamp, even where the bytes are as many.
example : stamp "05-13 23:23:é.123  1234  1250 I tflite  : Invoke" = "" := by decide

/-- A line begins with a stamp exactly if its first eighteen bytes are one, whatever else it
    holds. A stamp of a time that exists and is not in a leap second is the stamp of the time
    that it names. The stamp of the next millisecond is taken for one and names that
    millisecond, it is greater as a text unless this was the last millisecond of the year, and
    no such stamp stands between the two. Behind the last stamp of the year there is none, and
    the next one is the first of all. -/
theorem stamp_exact :
    (∀ line : String,
      (IsStampBytes (line.toUTF8.data.toList.take 18) →
        (stamp line).toUTF8.data.toList = line.toUTF8.data.toList.take 18) ∧
      (¬ IsStampBytes (line.toUTF8.data.toList.take 18) → stamp line = "")) ∧
    ∀ (s : String) (t : LogTime), ofStamp? s.toList = some t → t.second ≤ 59 →
      t.text = s ∧
      stamp t.next.text = t.next.text ∧
      ofStamp? t.next.text.toList = some t.next ∧
      (s < t.next.text ↔ s ≠ "12-31 23:59:59.999") ∧
      (∀ other, IsRegularStamp other → ¬ (s < other ∧ other < t.next.text)) ∧
      (s = "12-31 23:59:59.999" →
        ∀ other, IsRegularStamp other → ¬ s < other ∧ ¬ other < t.next.text) := by
  refine ⟨stamp_bytes, fun s t hs hsecond => ?_⟩
  rcases ofStamp?_eq_some.mp hs with ⟨hvalid, hchars⟩
  have hregular : t.isRegular = true := isRegular_iff.mpr ⟨hvalid, hsecond⟩
  have hnext := isRegular_next hregular
  have htext : t.text = s := by rw [text, ← hchars, String.ofList_toList]
  -- Of a regular time, the last millisecond of the year is the only one without a greater
  -- stamp.
  have hlast : s = "12-31 23:59:59.999" ↔ t = last := by
    constructor
    · rintro rfl
      have hyear : ofStamp? "12-31 23:59:59.999".toList = some last := by decide
      exact Option.some.inj (hs.symm.trans hyear)
    · rintro rfl
      rw [← htext]
      decide
  have haccepted := accepted_text (isValid_of_isRegular hnext)
  refine ⟨htext, haccepted.1, haccepted.2, ?_, ?_, ?_⟩
  · rw [ne_eq, hlast, ← htext, text_lt_iff hregular hnext]
    constructor
    · rintro hlt rfl
      exact absurd hlt (by decide)
    · intro hne
      exact (next_le_iff hregular hne hnext).mp (Nat.le_refl _)
  -- What lies between the stamps lies between the times.
  · intro other hother
    rcases hother.exists_time with ⟨u, hu, rfl⟩
    rw [← htext, text_lt_iff hregular hu, text_lt_iff hu hnext]
    rintro ⟨hafter, hbefore⟩
    by_cases hyear : t = last
    · rw [hyear] at hafter
      exact absurd (rank_le_last hu) (Nat.not_le_of_lt hafter)
    · exact absurd ((next_le_iff hregular hyear hu).mpr hafter) (Nat.not_le_of_lt hbefore)
  · intro hyear other hother
    rcases hother.exists_time with ⟨u, hu, rfl⟩
    rw [← htext, text_lt_iff hregular hu, text_lt_iff hu hnext, hlast.mp hyear]
    exact ⟨Nat.not_lt_of_le (rank_le_last hu),
      Nat.not_lt_of_le (rank_next_last_le (isValid_of_isRegular hu))⟩

/-- The case of the day that only a leap year has. -/
theorem stamp_exact_leapDay :
    "02-28 23:59:59.999" < "02-29 00:00:00.000" ∧
    ∀ other, IsRegularStamp other →
      ¬ ("02-28 23:59:59.999" < other ∧ other < "02-29 00:00:00.000") := by
  have hexact := stamp_exact.2 "02-28 23:59:59.999" ⟨2, 28, 23, 59, 59, 999⟩ (by decide) (by decide)
  have hnext : (next ⟨2, 28, 23, 59, 59, 999⟩).text = "02-29 00:00:00.000" := by decide
  rw [hnext] at hexact
  exact ⟨hexact.2.2.2.1.mpr (by decide), hexact.2.2.2.2.1⟩

end LogTime

end AccelMonitor

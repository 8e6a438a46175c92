import AccelMonitor.DeviceLog.Reader
import AccelMonitor.Proofs.DeviceLog.Calendar
import Mathlib.Data.List.Induction

/-!
# Stamps and Times

Which lines begin with a time.

A stamp is read field by field and written field by field, and the two agree because a
field has a fixed width. Among the digits of one width a number is written in one way, so
the digits that were read are those that would be written. A line therefore has a time
exactly if it begins with the stamp of one that exists. `timeOf_eq_some` says so without
any of the reading.

## Theorems

* `Text.digitsValue_injective`: Digits of one width are known by their number.
* `padded_digitsValue`: A field that is read and written is the same.
* `fits_append`, `fits_digits`: The shape of a stamp, part by part.
* `chars_ofFields`: A stamp that is read and written is the same.
* `ofStamp?_eq_some`: A stamp names the time that it is the stamp of.
* `timeOf_eq_some`: A line has the time whose stamp it begins with.
-/

namespace AccelMonitor

namespace Text

theorem digitValue_bounds {c : Char} (h : isDigit c = true) :
    digitValue c < 10 ∧ c.toNat = digitValue c + 0x30 := by
  simp only [isDigit, Bool.and_eq_true, decide_eq_true_eq] at h
  have hlow : 0x30 ≤ c.toNat := h.1
  have hhigh : c.toNat ≤ 0x39 := h.2
  rw [digitValue]
  omega

theorem digitsValue_concat (s : List Char) (c : Char) :
    digitsValue (s ++ [c]) = 10 * digitsValue s + digitValue c := by
  simp only [digitsValue, List.foldl_append, List.foldl_cons, List.foldl_nil]

theorem digitsValue_lt {s : List Char} (hs : ∀ c ∈ s, isDigit c = true) :
    digitsValue s < 10 ^ s.length := by
  induction s using List.reverseRecOn with
  | nil => decide
  | append_singleton s c ih =>
    rw [List.forall_mem_append, List.forall_mem_singleton] at hs
    have hrest := ih hs.1
    have hc := digitValue_bounds hs.2
    rw [digitsValue_concat, List.length_append, List.length_singleton, Nat.pow_succ]
    omega

/-- Digits of one width are known by their number. Without the width they are not, for zeros in
    front do not count. -/
theorem digitsValue_injective {s t : List Char} (hs : ∀ c ∈ s, isDigit c = true)
    (ht : ∀ c ∈ t, isDigit c = true) (hlength : s.length = t.length)
    (h : digitsValue s = digitsValue t) : s = t := by
  -- By induction from the last digit on, which is the remainder of the number.
  induction s using List.reverseRecOn generalizing t with
  | nil => exact (List.length_eq_zero_iff.mp hlength.symm).symm
  | append_singleton s c ih =>
    rcases List.eq_nil_or_concat t with rfl | ⟨t, d, rfl⟩
    · rw [List.length_append] at hlength
      cases hlength
    · rw [List.concat_eq_append] at *
      rw [List.forall_mem_append, List.forall_mem_singleton] at hs ht
      have hc := digitValue_bounds hs.2
      have hd := digitValue_bounds ht.2
      rw [digitsValue_concat, digitsValue_concat] at h
      have hlast : c = d := Char.toNat_inj.mp (by omega)
      have hfront : s = t := by
        refine ih hs.1 ht.1 ?_ (by omega)
        simp only [List.length_append, List.length_singleton] at hlength
        omega
      rw [hlast, hfront]

end Text

namespace LogTime

/-- A field that is read and written is the same. -/
theorem padded_digitsValue {s : List Char} (hs : ∀ c ∈ s, Text.isDigit c = true) (hne : s ≠ []) :
    padded s.length (Text.digitsValue s) = s := by
  refine Text.digitsValue_injective (fun c hc => isDigit_of_mem_padded _ _ hc) hs ?_
    (digitsValue_padded _ _)
  exact length_padded _ (Text.digitsValue_lt hs) (List.length_pos_iff.mpr hne)

/-- A text that fits two shapes in a row consists of two texts that fit one each. -/
theorem fits_append {shape shape' s : List Char} (h : fitsTemplate (shape ++ shape') s = true) :
    ∃ x y, s = x ++ y ∧ fitsTemplate shape x = true ∧ fitsTemplate shape' y = true := by
  induction shape generalizing s with
  | nil => exact ⟨[], s, rfl, rfl, h⟩
  | cons mark shape ih =>
    cases s with
    | nil => cases h
    | cons c s =>
      rw [List.cons_append, fitsTemplate, Bool.and_eq_true] at h
      rcases ih h.2 with ⟨x, y, rfl, hx, hy⟩
      refine ⟨c :: x, y, rfl, ?_, hy⟩
      rw [fitsTemplate, h.1, hx, Bool.and_self]

/-- What fits a field are as many digits. -/
theorem fits_digits {n : Nat} {s : List Char}
    (h : fitsTemplate (List.replicate n '0') s = true) :
    s.length = n ∧ ∀ c ∈ s, Text.isDigit c = true := by
  induction n generalizing s with
  | zero =>
    cases s with
    | nil => exact ⟨rfl, List.forall_mem_nil _⟩
    | cons c s => cases h
  | succ n ih =>
    cases s with
    | nil => cases h
    | cons c s =>
      rw [List.replicate_succ, fitsTemplate, Bool.and_eq_true, if_pos rfl] at h
      have hrest := ih h.2
      rw [List.length_cons, hrest.1, List.forall_mem_cons]
      exact ⟨rfl, h.1, hrest.2⟩

/-- A field of two digits that fits its shape. -/
theorem field_two {s : List Char} (h : fitsTemplate (List.replicate 2 '0') s = true) :
    ∃ a b, s = [a, b] ∧ padded 2 (Text.digitsValue [a, b]) = [a, b] := by
  have hdigits := fits_digits h
  rcases List.length_eq_two.mp hdigits.1 with ⟨a, b, rfl⟩
  exact ⟨a, b, rfl, padded_digitsValue hdigits.2 (List.cons_ne_nil _ _)⟩

/-- A field of three digits that fits its shape. -/
theorem field_three {s : List Char} (h : fitsTemplate (List.replicate 3 '0') s = true) :
    ∃ a b c, s = [a, b, c] ∧ padded 3 (Text.digitsValue [a, b, c]) = [a, b, c] := by
  have hdigits := fits_digits h
  rcases List.length_eq_three.mp hdigits.1 with ⟨a, b, c, rfl⟩
  exact ⟨a, b, c, rfl, padded_digitsValue hdigits.2 (List.cons_ne_nil _ _)⟩

/-- What fits a mark is the mark. -/
theorem fits_mark {mark : Char} {s : List Char} (hmark : mark ≠ '0')
    (h : fitsTemplate [mark] s = true) : s = [mark] := by
  rcases s with _ | ⟨c, _ | ⟨d, s⟩⟩
  · cases h
  · rw [fitsTemplate, if_neg hmark, Bool.and_eq_true] at h
    rw [of_decide_eq_true h.1]
  · rw [fitsTemplate, Bool.and_eq_true] at h
    cases h.2

/-- A stamp that is read and written is the same. Every field has a fixed width, so its digits
    are those of its number filled up with zeros, and the marks between them are those of the
    template. -/
theorem chars_ofFields {s : List Char} (h : fitsTemplate template s = true) :
    (ofFields s).chars = s := by
  have htemplate : template = List.replicate 2 '0' ++ (['-'] ++ (List.replicate 2 '0' ++ ([' ']
      ++ (List.replicate 2 '0' ++ ([':'] ++ (List.replicate 2 '0' ++ ([':']
      ++ (List.replicate 2 '0' ++ (['.'] ++ List.replicate 3 '0'))))))))) := by
    decide
  rw [htemplate] at h
  -- One field or mark after the other.
  rcases fits_append h with ⟨month, _, rfl, hmonth, h⟩
  rcases fits_append h with ⟨_, _, rfl, hmark₁, h⟩
  rcases fits_append h with ⟨day, _, rfl, hday, h⟩
  rcases fits_append h with ⟨_, _, rfl, hmark₂, h⟩
  rcases fits_append h with ⟨hour, _, rfl, hhour, h⟩
  rcases fits_append h with ⟨_, _, rfl, hmark₃, h⟩
  rcases fits_append h with ⟨minute, _, rfl, hminute, h⟩
  rcases fits_append h with ⟨_, _, rfl, hmark₄, h⟩
  rcases fits_append h with ⟨second, _, rfl, hsecond, h⟩
  rcases fits_append h with ⟨_, milli, rfl, hmark₅, hmilli⟩
  -- Two digits are written as they were read, leading zeros included.
  rcases field_two hmonth with ⟨m, m', rfl, hmonthWritten⟩
  rcases field_two hday with ⟨d, d', rfl, hdayWritten⟩
  rcases field_two hhour with ⟨o, o', rfl, hhourWritten⟩
  rcases field_two hminute with ⟨u, u', rfl, hminuteWritten⟩
  rcases field_two hsecond with ⟨s, s', rfl, hsecondWritten⟩
  rcases field_three hmilli with ⟨x, x', x'', rfl, hmilliWritten⟩
  rw [fits_mark (by decide) hmark₁, fits_mark (by decide) hmark₂, fits_mark (by decide) hmark₃,
    fits_mark (by decide) hmark₄, fits_mark (by decide) hmark₅]
  simp only [chars, ofFields, field, List.cons_append, List.nil_append, List.drop_zero,
    List.drop_succ_cons, List.take_succ_cons, List.take_zero, hmonthWritten, hdayWritten,
    hhourWritten, hminuteWritten, hsecondWritten, hmilliWritten]

/-- A stamp names a time exactly if it is the stamp of one that exists. -/
theorem ofStamp?_eq_some {s : List Char} {t : LogTime} :
    ofStamp? s = some t ↔ t.isValid = true ∧ s = t.chars := by
  constructor
  · intro h
    rw [ofStamp?] at h
    split at h
    · rename_i hstamp
      rw [Bool.and_eq_true] at hstamp
      cases h
      exact ⟨hstamp.2, (chars_ofFields hstamp.1).symm⟩
    · cases h
  · rintro ⟨hvalid, rfl⟩
    exact ofStamp?_chars hvalid

end LogTime

namespace DeviceReader

/-- A line has the time whose stamp it begins with. There is at most one, for a stamp has a fixed
    width and determines its time. -/
theorem timeOf_eq_some {line : String} {t : LogTime} :
    timeOf line = some t ↔ t.isValid = true ∧ t.chars <+: line.toList := by
  rw [timeOf, LogTime.ofStamp?_eq_some]
  constructor
  · rintro ⟨hvalid, hstamp⟩
    refine ⟨hvalid, ?_⟩
    -- The stamp that is looked at is the beginning of the line, or nothing if the line is too
    -- short.
    rcases LogTime.stamp_eq_nil_or_take line.toList with hnil | htake
    · rw [← hstamp, hnil]
      exact List.nil_prefix
    · rw [← hstamp, htake]
      exact List.take_prefix _ _
  · rintro ⟨hvalid, rest, hline⟩
    refine ⟨hvalid, ?_⟩
    rw [← hline]
    exact LogTime.stampList_chars hvalid rest

end DeviceReader

end AccelMonitor

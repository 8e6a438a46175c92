import AccelMonitor.Proofs.DeviceLog.Calendar
import AccelMonitor.Proofs.DeviceLog.Mark

/-!
# Lines of the Device Log

What the device prints for an entry of its log, and what is read of it.

A printed line has fields: when, which process and thread, how serious, who, and a
message, which can be anything. The time is found at its place. The tag is found by its
surroundings instead, a level in front of it and a colon behind, and a message may well
contain the same. But the leftmost mark counts, and in front of the tag field there are
only numbers and blanks, so no mark begins there. A tag field that is watched therefore is
what is read. One that is not is passed over like the rest of the line, and then the
message decides.

## Main definitions

* `LogEntry`: The fields of a printed line, of any program of the device.
* `LogEntry.text`: The printed line.
* `DeviceLine`: A printed line of a watched program, with its time.
* `DeviceLine.text`: The same printed line.

## Theorems

* `not_level_of_fits`: No level stands in a time stamp.
* `LogEntry.carries_of_field`: A tag field that is watched decides.
* `LogEntry.carries_of_unwatched`: The message decides if the tag field is not.
* `timeOf_text`: The time that is read is that of the line.
* `tagOf_text`: The tag that is read is that of the line.
-/

namespace AccelMonitor

namespace DeviceReader

/-- A time stamp consists of digits and of the marks between them. So it holds no letter, and no
    tag or level can be read within it. -/
theorem digit_or_mem_of_fits {shape s : List Char} (h : LogTime.fitsTemplate shape s = true) :
    ∀ c ∈ s, Text.isDigit c = true ∨ c ∈ shape := by
  induction shape generalizing s with
  | nil =>
    cases s with
    | nil => exact List.forall_mem_nil _
    | cons c s => cases h
  | cons mark shape ih =>
    cases s with
    | nil => cases h
    | cons c s =>
      rw [LogTime.fitsTemplate, Bool.and_eq_true] at h
      intro d hd
      rcases List.mem_cons.mp hd with rfl | hd
      · have hfirst := h.1
        split at hfirst
        · exact Or.inl hfirst
        · rw [of_decide_eq_true hfirst]
          exact Or.inr (List.mem_cons_self ..)
      · exact (ih h.2 d hd).imp id (List.mem_cons_of_mem mark)

/-- No level stands in a time stamp. -/
theorem not_level_of_fits {s : List Char}
    (h : LogTime.fitsTemplate LogTime.template s = true) : ∀ c ∈ s, isLevel c = false := by
  have hmarks : LogTime.template.all (fun c => !isLevel c) = true := by
    decide
  intro c hc
  rcases digit_or_mem_of_fits h c hc with hdigit | hmark
  · exact not_level_of_plain (Or.inr hdigit)
  · exact (Bool.not_eq_true' _).mp (List.all_eq_true.mp hmarks c hmark)

end DeviceReader

/-- A printed line of any program. The field in front of the colon is the only place where the
    device writes a tag, and the message is whatever the program wants. -/
structure LogEntry where
  stamp : List Char
  /-- The process and the thread, up to the blank in front of the level. -/
  origin : List Char
  level : Char
  /-- The tag of the program. -/
  field : List Char
  /-- What fills the field up to its width. -/
  padding : List Char
  /-- Everything behind the colon. -/
  message : List Char
  stamp_fits : LogTime.fitsTemplate LogTime.template stamp = true
  origin_plain : origin.all (fun c => Text.isBlank c || Text.isDigit c) = true
  level_valid : DeviceReader.isLevel level = true
  field_chars : field.all LogTag.isTagChar = true
  padding_blank : padding.all Text.isBlank = true

namespace LogEntry

open DeviceReader

/-- The line from the level on, with the blank in front of it. -/
def fromLevel (e : LogEntry) : List Char :=
  ' ' :: e.level :: ' ' :: (e.field ++ (e.padding ++ ':' :: e.message))

/-- The printed line. -/
def text (e : LogEntry) : String :=
  String.ofList (e.stamp ++ (e.origin ++ e.fromLevel))

variable {tags : List LogTag} {e : LogEntry}

/-- No mark begins in front of the level. -/
theorem carries_text {t : LogTag} :
    Carries tags e.text.toList t ↔ Carries tags e.fromLevel t := by
  have hskipped : ∀ c ∈ e.stamp ++ e.origin, isLevel c = false := by
    intro c hc
    rcases List.mem_append.mp hc with hc | hc
    · exact not_level_of_fits e.stamp_fits c hc
    · exact not_level_of_plain (Bool.or_eq_true .. ▸ List.all_eq_true.mp e.origin_plain c hc)
  rw [text, String.toList_ofList, ← List.append_assoc]
  exact carries_plain hskipped (Text.head_char (by decide) _)

/-- A tag field that is watched decides, whatever the message is. -/
theorem carries_of_field {t : LogTag} (ht : t ∈ tags) (hfield : e.field = t.name.toList) :
    Carries tags e.text.toList t := by
  refine carries_text.mpr (carries_of_markedAt ht ?_)
  exact ⟨' ', e.level, [' '], e.padding, e.message, hfield ▸ rfl, by decide, e.level_valid,
    List.cons_ne_nil _ _, Text.forall_blank, List.all_eq_true.mp e.padding_blank⟩

/-- If the tag field is not watched, the message decides. -/
theorem carries_of_unwatched (hfield : ∀ u ∈ tags, e.field ≠ u.name.toList) {t : LogTag} :
    Carries tags e.text.toList t ↔ Carries tags e.message t := by
  have hchars := List.all_eq_true.mp e.field_chars
  have hpadding := List.all_eq_true.mp e.padding_blank
  have hunmarked : ∀ u ∈ tags, ¬ MarkedAt u.name.toList e.fromLevel := by
    intro u hu hmarked
    exact hfield u hu (MarkedAt.field_eq Text.forall_blank hchars hpadding
      u.name_ne_nil LogTag.isTagChar_of_mem_name hmarked)
  have hlevel : ∀ c ∈ [e.level], Text.isBlank c = false :=
    List.forall_mem_singleton.mpr (isBlank_of_isLevel e.level_valid)
  rw [carries_text, fromLevel, carries_unmarked hunmarked]
  exact (carries_solid hlevel).trans (carries_field hchars hpadding)

end LogEntry

/-- A printed line of a watched program. -/
structure DeviceLine where
  time : LogTime
  /-- The process and the thread, up to the blank in front of the level. -/
  origin : List Char
  level : Char
  tag : LogTag
  /-- What fills the tag up to its width. -/
  padding : List Char
  message : List Char
  time_regular : time.isRegular = true
  origin_plain : origin.all (fun c => Text.isBlank c || Text.isDigit c) = true
  level_valid : DeviceReader.isLevel level = true
  padding_blank : padding.all Text.isBlank = true

namespace DeviceLine

/-- The line from the level on, with the blank in front of it. -/
def fromLevel (l : DeviceLine) : List Char :=
  ' ' :: l.level :: ' ' :: (l.tag.name.toList ++ (l.padding ++ ':' :: l.message))

/-- The printed line. -/
def text (l : DeviceLine) : String :=
  String.ofList (l.time.chars ++ (l.origin ++ l.fromLevel))

theorem timeOf_text (l : DeviceLine) : DeviceReader.timeOf l.text = some l.time := by
  have hvalid := LogTime.isValid_of_isRegular l.time_regular
  rw [DeviceReader.timeOf, text, String.toList_ofList, LogTime.stampList_chars hvalid,
    LogTime.ofStamp?_chars hvalid]

/-- The same line as one of any program. -/
def entry (l : DeviceLine) : LogEntry where
  stamp := l.time.chars
  origin := l.origin
  level := l.level
  field := l.tag.name.toList
  padding := l.padding
  message := l.message
  stamp_fits := (LogTime.shape_chars (LogTime.isValid_of_isRegular l.time_regular)).2.1
  origin_plain := l.origin_plain
  level_valid := l.level_valid
  field_chars := List.all_eq_true.mpr LogTag.isTagChar_of_mem_name
  padding_blank := l.padding_blank

end DeviceLine

namespace DeviceReader

theorem tagOf_text {tags : List LogTag} {l : DeviceLine} (hl : l.tag ∈ tags) :
    tagOf tags l.text = some l.tag.name :=
  tagOf_eq_name.mpr (LogEntry.carries_of_field (e := l.entry) hl rfl)

end DeviceReader

end AccelMonitor

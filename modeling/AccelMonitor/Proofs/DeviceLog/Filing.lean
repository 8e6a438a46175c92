import AccelMonitor.Proofs.DeviceLog.Watermark

/-!
# Filing by the Tag Field

Under which tag a reading files a line of the device, among any other lines.

A line whose tag field is watched is filed under it, whatever its message says. A line
whose tag field is not watched should be left out. It is unless its message has a mark of a
watched tag, for the mark is looked for in the whole line. So a message of any program
can put its line under a watched tag and move the watermark.

## Main definitions

* `FiledUnder`: A line among others is filed under one tag only.
* `misleading`: A line whose tag field and message differ.

## Theorems

* `filed_of_carries`: A line is filed under the tag that it carries.
* `absorb_unwatched`: A line that carries no tag changes nothing.
* `filed_by_field`: What the tag field decides, and what the message.
* `filed_by_message`: A line that its message puts under a tag.
-/

namespace AccelMonitor

namespace DeviceReader

/-- Among the lines before and behind it, the line is filed under the tag and no other. -/
def FiledUnder (tags : List LogTag) (before : List String) (line : String) (after : List String)
    (t : LogTag) (lines : LogLines) : Prop :=
  ∀ u ∈ tags, lines[u.name]? = some
    (linesOf tags u before ++ ((if u = t then [line] else []) ++ linesOf tags u after))

variable {r : DeviceReader} {line : String}

theorem filed_of_carries {t : LogTag} (h : Carries r.tags line.toList t)
    (before after : List String) :
    FiledUnder r.tags before line after t (r.absorb (before ++ line :: after)).lines := by
  intro u hu
  have hline : tagOf r.tags line = some u.name ↔ u = t := by
    rw [tagOf_eq_name]
    exact ⟨fun hcarries => hcarries.unique h, fun heq => heq ▸ h⟩
  rw [get_absorb hu, linesOf, List.filter_append, List.filter_cons]
  by_cases heq : u = t
  · rw [if_pos (decide_eq_true (hline.mpr heq)), if_pos heq]
    rfl
  · rw [if_neg fun h => heq (hline.mp (of_decide_eq_true h)), if_neg heq]
    rfl

/-- A line that carries no watched tag changes nothing. -/
theorem absorb_unwatched (h : ∀ t, ¬ Carries r.tags line.toList t) (before after : List String) :
    r.absorb (before ++ line :: after) = r.absorb (before ++ after) := by
  have hnone : tagOf r.tags line = none := by
    rw [Option.eq_none_iff_forall_not_mem]
    intro name hname
    rcases tagOf_eq_some.mp hname with ⟨t, _, ht⟩
    exact h t ht
  have htagged : tagged r.tags (before ++ line :: after) = tagged r.tags (before ++ after) := by
    rw [tagged, tagged, List.filterMap_append, List.filterMap_cons, hnone, List.filterMap_append]
    rfl
  rw [absorb, htagged, ← absorb]

/-- The tag field decides under which tag a line is filed, whatever the message is. If it is
    not watched, the message decides, and a line whose message carries no watched tag changes
    nothing at all. -/
theorem filed_by_field (r : DeviceReader) (e : LogEntry) (before after : List String) :
    (∀ t ∈ r.tags, e.field = t.name.toList →
      ∃ r', r.next (.ok (before ++ e.text :: after)) = .ok r' ∧
        FiledUnder r.tags before e.text after t r'.lines) ∧
    ((∀ u ∈ r.tags, e.field ≠ u.name.toList) →
      (∀ t, Carries r.tags e.message t →
        ∃ r', r.next (.ok (before ++ e.text :: after)) = .ok r' ∧
          FiledUnder r.tags before e.text after t r'.lines) ∧
      ((∀ t, ¬ Carries r.tags e.message t) →
        r.next (.ok (before ++ e.text :: after)) = r.next (.ok (before ++ after)))) := by
  constructor
  · intro t ht hfield
    exact ⟨_, rfl, filed_of_carries (e.carries_of_field ht hfield) before after⟩
  · intro hfield
    constructor
    · intro t hmessage
      have hcarries := (LogEntry.carries_of_unwatched hfield).mpr hmessage
      exact ⟨_, rfl, filed_of_carries hcarries before after⟩
    · intro hmessage
      have hnone : ∀ t, ¬ Carries r.tags e.text.toList t :=
        fun t ht => hmessage t ((LogEntry.carries_of_unwatched hfield).mp ht)
      rw [next, next, absorb_unwatched hnone]

/-- A line of a program that is not watched, with a mark of a watched tag in its message. -/
def misleading : LogEntry where
  stamp := "05-13 23:23:08.123".toList
  origin := "  1234  1250".toList
  level := 'I'
  field := "ActivityManager".toList
  padding := []
  message := " I tflite: start".toList
  stamp_fits := rfl
  origin_plain := rfl
  level_valid := rfl
  field_chars := rfl
  padding_blank := rfl

/-- A line of a program that is not watched is filed under the tag in its message, and moves the
    watermark. -/
theorem filed_by_message :
    ∃ r r', start [.tflite] = .ok r ∧ r.next (.ok [misleading.text]) = .ok r' ∧
      misleading.text = "05-13 23:23:08.123  1234  1250 I ActivityManager: I tflite: start" ∧
      (∀ u ∈ r.tags, misleading.field ≠ u.name.toList) ∧
      r'.lines["tflite"]? = some [misleading.text] ∧
      r.watermarkText = "" ∧ r'.watermarkText = "05-13 23:23:08.124" := by
  refine ⟨⟨[.tflite], none, noLines [.tflite], false⟩, _, rfl, rfl, by decide +kernel,
    by decide, ?_, rfl, by decide +kernel⟩
  have hfiled : linesOf [.tflite] .tflite [misleading.text] = [misleading.text] := by
    decide +kernel
  exact (get_absorb (t := .tflite) (List.mem_singleton.mpr rfl)).trans (congrArg some hfiled)

end DeviceReader

end AccelMonitor

import AccelMonitor.Proofs.DeviceLog.Line

/-!
# Reading Printed Lines

What a reader makes of lines that the device has printed.

Every line that the device prints carries a watched tag and a time. So all lines are
kept, each under its tag and in order, and the last one of all, of whichever tag, sets
the watermark. A reading without lines leaves the watermark alone.

## Main definitions

* `DeviceReader.Filed`: Every watched tag has its lines.

## Theorems

* `tagged_text`, `lastTime_text`: All printed lines count, and the last one is newest.
* `get_noLines`, `get_foldl_add`: What is listed under a name.
* `anyLine_iff`: When there are lines at all.
* `watermark_absorb`, `fresh_absorb`, `filed_absorb`: What a reading does.
-/

namespace AccelMonitor

namespace DeviceReader

theorem tagged_text {tags : List LogTag} {batch : List DeviceLine}
    (hwatched : ∀ l ∈ batch, l.tag ∈ tags) :
    tagged tags (batch.map DeviceLine.text) = batch.map fun l => (l.tag.name, l.text) := by
  induction batch with
  | nil => rfl
  | cons l batch ih =>
    have hrest := ih fun l' hl' => hwatched l' (List.mem_cons_of_mem l hl')
    have htag := tagOf_text (hwatched l (List.mem_cons_self ..))
    rw [tagged] at hrest
    rw [tagged, List.map_cons, List.filterMap_cons_some (by rw [htag]; rfl), hrest, List.map_cons]

theorem lastTime_text (batch : List DeviceLine) :
    lastTime (batch.map fun l => (l.tag.name, l.text)) = batch.getLast?.map DeviceLine.time := by
  have htimes : (batch.map fun l => (l.tag.name, l.text)).filterMap (fun e => timeOf e.2)
      = batch.map DeviceLine.time := by
    induction batch with
    | nil => rfl
    | cons l batch ih =>
      simp only [List.map_cons, List.filterMap_cons, l.timeOf_text, ih]
  rw [lastTime, htimes, List.getLast?_map]

/-- Without lines every tag is listed, and nothing else. A reading begins with this table, so a
    tag without new lines is listed with none. -/
theorem get_noLines (tags : List LogTag) (name : String) :
    (noLines tags)[name]? = if name ∈ tags.map LogTag.name then some [] else none := by
  -- For any table to begin with, since the entries are put in one by one.
  have hinsert : ∀ t : LogLines,
      ((tags.map fun tag => (tag.name, [])).foldl (fun t e => t.insert e.1 e.2) t)[name]?
        = if name ∈ tags.map LogTag.name then some [] else t[name]? := by
    induction tags with
    | nil =>
      intro t
      rw [List.map_nil, List.map_nil, if_neg List.not_mem_nil]
      rfl
    | cons tag tags ih =>
      intro t
      rw [List.map_cons, List.foldl_cons, ih, List.map_cons, Std.ExtTreeMap.getElem?_insert]
      by_cases htag : tag.name = name
      · rw [if_pos (Std.compare_eq_iff_eq.mpr htag), ite_self,
          if_pos (List.mem_cons.mpr (Or.inl htag.symm))]
      · simp only [if_neg (mt Std.compare_eq_iff_eq.mp htag), List.mem_cons, Ne.symm htag,
          false_or]
  rw [noLines, Table.ofList, hinsert, Std.ExtTreeMap.getElem?_empty]

/-- A listed name keeps its lines and gets those that carry it, in their order. -/
theorem get_foldl_add {table : LogLines} {name : String} {lines : List String}
    (hlisted : table[name]? = some lines) (entries : List (String × String)) :
    (entries.foldl add table)[name]?
      = some (lines ++ (entries.filter fun e => e.1 = name).map Prod.snd) := by
  induction entries generalizing table lines with
  | nil =>
    rw [List.foldl_nil, hlisted, List.filter_nil, List.map_nil, List.append_nil]
  | cons e entries ih =>
    rw [List.foldl_cons]
    -- A line is appended to its own tag and leaves the others as they are.
    by_cases he : e.1 = name
    · have hadded : (add table e)[name]? = some (lines ++ [e.2]) := by
        rw [add, he, Std.ExtTreeMap.getElem?_insert, if_pos (Std.compare_eq_iff_eq.mpr rfl),
          hlisted]
        rfl
      rw [ih hadded, List.filter_cons_of_pos (by exact decide_eq_true he), List.map_cons,
        List.append_assoc]
      rfl
    · have hkept : (add table e)[name]? = some lines := by
        rw [add, Std.ExtTreeMap.getElem?_insert, if_neg (mt Std.compare_eq_iff_eq.mp he), hlisted]
      rw [ih hkept, List.filter_cons_of_neg (by exact mt of_decide_eq_true he)]

theorem anyLine_iff {lines : LogLines} :
    anyLine lines = true ↔
      ∃ (name : String) (kept : List String), lines[name]? = some kept ∧ kept ≠ [] := by
  rw [anyLine, List.any_eq_true]
  constructor
  · rintro ⟨⟨name, kept⟩, hmem, hkept⟩
    refine ⟨name, kept, Std.ExtTreeMap.mem_toList_iff_getElem?_eq_some.mp hmem, ?_⟩
    rintro rfl
    cases hkept
  · rintro ⟨name, kept, hlisted, hkept⟩
    refine ⟨(name, kept), Std.ExtTreeMap.mem_toList_iff_getElem?_eq_some.mpr hlisted, ?_⟩
    rw [Bool.not_eq_true', List.isEmpty_eq_false_iff]
    exact hkept

/-- Every watched tag has its lines of a batch, in order. -/
def Filed (tags : List LogTag) (lines : LogLines) (batch : List DeviceLine) : Prop :=
  ∀ tag ∈ tags, lines[tag.name]? = some ((batch.filter fun l => l.tag = tag).map DeviceLine.text)

variable {r : DeviceReader} {batch : List DeviceLine}

/-- A watched tag is listed with the lines that were tagged with its name. -/
theorem get_absorb_tagged {tag : LogTag} (htag : tag ∈ r.tags) (output : List String) :
    (r.absorb output).lines[tag.name]?
      = some (((tagged r.tags output).filter fun e => e.1 = tag.name).map Prod.snd) := by
  have hnone : (noLines r.tags)[tag.name]? = some [] := by
    rw [get_noLines, if_pos (List.mem_map_of_mem htag)]
  simp only [absorb, get_foldl_add hnone, List.nil_append]

theorem filed_absorb (hwatched : ∀ l ∈ batch, l.tag ∈ r.tags) :
    Filed r.tags (r.absorb (batch.map DeviceLine.text)).lines batch := by
  intro tag htag
  have hsame : ∀ l : DeviceLine, l.tag.name = tag.name ↔ l.tag = tag :=
    fun l => ⟨LogTag.name_injective, congrArg LogTag.name⟩
  rw [get_absorb_tagged htag, tagged_text hwatched]
  simp only [List.filter_map, List.map_map, Function.comp_def, hsame]

theorem watermark_absorb (hwatched : ∀ l ∈ batch, l.tag ∈ r.tags) :
    (r.absorb (batch.map DeviceLine.text)).watermark
      = (batch.getLast?.map fun l => l.time.next).or r.watermark := by
  rw [absorb, tagged_text hwatched]
  simp only [lastTime_text, Option.map_map, Option.orElse_eq_or]
  rfl

/-- A reading is fresh if the reader had a watermark before and any line was filed. For lines that
    are all watched, that is whether there are lines at all. -/
theorem fresh_absorb (hwatched : ∀ l ∈ batch, l.tag ∈ r.tags) :
    (r.absorb (batch.map DeviceLine.text)).fresh = (r.watermark.isSome && !batch.isEmpty) := by
  have hany : anyLine (r.absorb (batch.map DeviceLine.text)).lines = !batch.isEmpty := by
    cases batch with
    | nil =>
      rw [List.isEmpty_nil, Bool.not_true, ← Bool.not_eq_true, anyLine_iff]
      rintro ⟨name, kept, hlisted, hkept⟩
      have hnone : (noLines r.tags)[name]? = some kept := hlisted
      rw [get_noLines] at hnone
      split at hnone
      · cases hnone
        exact hkept rfl
      · cases hnone
    | cons l batch =>
      have hl := hwatched l (List.mem_cons_self ..)
      rw [List.isEmpty_cons, Bool.not_false, anyLine_iff]
      refine ⟨l.tag.name, _, filed_absorb hwatched l.tag hl, ?_⟩
      rw [List.filter_cons_of_pos (by exact decide_eq_true rfl), List.map_cons]
      exact List.cons_ne_nil _ _
  rw [← hany]
  rfl

end DeviceReader

end AccelMonitor

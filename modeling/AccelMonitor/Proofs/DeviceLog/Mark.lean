import AccelMonitor.DeviceLog.Reader
import AccelMonitor.Proofs.Pattern.Choice

/-!
# Marks of a Tag

What in a text is taken for a tag, apart from the search for it.

A mark is a blank, a level, blanks, a word, blanks and a colon. The word of a mark is
determined by the text: blanks end where the word begins, and the word ends where the
first character stands that is none of a word. So no two tags are marked at one place, and
`Carries` can speak of the tag of the leftmost mark. It does not mention the order in which
the tags are watched, and that is right, for the order has no influence.

The leftmost mark of a text is found by leaving out what no mark begins with. A mark begins
with a blank that has a level behind it. Two kinds of text can therefore be passed: one
without blanks, and one without levels if none follows.

## Main definitions

* `LogTag.isTagChar`: The character may stand in a tag.
* `MarkedAt`: A text begins with a mark of a word.
* `Carries`: The leftmost mark in a text is one of a watched tag.

## Theorems

* `MarkedAt.field_eq`, `MarkedAt.unique`: A text begins with a mark of one word only.
* `tagNames_derives`: Which texts name a watched tag.
* `get_of_atStart`, `atStart_of_markedAt`: A match is a mark.
* `tagOf_eq_some`: The tag that is read is that of the leftmost mark.
* `Carries.unique`: A text carries one tag at most.
* `carries_solid`, `carries_plain`, `carries_unmarked`: What can be passed.
* `carries_field`: A field that is no watched tag can be passed with its colon.
-/

namespace AccelMonitor

namespace LogTag

/-- The character may stand in a tag. -/
def isTagChar (c : Char) : Bool :=
  ('A' ≤ c && c ≤ 'Z') || ('a' ≤ c && c ≤ 'z') || ('0' ≤ c && c ≤ '9') || c == '_'

theorem name_ne_nil (t : LogTag) : t.name.toList ≠ [] := by
  cases t with
  | executionBuilder => decide
  | tflite => decide

theorem isTagChar_of_mem_name {t : LogTag} : ∀ c ∈ t.name.toList, isTagChar c = true := by
  cases t with
  | executionBuilder => exact List.all_eq_true.mp (by decide)
  | tflite => exact List.all_eq_true.mp (by decide)

theorem name_injective {t u : LogTag} (h : t.name = u.name) : t = u := by
  have hname := ofName?_name t
  rw [h, ofName?_name u] at hname
  exact (Option.some.inj hname).symm

/-- No blank stands in a tag. -/
theorem isBlank_of_isTagChar {c : Char} (h : isTagChar c = true) : Text.isBlank c = false := by
  have hrange : 0x30 ≤ c.toNat ∧ c.toNat ≤ 0x7a := by
    simp only [isTagChar, Bool.or_eq_true, Bool.and_eq_true, decide_eq_true_eq, beq_iff_eq] at h
    rcases h with ((⟨hlow, hhigh⟩ | ⟨hlow, hhigh⟩) | ⟨hlow, hhigh⟩) | rfl
    · exact ⟨Nat.le_trans (by decide) hlow, Nat.le_trans hhigh (by decide)⟩
    · exact ⟨Nat.le_trans (by decide) hlow, Nat.le_trans hhigh (by decide)⟩
    · exact ⟨Nat.le_trans (by decide) hlow, Nat.le_trans hhigh (by decide)⟩
    · decide
  exact Text.isBlank_of_range hrange.1 hrange.2

theorem isTagChar_of_isBlank {c : Char} (h : Text.isBlank c = true) : isTagChar c = false := by
  rw [← Bool.not_eq_true]
  intro htag
  rw [isBlank_of_isTagChar htag] at h
  cases h

end LogTag

namespace DeviceReader

/-- The text begins with a mark of the word: a blank, a level, blanks, the word, blanks and a
    colon. This is all that a tag is recognised by, and a message can look like it as well. -/
def MarkedAt (word s : List Char) : Prop :=
  ∃ b level gap padding rest, s = b :: level :: (gap ++ (word ++ (padding ++ ':' :: rest))) ∧
    Text.isBlank b = true ∧ isLevel level = true ∧ gap ≠ [] ∧
    (∀ c ∈ gap, Text.isBlank c = true) ∧ ∀ c ∈ padding, Text.isBlank c = true

/-- The leftmost mark in the text is one of this tag. -/
def Carries (tags : List LogTag) (s : List Char) (t : LogTag) : Prop :=
  t ∈ tags ∧ ∃ i, MarkedAt t.name.toList (s.drop i) ∧
    ∀ j < i, ∀ u ∈ tags, ¬ MarkedAt u.name.toList (s.drop j)

theorem isBlank_of_isLevel {c : Char} (h : isLevel c = true) : Text.isBlank c = false := by
  simp only [isLevel, List.contains_eq_mem, List.mem_cons, List.not_mem_nil, or_false,
    decide_eq_true_eq] at h
  rcases h with rfl | rfl | rfl | rfl | rfl | rfl | rfl
  all_goals decide

/-- Blanks and digits are no levels. -/
theorem not_level_of_plain {c : Char} (h : Text.isBlank c = true ∨ Text.isDigit c = true) :
    isLevel c = false := by
  rw [← Bool.not_eq_true]
  intro hlevel
  rcases h with hblank | hdigit
  · rw [isBlank_of_isLevel hlevel] at hblank
    cases hblank
  · simp only [isLevel, List.contains_eq_mem, List.mem_cons, List.not_mem_nil, or_false,
      decide_eq_true_eq] at hlevel
    rcases hlevel with rfl | rfl | rfl | rfl | rfl | rfl | rfl
    all_goals cases hdigit

/-- What follows a word behind a mark does not begin with a character of the word. -/
theorem head_behind {padding : List Char} (hpadding : ∀ c ∈ padding, Text.isBlank c = true)
    (rest : List Char) : ∀ c ∈ (padding ++ ':' :: rest).head?, LogTag.isTagChar c = false := by
  refine Text.head_append (fun c hc => LogTag.isTagChar_of_isBlank (hpadding c hc)) ?_
  intro c hc
  rw [List.head?_cons, Option.mem_some_iff] at hc
  rw [← hc]
  rfl

/-- Where blanks and a colon stand, there is no word behind some blanks. -/
theorem blanks_ne_word {padding gap word rest s : List Char}
    (hpadding : ∀ c ∈ padding, Text.isBlank c = true) (hgap : ∀ c ∈ gap, Text.isBlank c = true)
    (hword : word ≠ []) (hchars : ∀ c ∈ word, LogTag.isTagChar c = true) :
    padding ++ ':' :: rest ≠ gap ++ (word ++ s) := by
  intro h
  cases word with
  | nil => exact hword rfl
  | cons d word =>
    have hd := hchars d (List.mem_cons_self ..)
    have hsplit := Text.split_run hpadding hgap (Text.head_char (by decide) rest)
      (Text.head_char (LogTag.isBlank_of_isTagChar hd) (word ++ s)) h
    rw [← (List.cons.inj hsplit.2).1] at hd
    cases hd

/-- Behind a level and blanks stands a word up to the first character that is none of a word,
    and a mark there is one of this word. Without the colon behind it a longer word could begin
    with a watched one; the mark asks for the whole word, and that is what is shown here. -/
theorem MarkedAt.field_eq {b level : Char} {gap field padding rest word : List Char}
    (hgap : ∀ c ∈ gap, Text.isBlank c = true)
    (hfield : ∀ c ∈ field, LogTag.isTagChar c = true)
    (hpadding : ∀ c ∈ padding, Text.isBlank c = true)
    (hword : word ≠ []) (hchars : ∀ c ∈ word, LogTag.isTagChar c = true)
    (h : MarkedAt word (b :: level :: (gap ++ (field ++ (padding ++ ':' :: rest))))) :
    field = word := by
  rcases h with ⟨b', level', gap', padding', rest', htext, _, _, _, hgap', hpadding'⟩
  -- Both sides are the blanks, the word, its padding and a colon.
  have htail := (List.cons.inj (List.cons.inj htext).2).2
  cases field with
  | nil =>
    rw [List.nil_append, ← List.append_assoc] at htail
    refine absurd htail (blanks_ne_word (fun c hc => ?_) hgap' hword hchars)
    rcases List.mem_append.mp hc with hc | hc
    · exact hgap c hc
    · exact hpadding c hc
  -- Words do not begin with a blank, so the blanks end together, and then the words.
  | cons d field =>
    cases word with
    | nil => exact absurd rfl hword
    | cons e word =>
      have hd := LogTag.isBlank_of_isTagChar (hfield d (List.mem_cons_self ..))
      have he := LogTag.isBlank_of_isTagChar (hchars e (List.mem_cons_self ..))
      have hfields :=
        (Text.split_run hgap hgap' (Text.head_char hd _) (Text.head_char he _) htail).2
      exact (Text.split_run hfield hchars (head_behind hpadding rest)
        (head_behind hpadding' rest') hfields).1

/-- No mark begins with the blank in front of a field, for behind the field there is a colon
    and no other word. -/
theorem not_markedAt_field {b : Char} {field padding rest word : List Char}
    (hfield : ∀ c ∈ field, LogTag.isTagChar c = true)
    (hpadding : ∀ c ∈ padding, Text.isBlank c = true)
    (hword : word ≠ []) (hchars : ∀ c ∈ word, LogTag.isTagChar c = true) :
    ¬ MarkedAt word (b :: (field ++ (padding ++ ':' :: rest))) := by
  rintro ⟨_, level, gap, padding', rest', htext, _, hlevel, hne, hgap, _⟩
  have htail := (List.cons.inj htext).2
  cases field with
  | nil =>
    -- The level would be a blank or the colon.
    have hhead : ∀ c ∈ (padding ++ ':' :: rest).head?, isLevel c = false :=
      Text.head_append (fun c hc => not_level_of_plain (Or.inl (hpadding c hc)))
        (Text.head_char (by decide) rest)
    have hnone := hhead level (congrArg List.head? htail)
    rw [hlevel] at hnone
    cases hnone
  | cons c field =>
    -- The field would be the level alone, because blanks follow a level.
    have hbehind := (List.cons.inj htail).2
    cases field with
    | nil => exact blanks_ne_word hpadding hgap hword hchars hbehind
    | cons d field =>
      cases gap with
      | nil => exact hne rfl
      | cons e gap =>
        have hd := LogTag.isBlank_of_isTagChar
          (hfield d (List.mem_cons_of_mem c (List.mem_cons_self ..)))
        rw [(List.cons.inj hbehind).1, hgap e (List.mem_cons_self ..)] at hd
        cases hd

/-- A text begins with a mark of one tag only. -/
theorem MarkedAt.unique {s : List Char} {t u : LogTag} (ht : MarkedAt t.name.toList s)
    (hu : MarkedAt u.name.toList s) : t = u := by
  rcases ht with ⟨b, level, gap, padding, rest, rfl, _, _, _, hgap, hpadding⟩
  have hname := MarkedAt.field_eq hgap LogTag.isTagChar_of_mem_name hpadding u.name_ne_nil
    LogTag.isTagChar_of_mem_name hu
  exact LogTag.name_injective (String.toList_inj.mp hname)

/-- Which texts name a watched tag: the names themselves. The pattern is made of them, one
    alternative for each tag. -/
theorem tagNames_derives {tag : LogTag} {tags : List LogTag} {piece rest : List Char} {g : Groups} :
    (tagNames tag tags).Derives piece rest g ↔
      ∃ t ∈ tag :: tags, piece = t.name.toList ∧ g = [] := by
  induction tags generalizing tag with
  | nil => simp only [tagNames, List.map_nil, Pattern.anyOf, Pattern.str, Pattern.Derives,
      List.mem_singleton, exists_eq_left]
  | cons u tags ih =>
    simp only [tagNames] at ih
    simp only [tagNames, List.map_cons, Pattern.anyOf, Pattern.Derives, ih]
    constructor
    · rintro (⟨hpiece, hg⟩ | ⟨t, ht, hpiece, hg⟩)
      · exact ⟨tag, List.mem_cons_self .., hpiece, hg⟩
      · exact ⟨t, List.mem_cons_of_mem tag ht, hpiece, hg⟩
    · rintro ⟨t, ht, hpiece, hg⟩
      rcases List.mem_cons.mp ht with rfl | ht
      · exact Or.inl ⟨hpiece, hg⟩
      · exact Or.inr ⟨t, ht, hpiece, hg⟩

/-- A match at the start of a text is a mark, and its group is the tag. -/
theorem get_of_atStart {tag : LogTag} {tags : List LogTag} {s : List Char} {g : Groups}
    (hg : (tagPattern tag tags).atStart s = some g) :
    ∃ t ∈ tag :: tags, MarkedAt t.name.toList s ∧ g.get 1 = t.name := by
  rcases Pattern.atStart_eq_some hg with ⟨piece, rest, rfl, hderives⟩
  -- One part of the pattern after the other, from the blank to the colon.
  rcases hderives with ⟨_, _, _, _, rfl, rfl, ⟨⟨b, hb, rfl⟩, rfl⟩, hderives⟩
  rcases hderives with ⟨_, _, _, _, rfl, rfl, ⟨⟨level, hlevel, rfl⟩, rfl⟩, hderives⟩
  rcases hderives with ⟨gap, _, _, _, rfl, rfl, hgap, hderives⟩
  rcases Pattern.derives_some1_iff.mp hgap with ⟨hne, hblank, rfl⟩
  rcases hderives with ⟨_, after, _, places, rfl, rfl, ⟨inner, rfl, hname⟩, hafter⟩
  rcases tagNames_derives.mp hname with ⟨t, ht, rfl, rfl⟩
  rcases hafter with ⟨padding, _, _, _, rfl, rfl, ⟨hpadding, rfl⟩, rfl, rfl⟩
  refine ⟨t, ht, ⟨b, level, gap, padding, rest, ?_, hb, hlevel, hne, hblank, hpadding⟩, ?_⟩
  · simp only [List.cons_append, List.nil_append, List.append_assoc]
    rfl
  · have hget := Groups.get_here 1 t.name.toList ((padding ++ ":".toList) ++ rest) []
    rw [String.ofList_toList] at hget
    exact hget

/-- Where a text begins with a mark of a watched tag there is a match. -/
theorem atStart_of_markedAt {tag : LogTag} {tags : List LogTag} {t : LogTag} {s : List Char}
    (ht : t ∈ tag :: tags) (h : MarkedAt t.name.toList s) :
    ((tagPattern tag tags).atStart s).isSome = true := by
  rcases h with ⟨b, level, gap, padding, rest, rfl, hb, hlevel, hne, hgap, hpadding⟩
  have hcolon : (Pattern.all [Pattern.blanks, .str ":"]).Derives (padding ++ [':']) rest [] :=
    ⟨padding, [':'], [], [], rfl, rfl, ⟨hpadding, rfl⟩, by decide, rfl⟩
  have hgroup : (Pattern.group 1 (tagNames tag tags)).Derives t.name.toList
      ((padding ++ [':']) ++ rest) _ :=
    ⟨[], rfl, tagNames_derives.mpr ⟨t, ht, rfl, rfl⟩⟩
  -- A derivation is enough: what the match is does not matter here.
  have hderives : (tagPattern tag tags).Derives
      ([b] ++ ([level] ++ (gap ++ (t.name.toList ++ (padding ++ [':']))))) rest _ :=
    ⟨_, _, _, _, rfl, rfl, ⟨⟨b, hb, rfl⟩, rfl⟩, _, _, _, _, rfl, rfl, ⟨⟨level, hlevel, rfl⟩, rfl⟩,
      _, _, _, _, rfl, rfl, Pattern.derives_some1 hne hgap _, _, _, _, _, rfl, rfl, hgroup, hcolon⟩
  have hsome := Pattern.atStart_isSome hderives
  simp only [List.cons_append, List.nil_append, List.append_assoc] at hsome
  exact hsome

/-- There is a match at the start of a text exactly if it begins with a mark. -/
theorem atStart_eq_none {tag : LogTag} {tags : List LogTag} {s : List Char} :
    (tagPattern tag tags).atStart s = none ↔ ∀ u ∈ tag :: tags, ¬ MarkedAt u.name.toList s := by
  rw [← Option.not_isSome_iff_eq_none]
  constructor
  · intro hnone u hu hmarked
    exact hnone (atStart_of_markedAt hu hmarked)
  · intro hnone hsome
    rcases Option.isSome_iff_exists.mp hsome with ⟨g, hg⟩
    rcases get_of_atStart hg with ⟨t, ht, hmarked, _⟩
    exact hnone t ht hmarked

/-- The tag that is read is that of the leftmost mark. At one place at most one tag can stand,
    since names end where the blanks or the colon begin, so the order of the alternatives does not
    matter. -/
theorem tagOf_eq_some {tags : List LogTag} {line name : String} :
    tagOf tags line = some name ↔ ∃ t, t.name = name ∧ Carries tags line.toList t := by
  cases tags with
  | nil =>
    constructor
    · intro h
      cases h
    · rintro ⟨_, _, hmem, _⟩
      cases hmem
  | cons tag tags =>
    rw [tagOf, Option.map_eq_some_iff]
    constructor
    · rintro ⟨g, hsearch, rfl⟩
      rcases Pattern.search_eq_some_iff.mp hsearch with ⟨i, hg, hnone⟩
      rcases get_of_atStart hg with ⟨t, ht, hmarked, hget⟩
      exact ⟨t, hget.symm, ht, i, hmarked, fun j hj => atStart_eq_none.mp (hnone j hj)⟩
    · -- Nothing is found in front of the leftmost mark, and there it is this tag.
      rintro ⟨t, rfl, ht, i, hmarked, hnone⟩
      rcases Option.isSome_iff_exists.mp (atStart_of_markedAt ht hmarked) with ⟨g, hg⟩
      rcases get_of_atStart hg with ⟨u, _, hmarked', hget⟩
      rw [MarkedAt.unique hmarked' hmarked] at hget
      have hsearch := Pattern.search_eq_some_iff.mpr
        ⟨i, hg, fun j hj => atStart_eq_none.mpr (hnone j hj)⟩
      exact ⟨g, hsearch, hget⟩

/-- The same for a tag. -/
theorem tagOf_eq_name {tags : List LogTag} {line : String} {t : LogTag} :
    tagOf tags line = some t.name ↔ Carries tags line.toList t := by
  rw [tagOf_eq_some]
  constructor
  · rintro ⟨u, hname, hu⟩
    exact LogTag.name_injective hname ▸ hu
  · intro ht
    exact ⟨t, rfl, ht⟩

/-- A text carries one tag at most. -/
theorem Carries.unique {tags : List LogTag} {s : List Char} {t u : LogTag}
    (ht : Carries tags s t) (hu : Carries tags s u) : t = u := by
  rw [← String.toList_ofList (l := s)] at ht hu
  have hname := (tagOf_eq_name.mpr ht).symm.trans (tagOf_eq_name.mpr hu)
  exact LogTag.name_injective (Option.some.inj hname)

variable {tags : List LogTag} {t : LogTag}

/-- A text that begins with a mark carries its tag. -/
theorem carries_of_markedAt {s : List Char} (ht : t ∈ tags) (h : MarkedAt t.name.toList s) :
    Carries tags s t :=
  ⟨ht, 0, h, fun j hj => absurd hj (Nat.not_lt_zero j)⟩

/-- A character that no mark begins with can be passed. The leftmost mark of the text is then that
    of the rest, one place further. -/
theorem carries_unmarked {c : Char} {s : List Char}
    (h : ∀ u ∈ tags, ¬ MarkedAt u.name.toList (c :: s)) :
    Carries tags (c :: s) t ↔ Carries tags s t := by
  constructor
  · rintro ⟨ht, i, hmarked, hnone⟩
    cases i with
    | zero => exact absurd hmarked (h t ht)
    | succ i => exact ⟨ht, i, hmarked, fun j hj => hnone (j + 1) (Nat.succ_lt_succ hj)⟩
  · rintro ⟨ht, i, hmarked, hnone⟩
    refine ⟨ht, i + 1, hmarked, fun j hj => ?_⟩
    cases j with
    | zero => exact h
    | succ j => exact hnone j (Nat.lt_of_succ_lt_succ hj)

/-- Characters that are no blanks can be passed. -/
theorem carries_solid {skipped rest : List Char} (h : ∀ c ∈ skipped, Text.isBlank c = false) :
    Carries tags (skipped ++ rest) t ↔ Carries tags rest t := by
  induction skipped with
  | nil => rfl
  | cons c skipped ih =>
    rw [List.forall_mem_cons] at h
    refine Iff.trans (carries_unmarked fun u _ => ?_) (ih h.2)
    rintro ⟨b, _, _, _, _, htext, hb, _⟩
    rw [← (List.cons.inj htext).1, h.1] at hb
    cases hb

/-- Characters that are no levels can be passed if no level follows. A mark begins with a blank
    and has a level right behind it. -/
theorem carries_plain {skipped rest : List Char} (h : ∀ c ∈ skipped, isLevel c = false)
    (hrest : ∀ c ∈ rest.head?, isLevel c = false) :
    Carries tags (skipped ++ rest) t ↔ Carries tags rest t := by
  induction skipped with
  | nil => rfl
  | cons c skipped ih =>
    rw [List.forall_mem_cons] at h
    refine Iff.trans (carries_unmarked fun u _ => ?_) (ih h.2)
    -- The second character of a mark is a level, and this one is not.
    rintro ⟨b, level, _, _, _, htext, _, hlevel, _⟩
    have hhead : (skipped ++ rest).head? = some level := congrArg List.head? (List.cons.inj htext).2
    have hnone := Text.head_append (P := fun c => isLevel c = false) h.2 hrest level hhead
    rw [hlevel] at hnone
    cases hnone

/-- A field can be passed with the blank in front of it and the colon. -/
theorem carries_field {b : Char} {field padding rest : List Char}
    (hfield : ∀ c ∈ field, LogTag.isTagChar c = true)
    (hpadding : ∀ c ∈ padding, Text.isBlank c = true) :
    Carries tags (b :: (field ++ (padding ++ ':' :: rest))) t ↔ Carries tags rest t := by
  have hsolid : ∀ c ∈ field, Text.isBlank c = false :=
    fun c hc => LogTag.isBlank_of_isTagChar (hfield c hc)
  have hplain : ∀ c ∈ padding, isLevel c = false :=
    fun c hc => not_level_of_plain (Or.inl (hpadding c hc))
  have hcolon : ∀ c ∈ [':'], Text.isBlank c = false :=
    List.forall_mem_singleton.mpr (by decide)
  -- No mark begins at the blank, in the field, in the blanks behind it or at the colon.
  rw [carries_unmarked fun u _ =>
      not_markedAt_field hfield hpadding u.name_ne_nil LogTag.isTagChar_of_mem_name,
    carries_solid hsolid, carries_plain hplain (Text.head_char (by decide) rest)]
  exact carries_solid hcolon

end DeviceReader

end AccelMonitor

import AccelMonitor.Proofs.Number.Numeral
import AccelMonitor.Proofs.Offload.Samples
import AccelMonitor.Proofs.Pattern.Choice

/-!
# Fields of a Line

The fields that the lines of several kinds share: the application and the seconds.

An application's name stands in parentheses behind `app:`, with blanks around it
that are not part of it. The pattern leaves them to runs of blanks, a greedy one in
front and one behind a lazy group, so a name that is not blank at its ends is found
as it is: the greedy run takes every blank in front, and the lazy group cannot end
inside the name, where a character that is not blank separates it from the closing
parenthesis. Seconds need no order. Everything that their pattern matches
consists of characters that neither a blank nor a parenthesis is, and they end
where one of these stands.

## Theorems

* `first_appPattern`: The application is found as it is.
* `appPattern_derives`: What is matched as an application.
* `secondsPattern_chars`: A decimal is matched.
* `seconds_unique`: What is matched as seconds in parentheses.
* `first_seconds`: Seconds at the end of a text are found as they are.
* `belongsToBenchmark_trimmed`: Which applications belong to a benchmark.
* `update_insert`: What a line adds among others.
* `update_skip`: A line that is no sample.
-/

namespace AccelMonitor

namespace Offload

open Pattern

/-- The character is neither a blank nor a parenthesis. -/
def IsSolid (c : Char) : Prop :=
  Text.isBlank c = false ∧ c ≠ '(' ∧ c ≠ ')'

theorem isSolid_of_isDecimal {c : Char} (h : Text.isDecimal c = true) : IsSolid c := by
  refine ⟨Text.isBlank_of_isDecimal h, ?_, ?_⟩
  · rintro rfl
    exact absurd h (by decide)
  · rintro rfl
    exact absurd h (by decide)

/-- What the pattern of seconds matches is solid: signs, decimal digits, a point and the mark of
    an exponent, and none of these is a blank or a parenthesis. -/
theorem secondsPattern_solid {i : Nat} {piece rest : List Char} {g : Groups}
    (h : (secondsPattern i).Derives piece rest g) : ∀ c ∈ piece, IsSolid c := by
  have hdecimal : ∀ c, Text.isDecimal c = true → IsSolid c := fun c => isSolid_of_isDecimal
  have hsign : ∀ c, isSign c = true → IsSolid c := by
    intro c hc
    rw [isSign, Bool.or_eq_true, beq_iff_eq, beq_iff_eq] at hc
    rcases hc with rfl | rfl
    · exact ⟨by decide, by decide, by decide⟩
    · exact ⟨by decide, by decide, by decide⟩
  have hmark : ∀ c, isExponentMark c = true → IsSolid c := by
    intro c hc
    rw [isExponentMark, Bool.or_eq_true, beq_iff_eq, beq_iff_eq] at hc
    rcases hc with rfl | rfl
    · exact ⟨by decide, by decide, by decide⟩
    · exact ⟨by decide, by decide, by decide⟩
  have hpoint : ∀ c ∈ ".".toList, IsSolid c := by
    intro c hc
    rw [List.mem_singleton.mp hc]
    exact ⟨by decide, by decide, by decide⟩
  -- Each class of characters in the pattern is solid, so what it matches is.
  refine h.forall_mem ?_
  exact ⟨hsign, ⟨hdecimal, hdecimal⟩, ⟨hpoint, hdecimal, hdecimal⟩,
    hmark, hsign, hdecimal, hdecimal⟩

theorem digits1_derives {digits : List Char} (h : IsDigits digits) (rest : List Char) :
    digits1.Derives digits rest [] :=
  derives_some1 h.ne_nil (fun c hc => Text.isDecimal_of_isDigit (h.digit c hc)) rest

theorem optional_sign_derives {sign : Option Char} (h : IsSign sign) (rest : List Char) :
    (Pattern.optional (.one isSign)).Derives sign.toList rest [] := by
  cases sign with
  | none => exact Or.inr ⟨rfl, rfl⟩
  | some c =>
    refine Or.inl ⟨⟨c, ?_, rfl⟩, rfl⟩
    rcases h c rfl with rfl | rfl
    · rfl
    · rfl

/-- The pattern of seconds matches a written decimal, with all of its parts. This is one match
    of several, as the pattern could also stop early and leave digits behind; that the search
    takes this one comes from what stands behind the number. -/
theorem secondsPattern_chars (i : Nat) (d : Numeral) (rest : List Char) :
    (secondsPattern i).Derives d.chars rest [(i, d.chars ++ rest), (i, rest)] := by
  -- A part that may be missing is matched by its characters, or by none.
  have hfraction : ∀ rest, (Pattern.optional (.all [.str ".", .digits1])).Derives
      d.fractionChars rest [] := by
    intro rest
    rw [Numeral.fractionChars]
    cases h : d.fraction with
    | none => exact Or.inr ⟨rfl, rfl⟩
    | some digits =>
      exact Or.inl ⟨['.'], digits, [], [], rfl, rfl, ⟨rfl, rfl⟩,
        digits1_derives (d.fraction_valid digits h) rest⟩
  have hexponent : ∀ rest, (Pattern.optional (.all [.one isExponentMark,
      .optional (.one isSign), .digits1])).Derives d.exponentChars rest [] := by
    intro rest
    rw [Numeral.exponentChars]
    cases d.exponent with
    | none => exact Or.inr ⟨rfl, rfl⟩
    | some e =>
      refine Or.inl ⟨[e.mark], e.sign.toList ++ e.digits, [], [], rfl, rfl,
        ⟨⟨e.mark, ?_, rfl⟩, rfl⟩, e.sign.toList, e.digits, [], [], rfl, rfl,
        optional_sign_derives e.sign_valid _, digits1_derives e.digits_valid rest⟩
      rcases e.mark_valid with hmark | hmark
      · rw [hmark]
        rfl
      · rw [hmark]
        rfl
  -- Sign, whole part, fraction and exponent, one behind the other.
  exact ⟨[], rfl, d.sign.toList, _, [], [], rfl, rfl, optional_sign_derives d.sign_valid _,
    d.whole, _, [], [], rfl, rfl, digits1_derives d.whole_valid _,
    d.fractionChars, d.exponentChars, [], [], rfl, rfl, hfraction _, hexponent rest⟩

/-- A written decimal is solid. -/
theorem solid_of_mem_chars {d : Numeral} {c : Char} (hc : c ∈ d.chars) : IsSolid c :=
  secondsPattern_solid (secondsPattern_chars 0 d []) c hc

/-- Seconds between blanks and in front of a closing parenthesis are read in one way. The number
    is a run of characters that are neither blanks nor parentheses, and so is every piece that
    the pattern can match, so both end at the same place, however the blanks were divided among
    the parts around. -/
theorem seconds_unique {i : Nat} {gap piece gap' rest tail after : List Char} {g : Groups}
    (h : (secondsPattern i).Derives piece after g) (d : Numeral)
    (hgap : ∀ c ∈ gap, Text.isBlank c = true) (hgap' : ∀ c ∈ gap', Text.isBlank c = true)
    (hsplit : gap ++ (piece ++ (gap' ++ ')' :: rest)) = ' ' :: (d.chars ++ ')' :: tail)) :
    piece = d.chars := by
  have hpiece := secondsPattern_solid h
  have hchars : ∀ c ∈ d.chars, IsSolid c := fun c => solid_of_mem_chars
  -- Both numbers are runs of solid characters, behind blanks and in front of one that is not.
  have hhead : ∀ {x y : List Char}, x ≠ [] → (∀ c ∈ x, IsSolid c) →
      ∀ c ∈ (x ++ y).head?, Text.isBlank c = false := by
    intro x y hx hsolid
    cases x with
    | nil => exact absurd rfl hx
    | cons e x => exact Text.head_char (hsolid e (List.mem_cons_self ..)).1 _
  -- A number has a digit, so it is not empty.
  have hnil : ∀ {x y : List Char} {g : Groups}, (secondsPattern i).Derives x y g → x ≠ [] := by
    rintro x y g hx rfl
    rcases (seconds_derives hx).2 with ⟨c, hc, _⟩
    exact absurd hc List.not_mem_nil
  rcases Text.split_run hgap Text.forall_blank (hhead (hnil h) hpiece)
    (hhead (hnil (secondsPattern_chars i d [])) hchars) hsplit with ⟨_, hnumbers⟩
  have hkind : ∀ {x : List Char}, (∀ c ∈ x, IsSolid c) →
      ∀ c ∈ x, (!Text.isBlank c && c != ')') = true := by
    intro x hx c hc
    rw [(hx c hc).1, bne_iff_ne.mpr (hx c hc).2.2]
    rfl
  -- Both end where a blank or the parenthesis stands.
  refine (Text.split_run (hkind hpiece) (hkind hchars) ?_ ?_ hnumbers).1
  · intro c hc
    cases gap' with
    | nil =>
      rw [List.nil_append, List.head?_cons, Option.mem_some_iff] at hc
      rw [← hc]
      rfl
    | cons e gap' =>
      rw [List.cons_append, List.head?_cons, Option.mem_some_iff] at hc
      rw [← hc, hgap' e (List.mem_cons_self ..)]
      rfl
  · intro c hc
    rw [List.head?_cons, Option.mem_some_iff] at hc
    rw [← hc]
    rfl

/-- The application is found as it stands between the parentheses. It may hold blanks and opening
    parentheses, but no closing one, and it is trimmed, so it is what the group takes. -/
theorem first_appPattern {q : Pattern} {name rest : List Char} {k : List Char → Option Groups}
    {g : Groups} (hinside : ∀ c ∈ name, isInside c = true) (htrimmed : Text.IsTrimmed name)
    (hq : q.first rest k = some g) :
    (seq appPattern q).first ("(app:".toList ++ ' ' :: (name ++ ')' :: rest)) k
      = some ((1, name ++ ')' :: rest) :: (1, ')' :: rest) :: g) := by
  have hopens : OpensWith ')' (seq (.str ")") q) := (opensWith_text ')' []).seq q
  have hclosing : ')' ∉ name := fun hmem => absurd (hinside ')' hmem) (by decide)
  have hclose : (seq (.str ")") q).first (')' :: rest) k = some g := first_text_seq [')'] hq
  have hblanks := first_no_blank_seq (Text.head_char (by decide) rest) hclose
  -- The name is matched shortest first, and only the closing parenthesis can end it.
  have hname := first_group_few 1 hopens hinside hclosing htrimmed.last hblanks
  have hhead : ∀ c ∈ (name ++ ')' :: rest).head?, Text.isBlank c = false := by
    cases name with
    | nil => exact Text.head_char (by decide) rest
    | cons e name => exact Text.head_char (htrimmed.head e rfl) _
  exact first_text_seq "(app:".toList (first_blank_seq hhead hname)

/-- A line is put among others as its sample, in its place among theirs. The sum of samples
    depends on their order, since every addition is rounded, so this says more than that the
    line adds its seconds. -/
theorem update_insert (source : OffloadSource) (line : String) (before after : List String)
    (stats : Statistics) :
    update source (before ++ line :: after) stats
      = applySamples (before.filterMap (sample? source) ++ ((sample? source line).toList ++
          after.filterMap (sample? source))) stats := by
  rw [update, List.filterMap_append, List.filterMap_cons]
  cases sample? source line with
  | none => rfl
  | some t => rfl

/-- The case of a line that is a sample under a condition. -/
theorem update_insert_ite {source : OffloadSource} {line : String} {t : Binary64} {c : Prop}
    [Decidable c] (h : sample? source line = if c then some t else none)
    (before after : List String) (stats : Statistics) :
    update source (before ++ line :: after) stats
      = applySamples (before.filterMap (sample? source) ++ ((if c then [t] else []) ++
          after.filterMap (sample? source))) stats := by
  rw [update_insert, h, apply_ite Option.toList, Option.toList_some, Option.toList_none]

/-- A line that is no sample makes no difference among others. -/
theorem update_skip {source : OffloadSource} {line : String} (h : sample? source line = none)
    (before after : List String) (stats : Statistics) :
    update source (before ++ line :: after) stats = update source (before ++ after) stats := by
  rw [update_insert, h, update, List.filterMap_append]
  rfl

/-- What is matched as an application ends at the first closing parenthesis, in any match and not
    only in the one that is found. -/
theorem appPattern_derives {piece rest : List Char} {g : Groups}
    (h : appPattern.Derives piece rest g) :
    ∃ inner, piece = "(app:".toList ++ (inner ++ [')']) ∧ ')' ∉ inner := by
  rcases h with ⟨_, _, _, _, rfl, _, ⟨rfl, _⟩, h⟩
  rcases h with ⟨gap, _, _, _, rfl, _, ⟨hgap, _⟩, h⟩
  rcases h with ⟨name, _, _, _, rfl, _, ⟨_, _, hname, _⟩, h⟩
  rcases h with ⟨gap', _, _, _, rfl, _, ⟨hgap', _⟩, ⟨rfl, _⟩⟩
  refine ⟨gap ++ (name ++ gap'), ?_, ?_⟩
  · simp only [List.append_assoc]
    rfl
  · simp only [List.mem_append, not_or]
    exact ⟨fun hmem => absurd (hgap _ hmem) (by decide),
      fun hmem => absurd (hname _ hmem) (by decide), fun hmem => absurd (hgap' _ hmem) (by decide)⟩

/-! ### Seconds at the end of a text -/

/-- A sign is passed in front of digits. Without one the optional part has nothing to take, since
    what follows is no sign. -/
theorem first_sign_seq {sign : Option Char} (hsign : IsSign sign) {q : Pattern}
    {rest : List Char} {k : List Char → Option Groups} {g : Groups}
    (hrest : ∀ c ∈ rest.head?, isSign c = false) (hq : q.first rest k = some g) :
    (seq (.optional (.one isSign)) q).first (sign.toList ++ rest) k = some g := by
  cases sign with
  | none =>
    have hnone : (Pattern.one isSign).first rest (fun s => q.first s k) = none := by
      cases rest with
      | nil => rfl
      | cons c rest => rw [first, hrest c rfl, if_neg Bool.false_ne_true]
    exact (first_optional_absent hnone).trans hq
  | some c =>
    have hc : isSign c = true := by
      rcases hsign c rfl with rfl | rfl
      · rfl
      · rfl
    refine first_optional_present ?_
    rw [Option.toList_some, List.singleton_append, first, if_pos hc]
    exact hq

theorem head_not_sign {digits : List Char} (h : IsDigits digits) (rest : List Char) :
    ∀ c ∈ (digits ++ rest).head?, isSign c = false := by
  intro c hc
  have hdigit := Literal.head_digits h rest c hc
  rw [isSign, Bool.or_eq_false_iff, beq_eq_false_iff_ne, beq_eq_false_iff_ne]
  constructor
  · rintro rfl
    exact absurd hdigit (by decide)
  · rintro rfl
    exact absurd hdigit (by decide)

/-- Digits are passed up to where others than decimals stand. -/
theorem first_digits1 {digits : List Char} (h : IsDigits digits) {rest : List Char}
    {k : List Char → Option Groups} {g : Groups}
    (hend : ∀ c ∈ rest.head?, Text.isDecimal c = false) (hk : k rest = some g) :
    digits1.first (digits ++ rest) k = some g :=
  first_some1 h.ne_nil (fun c hc => Text.isDecimal_of_isDigit (h.digit c hc)) hend hk

/-- No decimal begins an exponent. -/
theorem exponentChars_head (d : Numeral) :
    ∀ c ∈ d.exponentChars.head?, Text.isDecimal c = false := by
  intro c hc
  rw [Numeral.exponentChars] at hc
  cases hexponent : d.exponent with
  | none =>
    rw [hexponent] at hc
    cases hc
  | some e =>
    rw [hexponent] at hc
    rw [← Option.some.inj hc]
    rcases e.mark_valid with hmark | hmark
    · rw [hmark]
      decide
    · rw [hmark]
      decide

/-- No decimal follows the whole part. -/
theorem fractionChars_head (d : Numeral) :
    ∀ c ∈ (d.fractionChars ++ d.exponentChars).head?, Text.isDecimal c = false := by
  intro c hc
  rw [Numeral.fractionChars] at hc
  cases hfraction : d.fraction with
  | none =>
    rw [hfraction] at hc
    exact exponentChars_head d c hc
  | some digits =>
    rw [hfraction] at hc
    rw [← Option.some.inj hc]
    decide

variable {k : List Char → Option Groups} {g : Groups}

/-- An exponent is passed up to the end. If there is none, the end is reached at once. -/
theorem first_exponent (d : Numeral) (hk : k [] = some g) :
    (Pattern.optional (.all [.one isExponentMark, .optional (.one isSign), .digits1])).first
      d.exponentChars k = some g := by
  rw [Numeral.exponentChars]
  cases d.exponent with
  | none => exact (first_optional_absent rfl).trans hk
  | some e =>
    have hmark : isExponentMark e.mark = true := by
      rcases e.mark_valid with hmark | hmark
      · rw [hmark]
        rfl
      · rw [hmark]
        rfl
    have hdigits : digits1.first (e.digits ++ []) k = some g :=
      first_digits1 e.digits_valid (fun c hc => absurd hc (Option.not_mem_none c)) hk
    have hsigned := first_sign_seq e.sign_valid (head_not_sign e.digits_valid []) hdigits
    rw [List.append_nil] at hsigned
    refine first_optional_present ?_
    change (if isExponentMark e.mark = true then
      (Pattern.all [.optional (.one isSign), .digits1]).first (e.sign.toList ++ e.digits) k
      else none) = some g
    rw [if_pos hmark]
    exact hsigned

/-- A fraction and an exponent are passed up to the end. -/
theorem first_fraction (d : Numeral) (hk : k [] = some g) :
    (seq (.optional (.all [.str ".", .digits1]))
      (.optional (.all [.one isExponentMark, .optional (.one isSign), .digits1]))).first
      (d.fractionChars ++ d.exponentChars) k = some g := by
  have hexponent := first_exponent d hk
  rw [Numeral.fractionChars]
  cases hfraction : d.fraction with
  | none =>
    -- Without a point the optional part has nothing to begin with.
    have hpoint : d.exponentChars.head? ≠ some '.' :=
      fun h => (Literal.exponentChars_head d '.' h).2 rfl
    exact (first_optional_absent ((opensWith_text '.' []).seq _ _ _ hpoint)).trans hexponent
  | some digits =>
    exact first_optional_present (first_text_seq ['.'] (first_digits1
      (d.fraction_valid digits hfraction) (exponentChars_head d) hexponent))

/-- Seconds at the end of a text are found as they are. -/
theorem first_seconds (i : Nat) (d : Numeral) :
    (secondsPattern i).first d.chars (fun _ => some []) = some [(i, d.chars), (i, [])] := by
  have hfraction := first_fraction d (k := fun s => place i s (some [])) rfl
  have hdigits : (seq digits1 _).first _ _ = some _ :=
    first_digits1 d.whole_valid (fractionChars_head d) hfraction
  exact congrArg (place i d.chars)
    (first_sign_seq d.sign_valid (head_not_sign d.whole_valid _) hdigits)

theorem head_chars (d : Numeral) : ∀ c ∈ d.chars.head?, Text.isBlank c = false :=
  fun _ hc => (solid_of_mem_chars (List.mem_of_mem_head? hc)).1

/-- Seconds are read as they are written. -/
theorem seconds?_chars (d : Numeral) :
    seconds? (String.ofList d.chars) = some d.literal.value := by
  rw [seconds?, Binary64.read, String.toList_ofList, d.readList_chars]
  rfl

/-- An application whose name is not blank at its ends belongs to a benchmark if that begins
    like the name of a benchmark process. -/
theorem belongsToBenchmark_trimmed {name : List Char} (h : Text.IsTrimmed name) :
    belongsToBenchmark (String.ofList name) = true ↔
      ∃ p ∈ benchmarkProcesses, p.toList <+: name := by
  simp only [belongsToBenchmark, List.any_eq_true, Text.startsWith, Text.trim,
    String.toList_ofList, h.trimList, List.isPrefixOf_iff_prefix]

end Offload

end AccelMonitor

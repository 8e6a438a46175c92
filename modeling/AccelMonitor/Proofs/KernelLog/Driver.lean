import AccelMonitor.KernelLog.Reader
import AccelMonitor.Proofs.Pattern.Choice

/-!
# The Driver of a Line

Which driver a line is counted for.

A driver's name stands behind the keyword of its probe and one blank, and a colon ends it.
That may be anywhere in a line, more than once, and not only behind the heading, so the
leftmost place decides. At one place there is one name: it consists of characters that a
colon is not, so it cannot be read shorter or longer. `driverOf_eq_some` says this of the
search with a pattern, in which neither is visible.

## Main definitions

* `KernelLog.NamedAt`: A driver is named at the start of a text.
* `KernelLog.Names`: A line names a driver, at the leftmost place where it names one.

## Theorems

* `NamedAt.unique`: One driver is named at one place.
* `driverPattern_atStart`: What is found at a place.
* `driverOf_eq_some`: What is found in a line.
-/

namespace AccelMonitor

namespace KernelLog

/-- The text begins with the keyword, a blank, the name of the driver and a colon. -/
def NamedAt (p : KernelProbe) (s : List Char) (driver : String) : Prop :=
  driver.toList ≠ [] ∧ (∀ c ∈ driver.toList, Pattern.isNameChar c = true) ∧
    ∃ rest, s = p.keyword.toList ++ ' ' :: (driver.toList ++ ':' :: rest)

/-- The line names the driver at the leftmost place where it names any. -/
def Names (p : KernelProbe) (line driver : String) : Prop :=
  ∃ i, NamedAt p (line.toList.drop i) driver ∧
    ∀ j < i, ∀ other, ¬ NamedAt p (line.toList.drop j) other

/-- No name goes past a colon. -/
theorem colon_ends_name (s : List Char) :
    ∀ c ∈ (':' :: s).head?, Pattern.isNameChar c = false := by
  intro c hc
  rw [← Option.some.inj hc]
  decide

/-- One driver is named at one place. -/
theorem NamedAt.unique {p : KernelProbe} {s : List Char} {driver other : String}
    (h : NamedAt p s driver) (h' : NamedAt p s other) : driver = other := by
  rcases h with ⟨_, hall, rest, rfl⟩
  rcases h' with ⟨_, hall', rest', heq⟩
  have hbehind := (List.cons.inj (List.append_cancel_left heq)).2
  have hname := (Text.split_run hall hall' (colon_ends_name _) (colon_ends_name _) hbehind).1
  exact String.toList_inj.mp hname

/-- What is found at a place is the driver that is named there. -/
theorem namedAt_of_atStart {p : KernelProbe} {s : List Char} {g : Groups}
    (h : (driverPattern p).atStart s = some g) : NamedAt p s (g.get 1) := by
  rcases Pattern.atStart_eq_some h with ⟨piece, rest, rfl, hmatch⟩
  rcases hmatch with ⟨_, _, _, _, rfl, rfl, ⟨rfl, rfl⟩, hmatch⟩
  rcases hmatch with ⟨_, _, _, _, rfl, rfl, ⟨rfl, rfl⟩, hmatch⟩
  rcases hmatch with ⟨name, _, _, _, rfl, rfl, ⟨inner, rfl, hname⟩, ⟨rfl, rfl⟩⟩
  rcases Pattern.derives_some1_iff.mp hname with ⟨hne, hall, rfl⟩
  -- The group that is reported is the name.
  have hdriver : Groups.get [(1, name ++ (":".toList ++ rest)), (1, ":".toList ++ rest)] 1
      = String.ofList name := Groups.get_here 1 name (":".toList ++ rest) []
  simp only [List.append_assoc, List.nil_append, List.append_nil]
  unfold NamedAt
  rw [hdriver, String.toList_ofList]
  exact ⟨hne, hall, rest, rfl⟩

/-- A driver that is named at a place is found there. -/
theorem driverPattern_atStart {p : KernelProbe} {s : List Char} {driver : String}
    (h : NamedAt p s driver) : ∃ g, (driverPattern p).atStart s = some g ∧ g.get 1 = driver := by
  rcases id h with ⟨hne, hall, rest, rfl⟩
  have hderives : (driverPattern p).Derives
      (p.keyword.toList ++ (" ".toList ++ (driver.toList ++ ":".toList))) rest _ :=
    ⟨_, _, [], _, rfl, rfl, ⟨rfl, rfl⟩, _, _, [], _, rfl, rfl, ⟨rfl, rfl⟩,
      _, _, _, [], rfl, rfl, ⟨[], rfl, Pattern.derives_some1 hne hall _⟩, rfl, rfl⟩
  have hsome := Pattern.atStart_isSome hderives
  simp only [List.append_assoc] at hsome
  rcases Option.isSome_iff_exists.mp hsome with ⟨g, hg⟩
  exact ⟨g, hg, (namedAt_of_atStart hg).unique h⟩

/-- The driver that a line is counted for is the one that it names: the name behind the leftmost
    keyword of the probe that has a name behind it. -/
theorem driverOf_eq_some {p : KernelProbe} {line driver : String} :
    driverOf p line = some driver ↔ Names p line driver := by
  -- A place matches exactly if a driver is named there.
  have hnone : ∀ s, (driverPattern p).atStart s = none ↔ ∀ other, ¬ NamedAt p s other := by
    intro s
    constructor
    · intro h other hother
      rcases driverPattern_atStart hother with ⟨g, hg, _⟩
      rw [h] at hg
      cases hg
    · intro h
      rw [Option.eq_none_iff_forall_ne_some]
      intro g hg
      exact h _ (namedAt_of_atStart hg)
  unfold driverOf Names
  rw [Option.map_eq_some_iff]
  constructor
  · rintro ⟨g, hg, rfl⟩
    rcases Pattern.search_eq_some_iff.mp hg with ⟨i, hi, hleft⟩
    exact ⟨i, namedAt_of_atStart hi, fun j hj => (hnone _).mp (hleft j hj)⟩
  · rintro ⟨i, hi, hleft⟩
    rcases driverPattern_atStart hi with ⟨g, hg, hdriver⟩
    exact ⟨g, Pattern.search_eq_some_iff.mpr ⟨i, hg, fun j hj => (hnone _).mpr (hleft j hj)⟩,
      hdriver⟩

instance (p : KernelProbe) (line driver : String) : Decidable (Names p line driver) :=
  decidable_of_iff (driverOf p line = some driver) driverOf_eq_some

end KernelLog

end AccelMonitor

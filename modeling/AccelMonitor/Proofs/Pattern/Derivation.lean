import AccelMonitor.Pattern.Table

/-!
# What a Match Says

The texts a pattern can match, apart from any search.

`Pattern.first` finds a match by trying, in order, and so says at once which
texts match and which of several ways is the match. Most facts about a line need
only the first half: the line has a bracket here, digits there. `Derives` is that
half. It relates a pattern to a piece of text, to what is left after the piece,
and to the places of the groups inside it, and it has no order in it.

`first_eq_some` is soundness: whatever the search answers comes from a
derivation, and the places it reports are those of the derivation followed by
those of the continuation. `first_isSome` is completeness: if there is any
derivation whose remainder the continuation accepts, the search answers, with
this derivation or with one it prefers.

## Main definitions

* `Pattern.Derives`: A pattern can match a piece of text.
* `Pattern.groupNumbers`: The numbers of the groups in a pattern.

## Theorems

* `Groups.get_between`: The text of a group from its places.
* `Derives.mem_groupNumbers`, `Derives.groups_eq_nil`: Only places of the pattern's groups
  are reported.
* `runFirst_eq_some`, `runFirst_isSome`: The same for a run of a class.
* `first_eq_some`: An answer of the search comes from a derivation.
* `first_isSome`: The search answers if there is a derivation.
* `atStart_eq_some`, `search_eq_some`: What a match says about its text.
* `atStart_isSome`: There is a match at the start if there is a derivation.
-/

namespace AccelMonitor

namespace Groups

/-- The text of a group is the piece between its two places, if these are the first two of
    its number. -/
theorem get_between {before inner after : Groups} {i : Nat} {piece rest : List Char}
    (hbefore : ∀ place ∈ before, place.1 ≠ i) (hinner : ∀ place ∈ inner, place.1 ≠ i) :
    get (before ++ ((i, piece ++ rest) :: (inner ++ ((i, rest) :: after)))) i
      = String.ofList piece := by
  have hskip : ∀ g : Groups, (∀ place ∈ g, place.1 ≠ i) →
      g.filter (fun place => place.1 == i) = [] := by
    intro g hg
    rw [List.filter_eq_nil_iff]
    intro place hplace
    rw [beq_iff_eq]
    exact hg place hplace
  -- The other places of this number all come after the two of the group.
  have hfirst : (before ++ ((i, piece ++ rest) :: (inner ++ ((i, rest) :: after)))).filter
      (fun place => place.1 == i)
      = (i, piece ++ rest) :: (i, rest) :: after.filter fun place => place.1 == i := by
    simp only [List.filter_append, List.filter_cons, beq_self_eq_true, if_true,
      hskip before hbefore, hskip inner hinner, List.nil_append]
  rw [get, hfirst]
  simp only [between, List.length_append, Nat.add_sub_cancel]
  rw [List.take_left]

end Groups

namespace Pattern

/-- The pattern can match `piece` where `rest` is left after it, with its groups at the places
    `groups`. Every way of matching is a derivation, also those that the search does not prefer. -/
def Derives : Pattern → List Char → List Char → Groups → Prop
  | text t, piece, _, groups => piece = t ∧ groups = []
  | one cls, piece, _, groups => (∃ c, cls c = true ∧ piece = [c]) ∧ groups = []
  | run _ cls, piece, _, groups => (∀ c ∈ piece, cls c = true) ∧ groups = []
  | seq p q, piece, rest, groups =>
    ∃ left right before after, piece = left ++ right ∧ groups = before ++ after ∧
      p.Derives left (right ++ rest) before ∧ q.Derives right rest after
  | either p q, piece, rest, groups => p.Derives piece rest groups ∨ q.Derives piece rest groups
  | optional p, piece, rest, groups =>
    p.Derives piece rest groups ∨ (piece = [] ∧ groups = [])
  | group i p, piece, rest, groups =>
    ∃ inner, groups = (i, piece ++ rest) :: (inner ++ [(i, rest)]) ∧ p.Derives piece rest inner
  | atEnd, piece, rest, groups => piece = [] ∧ rest = [] ∧ groups = []

/-- The numbers of the groups in a pattern. -/
def groupNumbers : Pattern → List Nat
  | seq p q => p.groupNumbers ++ q.groupNumbers
  | either p q => p.groupNumbers ++ q.groupNumbers
  | optional p => p.groupNumbers
  | group i p => i :: p.groupNumbers
  | _ => []

/-- A derivation reports places of the pattern's own groups only. When a group of a long pattern
    is looked up, all the parts whose numbers are others can so be passed over. -/
theorem Derives.mem_groupNumbers {p : Pattern} {piece rest : List Char} {g : Groups}
    (h : p.Derives piece rest g) : ∀ place ∈ g, place.1 ∈ p.groupNumbers := by
  induction p generalizing piece rest g with
  | text t =>
    rw [h.2]
    exact List.forall_mem_nil _
  | one cls =>
    rw [h.2]
    exact List.forall_mem_nil _
  | run longest cls =>
    rw [h.2]
    exact List.forall_mem_nil _
  -- The places of a sequence are those of its two parts.
  | seq p q ihp ihq =>
    rcases h with ⟨left, right, before, after, _, rfl, hp, hq⟩
    intro place hplace
    rcases List.mem_append.mp hplace with hplace | hplace
    · exact List.mem_append_left _ (ihp hp place hplace)
    · exact List.mem_append_right _ (ihq hq place hplace)
  | either p q ihp ihq =>
    intro place hplace
    rcases h with hp | hq
    · exact List.mem_append_left _ (ihp hp place hplace)
    · exact List.mem_append_right _ (ihq hq place hplace)
  | optional p ih =>
    rcases h with hp | ⟨_, rfl⟩
    · exact ih hp
    · exact List.forall_mem_nil _
  | group i p ih =>
    rcases h with ⟨inner, rfl, hp⟩
    intro place hplace
    -- The two places of the group enclose those of the pattern inside.
    simp only [List.mem_cons, List.mem_append, List.not_mem_nil, or_false] at hplace
    rcases hplace with rfl | hplace | rfl
    · exact List.mem_cons_self ..
    · exact List.mem_cons_of_mem i (ih hp place hplace)
    · exact List.mem_cons_self ..
  | atEnd =>
    rw [h.2.2]
    exact List.forall_mem_nil _

/-- A pattern without groups reports no places. -/
theorem Derives.groups_eq_nil {p : Pattern} {piece rest : List Char} {g : Groups}
    (h : p.Derives piece rest g) (hp : p.groupNumbers = []) : g = [] := by
  rw [List.eq_nil_iff_forall_not_mem]
  intro place hplace
  have hmem := h.mem_groupNumbers place hplace
  rw [hp] at hmem
  exact absurd hmem List.not_mem_nil

/-- A text that begins with the given characters is those and what is left. -/
theorem dropText?_eq_some {t s rest : List Char} :
    dropText? t s = some rest ↔ s = t ++ rest := by
  induction t generalizing s with
  | nil => simp only [dropText?, Option.some.injEq, List.nil_append]
  | cons c t ih =>
    cases s with
    | nil => simp only [dropText?, reduceCtorEq, List.cons_append, List.nil_eq]
    | cons d s =>
      rw [dropText?]
      by_cases hcd : c = d
      · rw [if_pos hcd, ih, hcd, List.cons_append, List.cons.injEq]
        simp only [true_and]
      · rw [if_neg hcd]
        simp only [reduceCtorEq, List.cons_append, List.cons.injEq, false_iff, not_and]
        intro hdc
        exact absurd hdc.symm hcd

/-- An answer of a choice is the answer of one of its sides. -/
theorem choice_eq_some {β : Type} {x y : Option β} {b : β} (h : (x <|> y) = some b) :
    x = some b ∨ y = some b := by
  cases x with
  | none => exact Or.inr h
  | some a => exact Or.inl h

/-- A choice answers if one of its sides does. -/
theorem choice_isSome {β : Type} {x y : Option β} (h : x.isSome = true ∨ y.isSome = true) :
    (x <|> y).isSome = true := by
  cases x with
  | none => exact h.resolve_left Bool.false_ne_true
  | some a => rfl

/-- Whichever run is preferred, the one that is found consists of the class and leaves what the
    continuation accepts. Which of the two is tried first does not matter for this, and the two
    orders are the two cases at the end. -/
theorem runFirst_eq_some {β : Type} {longest : Bool} {cls : Char → Bool} {s : List Char}
    {k : List Char → Option β} {b : β} (h : runFirst longest cls s k = some b) :
    ∃ piece rest, s = piece ++ rest ∧ (∀ c ∈ piece, cls c = true) ∧ k rest = some b := by
  induction s with
  | nil => exact ⟨[], [], rfl, List.forall_mem_nil _, h⟩
  | cons c s ih =>
    -- The run either ends in front of this character or takes it along.
    have hstop : k (c :: s) = some b →
        ∃ piece rest, c :: s = piece ++ rest ∧ (∀ d ∈ piece, cls d = true) ∧ k rest = some b :=
      fun hk => ⟨[], c :: s, rfl, List.forall_mem_nil _, hk⟩
    rw [runFirst] at h
    by_cases hc : cls c = true
    · have htake : runFirst longest cls s k = some b →
          ∃ piece rest, c :: s = piece ++ rest ∧ (∀ d ∈ piece, cls d = true) ∧
            k rest = some b := by
        intro hk
        rcases ih hk with ⟨piece, rest, rfl, hall, hrest⟩
        refine ⟨c :: piece, rest, rfl, fun d hd => ?_, hrest⟩
        rcases List.mem_cons.mp hd with rfl | hd
        · exact hc
        · exact hall d hd
      rw [if_pos hc] at h
      cases longest with
      | true =>
        rcases choice_eq_some h with h | h
        · exact htake h
        · exact hstop h
      | false =>
        rcases choice_eq_some h with h | h
        · exact hstop h
        · exact htake h
    · rw [if_neg hc] at h
      exact hstop h

/-- A run of the class that leaves what the continuation accepts lets the search
    answer. -/
theorem runFirst_isSome {β : Type} {longest : Bool} {cls : Char → Bool} {piece rest : List Char}
    {k : List Char → Option β} (hall : ∀ c ∈ piece, cls c = true) (hk : (k rest).isSome = true) :
    (runFirst longest cls (piece ++ rest) k).isSome = true := by
  induction piece with
  | nil =>
    -- The run may end here. Where a longer one is preferred, the choice answers even so.
    cases rest with
    | nil => exact hk
    | cons c s =>
      rw [List.nil_append, runFirst]
      split
      · split
        · exact choice_isSome (Or.inr hk)
        · exact choice_isSome (Or.inl hk)
      · exact hk
  | cons c piece ih =>
    have hrun := ih fun d hd => hall d (List.mem_cons_of_mem c hd)
    rw [List.cons_append, runFirst, if_pos (hall c (List.mem_cons_self ..))]
    split
    · -- The run that takes this character along answers, tried first or last.
      exact choice_isSome (Or.inl hrun)
    · exact choice_isSome (Or.inr hrun)

/-- Marking a place of a group puts it in front of an answer. -/
theorem place_eq_some {i : Nat} {s : List Char} {answer : Option Groups} {g : Groups}
    (h : place i s answer = some g) : ∃ g', answer = some g' ∧ g = (i, s) :: g' := by
  rcases Option.map_eq_some_iff.mp h with ⟨g', hanswer, hg⟩
  exact ⟨g', hanswer, hg.symm⟩

/-- An answer of the search comes from a derivation: the text is a piece that the pattern
    can match and a remainder that the continuation accepts, and the groups are those of
    both, in this order. -/
theorem first_eq_some {p : Pattern} {s : List Char} {k : List Char → Option Groups}
    {g : Groups} (h : p.first s k = some g) :
    ∃ piece rest before after, s = piece ++ rest ∧ p.Derives piece rest before ∧
      k rest = some after ∧ g = before ++ after := by
  -- By induction on the pattern, for every text and continuation: inside a pattern the search
  -- goes on with a continuation of its own.
  induction p generalizing s k g with
  -- A text, a character and a run have no groups, so all of them come from the continuation.
  | text t =>
    rcases Option.bind_eq_some_iff.mp h with ⟨rest, hdrop, hk⟩
    exact ⟨t, rest, [], g, dropText?_eq_some.mp hdrop, ⟨rfl, rfl⟩, hk, rfl⟩
  | one cls =>
    cases s with
    | nil => cases h
    | cons c s =>
      rw [first] at h
      by_cases hc : cls c = true
      · rw [if_pos hc] at h
        exact ⟨[c], s, [], g, rfl, ⟨⟨c, hc, rfl⟩, rfl⟩, h, rfl⟩
      · rw [if_neg hc] at h
        cases h
  | run longest cls =>
    rcases runFirst_eq_some h with ⟨piece, rest, hs, hall, hk⟩
    exact ⟨piece, rest, [], g, hs, ⟨hall, rfl⟩, hk, rfl⟩
  | seq p q ihp ihq =>
    -- The continuation of the first part is the search for the second.
    rcases ihp h with ⟨left, mid, before, g', hs, hp, hq, hg⟩
    rcases ihq hq with ⟨right, rest, inner, after, hmid, hq, hk, hg'⟩
    refine ⟨left ++ right, rest, before ++ inner, after, ?_, ?_, hk, ?_⟩
    · rw [hs, hmid, List.append_assoc]
    · rw [hmid] at hp
      exact ⟨left, right, before, inner, rfl, rfl, hp, hq⟩
    · rw [hg, hg', List.append_assoc]
  | either p q ihp ihq =>
    rcases choice_eq_some h with h | h
    · rcases ihp h with ⟨piece, rest, before, after, hs, hp, hk, hg⟩
      exact ⟨piece, rest, before, after, hs, Or.inl hp, hk, hg⟩
    · rcases ihq h with ⟨piece, rest, before, after, hs, hq, hk, hg⟩
      exact ⟨piece, rest, before, after, hs, Or.inr hq, hk, hg⟩
  | optional p ih =>
    rcases choice_eq_some h with h | h
    · rcases ih h with ⟨piece, rest, before, after, hs, hp, hk, hg⟩
      exact ⟨piece, rest, before, after, hs, Or.inl hp, hk, hg⟩
    · exact ⟨[], s, [], g, rfl, Or.inr ⟨rfl, rfl⟩, h, rfl⟩
  | group i p ih =>
    -- The start is marked in the answer, the end by the continuation.
    rcases place_eq_some h with ⟨g₁, h₁, hg⟩
    rcases ih h₁ with ⟨piece, rest, inner, g₂, hs, hp, h₂, hg₁⟩
    rcases place_eq_some h₂ with ⟨after, hk, hg₂⟩
    refine ⟨piece, rest, (i, piece ++ rest) :: (inner ++ [(i, rest)]), after, hs,
      ⟨inner, rfl, hp⟩, hk, ?_⟩
    rw [hg, hg₁, hg₂, hs]
    simp only [List.cons_append, List.append_assoc, List.nil_append]
  | atEnd =>
    rw [first] at h
    cases s with
    | nil => exact ⟨[], [], [], g, rfl, ⟨rfl, rfl, rfl⟩, h, rfl⟩
    | cons c s => cases h

/-- The search answers if there is a derivation whose remainder the continuation accepts. It
    need not be this derivation that it finds, since another one may be preferred, but it gives
    up only when there is none. -/
theorem first_isSome {p : Pattern} {piece rest : List Char} {k : List Char → Option Groups}
    {g : Groups} (hp : p.Derives piece rest g) (hk : (k rest).isSome = true) :
    (p.first (piece ++ rest) k).isSome = true := by
  induction p generalizing piece rest k g with
  | text t =>
    rw [hp.1, first, dropText?_eq_some.mpr rfl]
    exact hk
  | one cls =>
    rcases hp.1 with ⟨c, hc, rfl⟩
    rw [List.singleton_append, first, if_pos hc]
    exact hk
  | run longest cls => exact runFirst_isSome hp.1 hk
  | seq p q ihp ihq =>
    rcases hp with ⟨left, right, before, after, rfl, _, hp, hq⟩
    rw [List.append_assoc]
    exact ihp hp (ihq hq hk)
  | either p q ihp ihq =>
    rcases hp with hp | hq
    · exact choice_isSome (Or.inl (ihp hp hk))
    · exact choice_isSome (Or.inr (ihq hq hk))
  | optional p ih =>
    rcases hp with hp | ⟨rfl, _⟩
    · exact choice_isSome (Or.inl (ih hp hk))
    · exact choice_isSome (Or.inr hk)
  | group i p ih =>
    rcases hp with ⟨inner, _, hp⟩
    -- Marking a place neither makes nor prevents an answer.
    rw [first, place, Option.isSome_map]
    apply ih hp
    rw [place, Option.isSome_map]
    exact hk
  | atEnd =>
    rcases hp with ⟨rfl, rfl, _⟩
    exact hk

/-- A match at the start of a text comes from a derivation there. -/
theorem atStart_eq_some {p : Pattern} {s : List Char} {g : Groups} (h : p.atStart s = some g) :
    ∃ piece rest, s = piece ++ rest ∧ p.Derives piece rest g := by
  rcases first_eq_some h with ⟨piece, rest, before, after, hs, hp, hk, hg⟩
  refine ⟨piece, rest, hs, ?_⟩
  rw [hg, ← Option.some.inj hk, List.append_nil]
  exact hp

/-- There is a match at the start of a text if there is a derivation there. -/
theorem atStart_isSome {p : Pattern} {piece rest : List Char} {g : Groups}
    (h : p.Derives piece rest g) : (p.atStart (piece ++ rest)).isSome = true :=
  first_isSome h rfl

/-- A match in a text comes from a derivation somewhere in it. -/
theorem search_eq_some {p : Pattern} {s : List Char} {g : Groups} (h : p.search s = some g) :
    ∃ skipped piece rest, s = skipped ++ (piece ++ rest) ∧ p.Derives piece rest g := by
  induction s with
  | nil =>
    rcases atStart_eq_some h with ⟨piece, rest, hs, hp⟩
    exact ⟨[], piece, rest, hs, hp⟩
  | cons c s ih =>
    rcases choice_eq_some h with h | h
    · rcases atStart_eq_some h with ⟨piece, rest, hs, hp⟩
      exact ⟨[], piece, rest, hs, hp⟩
    · rcases ih h with ⟨skipped, piece, rest, hs, hp⟩
      exact ⟨c :: skipped, piece, rest, by rw [hs, List.cons_append], hp⟩

end Pattern

end AccelMonitor

import AccelMonitor.Proofs.Pattern.Derivation
import AccelMonitor.Proofs.Text.Splitting

/-!
# Which Match Is Found

The order of the ways to match, where it matters.

A derivation says that a pattern can match a text, and a text that can be read in
one way only is settled by derivations alone. Two things are not. Blanks in front
of a lazy group could be the group's, and it is the greedy run in front that takes
them. And the search stops at the leftmost match, so nothing further left may
match. The lemmas here decide such questions going forward: where a greedy or a
lazy run ends, and which characters a search passes over.

## Main definitions

* `Pattern.OpensWith`: A pattern matches only where a given character stands.
* `Pattern.HoldsOnly`: The characters that a pattern can match.

## Theorems

* `Groups.get_here`, `Groups.get_further`: The text of a group, place by place.
* `runFirst_longest`, `runFirst_last`, `runFirst_shortest`: Where a run ends.
* `first_text_seq`, `first_blanks_seq`, `first_blank1_seq`: Given characters and blanks are
  passed.
* `first_blanks_none`: Blanks do not lead past other characters.
* `first_group_few`, `first_group_lead`, `first_group_few1`: A lazy group in front of blanks is
  found as it is.
* `first_group_few_end`: The same at the end of a text.
* `first_some1`, `first_group_some1`: A greedy run or group is found up to where its class ends.
* `first_optional_present`, `first_optional_absent`, `first_optional_end`: What may be left out.
* `atStart_eq_nil`: A match without groups.
* `search_eq_some_iff`: The search finds the leftmost match.
* `search_skip`: Where a match does not begin.
* `derives_some1`, `derives_some1_iff`: A text of a class is matched, and nothing else.
* `Derives.forall_mem`: Which characters a match consists of.
-/

namespace AccelMonitor

namespace Groups

/-- The text of a group whose places come first. -/
theorem get_here (i : Nat) (piece rest : List Char) (after : Groups) :
    get ((i, piece ++ rest) :: (i, rest) :: after) i = String.ofList piece := by
  change get ([] ++ ((i, piece ++ rest) :: ([] ++ ((i, rest) :: after)))) i = String.ofList piece
  exact get_between (List.forall_mem_nil _) (List.forall_mem_nil _)

/-- The places of another group are passed. -/
theorem get_further {i j : Nat} (h : j ≠ i) (s : List Char) (g : Groups) :
    get ((j, s) :: g) i = get g i := by
  rw [get, get, List.filter_cons_of_neg]
  rw [beq_iff_eq]
  exact h

/-- The text of a group that reaches to the end of the text. -/
theorem get_rest (i : Nat) (piece : List Char) :
    get [(i, piece), (i, [])] i = String.ofList piece := by
  have hget := get_here i piece [] []
  rw [List.append_nil] at hget
  exact hget

end Groups

namespace Pattern

/-- A run that prefers more takes all characters of the class if what follows is
    accepted. -/
theorem runFirst_longest {β : Type} {cls : Char → Bool} {piece rest : List Char}
    {k : List Char → Option β} (hpiece : ∀ c ∈ piece, cls c = true)
    (hrest : ∀ c ∈ rest.head?, cls c = false) (hk : (k rest).isSome = true) :
    runFirst true cls (piece ++ rest) k = k rest := by
  induction piece with
  | nil =>
    cases rest with
    | nil => rfl
    | cons c s => rw [List.nil_append, runFirst, if_neg (Bool.eq_false_iff.mp (hrest c rfl))]
  | cons c piece ih =>
    -- The run that takes one more character is tried first, and it answers.
    have hrun := ih fun d hd => hpiece d (List.mem_cons_of_mem c hd)
    rw [List.cons_append, runFirst, if_pos (hpiece c (List.mem_cons_self ..)), if_pos rfl, hrun]
    rcases Option.isSome_iff_exists.mp hk with ⟨found, hfound⟩
    rw [hfound]
    rfl

/-- A run that prefers more takes a piece if nothing is accepted behind the end of it. It tries
    the longest run first and comes back from it, so what keeps it from taking more is what
    follows: the continuation has to refuse the rest of every longer run. -/
theorem runFirst_last {β : Type} {cls : Char → Bool} {piece rest : List Char}
    {k : List Char → Option β} (hpiece : ∀ c ∈ piece, cls c = true)
    (hnone : ∀ x y, rest = x ++ y → x ≠ [] → (∀ c ∈ x, cls c = true) → k y = none)
    (hk : (k rest).isSome = true) :
    runFirst true cls (piece ++ rest) k = k rest := by
  induction piece with
  | nil =>
    cases rest with
    | nil => rfl
    | cons c s =>
      rw [List.nil_append, runFirst]
      by_cases hc : cls c = true
      · -- Whatever is found further on would be accepted behind the end.
        have hfurther : runFirst true cls s k = none := by
          refine Option.eq_none_iff_forall_ne_some.mpr fun b hb => ?_
          rcases runFirst_eq_some hb with ⟨x, y, rfl, hx, hy⟩
          rw [hnone (c :: x) y rfl (List.cons_ne_nil c x) (List.forall_mem_cons.mpr ⟨hc, hx⟩)] at hy
          cases hy
        rw [if_pos hc, if_pos rfl, hfurther]
        rfl
      · rw [if_neg hc]
  -- The characters of the piece are taken one by one, and there is an answer behind them.
  | cons c piece ih =>
    have hrun := ih fun d hd => hpiece d (List.mem_cons_of_mem c hd)
    rw [List.cons_append, runFirst, if_pos (hpiece c (List.mem_cons_self ..)), if_pos rfl, hrun]
    rcases Option.isSome_iff_exists.mp hk with ⟨found, hfound⟩
    rw [hfound]
    rfl

/-- A run that prefers fewer takes a piece if nothing is accepted before the end of it. -/
theorem runFirst_shortest {β : Type} {cls : Char → Bool} {piece rest : List Char}
    {k : List Char → Option β} (hpiece : ∀ c ∈ piece, cls c = true)
    (hnone : ∀ x y, piece = x ++ y → y ≠ [] → k (y ++ rest) = none)
    (hk : (k rest).isSome = true) :
    runFirst false cls (piece ++ rest) k = k rest := by
  induction piece with
  | nil =>
    rcases Option.isSome_iff_exists.mp hk with ⟨found, hfound⟩
    cases rest with
    | nil => rfl
    | cons c s =>
      rw [List.nil_append, runFirst]
      split
      · rw [hfound]
        rfl
      · rfl
  | cons c piece ih =>
    -- Ending here is tried first, and it is refused before the end of the piece.
    have hstop : k (c :: (piece ++ rest)) = none :=
      hnone [] (c :: piece) rfl (List.cons_ne_nil c piece)
    have hrun := ih (fun d hd => hpiece d (List.mem_cons_of_mem c hd)) fun x y hxy =>
      hnone (c :: x) y (by rw [hxy, List.cons_append])
    rw [List.cons_append, runFirst_fewer_cons (hpiece c (List.mem_cons_self ..)), hstop, hrun]
    rfl

/-- The search passes the characters that a pattern gives. -/
theorem first_text (t rest : List Char) (k : List Char → Option Groups) :
    (text t).first (t ++ rest) k = k rest := by
  rw [first, dropText?_eq_some.mpr rfl]
  rfl

/-- Given characters are passed on the way to what follows. -/
theorem first_text_seq (t : List Char) {q : Pattern} {rest : List Char}
    {k : List Char → Option Groups} {g : Groups} (hq : q.first rest k = some g) :
    (seq (text t) q).first (t ++ rest) k = some g :=
  (first_text t rest _).trans hq

/-- Blanks take all the blanks that stand there. -/
theorem first_blanks_seq {gap : List Char} (hgap : ∀ c ∈ gap, Text.isBlank c = true)
    {q : Pattern} {rest : List Char} {k : List Char → Option Groups} {g : Groups}
    (hrest : ∀ c ∈ rest.head?, Text.isBlank c = false) (hq : q.first rest k = some g) :
    (seq blanks q).first (gap ++ rest) k = some g :=
  (runFirst_longest hgap hrest (by rw [hq]; rfl)).trans hq

/-- Blanks take nothing where none stands. -/
theorem first_no_blank_seq {q : Pattern} {rest : List Char} {k : List Char → Option Groups}
    {g : Groups} (hrest : ∀ c ∈ rest.head?, Text.isBlank c = false)
    (hq : q.first rest k = some g) : (seq blanks q).first rest k = some g :=
  first_blanks_seq (List.forall_mem_nil _) hrest hq

/-- A single blank is all that blanks take if none follows. -/
theorem first_blank_seq {q : Pattern} {rest : List Char} {k : List Char → Option Groups}
    {g : Groups} (hrest : ∀ c ∈ rest.head?, Text.isBlank c = false)
    (hq : q.first rest k = some g) : (seq blanks q).first (' ' :: rest) k = some g :=
  first_blanks_seq Text.forall_blank hrest hq

/-- The same where one blank is needed. -/
theorem first_blank1_seq {q : Pattern} {rest : List Char} {k : List Char → Option Groups}
    {g : Groups} (hrest : ∀ c ∈ rest.head?, Text.isBlank c = false)
    (hq : q.first rest k = some g) : (seq blanks1 q).first (' ' :: rest) k = some g := by
  have hblank : Text.isBlank ' ' = true := by decide
  rw [first_seq, blanks1, some1, first_seq, first, if_pos hblank]
  exact first_no_blank_seq hrest hq

/-- A pattern matches only where the character stands. -/
def OpensWith (c : Char) (p : Pattern) : Prop :=
  ∀ s k, s.head? ≠ some c → p.first s k = none

theorem opensWith_text (c : Char) (t : List Char) : OpensWith c (text (c :: t)) := by
  intro s k hs
  cases s with
  | nil => rfl
  | cons d s =>
    rw [first, dropText?, if_neg fun h => hs (congrArg some h.symm)]
    rfl

theorem OpensWith.seq {c : Char} {p : Pattern} (h : OpensWith c p) (q : Pattern) :
    OpensWith c (.seq p q) :=
  fun s _ hs => h s _ hs

/-- Blanks in front of what is looked for do not lead past other characters. If what is looked for
    begins with a character that does not stand in front, and something solid stands there, there
    is no match. -/
theorem first_blanks_none {c : Char} {p : Pattern} (hp : OpensWith c p) {front : List Char}
    (hfront : c ∉ front) (hsolid : ∃ d ∈ front, Text.isBlank d = false) (rest : List Char)
    (k : List Char → Option Groups) : (seq blanks p).first (front ++ rest) k = none := by
  rw [← Option.not_isSome_iff_eq_none]
  intro hsome
  rcases Option.isSome_iff_exists.mp hsome with ⟨g, hg⟩
  rcases runFirst_eq_some hg with ⟨gap, left, hsplit, hgap, hleft⟩
  rcases hsolid with ⟨d, hd, hblank⟩
  have hhead : left.head? = some c := Decidable.byContradiction fun hne => by
    rw [hp left k hne] at hleft
    cases hleft
  -- The blanks end before the solid character, so what is looked for stands in front of it.
  rcases List.append_eq_append_iff.mp hsplit with ⟨more, rfl, _⟩ | ⟨more, rfl, rfl⟩
  · have hd' := hgap d (List.mem_append_left _ hd)
    rw [hblank] at hd'
    exact absurd hd' Bool.false_ne_true
  · cases more with
    | nil =>
      rw [List.append_nil] at hd
      have hd' := hgap d hd
      rw [hblank] at hd'
      exact absurd hd' Bool.false_ne_true
    | cons e more =>
      rw [List.cons_append, List.head?_cons, Option.some.injEq] at hhead
      rw [hhead] at hfront
      exact hfront (List.mem_append_right _ (List.mem_cons_self ..))

/-- A lazy run that ends with no blank is found as it is in front of blanks and of what opens
    with a character that is not in it. -/
theorem runFirst_lazy {i : Nat} {c : Char} {q : Pattern} (hq : OpensWith c q)
    {cls : Char → Bool} {name rest : List Char} {k : List Char → Option Groups} {g : Groups}
    (hall : ∀ d ∈ name, cls d = true) (hname : c ∉ name)
    (hlast : ∀ d ∈ name.getLast?, Text.isBlank d = false)
    (hrest : (seq blanks q).first rest k = some g) :
    runFirst false cls (name ++ rest) (fun s => place i s ((seq blanks q).first s k))
      = some ((i, rest) :: g) := by
  have hstop : place i rest ((seq blanks q).first rest k) = some ((i, rest) :: g) := by
    rw [hrest]
    rfl
  refine (runFirst_shortest hall ?_ (by rw [hstop]; rfl)).trans hstop
  -- It cannot end earlier, for its last character is neither a blank nor the one behind it.
  rintro x y rfl hy
  have hsolid : ∃ d ∈ y, Text.isBlank d = false := by
    refine ⟨y.getLast hy, List.getLast_mem hy, hlast _ ?_⟩
    rw [List.getLast?_append, List.getLast?_eq_some_getLast hy]
    rfl
  rw [first_blanks_none hq (fun hmem => hname (List.mem_append_right x hmem)) hsolid rest k]
  rfl

/-- The same as a group. -/
theorem first_group_few (i : Nat) {c : Char} {q : Pattern} (hq : OpensWith c q)
    {cls : Char → Bool} {name rest : List Char} {k : List Char → Option Groups} {g : Groups}
    (hall : ∀ d ∈ name, cls d = true) (hname : c ∉ name)
    (hlast : ∀ d ∈ name.getLast?, Text.isBlank d = false)
    (hrest : (seq blanks q).first rest k = some g) :
    (seq (group i (few cls)) (seq blanks q)).first (name ++ rest) k
      = some ((i, name ++ rest) :: (i, rest) :: g) :=
  congrArg (place i (name ++ rest)) (runFirst_lazy hq hall hname hlast hrest)

/-- The same behind a character of another class. -/
theorem first_group_lead (i : Nat) {c : Char} {q : Pattern} (hq : OpensWith c q)
    {lead cls : Char → Bool} {d : Char} {name rest : List Char} {k : List Char → Option Groups}
    {g : Groups} (hlead : lead d = true) (hall : ∀ e ∈ name, cls e = true) (hname : c ∉ name)
    (hlast : ∀ e ∈ name.getLast?, Text.isBlank e = false)
    (hrest : (seq blanks q).first rest k = some g) :
    (seq (group i (seq (one lead) (few cls))) (seq blanks q)).first (d :: (name ++ rest)) k
      = some ((i, d :: (name ++ rest)) :: (i, rest) :: g) := by
  have hrun : (seq (one lead) (few cls)).first (d :: (name ++ rest))
      (fun s => place i s ((seq blanks q).first s k)) = some ((i, rest) :: g) := by
    rw [first_seq, first, if_pos hlead]
    exact runFirst_lazy hq hall hname hlast hrest
  exact congrArg (place i (d :: (name ++ rest))) hrun

/-- The same where one character of the class is needed: a group that is matched shortest first,
    and ends at the first place where what follows can stand. -/
theorem first_group_few1 (i : Nat) {c : Char} {q : Pattern} (hq : OpensWith c q)
    {cls : Char → Bool} {name rest : List Char} {k : List Char → Option Groups} {g : Groups}
    (hsome : name ≠ []) (hall : ∀ d ∈ name, cls d = true) (hname : c ∉ name)
    (hlast : ∀ d ∈ name.getLast?, Text.isBlank d = false)
    (hrest : (seq blanks q).first rest k = some g) :
    (seq (group i (few1 cls)) (seq blanks q)).first (name ++ rest) k
      = some ((i, name ++ rest) :: (i, rest) :: g) := by
  cases name with
  | nil => exact absurd rfl hsome
  | cons d name =>
    rw [List.forall_mem_cons] at hall
    rw [List.mem_cons, not_or] at hname
    have hlast' : ∀ e ∈ name.getLast?, Text.isBlank e = false := by
      intro e he
      refine hlast e ?_
      rw [List.getLast?_cons, he]
      rfl
    exact first_group_lead i hq hall.1 hall.2 hname.2 hlast' hrest

/-- Blanks do not lead to the end past other characters. -/
theorem first_blanks_atEnd_none {front : List Char} (hsolid : ∃ d ∈ front, Text.isBlank d = false)
    (k : List Char → Option Groups) : (seq blanks atEnd).first front k = none := by
  rw [← Option.not_isSome_iff_eq_none]
  intro hsome
  rcases Option.isSome_iff_exists.mp hsome with ⟨g, hg⟩
  rcases first_eq_some hg with ⟨_, rest, _, _, hfront, hderives, _⟩
  rcases hderives with ⟨gap, _, _, _, rfl, _, ⟨hgap, _⟩, rfl, rfl, _⟩
  rcases hsolid with ⟨d, hd, hblank⟩
  rw [List.append_nil, List.append_nil] at hfront
  rw [hfront] at hd
  rw [hgap d hd] at hblank
  cases hblank

/-- A lazy group that ends with no blank is found as it is at the end of a text. -/
theorem first_group_few_end (i : Nat) {cls : Char → Bool} {name : List Char}
    (hall : ∀ d ∈ name, cls d = true) (hlast : ∀ d ∈ name.getLast?, Text.isBlank d = false) :
    (seq (group i (few cls)) (seq blanks atEnd)).first name (fun _ => some [])
      = some [(i, name), (i, [])] := by
  have hrun : runFirst false cls (name ++ [])
      (fun s => place i s ((seq blanks atEnd).first s fun _ => some [])) = some [(i, [])] := by
    refine (runFirst_shortest hall ?_ rfl).trans rfl
    -- It cannot end earlier, for its last character is no blank.
    rintro x y rfl hy
    have hsolid : ∃ d ∈ y ++ [], Text.isBlank d = false := by
      refine ⟨y.getLast hy, List.mem_append_left _ (List.getLast_mem hy), hlast _ ?_⟩
      rw [List.getLast?_append, List.getLast?_eq_some_getLast hy]
      rfl
    rw [first_blanks_atEnd_none hsolid]
    rfl
  rw [List.append_nil] at hrun
  exact congrArg (place i name) hrun

/-- No character of a name is a blank. Names are letters, digits and two marks of ASCII, and the
    blanks lie below or behind these. -/
theorem isBlank_of_isNameChar {c : Char} (h : isNameChar c = true) :
    Text.isBlank c = false := by
  have hname : 0x2d ≤ c.toNat ∧ c.toNat ≤ 0x7a := by
    simp only [isNameChar, Bool.or_eq_true, Bool.and_eq_true, decide_eq_true_eq,
      beq_iff_eq] at h
    rcases h with (((⟨hlow, hhigh⟩ | ⟨hlow, hhigh⟩) | ⟨hlow, hhigh⟩) | rfl) | rfl
    · have hlow' : 0x41 ≤ c.toNat := hlow
      have hhigh' : c.toNat ≤ 0x5a := hhigh
      omega
    · have hlow' : 0x61 ≤ c.toNat := hlow
      have hhigh' : c.toNat ≤ 0x7a := hhigh
      omega
    · have hlow' : 0x30 ≤ c.toNat := hlow
      have hhigh' : c.toNat ≤ 0x39 := hhigh
      omega
    · decide
    · decide
  have hranges : ∀ range ∈ Text.blankRanges, range.2 ≤ 0x20 ∨ 0x85 ≤ range.1 := by decide
  rw [Text.isBlank, List.any_eq_false]
  intro range hrange hblank
  rw [Bool.and_eq_true, decide_eq_true_eq, decide_eq_true_eq] at hblank
  have hrange := hranges range hrange
  omega

/-- A run that prefers more is found if it ends where the class does. -/
theorem first_some1 {cls : Char → Bool} {piece rest : List Char}
    {k : List Char → Option Groups} {g : Groups} (hsome : piece ≠ [])
    (hall : ∀ d ∈ piece, cls d = true) (hend : ∀ d ∈ rest.head?, cls d = false)
    (hrest : k rest = some g) : (some1 cls).first (piece ++ rest) k = some g := by
  cases piece with
  | nil => exact absurd rfl hsome
  | cons d piece =>
    rw [List.forall_mem_cons] at hall
    rw [List.cons_append, some1, first_seq, first, if_pos hall.1]
    exact (runFirst_longest hall.2 hend (by rw [hrest]; rfl)).trans hrest

/-- The same as a group. -/
theorem first_group_some1 (i : Nat) {q : Pattern} {cls : Char → Bool} {piece rest : List Char}
    {k : List Char → Option Groups} {g : Groups} (hsome : piece ≠ [])
    (hall : ∀ d ∈ piece, cls d = true) (hend : ∀ d ∈ rest.head?, cls d = false)
    (hrest : q.first rest k = some g) :
    (seq (group i (some1 cls)) q).first (piece ++ rest) k
      = some ((i, piece ++ rest) :: (i, rest) :: g) := by
  have hstop : place i rest (q.first rest k) = some ((i, rest) :: g) := by
    rw [hrest]
    rfl
  exact congrArg (place i (piece ++ rest)) (first_some1 hsome hall hend hstop)

/-- What may be left out is passed where it stands. -/
theorem first_optional_present {p : Pattern} {s : List Char} {k : List Char → Option Groups}
    {g : Groups} (hp : p.first s k = some g) : (optional p).first s k = some g := by
  rw [first, hp]
  rfl

/-- Nothing is passed where it does not stand. -/
theorem first_optional_absent {p : Pattern} {s : List Char} {k : List Char → Option Groups}
    (hp : p.first s k = none) : (optional p).first s k = k s := by
  rw [first, hp]
  rfl

/-- At the end of a pattern it makes no difference if it has no groups. -/
theorem first_optional_end {p : Pattern} (hp : p.groupNumbers = []) (s : List Char) :
    (optional p).first s (fun _ => some []) = some [] := by
  cases hfirst : p.first s fun _ => some [] with
  | none => exact first_optional_absent hfirst
  | some g =>
    rcases first_eq_some hfirst with ⟨_, _, before, after, _, hderives, hafter, rfl⟩
    rw [hderives.groups_eq_nil hp, ← Option.some.inj hafter] at hfirst
    exact first_optional_present hfirst

/-- A pattern without groups reports nothing where it matches. -/
theorem atStart_eq_nil {p : Pattern} (hp : p.groupNumbers = []) {piece rest : List Char}
    {g : Groups} (h : p.Derives piece rest g) : p.atStart (piece ++ rest) = some [] := by
  rcases Option.isSome_iff_exists.mp (atStart_isSome h) with ⟨found, hfound⟩
  rcases atStart_eq_some hfound with ⟨_, _, _, hderives⟩
  rw [hfound, hderives.groups_eq_nil hp]

/-- A match at the start of a text is the leftmost one. -/
theorem search_of_atStart {p : Pattern} {s : List Char} {g : Groups} (h : p.atStart s = some g) :
    p.search s = some g := by
  cases s with
  | nil => exact h
  | cons c s =>
    rw [search_cons, h]
    rfl

/-- The search finds the match at the leftmost place where there is one. It starts anew at every
    place, so a line is decided by two facts: that the pattern matches here, and that it matches
    nowhere in front. What is proved of lines uses the search through these two. -/
theorem search_eq_some_iff {p : Pattern} {s : List Char} {g : Groups} :
    p.search s = some g ↔
      ∃ i, p.atStart (s.drop i) = some g ∧ ∀ j < i, p.atStart (s.drop j) = none := by
  induction s with
  | nil =>
    constructor
    · intro h
      exact ⟨0, h, fun j hj => absurd hj (Nat.not_lt_zero j)⟩
    · rintro ⟨i, h, _⟩
      rw [List.drop_nil] at h
      exact h
  | cons c s ih =>
    rw [search_cons]
    -- A match at the first place is what both sides speak of.
    cases hhere : p.atStart (c :: s) with
    | some found =>
      constructor
      · intro h
        exact ⟨0, hhere.trans h, fun j hj => absurd hj (Nat.not_lt_zero j)⟩
      · rintro ⟨i, h, hnone⟩
        cases i with
        | zero => exact hhere.symm.trans h
        | succ i =>
          have hfirst := hnone 0 (Nat.succ_pos i)
          rw [List.drop_zero, hhere] at hfirst
          cases hfirst
    | none =>
      change p.search s = some g ↔ _
      rw [ih]
      -- Without one, every place is one further on.
      constructor
      · rintro ⟨i, h, hnone⟩
        refine ⟨i + 1, h, fun j hj => ?_⟩
        cases j with
        | zero => exact hhere
        | succ j => exact hnone j (Nat.lt_of_succ_lt_succ hj)
      · rintro ⟨i, h, hnone⟩
        cases i with
        | zero =>
          rw [List.drop_zero, hhere] at h
          cases h
        | succ i => exact ⟨i, h, fun j hj => hnone (j + 1) (Nat.succ_lt_succ hj)⟩

/-- A match does not begin where the character that opens it is missing. -/
theorem search_skip {c : Char} {p : Pattern} (hp : OpensWith c p) {skipped : List Char}
    (hskipped : c ∉ skipped) (rest : List Char) :
    p.search (skipped ++ rest) = p.search rest := by
  induction skipped with
  | nil => rfl
  | cons d skipped ih =>
    rw [List.mem_cons, not_or] at hskipped
    have hnone : p.atStart (d :: (skipped ++ rest)) = none :=
      hp _ _ fun h => hskipped.1 (Option.some.inj h).symm
    rw [List.cons_append, search_cons, hnone]
    exact ih hskipped.2

/-- One or more characters of a class match a text of that class that is not empty. -/
theorem derives_some1 {cls : Char → Bool} {piece : List Char} (hpiece : piece ≠ [])
    (hall : ∀ c ∈ piece, cls c = true) (rest : List Char) :
    (some1 cls).Derives piece rest [] := by
  cases piece with
  | nil => exact absurd rfl hpiece
  | cons c piece =>
    rw [List.forall_mem_cons] at hall
    exact ⟨[c], piece, [], [], rfl, rfl, ⟨⟨c, hall.1, rfl⟩, rfl⟩, hall.2, rfl⟩

/-- What one or more characters of a class match: such a text and nothing else. -/
theorem derives_some1_iff {cls : Char → Bool} {piece rest : List Char} {g : Groups} :
    (some1 cls).Derives piece rest g ↔
      piece ≠ [] ∧ (∀ c ∈ piece, cls c = true) ∧ g = [] := by
  constructor
  · rintro ⟨left, right, _, _, rfl, rfl, ⟨⟨d, hd, rfl⟩, rfl⟩, hright, rfl⟩
    refine ⟨List.cons_ne_nil d right, ?_, rfl⟩
    intro c hc
    rcases List.mem_cons.mp hc with rfl | hc
    · exact hd
    · exact hright c hc
  · rintro ⟨hpiece, hall, rfl⟩
    exact derives_some1 hpiece hall rest

/-- Every character that the pattern can match has the property. -/
def HoldsOnly (good : Char → Prop) : Pattern → Prop
  | text t => ∀ c ∈ t, good c
  | one cls => ∀ c, cls c = true → good c
  | run _ cls => ∀ c, cls c = true → good c
  | seq p q => p.HoldsOnly good ∧ q.HoldsOnly good
  | either p q => p.HoldsOnly good ∧ q.HoldsOnly good
  | optional p => p.HoldsOnly good
  | group _ p => p.HoldsOnly good
  | atEnd => True

/-- A match consists of the characters that the pattern can match. Where a line has a character
    that the pattern does not know, the match has to lie on one side of it. -/
theorem Derives.forall_mem {good : Char → Prop} {p : Pattern} {piece rest : List Char}
    {g : Groups} (h : p.Derives piece rest g) (hp : p.HoldsOnly good) : ∀ c ∈ piece, good c := by
  induction p generalizing piece rest g with
  | text t =>
    rw [h.1]
    exact hp
  | one cls =>
    rcases h.1 with ⟨c, hc, rfl⟩
    rw [List.forall_mem_singleton]
    exact hp c hc
  | run longest cls => exact fun c hc => hp c (h.1 c hc)
  -- A sequence holds what its parts hold.
  | seq p q ihp ihq =>
    rcases h with ⟨left, right, _, _, rfl, _, hleft, hright⟩
    rw [List.forall_mem_append]
    exact ⟨ihp hleft hp.1, ihq hright hp.2⟩
  | either p q ihp ihq =>
    rcases h with h | h
    · exact ihp h hp.1
    · exact ihq h hp.2
  | optional p ih =>
    rcases h with h | ⟨rfl, _⟩
    · exact ih h hp
    · exact List.forall_mem_nil _
  | group i p ih =>
    rcases h with ⟨inner, _, h⟩
    exact ih h hp
  | atEnd =>
    rw [h.1]
    exact List.forall_mem_nil _

end Pattern

end AccelMonitor

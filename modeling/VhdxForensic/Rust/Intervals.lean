import Mathlib

/-!
# Overlapping ranges

A half-open range is the pair of its ends. A scan sorts ranges by their starts
and compares neighbours. The order of ranges with one start is open. Ranges
may be empty, so a scan can miss an overlap and can report one that is none.
-/

namespace Rust
namespace Intervals

/-- The ranges share a number. -/
def Meets (a b : Nat × Nat) : Prop :=
  ∃ number, (a.1 ≤ number ∧ number < a.2) ∧ b.1 ≤ number ∧ number < b.2

/-- Two different ranges of a list share a number. -/
def Meeting (items : List (Nat × Nat)) : Prop :=
  ∃ (i j : Nat) (a b : Nat × Nat),
    i ≠ j ∧ items[i]? = some a ∧ items[j]? = some b ∧ Meets a b

/-- The comparison of neighbours. -/
def Flagged (a b : Nat × Nat) : Prop := b.1 < a.2 ∧ a.1 < b.2

instance (a b : Nat × Nat) : Decidable (Flagged a b) :=
  inferInstanceAs (Decidable (_ ∧ _))

/-- No two neighbours are flagged. -/
def Quiet (items : List (Nat × Nat)) : Prop :=
  items.IsChain fun a b => ¬ Flagged a b

instance (items : List (Nat × Nat)) : Decidable (Quiet items) :=
  inferInstanceAs (Decidable (items.IsChain _))

/-- An order that the sort may leave. -/
structure Arranges (sorted items : List (Nat × Nat)) : Prop where
  /-- The list has the same items. -/
  perm : sorted.Perm items
  /-- Their starts do not go back. -/
  ordered : sorted.Pairwise fun a b => a.1 ≤ b.1

/-- The ranges with some number that begin at `start`. -/
def fullAt (items : List (Nat × Nat)) (start : Nat) : List (Nat × Nat) :=
  items.filter fun a => a.1 = start ∧ start < a.2

/-- The empty ranges at `start`. -/
def emptyAt (items : List (Nat × Nat)) (start : Nat) : List (Nat × Nat) :=
  items.filter fun a => a.1 = start ∧ a.2 ≤ start

/-- The empty ranges at `start` do not keep the others apart from each other
and from the next range. -/
def Crowded (items : List (Nat × Nat)) (start : Nat) : Prop :=
  (emptyAt items start).length + 2 ≤ (fullAt items start).length ∨
    (emptyAt items start).length + 1 = (fullAt items start).length ∧
      ∀ a ∈ fullAt items start, ∃ b ∈ items, start < b.1 ∧ b.1 < a.2

instance (items : List (Nat × Nat)) (start : Nat) :
    Decidable (Crowded items start) :=
  inferInstanceAs (Decidable (_ ∨ _))

/-- An empty range stands strictly inside of another range. -/
def EmptyInside (items : List (Nat × Nat)) : Prop :=
  ∃ a ∈ items, ∃ b ∈ items, a.1 < b.1 ∧ b.1 < a.2 ∧ b.2 = b.1

/-! ## Meeting ranges -/

section Meeting

variable {a b : Nat × Nat} {items others : List (Nat × Nat)}

/-- Intervals meet if the later start lies before the earlier end. -/
theorem meets_iff : Meets a b ↔ max a.1 b.1 < min a.2 b.2 := by
  constructor
  · rintro ⟨number, inFirst, inSecond⟩
    omega
  · intro less
    exact ⟨max a.1 b.1, by omega, by omega⟩

instance : Decidable (Meets a b) := decidable_of_iff _ meets_iff.symm

/-- Meeting is mutual. -/
theorem Meets.symm (meets : Meets a b) : Meets b a :=
  meets.imp fun _ => And.symm

/-- No two intervals meet exactly if no pair of the list does. -/
theorem not_meeting_iff :
    ¬ Meeting items ↔ items.Pairwise fun a b => ¬ Meets a b := by
  rw [List.pairwise_iff_getElem]
  constructor
  · intro apart i j iLt jLt less meets
    exact apart ⟨i, j, items[i], items[j], less.ne,
      List.getElem?_eq_getElem iLt, List.getElem?_eq_getElem jLt, meets⟩
  · rintro apart ⟨i, j, a, b, differ, atI, atJ, meets⟩
    obtain ⟨iLt, rfl⟩ := List.getElem?_eq_some_iff.mp atI
    obtain ⟨jLt, rfl⟩ := List.getElem?_eq_some_iff.mp atJ
    rcases differ.lt_or_gt with less | greater
    · exact apart i j iLt jLt less meets
    · exact apart j i jLt iLt greater meets.symm

/-- Meeting does not depend on the order. -/
theorem meeting_perm (perm : items.Perm others) :
    Meeting items ↔ Meeting others := by
  rw [← not_iff_not, not_meeting_iff, not_meeting_iff]
  exact perm.pairwise_iff fun apart meets => apart meets.symm

end Meeting

/-! ## Items of two kinds in a row -/

section Alternation

variable {α : Type} {p : α → Prop} [DecidablePred p]

/-- Where no two items of the kind are neighbours, the other items are almost
as many, and as many if the last item is one of them. -/
theorem length_filter_le_of_isChain {items : List α}
    (apart : items.IsChain fun a b => ¬ (p a ∧ p b)) :
    (items.filter p).length ≤ (items.filter fun a => ¬ p a).length + 1 ∧
      ((∀ a ∈ items.getLast?, ¬ p a) →
        (items.filter p).length ≤ (items.filter fun a => ¬ p a).length) := by
  simp only [decide_not]
  induction items using List.reverseRecOn with
  | nil => simp
  | append_singleton items last inductionHypothesis =>
      obtain ⟨front, -, border⟩ := List.isChain_append.mp apart
      obtain ⟨almost, asMany⟩ := inductionHypothesis front
      by_cases lastHas : p last
      · -- The item before the last one is of the other kind.
        have balanced := asMany fun a aLast aHas =>
          border a aLast last (by simp) ⟨aHas, lastHas⟩
        simp only [List.filter_append, List.length_append]
        simp [lastHas]
        omega
      · simp only [List.filter_append, List.length_append]
        simp [lastHas]
        omega

omit [DecidablePred p] in
/-- Items of the kind can be kept apart by as many others, with one of these
at the end. -/
theorem exists_alternation {members others : List α}
    (othersLack : ∀ a ∈ others, ¬ p a)
    (enough : members.length ≤ others.length) :
    ∃ items : List α, items.Perm (members ++ others) ∧
      items.IsChain (fun a b => ¬ (p a ∧ p b)) ∧
      ∀ a ∈ items.getLast?, ¬ p a := by
  induction members generalizing others with
  | nil =>
      refine ⟨others, by simp, ?_, fun a aLast =>
        othersLack a (List.mem_of_getLast? aLast)⟩
      have apart : others.Pairwise fun a b => ¬ (p a ∧ p b) :=
        List.pairwise_of_forall_mem_list fun a aMember b _ both =>
          othersLack a aMember both.1
      exact apart.isChain
  | cons member members inductionHypothesis =>
      cases others with
      | nil => simp at enough
      | cons other others =>
          obtain ⟨items, perm, apart, ends⟩ := @inductionHypothesis others
            (fun a aMember => othersLack a (List.mem_cons_of_mem _ aMember))
            (by simpa using enough)
          have otherLacks := othersLack other List.mem_cons_self
          refine ⟨member :: other :: items, ?_, ?_, ?_⟩
          · exact ((perm.cons other).trans List.perm_middle.symm).cons member
          · refine List.isChain_cons_cons.mpr
              ⟨fun both => otherLacks both.2, apart.cons fun a _ both =>
                otherLacks both.1⟩
          · intro a aLast
            cases items with
            | nil =>
                obtain rfl : other = a := by simpa using aLast
                exact otherLacks
            | cons first rest =>
                exact ends a (by simpa using aLast)

end Alternation

/-! ## Arrangements -/

section Arrangements

variable {items sorted : List (Nat × Nat)} {start : Nat}

/-- A predicate that holds of a first part only splits a list. -/
theorem filter_append_filter_not {α : Type} {p : α → Prop} [DecidablePred p]
    {items : List α} (downward : items.Pairwise fun a b => p b → p a) :
    items.filter p ++ items.filter (fun a => ¬ p a) = items := by
  induction items with
  | nil => rfl
  | cons first rest inductionHypothesis =>
      obtain ⟨below, restDownward⟩ := List.pairwise_cons.mp downward
      by_cases firstHas : p first
      · rw [List.filter_cons_of_pos (by simpa using firstHas),
          List.filter_cons_of_neg (by simpa using firstHas),
          List.cons_append, inductionHypothesis restDownward]
      · have none : rest.filter p = [] := by
          refine List.filter_eq_nil_iff.mpr fun a aMember aHas => ?_
          exact firstHas (below a aMember (by simpa using aHas))
        have all : rest.filter (fun a => ¬ p a) = rest := by
          refine List.filter_eq_self.mpr fun a aMember => ?_
          simpa using fun aHas => firstHas (below a aMember aHas)
        rw [List.filter_cons_of_neg (by simpa using firstHas), none,
          List.filter_cons_of_pos (by simpa using firstHas), all,
          List.nil_append]

/-- The ranges that begin at `start`. -/
def startingAt (items : List (Nat × Nat)) (start : Nat) : List (Nat × Nat) :=
  items.filter fun a => a.1 = start

theorem filter_startingAt_full :
    (startingAt items start).filter (fun a => start < a.2) =
      fullAt items start := by
  rw [startingAt, List.filter_filter, fullAt]
  exact List.filter_congr fun a _ => by simp [Bool.and_comm]

theorem filter_startingAt_empty :
    (startingAt items start).filter (fun a => ¬ start < a.2) =
      emptyAt items start := by
  rw [startingAt, List.filter_filter, emptyAt]
  exact List.filter_congr fun a _ => by simp [Bool.and_comm]

/-- Sorted ranges are the earlier ones, the ones that begin at `start` and the
later ones, in this order. -/
theorem append_startingAt (ordered : sorted.Pairwise fun a b => a.1 ≤ b.1) :
    sorted.filter (fun a => a.1 < start) ++
        (startingAt sorted start ++ sorted.filter fun a => start < a.1) =
      sorted := by
  have upperOrdered := ordered.filter fun a => ¬ a.1 < start
  have upper : (sorted.filter fun a => ¬ a.1 < start).Pairwise
      fun a b => b.1 = start → a.1 = start := by
    refine upperOrdered.imp_of_mem fun {a b} aMember _ le bAt => ?_
    have aLe : ¬ a.1 < start := by simpa using (List.mem_filter.mp aMember).2
    omega
  have equal : (sorted.filter fun a => ¬ a.1 < start).filter
      (fun a => a.1 = start) = startingAt sorted start := by
    rw [List.filter_filter]
    refine List.filter_congr fun a _ => ?_
    rw [← Bool.decide_and]
    exact decide_eq_decide.mpr (by omega)
  have later : (sorted.filter fun a => ¬ a.1 < start).filter
      (fun a => ¬ a.1 = start) = sorted.filter fun a => start < a.1 := by
    rw [List.filter_filter]
    refine List.filter_congr fun a _ => ?_
    rw [← Bool.decide_and]
    exact decide_eq_decide.mpr (by omega)
  rw [← equal, ← later, filter_append_filter_not upper]
  exact filter_append_filter_not
    (ordered.imp fun {a b} le bLess => by omega)

end Arrangements

/-! ## Flagged neighbours -/

section Flags

variable {items sorted : List (Nat × Nat)} {start : Nat}

/-- Crowding does not depend on the order. -/
theorem crowded_perm (perm : sorted.Perm items) :
    Crowded sorted start ↔ Crowded items start := by
  have full := (perm.filter fun a => a.1 = start ∧ start < a.2)
  have empty := (perm.filter fun a => a.1 = start ∧ a.2 ≤ start)
  unfold Crowded fullAt emptyAt
  simp only [full.length_eq, empty.length_eq, full.mem_iff, perm.mem_iff]

/-- Ranges with one start that keep the nonempty ones apart are quiet. -/
theorem quiet_of_apart {group : List (Nat × Nat)}
    (starts : ∀ a ∈ group, a.1 = start)
    (apart : group.IsChain fun a b => ¬ (start < a.2 ∧ start < b.2)) :
    Quiet group := by
  refine apart.imp_of_mem_imp fun a b aMember bMember apart flagged => ?_
  have aStart := starts a aMember
  have bStart := starts b bMember
  exact apart ⟨bStart ▸ flagged.1, aStart ▸ flagged.2⟩

/-- In a quiet group no two neighbours are nonempty. -/
theorem apart_of_quiet {group : List (Nat × Nat)}
    (starts : ∀ a ∈ group, a.1 = start) (quiet : Quiet group) :
    group.IsChain fun a b => ¬ (start < a.2 ∧ start < b.2) := by
  refine quiet.imp_of_mem_imp fun a b aMember bMember quiet both => ?_
  have aStart := starts a aMember
  have bStart := starts b bMember
  exact quiet ⟨bStart ▸ both.1, aStart ▸ both.2⟩

theorem startingAt_starts : ∀ a ∈ startingAt items start, a.1 = start :=
  fun a aMember => by simpa using (List.mem_filter.mp aMember).2

/-- The last range at `start` is flagged with the next one if it reaches the
start of any later range. -/
theorem not_quiet_of_reaches (proper : ∀ a ∈ sorted, a.1 ≤ a.2)
    (ordered : sorted.Pairwise fun a b => a.1 ≤ b.1) {a b : Nat × Nat}
    (aLast : a ∈ (startingAt sorted start).getLast?) (bMember : b ∈ sorted)
    (bLater : start < b.1) (reaches : b.1 < a.2) : ¬ Quiet sorted := by
  intro quiet
  have aStart := startingAt_starts a (List.mem_of_getLast? aLast)
  rw [Quiet, ← @append_startingAt sorted start ordered] at quiet
  obtain ⟨-, -, border⟩ := List.isChain_append.mp quiet.right_of_append
  have bIn : b ∈ sorted.filter fun a => start < a.1 :=
    List.mem_filter.mpr ⟨bMember, by simpa using bLater⟩
  have laterOrdered := ordered.filter fun a => start < a.1
  cases laterList : sorted.filter fun a => start < a.1 with
  | nil =>
      rw [laterList] at bIn
      cases bIn
  | cons next rest =>
      have nextMember : next ∈ sorted.filter fun a => start < a.1 := by
        rw [laterList]
        exact List.mem_cons_self
      obtain ⟨nextIn, nextLater⟩ := List.mem_filter.mp nextMember
      have nextStart : start < next.1 := by simpa using nextLater
      have nextProper := proper next nextIn
      have nextLe : next.1 ≤ b.1 := by
        rw [laterList] at bIn laterOrdered
        rcases List.mem_cons.mp bIn with rfl | inRest
        · exact le_rfl
        · exact (List.pairwise_cons.mp laterOrdered).1 b inRest
      exact border a aLast next (by simp [laterList]) ⟨by omega, by omega⟩

/-- Crowded ranges are flagged in every order. -/
theorem Crowded.not_quiet (proper : ∀ a ∈ items, a.1 ≤ a.2)
    (crowded : Crowded items start) (arranges : Arranges sorted items) :
    ¬ Quiet sorted := by
  intro quiet
  obtain ⟨perm, ordered⟩ := arranges
  have sortedProper : ∀ a ∈ sorted, a.1 ≤ a.2 :=
    fun a aMember => proper a (perm.mem_iff.mp aMember)
  replace crowded := (crowded_perm perm).mpr crowded
  have groupQuiet : Quiet (startingAt sorted start) := by
    rw [Quiet, ← @append_startingAt sorted start ordered] at quiet
    exact quiet.right_of_append.left_of_append
  obtain ⟨almost, asMany⟩ := length_filter_le_of_isChain
    (apart_of_quiet startingAt_starts groupQuiet)
  rw [filter_startingAt_full, filter_startingAt_empty] at almost asMany
  rcases crowded with many | ⟨odd, met⟩
  · omega
  -- There is one nonempty range more, so one of these comes last.
  have last : ∃ a ∈ (startingAt sorted start).getLast?, start < a.2 := by
    by_contra none
    push Not at none
    have balanced := asMany fun a aLast => (none a aLast).not_gt
    omega
  obtain ⟨a, aLast, aFull⟩ := last
  obtain ⟨b, bMember, bLater, reaches⟩ := met a (by
    rw [← filter_startingAt_full]
    exact List.mem_filter.mpr
      ⟨List.mem_of_getLast? aLast, by simpa using aFull⟩)
  exact not_quiet_of_reaches sortedProper ordered aLast bMember bLater
    reaches quiet

/-- A group consists of its nonempty and its empty intervals. -/
theorem startingAt_perm :
    (fullAt items start ++ emptyAt items start).Perm
      (startingAt items start) := by
  rw [← filter_startingAt_full, ← filter_startingAt_empty]
  have perm := List.filter_append_perm (fun a => decide (start < a.2))
    (startingAt items start)
  simpa only [decide_not] using perm

/-- Uncrowded ranges at `start` have a quiet order, and the last one ends
before the next range. -/
theorem exists_quiet_group (spaced : ¬ Crowded items start) :
    ∃ group : List (Nat × Nat), group.Perm (startingAt items start) ∧
      Quiet group ∧ ∀ a ∈ group.getLast?, start < a.2 →
        ∀ b ∈ items, start < b.1 → a.2 ≤ b.1 := by
  have lacks : ∀ a ∈ emptyAt items start, ¬ start < a.2 := by
    intro a aMember
    have := (List.mem_filter.mp aMember).2
    simp only [decide_eq_true_eq] at this
    omega
  by_cases enough :
      (fullAt items start).length ≤ (emptyAt items start).length
  · obtain ⟨group, perm, apart, ends⟩ := exists_alternation lacks enough
    have permGroup := perm.trans startingAt_perm
    refine ⟨group, permGroup, quiet_of_apart (fun a aMember =>
      startingAt_starts a (permGroup.mem_iff.mp aMember)) apart, ?_⟩
    intro a aLast aFull
    exact absurd aFull (ends a aLast)
  -- One nonempty range more: a short one of them comes last.
  have odd : (emptyAt items start).length + 1 =
      (fullAt items start).length := by
    have few : ¬ (emptyAt items start).length + 2 ≤
      (fullAt items start).length := fun many => spaced (Or.inl many)
    omega
  have short : ∃ a ∈ fullAt items start,
      ∀ b ∈ items, start < b.1 → a.2 ≤ b.1 := by
    by_contra none
    push Not at none
    exact spaced (Or.inr ⟨odd, none⟩)
  obtain ⟨last, lastMember, lastShort⟩ := short
  have fullPerm := List.perm_cons_erase lastMember
  obtain ⟨front, perm, apart, ends⟩ := @exists_alternation _ _
    ((fullAt items start).erase last) _ lacks (by
      have := fullPerm.length_eq
      rw [List.length_cons] at this
      omega)
  have permGroup : (front ++ [last]).Perm (startingAt items start) := by
    refine (List.perm_append_singleton last front).trans ?_
    refine ((perm.cons last).trans ?_).trans startingAt_perm
    exact fullPerm.symm.append_right _
  refine ⟨front ++ [last], permGroup, quiet_of_apart (fun a aMember =>
    startingAt_starts a (permGroup.mem_iff.mp aMember)) ?_, ?_⟩
  · refine List.isChain_append.mpr ⟨apart, List.isChain_singleton _, ?_⟩
    intro a aLast b _ both
    exact ends a aLast both.1
  · intro a aLast _
    obtain rfl : last = a := by simpa using aLast
    exact lastShort

/-- Where the later ones of the ranges are crowded, all are. -/
theorem Crowded.of_later {bound : Nat}
    (crowded : Crowded (items.filter fun a => bound < a.1) start) :
    Crowded items start := by
  have later : bound < start := by
    by_contra notLater
    have none : fullAt (items.filter fun a => bound < a.1) start = [] := by
      refine List.filter_eq_nil_iff.mpr fun a aMember => ?_
      have aLater : bound < a.1 := by
        simpa using (List.mem_filter.mp aMember).2
      simp only [decide_eq_true_eq]
      omega
    unfold Crowded at crowded
    rw [none, List.length_nil] at crowded
    omega
  have full : fullAt (items.filter fun a => bound < a.1) start =
      fullAt items start := by
    rw [fullAt, List.filter_filter]
    refine List.filter_congr fun a _ => ?_
    rw [← Bool.decide_and]
    exact decide_eq_decide.mpr (by omega)
  have empty : emptyAt (items.filter fun a => bound < a.1) start =
      emptyAt items start := by
    rw [emptyAt, List.filter_filter]
    refine List.filter_congr fun a _ => ?_
    rw [← Bool.decide_and]
    exact decide_eq_decide.mpr (by omega)
  rw [Crowded, full, empty] at crowded
  refine crowded.imp_right fun ⟨odd, met⟩ => ⟨odd, fun a aMember => ?_⟩
  obtain ⟨b, bMember, bound⟩ := met a aMember
  exact ⟨b, (List.mem_filter.mp bMember).1, bound⟩

/-- Ranges that are crowded nowhere have a quiet order. -/
theorem exists_quiet_arrangement (proper : ∀ a ∈ items, a.1 ≤ a.2)
    (spaced : ∀ start, ¬ Crowded items start) :
    ∃ sorted, Arranges sorted items ∧ Quiet sorted := by
  induction total : items.length using Nat.strong_induction_on
    generalizing items with
  | _ size inductionHypothesis =>
  by_cases none : items = []
  · subst none
    exact ⟨[], ⟨List.Perm.nil, List.Pairwise.nil⟩, List.isChain_nil⟩
  -- The ranges with the least start come first.
  obtain ⟨first, firstMember, least⟩ := items.toFinset.exists_min_image
    Prod.fst (by simpa using none)
  rw [List.mem_toFinset] at firstMember
  replace least : ∀ a ∈ items, first.1 ≤ a.1 :=
    fun a aMember => least a (List.mem_toFinset.mpr aMember)
  obtain ⟨group, groupPerm, groupQuiet, groupEnds⟩ :=
    exists_quiet_group (spaced first.1)
  let later := items.filter fun a => first.1 < a.1
  have laterIn : ∀ a ∈ later, a ∈ items ∧ first.1 < a.1 := by
    intro a aMember
    simpa using List.mem_filter.mp aMember
  have whole : (startingAt items first.1 ++ later).Perm items := by
    have perm := List.filter_append_perm
      (fun a : Nat × Nat => decide (a.1 = first.1)) items
    have rest : later = items.filter fun a => !decide (a.1 = first.1) := by
      refine List.filter_congr fun a aMember => ?_
      have aLe := least a aMember
      rw [← decide_not]
      exact decide_eq_decide.mpr (by omega)
    rwa [← rest] at perm
  have groupLength : 0 < (startingAt items first.1).length :=
    List.length_pos_of_mem
      (List.mem_filter.mpr ⟨firstMember, by simp⟩)
  have laterLength : later.length < size := by
    have lengths := whole.length_eq
    rw [List.length_append] at lengths
    omega
  have laterSpaced : ∀ start, ¬ Crowded later start :=
    fun start crowded => spaced start crowded.of_later
  obtain ⟨rest, ⟨restPerm, restOrdered⟩, restQuiet⟩ :=
    @inductionHypothesis later.length laterLength later
      (fun a aMember => proper a (laterIn a aMember).1) laterSpaced rfl
  have groupStarts : ∀ a ∈ group, a.1 = first.1 := fun a aMember =>
    startingAt_starts a (groupPerm.mem_iff.mp aMember)
  have restIn : ∀ a ∈ rest, a ∈ items ∧ first.1 < a.1 := fun a aMember =>
    laterIn a (restPerm.mem_iff.mp aMember)
  refine ⟨group ++ rest, ⟨(groupPerm.append restPerm).trans whole, ?_⟩, ?_⟩
  · refine List.pairwise_append.mpr ⟨?_, restOrdered, ?_⟩
    · refine List.pairwise_of_forall_mem_list fun a aMember b bMember => ?_
      rw [groupStarts a aMember, groupStarts b bMember]
    · intro a aMember b bMember
      rw [groupStarts a aMember]
      exact (restIn b bMember).2.le
  · refine List.isChain_append.mpr ⟨groupQuiet, restQuiet, ?_⟩
    intro a aLast b bFirst flagged
    obtain ⟨bIn, bLater⟩ := restIn b (List.mem_of_head? bFirst)
    have ends := groupEnds a aLast
    have reaches := flagged.1
    exact absurd (ends (bLater.trans reaches) b bIn bLater) (by omega)

/-- An empty range inside another one is flagged in some order. -/
theorem EmptyInside.exists_not_quiet (proper : ∀ a ∈ items, a.1 ≤ a.2)
    (inside : EmptyInside items) :
    ∃ sorted, Arranges sorted items ∧ ¬ Quiet sorted := by
  obtain ⟨a, aMember, b, bMember, after, before, -⟩ := inside
  -- The longest one of the ranges with one start comes last.
  let sorted := items.mergeSort fun a b => decide (toLex a ≤ toLex b)
  have perm : sorted.Perm items := List.mergeSort_perm items _
  have lex : sorted.Pairwise fun a b => a.1 < b.1 ∨ a.1 = b.1 ∧ a.2 ≤ b.2 := by
    have pairwise := @List.pairwise_mergeSort (Nat × Nat)
      (fun a b => decide (toLex a ≤ toLex b))
      (fun a b c => by simpa using le_trans)
      (fun a b => by simpa using le_total _ _) items
    exact pairwise.imp fun le => Prod.Lex.toLex_le_toLex.mp (by simpa using le)
  have ordered : sorted.Pairwise fun a b => a.1 ≤ b.1 :=
    lex.imp fun le => le.elim (fun less => less.le) fun both => both.1.le
  refine ⟨sorted, ⟨perm, ordered⟩, ?_⟩
  have aIn : a ∈ startingAt sorted a.1 :=
    List.mem_filter.mpr ⟨perm.mem_iff.mpr aMember, by simp⟩
  obtain ⟨front, last, group⟩ :=
    List.eq_nil_or_concat (startingAt sorted a.1) |>.resolve_left
      (List.ne_nil_of_mem aIn)
  rw [List.concat_eq_append] at group
  have longest : a.2 ≤ last.2 := by
    have groupLex := lex.filter fun b => b.1 = a.1
    rw [show sorted.filter (fun b => b.1 = a.1) = front ++ [last] from group]
      at groupLex
    rw [group] at aIn
    rcases List.mem_append.mp aIn with inFront | isLast
    · have lastStart := startingAt_starts last (by
        rw [group]
        simp)
      have le := (List.pairwise_append.mp groupLex).2.2 a inFront last (by simp)
      omega
    · rw [List.mem_singleton.mp isLast]
  exact not_quiet_of_reaches (fun b bIn => proper b (perm.mem_iff.mp bIn))
    ordered (by simp [group]) (perm.mem_iff.mpr bMember) after
    (before.trans_le longest)

/-- Without an overlap, only empty ranges inside of others are flagged. -/
theorem emptyInside_of_not_quiet (proper : ∀ a ∈ items, a.1 ≤ a.2)
    (arranges : Arranges sorted items) (apart : ¬ Meeting items)
    (flagged : ¬ Quiet sorted) : EmptyInside items := by
  obtain ⟨perm, ordered⟩ := arranges
  rw [← meeting_perm perm, not_meeting_iff] at apart
  rw [Quiet, List.isChain_iff_forall_rel_of_append_cons_cons] at flagged
  push Not at flagged
  obtain ⟨a, b, before, after, split, aReaches, bReaches⟩ := flagged
  have neighbours : [a, b].Sublist sorted := by
    rw [split]
    exact ((List.nil_sublist after).cons_cons b |>.cons_cons a).trans
      (List.sublist_append_right _ _)
  have apartPair := List.pairwise_iff_forall_sublist.mp apart neighbours
  have le := List.pairwise_iff_forall_sublist.mp ordered neighbours
  have aMember := perm.mem_iff.mp (neighbours.subset (by simp : a ∈ [a, b]))
  have bMember := perm.mem_iff.mp (neighbours.subset (by simp : b ∈ [a, b]))
  have bProper := proper b bMember
  rw [meets_iff] at apartPair
  exact ⟨a, aMember, b, bMember, by omega, aReaches, by omega⟩

/-- The comparison of neighbours finds exactly the overlaps, in whatever order
the sort leaves the ranges. -/
def Exact (items : List (Nat × Nat)) : Prop :=
  ∀ sorted, Arranges sorted items → (¬ Quiet sorted ↔ Meeting items)

/-- When the comparison of neighbours is exact. -/
theorem exact_iff (proper : ∀ a ∈ items, a.1 ≤ a.2) :
    Exact items ↔ (Meeting items → ∃ start, Crowded items start) ∧
      (¬ Meeting items → ¬ EmptyInside items) := by
  constructor
  · refine fun exact => ⟨fun meeting => ?_, fun apart inside => ?_⟩
    · by_contra spaced
      obtain ⟨sorted, arranges, quiet⟩ := exists_quiet_arrangement proper
        (not_exists.mp spaced)
      exact (exact sorted arranges).mpr meeting quiet
    · obtain ⟨sorted, arranges, flagged⟩ := inside.exists_not_quiet proper
      exact apart ((exact sorted arranges).mp flagged)
  · rintro ⟨found, genuine⟩ sorted arranges
    refine ⟨fun flagged => ?_, fun meeting => ?_⟩
    · by_contra apart
      exact genuine apart
        (emptyInside_of_not_quiet proper arranges apart flagged)
    · obtain ⟨start, crowded⟩ := found meeting
      exact crowded.not_quiet proper arranges

end Flags

end Intervals
end Rust

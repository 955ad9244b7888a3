import VhdxForensic.Forensic.AuditedImage
import Mathlib.Order.Bounds.Basic

/-!
# Data behind the disk

The analyser takes the largest end of the blocks that the table maps for the
end of the disk and reports bytes behind it. The end is compared with the one
that counts every entry with the state and the length it has for the reader.
-/

namespace VhdxForensic

open Rust Rust.Bytes Rust.Exec

/-- One pass over the table. -/
def trailingStep (data : Bytes) (r : ParsedRegions) (blockSize : Nat)
    (i maxEnd : Nat) : Audit (ForInStep Nat) := do
  let ep ← batEntryPos r.batOffset i
  let entryEnd ← add ep 8
  if entryEnd > data.length then return .done maxEnd
  else
    let raw := leU64 data ep
    if raw &&& 0b111 ≠ Bat.payloadBlockFullyPresent then return .yield maxEnd
    else
      let fileOffset ← mul (raw >>> 20) mb
      let blockEnd := saturatingAdd fileOffset blockSize
      if blockEnd ≤ data.length ∧ blockEnd > maxEnd then
        return .yield blockEnd
      else return .yield maxEnd

/-- `checked_next_multiple_of` for a divisor that is not zero. -/
def checkedNextMultipleOf (a b : Nat) : Option Nat :=
  if a % b = 0 then some a else checkedAdd a (b - a % b)

/-- End of the table in whole MiB. -/
def tableEnd (r : ParsedRegions) : Nat :=
  (checkedNextMultipleOf (saturatingAdd r.batOffset r.batLength) mb).getD
    (wordCount - 1)

def checkTrailingDataInner (data : Bytes) (regions : Option ParsedRegions) :
    Audit Findings :=
  match regions with
  | none => return []
  | some r =>
      match r.blockSize with
      | none => return []
      | some blockSize =>
          if blockSize > 0 then do
            let entryCount := r.batLength / 8
            let containerSize := data.length
            let maxEnd ← forRange entryCount (trailingStep data r blockSize) 0
            let maxEnd := if maxEnd = 0 then tableEnd r else maxEnd
            if containerSize > maxEnd then
              let tail ← slice data maxEnd data.length
              if anyNonzero tail then
                return [.trailingData maxEnd (containerSize - maxEnd)]
              else return []
            else return []
          else return []

/-- Detect trailing non-zero data. -/
def checkTrailingData (data : Bytes) : Audit Findings := do
  let regions ← attempt (parseRegions data)
  checkTrailingDataInner data regions.toOption

/-! ## The end that the check computes -/

/-- `e` is the greatest of `ends`, or the default if there is none. -/
def LastEnd (ends : Set Nat) (default e : Nat) : Prop :=
  IsGreatest ends e ∨ ends = ∅ ∧ e = default

theorem LastEnd.unique {ends : Set Nat} {default e e' : Nat}
    (left : LastEnd ends default e) (right : LastEnd ends default e') :
    e = e' := by
  rcases left with greatest | ⟨empty, rfl⟩
  · rcases right with greatest' | ⟨empty, -⟩
    · exact greatest.unique greatest'
    · rw [empty] at greatest
      exact greatest.1.elim
  · rcases right with greatest' | ⟨-, rfl⟩
    · rw [empty] at greatest'
      exact greatest'.1.elim
    · rfl

/-- Another end is the last one if it is larger. -/
theorem LastEnd.insert {ends : Set Nat} {e : Nat} (last : LastEnd ends 0 e)
    (other : Nat) : LastEnd (insert other ends) 0 (max e other) := by
  left
  rcases last with greatest | ⟨rfl, rfl⟩
  · rw [max_comm]
    exact greatest.insert other
  · rw [Nat.zero_max, insert_empty_eq]
    exact isGreatest_singleton

/-- Bounded ends have a last one. -/
theorem exists_lastEnd {ends : Set Nat} {bound : Nat}
    (bounded : ∀ e ∈ ends, e ≤ bound) (default : Nat) :
    ∃ e, LastEnd ends default e := by
  rcases ends.eq_empty_or_nonempty with empty | nonempty
  · exact ⟨default, Or.inr ⟨empty, rfl⟩⟩
  · have above : BddAbove ends := ⟨bound, bounded⟩
    exact ⟨sSup ends, Or.inl ⟨Nat.sSup_mem nonempty above,
      fun e member => le_csSup above member⟩⟩

/-- Number of entries that lie inside the image. -/
def readableEntries (data : Bytes) (r : ParsedRegions) : Nat :=
  min (entryCountOf r) ((data.length - r.batOffset) / 8)

/-- The check counts the block of the entry at `i` up to `e`. -/
def CountsUpTo (data : Bytes) (r : ParsedRegions) (blockSize i e : Nat) :
    Prop :=
  Bat.stateOf (entryAt data r i) = Bat.payloadBlockFullyPresent ∧
    e = blockStart data r i + blockSize ∧ e ≤ data.length

instance (data : Bytes) (r : ParsedRegions) (blockSize i e : Nat) :
    Decidable (CountsUpTo data r blockSize i e) :=
  inferInstanceAs (Decidable (_ ∧ _ ∧ _))

/-- The ends of the blocks that the check counts among the first `count`
entries. -/
def countedEnds (data : Bytes) (r : ParsedRegions) (blockSize count : Nat) :
    Set Nat :=
  {e | ∃ i < count, CountsUpTo data r blockSize i e}

/-- The larger of the end so far and the end of the entry at `i`. -/
def largerEnd (data : Bytes) (r : ParsedRegions) (blockSize i maxEnd : Nat) :
    Nat :=
  let e := blockStart data r i + blockSize
  if CountsUpTo data r blockSize i e then max maxEnd e else maxEnd

section Loop

variable {data : Bytes} {r : ParsedRegions} {blockSize i : Nat}

theorem trailingStep_eq (allocated : data.length ≤ isizeMax)
    (within : r.batOffset + i * 8 + 8 ≤ data.length) (maxEnd : Nat) :
    trailingStep data r blockSize i maxEnd =
      .ok (.yield (largerEnd data r blockSize i maxEnd)) := by
  have word : isizeMax < wordCount - 1 := by decide
  have entryLt := entryAt_lt data r i
  have ends := @saturatingAdd_le_iff (blockStart data r i) blockSize
    data.length (by omega)
  rw [trailingStep, batEntryPos_eq (by omega), ok_bind,
    add_eq_ok (by omega), ok_bind, if_neg (by omega)]
  dsimp only
  rw [← entryAt, Bat.and_seven_eq_stateOf, largerEnd]
  by_cases mapped : Bat.stateOf (entryAt data r i) =
      Bat.payloadBlockFullyPresent
  case neg =>
    rw [if_pos mapped, if_neg fun counted => mapped counted.1]
    rfl
  rw [if_neg (not_not_intro mapped), mul_offset entryLt, ok_bind,
    ← blockStart]
  by_cases inside : blockStart data r i + blockSize ≤ data.length
  · have counted : CountsUpTo data r blockSize i
        (blockStart data r i + blockSize) := ⟨mapped, rfl, inside⟩
    rw [saturatingAdd_eq (by omega), if_pos counted]
    by_cases larger : blockStart data r i + blockSize > maxEnd
    · rw [if_pos ⟨inside, larger⟩, Nat.max_eq_right (by omega)]
      rfl
    · rw [if_neg fun both => larger both.2, Nat.max_eq_left (by omega)]
      rfl
  · rw [if_neg fun both => inside (ends.mp both.1),
      if_neg fun counted => inside counted.2.2]
    rfl

theorem trailingStep_ends
    (outside : data.length < r.batOffset + i * 8 + 8)
    (small : r.batOffset + i * 8 + 8 < wordCount) (maxEnd : Nat) :
    trailingStep data r blockSize i maxEnd = .ok (.done maxEnd) := by
  rw [trailingStep, batEntryPos_eq (by omega), ok_bind, add_eq_ok small,
    ok_bind, if_pos outside]
  rfl

theorem readableEntry_inside (iLt : i < readableEntries data r) :
    r.batOffset + i * 8 + 8 ≤ data.length := by
  unfold readableEntries at iLt
  omega

theorem countedEnds_zero : countedEnds data r blockSize 0 = ∅ := by
  ext e
  simp [countedEnds]

theorem countedEnds_succ (count : Nat) :
    countedEnds data r blockSize (count + 1) =
      if CountsUpTo data r blockSize count
          (blockStart data r count + blockSize) then
        insert (blockStart data r count + blockSize)
          (countedEnds data r blockSize count)
      else countedEnds data r blockSize count := by
  ext e
  have last : CountsUpTo data r blockSize count e ↔
      e = blockStart data r count + blockSize ∧
        CountsUpTo data r blockSize count
          (blockStart data r count + blockSize) := by
    constructor
    · rintro ⟨mapped, rfl, inside⟩
      exact ⟨rfl, mapped, rfl, inside⟩
    · rintro ⟨rfl, counted⟩
      exact counted
  have split : e ∈ countedEnds data r blockSize (count + 1) ↔
      e ∈ countedEnds data r blockSize count ∨
        CountsUpTo data r blockSize count e := by
    constructor
    · rintro ⟨i, iLt, counted⟩
      rcases Nat.lt_succ_iff_lt_or_eq.mp iLt with earlier | rfl
      · exact Or.inl ⟨i, earlier, counted⟩
      · exact Or.inr counted
    · rintro (⟨i, iLt, counted⟩ | counted)
      · exact ⟨i, by omega, counted⟩
      · exact ⟨count, by omega, counted⟩
  rw [split, last]
  split_ifs with counted
  · rw [Set.mem_insert_iff]
    tauto
  · tauto

/-- The folded end is the last of the counted ends, or zero. -/
theorem lastEnd_largerEnd (count : Nat) :
    LastEnd (countedEnds data r blockSize count) 0
      (foldRange (largerEnd data r blockSize) count 0) := by
  refine foldRange_induction
    (fun index maxEnd => LastEnd (countedEnds data r blockSize index) 0 maxEnd)
    ?_ count fun index _ maxEnd last => ?_
  · exact Or.inr ⟨countedEnds_zero, rfl⟩
  · rw [countedEnds_succ, largerEnd]
    split_ifs
    · exact last.insert _
    · exact last

/-- The loop returns the last of the counted ends, or zero. -/
theorem trailingLoop_eq (allocated : data.length ≤ isizeMax)
    (reachable : 0 < entryCountOf r → r.batOffset + 8 < wordCount) :
    forRange (entryCountOf r) (trailingStep data r blockSize) 0 =
      .ok (foldRange (largerEnd data r blockSize) (readableEntries data r)
        0) := by
  have word : isizeMax + 8 < wordCount := by decide
  apply forRange_eq_fold_of_break
  · exact Nat.min_le_left _ _
  · intro i iLt maxEnd
    exact trailingStep_eq allocated (readableEntry_inside iLt) maxEnd
  · intro broke maxEnd
    have stops : readableEntries data r =
        (data.length - r.batOffset) / 8 := by
      unfold readableEntries at broke ⊢
      omega
    have first := reachable (by omega)
    exact trailingStep_ends (by omega) (by omega) maxEnd

end Loop

/-! ## The finding -/

/-- Some byte of the image at or behind `start` is not zero. -/
def NonzeroFrom (data : Bytes) (start : Nat) : Prop :=
  ∃ i, start ≤ i ∧ ∃ byte, data[i]? = some byte ∧ byte ≠ 0

/-- The end that the check takes for the end of the disk. -/
def assumedEnd (data : Bytes) (r : ParsedRegions) (blockSize : Nat) : Nat :=
  let maxEnd := foldRange (largerEnd data r blockSize)
    (readableEntries data r) 0
  if maxEnd = 0 then tableEnd r else maxEnd

/-- The finding about bytes behind that end. -/
def trailingFindings (data : Bytes) (r : ParsedRegions) (blockSize : Nat) :
    Findings :=
  let start := assumedEnd data r blockSize
  if anyNonzero (imageTail data start) then
    [.trailingData start (data.length - start)]
  else []

section Finding

variable {data : Bytes} {r : ParsedRegions} {blockSize : Nat}

theorem anyNonzero_imageTail_iff {start : Nat} :
    anyNonzero (imageTail data start) = true ↔ NonzeroFrom data start := by
  rw [anyNonzero, List.any_eq_true]
  constructor
  · rintro ⟨byte, member, nonzero⟩
    obtain ⟨inner, found⟩ := List.mem_iff_getElem?.mp member
    rw [imageTail, getElem?_window] at found
    split at found
    · exact ⟨start + inner, by omega, byte, found, by simpa using nonzero⟩
    · cases found
  · rintro ⟨i, atLeast, byte, found, nonzero⟩
    have inside := (List.getElem?_eq_some_iff.mp found).1
    refine ⟨byte, List.mem_iff_getElem?.mpr ⟨i - start, ?_⟩,
      by simpa using nonzero⟩
    rw [imageTail, getElem?_window, if_pos (by omega),
      show start + (i - start) = i by omega, found]

/-- The assumed end is the last of the counted ends, or the end of the
table. -/
theorem lastEnd_assumedEnd (sized : 0 < blockSize) :
    LastEnd (countedEnds data r blockSize (readableEntries data r))
      (tableEnd r) (assumedEnd data r blockSize) := by
  have last := @lastEnd_largerEnd data r blockSize (readableEntries data r)
  rw [assumedEnd]
  generalize foldRange (largerEnd data r blockSize) (readableEntries data r) 0
    = maxEnd at last ⊢
  rcases last with greatest | ⟨empty, rfl⟩
  · obtain ⟨i, -, -, ends, -⟩ := greatest.1
    rw [if_neg (by omega)]
    exact Or.inl greatest
  · rw [if_pos rfl]
    exact Or.inr ⟨empty, rfl⟩

theorem checkTrailingDataInner_eq (allocated : data.length ≤ isizeMax)
    (known : r.blockSize = some blockSize) (sized : 0 < blockSize)
    (reachable : 0 < entryCountOf r → r.batOffset + 8 < wordCount) :
    checkTrailingDataInner data (some r) =
      .ok (trailingFindings data r blockSize) := by
  rw [checkTrailingDataInner]
  dsimp only
  rw [known]
  dsimp only
  rw [if_pos sized]
  change (forRange (entryCountOf r) _ _ >>= _) = _
  rw [trailingLoop_eq allocated reachable, ok_bind, trailingFindings,
    ← assumedEnd]
  by_cases longer : data.length > assumedEnd data r blockSize
  · rw [if_pos longer, slice_eq_ok (by omega) le_rfl, ok_bind, ← imageTail]
    split <;> rfl
  · have nothing : imageTail data (assumedEnd data r blockSize) = [] := by
      apply List.eq_nil_of_length_eq_zero
      rw [length_imageTail]
      omega
    rw [if_neg longer, nothing]
    rfl

end Finding

/-! ## The end of the disk -/

namespace AuditedImage

variable (image : AuditedImage)

/-- The container offset at which the disk ends if no block is mapped: the
end of the table in whole MiB. -/
def endOfTable : Nat :=
  (image.regions.batOffset + image.regions.batLength) ⌈/⌉ mb * mb

/-- The entry at `i` maps the container up to `e`: a payload block that is
fully or partially present, or a sector bitmap of 1 MiB. -/
def MapsUpTo (i e : Nat) : Prop :=
  let state := Bat.stateOf (entryAt image.bytes image.regions i)
  if BitmapSlot image.regions i then
    state = Bat.sectorBitmapBlockPresent ∧ e = image.start i + mb
  else
    (state = Bat.payloadBlockFullyPresent ∨
        state = Bat.payloadBlockPartiallyPresent) ∧
      e = image.start i + image.metadata.blockSize

/-- The ends of the mapped blocks inside the container. -/
def mappedEnds : Set Nat :=
  {e | e ≤ image.bytes.length ∧ ∃ i < image.entryCount, image.MapsUpTo i e}

/-- The ends inside the container when every entry in state 6, a bitmap or
not, is taken for a block, and no other entry is. -/
def blockEndsOfState6 : Set Nat :=
  {e | e ≤ image.bytes.length ∧ ∃ i < image.entryCount,
    Bat.stateOf (entryAt image.bytes image.regions i) =
        Bat.payloadBlockFullyPresent ∧
      e = image.start i + image.metadata.blockSize}

/-- The disk ends at `e` in the container. -/
def DiskEndsAt (e : Nat) : Prop :=
  LastEnd image.mappedEnds image.endOfTable e

/-- Counting the entries in state 6 alike, the disk seems to end at `e`. -/
def SeemsToEndAt (e : Nat) : Prop :=
  LastEnd image.blockEndsOfState6 image.endOfTable e

/-- The findings report the bytes from `e` on exactly if one of them is not
zero. -/
def ReportsTrailing (findings : Findings) (e : Nat) : Prop :=
  ((∃ startOffset size, .trailingData startOffset size ∈ findings) ↔
      NonzeroFrom image.bytes e) ∧
    ∀ startOffset size, .trailingData startOffset size ∈ findings →
      startOffset = e ∧ size = image.bytes.length - e

theorem readableEntries_eq :
    readableEntries image.bytes image.regions = image.entryCount := by
  have inside := image.inside
  unfold readableEntries entryCount entryCountOf
  omega

theorem tableEnd_eq : tableEnd image.regions = image.endOfTable := by
  have inside := image.inside
  have allocated := image.allocated
  have word : isizeMax + mb < wordCount := by decide
  have mbPos := mb_pos
  have small := Nat.mod_lt (image.regions.batOffset +
    image.regions.batLength) mb_pos
  have whole := Nat.div_add_mod' (image.regions.batOffset +
    image.regions.batLength) mb
  rw [tableEnd, endOfTable, saturatingAdd_eq (by omega), ceilDiv_eq mb_pos,
    checkedNextMultipleOf]
  split_ifs with exact
  · rw [Option.getD_some]
    omega
  · rw [checkedAdd_eq (by omega), Option.getD_some, Nat.add_mul]
    omega

theorem seemsToEndAt_assumedEnd :
    image.SeemsToEndAt (assumedEnd image.bytes image.regions
      image.metadata.blockSize) := by
  have last := @lastEnd_assumedEnd image.bytes image.regions _
    image.valid.blockSize_pos
  rw [image.tableEnd_eq, image.readableEntries_eq] at last
  have ends : countedEnds image.bytes image.regions image.metadata.blockSize
      image.entryCount = image.blockEndsOfState6 := by
    ext e
    constructor
    · rintro ⟨i, iLt, mapped, ends, inside⟩
      exact ⟨inside, i, iLt, mapped, ends⟩
    · rintro ⟨inside, i, iLt, mapped, ends⟩
      exact ⟨i, iLt, mapped, ends, inside⟩
  rwa [ends] at last

theorem exists_diskEndsAt : ∃ e, image.DiskEndsAt e :=
  exists_lastEnd (fun _ member => member.1) _

theorem checkTrailingData_eq :
    checkTrailingData image.bytes =
      .ok (trailingFindings image.bytes image.regions
        image.metadata.blockSize) := by
  have inside := image.inside
  have allocated := image.allocated
  have word : isizeMax + 8 < wordCount := by decide
  rw [checkTrailingData, image.parsed, attempt_ok, ok_bind]
  exact checkTrailingDataInner_eq allocated image.describes.blockSize_eq
    image.valid.blockSize_pos (by omega)

theorem mem_trailingFindings {startOffset size : Nat} :
    .trailingData startOffset size ∈ trailingFindings image.bytes
        image.regions image.metadata.blockSize ↔
      NonzeroFrom image.bytes (assumedEnd image.bytes image.regions
          image.metadata.blockSize) ∧
        startOffset = assumedEnd image.bytes image.regions
            image.metadata.blockSize ∧
          size = image.bytes.length - assumedEnd image.bytes image.regions
            image.metadata.blockSize := by
  rw [← anyNonzero_imageTail_iff, trailingFindings]
  split_ifs <;> simp_all

/-- The report is right about an end `e` if the assumed end is `e` or there
is no data behind either. -/
theorem reportsTrailing_iff {e : Nat} :
    image.ReportsTrailing (trailingFindings image.bytes image.regions
        image.metadata.blockSize) e ↔
      (NonzeroFrom image.bytes (assumedEnd image.bytes image.regions
            image.metadata.blockSize) ↔ NonzeroFrom image.bytes e) ∧
        (NonzeroFrom image.bytes (assumedEnd image.bytes image.regions
            image.metadata.blockSize) →
          assumedEnd image.bytes image.regions image.metadata.blockSize =
            e) := by
  unfold ReportsTrailing
  simp only [image.mem_trailingFindings]
  constructor
  · rintro ⟨sameData, sameRange⟩
    exact ⟨⟨fun data => sameData.mp ⟨_, _, data, rfl, rfl⟩, fun data => by
      obtain ⟨_, _, found, -⟩ := sameData.mpr data
      exact found⟩, fun data => (sameRange _ _ ⟨data, rfl, rfl⟩).1⟩
  · rintro ⟨sameData, sameEnd⟩
    refine ⟨⟨?_, ?_⟩, ?_⟩
    · rintro ⟨_, _, data, -⟩
      exact sameData.mp data
    · exact fun data => ⟨_, _, sameData.mpr data, rfl, rfl⟩
    · rintro _ _ ⟨data, rfl, rfl⟩
      rw [sameEnd data]
      exact ⟨rfl, rfl⟩

/-- The finding is exact if the disk ends where it seems to end, or if there
is no data behind either end. -/
theorem trailing_exact_iff :
    (∃ findings, checkTrailingData image.bytes = .ok findings ∧
        ∀ e, image.DiskEndsAt e → image.ReportsTrailing findings e) ↔
      (∃ e, image.DiskEndsAt e ∧ image.SeemsToEndAt e) ∨
        ∀ e, image.DiskEndsAt e ∨ image.SeemsToEndAt e →
          ¬ NonzeroFrom image.bytes e := by
  obtain ⟨diskEnd, ends⟩ := image.exists_diskEndsAt
  have seems := image.seemsToEndAt_assumedEnd
  have judged := @reportsTrailing_iff image
  rw [image.checkTrailingData_eq]
  generalize assumedEnd image.bytes image.regions image.metadata.blockSize
    = seeming at seems judged
  constructor
  · rintro ⟨findings, returned, right⟩
    cases returned
    obtain ⟨sameData, sameEnd⟩ := judged.mp (right diskEnd ends)
    by_cases data : NonzeroFrom image.bytes seeming
    · rw [sameEnd data] at seems
      exact Or.inl ⟨diskEnd, ends, seems⟩
    · right
      rintro e (real | apparent)
      · rw [real.unique ends, ← sameData]
        exact data
      · rw [apparent.unique seems]
        exact data
  · intro condition
    refine ⟨_, rfl, fun e real => judged.mpr ?_⟩
    rcases condition with ⟨common, commonEnds, commonSeems⟩ | nothing
    · have same : seeming = e :=
        (seems.unique commonSeems).trans (commonEnds.unique real)
      rw [same]
      exact ⟨Iff.rfl, fun _ => rfl⟩
    · have noReal := nothing e (Or.inl real)
      have noApparent := nothing seeming (Or.inr seems)
      exact ⟨iff_of_false noApparent noReal, fun data =>
        absurd data noApparent⟩

/-- The data of a partially present block at the end of the container is
reported as trailing data. -/
theorem partialBlock_reported :
    ∃ image : AuditedImage,
      image.IsStandard (blockItems 0x100000 0x100000) [0x500007]
          [(0x500000, [0xFF])] ∧
        (∃ findings, checkTrailingData image.bytes = .ok findings ∧
          .trailingData 0x400000 0x200000 ∈ findings) ∧
        image.DiskEndsAt 0x600000 ∧ ¬ NonzeroFrom image.bytes 0x600000 := by
  have fits : StandardFits (blockItems 0x100000 0x100000) [0x500007]
      [(0x500000, [0xFF])] := {
    items_fit := blockItems_fit (by decide) (by decide)
    bat_le := by decide
    extra_apart := List.pairwise_singleton _ _
    extra_place := by simp }
  have entriesLt : ∀ entry ∈ [0x500007], entry < 2 ^ 64 := by decide
  have stored : [0x500007][0]? = some 0x500007 := rfl
  have complete : (standardRegionsAt (blockItems 0x100000 0x100000) 1).metadata
      = some (blockDisk 0x100000 0x100000) := rfl
  obtain ⟨image, standard, metadataEq⟩ :=
    exists_standardImage fits blockItems_short complete rfl
  have count : image.entryCount = 1 := standard.entryCount_eq
  have size := standard.length_eq
  have entry := standard.entryAt_eq fits entriesLt stored
  have start : image.start 0 = 0x500000 :=
    standard.start_eq fits entriesLt stored
  have payload : ¬ BitmapSlot image.regions 0 := by
    rw [image.bitmapSlot_iff, metadataEq]
    decide
  have tableEnds : image.endOfTable = 0x400000 := by
    rw [endOfTable, standard.regions_eq]
    rfl
  have blockSize : image.metadata.blockSize = 0x100000 := by
    rw [metadataEq]
    rfl
  -- The only entry is not in state 6.
  have none6 : image.blockEndsOfState6 = ∅ := by
    ext e
    refine iff_of_false ?_ id
    rintro ⟨-, i, iLt, mapped, -⟩
    rw [show i = 0 by omega, entry] at mapped
    exact absurd mapped (by decide)
  have assumed : assumedEnd image.bytes image.regions
      image.metadata.blockSize = 0x400000 :=
    image.seemsToEndAt_assumedEnd.unique (Or.inr ⟨none6, tableEnds.symm⟩)
  have held := (standardPlan_fits fits).holds_region
    (show (0x500000, [0xFF]) ∈ (standardPlan
      (blockItems 0x100000 0x100000) [0x500007]
        [(0x500000, [0xFF])]).regions by simp [standardPlan])
  rw [← standard.bytes_eq] at held
  have data : NonzeroFrom image.bytes 0x400000 := by
    refine ⟨0x500000, by decide, 0xFF, ?_, by decide⟩
    have shown := congrArg (fun bytes => bytes[0]?) held
    rwa [getElem?_window] at shown
  have ends : image.MapsUpTo 0 0x600000 := by
    rw [MapsUpTo, if_neg payload, entry, start, blockSize]
    decide
  refine ⟨image, standard, ⟨_, image.checkTrailingData_eq, ?_⟩, ?_, ?_⟩
  · rw [image.mem_trailingFindings, assumed, size]
    exact ⟨data, rfl, rfl⟩
  · refine Or.inl ⟨⟨by rw [size], 0, by omega, ends⟩, ?_⟩
    rintro e ⟨inside, -⟩
    rwa [size] at inside
  · rintro ⟨i, atLeast, byte, found, -⟩
    have inside := (List.getElem?_eq_some_iff.mp found).1
    omega

end AuditedImage

end VhdxForensic

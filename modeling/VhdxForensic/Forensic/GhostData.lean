import VhdxForensic.Forensic.TrailingData

/-!
# Data of absent blocks

An entry that maps no block can still hold the offset of a former one. The
scan looks for data at these offsets. It is not gated by the other checks, so
the table it walks may lie outside the image.
-/

namespace VhdxForensic

open Rust Rust.Bytes Rust.Exec

/-- One pass over the table. -/
def ghostStep (data : Bytes) (r : ParsedRegions) (bs i : Nat)
    (issues : Findings) : Audit (ForInStep Findings) := do
  let ep ← batEntryPos r.batOffset i
  let entryEnd ← add ep 8
  if entryEnd > data.length then return .done issues
  else
    let raw := leU64 data ep
    let state := raw &&& 0b111
    if state = Bat.payloadBlockFullyPresent then return .yield issues
    else if ← isBitmapSlot r.chunkRatio i then return .yield issues
    else
      let offsetMb := raw >>> 20
      if offsetMb = 0 then return .yield issues
      else
        let fileOffset ← mul offsetMb mb
        if fileOffset ≥ data.length then return .yield issues
        else
          let blockEnd := min (saturatingAdd fileOffset bs) data.length
          let block ← slice data fileOffset blockEnd
          let nonzeroBytes := countNonzero block
          if nonzeroBytes > 0 then
            return .yield
              (issues ++ [.ghostDataInAbsentBlock i fileOffset nonzeroBytes])
          else return .yield issues

def checkBatGhostData (data : Bytes) : Audit Findings := do
  let regions ← attempt (parseRegions data)
  match regions.toOption with
  | none => return []
  | some r =>
      match r.blockSize with
      | none => return []
      | some bs =>
          if bs > 0 then forRange (r.batLength / 8) (ghostStep data r bs) []
          else return []

/-! ## What the scan computes -/

/-- The part of the block at `start` that lies in the image. -/
def blockContent (data : Bytes) (start bs : Nat) : Bytes :=
  window data start (min bs (data.length - start))

/-- Finding about the entry at `i`. -/
def ghostOf (data : Bytes) (r : ParsedRegions) (bs i : Nat) : Findings :=
  let start := blockStart data r i
  let nonzeroBytes := countNonzero (blockContent data start bs)
  if Bat.stateOf (entryAt data r i) ≠ Bat.payloadBlockFullyPresent ∧
      ¬ BitmapSlot r i ∧ start ≠ 0 ∧ start < data.length ∧
      nonzeroBytes > 0 then
    [.ghostDataInAbsentBlock i start nonzeroBytes]
  else []

/-- All findings about absent blocks. -/
def ghostFindings (data : Bytes) : Findings :=
  match parsedRegions data with
  | none => []
  | some r =>
      match r.blockSize with
      | none => []
      | some bs =>
          if bs > 0 then
            (List.range (readableEntries data r)).flatMap (ghostOf data r bs)
          else []

/-- The first entry of the table can be located. -/
def FirstEntryLocated (r : ParsedRegions) : Prop :=
  0 < entryCountOf r → r.batOffset + 8 < wordCount

instance (r : ParsedRegions) : Decidable (FirstEntryLocated r) :=
  inferInstanceAs (Decidable (_ → _))

/-- The tables of images with a block size can be located. -/
def TableLocated (r : ParsedRegions) : Prop :=
  ∀ bs ∈ r.blockSize, 0 < bs → FirstEntryLocated r

section Scan

variable {data : Bytes} {r : ParsedRegions} {bs : Nat}

/-- Below a limit that is a word, saturation does not show. -/
theorem min_saturatingAdd {a b limit : Nat} (limitLt : limit < wordCount) :
    min (saturatingAdd a b) limit = min (a + b) limit := by
  unfold saturatingAdd
  generalize wordCount = word at limitLt
  omega

theorem ghostStep_eq (allocated : data.length ≤ isizeMax) (sound : r.Sound)
    {i : Nat} (within : r.batOffset + i * 8 + 8 ≤ data.length)
    (issues : Findings) :
    ghostStep data r bs i issues =
      .ok (.yield (issues ++ ghostOf data r bs i)) := by
  have word : isizeMax < wordCount - 1 := by decide
  have entryLt := entryAt_lt data r i
  have startEq : blockStart data r i = entryAt data r i >>> 20 * mb := by
    rw [Nat.shiftRight_eq_div_pow]
    rfl
  rw [ghostStep, batEntryPos_eq (by omega), ok_bind, add_eq_ok (by omega),
    ok_bind, if_neg (by omega)]
  dsimp only
  rw [← entryAt, Bat.and_seven_eq_stateOf, isBitmapSlot_eq sound, ok_bind,
    ghostOf]
  by_cases mapped : Bat.stateOf (entryAt data r i) =
      Bat.payloadBlockFullyPresent
  · rw [if_pos mapped, if_neg fun all => all.1 mapped, List.append_nil]
    rfl
  rw [if_neg mapped]
  by_cases slot : BitmapSlot r i
  · rw [if_pos (decide_eq_true slot), if_neg fun all => all.2.1 slot,
      List.append_nil]
    rfl
  rw [if_neg (by simpa using slot)]
  by_cases unplaced : entryAt data r i >>> 20 = 0
  · have zero : blockStart data r i = 0 := by
      rw [startEq, unplaced, Nat.zero_mul]
    rw [if_pos unplaced, if_neg fun all => all.2.2.1 zero, List.append_nil]
    rfl
  have placed : blockStart data r i ≠ 0 := by
    rw [startEq]
    exact Nat.mul_ne_zero unplaced (by decide)
  rw [if_neg unplaced, mul_offset entryLt, ok_bind, ← blockStart]
  by_cases starts : blockStart data r i < data.length
  case neg =>
    rw [if_pos (by omega), if_neg fun all => starts all.2.2.2.1,
      List.append_nil]
    rfl
  rw [if_neg (by omega), min_saturatingAdd (by omega),
    slice_eq_ok (le_min (Nat.le_add_right _ _) starts.le)
      (min_le_right _ _), ok_bind, ← Nat.sub_min_sub_right,
    Nat.add_sub_cancel_left, ← blockContent]
  by_cases found : countNonzero (blockContent data (blockStart data r i) bs) >
      0
  · rw [if_pos found, if_pos ⟨mapped, slot, placed, starts, found⟩]
    rfl
  · rw [if_neg found, if_neg fun all => found all.2.2.2.2, List.append_nil]
    rfl

theorem ghostStep_ends {i : Nat}
    (outside : data.length < r.batOffset + i * 8 + 8)
    (small : r.batOffset + i * 8 + 8 < wordCount) (issues : Findings) :
    ghostStep data r bs i issues = .ok (.done issues) := by
  rw [ghostStep, batEntryPos_eq (by omega), ok_bind, add_eq_ok small,
    ok_bind, if_pos outside]
  rfl

theorem ghostLoop_eq (allocated : data.length ≤ isizeMax) (sound : r.Sound)
    (located : FirstEntryLocated r) :
    forRange (r.batLength / 8) (ghostStep data r bs) [] =
      .ok ((List.range (readableEntries data r)).flatMap
        (ghostOf data r bs)) := by
  have word : isizeMax + 8 < wordCount := by decide
  have count : entryCountOf r = r.batLength / 8 := rfl
  have readable : readableEntries data r ≤ r.batLength / 8 :=
    Nat.min_le_left _ _
  rw [forRange_eq_fold_of_break
    (fun i issues => issues ++ ghostOf data r bs i) readable,
    foldRange_append, List.nil_append]
  · intro i iLt issues
    exact ghostStep_eq allocated sound (readableEntry_inside iLt) issues
  · intro broke issues
    have stops : readableEntries data r =
        (data.length - r.batOffset) / 8 := by
      unfold readableEntries at broke ⊢
      omega
    have first := located (by omega)
    exact ghostStep_ends (by omega) (by omega) issues

/-- Without a located first entry the walk over the table panics. -/
theorem located_of_first_pass {σ : Type} {next : Nat → Nat → Audit σ}
    (sound : r.Sound)
    (settles : Settles (batEntryPos r.batOffset 0 >>= fun ep =>
      add ep 8 >>= fun entryEnd => next ep entryEnd)) :
    r.batOffset + 8 < wordCount := by
  have offsetLt : r.batOffset < wordCount := sound.batOffset_lt
  rw [batEntryPos_eq (by omega), ok_bind] at settles
  have small := settles_add.mp settles.of_bind
  omega

end Scan

section Whole

variable {data : Bytes}

theorem checkBatGhostData_eq (allocated : data.length ≤ isizeMax)
    (located : ∀ r ∈ parsedRegions data, TableLocated r) :
    checkBatGhostData data = .ok (ghostFindings data) := by
  rw [checkBatGhostData, parseRegions_eq allocated, ghostFindings]
  cases parsed : parsedRegions data with
  | none => rfl
  | some r =>
      rw [okOr_some, attempt_ok, ok_bind]
      change (match r.blockSize with | none => _ | some bs => _) = _
      cases sized : r.blockSize with
      | none =>
          simp only [sized]
          rfl
      | some bs =>
          simp only [sized]
          by_cases positive : bs > 0
          · rw [if_pos positive, if_pos positive]
            exact ghostLoop_eq allocated (parsedRegions_sound parsed)
              (located r parsed bs sized positive)
          · rw [if_neg positive, if_neg positive]
            rfl

/-- The scan runs to its end exactly if it can locate the table. -/
theorem settles_checkBatGhostData_iff (allocated : data.length ≤ isizeMax) :
    Settles (checkBatGhostData data) ↔
      ∀ r ∈ parsedRegions data, TableLocated r := by
  constructor
  · intro settles r parsed bs sized positive nonempty
    rw [Option.mem_def] at parsed sized
    rw [checkBatGhostData, parseRegions_eq allocated, parsed, okOr_some,
      attempt_ok, ok_bind] at settles
    change Settles (match r.blockSize with
      | none => _ | some bs => _) at settles
    rw [sized] at settles
    dsimp only at settles
    rw [if_pos positive] at settles
    have pass := Settles.first_pass settles nonempty
    unfold ghostStep at pass
    exact located_of_first_pass (parsedRegions_sound parsed) pass
  · intro located
    exact .of_eq_ok (checkBatGhostData_eq allocated located)

/-- The trailing data check runs to its end under the same condition. -/
theorem settles_checkTrailingDataInner_iff
    (allocated : data.length ≤ isizeMax) {r : ParsedRegions}
    (sound : r.Sound) :
    Settles (checkTrailingDataInner data (some r)) ↔ TableLocated r := by
  constructor
  · intro settles bs sized positive nonempty
    rw [Option.mem_def] at sized
    rw [checkTrailingDataInner] at settles
    dsimp only at settles
    rw [sized] at settles
    dsimp only at settles
    rw [if_pos positive] at settles
    have pass := Settles.first_pass settles.of_bind nonempty
    unfold trailingStep at pass
    exact located_of_first_pass sound pass
  · intro located
    cases sized : r.blockSize with
    | none =>
        rw [checkTrailingDataInner]
        simp only [sized]
        exact settles_ok _
    | some bs =>
        by_cases positive : 0 < bs
        · exact .of_eq_ok (checkTrailingDataInner_eq allocated sized positive
            (located bs sized positive))
        · rw [checkTrailingDataInner]
          simp only [sized]
          rw [if_neg positive]
          exact settles_ok _

end Whole

end VhdxForensic

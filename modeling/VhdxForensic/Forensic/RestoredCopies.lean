import VhdxForensic.Forensic.AnalysisReads

/-!
# Restored copies

Headers and region tables are stored twice. The repair of a single invalid
copy makes both copies equal, and what is read from the copies stays the same.
-/

namespace VhdxForensic

open Rust Rust.Bytes Rust.Exec

/-! ## Findings without actions -/

section Pass

variable {batOffset : Option Nat} {data : Bytes} {issues more : Findings}

@[simp] theorem repairedByAll_nil : repairedByAll batOffset data [] = data :=
  rfl

@[simp] theorem repairedByAll_append :
    repairedByAll batOffset data (issues ++ more) =
      repairedByAll batOffset (repairedByAll batOffset data issues) more :=
  List.foldl_append

/-- Only repairable findings change the image. -/
theorem repairedByAll_repairs :
    repairedByAll batOffset data (repairs issues) =
      repairedByAll batOffset data issues := by
  induction issues generalizing data with
  | nil => rfl
  | cons issue issues inductionHypothesis =>
      have cons_eq : repairedByAll batOffset data (issue :: issues) =
          repairedByAll batOffset (repairedBy batOffset data issue) issues :=
        rfl
      rw [repairs_cons, cons_eq, ← inductionHypothesis]
      cases repaired : issue.repairable with
      | true => rfl
      | false =>
          rw [repairedBy, (repairPlace_eq_none repaired).1]
          rfl

/-- A window without a written byte is unchanged. -/
theorem window_repairedByAll {range : Nat × Nat}
    (fits : ∀ issue ∈ issues, ActionFits batOffset data.length issue)
    (apart : ∀ issue ∈ issues, ∀ place ∈ repairPlace batOffset issue,
      ¬ Overlap place range) :
    SameRange (repairedByAll batOffset data issues) data range := by
  apply window_ext
  intro index indexLt
  refine (repairedByAll_frame fits).2 _ fun place member inside => ?_
  obtain ⟨issue, issueMember, found⟩ := List.mem_filterMap.mp member
  exact apart issue issueMember place found
    ⟨range.1 + index, inside, by omega, by omega⟩

end Pass

/-! ## Copies of a block -/

/-- Two copies of a block, with the numbers 1 and 2. -/
structure BlockCopies where
  /-- Where a copy lies, by its number. -/
  offsetOf : Nat → Nat
  /-- Length of a copy. -/
  size : Nat
  /-- What a copy starts with. -/
  signature : Bytes
  /-- The finding about an invalid copy. -/
  mismatch : (copy computed stored : Nat) → VhdxIntegrityAnomaly

def headerCopies : BlockCopies where
  offsetOf := headerOffset
  size := headerSize
  signature := headerSignature
  mismatch := .headerChecksumMismatch

def tableCopies : BlockCopies where
  offsetOf := rtOffset
  size := regionTableCrcCoverage
  signature := regionTableSignature
  mismatch := .regionTableChecksumMismatch

namespace BlockCopies

/-- The copy is present, signed and checksummed. -/
def Valid (copies : BlockCopies) (data : Bytes) (copy : Nat) : Prop :=
  BlockValid data (copies.offsetOf copy) copies.size copies.signature

instance (copies : BlockCopies) (data : Bytes) (copy : Nat) :
    Decidable (copies.Valid data copy) :=
  inferInstanceAs (Decidable (BlockValid _ _ _ _))

/-- Finding about a copy. -/
def finding (copies : BlockCopies) (data : Bytes) (copy : Nat) :
    Option VhdxIntegrityAnomaly :=
  crcFinding data (copies.offsetOf copy) copies.size copies.signature
    (copies.mismatch copy)

/-- Findings about a single invalid copy. -/
def singleFindings (copies : BlockCopies) (data : Bytes) : Findings :=
  if (copies.finding data 1).isSome ∧ (copies.finding data 2).isSome then []
  else (copies.finding data 1).toList ++ (copies.finding data 2).toList

/-- The copy whose content a copy has after the repair. -/
def source (copies : BlockCopies) (data : Bytes) (copy : Nat) : Nat :=
  if copies.Valid data copy ∨ ¬ copies.Valid data (3 - copy) then copy
  else 3 - copy

/-- The copies are apart, and the repair of one writes the other one. -/
structure Restorable (copies : BlockCopies) : Prop where
  /-- A copy has room for its checksum. -/
  large : 8 ≤ copies.size
  /-- The copies do not overlap. -/
  apart : copies.offsetOf 1 + copies.size ≤ copies.offsetOf 2
  /-- The finding is repaired by writing the whole copy. -/
  place : ∀ batOffset copy computed stored, copy = 1 ∨ copy = 2 →
    repairPlace batOffset (copies.mismatch copy computed stored) =
      some (copies.offsetOf copy, copies.size)
  /-- What is written is the other copy under a new checksum. -/
  content : ∀ batOffset data copy computed stored,
    repairContent batOffset data (copies.mismatch copy computed stored) =
      sealBlock (window data (copies.offsetOf (3 - copy)) copies.size)

/-- The copies of `out` have the content that the repair gives them. -/
def Restored (copies : BlockCopies) (data out : Bytes) : Prop :=
  ∀ copy, copy = 1 ∨ copy = 2 →
    window out (copies.offsetOf copy) copies.size =
      window data (copies.offsetOf (copies.source data copy)) copies.size

end BlockCopies

theorem headerCopies_restorable : headerCopies.Restorable where
  large := show 8 ≤ headerSize by decide
  apart := show headerOffset 1 + headerSize ≤ headerOffset 2 by decide
  place := fun _ _ _ _ known => if_pos known
  content := fun _ _ _ _ _ => rfl

theorem tableCopies_restorable : tableCopies.Restorable where
  large := show 8 ≤ regionTableCrcCoverage by decide
  apart := show rtOffset 1 + regionTableCrcCoverage ≤ rtOffset 2 by decide
  place := fun _ _ _ _ known => if_pos known
  content := fun _ _ _ _ _ => rfl

namespace BlockCopies

variable {copies : BlockCopies} {data out : Bytes} {batOffset : Option Nat}

theorem finding_eq_none_iff {copy : Nat} :
    copies.finding data copy = none ↔ copies.Valid data copy :=
  crcFinding_eq_none_iff

theorem source_of_valid {copy : Nat} (valid : copies.Valid data copy) :
    copies.source data copy = copy := if_pos (Or.inl valid)

theorem source_of_peer {copy : Nat} (invalid : ¬ copies.Valid data copy)
    (peer : copies.Valid data (3 - copy)) :
    copies.source data copy = 3 - copy :=
  if_neg fun either => either.elim invalid fun no => no peer

theorem source_of_none {copy : Nat} (none : ¬ copies.Valid data (3 - copy)) :
    copies.source data copy = copy := if_pos (Or.inr none)

/-- An image with the same copies as another one. -/
structure SameCopies (copies : BlockCopies) (data base : Bytes) : Prop where
  /-- Both strings have one length. -/
  length_eq : base.length = data.length
  /-- They have the same copies. -/
  same : ∀ copy, copy = 1 ∨ copy = 2 →
    SameRange base data (copies.offsetOf copy, copies.size)

theorem SameCopies.refl : copies.SameCopies data data :=
  ⟨rfl, fun _ _ => rfl⟩

variable {base : Bytes}

/-- The repair of a single invalid copy. -/
theorem repairedByAll_single (restorable : copies.Restorable)
    (sameCopies : copies.SameCopies data base) {copy : Nat}
    (known : copy = 1 ∨ copy = 2) {found : VhdxIntegrityAnomaly}
    (single : copies.finding data copy = some found)
    (peer : copies.Valid data (3 - copy)) :
    repairedByAll batOffset base [found] =
      overwrite base (copies.offsetOf copy)
        (window data (copies.offsetOf (3 - copy)) copies.size) := by
  obtain ⟨computed, stored, rfl⟩ := exists_of_crcFinding single
  have content : window base (copies.offsetOf (3 - copy)) copies.size =
      window data (copies.offsetOf (3 - copy)) copies.size :=
    sameCopies.same (3 - copy) (by omega)
  change repairedBy batOffset base _ = _
  rw [repairedBy, restorable.place _ _ _ _ known]
  dsimp only
  rw [restorable.content, content, sealBlock_of_valid restorable.large peer]

/-- The repair of a single invalid copy restores both. -/
theorem restored_overwrite (restorable : copies.Restorable)
    (sameCopies : copies.SameCopies data base)
    (inside : copies.offsetOf 2 + copies.size ≤ data.length) {copy : Nat}
    (known : copy = 1 ∨ copy = 2) (invalid : ¬ copies.Valid data copy)
    (peer : copies.Valid data (3 - copy)) :
    copies.Restored data (overwrite base (copies.offsetOf copy)
      (window data (copies.offsetOf (3 - copy)) copies.size)) := by
  have apart := restorable.apart
  have lengthEq := sameCopies.length_eq
  have contentLength := length_window_of_le peer.1
  have target : copies.offsetOf copy + copies.size ≤ data.length := by
    rcases known with rfl | rfl <;> omega
  intro other otherKnown
  by_cases same : other = copy
  · rw [same, source_of_peer invalid peer]
    have written := @window_overwrite_self base
      (window data (copies.offsetOf (3 - copy)) copies.size)
      (copies.offsetOf copy) (by omega)
    rwa [contentLength] at written
  · have otherEq : other = 3 - copy := by omega
    rw [otherEq, source_of_valid peer, window_overwrite_of_disjoint]
    · exact sameCopies.same (3 - copy) (by omega)
    · omega
    · rcases known with rfl | rfl
      · exact Or.inr
          (show copies.offsetOf 1 + _ ≤ copies.offsetOf 2 by omega)
      · exact Or.inl
          (show copies.offsetOf 1 + _ ≤ copies.offsetOf 2 by omega)

theorem restored_self (sameCopies : copies.SameCopies data base)
    (balanced : copies.Valid data 1 ↔ copies.Valid data 2) :
    copies.Restored data base := by
  rintro copy (rfl | rfl)
  · rw [show window base _ _ = _ from sameCopies.same 1 (Or.inl rfl)]
    by_cases valid : copies.Valid data 1
    · rw [source_of_valid valid]
    · rw [source_of_none fun peer => valid (balanced.mpr peer)]
  · rw [show window base _ _ = _ from sameCopies.same 2 (Or.inr rfl)]
    by_cases valid : copies.Valid data 2
    · rw [source_of_valid valid]
    · rw [source_of_none fun peer => valid (balanced.mp peer)]

/-- The repair restores the copies. -/
theorem restored_repairedByAll (restorable : copies.Restorable)
    (sameCopies : copies.SameCopies data base)
    (inside : copies.offsetOf 2 + copies.size ≤ data.length) :
    copies.Restored data
      (repairedByAll batOffset base (copies.singleFindings data)) := by
  have valid : ∀ {copy}, copies.finding data copy = none →
      copies.Valid data copy := finding_eq_none_iff.mp
  have invalid : ∀ {copy found}, copies.finding data copy = some found →
      ¬ copies.Valid data copy := by
    intro copy found reported
    rw [← finding_eq_none_iff, reported]
    exact Option.some_ne_none found
  rw [singleFindings]
  cases first : copies.finding data 1 with
  | none =>
      cases second : copies.finding data 2 with
      | none =>
          exact restored_self sameCopies
            (iff_of_true (valid first) (valid second))
      | some found =>
          have peer : copies.Valid data (3 - 2) := valid first
          have written := @repairedByAll_single copies data batOffset base
            restorable sameCopies 2 (Or.inr rfl) found second peer
          exact written ▸ restored_overwrite restorable sameCopies inside
            (Or.inr rfl) (invalid second) peer
  | some found =>
      cases second : copies.finding data 2 with
      | none =>
          have peer : copies.Valid data (3 - 1) := valid second
          have written := @repairedByAll_single copies data batOffset base
            restorable sameCopies 1 (Or.inl rfl) found first peer
          exact written ▸ restored_overwrite restorable sameCopies inside
            (Or.inl rfl) (invalid first) peer
      | some other =>
          exact restored_self sameCopies
            (iff_of_false (invalid first) (invalid second))

/-! ### What is read from restored copies -/

theorem source_cases {copy : Nat} (known : copy = 1 ∨ copy = 2) :
    copies.source data copy = 1 ∨ copies.source data copy = 2 := by
  unfold source
  split <;> omega

/-- Both copies lie inside an image that holds the second one. -/
theorem Restorable.inside (restorable : copies.Restorable)
    (second : copies.offsetOf 2 + copies.size ≤ data.length) {copy : Nat}
    (known : copy = 1 ∨ copy = 2) :
    copies.offsetOf copy + copies.size ≤ data.length := by
  have apart := restorable.apart
  rcases known with rfl | rfl <;> omega

/-- Copies stay restored in images that keep them. -/
theorem Restored.trans_same (restored : copies.Restored data base)
    (same : ∀ copy, copy = 1 ∨ copy = 2 →
      SameRange out base (copies.offsetOf copy, copies.size)) :
    copies.Restored data out := fun copy known =>
  (same copy known).trans (restored copy known)

/-- A restored copy is valid if its source was. -/
theorem Restored.valid_source (restored : copies.Restored data out)
    (restorable : copies.Restorable) (lengthEq : out.length = data.length)
    (inside : copies.offsetOf 2 + copies.size ≤ data.length)
    {copy : Nat} (known : copy = 1 ∨ copy = 2) :
    copies.Valid out copy ↔ copies.Valid data (copies.source data copy) := by
  refine blockValid_congr restorable.large ?_ ?_ (restored copy known)
  · exact restorable.inside (by omega) known
  · exact restorable.inside inside (source_cases known)

/-- A restored copy is valid if one of the copies was. -/
theorem Restored.valid_iff (restored : copies.Restored data out)
    (restorable : copies.Restorable) (lengthEq : out.length = data.length)
    (inside : copies.offsetOf 2 + copies.size ≤ data.length)
    {copy : Nat} (known : copy = 1 ∨ copy = 2) :
    copies.Valid out copy ↔
      copies.Valid data 1 ∨ copies.Valid data 2 := by
  rw [restored.valid_source restorable lengthEq inside known]
  rcases known with rfl | rfl
  · by_cases valid : copies.Valid data 1
    · rw [source_of_valid valid, or_iff_left_of_imp fun _ => valid]
    · by_cases peer : copies.Valid data 2
      · rw [source_of_peer valid peer]
        exact iff_of_true peer (Or.inr peer)
      · rw [source_of_none peer]
        exact iff_of_false valid fun either => either.elim valid peer
  · by_cases valid : copies.Valid data 2
    · rw [source_of_valid valid, or_iff_right_of_imp fun _ => valid]
    · by_cases peer : copies.Valid data 1
      · rw [source_of_peer valid peer]
        exact iff_of_true peer (Or.inl peer)
      · rw [source_of_none peer]
        exact iff_of_false valid fun either => either.elim peer valid

/-- Restored copies are both valid or both invalid. -/
theorem Restored.singleFindings_eq_nil (restored : copies.Restored data out)
    (restorable : copies.Restorable) (lengthEq : out.length = data.length)
    (inside : copies.offsetOf 2 + copies.size ≤ data.length) :
    copies.singleFindings out = [] := by
  have valid := fun {copy} =>
    @Restored.valid_iff copies data out restored restorable lengthEq inside copy
  rw [singleFindings]
  by_cases either : copies.Valid data 1 ∨ copies.Valid data 2
  · rw [finding_eq_none_iff.mpr ((valid (Or.inl rfl)).mpr either),
      finding_eq_none_iff.mpr ((valid (Or.inr rfl)).mpr either)]
    rfl
  · have found : ∀ copy, copy = 1 ∨ copy = 2 →
        (copies.finding out copy).isSome := by
      intro copy known
      rw [Option.isSome_iff_ne_none, ne_eq, finding_eq_none_iff, valid known]
      exact either
    exact if_pos ⟨found 1 (Or.inl rfl), found 2 (Or.inr rfl)⟩

end BlockCopies

/-! ## What is read from restored headers and tables -/

section Read

variable {data out : Bytes}

/-- The choice between the header copies by their numbers. -/
theorem activeHeader_eq_copies (data : Bytes) :
    activeHeader data =
      if headerCopies.Valid data 1 then
        if headerCopies.Valid data 2 then
          if (headerAt data (headerOffset 1)).sequenceNumber ≥
              (headerAt data (headerOffset 2)).sequenceNumber then
            some (headerAt data (headerOffset 1))
          else some (headerAt data (headerOffset 2))
        else some (headerAt data (headerOffset 1))
      else if headerCopies.Valid data 2 then
        some (headerAt data (headerOffset 2))
      else none := by
  rw [activeHeader, activeHeaderOffset]
  change Option.map (headerAt data) (if headerCopies.Valid data 1 then
    if headerCopies.Valid data 2 then
      if (headerAt data (headerOffset 1)).sequenceNumber ≥
          (headerAt data (headerOffset 2)).sequenceNumber then
        some (headerOffset 1)
      else some (headerOffset 2)
    else some (headerOffset 1)
  else if headerCopies.Valid data 2 then some (headerOffset 2) else none) = _
  simp only [apply_ite (Option.map (headerAt data)), Option.map_some,
    Option.map_none]

/-- Restored headers name the same log. -/
theorem activeHeader_of_restored (lengthEq : out.length = data.length)
    (inside : header2Offset + headerSize ≤ data.length)
    (restored : headerCopies.Restored data out) :
    activeHeader out = activeHeader data := by
  have fields : ∀ copy, copy = 1 ∨ copy = 2 →
      headerAt out (headerOffset copy) =
        headerAt data (headerOffset (headerCopies.source data copy)) := by
    intro copy known
    refine headerAt_congr ?_ ?_ (restored copy known)
    · exact headerCopies_restorable.inside
        (show headerOffset 2 + _ ≤ _ by rw [lengthEq]; exact inside) known
    · exact headerCopies_restorable.inside inside
        (BlockCopies.source_cases known)
  have valid := fun {copy} => @BlockCopies.Restored.valid_iff headerCopies data
    out restored headerCopies_restorable lengthEq inside copy
  rw [activeHeader_eq_copies out, activeHeader_eq_copies data,
    fields 1 (Or.inl rfl), fields 2 (Or.inr rfl)]
  simp only [valid (Or.inl rfl), valid (Or.inr rfl)]
  by_cases first : headerCopies.Valid data 1
  · by_cases second : headerCopies.Valid data 2
    · rw [BlockCopies.source_of_valid first,
        BlockCopies.source_of_valid second]
      simp only [first, second, true_or, if_true]
    · rw [BlockCopies.source_of_valid first,
        BlockCopies.source_of_peer second first]
      simp [first, second]
  · by_cases second : headerCopies.Valid data 2
    · rw [BlockCopies.source_of_valid second,
        BlockCopies.source_of_peer first second]
      simp [first, second]
    · simp [first, second]

/-- Restored tables give the same ranges. -/
theorem usedRanges_of_restored (lengthEq : out.length = data.length)
    (inside : regionTable2Offset + regionTableCrcCoverage ≤ data.length)
    (restored : tableCopies.Restored data out) :
    usedRanges out = usedRanges data := by
  have same : ∀ copy, copy = 1 ∨ copy = 2 →
      tableRanges out (rtOffset copy) =
        tableRanges data (rtOffset (tableCopies.source data copy)) := by
    intro copy known
    refine tableRanges_congr ?_ ?_ (restored copy known)
    · exact tableCopies_restorable.inside
        (show rtOffset 2 + _ ≤ _ by rw [lengthEq]; exact inside) known
    · exact tableCopies_restorable.inside inside
        (BlockCopies.source_cases known)
  have unused : ∀ copy, ¬ tableCopies.Valid data copy →
      tableRanges data (rtOffset copy) = none :=
    fun _ invalid => if_neg invalid
  change (tableRanges out (rtOffset 1)).or (tableRanges out (rtOffset 2)) =
    (tableRanges data (rtOffset 1)).or (tableRanges data (rtOffset 2))
  rw [same 1 (Or.inl rfl), same 2 (Or.inr rfl)]
  by_cases first : tableCopies.Valid data 1
  · rw [BlockCopies.source_of_valid first]
    by_cases second : tableCopies.Valid data 2
    · rw [BlockCopies.source_of_valid second]
    · rw [BlockCopies.source_of_peer second first, unused 2 second,
        Option.or_none]
      exact Option.or_self
  · by_cases second : tableCopies.Valid data 2
    · rw [BlockCopies.source_of_valid second,
        BlockCopies.source_of_peer first second, unused 1 first]
      exact Option.or_self
    · rw [@BlockCopies.source_of_none _ _ 1 second,
        @BlockCopies.source_of_none _ _ 2 first]

end Read

end VhdxForensic

import VhdxForensic.Core.LogEntries
import VhdxForensic.Core.Reader

/-!
# Opening a container

A reader sees its container through the log overlay. This module names the
bytes it sees, describes opening as a function of those bytes, and determines
when opening ends without a panic and when both ways of opening give the same
reader.
-/

namespace VhdxForensic

open Rust Rust.Bytes Rust.Exec

variable {ε : Type}

/-- A byte string that a Rust buffer can hold. -/
structure Buffer where
  /-- The content. -/
  bytes : Bytes
  /-- No allocation is larger. -/
  allocated : bytes.length ≤ isizeMax

theorem Buffer.length_lt (data : Buffer) :
    data.bytes.length < wordCount := by
  have allocated := data.allocated
  unfold isizeMax at allocated
  unfold wordCount
  omega

/-! ## Patched views -/

/-- The container as it is seen through an overlay. -/
def patchedView (backing : Backing) (overlay : LogOverlay) : Bytes :=
  replayFrom 0 overlay.runs backing.view

@[simp] theorem length_patchedView (backing : Backing)
    (overlay : LogOverlay) :
    (patchedView backing overlay).length = backing.view.length :=
  length_replayFrom _ _ _

@[simp] theorem patchedView_mem (data : Bytes) :
    patchedView (.mem data) {} = data :=
  replayFrom_nil 0 data

section Patched

variable {backing : Backing} {overlay : LogOverlay}

/-- A patched window of the backing is a window of the patched view. -/
theorem patch_window (small : backing.view.length < wordCount)
    (off count : Nat) :
    (overlay.patch (window backing.view off count) off : Exec ε Bytes) =
      .ok (window (patchedView backing overlay) off count) := by
  rw [patchedView, window_replayFrom, Nat.zero_add]
  by_cases empty : window backing.view off count = []
  · rw [empty, LogOverlay.patch, if_pos (Or.inr rfl)]
    rfl
  · apply LogOverlay.patch_eq_ok
    have present : (window backing.view off count).length ≠ 0 := by
      simpa using empty
    rw [length_window] at present ⊢
    omega

/-- A patched read shows a part of the patched view. -/
theorem patch_readAt (small : backing.view.length < wordCount)
    (count off : Nat) :
    (overlay.patch (backing.readAt count off) off : Exec ε Bytes) =
      .ok (window (patchedView backing overlay) off count) := by
  rw [Backing.readAt_eq_window, patch_window small]

theorem length_readAt (overlay : LogOverlay) (count off : Nat) :
    (backing.readAt count off).length =
      (window (patchedView backing overlay) off count).length := by
  rw [Backing.readAt_eq_window, length_window, length_window,
    length_patchedView]

/-- A region in the container is read from the patched view. -/
theorem readRegion_eq (small : backing.view.length ≤ isizeMax)
    {fileOffset length : Nat}
    (inside : fileOffset + length ≤ backing.view.length) :
    VhdxReader.readRegion backing overlay fileOffset length =
      .ok (window (patchedView backing overlay) fileOffset length) := by
  unfold isizeMax at small
  rw [VhdxReader.readRegion, failIf_bind, Backing.len_eq_length_view,
    saturatingAdd_eq (by unfold wordCount; omega), if_neg (by omega),
    Backing.readExactAt_eq backing fileOffset (by unfold isizeMax; omega),
    ok_bind, failIf_bind, if_neg (by rw [length_window_of_le inside]; omega),
    patch_window (by unfold wordCount; omega)]

end Patched

/-! ## Decoding an image -/

/-- The region table of an image: the second copy stands in when the first
cannot be used. -/
def decodeRegions (image : Bytes) : Exec VhdxError RegionTable :=
  let head := window image 0 VhdxReader.minContainerSize
  orElse (parseRegionTable head regionTable1Offset image.length)
    (parseRegionTable head regionTable2Offset image.length)

/-- The bytes of a region. -/
def RegionEntry.content (image : Bytes) (entry : RegionEntry) : Bytes :=
  window image entry.fileOffset entry.length

/-- Everything opening decodes from an image after replay. -/
def decodeImage (image : Bytes) (attached : Bool) :
    Exec VhdxError (VhdxMetadata × Bat) := do
  let regions ← decodeRegions image
  let region := regions.metadata.content image
  let metadata ← parseMetadata region 0 region.length
  metadata.validate
  failIf (metadata.hasParent = true ∧ attached = false)
    .differencingNotSupported
  return (metadata,
    { entries := Bat.entriesOf (regions.bat.content image), metadata })

section Decode

variable {image : Bytes}

theorem head_present
    (large : VhdxReader.minContainerSize ≤ image.length) :
    (window image 0 VhdxReader.minContainerSize).length =
      VhdxReader.minContainerSize :=
  length_window_of_le (by omega)

/-- Decoding the region tables settles. -/
theorem settles_decodeRegions
    (large : VhdxReader.minContainerSize ≤ image.length)
    (allocated : image.length ≤ isizeMax) :
    Settles (decodeRegions image) := by
  unfold isizeMax at allocated
  apply Settles.orElse <;> apply settles_parseRegionTable
  · rw [head_present large]
    decide
  · rw [head_present large]
    decide
  · unfold wordCount
    omega
  · rw [head_present large]
    decide
  · rw [head_present large]
    decide
  · unfold wordCount
    omega

/-- A result with a fallback comes from one of the two. -/
theorem orElse_eq_ok {α : Type} {first second : Exec ε α} {a : α}
    (returned : orElse first second = .ok a) :
    first = .ok a ∨ second = .ok a := by
  rcases first with (_ | _ | _) | value
  · exact Or.inr returned
  · cases returned
  · cases returned
  · exact Or.inl returned

/-- The regions that the table copy at `offset` names. -/
def tableRegions (image : Bytes) (offset : Nat) :
    Exec VhdxError RegionTable :=
  let entries := regionEntries image offset (regionEntryCount image offset)
  if RegionTableValid image offset then
    if ∀ entry ∈ entries, entry.Inside image.length then
      resolveRegions entries
    else fail .offsetOutOfBounds
  else fail .invalidRegionTable

/-- The prefix that is read for the tables holds all of both. -/
theorem parseRegionTable_head {offset : Nat}
    (large : VhdxReader.minContainerSize ≤ image.length)
    (allocated : image.length ≤ isizeMax)
    (present : offset + regionTableSpan ≤ VhdxReader.minContainerSize) :
    parseRegionTable (window image 0 VhdxReader.minContainerSize) offset
        image.length = tableRegions image offset := by
  have headLength := head_present large
  have minimum : VhdxReader.minContainerSize < wordCount := by decide
  unfold isizeMax at allocated
  rw [parseRegionTable_eq (by omega) (by omega) (by unfold wordCount; omega)]
  have span : regionTableSpan = 65552 := rfl
  have width : regionEntrySize = 32 := rfl
  have cap : regionEntryCountMax = 2048 := rfl
  have coverage : regionTableCrcCoverage = 65536 := rfl
  have valid : RegionTableValid (window image 0 VhdxReader.minContainerSize)
      offset ↔ RegionTableValid image offset := by
    apply blockValid_congr (by omega) (by omega) (by omega)
    rw [window_window_of_le (by omega), Nat.zero_add]
  have count : regionEntryCount
      (window image 0 VhdxReader.minContainerSize) offset =
        regionEntryCount image offset := by
    rw [regionEntryCount, regionEntryCount,
      leU32_window (by omega) (by omega), Nat.zero_add]
  have entries : regionEntries (window image 0 VhdxReader.minContainerSize)
      offset (regionEntryCount image offset) =
        regionEntries image offset (regionEntryCount image offset) := by
    have capped : regionEntryCount image offset ≤ regionEntryCountMax :=
      min_le_right _ _
    apply List.map_congr_left
    intro index member
    have indexLt := List.mem_range.mp member
    have entryEnd : 16 + index * regionEntrySize + 32 ≤ regionTableSpan := by
      rw [width]
      omega
    rw [regionEntryAt, regionEntryAt, window_window_of_le (by omega),
      leU64_window (by omega) (by omega), leU32_window (by omega) (by omega),
      Nat.zero_add, Nat.zero_add, Nat.zero_add]
  rw [count, entries, tableRegions]
  simp only [valid]

/-- The regions come from the first copy of the table that is accepted. -/
theorem decodeRegions_eq
    (large : VhdxReader.minContainerSize ≤ image.length)
    (allocated : image.length ≤ isizeMax) :
    decodeRegions image =
      orElse (tableRegions image regionTable1Offset)
        (tableRegions image regionTable2Offset) := by
  rw [decodeRegions, parseRegionTable_head large allocated (by decide),
    parseRegionTable_head large allocated (by decide)]

/-- The decoded regions lie in the image. -/
theorem decodeRegions_inside {regions : RegionTable}
    (large : VhdxReader.minContainerSize ≤ image.length)
    (allocated : image.length ≤ isizeMax)
    (decoded : decodeRegions image = .ok regions) :
    regions.bat.Inside image.length ∧
      regions.metadata.Inside image.length := by
  have headLength := head_present large
  unfold isizeMax at allocated
  have imageSmall : image.length < wordCount := by
    unfold wordCount
    omega
  rcases orElse_eq_ok decoded with first | second
  · exact parseRegionTable_inside (by rw [headLength]; decide)
      (by rw [headLength]; decide) imageSmall first
  · exact parseRegionTable_inside (by rw [headLength]; decide)
      (by rw [headLength]; decide) imageSmall second

theorem length_content {entry : RegionEntry}
    (inside : entry.Inside image.length) :
    (entry.content image).length = entry.length :=
  length_window_of_le inside

/-- The entries of a table that lies in the image. -/
theorem getElem?_entriesOf_region {entry : RegionEntry}
    (inside : entry.Inside image.length) (i : Nat) :
    (Bat.entriesOf (entry.content image))[i]? =
      if i < entry.length / 8 then
        some (leU64 image (entry.fileOffset + i * 8))
      else none := by
  have contentLength := length_content inside
  unfold RegionEntry.Inside at inside
  rw [Bat.getElem?_entriesOf, contentLength]
  split
  · rw [RegionEntry.content, leU64_window (by omega) (by omega)]
  · rfl

/-- Decoding an image settles. -/
theorem settles_decodeImage (attached : Bool)
    (large : VhdxReader.minContainerSize ≤ image.length)
    (allocated : image.length ≤ isizeMax) :
    Settles (decodeImage image attached) := by
  refine (settles_decodeRegions large allocated).bind fun regions decoded => ?_
  have inside := (decodeRegions_inside large allocated decoded).2
  refine (settles_parseMetadata ?_).bind fun metadata _ => ?_
  · rw [length_content inside]
    unfold RegionEntry.Inside at inside
    omega
  · exact metadata.settles_validate.bind fun _ _ =>
      (Settles.failIf _ _).bind fun _ _ => settles_ok _

/-- What a successful decoding has read and checked. -/
structure Decodes (image : Bytes) (attached : Bool) (regions : RegionTable)
    (metadata : VhdxMetadata) : Prop where
  /-- The region tables resolve to the regions. -/
  regions_eq : decodeRegions image = .ok regions
  /-- The metadata region holds the description. -/
  metadata_eq :
    parseMetadata (regions.metadata.content image) 0
      (regions.metadata.content image).length = .ok metadata
  /-- The description is valid. -/
  valid : metadata.Valid
  /-- A differencing disk has a parent attached. -/
  parent : metadata.hasParent = true → attached = true

/-- An image decodes exactly if its regions and its description do. -/
theorem decodeImage_eq_ok_iff {attached : Bool} {metadata : VhdxMetadata}
    {bat : Bat} :
    decodeImage image attached = .ok (metadata, bat) ↔
      ∃ regions, Decodes image attached regions metadata ∧
        bat = { entries := Bat.entriesOf (regions.bat.content image)
                metadata } := by
  unfold decodeImage
  constructor
  · intro decoded
    obtain ⟨regions, regionsEq, decoded⟩ := bind_eq_ok.mp decoded
    obtain ⟨found, metadataEq, decoded⟩ := bind_eq_ok.mp decoded
    obtain ⟨⟨⟩, validated, decoded⟩ := bind_eq_ok.mp decoded
    obtain ⟨⟨⟩, parentChecked, decoded⟩ := bind_eq_ok.mp decoded
    cases decoded
    refine ⟨regions, ⟨regionsEq, metadataEq,
      VhdxMetadata.validate_eq_ok_iff.mp validated, ?_⟩, rfl⟩
    unfold failIf at parentChecked
    split at parentChecked
    · cases parentChecked
    · rename_i allowed
      intro differencing
      simpa [differencing] using allowed
  · rintro ⟨regions, decodes, rfl⟩
    rw [decodes.regions_eq, ok_bind]
    dsimp only
    rw [decodes.metadata_eq, ok_bind,
      VhdxMetadata.validate_eq_ok_iff.mpr decodes.valid, ok_bind, failIf_bind,
      if_neg fun orphan => by simp [decodes.parent orphan.1] at orphan]
    rfl

end Decode

namespace VhdxReader

variable {P : Type}

/-- Assembling decodes the patched view. -/
theorem assemble_eq {backing : Backing} {overlay : LogOverlay}
    (parent : Option P)
    (large : minContainerSize ≤ backing.view.length)
    (allocated : backing.view.length ≤ isizeMax) :
    assemble backing overlay parent =
      (decodeImage (patchedView backing overlay) parent.isSome >>=
        fun decoded => .ok {
          backing, overlay, bat := decoded.2, metadata := decoded.1,
          pos := 0, parent }) := by
  have imageLength := length_patchedView backing overlay
  have viewSmall : backing.view.length < wordCount := by
    unfold isizeMax at allocated
    unfold wordCount
    omega
  rw [assemble, Backing.readExactAt_eq backing 0 (by decide), ok_bind,
    patch_window viewSmall, ok_bind, Backing.len_eq_length_view]
  dsimp only
  rw [← imageLength]
  change (decodeRegions (patchedView backing overlay) >>= _) = _
  unfold decodeImage
  cases decoded : decodeRegions (patchedView backing overlay) with
  | error stop => rfl
  | ok regions =>
      obtain ⟨batInside, metadataInside⟩ := decodeRegions_inside
        (by omega) (by omega) decoded
      have metadataLength := length_content metadataInside
      have batLength := length_content batInside
      unfold RegionEntry.Inside at batInside metadataInside
      rw [ok_bind, ok_bind, readRegion_eq allocated (by omega), ok_bind]
      dsimp only
      rw [metadataLength]
      change (parseMetadata (regions.metadata.content _) _ _ >>= _) = _
      cases parseMetadata (regions.metadata.content
          (patchedView backing overlay)) 0 regions.metadata.length with
      | error stop => rfl
      | ok metadata =>
          rw [ok_bind, ok_bind]
          cases metadata.validate with
          | error stop => rfl
          | ok _ =>
              rw [ok_bind, ok_bind, failIf_bind, failIf_bind,
                readRegion_eq allocated (by omega), ok_bind]
              change _ = (if _ then _ else _) >>= _
              by_cases orphan : metadata.hasParent = true ∧ parent.isNone = true
              · rw [if_pos orphan, if_pos ⟨orphan.1, by
                  simpa using orphan.2⟩]
                rfl
              · rw [if_neg orphan, if_neg fun lonely => orphan ⟨lonely.1, by
                  simpa using lonely.2⟩]
                have batAllocated : (regions.bat.content
                    (patchedView backing overlay)).length ≤ isizeMax := by
                  omega
                have parsed := Bat.parse_eq metadata batAllocated
                rw [batLength] at parsed
                change (Bat.parse (regions.bat.content _) _ _ _ >>= _) = _
                rw [parsed]
                rfl

/-- Assembling a reader settles. -/
theorem settles_assemble {backing : Backing} {overlay : LogOverlay}
    (parent : Option P)
    (large : minContainerSize ≤ backing.view.length)
    (allocated : backing.view.length ≤ isizeMax) :
    Settles (assemble backing overlay parent) := by
  rw [assemble_eq parent large allocated]
  refine (settles_decodeImage _ ?_ ?_).bind fun _ _ => settles_ok _
  · rwa [length_patchedView]
  · rwa [length_patchedView]

/-! ## Both ways of opening -/

/-- The checks that precede header selection. -/
def openGate (data : Bytes) : Exec VhdxError Unit := do
  failIf (data.length < 8 ∨ window data 0 8 ≠ fileMagic) .badMagic
  failIf (data.length < minContainerSize) (.containerTooSmall minContainerSize)

theorem settles_openGate (data : Bytes) : Settles (openGate data) :=
  (Settles.failIf _ _).bind fun _ _ => Settles.failIf _ _

/-- The gate checks the magic and the size. -/
theorem openGate_eq_ok_iff {data : Bytes} :
    openGate data = .ok () ↔
      window data 0 8 = fileMagic ∧ minContainerSize ≤ data.length := by
  have large : 8 ≤ minContainerSize := by decide
  unfold openGate
  rw [failIf_bind]
  split
  · rename_i bad
    refine iff_of_false (fail_ne_ok _ _) fun good => ?_
    rcases bad with short | unknown
    · omega
    · exact unknown good.1
  · rename_i good
    unfold failIf
    split
    · exact iff_of_false (fail_ne_ok _ _) fun both => by omega
    · refine iff_of_true rfl ⟨?_, by omega⟩
      by_contra unknown
      exact good (Or.inr unknown)

/-- The entries a container has replayed when it is opened: those of the log
region of its active header. -/
def replayedEntries (data : Bytes) : List Bytes :=
  match activeHeader data with
  | none => []
  | some header =>
      if window data 0 8 = fileMagic ∧ minContainerSize ≤ data.length ∧
          ¬ header.IsClean ∧
          header.logOffset + header.logLength ≤ data.length then
        logEntries (logRegion data header) header.logGuid
      else []

/-- Without entries to replay opening stops early or changes nothing. -/
theorem replayedEntries_eq (data : Bytes) :
    replayedEntries data =
      match openGate data >>= fun _ => pendingEntries data with
      | .ok entries => entries
      | .error _ => [] := by
  unfold replayedEntries pendingEntries
  cases gate : openGate data with
  | error stop =>
      have closed : ¬ (window data 0 8 = fileMagic ∧
          minContainerSize ≤ data.length) := by
        rw [← openGate_eq_ok_iff, gate]
        intro impossible
        cases impossible
      rw [error_bind]
      split
      · rfl
      · rw [if_neg fun all => closed ⟨all.1, all.2.1⟩]
  | ok _ =>
      obtain ⟨known, large⟩ := openGate_eq_ok_iff.mp gate
      rw [ok_bind]
      cases activeHeader data with
      | none => rfl
      | some header =>
          dsimp only
          by_cases clean : header.IsClean
          · rw [if_neg fun all => all.2.2.1 clean, if_pos clean]
          by_cases leaves : data.length < header.logOffset + header.logLength
          · rw [if_neg (by omega), if_neg clean, if_pos leaves]
            rfl
          · rw [if_pos ⟨known, large, clean, by omega⟩, if_neg clean,
              if_neg leaves]

/-- Opening a buffer: replay the pending entries and assemble the reader. -/
theorem fromBytes_eq {data : Bytes} (parent : Option P)
    (allocated : data.length ≤ isizeMax) :
    fromBytes data parent =
      (openGate data >>= fun _ => pendingEntries data >>= fun entries =>
        entries.foldlM applyEntry data >>= fun image =>
          assemble (.mem image) {} parent) := by
  rw [fromBytes, parseBytes, apply_eq allocated, openGate, failIf_bind]
  split
  · rename_i bad
    rw [failIf_bind, if_pos bad]
    rfl
  · rename_i good
    rw [failIf_bind, failIf_bind, if_neg good, failIf]
    split
    · rfl
    · rw [ok_bind]
      cases pendingEntries data <;> rfl

/-- Opening a backing: record the pending entries and assemble the reader. -/
theorem fromBacking_eq {backing : Backing} (parent : Option P)
    (allocated : backing.view.length ≤ isizeMax) :
    fromBacking backing parent =
      (openGate backing.view >>= fun _ =>
        pendingEntries backing.view >>= fun entries =>
          entries.foldlM overlayEntry {} >>= fun overlay =>
            assemble backing overlay parent) := by
  have magicShort : min 8 (backing.view.length - 0) < 8 ↔
      backing.view.length < 8 := by
    omega
  rw [fromBacking, parseBacking, Backing.readAt_eq_window, openGate,
    Backing.len_eq_length_view, length_window, failIf_bind, failIf_bind,
    failIf_bind]
  by_cases bad : backing.view.length < 8 ∨ window backing.view 0 8 ≠ fileMagic
  · rw [if_pos (bad.imp_left magicShort.mpr), if_pos bad, fail_bind]
  rw [if_neg fun short => bad (short.imp_left magicShort.mp), if_neg bad,
    failIf]
  by_cases tooSmall : backing.view.length < minContainerSize
  · rw [if_pos tooSmall, if_pos tooSmall, fail_bind]
  have slots : SameHeaderSlots
      (window backing.view 0 minContainerSize) backing.view := by
    have headLength : (window backing.view 0 minContainerSize).length =
        minContainerSize := head_present (by omega)
    constructor
    · rw [headLength]
      decide
    · have : regionTable1Offset ≤ minContainerSize := by decide
      omega
    · rw [window_window_of_le (by decide), Nat.zero_add]
    · rw [window_window_of_le (by decide), Nat.zero_add]
  rw [if_neg tooSmall, if_neg tooSmall, ok_bind,
    Backing.readExactAt_eq backing 0 (by decide), ok_bind,
    parseActiveHeader_eq, activeHeader_congr slots]
  have overlays := buildOverlay_eq allocated
  cases active : activeHeader backing.view with
  | none =>
      rw [active] at overlays
      cases pending : pendingEntries backing.view with
      | error stop =>
          rw [pending] at overlays
          cases overlays
          rfl
      | ok entries =>
          unfold pendingEntries at pending
          rw [active] at pending
          cases pending
  | some header =>
      rw [active, okOr_some, ok_bind] at overlays
      rw [okOr_some, ok_bind, overlays]
      cases pendingEntries backing.view <;> rfl

/-- The reader over a buffer that needs no replay. -/
def plainReader (data : Bytes) (metadata : VhdxMetadata) (bat : Bat)
    (parent : Option P) : VhdxReader P where
  backing := .mem data
  overlay := {}
  bat := bat
  metadata := metadata
  pos := 0
  parent := parent

/-- Without a log to replay, opening decodes the container as it is. -/
theorem fromBytes_of_clean {data : Bytes} {header : VhdxHeader}
    (parent : Option P)
    (allocated : data.length ≤ isizeMax)
    (gate : openGate data = .ok ())
    (active : activeHeader data = some header)
    (clean : header.IsClean) :
    fromBytes data parent =
      (decodeImage data parent.isSome >>= fun decoded =>
        .ok (plainReader data decoded.1 decoded.2 parent)) := by
  have large := (openGate_eq_ok_iff.mp gate).2
  have pending : pendingEntries data = .ok [] := by
    rw [pendingEntries, active]
    exact if_pos clean
  rw [fromBytes_eq parent allocated, gate, ok_bind, pending, ok_bind]
  change assemble (.mem data) {} parent = _
  have assembled := @assemble_eq P (.mem data) {} parent large allocated
  rw [assembled, patchedView_mem]
  rfl

/-- Nothing is replayed, or the entries are the pending ones. -/
theorem replayedEntries_of_pending {data : Bytes} {entries : List Bytes}
    (passed : openGate data = .ok ())
    (pending : pendingEntries data = .ok entries) :
    replayedEntries data = entries := by
  rw [replayedEntries_eq, passed, ok_bind, pending]

/-! ## Opening without a panic -/

/-- Opening in place settles exactly when every replayed entry is safe. -/
theorem settles_fromBytes_iff {data : Bytes} (parent : Option P)
    (allocated : data.length ≤ isizeMax) :
    Settles (fromBytes data parent) ↔
      ∀ entry ∈ replayedEntries data, LogEntry.ApplySafe entry := by
  have small : data.length < wordCount := Buffer.length_lt ⟨data, allocated⟩
  rw [fromBytes_eq parent allocated, replayedEntries_eq]
  rcases settles_iff.mp (settles_openGate data) with ⟨⟨⟩, gate⟩ | ⟨e, gate⟩
  case inr =>
    rw [gate, fail_bind, fail_bind]
    exact iff_of_true (settles_fail e) (by simp [fail])
  rcases settles_iff.mp (settles_pendingEntries data) with
    ⟨entries, pending⟩ | ⟨e, pending⟩
  case inr =>
    rw [gate, ok_bind, ok_bind, pending, fail_bind]
    exact iff_of_true (settles_fail e) (by simp [fail])
  have headers := header_le_of_pendingEntries pending
  have large := (openGate_eq_ok_iff.mp gate).2
  rw [gate, ok_bind, ok_bind, pending, ok_bind]
  rw [← settles_foldlM_applyEntry_iff (ε := VhdxError) small headers]
  refine ⟨Settles.of_bind, fun replayed => replayed.bind ?_⟩
  intro image applied
  have safe := (settles_foldlM_applyEntry_iff small headers).mp replayed
  rw [foldlM_applyEntry_eq_ok small headers safe] at applied
  cases applied
  apply settles_assemble
  · simpa [Backing.view] using large
  · simpa [Backing.view] using allocated

/-- Opening in place succeeds when all gates are passed, every pending entry
is safe to replay and the replayed container can be decoded. -/
theorem fromBytes_eq_ok_iff {data : Bytes} {parent : Option P}
    {reader : VhdxReader P} (allocated : data.length ≤ isizeMax) :
    fromBytes data parent = .ok reader ↔
      ∃ entries, openGate data = .ok () ∧ pendingEntries data = .ok entries ∧
        (∀ entry ∈ entries, LogEntry.ApplySafe entry) ∧
        assemble (.mem (applyWrites data (entryWrites entries))) {} parent =
          .ok reader := by
  have small : data.length < wordCount := Buffer.length_lt ⟨data, allocated⟩
  constructor
  · intro opened
    have settles := (settles_fromBytes_iff parent allocated).mp
      (Settles.of_eq_ok opened)
    rw [fromBytes_eq parent allocated] at opened
    obtain ⟨⟨⟩, gate, opened⟩ := bind_eq_ok.mp opened
    obtain ⟨entries, pending, opened⟩ := bind_eq_ok.mp opened
    have safe := settles
    rw [replayedEntries_of_pending gate pending] at safe
    rw [foldlM_applyEntry_eq_ok small (header_le_of_pendingEntries pending)
      safe, ok_bind] at opened
    exact ⟨entries, gate, pending, safe, opened⟩
  · rintro ⟨entries, gate, pending, safe, assembled⟩
    rw [fromBytes_eq parent allocated, gate, ok_bind, pending, ok_bind,
      foldlM_applyEntry_eq_ok small (header_le_of_pendingEntries pending)
        safe, ok_bind, assembled]

/-- Opening through an overlay settles exactly when every replayed entry is
safe to record. -/
theorem settles_fromBacking_iff {backing : Backing} (parent : Option P)
    (allocated : backing.view.length ≤ isizeMax) :
    Settles (fromBacking backing parent) ↔
      ∀ entry ∈ replayedEntries backing.view,
        LogEntry.OverlaySafe entry := by
  rw [fromBacking_eq parent allocated, replayedEntries_eq]
  rcases settles_iff.mp (settles_openGate backing.view) with
    ⟨⟨⟩, gate⟩ | ⟨e, gate⟩
  case inr =>
    rw [gate, fail_bind, fail_bind]
    exact iff_of_true (settles_fail e) (by simp [fail])
  rcases settles_iff.mp (settles_pendingEntries backing.view) with
    ⟨entries, pending⟩ | ⟨e, pending⟩
  case inr =>
    rw [gate, ok_bind, ok_bind, pending, fail_bind]
    exact iff_of_true (settles_fail e) (by simp [fail])
  have headers := header_le_of_pendingEntries pending
  have large := (openGate_eq_ok_iff.mp gate).2
  rw [gate, ok_bind, ok_bind, pending, ok_bind,
    ← settles_foldlM_overlayEntry_iff (ε := VhdxError) {} headers]
  exact ⟨Settles.of_bind, fun recorded => recorded.bind fun overlay _ =>
    settles_assemble parent large allocated⟩

end VhdxReader
end VhdxForensic

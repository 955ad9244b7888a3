import VhdxForensic.Core.StorageReader

/-!
# How much is read

Opening reads the fixed structures and three regions, and reading a buffer
reads at most twice its size, for containers and parents of any behaviour. The
size of the container or of the disk does not enter.
-/

namespace VhdxForensic

open Rust Rust.Bytes Rust.Exec Rust.Asking

/-! ## Lengths in the region table -/

/-- The remembered regions have lengths of 32 bits. -/
def ShortRegions (state : Option RegionEntry × Option RegionEntry) : Prop :=
  (∀ entry ∈ state.1, entry.length < 2 ^ 32) ∧
    ∀ entry ∈ state.2, entry.length < 2 ^ 32

/-- One pass over the table keeps the found regions short. -/
theorem shortRegions_step {table : Bytes} {containerLen index : Nat}
    {state next : Option RegionEntry × Option RegionEntry}
    (short : ShortRegions state)
    (passed : regionTableStep table containerLen index state =
        .ok (.yield next) ∨
      regionTableStep table containerLen index state = .ok (.done next)) :
    ShortRegions next := by
  have remembered : ∀ outcome,
      regionTableStep table containerLen index state = .ok outcome →
        ∀ next, outcome = .yield next ∨ outcome = .done next →
          ShortRegions next := by
    intro outcome stepped next isNext
    unfold regionTableStep at stepped
    obtain ⟨base, -, stepped⟩ := bind_eq_ok.mp stepped
    obtain ⟨entryEnd, -, stepped⟩ := bind_eq_ok.mp stepped
    split at stepped
    · cases stepped
      rcases isNext with isNext | isNext <;> cases isNext
      exact short
    obtain ⟨guid, -, stepped⟩ := bind_eq_ok.mp stepped
    obtain ⟨regionEnd, -, stepped⟩ := bind_eq_ok.mp stepped
    obtain ⟨_, -, stepped⟩ := bind_eq_ok.mp stepped
    have fresh : ∀ entry ∈ some ({
        guid, fileOffset := leU64 table (base + 16),
        length := leU32 table (base + 24) } : RegionEntry),
        entry.length < 2 ^ 32 := by
      rintro entry ⟨⟩
      exact leU32_lt _ _
    split at stepped
    · cases stepped
      rcases isNext with isNext | isNext <;> cases isNext
      exact ⟨fresh, short.2⟩
    split at stepped
    · cases stepped
      rcases isNext with isNext | isNext <;> cases isNext
      exact ⟨short.1, fresh⟩
    · cases stepped
      rcases isNext with isNext | isNext <;> cases isNext
      exact short
  rcases passed with passed | passed
  · exact remembered _ passed next (.inl rfl)
  · exact remembered _ passed next (.inr rfl)

/-- A table that parses, of whatever data, names regions of 32-bit lengths. -/
theorem parseRegionTable_lengths {data : Bytes} {offset containerLen : Nat}
    {regions : RegionTable}
    (parsed : parseRegionTable data offset containerLen = .ok regions) :
    regions.bat.length < 2 ^ 32 ∧ regions.metadata.length < 2 ^ 32 := by
  unfold parseRegionTable at parsed
  obtain ⟨headerEnd, -, parsed⟩ := bind_eq_ok.mp parsed
  obtain ⟨_, -, parsed⟩ := bind_eq_ok.mp parsed
  obtain ⟨table, -, parsed⟩ := bind_eq_ok.mp parsed
  obtain ⟨signature, -, parsed⟩ := bind_eq_ok.mp parsed
  obtain ⟨_, -, parsed⟩ := bind_eq_ok.mp parsed
  obtain ⟨covered, -, parsed⟩ := bind_eq_ok.mp parsed
  obtain ⟨buf, -, parsed⟩ := bind_eq_ok.mp parsed
  obtain ⟨_, -, parsed⟩ := bind_eq_ok.mp parsed
  obtain ⟨state, looped, parsed⟩ := bind_eq_ok.mp parsed
  obtain ⟨bat, batFound, parsed⟩ := bind_eq_ok.mp parsed
  obtain ⟨metadata, metadataFound, parsed⟩ := bind_eq_ok.mp parsed
  cases parsed
  have start : ShortRegions (none, none) := by
    constructor <;> exact fun entry member => nomatch member
  obtain ⟨batShort, metadataShort⟩ := forRange_keeps
    (fun _ _ _ short passed => shortRegions_step short passed) start looped
  exact ⟨batShort _ (okOr_eq_ok.mp batFound),
    metadataShort _ (okOr_eq_ok.mp metadataFound)⟩

namespace ReaderProgram

/-! ## Opening -/

section Opening

variable {containerLen : Nat}

/-- The largest region that is read: it has a length of 32 bits and lies in
the container. -/
def regionLimit (containerLen : Nat) : Nat :=
  min containerLen (2 ^ 32 - 1)

/-- A computation that spends at most `cost` of what it has. -/
abbrev Within {α : Type} (cost budget : Nat) (run : Opening α)
    (holds : α → Prop) : Prop :=
  run.Spends ContainerRequest.size
    (fun left a => budget ≤ left + cost ∧ holds a) budget

theorem within_done {α : Type} {result : Exec VhdxError α} {budget : Nat}
    {holds : α → Prop} (returned : ∀ a, result = .ok a → holds a) :
    Within 0 budget (.done result) holds :=
  spends_done fun a found => ⟨Nat.le_refl budget, returned a found⟩

theorem within_any {α : Type} (result : Exec VhdxError α) (budget : Nat) :
    Within 0 budget (.done result) fun _ => True :=
  within_done fun _ _ => trivial

theorem within_send {request : ContainerRequest} {count budget : Nat}
    (sized : request.size = count) (affordable : count ≤ budget) :
    Within count budget (send request) fun _ => True := by
  subst sized
  exact spends_send affordable fun _ =>
    ⟨Nat.le_of_eq (Nat.sub_add_cancel affordable).symm, trivial⟩

theorem within_readExactAt {offset count budget : Nat}
    (affordable : count ≤ budget) :
    Within count budget (send (.readExactAt offset count)) fun _ => True :=
  within_send rfl affordable

/-- A range that ends in the container is no longer than a region. -/
theorem le_regionLimit {offset count : Nat} (short : count < 2 ^ 32)
    (inside : ¬ containerLen < saturatingAdd offset count) :
    count ≤ regionLimit containerLen := by
  unfold saturatingAdd wordCount at inside
  unfold regionLimit
  omega

theorem within_failIf {budget : Nat} (condition : Prop) [Decidable condition]
    (e : VhdxError) :
    Within 0 budget (.done (failIf condition e)) fun _ => ¬ condition := by
  refine within_done fun passed returned => ?_
  unfold failIf at returned
  split at returned
  · cases returned
  · assumption

/-- Reading a region costs the region. -/
theorem within_readRegion (overlay : LogOverlay)
    {fileOffset length budget : Nat} (short : length < 2 ^ 32)
    (enough : regionLimit containerLen ≤ budget) :
    Within (regionLimit containerLen) budget
      (readRegion containerLen overlay fileOffset length) fun _ => True := by
  refine (within_failIf _ _).bind fun first _ ⟨atFirst, inside⟩ => ?_
  have small := le_regionLimit short inside
  refine (within_readExactAt (by omega)).bind
    fun second buf ⟨atSecond, _⟩ => ?_
  refine (within_any _ _).bind fun third _ ⟨atThird, _⟩ => ?_
  exact spends_done fun _ _ => ⟨by omega, trivial⟩

/-- Reading the log costs the log. -/
theorem within_buildOverlay {header : VhdxHeader} {budget : Nat}
    (short : header.logLength < 2 ^ 32)
    (enough : regionLimit containerLen ≤ budget) :
    Within (regionLimit containerLen) budget
      (buildOverlay containerLen header) fun _ => True := by
  unfold buildOverlay
  split
  · exact ⟨Nat.le_add_right _ _, trivial⟩
  refine (within_failIf _ _).bind ?_
  rintro first _ ⟨atFirst, inside⟩
  have small := le_regionLimit short inside
  refine (within_readExactAt (by omega)).bind ?_
  rintro second log ⟨atSecond, -⟩
  refine (within_any _ _).bind ?_
  rintro third _ ⟨atThird, -⟩
  refine (within_any _ _).bind ?_
  rintro fourth entries ⟨atFourth, -⟩
  exact spends_done fun _ _ => ⟨by omega, trivial⟩

/-- Bytes that decoding reads: the prefix and two regions. -/
def assembleLimit (containerLen : Nat) : Nat :=
  VhdxReader.minContainerSize + 2 * regionLimit containerLen

/-- Assembling reads the tables, the metadata and the table of blocks. -/
theorem within_assemble (overlay : LogOverlay) (attached : Bool)
    {budget : Nat} (enough : assembleLimit containerLen ≤ budget) :
    Within (assembleLimit containerLen) budget
      (assemble containerLen overlay attached) fun _ => True := by
  unfold assembleLimit at enough ⊢
  refine (within_readExactAt (by omega)).bind fun first head ⟨atFirst, _⟩ => ?_
  refine (within_any _ _).bind fun second patched ⟨atSecond, _⟩ => ?_
  have decodes : Within 0 second (.done (orElse
      (parseRegionTable patched regionTable1Offset containerLen)
      (parseRegionTable patched regionTable2Offset containerLen)))
      fun regions => regions.bat.length < 2 ^ 32 ∧
        regions.metadata.length < 2 ^ 32 := by
    refine within_done fun regions found => ?_
    rcases orElse_eq_ok found with found | found
    · exact parseRegionTable_lengths found
    · exact parseRegionTable_lengths found
  refine decodes.bind fun third regions
    ⟨atThird, batShort, metadataShort⟩ => ?_
  refine (within_readRegion overlay metadataShort (by omega)).bind
    fun fourth metaRegion ⟨atFourth, _⟩ => ?_
  refine (within_any _ _).bind fun fifth metadata ⟨atFifth, _⟩ => ?_
  refine (within_any _ _).bind fun sixth _ ⟨atSixth, _⟩ => ?_
  refine (within_any _ _).bind fun seventh _ ⟨atSeventh, _⟩ => ?_
  refine (within_readRegion overlay batShort (by omega)).bind
    fun eighth batRegion ⟨atEighth, _⟩ => ?_
  refine (within_any _ _).bind fun ninth bat ⟨atNinth, _⟩ => ?_
  exact ⟨by omega, trivial⟩

/-- Bytes that opening reads: the magic, the prefix twice and three
regions. -/
def openingLimit (containerLen : Nat) : Nat :=
  8 + 2 * VhdxReader.minContainerSize + 3 * regionLimit containerLen

/-- Opening stays within its limit, whatever the container answers. -/
theorem spends_parseBacking (containerLen : Nat) (attached : Bool) :
    (parseBacking containerLen attached).Spends ContainerRequest.size
      (fun _ _ => True) (openingLimit containerLen) := by
  obtain ⟨budget, budgetEq⟩ : ∃ budget, budget = openingLimit containerLen :=
    ⟨_, rfl⟩
  rw [← budgetEq]
  unfold openingLimit at budgetEq
  have magic : Within 8 budget (send (.readAt 8 0)) fun _ => True :=
    within_send rfl (by omega)
  refine magic.bind fun first _ ⟨atFirst, _⟩ => ?_
  refine (within_any _ _).bind fun second _ ⟨atSecond, _⟩ => ?_
  refine (within_any _ _).bind fun third _ ⟨atThird, _⟩ => ?_
  refine (within_readExactAt (by omega)).bind
    fun fourth head ⟨atFourth, _⟩ => ?_
  have selects : Within 0 fourth (.done (parseActiveHeader head))
      fun header => header.logLength < 2 ^ 32 := by
    refine within_done fun header found => ?_
    rw [parseActiveHeader_eq] at found
    exact (activeHeader_bounds (okOr_eq_ok.mp found)).2
  refine selects.bind fun fifth header ⟨atFifth, short⟩ => ?_
  refine (within_buildOverlay short (by omega)).bind
    fun sixth overlay ⟨atSixth, _⟩ => ?_
  have enough : assembleLimit containerLen ≤ sixth := by
    unfold assembleLimit
    omega
  exact (within_assemble overlay attached enough).mono fun _ _ _ => trivial

end Opening

/-! ## Reading -/

section Reading

variable {decoded : Decoded} {virtualByte limit budget : Nat}

/-- A computation without requests leaves the budget. -/
theorem keeps_budget {α : Type} (result : Exec IoError α) (budget : Nat) :
    (Asking.done result : Reading α).Spends ReaderRequest.size
      (fun left _ => left = budget) budget :=
  spends_done fun _ _ => rfl

/-- Planning a chunk reads at most one byte of a sector bitmap. -/
theorem spends_planChunk (enough : 1 ≤ budget) :
    (planChunk decoded virtualByte limit).Spends ReaderRequest.size
      (fun left plan => budget ≤ left + 1 ∧ plan.2 ≤ limit) budget := by
  refine (keeps_budget _ _).bind ?_
  rintro _ block rfl
  refine (keeps_budget _ _).bind ?_
  rintro _ nextBlock rfl
  refine (keeps_budget _ _).bind ?_
  rintro _ blockEnd rfl
  refine (keeps_budget _ _).bind ?_
  rintro _ blockRest rfl
  have inLimit : min limit blockRest ≤ limit := min_le_left _ _
  refine (keeps_budget _ _).bind ?_
  rintro budget (e | target) rfl
  · trivial
  cases target with
  | file fileOffset => exact ⟨Nat.le_succ _, inLimit⟩
  | parent => exact ⟨Nat.le_succ _, inLimit⟩
  | zero => exact ⟨Nat.le_succ _, inLimit⟩
  | partialBlock fileOffset bitmapByteFileOffset bitmapBit =>
      refine ⟨enough, fun bitmap => ?_⟩
      have spent : budget ≤ budget - 1 + 1 := by omega
      change ((Asking.done (failIf (bitmap.length < 1) _) : Reading Unit) >>=
        _).Spends _ _ (budget - 1)
      refine (keeps_budget _ _).bind ?_
      rintro _ _ rfl
      refine (keeps_budget _ _).bind ?_
      rintro _ patched rfl
      refine (keeps_budget _ _).bind ?_
      rintro _ sector rfl
      refine (keeps_budget _ _).bind ?_
      rintro _ runEndSector rfl
      refine (keeps_budget _ _).bind ?_
      rintro _ runEnd rfl
      refine (keeps_budget _ _).bind ?_
      rintro _ runRest rfl
      have shorter : min (min limit blockRest) runRest ≤ limit :=
        Nat.le_trans (min_le_left _ _) inLimit
      dsimp only
      split <;> exact ⟨spent, shorter⟩

/-- Reading a chunk reads no more than its size. -/
theorem spends_readSource {count : Nat} (source : VhdxReader.ChunkSource)
    (enough : count ≤ budget) :
    (readSource decoded virtualByte count source).Spends ReaderRequest.size
      (fun left _ => budget ≤ left + count) budget := by
  have spent : budget ≤ budget - count + count := by omega
  cases source with
  | file fileOffset =>
      refine ⟨enough, fun bytes => ?_⟩
      change ((Asking.done (failIf (bytes.length < count) _) :
        Reading Unit) >>= _).Spends _ _ (budget - count)
      refine (keeps_budget _ _).bind ?_
      rintro _ _ rfl
      exact (keeps_budget _ _).mono fun left _ isLeft => by omega
  | parent => exact ⟨enough, fun _ => spent⟩
  | zero => exact Nat.le_add_right _ _

/-- A loop that fills `toRead` bytes reads at most twice as many: every pass
reads its chunk and at most one byte of a bitmap. -/
theorem spends_readLoop (pos toRead written : Nat)
    (enough : 2 * (toRead - written) ≤ budget) :
    (readLoop decoded pos toRead written).Spends ReaderRequest.size
      (fun _ _ => True) budget := by
  induction remaining : toRead - written using Nat.strong_induction_on
    generalizing written budget with
  | _ remaining inductionHypothesis =>
      subst remaining
      rw [readLoop]
      by_cases more : written < toRead
      case neg =>
        rw [dif_neg more]
        trivial
      rw [dif_pos more]
      refine (keeps_budget _ _).bind ?_
      rintro _ virtualByte rfl
      refine (spends_planChunk (by omega)).bind ?_
      rintro planned plan ⟨afterPlan, inLimit⟩
      refine (spends_readSource plan.1 (by omega)).bind
        fun left chunk afterChunk => ?_
      by_cases stuck : plan.2 = 0
      · rw [dif_pos stuck]
        trivial
      rw [dif_neg stuck]
      refine (inductionHypothesis _ ?_ (written + plan.2) ?_ rfl).bind
        fun _ _ _ => trivial
      · omega
      · omega

end Reading

end ReaderProgram

/-! ## Requests of a reader -/

namespace StorageReader

variable {B P : Type} [Storage B]

/-- The requests that opening sends. -/
def openingRequests (backing : B) (parent : Option P) :
    List ContainerRequest :=
  (ReaderProgram.parseBacking (Storage.len backing) parent.isSome).sent
    answerOpening backing

variable [ReadSeek IoError P]

/-- The requests that one call sends. -/
def requests (reader : StorageReader B P) : Call → List ReaderRequest
  | .read count =>
      let size := reader.decoded.metadata.virtualDiskSize
      if reader.pos ≥ size then []
      else (ReaderProgram.readLoop reader.decoded reader.pos
        (min count (size - reader.pos)) 0).sent answerReading
          (reader.backing, reader.parent)
  | .seek _ => []

/-- The requests that a sequence of calls sends. -/
def runRequests : List Call → StorageReader B P → List ReaderRequest
  | [], _ => []
  | call :: calls, reader =>
      reader.requests call ++ runRequests calls (performFully reader call).2

/-- Size of the buffer that a call fills. -/
def bufferSize : Call → Nat
  | .read count => count
  | .seek _ => 0

/-- One call reads at most twice the size of its buffer. -/
theorem sum_requests_le (reader : StorageReader B P) (call : Call) :
    ((reader.requests call).map ReaderRequest.size).sum ≤
      2 * bufferSize call := by
  cases call with
  | seek target => exact Nat.le_refl 0
  | read count =>
      rw [requests]
      split
      · exact Nat.zero_le _
      · refine (ReaderProgram.spends_readLoop _ _ 0 ?_).sent_le _ _
        rw [bufferSize]
        omega

/-- Whatever the containers and parents answer, opening reads a bounded number
of bytes, and a run reads at most twice what its buffers take. -/
theorem requests_bounded (backing : B) (parent : Option P)
    (reader : StorageReader B P) (calls : List Call) :
    ((openingRequests backing parent).map ContainerRequest.size).sum ≤
        8 + 2 * VhdxReader.minContainerSize +
          3 * min (Storage.len backing) (2 ^ 32 - 1) ∧
      ((runRequests calls reader).map ReaderRequest.size).sum ≤
        2 * (calls.map bufferSize).sum := by
  constructor
  · exact (ReaderProgram.spends_parseBacking (Storage.len backing)
      parent.isSome).sent_le answerOpening backing
  · induction calls generalizing reader with
    | nil => exact Nat.zero_le _
    | cons call calls inductionHypothesis =>
        have first := reader.sum_requests_le call
        have later := inductionHypothesis (performFully reader call).2
        rw [runRequests, List.map_append, List.sum_append, List.map_cons,
          List.sum_cons]
        omega

end StorageReader

end VhdxForensic

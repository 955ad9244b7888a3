import VhdxForensic.Core.BackingCalls
import VhdxForensic.Core.Container
import VhdxForensic.Core.StorageReader

/-!
# Readers do not show their backings

An image is opened over a file, a range of a file, a buffer or a stream. As
long as these deliver their bytes, in whatever portions, the reader behaves
as if the bytes were in memory, and so does a chain of images on backings of
different kinds.
-/

namespace VhdxForensic

open Rust Rust.Bytes Rust.Exec

/-- `File::metadata().len()`, zero when there is no metadata. Reads leave the
length of a file alone. -/
class FileLength (F : Type) [PositionedRead F] where
  /-- Length of an open file. -/
  len : F → Nat
  /-- Reading does not change it. -/
  len_readAt : ∀ file offset slice,
    len (PositionedRead.readAt file offset slice).2 = len file

/-- The error of a read as the reader passes it on. -/
def ioOfRead : ReadError → IoError
  | .interrupted => .other "operation interrupted"
  | .other message => .other message

/-- A read whose error is passed on. -/
def passOn {α : Type} : Exec ReadError α → Exec IoError α
  | .ok a => .ok a
  | .error (.error e) => fail (ioOfRead e)
  | .error .panic => panicked
  | .error .diverges => .error .diverges

section Storage

variable {F S : Type} [PositionedRead F] [FileLength F] [ReadSeekSend S]

namespace OpenBacking

omit [ReadSeekSend S] in
/-- Total length of the container. -/
def len : OpenBacking F S → Nat
  | .file handle => FileLength.len handle
  | .sub _ _ len => len
  | .mem bytes => bytes.length
  | .reader _ _ len => len

/-- A fill loop is given as many passes as a machine word counts. -/
instance : Storage (OpenBacking F S) where
  len := len
  answer backing
    | .readAt count offset =>
        let (result, backing) :=
          backing.readAt wordCount (List.replicate count 0) offset
        (passOn (result.map fun delivered => delivered.2.take delivered.1),
          backing)
    | .readExactAt offset count =>
        let (result, backing) := backing.readExactAt wordCount offset count
        (passOn result, backing)

/-- Reading leaves the length of a backing alone. -/
theorem len_readAt (fuel : Nat) (backing : OpenBacking F S) (buf : Bytes)
    (offset : Nat) : (backing.readAt fuel buf offset).2.len = backing.len := by
  have preads : ∀ (handle : F) (dst : Bytes) (start : Nat),
      FileLength.len (preadInto fuel handle dst start).2 =
        FileLength.len handle := by
    intro handle dst start
    refine @fillLoop_keeps F true _
      (fun file => FileLength.len file = FileLength.len handle)
      ?_ fuel handle dst 0 rfl
    intro file total slice kept
    cases add (ε := ReadError) start total with
    | error stop => exact kept
    | ok pos => exact (FileLength.len_readAt file pos slice).trans kept
  cases backing with
  | file handle => exact preads handle buf offset
  | sub handle base len =>
      rw [readAt]
      dsimp only
      split
      · rfl
      · cases add (ε := ReadError) base offset <;> rfl
  | mem bytes => rfl
  | reader inner poisoned len =>
      rw [readAt]
      dsimp only
      split
      · rfl
      · split <;> rfl

/-- A backing that presents bytes of its length answers from them. -/
theorem serves_of_presents {backing : OpenBacking F S} {contents : Bytes}
    (presents : backing.Presents contents)
    (lengthEq : backing.len = contents.length) :
    Storage.Serves contents backing := by
  refine ⟨fun backing => backing.Presents contents ∧
    backing.len = contents.length, ⟨presents, lengthEq⟩, ?_⟩
  rintro backing ⟨presents, lengthEq⟩
  refine ⟨lengthEq, fun request typed => ?_⟩
  -- Both requests fill a fresh buffer of the size they ask for.
  have filled : ∀ {count offset : Nat}, count ≤ isizeMax →
      offset < wordCount → ∃ backing',
        backing.readAt wordCount (List.replicate count 0) offset =
          (.ok (min count (contents.length - offset),
            overwrite (List.replicate count 0) 0
              (window contents offset count)), backing') ∧
        backing'.Presents contents ∧ backing'.len = contents.length := by
    intro count offset allocated offsetLt
    have bufLength : (List.replicate count (0 : UInt8)).length = count :=
      List.length_replicate
    obtain ⟨backing', ran, presents'⟩ := @readAt_of_presents F S _ _ contents
      wordCount backing (List.replicate count 0) offset presents
      (by rw [bufLength]; exact allocated) offsetLt
      (by
        rw [bufLength]
        unfold isizeMax at allocated
        unfold wordCount
        omega)
    rw [bufLength] at ran
    have kept := len_readAt wordCount backing (List.replicate count 0) offset
    rw [ran] at kept
    exact ⟨backing', ran, presents', kept.trans lengthEq⟩
  have taken : ∀ count offset : Nat, (overwrite (List.replicate count 0) 0
      (window contents offset count)).take
        (min count (contents.length - offset)) =
      window contents offset count := by
    intro count offset
    have delivered := length_window contents offset count
    rw [← append_drop_eq_overwrite delivered, List.take_left' delivered]
  cases request with
  | readAt count offset =>
      obtain ⟨backing', ran, stays⟩ := filled typed.1 typed.2
      have answered : Storage.answer backing (.readAt count offset) =
          (.ok (window contents offset count), backing') := by
        change (passOn ((backing.readAt wordCount (List.replicate count 0)
            offset).1.map fun delivered => delivered.2.take delivered.1),
          (backing.readAt wordCount (List.replicate count 0) offset).2) = _
        rw [ran]
        exact congrArg (fun bytes => (Except.ok bytes, backing'))
          (taken count offset)
      rw [answered]
      exact ⟨rfl, stays⟩
  | readExactAt offset count =>
      obtain ⟨backing', ran, stays⟩ := filled typed.1 typed.2
      have answered : Storage.answer backing (.readExactAt offset count) =
          (.ok (window contents offset count), backing') := by
        change (passOn (backing.readExactAt wordCount offset count).1,
          (backing.readExactAt wordCount offset count).2) = _
        rw [readExactAt, zeroed_eq_ok typed.1]
        dsimp only
        rw [ran]
        exact congrArg (fun bytes => (Except.ok bytes, backing'))
          (taken count offset)
      rw [answered]
      exact ⟨rfl, stays⟩

end OpenBacking

/-! ## Opening an image -/

/-- What an image is opened from: a backing, or a stream as `open_reader` takes
it. -/
inductive ImageSource (F S : Type) where
  | given (backing : OpenBacking F S)
  | stream (reader : S)

/-- The source delivers the given bytes, which a machine can address. -/
def ImageSource.Presents (contents : Bytes) : ImageSource F S → Prop
  | .given backing => contents.length ≤ isizeMax ∧
      backing.Presents contents ∧ backing.len = contents.length
  | .stream reader => contents.length ≤ isizeMax ∧
      ServesStream contents reader

/-- The backing of an image. A stream is measured first. -/
def ImageSource.measured : ImageSource F S →
    Exec VhdxError (OpenBacking F S)
  | .given backing => .ok backing
  | .stream reader => raiseIo (passOn (measuredReader reader))

/-- `VhdxReader::open`, `from_backing`, `open_reader`, and with a parent
`from_backing_with_parent`. -/
def ImageSource.openWith {Q : Type} (source : ImageSource F S)
    (parent : Option Q) :
    Exec VhdxError (StorageReader (OpenBacking F S) Q) := do
  let backing ← source.measured
  StorageReader.fromBacking backing parent

/-- Open an image over its ancestors, the base image first. -/
def ImageSource.openChain (layers : Nat → ImageSource F S) : (depth : Nat) →
    Exec VhdxError (StorageReader (OpenBacking F S)
      (StorageParent (OpenBacking F S) depth))
  | 0 => (layers 0).openWith none
  | depth + 1 => do
      let parent ← openChain layers depth
      (layers (depth + 1)).openWith (some parent)

/-- Open an image in memory over its ancestors, the base image first. -/
def openChainInMemory (layers : Nat → Bytes) :
    (depth : Nat) → Exec VhdxError (VhdxReader (Parent depth))
  | 0 => VhdxReader.fromBacking (.mem (layers 0)) none
  | depth + 1 => do
      let parent ← openChainInMemory layers depth
      VhdxReader.fromBacking (.mem (layers (depth + 1))) (some parent)

section Chains

variable {P Q : Type} {related : Q → P → Prop}

omit [FileLength F] in
/-- A stream is measured up to its end. -/
theorem len_of_measured [FileLength F] {reader : S}
    {backing : OpenBacking F S} {contents : Bytes}
    (measured : measuredReader reader = .ok backing)
    (presents : backing.Presents contents) :
    backing.len = contents.length := by
  unfold measuredReader at measured
  split at measured
  · cases measured
  · split at measured
    · cases measured
    · cases measured
      exact presents.2.1

/-- An image opens as its bytes do. -/
theorem ImageSource.openWith_alike {source : ImageSource F S}
    {contents : Bytes} (presents : source.Presents contents)
    {parent : Option Q} {parent' : Option P}
    (parents : Option.Rel related parent parent') :
    Agree (AlikeOver related) (source.openWith parent)
      (VhdxReader.fromBacking (.mem contents) parent') := by
  cases source with
  | given backing =>
      obtain ⟨allocated, presents, lengthEq⟩ := presents
      exact fromBacking_alike
        (OpenBacking.serves_of_presents presents lengthEq) allocated parents
  | stream reader =>
      obtain ⟨allocated, serves⟩ := presents
      obtain ⟨backing, measured, presents⟩ :=
        @measuredReader_presents F S _ _ contents reader serves
      have lengthEq := len_of_measured measured presents
      rw [openWith, ImageSource.measured, measured]
      exact fromBacking_alike
        (OpenBacking.serves_of_presents presents lengthEq) allocated parents

/-- A chain of images opens as the chain of their bytes does. -/
theorem ImageSource.openChain_alike {layers : Nat → ImageSource F S}
    {contents : Nat → Bytes} (depth : Nat)
    (presents : ∀ layer ≤ depth, (layers layer).Presents (contents layer)) :
    Agree (AlikeOver (ParentsAlike depth)) (openChain layers depth)
      (openChainInMemory contents depth) := by
  induction depth with
  | zero =>
      exact openWith_alike (presents 0 (Nat.le_refl 0)) .none
  | succ depth inductionHypothesis =>
      have below := inductionHypothesis fun layer layerLe =>
        presents layer (Nat.le_succ_of_le layerLe)
      refine below.bind fun parent parent' alike => ?_
      exact openWith_alike (presents (depth + 1) (Nat.le_refl _))
        (.some alike)

/-- A chain of images on files, ranges of files, buffers and streams opens as
the chain of their bytes in memory does, and gives the same results to every
sequence of reads and seeks. -/
theorem openChain_outcomes {layers : Nat → ImageSource F S}
    {contents : Nat → Bytes} (depth : Nat)
    (presents : ∀ layer ≤ depth, (layers layer).Presents (contents layer)) :
    Agree (fun left right => ∀ calls : List Call,
        (∀ count, Call.read count ∈ calls → count ≤ isizeMax) →
          outcomes calls left = outcomes calls right)
      (ImageSource.openChain layers depth)
      (openChainInMemory contents depth) :=
  (ImageSource.openChain_alike depth presents).mono
    fun _ _ alike calls fits =>
      (bisimilar_alikeOver (bisimilar_parentsAlike depth)).outcomes_eq calls
        fits alike

end Chains

end Storage

/-! ## A chain on a stream and a file -/

/-- A source that serves at most two bytes of a request. -/
def inPairs (contents : Bytes) : ByteSource where
  contents := contents
  served offset count := min 2 (min count (contents.length - offset))
  served_le offset count := min_le_right _ _
  served_pos offset count asked inside := by omega

instance : FileLength ByteSource where
  len source := source.contents.length
  len_readAt _ _ _ := rfl

/-- A mapped block of the base image, and a block that its child leaves to
it. -/
def pairedContents (layer : Nat) : Bytes :=
  if layer = 0 then
    (standardPlan (diskItems guidVirtualDiskSize) [0x400006]
      [(0x400000, [7])]).container
  else (standardPlan (diskItems guidVirtualDiskSize) [0] []).container

/-- The base image behind a stream, its child in a file. -/
def pairedLayers (layer : Nat) : ImageSource ByteSource SourceCursor :=
  if layer = 0 then
    .stream { source := inPairs (pairedContents 0), pos := 0 }
  else .given (.file (inPairs (pairedContents layer)))

theorem standardFits_pairedContents :
    StandardFits (diskItems guidVirtualDiskSize) [0x400006]
        [(0x400000, [7])] ∧
      StandardFits (diskItems guidVirtualDiskSize) [0] [] := by
  have items := @diskItems_fit guidVirtualDiskSize rfl
  refine ⟨⟨items, by decide, List.pairwise_singleton _ _, ?_⟩,
    ⟨items, by decide, List.Pairwise.nil, ?_⟩⟩
  · intro piece member
    rw [List.mem_singleton.mp member]
    exact ⟨by decide, by decide⟩
  · intro piece member
    cases member

theorem length_pairedContents (layer : Nat) :
    (pairedContents layer).length = 0x600000 := by
  unfold pairedContents
  split <;> exact ContainerPlan.length_container _

theorem presents_inPairs {contents : Bytes}
    (allocated : contents.length ≤ isizeMax) :
    (ImageSource.stream { source := inPairs contents, pos := 0 } :
        ImageSource ByteSource SourceCursor).Presents contents ∧
      (ImageSource.given (.file (inPairs contents)) :
        ImageSource ByteSource SourceCursor).Presents contents := by
  have small : contents.length < wordCount :=
    Buffer.length_lt ⟨contents, allocated⟩
  exact ⟨⟨allocated, SourceCursor.servesStream
      { source := inPairs contents, pos := 0 } small⟩,
    ⟨allocated, ⟨small, (inPairs contents).servesFile⟩, rfl⟩⟩

theorem pairedLayers_present (layer : Nat) :
    (pairedLayers layer).Presents (pairedContents layer) := by
  have allocated : (pairedContents layer).length ≤ isizeMax := by
    rw [length_pairedContents]
    decide
  unfold pairedLayers
  split
  · rename_i base
    subst base
    exact (presents_inPairs allocated).1
  · exact (presents_inPairs allocated).2

/-- A container without a log opens through an empty overlay. -/
theorem fromMem_standardPlan {P : Type} {bat : List Nat} {extra : List Run}
    (fits : StandardFits (diskItems guidVirtualDiskSize) bat extra)
    (entriesLt : ∀ entry ∈ bat, entry < 2 ^ 64) (parent : Option P) :
    ∃ reader, VhdxReader.fromBacking
      (.mem (standardPlan (diskItems guidVirtualDiskSize) bat
        extra).container) parent = .ok reader := by
  have describes := standardPlan_describes fits recordedItems_diskItems
    oneBlockDisk_valid
  have opened := standardPlan_opens fits entriesLt recordedItems_diskItems
    oneBlockDisk_valid parent fun differencing => by cases differencing
  have allocated := describes.allocated
  rw [← ContainerPlan.length_container] at allocated
  obtain ⟨data, dataEq⟩ : ∃ data, data = (standardPlan
    (diskItems guidVirtualDiskSize) bat extra).container := ⟨_, rfl⟩
  have pending : pendingEntries data = .ok [] := by
    rw [pendingEntries]
    rcases describes.fits.activeHeader with active | active <;>
      rw [dataEq, active]
    · exact if_pos describes.clean1
    · exact if_pos describes.clean2
  rw [← dataEq] at opened allocated ⊢
  refine ⟨_, Eq.trans ?_ opened⟩
  rw [VhdxReader.fromMem_eq parent allocated,
    VhdxReader.fromBytes_eq parent allocated, pending]
  rfl

/-- The base image behind a stream and its child in a file open, and behave
as their bytes in memory. -/
theorem openChain_outcomes_pairs :
    (∃ reader, openChainInMemory pairedContents 1 = .ok reader) ∧
      Agree (fun left right => ∀ calls : List Call,
          (∀ count, Call.read count ∈ calls → count ≤ isizeMax) →
            outcomes calls left = outcomes calls right)
        (ImageSource.openChain pairedLayers 1)
        (openChainInMemory pairedContents 1) := by
  refine ⟨?_, openChain_outcomes 1 fun layer _ => pairedLayers_present layer⟩
  obtain ⟨base, baseOpened⟩ := fromMem_standardPlan
    standardFits_pairedContents.1 (by simp) (none : Option (Parent 0))
  obtain ⟨child, childOpened⟩ := fromMem_standardPlan
    standardFits_pairedContents.2 (by simp) (some base)
  have baseContents : pairedContents 0 = _ := if_pos rfl
  have childContents : pairedContents 1 = _ := if_neg Nat.one_ne_zero
  rw [← baseContents] at baseOpened
  rw [← childContents] at childOpened
  refine ⟨child, ?_⟩
  rw [openChainInMemory, openChainInMemory]
  change (VhdxReader.fromBacking (.mem (pairedContents 0))
    (none : Option (Parent 0)) >>= fun parent =>
      VhdxReader.fromBacking (.mem (pairedContents 1)) (some parent)) = _
  rw [baseOpened, ok_bind]
  exact childOpened

end VhdxForensic

import VhdxForensic.Core.Backing
import VhdxForensic.Rust.Device
import VhdxForensic.Rust.ShortReads

/-!
# Calls on backings

The four backings with their state. A call fills a buffer of its caller, files
and streams may serve each request in part, and a stream keeps a cursor and a
mutex between calls. The calls do not show which of the backings they are
made on.
-/

namespace VhdxForensic

open Rust Rust.Bytes Rust.Exec

/-- The positioned reads of an operating system, on the state of an open
file. -/
class PositionedRead (F : Type) where
  /-- One read of the system at an offset. -/
  readAt : F → Nat → Bytes → ReadResult × F

/-- `ReadSeekSend`: a stream that is read at its own position. -/
class ReadSeekSend (P : Type) where
  /-- Fill a buffer from the current position, perhaps in part. -/
  read : P → Bytes → ReadResult × P
  /-- Move the position. -/
  seek : P → SeekFrom → Exec ReadError Nat × P

section Code

variable {F P : Type} [PositionedRead F] [ReadSeekSend P]

/-- Fill `buf` from `offset` on by positioned reads, which are repeated when
they are interrupted. -/
def preadInto (fuel : Nat) (file : F) (buf : Bytes) (offset : Nat) :
    ReadResult × F :=
  fillLoop true
    (fun file total slice =>
      match (add offset total : Exec ReadError Nat) with
      | .ok pos => PositionedRead.readAt file pos slice
      | .error stop => (.error stop, file))
    fuel file buf 0

/-- A backing with the state of its file or stream. -/
inductive OpenBacking (F P : Type) where
  | file (file : F)
  | sub (file : F) (base len : Nat)
  | mem (bytes : Bytes)
  | reader (inner : P) (poisoned : Bool) (len : Nat)

/-- The result for a buffer of which only the front was passed on. -/
def withRest (rest : Bytes) (result : ReadResult) : ReadResult :=
  result.map fun delivered => (delivered.1, delivered.2 ++ rest)

/-- A panic while the guard is held poisons the mutex. -/
def poisons {α : Type} (result : Exec ReadError α) : Bool :=
  match result with
  | .error .panic => true
  | _ => false

/-- Position the stream and read until the buffer is full. -/
def seekAndRead (fuel : Nat) (inner : P) (dst : Bytes) (offset : Nat) :
    ReadResult × P :=
  match ReadSeekSend.seek inner (.start offset) with
  | (.error stop, inner) => (.error stop, inner)
  | (.ok _, inner) =>
      fillLoop false (fun inner _ slice => ReadSeekSend.read inner slice)
        fuel inner dst 0

namespace OpenBacking

/-- Fill `buf` from `offset` within the container. -/
def readAt (fuel : Nat) (backing : OpenBacking F P) (buf : Bytes)
    (offset : Nat) : ReadResult × OpenBacking F P :=
  match backing with
  | .file handle =>
      let (result, handle) := preadInto fuel handle buf offset
      (result, .file handle)
  | .sub handle base len =>
      let avail := len - offset
      if avail = 0 then (.ok (0, buf), .sub handle base len)
      else
        let want := min buf.length avail
        match (add base offset : Exec ReadError Nat) with
        | .error stop => (.error stop, .sub handle base len)
        | .ok start =>
            let (result, handle) :=
              preadInto fuel handle (buf.take want) start
            (withRest (buf.drop want) result, .sub handle base len)
  | .mem bytes =>
      let off := min offset bytes.length
      let src := bytes.drop off
      let n := min src.length buf.length
      (.ok (n, overwrite buf 0 (src.take n)), .mem bytes)
  | .reader inner poisoned len =>
      let avail := len - offset
      if avail = 0 then (.ok (0, buf), .reader inner poisoned len)
      else if poisoned = true then
        (fail (.other "backing reader mutex poisoned"),
          .reader inner poisoned len)
      else
        let want := min buf.length avail
        let (result, inner) := seekAndRead fuel inner (buf.take want) offset
        (withRest (buf.drop want) result, .reader inner (poisons result) len)

/-- Read into a fresh buffer, truncated to what was delivered. -/
def readExactAt (fuel : Nat) (backing : OpenBacking F P) (offset len : Nat) :
    Exec ReadError Bytes × OpenBacking F P :=
  match (zeroed len : Exec ReadError Bytes) with
  | .error stop => (.error stop, backing)
  | .ok buf =>
      let (result, backing) := readAt fuel backing buf offset
      (result.map fun (delivered : Nat × Bytes) =>
        delivered.2.take delivered.1, backing)

end OpenBacking

/-- The backing that `open_reader` makes of a stream. It measures the stream
by a seek to its end. -/
def measuredReader (reader : P) : Exec ReadError (OpenBacking F P) :=
  match ReadSeekSend.seek reader (.fromEnd 0) with
  | (.error stop, _) => .error stop
  | (.ok len, reader) =>
      match ReadSeekSend.seek reader (.start 0) with
      | (.error stop, _) => .error stop
      | (.ok _, reader) => .ok (.reader reader false len)

/-! ## Sequences of calls -/

/-- A call on a backing. -/
inductive BackingCall where
  | readAt (buf : Bytes) (offset : Nat)
  | readExactAt (offset len : Nat)
  deriving DecidableEq, Repr

/-- What a caller gets back. -/
inductive BackingReply where
  | filled (result : ReadResult)
  | fresh (result : Exec ReadError Bytes)

namespace BackingCall

/-- The arguments are of their types, and memory holds the buffer. -/
def Typed : BackingCall → Prop
  | .readAt buf offset => buf.length ≤ isizeMax ∧ offset < wordCount
  | .readExactAt offset len => offset < wordCount ∧ len < wordCount

/-- Size of the buffer. -/
def size : BackingCall → Nat
  | .readAt buf _ => buf.length
  | .readExactAt _ len => len

end BackingCall

namespace OpenBacking

/-- Perform one call. -/
def perform (fuel : Nat) (backing : OpenBacking F P) :
    BackingCall → BackingReply × OpenBacking F P
  | .readAt buf offset =>
      let (result, backing) := backing.readAt fuel buf offset
      (.filled result, backing)
  | .readExactAt offset len =>
      let (result, backing) := backing.readExactAt fuel offset len
      (.fresh result, backing)

/-- The replies to a sequence of calls. -/
def replies (fuel : Nat) :
    List BackingCall → OpenBacking F P → List BackingReply
  | [], _ => []
  | call :: calls, backing =>
      let (reply, backing) := backing.perform fuel call
      reply :: replies fuel calls backing

end OpenBacking

end Code

/-! ## What the backings present -/

section Presents

variable {F P : Type} [PositionedRead F] [ReadSeekSend P]

/-- Positioned reads of the file deliver its bytes and nothing else, however
often it is read, and possibly fewer than were asked for. -/
def ServesFile (contents : Bytes) (file : F) : Prop :=
  ∃ Holds : F → Prop, Holds file ∧ ∀ file, Holds file →
    ∀ offset slice, ∃ n after file',
      PositionedRead.readAt file offset slice = (.ok (n, after), file') ∧
        Holds file' ∧ Delivered True contents offset slice after n ∧
        Progress contents offset slice n

/-- The stream has a position to which it seeks and from which it delivers
the bytes, possibly fewer than were asked for. It may use the rest of the
buffer as it likes. -/
def ServesStream (contents : Bytes) (inner : P) : Prop :=
  ∃ At : Nat → P → Prop, (∃ pos, At pos inner) ∧ ∀ pos inner, At pos inner →
    (∀ offset, ∃ inner', ReadSeekSend.seek inner (.start offset) =
      (.ok offset, inner') ∧ At offset inner') ∧
    (∃ inner', ReadSeekSend.seek inner (.fromEnd 0) =
      (.ok contents.length, inner') ∧ At contents.length inner') ∧
    ∀ slice, ∃ n after inner',
      ReadSeekSend.read inner slice = (.ok (n, after), inner') ∧
        At (pos + n) inner' ∧ Delivered False contents pos slice after n ∧
        Progress contents pos slice n

/-- The backing presents the given bytes. Files have lengths of 64 bits. -/
def OpenBacking.Presents (contents : Bytes) : OpenBacking F P → Prop
  | .file handle => contents.length < wordCount ∧ ServesFile contents handle
  | .sub handle base len => ∃ outer : Bytes, outer.length < wordCount ∧
      base + len ≤ outer.length ∧ window outer base len = contents ∧
      ServesFile outer handle
  | .mem bytes => bytes = contents
  | .reader inner poisoned len => poisoned = false ∧
      len = contents.length ∧ ServesStream contents inner

/-- The reply to a call, from the bytes alone. -/
def replyOn (contents : Bytes) : BackingCall → BackingReply
  | .readAt buf offset =>
      .filled (.ok (min buf.length (contents.length - offset),
        overwrite buf 0 (window contents offset buf.length)))
  | .readExactAt offset len => .fresh do
      let _ ← zeroed len
      return window contents offset len

variable {contents : Bytes} {fuel : Nat}

/-- A full read turns the buffer into the bytes asked for, followed by what
it held before. -/
theorem eq_overwrite_of_delivered {clean : Prop} {start : Nat}
    {before after : Bytes} {n : Nat}
    (delivered : Delivered clean contents start before after n)
    (full : n = min before.length (contents.length - start))
    (rest : after.drop n = before.drop n) :
    after = overwrite before 0 (window contents start before.length) := by
  have front : window contents start before.length =
      window contents start n := by
    unfold window
    rw [List.take_eq_take_iff, List.length_drop]
    omega
  rw [overwrite, List.take_zero, List.nil_append, Nat.zero_add, length_window,
    ← full, ← rest, front, ← delivered.front_eq]
  exact (List.take_append_drop n after).symm

/-- A positioned read of a file delivers the bytes asked for. -/
theorem preadInto_of_serves {file : F} {buf : Bytes} {offset : Nat}
    (small : contents.length < wordCount) (serves : ServesFile contents file)
    (allocated : buf.length ≤ isizeMax) (offsetLt : offset < wordCount)
    (enough : buf.length < fuel) :
    ∃ file', preadInto fuel file buf offset =
        (.ok (min buf.length (contents.length - offset),
          overwrite buf 0 (window contents offset buf.length)), file') ∧
      ServesFile contents file' := by
  obtain ⟨Holds, holds, conforms⟩ := serves
  obtain ⟨n, after, file', ran, ⟨holds', -⟩, delivered, full⟩ :=
    @fillLoop_of_delivered True contents buf buf offset 0 F
      (fun total file => Holds file ∧ total ≤ contents.length - offset)
      (fun file total slice =>
        match (add offset total : Exec ReadError Nat) with
        | .ok pos => PositionedRead.readAt file pos slice
        | .error stop => (.error stop, file))
      true allocated (by
        intro total file slice stands nonempty within
        obtain ⟨n, after, file', ran, holds', delivered, progress⟩ :=
          conforms file stands.1 (offset + total) slice
        have source := delivered.le_source
        refine ⟨n, after, file', ?_, ⟨holds', by omega⟩, delivered, progress⟩
        rw [add_eq_ok (by omega), ← ran]) fuel file
      (by omega) ⟨holds, Nat.zero_le _⟩ Delivered.zero
  refine ⟨file', ?_, Holds, holds', conforms⟩
  rw [preadInto, ran, ← eq_overwrite_of_delivered delivered full
    (delivered.rest_eq trivial), full]

/-- A stream is read to the end of the buffer if it reaches that far. -/
theorem seekAndRead_of_serves {inner : P} {dst : Bytes} {offset : Nat}
    (serves : ServesStream contents inner) (allocated : dst.length ≤ isizeMax)
    (enough : dst.length < fuel)
    (reaches : offset + dst.length ≤ contents.length) :
    ∃ inner', seekAndRead fuel inner dst offset =
        (.ok (dst.length, window contents offset dst.length), inner') ∧
      ServesStream contents inner' := by
  obtain ⟨At, ⟨pos, stands⟩, conforms⟩ := serves
  obtain ⟨positioned, sought, standsAt⟩ := (conforms pos inner stands).1 offset
  obtain ⟨n, after, inner', ran, stands', delivered, full⟩ :=
    @fillLoop_of_delivered False contents dst dst offset 0 P
      (fun total inner => At (offset + total) inner)
      (fun inner _ slice => ReadSeekSend.read inner slice)
      false allocated (by
        intro total inner slice stands _ _
        have served := (conforms (offset + total) inner stands).2.2 slice
        simpa only [Nat.add_assoc] using served) fuel
      positioned (by omega) standsAt Delivered.zero
  refine ⟨inner', ?_, At, ⟨_, stands'⟩, conforms⟩
  have whole : after = window contents offset dst.length := by
    have front := delivered.front_eq
    rw [full, min_eq_left (by omega), ← delivered.length_eq,
      window_zero_length, delivered.length_eq] at front
    exact front
  rw [seekAndRead, sought]
  dsimp only
  rw [ran, whole, full, min_eq_left (by omega)]

/-- The front of a buffer and its rest. -/
theorem append_drop_eq_overwrite {buf front : Bytes} {want : Nat}
    (frontLength : front.length = want) :
    front ++ buf.drop want = overwrite buf 0 front := by
  rw [overwrite, List.take_zero, List.nil_append, Nat.zero_add, frontLength]

namespace OpenBacking

/-- One call delivers the bytes that the backing presents, and the backing
presents them afterwards. -/
theorem readAt_of_presents {backing : OpenBacking F P} {buf : Bytes}
    {offset : Nat} (presents : backing.Presents contents)
    (allocated : buf.length ≤ isizeMax) (offsetLt : offset < wordCount)
    (enough : buf.length < fuel) :
    ∃ backing', backing.readAt fuel buf offset =
        (.ok (min buf.length (contents.length - offset),
          overwrite buf 0 (window contents offset buf.length)), backing') ∧
      backing'.Presents contents := by
  cases backing with
  | file handle =>
      obtain ⟨small, serves⟩ := presents
      obtain ⟨handle', ran, serves'⟩ :=
        preadInto_of_serves small serves allocated offsetLt enough
      refine ⟨.file handle', ?_, small, serves'⟩
      rw [readAt, ran]
  | sub handle base len =>
      obtain ⟨outer, small, inside, rfl, serves⟩ := presents
      have total := length_window_of_le inside
      have content : window (window outer base len) offset buf.length =
          window outer (base + offset) (min buf.length (len - offset)) :=
        window_window _ _ _ _ _
      rw [total, content]
      by_cases past : len - offset = 0
      · refine ⟨.sub handle base len, ?_, outer, small, inside, rfl, serves⟩
        rw [readAt]
        dsimp only
        rw [if_pos past, past, Nat.min_zero, window_empty, overwrite_nil]
      obtain ⟨want, wantEq⟩ : ∃ want, want = min buf.length (len - offset) :=
        ⟨_, rfl⟩
      have wantLength : (buf.take want).length = want := by
        rw [List.length_take]
        omega
      have frontLength := @length_window_of_le outer (base + offset) want
        (by omega)
      obtain ⟨handle', ran, serves'⟩ := @preadInto_of_serves F _ outer fuel
        handle (buf.take want) (base + offset) small serves (by omega)
        (by omega) (by omega)
      refine ⟨.sub handle' base len, ?_, outer, small, inside, rfl, serves'⟩
      rw [wantLength, min_eq_left (by omega),
        ← append_drop_eq_overwrite frontLength,
        List.drop_eq_nil_of_le (by omega), List.append_nil] at ran
      rw [readAt]
      dsimp only
      rw [if_neg past, add_eq_ok (by omega), ← wantEq]
      dsimp only
      rw [ran, ← append_drop_eq_overwrite frontLength]
      rfl
  | mem bytes =>
      obtain rfl : bytes = contents := presents
      refine ⟨.mem bytes, ?_, rfl⟩
      have source := Backing.readAt_eq_window (.mem bytes) buf.length offset
      rw [readAt, ← show _ = window bytes offset buf.length from source]
      dsimp only [Backing.readAt]
      rw [List.length_drop, Nat.min_comm,
        show bytes.length - min offset bytes.length =
          bytes.length - offset by omega]
  | reader inner poisoned len =>
      obtain ⟨rfl, rfl, serves⟩ := presents
      by_cases past : contents.length - offset = 0
      · refine ⟨.reader inner false contents.length, ?_, rfl, rfl, serves⟩
        rw [readAt]
        dsimp only
        rw [if_pos past, past, Nat.min_zero, window,
          List.drop_eq_nil_of_le (by omega), List.take_nil, overwrite_nil]
      obtain ⟨want, wantEq⟩ : ∃ want,
        want = min buf.length (contents.length - offset) := ⟨_, rfl⟩
      have wantLength : (buf.take want).length = want := by
        rw [List.length_take]
        omega
      have frontLength := @length_window_of_le contents offset want (by omega)
      have content : window contents offset buf.length =
          window contents offset want := by
        unfold window
        rw [List.take_eq_take_iff, List.length_drop]
        omega
      obtain ⟨inner', ran, serves'⟩ := @seekAndRead_of_serves P _ contents
        fuel inner (buf.take want) offset serves (by omega) (by omega)
        (by omega)
      refine ⟨.reader inner' false contents.length, ?_, rfl, rfl, serves'⟩
      rw [wantLength] at ran
      rw [readAt]
      dsimp only
      rw [if_neg past, if_neg Bool.false_ne_true, ← wantEq, ran, content,
        ← append_drop_eq_overwrite frontLength]
      rfl

/-- One call of either kind gets the reply that the bytes determine. -/
theorem perform_of_presents {backing : OpenBacking F P} {call : BackingCall}
    (presents : backing.Presents contents) (typed : call.Typed)
    (enough : call.size < fuel) :
    ∃ backing', backing.perform fuel call =
        (replyOn contents call, backing') ∧ backing'.Presents contents := by
  cases call with
  | readAt buf offset =>
      obtain ⟨backing', ran, presents'⟩ :=
        readAt_of_presents presents typed.1 typed.2 enough
      refine ⟨backing', ?_, presents'⟩
      rw [perform, ran]
      rfl
  | readExactAt offset len =>
      by_cases allocatable : len ≤ isizeMax
      case neg =>
        refine ⟨backing, ?_, presents⟩
        rw [perform, readExactAt, replyOn, zeroed, if_neg allocatable]
        rfl
      have bufLength : (List.replicate len (0 : UInt8)).length = len :=
        List.length_replicate
      obtain ⟨backing', ran, presents'⟩ := @readAt_of_presents F P _ _ contents
        fuel backing (List.replicate len 0) offset presents
        (by rw [bufLength]; exact allocatable) typed.1
        (by rw [bufLength]; exact enough)
      refine ⟨backing', ?_, presents'⟩
      rw [bufLength] at ran
      rw [perform, readExactAt, replyOn, zeroed_eq_ok allocatable]
      dsimp only
      rw [ran, ok_bind]
      have delivered := length_window contents offset len
      have taken : (overwrite (List.replicate len 0) 0
          (window contents offset len)).take
            (min len (contents.length - offset)) =
          window contents offset len := by
        rw [← append_drop_eq_overwrite delivered, List.take_left' delivered]
      exact congrArg (fun bytes => (BackingReply.fresh (.ok bytes), backing'))
        taken

/-- Whatever a backing is made of, a sequence of calls gets the replies that
the bytes determine. -/
theorem replies_of_presents (calls : List BackingCall)
    {backing : OpenBacking F P} (presents : backing.Presents contents)
    (typed : ∀ call ∈ calls, call.Typed)
    (enough : ∀ call ∈ calls, call.size < fuel) :
    backing.replies fuel calls = calls.map (replyOn contents) := by
  induction calls generalizing backing with
  | nil => rfl
  | cons call calls inductionHypothesis =>
      obtain ⟨typedFirst, typedRest⟩ := List.forall_mem_cons.mp typed
      obtain ⟨enoughFirst, enoughRest⟩ := List.forall_mem_cons.mp enough
      obtain ⟨backing', ran, presents'⟩ :=
        perform_of_presents presents typedFirst enoughFirst
      rw [replies, ran, List.map_cons]
      exact congrArg _ (inductionHypothesis presents' typedRest enoughRest)

end OpenBacking

/-- The backing made of a stream presents the bytes of the stream. -/
theorem measuredReader_presents {reader : P}
    (serves : ServesStream contents reader) :
    ∃ backing : OpenBacking F P, measuredReader reader = .ok backing ∧
      backing.Presents contents := by
  obtain ⟨At, ⟨pos, stands⟩, conforms⟩ := serves
  obtain ⟨ended, measured, standsEnd⟩ := (conforms pos reader stands).2.1
  obtain ⟨rewound, sought, standsStart⟩ := (conforms _ ended standsEnd).1 0
  refine ⟨.reader rewound false contents.length, ?_, rfl, rfl, At,
    ⟨0, standsStart⟩, conforms⟩
  rw [measuredReader, measured]
  dsimp only
  rw [sought]

end Presents

/-! ## Sources that serve requests in part -/

/-- A read of a source at a position. -/
def ByteSource.readSlice (source : ByteSource) (pos : Nat) (slice : Bytes) :
    Nat × Bytes :=
  let n := source.served pos slice.length
  (n, overwrite slice 0 (window source.contents pos n))

instance : PositionedRead ByteSource where
  readAt source offset slice := (.ok (source.readSlice offset slice), source)

/-- A source with a cursor. -/
structure SourceCursor where
  /-- What is read from. -/
  source : ByteSource
  /-- Where the next read starts. -/
  pos : Nat

/-- Move the cursor relative to `base`. -/
def SourceCursor.seekBy (cursor : SourceCursor) (base : Nat) (delta : Int) :
    Exec ReadError Nat × SourceCursor :=
  let newPos := base + delta
  if 0 ≤ newPos ∧ newPos < wordCount then
    (.ok newPos.toNat, { cursor with pos := newPos.toNat })
  else
    (fail (.other "invalid seek to a negative or overflowing position"),
      cursor)

instance : ReadSeekSend SourceCursor where
  read cursor slice :=
    (.ok (cursor.source.readSlice cursor.pos slice),
      { cursor with
        pos := cursor.pos + cursor.source.served cursor.pos slice.length })
  seek cursor target :=
    match target with
    | .start offset => (.ok offset, { cursor with pos := offset })
    | .current delta => cursor.seekBy cursor.pos delta
    | .fromEnd delta => cursor.seekBy cursor.source.contents.length delta

section Sources

variable {source : ByteSource}

theorem ByteSource.readSlice_delivered (pos : Nat) (slice : Bytes) :
    Delivered True source.contents pos slice (source.readSlice pos slice).2
        (source.readSlice pos slice).1 ∧
      Progress source.contents pos slice (source.readSlice pos slice).1 := by
  have atMost := source.served_le pos slice.length
  have frontLength := @length_window source.contents pos
    (source.served pos slice.length)
  rw [min_eq_left (by omega)] at frontLength
  have fits : 0 + (window source.contents pos
      (source.served pos slice.length)).length ≤ slice.length := by omega
  have leBuffer : source.served pos slice.length ≤ slice.length := by omega
  have leSource : source.served pos slice.length ≤
      source.contents.length - pos := by omega
  refine ⟨⟨length_overwrite fits, leBuffer, leSource, ?_, fun _ => ?_⟩,
    source.served_pos pos slice.length⟩
  · have front := window_overwrite_self fits
    rwa [frontLength] at front
  · rw [ByteSource.readSlice, ← append_drop_eq_overwrite frontLength]
    exact List.drop_left' frontLength

theorem ByteSource.servesFile (source : ByteSource) :
    ServesFile source.contents source := by
  refine ⟨fun file => file = source, rfl, ?_⟩
  rintro file rfl offset slice
  obtain ⟨delivered, progress⟩ := file.readSlice_delivered offset slice
  exact ⟨_, _, file, rfl, rfl, delivered, progress⟩

theorem SourceCursor.seekBy_zero (cursor : SourceCursor) {base : Nat}
    (small : base < wordCount) :
    cursor.seekBy base 0 = (.ok base, { cursor with pos := base }) := by
  rw [seekBy, Int.add_zero, if_pos (by omega), Int.toNat_natCast]

theorem SourceCursor.servesStream (cursor : SourceCursor)
    (small : cursor.source.contents.length < wordCount) :
    ServesStream cursor.source.contents cursor := by
  refine ⟨fun pos moved => moved = { cursor with pos }, ⟨cursor.pos, rfl⟩, ?_⟩
  rintro pos moved rfl
  refine ⟨fun offset => ⟨_, rfl, rfl⟩,
    ⟨_, SourceCursor.seekBy_zero _ small, rfl⟩, fun slice => ?_⟩
  · obtain ⟨delivered, progress⟩ :=
      cursor.source.readSlice_delivered pos slice
    refine ⟨_, _, _, rfl, rfl, ⟨delivered.length_eq, delivered.le_buffer,
      delivered.le_source, delivered.front_eq, False.elim⟩, progress⟩

/-- The backing with the state of its source. -/
def Backing.opened : Backing → OpenBacking ByteSource SourceCursor
  | .file source => .file source
  | .sub source base len _ => .sub source base len
  | .mem bytes => .mem bytes
  | .reader inner =>
      .reader { source := inner, pos := 0 } false inner.contents.length

/-- Length of the file or stream behind a backing. -/
def Backing.sourceLength : Backing → Nat
  | .file source => source.contents.length
  | .sub source _ _ _ => source.contents.length
  | .mem bytes => bytes.length
  | .reader inner => inner.contents.length

theorem Backing.opened_presents (backing : Backing)
    (small : backing.sourceLength < wordCount) :
    backing.opened.Presents backing.view := by
  cases backing with
  | file source => exact ⟨small, source.servesFile⟩
  | sub source base len inside =>
      exact ⟨source.contents, small, inside, rfl, source.servesFile⟩
  | mem bytes => rfl
  | reader inner =>
      exact ⟨rfl, rfl,
        SourceCursor.servesStream { source := inner, pos := 0 } small⟩

end Sources

/-- Five bytes, served at most two at a time. -/
def pairSource : ByteSource where
  contents := [1, 2, 3, 4, 5]
  served offset count := min 2 (min count (5 - offset))
  served_le offset count := min_le_right _ _
  served_pos offset count := by
    rw [List.length_cons, List.length_cons, List.length_cons,
      List.length_cons, List.length_cons, List.length_nil]
    omega

/-- A stream of five bytes answers reads inside, across and behind its end. -/
theorem replies_of_presents_pairSource :
    OpenBacking.replies 9
        [.readAt (List.replicate 8 7) 1, .readExactAt 3 4, .readAt [7] 99]
        (Backing.reader pairSource).opened =
      [.filled (.ok (4, [2, 3, 4, 5, 7, 7, 7, 7])), .fresh (.ok [4, 5]),
        .filled (.ok (0, [7]))] :=
  OpenBacking.replies_of_presents
    [.readAt (List.replicate 8 7) 1, .readExactAt 3 4, .readAt [7] 99]
    ((Backing.reader pairSource).opened_presents
      (show 5 < wordCount by decide))
    (by simp [BackingCall.Typed, isizeMax, wordCount])
    (by simp [BackingCall.size])

end VhdxForensic
